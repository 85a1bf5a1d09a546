import Mathlib.Data.List.Basic

/-!
# Machines that are watched

A machine takes steps, and each step shows an event. A run is the list of events seen
so far and the state they led to, so that what a machine has done is part of every
statement about it and never part of its state.

A run may be one whose every step meets a condition on what was seen and on the state
before it (`RunWhere`). **An invariant is checked where the runs begin and over one
step** (`RunWhere.invariant`).
-/

namespace Albusforge.Lib

structure Machine (σ ε : Type) where
  init : σ → Prop
  step : σ → ε → σ → Prop

namespace Machine

variable {σ ε : Type}

/-- The runs all of whose steps meet `C`. -/
inductive RunWhere (m : Machine σ ε) (C : List ε → σ → ε → Prop) : List ε → σ → Prop
  | init {s : σ} : m.init s → RunWhere m C [] s
  | step {es : List ε} {s s' : σ} {e : ε} :
      RunWhere m C es s → m.step s e s' → C es s e → RunWhere m C (es ++ [e]) s'

abbrev Run (m : Machine σ ε) : List ε → σ → Prop := m.RunWhere fun _ _ _ => True

inductive Steps (m : Machine σ ε) : σ → List ε → σ → Prop
  | refl (s : σ) : Steps m s [] s
  | step {s s' s'' : σ} {e : ε} {es : List ε} : m.step s e s' → Steps m s' es s'' →
      Steps m s (e :: es) s''

variable {m : Machine σ ε} {C : List ε → σ → ε → Prop}

theorem RunWhere.invariant {I : List ε → σ → Prop} (hinit : ∀ s, m.init s → I [] s)
    (hstep : ∀ es s e s', I es s → m.step s e s' → C es s e → I (es ++ [e]) s')
    {es : List ε} {s : σ} (h : m.RunWhere C es s) : I es s := by
  induction h with
  | init h₀ => exact hinit _ h₀
  | step _ hs hc ih => exact hstep _ _ _ _ ih hs hc

theorem Steps.trans {s s' s'' : σ} {es es' : List ε} (h : m.Steps s es s')
    (h' : m.Steps s' es' s'') : m.Steps s (es ++ es') s'' := by
  induction h with
  | refl => exact h'
  | step hs _ ih => exact .step hs (ih h')

theorem Steps.one {s s' : σ} {e : ε} (h : m.step s e s') : m.Steps s [e] s' :=
  .step h (.refl s')

theorem Run.steps {es es' : List ε} {s s' : σ} (h : m.Run es s) (hs : m.Steps s es' s') :
    m.Run (es ++ es') s' := by
  induction hs generalizing es with
  | refl => rwa [List.append_nil]
  | @step s s' s'' e es' hone _ ih =>
      have hnext := ih (RunWhere.step h hone trivial)
      rwa [List.append_assoc, List.singleton_append] at hnext

theorem Steps.cons_inv {s s' : σ} {e : ε} {es : List ε} (h : m.Steps s (e :: es) s') :
    ∃ s₁, m.step s e s₁ ∧ m.Steps s₁ es s' := by
  cases h with
  | step hone hrest => exact ⟨_, hone, hrest⟩

theorem Steps.split {s s' : σ} {es es' : List ε} (h : m.Steps s (es ++ es') s') :
    ∃ s₁, m.Steps s es s₁ ∧ m.Steps s₁ es' s' := by
  induction es generalizing s with
  | nil => exact ⟨s, .refl s, h⟩
  | cons e es ih =>
      obtain ⟨s₁, hone, hrest⟩ := Steps.cons_inv h
      obtain ⟨s₂, hfirst, hlast⟩ := ih hrest
      exact ⟨s₂, .step hone hfirst, hlast⟩

theorem Run.split {es es' : List ε} {s : σ} (h : m.Run (es ++ es') s) :
    ∃ s₁, m.Run es s₁ ∧ m.Steps s₁ es' s := by
  generalize hall : es ++ es' = all at h
  induction h generalizing es' with
  | init hinit =>
      obtain ⟨rfl, rfl⟩ := List.append_eq_nil_iff.mp hall
      exact ⟨_, .init hinit, .refl _⟩
  | @step before s₁ s₂ e hrun hone _ ih =>
      rcases List.eq_nil_or_concat es' with rfl | ⟨front, last, rfl⟩
      · rw [List.append_nil] at hall
        subst hall
        exact ⟨s₂, .step hrun hone trivial, .refl s₂⟩
      · rw [List.concat_eq_append, ← List.append_assoc] at hall
        obtain ⟨hfront, hlast⟩ := List.append_inj' hall rfl
        obtain ⟨s₃, hrun₃, hsteps⟩ := ih hfront
        obtain rfl := List.singleton_inj.mp hlast
        refine ⟨s₃, hrun₃, ?_⟩
        rw [List.concat_eq_append]
        exact hsteps.trans (.one hone)

end Machine

end Albusforge.Lib
