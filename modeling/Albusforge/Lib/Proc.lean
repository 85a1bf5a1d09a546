/-!
# Procedures that may be cut off

A procedure asks its surroundings for something, waits for the answer and goes on from it. What the
surroundings may do is a relation, so that they can fail in any way they are said to. A procedure may
be cut off wherever it asks or has just ended: it then has no value, and the state it had reached
is all that is left of it.

**`Proc.wp` is what holds however a procedure goes** (`Proc.wp_iff`): of its value and the state it ends
in, and of every state it may be cut off in. `Proc.ends` is for surroundings that always answer: the
procedure then has a value, and this holds of it (`Proc.ends_exec`).
-/

namespace Albusforge.Lib

inductive Proc {Op : Type} (Ret : Op → Type) (α : Type)
  | ret (a : α)
  | call (op : Op) (next : Ret op → Proc Ret α)
  | never

namespace Proc

variable {Op : Type} {Ret : Op → Type} {σ α β : Type}

def bind : Proc Ret α → (α → Proc Ret β) → Proc Ret β
  | ret a, f => f a
  | call op next, f => call op fun r => (next r).bind f
  | never, _ => never

instance : Monad (Proc Ret) where
  pure := ret
  bind := bind

def ask (op : Op) : Proc Ret (Ret op) := call op ret

abbrev Surroundings (Ret : Op → Type) (σ : Type) : Type := σ → (op : Op) → Ret op → σ → Prop

inductive Exec (env : Surroundings Ret σ) : σ → Proc Ret α → σ → Option α → Prop
  | ret {s : σ} {a : α} : Exec env s (.ret a) s (some a)
  | call {s s' s'' : σ} {op : Op} {r : Ret op} {next : Ret op → Proc Ret α} {x : Option α} :
      env s op r s' → Exec env s' (next r) s'' x → Exec env s (.call op next) s'' x
  | cut {s : σ} {t : Proc Ret α} : Exec env s t s none

/-- However the procedure goes from here, its value and last state meet `Q`, and a state it is cut off
in meets `C`. -/
def wp (env : Surroundings Ret σ) : Proc Ret α → (α → σ → Prop) → (σ → Prop) → σ → Prop
  | ret a, Q, C, s => Q a s ∧ C s
  | call op next, Q, C, s => C s ∧ ∀ r s', env s op r s' → wp env (next r) Q C s'
  | never, _, C, s => C s

variable {env : Surroundings Ret σ} {Q Q' : α → σ → Prop} {C C' : σ → Prop} {s s' : σ}

@[simp] theorem wp_ret {a : α} : wp env (.ret a) Q C s ↔ Q a s ∧ C s := Iff.rfl

@[simp] theorem wp_pure {a : α} : wp env (pure a) Q C s ↔ Q a s ∧ C s := Iff.rfl

@[simp] theorem wp_call {op : Op} {next : Ret op → Proc Ret α} :
    wp env (.call op next) Q C s ↔ C s ∧ ∀ r s', env s op r s' → wp env (next r) Q C s' := Iff.rfl

@[simp] theorem wp_never : wp env (never : Proc Ret α) Q C s ↔ C s := Iff.rfl

@[simp] theorem wp_ask {op : Op} {Q : Ret op → σ → Prop} :
    wp env (ask op) Q C s ↔ C s ∧ ∀ r s', env s op r s' → Q r s' ∧ C s' := Iff.rfl

theorem wp_start {t : Proc Ret α} (h : wp env t Q C s) : C s := by
  cases t with
  | ret a => exact h.2
  | call op next => exact h.1
  | never => exact h

theorem wp_mono {t : Proc Ret α} (hQ : ∀ a s, Q a s → Q' a s) (hC : ∀ s, C s → C' s)
    (h : wp env t Q C s) : wp env t Q' C' s := by
  induction t generalizing s with
  | ret a => exact ⟨hQ a s h.1, hC s h.2⟩
  | call op next ih => exact ⟨hC s h.1, fun r s' hr => ih r (h.2 r s' hr)⟩
  | never => exact hC s h

theorem wp_bind {t : Proc Ret α} {f : α → Proc Ret β} {Q : β → σ → Prop}
    (h : wp env t (fun a => wp env (f a) Q C) C s) : wp env (t >>= f) Q C s := by
  induction t generalizing s with
  | ret a => exact h.1
  | call op next ih => exact ⟨h.1, fun r s' hr => ih r (h.2 r s' hr)⟩
  | never => exact h

theorem wp_weaken {env' : Surroundings Ret σ} {t : Proc Ret α}
    (henv : ∀ s op r s', env' s op r s' → env s op r s') (h : wp env t Q C s) : wp env' t Q C s := by
  induction t generalizing s with
  | ret a => exact h
  | call op next ih => exact ⟨h.1, fun r s' hr => ih r (h.2 r s' (henv _ _ _ _ hr))⟩
  | never => exact h

theorem bind_congr {t : Proc Ret α} {f g : α → Proc Ret β} (hall : ∀ s op r, ∃ s', env s op r s')
    (h : wp env t (fun a _ => f a = g a) C s) : t >>= f = t >>= g := by
  induction t generalizing s with
  | ret a => exact h.1
  | call op next ih =>
    refine congrArg (call op) (funext fun r => ?_)
    obtain ⟨s', hr⟩ := hall s op r
    exact ih r (h.2 r s' hr)
  | never => rfl

theorem wp_and {t : Proc Ret α} (h : wp env t Q C s) (h' : wp env t Q' C' s) :
    wp env t (fun a s => Q a s ∧ Q' a s) (fun s => C s ∧ C' s) s := by
  induction t generalizing s with
  | ret a => exact ⟨⟨h.1, h'.1⟩, h.2, h'.2⟩
  | call op next ih => exact ⟨⟨h.1, h'.1⟩, fun r s' hr => ih r (h.2 r s' hr) (h'.2 r s' hr)⟩
  | never => exact ⟨h, h'⟩

/-- All that a procedure may ask for meets `P`. -/
def Asks (P : Op → Prop) : Proc Ret α → Prop
  | ret _ => True
  | call op next => P op ∧ ∀ r, (next r).Asks P
  | never => True

theorem Asks.bind {P : Op → Prop} {t : Proc Ret α} {f : α → Proc Ret β} (h : t.Asks P)
    (hf : ∀ a, (f a).Asks P) : (t >>= f).Asks P := by
  induction t with
  | ret a => exact hf a
  | call op next ih => exact ⟨h.1, fun r => ih r (h.2 r)⟩
  | never => trivial

theorem Asks.wp {P : Op → Prop} {I : σ → Prop} {t : Proc Ret α} (h : t.Asks P)
    (hkeep : ∀ s op r s', P op → I s → env s op r s' → I s') (hs : I s) :
    t.wp env (fun _ => I) I s := by
  induction t generalizing s with
  | ret a => exact ⟨hs, hs⟩
  | call op next ih => exact ⟨hs, fun r s' hr => ih r (h.2 r) (hkeep s op r s' h.1 hs hr)⟩
  | never => exact hs

theorem exec_bind {t : Proc Ret α} {f : α → Proc Ret β} {x : Option β} :
    Exec env s (t >>= f) s' x ↔
      (∃ s₁ a, Exec env s t s₁ (some a) ∧ Exec env s₁ (f a) s' x) ∨ Exec env s t s' none ∧ x = none := by
  constructor
  · intro h
    induction t generalizing s with
    | ret a => exact Or.inl ⟨s, a, .ret, h⟩
    | call op next ih =>
        generalize hcall : (call op next >>= f) = c at h
        cases h with
        | ret => exact absurd hcall (by simp [Bind.bind, Proc.bind])
        | call hop hrest =>
            obtain ⟨rfl, hnext⟩ := Proc.call.inj hcall
            obtain rfl := eq_of_heq hnext
            rcases ih _ hrest with ⟨s₁, a, hfirst, hsecond⟩ | ⟨hcut, hx⟩
            · exact Or.inl ⟨s₁, a, .call hop hfirst, hsecond⟩
            · exact Or.inr ⟨.call hop hcut, hx⟩
        | cut => exact Or.inr ⟨.cut, rfl⟩
    | never =>
        generalize hnever : ((never : Proc Ret α) >>= f) = c at h
        cases h with
        | ret => exact absurd hnever (by simp [Bind.bind, Proc.bind])
        | call _ _ => exact absurd hnever (by simp [Bind.bind, Proc.bind])
        | cut => exact Or.inr ⟨.cut, rfl⟩
  · intro h
    rcases h with ⟨s₁, a, hfirst, hsecond⟩ | ⟨hcut, rfl⟩
    · generalize hx : some a = y at hfirst
      induction hfirst with
      | ret =>
          obtain rfl := Option.some.inj hx
          exact hsecond
      | call hop _ ih => exact .call hop (ih hsecond hx)
      | cut => exact absurd hx (by simp)
    · generalize hx : (none : Option α) = y at hcut
      induction hcut with
      | ret => exact absurd hx (by simp)
      | call hop _ ih => exact .call hop (ih hx)
      | cut => exact .cut

theorem Exec.andThen {t : Proc Ret α} {f : α → Proc Ret β} {s₁ : σ} {a : α} {x : Option β}
    (h : Exec env s t s₁ (some a)) (h' : Exec env s₁ (f a) s' x) : Exec env s (t >>= f) s' x :=
  exec_bind.mpr (Or.inl ⟨s₁, a, h, h'⟩)

theorem Exec.ask {op : Op} {r : Ret op} (h : env s op r s') : Exec env s (Proc.ask op) s' (some r) :=
  .call h .ret

theorem Exec.weaken {env' : Surroundings Ret σ} {t : Proc Ret α} {x : Option α}
    (henv : ∀ s op r s', env' s op r s' → env s op r s') (h : Exec env' s t s' x) :
    Exec env s t s' x := by
  induction h with
  | ret => exact .ret
  | call hop _ ih => exact .call (henv _ _ _ _ hop) ih
  | cut => exact .cut

/-- What is gone through to a state that meets `P` is gone through in such states only, where no request leads to one
from any other. -/
theorem Exec.within {P : σ → Prop} {t : Proc Ret α} {x : Option α} (hback : ∀ s op r s', env s op r s' → P s' → P s)
    (h : Exec env s t s' x) (hP : P s') : P s ∧ Exec (fun s op r s' => env s op r s' ∧ P s') s t s' x := by
  induction h with
  | ret => exact ⟨hP, .ret⟩
  | call hop _ ih =>
    obtain ⟨hnext, hrest⟩ := ih hP
    exact ⟨hback _ _ _ _ hop hnext, .call ⟨hop, hnext⟩ hrest⟩
  | cut => exact ⟨hP, .cut⟩

theorem Exec.wp {t : Proc Ret α} {x : Option α} (h : Exec env s t s' x) (hwp : t.wp env Q C s) :
    (∀ a, x = some a → Q a s') ∧ (x = none → C s') := by
  induction h with
  | ret => exact ⟨fun a ha => Option.some.inj ha ▸ hwp.1, fun hx => absurd hx (by simp)⟩
  | call hop _ ih => exact ih (hwp.2 _ _ hop)
  | cut => exact ⟨fun a ha => absurd ha (by simp), fun _ => wp_start hwp⟩

theorem Exec.value {t : Proc Ret α} {a : α} (h : Exec env s t s' (some a)) (hwp : t.wp env Q C s) :
    Q a s' := (h.wp hwp).1 a rfl

theorem Exec.left {t : Proc Ret α} (h : Exec env s t s' none) (hwp : t.wp env Q C s) : C s' :=
  (h.wp hwp).2 rfl

/-- **What holds however a procedure goes is what `wp` says.** -/
theorem wp_iff {t : Proc Ret α} : t.wp env Q C s ↔
    (∀ s' a, Exec env s t s' (some a) → Q a s') ∧ ∀ s', Exec env s t s' none → C s' := by
  constructor
  · intro h
    exact ⟨fun s' a hexec => hexec.value h, fun s' hexec => hexec.left h⟩
  · intro h
    induction t generalizing s with
    | ret a => exact ⟨h.1 s a .ret, h.2 s .cut⟩
    | call op next ih =>
        refine ⟨h.2 s .cut, fun r s' hr => ih r ⟨?_, ?_⟩⟩
        · intro s'' a hexec
          exact h.1 s'' a (.call hr hexec)
        · intro s'' hexec
          exact h.2 s'' (.call hr hexec)
    | never => exact h.2 s .cut

/-! ## Procedures that end -/

/-- Every request has an answer, no loop goes on for too long, and the value and the last state meet `Q`. -/
def ends (env : Surroundings Ret σ) : Proc Ret α → (α → σ → Prop) → σ → Prop
  | ret a, Q, s => Q a s
  | call op next, Q, s => (∃ r s', env s op r s') ∧ ∀ r s', env s op r s' → ends env (next r) Q s'
  | never, _, _ => False

@[simp] theorem ends_pure {a : α} : ends env (pure a) Q s ↔ Q a s := Iff.rfl

theorem ends_ask {op : Op} {Q : Ret op → σ → Prop} (hanswer : ∃ r s', env s op r s')
    (h : ∀ r s', env s op r s' → Q r s') : ends env (ask op) Q s := ⟨hanswer, h⟩

theorem ends_mono {t : Proc Ret α} (hQ : ∀ a s, Q a s → Q' a s) (h : ends env t Q s) : ends env t Q' s := by
  induction t generalizing s with
  | ret a => exact hQ a s h
  | call op next ih => exact ⟨h.1, fun r s' hr => ih r (h.2 r s' hr)⟩
  | never => exact h

theorem ends_bind {t : Proc Ret α} {f : α → Proc Ret β} {Q : β → σ → Prop}
    (h : ends env t (fun a => ends env (f a) Q) s) : ends env (t >>= f) Q s := by
  induction t generalizing s with
  | ret a => exact h
  | call op next ih => exact ⟨h.1, fun r s' hr => ih r (h.2 r s' hr)⟩
  | never => exact h

theorem ends_and {t : Proc Ret α} (h : ends env t Q s) (h' : wp env t Q' C s) :
    ends env t (fun a s => Q a s ∧ Q' a s) s := by
  induction t generalizing s with
  | ret a => exact ⟨h, h'.1⟩
  | call op next ih => exact ⟨h.1, fun r s' hr => ih r (h.2 r s' hr) (h'.2 r s' hr)⟩
  | never => exact h

def Total : Proc Ret α → Prop
  | ret _ => True
  | call _ next => ∀ r, (next r).Total
  | never => False

theorem total_ask (op : Op) : (ask op : Proc Ret (Ret op)).Total := fun _ => trivial

theorem Total.bind {t : Proc Ret α} {f : α → Proc Ret β} (h : t.Total) (hf : ∀ a, (f a).Total) :
    (t >>= f).Total := by
  induction t with
  | ret a => exact hf a
  | call op next ih => exact fun r => ih r (h r)
  | never => exact absurd h id

theorem Total.ends {t : Proc Ret α} (h : t.Total) (hanswers : ∀ s op, ∃ r s', env s op r s') :
    t.ends env (fun _ _ => True) s := by
  induction t generalizing s with
  | ret a => trivial
  | call op next ih => exact ⟨hanswers s op, fun r s' _ => ih r (h r)⟩
  | never => exact absurd h id

theorem Exec.ended {t : Proc Ret α} {x : Option α} (h : Exec env s t s' x) (hends : ends env t Q s) :
    ∀ a, x = some a → Q a s' := by
  induction h with
  | ret =>
      intro a ha
      obtain rfl := Option.some.inj ha
      exact hends
  | call hop _ ih => exact ih (hends.2 _ _ hop)
  | cut =>
      intro a ha
      exact absurd ha (by simp)

theorem ends_exec {t : Proc Ret α} (h : ends env t Q s) : ∃ s' a, Exec env s t s' (some a) ∧ Q a s' := by
  induction t generalizing s with
  | ret a => exact ⟨s, a, .ret, h⟩
  | call op next ih =>
      obtain ⟨r, s₁, hr⟩ := h.1
      obtain ⟨s', a, hexec, hQ⟩ := ih r (h.2 r s₁ hr)
      exact ⟨s', a, .call hr hexec, hQ⟩
  | never => exact absurd h id

theorem ends_meet {t : Proc Ret α} (h : ends env t Q s) (h' : ends env t Q' s) : ∃ s' a, Q a s' ∧ Q' a s' := by
  obtain ⟨s', a, hexec, hQ⟩ := ends_exec h
  exact ⟨s', a, hQ, hexec.ended h' a rfl⟩

end Proc

end Albusforge.Lib
