import Albusforge.SignIn.System

/-!
# What the transactions have locked

The rows that a transaction has locked are those that a claim moves, the build that is created, and the build
of a model call with the call itself (`Locks`). **A row has the owner that it had until a claim of its owner's
work commits**: what every other transaction would leave of it is what is committed.
-/

namespace Albusforge.SignIn

open Lib Lib.ReadCommitted Sessions

def Task.claims : Task → Option (Text × Text)
  | .claiming _ _ x h _ => some (h, x.tenantId)
  | .ready q _ x => q.anonOwnerHash.map fun h => (h, x.tenantId)
  | _ => none

/-- The calls that a claim has still to go to, once its second `UPDATE` has begun. -/
def Task.rest : Task → Option (Text → Bool)
  | .claiming _ _ _ _ (.calls rest) => some rest
  | .ready _ _ _ => some fun _ => false
  | _ => none

def Task.owns (b : Text) (owner : Build) : Task → Prop
  | .owning r o => r.buildId = some b ∧ o = owner
  | .recorded r => r.buildId = some b
  | _ => False

def Task.Bare (x : Task) : Prop :=
  x.claims = none ∧ x ≠ .creating ∧ (∀ b o, ¬ x.owns b o) ∧ ∀ r, x ≠ .recorded r

theorem not_owns_of_claims {x : Task} {c : Text × Text} (h : x.claims = some c) (b : Text) (o : Build) :
    ¬ x.owns b o := by
  cases x with
  | claiming _ _ _ _ _ => simp [Task.owns]
  | ready _ _ _ => simp [Task.owns]
  | _ => simp [Task.claims] at h

theorem unclaimed_iff {h : Text} {b : Build} : b.unclaimed h = true ↔ b = ⟨none, some h⟩ := by
  cases b
  simp [Build.unclaimed, and_comm]

/-! ## One transaction -/

/-- What a task `x` has locked. -/
structure Locks (builds : Heap Text ℕ Build) (calls : Heap Text ℕ Call) (t : ℕ) (x : Task) : Prop where
  build_held : ∀ b B, (builds b).held = some (t, B) →
    (∃ h tenantId, x.claims = some (h, tenantId) ∧ (builds b).committed = some ⟨none, some h⟩ ∧
      B = ⟨some tenantId, none⟩) ∨
    (x = .creating ∧ (builds b).committed = none) ∨ (x.owns b B ∧ (builds b).committed = some B)
  call_held : ∀ c C, (calls c).held = some (t, C) →
    (∃ h tenantId C₀, x.claims = some (h, tenantId) ∧ x.rest ≠ none ∧ (calls c).committed = some C₀ ∧
      C₀.owner.unclaimed h = true ∧ C = ⟨C₀.buildId, some tenantId, none⟩) ∨
    (∃ r, x = .recorded r ∧ (calls c).committed = none ∧
      ∀ b, C.buildId = some b → (builds b).held = some (t, C.owner))
  owned : ∀ r o, x = .owning r o → ∀ b, r.buildId = some b → (builds b).held = some (t, o)
  recording : ∀ r, x = .recording r → ∀ b, r.buildId = some b → (builds b).committed ≠ none
  claiming : ∀ q id y h stage, x = .claiming q id y h stage → q.anonOwnerHash = some h

section

variable {builds builds' : Heap Text ℕ Build} {calls calls' : Heap Text ℕ Call} {t u : ℕ} {x y : Task}

theorem Locks.build_of_claims (hx : Locks builds calls t x) {h tenantId b : Text} {B : Build}
    (hclaims : x.claims = some (h, tenantId)) (hheld : (builds b).held = some (t, B)) :
    (builds b).committed = some ⟨none, some h⟩ ∧ B = ⟨some tenantId, none⟩ := by
  rcases hx.build_held b B hheld with ⟨_, _, hsame, hrow⟩ | ⟨rfl, -⟩ | ⟨howns, -⟩
  · obtain ⟨rfl, rfl⟩ := Prod.mk.inj (Option.some.inj (hclaims.symm.trans hsame))
    exact hrow
  · exact absurd hclaims (by simp [Task.claims])
  · exact absurd howns (not_owns_of_claims hclaims b B)

theorem Locks.call_of_claims (hx : Locks builds calls t x) {h tenantId c : Text} {C : Call}
    (hclaims : x.claims = some (h, tenantId)) (hheld : (calls c).held = some (t, C)) :
    ∃ C₀, x.rest ≠ none ∧ (calls c).committed = some C₀ ∧ C₀.owner.unclaimed h = true ∧
      C = ⟨C₀.buildId, some tenantId, none⟩ := by
  rcases hx.call_held c C hheld with ⟨_, _, C₀, hsame, hrow⟩ | ⟨r, rfl, -⟩
  · obtain ⟨rfl, rfl⟩ := Prod.mk.inj (Option.some.inj (hclaims.symm.trans hsame))
    exact ⟨C₀, hrow⟩
  · exact absurd hclaims (by simp [Task.claims])

theorem Locks.build_of_no_claims (hx : Locks builds calls t x) {b : Text} {B B₀ : Build}
    (hclaims : x.claims = none) (hheld : (builds b).held = some (t, B)) (hB₀ : (builds b).committed = some B₀) :
    B = B₀ := by
  rcases hx.build_held b B hheld with ⟨_, _, hcl, -⟩ | ⟨-, hnone⟩ | ⟨-, hsame⟩
  · exact absurd (hclaims.symm.trans hcl) (by simp)
  · exact absurd (hB₀.symm.trans hnone) (by simp)
  · exact Option.some.inj (hsame.symm.trans hB₀)

theorem Locks.call_of_no_claims (hx : Locks builds calls t x) {c : Text} {C : Call}
    (hclaims : x.claims = none) (hheld : (calls c).held = some (t, C)) :
    (∃ r, x = .recorded r) ∧ (calls c).committed = none := by
  rcases hx.call_held c C hheld with ⟨_, _, _, hcl, -⟩ | ⟨r, hr, hnone, -⟩
  · exact absurd (hclaims.symm.trans hcl) (by simp)
  · exact ⟨⟨r, hr⟩, hnone⟩

theorem Locks.bare (hx : Locks builds calls t x) (h : x.Bare) :
    (∀ b, ¬ (builds b).HeldBy t) ∧ ∀ c, ¬ (calls c).HeldBy t := by
  refine ⟨?_, ?_⟩
  · intro b ⟨B, hheld⟩
    rcases hx.build_held b B hheld with ⟨_, _, hclaims, -⟩ | ⟨hcreating, -⟩ | ⟨howns, -⟩
    · exact absurd (h.1.symm.trans hclaims) (by simp)
    · exact h.2.1 hcreating
    · exact h.2.2.1 b B howns
  · intro c ⟨C, hheld⟩
    obtain ⟨⟨r, hr⟩, -⟩ := hx.call_of_no_claims h.1 hheld
    exact h.2.2.2 r hr

theorem Locks.next (hbare : (∀ b, ¬ (builds b).HeldBy t) ∧ ∀ c, ¬ (calls c).HeldBy t)
    (howned : ∀ r o, y = .owning r o → r.buildId = none)
    (hrecording : ∀ r, y = .recording r → ∀ b, r.buildId = some b → (builds b).committed ≠ none)
    (hclaiming : ∀ q id z h stage, y = .claiming q id z h stage → q.anonOwnerHash = some h) :
    Locks builds calls t y where
  build_held b B hheld := absurd ⟨B, hheld⟩ (hbare.1 b)
  call_held c C hheld := absurd ⟨C, hheld⟩ (hbare.2 c)
  owned r o heq b hb := absurd ((howned r o heq).symm.trans hb) (by simp)
  recording := hrecording
  claiming := hclaiming

theorem Locks.frame (hx : Locks builds calls u x) (hu : u ≠ t) (hb : Within t builds builds')
    (hc : Within t calls calls') : Locks builds' calls' u x := by
  refine ⟨?_, ?_, ?_, ?_, hx.claiming⟩
  · intro b B hheld
    rw [hb.committed]
    exact hx.build_held b B ((hb.held b u B hu).mp hheld)
  · intro c C hheld
    rw [hc.committed]
    rcases hx.call_held c C ((hc.held c u C hu).mp hheld) with hclaims | ⟨r, hr, hnone, hbuilds⟩
    · exact Or.inl hclaims
    · exact Or.inr ⟨r, hr, hnone, fun b hCb => (hb.held b u _ hu).mpr (hbuilds b hCb)⟩
  · intro r o heq b hrb
    exact (hb.held b u o hu).mpr (hx.owned r o heq b hrb)
  · intro r heq b hrb
    rw [hb.committed]
    exact hx.recording r heq b hrb

theorem Locks.claimBuild {q : VerifyRequest} {id h b : Text} {y : SignedIn} {rest rest' : Text → Bool}
    (hx : Locks builds calls t (.claiming q id y h (.builds rest))) :
    Locks ((claimBuilds h y.tenantId).visit t b builds) calls t (.claiming q id y h (.builds rest')) := by
  refine ⟨?_, ?_, by simp, by simp, ?_⟩
  · intro b' B hheld
    rw [Update.visit_committed]
    refine Or.inl ⟨h, y.tenantId, rfl, ?_⟩
    by_cases hb : b' = b
    · subst hb
      rw [Update.visit_self] at hheld
      rcases Update.apply_held hheld with hold | ⟨-, B₀, hseen, hmatch, rfl⟩
      · exact hx.build_of_claims rfl hold
      · -- it is not one that the claim has moved before
        have hnot : ¬ (builds b').HeldBy t := by
          intro ⟨B', hB'⟩
          obtain rfl := Option.some.inj ((Slot.seen_of_held hB').symm.trans hseen)
          rw [(hx.build_of_claims rfl hB').2] at hmatch
          exact absurd hmatch (by simp [claimBuilds, Build.unclaimed])
        rw [Slot.seen_of_not_held hnot] at hseen
        exact ⟨unclaimed_iff.mp hmatch ▸ hseen, rfl⟩
    · rw [Update.visit_of_ne hb] at hheld
      exact hx.build_of_claims rfl hheld
  · intro c C hheld
    obtain ⟨_, hrest, -⟩ := hx.call_of_claims rfl hheld
    exact absurd rfl hrest
  · intro _ _ _ _ _ heq
    obtain ⟨rfl, -, -, rfl, -⟩ := Task.claiming.inj heq
    exact hx.claiming _ _ _ _ _ rfl

theorem Locks.no_call {q : VerifyRequest} {id h : Text} {y : SignedIn} {rest : Text → Bool}
    (hx : Locks builds calls t (.claiming q id y h (.builds rest))) (c : Text) : ¬ (calls c).HeldBy t := by
  intro ⟨C, hheld⟩
  obtain ⟨_, hrest, -⟩ := hx.call_of_claims rfl hheld
  exact hrest rfl

theorem Locks.claimSpend {q : VerifyRequest} {id h : Text} {y : SignedIn} {rest rest' : Text → Bool}
    (hx : Locks builds calls t (.claiming q id y h (.builds rest))) :
    Locks builds calls t (.claiming q id y h (.calls rest')) := by
  refine ⟨?_, fun c C hheld => absurd ⟨C, hheld⟩ (hx.no_call c), by simp, by simp, ?_⟩
  · intro b B hheld
    exact Or.inl ⟨h, y.tenantId, rfl, hx.build_of_claims rfl hheld⟩
  · intro _ _ _ _ _ heq
    obtain ⟨rfl, -, -, rfl, -⟩ := Task.claiming.inj heq
    exact hx.claiming _ _ _ _ _ rfl

theorem Locks.claimCall {q : VerifyRequest} {id h c : Text} {y : SignedIn} {rest rest' : Text → Bool}
    (hx : Locks builds calls t (.claiming q id y h (.calls rest))) :
    Locks builds ((claimCalls h y.tenantId).visit t c calls) t (.claiming q id y h (.calls rest')) := by
  refine ⟨?_, ?_, by simp, by simp, ?_⟩
  · intro b B hheld
    exact Or.inl ⟨h, y.tenantId, rfl, hx.build_of_claims rfl hheld⟩
  · intro c' C hheld
    rw [Update.visit_committed]
    have hold : (calls c').held = some (t, C) → ∃ C₀, (calls c').committed = some C₀ ∧
        C₀.owner.unclaimed h = true ∧ C = ⟨C₀.buildId, some y.tenantId, none⟩ :=
      fun hold => (hx.call_of_claims rfl hold).imp fun _ h => h.2
    obtain ⟨C₀, hrow⟩ : ∃ C₀, (calls c').committed = some C₀ ∧ C₀.owner.unclaimed h = true ∧
        C = ⟨C₀.buildId, some y.tenantId, none⟩ := by
      by_cases hcc : c' = c
      · subst hcc
        rw [Update.visit_self] at hheld
        rcases Update.apply_held hheld with hsame | ⟨-, C₀, hseen, hmatch, rfl⟩
        · exact hold hsame
        · have hnot : ¬ (calls c').HeldBy t := by
            intro ⟨C', hC'⟩
            obtain rfl := Option.some.inj ((Slot.seen_of_held hC').symm.trans hseen)
            obtain ⟨_, -, -, -, rfl⟩ := hx.call_of_claims rfl hC'
            exact absurd hmatch (by simp [claimCalls, Call.owner, Build.unclaimed])
          rw [Slot.seen_of_not_held hnot] at hseen
          exact ⟨C₀, hseen, hmatch, rfl⟩
      · rw [Update.visit_of_ne hcc] at hheld
        exact hold hheld
    exact Or.inl ⟨h, y.tenantId, C₀, rfl, by simp [Task.rest], hrow⟩
  · intro _ _ _ _ _ heq
    obtain ⟨rfl, -, -, rfl, -⟩ := Task.claiming.inj heq
    exact hx.claiming _ _ _ _ _ rfl

theorem Locks.ready_claims {q : VerifyRequest} {id h : Text} {y : SignedIn} {stage : Stage}
    (hx : Locks builds calls t (.claiming q id y h stage)) :
    (Task.ready q id y).claims = some (h, y.tenantId) := by
  rw [Task.claims, hx.claiming _ _ _ _ _ rfl]
  rfl

theorem Locks.claimed {q : VerifyRequest} {id h : Text} {y : SignedIn} {rest : Text → Bool}
    (hx : Locks builds calls t (.claiming q id y h (.calls rest))) : Locks builds calls t (.ready q id y) := by
  refine ⟨?_, ?_, by simp, by simp, by simp⟩
  · intro b B hheld
    exact Or.inl ⟨h, y.tenantId, hx.ready_claims, hx.build_of_claims rfl hheld⟩
  · intro c C hheld
    obtain ⟨C₀, -, hrow⟩ := hx.call_of_claims rfl hheld
    exact Or.inl ⟨h, y.tenantId, C₀, hx.ready_claims, by simp [Task.rest], hrow⟩

theorem Locks.holdBuild (hbare : (∀ b, ¬ (builds b).HeldBy t) ∧ ∀ c, ¬ (calls c).HeldBy t) {b : Text}
    {B : Build} (hrow : (x = .creating ∧ (builds b).committed = none) ∨
      (∃ r, x = .owning r B ∧ r.buildId = some b ∧ (builds b).committed = some B)) :
    Locks (Function.update builds b ((builds b).hold t B)) calls t x := by
  refine ⟨?_, fun c C hheld => absurd ⟨C, hheld⟩ (hbare.2 c), ?_, ?_, ?_⟩
  · intro b' B' hB'
    by_cases hb : b' = b
    · subst hb
      rw [Function.update_self, Slot.hold_held] at hB'
      obtain ⟨-, rfl⟩ := Prod.mk.inj (Option.some.inj hB')
      rw [Function.update_self, Slot.hold_committed]
      rcases hrow with hnew | ⟨r, rfl, hid, hcommitted⟩
      · exact Or.inr (Or.inl hnew)
      · exact Or.inr (Or.inr ⟨⟨hid, rfl⟩, hcommitted⟩)
    · rw [Function.update_of_ne hb] at hB'
      exact absurd ⟨B', hB'⟩ (hbare.1 b')
  · intro r o heq b' hb'
    rcases hrow with ⟨rfl, -⟩ | ⟨r', rfl, hid, -⟩
    · exact absurd heq (by simp)
    · obtain ⟨rfl, rfl⟩ := Task.owning.inj heq
      obtain rfl := Option.some.inj (hid.symm.trans hb')
      rw [Function.update_self, Slot.hold_held]
  · intro r heq
    rcases hrow with ⟨rfl, -⟩ | ⟨r', rfl, -⟩
    · exact absurd heq (by simp)
    · exact absurd heq (by simp)
  · intro _ _ _ _ _ heq
    rcases hrow with ⟨rfl, -⟩ | ⟨r', rfl, -⟩
    · exact absurd heq (by simp)
    · exact absurd heq (by simp)

theorem Locks.insertCall {r : LlmCallRecord} {o : Build} {c : Text} (hx : Locks builds calls t (.owning r o))
    (hempty : calls c = .empty) :
    Locks builds (Function.update calls c ((calls c).hold t ⟨r.buildId, o.tenantId, o.anonOwnerHash⟩)) t
      (.recorded r) := by
  refine ⟨?_, ?_, by simp, by simp, by simp⟩
  · intro b B hheld
    rcases hx.build_held b B hheld with ⟨_, _, hcl, -⟩ | ⟨hcreating, -⟩ | ⟨howns, hrow⟩
    · exact absurd hcl (by simp [Task.claims])
    · exact absurd hcreating (by simp)
    · exact Or.inr (Or.inr ⟨howns.1, hrow⟩)
  · intro c' C hheld
    by_cases hc : c' = c
    · subst hc
      rw [Function.update_self, Slot.hold_held] at hheld
      obtain ⟨-, rfl⟩ := Prod.mk.inj (Option.some.inj hheld)
      rw [Function.update_self, Slot.hold_committed, hempty]
      exact Or.inr ⟨r, rfl, rfl, fun b hb => hx.owned r o rfl b hb⟩
    · rw [Function.update_of_ne hc] at hheld
      obtain ⟨⟨r', hr'⟩, -⟩ := hx.call_of_no_claims rfl hheld
      exact absurd hr' (by simp)

end

theorem commit_not_heldBy {ρ : Type} {t : ℕ} (x : Slot ℕ ρ) : ¬ (x.commit t).HeldBy t :=
  fun ⟨_, h⟩ => (Slot.commit_held h).2 rfl

theorem abort_not_heldBy {ρ : Type} {t : ℕ} (x : Slot ℕ ρ) : ¬ (x.abort t).HeldBy t :=
  fun ⟨_, h⟩ => (Slot.abort_held h).2 rfl

/-! ## All of them -/

def LocksInv (builds : Heap Text ℕ Build) (calls : Heap Text ℕ Call) (tasks : ℕ → Task) : Prop :=
  ∀ t, Locks builds calls t (tasks t)

section

variable {builds builds' : Heap Text ℕ Build} {calls calls' : Heap Text ℕ Call} {tasks : ℕ → Task} {t : ℕ}
  {x : Task}

theorem LocksInv.step (hs : LocksInv builds calls tasks) (hb : Within t builds builds')
    (hc : Within t calls calls') (hx : Locks builds' calls' t x) :
    LocksInv builds' calls' (Function.update tasks t x) :=
  (Function.forall_update_iff tasks _).mpr ⟨hx, fun u hu => (hs u).frame hu hb hc⟩

theorem LocksInv.at (hs : LocksInv builds calls tasks) (htask : tasks t = x) : Locks builds calls t x :=
  htask ▸ hs t

theorem LocksInv.next {y : Task} (hs : LocksInv builds calls tasks) (htask : tasks t = x) (hbare : x.Bare)
    (howned : ∀ r o, y = .owning r o → r.buildId = none)
    (hrecording : ∀ r, y = .recording r → ∀ b, r.buildId = some b → (builds b).committed ≠ none)
    (hclaiming : ∀ q id z h stage, y = .claiming q id z h stage → q.anonOwnerHash = some h) :
    LocksInv builds calls (Function.update tasks t y) :=
  hs.step .refl .refl (Locks.next ((hs.at htask).bare hbare) howned hrecording hclaiming)

theorem LocksInv.rollback (hs : LocksInv builds calls tasks) :
    LocksInv (fun b => (builds b).abort t) (fun c => (calls c).abort t) (Function.update tasks t .over) := by
  refine hs.step abort_within abort_within (Locks.next ⟨?_, ?_⟩ (by simp) (by simp) (by simp))
  · exact fun b => abort_not_heldBy (builds b)
  · exact fun c => abort_not_heldBy (calls c)

theorem LocksInv.commit (hs : LocksInv builds calls tasks) :
    LocksInv (fun b => (builds b).commit t) (fun c => (calls c).commit t) (Function.update tasks t .over) := by
  refine (Function.forall_update_iff tasks _).mpr ⟨Locks.next ⟨?_, ?_⟩ (by simp) (by simp) (by simp), ?_⟩
  · exact fun b => commit_not_heldBy (builds b)
  · exact fun c => commit_not_heldBy (calls c)
  intro u hu
  have hx := hs u
  refine ⟨?_, ?_, ?_, ?_, hx.claiming⟩
  · intro b B hheld
    have hheld := (Slot.commit_held hheld).1
    rw [Slot.commit_of_other ⟨B, hheld⟩ hu]
    exact hx.build_held b B hheld
  · intro c C hheld
    have hheld := (Slot.commit_held hheld).1
    rw [Slot.commit_of_other ⟨C, hheld⟩ hu]
    rcases hx.call_held c C hheld with hclaims | ⟨r, hr, hnone, hbuilds⟩
    · exact Or.inl hclaims
    · refine Or.inr ⟨r, hr, hnone, ?_⟩
      intro b hb
      rw [Slot.commit_of_other ⟨_, hbuilds b hb⟩ hu]
      exact hbuilds b hb
  · intro r o heq b hb
    have hheld := hx.owned r o heq b hb
    rw [Slot.commit_of_other ⟨o, hheld⟩ hu]
    exact hheld
  · intro r heq b hb
    by_cases hheld : (builds b).HeldBy t
    · obtain ⟨B, hB⟩ := hheld
      rw [Slot.commit_of_held hB]
      simp
    · rw [Slot.commit_of_not_held hheld]
      exact hx.recording r heq b hb

end

section

variable {hash : Text → Text} {mail : Text → Prop} {C : List Event → State → Event → Prop} {s s' : State}
  {e : Event} {es : List Event} {t : ℕ}

theorem init_locks (h : (signInService hash mail).init s) : LocksInv s.builds s.calls s.tasks := by
  obtain ⟨-, hbuilds, hcalls, htasks⟩ := h
  intro t
  rw [htasks]
  refine Locks.next ⟨?_, ?_⟩ (by simp) (by simp) (by simp)
  · rintro b ⟨B, hheld⟩
    rw [hbuilds] at hheld
    exact absurd hheld (by simp [Slot.empty])
  · rintro c ⟨C, hheld⟩
    rw [hcalls] at hheld
    exact absurd hheld (by simp [Slot.empty])

theorem free_of_empty {ρ : Type} {x : Slot ℕ ρ} (h : x = .empty) (t : ℕ) : x.Free t := by
  intro u r hheld
  rw [h] at hheld
  exact absurd hheld (by simp [Slot.empty])

/-- **Preserved by every step.** -/
theorem step_locks (hs : LocksInv s.builds s.calls s.tasks) (h : SignInStep hash mail t s e s') :
    LocksInv s'.builds s'.calls s'.tasks := by
  -- a step of the codes only
  have key : ∀ {t : ℕ} {x y : Task}, s.tasks t = x → x.Bare → (∀ r o, y ≠ .owning r o) →
      (∀ r, y ≠ .recording r) → (∀ q id z h stage, y ≠ .claiming q id z h stage) →
      LocksInv s.builds s.calls (Function.update s.tasks t y) := by
    intro t x y htask hbare howning hrecording hclaiming
    exact hs.next htask hbare (fun r o h => absurd h (howning r o)) (fun r h => absurd h (hrecording r))
      fun q id z h stage heq => absurd heq (hclaiming q id z h stage)
  cases h with
  | beginIssue htask _ => exact key htask (by simp [Task.Bare, Task.claims, Task.owns]) (by simp) (by simp) (by simp)
  | beginVerify htask _ => exact key htask (by simp [Task.Bare, Task.claims, Task.owns]) (by simp) (by simp) (by simp)
  | beginCreate htask hempty =>
    have hbare := (hs.at htask).bare (by simp [Task.Bare, Task.claims, Task.owns])
    refine hs.step (hold_within (free_of_empty hempty _)) .refl (Locks.holdBuild hbare (Or.inl ⟨rfl, ?_⟩))
    rw [hempty]
    rfl
  | beginRecord htask hthere =>
    refine hs.next htask (by simp [Task.Bare, Task.claims, Task.owns]) (by simp) ?_ (by simp)
    intro r heq b hb
    obtain rfl := Task.recording.inj heq
    exact hthere b hb
  | lockIssue htask _ => exact key htask (by simp [Task.Bare, Task.claims, Task.owns]) (by simp) (by simp) (by simp)
  | commitIssue htask _ => exact key htask (by simp [Task.Bare, Task.claims, Task.owns]) (by simp) (by simp) (by simp)
  | lockVerify htask _ => exact key htask (by simp [Task.Bare, Task.claims, Task.owns]) (by simp) (by simp) (by simp)
  | commitRejected htask => exact key htask (by simp [Task.Bare, Task.claims, Task.owns]) (by simp) (by simp) (by simp)
  | commitMissed htask => exact key htask (by simp [Task.Bare, Task.claims, Task.owns]) (by simp) (by simp) (by simp)
  | signIn htask _ _ => exact key htask (by simp [Task.Bare, Task.claims, Task.owns]) (by simp) (by simp) (by simp)
  | claim htask _ hsome =>
    refine hs.next htask (by simp [Task.Bare, Task.claims, Task.owns]) (by simp) (by simp) ?_
    intro _ _ _ _ _ heq
    obtain ⟨rfl, -, -, rfl, -⟩ := Task.claiming.inj heq
    exact hsome
  | claimBuild htask _ hfree => exact hs.step (visit_within _ hfree) .refl (hs.at htask).claimBuild
  | claimSpend htask _ => exact hs.step .refl .refl (hs.at htask).claimSpend
  | claimCall htask _ hfree => exact hs.step .refl (visit_within _ hfree) (hs.at htask).claimCall
  | claimed htask _ => exact hs.step .refl .refl (hs.at htask).claimed
  | commitVerified _ => exact hs.commit
  | commitCreate _ => exact hs.commit
  | lockBuild htask hid hfree hcommitted =>
    have hbare := (hs.at htask).bare (by simp [Task.Bare, Task.claims, Task.owns])
    exact hs.step (hold_within hfree) .refl (Locks.holdBuild hbare (Or.inr ⟨_, rfl, hid, hcommitted⟩))
  | @missBuild r id htask hid hnone =>
    -- a build that has been there still is
    have hbare := (hs.at htask).bare (by simp [Task.Bare, Task.claims, Task.owns])
    rw [Slot.seen_of_not_held (hbare.1 id)] at hnone
    exact absurd hnone ((hs t).recording r htask id hid)
  | noBuild htask hnone =>
    refine hs.next htask (by simp [Task.Bare, Task.claims, Task.owns]) ?_ (by simp) (by simp)
    intro r o heq
    obtain ⟨rfl, -⟩ := Task.owning.inj heq
    exact hnone
  | insertCall htask hempty =>
    exact hs.step .refl (hold_within (free_of_empty hempty _)) ((hs.at htask).insertCall hempty)
  | commitCall _ => exact hs.commit
  | fail _ _ => exact hs.rollback

theorem run_locks (h : (signInService hash mail).RunWhere C es s) : LocksInv s.builds s.calls s.tasks := by
  refine h.invariant (I := fun _ s => LocksInv s.builds s.calls s.tasks) (fun _ => init_locks) ?_
  intro es s e s' hs ⟨t, hstep⟩ _
  exact step_locks hs hstep

end

end Albusforge.SignIn
