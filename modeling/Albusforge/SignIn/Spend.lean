import Albusforge.SignIn.Locks

/-!
# Spend follows its build

A build that a claim has locked keeps its calls: the inserter of a new one waits for the build's lock. So when
a claim's second `UPDATE` begins, the calls of the builds that its first one has moved are all there and all
still the owner's (`Own.left`), and it moves them. It moves every other call of the owner too, of a build
that came after the first `UPDATE` or that another sign-in is about to claim: **where it finds none of these,
spend follows its build** (`spend_follows`).
-/

namespace Albusforge.SignIn

open Lib Lib.ReadCommitted Sessions

/-! ## One claim -/

/-- What is so of the calls of the builds that a task `x` has moved. -/
structure Own (builds : Heap Text ℕ Build) (calls : Heap Text ℕ Call) (t : ℕ) (x : Task) : Prop where
  moved : x.claims ≠ none → ∀ c C, (calls c).held = some (t, C) → ∀ b, C.buildId = some b → (builds b).HeldBy t
  left : ∀ rest, x.rest = some rest → ∀ c C b, (calls c).committed = some C → C.buildId = some b →
    (builds b).HeldBy t → rest c = true ∨ (calls c).HeldBy t
  covered : ∀ h tenantId rest, x.claims = some (h, tenantId) → x.rest = some rest → ∀ c, rest c = true →
    ∃ C, (calls c).committed = some C ∧
      (C.owner.unclaimed h = true → ∀ b, C.buildId = some b → (builds b).HeldBy t)

section

variable {builds builds' : Heap Text ℕ Build} {calls calls' : Heap Text ℕ Call} {t u : ℕ} {x y : Task}

theorem Own.of_rest_none (hl : Locks builds calls t x) (hrest : x.rest = none) : Own builds calls t x := by
  refine ⟨?_, by simp [hrest], by simp [hrest]⟩
  intro hclaims c C hheld
  obtain ⟨p, hp⟩ := Option.ne_none_iff_exists'.mp hclaims
  obtain ⟨_, hne, -⟩ := hl.call_of_claims hp hheld
  exact absurd hrest hne

theorem Own.frame (hx : Own builds calls u x) (hu : u ≠ t) (hb : Within t builds builds')
    (hc : Within t calls calls') : Own builds' calls' u x := by
  refine ⟨?_, ?_, ?_⟩
  · intro hclaims c C hheld b hCb
    exact (hb.heldBy hu).mpr (hx.moved hclaims c C ((hc.held c u C hu).mp hheld) b hCb)
  · intro rest hr c C b hcommitted hCb hheld
    rw [hc.committed] at hcommitted
    rcases hx.left rest hr c C b hcommitted hCb ((hb.heldBy hu).mp hheld) with hleft | hheld
    · exact Or.inl hleft
    · exact Or.inr ((hc.heldBy hu).mpr hheld)
  · intro h tenantId rest hcl hr c hrc
    obtain ⟨C, hC, hcovered⟩ := hx.covered h tenantId rest hcl hr c hrc
    refine ⟨C, (hc.committed c).trans hC, ?_⟩
    intro hmatch b hCb
    exact (hb.heldBy hu).mpr (hcovered hmatch b hCb)

end

/-! ## The invariant -/

structure SpendInv (builds : Heap Text ℕ Build) (calls : Heap Text ℕ Call) (tasks : ℕ → Task) : Prop where
  follows : ∀ c C b, (calls c).committed = some C → C.buildId = some b → (builds b).committed = some C.owner
  own : ∀ t, Own builds calls t (tasks t)

section

variable {builds builds' : Heap Text ℕ Build} {calls calls' : Heap Text ℕ Call} {tasks : ℕ → Task} {t : ℕ}
  {x : Task}

theorem SpendInv.step (hs : SpendInv builds calls tasks) (hb : Within t builds builds')
    (hc : Within t calls calls') (hx : Own builds' calls' t x) :
    SpendInv builds' calls' (Function.update tasks t x) := by
  refine ⟨?_, (Function.forall_update_iff tasks _).mpr ⟨hx, fun u hu => (hs.own u).frame hu hb hc⟩⟩
  intro c C b hcommitted hCb
  rw [hc.committed] at hcommitted
  rw [hb.committed]
  exact hs.follows c C b hcommitted hCb

theorem SpendInv.owner_of_claims (hs : SpendInv builds calls tasks) (hl : Locks builds calls t x)
    {h tenantId b c : Text} {C : Call} (hclaims : x.claims = some (h, tenantId)) (hheld : (builds b).HeldBy t)
    (hC : (calls c).committed = some C) (hCb : C.buildId = some b) : C.owner.unclaimed h = true := by
  obtain ⟨B, hB⟩ := hheld
  have hrow := (hl.build_of_claims hclaims hB).1
  exact unclaimed_iff.mpr (Option.some.inj ((hs.follows c C b hC hCb).symm.trans hrow))

theorem SpendInv.claimSpend (hs : SpendInv builds calls tasks) {q : VerifyRequest} {id h : Text}
    {y : SignedIn} {rest : Text → Bool} (hl : Locks builds calls t (.claiming q id y h (.builds rest)))
    (hcovered : ∀ c C, (calls c).committed = some C → C.owner.unclaimed h = true →
      ∀ b, C.buildId = some b → (builds b).HeldBy t) :
    Own builds calls t (.claiming q id y h (.calls ((claimCalls h y.tenantId).targets t calls))) := by
  refine ⟨fun _ c C hheld => absurd ⟨C, hheld⟩ (hl.no_call c), ?_, ?_⟩
  · intro rest₁ hrest c C b hC hCb hheld
    obtain rfl := Option.some.inj hrest
    refine Or.inl ?_
    rw [Update.targets_iff, Slot.seen_of_not_held (hl.no_call c)]
    exact ⟨C, hC, hs.owner_of_claims hl rfl hheld hC hCb⟩
  · intro h' tenantId rest₁ hcl hrest c hc
    obtain ⟨rfl, rfl⟩ := Prod.mk.inj (Option.some.inj hcl)
    obtain rfl := Option.some.inj hrest
    obtain ⟨C, hseen, -⟩ := Update.targets_iff.mp hc
    rw [Slot.seen_of_not_held (hl.no_call c)] at hseen
    exact ⟨C, hseen, hcovered c C hseen⟩

theorem SpendInv.claimCall (hs : SpendInv builds calls tasks) {q : VerifyRequest} {id h c : Text}
    {y : SignedIn} {rest : Text → Bool} (hl : Locks builds calls t (.claiming q id y h (.calls rest)))
    (hx : Own builds calls t (.claiming q id y h (.calls rest))) (hc : rest c = true) :
    Own builds ((claimCalls h y.tenantId).visit t c calls) t
      (.claiming q id y h (.calls (Function.update rest c false))) := by
  refine ⟨?_, ?_, ?_⟩
  · intro hclaims c' C hheld b hCb
    by_cases hcc : c' = c
    · subst hcc
      rw [Update.visit_self] at hheld
      rcases Update.apply_held hheld with hsame | ⟨-, C₀, hseen, hmatch, rfl⟩
      · exact hx.moved hclaims c' C hsame b hCb
      · by_cases hheld : (calls c').HeldBy t
        · obtain ⟨C', hC'⟩ := hheld
          obtain rfl := Option.some.inj ((Slot.seen_of_held hC').symm.trans hseen)
          exact hx.moved hclaims c' C' hC' b hCb
        · rw [Slot.seen_of_not_held hheld] at hseen
          obtain ⟨C₁, hC₁, hcovered⟩ := hx.covered h y.tenantId rest rfl rfl c' hc
          obtain rfl := Option.some.inj (hseen.symm.trans hC₁)
          exact hcovered hmatch b hCb
    · rw [Update.visit_of_ne hcc] at hheld
      exact hx.moved hclaims c' C hheld b hCb
  · intro rest₁ hr c' C b hC hCb hheld
    rw [Update.visit_committed] at hC
    obtain rfl := Option.some.inj hr
    by_cases hcc : c' = c
    · subst hcc
      refine Or.inr ?_
      by_cases hself : (calls c').HeldBy t
      · exact Update.visit_heldBy hself
      · have hseen : (calls c').seen t = some C := (Slot.seen_of_not_held hself).trans hC
        rw [Update.visit_self, Update.apply_of_seen hseen (hs.owner_of_claims hl rfl hheld hC hCb)]
        exact ⟨_, rfl⟩
    · rw [Function.update_of_ne hcc, Update.visit_of_ne hcc]
      exact hx.left rest rfl c' C b hC hCb hheld
  · intro h' tenantId rest₁ hcl hr c' hc'
    rw [Update.visit_committed]
    obtain ⟨rfl, rfl⟩ := Prod.mk.inj (Option.some.inj hcl)
    obtain rfl := Option.some.inj hr
    by_cases hcc : c' = c
    · subst hcc
      exact absurd hc' (by simp)
    · rw [Function.update_of_ne hcc] at hc'
      exact hx.covered h y.tenantId rest rfl rfl c' hc'

theorem Own.claimed {q : VerifyRequest} {id h : Text} {y : SignedIn} {rest : Text → Bool}
    (hx : Own builds calls t (.claiming q id y h (.calls rest))) (hdone : ∀ c, rest c = false) :
    Own builds calls t (.ready q id y) := by
  refine ⟨fun _ => hx.moved (by simp [Task.claims]), ?_, ?_⟩
  · intro rest₁ _ c C b hC hCb hheld
    rcases hx.left rest rfl c C b hC hCb hheld with hleft | hheld
    · exact absurd hleft (by simp [hdone c])
    · exact Or.inr hheld
  · intro _ _ rest₁ _ hr c hc
    obtain rfl := Option.some.inj hr
    exact absurd hc (by simp)

/-! ## A transaction ends -/

theorem SpendInv.own_commit (hs : SpendInv builds calls tasks) (hl : LocksInv builds calls tasks) {u : ℕ}
    (hu : u ≠ t) : Own (fun b => (builds b).commit t) (fun c => (calls c).commit t) u (tasks u) := by
  have hx := hs.own u
  -- a row that it has locked stays as it is
  have hbuild : ∀ {b : Text}, (builds b).HeldBy u → ((builds b).commit t).HeldBy u := by
    intro b h
    rwa [Slot.commit_of_other h hu]
  refine ⟨?_, ?_, ?_⟩
  · intro hclaims c C hheld b hCb
    exact hbuild (hx.moved hclaims c C (Slot.commit_held hheld).1 b hCb)
  · intro rest hr c C b hcommitted hCb ⟨B, hB⟩
    have hB := (Slot.commit_held hB).1
    rcases Slot.commit_committed hcommitted with hheld | ⟨hnot, hcommitted⟩
    · -- the build would be locked by both
      have hsame : (builds b).HeldBy t := by
        rcases (hl t).call_held c C hheld with ⟨_, _, C₀, hcl, -⟩ | ⟨r, -, -, hbuilds⟩
        · exact (hs.own t).moved (by simp [hcl]) c C hheld b hCb
        · exact ⟨_, hbuilds b hCb⟩
      exact absurd (Slot.held_unique hB hsame).symm hu
    · rw [Slot.commit_of_not_held hnot]
      exact hx.left rest hr c C b hcommitted hCb ⟨B, hB⟩
  · intro h tenantId rest hcl hr c hc
    obtain ⟨C, hC, hcovered⟩ := hx.covered h tenantId rest hcl hr c hc
    by_cases hheld : (calls c).HeldBy t
    · obtain ⟨C', hC'⟩ := hheld
      rw [Slot.commit_of_held hC']
      refine ⟨C', rfl, ?_⟩
      intro hmatch
      rcases (hl t).call_held c C' hC' with ⟨_, _, _, -, -, -, -, rfl⟩ | ⟨r, -, hnone, -⟩
      · exact absurd hmatch (by simp [Build.unclaimed, Call.owner])
      · exact absurd (hC.symm.trans hnone) (by simp)
    · rw [Slot.commit_of_not_held hheld]
      exact ⟨C, hC, fun hmatch b hb => hbuild (hcovered hmatch b hb)⟩

theorem SpendInv.commit (hs : SpendInv builds calls tasks) (hl : LocksInv builds calls tasks)
    (hl' : LocksInv (fun b => (builds b).commit t) (fun c => (calls c).commit t) (Function.update tasks t .over))
    (hstage : (tasks t).claims ≠ none → (tasks t).rest = some fun _ => false) :
    SpendInv (fun b => (builds b).commit t) (fun c => (calls c).commit t) (Function.update tasks t .over) := by
  refine ⟨?_, (Function.forall_update_iff tasks _).mpr ⟨?_, fun u hu => hs.own_commit hl hu⟩⟩
  · intro c C b hcommitted hCb
    rcases Slot.commit_committed hcommitted with hheld | ⟨hnot, hcommitted⟩
    · rcases (hl t).call_held c C hheld with ⟨h, tenantId, C₀, hcl, -, -, -, rfl⟩ | ⟨r, -, -, hbuilds⟩
      · obtain ⟨B, hB⟩ := (hs.own t).moved (by simp [hcl]) c _ hheld b hCb
        obtain ⟨-, rfl⟩ := (hl t).build_of_claims hcl hB
        rw [Slot.commit_of_held hB]
        rfl
      · rw [Slot.commit_of_held (hbuilds b hCb)]
    · have hfollows := hs.follows c C b hcommitted hCb
      by_cases hheldB : (builds b).HeldBy t
      · obtain ⟨B, hB⟩ := hheldB
        rw [Slot.commit_of_held hB]
        rcases (hl t).build_held b B hB with ⟨h, tenantId, hcl, -⟩ | ⟨-, hnone⟩ | ⟨-, hsame⟩
        · -- the claim has moved every call of its builds
          rcases (hs.own t).left _ (hstage (by simp [hcl])) c C b hcommitted hCb ⟨B, hB⟩ with hleft | hheld
          · exact absurd hleft (by simp)
          · exact absurd hheld hnot
        · exact absurd (hfollows.symm.trans hnone) (by simp)
        · exact hsame.symm.trans hfollows
      · rw [Slot.commit_of_not_held hheldB]
        exact hfollows
  · have hover := hl' t
    rw [Function.update_self] at hover
    exact Own.of_rest_none hover rfl

end

/-! ## Runs -/

/-- When a claim's second `UPDATE` begins, the owner's calls that are committed are of builds that its first
one has moved, or of none. -/
def ClaimsItsOwn (_ : List Event) (s : State) : Event → Prop
  | .spending t h => ∀ c C, (s.calls c).committed = some C → C.owner.unclaimed h = true →
      ∀ b, C.buildId = some b → (s.builds b).HeldBy t
  | _ => True

def SpendFollows (s : State) : Prop := ∀ c C b, (s.calls c).committed = some C → C.buildId = some b →
  ∃ B, (s.builds b).committed = some B ∧ C.tenantId = B.tenantId ∧ C.anonOwnerHash = B.anonOwnerHash

section

variable {hash : Text → Text} {mail : Text → Prop} {s s' : State} {e : Event} {es : List Event} {t : ℕ}

theorem init_spend (h : (signInService hash mail).init s) : SpendInv s.builds s.calls s.tasks := by
  have hl := init_locks h
  obtain ⟨-, -, hcalls, htasks⟩ := h
  refine ⟨?_, fun t => Own.of_rest_none (hl t) ?_⟩
  · intro c C b hc
    rw [hcalls] at hc
    exact absurd hc (by simp [Slot.empty])
  · rw [htasks]
    rfl

/-- **Preserved by every step.** -/
theorem step_spend (hl : LocksInv s.builds s.calls s.tasks) (hs : SpendInv s.builds s.calls s.tasks)
    (h : SignInStep hash mail t s e s') (hcovered : ClaimsItsOwn es s e) :
    SpendInv s'.builds s'.calls s'.tasks := by
  have hl' := step_locks hl h
  -- what a task without a second `UPDATE` has locked says it all
  have own : ∀ {builds : Heap Text ℕ Build} {calls : Heap Text ℕ Call} {t : ℕ} {x : Task},
      LocksInv builds calls (Function.update s.tasks t x) → x.rest = none → Own builds calls t x := by
    intro builds calls t x hl' hrest
    have hlocks := hl' t
    rw [Function.update_self] at hlocks
    exact Own.of_rest_none hlocks hrest
  cases h with
  | beginIssue _ _ => exact hs.step .refl .refl (own hl' rfl)
  | beginVerify _ _ => exact hs.step .refl .refl (own hl' rfl)
  | beginCreate _ hempty => exact hs.step (hold_within (free_of_empty hempty _)) .refl (own hl' rfl)
  | beginRecord _ _ => exact hs.step .refl .refl (own hl' rfl)
  | lockIssue _ _ => exact hs.step .refl .refl (own hl' rfl)
  | commitIssue _ _ => exact hs.step .refl .refl (own hl' rfl)
  | lockVerify _ _ => exact hs.step .refl .refl (own hl' rfl)
  | commitRejected _ => exact hs.step .refl .refl (own hl' rfl)
  | commitMissed _ => exact hs.step .refl .refl (own hl' rfl)
  | signIn htask _ _ =>
    have hbare := (hl.at htask).bare (by simp [Task.Bare, Task.claims, Task.owns])
    refine hs.step .refl .refl ⟨fun _ c C hheld => absurd ⟨C, hheld⟩ (hbare.2 c), ?_, ?_⟩
    · intro _ _ _ _ b _ _ hheld
      exact absurd hheld (hbare.1 b)
    · intro _ _ rest _ hrest c hc
      obtain rfl := Option.some.inj hrest
      exact absurd hc (by simp)
  | claim _ _ _ => exact hs.step .refl .refl (own hl' rfl)
  | claimBuild _ _ hfree => exact hs.step (visit_within _ hfree) .refl (own hl' rfl)
  | claimSpend htask _ => exact hs.step .refl .refl (hs.claimSpend (hl.at htask) hcovered)
  | @claimCall q id h x rest c htask hrest hfree =>
    exact hs.step .refl (visit_within _ hfree) (hs.claimCall (hl.at htask) (htask ▸ hs.own t) hrest)
  | @claimed q id h x rest htask hdone =>
    exact hs.step .refl .refl (Own.claimed (htask ▸ hs.own t) hdone)
  | commitVerified htask => exact hs.commit hl hl' (by simp [htask, Task.rest])
  | commitCreate htask => exact hs.commit hl hl' (by simp [htask, Task.claims])
  | lockBuild _ _ hfree _ => exact hs.step (hold_within hfree) .refl (own hl' rfl)
  | missBuild _ _ _ => exact hs.step .refl .refl (own hl' rfl)
  | noBuild _ _ => exact hs.step .refl .refl (own hl' rfl)
  | insertCall _ hempty => exact hs.step .refl (hold_within (free_of_empty hempty _)) (own hl' rfl)
  | commitCall htask => exact hs.commit hl hl' (by simp [htask, Task.claims])
  | fail _ _ => exact hs.step abort_within abort_within (own hl' rfl)

/-- **Spend follows its build** in every run whose claims find nothing but the spend of what they have moved. -/
theorem spend_follows (h : (signInService hash mail).RunWhere ClaimsItsOwn es s) : SpendFollows s := by
  have hinv : LocksInv s.builds s.calls s.tasks ∧ SpendInv s.builds s.calls s.tasks := by
    refine h.invariant (I := fun _ s => LocksInv s.builds s.calls s.tasks ∧ SpendInv s.builds s.calls s.tasks)
      (fun _ h => ⟨init_locks h, init_spend h⟩) ?_
    intro es s e s' ⟨hl, hs⟩ ⟨_, hstep⟩ hcovered
    exact ⟨step_locks hl hstep, step_spend hl hs hstep hcovered⟩
  intro c C b hC hb
  exact ⟨C.owner, hinv.2.follows c C b hC hb, rfl, rfl⟩

end

theorem spend_follows_bench : ∃ s,
    (s.calls (js "call")).committed = some ⟨some (js "build"), none, some Bench.anon⟩ ∧ SpendFollows s := by
  obtain ⟨_, s, hrun, -, -, hcalls⟩ := Bench.late_build (C := ClaimsItsOwn) <| by
    intro _ _ e he
    cases e with
    | spending t h => exact absurd rfl (he t h)
    | _ => trivial
  refine ⟨s, ?_, spend_follows hrun⟩
  rw [hcalls]
  rfl

/-- A claim moves the spend of a build that came after it had moved the builds. -/
theorem spend_moved_alone : ¬ ∀ (hash : Text → Text) (mail : Text → Prop) (es : List Event) (s : State),
    (signInService hash mail).Run es s → SpendFollows s := by
  intro hall
  obtain ⟨es, s, hrun, htask, hbuild, hcall⟩ := Bench.late_claim
  have hend := Bench.goes hrun (SignInStep.commitVerified (t := 1) htask) trivial
  have hmoved := Slot.commit_of_held hcall
  have hleft : (s.builds (js "build")).commit 1 = ⟨some ⟨none, some Bench.anon⟩, none⟩ := by
    rw [hbuild]
    rfl
  obtain ⟨B, hB, htenant, -⟩ := hall _ _ _ _ hend (js "call") ⟨some (js "build"), some (js "tenant"), none⟩
    (js "build") (congrArg Slot.committed hmoved) rfl
  obtain rfl := Option.some.inj ((congrArg Slot.committed hleft).symm.trans hB)
  exact Option.some_ne_none _ htenant

end Albusforge.SignIn
