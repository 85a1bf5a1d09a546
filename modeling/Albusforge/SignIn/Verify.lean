import Albusforge.SignIn.Codes
import Albusforge.SignIn.Locks

/-!
# Sign-ins with the codes of one address

Calls of `issueCode` and `verifyCode` for one address go one after the other from the point where they have
its lock: what one of them has found is still so when it writes. A sign-in that claims anonymous work has, when
it commits, locked every row of the owner that was there before it (`Waiting`), since no other sign-in could
claim any of them meanwhile.
-/

namespace Albusforge.SignIn

open Lib Lib.ReadCommitted Sessions

/-! ## What a step does -/

def Task.address : Task → Option Text
  | .issuing q => some q.email
  | .verifying q => some q.email
  | x => x.lock

/-- The call of `verifyCode` that a task is. -/
def Task.verifies : Task → Option VerifyRequest
  | .verifying q => some q
  | .checked q _ => some q
  | .claiming q _ _ _ _ => some q
  | .ready q _ _ => some q
  | _ => none

/-- `t` goes on to `x`. -/
structure Goes (mail : Text → Prop) (t : ℕ) (s : State) (e : Event) (s' : State) (x : Task) : Prop where
  tasks : s'.tasks = Function.update s.tasks t x
  under : s.tasks t ≠ .over
  address : ∀ a, x.address = some a → mail a ∨ (s.tasks t).address = some a
  lock : ∀ a, (s.tasks t).lock = some a → x = .over ∨ x.lock = some a
  verified : ∀ u q id tenantId, e = .verified u q id tenantId →
    u = t ∧ x = .over ∧ ∃ y, s.tasks t = .ready q id y ∧ y.tenantId = tenantId
  rows : (Within t s.builds s'.builds ∧ Within t s.calls s'.calls) ∨
    ((s'.builds = fun b => (s.builds b).commit t) ∧ (s'.calls = fun c => (s.calls c).commit t) ∧
      ∀ h tenantId, (s.tasks t).claims = some (h, tenantId) →
        ∃ q id, q.anonOwnerHash = some h ∧ e = .verified t q id tenantId)

section

variable {hash : Text → Text} {mail : Text → Prop} {s s' : State} {e : Event} {es es' : List Event} {t u : ℕ}

theorem step_goes (h : SignInStep hash mail t s e s') : ∃ x, Goes mail t s e s' x := by
  -- a task that neither begins nor ends
  have key : ∀ {x y : Task}, s.tasks t = y → y ≠ .over → s'.tasks = Function.update s.tasks t x →
      (∀ a, x.address = some a → y.address = some a) → (∀ a, y.lock = some a → x.lock = some a) →
      (∀ u q id tenantId, e ≠ .verified u q id tenantId) → Within t s.builds s'.builds →
      Within t s.calls s'.calls → ∃ x, Goes mail t s e s' x := by
    intro x y htask hunder htasks haddress hlock hquiet hbuilds hcalls
    refine ⟨x, htasks, htask ▸ hunder, ?_, ?_, ?_, Or.inl ⟨hbuilds, hcalls⟩⟩
    · intro a ha
      exact Or.inr (htask ▸ haddress a ha)
    · intro a ha
      exact Or.inr (hlock a (htask ▸ ha))
    · intro u q id tenantId he
      exact absurd he (hquiet u q id tenantId)
  -- a task that ends and leaves the rows as they are
  have done : s'.tasks = Function.update s.tasks t .over → s.tasks t ≠ .over →
      (∀ u q id tenantId, e ≠ .verified u q id tenantId) → Within t s.builds s'.builds →
      Within t s.calls s'.calls → ∃ x, Goes mail t s e s' x := by
    intro htasks hunder hquiet hbuilds hcalls
    exact ⟨.over, htasks, hunder, by simp [Task.address, Task.lock], fun _ _ => Or.inl rfl,
      fun u q id tenantId he => absurd he (hquiet u q id tenantId), Or.inl ⟨hbuilds, hcalls⟩⟩
  cases h with
  | beginIssue htask hmail =>
    refine ⟨_, rfl, by simp [htask], ?_, by simp [htask, Task.lock], by simp, Or.inl ⟨.refl, .refl⟩⟩
    intro a ha
    obtain rfl := Option.some.inj ha
    exact Or.inl hmail
  | beginVerify htask hmail =>
    refine ⟨_, rfl, by simp [htask], ?_, by simp [htask, Task.lock], by simp, Or.inl ⟨.refl, .refl⟩⟩
    intro a ha
    obtain rfl := Option.some.inj ha
    exact Or.inl hmail
  | beginCreate htask hempty =>
    exact key htask (by simp) rfl (by simp [Task.address, Task.lock]) (by simp [Task.lock]) (by simp)
      (hold_within (free_of_empty hempty _)) .refl
  | beginRecord htask _ =>
    exact key htask (by simp) rfl (by simp [Task.address, Task.lock]) (by simp [Task.lock]) (by simp) .refl .refl
  | lockIssue htask _ =>
    exact key htask (by simp) rfl (by simp [Task.address, Task.lock]) (by simp [Task.lock]) (by simp) .refl .refl
  | commitIssue htask _ => exact done rfl (by simp [htask]) (by simp) .refl .refl
  | lockVerify htask _ =>
    exact key htask (by simp) rfl (by simp [Task.address, Task.lock]) (by simp [Task.lock]) (by simp) .refl .refl
  | commitRejected htask => exact done rfl (by simp [htask]) (by simp) .refl .refl
  | commitMissed htask => exact done rfl (by simp [htask]) (by simp) .refl .refl
  | signIn htask _ _ =>
    exact key htask (by simp) rfl (by simp [Task.address, Task.lock]) (by simp [Task.lock]) (by simp) .refl .refl
  | claim htask _ _ =>
    exact key htask (by simp) rfl (by simp [Task.address, Task.lock]) (by simp [Task.lock]) (by simp) .refl .refl
  | claimBuild htask _ hfree =>
    exact key htask (by simp) rfl (by simp [Task.address, Task.lock]) (by simp [Task.lock]) (by simp)
      (visit_within _ hfree) .refl
  | claimSpend htask _ =>
    exact key htask (by simp) rfl (by simp [Task.address, Task.lock]) (by simp [Task.lock]) (by simp) .refl .refl
  | claimCall htask _ hfree =>
    exact key htask (by simp) rfl (by simp [Task.address, Task.lock]) (by simp [Task.lock]) (by simp) .refl
      (visit_within _ hfree)
  | claimed htask _ =>
    exact key htask (by simp) rfl (by simp [Task.address, Task.lock]) (by simp [Task.lock]) (by simp) .refl .refl
  | @commitVerified q id x htask =>
    refine ⟨.over, rfl, by simp [htask], by simp [Task.address, Task.lock], fun _ _ => Or.inl rfl, ?_,
      Or.inr ⟨rfl, rfl, ?_⟩⟩
    · intro u q' id' tenantId he
      obtain ⟨rfl, rfl, rfl, rfl⟩ := Event.verified.inj he
      exact ⟨rfl, rfl, x, htask, rfl⟩
    · intro h tenantId hclaims
      rw [htask] at hclaims
      obtain ⟨h', hq, heq⟩ := Option.map_eq_some_iff.mp hclaims
      obtain ⟨rfl, rfl⟩ := Prod.mk.inj heq
      exact ⟨q, id, hq, rfl⟩
  | commitCreate htask =>
    exact ⟨.over, rfl, by simp [htask], by simp [Task.address, Task.lock], fun _ _ => Or.inl rfl, by simp,
      Or.inr ⟨rfl, rfl, by simp [htask, Task.claims]⟩⟩
  | lockBuild htask _ hfree _ =>
    exact key htask (by simp) rfl (by simp [Task.address, Task.lock]) (by simp [Task.lock]) (by simp)
      (hold_within hfree) .refl
  | missBuild htask _ _ =>
    exact key htask (by simp) rfl (by simp [Task.address, Task.lock]) (by simp [Task.lock]) (by simp) .refl .refl
  | noBuild htask _ =>
    exact key htask (by simp) rfl (by simp [Task.address, Task.lock]) (by simp [Task.lock]) (by simp) .refl .refl
  | insertCall htask hempty =>
    exact key htask (by simp) rfl (by simp [Task.address, Task.lock]) (by simp [Task.lock]) (by simp) .refl
      (hold_within (free_of_empty hempty _))
  | commitCall htask =>
    exact ⟨.over, rfl, by simp [htask], by simp [Task.address, Task.lock], fun _ _ => Or.inl rfl, by simp,
      Or.inr ⟨rfl, rfl, by simp [htask, Task.claims]⟩⟩
  | fail _ hover => exact done rfl hover (by simp) abort_within abort_within

theorem Goes.other {x : Task} (h : Goes mail t s e s' x) (hu : u ≠ t) : s'.tasks u = s.tasks u := by
  rw [h.tasks, Function.update_of_ne hu]

theorem Goes.self {x : Task} (h : Goes mail t s e s' x) : s'.tasks t = x := by
  rw [h.tasks, Function.update_self]

theorem verified_rows {q : VerifyRequest} {id tenantId : Text} (h : SignInStep hash mail t s e s')
    (he : e = .verified u q id tenantId) :
    (∀ b, s'.builds b = (s.builds b).commit t) ∧ ∀ c, s'.calls c = (s.calls c).commit t := by
  cases h with
  | commitVerified _ => exact ⟨fun _ => rfl, fun _ => rfl⟩
  | _ => exact absurd he (by simp)

theorem over_stays (h : (signInService hash mail).Steps s es s') (hover : s.tasks u = .over) :
    s'.tasks u = .over := by
  induction h with
  | refl => exact hover
  | step hstep _ ih =>
    obtain ⟨t, hstep⟩ := hstep
    obtain ⟨x, hgoes⟩ := step_goes hstep
    refine ih ((hgoes.other ?_).trans hover)
    intro hu
    exact hgoes.under (hu ▸ hover)

/-! ## Sign-ins of an address one after the other -/

theorem run_mail (h : (signInService hash mail).Run es s) : ∀ t a, (s.tasks t).address = some a → mail a := by
  refine h.invariant (I := fun _ s => ∀ t a, (s.tasks t).address = some a → mail a) ?_ ?_
  · intro s hinit t a ha
    rw [hinit.2.2.2] at ha
    exact absurd ha (by simp [Task.address, Task.lock])
  · rintro es s e s' hs ⟨t, hstep⟩ - u a ha
    obtain ⟨x, hgoes⟩ := step_goes hstep
    by_cases hu : u = t
    · rw [hu, hgoes.self] at ha
      rcases hgoes.address a ha with hmail | hold
      · exact hmail
      · exact hs t a hold
    · rw [hgoes.other hu] at ha
      exact hs u a ha

theorem alone_until_over {email : Text} (hrun : (signInService hash fun a => a = email).Run es s)
    (hsteps : (signInService hash fun a => a = email).Steps s es' s') (hlock : (s.tasks t).lock = some email)
    (hunder : s'.tasks t ≠ .over) : ∀ u q id tenantId, .verified u q id tenantId ∉ es' := by
  induction hsteps generalizing es with
  | refl => simp
  | @step s₀ s₁ s₂ e rest hstep hrest ih =>
    obtain ⟨u, hstep⟩ := hstep
    obtain ⟨x, hgoes⟩ := step_goes hstep
    have hnot : s₁.tasks t ≠ .over := fun hover => hunder (over_stays hrest hover)
    have hlock' : (s₁.tasks t).lock = some email := by
      by_cases ht : t = u
      · subst ht
        rw [hgoes.self] at hnot ⊢
        exact (hgoes.lock email hlock).resolve_left hnot
      · rw [hgoes.other ht]
        exact hlock
    intro v q id tenantId hmem
    rcases List.mem_cons.mp hmem with rfl | hmem
    · obtain ⟨rfl, rfl, y, hready, -⟩ := hgoes.verified v q id tenantId rfl
      have hsame : q.email = email := run_mail hrun v q.email (by rw [hready]; rfl)
      have hvt : t = v := (run_codes hrun).alone t v email hlock (by rw [hready, ← hsame]; rfl)
      exact hnot (hvt ▸ hgoes.self)
    · exact ih (.step hrun ⟨u, hstep⟩ trivial) hlock' hunder v q id tenantId hmem

end

/-! ## What a failed one leaves -/

def Counted (q : VerifyRequest) (c c' : EmailCode) : Prop :=
  c' = c ∨ (c.Live q.email q.now ∧ c' = { c with attempts := c.attempts + 1, consumedAt := c'.consumedAt })

structure OnlyCounts (q : VerifyRequest) (s s' : State) : Prop where
  codes : List.Forall₂ (Counted q) s.codes s'.codes
  accounts : s'.accounts = s.accounts
  builds : ∀ b, (s'.builds b).committed = (s.builds b).committed
  calls : ∀ c, (s'.calls c).committed = (s.calls c).committed

section

variable {hash : Text → Text} {mail : Text → Prop} {s s' : State} {e : Event} {es es' : List Event} {t u : ℕ}

theorem counted_refl {q : VerifyRequest} (codes : List EmailCode) : List.Forall₂ (Counted q) codes codes :=
  List.forall₂_same.mpr fun _ _ => Or.inl rfl

theorem miss_counted {q : VerifyRequest} {id : Text} {n : ℕ} (hs : CodesInv hash es s.codes s.tasks)
    (htask : s.tasks t = .checked q (.missed id n)) :
    List.Forall₂ (Counted q) s.codes (countMiss id n q.now s.codes) := by
  obtain ⟨c₀, hc₀, rfl, hlive, rfl⟩ := (hs.task t).missed q id n htask
  refine List.forall₂_map_right_iff.mpr (List.forall₂_same.mpr ?_)
  intro c hc
  split
  · rename_i hid
    obtain rfl := row_unique hs.nodup hc hc₀ hid
    exact Or.inr ⟨hlive, rfl⟩
  · exact Or.inl rfl

theorem failed_counts {q : VerifyRequest} (hs : CodesInv hash es s.codes s.tasks)
    (h : SignInStep hash mail t s e s') (hq : (s.tasks t).verifies = some q)
    (hfailed : ∀ id tenantId, e ≠ .verified t q id tenantId) : OnlyCounts q s s' := by
  -- a step that leaves the codes and the accounts alone
  have key : s'.codes = s.codes → s'.accounts = s.accounts → Within t s.builds s'.builds →
      Within t s.calls s'.calls → OnlyCounts q s s' := by
    intro hcodes haccounts hbuilds hcalls
    refine ⟨?_, haccounts, hbuilds.committed, hcalls.committed⟩
    rw [hcodes]
    exact counted_refl s.codes
  cases h with
  | beginIssue htask _ => exact absurd hq (by simp [htask, Task.verifies])
  | beginVerify htask _ => exact absurd hq (by simp [htask, Task.verifies])
  | beginCreate htask _ => exact absurd hq (by simp [htask, Task.verifies])
  | beginRecord htask _ => exact absurd hq (by simp [htask, Task.verifies])
  | lockIssue htask _ => exact absurd hq (by simp [htask, Task.verifies])
  | commitIssue htask _ => exact absurd hq (by simp [htask, Task.verifies])
  | lockVerify _ _ => exact key rfl rfl .refl .refl
  | commitRejected _ => exact key rfl rfl .refl .refl
  | commitMissed htask =>
    rw [htask] at hq
    obtain rfl := Option.some.inj hq
    exact ⟨miss_counted hs htask, rfl, fun _ => rfl, fun _ => rfl⟩
  | signIn _ _ _ => exact key rfl rfl .refl .refl
  | claim _ _ _ => exact key rfl rfl .refl .refl
  | claimBuild _ _ hfree => exact key rfl rfl (visit_within _ hfree) .refl
  | claimSpend _ _ => exact key rfl rfl .refl .refl
  | claimCall _ _ hfree => exact key rfl rfl .refl (visit_within _ hfree)
  | claimed _ _ => exact key rfl rfl .refl .refl
  | @commitVerified q' id x htask =>
    rw [htask] at hq
    obtain rfl := Option.some.inj hq
    exact absurd rfl (hfailed id x.tenantId)
  | commitCreate htask => exact absurd hq (by simp [htask, Task.verifies])
  | lockBuild htask _ _ _ => exact absurd hq (by simp [htask, Task.verifies])
  | missBuild htask _ _ => exact absurd hq (by simp [htask, Task.verifies])
  | noBuild htask _ => exact absurd hq (by simp [htask, Task.verifies])
  | insertCall htask _ => exact absurd hq (by simp [htask, Task.verifies])
  | commitCall htask => exact absurd hq (by simp [htask, Task.verifies])
  | fail _ _ => exact key rfl rfl abort_within abort_within

end

/-! ## What a successful one moves -/

/-- The builds of `h` that a claim has still to go to, and the tenant that gets them. -/
def Task.buildsLeft (h : Text) : Task → Option (Text × (Text → Bool))
  | .claiming _ _ x h' (.builds rest) => if h' = h then some (x.tenantId, rest) else none
  | .claiming _ _ x h' (.calls _) => if h' = h then some (x.tenantId, fun _ => false) else none
  | .ready q _ x => if q.anonOwnerHash = some h then some (x.tenantId, fun _ => false) else none
  | _ => none

/-- The calls of `h` that it has still to go to. -/
def Task.callsLeft (h : Text) : Task → Option (Text × (Text → Bool))
  | .claiming _ _ x h' (.calls rest) => if h' = h then some (x.tenantId, rest) else none
  | .ready q _ x => if q.anonOwnerHash = some h then some (x.tenantId, fun _ => false) else none
  | _ => none

/-- A row `r` that `t` has found when its statement began, or will find. -/
structure Owed {ρ : Type} (u : Text → Update ρ) (t : ℕ) (k : Text) (r : ρ) (rows : Heap Text ℕ ρ)
    (left : Option (Text × (Text → Bool))) : Prop where
  committed : (rows k).committed = some r
  due : ∀ tenantId rest, left = some (tenantId, rest) → Due (u tenantId) t k r rest rows

section

variable {ρ : Type} {u : Text → Update ρ} {t v : ℕ} {k k' : Text} {r : ρ} {rows rows' : Heap Text ℕ ρ}
  {left : Option (Text × (Text → Bool))} {tenantId : Text} {rest rest' : Text → Bool}

theorem Owed.frame (h : Owed u t k r rows left) (ht : t ≠ v) (hw : Within v rows rows') :
    Owed u t k r rows' left :=
  ⟨(hw.committed k).trans h.committed, fun tenantId rest hleft => (h.due tenantId rest hleft).frame ht hw⟩

theorem Owed.commit (h : Owed u t k r rows left) (ht : t ≠ v)
    (hsame : ∀ r', (rows k).held = some (v, r') → r' = r) :
    Owed u t k r (fun k => (rows k).commit v) left := by
  have hcommitted : ((rows k).commit v).committed = some r := by
    by_cases hheld : (rows k).HeldBy v
    · obtain ⟨r', hr'⟩ := hheld
      rw [Slot.commit_of_held hr', hsame r' hr']
    · rw [Slot.commit_of_not_held hheld]
      exact h.committed
  refine ⟨hcommitted, ?_⟩
  intro tenantId rest hleft
  refine ⟨hcommitted, ?_⟩
  rcases (h.due tenantId rest hleft).due with ⟨hrest, hnot⟩ | hheld
  · refine Or.inl ⟨hrest, ?_⟩
    intro ⟨r', hr'⟩
    exact hnot ⟨r', (Slot.commit_held hr').1⟩
  · refine Or.inr ?_
    rw [Slot.commit_of_other ⟨_, hheld⟩ ht]
    exact hheld

theorem Owed.idle (h : Owed u t k r rows left) (hw : Within t rows rows') : Owed u t k r rows' none :=
  ⟨(hw.committed k).trans h.committed, by simp⟩

theorem Owed.on (h : Owed u t k r rows (some (tenantId, rest))) (hrest : rest' k = rest k) :
    Owed u t k r rows (some (tenantId, rest')) := by
  refine ⟨h.committed, ?_⟩
  intro tenantId' rest₁ hleft
  obtain ⟨rfl, rfl⟩ := Prod.mk.inj (Option.some.inj hleft)
  have hdue := h.due tenantId rest rfl
  exact ⟨hdue.committed, by rw [hrest]; exact hdue.due⟩

theorem Owed.start (h : Owed u t k r rows left) (hmatch : (u tenantId).matching r = true)
    (hnot : ¬ (rows k).HeldBy t) : Owed u t k r rows (some (tenantId, (u tenantId).targets t rows)) := by
  refine ⟨h.committed, ?_⟩
  intro tenantId' rest₁ hleft
  obtain ⟨rfl, rfl⟩ := Prod.mk.inj (Option.some.inj hleft)
  exact due_targets hmatch hnot h.committed

theorem Owed.visit (h : Owed u t k r rows (some (tenantId, rest))) (hmatch : (u tenantId).matching r = true)
    (hdone : (u tenantId).matching ((u tenantId).change r) = false) :
    Owed u t k r ((u tenantId).visit t k' rows) (some (tenantId, Function.update rest k' false)) := by
  refine ⟨Update.visit_committed.trans h.committed, ?_⟩
  intro tenantId' rest₁ hleft
  obtain ⟨rfl, rfl⟩ := Prod.mk.inj (Option.some.inj hleft)
  exact (h.due tenantId rest rfl).visit hmatch hdone

end

section

variable {hash : Text → Text} {mail : Text → Prop} {s s' : State} {e : Event} {es es' : List Event} {t u : ℕ}
  {h b c : Text} {C : Call}

/-- No sign-in claims the work of `h`. -/
def Event.Spares (h : Text) (e : Event) : Prop :=
  ∀ t q id tenantId, e = .verified t q id tenantId → q.anonOwnerHash ≠ some h

/-- **A build of the owner is still there for the claim of `t`**, whatever the step. -/
theorem step_build_owed (hl : LocksInv s.builds s.calls s.tasks)
    (ho : Owed (claimBuilds h) t b ⟨none, some h⟩ s.builds ((s.tasks t).buildsLeft h))
    (hstep : SignInStep hash mail u s e s') (hspares : e.Spares h) (hunder : s'.tasks t ≠ .over) :
    Owed (claimBuilds h) t b ⟨none, some h⟩ s'.builds ((s'.tasks t).buildsLeft h) := by
  by_cases ht : t = u
  · subst ht
    have hmatch : ∀ tenantId, (claimBuilds h tenantId).matching ⟨none, some h⟩ = true := by
      intro tenantId
      exact unclaimed_iff.mpr rfl
    -- a step that leaves no claim under way
    have key : ∀ {x : Task} {builds : Heap Text ℕ Build}, x.buildsLeft h = none → Within t s.builds builds →
        Owed (claimBuilds h) t b ⟨none, some h⟩ builds ((Function.update s.tasks t x t).buildsLeft h) := by
      intro x builds hnone hw
      rw [Function.update_self, hnone]
      exact ho.idle hw
    cases hstep with
    | beginIssue _ _ => exact key rfl .refl
    | beginVerify _ _ => exact key rfl .refl
    | beginCreate _ hempty => exact key rfl (hold_within (free_of_empty hempty _))
    | beginRecord _ _ => exact key rfl .refl
    | lockIssue _ _ => exact key rfl .refl
    | commitIssue _ _ => exact absurd setTask_self hunder
    | lockVerify _ _ => exact key rfl .refl
    | commitRejected _ => exact absurd setTask_self hunder
    | commitMissed _ => exact absurd setTask_self hunder
    | signIn _ _ hnone => exact key (by simp [Task.buildsLeft, hnone]) .refl
    | @claim q id h' f x htask _ _ =>
      have hbare := (hl.at htask).bare (by simp [Task.Bare, Task.claims, Task.owns])
      by_cases hh : h' = h
      · subst hh
        rw [setTask_self, Task.buildsLeft, if_pos rfl]
        exact ho.start (hmatch _) (hbare.1 b)
      · exact key (by simp [Task.buildsLeft, hh]) .refl
    | @claimBuild q id h' x rest b' htask _ hfree =>
      rw [htask] at ho
      by_cases hh : h' = h
      · subst hh
        rw [Task.buildsLeft, if_pos rfl] at ho
        change Owed _ _ _ _ _ (((s.setTask t _).tasks t).buildsLeft h')
        rw [setTask_self, Task.buildsLeft, if_pos rfl]
        exact ho.visit (hmatch _) rfl
      · exact key (by simp [Task.buildsLeft, hh]) (visit_within _ hfree)
    | @claimSpend q id h' x rest htask hdone =>
      rw [htask] at ho
      by_cases hh : h' = h
      · subst hh
        rw [Task.buildsLeft, if_pos rfl] at ho
        rw [setTask_self, Task.buildsLeft, if_pos rfl]
        exact ho.on (hdone b).symm
      · exact key (by simp [Task.buildsLeft, hh]) .refl
    | @claimCall q id h' x rest c htask _ _ =>
      rw [htask] at ho
      change Owed _ _ _ _ _ (((s.setTask t _).tasks t).buildsLeft h)
      rw [setTask_self]
      exact ho
    | @claimed q id h' x rest htask _ =>
      have hq := (hl t).claiming q id x h' _ htask
      rw [htask] at ho
      by_cases hh : h' = h
      · subst hh
        rw [Task.buildsLeft, if_pos rfl] at ho
        rw [setTask_self, Task.buildsLeft, if_pos hq]
        exact ho
      · exact key (by simp [Task.buildsLeft, hq, hh]) .refl
    | commitVerified _ => exact absurd setTask_self hunder
    | commitCreate _ => exact absurd setTask_self hunder
    | lockBuild _ _ hfree _ => exact key rfl (hold_within hfree)
    | missBuild _ _ _ => exact key rfl .refl
    | noBuild _ _ => exact key rfl .refl
    | insertCall _ _ => exact key rfl .refl
    | commitCall _ => exact absurd setTask_self hunder
    | fail _ _ => exact absurd setTask_self hunder
  · obtain ⟨x, hgoes⟩ := step_goes hstep
    rw [hgoes.other ht]
    rcases hgoes.rows with ⟨hbuilds, -⟩ | ⟨hbuilds, -, hverified⟩
    · exact ho.frame ht hbuilds
    · rw [hbuilds]
      refine ho.commit ht ?_
      intro B hheld
      rcases hclaims : (s.tasks u).claims with _ | ⟨h', tenantId⟩
      · exact (hl u).build_of_no_claims hclaims hheld ho.committed
      · -- a claim of another owner's work has not locked it
        obtain ⟨q, id, hq, he⟩ := hverified h' tenantId hclaims
        have hrow := ho.committed.symm.trans ((hl u).build_of_claims hclaims hheld).1
        obtain rfl : h = h' := by simpa using hrow
        exact absurd hq (hspares u q id tenantId he)

theorem step_call_owed (hl : LocksInv s.builds s.calls s.tasks) (hC : C.owner.unclaimed h = true)
    (ho : Owed (claimCalls h) t c C s.calls ((s.tasks t).callsLeft h))
    (hstep : SignInStep hash mail u s e s') (hspares : e.Spares h) (hunder : s'.tasks t ≠ .over) :
    Owed (claimCalls h) t c C s'.calls ((s'.tasks t).callsLeft h) := by
  by_cases ht : t = u
  · subst ht
    -- a step that leaves no claim under way
    have key : ∀ {x : Task} {calls : Heap Text ℕ Call}, x.callsLeft h = none → Within t s.calls calls →
        Owed (claimCalls h) t c C calls ((Function.update s.tasks t x t).callsLeft h) := by
      intro x calls hnone hw
      rw [Function.update_self, hnone]
      exact ho.idle hw
    cases hstep with
    | beginIssue _ _ => exact key rfl .refl
    | beginVerify _ _ => exact key rfl .refl
    | beginCreate _ _ => exact key rfl .refl
    | beginRecord _ _ => exact key rfl .refl
    | lockIssue _ _ => exact key rfl .refl
    | commitIssue _ _ => exact absurd setTask_self hunder
    | lockVerify _ _ => exact key rfl .refl
    | commitRejected _ => exact absurd setTask_self hunder
    | commitMissed _ => exact absurd setTask_self hunder
    | signIn _ _ hnone => exact key (by simp [Task.callsLeft, hnone]) .refl
    | claim _ _ _ => exact key rfl .refl
    | claimBuild _ _ _ => exact key rfl .refl
    | @claimSpend q id h' x rest htask _ =>
      by_cases hh : h' = h
      · subst hh
        rw [setTask_self, Task.callsLeft, if_pos rfl]
        exact ho.start hC ((hl.at htask).no_call c)
      · exact key (by simp [Task.callsLeft, hh]) .refl
    | @claimCall q id h' x rest c' htask _ hfree =>
      rw [htask] at ho
      by_cases hh : h' = h
      · subst hh
        rw [Task.callsLeft, if_pos rfl] at ho
        change Owed _ _ _ _ _ (((s.setTask t _).tasks t).callsLeft h')
        rw [setTask_self, Task.callsLeft, if_pos rfl]
        exact ho.visit hC rfl
      · exact key (by simp [Task.callsLeft, hh]) (visit_within _ hfree)
    | @claimed q id h' x rest htask hdone =>
      have hq := (hl t).claiming q id x h' _ htask
      rw [htask] at ho
      by_cases hh : h' = h
      · subst hh
        rw [Task.callsLeft, if_pos rfl] at ho
        rw [setTask_self, Task.callsLeft, if_pos hq]
        exact ho.on (hdone c).symm
      · exact key (by simp [Task.callsLeft, hq, hh]) .refl
    | commitVerified _ => exact absurd setTask_self hunder
    | commitCreate _ => exact absurd setTask_self hunder
    | lockBuild _ _ _ _ => exact key rfl .refl
    | missBuild _ _ _ => exact key rfl .refl
    | noBuild _ _ => exact key rfl .refl
    | insertCall _ hempty => exact key rfl (hold_within (free_of_empty hempty _))
    | commitCall _ => exact absurd setTask_self hunder
    | fail _ _ => exact absurd setTask_self hunder
  · obtain ⟨x, hgoes⟩ := step_goes hstep
    rw [hgoes.other ht]
    rcases hgoes.rows with ⟨-, hcalls⟩ | ⟨-, hcalls, hverified⟩
    · exact ho.frame ht hcalls
    · rw [hcalls]
      refine ho.commit ht ?_
      intro C' hheld
      rcases (hl u).call_held c C' hheld with ⟨h', tenantId, C₀, hclaims, -, hC₀, howner, -⟩ | ⟨r, -, hnone, -⟩
      · -- a claim of another owner's work has not locked it
        obtain ⟨q, id, hq, he⟩ := hverified h' tenantId hclaims
        obtain rfl := Option.some.inj (ho.committed.symm.trans hC₀)
        have hsame := (unclaimed_iff.mp hC).symm.trans (unclaimed_iff.mp howner)
        obtain rfl : h = h' := by simpa using hsame
        exact absurd hq (hspares u q id tenantId he)
      · exact absurd (ho.committed.symm.trans hnone) (by simp)

theorem left_of_claims_none {x : Task} (hclaims : x.claims = none) :
    x.buildsLeft h = none ∧ x.callsLeft h = none := by
  cases x with
  | claiming _ _ _ _ _ => exact absurd hclaims (by simp [Task.claims])
  | ready q _ _ =>
    have hq : q.anonOwnerHash = none := by simpa [Task.claims] using hclaims
    exact ⟨by simp [Task.buildsLeft, hq], by simp [Task.callsLeft, hq]⟩
  | _ => exact ⟨rfl, rfl⟩

/-- Every row of `h` in `s` is the tenant's in `s'`. -/
structure Moved (h tenantId : Text) (s s' : State) : Prop where
  builds : ∀ b, (s.builds b).committed = some ⟨none, some h⟩ → (s'.builds b).committed = some ⟨some tenantId, none⟩
  calls : ∀ c C, (s.calls c).committed = some C → C.owner = ⟨none, some h⟩ →
    (s'.calls c).committed = some ⟨C.buildId, some tenantId, none⟩

theorem owed_until (hl : LocksInv s.builds s.calls s.tasks) (hsteps : (signInService hash mail).Steps s es' s')
    (hspares : ∀ e ∈ es', e.Spares h) (hunder : s'.tasks t ≠ .over) :
    (Owed (claimBuilds h) t b ⟨none, some h⟩ s.builds ((s.tasks t).buildsLeft h) →
      Owed (claimBuilds h) t b ⟨none, some h⟩ s'.builds ((s'.tasks t).buildsLeft h)) ∧
    (C.owner.unclaimed h = true → Owed (claimCalls h) t c C s.calls ((s.tasks t).callsLeft h) →
      Owed (claimCalls h) t c C s'.calls ((s'.tasks t).callsLeft h)) := by
  induction hsteps with
  | refl => exact ⟨id, fun _ => id⟩
  | @step s₀ s₁ s₂ e rest hstep hrest ih =>
    obtain ⟨u, hstep⟩ := hstep
    have hnot : s₁.tasks t ≠ .over := fun hover => hunder (over_stays hrest hover)
    have hfirst : e.Spares h := hspares e List.mem_cons_self
    obtain ⟨hbuilds, hcalls⟩ := ih (step_locks hl hstep) (fun e he => hspares e (List.mem_cons_of_mem _ he)) hunder
    refine ⟨?_, ?_⟩
    · intro ho
      exact hbuilds (step_build_owed hl ho hstep hfirst hnot)
    · intro hC ho
      exact hcalls hC (step_call_owed hl hC ho hstep hfirst hnot)

theorem verified_moves {q : VerifyRequest} {id tenantId : Text} {s'' : State}
    (hl : LocksInv s.builds s.calls s.tasks) (hclaims : (s.tasks t).claims = none)
    (hsteps : (signInService hash mail).Steps s es' s') (hspares : ∀ e ∈ es', e.Spares h)
    (hverified : SignInStep hash mail u s' (.verified t q id tenantId) s'') (hq : q.anonOwnerHash = some h) :
    Moved h tenantId s s'' := by
  obtain ⟨x, hgoes⟩ := step_goes hverified
  obtain ⟨rfl, -, y, hready, rfl⟩ := hgoes.verified t q id tenantId rfl
  have hunder : s'.tasks t ≠ .over := by simp [hready]
  have hleft := left_of_claims_none (h := h) hclaims
  obtain ⟨hbuildsLeft, hcallsLeft⟩ : (s'.tasks t).buildsLeft h = some (y.tenantId, fun _ => false) ∧
      (s'.tasks t).callsLeft h = some (y.tenantId, fun _ => false) := by
    rw [hready]
    exact ⟨if_pos hq, if_pos hq⟩
  obtain ⟨hbuilds, hcalls⟩ := verified_rows hverified rfl
  refine ⟨?_, ?_⟩
  · intro b hb
    have ho := (owed_until (c := []) (C := ⟨none, none, none⟩) hl hsteps hspares hunder).1
      ⟨hb, by simp [hleft.1]⟩
    have hheld := (ho.due _ _ hbuildsLeft).done rfl
    rw [hbuilds b, Slot.commit_of_held hheld]
    rfl
  · intro c C hC howner
    have ho := (owed_until (b := []) hl hsteps hspares hunder).2 (unclaimed_iff.mpr howner) ⟨hC, by simp [hleft.2]⟩
    have hheld := (ho.due _ _ hcallsLeft).done rfl
    rw [hcalls c, Slot.commit_of_held hheld]
    rfl

end

/-! ## Runs -/

/-- What is so after the events `es`, and of every step from there, of the codes of one address. -/
structure OneAddress (hash : Text → Text) (email : Text) (es : List Event) (s : State) : Prop where
  live : ∀ now, ∀ c ∈ s.codes, ∀ d ∈ s.codes, c.Live email now → d.Live email now → c = d
  once : ∀ id, verifications id es ≤ 1
  verified : ∀ t q id tenantId s',
    (signInService hash fun a => a = email).step s (.verified t q id tenantId) s' →
    ∃ c, latest email es = some c ∧ c.id = id ∧ hashCode hash id q.code = c.codeHash ∧ q.now < c.expiresAt ∧
      misses id es < CODE_MAX_ATTEMPTS ∧ verifications id es = 0
  /-- Whatever a `verifyCode` does before it succeeds, or instead. -/
  failed : ∀ t q e s', SignInStep hash (fun a => a = email) t s e s' → (s.tasks t).verifies = some q →
    (∀ id tenantId, e ≠ .verified t q id tenantId) → OnlyCounts q s s'
  moves : ∀ es' s' t q id tenantId h s'', (signInService hash fun a => a = email).Steps s es' s' →
    (signInService hash fun a => a = email).step s' (.verified t q id tenantId) s'' →
    q.anonOwnerHash = some h →
    (∃ k, s.tasks t = .checked q k) ∨
      ((s.tasks t = .idle ∨ s.tasks t = .verifying q) ∧ ∀ e ∈ es', e.Spares h) →
    Moved h tenantId s s''

section

variable {hash : Text → Text} {email : Text} {es : List Event} {s : State}

/-- **Codes of one address keep their promises in every run.** -/
theorem one_address (h : (signInService hash fun a => a = email).Run es s) : OneAddress hash email es s := by
  have hcodes := run_codes h
  have hlocks := run_locks h
  refine ⟨?_, ?_, ?_, ?_, ?_⟩
  · intro now c hc d hd hclive hdlive
    exact hcodes.one c hc d hd (hclive.1.trans hdlive.1.symm) hclive.2.1 hdlive.2.1
  · intro id
    by_cases hid : ∃ c ∈ s.codes, c.id = id
    · obtain ⟨c, hc, rfl⟩ := hid
      exact (hcodes.rows c hc).once
    · push Not at hid
      rw [(hcodes.unknown id hid).2]
      exact zero_le_one
  · intro t q id tenantId s' ⟨u, hstep⟩
    obtain ⟨x, hgoes⟩ := step_goes hstep
    obtain ⟨rfl, -, y, hready, -⟩ := hgoes.verified t q id tenantId rfl
    obtain ⟨c, hc, rfl, hlive, hhash⟩ := (hcodes.task t).right q id (by rw [hready]; rfl)
    have hmail : q.email = email := run_mail h t q.email (by rw [hready]; rfl)
    have hrow := hcodes.rows c hc
    obtain ⟨hlt, hzero, hlatest⟩ := hrow.spare hlive.2.1
    rw [hlive.1, hmail] at hlatest
    exact ⟨c.asIssued, hlatest, rfl, hhash, hlive.2.2, by rw [hrow.attempts]; exact hlt, hzero⟩
  · intro t q e s' hstep hq hfailed
    exact failed_counts hcodes hstep hq hfailed
  · intro es' s' t q id tenantId h₀ s'' hsteps ⟨u, hverified⟩ hq hbefore
    rcases hbefore with ⟨k, hchecked⟩ | ⟨hbefore, hspares⟩
    · -- the lock keeps every other sign-in away
      obtain ⟨x, hgoes⟩ := step_goes hverified
      obtain ⟨rfl, -, y, hready, -⟩ := hgoes.verified t q id tenantId rfl
      have hmail : q.email = email := run_mail h t q.email (by rw [hchecked]; rfl)
      have halone := alone_until_over h hsteps (t := t) (by rw [hchecked, ← hmail]; rfl) (by simp [hready])
      refine verified_moves hlocks (by rw [hchecked]; rfl) hsteps ?_ hverified hq
      intro e he v q' id' tenantId' heq
      exact absurd (heq ▸ he) (halone v q' id' tenantId')
    · refine verified_moves hlocks ?_ hsteps hspares hverified hq
      rcases hbefore with hidle | hverifying
      · rw [hidle]
        rfl
      · rw [hverifying]
        rfl

end

theorem one_address_bench : ∃ es s s',
    Bench.service.step s (.verified 1 Bench.verify (js "code") (js "tenant")) s' ∧
      OneAddress id Bench.email es s := by
  obtain ⟨es, s, hrun, htask, -, -⟩ := Bench.late_claim
  exact ⟨es, s, _, ⟨1, .commitVerified htask⟩, one_address hrun⟩

end Albusforge.SignIn
