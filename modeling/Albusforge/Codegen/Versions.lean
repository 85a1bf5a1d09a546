import Albusforge.Codegen.Refinement

/-!
# Firmware versions over every run

What a worker run does with a version whose lease has expired after three attempts, and then **everything that
holds of the versions of a build**, whatever requests, retries, workers and turns come in between
(`firmware_versions`).
-/

namespace Albusforge.Codegen

open Lib Lib.ReadCommitted Sessions

section

variable {π κ μ : Type} {tools : Toolchain π κ μ} {s s' : State π κ μ} {e : Event} {es : List Event} {t u : ℕ}
  {k : Key} {r : Bundle μ}

/-! ## What a step does to the rows and to a worker that does not take it -/

theorem request_onward (hI : Inv tools s) (h : RequestStep tools u s e s') :
    Onward (.request u) s.bundles s'.bundles ∧ s'.workers = s.workers := by
  have hx := hI.requests u
  cases h with
  | begin _ => exact ⟨.within .refl, rfl⟩
  | lock _ _ => exact ⟨.within .refl, rfl⟩
  | draft _ _ => exact ⟨.within .refl, rfl⟩
  | plan _ _ _ => exact ⟨.within .refl, rfl⟩
  | duplicate _ _ _ => exact ⟨.within .refl, rfl⟩
  | create _ _ _ => exact ⟨.within .refl, rfl⟩
  | insert _ hempty =>
    refine ⟨.within (hold_within ?_), rfl⟩
    rw [hempty]
    exact Slot.free_empty
  | answerDuplicate _ => exact ⟨.within .refl, rfl⟩
  | answer _ => exact ⟨.commit, rfl⟩
  | find _ _ hfree _ => exact ⟨.within (hold_within hfree), rfl⟩
  | clear _ _ _ => exact ⟨.within .refl, rfl⟩
  | alone _ _ => exact ⟨.within .refl, rfl⟩
  | @reopen b v r htask =>
    rw [htask] at hx
    exact ⟨.within (hold_within (Slot.free_of_heldBy (hx.owns.holds (b, v) rfl))), rfl⟩
  | retry _ => exact ⟨.commit, rfl⟩
  | fail _ _ => exact ⟨.within abort_within, rfl⟩

theorem worker_onward (h : WorkerStep tools u s e s') :
    Onward (.pool u) s.bundles s'.bundles ∧ ∀ t, t ≠ u → s'.workers t = s.workers t := by
  have hother : ∀ (x : Worker π κ μ) (t : ℕ), t ≠ u → Function.update s.workers u x t = s.workers t :=
    fun x t ht => Function.update_of_ne ht _ _
  cases h with
  | expireRow _ _ hfree => exact ⟨.within (visit_within _ hfree), hother _⟩
  | expired _ _ => exact ⟨.commit, hother _⟩
  | claim _ hfree _ _ _ _ _ _ => exact ⟨.within (hold_within hfree), hother _⟩
  | claimed _ => exact ⟨.commit, hother _⟩
  | failRow _ hfree _ _ => exact ⟨.within (hold_within hfree), hother _⟩
  | failed _ => exact ⟨.commit, hother _⟩
  | crash _ _ => exact ⟨.within abort_within, hother _⟩
  | _ => exact ⟨.within .refl, hother _⟩

theorem sending_onward (h : SendingStep tools u s e s') :
    Onward (.dedicated u) s.bundles s'.bundles ∧ s'.workers = s.workers := by
  cases h with
  | write _ _ _ hfree _ _ => exact ⟨.within (hold_within hfree), rfl⟩
  | committed _ _ => exact ⟨.commit, rfl⟩
  | part _ => exact ⟨.within abort_within, rfl⟩
  | _ => exact ⟨.within .refl, rfl⟩

theorem step_other (hI : Inv tools s) (h : FirmwareStep tools s e s') :
    WorkerStep tools t s e s' ∨
      ∃ x, Tx.pool t ≠ x ∧ Onward x s.bundles s'.bundles ∧ s'.workers t = s.workers t := by
  cases h with
  | request h =>
    obtain ⟨hon, hw⟩ := request_onward hI h
    exact Or.inr ⟨_, by simp, hon, congrFun hw t⟩
  | @worker u _ _ _ h =>
    by_cases heq : t = u
    · subst heq
      exact Or.inl h
    · obtain ⟨hon, hw⟩ := worker_onward h
      exact Or.inr ⟨_, fun hsame => heq (Tx.pool.inj hsame), hon, hw t heq⟩
  | sending h =>
    obtain ⟨hon, hw⟩ := sending_onward h
    exact Or.inr ⟨_, by simp, hon, congrFun hw t⟩
  | tick _ => exact Or.inr ⟨.request 0, by simp, .within .refl, rfl⟩

/-! ## Expiry -/

def Settled (x : Option (Bundle μ)) : Prop :=
  ∃ r, x = some r ∧ (r.status = .passed ∨ r.status = .failed ∧ 3 ≤ r.log.job.attempts)

theorem Settled.step {L : Ledger π μ} {x x' : Option (Bundle μ)} (h : Settled x) (hm : L.RowMoves k e x x') :
    Settled x' := by
  obtain ⟨r, rfl, hpassed | ⟨hfailed, hattempts⟩⟩ := h
  · exact ⟨r, hm.passed hpassed, Or.inl hpassed⟩
  · cases hm with
    | same _ => exact ⟨r, rfl, Or.inr ⟨hfailed, hattempts⟩⟩
    | retry hok =>
      have hfew := (retryRequest_ok.mp hok).2.2
      omega
    | expire hmatch => exact absurd (expire_matching.mp hmatch).1 (by simp [hfailed])
    | claim _ hmatch => exact absurd (claim_matching.mp hmatch).1 (by simp [hfailed])
    | publish _ hmatch _ _ => exact absurd (leased_iff.mp hmatch).1 (by simp [hfailed])
    | fail _ hmatch => exact absurd (leased_iff.mp hmatch).1 (by simp [hfailed])

theorem settled_of_running {L : Ledger π μ} {x : Option (Bundle μ)} (hm : L.RowMoves k e (some r) x)
    (hrunning : r.status = .running) (hattempts : 3 ≤ r.log.job.attempts) : x = some r ∨ Settled x := by
  cases hm with
  | same _ => exact Or.inl rfl
  | retry hok => exact absurd (retryRequest_ok.mp hok).1 (by simp [hrunning])
  | expire _ => exact Or.inr ⟨_, rfl, Or.inr ⟨rfl, hattempts⟩⟩
  | claim _ hmatch =>
    have hfew := (claim_matching.mp hmatch).2
    omega
  | publish _ _ _ _ => exact Or.inr ⟨_, rfl, Or.inl rfl⟩
  | fail _ _ => exact Or.inr ⟨_, rfl, Or.inr ⟨rfl, hattempts⟩⟩

theorem settled_of_due {x : Tx} {now : ℤ} {rest : Key → Bool} {h : Heap Key Tx (Bundle μ)}
    (hmatch : (expire now).matching r = true) (hdue : Due (expire now) x k r rest h) (hrest : rest k = false) :
    Settled ((h k).commit x).committed := by
  rw [Slot.commit_of_held (hdue.done hrest)]
  exact ⟨(expire now).change r, rfl, Or.inr ⟨rfl, (expire_matching.mp hmatch).2.2⟩⟩

theorem expire_done {now : ℤ} : (expire now).matching ((expire now).change r) = false := by
  simp [expire, Bundle.expired]

/-- The version `r` has been found by the worker `t`, that fails what has expired by `now`. -/
inductive Found (now : ℤ) (t : ℕ) (k : Key) (r : Bundle μ) (s : State π κ μ) : Prop
  | settled : Settled (s.version k) → Found now t k r s
  | due {lease : Text} {rest : Key → Bool} : s.workers t = .expiring lease now rest →
      Due (expire now) (.pool t) k r rest s.bundles → Found now t k r s
  | finished : s.workers t = .finished → Found now t k r s

theorem worker_not_over (h : WorkerStep tools t s e s') : s.workers t ≠ .finished := by
  intro hover
  cases h with
  | crash _ hnot => exact hnot hover
  | giveUp hwork => exact absurd hwork (by simp [hover, Worker.work])
  | _ => simp_all

theorem worker_expiring {lease : Text} {now : ℤ} {rest : Key → Bool} (h : WorkerStep tools t s e s')
    (htask : s.workers t = .expiring lease now rest) :
    (∃ k, s'.workers t = .expiring lease now (Function.update rest k false) ∧
      s'.bundles = (expire now).visit (.pool t) k s.bundles) ∨
    ((∀ k, rest k = false) ∧ ∀ k, s'.version k = ((s.bundles k).commit (.pool t)).committed) ∨
    s'.workers t = .finished := by
  cases h with
  | expireRow hsame _ _ =>
    obtain ⟨rfl, rfl, rfl⟩ := Worker.expiring.inj (htask.symm.trans hsame)
    exact Or.inl ⟨_, Function.update_self .., rfl⟩
  | expired hsame hrest =>
    obtain ⟨rfl, rfl, rfl⟩ := Worker.expiring.inj (htask.symm.trans hsame)
    exact Or.inr (Or.inl ⟨hrest, fun _ => rfl⟩)
  | crash _ _ => exact Or.inr (Or.inr (Function.update_self ..))
  | giveUp hwork => exact absurd hwork (by simp [htask, Worker.work])
  | _ => simp_all

theorem Found.worker {now : ℤ} (hI : Inv tools s) (hmatch : (expire now).matching r = true)
    (h : Found now t k r s) (hs : WorkerStep tools t s e s') : Found now t k r s' := by
  cases h with
  | settled hset => exact .settled (hset.step ((worker_refines hI hs).1.row k))
  | finished htask => exact absurd htask (worker_not_over hs)
  | due htask hdue =>
    rcases worker_expiring hs htask with ⟨k', hw, hbundles⟩ | ⟨hrest, hversion⟩ | hover
    · refine .due hw ?_
      rw [hbundles]
      exact hdue.visit hmatch expire_done
    · -- the statement has gone to every row
      refine .settled ?_
      rw [hversion]
      exact settled_of_due hmatch hdue (hrest k)
    · exact .finished hover

theorem Found.step {now : ℤ} (hI : Inv tools s) (hmatch : (expire now).matching r = true)
    (h : Found now t k r s) (hs : FirmwareStep tools s e s') : Found now t k r s' := by
  have hm := (step_refines hI hs).1.row k
  rcases step_other (t := t) hI hs with hown | ⟨x, hx, hon, hw⟩
  · exact h.worker hI hmatch hown
  cases h with
  | settled hset => exact .settled (hset.step hm)
  | finished htask => exact .finished (hw.trans htask)
  | due htask hdue =>
    obtain ⟨hrunning, -, hattempts⟩ := expire_matching.mp hmatch
    have hrow : s.ledger.rows k = some r := hdue.committed
    rw [hrow] at hm
    rcases settled_of_running hm hrunning hattempts with hsame | hset
    · exact .due (hw.trans htask) (hdue.onward hx hon hsame)
    · exact .settled hset

theorem Found.steps {now : ℤ} (hI : Inv tools s) (hmatch : (expire now).matching r = true)
    (h : Found now t k r s) (hs : (firmware tools).Steps s es s') : Found now t k r s' ∧ Inv tools s' := by
  induction hs with
  | refl => exact ⟨h, hI⟩
  | step hone _ ih => exact ih (step_refines hI hone).2 (h.step hI hmatch hone)

theorem expiring_step (h : FirmwareStep tools s (.expiring t) s') : ∃ lease, s.workers t = .started lease ∧
    s' = s.setWorker t (.expiring lease s.now ((expire s.now).targets (.pool t) s.bundles)) := by
  cases h with
  | request h => cases h
  | worker h =>
    cases h with
    | expire htask => exact ⟨_, htask, rfl⟩
  | sending h => cases h

theorem expired_step {now : ℤ} (h : FirmwareStep tools s (.expired t now) s') :
    ∃ lease rest, s.workers t = .expiring lease now rest ∧ (∀ k, rest k = false) ∧
      s' = (s.commit (.pool t)).setWorker t (.ready lease) := by
  cases h with
  | request h => cases h
  | worker h =>
    cases h with
    | expired htask hrest => exact ⟨_, _, htask, hrest, rfl⟩
  | sending h => cases h

/-- **What has expired with no attempt left is failed by the next worker run**, if it has not passed by then. -/
theorem expired_settled {s₁ s₂ s₃ : State π κ μ} {now : ℤ} (hI : Inv tools s) (hr : s.version k = some r)
    (hexpired : r.expired s.now = true) (hattempts : 3 ≤ r.log.job.attempts)
    (hbegin : FirmwareStep tools s (.expiring t) s₁) (hsteps : (firmware tools).Steps s₁ es s₂)
    (hend : FirmwareStep tools s₂ (.expired t now) s₃) : Settled (s₃.version k) := by
  have hmatch : (expire s.now).matching r = true := by
    simp [expire, hexpired, hattempts]
  obtain ⟨lease, htask, rfl⟩ := expiring_step hbegin
  have hx := hI.workers t
  rw [htask] at hx
  have hnot : ¬ (s.bundles k).HeldBy (.pool t) := by
    rintro ⟨q, hq⟩
    exact hx.owns.writes k q hq
  have hfound : Found s.now t k r
      (s.setWorker t (.expiring lease s.now ((expire s.now).targets (.pool t) s.bundles))) :=
    .due (Function.update_self ..) (due_targets hmatch hnot hr)
  obtain ⟨hfound₂, hI₂⟩ := hfound.steps (step_refines hI hbegin).2 hmatch hsteps
  obtain ⟨lease', rest, htask₂, hrest, rfl⟩ := expired_step hend
  cases hfound₂ with
  | settled hset => exact hset.step ((step_refines hI₂ hend).1.row k)
  | finished hover => exact absurd (hover.symm.trans htask₂) (by simp)
  | due hsame hdue =>
    obtain ⟨rfl, rfl, rfl⟩ := Worker.expiring.inj (hsame.symm.trans htask₂)
    exact settled_of_due hmatch hdue (hrest k)

/-! ## The clock -/

def Clocked (s : State π κ μ) : Prop := ∀ t lease now rest, s.workers t = .expiring lease now rest → now ≤ s.now

theorem Clocked.update {x : Worker π κ μ} (hc : Clocked s) (hw : s'.workers = Function.update s.workers t x)
    (hnow : s'.now = s.now) (hx : ∀ lease now rest, x = .expiring lease now rest → now ≤ s.now) : Clocked s' := by
  intro u lease now rest hu
  rw [hw] at hu
  rw [hnow]
  by_cases heq : u = t
  · subst heq
    rw [Function.update_self] at hu
    exact hx lease now rest hu
  · rw [Function.update_of_ne heq] at hu
    exact hc u lease now rest hu

theorem Clocked.keep (hc : Clocked s) (hw : s'.workers = s.workers) (hnow : s.now ≤ s'.now) : Clocked s' := by
  intro u lease now rest hu
  rw [hw] at hu
  exact le_trans (hc u lease now rest hu) hnow

theorem step_clocked (hc : Clocked s) (h : FirmwareStep tools s e s') : Clocked s' := by
  cases h with
  | request h =>
    cases h with
    | _ => exact hc.keep rfl (le_refl _)
  | @worker t _ _ _ h =>
    cases h with
    | expire _ =>
      refine hc.update rfl rfl fun lease now rest heq => ?_
      obtain ⟨-, rfl, -⟩ := Worker.expiring.inj heq
      exact le_refl _
    | @expireRow lease now rest k htask _ _ =>
      refine hc.update rfl rfl fun lease' now' rest' heq => ?_
      obtain ⟨-, rfl, -⟩ := Worker.expiring.inj heq
      exact hc t lease now rest htask
    | _ => exact hc.update rfl rfl (by simp)
  | sending h =>
    cases h with
    | _ => exact hc.keep rfl (le_refl _)
  | tick hnow => exact hc.keep rfl hnow

theorem run_clocked (h : (firmware tools).Run es s) : Clocked s := by
  refine h.invariant (I := fun _ s => Clocked s) ?_ fun _ _ _ _ hc hstep _ => step_clocked hc hstep
  intro s hinit t lease now rest ht
  rw [hinit.2.2.2.1] at ht
  exact absurd ht (by simp)

/-! ## All of it -/

structure Holds (es : List Event) (s : State π κ μ) (t : ℕ) (k : Key) (r : Bundle μ) : Prop where
  last : (claimers es k).getLast? = some t
  row : s.version k = some r
  lease : ∃ lease, s.leases t = some lease ∧ r.leased lease = true

variable (tools) in
structure Versions (es : List Event) (s : State π κ μ) : Prop where
  oneActive : ∀ b v v' r r', s.version (b, v) = some r → s.version (b, v') = some r' →
    r.status.active = true → r'.status.active = true → v = v'
  claims : ∀ k, (claimers es k).length ≤ 3
  pending : ∀ k r, s.version k = some r → r.status = .pending → r.log.job.attempts < 3
  claimable : ∀ k r, s.version k = some r → r.expired s.now = true → r.log.job.attempts < 3 →
    ∀ t lease, s.workers t = .ready lease → (s.bundles k).Free (.pool t) →
      ∃ w s', w.key = k ∧ FirmwareStep tools s .quiet s' ∧ s'.workers t = .claiming w
  settles : ∀ k r, s.version k = some r → r.expired s.now = true → 3 ≤ r.log.job.attempts →
    ∀ t now s₁ es' s₂ s₃, FirmwareStep tools s (.expiring t) s₁ → (firmware tools).Steps s₁ es' s₂ →
      FirmwareStep tools s₂ (.expired t now) s₃ → Settled (s₃.version k)
  passed : ∀ k r, s.version k = some r → r.status = .passed →
    ∀ es' s', (firmware tools).Steps s es' s' → s'.version k = some r
  publishes : ∀ e s' k r, FirmwareStep tools s e s' → s'.version k = some r → r.status = .passed →
    s.version k ≠ some r → ∃ t r₀, e = .published t k ∧ Holds es s t k r₀ ∧ s.drafts.Current k.1 r₀.planVersion
  fails : ∀ e s' k r, FirmwareStep tools s e s' → s'.version k = some r → r.status = .failed →
    s.version k ≠ some r → (∃ t r₀, e = .failed t k ∧ Holds es s t k r₀) ∨
      ∃ t now r₀, e = .expired t now ∧ s.version k = some r₀ ∧ r₀.expired now = true ∧ now ≤ s.now ∧
        r₀.log.job.attempts = 3
  oneRequest : ∀ b v v' r r', s.version (b, v) = some r → s.version (b, v') = some r' →
    r.log.job.requestId = r'.log.job.requestId → v = v'
  answers : ∀ b requestId v v', .answered b requestId v ∈ es → .answered b requestId v' ∈ es → v = v'

theorem holds_of_leased {lease : Text} (hs : Ledger.Sound es s.ledger) (hlease : s.leases t = some lease)
    (hr : s.version k = some r) (hleased : r.leased lease = true) : Holds es s t k r := by
  obtain ⟨hrunning, hl⟩ := leased_iff.mp hleased
  obtain ⟨u, hlast, -, hsame⟩ := hs.leased k r hr hrunning
  obtain rfl := hs.leases u t lease (hsame.symm.trans hl) hlease
  exact ⟨hlast, hr, lease, hlease, hleased⟩

theorem claim_again (hp : Ledger.Planned s.ledger) (hr : s.version k = some r) (hexpired : r.expired s.now = true)
    (hfew : r.log.job.attempts < 3) {lease : Text} (htask : s.workers t = .ready lease)
    (hfree : (s.bundles k).Free (.pool t)) :
    ∃ w s', w.key = k ∧ FirmwareStep tools s .quiet s' ∧ s'.workers t = .claiming w := by
  obtain ⟨p, hplan⟩ := hp k r hr
  let w : Work π := ⟨lease, k.1, k.2, r.planVersion, ((claim s.now lease).change r).log.job, p, true,
    s.drafts.latestSpec k.1⟩
  have hclaimable : r.claimable s.now = true := by
    simp [Bundle.claimable, hexpired, hfew]
  exact ⟨w, _, rfl, .worker (.claim (w := w) htask hfree hr hclaimable rfl rfl hplan rfl), Function.update_self ..⟩

/-- **Firmware build versions.** Over every run of the services, whatever requests, retries, workers and turns come
in between, and wherever a worker stalls. -/
theorem firmware_versions (h : (firmware tools).Run es s) : Versions tools es s := by
  have hI := run_inv h
  have hs := Ledger.run_sound (run_ledger h)
  -- what a step does to a version
  have hrow : ∀ {e s' k r}, FirmwareStep tools s e s' → s'.version k = some r →
      s.ledger.RowMoves k e (s.version k) (some r) := by
    intro e s' k r hstep hr
    have hm := (step_refines hI hstep).1.row k
    have hr' : s'.ledger.rows k = some r := hr
    rw [hr'] at hm
    exact hm
  refine ⟨hs.oneActive, ?_, fun k r hr => (hs.counted k).pending r hr, ?_, ?_, ?_, ?_, ?_, hs.oneRequest, ?_⟩
  · intro k
    rw [(hs.counted k).claims]
    cases hr : s.ledger.rows k with
    | none => exact Nat.zero_le _
    | some r => exact (hs.counted k).le r hr
  · exact fun k r hr hexpired hfew t lease htask hfree => claim_again hs.planned hr hexpired hfew htask hfree
  · intro k r hr hexpired hattempts t now s₁ es' s₂ s₃ hbegin hsteps hend
    exact expired_settled hI hr hexpired hattempts hbegin hsteps hend
  · intro k r hr hpassed es' s' hsteps
    exact Ledger.passed_steps (steps_ledger hI hsteps) hr hpassed
  · intro e s' k r hstep hr hpassed hne
    have hm := hrow hstep hr
    generalize hx : s.version k = x at hm hne
    cases hm with
    | same _ => exact absurd rfl hne
    | insert hpending _ => exact absurd (hpending.symm.trans hpassed) (by simp)
    | retry _ => exact absurd hpassed (by simp [retried])
    | expire _ => exact absurd hpassed (by simp [expire])
    | claim _ _ => exact absurd hpassed (by simp [claim])
    | publish hlease hleased _ hcurrent =>
      exact ⟨_, _, rfl, holds_of_leased hs hlease hx hleased, hcurrent⟩
    | fail _ _ => exact absurd hpassed (by simp [fail])
  · intro e s' k r hstep hr hfailed hne
    have hm := hrow hstep hr
    generalize hx : s.version k = x at hm hne
    cases hm with
    | same _ => exact absurd rfl hne
    | insert hpending _ => exact absurd (hpending.symm.trans hfailed) (by simp)
    | retry _ => exact absurd hfailed (by simp [retried])
    | expire hmatch =>
      obtain ⟨hrunning, hstale, hattempts⟩ := expire_matching.mp hmatch
      obtain ⟨lease, rest, htask, -⟩ := expired_step hstep
      have hle := (hs.counted k).le _ hx
      refine Or.inr ⟨_, _, _, rfl, rfl, ?_, run_clocked h _ _ _ _ htask, by omega⟩
      simp [Bundle.expired, hrunning, hstale]
    | claim _ _ => exact absurd hfailed (by simp [claim])
    | publish _ _ _ _ => exact absurd hfailed (by simp [publish])
    | fail hlease hleased => exact Or.inl ⟨_, _, rfl, holds_of_leased hs hlease hx hleased⟩
  · intro b requestId v v' hv hv'
    obtain ⟨r, hr, hid⟩ := hs.answered b requestId v hv
    obtain ⟨r', hr', hid'⟩ := hs.answered b requestId v' hv'
    exact hs.oneRequest b v v' r r' hr hr' (hid.trans hid'.symm)

end

/-! ## A version from its request to its publication -/

namespace Bench

def tools : Toolchain Unit Unit Unit where
  enabled := true
  decodePlan _ := some ⟨(), 60, js "digest"⟩
  editCandidate _ _ := none
  renderCandidate _ _ := some (js "app")
  isCamera _ := false
  candidateId _ := js "esp32s3"
  candidateManifestMatches _ _ := true
  compilerFor _ := true
  serializeFirmwareManifest _ := js "manifest"
  sha256 t := t

def plan : Plan Unit := ⟨1, true, ()⟩

def s₀ : State Unit Unit Unit where
  now := 0
  bundles := fun _ => .empty
  drafts := ⟨fun _ => 1, fun _ v => if v = 1 then some plan else none⟩
  session := none
  leases := fun _ => none
  requests := fun _ => .idle
  workers := fun _ => .idle
  sendings := fun _ => .none

def request : CompileRequest := ⟨js "build", 1, js "request", none, none⟩

def job : Job := ⟨js "request", 60, [], none, 0⟩

def decoded : Decoded Unit := ⟨(), 60, js "digest"⟩

def work : Work Unit := ⟨js "lease", js "build", 1, 1, { job with attempts := 1 }, plan, true, 1⟩

def compiled : Compiled Unit where
  manifest := ⟨js "build", 1, 1, [], ()⟩
  manifestBytes := js "manifest"
  manifestDigest := js "manifest"
  source := js "app"
  sourceSha256 := js "app"
  files := [(js "a", []), (js "b", []), (js "c", [])]
  bundle := js "zip"
  diagnostics := []

theorem creates : compileRequest tools request decoded [] = .ok (.create 1 job) := rfl

theorem prepares : prepare tools work = .ok decoded := rfl

theorem goes {es : List Event} {s s' : State Unit Unit Unit} {e : Event} (h : (firmware tools).Run es s)
    (hs : FirmwareStep tools s e s') : (firmware tools).Run (es ++ [e]) s' :=
  .step h hs trivial

theorem no_rows {s : State Unit Unit Unit} {b : Text} (h : s.bundles = s₀.bundles) : s.Listed b [] :=
  ⟨by simp [State.version, h, s₀, Slot.empty], .nil⟩

theorem requested : ∃ es s, (firmware tools).Run es s ∧
    s.bundles = Function.update s₀.bundles (js "build", 1) ⟨some (newBundle 1 job 0), none⟩ ∧
    s.drafts = s₀.drafts ∧ s.now = 0 ∧ s.session = none ∧ s.leases = s₀.leases ∧
    s.workers = s₀.workers ∧ s.sendings = s₀.sendings ∧ ∀ t, (s.requests t).build = none := by
  have h₀ : (firmware tools).Run [] s₀ := .init ⟨fun _ => rfl, fun _ => rfl, fun _ => rfl, fun _ => rfl, fun _ => rfl⟩
  have h₁ := goes h₀ (.request (.begin (t := 0) (a := .compile request) rfl))
  have h₂ := goes h₁ (.request (.lock (t := 0) rfl fun y hy => by
    cases y with
    | request u =>
      by_cases hu : u = 0
      · rw [hu]
      · exact absurd hy (by simp [State.build, State.setRequest, Function.update_of_ne hu, s₀, Request.build])
    | pool u => exact absurd hy (by simp [State.build])
    | dedicated u => exact absurd hy (by simp [State.build, State.setRequest, s₀, Sending.build])))
  have h₃ := goes h₂ (.request (.plan (t := 0) (d := decoded) rfl rfl rfl))
  have h₄ := goes h₃ (.request (.create (t := 0) rfl (no_rows rfl) creates))
  have h₅ := goes h₄ (.request (.insert (t := 0) rfl rfl))
  have h₆ := goes h₅ (.request (.answer (t := 0) rfl))
  refine ⟨_, _, h₆, ?_, rfl, rfl, rfl, rfl, rfl, rfl, ?_⟩
  · funext k
    by_cases hk : k = (js "build", 1)
    · subst hk
      rfl
    · have hwritten : ∀ x : Slot Tx (Bundle Unit), Function.update s₀.bundles (js "build", 1) x k = .empty :=
        fun x => Function.update_of_ne hk _ _
      rw [Function.update_of_ne hk]
      exact (congrArg (Slot.commit (Tx.request 0)) (hwritten _)).trans rfl
  · intro u
    by_cases hu : u = 0
    · rw [hu]
      rfl
    · simp [State.setRequest, State.commit, State.write, Function.update_of_ne hu, s₀, Request.build]

def running : Bundle Unit := (claim 0 (js "lease")).change (newBundle 1 job 0)

theorem published : ∃ es s r, (firmware tools).Run es s ∧ s.version (js "build", 1) = some r ∧ r.status = .passed := by
  obtain ⟨es, ⟨now, bundles, drafts, session, leases, requests, workers, sendings⟩, h₀, hbundles, hdrafts, hnow,
    hsession, hleases, hworkers, hsendings, hrequests⟩ := requested
  dsimp only at hbundles hdrafts hnow hsession hleases hworkers hsendings hrequests
  subst hbundles hdrafts hnow hsession hleases hworkers hsendings
  have h₁ := goes h₀ (.worker (@WorkerStep.start _ _ _ tools 0 _ (js "lease") rfl rfl rfl (by simp [s₀])))
  have h₂ := goes h₁ (.worker (.expire (t := 0) rfl))
  have h₃ := goes h₂ (.worker (.expired (t := 0) rfl fun k => by
    by_cases hk : k = (js "build", 1)
    · subst hk
      rfl
    · exact congrArg (fun x : Slot Tx (Bundle Unit) => (x.seen (.pool 0)).any (expire 0).matching)
        (Function.update_of_ne hk _ s₀.bundles)))
  have h₄ := goes h₃ (.worker (@WorkerStep.claim _ _ _ tools 0 _ work (newBundle 1 job 0) rfl
    (fun _ _ hheld => absurd hheld (Option.some_ne_none _).symm) rfl rfl rfl rfl rfl rfl))
  have h₅ := goes h₄ (.worker (.claimed (t := 0) rfl))
  have h₆ := goes h₅ (.worker (.prepare (t := 0) rfl prepares))
  have h₇ := goes h₆ (.worker (@WorkerStep.deliver _ _ _ tools 0 _ work decoded compiled rfl (by
    refine ⟨rfl, rfl, rfl, rfl, rfl, rfl, rfl, rfl, rfl, ?_⟩
    intro f hf
    exact absurd hf (List.not_mem_nil)) ⟨by decide, by decide, by decide⟩ rfl rfl))
  have h₈ := goes h₇ (.sending (.lock (t := 0) rfl rfl rfl fun y hy => by
    cases y with
    | request u => exact absurd ((hrequests u).symm.trans hy) (by simp)
    | pool u => exact absurd hy (by simp [State.build])
    | dedicated u =>
      by_cases hu : u = 0
      · rw [hu]
      · exact absurd hy (by simp [State.build, State.setSending, State.setWorker, Function.update_of_ne hu, s₀,
          State.commit, State.write, Sending.build])))
  have h₉ := goes h₈ (.sending (.check (t := 0) rfl rfl rfl rfl))
  have h₁₀ := goes h₉ (.sending (.write (t := 0) (r := running) rfl rfl rfl
    (fun _ _ hheld => absurd hheld (Option.some_ne_none _).symm) rfl rfl))
  have h₁₁ := goes h₁₀ (.sending (.commit (t := 0) rfl rfl rfl))
  have h₁₂ := goes h₁₁ (.sending (.committed (t := 0) rfl rfl))
  exact ⟨_, _, _, h₁₂, rfl, rfl⟩

/-- What holds of the run. -/
theorem firmware_versions_published : ∃ es s r, Versions tools es s ∧ s.version (js "build", 1) = some r ∧
    r.status = .passed := by
  obtain ⟨es, s, r, h, hr, hpassed⟩ := published
  exact ⟨es, s, r, firmware_versions h, hr, hpassed⟩

end Bench

end Albusforge.Codegen
