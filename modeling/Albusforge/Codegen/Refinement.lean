import Albusforge.Codegen.System

/-!
# The services keep the ledger

What each transaction has locked and would leave (`Writes`), and what stays so while it has the row of its
build locked or its lease is current (`Facts`). **Every step of the services is an operation of the ledger, or
nothing that the ledger shows** (`step_refines`), so that whatever holds of every ledger holds of the committed
rows (`run_ledger`).
-/

namespace Albusforge.Codegen

open Lib Lib.ReadCommitted Sessions

variable {π κ μ : Type}

def State.ledger (s : State π κ μ) : Ledger π μ := ⟨s.version, s.drafts, s.leases⟩

/-! ## What a transaction has locked, and would leave -/

namespace Request

def Writes : Request κ μ → Key → Option (Bundle μ) → Bundle μ → Prop
  | .inserted q v r => fun k x r' => k = (q.buildId, v) ∧ x = none ∧ r' = r
  | .found b v r => fun k x r' => k = (b, v) ∧ x = some r ∧ r' = r
  | .cleared b v r => fun k x r' => k = (b, v) ∧ x = some r ∧ r' = r
  | .alone b v r => fun k x r' => k = (b, v) ∧ x = some r ∧ r' = r
  | .reopened b v r r₁ => fun k x r' => k = (b, v) ∧ x = some r ∧ r' = r₁
  | _ => fun _ _ _ => False

def Target : Request κ μ → Key → Prop
  | .inserted q v _ => fun k => k = (q.buildId, v)
  | .found b v _ => fun k => k = (b, v)
  | .cleared b v _ => fun k => k = (b, v)
  | .alone b v _ => fun k => k = (b, v)
  | .reopened b v _ _ => fun k => k = (b, v)
  | _ => fun _ => False

def Facts (L : Ledger π μ) : Request κ μ → Prop
  | .planned q _ => ∃ p, L.drafts.plans q.buildId q.planVersion = some p
  | .duplicate q v => ∃ r, L.rows (q.buildId, v) = some r ∧ r.log.job.requestId = q.requestId
  | .creating q _ job => L.NoneActive q.buildId ∧ L.NewRequest q.buildId q.requestId ∧
      (∃ p, L.drafts.plans q.buildId q.planVersion = some p) ∧ job.requestId = q.requestId ∧ job.attempts = 0
  | .inserted q _ r => L.NoneActive q.buildId ∧ L.NewRequest q.buildId q.requestId ∧
      (∃ p, L.drafts.plans q.buildId r.planVersion = some p) ∧ r.log.job.requestId = q.requestId ∧
      r.log.job.attempts = 0 ∧ r.status = .pending
  | .cleared _ _ r => retryRequest r = .ok ()
  | .alone b _ r => L.NoneActive b ∧ retryRequest r = .ok ()
  | .reopened b _ r r' => L.NoneActive b ∧ retryRequest r = .ok () ∧ ∃ now, r' = retried now r
  | _ => True

end Request

namespace Worker

def Writes : Worker π κ μ → Key → Option (Bundle μ) → Bundle μ → Prop
  | .expiring _ now _ => fun _ x r' => ∃ r, x = some r ∧ (expire now).matching r = true ∧ r' = (expire now).change r
  | .claiming w => fun k x r' => k = w.key ∧ ∃ r now, x = some r ∧ (claim now w.lease).matching r = true ∧
      r' = (claim now w.lease).change r ∧ w.job = r'.log.job ∧ w.planVersion = r'.planVersion
  | .settling w f => fun k x r' => k = w.key ∧ ∃ r now, x = some r ∧ (fail now w.lease f).matching r = true ∧
      r' = (fail now w.lease f).change r
  | _ => fun _ _ _ => False

def Target : Worker π κ μ → Key → Prop
  | .claiming w => fun k => k = w.key
  | .settling w _ => fun k => k = w.key
  | _ => fun _ => False

def lease : Worker π κ μ → Option Text
  | .idle => none
  | .finished => none
  | .started l => some l
  | .expiring l _ _ => some l
  | .ready l => some l
  | .claiming w => some w.lease
  | .working w => some w.lease
  | .compiling w _ => some w.lease
  | .publishing x => some x.work.lease
  | .failing w _ => some w.lease
  | .settling w _ => some w.lease

def claimed : Worker π κ μ → Option (Work π)
  | .working w => some w
  | .compiling w _ => some w
  | .publishing x => some x.work
  | .failing w _ => some w
  | .settling w _ => some w
  | _ => none

def Early : Worker π κ μ → Prop
  | .idle => True
  | .started _ => True
  | .expiring _ _ _ => True
  | .ready _ => True
  | .claiming _ => True
  | _ => False

structure Facts (L : Ledger π μ) (t : ℕ) (x : Worker π κ μ) : Prop where
  drawn : ∀ l ∈ x.lease, L.leases t = some l
  kept : ∀ w ∈ x.claimed, L.Kept w.key w.lease w.job w.planVersion

end Worker

namespace Sending

def delivery : Sending π κ μ → Option (Delivery π κ μ)
  | .begun x => some x
  | .locked x => some x
  | .checked x => some x
  | .written x => some x
  | .committing x => some x
  | _ => Option.none

def approved : Sending π κ μ → Option (Delivery π κ μ)
  | .checked x => some x
  | .written x => some x
  | .committing x => some x
  | _ => Option.none

def sent : Sending π κ μ → Option (Delivery π κ μ)
  | .written x => some x
  | .committing x => some x
  | _ => Option.none

def Writes (tools : Toolchain π κ μ) (y : Sending π κ μ) (k : Key) (x : Option (Bundle μ)) (r' : Bundle μ) : Prop :=
  ∃ d ∈ y.sent, k = d.work.key ∧ ∃ r now, x = some r ∧ r.leased d.work.lease = true ∧
    r' = (publish now d.work.lease (publication tools d.work d.decoded d.compiled)).change r

def Target (y : Sending π κ μ) (k : Key) : Prop := ∃ d ∈ y.sent, k = d.work.key

structure Facts (L : Ledger π μ) (t : ℕ) (y : Sending π κ μ) : Prop where
  drawn : ∀ d ∈ y.delivery, L.leases t = some d.work.lease
  kept : ∀ d ∈ y.delivery, L.Kept d.work.key d.work.lease d.work.job d.work.planVersion
  current : ∀ d ∈ y.approved, L.drafts.Current d.work.buildId d.work.planVersion

end Sending

/-! ## The invariant -/

structure RequestInv (h : Heap Key Tx (Bundle μ)) (L : Ledger π μ) (t : ℕ) (x : Request κ μ) : Prop where
  owns : Owns (.request t) x.Writes x.Target h
  facts : x.Facts L

structure WorkerInv (h : Heap Key Tx (Bundle μ)) (L : Ledger π μ) (t : ℕ) (x : Worker π κ μ) : Prop where
  owns : Owns (.pool t) x.Writes x.Target h
  facts : x.Facts L t

structure SendingInv (tools : Toolchain π κ μ) (h : Heap Key Tx (Bundle μ)) (L : Ledger π μ) (t : ℕ)
    (x : Sending π κ μ) : Prop where
  owns : Owns (.dedicated t) (x.Writes tools) x.Target h
  facts : x.Facts L t

structure Inv (tools : Toolchain π κ μ) (s : State π κ μ) : Prop where
  requests : ∀ t, RequestInv s.bundles s.ledger t (s.requests t)
  workers : ∀ t, WorkerInv s.bundles s.ledger t (s.workers t)
  sendings : ∀ t, SendingInv tools s.bundles s.ledger t (s.sendings t)
  exclusive : ∀ x y b, s.build x = some b → s.build y = some b → x = y
  unsent : ∀ t, (s.workers t).Early → s.sendings t = .none
  leases : Ledger.LeasesUnique s.leases

section

variable {tools : Toolchain π κ μ} {h h' : Heap Key Tx (Bundle μ)} {L L' : Ledger π μ} {e : Event} {t : ℕ}
  {v : Tx}

/-! ## While another transaction goes on -/

theorem Request.Facts.step {x : Request κ μ} (hx : x.Facts L) (hm : L.Moves e L')
    (hb : ∀ b, x.build = some b → e.build ≠ some b) : x.Facts L' := by
  cases x with
  | planned q d =>
    obtain ⟨p, hp⟩ := hx
    exact hm.plans hp
  | duplicate q v =>
    obtain ⟨r, hr, hid⟩ := hx
    have hrow := hm.row (q.buildId, v)
    rw [hr] at hrow
    obtain ⟨r', hr', hsame, -⟩ := hrow.stays
    exact ⟨r', hr', hsame.trans hid⟩
  | creating q v job =>
    obtain ⟨hnone, hnew, ⟨p, hp⟩, hjob⟩ := hx
    exact ⟨hnone.step hm (hb _ rfl), hnew.step hm (hb _ rfl), hm.plans hp, hjob⟩
  | inserted q v r =>
    obtain ⟨hnone, hnew, ⟨p, hp⟩, hrow⟩ := hx
    exact ⟨hnone.step hm (hb _ rfl), hnew.step hm (hb _ rfl), hm.plans hp, hrow⟩
  | cleared b v r => exact hx
  | alone b v r => exact ⟨hx.1.step hm (hb _ rfl), hx.2⟩
  | reopened b v r r' => exact ⟨hx.1.step hm (hb _ rfl), hx.2⟩
  | _ => trivial

theorem RequestInv.onward {x : Request κ μ} (hx : RequestInv h L t x) (ht : .request t ≠ v) (hh : Onward v h h')
    (hm : L.Moves e L') (hb : ∀ b, x.build = some b → e.build ≠ some b) : RequestInv h' L' t x :=
  ⟨hx.owns.onward ht hh, hx.facts.step hm hb⟩

theorem Worker.Facts.step {x : Worker π κ μ} (hx : x.Facts L t) (hm : L.Moves e L')
    (hu : Ledger.LeasesUnique L.leases) (he : x.claimed ≠ none → ∀ k, e.claimer k ≠ some t) : x.Facts L' t := by
  refine ⟨fun l hl => hm.leases (hx.drawn l hl), ?_⟩
  intro w hw
  have hdrawn : L.leases t = some w.lease := by
    refine hx.drawn w.lease ?_
    cases x with
    | working _ => exact congrArg (Option.map Work.lease) hw
    | compiling _ _ => exact congrArg (Option.map Work.lease) hw
    | publishing _ => exact congrArg (Option.map Work.lease) hw
    | failing _ _ => exact congrArg (Option.map Work.lease) hw
    | settling _ _ => exact congrArg (Option.map Work.lease) hw
    | _ => exact absurd hw (by simp [Worker.claimed])
  exact (hx.kept w hw).step hm hdrawn hu (he (Option.ne_none_iff_exists'.mpr ⟨w, hw⟩) _)

theorem WorkerInv.onward {x : Worker π κ μ} (hx : WorkerInv h L t x) (ht : .pool t ≠ v) (hh : Onward v h h')
    (hm : L.Moves e L') (hu : Ledger.LeasesUnique L.leases) (he : ∀ k, e.claimer k ≠ some t) :
    WorkerInv h' L' t x :=
  ⟨hx.owns.onward ht hh, hx.facts.step hm hu fun _ => he⟩

theorem Sending.approved_delivery {y : Sending π κ μ} {d : Delivery π κ μ} (h : d ∈ y.approved) :
    d ∈ y.delivery ∧ y.build = some d.work.buildId := by
  cases y with
  | checked x => exact ⟨h, congrArg (Option.map fun x : Delivery π κ μ => x.work.buildId) h⟩
  | written x => exact ⟨h, congrArg (Option.map fun x : Delivery π κ μ => x.work.buildId) h⟩
  | committing x => exact ⟨h, congrArg (Option.map fun x : Delivery π κ μ => x.work.buildId) h⟩
  | _ => exact absurd h (by simp [Sending.approved])

theorem Sending.Facts.step {y : Sending π κ μ} (hy : y.Facts L t) (hm : L.Moves e L')
    (hu : Ledger.LeasesUnique L.leases) (he : y ≠ .none → ∀ k, e.claimer k ≠ some t)
    (hb : ∀ b, y.build = some b → e.build ≠ some b) : y.Facts L' t := by
  refine ⟨fun d hd => hm.leases (hy.drawn d hd), ?_, ?_⟩
  · intro d hd
    refine (hy.kept d hd).step hm (hy.drawn d hd) hu (he ?_ _)
    intro heq
    rw [heq] at hd
    exact absurd hd (by simp [Sending.delivery])
  · intro d hd
    exact Ledger.current_step (hy.current d hd) hm (hb _ (Sending.approved_delivery hd).2)

theorem SendingInv.onward {y : Sending π κ μ} (hy : SendingInv tools h L t y) (ht : .dedicated t ≠ v)
    (hh : Onward v h h') (hm : L.Moves e L') (hu : Ledger.LeasesUnique L.leases)
    (he : y ≠ .none → ∀ k, e.claimer k ≠ some t) (hb : ∀ b, y.build = some b → e.build ≠ some b) :
    SendingInv tools h' L' t y :=
  ⟨hy.owns.onward ht hh, hy.facts.step hm hu he hb⟩

end

/-! ## One transaction goes on -/

section

variable {tools : Toolchain π κ μ} {s s' : State π κ μ} {e : Event} {t : ℕ}

theorem Inv.other_build (hI : Inv tools s) {x y : Tx} (hxy : y ≠ x)
    (he : ∀ b, e.build = some b → s.build x = some b) (b : Text) (hb : s.build y = some b) :
    e.build ≠ some b :=
  fun heq => hxy (hI.exclusive y x b hb (he b heq))

theorem Inv.unlocked (hI : Inv tools s) {x : Tx} {b : Text} (h : s.build x = some b) : s.Unlocked x b :=
  fun y hy => hI.exclusive y x b hy h

theorem Inv.exclusive_step (hI : Inv tools s) {x : Tx} (hother : ∀ y, y ≠ x → s'.build y = s.build y)
    (hlock : ∀ b, s'.build x = some b → s.Unlocked x b) :
    ∀ y z b, s'.build y = some b → s'.build z = some b → y = z := by
  intro y z b hy hz
  by_cases heqy : y = x
  · subst heqy
    by_cases heqz : z = y
    · exact heqz.symm
    · exact (hlock b hy z ((hother z heqz).symm.trans hz)).symm
  · have hy' := (hother y heqy).symm.trans hy
    by_cases heqz : z = x
    · subst heqz
      exact hlock b hz y hy'
    · exact hI.exclusive y z b hy' ((hother z heqz).symm.trans hz)

theorem Inv.onRequest {x : Request κ μ} (hI : Inv tools s) (hm : s.ledger.Moves e s'.ledger)
    (hh : Onward (.request t) s.bundles s'.bundles) (hr : s'.requests = Function.update s.requests t x)
    (hw : s'.workers = s.workers) (hd : s'.sendings = s.sendings)
    (hx : RequestInv s'.bundles s'.ledger t x)
    (hlock : ∀ b, x.build = some b → s.Unlocked (.request t) b)
    (hevent : ∀ b, e.build = some b → s.build (.request t) = some b) (hclaim : ∀ k, e.claimer k = none) :
    Inv tools s' := by
  have hno : ∀ u k, e.claimer k ≠ some u := fun u k => by simp [hclaim]
  refine ⟨?_, ?_, ?_, hI.exclusive_step (x := .request t) ?_ ?_, ?_, hI.leases.step hm⟩
  · intro u
    rw [hr]
    by_cases hu : u = t
    · subst hu
      rw [Function.update_self]
      exact hx
    · rw [Function.update_of_ne hu]
      have hne : Tx.request u ≠ .request t := fun heq => hu (Tx.request.inj heq)
      exact (hI.requests u).onward hne hh hm (hI.other_build hne hevent)
  · intro u
    rw [hw]
    exact (hI.workers u).onward (by simp) hh hm hI.leases (hno u)
  · intro u
    rw [hd]
    exact (hI.sendings u).onward (by simp) hh hm hI.leases (fun _ => hno u)
      (hI.other_build (y := .dedicated u) (by simp) hevent)
  · intro y hy
    cases y with
    | request u =>
      have hu : u ≠ t := fun heq => hy (congrArg Tx.request heq)
      show (s'.requests u).build = _
      rw [hr, Function.update_of_ne hu]
      rfl
    | pool u => rfl
    | dedicated u => exact congrArg (fun f : ℕ → Sending π κ μ => (f u).build) hd
  · intro b hb
    refine hlock b (hb ▸ ?_)
    show _ = (s'.requests t).build
    rw [hr, Function.update_self]
  · intro u hu
    rw [hw] at hu
    rw [hd]
    exact hI.unsent u hu

theorem Inv.onWorker {x : Worker π κ μ} (hI : Inv tools s) (hm : s.ledger.Moves e s'.ledger)
    (hh : Onward (.pool t) s.bundles s'.bundles) (hw : s'.workers = Function.update s.workers t x)
    (hr : s'.requests = s.requests) (hd : s'.sendings = s.sendings)
    (hx : WorkerInv s'.bundles s'.ledger t x) (hearly : x.Early → (s.workers t).Early)
    (hevent : e.build = none) (hclaim : ∀ k u, e.claimer k = some u → u = t ∧ (s.workers t).Early) :
    Inv tools s' := by
  have hno : ∀ b, e.build ≠ some b := fun b => by simp [hevent]
  refine ⟨?_, ?_, ?_, ?_, ?_, hI.leases.step hm⟩
  · intro u
    rw [hr]
    exact (hI.requests u).onward (by simp) hh hm fun b _ => hno b
  · intro u
    rw [hw]
    by_cases hu : u = t
    · subst hu
      rw [Function.update_self]
      exact hx
    · rw [Function.update_of_ne hu]
      have hne : Tx.pool u ≠ .pool t := fun heq => hu (Tx.pool.inj heq)
      exact (hI.workers u).onward hne hh hm hI.leases fun k hk => hu (hclaim k u hk).1
  · intro u
    rw [hd]
    refine (hI.sendings u).onward (by simp) hh hm hI.leases ?_ fun b _ => hno b
    -- a run that claims has sent nothing
    intro hsent k hk
    obtain ⟨rfl, hbefore⟩ := hclaim k u hk
    exact hsent (hI.unsent u hbefore)
  · intro y z b hy hz
    have hbuild : ∀ y, s'.build y = s.build y := by
      intro y
      cases y with
      | request u => exact congrArg (fun f : ℕ → Request κ μ => (f u).build) hr
      | pool u => rfl
      | dedicated u => exact congrArg (fun f : ℕ → Sending π κ μ => (f u).build) hd
    exact hI.exclusive y z b ((hbuild y).symm.trans hy) ((hbuild z).symm.trans hz)
  · intro u hu
    rw [hd]
    rw [hw] at hu
    by_cases heq : u = t
    · subst heq
      rw [Function.update_self] at hu
      exact hI.unsent u (hearly hu)
    · rw [Function.update_of_ne heq] at hu
      exact hI.unsent u hu

theorem Inv.onSending {x : Sending π κ μ} (hI : Inv tools s) (hm : s.ledger.Moves e s'.ledger)
    (hh : Onward (.dedicated t) s.bundles s'.bundles) (hd : s'.sendings = Function.update s.sendings t x)
    (hr : s'.requests = s.requests) (hw : s'.workers = s.workers)
    (hx : SendingInv tools s'.bundles s'.ledger t x) (hearly : (s.workers t).Early → x = .none)
    (hlock : ∀ b, x.build = some b → s.Unlocked (.dedicated t) b)
    (hevent : e.build = none) (hclaim : ∀ k, e.claimer k = none) : Inv tools s' := by
  have hno : ∀ u k, e.claimer k ≠ some u := fun u k => by simp [hclaim]
  have hnob : ∀ b, e.build ≠ some b := fun b => by simp [hevent]
  refine ⟨?_, ?_, ?_, hI.exclusive_step (x := .dedicated t) ?_ ?_, ?_, hI.leases.step hm⟩
  · intro u
    rw [hr]
    exact (hI.requests u).onward (by simp) hh hm fun b _ => hnob b
  · intro u
    rw [hw]
    exact (hI.workers u).onward (by simp) hh hm hI.leases (hno u)
  · intro u
    rw [hd]
    by_cases hu : u = t
    · subst hu
      rw [Function.update_self]
      exact hx
    · rw [Function.update_of_ne hu]
      have hne : Tx.dedicated u ≠ .dedicated t := fun heq => hu (Tx.dedicated.inj heq)
      exact (hI.sendings u).onward hne hh hm hI.leases (fun _ => hno u) fun b _ => hnob b
  · intro y hy
    cases y with
    | request u => exact congrArg (fun f : ℕ → Request κ μ => (f u).build) hr
    | pool u => rfl
    | dedicated u =>
      have hu : u ≠ t := fun heq => hy (congrArg Tx.dedicated heq)
      show (s'.sendings u).build = _
      rw [hd, Function.update_of_ne hu]
      rfl
  · intro b hb
    refine hlock b (hb ▸ ?_)
    show _ = (s'.sendings t).build
    rw [hd, Function.update_self]
  · intro u hu
    rw [hw] at hu
    rw [hd]
    by_cases heq : u = t
    · subst heq
      rw [Function.update_self]
      exact hearly hu
    · rw [Function.update_of_ne heq]
      exact hI.unsent u hu

end

/-! ## Every step -/

section

variable {tools : Toolchain π κ μ} {s s' : State π κ μ} {e : Event} {t : ℕ} {k : Key} {r : Bundle μ}

theorem ledger_within {x : Tx} (hw : Within x s.bundles s'.bundles) (hd : s'.drafts = s.drafts)
    (hl : s'.leases = s.leases) : s'.ledger = s.ledger := by
  unfold State.ledger
  rw [hd, hl, Ledger.mk.injEq]
  exact ⟨funext hw.committed, rfl, rfl⟩

theorem ledger_commit {x : Tx} {W : Key → Option (Bundle μ) → Bundle μ → Prop} {T : Key → Prop}
    (ho : Owns x W T s.bundles) (hone : ∀ k' c q, W k' c q → k' = k) (hT : T k) :
    ∃ r, W k (s.version k) r ∧ (s.commit x).ledger = s.ledger.setRow k r := by
  obtain ⟨r, hheld⟩ := ho.holds k hT
  refine ⟨r, ho.writes k r hheld, ?_⟩
  unfold State.ledger Ledger.setRow
  rw [Ledger.mk.injEq]
  exact ⟨ho.commit_one hone hheld, rfl, rfl⟩

theorem Inv.requestNext {x y : Request κ μ} (hI : Inv tools s) (htask : s.requests t = y)
    (hW : ∀ k c r, y.Writes k c r → x.Writes k c r) (hT : ∀ k, x.Target k → y.Target k)
    (hfacts : x.Facts s.ledger) (hlock : ∀ b, x.build = some b → s.Unlocked (.request t) b) :
    s.ledger.Moves .quiet (s.setRequest t x).ledger ∧ Inv tools (s.setRequest t x) := by
  have hm : s.ledger.Moves .quiet (s.setRequest t x).ledger := .silent trivial
  refine ⟨hm, hI.onRequest hm (.within .refl) rfl rfl rfl ⟨?_, hfacts⟩ hlock (by simp [Event.build])
    fun _ => rfl⟩
  have ho := (hI.requests t).owns
  rw [htask] at ho
  exact ho.mono hW hT

theorem Inv.requestWrite {x y : Request κ μ} (hI : Inv tools s) (htask : s.requests t = y)
    (hfree : (s.bundles k).Free (.request t)) (hW : ∀ k' c q, k' ≠ k → ¬ y.Writes k' c q)
    (hT : ∀ k', x.Target k' → k' = k) (hr : x.Writes k (s.version k) r) (hfacts : x.Facts s.ledger)
    (hlock : ∀ b, x.build = some b → s.Unlocked (.request t) b) :
    s.ledger.Moves .quiet ((s.write (.request t) k r).setRequest t x).ledger ∧
      Inv tools ((s.write (.request t) k r).setRequest t x) := by
  have hwithin : Within (.request t) s.bundles (s.write (.request t) k r).bundles := hold_within hfree
  have hledger : ((s.write (.request t) k r).setRequest t x).ledger = s.ledger := ledger_within hwithin rfl rfl
  have hm : s.ledger.Moves .quiet ((s.write (.request t) k r).setRequest t x).ledger := by
    rw [hledger]
    exact .silent trivial
  refine ⟨hm, hI.onRequest hm (.within hwithin) rfl rfl rfl ⟨?_, ?_⟩ hlock (by simp [Event.build]) fun _ => rfl⟩
  · have ho := (hI.requests t).owns
    rw [htask] at ho
    exact ho.hold (fun k' c q hk hw => absurd hw (hW k' c q hk)) (fun k' hk' => Or.inl (hT k' hk')) hr
  · rw [hledger]
    exact hfacts

theorem Inv.requestOver (hI : Inv tools s) (hm : s.ledger.Moves e s'.ledger)
    (hh : Onward (.request t) s.bundles s'.bundles) (hr : s'.requests = Function.update s.requests t .finished)
    (hw : s'.workers = s.workers) (hd : s'.sendings = s.sendings)
    (ho : Owns (.request t) (Request.finished : Request κ μ).Writes (fun _ => False) s'.bundles)
    (hevent : ∀ b, e.build = some b → s.build (.request t) = some b) (hclaim : ∀ k, e.claimer k = none) :
    Inv tools s' :=
  hI.onRequest hm hh hr hw hd ⟨ho, trivial⟩ (by simp [Request.build]) hevent hclaim

theorem request_refines (hI : Inv tools s) (h : RequestStep tools t s e s') :
    s.ledger.Moves e s'.ledger ∧ Inv tools s' := by
  have hx := hI.requests t
  have hbuild : ∀ {y : Request κ μ} {b : Text}, s.requests t = y → y.build = some b →
      s.build (.request t) = some b := fun htask hb => (congrArg Request.build htask).trans hb
  -- who holds the lock of the build goes on holding it
  have hheld : ∀ {y : Request κ μ} {b : Text}, s.requests t = y → y.build = some b →
      s.Unlocked (.request t) b := fun htask hb => hI.unlocked (hbuild htask hb)
  cases h with
  | begin htask => exact hI.requestNext htask (fun _ _ _ h => h) (fun _ h => h) trivial (by simp [Request.build])
  | lock htask hfree =>
    refine hI.requestNext htask (fun _ _ _ h => h) (fun _ h => h) trivial ?_
    intro b hb
    obtain rfl := Option.some.inj hb
    exact hfree
  | @draft b x htask hd =>
    rw [htask] at hx
    have hm : s.ledger.Moves (.drafted b) ({ s.setRequest t .finished with drafts := x } : State π κ μ).ledger :=
      .draft hd
    exact ⟨hm, hI.requestOver hm (.within .refl) rfl rfl rfl (hx.owns.mono (fun _ _ _ h => h) fun _ h => h)
      (fun b hb => hbuild htask hb) fun _ => rfl⟩
  | plan htask _ hok =>
    obtain ⟨p, hp, -⟩ := accepted_ok hok
    exact hI.requestNext htask (fun _ _ _ h => h) (fun _ h => h) ⟨p, hp⟩ fun b hb => hheld htask hb
  | duplicate htask hlisted hok =>
    obtain ⟨row, hrow, hid⟩ := duplicate_found hok
    exact hI.requestNext htask (fun _ _ _ h => h) (fun _ h => h) ⟨row, (hlisted.mem _ _).mp hrow, hid⟩
      fun b hb => hheld htask hb
  | create htask hlisted hok =>
    rw [htask] at hx
    have hc := creates_of_ok hok
    refine hI.requestNext htask (fun _ _ _ h => h) (fun _ h => h)
      ⟨?_, ?_, hx.facts, hc.requestId, hc.attempts⟩ fun b hb => hheld htask hb
    · intro v r hr
      exact hc.noneActive _ ((hlisted.mem v r).mpr hr)
    · intro v r hr
      exact hc.newRequest _ ((hlisted.mem v r).mpr hr)
  | insert htask hempty =>
    rw [htask] at hx
    obtain ⟨hnone, hnew, hplan, hid, hattempts⟩ := hx.facts
    refine hI.requestWrite htask ?_ (fun _ _ _ _ h => h) (fun _ h => h) ⟨rfl, ?_, rfl⟩
      ⟨hnone, hnew, hplan, hid, hattempts, rfl⟩ fun b hb => hheld htask hb
    · rw [hempty]
      exact Slot.free_empty
    · rw [State.version, hempty]
      rfl
  | @answerDuplicate q v htask =>
    rw [htask] at hx
    obtain ⟨r, hr, hid⟩ := hx.facts
    have hm : s.ledger.Moves (.answered q.buildId q.requestId v) (s.setRequest t .finished).ledger := by
      rw [← hid]
      exact Ledger.Moves.answer (k := (q.buildId, v)) hr
    exact ⟨hm, hI.requestOver hm (.within .refl) rfl rfl rfl (hx.owns.mono (fun _ _ _ h => h) fun _ h => h)
      (fun b hb => hbuild htask hb) fun _ => rfl⟩
  | @answer q v r htask =>
    rw [htask] at hx
    obtain ⟨hnone, hnew, hplan, hid, hattempts, hpending⟩ := hx.facts
    obtain ⟨r', ⟨-, hwas, rfl⟩, hledger⟩ :=
      ledger_commit (k := (q.buildId, v)) hx.owns (fun k' c q hw => hw.1) rfl
    have hm : s.ledger.Moves (.answered q.buildId q.requestId v) ((s.commit (.request t)).setRequest t .finished).ledger := by
      show s.ledger.Moves _ (s.commit (.request t)).ledger
      rw [hledger, ← hid]
      rw [← hid] at hnew
      exact Ledger.Moves.insert (k := (q.buildId, v)) hwas hnone hnew hpending hattempts hplan
    exact ⟨hm, hI.requestOver hm .commit rfl rfl rfl owns_committed (fun b hb => hbuild htask hb) fun _ => rfl⟩
  | find htask _ hfree hr =>
    exact hI.requestWrite htask hfree (fun _ _ _ _ h => h) (fun _ h => h) ⟨rfl, hr, rfl⟩ trivial
      fun b hb => hheld htask hb
  | clear htask _ hok =>
    exact hI.requestNext htask (fun _ _ _ h => h) (fun _ h => h) hok fun b hb => hheld htask hb
  | alone htask hnone =>
    rw [htask] at hx
    exact hI.requestNext htask (fun _ _ _ h => h) (fun _ h => h) ⟨hnone, hx.facts⟩ fun b hb => hheld htask hb
  | @reopen b v r htask =>
    rw [htask] at hx
    obtain ⟨q, hq⟩ := hx.owns.holds (b, v) rfl
    obtain ⟨-, hwas, rfl⟩ := hx.owns.writes _ _ hq
    exact hI.requestWrite htask (Slot.free_of_heldBy ⟨_, hq⟩) (fun k' c q hne h => hne h.1) (fun _ h => h)
      ⟨rfl, hwas, rfl⟩ ⟨hx.facts.1, hx.facts.2, s.now, rfl⟩ fun b hb => hheld htask hb
  | @retry b v r r' htask =>
    rw [htask] at hx
    obtain ⟨hnone, hok, now, rfl⟩ := hx.facts
    obtain ⟨r', ⟨-, hwas, rfl⟩, hledger⟩ := ledger_commit (k := (b, v)) hx.owns (fun k' c q hw => hw.1) rfl
    have hm : s.ledger.Moves (.retried (b, v)) ((s.commit (.request t)).setRequest t .finished).ledger := by
      show s.ledger.Moves _ (s.commit (.request t)).ledger
      rw [hledger]
      exact .retry hwas hnone hok
    exact ⟨hm, hI.requestOver hm .commit rfl rfl rfl owns_committed (fun b hb => hbuild htask hb) fun _ => rfl⟩
  | fail _ _ =>
    have hledger : ((s.rollback (.request t)).setRequest t .finished).ledger = s.ledger :=
      ledger_within (x := .request t) abort_within rfl rfl
    have hm : s.ledger.Moves .quiet ((s.rollback (.request t)).setRequest t .finished).ledger := by
      rw [hledger]
      exact .silent trivial
    exact ⟨hm, hI.requestOver hm (.within abort_within) rfl rfl rfl owns_aborted (by simp [Event.build])
      fun _ => rfl⟩

/-! ## Workers -/

theorem Inv.workerQuiet {x y : Worker π κ μ} (hI : Inv tools s) (htask : s.workers t = y) (he : e.Silent)
    (hwithin : Within (.pool t) s.bundles s'.bundles) (hdrafts : s'.drafts = s.drafts)
    (hleases : s'.leases = s.leases) (hw : s'.workers = Function.update s.workers t x)
    (hr : s'.requests = s.requests) (hd : s'.sendings = s.sendings)
    (ho : Owns (.pool t) x.Writes x.Target s'.bundles) (hlease : ∀ l ∈ x.lease, l ∈ y.lease)
    (hclaimed : ∀ w ∈ x.claimed, w ∈ y.claimed) (hearly : x.Early → y.Early) :
    s.ledger.Moves e s'.ledger ∧ Inv tools s' := by
  have hfacts := (hI.workers t).facts
  rw [htask] at hfacts
  have hledger : s'.ledger = s.ledger := ledger_within hwithin hdrafts hleases
  have hm : s.ledger.Moves e s'.ledger := by
    rw [hledger]
    exact .silent he
  refine ⟨hm, hI.onWorker hm (.within hwithin) hw hr hd ⟨ho, ?_⟩ (by rw [htask]; exact hearly) ?_ ?_⟩
  · rw [hledger]
    exact ⟨fun l hl => hfacts.drawn l (hlease l hl), fun w hw => hfacts.kept w (hclaimed w hw)⟩
  · cases e with
    | quiet => rfl
    | expiring _ => rfl
    | _ => exact absurd he (by simp [Event.Silent])
  · intro k u hk
    cases e with
    | claimed _ _ => exact absurd he (by simp [Event.Silent])
    | _ => exact absurd hk (by simp [Event.claimer])

theorem Inv.workerNext {x y : Worker π κ μ} (hI : Inv tools s) (htask : s.workers t = y) (he : e.Silent)
    (hW : ∀ k c r, y.Writes k c r → x.Writes k c r) (hT : ∀ k, x.Target k → y.Target k)
    (hlease : ∀ l ∈ x.lease, l ∈ y.lease) (hclaimed : ∀ w ∈ x.claimed, w ∈ y.claimed)
    (hearly : x.Early → y.Early) :
    s.ledger.Moves e (s.setWorker t x).ledger ∧ Inv tools (s.setWorker t x) := by
  refine hI.workerQuiet htask he .refl rfl rfl rfl rfl rfl ?_ hlease hclaimed hearly
  have ho := (hI.workers t).owns
  rw [htask] at ho
  exact ho.mono hW hT

theorem Worker.lease_of_work {x : Worker π κ μ} {w : Work π} (h : x.work = some w) :
    x.lease = some w.lease ∧ x.claimed = some w := by
  cases x with
  | working _ => exact ⟨congrArg (Option.map Work.lease) h, h⟩
  | compiling _ _ => exact ⟨congrArg (Option.map Work.lease) h, h⟩
  | publishing _ => exact ⟨congrArg (Option.map Work.lease) h, h⟩
  | _ => exact absurd h (by simp [Worker.work])

theorem Worker.bare_of_work {x : Worker π κ μ} {w : Work π} (h : x.work = some w) {k : Key}
    {c : Option (Bundle μ)} {r : Bundle μ} : ¬ x.Writes k c r := by
  cases x with
  | working _ => exact id
  | compiling _ _ => exact id
  | publishing _ => exact id
  | _ => exact absurd h (by simp [Worker.work])

theorem expire_visit {h : Heap Key Tx (Bundle μ)} {lease : Text} {now : ℤ} {rest rest' : Key → Bool}
    (ho : Owns (.pool t) (Worker.expiring lease now rest : Worker π κ μ).Writes (fun _ => False) h) :
    Owns (.pool t) (Worker.expiring lease now rest' : Worker π κ μ).Writes (fun _ => False)
      ((expire now).visit (.pool t) k h) := by
  refine ⟨?_, fun _ hfalse => hfalse.elim⟩
  intro k' r' hheld
  rw [Update.visit_committed]
  by_cases hk : k' = k
  · subst hk
    rw [Update.visit_self] at hheld
    rcases Update.apply_held hheld with hold | ⟨-, r, hseen, hmatch, rfl⟩
    · exact ho.writes k' r' hold
    · have hnot : ¬ (h k').HeldBy (.pool t) := by
        intro ⟨q, hq⟩
        obtain ⟨r₀, -, -, rfl⟩ := ho.writes k' q hq
        -- what has been changed is running no more
        obtain rfl := Option.some.inj ((Slot.seen_of_held hq).symm.trans hseen)
        exact absurd (expire_matching.mp hmatch).1 (by simp [Codegen.expire])
      rw [Slot.seen_of_not_held hnot] at hseen
      exact ⟨r, hseen, hmatch, rfl⟩
  · rw [Update.visit_of_ne hk] at hheld
    exact ho.writes k' r' hheld

theorem expired_moves {lease : Text} {now : ℤ} {rest : Key → Bool}
    (ho : Owns (.pool t) (Worker.expiring lease now rest : Worker π κ μ).Writes (fun _ => False) s.bundles) :
    s.ledger.Moves (.expired t now) (s.commit (.pool t)).ledger := by
  refine @Ledger.Moves.expire _ _ _ _ now _ fun k => ?_
  rcases ho.committed k with ⟨r', ⟨r, hwas, hmatch, rfl⟩, hnew⟩ | ⟨-, hsame⟩
  · exact Or.inr ⟨r, hwas, hmatch, hnew⟩
  · exact Or.inl hsame

/-- **Every step of a worker.** -/
theorem worker_refines (hI : Inv tools s) (h : WorkerStep tools t s e s') :
    s.ledger.Moves e s'.ledger ∧ Inv tools s' := by
  have hx := hI.workers t
  cases h with
  | @start lease htask _ hnone hnew =>
    rw [htask] at hx
    have hm : s.ledger.Moves .quiet ({ s.setWorker t (.started lease) with
        session := some t
        leases := Function.update s.leases t (some lease) } : State π κ μ).ledger := .draw hnone hnew
    refine ⟨hm, hI.onWorker hm (.within .refl) rfl rfl rfl
      ⟨hx.owns.mono (fun _ _ _ h => h) fun _ h => h, ?_, by simp [Worker.claimed]⟩ ?_ rfl (by simp [Event.claimer])⟩
    · intro l hl
      obtain rfl := Option.some.inj hl
      exact Function.update_self ..
    · rw [htask]
      exact id
  | busy htask _ =>
    exact hI.workerNext htask trivial (fun _ _ _ h => h) (fun _ h => h) (by simp [Worker.lease])
      (by simp [Worker.claimed]) False.elim
  | expire htask =>
    exact hI.workerNext htask trivial (fun _ _ _ h => h.elim) (fun _ h => h) (fun _ h => h)
      (by simp [Worker.claimed]) id
  | @expireRow lease now rest k htask _ hfree =>
    rw [htask] at hx
    exact hI.workerQuiet htask trivial (visit_within _ hfree) rfl rfl rfl rfl rfl (expire_visit hx.owns)
      (fun _ h => h) (by simp [Worker.claimed]) id
  | @expired lease now rest htask _ =>
    rw [htask] at hx
    have hm : s.ledger.Moves (.expired t now) ((s.commit (.pool t)).setWorker t (.ready lease)).ledger :=
      expired_moves hx.owns
    refine ⟨hm, hI.onWorker hm .commit rfl rfl rfl ⟨owns_committed, ?_, by simp [Worker.claimed]⟩ ?_ rfl
      (by simp [Event.claimer])⟩
    · exact fun l hl => hm.leases (hx.facts.drawn l hl)
    · rw [htask]
      exact id
  | @claim w r htask hfree hr hclaimable hplan hjob _ _ =>
    rw [htask] at hx
    refine hI.workerQuiet htask trivial (hold_within hfree) rfl rfl rfl rfl rfl ?_ (fun _ h => h)
      (by simp [Worker.claimed]) id
    exact hx.owns.hold (fun _ _ _ _ h => h.elim) (fun _ h => Or.inl h)
      ⟨rfl, r, s.now, hr, hclaimable, rfl, hjob, hplan⟩
  | @claimed w htask =>
    rw [htask] at hx
    obtain ⟨r', ⟨-, r, now, hwas, hmatch, rfl, hjob, hplan⟩, hledger⟩ :=
      ledger_commit (k := w.key) hx.owns (fun k' c q hw => hw.1) rfl
    have hlease := hx.facts.drawn w.lease rfl
    have hm : s.ledger.Moves (.claimed t w.key) ((s.commit (.pool t)).setWorker t (.working w)).ledger := by
      show s.ledger.Moves _ (s.commit (.pool t)).ledger
      rw [hledger]
      exact .claim hwas hlease hmatch
    refine ⟨hm, hI.onWorker hm .commit rfl rfl rfl ⟨owns_committed, ?_, ?_⟩ False.elim rfl ?_⟩
    · exact fun l hl => hm.leases (hx.facts.drawn l hl)
    · intro w' hw' q hq _
      obtain rfl := Option.some.inj hw'
      have hrow : (s.commit (.pool t)).ledger.rows w.key = some q := hq
      rw [hledger, Ledger.setRow_self] at hrow
      obtain rfl := Option.some.inj hrow
      exact ⟨hjob.symm, hplan.symm⟩
    · intro k u hk
      simp only [Event.claimer, Option.ite_none_right_eq_some, Option.some.injEq] at hk
      rw [htask]
      exact ⟨hk.2.symm, trivial⟩
  | nothing htask _ =>
    exact hI.workerNext htask trivial (fun _ _ _ h => h) (fun _ h => h) (by simp [Worker.lease])
      (by simp [Worker.claimed]) False.elim
  | prepare htask _ =>
    exact hI.workerNext htask trivial (fun _ _ _ h => h) (fun _ h => h) (fun _ h => h) (fun _ h => h) id
  | @deliver w d c htask _ _ _ hnone =>
    rw [htask] at hx
    -- the worker first, then its connection
    obtain ⟨-, hI'⟩ := hI.workerNext (x := .publishing ⟨w, d, c⟩) (e := .quiet) htask trivial
      (fun _ _ _ h => h) (fun _ h => h) (fun _ h => h) (fun _ h => h) id
    have ho := (hI'.sendings t).owns
    have hsame : (s.setWorker t (.publishing ⟨w, d, c⟩)).sendings t = .none := hnone
    rw [hsame] at ho
    have hm : s.ledger.Moves .quiet
        ((s.setWorker t (.publishing ⟨w, d, c⟩)).setSending t (.begun ⟨w, d, c⟩)).ledger := .silent trivial
    refine ⟨hm, hI'.onSending hm (.within .refl) rfl rfl rfl ⟨ho.mono ?_ ?_, ?_, ?_, by simp [Sending.approved]⟩ ?_
      (by simp [Sending.build]) rfl fun _ => rfl⟩
    · rintro k c r ⟨x, hx, -⟩
      exact absurd hx (by simp [Sending.sent])
    · rintro k ⟨x, hx, -⟩
      exact absurd hx (by simp [Sending.sent])
    · intro x hx'
      obtain rfl := Option.some.inj hx'
      exact hx.facts.drawn w.lease rfl
    · intro x hx'
      obtain rfl := Option.some.inj hx'
      exact hx.facts.kept w rfl
    · intro hearly
      have hself : (s.setWorker t (.publishing ⟨w, d, c⟩)).workers t = .publishing ⟨w, d, c⟩ :=
        Function.update_self ..
      rw [hself] at hearly
      exact hearly.elim
  | finish htask _ =>
    exact hI.workerNext htask trivial (fun _ _ _ h => h) (fun _ h => h) (by simp [Worker.lease])
      (by simp [Worker.claimed]) False.elim
  | giveUp hwork =>
    obtain ⟨hlease, hclaimed⟩ := Worker.lease_of_work hwork
    refine hI.workerNext rfl trivial (fun _ _ _ h => Worker.bare_of_work hwork h) (fun _ h => h.elim) ?_ ?_
      False.elim
    · intro l hl
      rw [hlease]
      exact hl
    · intro w hw
      rw [hclaimed]
      exact hw
  | @failRow w f r htask hfree hr hleased =>
    rw [htask] at hx
    refine hI.workerQuiet htask trivial (hold_within hfree) rfl rfl rfl rfl rfl ?_ (fun _ h => h) (fun _ h => h) id
    exact hx.owns.hold (fun _ _ _ _ h => h.elim) (fun _ h => Or.inl h) ⟨rfl, r, s.now, hr, hleased, rfl⟩
  | failNone htask _ _ =>
    exact hI.workerNext htask trivial (fun _ _ _ h => h) (fun _ h => h) (by simp [Worker.lease])
      (by simp [Worker.claimed]) False.elim
  | @failed w f htask =>
    rw [htask] at hx
    obtain ⟨r', ⟨-, r, now, hwas, hmatch, rfl⟩, hledger⟩ :=
      ledger_commit (k := w.key) hx.owns (fun k' c q hw => hw.1) rfl
    have hm : s.ledger.Moves (.failed t w.key) ((s.commit (.pool t)).setWorker t .finished).ledger := by
      show s.ledger.Moves _ (s.commit (.pool t)).ledger
      rw [hledger]
      exact .fail hwas (hx.facts.drawn w.lease rfl) hmatch
    exact ⟨hm, hI.onWorker hm .commit rfl rfl rfl
      ⟨owns_committed, by simp [Worker.lease], by simp [Worker.claimed]⟩ False.elim rfl (by simp [Event.claimer])⟩
  | crash _ _ =>
    exact hI.workerQuiet rfl trivial abort_within rfl rfl rfl rfl rfl owns_aborted (by simp [Worker.lease])
      (by simp [Worker.claimed]) False.elim

/-! ## Dedicated connections -/

theorem Inv.sendingQuiet {x y : Sending π κ μ} (hI : Inv tools s) (htask : s.sendings t = y) (hy : y ≠ .none)
    (hwithin : Within (.dedicated t) s.bundles s'.bundles) (hdrafts : s'.drafts = s.drafts)
    (hleases : s'.leases = s.leases) (hd : s'.sendings = Function.update s.sendings t x)
    (hr : s'.requests = s.requests) (hw : s'.workers = s.workers)
    (ho : Owns (.dedicated t) (x.Writes tools) x.Target s'.bundles) (hdelivery : ∀ d ∈ x.delivery, d ∈ y.delivery)
    (happroved : ∀ d ∈ x.approved, s.drafts.Current d.work.buildId d.work.planVersion)
    (hlock : ∀ b, x.build = some b → s.Unlocked (.dedicated t) b) :
    s.ledger.Moves .quiet s'.ledger ∧ Inv tools s' := by
  have hfacts := (hI.sendings t).facts
  rw [htask] at hfacts
  have hledger : s'.ledger = s.ledger := ledger_within hwithin hdrafts hleases
  have hm : s.ledger.Moves .quiet s'.ledger := by
    rw [hledger]
    exact .silent trivial
  refine ⟨hm, hI.onSending hm (.within hwithin) hd hr hw ⟨ho, ?_⟩ ?_ hlock rfl fun _ => rfl⟩
  · rw [hledger]
    exact ⟨fun d hd => hfacts.drawn d (hdelivery d hd), fun d hd => hfacts.kept d (hdelivery d hd), happroved⟩
  · intro hearly
    exact absurd (htask.symm.trans (hI.unsent t hearly)) hy

theorem sending_refines (hI : Inv tools s) (h : SendingStep tools t s e s') :
    s.ledger.Moves e s'.ledger ∧ Inv tools s' := by
  have hx := hI.sendings t
  -- who holds the lock of the build goes on holding it
  have hheld : ∀ {y : Sending π κ μ} {b : Text}, s.sendings t = y → y.build = some b →
      s.Unlocked (.dedicated t) b := fun htask hb => hI.unlocked ((congrArg Sending.build htask).trans hb)
  cases h with
  | lock _ _ htask hfree =>
    rw [htask] at hx
    refine hI.sendingQuiet htask (by simp) .refl rfl rfl rfl rfl rfl ?_ (fun _ h => h) (by simp [Sending.approved]) ?_
    · exact hx.owns.mono (fun _ _ _ ⟨_, hd, h⟩ => ⟨_, hd, h⟩) fun _ ⟨_, hd, h⟩ => ⟨_, hd, h⟩
    · intro b hb
      obtain rfl := Option.some.inj hb
      exact hfree
  | check _ _ htask hok =>
    rw [htask] at hx
    refine hI.sendingQuiet htask (by simp) .refl rfl rfl rfl rfl rfl ?_ (fun _ h => h) ?_ fun b hb => hheld htask hb
    · exact hx.owns.mono (fun _ _ _ ⟨_, hd, h⟩ => ⟨_, hd, h⟩) fun _ ⟨_, hd, h⟩ => ⟨_, hd, h⟩
    · intro d hd
      obtain rfl := Option.some.inj hd
      exact fresh_ok hok
  | @write x r _ _ htask hfree hr hleased =>
    rw [htask] at hx
    refine hI.sendingQuiet htask (by simp) (hold_within hfree) rfl rfl rfl rfl rfl ?_ (fun _ h => h)
      (fun _ h => hx.facts.current _ h) fun b hb => hheld htask hb
    refine hx.owns.hold (fun k' c q _ ⟨_, hd, h⟩ => ⟨_, absurd hd (by simp [Sending.sent]), h⟩) ?_ ?_
    · intro k' ⟨d, hd, hk⟩
      obtain rfl := Option.some.inj hd
      exact Or.inl hk
    · exact ⟨x, rfl, rfl, r, s.now, hr, hleased, rfl⟩
  | commit _ _ htask =>
    rw [htask] at hx
    exact hI.sendingQuiet htask (by simp) .refl rfl rfl rfl rfl rfl hx.owns (fun _ h => h)
      (fun _ h => hx.facts.current _ h) fun b hb => hheld htask hb
  | @committed x _ htask =>
    rw [htask] at hx
    have hone : ∀ k' c q, (Sending.committing x).Writes tools k' c q → k' = x.work.key := by
      intro k' c q ⟨d, hd, hk, _⟩
      obtain rfl := Option.some.inj hd
      exact hk
    obtain ⟨r', ⟨d, hd, -, r, now, hwas, hleased, rfl⟩, hledger⟩ :=
      ledger_commit (k := x.work.key) hx.owns hone ⟨x, rfl, rfl⟩
    obtain rfl := Option.some.inj hd
    -- the version is the one that was claimed, and its plan the one that was found approved
    obtain ⟨hjob, hplan⟩ := hx.facts.kept x rfl r hwas hleased
    have hcurrent := hx.facts.current x rfl
    rw [← hplan] at hcurrent
    have hm : s.ledger.Moves (.published t x.work.key) ((s.commit (.dedicated t)).setSending t .done).ledger := by
      show s.ledger.Moves _ (s.commit (.dedicated t)).ledger
      rw [hledger]
      exact .publish hwas (hx.facts.drawn x rfl) hleased hjob.symm hcurrent
    refine ⟨hm, hI.onSending hm .commit rfl rfl rfl ⟨owns_committed.mono (fun _ _ _ h => h) ?_, ?_⟩ ?_
      (by simp [Sending.build]) rfl fun _ => rfl⟩
    · rintro k ⟨d, hd, -⟩
      exact absurd hd (by simp [Sending.sent])
    · exact ⟨by simp [Sending.delivery], by simp [Sending.delivery], by simp [Sending.approved]⟩
    · intro hearly
      exact absurd (htask.symm.trans (hI.unsent t hearly)) (by simp)
  | part _ =>
    have hledger : ({ (s.rollback (.dedicated t)).setSending t .none with session := none } : State π κ μ).ledger =
        s.ledger := ledger_within (x := .dedicated t) abort_within rfl rfl
    have hm : s.ledger.Moves .quiet
        ({ (s.rollback (.dedicated t)).setSending t .none with session := none } : State π κ μ).ledger := by
      rw [hledger]
      exact .silent trivial
    refine ⟨hm, hI.onSending hm (.within abort_within) rfl rfl rfl ⟨owns_aborted.mono (fun _ _ _ h => h) ?_, ?_⟩
      (fun _ => rfl) (by simp [Sending.build]) rfl fun _ => rfl⟩
    · rintro k ⟨d, hd, -⟩
      exact absurd hd (by simp [Sending.sent])
    · exact ⟨by simp [Sending.delivery], by simp [Sending.delivery], by simp [Sending.approved]⟩

/-! ## Every run -/

theorem step_refines (hI : Inv tools s) (h : FirmwareStep tools s e s') :
    s.ledger.Moves e s'.ledger ∧ Inv tools s' := by
  cases h with
  | request h => exact request_refines hI h
  | worker h => exact worker_refines hI h
  | sending h => exact sending_refines hI h
  | tick _ =>
    exact ⟨.silent trivial, ⟨hI.requests, hI.workers, hI.sendings, hI.exclusive, hI.unsent, hI.leases⟩⟩

theorem init_inv (h : (firmware tools).init s) : Inv tools s := by
  obtain ⟨hbundles, hleases, hrequests, hworkers, hsendings⟩ := h
  have hown : ∀ {x : Tx} {W : Key → Option (Bundle μ) → Bundle μ → Prop}, Owns x W (fun _ => False) s.bundles := by
    intro x W
    refine ⟨?_, fun _ hfalse => hfalse.elim⟩
    intro k r hheld
    rw [hbundles] at hheld
    exact absurd hheld (by simp [Slot.empty])
  have hbuild : ∀ x b, s.build x ≠ some b := by
    intro x b
    cases x with
    | request t => simp [State.build, hrequests, Request.build]
    | pool t => simp [State.build]
    | dedicated t => simp [State.build, hsendings, Sending.build]
  refine ⟨?_, ?_, ?_, fun x y b hx => absurd hx (hbuild x b), fun t _ => hsendings t, ?_⟩
  · intro t
    rw [hrequests]
    exact ⟨hown, trivial⟩
  · intro t
    rw [hworkers]
    exact ⟨hown, by simp [Worker.lease], by simp [Worker.claimed]⟩
  · intro t
    rw [hsendings]
    refine ⟨hown.mono (fun _ _ _ h => h) ?_, ?_⟩
    · rintro k ⟨d, hd, -⟩
      exact absurd hd (by simp [Sending.sent])
    · exact ⟨by simp [Sending.delivery], by simp [Sending.delivery], by simp [Sending.approved]⟩
  · intro t u lease ht
    rw [hleases] at ht
    exact absurd ht (by simp)

variable {es : List Event}

theorem run_inv (h : (firmware tools).Run es s) : Inv tools s :=
  h.invariant (I := fun _ s => Inv tools s) (fun _ => init_inv) fun _ _ _ _ hI hstep _ => (step_refines hI hstep).2

theorem run_ledger (h : (firmware tools).Run es s) : Ledger.machine.Run es s.ledger := by
  induction h with
  | init hinit =>
    refine .init ⟨fun k => ?_, hinit.2.1⟩
    show (State.version _ k) = none
    rw [State.version, hinit.1]
    rfl
  | step hrun hstep _ ih => exact .step ih (step_refines (run_inv hrun) hstep).1 trivial

theorem steps_ledger (hI : Inv tools s) (h : (firmware tools).Steps s es s') :
    Ledger.machine.Steps s.ledger es s'.ledger := by
  induction h with
  | refl s => exact .refl s.ledger
  | step hone _ ih =>
    obtain ⟨hm, hI'⟩ := step_refines hI hone
    exact .step hm (ih hI')

end

end Albusforge.Codegen
