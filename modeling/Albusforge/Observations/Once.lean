import Mathlib
import Albusforge.Observations.Accounts

/-!
# Receipts are accounted once

No two tasks ever have one lease (`Leases`), and a receipt that is not reserved under a lease will never
be reserved under it again (`Lost`). So a receipt is stored by the one task that holds its lease, and
`observation_usage` counts each receipt that was ever stored, once and on its day (`Ledger`).
-/

namespace Albusforge.Observations

open Lib Lib.Json Cloudlink

/-! ## Leases -/

structure Held where
  device : Text
  observation : Text
  lease : ℕ

def Attempt.held (a : Attempt) : Held := ⟨a.device, a.observation, a.lease⟩

def Claim.held (c : Claim) : Held := ⟨c.device, c.observation, c.lease⟩

def Task.held : Task → Option Held
  | .creating a => some a.held
  | .existing a => some a.held
  | .holding a _ => some a.held
  | .claimed c => some c.held
  | .headed c _ => some c.held
  | _ => none

section

variable {tokenHash : Text → Text} {digest : List UInt8 → Text}
  {validateJpeg : List UInt8 → ℕ → ℕ → Option (ℕ × ℕ)} {limits : Limits} {options : UploadOptions}
  {s s' : Service} {e : Event} {free : Text → Prop} {id : Text}

/-- **A step gives a lease that was never given, or none.** -/
theorem step_held (h : ServiceStep tokenHash digest validateJpeg limits options s e s') :
    s.nextLease ≤ s'.nextLease ∧ (s'.tasks = s.tasks ∨ ∃ i t, e.task = some i ∧
      s'.tasks = Function.update s.tasks i t ∧ ∀ x, t.held = some x →
        (s.tasks i).held = some x ∨ x.lease = s.nextLease ∧ s.nextLease < s'.nextLease) := by
  cases h with
  | provision _ _ => exact ⟨le_rfl, Or.inl rfl⟩
  | change _ => exact ⟨le_rfl, Or.inl rfl⟩
  | delete _ => exact ⟨le_rfl, Or.inl rfl⟩
  | admitRefused _ _ _ => exact ⟨le_rfl, Or.inl rfl⟩
  | admitUnknown _ _ => exact ⟨le_rfl, Or.inl rfl⟩
  | reserve hready _ =>
      refine ⟨Nat.le_succ _, Or.inr ⟨_, _, rfl, rfl, ?_⟩⟩
      intro x hx
      obtain rfl := Option.some.inj hx
      exact Or.inr ⟨hready.lease, Nat.lt_succ_self _⟩
  | create htask _ =>
      refine ⟨le_rfl, Or.inr ⟨_, _, rfl, rfl, fun x hx => Or.inl ?_⟩⟩
      rwa [htask]
  | createRefused htask _ =>
      refine ⟨le_rfl, Or.inr ⟨_, _, rfl, rfl, fun x hx => Or.inl ?_⟩⟩
      rwa [htask]
  | head htask _ _ =>
      refine ⟨le_rfl, Or.inr ⟨_, _, rfl, rfl, fun x hx => Or.inl ?_⟩⟩
      rwa [htask]
  | headClaimed htask =>
      refine ⟨le_rfl, Or.inr ⟨_, _, rfl, rfl, fun x hx => Or.inl ?_⟩⟩
      rwa [htask]
  | @claim i _ _ _ _ swept _ _ hclaim =>
      refine ⟨Nat.le_succ _, Or.inr ⟨i, _, rfl, rfl, ?_⟩⟩
      intro x hx
      cases claim_cases hclaim with
      | left => exact absurd hx (by simp [leave, Task.held])
      | expired _ _ => exact absurd hx (by simp [sweepAway, Task.held])
      | claimed _ _ _ _ =>
          obtain rfl := Option.some.inj hx
          exact Or.inr ⟨rfl, Nat.lt_succ_self _⟩
  | @resolve i key _ =>
      refine ⟨le_rfl, Or.inr ⟨i, _, rfl, rfl, ?_⟩⟩
      intro x hx
      cases hobject : s.objects key with
      | none => exact absurd hx (by simp [hobject, Task.held])
      | some o => exact absurd hx (by simp [hobject, Task.held])
  -- the others leave the task without a lease
  | _ => exact ⟨le_rfl, Or.inr ⟨_, _, rfl, rfl, fun x hx => absurd hx (by simp [Task.held])⟩⟩

structure Leases (s : Service) : Prop where
  given : ∀ i x, (s.tasks i).held = some x → x.lease < s.nextLease
  one : ∀ i j x y, (s.tasks i).held = some x → (s.tasks j).held = some y → x.lease = y.lease → i = j

theorem step_leases (hs : Leases s) (h : ServiceStep tokenHash digest validateJpeg limits options s e s') :
    Leases s' := by
  obtain ⟨hnext, hsame | ⟨i, t, -, htasks, hlease⟩⟩ := step_held h
  · refine ⟨?_, ?_⟩
    · rw [hsame]
      intro j x hx
      exact Nat.lt_of_lt_of_le (hs.given j x hx) hnext
    · rw [hsame]
      exact hs.one
  · -- what another task has is less than what the task is given
    have hother : ∀ x, t.held = some x → ∀ j, j ≠ i → ∀ y, (s.tasks j).held = some y →
        x.lease ≠ y.lease := by
      intro x hx j hj y hy heq
      rcases hlease x hx with hold | ⟨hfresh, -⟩
      · exact hj (hs.one j i y x hy hold heq.symm)
      · exact absurd (hs.given j y hy) (by omega)
    refine ⟨?_, ?_⟩
    · intro j x hx
      rw [htasks] at hx
      by_cases hj : j = i
      · subst hj
        rw [Function.update_self] at hx
        rcases hlease x hx with hold | ⟨hfresh, hless⟩
        · exact Nat.lt_of_lt_of_le (hs.given j x hold) hnext
        · omega
      · rw [Function.update_of_ne hj] at hx
        exact Nat.lt_of_lt_of_le (hs.given j x hx) hnext
    · intro j k x y hx hy heq
      rw [htasks] at hx hy
      by_cases hj : j = i
      · by_cases hk : k = i
        · rw [hj, hk]
        · rw [hj, Function.update_self] at hx
          rw [Function.update_of_ne hk] at hy
          exact absurd heq (hother x hx k hk y hy)
      · by_cases hk : k = i
        · rw [hk, Function.update_self] at hy
          rw [Function.update_of_ne hj] at hx
          exact absurd heq.symm (hother y hy j hj x hx)
        · rw [Function.update_of_ne hj] at hx
          rw [Function.update_of_ne hk] at hy
          exact hs.one j k x y hx hy heq

theorem leases_run {es : List Event}
    (hrun : (service tokenHash digest validateJpeg limits options).Run es s) : Leases s := by
  refine hrun.invariant (I := fun _ s => Leases s) ?_ ?_
  · intro s hinit
    have hnone : ∀ i, (s.tasks i).held = none := fun i => by rw [hinit.2.2.1 i]; rfl
    exact ⟨fun i x hx => absurd ((hnone i).symm.trans hx) (by simp),
      fun i j x y hx => absurd ((hnone i).symm.trans hx) (by simp)⟩
  · intro es s e s' hs hone _
    exact step_leases hs hone

/-! ## A lease that was taken over -/

def Lost (s : Service) (x : Held) : Prop :=
  ∀ d r l, s.devices x.device = .alive d → d.receipts.find x.observation = some r →
    r.state = .reserved l → l.leaseId ≠ x.lease

theorem step_lost (hinj : Function.Injective tokenHash) (hall : AllDescribed tokenHash s) {x : Held}
    (hx : x.lease < s.nextLease) (hlost : Lost s x)
    (h : ServiceStep tokenHash digest validateJpeg limits options s e s') : Lost s' x := by
  intro d' r' l hd' hr' hl
  have hmoves := step_moves x.device hinj hall h
  rw [hd'] at hmoves
  generalize hslot : s.devices x.device = slot at hmoves
  generalize e.acceptanceAt x.device = y at hmoves
  cases hmoves with
  | same => exact hlost d' r' l hslot hr' hl
  | provision hnew => exact absurd ((hnew.find _).symm.trans hr') (by simp)
  | @change d _ _ hchange =>
      rcases hchange.found hr' with hsame | ⟨-, -, -, l', hl', hfresh⟩ | ⟨r, -, hgoes⟩
      · exact hlost d r' l hslot hsame hl
      · rw [hl'] at hl
        obtain rfl := ReceiptState.reserved.inj hl
        omega
      · have hfresh := hgoes.lease hl
        omega

theorem steps_lost (hinj : Function.Injective tokenHash) {es es' : List Event} {x : Held}
    (hrun : (service tokenHash digest validateJpeg limits options).Run es s)
    (hsteps : (service tokenHash digest validateJpeg limits options).Steps s es' s')
    (hx : x.lease < s.nextLease) (hlost : Lost s x) : Lost s' x := by
  induction hsteps generalizing es with
  | refl => exact hlost
  | step hone _ ih =>
      have hnext := step_lost hinj (described_run hinj hrun) hx hlost hone
      exact ih (.step hrun hone trivial) (Nat.lt_of_lt_of_le hx (step_held hone).1) hnext

theorem lost_devices {i : ℕ} {x : Held} (hheld : (s.tasks i).held = some x) (hlost : Lost s x)
    (h : ServiceStep tokenHash digest validateJpeg limits options s e s') (he : e.task = some i) :
    s'.devices = s.devices := by
  cases h with
  | provision _ _ => exact absurd he (by simp)
  | change _ => exact absurd he (by simp)
  | delete _ => exact absurd he (by simp)
  | onRequest htask _ _ =>
      obtain rfl := Option.some.inj he
      rw [htask] at hheld
      exact absurd hheld (by simp [Task.held])
  | admitRefused htask _ _ =>
      obtain rfl := Option.some.inj he
      rw [htask] at hheld
      exact absurd hheld (by simp [Task.held])
  | reserve hready _ =>
      obtain rfl := Option.some.inj he
      rw [hready.admitted] at hheld
      exact absurd hheld (by simp [Task.held])
  | claim htask _ _ =>
      obtain rfl := Option.some.inj he
      rw [htask] at hheld
      exact absurd hheld (by simp [Task.held])
  | finalize htask hfinalize =>
      obtain rfl := Option.some.inj he
      rw [htask] at hheld
      obtain rfl := Option.some.inj hheld
      obtain ⟨d, hd, hfinal⟩ := finalizeSlot_alive hfinalize
      obtain ⟨r, l, hr⟩ := finalize_ok hfinal
      exact absurd hr.holder (hlost d r l hd hr.found hr.state)
  | settle htask hd hsettle =>
      obtain rfl := Option.some.inj he
      rw [htask] at hheld
      obtain rfl := Option.some.inj hheld
      rw [settle_lost fun r l => hlost _ r l hd] at hsettle
      subst hsettle
      exact Function.update_eq_self_iff.mpr hd.symm
  | _ => rfl

theorem step_accepts {x : Acceptance}
    (h : ServiceStep tokenHash digest validateJpeg limits options s e s')
    (hx : e.shown.acceptance = some x) :
    ∃ i d r l, e.task = some i ∧ (s.tasks i).held = some ⟨x.device, x.observation, x.lease⟩ ∧
      s.devices x.device = .alive d ∧ d.receipts.find x.observation = some r ∧
      r.state = .reserved l ∧ l.leaseId = x.lease ∧ x.time < l.leaseUntil := by
  cases h with
  | @finalize i a _ _ _ _ htask hfinalize =>
      obtain rfl := Option.some.inj hx
      obtain ⟨d, hd, hfinal⟩ := finalizeSlot_alive hfinalize
      obtain ⟨r, l, hr⟩ := finalize_ok hfinal
      refine ⟨i, d, r, l, rfl, ?_, hd, hr.found, hr.state, hr.holder, hr.unexpired⟩
      rw [htask]
      rfl
  | @settle i c object time d swept htask hd hsettle =>
      have hsettles := settle_cases hsettle
      generalize hvalue : swept.value = value at hx
      cases hsettles with
      | left => exact absurd (hvalue ▸ hx) (by simp [leave, Shown.acceptance])
      | expired _ _ => exact absurd (hvalue ▸ hx) (by simp [sweepAway, Shown.acceptance])
      | failed _ _ _ => exact absurd (hvalue ▸ hx) (by simp [Shown.acceptance])
      | stored hr _ hstate hlease htime _ _ _ _ _ =>
          subst hvalue
          obtain rfl := Option.some.inj hx
          refine ⟨i, d, _, _, rfl, ?_, hd, hr, hstate, hlease, htime⟩
          rw [htask]
          rfl
  | _ => exact absurd hx (by simp [Shown.acceptance])

/-! ## The ledger -/

theorem Change.stores {fresh : ℕ} {d d' : Device} {x : Option Acceptance} {o : Text} {r' : Receipt} {t : ℤ}
    (h : Change tokenHash limits free id fresh d x d') (hr : d'.receipts.find o = some r')
    (hstate : r'.state = .stored t) :
    d.receipts.find o = some r' ∨ ∃ y, x = some y ∧ y.observation = o := by
  rcases h.found hr with hsame | ⟨-, -, -, l, hl, -⟩ | ⟨r, hfound, hgoes⟩
  · exact Or.inl hsame
  · exact absurd (hl.symm.trans hstate) (by simp)
  · cases hgoes with
    | renew _ => exact absurd hstate (by simp)
    | store _ =>
        have hkey : r.observationId = o := Table.find_key hfound
        exact Or.inr ⟨_, rfl, hkey⟩
    | expire => exact absurd hstate (by simp [Observations.expire])
    | fail _ => exact absurd hstate (by simp)

theorem step_enters (hinj : Function.Injective tokenHash) (hall : AllDescribed tokenHash s) {d' : Device}
    {o : Text} {r : Receipt} {t : ℤ}
    (h : ServiceStep tokenHash digest validateJpeg limits options s e s') (hd' : s'.devices id = .alive d')
    (hr : d'.receipts.find o = some r) (hstate : r.state = .stored t) :
    (∃ d, s.devices id = .alive d ∧ d.receipts.find o = some r) ∨
      ∃ x, e.acceptanceAt id = some x ∧ x.observation = o := by
  have hmoves := step_moves id hinj hall h
  rw [hd'] at hmoves
  generalize hslot : s.devices id = slot at hmoves ⊢
  generalize e.acceptanceAt id = x at hmoves ⊢
  cases hmoves with
  | same => exact Or.inl ⟨d', rfl, hr⟩
  | provision hnew => exact absurd ((hnew.find o).symm.trans hr) (by simp)
  | @change d _ _ hchange =>
      rcases hchange.stores hr hstate with hold | hnew
      · exact Or.inl ⟨d, rfl, hold⟩
      · exact Or.inr hnew

theorem Change.received {fresh : ℕ} {d d' : Device} {x : Option Acceptance} {o : Text} {r' : Receipt} {t : ℤ}
    (h : Change tokenHash limits free id fresh d x d') (hr : d'.receipts.find o = some r')
    (hreceived : r'.receivedAt = some t) :
    (∃ r, d.receipts.find o = some r ∧ r.receivedAt = some t) ∨ ∃ y, x = some y ∧ y.observation = o := by
  rcases h.found hr with hsame | ⟨-, -, -, l, hl, -⟩ | ⟨r, hfound, hgoes⟩
  · exact Or.inl ⟨r', hsame, hreceived⟩
  · exact absurd hreceived (by simp [Receipt.receivedAt, hl])
  · cases hgoes with
    | renew _ => exact absurd hreceived (by simp [Receipt.receivedAt])
    | store _ =>
        have hkey : r.observationId = o := Table.find_key hfound
        exact Or.inr ⟨_, rfl, hkey⟩
    | expire => exact Or.inl ⟨r, hfound, hreceived⟩
    | fail _ => exact absurd hreceived (by simp [Receipt.receivedAt])

/-- `observation_usage` and the receipts tell what was accepted. -/
structure Ledger (xs : List Acceptance) (d : Device) : Prop where
  stored : ∀ x ∈ xs, ∃ r, d.receipts.find x.observation = some r ∧ r.receivedAt = some x.time ∧
    r.reservedDay = x.day ∧ r.bytes = x.bytes
  known : ∀ o r t, d.receipts.find o = some r → r.receivedAt = some t → ∃ x ∈ xs, x.observation = o
  count : ∀ day, acceptedCount (d.usage day) = (xs.filter fun x => x.day = day).length
  bytes : ∀ day, acceptedBytes (d.usage day) =
    ((xs.filter fun x => x.day = day).map Acceptance.bytes).sum

theorem Change.still {fresh : ℕ} {d d' : Device} {y : Option Acceptance} {xs : List Acceptance}
    (h : Change tokenHash limits free id fresh d y d') (hd : Ledger xs d) : ∀ x ∈ xs, ∃ r,
    d'.receipts.find x.observation = some r ∧ r.receivedAt = some x.time ∧ r.reservedDay = x.day ∧
      r.bytes = x.bytes := by
  intro x hx
  obtain ⟨r, hr, hreceived, hday, hbytes⟩ := hd.stored x hx
  obtain ⟨r', hr', hfollows⟩ := h.follows hr
  obtain ⟨hreceived', hday'⟩ := hfollows.received _ hreceived
  exact ⟨r', hr', hreceived', hday'.trans hday, hfollows.bytes.trans hbytes⟩

theorem Change.ledger {fresh : ℕ} {d d' : Device} {y : Option Acceptance} {xs : List Acceptance}
    (h : Change tokenHash limits free id fresh d y d') (hd : Ledger xs d) : Ledger (xs ++ y.toList) d' := by
  have hstill := h.still hd
  have hknown : ∀ o r t, d'.receipts.find o = some r → r.receivedAt = some t →
      ∃ x ∈ xs ++ y.toList, x.observation = o := by
    intro o r t hr hreceived
    rcases h.received hr hreceived with ⟨r₀, hr₀, hreceived₀⟩ | ⟨x, hx, ho⟩
    · obtain ⟨x, hx, ho⟩ := hd.known o r₀ t hr₀ hreceived₀
      exact ⟨x, List.mem_append_left _ hx, ho⟩
    · exact ⟨x, List.mem_append_right _ (by simp [hx]), ho⟩
  cases h with
  | @store r lease generation received capability captured hr hstate _ =>
      refine ⟨?_, hknown, ?_, ?_⟩
      · intro x hx
        rcases List.mem_append.mp hx with hold | hnew
        · exact hstill x hold
        · obtain rfl := List.mem_singleton.mp hnew
          exact ⟨_, Table.find_put_self, rfl, rfl, rfl⟩
      · intro day
        by_cases hday : r.reservedDay = day
        · subst hday
          simp [Device.store, addUsage, acceptedCount, ← hd.count]
        · simp [Device.store, hday, Function.update_of_ne (Ne.symm hday), hd.count]
      · intro day
        by_cases hday : r.reservedDay = day
        · subst hday
          simp [Device.store, addUsage, acceptedBytes, ← hd.bytes]
        · simp [Device.store, hday, Function.update_of_ne (Ne.symm hday), hd.bytes]
  | other _ _ husage =>
      rw [Option.toList_none, List.append_nil] at hknown ⊢
      exact ⟨hstill, hknown, husage ▸ hd.count, husage ▸ hd.bytes⟩
  | create _ _ _ _ _ =>
      rw [Option.toList_none, List.append_nil] at hknown ⊢
      exact ⟨hstill, hknown, hd.count, hd.bytes⟩
  | renew _ _ _ =>
      rw [Option.toList_none, List.append_nil] at hknown ⊢
      exact ⟨hstill, hknown, hd.count, hd.bytes⟩
  | expire _ =>
      rw [Option.toList_none, List.append_nil] at hknown ⊢
      exact ⟨hstill, hknown, hd.count, hd.bytes⟩
  | fail _ _ =>
      rw [Option.toList_none, List.append_nil] at hknown ⊢
      exact ⟨hstill, hknown, hd.count, hd.bytes⟩

/-- What was accepted of an identifier: each observation once, and nothing before it is a device. -/
structure Books (xs : List Acceptance) (slot : Slot) : Prop where
  once : (xs.map Acceptance.observation).Nodup
  unborn : slot = .unborn → xs = []
  alive : ∀ d, slot = .alive d → Ledger xs d

theorem Moves.books {fresh : ℕ} {slot slot' : Slot} {x : Option Acceptance} {xs : List Acceptance}
    (h : Moves tokenHash limits free id fresh slot x slot') (hbooks : Books xs slot) :
    Books (xs ++ x.toList) slot' := by
  cases h with
  | same => simpa using hbooks
  | @change d d' _ hchange =>
      refine ⟨?_, fun h => absurd h (by simp), ?_⟩
      · have hledger := hbooks.alive d rfl
        cases hchange with
        | @store r lease _ _ _ _ hr hstate _ =>
            rw [Option.toList_some, List.map_append, List.map_singleton, List.nodup_append]
            refine ⟨hbooks.once, by simp, ?_⟩
            intro o ho o' ho' heq
            obtain ⟨x, hx, rfl⟩ := List.mem_map.mp ho
            rw [List.mem_singleton.mp ho'] at heq
            obtain ⟨r', hr', hreceived, -⟩ := hledger.stored x hx
            -- what is reserved was not received
            rw [heq, hr] at hr'
            obtain rfl := Option.some.inj hr'
            exact absurd hreceived (by simp [Receipt.receivedAt, hstate])
        | other _ _ _ => simpa using hbooks.once
        | create _ _ _ _ _ => simpa using hbooks.once
        | renew _ _ _ => simpa using hbooks.once
        | expire _ => simpa using hbooks.once
        | fail _ _ => simpa using hbooks.once
      · intro d₁ hd₁
        obtain rfl := Slot.alive.inj hd₁
        exact hchange.ledger (hbooks.alive d rfl)
  | @provision d hnew =>
      obtain rfl := hbooks.unborn rfl
      refine ⟨by simp, fun h => absurd h (by simp), ?_⟩
      intro d₁ hd₁
      obtain rfl := Slot.alive.inj hd₁
      refine ⟨fun _ hx => absurd hx (by simp), ?_, ?_, ?_⟩
      · intro o r t hr
        exact absurd ((hnew.find o).symm.trans hr) (by simp)
      · intro day
        simp [hnew.usage day, acceptedCount]
      · intro day
        simp [hnew.usage day, acceptedBytes]
  | delete =>
      refine ⟨by simpa using hbooks.once, fun h => absurd h (by simp), ?_⟩
      intro d hd
      exact absurd hd (by simp)

variable (id) in
theorem books_run (hinj : Function.Injective tokenHash) {es : List Event}
    (hrun : (service tokenHash digest validateJpeg limits options).Run es s) :
    Books (es.filterMap (Event.acceptanceAt id)) (s.devices id) := by
  refine device_run id hinj (P := Books) ?_ ?_ hrun
  · exact ⟨List.nodup_nil, fun _ => rfl, fun d hd => absurd hd (by simp)⟩
  · intro xs free fresh slot x slot' hbooks hmoves
    exact hmoves.books hbooks

/-! ## Acknowledgements -/

def Shown.answer : Shown → Option (Upload × Ack)
  | .acknowledged q x => some (q, x)
  | .accepted q x _ => some (q, x)
  | _ => none

structure Tells (tokenHash : Text → Text) (q : Upload) (x : Ack) (r : Receipt) (t : ℤ) : Prop where
  fingerprint : ∃ a : Attempt, a.upload = q ∧ r.fingerprint = a.fingerprint tokenHash
  received : r.receivedAt = some t
  ack : x = ack q.metadata r t

def Acknowledged (tokenHash : Text → Text) (q : Upload) (x : Ack) (slot : Slot) : Prop :=
  slot ≠ .unborn ∧ ∀ d, slot = .alive d →
    ∃ r t, d.receipts.find (uuidOf q.metadata.observationId) = some r ∧ Tells tokenHash q x r t

theorem Tells.follows {q : Upload} {x : Ack} {r r' : Receipt} {t : ℤ} (h : Tells tokenHash q x r t)
    (hr : Follows r r') : Tells tokenHash q x r' t := by
  obtain ⟨a, ha, hfingerprint⟩ := h.fingerprint
  refine ⟨⟨a, ha, hr.fingerprint.trans hfingerprint⟩, (hr.received t h.received).1, ?_⟩
  rw [h.ack, Observations.ack, Observations.ack, hr.sha256, hr.bytes]

theorem Moves.acknowledged {fresh : ℕ} {slot slot' : Slot} {y : Option Acceptance} {q : Upload} {x : Ack}
    (h : Moves tokenHash limits free id fresh slot y slot') (hx : Acknowledged tokenHash q x slot) :
    Acknowledged tokenHash q x slot' := by
  obtain ⟨hborn, halive⟩ := hx
  cases h with
  | same => exact ⟨hborn, halive⟩
  | change hchange =>
      refine ⟨by simp, ?_⟩
      intro d' hd'
      obtain rfl := Slot.alive.inj hd'
      obtain ⟨r, t, hr, htells⟩ := halive _ rfl
      obtain ⟨r', hr', hfollows⟩ := hchange.follows hr
      exact ⟨r', t, hr', htells.follows hfollows⟩
  | provision _ => exact absurd rfl hborn
  | delete => exact ⟨by simp, fun d hd => absurd hd (by simp)⟩

theorem step_answer {q : Upload} {x : Ack}
    (h : ServiceStep tokenHash digest validateJpeg limits options s e s')
    (hx : e.shown.answer = some (q, x)) :
    Acknowledged tokenHash q x (s'.devices (uuidOf q.metadata.deviceId)) := by
  cases h with
  | @reserveAcknowledged i a admitted _ _ hreserve =>
      obtain ⟨rfl, rfl⟩ := Prod.mk.inj (Option.some.inj hx)
      obtain ⟨d, hd, hack⟩ := reserveSlot_alive hreserve
      obtain ⟨-, r, t, hr, hfingerprint, -, hstate, hx⟩ := reserve_acknowledged.mp hack
      have hd' : s.devices (uuidOf a.upload.metadata.deviceId) = .alive d := hd
      rw [Service.setTask_devices, hd']
      refine ⟨by simp, ?_⟩
      intro d₁ hd₁
      obtain rfl := Slot.alive.inj hd₁
      exact ⟨r, t, hr, ⟨a, rfl, hfingerprint⟩, by rw [Receipt.receivedAt, hstate], hx⟩
  | @finalize i a object received _ _ _ hfinalize =>
      obtain ⟨rfl, rfl⟩ := Prod.mk.inj (Option.some.inj hx)
      obtain ⟨d, hd, hfinal⟩ := finalizeSlot_alive hfinalize
      obtain ⟨r, l, hr⟩ := finalize_ok hfinal
      have hkey : r.observationId = uuidOf a.upload.metadata.observationId := Table.find_key hr.found
      obtain rfl := hr.eq
      rw [Service.setTask_devices]
      refine ⟨by simp [Attempt.device], ?_⟩
      intro d₁ hd₁
      obtain rfl := Slot.alive.inj (Service.setDevice_self.symm.trans hd₁)
      exact ⟨_, received, Table.find_put_key hkey, ⟨a, rfl, hr.fingerprint⟩, rfl, hr.ack⟩
  | @settle _ _ _ _ _ swept _ _ _ =>
      cases hvalue : swept.value with
      | none => exact absurd hx (by simp [hvalue, Shown.answer])
      | some bytes => exact absurd hx (by simp [hvalue, Shown.answer])
  | _ => exact absurd hx (by simp [Shown.answer])

theorem acknowledged_run (hinj : Function.Injective tokenHash) {es : List Event}
    (hrun : (service tokenHash digest validateJpeg limits options).Run es s) :
    ∀ e ∈ es, ∀ q x, e.shown.answer = some (q, x) →
      Acknowledged tokenHash q x (s.devices (uuidOf q.metadata.deviceId)) := by
  induction hrun with
  | init _ => exact fun e he => absurd he (by simp)
  | step hbefore hone _ ih =>
      intro e he q x hx
      rcases List.mem_append.mp he with hold | hnew
      · exact (step_moves _ hinj (described_run hinj hbefore) hone).acknowledged (ih e hold q x hx)
      · obtain rfl := List.mem_singleton.mp hnew
        exact step_answer hone hx

theorem retry_acknowledged (hinj : Function.Injective tokenHash) {es : List Event}
    (hrun : (service tokenHash digest validateJpeg limits options).Run es s) {i : ℕ} {a : Attempt}
    {admitted t : ℤ} {d : Device} {r : Receipt} (hready : s.Ready digest validateJpeg i a)
    (hd : s.devices a.device = .alive d) (hcurrent : current a d = .ok ())
    (hr : d.receipts.find a.observation = some r) (hfingerprint : r.fingerprint = a.fingerprint tokenHash)
    (hstate : r.state = .stored t) (hfresh : admitted < r.expiresAt) :
    reserveSlot tokenHash digest limits options a admitted (s.intents a.key).isSome (s.devices a.device) =
        .ok (.acknowledged (ack a.upload.metadata r t)) ∧
      ServiceStep tokenHash digest validateJpeg limits options s
        ⟨some i, .acknowledged a.upload (ack a.upload.metadata r t)⟩ (s.setTask i .idle) ∧
      ∀ e ∈ es, ∀ q x, e.shown.answer = some (q, x) → uuidOf q.metadata.deviceId = a.device →
        uuidOf q.metadata.observationId = a.observation → x = ack a.upload.metadata r t := by
  have hreserve : reserveSlot tokenHash digest limits options a admitted (s.intents a.key).isSome
      (s.devices a.device) = .ok (.acknowledged (ack a.upload.metadata r t)) := by
    rw [hd]
    exact reserve_acknowledged.mpr ⟨hcurrent, r, t, hr, hfingerprint, hfresh, hstate, rfl⟩
  refine ⟨hreserve, .reserveAcknowledged hready hreserve, ?_⟩
  intro e he q x hx hdevice hobservation
  obtain ⟨-, halive⟩ := acknowledged_run hinj hrun e he q x hx
  rw [hdevice] at halive
  obtain ⟨r', t', hr', htells⟩ := halive d hd
  rw [hobservation, hr] at hr'
  obtain rfl := Option.some.inj hr'
  have hreceived : r.receivedAt = some t := by rw [Receipt.receivedAt, hstate]
  obtain rfl := Option.some.inj (hreceived.symm.trans htells.received)
  -- one fingerprint is one upload
  obtain ⟨a', rfl, hfingerprint'⟩ := htells.fingerprint
  have hsame := hinj (hfingerprint'.symm.trans hfingerprint)
  obtain ⟨hmetadata, -⟩ := fingerprinted_inj (Lib.Json.stringify_injective hsame)
  rw [htells.ack, hmetadata]

/-! ## Together -/

structure AccountedOnce (tokenHash : Text → Text) (digest : List UInt8 → Text)
    (validateJpeg : List UInt8 → ℕ → ℕ → Option (ℕ × ℕ)) (limits : Limits) (options : UploadOptions)
    (es : List Event) (s : Service) : Prop where
  once : ∀ id, ((es.filterMap (Event.acceptanceAt id)).map Acceptance.observation).Nodup
  enters : ∀ e s' id d' o r t, ServiceStep tokenHash digest validateJpeg limits options s e s' →
    s'.devices id = .alive d' → d'.receipts.find o = some r → r.state = .stored t →
    (∃ d, s.devices id = .alive d ∧ d.receipts.find o = some r) ∨
      ∃ x, e.acceptanceAt id = some x ∧ x.observation = o
  holder : ∀ e s' x, ServiceStep tokenHash digest validateJpeg limits options s e s' →
    e.shown.acceptance = some x → ∃ i d r l, e.task = some i ∧
      (s.tasks i).held = some ⟨x.device, x.observation, x.lease⟩ ∧
      (∀ j y, (s.tasks j).held = some y → y.lease = x.lease → j = i) ∧
      s.devices x.device = .alive d ∧ d.receipts.find x.observation = some r ∧
      r.state = .reserved l ∧ l.leaseId = x.lease ∧ x.time < l.leaseUntil
  lost : ∀ i x, (s.tasks i).held = some x → Lost s x → ∀ es' s₁ j e s₂,
    (service tokenHash digest validateJpeg limits options).Steps s es' s₁ → (s₁.tasks j).held = some x →
    ServiceStep tokenHash digest validateJpeg limits options s₁ e s₂ → e.task = some j →
    s₂.devices = s₁.devices
  books : ∀ id d, s.devices id = .alive d → Ledger (es.filterMap (Event.acceptanceAt id)) d
  retry : ∀ i a d r t admitted, s.Ready digest validateJpeg i a → s.devices a.device = .alive d →
    current a d = .ok () → d.receipts.find a.observation = some r →
    r.fingerprint = a.fingerprint tokenHash → r.state = .stored t → admitted < r.expiresAt →
    reserveSlot tokenHash digest limits options a admitted (s.intents a.key).isSome (s.devices a.device) =
        .ok (.acknowledged (ack a.upload.metadata r t)) ∧
      ServiceStep tokenHash digest validateJpeg limits options s
        ⟨some i, .acknowledged a.upload (ack a.upload.metadata r t)⟩ (s.setTask i .idle) ∧
      ∀ e ∈ es, ∀ q x, e.shown.answer = some (q, x) → uuidOf q.metadata.deviceId = a.device →
        uuidOf q.metadata.observationId = a.observation → x = ack a.upload.metadata r t

/-- **Receipts are accounted exactly once**, whatever uploads and sweeps do in between. -/
theorem accounted_once (hinj : Function.Injective tokenHash) {es : List Event}
    (hrun : (service tokenHash digest validateJpeg limits options).Run es s) :
    AccountedOnce tokenHash digest validateJpeg limits options es s where
  once := fun id => (books_run id hinj hrun).once
  enters := fun _ _ _ _ _ _ _ hone => step_enters hinj (described_run hinj hrun) hone
  holder := by
    intro e s' x hone hx
    obtain ⟨i, d, r, l, he, hheld, hfound⟩ := step_accepts hone hx
    refine ⟨i, d, r, l, he, hheld, ?_, hfound⟩
    intro j y hy hlease
    exact (leases_run hrun).one j i y _ hy hheld hlease
  lost := by
    intro i x hheld hlost es' s₁ j e s₂ hsteps hheld₁ hone he
    have hlost₁ := steps_lost hinj hrun hsteps ((leases_run hrun).given i x hheld) hlost
    exact lost_devices hheld₁ hlost₁ hone he
  books := fun id d hd => (books_run id hinj hrun).alive d hd
  retry := by
    intro i a d r t admitted hready hd hcurrent hr hfingerprint hstate hfresh
    exact retry_acknowledged hinj hrun hready hd hcurrent hr hfingerprint hstate hfresh

end

/-! ## A run -/

namespace Bench

def object : StoredObject := attempt.object id digest 0

def stored : Device := reserved.store receipt 0 61000 1 (js "camera") 60000

def s₄ : Service := (s₃.newObject attempt.key object).setTask 0 (.holding attempt object)

def s₅ : Service := (s₄.setDevice name (.alive stored)).setTask 0 .idle

def acceptance : Acceptance := ⟨name, attempt.observation, 0, 1, 0, 61000⟩

def accepted : Event := ⟨some 0, .accepted upload ⟨metadata.observationId, [7], 1, 61000⟩ acceptance⟩

theorem stored_run : bench.Run
    [⟨none, .quiet⟩, ⟨some 0, .quiet⟩, ⟨some 0, .quiet⟩, ⟨some 0, .quiet⟩, accepted] s₅ := by
  have hcreate : bench.step s₃ ⟨some 0, .quiet⟩ s₄ := .create Service.setTask_self rfl
  have hfind : reserved.receipts.find attempt.observation = some receipt := Table.find_put_key rfl
  have hcurrent : current attempt reserved = .ok () := by rfl
  have hfinalize : finalize id attempt object 61000 reserved =
      .ok (⟨metadata.observationId, [7], 1, 61000⟩, stored) := by
    have hlease : ¬ (receipt.fingerprint ≠ attempt.fingerprint id ∨ (0 : ℕ) ≠ attempt.lease ∨
        (60000 + 30000 : ℤ) ≤ 61000) := by
      intro h
      rcases h with h | h | h
      · exact h rfl
      · exact h rfl
      · omega
    rw [finalize, hcurrent, hfind]
    exact (if_neg hlease).trans rfl
  have hslot : s₄.devices name = .alive reserved := by simp [s₄, s₃, Service.newObject]
  have hstored : finalizeSlot id attempt object 61000 (s₄.devices name) =
      .ok (⟨metadata.observationId, [7], 1, 61000⟩, stored) := (congrArg _ hslot).trans hfinalize
  exact .step (.step reserved_run hcreate trivial) (.finalize Service.setTask_self hstored) trivial

end Bench

theorem accounted_once_bench : AccountedOnce id Bench.digest Bench.validateJpeg Bench.limits Bench.options
    [⟨none, .quiet⟩, ⟨some 0, .quiet⟩, ⟨some 0, .quiet⟩, ⟨some 0, .quiet⟩, Bench.accepted] Bench.s₅ :=
  accounted_once Function.injective_id Bench.stored_run

end Albusforge.Observations
