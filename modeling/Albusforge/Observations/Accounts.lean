import Albusforge.Observations.Changes

/-!
# Devices, change by change

What happens to one device in a run is a list of changes (`step_moves`, `device_run`). Receipts go on
from what they were reserved with (`Follows`), and **what is accepted and what is reserved on a day stays
within the limits** (`quota_kept`).
-/

namespace Albusforge.Observations

open Lib Lib.Json Cloudlink

/-! ## Steps, device by device -/

def Shown.acceptance : Shown → Option Acceptance
  | .accepted _ _ x => some x
  | .finalized x => some x
  | _ => none

def Event.acceptanceAt (id : Text) (e : Event) : Option Acceptance :=
  e.shown.acceptance.filter fun x => x.device = id

inductive Moves (tokenHash : Text → Text) (limits : Limits) (free : Text → Prop) (id : Text)
    (fresh : ℕ) :
    Slot → Option Acceptance → Slot → Prop
  | same {slot : Slot} : Moves tokenHash limits free id fresh slot none slot
  | change {d d' : Device} {x : Option Acceptance} : Change tokenHash limits free id fresh d x d' →
      Moves tokenHash limits free id fresh (.alive d) x (.alive d')
  | provision {d : Device} : d.New → Moves tokenHash limits free id fresh .unborn none (.alive d)
  | delete {d : Device} : Moves tokenHash limits free id fresh (.alive d) none .deleted

section

variable {tokenHash : Text → Text} {digest : List UInt8 → Text}
  {validateJpeg : List UInt8 → ℕ → ℕ → Option (ℕ × ℕ)} {limits : Limits} {options : UploadOptions}
  {s s' : Service} {e : Event} {free : Text → Prop} {id : Text}

def AllDescribed (tokenHash : Text → Text) (s : Service) : Prop :=
  ∀ id d, s.devices id = .alive d → ∀ o r, d.receipts.find o = some r → Described tokenHash id d.tenantId r

theorem validate_digest {q : Upload} {granted : Granted} {size : ℕ × ℕ}
    (h : validate digest validateJpeg q granted = .ok size) : digest q.body = q.metadata.sha256 := by
  unfold validate at h
  split_ifs at h with hempty hlong hdigest
  simpa using hdigest

theorem reserveSlot_alive {a : Attempt} {admitted : ℤ} {fenced : Bool} {slot : Slot} {x : Reserved}
    (h : reserveSlot tokenHash digest limits options a admitted fenced slot = .ok x) :
    ∃ d, slot = .alive d ∧ reserve tokenHash digest limits options a admitted fenced d = .ok x := by
  cases slot with
  | alive d => exact ⟨d, rfl, h⟩
  | unborn => exact absurd h (by simp [reserveSlot])
  | deleted => exact absurd h (by simp [reserveSlot])

theorem finalizeSlot_alive {a : Attempt} {object : StoredObject} {received : ℤ} {slot : Slot}
    {x : Ack × Device} (h : finalizeSlot tokenHash a object received slot = .ok x) :
    ∃ d, slot = .alive d ∧ finalize tokenHash a object received d = .ok x := by
  cases slot with
  | alive d => exact ⟨d, rfl, h⟩
  | unborn => exact absurd h (by simp [finalizeSlot])
  | deleted => exact absurd h (by simp [finalizeSlot])

theorem admit_change {q : Upload} {time : ℤ} {d d' : Device} {x : Except Rejection Granted} {fresh : ℕ}
    (h : onRequest options q time d = (x, d')) : Change tokenHash limits free id fresh d none d' := by
  have hd : d' = (onRequest options q time d).2 := by rw [h]
  subst hd
  unfold onRequest
  split
  · exact change_refl
  · exact .other rfl rfl rfl

theorem moves_update {fresh : ℕ} {id₀ : Text} {slot : Slot} {x : Option Acceptance}
    (h : Moves tokenHash limits free id₀ fresh (s.devices id₀) x slot)
    (hx : ∀ y, x = some y → y.device = id₀) :
    Moves tokenHash limits free id fresh (s.devices id) (x.filter fun y => y.device = id)
      (Function.update s.devices id₀ slot id) := by
  by_cases hid : id = id₀
  · subst hid
    rw [Function.update_self]
    cases x with
    | none => exact h
    | some y =>
        have hy := hx y rfl
        simpa [Option.filter, hy] using h
  · rw [Function.update_of_ne hid]
    cases x with
    | none => exact .same
    | some y =>
        have hy : y.device ≠ id := by
          rw [hx y rfl]
          exact Ne.symm hid
        simpa [Option.filter, hy] using Moves.same

theorem change_entry {fresh : ℕ} {d d' : Device} {x : Option Acceptance}
    (h : Change tokenHash limits free id fresh d x d') : ∀ y, x = some y → y.device = id := by
  intro y hy
  cases h with
  | store _ _ _ => exact (Option.some.inj hy) ▸ rfl
  | other _ _ _ => exact absurd hy (by simp)
  | create _ _ _ _ _ => exact absurd hy (by simp)
  | renew _ _ _ => exact absurd hy (by simp)
  | expire _ => exact absurd hy (by simp)
  | fail _ _ => exact absurd hy (by simp)

variable (id) in
/-- **A step changes one device at most, and by one transaction.** -/
theorem step_moves (hinj : Function.Injective tokenHash) (hall : AllDescribed tokenHash s)
    (h : ServiceStep tokenHash digest validateJpeg limits options s e s') :
    Moves tokenHash limits (fun key => s.intents key = none) id s.nextLease (s.devices id)
      (e.acceptanceAt id) (s'.devices id) := by
  have hupdate : ∀ {id₀ : Text} {d d' : Device} {x : Option Acceptance}, s.devices id₀ = .alive d →
      Change tokenHash limits (fun key => s.intents key = none) id₀ s.nextLease d x d' →
      Moves tokenHash limits (fun key => s.intents key = none) id s.nextLease (s.devices id) (x.filter fun y => y.device = id)
        (Function.update s.devices id₀ (.alive d') id) := by
    intro id₀ d d' x hd hchange
    refine moves_update ?_ (change_entry hchange)
    rw [hd]
    exact .change hchange
  cases h with
  | provision hunborn hnew =>
      refine moves_update (x := none) ?_ (by simp)
      rw [hunborn]
      exact .provision hnew
  | change hd => exact hupdate hd (.other rfl rfl rfl)
  | delete hd =>
      refine moves_update (x := none) ?_ (by simp)
      rw [hd]
      exact .delete
  | onRequest _ hd hadmit => exact hupdate hd (admit_change hadmit)
  | admitRefused _ hd hadmit => exact hupdate hd (admit_change hadmit)
  | reserve hready hreserve =>
      obtain ⟨d, hd, hreserved⟩ := reserveSlot_alive hreserve
      have hdigest := validate_digest hready.valid
      have hchange := (reserve_reserved hreserved).change (fun key => s.intents key = none) hinj
        (hall _ d hd) rfl hdigest (by simp)
      rw [hready.lease] at hchange
      exact hupdate hd hchange
  | finalize _ hfinalize =>
      obtain ⟨d, hd, hfinal⟩ := finalizeSlot_alive hfinalize
      obtain ⟨r, lease, hr⟩ := finalize_ok hfinal
      exact hupdate hd (hr.change hinj (hall _ d hd))
  | claim _ hd hclaim => exact hupdate hd (claim_cases hclaim).change
  | @settle _ c object time d swept _ hd hsettle =>
      have hchange := hupdate hd (settle_cases hsettle).change
      cases hvalue : swept.value with
      | none =>
          rw [hvalue] at hchange
          exact hchange
      | some bytes =>
          rw [hvalue] at hchange
          exact hchange
  -- the others change no device
  | _ => exact .same

/-! ## Receipts keep what they were reserved with -/

structure Follows (r r' : Receipt) : Prop where
  fingerprint : r'.fingerprint = r.fingerprint
  sha256 : r'.sha256 = r.sha256
  bytes : r'.bytes = r.bytes
  observation : r'.observationId = r.observationId
  key : ∀ i', r'.image = some i' → ∃ i, r.image = some i ∧ i'.objectKey = i.objectKey
  expired : (∃ t, r.state = .expired t) → ∃ t, r'.state = .expired t
  received : ∀ t, r.receivedAt = some t → r'.receivedAt = some t ∧ r'.reservedDay = r.reservedDay

theorem Follows.refl (r : Receipt) : Follows r r :=
  ⟨rfl, rfl, rfl, rfl, fun i hi => ⟨i, hi, rfl⟩, fun h => h, fun _ h => ⟨h, rfl⟩⟩

theorem Receipt.Open.unreceived {r : Receipt} (h : r.Open) : r.receivedAt = none := by
  rcases h with ⟨lease, hstate⟩ | hstate
  · rw [Receipt.receivedAt, hstate]
  · rw [Receipt.receivedAt, hstate]

theorem Receipt.Open.unexpired {r : Receipt} (h : r.Open) : ¬ ∃ t, r.state = .expired t := by
  intro ⟨t, ht⟩
  rcases h with ⟨lease, hstate⟩ | hstate
  · exact absurd (hstate.symm.trans ht) (by simp)
  · exact absurd (hstate.symm.trans ht) (by simp)

inductive Goes (id : Text) (fresh : ℕ) (r : Receipt) : Option Acceptance → Receipt → Prop
  | renew {leaseUntil day : ℤ} {credential : Option Text} : r.Open → Goes id fresh r none { r with
      state := .reserved ⟨fresh, leaseUntil⟩
      reservedDay := day
      credentialHash := credential }
  | store {lease : Lease} {generation : ℕ} {received : ℤ} : r.state = .reserved lease →
      Goes id fresh r
        (some ⟨id, r.observationId, r.reservedDay, r.bytes, lease.leaseId, received⟩)
        { r with
          state := .stored received
          image := r.image.map fun i => { i with generation := some generation } }
  | expire : Goes id fresh r none (expire r)
  | fail {lease : Lease} : r.state = .reserved lease → Goes id fresh r none { r with state := .failed }

theorem Goes.follows {fresh : ℕ} {r r' : Receipt} {x : Option Acceptance} (h : Goes id fresh r x r') : Follows r r' := by
  cases h with
  | renew hopen =>
      refine ⟨rfl, rfl, rfl, rfl, fun i hi => ⟨i, hi, rfl⟩, fun h => absurd h hopen.unexpired, ?_⟩
      intro t ht
      exact absurd (hopen.unreceived.symm.trans ht) (by simp)
  | store hstate =>
      have hopen : r.Open := Or.inl ⟨_, hstate⟩
      refine ⟨rfl, rfl, rfl, rfl, ?_, fun h => absurd h hopen.unexpired, ?_⟩
      · intro i' hi'
        obtain ⟨i, hi, rfl⟩ := Option.map_eq_some_iff.mp hi'
        exact ⟨i, hi, rfl⟩
      · intro t ht
        exact absurd (hopen.unreceived.symm.trans ht) (by simp)
  | expire =>
      refine ⟨rfl, rfl, rfl, rfl, ?_, fun _ => ⟨r.receivedAt, rfl⟩, fun t ht => ⟨ht, rfl⟩⟩
      intro i hi
      exact absurd hi (by simp [Observations.expire])
  | fail hstate =>
      have hopen : r.Open := Or.inl ⟨_, hstate⟩
      refine ⟨rfl, rfl, rfl, rfl, fun i hi => ⟨i, hi, rfl⟩, fun h => absurd h hopen.unexpired, ?_⟩
      intro t ht
      exact absurd (hopen.unreceived.symm.trans ht) (by simp)

theorem Goes.described {fresh : ℕ} {r r' : Receipt} {x : Option Acceptance} {tenant : Text}
    (h : Goes id fresh r x r') (hr : Described tokenHash id tenant r) : Described tokenHash id tenant r' := by
  have hfollows := h.follows
  obtain ⟨m, width, height, hm⟩ := hr
  have hkey : ∀ i, r'.image = some i → i.objectKey = objectKey tenant m.deviceId m.observationId := by
    intro i' hi'
    obtain ⟨i, hi, heq⟩ := hfollows.key i' hi'
    exact heq.trans (hm.key i hi)
  have himage : r.Open → r.image ≠ none := fun hopen hnone => hopen.unexpired (hm.imaged.mpr hnone)
  refine ⟨m, width, height, ?_, hm.device, ?_, ?_, hkey, ?_, ?_⟩
  · rw [hfollows.fingerprint, hfollows.bytes]
    exact hm.fingerprint
  · rw [hfollows.observation]
    exact hm.observation
  · rw [hfollows.sha256]
    exact hm.sha256
  · cases h with
    | renew hopen => simp [himage hopen]
    | store hstate => simp [himage (Or.inl ⟨_, hstate⟩)]
    | expire => simp [Observations.expire]
    | fail hstate => simp [himage (Or.inl ⟨_, hstate⟩)]
  · -- an image has its generation from being stored
    have hnone : r.Open → ∀ i g, r.image = some i → i.generation ≠ some g := by
      intro hopen i g hi hg
      obtain ⟨t, ht⟩ := hm.generated i g hi hg
      have hreceived : r.receivedAt = some t := by rw [Receipt.receivedAt, ht]
      exact absurd (hopen.unreceived.symm.trans hreceived) (by simp)
    intro i g hi hg
    cases h with
    | renew hopen => exact absurd hg (hnone hopen i g hi)
    | store _ => exact ⟨_, rfl⟩
    | expire => exact absurd hi (by simp [Observations.expire])
    | fail hstate => exact absurd hg (hnone (Or.inl ⟨_, hstate⟩) i g hi)

theorem Goes.lease {fresh : ℕ} {r r' : Receipt} {x : Option Acceptance} {l : Lease}
    (h : Goes id fresh r x r') (hl : r'.state = .reserved l) : l.leaseId = fresh := by
  cases h with
  | renew _ => exact (ReceiptState.reserved.inj hl) ▸ rfl
  | store _ => exact absurd hl (by simp)
  | expire => exact absurd hl (by simp [Observations.expire])
  | fail _ => exact absurd hl (by simp)

theorem Change.receipts {fresh : ℕ} {d d' : Device} {x : Option Acceptance}
    (h : Change tokenHash limits free id fresh d x d') : d'.tenantId = d.tenantId ∧
    (d'.receipts = d.receipts ∨
      (∃ r l, d.receipts.find r.observationId = none ∧ d'.receipts = d.receipts.put r ∧
        Described tokenHash id d.tenantId r ∧ (∀ i, r.image = some i → free i.objectKey) ∧
        r.state = .reserved l ∧ l.leaseId = fresh) ∨
      ∃ r r', d.receipts.find r.observationId = some r ∧ d'.receipts = d.receipts.put r' ∧
        Goes id fresh r x r') := by
  cases h with
  | other htenant hreceipts _ => exact ⟨htenant, Or.inl hreceipts⟩
  | create hnew hstate hdescribed _ hfree =>
      exact ⟨rfl, Or.inr (Or.inl ⟨_, _, hnew, rfl, hdescribed, hfree, hstate, rfl⟩)⟩
  | renew hr hopen _ => exact ⟨rfl, Or.inr (Or.inr ⟨_, _, hr, rfl, .renew hopen⟩)⟩
  | store hr hstate _ => exact ⟨rfl, Or.inr (Or.inr ⟨_, _, hr, rfl, .store hstate⟩)⟩
  | expire hr => exact ⟨rfl, Or.inr (Or.inr ⟨_, _, hr, rfl, .expire⟩)⟩
  | fail hr hstate => exact ⟨rfl, Or.inr (Or.inr ⟨_, _, hr, rfl, .fail hstate⟩)⟩

theorem Change.follows {fresh : ℕ} {d d' : Device} {x : Option Acceptance} {o : Text} {r : Receipt}
    (h : Change tokenHash limits free id fresh d x d') (hr : d.receipts.find o = some r) :
    ∃ r', d'.receipts.find o = some r' ∧ Follows r r' := by
  obtain ⟨-, hsame | ⟨r₁, l, hnew, hput, -⟩ | ⟨r₁, r₂, hfound, hput, hgoes⟩⟩ := h.receipts
  · exact ⟨r, hsame ▸ hr, .refl r⟩
  · refine ⟨r, ?_, .refl r⟩
    rw [hput, Table.find_put_of_ne ?_]
    · exact hr
    · intro heq
      rw [heq, hnew] at hr
      exact absurd hr (by simp)
  · have hobservation := hgoes.follows.observation
    by_cases ho : o = r₁.observationId
    · rw [ho, hfound] at hr
      obtain rfl := Option.some.inj hr
      refine ⟨r₂, ?_, hgoes.follows⟩
      rw [hput, ho, ← hobservation, Table.find_put_self]
    · refine ⟨r, ?_, .refl r⟩
      rw [hput, Table.find_put_of_ne (hobservation ▸ ho)]
      exact hr

theorem Change.found {fresh : ℕ} {d d' : Device} {x : Option Acceptance} {o : Text} {r' : Receipt}
    (h : Change tokenHash limits free id fresh d x d') (hr : d'.receipts.find o = some r') :
    d.receipts.find o = some r' ∨
    (d.receipts.find o = none ∧ Described tokenHash id d.tenantId r' ∧
      (∀ i, r'.image = some i → free i.objectKey) ∧ ∃ l, r'.state = .reserved l ∧ l.leaseId = fresh) ∨
    ∃ r, d.receipts.find o = some r ∧ Goes id fresh r x r' := by
  obtain ⟨-, hsame | ⟨r₁, l, hnew, hput, hdescribed, hfree, hstate, hl⟩ |
    ⟨r₁, r₂, hfound, hput, hgoes⟩⟩ := h.receipts
  · exact Or.inl (hsame ▸ hr)
  · rw [hput] at hr
    rcases Table.find_put hr with ⟨rfl, rfl⟩ | ⟨-, hold⟩
    · exact Or.inr (Or.inl ⟨hnew, hdescribed, hfree, l, hstate, hl⟩)
    · exact Or.inl hold
  · rw [hput] at hr
    rcases Table.find_put hr with ⟨rfl, rfl⟩ | ⟨-, hold⟩
    · rw [hgoes.follows.observation]
      exact Or.inr (Or.inr ⟨r₁, hfound, hgoes⟩)
    · exact Or.inl hold

theorem Device.New.find {d : Device} (h : d.New) (o : Text) : d.receipts.find o = none := by
  rw [Table.find, h.receipts, List.find?_nil]

theorem Moves.described {fresh : ℕ} {slot slot' : Slot} {x : Option Acceptance}
    (h : Moves tokenHash limits free id fresh slot x slot')
    (hall : ∀ d, slot = .alive d → ∀ o r, d.receipts.find o = some r → Described tokenHash id d.tenantId r) :
    ∀ d, slot' = .alive d → ∀ o r, d.receipts.find o = some r → Described tokenHash id d.tenantId r := by
  intro d hd o r hr
  cases h with
  | same => exact hall d hd o r hr
  | @change d₀ _ _ hchange =>
      obtain rfl := Slot.alive.inj hd
      have hold := hall d₀ rfl
      rw [hchange.receipts.1]
      rcases hchange.found hr with hsame | ⟨-, hnew, -⟩ | ⟨r₀, hfound, hgoes⟩
      · exact hold o r hsame
      · exact hnew
      · exact hgoes.described (hold o r₀ hfound)
  | provision hnew =>
      obtain rfl := Slot.alive.inj hd
      exact absurd ((hnew.find o).symm.trans hr) (by simp)
  | delete => exact absurd hd (by simp)

variable (id) in
theorem device_run (hinj : Function.Injective tokenHash) {P : List Acceptance → Slot → Prop}
    (hinit : P [] .unborn)
    (hstep : ∀ xs free fresh slot x slot', P xs slot → Moves tokenHash limits free id fresh slot x slot' →
      P (xs ++ x.toList) slot')
    {es : List Event} (hrun : (service tokenHash digest validateJpeg limits options).Run es s) :
    P (es.filterMap (Event.acceptanceAt id)) (s.devices id) := by
  have hboth := hrun.invariant (I := fun es s => AllDescribed tokenHash s ∧
    P (es.filterMap (Event.acceptanceAt id)) (s.devices id)) ?_ ?_
  · exact hboth.2
  · intro s hstart
    refine ⟨fun id d hd => absurd ((hstart.1 id).symm.trans hd) (by simp), ?_⟩
    rw [hstart.1 id]
    exact hinit
  · intro es s e s' ⟨hall, hp⟩ hone _
    refine ⟨fun id d hd => (step_moves id hinj hall hone).described (hall id) d hd, ?_⟩
    have hmoves := hstep _ _ _ _ _ _ hp (step_moves id hinj hall hone)
    rw [List.filterMap_append]
    cases hx : e.acceptanceAt id with
    | none =>
        rw [hx] at hmoves
        simpa [hx] using hmoves
    | some x =>
        rw [hx] at hmoves
        simpa [hx] using hmoves

theorem described_run (hinj : Function.Injective tokenHash) {es : List Event}
    (hrun : (service tokenHash digest validateJpeg limits options).Run es s) : AllDescribed tokenHash s := by
  intro id
  refine device_run id hinj (P := fun _ slot => ∀ d, slot = .alive d → ∀ o r,
    d.receipts.find o = some r → Described tokenHash id d.tenantId r) ?_ ?_ hrun
  · intro d hd
    exact absurd hd (by simp)
  · intro _ _ _ _ _ _ hall hmoves
    exact hmoves.described hall

/-! ## The quota -/

def Within (limits : Limits) (d : Device) : Prop := ∀ day,
  acceptedCount (d.usage day) + d.receipts.sum (reservedOn day) ≤ limits.maxDailyCount ∧
    acceptedBytes (d.usage day) + d.receipts.sum (reservedBytesOn day) ≤ limits.maxDailyBytes

theorem within_put {d d' : Device} {r : Receipt} (h : Within limits d) (husage : d'.usage = d.usage)
    (hput : d'.receipts = d.receipts.put r)
    (hroom : ∀ day, reservedOn day r = 0 ∨
      reservedOn day r = 1 ∧ quota limits d r.observationId r.bytes day = true) : Within limits d' := by
  intro day
  obtain ⟨hcount, hbytes⟩ := h day
  rw [husage, hput, Table.sum_put, Table.sum_put, reservedBytesOn]
  rcases hroom day with hzero | ⟨hone, hquota⟩
  · have hothers := @Table.sumOthers_le _ _ _ _ d.receipts r.observationId (reservedOn day)
    have hothers' := @Table.sumOthers_le _ _ _ _ d.receipts r.observationId (reservedBytesOn day)
    rw [hzero]
    omega
  · simp only [quota, Bool.and_eq_true, decide_eq_true_eq] at hquota
    rw [hone]
    omega

theorem Change.within {fresh : ℕ} {d d' : Device} {x : Option Acceptance}
    (h : Change tokenHash limits free id fresh d x d') (hd : Within limits d) : Within limits d' := by
  cases h with
  | other _ hreceipts husage =>
      intro day
      rw [hreceipts, husage]
      exact hd day
  | @create r leaseUntil _ hstate _ hquota _ =>
      refine within_put hd rfl rfl ?_
      intro day
      by_cases hday : r.reservedDay = day
      · subst hday
        exact Or.inr ⟨by simp [reservedOn, hstate], hquota⟩
      · exact Or.inl (by simp [reservedOn, hstate, hday])
  | @renew r leaseUntil day credential hr hopen hquota =>
      refine within_put hd rfl rfl ?_
      intro day'
      by_cases hday : day = day'
      · subst hday
        exact Or.inr ⟨by simp [reservedOn], hquota⟩
      · exact Or.inl (by simp [reservedOn, hday])
  | @store r lease generation received capability captured hr hstate _ =>
      intro day
      obtain ⟨hcount, hbytes⟩ := hd day
      rw [Table.sum_found hr] at hcount hbytes
      simp only [Device.store]
      rw [Table.sum_put, Table.sum_put]
      simp only [reservedOn, reservedBytesOn, Nat.zero_mul, Nat.add_zero]
      by_cases hday : r.reservedDay = day
      · -- what was reserved on the day is accepted on it now
        subst hday
        have hone : reservedOn r.reservedDay r = 1 := by simp [reservedOn, hstate]
        have hall : reservedBytesOn r.reservedDay r = r.bytes := by rw [reservedBytesOn, hone, Nat.one_mul]
        rw [hone] at hcount
        rw [hall] at hbytes
        rw [Function.update_self]
        change acceptedCount (d.usage r.reservedDay) + 1 + _ ≤ _ ∧
          acceptedBytes (d.usage r.reservedDay) + r.bytes + _ ≤ _
        omega
      · rw [Function.update_of_ne (Ne.symm hday)]
        omega
  | @expire r hr =>
      refine within_put hd rfl rfl ?_
      intro day
      exact Or.inl (by simp [reservedOn, Observations.expire])
  | @fail r lease hr hstate =>
      refine within_put hd rfl rfl ?_
      intro day
      exact Or.inl (by simp [reservedOn])

theorem Device.New.within {d : Device} (h : d.New) : Within limits d := by
  intro day
  simp [Table.sum, h.receipts, h.usage day, acceptedCount, acceptedBytes]

/-- **The quota of a day is never oversubscribed**, whatever is reserved, finalized, failed or expired, and
by whom. -/
theorem quota_kept (hinj : Function.Injective tokenHash) {es : List Event} {d : Device}
    (hrun : (service tokenHash digest validateJpeg limits options).Run es s)
    (hd : s.devices id = .alive d) (day : ℤ) :
    acceptedCount (d.usage day) + d.receipts.sum (reservedOn day) ≤ limits.maxDailyCount ∧
      acceptedBytes (d.usage day) + d.receipts.sum (reservedBytesOn day) ≤ limits.maxDailyBytes := by
  have hwithin := device_run id hinj
    (P := fun _ slot => ∀ d, slot = .alive d → Within limits d) ?_ ?_ hrun
  · exact hwithin d hd day
  · intro d hd
    exact absurd hd (by simp)
  · intro _ _ _ _ _ _ hall hmoves d hd
    cases hmoves with
    | same => exact hall d hd
    | change hchange =>
        obtain rfl := Slot.alive.inj hd
        exact hchange.within (hall _ rfl)
    | provision hnew =>
        obtain rfl := Slot.alive.inj hd
        exact hnew.within
    | delete => exact absurd hd (by simp)

end

/-! ## A run -/

namespace Bench

def deviceId : Text := js "0a000000-0000-4000-8000-000000000001"

def metadata : Metadata where
  deviceId := deviceId
  observationId := js "0b000000-0000-4000-8000-000000000002"
  capabilityId := js "camera"
  capturedAt := 60
  sha256 := [7]
  device_uuid := by decide
  observation_uuid := by decide

def upload : Upload := ⟨metadata, js "hash", some (js "1"), [7]⟩

def device : Device where
  tokenHash := js "hash"
  tenantId := js "0c000000-0000-4000-8000-000000000003"
  tenant_uuid := by decide
  revoked := false
  capabilities c := if c = js "camera" then
    some ⟨true, js "image", js "jpeg.v1", some 8, some 8, some 8⟩ else none
  receipts := .empty
  usage _ := none
  attempts := none
  presence _ := none

def digest (body : List UInt8) : Text := body.map UInt8.toNat

def validateJpeg (_ : List UInt8) (_ _ : ℕ) : Option (ℕ × ℕ) := some (2, 3)

def limits : Limits := ⟨1, 8⟩

def options : UploadOptions := ⟨10, 30000⟩

def granted : Granted := ⟨device.tenantId, device.tenant_uuid, 8, 8, 8⟩

def attempt : Attempt := ⟨upload, granted, 2, 3, 0⟩

def counted : Device := { device with attempts := some ⟨60000, 1⟩ }

def receipt : Receipt := reservation id digest options attempt 60000 none

def reserved : Device := { counted with receipts := counted.receipts.put receipt }

def name : Text := uuidOf deviceId

def start : Service := ⟨fun _ => .unborn, fun _ => none, fun _ => none, fun _ => .idle, 0, 0⟩

def s₁ : Service := start.setDevice name (.alive device)

def s₂ : Service := (s₁.setDevice name (.alive counted)).setTask 0 (.admitted upload granted)

def s₃ : Service := (s₂.newLease.setDevice name (.alive reserved)).setTask 0 (.creating attempt)

abbrev bench : Machine Service Event := service id digest validateJpeg limits options

theorem admitted_run : bench.Run [⟨none, .quiet⟩, ⟨some 0, .quiet⟩] s₂ := by
  have hstart : bench.Run [] start := .init ⟨fun _ => rfl, fun _ => rfl, fun _ => rfl, fun _ _ h => nomatch h⟩
  have h₁ : bench.Run [⟨none, .quiet⟩] s₁ := .step hstart (.provision rfl ⟨rfl, fun _ => rfl⟩) trivial
  have hadmit : onRequest options upload 60000 device = (.ok granted, counted) := by rfl
  have hd : s₁.devices name = .alive device := Service.setDevice_self
  exact .step h₁ (.onRequest rfl hd hadmit) trivial

theorem reserved_run : bench.Run [⟨none, .quiet⟩, ⟨some 0, .quiet⟩, ⟨some 0, .quiet⟩] s₃ := by
  have hready : s₂.Ready digest validateJpeg 0 attempt := ⟨rfl, rfl, rfl⟩
  have hreserve : reserveSlot id digest limits options attempt 60000 false (.alive counted) =
    .ok (.reserved reserved) := by
    have hnow : current attempt counted = .ok () := by rfl
    have htime : ¬ (attempt.captured < 60000 - 7 * dayMs ∨ (60000 : ℤ) + 300000 < attempt.captured) := by decide
    have hquota : quota limits counted attempt.observation attempt.bytes (dayOf 60000) = true := by rfl
    have hfind : counted.receipts.find attempt.observation = none := rfl
    simp only [reserveSlot, reserve, hnow, hfind, Option.elim_none, if_neg htime, hquota]
    rfl
  refine .step admitted_run (.reserve hready (?_ : reserveSlot _ _ _ _ _ 60000 _ _ = _)) trivial
  have hslot : s₂.devices name = .alive counted := by simp [s₂]
  exact (congrArg _ hslot).trans hreserve

end Bench

theorem quota_kept_bench :
    acceptedCount none + Bench.reserved.receipts.sum (reservedOn 0) ≤ 1 ∧
      acceptedBytes none + Bench.reserved.receipts.sum (reservedBytesOn 0) ≤ 8 :=
  have hslot : Bench.s₃.devices Bench.name = .alive Bench.reserved := by simp [Bench.s₃]
  quota_kept Function.injective_id Bench.reserved_run hslot 0

end Albusforge.Observations
