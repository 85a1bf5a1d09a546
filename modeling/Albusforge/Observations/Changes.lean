import Albusforge.Observations.System

/-!
# What a transaction does to a device

Each transaction says once what it may have done: `reserve_reserved`, `finalize_ok`, `claim_cases`,
`settle_cases`. To the receipts of a device that is one of six things (`Change`).
-/

namespace Albusforge.Observations

open Lib Cloudlink

def Receipt.Open (r : Receipt) : Prop := (∃ lease, r.state = .reserved lease) ∨ r.state = .failed

section

variable {tokenHash : Text → Text} {digest : List UInt8 → Text} {limits : Limits}
  {options : UploadOptions} {a : Attempt} {d d' : Device}

theorem current_tenant (h : current a d = .ok ()) : d.tenantId = a.granted.tenantId := by
  unfold current at h
  split at h
  · exact absurd h (by simp)
  · rename_i granted hgranted
    split_ifs at h with htenant
    have hsame : granted.tenantId = d.tenantId := by
      unfold authorize at hgranted
      split at hgranted
      · exact absurd hgranted (by simp)
      split at hgranted
      · exact absurd hgranted (by simp)
      split at hgranted
      · exact absurd hgranted (by simp)
      split at hgranted
      · exact (Except.ok.inj hgranted) ▸ rfl
      · exact absurd hgranted (by simp)
    rw [← hsame]
    simpa using htenant

theorem answerPrior_none {admitted : ℤ} {r : Receipt} (h : answerPrior tokenHash a admitted r = .ok none) :
    r.fingerprint = a.fingerprint tokenHash ∧ r.Open := by
  unfold answerPrior at h
  split at h
  · exact absurd h (by simp)
  rename_i hfingerprint
  refine ⟨by simpa using hfingerprint, ?_⟩
  split at h
  · exact absurd h (by simp)
  · split at h <;> exact absurd h (by simp)
  · rename_i lease hstate
    exact Or.inl ⟨lease, hstate⟩
  · rename_i hstate
    exact Or.inr hstate

theorem answerPrior_some {admitted : ℤ} {r : Receipt} {x : Ack} :
    answerPrior tokenHash a admitted r = .ok (some x) ↔
      r.fingerprint = a.fingerprint tokenHash ∧ admitted < r.expiresAt ∧
        ∃ t, r.state = .stored t ∧ x = ack a.upload.metadata r t := by
  constructor
  · intro h
    unfold answerPrior at h
    split at h
    · exact absurd h (by simp)
    rename_i hfingerprint
    split at h
    · exact absurd h (by simp)
    · rename_i t hstate
      split at h
      · exact absurd h (by simp)
      · rename_i hfresh
        have heq : ack a.upload.metadata r t = x := by simpa using h
        exact ⟨by simpa using hfingerprint, by omega, t, hstate, heq.symm⟩
    · split_ifs at h <;> exact absurd h (by simp)
    · split_ifs at h <;> exact absurd h (by simp)
  · intro ⟨hfingerprint, hfresh, t, hstate, hx⟩
    rw [answerPrior, if_neg (by simpa using hfingerprint), hstate, hx]
    simp only [if_neg (not_le.mpr hfresh)]

structure Reserves (tokenHash : Text → Text) (digest : List UInt8 → Text) (limits : Limits)
    (options : UploadOptions) (a : Attempt) (admitted : ℤ) (fenced : Bool) (d d' : Device) : Prop where
  tenant : d.tenantId = a.granted.tenantId
  prior : ∀ r, d.receipts.find a.observation = some r →
    r.fingerprint = a.fingerprint tokenHash ∧ r.Open
  room : quota limits d a.observation a.bytes (dayOf admitted) = true
  unfenced : d.receipts.find a.observation = none → fenced = false
  eq : d' = { d with
    receipts := d.receipts.put
      (reservation tokenHash digest options a admitted (d.receipts.find a.observation)) }

theorem reserve_reserved {admitted : ℤ} {fenced : Bool}
    (h : reserve tokenHash digest limits options a admitted fenced d = .ok (.reserved d')) :
    Reserves tokenHash digest limits options a admitted fenced d d' := by
  unfold reserve at h
  dsimp only at h
  split at h
  · exact absurd h (by simp)
  rename_i hcurrent
  split at h
  · exact absurd h (by simp)
  · exact absurd h (by simp)
  rename_i hprior
  split_ifs at h with htime hquota hfence
  have hd : _ = d' := Reserved.reserved.inj (Except.ok.inj h)
  refine ⟨current_tenant hcurrent, ?_, by simpa using hquota, ?_, hd.symm⟩
  · intro r hr
    rw [hr] at hprior
    exact answerPrior_none hprior
  · intro hnone
    rw [hnone] at hfence
    simpa using hfence

/-- **A retry is acknowledged just when it is authorized and its receipt is stored and not too old.** -/
theorem reserve_acknowledged {admitted : ℤ} {fenced : Bool} {x : Ack} :
    reserve tokenHash digest limits options a admitted fenced d = .ok (.acknowledged x) ↔
      current a d = .ok () ∧ ∃ r t, d.receipts.find a.observation = some r ∧
        r.fingerprint = a.fingerprint tokenHash ∧ admitted < r.expiresAt ∧ r.state = .stored t ∧
        x = ack a.upload.metadata r t := by
  constructor
  · intro h
    unfold reserve at h
    dsimp only at h
    split at h
    · exact absurd h (by simp)
    rename_i hcurrent
    split at h
    · exact absurd h (by simp)
    · rename_i y hprior
      obtain rfl : y = x := Reserved.acknowledged.inj (Except.ok.inj h)
      cases hr : d.receipts.find a.observation with
      | none =>
          rw [hr] at hprior
          exact absurd hprior (by simp)
      | some r =>
          rw [hr, Option.elim_some] at hprior
          obtain ⟨hfingerprint, hfresh, t, hstate, hx⟩ := answerPrior_some.mp hprior
          exact ⟨hcurrent, r, t, rfl, hfingerprint, hfresh, hstate, hx⟩
    · split_ifs at h <;> exact absurd h (by simp)
  · intro ⟨hcurrent, r, t, hr, hfingerprint, hfresh, hstate, hx⟩
    have hprior := answerPrior_some.mpr ⟨hfingerprint, hfresh, t, hstate, hx⟩
    simp only [reserve, hcurrent, hr, Option.elim_some, hprior]

structure Finalizes (tokenHash : Text → Text) (a : Attempt) (object : StoredObject) (received : ℤ)
    (d : Device) (x : Ack) (d' : Device) (r : Receipt) (lease : Lease) : Prop where
  found : d.receipts.find a.observation = some r
  state : r.state = .reserved lease
  fingerprint : r.fingerprint = a.fingerprint tokenHash
  holder : lease.leaseId = a.lease
  unexpired : received < lease.leaseUntil
  day : r.reservedDay = dayOf received
  ack : x = Observations.ack a.upload.metadata r received
  eq : d' = d.store r object.generation received a.bytes a.upload.metadata.capabilityId a.captured

theorem finalize_ok {object : StoredObject} {received : ℤ} {x : Ack}
    (h : finalize tokenHash a object received d = .ok (x, d')) :
    ∃ r lease, Finalizes tokenHash a object received d x d' r lease := by
  unfold finalize at h
  split at h
  · exact absurd h (by simp)
  split at h
  · exact absurd h (by simp)
  rename_i r hr
  split at h
  · rename_i lease hstate
    split_ifs at h with hlost hday
    simp only [not_or, not_not, not_le] at hlost
    obtain ⟨hx, hd⟩ := Prod.mk.inj (Except.ok.inj h)
    exact ⟨r, lease, hr, hstate, hlost.1, hlost.2.1, hlost.2.2, by simpa using hday, hx.symm, hd.symm⟩
  · exact absurd h (by simp)

end

/-! ## Sweeps -/

section

variable {limits : Limits} {deviceId observation : Text} {d : Device}

theorem receipt_some {r : Receipt} {i : Image} (h : receipt d observation = some (r, i)) :
    d.receipts.find observation = some r ∧ r.image = some i := by
  obtain ⟨r', hr', hmap⟩ := Option.bind_eq_some_iff.mp h
  obtain ⟨i', hi', heq⟩ := Option.map_eq_some_iff.mp hmap
  obtain ⟨rfl, rfl⟩ := Prod.mk.inj heq
  exact ⟨hr', hi'⟩

inductive Claims (limits : Limits) (deviceId observation : Text) (lease : ℕ) (time : ℤ) (d : Device) :
    Swept (Option Claim) → Prop
  | left : Claims limits deviceId observation lease time d (leave d none)
  | expired {r : Receipt} {i : Image} : d.receipts.find observation = some r → r.image = some i →
      Claims limits deviceId observation lease time d (sweepAway d r i none)
  | claimed {r : Receipt} {i : Image} : d.receipts.find observation = some r → r.image = some i →
      r.Open → quota limits d observation r.bytes (dayOf time) = true →
      Claims limits deviceId observation lease time d
        ⟨{ d with receipts := d.receipts.put { r with
            state := .reserved ⟨lease, time + 30000⟩
            reservedDay := dayOf time } },
          none, some ⟨deviceId, observation, i.objectKey, lease⟩⟩

theorem claim_cases {lease : ℕ} {time : ℤ} {swept : Swept (Option Claim)}
    (h : claim limits deviceId observation lease time d = swept) :
    Claims limits deviceId observation lease time d swept := by
  subst h
  unfold claim
  split
  · exact .left
  rename_i r i hreceipt
  obtain ⟨hr, hi⟩ := receipt_some hreceipt
  -- a receipt that may be claimed again
  have hagain : r.Open → Claims limits deviceId observation lease time d
      (if r.expiresAt ≤ time ∨ r.capturedAt < time - 7 * dayMs ∨ allowed deviceId d r i = false then
          sweepAway d r i none
        else if quota limits d observation r.bytes (dayOf time) = false then leave d none
        else ⟨{ d with receipts := d.receipts.put { r with
                state := .reserved ⟨lease, time + 30000⟩
                reservedDay := dayOf time } },
              none, some ⟨deviceId, observation, i.objectKey, lease⟩⟩) := by
    intro hopen
    split
    · exact .expired hr hi
    split
    · exact .left
    · rename_i hquota
      exact .claimed hr hi hopen (by simpa using hquota)
  dsimp only
  split
  · exact .left
  · split
    · exact .expired hr hi
    · exact .left
  · rename_i l hstate
    split
    · exact .left
    · exact hagain (Or.inl ⟨l, hstate⟩)
  · rename_i hstate
    exact hagain (Or.inr hstate)

inductive Settles (limits : Limits) (c : Claim) (object : Option StoredObject) (time : ℤ) (d : Device) :
    Swept (Option ℕ) → Prop
  | left : Settles limits c object time d (leave d none)
  | expired {r : Receipt} {i : Image} : d.receipts.find c.observation = some r → r.image = some i →
      Settles limits c object time d (sweepAway d r i none)
  | failed {r : Receipt} {l : Lease} : d.receipts.find c.observation = some r → r.state = .reserved l →
      l.leaseId = c.lease → Settles limits c object time d
        ⟨{ d with receipts := d.receipts.put { r with state := .failed } }, none, none⟩
  | stored {r : Receipt} {i : Image} {l : Lease} {o : StoredObject} :
      d.receipts.find c.observation = some r → r.image = some i → r.state = .reserved l →
      l.leaseId = c.lease → time < l.leaseUntil → object = some o → o.sha256 = r.sha256 →
      o.fingerprint = r.fingerprint → o.bytes = r.bytes → r.reservedDay = dayOf time →
      Settles limits c object time d
        ⟨d.store r o.generation time r.bytes r.capabilityId r.capturedAt, none, some r.bytes⟩

theorem settle_cases {c : Claim} {object : Option StoredObject} {time : ℤ} {swept : Swept (Option ℕ)}
    (h : settle limits deviceId c object time d = swept) : Settles limits c object time d swept := by
  subst h
  unfold settle
  split
  · exact .left
  rename_i r i hreceipt
  obtain ⟨hr, hi⟩ := receipt_some hreceipt
  split
  · rename_i l hstate
    split
    · exact .left
    rename_i hheld
    simp only [not_or, not_not, not_le] at hheld
    split
    · exact .expired hr hi
    split
    · exact .failed hr hstate hheld.1
    rename_i o
    split
    · exact .expired hr hi
    rename_i hsame
    simp only [not_or, not_not] at hsame
    split
    · exact .left
    rename_i hday
    simp only [not_or, not_not] at hday
    exact .stored hr hi hstate hheld.1 hheld.2 rfl hsame.1 hsame.2.1 hsame.2.2 hday.1
  · exact .left

theorem settle_lost {c : Claim} {object : Option StoredObject} {time : ℤ}
    (h : ∀ r l, d.receipts.find c.observation = some r → r.state = .reserved l → l.leaseId ≠ c.lease) :
    settle limits deviceId c object time d = leave d none := by
  unfold settle
  split
  · rfl
  rename_i r i hreceipt
  split
  · rename_i l hstate
    rw [if_pos (Or.inl (h r l (receipt_some hreceipt).1 hstate))]
  · rfl

end

/-! ## Six things -/

structure Describes (tokenHash : Text → Text) (id tenant : Text) (m : Metadata) (width height : ℕ)
    (r : Receipt) : Prop where
  fingerprint : r.fingerprint = tokenHash (Json.stringify (fingerprinted m r.bytes width height))
  device : uuidOf m.deviceId = id
  observation : uuidOf m.observationId = r.observationId
  sha256 : r.sha256 = m.sha256
  key : ∀ i, r.image = some i → i.objectKey = objectKey tenant m.deviceId m.observationId
  imaged : (∃ t, r.state = .expired t) ↔ r.image = none
  generated : ∀ i g, r.image = some i → i.generation = some g → ∃ t, r.state = .stored t

def Described (tokenHash : Text → Text) (id tenant : Text) (r : Receipt) : Prop :=
  ∃ m width height, Describes tokenHash id tenant m width height r

/-- What becomes of a device; `fresh` is the lease that is given out, and `free` tells the keys that no
deletion is queued for. -/
inductive Change (tokenHash : Text → Text) (limits : Limits) (free : Text → Prop) (id : Text)
    (fresh : ℕ) (d : Device) :
    Option Acceptance → Device → Prop
  | other {d' : Device} : d'.tenantId = d.tenantId → d'.receipts = d.receipts → d'.usage = d.usage →
      Change tokenHash limits free id fresh d none d'
  | create {r : Receipt} {leaseUntil : ℤ} : d.receipts.find r.observationId = none →
      r.state = .reserved ⟨fresh, leaseUntil⟩ → Described tokenHash id d.tenantId r →
      quota limits d r.observationId r.bytes r.reservedDay = true →
      (∀ i, r.image = some i → free i.objectKey) →
      Change tokenHash limits free id fresh d none { d with receipts := d.receipts.put r }
  | renew {r : Receipt} {leaseUntil day : ℤ} {credential : Option Text} :
      d.receipts.find r.observationId = some r → r.Open →
      quota limits d r.observationId r.bytes day = true →
      Change tokenHash limits free id fresh d none { d with
        receipts := d.receipts.put { r with
          state := .reserved ⟨fresh, leaseUntil⟩
          reservedDay := day
          credentialHash := credential } }
  | store {r : Receipt} {lease : Lease} {generation : ℕ} {received : ℤ} {capability : Text} {captured : ℤ} :
      d.receipts.find r.observationId = some r → r.state = .reserved lease →
      received < lease.leaseUntil →
      Change tokenHash limits free id fresh d
        (some ⟨id, r.observationId, r.reservedDay, r.bytes, lease.leaseId, received⟩)
        (d.store r generation received r.bytes capability captured)
  | expire {r : Receipt} : d.receipts.find r.observationId = some r →
      Change tokenHash limits free id fresh d none { d with receipts := d.receipts.put (expire r) }
  | fail {r : Receipt} {lease : Lease} : d.receipts.find r.observationId = some r →
      r.state = .reserved lease →
      Change tokenHash limits free id fresh d none
        { d with receipts := d.receipts.put { r with state := .failed } }

section

variable {tokenHash : Text → Text} {digest : List UInt8 → Text} {limits : Limits}
  {options : UploadOptions} {a : Attempt} {free : Text → Prop} {id : Text} {d d' : Device}

theorem Described.attempt (hinj : Function.Injective tokenHash) {tenant : Text} {r : Receipt}
    (h : Described tokenHash id tenant r) (heq : r.fingerprint = a.fingerprint tokenHash) :
    ∃ width height, Describes tokenHash id tenant a.upload.metadata width height r ∧ r.bytes = a.bytes := by
  obtain ⟨m, width, height, hm⟩ := h
  have hsame := hinj (hm.fingerprint.symm.trans heq)
  obtain ⟨rfl, hbytes, -, -⟩ := fingerprinted_inj (Json.stringify_injective hsame)
  exact ⟨width, height, hm, hbytes⟩

theorem change_refl {fresh : ℕ} : Change tokenHash limits free id fresh d none d := .other rfl rfl rfl

variable (free) in
theorem Reserves.change (hinj : Function.Injective tokenHash) {admitted : ℤ} {fenced : Bool}
    (hreceipts : ∀ o r, d.receipts.find o = some r → Described tokenHash id d.tenantId r)
    (h : Reserves tokenHash digest limits options a admitted fenced d d') (hid : a.device = id)
    (hdigest : digest a.upload.body = a.upload.metadata.sha256) (hfree : fenced = false → free a.key) :
    Change tokenHash limits free id a.lease d none d' := by
  obtain ⟨htenant, hprior, hroom, hunfenced, rfl⟩ := h
  cases hr : d.receipts.find a.observation with
  | none =>
      refine .create (r := reservation tokenHash digest options a admitted none) hr rfl ?_ hroom ?_
      · refine ⟨a.upload.metadata, a.width, a.height, rfl, hid, rfl, hdigest, ?_, ?_, ?_⟩
        · intro i hi
          obtain rfl := Option.some.inj hi
          rw [htenant]
          rfl
        · simp [reservation]
        · intro i g hi hg
          obtain rfl := Option.some.inj hi
          exact absurd hg (by simp)
      · intro i hi
        obtain rfl := Option.some.inj hi
        exact hfree (hunfenced hr)
  | some r =>
      obtain ⟨hfingerprint, hopen⟩ := hprior r hr
      obtain ⟨_, _, -, hbytes⟩ := (hreceipts _ r hr).attempt hinj hfingerprint
      have hkey := Table.find_key hr
      rw [← hkey] at hr hroom
      rw [← hbytes] at hroom
      exact .renew hr hopen hroom

theorem Finalizes.change (hinj : Function.Injective tokenHash) {object : StoredObject} {received : ℤ}
    {x : Ack} {r : Receipt} {lease : Lease} {fresh : ℕ}
    (hreceipts : ∀ o r, d.receipts.find o = some r → Described tokenHash id d.tenantId r)
    (h : Finalizes tokenHash a object received d x d' r lease) :
    Change tokenHash limits free id fresh d
      (some ⟨id, a.observation, dayOf received, a.bytes, a.lease, received⟩) d' := by
  obtain ⟨hr, hstate, hfingerprint, hholder, hunexpired, hday, -, rfl⟩ := h
  obtain ⟨_, _, -, hbytes⟩ := (hreceipts _ r hr).attempt hinj hfingerprint
  have hkey := Table.find_key hr
  rw [← hkey] at hr ⊢
  rw [← hday, ← hholder, ← hbytes]
  exact .store hr hstate hunexpired

theorem Claims.change {observation : Text} {lease : ℕ} {time : ℤ} {swept : Swept (Option Claim)}
    (h : Claims limits id observation lease time d swept) :
    Change tokenHash limits free id lease d none swept.device := by
  cases h with
  | left => exact change_refl
  | expired hr _ =>
      rw [← Table.find_key hr] at hr
      exact .expire hr
  | claimed hr _ hopen hquota =>
      have hkey := Table.find_key hr
      rw [← hkey] at hr hquota
      exact .renew hr hopen hquota

theorem Settles.change {c : Claim} {object : Option StoredObject} {time : ℤ} {swept : Swept (Option ℕ)}
    {fresh : ℕ} (h : Settles limits c object time d swept) : Change tokenHash limits free c.device fresh d
      (swept.value.map fun bytes => ⟨c.device, c.observation, dayOf time, bytes, c.lease, time⟩)
      swept.device := by
  cases h with
  | left => exact change_refl
  | expired hr _ =>
      rw [← Table.find_key hr] at hr
      exact .expire hr
  | failed hr hstate _ =>
      rw [← Table.find_key hr] at hr
      exact .fail hr hstate
  | stored hr _ hstate hlease htime _ _ _ _ hday =>
      have hkey := Table.find_key hr
      rw [← hkey] at hr
      rw [← hkey, ← hlease, ← hday]
      exact .store hr hstate htime

end

end Albusforge.Observations
