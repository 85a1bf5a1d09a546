import Albusforge.Lib.Machine
import Albusforge.Cloudlink.ExactlyOnce
import Albusforge.Provisioning.Store

/-!
# The provisioning store, request by request

Claims, downloads, reissues and revocations of any number of sessions, and packets that devices send, in
any order. All of them hold the lock of the device's row from before they read it until they commit, and a
packet's statements run while the tables around it change (`Runs`; `step_serial` is why its transaction is
one step). What a step does to the rows is said once: it leaves them, or it makes, takes, renews or
revokes one (`step_effect`); **every row goes on** (`Effect.follows`).
-/

namespace Albusforge.Provisioning

open Lib Lib.Json Cloudlink

structure Issue where
  deviceId : Text
  version : ℕ
  tokenHash : Text
  seqStart : ℤ
  userId : Option Text
  rootSessionId : Option Text
  expiresAt : ℤ

inductive Event (ν : Type)
  | claimed (x : Session) (q : ClaimRequest) (st : Status) (issued : Option Issue)
  | downloaded (x : Session) (version : ℕ) (time : ℤ) (config : DeviceConfig ν)
  | reissued (x : Session) (deviceId requestId : Text) (fromVersion : ℕ) (st : Status)
      (issued : Option Issue)
  | revoked (deviceId : Text)
  | refused (e : Rejection)
  | answered (deviceId : Text) (o : Outcome ν)

section

variable {ν : Type}

def State.issue (s : State ν) (id : Text) : Option Issue :=
  (s.provisionings.find id).bind fun p => (s.tables id).device.map fun d =>
    ⟨id, p.credentialVersion, d.tokenHash, p.seqStart, p.handoffUserId, p.handoffSessionRoot,
      p.handoffExpiresAt⟩

def Event.issue : Event ν → Option Issue
  | .claimed _ _ _ i => i
  | .reissued _ _ _ _ _ i => i
  | _ => none

def Event.session : Event ν → Option Session
  | .claimed x _ _ _ => some x
  | .reissued x _ _ _ _ _ => some x
  | _ => none

def Event.isDownload (id : Text) (version : ℕ) : Event ν → Bool
  | .downloaded _ v _ config => config.deviceId = id && v = version
  | _ => false

def Event.issuedByClaim (buildId : Text) (planVersion : ℕ) (requestId : Text) : Event ν → Option Issue
  | .claimed _ q _ i => if q.buildId = buildId ∧ q.planVersion = planVersion ∧ q.requestId = requestId then i else none
  | _ => none

def Event.issuedByReissue (deviceId requestId : Text) (fromVersion : ℕ) : Event ν → Option Issue
  | .reissued _ id r v _ i => if id = deviceId ∧ r = requestId ∧ v = fromVersion then i else none
  | _ => none

variable [JsonNumber ν]
variable (hash : Text → Text) (sealCredential : Text → Text → CredentialBinding → Option SealedCredential)
  (openCredential : SealedCredential → CredentialBinding → Option Text)
  (accepts : DeviceConfig ν → Bool) (ingestUrl : Option Text)

inductive StoreStep : State ν → Event ν → State ν → Prop
  | claim {s s' : State ν} {c : Context ν} {x : Session} {q : ClaimRequest} {st : Status} {issued : Bool} :
      claim hash sealCredential ingestUrl c x q s = .ok (st, issued, s') →
      StoreStep s (.claimed x q st (if issued then s'.issue st.deviceId else none)) s'
  | claimRefused {s : State ν} {c : Context ν} {x : Session} {q : ClaimRequest} {e : Rejection} :
      claim hash sealCredential ingestUrl c x q s = .error e → StoreStep s (.refused e) s
  | download {s s' : State ν} {c : Context ν} {x : Session} {deviceId : Text} {version : ℕ}
      {config : DeviceConfig ν} :
      download hash openCredential accepts ingestUrl c x deviceId version s = .ok (config, s') →
      StoreStep s (.downloaded x version c.writtenAt config) s'
  | downloadRefused {s : State ν} {c : Context ν} {x : Session} {deviceId : Text} {version : ℕ}
      {e : Rejection} :
      download hash openCredential accepts ingestUrl c x deviceId version s = .error e →
      StoreStep s (.refused e) s
  | reissue {s s' : State ν} {c : Context ν} {x : Session} {deviceId requestId : Text} {version : ℕ}
      {st : Status} {issued : Bool} :
      reissue hash sealCredential ingestUrl c x deviceId requestId version s = .ok (st, issued, s') →
      StoreStep s (.reissued x deviceId requestId version st (if issued then s'.issue deviceId else none)) s'
  | reissueRefused {s : State ν} {c : Context ν} {x : Session} {deviceId requestId : Text} {version : ℕ}
      {e : Rejection} :
      reissue hash sealCredential ingestUrl c x deviceId requestId version s = .error e →
      StoreStep s (.refused e) s
  | revoke {s s' : State ν} {c : Context ν} {x : Session} {deviceId : Text} {version : ℕ} {st : Status} :
      revoke c x deviceId version s = .ok (st, s') → StoreStep s (.revoked deviceId) s'
  | revokeRefused {s : State ν} {c : Context ν} {x : Session} {deviceId : Text} {version : ℕ}
      {e : Rejection} : revoke c x deviceId version s = .error e → StoreStep s (.refused e) s
  | unauthorized {s : State ν} {e : Rejection} : StoreStep s (.refused e) s
  | ingestRefused {s : State ν} {q : Request ν} {o : Outcome ν} :
      (ingest hash q).unmatched (s.tables q.device) = some o → StoreStep s (.answered q.device o) s
  | ingest {s : State ν} {q : Request ν} {t : DeviceTables ν} {o : Outcome ν} {committed : Bool} :
      (ingest hash q).unmatched (s.tables q.device) = none →
      Runs (ingest hash q).body (s.tables q.device) t o committed →
      StoreStep s (.answered q.device o) { s with
        tables := Function.update s.tables q.device (if committed then t else s.tables q.device) }

def store : Machine (State ν) (Event ν) where
  init s := s.provisionings.rows = [] ∧
    ∀ id, (s.tables id).device = none ∧ ∀ seq, (s.tables id).packets seq = none
  step := StoreStep hash sealCredential openCredential accepts ingestUrl

end

/-! ## What a request has done -/

section

variable {ν : Type} {hash : Text → Text}
  {sealCredential : Text → Text → CredentialBinding → Option SealedCredential}
  {openCredential : SealedCredential → CredentialBinding → Option Text}
  {accepts : DeviceConfig ν → Bool} {ingestUrl : Option Text}
  {c : Context ν} {x : Session} {deviceId requestId : Text} {version : ℕ} {s s' : State ν} {st : Status}

theorem locked_ok {tenantId : Text} {p : ProvisioningRow} {d : Device ν}
    (h : locked c tenantId deviceId s = .ok (p, d)) :
    s.provisionings.find deviceId = some p ∧ (s.tables deviceId).device = some d := by
  simp only [locked, bind_ok, present_ok, require_ok, pure_ok, Prod.mk.injEq] at h
  obtain ⟨p', hp, _, -, d', hd, rfl, rfl⟩ := h
  exact ⟨(Option.filter_eq_some_iff.mp hp).1, hd⟩

inductive Claims (hash : Text → Text) (x : Session) (s : State ν) (q : ClaimRequest) (st : Status) :
    Bool → State ν → Prop
  | found : Claims hash x s q st false s
  | made {c : Context ν} {a : Authority ν} {url : Text} {handoff : SealedCredential} :
      s.admits (claimed c x q a url handoff) = true → st.deviceId = c.deviceId →
      Claims hash x s q st true
        ((s.setDevice c.deviceId (newDevice (hash c.token) a)).setRow (claimed c x q a url handoff))

theorem claim_ok {q : ClaimRequest} {issued : Bool}
    (h : claim hash sealCredential ingestUrl c x q s = .ok (st, issued, s')) :
    Claims hash x s q st issued s' := by
  simp only [claim, bind_ok, require_ok] at h
  obtain ⟨_, -, _, -, h⟩ := h
  split at h
  · simp only [bind_ok, require_ok, pure_ok, Prod.mk.injEq] at h
    obtain ⟨_, -, _, -, _, -, _, -, -, rfl, rfl⟩ := h
    exact .found
  · simp only [bind_ok, require_ok, present_ok, pure_ok, Prod.mk.injEq] at h
    obtain ⟨a, -, url, -, handoff, -, _, -, _, hadmits, _, -, rfl, rfl, rfl⟩ := h
    exact .made hadmits rfl

structure Downloads (hash : Text → Text) (c : Context ν) (x : Session) (deviceId : Text) (version : ℕ)
    (s : State ν) (config : DeviceConfig ν) (s' : State ν) (p : ProvisioningRow) (d : Device ν) : Prop where
  row : s.provisionings.find deviceId = some p
  device : (s.tables deviceId).device = some d
  version : p.credentialVersion = version
  live : d.revoked = false
  user : p.handoffUserId = some x.userId
  root : p.handoffSessionRoot = some x.rootSessionId
  unconsumed : p.handoffConsumedAt = none
  unexpired : c.writtenAt < p.handoffExpiresAt
  token : hash config.token = d.tokenHash
  name : config.deviceId = deviceId
  seqStart : config.seqStart = p.seqStart
  eq : s' = s.setRow { p with handoffConsumedAt := some c.writtenAt, handoff := none }

theorem download_ok {config : DeviceConfig ν}
    (h : download hash openCredential accepts ingestUrl c x deviceId version s = .ok (config, s')) :
    ∃ p d, Downloads hash c x deviceId version s config s' p d := by
  simp only [download, bind_ok, require_ok, present_ok, pure_ok, Prod.mk.injEq] at h
  obtain ⟨⟨p, d⟩, hlocked, _, -, _, hversion, _, hlive, _, ⟨huser, hroot⟩, _, ⟨hconsumed, -⟩, _, -, a, -,
    _, -, _, -, token, -, _, htoken, _, -, _, -, _, hunexpired, _, -, rfl, rfl⟩ := h
  obtain ⟨hp, hd⟩ := locked_ok hlocked
  have hname : p.deviceId = deviceId := Table.find_key hp
  exact ⟨p, d, hp, hd, hversion, hlive, huser, hroot, hconsumed, hunexpired, htoken, hname, rfl, rfl⟩

inductive Reissues (hash : Text → Text) (x : Session) (deviceId : Text) (version : ℕ) (s : State ν) :
    Bool → State ν → Prop
  | retried {p : ProvisioningRow} {d : Device ν} : s.provisionings.find deviceId = some p →
      (s.tables deviceId).device = some d → d.revoked = false → Reissues hash x deviceId version s false s
  | made {c : Context ν} {requestId : Text} {p : ProvisioningRow} {d : Device ν} {url : Text}
      {handoff : SealedCredential} : s.provisionings.find deviceId = some p →
      (s.tables deviceId).device = some d → d.revoked = false → p.credentialVersion = version →
      Reissues hash x deviceId version s true
        ((s.setDevice deviceId { d with tokenHash := hash c.token }).setRow
          (reissued c x requestId p (nextStart d.lastSeq) url handoff))

theorem reissue_ok {issued : Bool}
    (h : reissue hash sealCredential ingestUrl c x deviceId requestId version s = .ok (st, issued, s')) :
    Reissues hash x deviceId version s issued s' := by
  simp only [reissue, bind_ok, require_ok] at h
  obtain ⟨⟨p, d⟩, hlocked, _, -, _, hlive, h⟩ := h
  obtain ⟨hp, hd⟩ := locked_ok hlocked
  split at h
  · simp only [bind_ok, require_ok, pure_ok, Prod.mk.injEq] at h
    obtain ⟨_, -, -, rfl, rfl⟩ := h
    exact .retried hp hd hlive
  · simp only [bind_ok, require_ok, present_ok, pure_ok, Prod.mk.injEq] at h
    obtain ⟨_, ⟨hversion, -⟩, a, -, _, -, url, -, _, -, handoff, -, _, -, _, -, -, rfl, rfl⟩ := h
    exact .made hp hd hlive hversion

theorem revoke_ok (h : revoke c x deviceId version s = .ok (st, s')) :
    ∃ p d, s.provisionings.find deviceId = some p ∧ (s.tables deviceId).device = some d ∧
      s' = (s.setDevice deviceId { d with revoked := true }).setRow { p with handoff := none } := by
  simp only [revoke, bind_ok, require_ok, pure_ok, Prod.mk.injEq] at h
  obtain ⟨⟨p, d⟩, hlocked, _, -, _, -, _, -, -, rfl⟩ := h
  obtain ⟨hp, hd⟩ := locked_ok hlocked
  exact ⟨p, d, hp, hd, rfl⟩

/-! ## What a step leaves of a row -/

structure SameDevice (d d' : Device ν) : Prop where
  tokenHash : d'.tokenHash = d.tokenHash
  revoked : d'.revoked = d.revoked

structure Follows (p : ProvisioningRow) (d : Device ν) (p' : ProvisioningRow) (d' : Device ν) : Prop where
  plan : p'.buildId = p.buildId ∧ p'.planVersion = p.planVersion
  revoked : d.revoked = true → d'.revoked = true
  version : p.credentialVersion ≤ p'.credentialVersion
  same : p'.credentialVersion = p.credentialVersion → d'.tokenHash = d.tokenHash ∧
    p'.seqStart = p.seqStart ∧ p'.handoffUserId = p.handoffUserId ∧
    p'.handoffSessionRoot = p.handoffSessionRoot ∧ p'.handoffExpiresAt = p.handoffExpiresAt ∧
    (p.handoffConsumedAt ≠ none → p'.handoffConsumedAt ≠ none)

theorem SameDevice.follows {d d' : Device ν} (h : SameDevice d d') (p : ProvisioningRow) : Follows p d p d' :=
  ⟨⟨rfl, rfl⟩, fun hr => h.revoked.trans hr, le_rfl, fun _ => ⟨h.tokenHash, rfl, rfl, rfl, rfl, fun hc => hc⟩⟩

structure Sets (s : State ν) (id : Text) (p' : ProvisioningRow) (d' : Device ν) (s' : State ν) : Prop where
  row : s'.provisionings.find id = some p'
  device : (s'.tables id).device = some d'
  rows : ∀ id', id' ≠ id → s'.provisionings.find id' = s.provisionings.find id'
  devices : ∀ id', id' ≠ id → (s'.tables id').device = (s.tables id').device

theorem set_sets (p' : ProvisioningRow) (d' : Device ν) (hkey : p'.deviceId = deviceId) :
    Sets s deviceId p' d' ((s.setDevice deviceId d').setRow p') := by
  refine ⟨Table.find_put_key hkey, by simp [State.setRow, State.setDevice], ?_, ?_⟩
  · intro id hid
    exact Table.find_put_of_ne (hkey ▸ hid)
  · intro id hid
    simp [State.setRow, State.setDevice, Function.update_of_ne hid]

theorem setRow_sets {p' : ProvisioningRow} {d : Device ν} (hkey : p'.deviceId = deviceId)
    (hd : (s.tables deviceId).device = some d) : Sets s deviceId p' d (s.setRow p') :=
  ⟨Table.find_put_key hkey, hd, fun _ hid => Table.find_put_of_ne (hkey ▸ hid), fun _ _ => rfl⟩

theorem admits_ok {p : ProvisioningRow} (h : s.admits p = true) : (s.tables p.deviceId).device = none ∧
    ∀ r ∈ s.provisionings.rows, r.deviceId ≠ p.deviceId ∧
      ¬ (r.buildId = p.buildId ∧ r.planVersion = p.planVersion) := by
  simp only [State.admits, Bool.and_eq_true, Option.isNone_iff_eq_none, List.all_eq_true,
    decide_eq_true_eq] at h
  refine ⟨h.1, ?_⟩
  intro r hr
  have hrow := h.2 r hr
  have hplan : ¬ (r.buildId = p.buildId ∧ r.planVersion = p.planVersion) := by
    exact not_and_or.mpr (by simpa using hrow.1.2)
  exact ⟨hrow.1.1, hplan⟩

inductive Effect (s : State ν) : Event ν → State ν → Prop
  | quiet {e : Event ν} {s' : State ν} : e.issue = none → (∀ id v, e.isDownload id v = false) →
      (∀ id, e ≠ .revoked id) → s'.provisionings = s.provisionings →
      (∀ id d, (s.tables id).device = some d → ∃ d', (s'.tables id).device = some d' ∧ SameDevice d d') →
      Effect s e s'
  | make {x : Session} {q : ClaimRequest} {st : Status} {id : Text} {p : ProvisioningRow} {d : Device ν}
      {i : Issue} {s' : State ν} : Sets s id p d s' → s'.issue id = some i →
      s.provisionings.find id = none → (s.tables id).device = none →
      (∀ id' r, s.provisionings.find id' = some r → ¬ (r.buildId = p.buildId ∧ r.planVersion = p.planVersion)) →
      p.buildId = q.buildId → p.planVersion = q.planVersion →
      i.userId = some x.userId ∧ i.rootSessionId = some x.rootSessionId →
      Effect s (.claimed x q st (some i)) s'
  | take {x : Session} {time : ℤ} {config : DeviceConfig ν} {p p' : ProvisioningRow} {d : Device ν}
      {s' : State ν} : Sets s config.deviceId p' d s' → s.provisionings.find config.deviceId = some p →
      (s.tables config.deviceId).device = some d → Follows p d p' d →
      p'.credentialVersion = p.credentialVersion → p.handoffConsumedAt = none →
      p'.handoffConsumedAt ≠ none → Effect s (.downloaded x p.credentialVersion time config) s'
  | renew {x : Session} {id requestId : Text} {st : Status} {p p' : ProvisioningRow} {d d' : Device ν}
      {i : Issue} {s' : State ν} : Sets s id p' d' s' → s'.issue id = some i →
      s.provisionings.find id = some p → (s.tables id).device = some d → Follows p d p' d' →
      p'.credentialVersion = p.credentialVersion + 1 → p'.seqStart = nextStart d.lastSeq →
      i.userId = some x.userId ∧ i.rootSessionId = some x.rootSessionId →
      Effect s (.reissued x id requestId p.credentialVersion st (some i)) s'
  | revoke {id : Text} {p p' : ProvisioningRow} {d d' : Device ν} {s' : State ν} : Sets s id p' d' s' →
      s.provisionings.find id = some p → (s.tables id).device = some d → Follows p d p' d' →
      p'.credentialVersion = p.credentialVersion → d'.revoked = true → Effect s (.revoked id) s'

theorem Sets.issue {p : ProvisioningRow} {d : Device ν} (h : Sets s deviceId p d s') : s'.issue deviceId =
    some ⟨deviceId, p.credentialVersion, d.tokenHash, p.seqStart, p.handoffUserId, p.handoffSessionRoot,
      p.handoffExpiresAt⟩ := by
  simp [State.issue, h.row, h.device]

theorem quiet_same {e : Event ν} (hissue : e.issue = none) (hdownload : ∀ id v, e.isDownload id v = false)
    (hrevoked : ∀ id, e ≠ .revoked id) : Effect s e s :=
  .quiet hissue hdownload hrevoked rfl fun _ d hd => ⟨d, hd, rfl, rfl⟩

theorem Sets.other {p p' : ProvisioningRow} {d d' : Device ν} (h : Sets s deviceId p' d' s') {id : Text}
    (hid : id ≠ deviceId) (hp : s.provisionings.find id = some p) (hd : (s.tables id).device = some d) :
    s'.provisionings.find id = some p ∧ (s'.tables id).device = some d :=
  ⟨(h.rows id hid).trans hp, (h.devices id hid).trans hd⟩

theorem Follows.refl (p : ProvisioningRow) (d : Device ν) : Follows p d p d := (SameDevice.mk rfl rfl).follows p

theorem Sets.follows {p p' : ProvisioningRow} {d d' : Device ν} (h : Sets s deviceId p' d' s')
    (hp : s.provisionings.find deviceId = some p) (hd : (s.tables deviceId).device = some d)
    (hfollows : Follows p d p' d') {id : Text} {p₀ : ProvisioningRow} {d₀ : Device ν}
    (hp₀ : s.provisionings.find id = some p₀) (hd₀ : (s.tables id).device = some d₀) :
    ∃ p₁ d₁, s'.provisionings.find id = some p₁ ∧ (s'.tables id).device = some d₁ ∧ Follows p₀ d₀ p₁ d₁ := by
  by_cases hid : id = deviceId
  · subst hid
    obtain rfl := Option.some.inj (hp.symm.trans hp₀)
    obtain rfl := Option.some.inj (hd.symm.trans hd₀)
    exact ⟨p', d', h.row, h.device, hfollows⟩
  · obtain ⟨hrow, hdevice⟩ := h.other hid hp₀ hd₀
    exact ⟨p₀, d₀, hrow, hdevice, .refl p₀ d₀⟩

theorem Effect.follows {e : Event ν} (h : Effect s e s') {id : Text} {p : ProvisioningRow} {d : Device ν}
    (hp : s.provisionings.find id = some p) (hd : (s.tables id).device = some d) :
    ∃ p' d', s'.provisionings.find id = some p' ∧ (s'.tables id).device = some d' ∧ Follows p d p' d' := by
  cases h with
  | quiet _ _ _ hrows hdevices =>
      obtain ⟨d', hd', hsame⟩ := hdevices id d hd
      exact ⟨p, d', hrows ▸ hp, hd', hsame.follows p⟩
  | make hsets _ hnone _ _ _ _ _ =>
      obtain ⟨hrow, hdevice⟩ := hsets.other (fun hid => by simp [hid, hnone] at hp) hp hd
      exact ⟨p, d, hrow, hdevice, .refl p d⟩
  | take hsets hp₀ hd₀ hfollows _ _ _ => exact hsets.follows hp₀ hd₀ hfollows hp hd
  | renew hsets _ hp₀ hd₀ hfollows _ _ _ => exact hsets.follows hp₀ hd₀ hfollows hp hd
  | revoke hsets hp₀ hd₀ hfollows _ _ => exact hsets.follows hp₀ hd₀ hfollows hp hd

theorem Effect.found {e : Event ν} (h : Effect s e s') {id : Text} {p' : ProvisioningRow}
    (hp' : s'.provisionings.find id = some p') :
    (∃ p, s.provisionings.find id = some p) ∨
      (s.provisionings.find id = none ∧ (s.tables id).device = none ∧ (∃ d', (s'.tables id).device = some d') ∧
        (∀ id', id' ≠ id → s'.provisionings.find id' = s.provisionings.find id') ∧
        ∀ id' r, s.provisionings.find id' = some r →
          ¬ (r.buildId = p'.buildId ∧ r.planVersion = p'.planVersion)) := by
  have hset : ∀ {id₀ : Text} {p₀ p₁ : ProvisioningRow} {d₁ : Device ν}, Sets s id₀ p₁ d₁ s' →
      s.provisionings.find id₀ = some p₀ → ∃ p, s.provisionings.find id = some p := by
    intro id₀ p₀ p₁ d₁ hsets hp₀
    by_cases hid : id = id₀
    · exact ⟨p₀, hid ▸ hp₀⟩
    · exact ⟨p', (hsets.rows id hid).symm.trans hp'⟩
  cases h with
  | quiet _ _ _ hrows _ => exact Or.inl ⟨p', hrows ▸ hp'⟩
  | @make _ _ _ id₀ p₀ d₀ _ _ hsets _ hnone hdevice hplan _ _ _ =>
      by_cases hid : id = id₀
      · subst hid
        obtain rfl := Option.some.inj (hsets.row.symm.trans hp')
        exact Or.inr ⟨hnone, hdevice, ⟨d₀, hsets.device⟩, hsets.rows, hplan⟩
      · exact Or.inl ⟨p', (hsets.rows id hid).symm.trans hp'⟩
  | take hsets hp₀ _ _ _ _ _ => exact Or.inl (hset hsets hp₀)
  | renew hsets _ hp₀ _ _ _ _ _ => exact Or.inl (hset hsets hp₀)
  | revoke hsets hp₀ _ _ _ _ => exact Or.inl (hset hsets hp₀)

theorem Follows.issue {p p' : ProvisioningRow} {d d' : Device ν} {id : Text} (h : Follows p d p' d')
    (hp : s.provisionings.find id = some p) (hd : (s.tables id).device = some d)
    (hp' : s'.provisionings.find id = some p') (hd' : (s'.tables id).device = some d')
    (hversion : p'.credentialVersion = p.credentialVersion) : s'.issue id = s.issue id := by
  obtain ⟨htoken, hseq, huser, hroot, hexpires, -⟩ := h.same hversion
  simp [State.issue, hp, hd, hp', hd', hversion, htoken, hseq, huser, hroot, hexpires]

/-- **A credential is the one of before, or the one that was issued.** -/
theorem Effect.current {e : Event ν} (h : Effect s e s') {id : Text} {p : ProvisioningRow} {d : Device ν}
    (hp : s.provisionings.find id = some p) (hd : (s.tables id).device = some d) :
    s'.issue id = s.issue id ∨ ∃ i, e.issue = some i ∧ s'.issue id = some i := by
  have hset : ∀ {id₀ : Text} {p₀ p₁ : ProvisioningRow} {d₀ d₁ : Device ν}, Sets s id₀ p₁ d₁ s' →
      s.provisionings.find id₀ = some p₀ → (s.tables id₀).device = some d₀ → Follows p₀ d₀ p₁ d₁ →
      (p₁.credentialVersion = p₀.credentialVersion ∨ ∃ i, e.issue = some i ∧ s'.issue id₀ = some i) →
      s'.issue id = s.issue id ∨ ∃ i, e.issue = some i ∧ s'.issue id = some i := by
    intro id₀ p₀ p₁ d₀ d₁ hsets hp₀ hd₀ hfollows hcase
    by_cases hid : id = id₀
    · subst hid
      rcases hcase with hversion | hnew
      · exact Or.inl (hfollows.issue hp₀ hd₀ hsets.row hsets.device hversion)
      · exact Or.inr hnew
    · obtain ⟨hrow, hdevice⟩ := hsets.other hid hp hd
      exact Or.inl ((Follows.refl p d).issue hp hd hrow hdevice rfl)
  cases h with
  | quiet _ _ _ hrows hdevices =>
      obtain ⟨d', hd', hsame⟩ := hdevices id d hd
      exact Or.inl ((hsame.follows p).issue hp hd (hrows ▸ hp) hd' rfl)
  | make hsets _ hnone _ _ _ _ _ =>
      obtain ⟨hrow, hdevice⟩ := hsets.other (fun hid => by simp [hid, hnone] at hp) hp hd
      exact Or.inl ((Follows.refl p d).issue hp hd hrow hdevice rfl)
  | take hsets hp₀ hd₀ hfollows hversion _ _ => exact hset hsets hp₀ hd₀ hfollows (Or.inl hversion)
  | renew hsets hissue hp₀ hd₀ hfollows _ _ _ =>
      exact hset hsets hp₀ hd₀ hfollows (Or.inr ⟨_, rfl, hissue⟩)
  | revoke hsets hp₀ hd₀ hfollows hversion _ => exact hset hsets hp₀ hd₀ hfollows (Or.inl hversion)

theorem Effect.issued {e : Event ν} (h : Effect s e s') {i : Issue} (hi : e.issue = some i) :
    s'.issue i.deviceId = some i ∧ ∀ p, s.provisionings.find i.deviceId = some p →
      p.credentialVersion < i.version := by
  have hname : ∀ {id : Text}, s'.issue id = some i → i.deviceId = id := by
    intro id hissue
    obtain ⟨p, -, hissue⟩ := Option.bind_eq_some_iff.mp hissue
    obtain ⟨d, -, rfl⟩ := Option.map_eq_some_iff.mp hissue
    rfl
  cases h with
  | quiet hnone _ _ _ _ => exact absurd (hnone.symm.trans hi) (by simp)
  | make hsets hissue hnone _ _ _ _ _ =>
      obtain rfl := Option.some.inj hi
      refine ⟨(hname hissue) ▸ hissue, ?_⟩
      intro p hp
      rw [hname hissue, hnone] at hp
      exact absurd hp (by simp)
  | @renew x id _ _ p p' d d' _ _ hsets hissue hp₀ hd₀ hfollows hversion _ _ =>
      obtain rfl := Option.some.inj hi
      refine ⟨(hname hissue) ▸ hissue, ?_⟩
      intro p₁ hp₁
      rw [hname hissue, hp₀] at hp₁
      obtain rfl := Option.some.inj hp₁
      obtain rfl := Option.some.inj (hsets.issue.symm.trans hissue)
      show p.credentialVersion < p'.credentialVersion
      omega
  | take _ _ _ _ _ _ _ => exact absurd hi (by simp [Event.issue])
  | revoke _ _ _ _ _ _ => exact absurd hi (by simp [Event.issue])

variable [JsonNumber ν]

theorem ingest_ok {q : Request ν} {t t' : DeviceTables ν} {o : Outcome ν} {committed : Bool}
    (hmatch : (ingest hash q).unmatched t = none)
    (hruns : Runs (ingest hash q).body t t' o committed) :
    (o.receipt = none ∧ (if committed then t' else t) = t) ∨
      ∃ r present p rows, o.receipt = some r ∧ t.packets r.envelope.seq = none ∧
        (if committed then t' else t) = Cloudlink.store present r.envelope r.received p rows t := by
  obtain ⟨authorization, body, received, credentialHash, e, rfl, -, hparse, -, hbody⟩ := ingest_matched hash hmatch
  rw [hbody] at hruns
  have hexit := ingestBody_runs hash hruns
  rcases hexit.all_or_nothing with ⟨hnot, hsame⟩ | ⟨present, ack, hans, -, hnone, hstore⟩
  · refine Or.inl ⟨?_, hsame⟩
    unfold Outcome.receipt
    split
    · rename_i hans
      exact absurd hans (hnot _)
    · rfl
  · refine Or.inr ⟨⟨e, received, ack⟩, present, _, _, ?_, hnone, hstore⟩
    simp [Outcome.receipt, hexit.request, hans, hparse]

theorem ingest_devices {q : Request ν} {t : DeviceTables ν} {o : Outcome ν} {committed : Bool}
    (hmatch : (ingest hash q).unmatched (s.tables q.device) = none)
    (hruns : Runs (ingest hash q).body (s.tables q.device) t o committed) (id : Text) (d : Device ν)
    (hd : (s.tables id).device = some d) :
    ∃ d', (Function.update s.tables q.device (if committed then t else s.tables q.device) id).device = some d' ∧
      SameDevice d d' := by
  by_cases hid : id = q.device
  · subst hid
    rw [Function.update_self]
    rcases ingest_ok hmatch hruns with ⟨-, hsame⟩ | ⟨r, present, p, rows, -, -, hstore⟩
    · exact ⟨d, by rw [hsame, hd], rfl, rfl⟩
    · exact ⟨d.touch r.received r.envelope.seq r.envelope.st, by rw [hstore, store_device, hd]; rfl, rfl, rfl⟩
  · exact ⟨d, by rw [Function.update_of_ne hid, hd], rfl, rfl⟩

theorem step_effect {e : Event ν}
    (h : StoreStep hash sealCredential openCredential accepts ingestUrl s e s') : Effect s e s' := by
  cases h with
  | @claim _ c x q st issued hclaim =>
      cases claim_ok hclaim with
      | found => exact quiet_same rfl (fun _ _ => rfl) (by simp)
      | @made c' a url handoff hadmits hname =>
          obtain ⟨hdevice, hrows⟩ := admits_ok hadmits
          have hsets : Sets s c'.deviceId _ _ _ := set_sets (s := s)
            (claimed c' x q a url handoff) (newDevice (hash c'.token) a) rfl
          rw [if_pos rfl, hname, hsets.issue]
          refine .make hsets hsets.issue ?_ hdevice ?_ rfl rfl ⟨rfl, rfl⟩
          · cases hfind : s.provisionings.find c'.deviceId with
            | none => rfl
            | some r => exact absurd (Table.find_key hfind) (hrows r (Table.find_mem hfind)).1
          · intro id r hr
            exact (hrows r (Table.find_mem hr)).2
  | claimRefused _ => exact quiet_same rfl (fun _ _ => rfl) (by simp)
  | @download _ c x deviceId version config hdownload =>
      obtain ⟨p, d, hp⟩ := download_ok hdownload
      obtain rfl := hp.name
      obtain rfl := hp.eq
      obtain rfl := hp.version
      have hkey : p.deviceId = config.deviceId := Table.find_key hp.row
      refine .take (setRow_sets hkey hp.device) hp.row hp.device ?_ rfl hp.unconsumed (by simp)
      exact ⟨⟨rfl, rfl⟩, fun hr => hr, le_rfl, fun _ => ⟨rfl, rfl, rfl, rfl, rfl, by simp⟩⟩
  | downloadRefused _ => exact quiet_same rfl (fun _ _ => rfl) (by simp)
  | @reissue _ c x deviceId requestId version st issued hreissue =>
      cases reissue_ok hreissue with
      | retried _ _ _ => exact quiet_same rfl (fun _ _ => rfl) (by simp)
      | @made c' requestId' p d url handoff hp hd hlive hversion =>
          subst hversion
          have hkey : p.deviceId = deviceId := Table.find_key hp
          have hsets : Sets s deviceId _ _ _ := set_sets (s := s)
            (reissued c' x requestId' p (nextStart d.lastSeq) url handoff) { d with tokenHash := hash c'.token } hkey
          rw [if_pos rfl, hsets.issue]
          refine .renew hsets hsets.issue hp hd ⟨⟨rfl, rfl⟩, fun hr => hr, Nat.le_succ _, ?_⟩ rfl rfl ⟨rfl, rfl⟩
          intro hsame
          exact absurd hsame (Nat.succ_ne_self _)
  | reissueRefused _ => exact quiet_same rfl (fun _ _ => rfl) (by simp)
  | @revoke _ c x deviceId version st hrevoke =>
      obtain ⟨p, d, hp, hd, rfl⟩ := revoke_ok hrevoke
      have hkey : p.deviceId = deviceId := Table.find_key hp
      have hsets : Sets s deviceId _ _ _ := set_sets (s := s) { p with handoff := none }
        { d with revoked := true } hkey
      refine .revoke hsets hp hd ?_ rfl rfl
      exact ⟨⟨rfl, rfl⟩, fun _ => rfl, le_rfl, fun _ => ⟨rfl, rfl, rfl, rfl, rfl, fun hc => hc⟩⟩
  | revokeRefused _ => exact quiet_same rfl (fun _ _ => rfl) (by simp)
  | unauthorized => exact quiet_same rfl (fun _ _ => rfl) (by simp)
  | ingestRefused _ => exact quiet_same rfl (fun _ _ => rfl) (by simp)
  | ingest hmatch hruns =>
      exact .quiet rfl (fun _ _ => rfl) (by simp) rfl (ingest_devices hmatch hruns)
end

end Albusforge.Provisioning
