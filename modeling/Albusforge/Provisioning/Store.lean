import Albusforge.Lib.Checks
import Albusforge.Lib.Rows
import Albusforge.Cloudlink.Ingest

/-!
# The provisioning store

`apps/gateway/src/device-provisioning-store.ts` over `telemetry.devices` and
`telemetry.device_provisionings` (migration `0007_device_provisioning.sql`). Each of its requests is one
transaction that locks the build, the device and the provisioning row, in this order, before it reads
what it decides by; two claims with one request identifier wait for each other as well. So a transaction
is one step of the rows, and one that throws leaves them as they were.

What a transaction reads of other tables, its clock, its random values and how its session stands are
given to it (`Context`). SHA-256 and the cipher are not part of the repository's own code.
-/

namespace Albusforge.Provisioning

open Lib Lib.Json Cloudlink

/-! ## Rows -/

structure SealedCredential where
  keyId : Text
  nonce : Text
  ciphertext : Text
  tag : Text
  deriving DecidableEq

structure CredentialBinding where
  deviceId : Text
  tenantId : Text
  buildId : Text
  planVersion : ℕ
  handoffVersion : ℕ
  deriving DecidableEq

/-- `reissue_request_id`, `reissue_from_version` -/
structure Reissue where
  requestId : Text
  fromVersion : ℕ
  deriving DecidableEq

/-- A row of `telemetry.device_provisionings`. -/
structure ProvisioningRow where
  deviceId : Text
  tenantId : Text
  buildId : Text
  planVersion : ℕ
  codeVersion : ℕ
  claimRequestId : Text
  createdAt : ℤ
  manifestDigest : Text
  ingestUrl : Text
  credentialVersion : ℕ
  seqStart : ℤ
  handoffUserId : Option Text
  handoffSessionRoot : Option Text
  handoffExpiresAt : ℤ
  handoffConsumedAt : Option ℤ
  handoff : Option SealedCredential
  reissue : Option Reissue

section Records

variable (ν : Type)

/-- What a `SensorCapability` has of its kind. -/
inductive CapabilityKind where
  | image (maxBytes maxWidth maxHeight : ℤ)
  | measurement (channels : Channels ν)

/-- `SensorCapability`. The kind tells the schema. -/
structure SensorCapability where
  id : Text
  profileId : Text
  profileVersion : ℤ
  enabled : Bool
  required : Bool
  intervalS : ℤ
  kind : CapabilityKind ν

/-- What `loadProvisioningAuthority` returns. -/
structure Authority where
  channels : Channels ν
  capabilities : List (SensorCapability ν)
  nextS : ℤ
  manifestDigest : Text
  profileId : Text
  runtime : Text

/-- What a `DeviceConfigV2` has beside a `DeviceConfigV1`. -/
structure Extension where
  capabilities : List (SensorCapability ν)
  observationUrl : Text

/-- `DeviceConfig`. Its `v` is 2 where there is an extension. -/
structure DeviceConfig where
  deviceId : Text
  token : Text
  ingestUrl : Text
  seqStart : ℤ
  profileId : Text
  runtime : Text
  channels : Channels ν
  buildId : Text
  planVersion : ℕ
  codeVersion : ℕ
  manifestDigest : Text
  extension : Option (Extension ν)

structure State where
  tables : Text → DeviceTables ν
  provisionings : Table ProvisioningRow.deviceId

structure Context where
  /-- `SELECT id FROM builds.builds WHERE id=$1 AND tenant_id=$2` -/
  builds : Text → Text → Bool
  authority : Except Rejection (Authority ν)
  /-- `statement_timestamp()` where the rows are read. -/
  checkedAt : ℤ
  writtenAt : ℤ
  live : ℕ → Bool
  /-- `randomUUID()` -/
  deviceId : Text
  /-- `randomBytes(32)` -/
  token : Text
  nonce : Text

end Records

/-- `ProvisioningSession` -/
structure Session where
  tenantId : Text
  userId : Text
  rootSessionId : Text

/-- `DeviceClaimRequest` -/
structure ClaimRequest where
  buildId : Text
  planVersion : ℕ
  codeVersion : ℕ
  requestId : Text

inductive HandoffState
  | ready
  | downloaded
  | expired
  | revoked
  deriving DecidableEq

/-- `DeviceProvisioning` -/
structure Status where
  deviceId : Text
  buildId : Text
  planVersion : ℕ
  codeVersion : ℕ
  credentialVersion : ℕ
  createdAt : ℤ
  handoffExpiresAt : ℤ
  state : HandoffState
  handoffAvailable : Bool

/-! ## Errors -/

def notFound : Rejection := ⟨404, js "NOT_FOUND"⟩
def unauthorized : Rejection := ⟨401, js "UNAUTHORIZED"⟩
def mismatch : Rejection := ⟨409, js "CONFIGURATION_CHANGED"⟩
def provisioningUnavailable : Rejection := ⟨503, js "PROVISIONING_UNAVAILABLE"⟩
def deviceRevoked : Rejection := ⟨409, js "DEVICE_REVOKED"⟩
def handoffOwnerRequired : Rejection := ⟨403, js "HANDOFF_OWNER_REQUIRED"⟩
def handoffUnavailable : Rejection := ⟨410, js "HANDOFF_UNAVAILABLE"⟩
def identityExhausted : Rejection := ⟨409, js "IDENTITY_EXHAUSTED"⟩
/-- Whatever is thrown that is no `HttpError`: a constraint of the tables, or the cipher. -/
def internalError : Rejection := ⟨500, js "INTERNAL"⟩

/-! ## What every request does -/

def status (p : ProvisioningRow) (revoked : Bool) (checkedAt : ℤ) (x : Session) : Status where
  deviceId := p.deviceId
  buildId := p.buildId
  planVersion := p.planVersion
  codeVersion := p.codeVersion
  credentialVersion := p.credentialVersion
  createdAt := p.createdAt
  handoffExpiresAt := p.handoffExpiresAt
  state := if revoked then .revoked else if p.handoffConsumedAt.isSome then .downloaded
    else if p.handoffExpiresAt ≤ checkedAt then .expired else .ready
  handoffAvailable := !revoked && p.handoffConsumedAt.isNone && checkedAt < p.handoffExpiresAt &&
    p.handoff.isSome && p.handoffUserId = some x.userId && p.handoffSessionRoot = some x.rootSessionId

def binding (p : ProvisioningRow) (tenantId : Text) : CredentialBinding :=
  ⟨p.deviceId, tenantId, p.buildId, p.planVersion, p.credentialVersion⟩

/-- `2147483647` -/
def maxInteger : ℕ := 2147483647

/-- `interval '10 minutes'` -/
def handoffMs : ℤ := 600000

/-- `ingest_url.replace(/\/ingest\/v1$/, ...)` -/
def observationUrl (ingestUrl deviceId : Text) : Text :=
  let base := ingestUrl.take (ingestUrl.length - 10)
  if ingestUrl.drop (ingestUrl.length - 10) = js "/ingest/v1" then
    base ++ js "/ingest/v2/devices/" ++ deviceId ++ js "/observations"
  else ingestUrl

section

variable {ν : Type}

def newDevice (tokenHash : Text) (a : Authority ν) : Device ν where
  tokenHash := tokenHash
  revoked := false
  channels := a.channels
  nextS := a.nextS
  lastSeenAt := none
  lastSeq := none
  status := none

def State.setDevice (s : State ν) (id : Text) (d : Device ν) : State ν :=
  { s with tables := Function.update s.tables id { s.tables id with device := some d } }

def State.setRow (s : State ν) (p : ProvisioningRow) : State ν :=
  { s with provisionings := s.provisionings.put p }

def locked (c : Context ν) (tenantId deviceId : Text) (s : State ν) :
    Except Rejection (ProvisioningRow × Device ν) := do
  let p ← present ((s.provisionings.find deviceId).filter fun p => p.tenantId = tenantId) notFound
  require (c.builds p.buildId tenantId) notFound
  let d ← present (s.tables deviceId).device notFound
  pure (p, d)

variable (hash : Text → Text) (sealCredential : Text → Text → CredentialBinding → Option SealedCredential)
  (openCredential : SealedCredential → CredentialBinding → Option Text)
  (accepts : DeviceConfig ν → Bool) (ingestUrl : Option Text)

/-! ## Claim -/

def State.ofPlan (s : State ν) (tenantId : Text) (q : ClaimRequest) : Option ProvisioningRow :=
  s.provisionings.rows.find? fun p =>
    p.tenantId = tenantId ∧ p.buildId = q.buildId ∧ p.planVersion = q.planVersion

def State.ofRequest (s : State ν) (tenantId requestId : Text) : Option ProvisioningRow :=
  s.provisionings.rows.find? fun p => p.tenantId = tenantId ∧ p.claimRequestId = requestId

def State.admits (s : State ν) (p : ProvisioningRow) : Bool :=
  (s.tables p.deviceId).device.isNone && s.provisionings.rows.all fun r =>
    r.deviceId ≠ p.deviceId && !(r.buildId = p.buildId && r.planVersion = p.planVersion) &&
      !(r.tenantId = p.tenantId && r.claimRequestId = p.claimRequestId)

def claimed (c : Context ν) (x : Session) (q : ClaimRequest) (a : Authority ν) (url : Text)
    (handoff : SealedCredential) : ProvisioningRow where
  deviceId := c.deviceId
  tenantId := x.tenantId
  buildId := q.buildId
  planVersion := q.planVersion
  codeVersion := q.codeVersion
  claimRequestId := q.requestId
  createdAt := c.writtenAt
  manifestDigest := a.manifestDigest
  ingestUrl := url
  credentialVersion := 1
  seqStart := 0
  handoffUserId := some x.userId
  handoffSessionRoot := some x.rootSessionId
  handoffExpiresAt := c.writtenAt + handoffMs
  handoffConsumedAt := none
  handoff := some handoff
  reissue := none

/-- `claim`: what it answers, and whether the row is new. -/
def claim (c : Context ν) (x : Session) (q : ClaimRequest) (s : State ν) :
    Except Rejection (Status × Bool × State ν) := do
  require (c.builds q.buildId x.tenantId) notFound
  require ((s.ofRequest x.tenantId q.requestId).all fun r =>
    r.buildId = q.buildId ∧ r.planVersion = q.planVersion ∧ r.codeVersion = q.codeVersion) mismatch
  match s.ofPlan x.tenantId q with
  | some existing => do
      let (p, d) ← locked c x.tenantId existing.deviceId s
      require (p.codeVersion = q.codeVersion) mismatch
      require (c.live 0) unauthorized
      require (c.live 1) unauthorized
      pure (status p d.revoked c.checkedAt x, false, s)
  | none => do
      let a ← c.authority
      let url ← present ingestUrl provisioningUnavailable
      let handoff ← present
        (sealCredential c.nonce c.token ⟨c.deviceId, x.tenantId, q.buildId, q.planVersion, 1⟩) internalError
      require (c.live 0) unauthorized
      let p := claimed c x q a url handoff
      require (s.admits p) internalError
      require (c.live 1) unauthorized
      pure (status p false c.checkedAt x, true, (s.setDevice c.deviceId (newDevice (hash c.token) a)).setRow p)

/-! ## Download -/

def configuration (p : ProvisioningRow) (a : Authority ν) (token : Text) : DeviceConfig ν where
  deviceId := p.deviceId
  token := token
  ingestUrl := p.ingestUrl
  seqStart := p.seqStart
  profileId := a.profileId
  runtime := a.runtime
  channels := a.channels
  buildId := p.buildId
  planVersion := p.planVersion
  codeVersion := p.codeVersion
  manifestDigest := p.manifestDigest
  extension := if a.capabilities = [] then none
    else some ⟨a.capabilities, observationUrl p.ingestUrl p.deviceId⟩

def download (c : Context ν) (x : Session) (deviceId : Text) (expectedVersion : ℕ) (s : State ν) :
    Except Rejection (DeviceConfig ν × State ν) := do
  let (p, d) ← locked c x.tenantId deviceId s
  require (c.live 0) unauthorized
  require (p.credentialVersion = expectedVersion) mismatch
  require (d.revoked = false) deviceRevoked
  require (p.handoffUserId = some x.userId ∧ p.handoffSessionRoot = some x.rootSessionId) handoffOwnerRequired
  require (p.handoffConsumedAt = none ∧ c.checkedAt < p.handoffExpiresAt) handoffUnavailable
  let handoff ← present p.handoff handoffUnavailable
  let a ← c.authority
  require (a.manifestDigest = p.manifestDigest) mismatch
  require (ingestUrl.isSome = true) handoffUnavailable
  let token ← present (openCredential handoff (binding p x.tenantId)) handoffUnavailable
  require (hash token = d.tokenHash) handoffUnavailable
  let config := configuration p a token
  require (accepts config = true) handoffUnavailable
  require (c.live 1) unauthorized
  require (c.writtenAt < p.handoffExpiresAt) handoffUnavailable
  require (c.live 2) unauthorized
  pure (config, s.setRow { p with handoffConsumedAt := some c.writtenAt, handoff := none })

/-! ## Reissue -/

def reissued (c : Context ν) (x : Session) (requestId : Text) (p : ProvisioningRow) (seqStart : ℤ) (url : Text)
    (handoff : SealedCredential) : ProvisioningRow :=
  { p with
    credentialVersion := p.credentialVersion + 1
    seqStart := seqStart
    ingestUrl := url
    handoffUserId := some x.userId
    handoffSessionRoot := some x.rootSessionId
    handoffExpiresAt := c.writtenAt + handoffMs
    handoffConsumedAt := none
    handoff := some handoff
    reissue := some ⟨requestId, p.credentialVersion⟩ }

/-- `row.last_seq === null ? 0 : Number(row.last_seq) + 1` -/
def nextStart (lastSeq : Option ℤ) : ℤ := lastSeq.elim 0 fun last => last + 1

/-- `Number.isSafeInteger` -/
def isSafeInteger (n : ℤ) : Bool := -9007199254740991 ≤ n && n ≤ 9007199254740991

/-- `reissue`: what it answers, and whether a credential was issued. -/
def reissue (c : Context ν) (x : Session) (deviceId requestId : Text) (expectedVersion : ℕ) (s : State ν) :
    Except Rejection (Status × Bool × State ν) := do
  let (p, d) ← locked c x.tenantId deviceId s
  require (c.live 0) unauthorized
  require (d.revoked = false) deviceRevoked
  if p.reissue = some ⟨requestId, expectedVersion⟩ then do
    require (c.live 1) unauthorized
    pure (status p d.revoked c.checkedAt x, false, s)
  else do
    require (p.credentialVersion = expectedVersion ∧ p.reissue.all fun r => r.requestId ≠ requestId) mismatch
    let a ← c.authority
    require (a.manifestDigest = p.manifestDigest) mismatch
    let url ← present ingestUrl provisioningUnavailable
    let seqStart := nextStart d.lastSeq
    require (isSafeInteger seqStart = true ∧ p.credentialVersion + 1 ≤ maxInteger) identityExhausted
    let handoff ← present (sealCredential c.nonce c.token
      (binding { p with credentialVersion := p.credentialVersion + 1 } x.tenantId)) internalError
    require (c.live 1) unauthorized
    let next := reissued c x requestId p seqStart url handoff
    require (c.live 2) unauthorized
    pure (status next d.revoked c.checkedAt x, true,
      (s.setDevice deviceId { d with tokenHash := hash c.token }).setRow next)

/-! ## Revoke -/

def revoke (c : Context ν) (x : Session) (deviceId : Text) (expectedVersion : ℕ) (s : State ν) :
    Except Rejection (Status × State ν) := do
  let (p, d) ← locked c x.tenantId deviceId s
  require (c.live 0) unauthorized
  require (p.credentialVersion = expectedVersion) mismatch
  require (c.live 1) unauthorized
  let next := { p with handoff := none }
  pure (status next true c.checkedAt x, (s.setDevice deviceId { d with revoked := true }).setRow next)

end

end Albusforge.Provisioning
