import Albusforge.Observations.Tables

/-!
# An upload

`apps/cloudlink/src/observations.ts`, transaction by transaction: an attempt is admitted, it reserves
its receipt, and when the object is in the store it finalizes. Each transaction takes the device's row
first and holds it until it ends, so that it is one step of the device's rows.

`tokenHash`, SHA-256 in hex, the digest of a body and the decoder of images are not part of the
repository's own code.
-/

namespace Albusforge.Observations

open Lib Lib.Json Cloudlink

structure Upload where
  metadata : Metadata
  credentialHash : Text
  contentLength : Option Text
  body : List UInt8

/-- What `authorize` returns: the device's tenant, and the limits on its images. -/
structure Granted where
  tenantId : Text
  tenant_uuid : isUuid tenantId = true
  maxBytes : ℕ
  maxWidth : ℕ
  maxHeight : ℕ

structure Attempt where
  upload : Upload
  granted : Granted
  width : ℕ
  height : ℕ
  lease : ℕ

/-- `ObservationAck`, but for its `state`. -/
structure Ack where
  observationId : Text
  sha256 : Text
  bytes : ℕ
  receivedAt : ℤ
  deriving DecidableEq

structure UploadOptions where
  maxAttemptsPerMinute : ℕ
  leaseMs : ℤ

def unauthorized : Rejection := ⟨401, js "unauthorized"⟩
def capabilityForbidden : Rejection := ⟨403, js "capability_forbidden"⟩
def invalidConfiguration : Rejection := ⟨503, js "invalid_capability_configuration"⟩
def attemptLimit : Rejection := ⟨429, js "attempt_limit"⟩
def payloadTooLarge : Rejection := ⟨413, js "payload_too_large"⟩
def invalidImage : Rejection := ⟨422, js "invalid_image"⟩
def digestMismatch : Rejection := ⟨422, js "digest_mismatch"⟩
def ownershipChanged : Rejection := ⟨403, js "ownership_changed"⟩
def capabilityChanged : Rejection := ⟨403, js "capability_changed"⟩
def observationConflict : Rejection := ⟨409, js "observation_conflict"⟩
def observationExpired : Rejection := ⟨410, js "observation_expired"⟩
def observationPending : Rejection := ⟨503, js "observation_pending"⟩
def timestampOutOfRange : Rejection := ⟨422, js "timestamp_out_of_range"⟩
def dailyQuota : Rejection := ⟨429, js "daily_quota"⟩
def objectUnavailable : Rejection := ⟨503, js "object_unavailable"⟩
def objectConflict : Rejection := ⟨409, js "object_conflict"⟩
def reservationLost : Rejection := ⟨503, js "reservation_lost"⟩
def reservationDayChanged : Rejection := ⟨503, js "reservation_day_changed"⟩

/-! ## Admission -/

def limitOf (maximum : ℤ) (x : Option ℤ) : Option ℕ :=
  x.bind fun n => if 1 ≤ n ∧ n ≤ maximum then some n.toNat else none

def authorize (m : Metadata) (credentialHash : Text) (device : Device) : Except Rejection Granted :=
  if device.tokenHash ≠ credentialHash ∨ device.revoked then .error unauthorized
  else match device.capabilities m.capabilityId with
    | none => .error capabilityForbidden
    | some c =>
        if !c.enabled ∨ c.kind ≠ js "image" ∨ c.payloadSchema ≠ js "jpeg.v1" then
          .error capabilityForbidden
        else match limitOf 1048576 c.maxBytes, limitOf 4096 c.maxWidth, limitOf 4096 c.maxHeight with
          | some bytes, some width, some height =>
              .ok ⟨device.tenantId, device.tenant_uuid, bytes, width, height⟩
          | _, _, _ => .error invalidConfiguration

/-- `date_trunc('minute', time)` -/
def minuteOf (time : ℤ) : ℤ := time - time % 60000

/-- `INSERT INTO telemetry.observation_attempts ... ON CONFLICT DO UPDATE` -/
def countAttempt (time : ℤ) : Option Attempts → Attempts
  | some a => if a.windowStart = minuteOf time then { a with attempts := a.attempts + 1 }
      else ⟨minuteOf time, 1⟩
  | none => ⟨minuteOf time, 1⟩

def onRequest (options : UploadOptions) (q : Upload) (time : ℤ) (device : Device) :
    Except Rejection Granted × Device :=
  match authorize q.metadata q.credentialHash device with
  | .error e => (.error e, device)
  | .ok granted =>
      let a := countAttempt time device.attempts
      let tooLong := q.contentLength.any fun l =>
        l = [] || !l.all isDigit || granted.maxBytes < parseDecimal l
      (if options.maxAttemptsPerMinute < a.attempts then .error attemptLimit
        else if tooLong then .error payloadTooLarge else .ok granted,
        { device with attempts := some a })

section

variable (tokenHash : Text → Text) (digest : List UInt8 → Text)
  (validateJpeg : List UInt8 → ℕ → ℕ → Option (ℕ × ℕ))

def validate (q : Upload) (granted : Granted) : Except Rejection (ℕ × ℕ) :=
  if q.body = [] then .error invalidImage
  else if granted.maxBytes < q.body.length then .error payloadTooLarge
  else if digest q.body ≠ q.metadata.sha256 then .error digestMismatch
  else (validateJpeg q.body granted.maxWidth granted.maxHeight).elim (.error invalidImage) .ok

/-! ## Reservation -/

namespace Attempt

def device (a : Attempt) : Text := uuidOf a.upload.metadata.deviceId

def observation (a : Attempt) : Text := uuidOf a.upload.metadata.observationId

def bytes (a : Attempt) : ℕ := a.upload.body.length

def key (a : Attempt) : Text :=
  objectKey a.granted.tenantId a.upload.metadata.deviceId a.upload.metadata.observationId

def fingerprint (a : Attempt) : Text :=
  tokenHash (stringify (fingerprinted a.upload.metadata a.bytes a.width a.height))

/-- `metadata.capturedAt * 1000` -/
def captured (a : Attempt) : ℤ := a.upload.metadata.capturedAt * 1000

end Attempt

def ack (m : Metadata) (r : Receipt) (receivedAt : ℤ) : Ack :=
  ⟨m.observationId, r.sha256, r.bytes, receivedAt⟩

def current (a : Attempt) (device : Device) : Except Rejection Unit :=
  match authorize a.upload.metadata a.upload.credentialHash device with
  | .error e => .error e
  | .ok now =>
      if now.tenantId ≠ a.granted.tenantId then .error ownershipChanged
      else if now.maxBytes < a.bytes ∨ now.maxWidth < a.width ∨ now.maxHeight < a.height then
        .error capabilityChanged
      else .ok ()

def answerPrior (a : Attempt) (admitted : ℤ) (r : Receipt) : Except Rejection (Option Ack) :=
  if r.fingerprint ≠ a.fingerprint tokenHash then .error observationConflict
  else match r.state with
    | .expired _ => .error observationExpired
    | .stored receivedAt =>
        if r.expiresAt ≤ admitted then .error observationExpired
        else .ok (some (ack a.upload.metadata r receivedAt))
    | .reserved lease =>
        if r.expiresAt ≤ admitted then .error observationExpired
        else if admitted < lease.leaseUntil then .error observationPending else .ok none
    | .failed => if r.expiresAt ≤ admitted then .error observationExpired else .ok none

def reservation (options : UploadOptions) (a : Attempt) (admitted : ℤ) (prior : Option Receipt) :
    Receipt :=
  let state := ReceiptState.reserved ⟨a.lease, admitted + options.leaseMs⟩
  match prior with
  | some r => { r with
      state := state
      reservedDay := dayOf admitted
      credentialHash := some a.upload.credentialHash }
  | none =>
      { observationId := a.observation
        capabilityId := a.upload.metadata.capabilityId
        fingerprint := a.fingerprint tokenHash
        sha256 := digest a.upload.body
        bytes := a.bytes
        capturedAt := a.captured
        expiresAt := a.captured + 30 * dayMs
        state := state
        reservedDay := dayOf admitted
        credentialHash := some a.upload.credentialHash
        image := some ⟨a.key, none, a.width, a.height⟩ }

inductive Reserved
  | acknowledged (ack : Ack)
  | reserved (device : Device)

/-- The transaction that reserves. `fenced` says whether there is a deletion intent for the key. -/
def reserve (limits : Limits) (options : UploadOptions) (a : Attempt) (admitted : ℤ) (fenced : Bool)
    (device : Device) : Except Rejection Reserved :=
  let prior := device.receipts.find a.observation
  match current a device with
  | .error e => .error e
  | .ok () =>
      match prior.elim (.ok none) (answerPrior tokenHash a admitted) with
      | .error e => .error e
      | .ok (some ack) => .ok (.acknowledged ack)
      | .ok none =>
          if a.captured < admitted - 7 * dayMs ∨ admitted + 300000 < a.captured then
            .error timestampOutOfRange
          else if !quota limits device a.observation a.bytes (dayOf admitted) then .error dailyQuota
          else if prior.isNone ∧ fenced then .error observationExpired
          else .ok (.reserved { device with
            receipts := device.receipts.put (reservation tokenHash digest options a admitted prior) })

/-! ## Finalization -/

def Attempt.matches (a : Attempt) (object : StoredObject) : Bool :=
  object.sha256 = digest a.upload.body && object.fingerprint = a.fingerprint tokenHash &&
    object.bytes = a.bytes

def finalize (a : Attempt) (object : StoredObject) (received : ℤ) (device : Device) :
    Except Rejection (Ack × Device) :=
  match current a device with
  | .error e => .error e
  | .ok () =>
      match device.receipts.find a.observation with
      | none => .error reservationLost
      | some r =>
          match r.state with
          | .reserved lease =>
              if r.fingerprint ≠ a.fingerprint tokenHash ∨ lease.leaseId ≠ a.lease ∨
                  lease.leaseUntil ≤ received then .error reservationLost
              else if r.reservedDay ≠ dayOf received then .error reservationDayChanged
              else .ok (ack a.upload.metadata r received,
                device.store r object.generation received a.bytes a.upload.metadata.capabilityId a.captured)
          | _ => .error reservationLost

end

end Albusforge.Observations
