import Albusforge.Observations.Upload

/-!
# Maintenance

`apps/observation-maintain/src/maintain.ts`: what a sweep does to a receipt whose lease has run out,
or that has failed, or that is too old. It takes a lease like an upload, looks for the object, and
finalizes the receipt by itself; or it lets the receipt expire, and the image's deletion is queued.
-/

namespace Albusforge.Observations

open Lib Cloudlink

structure Claim where
  device : Text
  observation : Text
  key : Text
  lease : ℕ

/-- What a transaction of a sweep does: the device's rows, the image that it deletes, and what it
returns. -/
structure Swept (α : Type) where
  device : Device
  dropped : Option Image
  value : α

def allowed (deviceId : Text) (device : Device) (r : Receipt) (i : Image) : Bool :=
  !device.revoked && r.credentialHash = some device.tokenHash &&
    objectIdentity i.objectKey = some ⟨device.tenantId, deviceId, r.observationId⟩ &&
    (device.capabilities r.capabilityId).any fun c =>
      c.enabled && c.kind = js "image" && c.payloadSchema = js "jpeg.v1" &&
        c.maxBytes.any (fun n => (r.bytes : ℤ) ≤ n) && c.maxWidth.any (fun n => (i.width : ℤ) ≤ n) &&
        c.maxHeight.any (fun n => (i.height : ℤ) ≤ n)

/-- `receipt`: the row, joined with its image. -/
def receipt (device : Device) (observation : Text) : Option (Receipt × Image) :=
  (device.receipts.find observation).bind fun r => r.image.map fun i => (r, i)

section

variable {α : Type} (device : Device) (r : Receipt) (i : Image)

def leave (value : α) : Swept α := ⟨device, none, value⟩

def sweepAway (value : α) : Swept α :=
  ⟨{ device with receipts := device.receipts.put (expire r) }, some i, value⟩

end

section

variable (limits : Limits) (deviceId : Text)

def claim (observation : Text) (lease : ℕ) (time : ℤ) (device : Device) : Swept (Option Claim) :=
  match receipt device observation with
  | none => leave device none
  | some (r, i) =>
      let again : Swept (Option Claim) :=
        if r.expiresAt ≤ time ∨ r.capturedAt < time - 7 * dayMs ∨ allowed deviceId device r i = false then
          sweepAway device r i none
        else if quota limits device observation r.bytes (dayOf time) = false then leave device none
        else
          ⟨{ device with receipts := device.receipts.put { r with
              state := .reserved ⟨lease, time + 30000⟩
              reservedDay := dayOf time } },
            none, some ⟨deviceId, observation, i.objectKey, lease⟩⟩
      match r.state with
      | .expired _ => leave device none
      | .stored _ => if r.expiresAt ≤ time then sweepAway device r i none else leave device none
      | .reserved l => if time < l.leaseUntil then leave device none else again
      | .failed => again

def settle (c : Claim) (object : Option StoredObject) (time : ℤ) (device : Device) : Swept (Option ℕ) :=
  match receipt device c.observation with
  | none => leave device none
  | some (r, i) =>
      match r.state with
      | .reserved l =>
          if l.leaseId ≠ c.lease ∨ l.leaseUntil ≤ time then leave device none
          else if r.expiresAt ≤ time ∨ allowed deviceId device r i = false then sweepAway device r i none
          else match object with
            | none =>
                ⟨{ device with receipts := device.receipts.put { r with state := .failed } }, none, none⟩
            | some o =>
                if o.sha256 ≠ r.sha256 ∨ o.fingerprint ≠ r.fingerprint ∨ o.bytes ≠ r.bytes then
                  sweepAway device r i none
                else if r.reservedDay ≠ dayOf time ∨
                    quota limits device c.observation r.bytes (dayOf time) = false then leave device none
                else
                  ⟨device.store r o.generation time r.bytes r.capabilityId r.capturedAt, none,
                    some r.bytes⟩
      | _ => leave device none

end

end Albusforge.Observations
