import Albusforge.Cloudlink.Ingest
import Albusforge.Lib.Rows

/-!
# Observations: the tables

Migrations `0008_sensor_observations.sql` and `0009_observation_maintenance.sql`, with what
`apps/cloudlink/src/observations.ts` and `apps/observation-maintain/src/maintain.ts` write into them
and read out of them. What belongs to a device is kept with it, an image with the receipt it refers
to, and the columns that the check on `state` ties together are one value. Times are milliseconds;
a day is counted from 1970-01-01.

`maintenance_checked_at`, and the times and attempts of deletion intents, only choose what a sweep
looks at and when; a sweep here may look at anything at any time.
-/

namespace Albusforge.Observations

open Lib Lib.Json Cloudlink

/-! ## Receipts -/

structure Lease where
  leaseId : ℕ
  leaseUntil : ℤ
  deriving DecidableEq

/-- `state`, with the columns it says are there. -/
inductive ReceiptState
  | reserved (lease : Lease)
  | stored (receivedAt : ℤ)
  | expired (receivedAt : Option ℤ)
  | failed
  deriving DecidableEq

/-- A row of `telemetry.observation_images`. -/
structure Image where
  objectKey : Text
  generation : Option ℕ
  width : ℕ
  height : ℕ
  deriving DecidableEq

/-- A row of `telemetry.observation_receipts`, and its image. -/
structure Receipt where
  observationId : Text
  capabilityId : Text
  fingerprint : Text
  sha256 : Text
  bytes : ℕ
  capturedAt : ℤ
  expiresAt : ℤ
  state : ReceiptState
  reservedDay : ℤ
  /-- `reservation_credential_hash` -/
  credentialHash : Option Text
  image : Option Image
  deriving DecidableEq

def Receipt.receivedAt (r : Receipt) : Option ℤ :=
  match r.state with
  | .stored t => some t
  | .expired t => t
  | .reserved _ => none
  | .failed => none

/-- A row of `telemetry.observation_usage`. -/
structure Usage where
  acceptedCount : ℕ
  acceptedBytes : ℕ
  deriving DecidableEq

/-- A row of `telemetry.observation_attempts`. -/
structure Attempts where
  windowStart : ℤ
  attempts : ℕ
  deriving DecidableEq

/-- What a row of `telemetry.device_capabilities` says of images. -/
structure ImageCapability where
  enabled : Bool
  kind : Text
  payloadSchema : Text
  maxBytes : Option ℤ
  maxWidth : Option ℤ
  maxHeight : Option ℤ

/-- A row of `telemetry.devices`, and everything that goes with it when it is deleted. -/
structure Device where
  tokenHash : Text
  tenantId : Text
  tenant_uuid : isUuid tenantId = true
  revoked : Bool
  capabilities : Text → Option ImageCapability
  receipts : Table Receipt.observationId
  usage : ℤ → Option Usage
  attempts : Option Attempts
  presence : Text → Option Presence

inductive Slot
  | unborn
  | alive (device : Device)
  | deleted

/-- A row of `telemetry.observation_deletion_intents`. -/
structure Intent where
  generation : Option ℕ
  deriving DecidableEq

structure StoredObject where
  generation : ℕ
  bytes : ℕ
  sha256 : Text
  fingerprint : Text
  deriving DecidableEq

/-! ## Names -/

/-- `z.uuidv4()` -/
def isUuidV4 (t : Text) : Bool := isUuid t && t.getD 14 0 = 52

structure Metadata where
  deviceId : Text
  observationId : Text
  capabilityId : Text
  capturedAt : ℕ
  sha256 : Text
  device_uuid : isUuid deviceId = true
  observation_uuid : isUuidV4 observationId = true

abbrev slash : ℕ := 47

/-- `tenant/${tenant_id}/device/${deviceId}/${observationId}.jpg` -/
def objectKey (tenantId deviceId observationId : Text) : Text :=
  join slash [js "tenant", tenantId, js "device", deviceId, observationId ++ js ".jpg"]

/-- `UUID_SEGMENT` -/
def isUuidSegment (t : Text) : Bool :=
  let groups := split hyphen t
  groups.map List.length = [8, 4, 4, 4, 12] && groups.all fun g => g.all isHex

/-- What `objectIdentity` finds in a key. -/
structure ObjectIdentity where
  tenant : Text
  device : Text
  observation : Text
  deriving DecidableEq

def objectIdentity (key : Text) : Option ObjectIdentity :=
  match split slash key with
  | [a, tenant, b, device, file] =>
      if a = js "tenant" ∧ b = js "device" ∧ isUuidSegment tenant = true ∧ isUuidSegment device = true ∧
          file.drop 36 = js ".jpg" ∧ isUuidSegment (file.take 36) = true then
        some ⟨uuidOf tenant, uuidOf device, uuidOf (file.take 36)⟩
      else none
  | _ => none

/-- `{ kind: "image", ...metadata, bytes, ...dimensions }` -/
def fingerprinted (m : Metadata) (bytes width height : ℕ) : Json ℕ :=
  .obj [(js "kind", .str (js "image")), (js "deviceId", .str m.deviceId),
    (js "observationId", .str m.observationId), (js "capabilityId", .str m.capabilityId),
    (js "payloadSchema", .str (js "jpeg.v1")), (js "capturedAt", .num m.capturedAt),
    (js "sha256", .str m.sha256), (js "bytes", .num bytes), (js "width", .num width),
    (js "height", .num height)]

/-! ## Statements -/

/-- The day of a time: `toISOString().slice(0, 10)`. -/
def dayOf (time : ℤ) : ℤ := time / 86400000

/-- `DAY` -/
def dayMs : ℤ := 86400000

/-- `state='reserved' AND reserved_day=$2`, counted. -/
def reservedOn (d : ℤ) (r : Receipt) : ℕ :=
  match r.state with
  | .reserved _ => if r.reservedDay = d then 1 else 0
  | _ => 0

def reservedBytesOn (d : ℤ) (r : Receipt) : ℕ := reservedOn d r * r.bytes

def acceptedCount (usage : Option Usage) : ℕ := usage.elim 0 Usage.acceptedCount

def acceptedBytes (usage : Option Usage) : ℕ := usage.elim 0 Usage.acceptedBytes

structure Limits where
  maxDailyCount : ℕ
  maxDailyBytes : ℕ

/-- `quota`: what is accepted and reserved on a day, but for one receipt, leaves room for it. -/
def quota (limits : Limits) (device : Device) (observation : Text) (bytes : ℕ) (d : ℤ) : Bool :=
  acceptedCount (device.usage d) + device.receipts.sumOthers observation (reservedOn d) + 1 ≤
      limits.maxDailyCount &&
    acceptedBytes (device.usage d) + device.receipts.sumOthers observation (reservedBytesOn d) + bytes ≤
      limits.maxDailyBytes

/-- `INSERT INTO telemetry.observation_usage ... ON CONFLICT DO UPDATE` -/
def addUsage (bytes : ℕ) (usage : Option Usage) : Usage :=
  ⟨acceptedCount usage + 1, acceptedBytes usage + bytes⟩

/-- `INSERT INTO telemetry.capability_presence ... ON CONFLICT DO UPDATE` -/
def raisePresence (captured received : ℤ) : Option Presence → Presence
  | none => ⟨captured, received⟩
  | some p => ⟨max p.lastCaptureAt captured, max p.lastReceivedAt received⟩

def Device.store (device : Device) (r : Receipt) (generation : ℕ) (received : ℤ) (bytes : ℕ)
    (capability : Text) (captured : ℤ) : Device :=
  { device with
    receipts := device.receipts.put { r with
      state := .stored received
      image := r.image.map fun i => { i with generation := some generation } }
    usage := Function.update device.usage r.reservedDay
      (some (addUsage bytes (device.usage r.reservedDay)))
    presence := Function.update device.presence capability
      (some (raisePresence captured received (device.presence capability))) }

def expire (r : Receipt) : Receipt := { r with state := .expired r.receivedAt, image := none }

/-- `telemetry.queue_observation_image_deletion` -/
def queueImageDeletion (intents : Text → Option Intent) (i : Image) : Text → Option Intent :=
  Function.update intents i.objectKey
    (some ⟨i.generation <|> (intents i.objectKey).bind Intent.generation⟩)

/-! ## What a key tells -/

section

variable {t : Text}

theorem isUuid_segment (h : isUuid t = true) : isUuidSegment t = true := by
  simp only [isUuid, Bool.and_eq_true] at h
  simp only [isUuidSegment, Bool.and_eq_true]
  exact h.1

theorem isUuidV4_segment (h : isUuidV4 t = true) : isUuidSegment t = true := by
  simp only [isUuidV4, Bool.and_eq_true] at h
  exact isUuid_segment h.1

theorem segment_groups (h : isUuidSegment t = true) : ∃ a b c d e : Text,
    t = join hyphen [a, b, c, d, e] ∧ [a, b, c, d, e].map List.length = [8, 4, 4, 4, 12] ∧
      ∀ g ∈ [a, b, c, d, e], ∀ u ∈ g, isHex u = true := by
  simp only [isUuidSegment, Bool.and_eq_true, decide_eq_true_eq, List.all_eq_true] at h
  obtain ⟨hlengths, hhex⟩ := h
  have hjoin := join_split hyphen t
  have hfive : (split hyphen t).length = 5 := by
    rw [← List.length_map, hlengths]
    rfl
  match hgroups : split hyphen t, hfive with
  | [a, b, c, d, e], _ =>
      rw [hgroups] at hlengths hhex hjoin
      exact ⟨a, b, c, d, e, hjoin.symm, hlengths, hhex⟩

theorem segment_length (h : isUuidSegment t = true) : t.length = 36 := by
  obtain ⟨a, b, c, d, e, rfl, hlengths, -⟩ := segment_groups h
  simp only [List.map_cons, List.map_nil, List.cons.injEq] at hlengths
  simp only [join, List.length_append, List.length_cons]
  omega

theorem segment_slash (h : isUuidSegment t = true) : slash ∉ t := by
  obtain ⟨a, b, c, d, e, rfl, -, hhex⟩ := segment_groups h
  have hgroup : ∀ g ∈ [a, b, c, d, e], slash ∉ g := fun g hg hmem =>
    absurd (hhex g hg slash hmem) (by decide)
  have hne : slash ≠ hyphen := by decide
  simp [join, hgroup, hne]

/-- **A key tells whose image it is.** -/
theorem objectIdentity_objectKey {tenant device observation : Text} (htenant : isUuid tenant = true)
    (hdevice : isUuid device = true) (hobservation : isUuidV4 observation = true) :
    objectIdentity (objectKey tenant device observation) =
      some ⟨uuidOf tenant, uuidOf device, uuidOf observation⟩ := by
  have htenant := isUuid_segment htenant
  have hdevice := isUuid_segment hdevice
  have hobservation := isUuidV4_segment hobservation
  have hlength := segment_length hobservation
  have hjpg : slash ∉ js ".jpg" := by decide
  have hsplit : split slash (objectKey tenant device observation) =
      [js "tenant", tenant, js "device", device, observation ++ js ".jpg"] := by
    refine split_join (by simp) ?_
    have hfirst : slash ∉ js "tenant" := by decide
    have hthird : slash ∉ js "device" := by decide
    simp [hfirst, hthird, hjpg, segment_slash htenant, segment_slash hdevice, segment_slash hobservation]
  rw [objectIdentity, hsplit]
  dsimp only
  rw [← hlength, List.drop_left, List.take_left]
  simp [htenant, hdevice, hobservation]

theorem fingerprinted_inj {m m' : Metadata} {b b' w w' h h' : ℕ}
    (heq : fingerprinted m b w h = fingerprinted m' b' w' h') : m = m' ∧ b = b' ∧ w = w' ∧ h = h' := by
  obtain ⟨d, o, c, at', sha, hd, ho⟩ := m
  obtain ⟨d', o', c', at'', sha', hd', ho'⟩ := m'
  simp only [fingerprinted, Json.obj.injEq, List.cons.injEq, Prod.mk.injEq, Json.str.injEq,
    Json.num.injEq, true_and, and_true] at heq
  obtain ⟨rfl, rfl, rfl, rfl, rfl, rfl, rfl, rfl⟩ := heq
  exact ⟨rfl, rfl, rfl, rfl⟩

end

end Albusforge.Observations
