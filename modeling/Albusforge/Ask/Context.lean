import Albusforge.Lib.Civil
import Albusforge.Cloudlink.Tables

/-!
# What the device chat is told of its device

`authorize` of `apps/ask/src/store.ts`, `context` of `apps/ask/src/converse-store.ts`, and `contextBlock` of
`apps/ask/src/converse.ts`, which makes a prompt of it.

Times of the database are microseconds. A `Date` has milliseconds, and drops the rest. Ids are texts, a table is
a list of its rows, and the transaction reads all of them from one snapshot.
-/

namespace Albusforge.Ask

open Lib Lib.Json
open Cloudlink (Channel Channels WireStatus)

/-! ## Tables -/

/-- A row of `telemetry.devices`. -/
structure DeviceRow (ν : Type) where
  id : Text
  tenantId : Text
  displayName : Option Text
  channels : Channels ν
  nextS : ℕ
  revokedAt : Option ℤ
  lastSeenAt : Option ℤ
  status : Option WireStatus

/-- A row of `telemetry.device_capabilities`. -/
structure CapabilityRow where
  deviceId : Text
  capabilityId : Text
  kind : Text
  enabled : Bool
  required : Bool
  intervalS : ℕ

/-- A row of `telemetry.capability_presence`. -/
structure PresenceRow where
  deviceId : Text
  capabilityId : Text
  lastCaptureAt : ℤ
  lastReceivedAt : ℤ

/-- A row of `telemetry.latest`. -/
structure LatestRow (ν : Type) where
  deviceId : Text
  channel : Text
  ts : ℤ
  value : ν

structure Tables (ν : Type) where
  devices : List (DeviceRow ν)
  /-- `users.tenant_members`: tenants with users -/
  members : List (Text × Text)
  capabilities : List CapabilityRow
  presence : List PresenceRow
  latest : List (LatestRow ν)
  /-- `telemetry.retention_state`, which has one row -/
  rawBefore : Option ℤ

/-- A timestamp as a `Date`. -/
def toDate (ts : ℤ) : ℤ := ts / 1000

/-! ## Requests -/

/-- `Scope`: the fields of a request that the service trusts. -/
structure Scope where
  tenantId : Text
  deviceId : Text
  actorId : Text

inductive ContextError
  /-- `AskError` -/
  | ask (status : ℕ) (code message : Text)
  | channels
  | error (message : Text)

variable {ν : Type} [JsonNumber ν]

omit [JsonNumber ν] in
/-- `WHERE d.tenant_id=$1 AND d.id=$2` -/
def Tables.device (db : Tables ν) (q : Scope) : Option (DeviceRow ν) :=
  db.devices.find? fun d => d.tenantId = q.tenantId && d.id = q.deviceId

def authorize (db : Tables ν) (q : Scope) : Except ContextError (Channels ν) :=
  match db.device q with
  | some d =>
    if (q.tenantId, q.actorId) ∈ db.members then
      if d.channels.accepted then .ok d.channels else .error .channels
    else .error (.ask 404 (js "NOT_FOUND") (js "Sensor not found"))
  | none => .error (.ask 404 (js "NOT_FOUND") (js "Sensor not found"))

inductive Status
  | online | offline | neverSeen
  deriving DecidableEq

def Status.text : Status → Text
  | online => js "online"
  | offline => js "offline"
  | neverSeen => js "never_seen"

structure ChannelFacts (ν : Type) where
  channel : Text
  unit : Text
  latest : Option (Text × ν)

structure DeviceContext (ν : Type) where
  deviceId : Text
  displayName : Option Text
  status : Status
  lastSeenAt : Option Text
  nextS : ℕ
  revoked : Bool
  health : Option WireStatus
  channels : List (ChannelFacts ν)
  rawBefore : Text
  now : Text

/-- `Math.max(60, device.next_s * 3) * 1000` -/
def staleMs (nextS : ℕ) : ℤ := max 60 (nextS * 3) * 1000

/-- The status in `context`, `now` being a `Date`. -/
def chatStatus (lastSeenAt : Option ℤ) (nextS : ℕ) (now : ℤ) : Status :=
  match lastSeenAt with
  | none => .neverSeen
  | some seen => if now - toDate seen ≤ staleMs nextS then .online else .offline

/-- `context`, at a moment of the database's clock. -/
def context (db : Tables ν) (q : Scope) (time : ℤ) : Except ContextError (DeviceContext ν) := do
  let channels ← authorize db q
  let some device := db.device q | .error (.ask 404 (js "NOT_FOUND") (js "Device not found"))
  let latest := db.latest.filter fun row => row.deviceId = q.deviceId
  let some rawBefore := db.rawBefore | .error (.error (js "Missing retention state"))
  let now := toDate time
  return {
    deviceId := q.deviceId
    displayName := device.displayName
    status := chatStatus device.lastSeenAt device.nextS now
    lastSeenAt := device.lastSeenAt.map fun seen => toISOString (toDate seen)
    nextS := device.nextS
    revoked := device.revokedAt.isSome
    health := device.status
    channels := channels.entries.map fun (channel, described) =>
      { channel, unit := described.unit
        latest := (latest.find? fun row => row.channel = channel).map fun row => (toISOString (toDate row.ts), row.value) }
    rawBefore := toISOString (toDate rawBefore)
    now := toISOString now }

/-! ## The prompt -/

/-- `${n}` -/
def integerText (n : ℤ) : Text := if n < 0 then hyphen :: decimal n.natAbs else decimal n.natAbs

def lines (ts : List Text) : Text := join 10 ts

def channelLine (c : ChannelFacts ν) : Text :=
  js "  " ++ c.channel ++ js " (" ++ (if c.unit = [] then js "no unit" else c.unit) ++ js ")" ++
    match c.latest with
    | some (t, v) => js " — latest " ++ NumberText.toText v ++ js " at " ++ t
    | none => js " — no reading stored yet"

def healthText (health : Option WireStatus) : Text :=
  match health with
  | none => js "no health packet recorded"
  | some h =>
    let codes := if h.health = [] then js "no fault codes" else js "codes " ++ (js ", ").intercalate h.health
    (js ", ").intercalate
      (codes :: (h.battMv.map fun mv => js "battery " ++ integerText mv ++ js " mV").toList ++
        (h.rssi.map fun dbm => js "signal " ++ integerText dbm ++ js " dBm").toList)

def statusLine (status : Status) (revoked : Bool) : Text :=
  js "  status: " ++ status.text ++
    if revoked then js " (credential revoked; stored readings remain readable)" else []

def contextBlock (c : DeviceContext ν) : Text :=
  let channels := lines (c.channels.map channelLine)
  lines [
    js "This device:",
    js "  name: " ++ c.displayName.getD (js "(unnamed)"),
    statusLine c.status c.revoked,
    js "  last upload: " ++ c.lastSeenAt.getD (js "never"),
    js "  expected upload interval: " ++ decimal c.nextS ++ js " seconds",
    js "  health: " ++ healthText c.health,
    js "  raw readings retained from: " ++ c.rawBefore,
    js "channels:",
    if channels = [] then js "  (none provisioned)" else channels,
    [],
    js "Current time is " ++ c.now ++ js ". Resolve relative dates against it."]

theorem context_ok {db : Tables ν} {q : Scope} {time : ℤ} {c : DeviceContext ν} (h : context db q time = .ok c) :
    ∃ d, db.device q = some d ∧ c.status = chatStatus d.lastSeenAt d.nextS (toDate time) ∧
      c.revoked = d.revokedAt.isSome := by
  unfold context at h
  rcases hauth : authorize db q with e | channels
  · rw [hauth] at h
    cases h
  · rw [hauth] at h
    rcases hdevice : db.device q with _ | d
    · rw [authorize, hdevice] at hauth
      cases hauth
    · rcases hbefore : db.rawBefore with _ | rawBefore
      · simp only [hdevice, hbefore] at h
        cases h
      · simp only [hdevice, hbefore] at h
        cases h
        exact ⟨d, rfl, rfl, rfl⟩

end Albusforge.Ask
