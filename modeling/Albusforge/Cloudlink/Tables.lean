import Mathlib.Data.Multiset.AddSub
import Mathlib.Data.Prod.Lex
import Albusforge.Lib.Register
import Albusforge.Cloudlink.Envelope

/-!
# The telemetry tables

The rows that belong to one device, and the statements of the ingest transaction
that write them. A table with a key is a function of its key, `readings` is a
multiset of rows. Times of readings are whole seconds, times of requests
milliseconds.

The columns no numeric request touches (tenants, provisioning, firmware sources) are
not modelled, nor are creation times; `touched_at` of a dirty hour is read by nobody.
-/

namespace Albusforge.Cloudlink

open Lib Lib.Json

section Rows

variable (ν : Type)

/-- `TelemetryChannel` -/
structure Channel where
  unit : Text
  min : ν
  max : ν

/-- A `channels` column: a JSON object, so that no name comes twice. -/
structure Channels where
  entries : List (Text × Channel ν)
  nodup : (entries.map Prod.fst).Nodup

/-- `TelemetryAck`. Its `cmd` is the empty tuple. -/
structure Ack where
  ok : ℤ
  nextS : ℤ
  deriving DecidableEq

/-- A row of `telemetry.devices`. -/
structure Device where
  tokenHash : Text
  revoked : Bool
  channels : Channels ν
  nextS : ℤ
  lastSeenAt : Option ℤ
  lastSeq : Option ℤ
  status : Option WireStatus

/-- A row of `telemetry.packets`. -/
structure Packet where
  fingerprint : Text
  response : Ack
  deriving DecidableEq

/-- A row of `telemetry.readings`, and what `telemetry.latest` keeps of one. -/
structure Row where
  seq : ℤ
  ordinal : ℕ
  channel : Text
  ts : ℤ
  value : ν
  deriving DecidableEq

/-- A row of `telemetry.usage`. -/
structure Usage where
  readingsIn : ℕ
  payloadBytes : ℕ
  deriving DecidableEq

/-- A row of `telemetry.capability_presence`. -/
structure Presence where
  lastCaptureAt : ℤ
  lastReceivedAt : ℤ
  deriving DecidableEq

/-- A row of `telemetry.device_capabilities`. -/
structure Capability where
  capabilityId : Text
  enabled : Bool
  kind : Text
  payloadSchema : Text
  channels : Channels ν

/-- Everything that belongs to one device. -/
@[ext]
structure DeviceTables where
  device : Option (Device ν)
  packets : ℤ → Option Packet
  readings : Multiset (Row ν)
  latest : Text → Option (Row ν)
  dirtyHours : Text → ℤ → Bool
  usage : Text → Option Usage
  presence : Text → Option Presence

structure Shared where
  /-- `telemetry.retention_state` -/
  rawBefore : ℤ
  /-- `telemetry.device_capabilities`, by device. -/
  capabilities : Text → List (Capability ν)

end Rows

variable {ν : Type} [JsonNumber ν]

/-! ## What the schema checks on the way out of the database -/

def Channel.accepted (c : Channel ν) : Bool :=
  decide (1 ≤ c.unit.length ∧ c.unit.length ≤ 40) && JsNumber.isFinite c.min &&
    JsNumber.isFinite c.max && JsNumber.le c.min c.max

/-- Whether `TelemetryChannels.parse` lets the column through; it throws otherwise. -/
def Channels.accepted (c : Channels ν) : Bool :=
  c.entries.all (fun e => isChannelName e.1 && e.2.accepted) &&
    decide (0 < c.entries.length ∧ c.entries.length ≤ 64)

/-- `Object.keys(channels)` -/
def Channels.keys (c : Channels ν) : List Text := c.entries.map Prod.fst

/-- `Object.hasOwn(channels, name) ? channels[name] : undefined` -/
def Channels.get (c : Channels ν) (name : Text) : Option (Channel ν) := c.entries.lookup name

/-- Whether `TelemetryAck.parse` lets a response through. -/
def Ack.accepted (a : Ack) : Bool := decide ((1 ≤ a.ok ∧ a.ok ≤ 500) ∧ 1 ≤ a.nextS ∧ a.nextS ≤ 86400)

/-! ## Times -/

/-- `date_trunc('hour', ts)`, counted in hours. -/
def hourOf (ts : ℤ) : ℤ := ts / 3600

/-- At least `width` digits. -/
def padded (width n : ℕ) : Text := List.replicate (width - (decimal n).length) 48 ++ decimal n

def civil (day : ℤ) : ℤ × ℕ :=
  let z := day + 719468
  let era := z / 146097
  let doe := z % 146097
  let yoe := (doe - doe / 1460 + doe / 36524 - doe / 146096) / 365
  let doy := doe - (365 * yoe + yoe / 4 - yoe / 100)
  let mp := (5 * doy + 2) / 153
  let month := if mp < 10 then mp + 3 else mp - 9
  (yoe + era * 400 + (if month ≤ 2 then 1 else 0), month.toNat)

/-- `received.toISOString().slice(0, 7)` -/
def period (received : ℤ) : Text :=
  let (year, month) := civil (received / 86400000)
  if 0 ≤ year ∧ year ≤ 9999 then padded 4 year.toNat ++ hyphen :: padded 2 month
  else (if 0 ≤ year then 43 else hyphen) :: padded 6 year.natAbs

/-! ## The statements that write -/

def latestKey (r : Row ν) : ℤ ×ₗ ℤ ×ₗ ℕ := toLex (r.ts, toLex (r.seq, r.ordinal))

/-- `ts DESC, ordinal DESC` -/
def batchKey (r : Row ν) : ℤ ×ₗ ℕ := toLex (r.ts, r.ordinal)

/-- `INSERT INTO telemetry.packets` -/
def insertPacket (seq : ℤ) (p : Packet) (s : DeviceTables ν) : DeviceTables ν :=
  { s with packets := Function.update s.packets seq (some p) }

/-- `INSERT INTO telemetry.readings`, and the hours its trigger marks. -/
def insertReadings (rows : List (Row ν)) (s : DeviceTables ν) : DeviceTables ν :=
  { s with
    readings := s.readings + rows
    dirtyHours := fun channel hour => s.dirtyHours channel hour ||
      rows.any fun r => r.channel == channel && hourOf r.ts == hour }

/-- `SELECT DISTINCT ON (channel) ... ORDER BY channel, ts DESC, ordinal DESC`: the first of a
channel's rows in descending order. -/
def distinctOn (channel : Text) (rows : List (Row ν)) : Option (Row ν) :=
  (rows.filter fun r => r.channel == channel).foldl (raise batchKey) none

/-- `INSERT INTO telemetry.latest ... ON CONFLICT DO UPDATE ... WHERE EXCLUDED > latest` -/
def upsertLatest (rows : List (Row ν)) (s : DeviceTables ν) : DeviceTables ν :=
  { s with latest := fun channel => upsert latestKey (s.latest channel) (distinctOn channel rows) }

/-- `GREATEST(column, x)`, in which `NULL` does not count. -/
def greatest (column : Option ℤ) (x : ℤ) : Option ℤ := raise id column x

/-- `UPDATE telemetry.devices SET last_seen_at, status, last_seq` -/
def Device.touch (received seq : ℤ) (st : WireStatus) (d : Device ν) : Device ν :=
  { d with
    lastSeenAt := greatest d.lastSeenAt received
    status := if d.lastSeq.all (fun last => last < seq) then some st else d.status
    lastSeq := greatest d.lastSeq seq }

def updateDevice (received seq : ℤ) (st : WireStatus) (s : DeviceTables ν) : DeviceTables ν :=
  { s with device := s.device.map (Device.touch received seq st) }

def Usage.add (u : Option Usage) (readings bytes : ℕ) : Usage :=
  match u with
  | none => ⟨readings, bytes⟩
  | some u => ⟨u.readingsIn + readings, u.payloadBytes + bytes⟩

/-- `INSERT INTO telemetry.usage ... ON CONFLICT DO UPDATE SET` the sums. -/
def addUsage (p : Text) (readings bytes : ℕ) (s : DeviceTables ν) : DeviceTables ν :=
  { s with usage := Function.update s.usage p (some (Usage.add (s.usage p) readings bytes)) }

/-- The times among `rows` of the channels of a capability, if it is one that measures. -/
def captures (capabilities : List (Capability ν)) (id : Text) (rows : List (Row ν)) : List ℤ :=
  match capabilities.find? fun c => c.capabilityId == id && c.kind == js "measurement" && c.enabled with
  | none => []
  | some c => (rows.filter fun r => c.channels.keys.contains r.channel).map Row.ts

def Presence.raise (p : Option Presence) (capture received : ℤ) : Presence :=
  match p with
  | none => ⟨capture, received⟩
  | some p => ⟨max p.lastCaptureAt capture, max p.lastReceivedAt received⟩

/-- `INSERT INTO telemetry.capability_presence ... ON CONFLICT DO UPDATE SET` the maxima. -/
def upsertPresence (capabilities : List (Capability ν)) (rows : List (Row ν)) (received : ℤ)
    (s : DeviceTables ν) : DeviceTables ν :=
  { s with
    presence := fun id =>
      match (captures capabilities id rows).foldl greatest none with
      | none => s.presence id
      | some t => some (Presence.raise (s.presence id) t received) }

example : period 1709251199000 = js "2024-02" := by decide +kernel

end Albusforge.Cloudlink
