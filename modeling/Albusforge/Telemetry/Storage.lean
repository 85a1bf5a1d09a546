import Mathlib.Logic.Function.Basic
import Albusforge.Lib.Machine
import Albusforge.Lib.Partitioned
import Albusforge.Telemetry.Readings

/-!
# The raw partitions, the dirty hours and the roll-ups

The tables of the history, with the trigger and the function of `0003_telemetry_partitions.sql` and the statements of
`telemetry-storage.ts`; and the transactions that go on side by side over them (`storage`), under read committed.

An ingest transaction has inserted its rows, and then its trigger touches the hours one by one, in their order: it
locks the marker of an hour, or waits for whoever has it locked. A worker locks the marker of one hour, reads the hour
twice, and its commit replaces the roll-ups and takes the marker away. Maintenance first looks which days are to have
a partition, and then waits until nobody has read or written `telemetry.readings`; what it does while it holds that
lock is one step. A reader holds the layout from before its snapshot until it is done. Any of them may fail at any
point. `accepted` is what no table has: every reading that was ever committed.
-/

namespace Albusforge.Telemetry

open Lib

variable {δ χ ν : Type} [LinearOrder δ] [LinearOrder χ] [LinearOrder ν]

/-! ## Tables -/

structure Tables (δ χ ν : Type) where
  /-- `telemetry.readings`, with a partition for each of some days -/
  readings : Partitioned ℤ (Reading δ χ ν)
  /-- `telemetry.retention_state` -/
  rawBefore : ℤ
  dirtyHours : List (Marker δ χ)
  rollups : List (Rollup δ χ ν)

/-- The day whose partition a row belongs to. -/
def dayOf (r : Reading δ χ ν) : ℤ := trunc day r.ts

/-! ## Ingest -/

/-- The hours of a batch, in the order in which its trigger goes through them. -/
def touchedHours (batch : List (Reading δ χ ν)) : List (Marker δ χ) :=
  Keyset.ordered Marker.order (batch.map Reading.marker).dedup

/-- `INSERT INTO telemetry.readings` -/
def Tables.insertBatch (t : Tables δ χ ν) (batch : List (Reading δ χ ν)) : Tables δ χ ν :=
  { t with readings := t.readings.insert dayOf batch }

/-- `INSERT INTO telemetry.dirty_hours ... ON CONFLICT DO UPDATE` -/
def Tables.markHours (t : Tables δ χ ν) (hours : List (Marker δ χ)) : Tables δ χ ν :=
  { t with dirtyHours := t.dirtyHours ++ hours.filter fun m => m ∉ t.dirtyHours }

/-! ## Roll-ups -/

/-- `date_trunc('day',CURRENT_TIMESTAMP,'UTC')-interval '7 days'` -/
def minutesSince (started : ℤ) : ℤ := trunc day started - 7 * day

/-- `DELETE FROM telemetry.rollups WHERE ... bucket >= $3 AND bucket < $3::timestamptz+interval '1 hour'` -/
def Marker.replaces (m : Marker δ χ) (x : Rollup δ χ ν) : Bool :=
  x.deviceId = m.deviceId && x.channel = m.channel && m.bucket ≤ x.bucket && x.bucket < m.bucket + hour

/-- The commit of a worker. -/
def Tables.replaceHour (t : Tables δ χ ν) (m : Marker δ χ) (rows : List (Rollup δ χ ν)) : Tables δ χ ν :=
  { t with
    rollups := (t.rollups.filter fun x => !m.replaces x) ++ rows
    dirtyHours := t.dirtyHours.filter fun m' => m' ≠ m }

/-! ## Maintenance -/

/-- `date_trunc('day',CURRENT_TIMESTAMP,'UTC')-interval '90 days'` -/
def rawSince (started : ℤ) : ℤ := trunc day started - 90 * day

/-- Today and the seven days after it. -/
def comingDays (started : ℤ) : List ℤ := (List.range 8).map fun i : ℕ => trunc day started + i * day

/-- `dates`: the coming days, and those of what is still to be kept in the default partition. -/
def datesFor (started : ℤ) (t : Tables δ χ ν) : List ℤ :=
  let waiting := (t.readings.rest.filter fun r => rawSince started ≤ r.ts).map dayOf
  Keyset.ordered id (comingDays started ++ waiting).dedup

/-- `telemetry.ensure_reading_partition` -/
def ensureReadingPartition (t : Tables δ χ ν) (d : ℤ) : Tables δ χ ν × Bool :=
  ({ t with readings := t.readings.attach dayOf d }, d ∉ t.readings.keys)

/-- The loop over `dates`, with `created`. -/
def ensurePartitions (t : Tables δ χ ν) : List ℤ → Tables δ χ ν × ℕ
  | [] => (t, 0)
  | d :: dates =>
    let (ensured, created) := ensureReadingPartition t d
    let (t', n) := ensurePartitions ensured dates
    (t', if created then n + 1 else n)

/-- `UPDATE telemetry.retention_state SET raw_before=GREATEST(...)` -/
def Tables.expire (t : Tables δ χ ν) (started : ℤ) : Tables δ χ ν :=
  { t with rawBefore := max t.rawBefore (rawSince started) }

/-- All of the day is before `raw_before`. -/
def Tables.isExpired (t : Tables δ χ ν) (d : ℤ) : Bool := d + day ≤ t.rawBefore

/-- `pending`: an hour of the day is dirty. -/
def Tables.isPending (t : Tables δ χ ν) (d : ℤ) : Bool :=
  t.dirtyHours.any fun m => d ≤ m.bucket && m.bucket < d + day

/-- `DROP TABLE` of the partitions whose day has expired, but for those that are deferred. -/
def Tables.dropExpired (t : Tables δ χ ν) : Tables δ χ ν :=
  { t with readings := t.readings.drop fun d => t.isExpired d && !t.isPending d }

/-- `DELETE FROM telemetry.readings_default` -/
def Tables.isLeftOver (t : Tables δ χ ν) (r : Reading δ χ ν) : Bool := r.ts < t.rawBefore && r.marker ∉ t.dirtyHours

def Tables.removeDefault (t : Tables δ χ ν) : Tables δ χ ν :=
  { t with readings := t.readings.purge t.isLeftOver }

/-- `DELETE FROM telemetry.rollups WHERE resolution='1m'` -/
def Tables.removeMinutes (t : Tables δ χ ν) (started : ℤ) : Tables δ χ ν :=
  { t with rollups := t.rollups.filter fun x => !(x.resolution = .minutes && x.bucket < minutesSince started) }

structure Maintained where
  created : ℕ
  dropped : ℕ
  deferred : ℕ
  defaultRowsRemoved : ℕ

/-- `maintainTelemetryStorage`, from the lock on `telemetry.readings` to its commit. -/
def maintainTelemetryStorage (t : Tables δ χ ν) (started : ℤ) (dates : List ℤ) : Tables δ χ ν × Maintained :=
  let (ensured, created) := ensurePartitions t dates
  let bounded := ensured.expire started
  let expired := bounded.readings.keys.filter bounded.isExpired
  let dropped := bounded.dropExpired
  (dropped.removeDefault.removeMinutes started,
    { created
      dropped := expired.countP fun d => !bounded.isPending d
      deferred := expired.countP bounded.isPending
      defaultRowsRemoved := dropped.readings.rest.countP dropped.isLeftOver })

/-! ## The transactions -/

/-- A transaction of the ingest route, from its `INSERT INTO telemetry.readings` on. -/
inductive Ingest (δ χ ν : Type)
  | idle
  /-- The hours that its trigger still has to touch, and those whose markers it has locked. -/
  | inserted (batch : List (Reading δ χ ν)) (left held : List (Marker δ χ))

/-- A transaction of `processTelemetryRollups`, with its `CURRENT_TIMESTAMP`. -/
inductive Worker (δ χ ν : Type)
  | idle
  | claimed (started : ℤ) (m : Marker δ χ)
  | minutes (started : ℤ) (m : Marker δ χ) (rows : List (Rollup δ χ ν))
  | hours (started : ℤ) (m : Marker δ χ) (rows : List (Rollup δ χ ν))

/-- What a repeatable read transaction sees, with what had been accepted by then. -/
structure Snapshot (δ χ ν : Type) where
  tables : Tables δ χ ν
  accepted : List (Reading δ χ ν)
  taken : ℤ

/-- A transaction that reads the history. -/
inductive Reader (δ χ ν : Type)
  | idle
  /-- `LOCK TABLE ONLY telemetry.readings IN ACCESS SHARE MODE` -/
  | locked
  | reading (snapshot : Snapshot δ χ ν)

/-- A maintenance transaction that has found out which days are to have a partition. -/
structure Look where
  started : ℤ
  dates : List ℤ

structure State (δ χ ν : Type) where
  now : ℤ
  tables : Tables δ χ ν
  accepted : List (Reading δ χ ν)
  ingests : ℕ → Ingest δ χ ν
  workers : ℕ → Worker δ χ ν
  readers : ℕ → Reader δ χ ν
  /-- An advisory lock lets one in at a time. -/
  maintenance : Option Look

def Ingest.batch : Ingest δ χ ν → List (Reading δ χ ν)
  | .idle => []
  | .inserted batch _ _ => batch

def Ingest.held : Ingest δ χ ν → List (Marker δ χ)
  | .idle => []
  | .inserted _ _ held => held

def Worker.marker : Worker δ χ ν → Option (Marker δ χ)
  | .idle => none
  | .claimed _ m => some m
  | .minutes _ m _ => some m
  | .hours _ m _ => some m

/-- It has read `telemetry.readings`, and so holds a lock on it. -/
def Worker.HasRead : Worker δ χ ν → Prop
  | .minutes .. => True
  | .hours .. => True
  | _ => False

inductive Actor
  | ingest (i : ℕ)
  | worker (i : ℕ)
  deriving DecidableEq

namespace State

def setIngest (s : State δ χ ν) (i : ℕ) (x : Ingest δ χ ν) : State δ χ ν :=
  { s with ingests := Function.update s.ingests i x }

def setWorker (s : State δ χ ν) (i : ℕ) (x : Worker δ χ ν) : State δ χ ν :=
  { s with workers := Function.update s.workers i x }

def setReader (s : State δ χ ν) (i : ℕ) (x : Reader δ χ ν) : State δ χ ν :=
  { s with readers := Function.update s.readers i x }

/-- An actor has the marker of an hour locked. -/
def Holds (s : State δ χ ν) : Actor → Marker δ χ → Prop
  | .ingest i, m => m ∈ (s.ingests i).held
  | .worker i, m => (s.workers i).marker = some m

/-- Nobody has inserted into `telemetry.readings` or read from it in a transaction that goes on. -/
structure Quiet (s : State δ χ ν) : Prop where
  ingests : ∀ i, s.ingests i = .idle
  workers : ∀ i, ¬ (s.workers i).HasRead
  readers : ∀ i, s.readers i = .idle

end State

inductive Event
  | tick
  | insert (i : ℕ)
  | touch (i : ℕ)
  | store (i : ℕ)
  | rollBack (i : ℕ)
  | claim (i : ℕ)
  | readMinutes (i : ℕ)
  | readHours (i : ℕ)
  | replace (i : ℕ)
  | giveUp (i : ℕ)
  | look
  | maintain (result : Maintained)
  | leave
  | lock (i : ℕ)
  | snapshot (i : ℕ)
  | finish (i : ℕ)

open State in
/-- What may happen next. -/
inductive Step (sql : Numeric ν) : State δ χ ν → Event → State δ χ ν → Prop
  | tick {s : State δ χ ν} {now : ℤ} : s.now ≤ now → Step sql s .tick { s with now }
  /-- The insertion, which nothing that is stored or about to be conflicts with and the trigger lets through. -/
  | insert {s : State δ χ ν} {i : ℕ} {batch : List (Reading δ χ ν)} : s.ingests i = .idle →
      (batch.map Reading.key).Nodup → (∀ r ∈ batch, r.key ∉ s.tables.readings.all.map Reading.key) →
      (∀ r ∈ batch, ∀ j, r.key ∉ (s.ingests j).batch.map Reading.key) →
      (∀ r ∈ batch, s.tables.rawBefore ≤ r.ts) →
      Step sql s (.insert i) (s.setIngest i (.inserted batch (touchedHours batch) []))
  | touch {s : State δ χ ν} {i : ℕ} {batch : List (Reading δ χ ν)} {m : Marker δ χ} {left held : List (Marker δ χ)} :
      s.ingests i = .inserted batch (m :: left) held → (∀ a, s.Holds a m → a = .ingest i) →
      Step sql s (.touch i) (s.setIngest i (.inserted batch left (m :: held)))
  | store {s : State δ χ ν} {i : ℕ} {batch : List (Reading δ χ ν)} {held : List (Marker δ χ)} :
      s.ingests i = .inserted batch [] held →
      Step sql s (.store i)
        { s.setIngest i .idle with
          tables := (s.tables.insertBatch batch).markHours held
          accepted := s.accepted ++ batch }
  | rollBack {s : State δ χ ν} {i : ℕ} : Step sql s (.rollBack i) (s.setIngest i .idle)
  /-- `FOR UPDATE SKIP LOCKED`; which of the markers it gets is left open. -/
  | claim {s : State δ χ ν} {i : ℕ} {started : ℤ} {m : Marker δ χ} : s.workers i = .idle → started ≤ s.now →
      m ∈ s.tables.dirtyHours → (∀ a, ¬ s.Holds a m) → Step sql s (.claim i) (s.setWorker i (.claimed started m))
  | readMinutes {s : State δ χ ν} {i : ℕ} {started : ℤ} {m : Marker δ χ} : s.workers i = .claimed started m →
      Step sql s (.readMinutes i) (s.setWorker i (.minutes started m
        (rollupsOf sql .minutes m (minutesSince started) (s.tables.readings.all.filter m.covers))))
  | readHours {s : State δ χ ν} {i : ℕ} {started : ℤ} {m : Marker δ χ} {rows : List (Rollup δ χ ν)} :
      s.workers i = .minutes started m rows →
      Step sql s (.readHours i) (s.setWorker i (.hours started m
        (rows ++ rollupsOf sql .hours m (minutesSince started) (s.tables.readings.all.filter m.covers))))
  | replace {s : State δ χ ν} {i : ℕ} {started : ℤ} {m : Marker δ χ} {rows : List (Rollup δ χ ν)} :
      s.workers i = .hours started m rows →
      Step sql s (.replace i) { s.setWorker i .idle with tables := s.tables.replaceHour m rows }
  /-- It finds no marker, or fails. -/
  | giveUp {s : State δ χ ν} {i : ℕ} : Step sql s (.giveUp i) (s.setWorker i .idle)
  | look {s : State δ χ ν} {started : ℤ} : s.maintenance = none → started ≤ s.now →
      Step sql s .look { s with maintenance := some ⟨started, datesFor started s.tables⟩ }
  | maintain {s : State δ χ ν} {look : Look} : s.maintenance = some look → s.Quiet →
      Step sql s (.maintain (maintainTelemetryStorage s.tables look.started look.dates).2)
        { s with
          tables := (maintainTelemetryStorage s.tables look.started look.dates).1
          maintenance := none }
  | leave {s : State δ χ ν} : Step sql s .leave { s with maintenance := none }
  | lock {s : State δ χ ν} {i : ℕ} : s.readers i = .idle → Step sql s (.lock i) (s.setReader i .locked)
  | snapshot {s : State δ χ ν} {i : ℕ} : s.readers i = .locked →
      Step sql s (.snapshot i) (s.setReader i (.reading ⟨s.tables, s.accepted, s.now⟩))
  | finish {s : State δ χ ν} {i : ℕ} : Step sql s (.finish i) (s.setReader i .idle)

/-- `0003_telemetry_partitions.sql`, over the rows that there were before. -/
def migrated (rows : List (Reading δ χ ν)) (started : ℤ) : Tables δ χ ν :=
  (ensurePartitions ⟨⟨rows, []⟩, 0, touchedHours rows, []⟩ (comingDays started)).1

structure Initial (s : State δ χ ν) : Prop where
  keys : (s.accepted.map Reading.key).Nodup
  tables : ∃ started, s.tables = migrated s.accepted started
  ingests : ∀ i, s.ingests i = .idle
  workers : ∀ i, s.workers i = .idle
  readers : ∀ i, s.readers i = .idle
  maintenance : s.maintenance = none

def storage (sql : Numeric ν) : Machine (State δ χ ν) Event := ⟨Initial, Step sql⟩

end Albusforge.Telemetry
