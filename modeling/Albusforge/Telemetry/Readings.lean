import Mathlib.Algebra.Order.Ring.Rat
import Mathlib.Data.List.Dedup
import Mathlib.Tactic.Ring
import Albusforge.Lib.Keyset
import Albusforge.Lib.Register

/-!
# Readings and what is kept of them

The rows of `telemetry.readings`, the hours that are marked as dirty, and the rows of `telemetry.rollups` with the
statement of `processTelemetryRollups` that computes them. Times are in microseconds, as a `timestamptz` counts.

**A roll-up does not depend on the order in which its readings are found** (`aggregates_perm`), since no two readings
of a device have the same time, sequence and ordinal. What PostgreSQL makes of a value as a `numeric`, and of several
as a standard deviation, are parameters.
-/

namespace Albusforge.Telemetry

open Lib

/-! ## Times -/

def second : ℤ := 1000000
def minute : ℤ := 60 * second
def hour : ℤ := 60 * minute
def day : ℤ := 24 * hour

/-- `date_trunc(unit,ts,'UTC')` -/
def trunc (unit ts : ℤ) : ℤ := ts / unit * unit

theorem minute_pos : 0 < minute := by unfold minute second; omega
theorem hour_pos : 0 < hour := by unfold hour minute second; omega
theorem day_pos : 0 < day := by unfold day hour minute second; omega

theorem trunc_le {unit : ℤ} (h : 0 < unit) (ts : ℤ) : trunc unit ts ≤ ts :=
  Int.ediv_mul_le ts h.ne'

theorem lt_trunc {unit : ℤ} (h : 0 < unit) (ts : ℤ) : ts < trunc unit ts + unit := by
  have hlt := Int.lt_ediv_add_one_mul_self ts h
  rw [Int.add_mul, Int.one_mul] at hlt
  exact hlt

theorem dvd_trunc (unit ts : ℤ) : unit ∣ trunc unit ts := Dvd.intro_left _ rfl

/-- **A time is in the bucket that it is truncated to, and in no other.** -/
theorem trunc_eq_iff {unit : ℤ} (h : 0 < unit) {b : ℤ} (hb : unit ∣ b) (ts : ℤ) :
    trunc unit ts = b ↔ b ≤ ts ∧ ts < b + unit := by
  obtain ⟨k, rfl⟩ := hb
  constructor
  · intro heq
    rw [← heq]
    exact ⟨trunc_le h ts, lt_trunc h ts⟩
  · rintro ⟨hle, hlt⟩
    have hge : k ≤ ts / unit := (Int.le_ediv_iff_mul_le h).mpr (by rwa [Int.mul_comm])
    have hlt' : ts / unit < k + 1 := (Int.ediv_lt_iff_lt_mul h).mpr (by rwa [Int.add_mul, Int.one_mul, Int.mul_comm k])
    have hquot : ts / unit = k := by omega
    rw [trunc, hquot, Int.mul_comm]

/-- A bound that a bucket cannot straddle. -/
theorem le_trunc_iff {unit : ℤ} (h : 0 < unit) {b ts : ℤ} (hb : unit ∣ b) : b ≤ trunc unit ts ↔ b ≤ ts := by
  constructor
  · intro hle
    exact hle.trans (trunc_le h ts)
  · intro hle
    obtain ⟨k, rfl⟩ := hb
    have hquot : k ≤ ts / unit := by
      rw [Int.le_ediv_iff_mul_le h, Int.mul_comm]
      exact hle
    rw [trunc, Int.mul_comm unit k]
    exact Int.mul_le_mul_of_nonneg_right hquot h.le

/-- Truncating to a part of a unit first makes no difference. -/
theorem trunc_trunc {unit part : ℤ} (h : 0 < unit) (hp : 0 < part) (hdvd : part ∣ unit) (ts : ℤ) :
    trunc unit (trunc part ts) = trunc unit ts := by
  rw [trunc_eq_iff h (dvd_trunc unit ts)]
  have hle := (le_trunc_iff hp (hdvd.trans (dvd_trunc unit ts))).mpr (trunc_le h ts)
  have hlt := lt_trunc h ts
  have hpart := trunc_le hp ts
  omega

theorem hour_dvd_day : hour ∣ day := ⟨24, by unfold day; ring⟩

/-! ## Rows -/

/-- A row of `telemetry.readings`. -/
@[ext]
structure Reading (δ χ ν : Type) where
  deviceId : δ
  channel : χ
  seq : ℤ
  ordinal : ℕ
  ts : ℤ
  value : ν
  deriving DecidableEq

/-- The key of a row of `telemetry.dirty_hours`. -/
structure Marker (δ χ : Type) where
  deviceId : δ
  channel : χ
  bucket : ℤ
  deriving DecidableEq

inductive Resolution
  | minutes | hours
  deriving DecidableEq

def Resolution.unit : Resolution → ℤ
  | .minutes => minute
  | .hours => hour

theorem Resolution.unit_pos (res : Resolution) : 0 < res.unit := by
  cases res
  · exact minute_pos
  · exact hour_pos

theorem Resolution.unit_dvd (res : Resolution) : res.unit ∣ hour := by
  cases res
  · exact ⟨60, by unfold hour; rw [Resolution.unit, Int.mul_comm]⟩
  · exact dvd_rfl

structure Aggregates (ν : Type) where
  n : ℕ
  sum : ℚ
  min : ν
  max : ν
  last : ν
  stddev : ℚ
  deriving DecidableEq

/-- A row of `telemetry.rollups`. -/
structure Rollup (δ χ ν : Type) where
  deviceId : δ
  channel : χ
  resolution : Resolution
  bucket : ℤ
  facts : Aggregates ν
  deriving DecidableEq

section Keys

variable {δ χ ν : Type}

/-- The primary key. -/
def Reading.key (r : Reading δ χ ν) : δ × ℤ × ℕ × ℤ := (r.deviceId, r.seq, r.ordinal, r.ts)

/-- `ORDER BY ts,seq,ordinal` -/
def Reading.place (r : Reading δ χ ν) : ℤ ×ₗ ℤ ×ₗ ℕ := toLex (r.ts, toLex (r.seq, r.ordinal))

/-- The hour that the trigger marks for a row. -/
def Reading.marker (r : Reading δ χ ν) : Marker δ χ := ⟨r.deviceId, r.channel, trunc hour r.ts⟩

/-- `ORDER BY device_id,channel,bucket` -/
def Marker.order (m : Marker δ χ) : δ ×ₗ χ ×ₗ ℤ := toLex (m.deviceId, toLex (m.channel, m.bucket))

/-- The primary key. -/
def Rollup.key (x : Rollup δ χ ν) : δ × χ × Resolution × ℤ := (x.deviceId, x.channel, x.resolution, x.bucket)

/-- The hour that a roll-up is about, or is within. -/
def Rollup.marker (x : Rollup δ χ ν) : Marker δ χ := ⟨x.deviceId, x.channel, trunc hour x.bucket⟩

theorem Reading.key_inj {r r' : Reading δ χ ν} :
    r.key = r'.key ↔ r.deviceId = r'.deviceId ∧ r.seq = r'.seq ∧ r.ordinal = r'.ordinal ∧ r.ts = r'.ts := by
  simp [Reading.key]

theorem Reading.place_inj {r r' : Reading δ χ ν} :
    r.place = r'.place ↔ r.ts = r'.ts ∧ r.seq = r'.seq ∧ r.ordinal = r'.ordinal := by
  simp [Reading.place]

theorem Marker.order_injective : Function.Injective (Marker.order : Marker δ χ → δ ×ₗ χ ×ₗ ℤ) := by
  rintro ⟨d, c, b⟩ ⟨d', c', b'⟩ h
  obtain ⟨rfl, h⟩ := Prod.mk.inj h
  obtain ⟨rfl, rfl⟩ := Prod.mk.inj h
  rfl

end Keys

/-! ## Aggregates -/

/-- What PostgreSQL makes of the values: one as a `numeric`, and several as a standard deviation. -/
structure Numeric (ν : Type) where
  numeric : ν → ℚ
  stddevPop : List ℚ → ℚ
  stddevPop_perm : ∀ {l l' : List ℚ}, l.Perm l' → stddevPop l = stddevPop l'

variable {δ χ ν : Type} [LinearOrder δ] [LinearOrder χ] [LinearOrder ν]

/-- `summary` joined with `latest`, of the rows of one group. There is no group without a row. -/
def aggregates (sql : Numeric ν) (rows : List (Reading δ χ ν)) : Option (Aggregates ν) := do
  let last ← rows.foldl (raise Reading.place) none
  let min ← (rows.map Reading.value).foldl (raise OrderDual.toDual) none
  let max ← (rows.map Reading.value).foldl (raise id) none
  return {
    n := rows.length
    sum := (rows.map fun r => sql.numeric r.value).sum
    min
    max
    last := last.value
    stddev := sql.stddevPop (rows.map fun r => sql.numeric r.value) }

/-- The rows of a bucket. -/
def inBucket (deviceId : δ) (channel : χ) (res : Resolution) (bucket : ℤ) (r : Reading δ χ ν) : Bool :=
  r.deviceId = deviceId && r.channel = channel && trunc res.unit r.ts = bucket

/-- `samples`: the rows of an hour. -/
def Marker.covers (m : Marker δ χ) (r : Reading δ χ ν) : Bool :=
  r.deviceId = m.deviceId && r.channel = m.channel && m.bucket ≤ r.ts && r.ts < m.bucket + hour

/-- `INSERT INTO telemetry.rollups ... SELECT`, for one of the two resolutions; minutes are kept from `since` on. -/
def rollupsOf (sql : Numeric ν) (res : Resolution) (m : Marker δ χ) (since : ℤ) (samples : List (Reading δ χ ν)) :
    List (Rollup δ χ ν) :=
  ((samples.map fun r => trunc res.unit r.ts).dedup.filter fun b => res = .hours || since ≤ b).filterMap fun b =>
    (aggregates sql (samples.filter fun r => trunc res.unit r.ts = b)).map fun facts =>
      ⟨m.deviceId, m.channel, res, b, facts⟩

/-- No two rows have one place. -/
def Placed (rows : List (Reading δ χ ν)) : Prop :=
  ∀ r ∈ rows, ∀ r' ∈ rows, r.place = r'.place → r = r'

omit [LinearOrder δ] [LinearOrder χ] [LinearOrder ν] in
theorem Placed.subset {rows rows' : List (Reading δ χ ν)} (h : Placed rows) (hsub : rows' ⊆ rows) : Placed rows' :=
  fun r hr r' hr' => h r (hsub hr) r' (hsub hr')

omit [LinearOrder δ] [LinearOrder χ] in
/-- **The order in which the rows are found does not matter.** -/
theorem aggregates_perm (sql : Numeric ν) {rows rows' : List (Reading δ χ ν)} (hp : rows.Perm rows')
    (hplaced : Placed rows) : aggregates sql rows = aggregates sql rows' := by
  have hlast := foldl_raise_perm hp hplaced none
  have hvalues := hp.map Reading.value
  have hfold : ∀ {κ : Type} [LinearOrder κ] {key : ν → κ}, Function.Injective key →
      (rows.map Reading.value).foldl (raise key) none = (rows'.map Reading.value).foldl (raise key) none :=
    fun hinj => foldl_raise_perm hvalues (fun _ _ _ _ heq => hinj heq) none
  have hmin := hfold OrderDual.toDual.injective
  have hmax := hfold Function.injective_id
  have hnumeric := hp.map fun r => sql.numeric r.value
  unfold aggregates
  rw [hlast, hmin, hmax, hp.length_eq, hnumeric.sum_eq, sql.stddevPop_perm hnumeric]

omit [LinearOrder δ] [LinearOrder χ] in
/-- A group that has a row has its aggregates. -/
theorem aggregates_isSome (sql : Numeric ν) {rows : List (Reading δ χ ν)} {r : Reading δ χ ν} (h : r ∈ rows) :
    ∃ facts, aggregates sql rows = some facts := by
  have hsome : ∀ {α κ : Type} [LinearOrder κ] (key : α → κ) {l : List α}, l ≠ [] → ∃ a, l.foldl (raise key) none = some a :=
    fun key l hne => Option.ne_none_iff_exists'.mp fun hnone => hne (foldl_raise_eq_none hnone).2
  have hne : rows ≠ [] := List.ne_nil_of_mem h
  have hvalues : rows.map Reading.value ≠ [] := by simpa using hne
  obtain ⟨last, hlast⟩ := hsome Reading.place hne
  obtain ⟨least, hleast⟩ := hsome OrderDual.toDual hvalues
  obtain ⟨most, hmost⟩ := hsome id hvalues
  unfold aggregates
  rw [hlast, hleast, hmost]
  exact ⟨_, rfl⟩

end Albusforge.Telemetry
