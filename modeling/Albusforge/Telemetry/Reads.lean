import Albusforge.Ask.Context
import Albusforge.Llm.Tools
import Albusforge.Telemetry.Progress

/-!
# What is answered from the history

`series` of `apps/gateway/src/telemetry-read.ts`, `evidence` of `apps/ask/src/store.ts`, and `window` and `series` of
`apps/ask/src/converse-store.ts`. Each is one transaction, which has locked the layout of `telemetry.readings` before
its snapshot.

**What is answered is exact for all readings that were accepted before the snapshot**, where an answer does not say
otherwise: a series of the gateway that is not pending (`series_exact`), and the evidence of a question
(`evidence_exact`). The tools of the chat have no such checks. Its windows are of what is still stored
(`window_kept`), and its series of what the roll-ups are by then (`chatSeries_exact`).
-/

namespace Albusforge.Telemetry

open Lib Ask
open Cloudlink (Channels)

/-! ## Transactions -/

/-- What a transaction that reads the history sees, and the time of its statement. -/
structure Sight (ν : Type) where
  db : Ask.Tables ν
  history : Snapshot Text Text ν
  layout : List ℤ
  time : ℤ
  same : db.rawBefore = some history.tables.rawBefore
  later : history.taken ≤ time

/-- It is one of the transactions that go on. -/
def Sight.In {ν : Type} (v : Sight ν) (s : State Text Text ν) : Prop :=
  v.layout = s.tables.readings.keys ∧ ∃ i, s.readers i = .reading v.history

variable {ν : Type} [JsonNumber ν] [LinearOrder ν]

/-- `JOIN telemetry.devices d ... WHERE d.tenant_id=$1 AND d.id=$2`, of rows of the device with this id. -/
def Sight.joined {α : Type} (v : Sight ν) (q : Scope) (rows : List α) : List α :=
  if (v.db.device q).isSome then rows else []

/-! ## The series of the gateway -/

inductive Refusal
  /-- `HttpError`, with its `available_from` -/
  | http (status : ℕ) (code message : Text) (availableFrom : Option ℤ)
  | channels
  | error (message : Text)

/-- The longest window, in milliseconds. -/
def maximum : Option Resolution → ℤ
  | none => 86400 * 1000
  | some .minutes => 7 * 86400 * 1000
  | some .hours => 366 * 86400 * 1000

def unitMs : Option Resolution → ℤ
  | none => 1
  | some .minutes => 60000
  | some .hours => 3600000

/-- `TelemetrySeriesQuery`, with its times as `Date`s; `raw` is no resolution. -/
structure SeriesQuery where
  channel : Text
  start : ℤ
  stop : ℤ
  resolution : Option Resolution
  limit : ℕ
  named : Cloudlink.isChannelName channel = true
  bounded : start < stop ∧ stop - start ≤ maximum resolution
  aligned : start % unitMs resolution = 0 ∧ stop % unitMs resolution = 0
  limited : 1 ≤ limit ∧ limit ≤ 2000

def SeriesQuery.window (q : SeriesQuery) (id : Text) : Window Text Text := ⟨id, q.channel, q.start * 1000, q.stop * 1000⟩

structure RawPoint (ν : Type) where
  t : ℤ
  v : ν
  seq : ℤ
  ordinal : ℕ

structure RollupPoint (ν : Type) where
  t : ℤ
  v : Option ν
  facts : Aggregates ν

inductive Points (ν : Type)
  | raw (points : List (RawPoint ν))
  | rollups (points : List (RollupPoint ν))

def Points.length : Points ν → ℕ
  | raw points => points.length
  | rollups points => points.length

def Reading.point (r : Reading Text Text ν) : RawPoint ν := ⟨toDate r.ts, r.value, r.seq, r.ordinal⟩

/-- `(r.sum/NULLIF(r.n,0))::double precision` is by PostgreSQL. -/
def Rollup.point (average : ℚ → ℕ → ν) (x : Rollup Text Text ν) : RollupPoint ν :=
  ⟨toDate x.bucket, if x.facts.n = 0 then none else some (average x.facts.sum x.facts.n), x.facts⟩

/-- `TelemetryHistory` -/
structure History (ν : Type) where
  deviceId : Text
  channel : Text
  start : ℤ
  stop : ℤ
  resolution : Option Resolution
  pendingRollup : Bool
  points : Points ν

/-- `ProvisionedChannels.parse` -/
def provisioned (channels : Channels ν) : Bool :=
  channels.entries.all (fun e => Cloudlink.isChannelName e.1 && e.2.accepted) && channels.entries.length ≤ 64

def SeriesQuery.earliest (q : SeriesQuery) (rawBefore time : ℤ) : Option ℤ :=
  match q.resolution with
  | none => some rawBefore
  | some .minutes => some (minutesSince time)
  | some .hours => none

/-- `points`, up to one more than the limit. -/
def SeriesQuery.points (q : SeriesQuery) (average : ℚ → ℕ → ν) (v : Sight ν) (scope : Scope) : Points ν :=
  let w := q.window scope.deviceId
  match q.resolution with
  | none =>
    .raw (((v.joined scope (v.history.tables.rawRows v.layout w)).take (q.limit + 1)).map Reading.point)
  | some res =>
    .rollups (((v.joined scope (v.history.tables.rollupRows res w)).take (q.limit + 1)).map (Rollup.point average))

/-- The handler of `source.patterns.series`, for a tenant and the device of the path. -/
def series (average : ℚ → ℕ → ν) (v : Sight ν) (scope : Scope) (q : SeriesQuery) : Except Refusal (History ν) :=
  match v.db.device scope with
  | none => .error (.http 404 (js "NOT_FOUND") (js "Device not found") none)
  | some device =>
    if !provisioned device.channels then .error .channels
    else if q.channel ∉ device.channels.keys then .error (.http 404 (js "NOT_FOUND") (js "Channel not found") none)
    else
      match v.db.rawBefore with
      | none => .error (.error (js "Telemetry retention state missing"))
      | some rawBefore =>
        match (q.earliest rawBefore v.time).filter fun e => q.start < toDate e with
        | some e =>
          .error (.http 410 (js "HISTORY_EXPIRED") (js "Requested resolution is outside retention") (some (toDate e)))
        | none =>
          let points := q.points average v scope
          if q.limit < points.length then
            .error (.http 422 (js "TOO_MANY_POINTS") (js "Use a narrower window, coarser resolution or higher limit") none)
          else
            .ok {
              deviceId := scope.deviceId
              channel := q.channel
              start := q.start
              stop := q.stop
              resolution := q.resolution
              pendingRollup := q.resolution.isSome &&
                (v.joined scope v.history.tables.dirtyHours).any (q.window scope.deviceId).touches
              points }

/-! ## The evidence of a question -/

/-- A time as it is written, as `new Date` reads it and as PostgreSQL does, which keeps three more digits. -/
structure Written where
  date : ℤ
  timestamp : ℤ
  le : date * 1000 ≤ timestamp

structure SensorAskRequest where
  scope : Scope
  channel : Text
  start : Written
  stop : Written
  bounded : start.date < stop.date ∧ stop.date - start.date ≤ 86400000

structure Facts (ν : Type) where
  unit : Option Text
  count : ℕ
  min : Option ν
  max : Option ν
  mean : Option ν
  latest : Option (ℤ × ν)

/-- The variables of the loop over the rows; `min` and `max` are `Infinity` and `-Infinity` before the first. -/
structure Running (ν : Type) where
  index : ℕ
  mean : ν
  min : Option ν
  max : Option ν

def Running.add (s : Running ν) (value : ν) : Running ν where
  index := s.index + 1
  mean := s.mean * (JsNumber.ofNat s.index / JsNumber.ofNat (s.index + 1)) + value / JsNumber.ofNat (s.index + 1)
  min := some (s.min.elim value fun least => JsNumber.min least value)
  max := some (s.max.elim value fun most => JsNumber.max most value)

def running (values : List ν) : Running ν := values.foldl Running.add ⟨0, JsNumber.ofNat 0, none, none⟩

def factsOf (unit : Option Text) (rows : List (Reading Text Text ν)) : Facts ν :=
  let s := running (rows.map Reading.value)
  { unit
    count := rows.length
    min := s.min
    max := s.max
    mean := if rows.length = 0 then none else some s.mean
    latest := rows.getLast?.map fun r => (toDate r.ts, r.value) }

def evidence (v : Sight ν) (q : SensorAskRequest) : Except ContextError (Facts ν) :=
  match authorize v.db q.scope with
  | .error e => .error e
  | .ok channels =>
    match channels.get q.channel with
    | none => .error (.ask 404 (js "NOT_FOUND") (js "Channel not found"))
    | some described =>
      match v.db.rawBefore with
      | none => .error (.error (js "Missing retention state"))
      | some rawBefore =>
        if q.start.date < toDate rawBefore then
          .error (.ask 410 (js "HISTORY_EXPIRED") (js "Requested raw history has expired"))
        else
          let w : Window Text Text := ⟨q.scope.deviceId, q.channel, q.start.timestamp, q.stop.timestamp⟩
          let rows := (v.joined q.scope (v.history.tables.rawRows v.layout w)).take 10001
          if 10000 < rows.length then .error (.ask 422 (js "TOO_MANY_POINTS") (js "Choose a shorter window"))
          else .ok (factsOf (some described.unit) rows)

/-! ## The tools of the chat -/

structure WindowArgs where
  channel : Text
  start : Written
  stop : Written

def WindowArgs.window (args : WindowArgs) (q : Scope) : Window Text Text :=
  ⟨q.deviceId, args.channel, args.start.timestamp, args.stop.timestamp⟩

def spanMs : ℤ := 32 * 86400000
def windowRows : ℕ := 20000
def seriesPoints : ℕ := 200

/-- `checkSpan`, of two times that are finite. -/
def checkSpan (args : WindowArgs) : Option ContextError :=
  if args.stop.date ≤ args.start.date then
    some (.ask 400 (js "BAD_WINDOW") (js "Window end must follow its start"))
  else if spanMs < args.stop.date - args.start.date then
    some (.ask 422 (js "WINDOW_TOO_WIDE") (js "Window exceeds the supported span"))
  else none

/-- `channels[args.channel]`, and its `unit`: what every object has is found too, and has none. -/
def unitOf (channels : Channels ν) (channel : Text) : Option (Option Text) :=
  match channels.get channel with
  | some described => some (some described.unit)
  | none => (Llm.Tools.objectPrototype channel).map fun _ => none

/-- The checks that both tools begin with: of the span, and of the channel. -/
def admitted (v : Sight ν) (q : Scope) (args : WindowArgs) : Except ContextError (Option Text) :=
  match checkSpan args with
  | some e => .error e
  | none =>
    match v.db.device q with
    | none => .error .channels
    | some device =>
      if !device.channels.accepted then .error .channels
      else
        match unitOf device.channels args.channel with
        | none => .error (.ask 404 (js "NO_SUCH_CHANNEL") (js "This device has no such channel"))
        | some unit => .ok unit

def window (v : Sight ν) (q : Scope) (args : WindowArgs) : Except ContextError (Facts ν) := do
  let unit ← admitted v q args
  let rows := (v.joined q (v.history.tables.rawRows v.layout (args.window q))).take (windowRows + 1)
  if windowRows < rows.length then .error (.ask 422 (js "TOO_MANY_POINTS") (js "Window holds too many readings"))
  else .ok (factsOf unit rows)

structure SeriesPoint (ν : Type) where
  t : ℤ
  mean : ν
  min : ν
  max : ν
  n : ℕ

structure SeriesFacts (ν : Type) where
  unit : Option Text
  points : List (SeriesPoint ν)
  truncated : Bool

/-- `number` is `Number` of a `numeric`. -/
def Rollup.seriesPoint (number : ℚ → ν) (x : Rollup Text Text ν) : SeriesPoint ν :=
  ⟨toDate x.bucket, number x.facts.sum / JsNumber.ofNat x.facts.n, x.facts.min, x.facts.max, x.facts.n⟩

/-- `series` -/
def chatSeries (number : ℚ → ν) (v : Sight ν) (q : Scope) (args : WindowArgs) (res : Resolution) :
    Except ContextError (SeriesFacts ν) := do
  let unit ← admitted v q args
  let rows := (v.history.tables.rollupRows res (args.window q)).take (seriesPoints + 1)
  return {
    unit
    points := (rows.take seriesPoints).map (Rollup.seriesPoint number)
    truncated := seriesPoints < rows.length }

/-! ## What is answered -/

variable {sql : Numeric ν} {s : State Text Text ν} {es : List Event} {v : Sight ν}

omit [JsonNumber ν] in
theorem Sight.ok (h : (storage sql).Run es s) (hv : v.In s) :
    v.history.Ok sql s.now v.layout s.accepted := by
  obtain ⟨hlayout, i, hi⟩ := hv
  rw [hlayout]
  exact (inv_run h).snapshots i v.history hi

omit [JsonNumber ν] in
theorem Sight.rawRows_eq (h : (storage sql).Run es s) (hv : v.In s) {w : Window Text Text}
    (hstart : v.history.tables.rawBefore ≤ w.start) :
    v.history.tables.rawRows v.layout w = acceptedRows v.history.accepted w := by
  have hok := Sight.ok h hv
  rw [← hok.layout]
  exact Telemetry.rawRows_eq hok.retained hstart

omit [JsonNumber ν] in
/-- The bounds of what is kept are whole milliseconds. -/
theorem toDate_day {b : ℤ} (h : day ∣ b) : toDate b * 1000 = b := by
  obtain ⟨k, rfl⟩ := h
  unfold toDate day hour minute second
  omega

omit [JsonNumber ν] in
theorem dvd_minutesSince (time : ℤ) : day ∣ minutesSince time :=
  dvd_sub (dvd_trunc day time) (Dvd.intro_left 7 rfl)

omit [JsonNumber ν] [LinearOrder ν] in
theorem take_of_length {α : Type} {rows : List α} {n : ℕ} (h : ¬ n < (rows.take (n + 1)).length) : rows.take (n + 1) = rows := by
  refine List.take_of_length_le ?_
  rw [List.length_take] at h
  omega

namespace Bench

def s₈ : State Text Text ℚ := s₇.setReader 0 .locked

def history : Snapshot Text Text ℚ := ⟨s₇.tables, s₇.accepted, s₇.now⟩

def s₉ : State Text Text ℚ := s₈.setReader 0 (.reading history)

theorem sighted : (storage numbers).Run ([.insert 0, .touch 0, .store 0, .claim 0, .readMinutes 0, .readHours 0, .replace 0] ++
    [.lock 0] ++ [.snapshot 0]) s₉ :=
  .step (.step summarized (.lock rfl) trivial) (.snapshot (setReader_self (s := s₇))) trivial

def db : Ask.Tables ℚ where
  devices := [⟨[1], [2], none, ⟨[(js "moisture", ⟨js "%", 0, 100⟩)], by decide⟩, 60, none, none, none⟩]
  members := [([2], [3])]
  capabilities := []
  presence := []
  latest := []
  rawBefore := some 0

def sight : Sight ℚ := ⟨db, history, s₇.tables.readings.keys, day, rfl, le_rfl⟩

theorem sight_in : sight.In s₉ := ⟨rfl, 0, setReader_self⟩

def scope : Scope := ⟨[2], [1], [3]⟩

def query : SeriesQuery := ⟨js "moisture", 0, 3600000, some .hours, 1000, by decide, by decide, by decide, by decide⟩

def question : SensorAskRequest :=
  ⟨scope, js "moisture", ⟨0, 0, by decide⟩, ⟨3600000, hour, by decide⟩, by decide⟩

def args : WindowArgs := ⟨js "moisture", ⟨0, 0, by decide⟩, ⟨3600000, hour, by decide⟩⟩

theorem answered {ε α : Type} {x : Except ε α} (h : x.toOption.isSome = true) : ∃ a, x = .ok a := by
  cases x with
  | error e => exact absurd h (by simp [Except.toOption])
  | ok a => exact ⟨a, rfl⟩

end Bench

/-- What an answer of the gateway is to be: the readings of the window, or the aggregates of its buckets. -/
def History.Exact (average : ℚ → ℕ → ν) (sql : Numeric ν) (accepted : List (Reading Text Text ν)) (w : Window Text Text)
    (a : History ν) : Prop :=
  match a.resolution with
  | none => a.points = .raw ((acceptedRows accepted w).map Reading.point)
  | some res => ∃ rows, Shown sql accepted w res rows ∧ a.points = .rollups (rows.map (Rollup.point average))

/-- **A series that is not pending is exact**: it is of all readings that were accepted before the snapshot. -/
theorem series_exact (hrun : (storage sql).Run es s) (hv : v.In s) {average : ℚ → ℕ → ν} {scope : Scope} {q : SeriesQuery}
    {a : History ν} (h : series average v scope q = .ok a) (hpending : a.pendingRollup = false) :
    a.resolution = q.resolution ∧ a.Exact average sql v.history.accepted (q.window scope.deviceId) := by
  have hok := Sight.ok hrun hv
  unfold series at h
  split at h
  · exact absurd h (by simp)
  rename_i device hdevice
  rw [v.same] at h
  split_ifs at h with hprovisioned hchannel
  dsimp only at h
  split at h
  · exact absurd h (by simp)
  rename_i hearliest
  split_ifs at h with hlimit
  obtain rfl := Except.ok.inj h
  refine ⟨rfl, ?_⟩
  -- the device is there, so the join leaves the rows as they are
  have hjoined : ∀ {α : Type} (rows : List α), v.joined scope rows = rows := by
    intro α rows
    rw [Sight.joined, hdevice]
    rfl
  -- what starts before the retained is refused
  have hkept : ∀ e ∈ q.earliest v.history.tables.rawBefore v.time, day ∣ e → e ≤ q.start * 1000 := by
    intro e he hday
    have hnot : ¬ q.start < toDate e := by
      intro hlt
      rw [he, Option.filter_some, if_pos (by simpa using hlt)] at hearliest
      exact absurd hearliest (by simp)
    have hexact := toDate_day hday
    omega
  unfold History.Exact
  unfold SeriesQuery.points at hlimit ⊢
  unfold SeriesQuery.earliest at hkept
  dsimp only at hpending ⊢
  simp only [hjoined] at hlimit hpending ⊢
  cases hres : q.resolution with
  | none =>
      rw [hres] at hlimit hkept
      have hstart := hkept _ rfl hok.retained.aligned
      simp only [Points.length, List.length_map] at hlimit
      dsimp only
      rw [take_of_length hlimit, Sight.rawRows_eq hrun hv hstart]
  | some res =>
      rw [hres] at hlimit hkept hpending
      simp only [Points.length, List.length_map] at hlimit
      have hclean : ∀ m ∈ v.history.tables.dirtyHours, (q.window scope.deviceId).touches m = false := by
        intro m hm
        have hany : v.history.tables.dirtyHours.any (q.window scope.deviceId).touches = false := by simpa using hpending
        exact Bool.eq_false_iff.mpr fun htouch => List.any_eq_false.mp hany m hm htouch
      have hminutes : res = .minutes → minutesSince v.history.taken ≤ (q.window scope.deviceId).start := by
        rintro rfl
        exact (minutesSince_mono v.later).trans (hkept _ rfl (dvd_minutesSince v.time))
      dsimp only
      rw [take_of_length hlimit]
      exact ⟨_, rollupRows_shown hok.summarized hclean hminutes, rfl⟩

theorem series_exact_bench : ∃ a, series (fun sum n => sum / n) Bench.sight Bench.scope Bench.query = .ok a ∧
    a.Exact (fun sum n => sum / n) Bench.numbers Bench.history.accepted (Bench.query.window [1]) := by
  obtain ⟨a, ha⟩ : ∃ a, series (fun sum n => sum / n) Bench.sight Bench.scope Bench.query = .ok a :=
    Bench.answered (by decide +kernel)
  have hpending : a.pendingRollup = false := by
    have hany : (series (fun sum n => sum / n) Bench.sight Bench.scope Bench.query).toOption.all
        (fun a => !a.pendingRollup) = true := by decide +kernel
    rw [ha] at hany
    simpa [Except.toOption] using hany
  exact ⟨a, ha, (series_exact Bench.sighted Bench.sight_in ha hpending).2⟩

omit [LinearOrder ν] in
theorem evidence_ok (hday : day ∣ v.history.tables.rawBefore) {q : SensorAskRequest} {f : Facts ν}
    (h : evidence v q = .ok f) : v.history.tables.rawBefore ≤ q.start.timestamp ∧
      f = factsOf f.unit (v.history.tables.rawRows v.layout
        ⟨q.scope.deviceId, q.channel, q.start.timestamp, q.stop.timestamp⟩) := by
  unfold evidence at h
  split at h
  · exact absurd h (by simp)
  rename_i channels hauthorized
  split at h
  · exact absurd h (by simp)
  rename_i described hdescribed
  rw [v.same] at h
  dsimp only at h
  split_ifs at h with hexpired hmany
  obtain rfl := Except.ok.inj h
  have hdevice : (v.db.device q.scope).isSome = true := by
    unfold authorize at hauthorized
    split at hauthorized
    · simp [*]
    · exact absurd hauthorized (by simp)
  have hjoined : ∀ {α : Type} (rows : List α), v.joined q.scope rows = rows := by
    intro α rows
    rw [Sight.joined, if_pos hdevice]
  simp only [hjoined] at hmany ⊢
  rw [take_of_length hmany]
  refine ⟨?_, rfl⟩
  have hexact := toDate_day hday
  have hle := q.start.le
  omega

/-- **The evidence is of all readings that were accepted** in the window before the snapshot. -/
theorem evidence_exact (hrun : (storage sql).Run es s) (hv : v.In s) {q : SensorAskRequest} {f : Facts ν}
    (h : evidence v q = .ok f) : f = factsOf f.unit (acceptedRows v.history.accepted
      ⟨q.scope.deviceId, q.channel, q.start.timestamp, q.stop.timestamp⟩) := by
  obtain ⟨hstart, hfacts⟩ := evidence_ok (Sight.ok hrun hv).retained.aligned h
  rwa [Sight.rawRows_eq hrun hv hstart] at hfacts

theorem evidence_exact_bench : ∃ f, evidence Bench.sight Bench.question = .ok f ∧ f = factsOf f.unit
    (acceptedRows Bench.history.accepted ⟨[1], js "moisture", 0, hour⟩) := by
  obtain ⟨f, hf⟩ := Bench.answered (x := evidence Bench.sight Bench.question) (by decide +kernel)
  exact ⟨f, hf, evidence_exact Bench.sighted Bench.sight_in hf⟩

omit [LinearOrder ν] in
/-- A tool that gets past its checks has found the device. -/
theorem admitted_device {q : Scope} {args : WindowArgs} {unit : Option Text} (h : admitted v q args = .ok unit) :
    (v.db.device q).isSome = true := by
  unfold admitted at h
  split at h
  · exact absurd h (by simp)
  · split at h
    · exact absurd h (by simp)
    · simp [*]

/-- **A window of the chat is of the readings that are still stored**: of all that were accepted it leaves out none
but those before the boundary, of hours that are not dirty, and it does not say whether it has. -/
theorem window_kept (hrun : (storage sql).Run es s) (hv : v.In s) {q : Scope} {args : WindowArgs} {f : Facts ν}
    (h : window v q args = .ok f) : ∃ rows, f = factsOf f.unit rows ∧
      rows.Sublist (acceptedRows v.history.accepted (args.window q)) ∧
      (∀ r ∈ acceptedRows v.history.accepted (args.window q),
        v.history.tables.rawBefore ≤ r.ts ∨ r.marker ∈ v.history.tables.dirtyHours → r ∈ rows) ∧
      (v.history.tables.rawBefore ≤ (args.window q).start → rows = acceptedRows v.history.accepted (args.window q)) := by
  have hok := Sight.ok hrun hv
  unfold window at h
  cases hadmitted : admitted v q args with
  | error e =>
      rw [hadmitted] at h
      exact absurd h (by simp [bind, Except.bind])
  | ok unit =>
      rw [hadmitted] at h
      simp only [bind, Except.bind, Sight.joined, if_pos (admitted_device hadmitted)] at h
      split_ifs at h with hmany
      obtain rfl := Except.ok.inj h
      rw [take_of_length hmany]
      refine ⟨_, rfl, ?_, ?_, fun hstart => Sight.rawRows_eq hrun hv hstart⟩
      · rw [← hok.layout]
        exact rawRows_sublist hok.retained
      · intro r hr hkept
        obtain ⟨hin, hreads⟩ := List.mem_filter.mp (Keyset.mem_ordered.mp hr)
        rw [← hok.layout]
        exact (mem_rawRows hok.retained).mpr ⟨hok.retained.kept r hin hkept, hreads⟩

theorem window_kept_bench : ∃ f, window Bench.sight Bench.scope Bench.args = .ok f ∧
    ∃ rows, f = factsOf f.unit rows ∧ rows.Sublist (acceptedRows Bench.history.accepted (Bench.args.window Bench.scope)) := by
  obtain ⟨f, hf⟩ := Bench.answered (x := window Bench.sight Bench.scope Bench.args) (by decide +kernel)
  obtain ⟨rows, heq, hsub, -⟩ := window_kept Bench.sighted Bench.sight_in hf
  exact ⟨f, hf, rows, heq, hsub⟩

/-- **A series of the chat is exact where its hours are clean** and, for minutes, recent enough; it says that it is
truncated where it is. -/
theorem chatSeries_exact (hrun : (storage sql).Run es s) (hv : v.In s) {number : ℚ → ν} {q : Scope} {args : WindowArgs}
    {res : Resolution} {f : SeriesFacts ν} (h : chatSeries number v q args res = .ok f)
    (hclean : ∀ m ∈ v.history.tables.dirtyHours, (args.window q).touches m = false)
    (hminutes : res = .minutes → minutesSince v.history.taken ≤ (args.window q).start) :
    ∃ rows, Shown sql v.history.accepted (args.window q) res rows ∧
      f.points = (rows.take seriesPoints).map (Rollup.seriesPoint number) ∧
      (f.truncated = true ↔ seriesPoints < rows.length) := by
  have hok := Sight.ok hrun hv
  unfold chatSeries at h
  cases hadmitted : admitted v q args with
  | error e =>
      rw [hadmitted] at h
      exact absurd h (by simp [bind, Except.bind])
  | ok unit =>
      rw [hadmitted] at h
      obtain rfl := Except.ok.inj h
      refine ⟨_, rollupRows_shown hok.summarized hclean hminutes, ?_, ?_⟩
      · dsimp only
        rw [List.take_take]
        simp
      · simp only [decide_eq_true_eq, List.length_take]
        omega

theorem chatSeries_exact_bench : ∃ f, chatSeries id Bench.sight Bench.scope Bench.args .hours = .ok f ∧
    ∃ rows, Shown Bench.numbers Bench.history.accepted (Bench.args.window Bench.scope) .hours rows ∧
      f.points = (rows.take seriesPoints).map (Rollup.seriesPoint id) := by
  obtain ⟨f, hf⟩ := Bench.answered (x := chatSeries id Bench.sight Bench.scope Bench.args .hours) (by decide +kernel)
  obtain ⟨rows, hshown, hpoints, -⟩ := chatSeries_exact Bench.sighted Bench.sight_in hf (by decide) (by simp)
  exact ⟨f, hf, rows, hshown, hpoints⟩

/-! ## The two ways to a number -/

section Rational

variable {values : List ℚ}

theorem running_snoc (values : List ℚ) (value : ℚ) : running (values ++ [value]) = (running values).add value := by
  unfold running
  rw [List.foldl_append]
  rfl

theorem running_index (values : List ℚ) : (running values).index = values.length := by
  induction values using List.reverseRecOn with
  | nil => rfl
  | append_singleton values value ih =>
      rw [running_snoc, List.length_append]
      show (running values).index + 1 = values.length + 1
      rw [ih]

/-- **The incremental mean is the mean.** -/
theorem running_mean (values : List ℚ) : (running values).mean * values.length = values.sum := by
  induction values using List.reverseRecOn with
  | nil => simp
  | append_singleton values value ih =>
      rw [running_snoc, List.length_append, List.sum_append]
      show ((running values).mean * ((running values).index / ((running values).index + 1 : ℕ)) +
        value / ((running values).index + 1 : ℕ)) * ((values.length + 1 : ℕ) : ℚ) = _
      rw [running_index]
      have hpos : ((values.length + 1 : ℕ) : ℚ) ≠ 0 := Nat.cast_ne_zero.mpr (Nat.succ_ne_zero _)
      rw [add_mul, div_mul_cancel₀ _ hpos, mul_assoc, div_mul_cancel₀ _ hpos, ih]
      simp

theorem running_min (values : List ℚ) : (running values).min = values.foldl (raise OrderDual.toDual) none := by
  induction values using List.reverseRecOn with
  | nil => rfl
  | append_singleton values value ih =>
      rw [running_snoc, List.foldl_append, ← ih]
      show some ((running values).min.elim value fun least => min least value) = raise OrderDual.toDual (running values).min value
      cases (running values).min with
      | none => rfl
      | some least =>
          show some (min least value) = if value < least then some value else some least
          by_cases hlt : value < least
          · rw [if_pos hlt, min_eq_right hlt.le]
          · rw [if_neg hlt, min_eq_left (not_lt.mp hlt)]

theorem running_max (values : List ℚ) : (running values).max = values.foldl (raise id) none := by
  induction values using List.reverseRecOn with
  | nil => rfl
  | append_singleton values value ih =>
      rw [running_snoc, List.foldl_append, ← ih]
      show some ((running values).max.elim value fun most => max most value) = raise id (running values).max value
      cases (running values).max with
      | none => rfl
      | some most =>
          show some (max most value) = if most < value then some value else some most
          by_cases hlt : most < value
          · rw [if_pos hlt, max_eq_right hlt.le]
          · rw [if_neg hlt, max_eq_left (not_lt.mp hlt)]

/-- The last of rows in order is the greatest. -/
theorem last_of_strict {rows : List (Reading Text Text ℚ)} (h : rows.Pairwise fun r r' => r.place < r'.place) :
    rows.foldl (raise Reading.place) none = rows.getLast? := by
  induction rows using List.reverseRecOn with
  | nil => rfl
  | append_singleton rows r ih =>
      obtain ⟨hrows, -, hlast⟩ := List.pairwise_append.mp h
      rw [List.foldl_append, ih hrows, List.getLast?_append]
      show raise Reading.place rows.getLast? r = some r
      cases hr : rows.getLast? with
      | none => rfl
      | some r' => exact if_pos (hlast r' (List.mem_of_getLast? hr) r List.mem_cons_self)

/-- What a loop over rows in order finds out is what the aggregates are. -/
theorem factsOf_aggregates {sql : Numeric ℚ} (hnumeric : ∀ value, sql.numeric value = value)
    {rows : List (Reading Text Text ℚ)} (h : rows.Pairwise fun r r' => r.place < r'.place) {facts : Aggregates ℚ}
    (hfacts : aggregates sql rows = some facts) (unit : Option Text) :
    (factsOf unit rows).count = facts.n ∧ (factsOf unit rows).mean = some (facts.sum / facts.n) ∧
      (factsOf unit rows).min = some facts.min ∧ (factsOf unit rows).max = some facts.max ∧
      (factsOf unit rows).latest.map Prod.snd = some facts.last := by
  have hvalues : (rows.map fun r => sql.numeric r.value) = rows.map Reading.value :=
    List.map_congr_left fun r _ => hnumeric r.value
  unfold aggregates at hfacts
  rw [last_of_strict h, ← running_min, ← running_max, hvalues] at hfacts
  obtain ⟨last, hlast, hfacts⟩ := Option.bind_eq_some_iff.mp hfacts
  obtain ⟨least, hleast, hfacts⟩ := Option.bind_eq_some_iff.mp hfacts
  obtain ⟨most, hmost, hfacts⟩ := Option.bind_eq_some_iff.mp hfacts
  obtain rfl := Option.some.inj hfacts
  have hne : rows.length ≠ 0 := by
    rintro hnil
    rw [List.length_eq_zero_iff.mp hnil] at hlast
    exact absurd hlast (by simp)
  have hmean := running_mean (rows.map Reading.value)
  rw [List.length_map] at hmean
  refine ⟨rfl, ?_, hleast, hmost, ?_⟩
  · show (if rows.length = 0 then none else some _) = some (_ / (rows.length : ℚ))
    rw [if_neg hne, ← hmean, mul_div_cancel_right₀ _ (Nat.cast_ne_zero.mpr hne)]
  · show (rows.getLast?.map _).map Prod.snd = some last.value
    rw [hlast]
    rfl

/-- **Where the numbers are exact, the evidence of a bucket is its roll-up**, though the one is computed from the raw
readings when it is asked for, and the other was by a worker. -/
theorem evidence_rollup {sql : Numeric ℚ} {es : List Event} {s : State Text Text ℚ} {v : Sight ℚ}
    (hrun : (storage sql).Run es s) (hv : v.In s) (hnumeric : ∀ value, sql.numeric value = value)
    {x : Rollup Text Text ℚ} (hx : x ∈ v.history.tables.rollups) (hclean : x.marker ∉ v.history.tables.dirtyHours)
    {q : SensorAskRequest} (hdevice : q.scope.deviceId = x.deviceId) (hchannel : q.channel = x.channel)
    (hstart : q.start.timestamp = x.bucket) (hstop : q.stop.timestamp = x.bucket + x.resolution.unit)
    {f : Facts ℚ} (h : evidence v q = .ok f) :
    f.count = x.facts.n ∧ f.mean = some (x.facts.sum / x.facts.n) ∧ f.min = some x.facts.min ∧
      f.max = some x.facts.max ∧ f.latest.map Prod.snd = some x.facts.last := by
  have hok := Sight.ok hrun hv
  have hfacts := hok.summarized.sound x hx hclean
  obtain ⟨r, -, hcovers⟩ := Rollup.facts_reading hfacts
  have hbucket : x.resolution.unit ∣ x.bucket := (inBucket_iff.mp hcovers).2.2 ▸ dvd_trunc _ _
  obtain ⟨hbefore, hrows⟩ := evidence_ok hok.retained.aligned h
  rw [hrows, Sight.rawRows_eq hrun hv hbefore, hdevice, hchannel, hstart, hstop]
  -- the window holds what the bucket covers
  have hsame : v.history.accepted.filter (Window.reads ⟨x.deviceId, x.channel, x.bucket, x.bucket + x.resolution.unit⟩) =
      v.history.accepted.filter x.covers := by
    refine List.filter_congr fun r _ => ?_
    rw [Bool.eq_iff_iff, Window.reads_iff, Rollup.covers, inBucket_iff, trunc_eq_iff x.resolution.unit_pos hbucket]
  refine factsOf_aggregates hnumeric (acceptedRows_strict hok.retained) ?_ f.unit
  have hplaced : Placed (v.history.accepted.filter x.covers) :=
    placed_of_keys (hok.retained.keys_filter _) fun r hr => (inBucket_iff.mp (List.of_mem_filter hr)).1
  unfold acceptedRows
  rw [hsame, ← hfacts]
  exact (aggregates_perm sql (sortBy_perm _ _).symm hplaced).symm

theorem evidence_rollup_bench : ∃ x ∈ Bench.history.tables.rollups, ∃ f, evidence Bench.sight Bench.question = .ok f ∧
    f.count = x.facts.n := by
  obtain ⟨f, hf⟩ := Bench.answered (x := evidence Bench.sight Bench.question) (by decide +kernel)
  have hsum := (Sight.ok Bench.sighted Bench.sight_in).summarized
  obtain ⟨x, hx, hres, hcovers⟩ := hsum.complete Bench.reading (by decide) (by decide) .hours (by simp)
  obtain ⟨hdevice, hchannel, hbucket⟩ := inBucket_iff.mp hcovers
  rw [hres] at hbucket
  have hzero : trunc Resolution.hours.unit Bench.reading.ts = 0 := by decide
  have hclean : x.marker ∉ Bench.history.tables.dirtyHours := by
    rw [← Rollup.covers_marker hcovers]
    decide
  refine ⟨x, hx, f, hf, (evidence_rollup Bench.sighted Bench.sight_in (fun _ => rfl) hx hclean hdevice hchannel
    (hzero.symm.trans hbucket) ?_ hf).1⟩
  rw [hres, ← hbucket, hzero]
  decide

end Rational

end Albusforge.Telemetry
