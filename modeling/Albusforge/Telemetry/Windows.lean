import Albusforge.Telemetry.Interleavings

/-!
# Windows of the history

What a query finds of a channel in a window of time: of the raw readings in order (`rawRows`), and of the roll-ups of
one resolution (`rollupRows`). **The first are all readings that were ever accepted in the window**, as long as it
starts behind the retention boundary (`rawRows_eq`). **The second are the aggregates of all that were ever accepted**,
bucket by bucket, as long as no hour that the window touches is dirty (`rollupRows_shown`).
-/

namespace Albusforge.Telemetry

open Lib

/-- `... WHERE device_id=$1 AND channel=$2 AND ts >= $3 AND ts < $4` -/
structure Window (δ χ : Type) where
  deviceId : δ
  channel : χ
  start : ℤ
  stop : ℤ

variable {δ χ ν : Type} [LinearOrder δ] [LinearOrder χ] [LinearOrder ν]

namespace Window

def reads (w : Window δ χ) (r : Reading δ χ ν) : Bool :=
  r.deviceId = w.deviceId && r.channel = w.channel && w.start ≤ r.ts && r.ts < w.stop

def selects (w : Window δ χ) (res : Resolution) (x : Rollup δ χ ν) : Bool :=
  x.deviceId = w.deviceId && x.channel = w.channel && x.resolution = res && w.start ≤ x.bucket && x.bucket < w.stop

/-- `h.bucket < $5 AND h.bucket+interval '1 hour' > $4` -/
def touches (w : Window δ χ) (m : Marker δ χ) : Bool :=
  m.deviceId = w.deviceId && m.channel = w.channel && m.bucket < w.stop && w.start < m.bucket + hour

variable {w : Window δ χ} {r : Reading δ χ ν} {x : Rollup δ χ ν} {m : Marker δ χ} {res : Resolution}

omit [LinearOrder ν] in
theorem reads_iff : w.reads r = true ↔
    r.deviceId = w.deviceId ∧ r.channel = w.channel ∧ w.start ≤ r.ts ∧ r.ts < w.stop := by
  simp [reads, and_assoc]

omit [LinearOrder ν] in
theorem selects_iff : w.selects res x = true ↔ x.deviceId = w.deviceId ∧ x.channel = w.channel ∧ x.resolution = res ∧
    w.start ≤ x.bucket ∧ x.bucket < w.stop := by
  simp [selects, and_assoc]

theorem touches_iff : w.touches m = true ↔
    m.deviceId = w.deviceId ∧ m.channel = w.channel ∧ m.bucket < w.stop ∧ w.start < m.bucket + hour := by
  simp [touches, and_assoc]

omit [LinearOrder ν] in
/-- The hour of a roll-up in the window is one that the window touches. -/
theorem touches_of_selects (h : w.selects res x = true) : w.touches x.marker = true := by
  obtain ⟨hdevice, hchannel, -, hstart, hstop⟩ := selects_iff.mp h
  have hle := trunc_le hour_pos x.bucket
  have hlt := lt_trunc hour_pos x.bucket
  exact touches_iff.mpr ⟨hdevice, hchannel, show trunc hour x.bucket < w.stop by omega,
    show w.start < trunc hour x.bucket + hour by omega⟩

end Window

/-- `ORDER BY r.ts,r.seq,r.ordinal`, over the partitions as they are laid out now. -/
def Tables.rawRows (t : Tables δ χ ν) (layout : List ℤ) (w : Window δ χ) : List (Reading δ χ ν) :=
  Keyset.ordered Reading.place ((t.readings.through dayOf layout).filter w.reads)

/-- `ORDER BY r.bucket` -/
def Tables.rollupRows (t : Tables δ χ ν) (res : Resolution) (w : Window δ χ) : List (Rollup δ χ ν) :=
  Keyset.ordered Rollup.bucket (t.rollups.filter (w.selects res))

/-- All readings of the window that were accepted, in order. -/
def acceptedRows (accepted : List (Reading δ χ ν)) (w : Window δ χ) : List (Reading δ χ ν) :=
  Keyset.ordered Reading.place (accepted.filter w.reads)

/-- The rows are what the window has of roll-ups, each of all readings of its bucket that were accepted. -/
structure Shown (sql : Numeric ν) (accepted : List (Reading δ χ ν)) (w : Window δ χ) (res : Resolution)
    (rows : List (Rollup δ χ ν)) : Prop where
  sorted : rows.Pairwise fun x y => x.bucket < y.bucket
  exact : ∀ x, x ∈ rows ↔ w.selects res x = true ∧ aggregates sql (accepted.filter x.covers) = some x.facts

variable {sql : Numeric ν} {t : Tables δ χ ν} {accepted : List (Reading δ χ ν)} {w : Window δ χ} {now : ℤ} {res : Resolution}

/-! ## Raw readings -/

omit [LinearOrder ν] in
theorem acceptedRows_strict (h : Retained t accepted) : (acceptedRows accepted w).Pairwise fun r r' => r.place < r'.place := by
  refine Keyset.ordered_strict ?_
  have hplaced : Placed (accepted.filter w.reads) :=
    placed_of_keys (h.keys_filter w.reads) fun r hr => (Window.reads_iff.mp (List.of_mem_filter hr)).1
  exact List.Nodup.map_on hplaced (nodup_of_keys (h.keys_filter w.reads))

omit [LinearOrder ν] in
theorem mem_rawRows (h : Retained t accepted) {r : Reading δ χ ν} :
    r ∈ t.rawRows t.readings.keys w ↔ r ∈ t.readings.all ∧ w.reads r = true := by
  unfold Tables.rawRows
  rw [Keyset.mem_ordered, h.laid.through_self, List.mem_filter]

omit [LinearOrder ν] in
/-- **Nothing but what was accepted is found**, and in the same order. -/
theorem rawRows_sublist (h : Retained t accepted) : (t.rawRows t.readings.keys w).Sublist (acceptedRows accepted w) := by
  have hsub : t.rawRows t.readings.keys w ⊆ acceptedRows accepted w := by
    intro r hr
    obtain ⟨hin, hreads⟩ := (mem_rawRows h).mp hr
    exact Keyset.mem_ordered.mpr (List.mem_filter.mpr ⟨h.stored hin, hreads⟩)
  refine sublist_of_sorted Reading.place (Keyset.ordered_strict ?_) (acceptedRows_strict h) hsub
  rw [h.laid.through_self]
  have hplaced : Placed (t.readings.all.filter w.reads) := by
    refine (placed_of_keys (h.keys_filter w.reads) fun r hr => (Window.reads_iff.mp (List.of_mem_filter hr)).1).subset ?_
    intro r hr
    obtain ⟨hin, hreads⟩ := List.mem_filter.mp hr
    exact List.mem_filter.mpr ⟨h.stored hin, hreads⟩
  exact List.Nodup.map_on hplaced (h.nodup.filter _)

omit [LinearOrder ν] in
/-- **Behind the boundary every reading is found.** -/
theorem rawRows_eq (h : Retained t accepted) (hstart : t.rawBefore ≤ w.start) :
    t.rawRows t.readings.keys w = acceptedRows accepted w := by
  refine (rawRows_sublist h).antisymm (sublist_of_sorted Reading.place (acceptedRows_strict h) ?_ ?_)
  · exact (acceptedRows_strict h).sublist (rawRows_sublist h)
  · intro r hr
    obtain ⟨hin, hreads⟩ := List.mem_filter.mp (Keyset.mem_ordered.mp hr)
    have hts := (Window.reads_iff.mp hreads).2.2.1
    exact (mem_rawRows h).mpr ⟨h.kept r hin (Or.inl (hstart.trans hts)), hreads⟩

/-! ## Roll-ups -/

/-- A reading that a roll-up covers is of its hour. -/
theorem Rollup.facts_reading {x : Rollup δ χ ν} (h : aggregates sql (accepted.filter x.covers) = some x.facts) :
    ∃ r ∈ accepted, x.covers r = true := by
  cases hrows : accepted.filter x.covers with
  | nil =>
      rw [hrows] at h
      exact absurd h (by simp [aggregates])
  | cons r rows =>
      have hr : r ∈ accepted.filter x.covers := hrows ▸ List.mem_cons_self
      exact ⟨r, (List.mem_filter.mp hr).1, (List.mem_filter.mp hr).2⟩

/-- **Where no hour is dirty, the roll-ups are the aggregates of all that was accepted.** -/
theorem rollupRows_shown (hsum : Summarized sql t accepted now) (hclean : ∀ m ∈ t.dirtyHours, w.touches m = false)
    (hres : res = .minutes → minutesSince now ≤ w.start) : Shown sql accepted w res (t.rollupRows res w) := by
  have hmarker : ∀ {x : Rollup δ χ ν}, w.selects res x = true → x.marker ∉ t.dirtyHours := by
    intro x hx hdirty
    have htouches := Window.touches_of_selects hx
    rw [hclean _ hdirty] at htouches
    exact Bool.noConfusion htouches
  constructor
  · -- within the window a bucket has one row
    refine Keyset.ordered_strict (List.Nodup.map_on ?_ ((List.Nodup.of_map _ hsum.keys).filter _))
    intro x hx y hy hbucket
    obtain ⟨hx, hxs⟩ := List.mem_filter.mp hx
    obtain ⟨hy, hys⟩ := List.mem_filter.mp hy
    obtain ⟨hxd, hxc, hxr, -⟩ := Window.selects_iff.mp hxs
    obtain ⟨hyd, hyc, hyr, -⟩ := Window.selects_iff.mp hys
    refine List.inj_on_of_nodup_map hsum.keys hx hy ?_
    unfold Rollup.key
    rw [hxd, hxc, hxr, hyd, hyc, hyr, hbucket]
  · intro x
    unfold Tables.rollupRows
    rw [Keyset.mem_ordered, List.mem_filter]
    constructor
    · rintro ⟨hx, hxs⟩
      exact ⟨hxs, hsum.sound x hx (hmarker hxs)⟩
    · rintro ⟨hxs, hfacts⟩
      obtain ⟨r, hr, hcovers⟩ := Rollup.facts_reading hfacts
      obtain ⟨hdevice, hchannel, hbucket⟩ := inBucket_iff.mp hcovers
      obtain ⟨-, -, hxr, hstart, -⟩ := Window.selects_iff.mp hxs
      have hminutes : res = .minutes → minutesSince now ≤ trunc minute r.ts := by
        intro hres'
        have hunit : trunc minute r.ts = x.bucket := by rw [← hbucket, hxr, hres']; rfl
        rw [hunit]
        exact (hres hres').trans hstart
      obtain ⟨y, hy, hyr, hycovers⟩ := hsum.complete r hr (Rollup.covers_marker hcovers ▸ hmarker hxs) res hminutes
      obtain ⟨hydevice, hychannel, hybucket⟩ := inBucket_iff.mp hycovers
      have hsame : y.bucket = x.bucket := by rw [← hybucket, ← hbucket, hyr, hxr]
      -- the row that is there is of the same bucket, and so it is the same
      have hkey : y.covers = x.covers := by
        unfold Rollup.covers
        rw [← hydevice, ← hychannel, ← hdevice, ← hchannel, hyr, hxr, hsame]
      have hymarker : y.marker ∉ t.dirtyHours := by
        rw [← Rollup.covers_marker hycovers, Rollup.covers_marker hcovers]
        exact hmarker hxs
      have hyfacts := hsum.sound y hy hymarker
      rw [hkey, hfacts] at hyfacts
      have heq : y = x := by
        cases x
        cases y
        simp only [Rollup.mk.injEq]
        exact ⟨hydevice.symm.trans hdevice, hychannel.symm.trans hchannel, hyr.trans hxr.symm, hsame,
          (Option.some.inj hyfacts).symm⟩
      exact ⟨heq ▸ hy, hxs⟩

end Albusforge.Telemetry
