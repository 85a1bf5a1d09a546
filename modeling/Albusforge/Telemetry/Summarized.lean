import Albusforge.Telemetry.Retained

/-!
# What the roll-ups say

An hour that is not dirty has the roll-ups that all of its readings make, those by the minute as far back as they are
kept (`Summarized`). A commit of the ingest route marks the hours that it adds to, so that what is said of the others
stays right; and the commit of a worker puts right what is said of its own.
-/

namespace Albusforge.Telemetry

open Lib

variable {δ χ ν : Type} [LinearOrder δ] [LinearOrder χ] [LinearOrder ν]
variable {sql : Numeric ν} {t t' : Tables δ χ ν} {accepted batch : List (Reading δ χ ν)} {now now' : ℤ}

theorem minutesSince_mono (h : now ≤ now') : minutesSince now ≤ minutesSince now' := by
  have hquot := Int.ediv_le_ediv day_pos h
  have hmul := Int.mul_le_mul_of_nonneg_right hquot day_pos.le
  unfold minutesSince trunc
  omega

structure Summarized (sql : Numeric ν) (t : Tables δ χ ν) (accepted : List (Reading δ χ ν)) (now : ℤ) : Prop where
  keys : (t.rollups.map Rollup.key).Nodup
  sound : ∀ x ∈ t.rollups, x.marker ∉ t.dirtyHours → aggregates sql (accepted.filter x.covers) = some x.facts
  complete : ∀ r ∈ accepted, r.marker ∉ t.dirtyHours → ∀ res,
    (res = .minutes → minutesSince now ≤ trunc minute r.ts) → ∃ x ∈ t.rollups, x.resolution = res ∧ x.covers r = true

theorem Summarized.later (h : Summarized sql t accepted now) (hle : now ≤ now') : Summarized sql t accepted now' where
  keys := h.keys
  sound := h.sound
  complete := fun r hr hclean res hres => h.complete r hr hclean res fun heq =>
    (minutesSince_mono hle).trans (hres heq)

theorem Summarized.congr (h : Summarized sql t accepted now) (hrollups : t'.rollups = t.rollups)
    (hdirty : t'.dirtyHours = t.dirtyHours) : Summarized sql t' accepted now where
  keys := hrollups ▸ h.keys
  sound := by rw [hrollups, hdirty]; exact h.sound
  complete := by rw [hrollups, hdirty]; exact h.complete

/-! ## A commit of the ingest route -/

/-- What the insertion of a batch was checked for. -/
structure Admissible (t : Tables δ χ ν) (batch : List (Reading δ χ ν)) : Prop where
  keys : (batch.map Reading.key).Nodup
  fresh : ∀ r ∈ batch, r.key ∉ t.readings.all.map Reading.key
  recent : ∀ r ∈ batch, t.rawBefore ≤ r.ts

/-- The markers that are locked are those of the batch. -/
def Touched (batch : List (Reading δ χ ν)) (held : List (Marker δ χ)) : Prop :=
  ∀ m, m ∈ held ↔ ∃ r ∈ batch, r.marker = m

omit [LinearOrder ν] in
theorem mem_markHours {hours : List (Marker δ χ)} {m : Marker δ χ} :
    m ∈ (t.markHours hours).dirtyHours ↔ m ∈ t.dirtyHours ∨ m ∈ hours := by
  unfold Tables.markHours
  rw [List.mem_append, List.mem_filter]
  by_cases hm : m ∈ t.dirtyHours
  · simp [hm]
  · simp [hm]

omit [LinearOrder δ] [LinearOrder χ] [LinearOrder ν] in
/-- **A key that is not stored was never accepted**, since the rows that were dropped are before the boundary. -/
theorem Retained.fresh (h : Retained t accepted) (ha : Admissible t batch) {r : Reading δ χ ν} (hr : r ∈ batch) :
    r.key ∉ accepted.map Reading.key := by
  intro hin
  obtain ⟨r', hr', hkey⟩ := List.mem_map.mp hin
  have hts : r'.ts = r.ts := (Reading.key_inj.mp hkey).2.2.2
  have hstored := h.kept r' hr' (Or.inl (hts ▸ ha.recent r hr))
  exact ha.fresh r hr (hkey ▸ List.mem_map_of_mem hstored)

omit [LinearOrder ν] in
theorem Retained.store (h : Retained t accepted) (ha : Admissible t batch) {held : List (Marker δ χ)}
    (hheld : Touched batch held) : Retained ((t.insertBatch batch).markHours held) (accepted ++ batch) := by
  have hperm : ((t.insertBatch batch).markHours held).readings.all.Perm (t.readings.all ++ batch) :=
    Partitioned.all_insert h.laid.keys batch
  refine ⟨h.laid.insert batch, h.aligned, ?_, ?_, ?_, ?_, ?_⟩
  · intro m hm
    rcases mem_markHours.mp hm with hm | hm
    · exact h.hours m hm
    · obtain ⟨r, -, rfl⟩ := (hheld m).mp hm
      exact marker_bucket r
  · rw [List.map_append, List.nodup_append]
    refine ⟨h.keys, ha.keys, ?_⟩
    rintro k hk k' hk' rfl
    obtain ⟨r, hr, rfl⟩ := List.mem_map.mp hk'
    exact h.fresh ha hr hk
  · rw [hperm.nodup_iff, List.nodup_append]
    refine ⟨h.nodup, nodup_of_keys ha.keys, ?_⟩
    rintro r hr r' hr' rfl
    exact ha.fresh r hr' (List.mem_map_of_mem hr)
  · intro r hr
    rcases List.mem_append.mp (hperm.mem_iff.mp hr) with hr | hr
    · exact List.mem_append_left _ (h.stored hr)
    · exact List.mem_append_right _ hr
  · intro r hr hkept
    refine hperm.mem_iff.mpr (List.mem_append.mpr ?_)
    rcases List.mem_append.mp hr with hr | hr
    · left
      refine h.kept r hr ?_
      rcases hkept with hts | hdirty
      · exact Or.inl hts
      · rcases mem_markHours.mp hdirty with hdirty | htouched
        · exact Or.inr hdirty
        · -- the hour has a row that has just been let in, and the boundary does not cut through an hour
          left
          obtain ⟨r', hr', hsame⟩ := (hheld r.marker).mp htouched
          have hhour : hour ∣ t.rawBefore := hour_dvd_day.trans h.aligned
          have hle := (le_trunc_iff hour_pos hhour).mpr (ha.recent r' hr')
          have hbucket : trunc hour r'.ts = trunc hour r.ts := congrArg Marker.bucket hsame
          exact (le_trunc_iff hour_pos hhour).mp (hbucket ▸ hle)
    · exact Or.inr hr

omit [LinearOrder δ] [LinearOrder χ] [LinearOrder ν] in
/-- Of an hour that is not touched, nothing is new. -/
theorem filter_untouched {held : List (Marker δ χ)} (hheld : Touched batch held) {m : Marker δ χ} (hm : m ∉ held)
    {p : Reading δ χ ν → Bool} (hp : ∀ r, p r = true → r.marker = m) :
    (accepted ++ batch).filter p = accepted.filter p := by
  have hnone : batch.filter p = [] := by
    rw [List.filter_eq_nil_iff]
    intro r hr hpr
    exact hm ((hheld m).mpr ⟨r, hr, hp r hpr⟩)
  rw [List.filter_append, hnone, List.append_nil]

theorem Summarized.store (h : Summarized sql t accepted now) {held : List (Marker δ χ)} (hheld : Touched batch held) :
    Summarized sql ((t.insertBatch batch).markHours held) (accepted ++ batch) now where
  keys := h.keys
  sound := by
    intro x hx hclean
    have hnot : x.marker ∉ t.dirtyHours ∧ x.marker ∉ held := by
      constructor
      · exact fun hm => hclean (mem_markHours.mpr (Or.inl hm))
      · exact fun hm => hclean (mem_markHours.mpr (Or.inr hm))
    rw [filter_untouched hheld hnot.2 fun r hr => Rollup.covers_marker hr]
    exact h.sound x hx hnot.1
  complete := by
    intro r hr hclean res hres
    rcases List.mem_append.mp hr with hr | hr
    · exact h.complete r hr (fun hm => hclean (mem_markHours.mpr (Or.inl hm))) res hres
    · exact absurd (mem_markHours.mpr (Or.inr ((hheld _).mpr ⟨r, hr, rfl⟩))) hclean

/-! ## The commit of a worker -/

omit [LinearOrder ν] in
theorem mem_replaceHour {m m' : Marker δ χ} {rows : List (Rollup δ χ ν)} :
    m' ∈ (t.replaceHour m rows).dirtyHours ↔ m' ∈ t.dirtyHours ∧ m' ≠ m := by
  simp [Tables.replaceHour, List.mem_filter]

omit [LinearOrder ν] in
theorem Retained.replaceHour (h : Retained t accepted) (m : Marker δ χ) (rows : List (Rollup δ χ ν)) :
    Retained (t.replaceHour m rows) accepted where
  laid := h.laid
  aligned := h.aligned
  hours := fun m' hm' => h.hours m' (mem_replaceHour.mp hm').1
  keys := h.keys
  nodup := h.nodup
  stored := h.stored
  kept := fun r hr hkept => h.kept r hr (hkept.imp_right fun hm => (mem_replaceHour.mp hm).1)

/-- What a worker has made of its hour, from all that had been accepted of it. -/
def Computed (sql : Numeric ν) (accepted : List (Reading δ χ ν)) (m : Marker δ χ) (started : ℤ) (res : Resolution)
    (rows : List (Rollup δ χ ν)) : Prop :=
  ∃ samples, Samples accepted m samples ∧ rows = rollupsOf sql res m (minutesSince started) samples

section Worker

variable {m : Marker δ χ} {started : ℤ} {res : Resolution} {rows : List (Rollup δ χ ν)}

theorem Computed.keys (h : Computed sql accepted m started res rows) : (rows.map Rollup.key).Nodup := by
  obtain ⟨samples, -, rfl⟩ := h
  exact rollupsOf_keys

theorem Computed.sound (h : Computed sql accepted m started res rows) (hm : hour ∣ m.bucket)
    (hkeys : (accepted.map Reading.key).Nodup) {x : Rollup δ χ ν} (hx : x ∈ rows) :
    x.marker = m ∧ x.resolution = res ∧ aggregates sql (accepted.filter x.covers) = some x.facts := by
  obtain ⟨samples, hsamples, rfl⟩ := h
  obtain ⟨hdevice, hchannel, rfl, -, hfacts⟩ := mem_rollupsOf.mp hx
  have hmem : ∀ r ∈ samples, r ∈ accepted ∧ r.marker = m := by
    intro r hr
    obtain ⟨hr, hcovers⟩ := List.mem_filter.mp (hsamples.mem_iff.mp hr)
    exact ⟨hr, (covers_iff hm r).mp hcovers⟩
  -- there is a sample in its bucket
  have hbucket : trunc hour x.bucket = m.bucket := by
    have hsome : (samples.filter fun r => trunc x.resolution.unit r.ts = x.bucket) ≠ [] := by
      intro hnil
      rw [hnil] at hfacts
      exact absurd hfacts (by simp [aggregates])
    obtain ⟨r, hr⟩ := List.exists_mem_of_ne_nil _ hsome
    obtain ⟨hr, heq⟩ := List.mem_filter.mp hr
    rw [decide_eq_true_eq] at heq
    rw [← heq, trunc_trunc hour_pos x.resolution.unit_pos x.resolution.unit_dvd]
    exact congrArg Marker.bucket (hmem r hr).2
  have hplaced : Placed samples := by
    refine placed_of_keys (d := m.deviceId) ?_ fun r hr => congrArg Marker.deviceId (hmem r hr).2
    exact (hsamples.map Reading.key).nodup_iff.mpr ((List.filter_sublist.map Reading.key).nodup hkeys)
  refine ⟨?_, rfl, ?_⟩
  · rw [Rollup.marker, hdevice, hchannel, hbucket]
  · rw [aggregates_samples hm hsamples hplaced hbucket, ← hdevice, ← hchannel] at hfacts
    exact hfacts

theorem Computed.complete (h : Computed sql accepted m started res rows) (hm : hour ∣ m.bucket)
    {r : Reading δ χ ν} (hr : r ∈ accepted) (hmarker : r.marker = m)
    (hsince : res = .minutes → minutesSince started ≤ trunc minute r.ts) :
    ∃ x ∈ rows, x.resolution = res ∧ x.covers r = true := by
  obtain ⟨samples, hsamples, rfl⟩ := h
  have hin : r ∈ samples.filter fun r' => trunc res.unit r'.ts = trunc res.unit r.ts := by
    rw [List.mem_filter]
    refine ⟨hsamples.mem_iff.mpr (List.mem_filter.mpr ⟨hr, (covers_iff hm r).mpr hmarker⟩), by simp⟩
  obtain ⟨facts, hfacts⟩ := aggregates_isSome sql hin
  refine ⟨⟨m.deviceId, m.channel, res, trunc res.unit r.ts, facts⟩, ?_, rfl, ?_⟩
  · refine mem_rollupsOf.mpr ⟨rfl, rfl, rfl, ?_, hfacts⟩
    cases res
    · exact Or.inr (hsince rfl)
    · exact Or.inl rfl
  · subst hmarker
    exact inBucket_iff.mpr ⟨rfl, rfl, rfl⟩

/-- **The commit of a worker puts its hour right**, and leaves the others as they are. -/
theorem Summarized.replaceHour (h : Summarized sql t accepted now) (hret : Retained t accepted) (hm : hour ∣ m.bucket)
    (hle : started ≤ now) {rows' : List (Rollup δ χ ν)} (hmin : Computed sql accepted m started .minutes rows)
    (hhour : Computed sql accepted m started .hours rows') :
    Summarized sql (t.replaceHour m (rows ++ rows')) accepted now := by
  have hold : ∀ x ∈ t.rollups.filter (fun x => !m.replaces x), x ∈ t.rollups ∧ x.marker ≠ m := by
    intro x hx
    obtain ⟨hx, hnot⟩ := List.mem_filter.mp hx
    refine ⟨hx, fun heq => ?_⟩
    rw [(replaces_iff hm x).mpr heq] at hnot
    exact absurd hnot (by simp)
  have hnew : ∀ x ∈ rows ++ rows', x.marker = m ∧ aggregates sql (accepted.filter x.covers) = some x.facts := by
    intro x hx
    rcases List.mem_append.mp hx with hx | hx
    · exact ⟨(hmin.sound hm hret.keys hx).1, (hmin.sound hm hret.keys hx).2.2⟩
    · exact ⟨(hhour.sound hm hret.keys hx).1, (hhour.sound hm hret.keys hx).2.2⟩
  refine ⟨?_, ?_, ?_⟩
  · -- of the new rows, those of the two resolutions have different keys, and the old ones are of other hours
    have hrows : ((rows ++ rows').map Rollup.key).Nodup := by
      rw [List.map_append, List.nodup_append]
      refine ⟨hmin.keys, hhour.keys, ?_⟩
      rintro k hk k' hk' rfl
      obtain ⟨x, hx, rfl⟩ := List.mem_map.mp hk
      obtain ⟨x', hx', hkey⟩ := List.mem_map.mp hk'
      have hres := (hmin.sound hm hret.keys hx).2.1
      have hres' := (hhour.sound hm hret.keys hx').2.1
      simp only [Rollup.key, Prod.mk.injEq] at hkey
      rw [hres, hres'] at hkey
      exact absurd hkey.2.2.1 (by simp)
    show (((t.rollups.filter fun x => !m.replaces x) ++ (rows ++ rows')).map Rollup.key).Nodup
    rw [List.map_append, List.nodup_append]
    refine ⟨(List.filter_sublist.map Rollup.key).nodup h.keys, hrows, ?_⟩
    rintro k hk k' hk' rfl
    obtain ⟨x, hx, rfl⟩ := List.mem_map.mp hk
    obtain ⟨x', hx', hkey⟩ := List.mem_map.mp hk'
    simp only [Rollup.key, Prod.mk.injEq] at hkey
    have hmarker : x'.marker = x.marker := by rw [Rollup.marker, Rollup.marker, hkey.1, hkey.2.1, hkey.2.2.2]
    exact (hold x hx).2 (hmarker ▸ (hnew x' hx').1)
  · intro x hx hclean
    rcases List.mem_append.mp hx with hx | hx
    · obtain ⟨hx, hne⟩ := hold x hx
      exact h.sound x hx fun hdirty => hclean (mem_replaceHour.mpr ⟨hdirty, hne⟩)
    · exact (hnew x hx).2
  · intro r hr hclean res hres
    by_cases hmarker : r.marker = m
    · -- what is still kept now was kept when the worker began
      have hsince : res = .minutes → minutesSince started ≤ trunc minute r.ts :=
        fun heq => (minutesSince_mono hle).trans (hres heq)
      cases res with
      | minutes =>
          obtain ⟨x, hx, hxr⟩ := hmin.complete hm hr hmarker hsince
          exact ⟨x, List.mem_append_right _ (List.mem_append_left _ hx), hxr⟩
      | hours =>
          obtain ⟨x, hx, hxr⟩ := hhour.complete hm hr hmarker hsince
          exact ⟨x, List.mem_append_right _ (List.mem_append_right _ hx), hxr⟩
    · obtain ⟨x, hx, hxres, hcovers⟩ :=
        h.complete r hr (fun hdirty => hclean (mem_replaceHour.mpr ⟨hdirty, hmarker⟩)) res hres
      refine ⟨x, List.mem_append_left _ (List.mem_filter.mpr ⟨hx, ?_⟩), hxres, hcovers⟩
      rw [Bool.not_eq_true', ← Bool.not_eq_true, replaces_iff hm]
      exact fun heq => hmarker ((Rollup.covers_marker hcovers).trans heq)

end Worker

/-! ## Maintenance -/

/-- Only minutes go that are not kept any more. -/
theorem Summarized.removeMinutes (h : Summarized sql t accepted now) {started : ℤ} (hle : started ≤ now) :
    Summarized sql (t.removeMinutes started) accepted now where
  keys := (List.filter_sublist.map Rollup.key).nodup h.keys
  sound := fun x hx hclean => h.sound x (List.mem_of_mem_filter hx) hclean
  complete := by
    intro r hr hclean res hres
    obtain ⟨x, hx, hxres, hcovers⟩ := h.complete r hr hclean res hres
    refine ⟨x, List.mem_filter.mpr ⟨hx, ?_⟩, hxres, hcovers⟩
    rw [Bool.not_eq_true', Bool.and_eq_false_iff, decide_eq_false_iff_not, decide_eq_false_iff_not, not_lt, hxres]
    -- only minutes are removed, and not those that are asked for
    by_cases hmin : res = .minutes
    · right
      have hbucket := (inBucket_iff.mp hcovers).2.2
      rw [hxres, hmin] at hbucket
      exact (minutesSince_mono hle).trans ((hres hmin).trans hbucket.le)
    · exact Or.inl hmin

theorem Summarized.maintain (h : Summarized sql t accepted now) {started : ℤ} (hle : started ≤ now) (dates : List ℤ) :
    Summarized sql (maintainTelemetryStorage t started dates).1 accepted now := by
  obtain ⟨-, hdirty, hrollups⟩ := ensurePartitions_rest t dates
  have hensured : Summarized sql ((((ensurePartitions t dates).1.expire started).dropExpired).removeDefault) accepted now :=
    h.congr hrollups hdirty
  exact hensured.removeMinutes hle

end Albusforge.Telemetry
