import Mathlib.Tactic.Tauto
import Albusforge.Telemetry.Storage

/-!
# What the tables still know

Two things hold of the tables and of the readings that were ever accepted. A reading that has not expired, or whose
hour is dirty, is still stored (`Retained`). And an hour that is not dirty has the roll-ups that all of its readings
make, of which those by the minute may have been removed with time (`Summarized`). Each statement that changes the
tables keeps both.
-/

namespace Albusforge.Telemetry

open Lib

variable {δ χ ν : Type}

/-! ## Hours and what they cover -/

section Covering

variable [LinearOrder δ] [LinearOrder χ]

omit [LinearOrder δ] [LinearOrder χ] in
theorem marker_bucket (r : Reading δ χ ν) : hour ∣ r.marker.bucket := dvd_trunc hour r.ts

/-- **An hour covers the rows that mark it.** -/
theorem covers_iff {m : Marker δ χ} (h : hour ∣ m.bucket) (r : Reading δ χ ν) : m.covers r = true ↔ r.marker = m := by
  have hiff := trunc_eq_iff hour_pos h r.ts
  obtain ⟨d, c, b⟩ := m
  simp only [Marker.covers, Bool.and_eq_true, decide_eq_true_eq, Reading.marker, Marker.mk.injEq]
  dsimp only at hiff
  rw [hiff]
  tauto

/-- The rows that a roll-up is made of. -/
def Rollup.covers (x : Rollup δ χ ν) (r : Reading δ χ ν) : Bool := inBucket x.deviceId x.channel x.resolution x.bucket r

theorem inBucket_iff {d : δ} {c : χ} {res : Resolution} {b : ℤ} {r : Reading δ χ ν} :
    inBucket d c res b r = true ↔ r.deviceId = d ∧ r.channel = c ∧ trunc res.unit r.ts = b := by
  simp [inBucket, and_assoc]

/-- A bucket is within one hour. -/
theorem inBucket_marker {d : δ} {c : χ} {res : Resolution} {b : ℤ} {r : Reading δ χ ν} (h : inBucket d c res b r = true) :
    r.marker = ⟨d, c, trunc hour b⟩ := by
  obtain ⟨rfl, rfl, rfl⟩ := inBucket_iff.mp h
  rw [trunc_trunc hour_pos res.unit_pos res.unit_dvd]
  rfl

theorem Rollup.covers_marker {x : Rollup δ χ ν} {r : Reading δ χ ν} (h : x.covers r = true) : r.marker = x.marker :=
  inBucket_marker h

theorem replaces_iff {m : Marker δ χ} (h : hour ∣ m.bucket) (x : Rollup δ χ ν) : m.replaces x = true ↔ x.marker = m := by
  have hiff := trunc_eq_iff hour_pos h x.bucket
  obtain ⟨d, c, b⟩ := m
  simp only [Marker.replaces, Bool.and_eq_true, decide_eq_true_eq, Rollup.marker, Marker.mk.injEq]
  dsimp only at hiff
  rw [hiff]
  tauto

end Covering

/-! ## What a worker reads -/

section Rollups

variable [LinearOrder ν]
variable {sql : Numeric ν} {res : Resolution} {m : Marker δ χ} {since : ℤ} {samples : List (Reading δ χ ν)}

/-- **What is inserted**: a row for each bucket that has a sample and is not too old. -/
theorem mem_rollupsOf {x : Rollup δ χ ν} : x ∈ rollupsOf sql res m since samples ↔
    x.deviceId = m.deviceId ∧ x.channel = m.channel ∧ x.resolution = res ∧ (res = .hours ∨ since ≤ x.bucket) ∧
      aggregates sql (samples.filter fun r => trunc res.unit r.ts = x.bucket) = some x.facts := by
  unfold rollupsOf
  rw [List.mem_filterMap]
  constructor
  · rintro ⟨b, hb, hx⟩
    obtain ⟨facts, hfacts, rfl⟩ := Option.map_eq_some_iff.mp hx
    have hkept := (List.mem_filter.mp hb).2
    exact ⟨rfl, rfl, rfl, by simpa using hkept, hfacts⟩
  · obtain ⟨d, c, res', b, facts⟩ := x
    rintro ⟨rfl, rfl, rfl, hkept, hfacts⟩
    refine ⟨b, ?_, by dsimp only at hfacts; rw [hfacts]; rfl⟩
    rw [List.mem_filter, List.mem_dedup]
    refine ⟨?_, by simpa using hkept⟩
    -- a bucket without a sample would have no aggregates
    by_contra hnone
    have hempty : (samples.filter fun r => trunc res'.unit r.ts = b) = [] := by
      rw [List.filter_eq_nil_iff]
      intro r hr heq
      exact hnone (List.mem_map.mpr ⟨r, hr, by simpa using heq⟩)
    dsimp only at hfacts
    rw [hempty] at hfacts
    exact absurd hfacts (by simp [aggregates])

theorem rollupsOf_keys : ((rollupsOf sql res m since samples).map Rollup.key).Nodup := by
  unfold rollupsOf
  rw [List.Nodup, List.pairwise_map, List.pairwise_filterMap]
  have hbuckets := (List.nodup_dedup (samples.map fun r => trunc res.unit r.ts)).filter
    fun b => decide (res = .hours) || decide (since ≤ b)
  refine List.Pairwise.imp ?_ hbuckets
  intro b b' hne x hx x' hx' heq
  obtain ⟨facts, -, rfl⟩ := Option.map_eq_some_iff.mp hx
  obtain ⟨facts', -, rfl⟩ := Option.map_eq_some_iff.mp hx'
  simp only [Rollup.key, Prod.mk.injEq] at heq
  exact hne heq.2.2.2

variable [LinearOrder δ] [LinearOrder χ]

/-- The rows of an hour, in whatever order they are found. -/
def Samples (accepted : List (Reading δ χ ν)) (m : Marker δ χ) (samples : List (Reading δ χ ν)) : Prop :=
  samples.Perm (accepted.filter m.covers)

/-- **A roll-up that is made of the samples of its hour is made of all the readings of its bucket.** -/
theorem aggregates_samples {accepted : List (Reading δ χ ν)} (hm : hour ∣ m.bucket) (hs : Samples accepted m samples)
    (hplaced : Placed samples) {b : ℤ} (hb : trunc hour b = m.bucket) :
    aggregates sql (samples.filter fun r => trunc res.unit r.ts = b) =
      aggregates sql (accepted.filter (inBucket m.deviceId m.channel res b)) := by
  have hsame : (accepted.filter m.covers).filter (fun r => decide (trunc res.unit r.ts = b)) =
      accepted.filter (inBucket m.deviceId m.channel res b) := by
    rw [List.filter_filter]
    refine List.filter_congr ?_
    intro r _
    rw [Bool.eq_iff_iff, Bool.and_eq_true, covers_iff hm, decide_eq_true_eq, inBucket_iff]
    constructor
    · rintro ⟨hb', rfl⟩
      exact ⟨rfl, rfl, hb'⟩
    · intro hin
      refine ⟨hin.2.2, ?_⟩
      rw [inBucket_marker (inBucket_iff.mpr hin), hb]
  rw [← hsame]
  exact aggregates_perm sql (hs.filter _) (hplaced.subset List.filter_sublist.subset)

end Rollups

/-! ## Readings that are still stored -/

structure Retained (t : Tables δ χ ν) (accepted : List (Reading δ χ ν)) : Prop where
  laid : t.readings.Laid dayOf
  aligned : day ∣ t.rawBefore
  hours : ∀ m ∈ t.dirtyHours, hour ∣ m.bucket
  /-- No two readings that were ever accepted have one key. -/
  keys : (accepted.map Reading.key).Nodup
  nodup : t.readings.all.Nodup
  stored : t.readings.all ⊆ accepted
  kept : ∀ r ∈ accepted, t.rawBefore ≤ r.ts ∨ r.marker ∈ t.dirtyHours → r ∈ t.readings.all

section Stored

variable {t : Tables δ χ ν} {accepted : List (Reading δ χ ν)}

theorem nodup_of_keys {rows : List (Reading δ χ ν)} (h : (rows.map Reading.key).Nodup) : rows.Nodup :=
  List.Nodup.of_map Reading.key h

/-- Of one device, no two readings have one place. -/
theorem placed_of_keys {rows : List (Reading δ χ ν)} (h : (rows.map Reading.key).Nodup) {d : δ}
    (hd : ∀ r ∈ rows, r.deviceId = d) : Placed rows := by
  intro r hr r' hr' hplace
  obtain ⟨hts, hseq, hordinal⟩ := Reading.place_inj.mp hplace
  refine List.inj_on_of_nodup_map h hr hr' ?_
  rw [Reading.key_inj]
  exact ⟨(hd r hr).trans (hd r' hr').symm, hseq, hordinal, hts⟩

theorem Retained.keys_filter (h : Retained t accepted) (p : Reading δ χ ν → Bool) :
    ((accepted.filter p).map Reading.key).Nodup :=
  (List.filter_sublist.map Reading.key).nodup h.keys

/-- **Where all the readings of some kind are kept, a query finds them all.** -/
theorem Retained.filter_perm (h : Retained t accepted) {p : Reading δ χ ν → Bool}
    (hkept : ∀ r ∈ accepted, p r = true → t.rawBefore ≤ r.ts ∨ r.marker ∈ t.dirtyHours) :
    (t.readings.all.filter p).Perm (accepted.filter p) := by
  refine (List.perm_ext_iff_of_nodup (h.nodup.filter p) ((nodup_of_keys h.keys).filter p)).mpr ?_
  intro r
  rw [List.mem_filter, List.mem_filter]
  constructor
  · rintro ⟨hr, hp⟩
    exact ⟨h.stored hr, hp⟩
  · rintro ⟨hr, hp⟩
    exact ⟨h.kept r hr (hkept r hr hp), hp⟩

/-- **A worker finds all the readings of a dirty hour.** -/
theorem Retained.samples [LinearOrder δ] [LinearOrder χ] (h : Retained t accepted) {m : Marker δ χ} (hm : m ∈ t.dirtyHours) :
    Samples accepted m (t.readings.all.filter m.covers) := by
  refine h.filter_perm ?_
  intro r _ hr
  rw [covers_iff (h.hours m hm)] at hr
  exact Or.inr (hr ▸ hm)

/-- The tables hold the same rows, perhaps in other places. -/
theorem Retained.congr {t' : Tables δ χ ν} (h : Retained t accepted) (hlaid : t'.readings.Laid dayOf)
    (hperm : t'.readings.all.Perm t.readings.all) (hbound : t'.rawBefore = t.rawBefore)
    (hdirty : t'.dirtyHours = t.dirtyHours) : Retained t' accepted where
  laid := hlaid
  aligned := hbound ▸ h.aligned
  hours := hdirty ▸ h.hours
  keys := h.keys
  nodup := hperm.nodup_iff.mpr h.nodup
  stored := fun r hr => h.stored (hperm.mem_iff.mp hr)
  kept := by
    rw [hbound, hdirty]
    exact fun r hr hkept => hperm.mem_iff.mpr (h.kept r hr hkept)

/-- **Some rows go, none of which has to stay**: rows that are before the boundary, of hours that are not dirty. -/
theorem Retained.forget {t' : Tables δ χ ν} (h : Retained t accepted) (hlaid : t'.readings.Laid dayOf)
    (hsub : t'.readings.all.Sublist t.readings.all) (hbound : t'.rawBefore = t.rawBefore)
    (hdirty : t'.dirtyHours = t.dirtyHours)
    (hkeep : ∀ r ∈ t.readings.all, t.rawBefore ≤ r.ts ∨ r.marker ∈ t.dirtyHours → r ∈ t'.readings.all) :
    Retained t' accepted where
  laid := hlaid
  aligned := hbound ▸ h.aligned
  hours := hdirty ▸ h.hours
  keys := h.keys
  nodup := hsub.nodup h.nodup
  stored := fun r hr => h.stored (hsub.subset hr)
  kept := by
    rw [hbound, hdirty]
    exact fun r hr hkept => hkeep r (h.kept r hr hkept) hkept

/-! ## What the statements keep -/

theorem Retained.ensure (h : Retained t accepted) (d : ℤ) : Retained (ensureReadingPartition t d).1 accepted :=
  h.congr (h.laid.attach d) (Partitioned.all_attach t.readings d) rfl rfl

theorem ensurePartitions_rest (t : Tables δ χ ν) (dates : List ℤ) :
    (ensurePartitions t dates).1.rawBefore = t.rawBefore ∧ (ensurePartitions t dates).1.dirtyHours = t.dirtyHours ∧
      (ensurePartitions t dates).1.rollups = t.rollups := by
  induction dates generalizing t with
  | nil => exact ⟨rfl, rfl, rfl⟩
  | cons d dates ih => exact ih (ensureReadingPartition t d).1

theorem ensurePartitions_perm (t : Tables δ χ ν) (dates : List ℤ) :
    (ensurePartitions t dates).1.readings.all.Perm t.readings.all := by
  induction dates generalizing t with
  | nil => exact List.Perm.refl _
  | cons d dates ih => exact (ih (ensureReadingPartition t d).1).trans (Partitioned.all_attach t.readings d)

theorem Retained.ensureAll (h : Retained t accepted) (dates : List ℤ) : Retained (ensurePartitions t dates).1 accepted := by
  induction dates generalizing t with
  | nil => exact h
  | cons d dates ih => exact ih (h.ensure d)

theorem Retained.expire (h : Retained t accepted) (started : ℤ) : Retained (t.expire started) accepted where
  laid := h.laid
  aligned := by
    have hsince : day ∣ rawSince started := Int.dvd_sub (dvd_trunc day started) (Dvd.intro_left 90 rfl)
    rcases max_choice t.rawBefore (rawSince started) with hmax | hmax
    · rw [Tables.expire, hmax]
      exact h.aligned
    · rw [Tables.expire, hmax]
      exact hsince
  hours := h.hours
  keys := h.keys
  nodup := h.nodup
  stored := h.stored
  kept := by
    -- the boundary only goes forward
    intro r hr hkept
    refine h.kept r hr (hkept.imp_left ?_)
    intro hle
    exact (le_max_left _ _).trans hle

/-- A row of a day, in a partition that may go, has expired and is of an hour that is not dirty. -/
theorem not_kept_of_dropped {r : Reading δ χ ν} (hexpired : t.isExpired (dayOf r) = true)
    (hpending : t.isPending (dayOf r) = false) : r.ts < t.rawBefore ∧ r.marker ∉ t.dirtyHours := by
  have hday := lt_trunc day_pos r.ts
  constructor
  · have hle : dayOf r + day ≤ t.rawBefore := by simpa [Tables.isExpired] using hexpired
    unfold dayOf at hle
    omega
  · intro hin
    -- the hour of the row is within its day
    have hlow : trunc day r.ts ≤ trunc hour r.ts :=
      (le_trunc_iff hour_pos (hour_dvd_day.trans (dvd_trunc day r.ts))).mpr (trunc_le day_pos r.ts)
    have hhigh := trunc_le hour_pos r.ts
    have hany : t.isPending (dayOf r) = true := by
      unfold Tables.isPending
      rw [List.any_eq_true]
      refine ⟨r.marker, hin, ?_⟩
      rw [Bool.and_eq_true, decide_eq_true_eq, decide_eq_true_eq]
      unfold dayOf
      dsimp only [Reading.marker]
      omega
    rw [hpending] at hany
    exact absurd hany (by simp)

theorem Retained.dropExpired (h : Retained t accepted) : Retained t.dropExpired accepted := by
  have hlaid : t.dropExpired.readings.Laid dayOf := h.laid.drop fun d => t.isExpired d && !t.isPending d
  refine h.forget hlaid (Partitioned.all_drop_sublist _ _) rfl rfl ?_
  intro r hr hkept
  refine h.laid.mem_drop hr ?_
  by_contra hgone
  rw [Bool.not_eq_false, Bool.and_eq_true, Bool.not_eq_true'] at hgone
  obtain ⟨hexpired, hclean⟩ := not_kept_of_dropped hgone.1 hgone.2
  rcases hkept with hts | hdirty
  · omega
  · exact hclean hdirty

theorem Retained.removeDefault [LinearOrder δ] [LinearOrder χ] (h : Retained t accepted) :
    Retained t.removeDefault accepted := by
  have hlaid : t.removeDefault.readings.Laid dayOf := h.laid.purge _
  refine h.forget hlaid (Partitioned.all_purge_sublist _ _) rfl rfl ?_
  intro r hr hkept
  refine Partitioned.mem_purge hr ?_
  unfold Tables.isLeftOver
  rcases hkept with hts | hdirty
  · simp [hts]
  · simp [hdirty]

theorem Retained.removeMinutes (h : Retained t accepted) (started : ℤ) : Retained (t.removeMinutes started) accepted :=
  h.congr h.laid (List.Perm.refl _) rfl rfl

/-- **Maintenance loses nothing that is still wanted.** -/
theorem Retained.maintain [LinearOrder δ] [LinearOrder χ] (h : Retained t accepted) (started : ℤ) (dates : List ℤ) :
    Retained (maintainTelemetryStorage t started dates).1 accepted :=
  ((((h.ensureAll dates).expire started).dropExpired).removeDefault).removeMinutes started

end Stored

end Albusforge.Telemetry
