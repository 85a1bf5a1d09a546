import Albusforge.Telemetry.Summarized

/-!
# Ingest, workers, maintenance and readers

What holds in every state of `storage`, whatever order its transactions go on in. The locks on the markers carry the
argument: a commit of the ingest route holds the markers of all the hours that it adds to, so that no worker that goes
on has read one of them; and a worker's marker stays until its own commit, so that maintenance keeps the rows of its
hour.
-/

namespace Albusforge.Telemetry

open Lib

variable {δ χ ν : Type} {s s' : State δ χ ν} {i j : ℕ}

@[simp] theorem setIngest_self {x : Ingest δ χ ν} : (s.setIngest i x).ingests i = x := Function.update_self ..
@[simp] theorem setIngest_of_ne {x : Ingest δ χ ν} (h : j ≠ i) : (s.setIngest i x).ingests j = s.ingests j :=
  Function.update_of_ne h ..
@[simp] theorem setWorker_self {x : Worker δ χ ν} : (s.setWorker i x).workers i = x := Function.update_self ..
@[simp] theorem setWorker_of_ne {x : Worker δ χ ν} (h : j ≠ i) : (s.setWorker i x).workers j = s.workers j :=
  Function.update_of_ne h ..
@[simp] theorem setReader_self {x : Reader δ χ ν} : (s.setReader i x).readers i = x := Function.update_self ..
@[simp] theorem setReader_of_ne {x : Reader δ χ ν} (h : j ≠ i) : (s.setReader i x).readers j = s.readers j :=
  Function.update_of_ne h ..

theorem holds_setIngest {x : Ingest δ χ ν} {a : Actor} {m : Marker δ χ} (h : (s.setIngest i x).Holds a m) :
    a = .ingest i ∧ m ∈ x.held ∨ a ≠ .ingest i ∧ s.Holds a m := by
  cases a with
  | worker k => exact Or.inr ⟨by simp, h⟩
  | ingest k =>
      by_cases hk : k = i
      · subst hk
        rw [State.Holds, setIngest_self] at h
        exact Or.inl ⟨rfl, h⟩
      · rw [State.Holds, setIngest_of_ne hk] at h
        exact Or.inr ⟨by simpa using hk, h⟩

theorem holds_setWorker {x : Worker δ χ ν} {a : Actor} {m : Marker δ χ} (h : (s.setWorker i x).Holds a m) :
    a = .worker i ∧ x.marker = some m ∨ a ≠ .worker i ∧ s.Holds a m := by
  cases a with
  | ingest k => exact Or.inr ⟨by simp, h⟩
  | worker k =>
      by_cases hk : k = i
      · subst hk
        rw [State.Holds, setWorker_self] at h
        exact Or.inl ⟨rfl, h⟩
      · rw [State.Holds, setWorker_of_ne hk] at h
        exact Or.inr ⟨by simpa using hk, h⟩

/-- **A marker that is locked was free**, or is locked by the same party as before. -/
theorem exclusive_of {holds holds' : Actor → Marker δ χ → Prop} (b : Actor)
    (h : ∀ a a' m, holds a m → holds a' m → a = a')
    (hself : ∀ m, holds' b m → ∀ a, holds a m → a = b) (hother : ∀ a m, holds' a m → a = b ∨ holds a m) :
    ∀ a a' m, holds' a m → holds' a' m → a = a' := by
  intro a a' m ha ha'
  by_cases hab : a = b
  · subst hab
    rcases hother a' m ha' with heq | hold
    · exact heq.symm
    · exact (hself m ha a' hold).symm
  · have hold := (hother a m ha).resolve_left hab
    rcases hother a' m ha' with heq | hold'
    · subst heq
      exact hself m ha' a hold
    · exact h a a' m hold hold'

variable [LinearOrder δ] [LinearOrder χ] [LinearOrder ν] {sql : Numeric ν}

/-! ## The invariant -/

def Ingest.Ok (t : Tables δ χ ν) : Ingest δ χ ν → Prop
  | .idle => True
  | .inserted batch left held => Admissible t batch ∧ ∀ m, m ∈ held ∨ m ∈ left ↔ ∃ r ∈ batch, r.marker = m

def Worker.Ok (sql : Numeric ν) (now : ℤ) (accepted : List (Reading δ χ ν)) : Worker δ χ ν → Prop
  | .idle => True
  | .claimed started _ => started ≤ now
  | .minutes started m rows => started ≤ now ∧ Computed sql accepted m started .minutes rows
  | .hours started m rows => started ≤ now ∧ ∃ rows₁ rows₂, rows = rows₁ ++ rows₂ ∧
      Computed sql accepted m started .minutes rows₁ ∧ Computed sql accepted m started .hours rows₂

/-- What a snapshot was when it was taken, it still is; and the partitions are still laid out as they were. -/
structure Snapshot.Ok (sql : Numeric ν) (now : ℤ) (layout : List ℤ) (accepted : List (Reading δ χ ν))
    (snap : Snapshot δ χ ν) : Prop where
  retained : Retained snap.tables snap.accepted
  summarized : Summarized sql snap.tables snap.accepted snap.taken
  taken : snap.taken ≤ now
  layout : snap.tables.readings.keys = layout
  accepted : snap.accepted <+: accepted

structure Inv (sql : Numeric ν) (s : State δ χ ν) : Prop where
  retained : Retained s.tables s.accepted
  summarized : Summarized sql s.tables s.accepted s.now
  exclusive : ∀ a b m, s.Holds a m → s.Holds b m → a = b
  claimed : ∀ i m, (s.workers i).marker = some m → m ∈ s.tables.dirtyHours
  ingests : ∀ i, (s.ingests i).Ok s.tables
  apart : ∀ i j, i ≠ j → ∀ r ∈ (s.ingests i).batch, r.key ∉ (s.ingests j).batch.map Reading.key
  workers : ∀ i, (s.workers i).Ok sql s.now s.accepted
  snapshots : ∀ i snap, s.readers i = .reading snap → snap.Ok sql s.now s.tables.readings.keys s.accepted
  looks : ∀ look, s.maintenance = some look → look.started ≤ s.now

/-! ## What one party does -/

/-- A transaction of the ingest route goes on, or ends without a commit. -/
theorem Inv.onIngest (h : Inv sql s) {x : Ingest δ χ ν} (hok : x.Ok s.tables)
    (hfresh : ∀ j, j ≠ i → ∀ r ∈ x.batch, r.key ∉ (s.ingests j).batch.map Reading.key)
    (hheld : ∀ m ∈ x.held, ∀ a, s.Holds a m → a = .ingest i) : Inv sql (s.setIngest i x) where
  retained := h.retained
  summarized := h.summarized
  exclusive := by
    refine exclusive_of (.ingest i) h.exclusive ?_ ?_
    · intro m hm
      rcases holds_setIngest hm with ⟨-, hin⟩ | ⟨hne, -⟩
      · exact hheld m hin
      · exact absurd rfl hne
    · intro a m hm
      rcases holds_setIngest hm with ⟨heq, -⟩ | ⟨-, hold⟩
      · exact Or.inl heq
      · exact Or.inr hold
  claimed := h.claimed
  ingests := by
    intro j
    by_cases hj : j = i
    · subst hj
      rw [setIngest_self]
      exact hok
    · rw [setIngest_of_ne hj]
      exact h.ingests j
  apart := by
    intro j k hjk r hr
    by_cases hj : j = i
    · subst hj
      rw [setIngest_self] at hr
      rw [setIngest_of_ne hjk.symm]
      exact hfresh k hjk.symm r hr
    · rw [setIngest_of_ne hj] at hr
      by_cases hk : k = i
      · subst hk
        rw [setIngest_self]
        -- a key in both batches would be one that was not to be in the other
        intro hin
        obtain ⟨r', hr', hkey⟩ := List.mem_map.mp hin
        exact hfresh j hj r' hr' (hkey ▸ List.mem_map_of_mem hr)
      · rw [setIngest_of_ne hk]
        exact h.apart j k hjk r hr
  workers := h.workers
  snapshots := h.snapshots
  looks := h.looks

/-- A worker goes on, or gives up. -/
theorem Inv.onWorker (h : Inv sql s) {x : Worker δ χ ν} (hok : x.Ok sql s.now s.accepted)
    (hheld : ∀ m, x.marker = some m → m ∈ s.tables.dirtyHours ∧ ∀ a, s.Holds a m → a = .worker i) :
    Inv sql (s.setWorker i x) where
  retained := h.retained
  summarized := h.summarized
  exclusive := by
    refine exclusive_of (.worker i) h.exclusive ?_ ?_
    · intro m hm
      rcases holds_setWorker hm with ⟨-, hin⟩ | ⟨hne, -⟩
      · exact (hheld m hin).2
      · exact absurd rfl hne
    · intro a m hm
      rcases holds_setWorker hm with ⟨heq, -⟩ | ⟨-, hold⟩
      · exact Or.inl heq
      · exact Or.inr hold
  claimed := by
    intro j m hm
    by_cases hj : j = i
    · subst hj
      rw [setWorker_self] at hm
      exact (hheld m hm).1
    · rw [setWorker_of_ne hj] at hm
      exact h.claimed j m hm
  ingests := h.ingests
  apart := h.apart
  workers := by
    intro j
    by_cases hj : j = i
    · subst hj
      rw [setWorker_self]
      exact hok
    · rw [setWorker_of_ne hj]
      exact h.workers j
  snapshots := h.snapshots
  looks := h.looks

theorem Inv.onReader (h : Inv sql s) {x : Reader δ χ ν} (hok : ∀ snap, x = .reading snap → snap.Ok sql s.now s.tables.readings.keys s.accepted) :
    Inv sql (s.setReader i x) :=
  ⟨h.retained, h.summarized, h.exclusive, h.claimed, h.ingests, h.apart, h.workers, by
    intro j snap hsnap
    by_cases hj : j = i
    · subst hj
      rw [setReader_self] at hsnap
      exact hok snap hsnap
    · rw [setReader_of_ne hj] at hsnap
      exact h.snapshots j snap hsnap, h.looks⟩

/-! ## What changes the tables -/

/-- What a worker has read stays right, while an hour that it has not got grows. -/
theorem Computed.store {accepted batch : List (Reading δ χ ν)} {held : List (Marker δ χ)} {m : Marker δ χ} {started : ℤ}
    {res : Resolution} {rows : List (Rollup δ χ ν)} (h : Computed sql accepted m started res rows)
    (hheld : Touched batch held) (hnot : m ∉ held) (hm : hour ∣ m.bucket) :
    Computed sql (accepted ++ batch) m started res rows := by
  obtain ⟨samples, hsamples, rfl⟩ := h
  refine ⟨samples, ?_, rfl⟩
  unfold Samples
  rw [filter_untouched hheld hnot fun r hr => (covers_iff hm r).mp hr]
  exact hsamples

theorem Worker.Ok.store {x : Worker δ χ ν} {now : ℤ} {accepted batch : List (Reading δ χ ν)} {held : List (Marker δ χ)}
    (h : x.Ok sql now accepted) (hheld : Touched batch held) (hnot : ∀ m, x.marker = some m → m ∉ held)
    (hm : ∀ m, x.marker = some m → hour ∣ m.bucket) : x.Ok sql now (accepted ++ batch) := by
  cases x with
  | idle => trivial
  | claimed started m => exact h
  | minutes started m rows => exact ⟨h.1, h.2.store hheld (hnot m rfl) (hm m rfl)⟩
  | hours started m rows =>
      obtain ⟨hle, rows₁, rows₂, rfl, hmin, hhour⟩ := h
      exact ⟨hle, rows₁, rows₂, rfl, hmin.store hheld (hnot m rfl) (hm m rfl), hhour.store hheld (hnot m rfl) (hm m rfl)⟩

theorem Worker.Ok.later {x : Worker δ χ ν} {now now' : ℤ} {accepted : List (Reading δ χ ν)} (h : x.Ok sql now accepted)
    (hle : now ≤ now') : x.Ok sql now' accepted := by
  cases x with
  | idle => trivial
  | claimed started m => exact le_trans h hle
  | minutes started m rows => exact ⟨h.1.trans hle, h.2⟩
  | hours started m rows => exact ⟨h.1.trans hle, h.2⟩

omit [LinearOrder ν] in
/-- A batch that is about to be stored is of keys that the rows stored now have not. -/
theorem Admissible.store {t : Tables δ χ ν} {batch batch' : List (Reading δ χ ν)} {held : List (Marker δ χ)}
    (h : Admissible t batch') (hkeys : t.readings.keys.Nodup)
    (hapart : ∀ r ∈ batch', r.key ∉ batch.map Reading.key) :
    Admissible ((t.insertBatch batch).markHours held) batch' := by
  refine ⟨h.keys, ?_, h.recent⟩
  intro r hr hin
  have hperm : (t.insertBatch batch).readings.all.Perm (t.readings.all ++ batch) :=
    Partitioned.all_insert hkeys batch
  have hin' := (hperm.map Reading.key).mem_iff.mp hin
  rw [List.map_append, List.mem_append] at hin'
  rcases hin' with hold | hnew
  · exact h.fresh r hr hold
  · exact hapart r hr hnew

theorem Inv.store (h : Inv sql s) {batch : List (Reading δ χ ν)} {held : List (Marker δ χ)}
    (hi : s.ingests i = .inserted batch [] held) :
    Inv sql { s.setIngest i .idle with
      tables := (s.tables.insertBatch batch).markHours held
      accepted := s.accepted ++ batch } := by
  have hok := h.ingests i
  rw [hi] at hok
  obtain ⟨hadmissible, htouched⟩ := hok
  have hheld : Touched batch held := fun m => by simpa using htouched m
  have hidle : Inv sql (s.setIngest i .idle) := h.onIngest trivial (by simp [Ingest.batch]) (by simp [Ingest.held])
  refine ⟨h.retained.store hadmissible hheld, h.summarized.store hheld, hidle.exclusive, ?_, ?_, hidle.apart, ?_, ?_, h.looks⟩
  · intro j m hm
    exact mem_markHours.mpr (Or.inl (h.claimed j m hm))
  · intro j
    by_cases hj : j = i
    · subst hj
      show Ingest.Ok _ ((s.setIngest j .idle).ingests j)
      rw [setIngest_self]
      trivial
    · show Ingest.Ok _ ((s.setIngest i .idle).ingests j)
      rw [setIngest_of_ne hj]
      have hother := h.ingests j
      have hapart := h.apart j i hj
      rw [hi] at hapart
      cases hx : s.ingests j with
      | idle => trivial
      | inserted batch' left held' =>
          rw [hx] at hother hapart
          exact ⟨hother.1.store h.retained.laid.keys hapart, hother.2⟩
  · intro j
    refine (h.workers j).store hheld ?_ fun m hm => h.retained.hours m (h.claimed j m hm)
    -- a worker and this transaction cannot have one marker
    intro m hm hin
    have hsame := h.exclusive (.worker j) (.ingest i) m hm (by rw [State.Holds, hi]; exact hin)
    exact absurd hsame (by simp)
  · intro j snap hsnap
    have hsnapshot := h.snapshots j snap hsnap
    refine { hsnapshot with layout := ?_, accepted := hsnapshot.accepted.trans (List.prefix_append _ _) }
    exact hsnapshot.layout.trans (Partitioned.keys_insert batch).symm

theorem Inv.replace (h : Inv sql s) {started : ℤ} {m : Marker δ χ} {rows : List (Rollup δ χ ν)}
    (hi : s.workers i = .hours started m rows) :
    Inv sql { s.setWorker i .idle with tables := s.tables.replaceHour m rows } := by
  have hok := h.workers i
  have hclaimed := h.claimed i m (by rw [hi]; rfl)
  rw [hi] at hok
  obtain ⟨hle, rows₁, rows₂, rfl, hmin, hhour⟩ := hok
  have haligned := h.retained.hours m hclaimed
  have hidle : Inv sql (s.setWorker i .idle) := h.onWorker trivial (by simp [Worker.marker])
  refine ⟨h.retained.replaceHour m _, h.summarized.replaceHour h.retained haligned hle hmin hhour, hidle.exclusive, ?_, ?_,
    hidle.apart, hidle.workers, h.snapshots, h.looks⟩
  · intro j m' hm'
    have hmarker : ((s.setWorker i .idle).workers j).marker = some m' := hm'
    refine mem_replaceHour.mpr ⟨hidle.claimed j m' hmarker, ?_⟩
    -- no other worker has this marker
    rintro rfl
    by_cases hj : j = i
    · subst hj
      rw [setWorker_self] at hmarker
      exact absurd hmarker (by simp [Worker.marker])
    · rw [setWorker_of_ne hj] at hmarker
      have hsame := h.exclusive (.worker j) (.worker i) m' hmarker (by rw [State.Holds, hi]; rfl)
      exact hj (by simpa using hsame)
  · intro j
    have hother := h.ingests j
    show Ingest.Ok _ (s.ingests j)
    cases hx : s.ingests j with
    | idle => trivial
    | inserted batch left held =>
        rw [hx] at hother
        exact ⟨⟨hother.1.keys, hother.1.fresh, hother.1.recent⟩, hother.2⟩

omit [LinearOrder ν] in
theorem maintain_dirtyHours (t : Tables δ χ ν) (started : ℤ) (dates : List ℤ) :
    (maintainTelemetryStorage t started dates).1.dirtyHours = t.dirtyHours :=
  (ensurePartitions_rest t dates).2.1

theorem Inv.maintain (h : Inv sql s) {look : Look} (hquiet : s.Quiet) (hle : look.started ≤ s.now) :
    Inv sql { s with
      tables := (maintainTelemetryStorage s.tables look.started look.dates).1
      maintenance := none } := by
  refine ⟨h.retained.maintain _ _, h.summarized.maintain hle _, h.exclusive, ?_, ?_, h.apart, h.workers, ?_, by simp⟩
  · intro j m hm
    rw [maintain_dirtyHours]
    exact h.claimed j m hm
  · intro j
    show Ingest.Ok _ (s.ingests j)
    rw [hquiet.ingests j]
    trivial
  · -- its lock waits for every reader
    intro j snap hsnap
    have hidle := hquiet.readers j
    exact absurd (hidle.symm.trans hsnap) (by simp)

theorem Inv.tick (h : Inv sql s) {now : ℤ} (hle : s.now ≤ now) : Inv sql { s with now } :=
  ⟨h.retained, h.summarized.later hle, h.exclusive, h.claimed, h.ingests, h.apart, fun j => (h.workers j).later hle,
    fun j snap hsnap => { h.snapshots j snap hsnap with taken := (h.snapshots j snap hsnap).taken.trans hle },
    fun look hlook => (h.looks look hlook).trans hle⟩

/-! ## Runs -/

omit [LinearOrder ν] in
theorem mem_touchedHours {batch : List (Reading δ χ ν)} {m : Marker δ χ} :
    m ∈ touchedHours batch ↔ ∃ r ∈ batch, r.marker = m := by
  unfold touchedHours
  rw [Keyset.mem_ordered, List.mem_dedup, List.mem_map]

/-- **Preserved by every step.** -/
theorem inv_step {e : Event} (h : Inv sql s) (hstep : Step sql s e s') : Inv sql s' := by
  cases hstep with
  | tick hle => exact h.tick hle
  | insert hidle hkeys hfresh hapart hrecent =>
      refine h.onIngest ⟨⟨hkeys, hfresh, hrecent⟩, ?_⟩ (fun j _ r hr => hapart r hr j) (by simp [Ingest.held])
      intro m
      rw [mem_touchedHours]
      simp
  | @touch i batch m left held hi hfree =>
      have hok := h.ingests i
      rw [hi] at hok
      refine h.onIngest ⟨hok.1, ?_⟩ ?_ ?_
      · intro m'
        rw [← hok.2 m', List.mem_cons, List.mem_cons]
        tauto
      · intro j hj r hr
        refine h.apart i j hj.symm r ?_
        rw [hi]
        exact hr
      · intro m' hm' a ha
        rcases List.mem_cons.mp hm' with rfl | hin
        · exact hfree a ha
        · exact h.exclusive a (.ingest i) m' ha (by rw [State.Holds, hi]; exact hin)
  | store hi => exact h.store hi
  | rollBack => exact h.onIngest trivial (by simp [Ingest.batch]) (by simp [Ingest.held])
  | @claim i started m hidle hle hdirty hfree =>
      refine h.onWorker hle ?_
      intro m' hm'
      obtain rfl := Option.some.inj hm'
      exact ⟨hdirty, fun a ha => absurd ha (hfree a)⟩
  | @readMinutes i started m hi =>
      have hclaimed := h.claimed i m (by rw [hi]; rfl)
      have hok := h.workers i
      rw [hi] at hok
      refine h.onWorker ⟨hok, _, h.retained.samples hclaimed, rfl⟩ ?_
      intro m' hm'
      obtain rfl := Option.some.inj hm'
      exact ⟨hclaimed, fun a ha => h.exclusive a (.worker i) m ha (by rw [State.Holds, hi]; rfl)⟩
  | @readHours i started m rows hi =>
      have hclaimed := h.claimed i m (by rw [hi]; rfl)
      have hok := h.workers i
      rw [hi] at hok
      refine h.onWorker ⟨hok.1, _, _, rfl, hok.2, _, h.retained.samples hclaimed, rfl⟩ ?_
      intro m' hm'
      obtain rfl := Option.some.inj hm'
      exact ⟨hclaimed, fun a ha => h.exclusive a (.worker i) m ha (by rw [State.Holds, hi]; rfl)⟩
  | replace hi => exact h.replace hi
  | giveUp => exact h.onWorker trivial (by simp [Worker.marker])
  | look _ hle =>
      refine { h with looks := ?_ }
      intro look hlook
      obtain rfl := Option.some.inj hlook
      exact hle
  | maintain hlook hquiet => exact h.maintain hquiet (h.looks _ hlook)
  | leave => exact { h with looks := by simp }
  | lock hidle => exact h.onReader (by simp)
  | snapshot hlocked =>
      refine h.onReader ?_
      intro snap hsnap
      obtain rfl := Reader.reading.inj hsnap
      exact ⟨h.retained, h.summarized, le_rfl, rfl, List.prefix_refl _⟩
  | finish => exact h.onReader (by simp)

theorem inv_init (h : Initial s) : Inv sql s := by
  obtain ⟨started, htables⟩ := h.tables
  obtain ⟨-, hdirty, hrollups⟩ := ensurePartitions_rest
    (⟨⟨s.accepted, []⟩, 0, touchedHours s.accepted, []⟩ : Tables δ χ ν) (comingDays started)
  have hbase : Retained (⟨⟨s.accepted, []⟩, 0, touchedHours s.accepted, []⟩ : Tables δ χ ν) s.accepted := by
    refine ⟨⟨List.nodup_nil, by simp [Partitioned.keys], by simp⟩, dvd_zero _, ?_, h.keys, ?_, ?_, ?_⟩
    · intro m hm
      obtain ⟨r, -, rfl⟩ := mem_touchedHours.mp hm
      exact marker_bucket r
    · simpa [Partitioned.all] using nodup_of_keys h.keys
    · simp [Partitioned.all]
    · intro r hr _
      simpa [Partitioned.all] using hr
  refine ⟨?_, ⟨?_, ?_, ?_⟩, ?_, ?_, ?_, ?_, ?_, ?_, ?_⟩
  · rw [htables]
    exact hbase.ensureAll _
  · rw [htables, migrated, hrollups]
    exact List.nodup_nil
  · rw [htables, migrated, hrollups]
    simp
  · -- every hour that has a row is dirty
    intro r hr hclean
    rw [htables, migrated, hdirty] at hclean
    exact absurd (mem_touchedHours.mpr ⟨r, hr, rfl⟩) hclean
  · intro a b m ha
    cases a with
    | ingest i => exact absurd ha (by simp [State.Holds, h.ingests i, Ingest.held])
    | worker i => exact absurd ha (by simp [State.Holds, h.workers i, Worker.marker])
  · intro i m hm
    exact absurd hm (by simp [h.workers i, Worker.marker])
  · intro i
    rw [h.ingests i]
    trivial
  · intro i j _ r hr
    exact absurd hr (by simp [h.ingests i, Ingest.batch])
  · intro i
    rw [h.workers i]
    trivial
  · intro i snap hsnap
    exact absurd hsnap (by simp [h.readers i])
  · simp [h.maintenance]

theorem inv_run {es : List Event} (h : (storage sql).Run es s) : Inv sql s :=
  h.invariant (I := fun _ s => Inv sql s) (fun _ hinit => inv_init hinit) fun _ _ _ _ hs hstep _ => inv_step hs hstep

end Albusforge.Telemetry
