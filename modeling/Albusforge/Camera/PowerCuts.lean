import Albusforge.Lib.Machine
import Albusforge.Camera.Storing

/-!
# The spool when the power is lost

`obs_spool_put` syncs a record before it renames it, and a rename is made or is not. So the files of a
directory are never part of a record, whatever fails and wherever the power goes: each of them is
gone, as it was, or a record that was put, all of it (`Whole`, kept by every call: `Whole.step`).

**A put that fails or is cut off is safe exactly for the records that can be read** (`put_crash_safe`): one
with a moment too late for a header is stored as well, and its file is then no record.
-/

namespace Albusforge.Camera

open Lib Lib.Disk Lib.Proc

/-! ## What is done to a directory -/

inductive SpoolCall
  | scan
  | read (id : Bytes) (result : Option (ObsRecord × Bytes))
  | put (record : ObsRecord) (bytes : Bytes)
  | powerCut

inductive SpoolCall.Step (dir : Bytes) : Disk → SpoolCall → Disk → Prop
  | scan {d d' : Disk} {now : ℤ} {claimed : Option Bytes} {reserveBytes maxCount maxBytes rounds dropped corrupt : ℕ}
      {x : Option Scan} :
      Exec serves d (scanLimits dir now claimed reserveBytes maxCount maxBytes rounds dropped corrupt) d' x →
      Step dir d .scan d'
  | read {d d' : Disk} {id : Bytes} {own : Bool} {result : Option (ObsRecord × Bytes)} :
      Exec serves d (obsSpoolRead dir id own) d' (some result) → Step dir d (.read id result) d'
  | put {d d' : Disk} {record : ObsRecord} {bytes : Bytes} {x : Option Bool} : bytes.length = record.bytes →
      Exec serves d (obsSpoolPut dir record bytes) d' x → Step dir d (.put record bytes) d'
  | powerCut {d d' : Disk} : PowerCut d d' → Step dir d .powerCut d'

def spoolCalls (dir : Bytes) : Machine Disk SpoolCall := ⟨fun _ => True, SpoolCall.Step dir⟩

/-! ## Files are whole -/

section

variable {d d' d'' : Disk} {dir id bytes : Bytes} {record r : ObsRecord} {es : List SpoolCall}

theorem Stored.congr (h : Stored dir bytes record d') (hsame : d'' (obsPath dir record.id) = d' (obsPath dir record.id)) :
    Stored dir bytes record d'' := by
  obtain ⟨hstorable, hshort, raw, hraw, hfile⟩ := h
  exact ⟨hstorable, hshort, raw, hraw, hsame.trans hfile⟩

def PutIn (dir id : Bytes) (es : List SpoolCall) (d' : Disk) : Prop :=
  ∃ record bytes, SpoolCall.put record bytes ∈ es ∧ record.id = id ∧ bytes.length = record.bytes ∧
    Stored dir bytes record d'

structure Whole (dir : Bytes) (d : Disk) (es : List SpoolCall) (d' : Disk) : Prop where
  medium : ∀ id, d'.OnMedium (obsPath dir id)
  file : ∀ id, d' (obsPath dir id) = none ∨ d' (obsPath dir id) = d (obsPath dir id) ∨ PutIn dir id es d'

theorem Whole.refl (h : ∀ id, d.OnMedium (obsPath dir id)) : Whole dir d [] d := ⟨h, fun _ => Or.inr (Or.inl rfl)⟩

theorem Whole.left {e : SpoolCall} (h : Whole dir d es d')
    (hleft : d'' (obsPath dir id) = d' (obsPath dir id) ∨ d'' (obsPath dir id) = none) :
    d''.OnMedium (obsPath dir id) ∧ (d'' (obsPath dir id) = none ∨ d'' (obsPath dir id) = d (obsPath dir id) ∨
      PutIn dir id (es ++ [e]) d'') := by
  rcases hleft with hsame | hnone
  · refine ⟨(h.medium id).congr hsame, ?_⟩
    rcases h.file id with hgone | hold | ⟨record, bytes, hput, rfl, hlength, hstored⟩
    · exact Or.inl (hsame.trans hgone)
    · exact Or.inr (Or.inl (hsame.trans hold))
    · exact Or.inr (Or.inr ⟨record, bytes, List.mem_append_left _ hput, rfl, hlength, hstored.congr hsame⟩)
  · exact ⟨.of_none hnone, Or.inl hnone⟩

theorem Whole.of_left {e : SpoolCall} (h : Whole dir d es d')
    (hleft : ∀ id, d'' (obsPath dir id) = d' (obsPath dir id) ∨ d'' (obsPath dir id) = none) :
    Whole dir d (es ++ [e]) d'' := ⟨fun id => (h.left (e := e) (hleft id)).1, fun id => (h.left (hleft id)).2⟩

theorem Putting.file (h : Putting dir bytes record d d') (hne : id ≠ record.id) :
    d' (obsPath dir id) = d (obsPath dir id) :=
  h.others _ (fun heq => hne (obsPath_inj heq)) obsPath_ne_part

theorem putting_of_exec {x : Option Bool} (h : Exec serves d (obsSpoolPut dir record bytes) d' x) :
    Putting dir bytes record d d' := by
  cases x with
  | none => exact h.left obsSpoolPut_wp
  | some ok => exact (h.value obsSpoolPut_wp).1

theorem left_of_exec {now : ℤ} {claimed : Option Bytes} {reserveBytes maxCount maxBytes rounds dropped corrupt : ℕ}
    {x : Option Scan}
    (h : Exec serves d (scanLimits dir now claimed reserveBytes maxCount maxBytes rounds dropped corrupt) d' x)
    (p : Path) : d' p = d p ∨ d' p = none := by
  have hleft : ∀ p, d' p = d p ∨ d' p = none ∧ ∃ name, p = Path.child dir name := by
    cases x with
    | none => exact h.left scanLimits_left
    | some scan => exact h.value scanLimits_left
  exact (hleft p).imp_right And.left

/-- **Every call keeps the files whole.** -/
theorem Whole.step {e : SpoolCall} (h : Whole dir d es d') (hstep : SpoolCall.Step dir d' e d'') :
    Whole dir d (es ++ [e]) d'' := by
  cases hstep with
  | scan hexec => exact h.of_left fun id => left_of_exec hexec _
  | read hexec =>
      obtain ⟨rfl, -⟩ := hexec.value obsSpoolRead_wp
      exact h.of_left fun _ => Or.inl rfl
  | @put _ record bytes _ hlength hexec =>
      have hputting := putting_of_exec hexec
      rcases hputting.whole with hsame | ⟨-, hstored⟩
      · refine h.of_left fun id => ?_
        by_cases hid : id = record.id
        · exact Or.inl (hid ▸ hsame)
        · exact Or.inl (hputting.file hid)
      · -- the one file that is new is the record's
        refine ⟨fun id => ?_, fun id => ?_⟩
        · by_cases hid : id = record.id
          · subst hid
            obtain ⟨raw, -, hfile⟩ := hstored.file
            intro content durable hcontent
            obtain ⟨rfl, rfl⟩ := Node.file.inj (Option.some.inj (hfile.symm.trans hcontent))
            rfl
          · exact (h.left (e := .put record bytes) (Or.inl (hputting.file hid))).1
        · by_cases hid : id = record.id
          · exact Or.inr (Or.inr ⟨record, bytes, List.mem_append_right _ (List.mem_singleton_self _), hid.symm,
              hlength, hstored⟩)
          · exact (h.left (Or.inl (hputting.file hid))).2
  | powerCut hcut => exact h.of_left fun id => Or.inl (hcut.same (h.medium id))

theorem Whole.steps {es' : List SpoolCall} (h : Whole dir d es d') (hsteps : (spoolCalls dir).Steps d' es' d'') :
    Whole dir d (es ++ es') d'' := by
  induction hsteps generalizing es with
  | refl => rwa [List.append_nil]
  | step hone _ ih =>
      have hnext := ih (h.step hone)
      rwa [List.append_assoc, List.singleton_append] at hnext

/-! ## What is read -/

def HasImage (d : Disk) (dir id : Bytes) (r : ObsRecord) (b : Bytes) : Prop :=
  ∃ c, d.content (obsPath dir id) = some c ∧ recordOf c = some r ∧ b = c.drop headerSize

theorem Stored.image {b : Bytes} (h : Stored dir bytes record d') (hlength : bytes.length = record.bytes)
    (hread : HasImage d' dir record.id r b) : r = record ∧ b = bytes := by
  obtain ⟨raw, hraw, hsize, hcontent⟩ := h.content rfl
  obtain ⟨c, hc, hrecord, rfl⟩ := hread
  obtain rfl := Option.some.inj (hcontent.symm.trans hc)
  rw [recordOf_file h.storable hraw hlength] at hrecord
  split at hrecord
  · exact ⟨(Option.some.inj hrecord).symm, by rw [← hsize, List.drop_left]⟩
  · exact absurd hrecord (by simp)

theorem Whole.reads {es' : List SpoolCall} {b : Bytes} (h : Whole dir d es d')
    (hsteps : (spoolCalls dir).Steps d' es' d'') (hread : .read id (some (r, b)) ∈ es') :
    HasImage d dir id r b ∨ r.id = id ∧ .put r b ∈ es ++ es' := by
  obtain ⟨before, after, rfl⟩ := List.append_of_mem hread
  obtain ⟨d₁, hbefore, hrest⟩ := hsteps.split
  obtain ⟨d₂, hone, -⟩ := hrest.cons_inv
  have hnow := h.steps hbefore
  cases hone with
  | read hexec =>
      obtain ⟨-, hresult⟩ := hexec.value obsSpoolRead_wp
      have himage : HasImage d₁ dir id r b := hresult r b rfl
      rcases hnow.file id with hgone | hold | ⟨record, bytes, hput, rfl, hlength, hstored⟩
      · obtain ⟨c, hc, -⟩ := himage
        exact absurd hc (by simp [Disk.content, hgone])
      · obtain ⟨c, hc, hrest⟩ := himage
        rw [Disk.content, hold] at hc
        exact Or.inl ⟨c, hc, hrest⟩
      · obtain ⟨rfl, rfl⟩ := hstored.image hlength himage
        refine Or.inr ⟨rfl, ?_⟩
        rw [← List.append_assoc]
        exact List.mem_append_left _ hput

/-! ## A put that does not get to its end -/

inductive Broken (dir bytes : Bytes) (record : ObsRecord) (d : Disk) : Disk → Prop
  | failed {d' : Disk} : Exec serves d (obsSpoolPut dir record bytes) d' (some false) → Broken dir bytes record d d'
  | cut {d₁ d' : Disk} : Exec serves d (obsSpoolPut dir record bytes) d₁ none → PowerCut d₁ d' →
      Broken dir bytes record d d'

/-- The record's file is as it was or the whole record, no other record's has changed, and from there on
no read gives a part of an image, and any scan of which nothing fails removes what was not finished. -/
structure CrashSafe (dir bytes : Bytes) (record : ObsRecord) (d d' : Disk) : Prop where
  whole : d' (obsPath dir record.id) = d (obsPath dir record.id) ∨
    d (obsPath dir record.id) = none ∧ recordAt d' dir record.id = some record ∧
      HasImage d' dir record.id record bytes
  others : ∀ id, id ≠ record.id → d' (obsPath dir id) = d (obsPath dir id)
  reads : ∀ es d'', (spoolCalls dir).Steps d' es d'' → ∀ id r b, .read id (some (r, b)) ∈ es →
    HasImage d dir id r b ∨ r.id = id ∧ (r = record ∧ b = bytes ∨ .put r b ∈ es)
  parts : ∀ p, recordPath dir record.id partSuffix = some p →
    ∀ es d'', (spoolCalls dir).Steps d' es d'' →
    ∀ now claimed (l : Limits) names rounds dropped corrupt, l.reserveBytes ≤ obsMaxBytes →
      d''.Lists dir (.names names true) → names.length < rounds →
      ends prompt (scanLimits dir now claimed l.reserveBytes l.maxCount l.maxBytes rounds dropped corrupt)
        (fun _ d₁ => d₁ p = none) d''

structure Admitted (dir : Bytes) (record : ObsRecord) : Prop where
  storable : Storable record
  short : ShortPath dir
  room : (headerBytes record).isSome = true

theorem Stored.admitted (h : Stored dir bytes record d') : Admitted dir record := by
  obtain ⟨hstorable, hshort, raw, hraw, -⟩ := h
  exact ⟨hstorable, hshort, by rw [hraw]; rfl⟩

theorem cut_of_exec {a : Bool} {t : DiskProc Bool} (h : Exec serves d t d' (some a)) : Exec serves d t d' none := by
  generalize hx : some a = x at h
  induction h with
  | ret => exact .cut
  | call hop _ ih => exact .call hop (ih hx)
  | cut => exact .cut

theorem Broken.file (h : Broken dir bytes record d d') (hmedium : ∀ id, d.OnMedium (obsPath dir id))
    (hlength : bytes.length = record.bytes) : ∃ d₁, Putting dir bytes record d d₁ ∧
      (∀ id, d' (obsPath dir id) = d₁ (obsPath dir id)) ∧ Whole dir d [.put record bytes] d' := by
  have hstart := Whole.refl hmedium
  cases h with
  | failed hexec => exact ⟨d', putting_of_exec hexec, fun _ => rfl, hstart.step (.put hlength hexec)⟩
  | @cut d₁ _ hexec hcut =>
      have hput : Whole dir d [.put record bytes] d₁ := hstart.step (.put hlength hexec)
      have hsame : ∀ id, d' (obsPath dir id) = d₁ (obsPath dir id) := fun id => hcut.same (hput.medium id)
      refine ⟨d₁, putting_of_exec hexec, hsame, ?_⟩
      refine ⟨fun id => (hput.medium id).congr (hsame id), fun id => ?_⟩
      rcases hput.file id with hgone | hold | ⟨record', bytes', hmem, rfl, hlength', hstored⟩
      · exact Or.inl ((hsame id).trans hgone)
      · exact Or.inr (Or.inl ((hsame id).trans hold))
      · exact Or.inr (Or.inr ⟨record', bytes', hmem, rfl, hlength', hstored.congr (hsame record'.id)⟩)

theorem parts_removed {p : Path} {now : ℤ} {claimed : Option Bytes} {l : Limits} {names : List Bytes}
    {rounds dropped corrupt : ℕ} (hp : recordPath dir id partSuffix = some p)
    (hreserve : l.reserveBytes ≤ obsMaxBytes) (hlists : d.Lists dir (.names names true))
    (hrounds : names.length < rounds) :
    ends prompt (scanLimits dir now claimed l.reserveBytes l.maxCount l.maxBytes rounds dropped corrupt)
      (fun _ d' => d' p = none) d := by
  obtain ⟨owned, queue, hqueue⟩ : ∃ owned queue, Queue d dir now claimed owned queue := exists_queue hlists
  obtain ⟨hshort, huuid⟩ : ShortPath dir ∧ obsUuidValid id = true := recordPath_part hp
  obtain rfl := recordPath_eq hp
  refine ends_mono ?_ (scanLimits_ends hshort hreserve hlists hqueue ((hqueue.length_le hlists).trans_lt hrounds))
  intro scan d' h
  obtain ⟨evicted, left, -, hsettled⟩ := h
  exact hsettled.removed.gone _ (Or.inl ⟨_, rfl, id, huuid, Or.inl rfl⟩)

theorem Broken.safe (h : Broken dir bytes record d d') (hmedium : ∀ id, d.OnMedium (obsPath dir id))
    (hlength : bytes.length = record.bytes) (hreadable : Admitted dir record → record.capturedAt ≤ lastMoment) :
    CrashSafe dir bytes record d d' := by
  obtain ⟨d₁, hputting, hsame, hwhole⟩ := h.file hmedium hlength
  refine ⟨?_, ?_, ?_, ?_⟩
  · rcases hputting.whole with hold | ⟨hnone, hstored⟩
    · exact Or.inl ((hsame _).trans hold)
    · have hearly := hreadable hstored.admitted
      have hrecord := hstored.recordAt hlength (hsame record.id)
      rw [if_pos hearly] at hrecord
      obtain ⟨raw, hraw, hsize, hcontent⟩ := hstored.content (hsame record.id)
      refine Or.inr ⟨hnone, hrecord, raw ++ bytes, hcontent, ?_, by rw [← hsize, List.drop_left]⟩
      rw [recordOf_file hstored.storable hraw hlength, if_pos hearly]
  · intro id hne
    exact (hsame id).trans (hputting.file hne)
  · intro es d'' hsteps id r b hread
    rcases hwhole.reads hsteps hread with hold | ⟨hid, hput⟩
    · exact Or.inl hold
    · refine Or.inr ⟨hid, ?_⟩
      rcases List.mem_cons.mp hput with hfirst | hlater
      · obtain ⟨hr, hb⟩ := SpoolCall.put.inj hfirst
        exact Or.inl ⟨hr, hb⟩
      · exact Or.inr hlater
  · intro p hp es d'' _ now claimed l names rounds dropped corrupt hreserve hlists hrounds
    exact parts_removed hp hreserve hlists hrounds

theorem late_unsafe (hadmitted : Admitted dir record) (hlate : ¬ record.capturedAt ≤ lastMoment)
    (hlength : bytes.length = record.bytes) :
    ∃ d', Broken dir bytes record (fun _ => none) d' ∧ ¬ CrashSafe dir bytes record (fun _ => none) d' := by
  obtain ⟨raw, hraw⟩ := Option.isSome_iff_exists.mp hadmitted.room
  have hput : Exec serves (fun _ => none) (obsSpoolPut dir record bytes) _ (some true) :=
    put_exec hadmitted.storable hadmitted.short hraw rfl rfl
  generalize hd : Disk.set (fun _ => none) (obsPath dir record.id) (.file (raw ++ bytes) (raw ++ bytes).length) = d' at hput
  have hthere : d' (obsPath dir record.id) = some (.file (raw ++ bytes) (raw ++ bytes).length) := by rw [← hd, set_self]
  have hcut : PowerCut d' d' := by
    intro p
    by_cases hp : p = obsPath dir record.id
    · rw [hp, hthere]
      exact ⟨[], by simp, by simp⟩
    · rw [← hd, set_of_ne _ _ hp]
  refine ⟨d', .cut (cut_of_exec hput) hcut, ?_⟩
  intro hsafe
  rcases hsafe.whole with hold | ⟨-, hrecord, -⟩
  · exact absurd (hthere.symm.trans hold) (by simp)
  · rw [(stored_of_put hput).recordAt hlength rfl, if_neg hlate] at hrecord
    exact absurd hrecord (by simp)

/-- **A put is safe wherever it fails or is cut off, exactly if its record can be read or is refused.** -/
theorem put_crash_safe :
    (∀ d bytes d', (∀ id, d.OnMedium (obsPath dir id)) → bytes.length = record.bytes →
      Broken dir bytes record d d' → CrashSafe dir bytes record d d') ↔
    (Admitted dir record → record.capturedAt ≤ lastMoment) := by
  constructor
  · intro hsafe hadmitted
    by_contra hlate
    obtain ⟨d', hbroken, hunsafe⟩ := late_unsafe hadmitted hlate (List.length_replicate (n := record.bytes) (a := (0 : UInt8)))
    exact hunsafe (hsafe _ _ _ (fun _ => .of_none rfl) (List.length_replicate) hbroken)
  · intro hreadable d bytes d' hmedium hlength hbroken
    exact hbroken.safe hmedium hlength hreadable

end

/-- A record of the year 10000 is left as a file that is no record. -/
theorem put_not_crash_safe :
    ¬ ∀ d bytes d', (∀ id, d.OnMedium (obsPath (chars "/spool") id)) →
      bytes.length = (Frames.frameAt 253402300800).bytes →
      Broken (chars "/spool") bytes (Frames.frameAt 253402300800) d d' →
      CrashSafe (chars "/spool") bytes (Frames.frameAt 253402300800) d d' := by
  intro hsafe
  have hadmitted : Admitted (chars "/spool") (Frames.frameAt 253402300800) :=
    ⟨Frames.frameAt_storable (by omega), show 6 + 43 < 256 by omega, by decide +kernel⟩
  have hlate : ¬ (Frames.frameAt 253402300800).capturedAt ≤ lastMoment := by
    simp only [Frames.frameAt, lastMoment]
    omega
  have hlength : ([255, 216] : Bytes).length = (Frames.frameAt 253402300800).bytes := rfl
  obtain ⟨d', hbroken, hunsafe⟩ := late_unsafe hadmitted hlate hlength
  exact hunsafe (hsafe _ _ d' (fun _ => .of_none rfl) hlength hbroken)

end Albusforge.Camera
