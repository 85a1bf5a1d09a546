import Albusforge.Camera.Headers
import Albusforge.Camera.Eviction

/-!
# Storing a record, and reading it back

`obs_spool_put` writes a record under a temporary name, syncs it and renames it: wherever it fails or is
cut off, the record's file is as it was or all there (`obsSpoolPut_wp`). `obs_spool_read` gives back
what was put, **as long as the record's moment is one that a header may have** (`put_recovered`).
-/

namespace Albusforge.Camera

open Lib Lib.Disk Lib.Proc

variable {d d' : Disk} {dir id bytes : Bytes} {record r : ObsRecord}

/-! ## What a put leaves -/

def partPath (dir id : Bytes) : Path := Path.child dir (id ++ partSuffix)

theorem obsPath_ne_part {id' : Bytes} : obsPath dir id ≠ partPath dir id' := by
  intro heq
  have hlast := congrArg List.getLast? (child_inj heq)
  rw [List.getLast?_append, List.getLast?_append, show obsSuffix.getLast? = some 115 by decide,
    show partSuffix.getLast? = some 116 by decide] at hlast
  exact absurd hlast (by simp)

structure Stored (dir bytes : Bytes) (record : ObsRecord) (d' : Disk) : Prop where
  storable : Storable record
  short : ShortPath dir
  file : ∃ raw, headerBytes record = some raw ∧
    d' (obsPath dir record.id) = some (.file (raw ++ bytes) (raw ++ bytes).length)

structure Putting (dir bytes : Bytes) (record : ObsRecord) (d d' : Disk) : Prop where
  others : ∀ p, p ≠ obsPath dir record.id → p ≠ partPath dir record.id → d' p = d p
  whole : d' (obsPath dir record.id) = d (obsPath dir record.id) ∨
    d (obsPath dir record.id) = none ∧ Stored dir bytes record d'

theorem Putting.refl (d : Disk) : Putting dir bytes record d d := ⟨fun _ _ _ => rfl, Or.inl rfl⟩

theorem Putting.part {n : Node} : Putting dir bytes record d (d.set (partPath dir record.id) n) :=
  ⟨fun _ _ hp => set_of_ne d n hp, Or.inl (set_of_ne d n obsPath_ne_part)⟩

theorem Putting.erase (h : Putting dir bytes record d d') :
    Putting dir bytes record d (d'.erase (partPath dir record.id)) := by
  have hfile : d'.erase (partPath dir record.id) (obsPath dir record.id) = d' (obsPath dir record.id) :=
    erase_of_ne d' obsPath_ne_part
  refine ⟨fun p hp hpart => (erase_of_ne d' hpart).trans (h.others p hp hpart), ?_⟩
  rcases h.whole with hsame | ⟨hnone, hstorable, hshort, raw, hraw, hthere⟩
  · exact Or.inl (hfile.trans hsame)
  · exact Or.inr ⟨hnone, hstorable, hshort, raw, hraw, hfile.trans hthere⟩

theorem writeRecord_wp {temp : Path} {content : Bytes} {C : Disk → Prop}
    (hC : ∀ c k, c <+: content → C (d.set temp (.file c k))) : wp serves (writeRecord temp content)
    (fun ok d' => (∃ c k, c <+: content ∧ d' = d.set temp (.file c k)) ∧
      (ok = true → d' = d.set temp (.file content content.length))) C (d.set temp (.file [] 0)) := by
  unfold writeRecord
  refine wp_bind (wp_mono ?_ (fun _ h => h) (wp_written hC))
  intro synced d' h
  obtain ⟨⟨c, k, hc, rfl⟩, hcontent⟩ := h
  have hnow := hC c k hc
  refine wp_bind (wp_close hnow ?_)
  intro closed
  refine ⟨⟨⟨c, k, hc, rfl⟩, ?_⟩, hnow⟩
  intro hok
  rw [Bool.and_eq_true] at hok
  exact hcontent hok.1

theorem recordPath_part {temp : Path} (h : recordPath dir id partSuffix = some temp) :
    ShortPath dir ∧ obsUuidValid id = true := by
  unfold recordPath at h
  split at h
  · rename_i hpath
    rw [Bool.and_eq_true, decide_eq_true_eq] at hpath
    obtain ⟨huuid, hfits⟩ := hpath
    have hlength : partSuffix.length = 5 := by decide
    rw [uuid_length huuid, hlength] at hfits
    refine ⟨?_, huuid⟩
    unfold ShortPath
    omega
  · exact absurd h (by simp)

theorem storable_of_checks {temp : Path}
    (h : ¬ (!obsDigestValid record.sha256 || record.bytes = 0 || obsMaxBytes < record.bytes ||
      record.capturedAt < 1700000000) = true)
    (htemp : recordPath dir record.id partSuffix = some temp) : Storable record ∧ ShortPath dir := by
  simp only [Bool.or_eq_true, Bool.not_eq_true', decide_eq_true_eq, not_or, Bool.not_eq_false, not_lt] at h
  obtain ⟨⟨⟨hdigest, hsome⟩, hbounded⟩, hrecent⟩ := h
  obtain ⟨hshort, huuid⟩ := recordPath_part htemp
  exact ⟨⟨huuid, hdigest, hsome, hbounded, hrecent⟩, hshort⟩

/-- **Wherever a put ends or is cut off, the record's file is as it was or all there.** -/
theorem obsSpoolPut_wp : wp serves (obsSpoolPut dir record bytes)
    (fun ok d' => Putting dir bytes record d d' ∧
      (ok = true → d (obsPath dir record.id) = none ∧ Stored dir bytes record d'))
    (Putting dir bytes record d) d := by
  have hnothing : Putting dir bytes record d d := Putting.refl d
  unfold obsSpoolPut
  split
  · exact ⟨⟨hnothing, by simp⟩, hnothing⟩
  rename_i hchecked
  split
  · rename_i temp final raw htemp hfinal hraw
    obtain ⟨hstorable, hshort⟩ := storable_of_checks hchecked htemp
    obtain rfl := recordPath_eq htemp
    obtain rfl := recordPath_eq hfinal
    rw [← obsPath, ← partPath]
    have hpart : ∀ n, Putting dir bytes record d (d.set (partPath dir record.id) n) := fun n => Putting.part
    refine wp_bind (wp_stat hnothing ?_)
    intro existing _
    split
    · exact ⟨⟨hnothing, by simp⟩, hnothing⟩
    refine wp_bind (wp_openTruncated hnothing ⟨⟨hnothing, by simp⟩, hnothing⟩ ⟨hpart _, ?_⟩)
    intro opened
    split
    · exact ⟨⟨hpart _, by simp⟩, hpart _⟩
    refine wp_bind (wp_mono ?_ (fun _ h => h) (writeRecord_wp fun c k _ => hpart _))
    intro ok d' hwritten
    obtain ⟨⟨c, k, -, rfl⟩, hcontent⟩ := hwritten
    -- whatever the rename came to, the temporary file is removed
    have hunlink : ∀ d', Putting dir bytes record d d' → wp serves (do
        let _ ← Posix.unlink (partPath dir record.id)
        return false) (fun ok d' => Putting dir bytes record d d' ∧
          (ok = true → d (obsPath dir record.id) = none ∧ Stored dir bytes record d'))
        (Putting dir bytes record d) d' := by
      intro d' hd'
      refine wp_bind (wp_unlink hd' ⟨hd'.erase, ?_⟩ ?_)
      · intro _ _
        exact ⟨⟨hd'.erase, by simp⟩, hd'.erase⟩
      · intro _ _ _
        exact ⟨⟨hd', by simp⟩, hd'⟩
    cases ok with
    | false => exact hunlink _ (hpart _)
    | true =>
        rw [hcontent rfl]
        refine wp_bind (wp_rename (hpart _) (hunlink _ (hpart _)) ?_)
        intro _ hnone
        rw [set_of_ne _ _ obsPath_ne_part] at hnone
        -- the temporary file is the record now
        rw [moved_some (set_self _ _ _)]
        generalize hmoved : ((d.set (partPath dir record.id) (.file (raw ++ bytes) (raw ++ bytes).length)).erase
          (partPath dir record.id)).set (obsPath dir record.id) (.file (raw ++ bytes) (raw ++ bytes).length) = d₁
        have hstored : Stored dir bytes record d₁ := ⟨hstorable, hshort, raw, hraw, by rw [← hmoved, set_self]⟩
        have hputting : Putting dir bytes record d d₁ := by
          refine ⟨fun p hp hpart => ?_, Or.inr ⟨hnone, hstored⟩⟩
          rw [← hmoved, set_of_ne _ _ hp, erase_of_ne _ hpart, set_of_ne _ _ hpart]
        refine ⟨hputting, fun renamed => ?_⟩
        cases renamed with
        | false => exact hunlink _ hputting
        | true => exact ⟨⟨hputting, fun _ => ⟨hnone, hstored⟩⟩, hputting⟩
  · exact ⟨⟨hnothing, by simp⟩, hnothing⟩

theorem put_exec {raw : Bytes} (hstorable : Storable record) (hshort : ShortPath dir)
    (hraw : headerBytes record = some raw) (hnone : d (obsPath dir record.id) = none)
    (hpart : d (partPath dir record.id) = none) :
    Exec serves d (obsSpoolPut dir record bytes)
      (d.set (obsPath dir record.id) (.file (raw ++ bytes) (raw ++ bytes).length)) (some true) := by
  generalize htemp : partPath dir record.id = temp at hpart
  generalize hfinal : obsPath dir record.id = final at hnone ⊢
  generalize hfile : raw ++ bytes = file
  have hisFile : (d.set temp (.file [] 0)).isFile temp := by simp [isFile, Disk.content]
  have hwritten : d.set temp (.file file 0) = (d.set temp (.file [] 0)).appended temp (file.take file.length) := by
    simp [appended, Disk.set]
  have hsynced : d.set temp (.file file file.length) = (d.set temp (.file file 0)).synced temp := by
    simp [synced, Disk.set]
  have hwrite : Exec serves (d.set temp (.file [] 0)) (writeRecord temp file)
      (d.set temp (.file file file.length)) (some true) := by
    have hboth : Exec serves (d.set temp (.file [] 0)) (Posix.andThen (Posix.write temp file) (Posix.sync temp))
        (d.set temp (.file file file.length)) (some true) := by
      refine (Exec.ask (r := true) ⟨file.length, hwritten, fun _ => ⟨hisFile, Nat.le_refl _⟩⟩).andThen ?_
      rw [if_pos rfl]
      exact Exec.call ⟨Or.inr hsynced, fun _ => hsynced⟩ .ret
    refine hboth.andThen ?_
    refine (Exec.ask (r := true) rfl).andThen ?_
    exact .ret
  have hne : final ≠ temp := hfinal ▸ htemp ▸ obsPath_ne_part
  have hmoved : d.set final (.file file file.length) = (d.set temp (.file file file.length)).moved temp final := by
    rw [moved_some (set_self _ _ _)]
    funext p
    by_cases hp : p = final
    · rw [hp, set_self, set_self]
    · rw [set_of_ne _ _ hp, set_of_ne _ _ hp]
      by_cases hp' : p = temp
      · rw [hp', erase_self, hpart]
      · rw [erase_of_ne _ hp', set_of_ne _ _ hp']
  have hrename : serves (d.set temp (.file file file.length)) (.rename temp final) true
      (d.set final (.file file file.length)) := by
    refine ⟨fun _ => ⟨by simp [isFile, Disk.content], ?_, hmoved⟩, by simp⟩
    rw [set_of_ne _ _ hne, hnone]
  have hchecked : ¬ (!obsDigestValid record.sha256 || record.bytes = 0 || obsMaxBytes < record.bytes ||
      record.capturedAt < 1700000000) = true := by
    simp [hstorable.digest, hstorable.some, hstorable.bounded, hstorable.recent]
  unfold obsSpoolPut
  rw [if_neg hchecked, recordPath_short hshort hstorable.id (by decide),
    recordPath_short hshort hstorable.id (by decide), hraw, ← partPath, ← obsPath, htemp, hfinal]
  dsimp only
  rw [hfile]
  refine (Exec.ask (r := none) ⟨rfl, by simp⟩).andThen ?_
  rw [if_neg (by simp)]
  refine (Exec.ask (r := true) ⟨fun _ => rfl, by simp, Or.inl hpart⟩).andThen ?_
  rw [if_neg (by simp)]
  refine hwrite.andThen ?_
  refine (Exec.ask (r := true) hrename).andThen ?_
  exact .ret

/-! ## What a read gives -/

theorem obsSpoolRead_wp {own : Bool} :
    wp serves (obsSpoolRead dir id own) (fun result d' => d' = d ∧ ∀ r b, result = some (r, b) →
      ∃ c, d.content (obsPath dir id) = some c ∧ recordOf c = some r ∧ b = c.drop headerSize)
      (fun _ => True) d := by
  unfold obsSpoolRead
  split
  · exact ⟨⟨rfl, by simp⟩, trivial⟩
  rename_i file hfile
  obtain rfl := recordPath_eq hfile
  refine wp_bind (wp_openRead trivial ?_)
  intro opened _ _
  split
  · exact ⟨⟨rfl, by simp⟩, trivial⟩
  refine wp_bind (wp_mono ?_ (fun _ h => h) header_wp)
  intro result d' h
  obtain ⟨rfl, hheader⟩ := h
  split
  · refine wp_bind (wp_close trivial ?_)
    intro _
    exact ⟨⟨rfl, by simp⟩, trivial⟩
  rename_i r hr
  obtain ⟨c, hc, hrecord⟩ := hheader r (Option.filter_eq_some_iff.mp hr).1
  refine wp_bind (wp_read trivial ?_)
  intro bytes hbytes
  refine wp_bind (wp_close trivial ?_)
  intro _
  refine ⟨⟨rfl, ?_⟩, trivial⟩
  intro r' b hresult
  obtain ⟨b', hb', heq⟩ := Option.map_eq_some_iff.mp hresult
  obtain ⟨rfl, rfl⟩ := Prod.mk.inj heq
  obtain ⟨c', hc', himage⟩ := hbytes _ (Option.filter_eq_some_iff.mp hb').1
  obtain rfl : c = c' := Option.some.inj (hc.symm.trans hc')
  have hlength : c.length = headerSize + r.bytes := by
    simpa using (Option.filter_eq_some_iff.mp hrecord).2
  refine ⟨c, hc, hrecord, ?_⟩
  rw [himage, List.take_of_length_le]
  rw [List.length_drop]
  omega

theorem obsSpoolRead_ends {own : Bool} (hshort : ShortPath dir) (huuid : obsUuidValid id = true) :
    ends prompt (obsSpoolRead dir id own) (fun result d' => d' = d ∧ result =
      (d.content (obsPath dir id)).bind fun c =>
        ((recordOf c).filter fun r => own || r.id = id).map fun r => (r, c.drop headerSize)) d := by
  unfold obsSpoolRead
  rw [recordPath_short hshort huuid (by decide), ← obsPath]
  refine ends_bind (prompt_openRead ?_ ?_)
  · intro _
    rw [if_neg (by simp)]
    refine ends_bind (ends_mono ?_ header_ends)
    intro result d' h
    obtain ⟨rfl, rfl⟩ := h
    split
    · rename_i hnone
      refine ends_bind (prompt_close ⟨rfl, ?_⟩)
      cases hc : d'.content (obsPath dir id) with
      | none => rfl
      | some c =>
          rw [hc, Option.bind_some] at hnone
          rw [Option.bind_some, hnone, Option.map_none]
    · rename_i r hr
      obtain ⟨c, hc, hrecord⟩ := Option.bind_eq_some_iff.mp (Option.filter_eq_some_iff.mp hr).1
      have hlength : c.length = headerSize + r.bytes := by
        simpa using (Option.filter_eq_some_iff.mp hrecord).2
      have himage : (c.drop headerSize).length = r.bytes := by
        rw [List.length_drop]
        omega
      rw [hc, Option.bind_some] at hr
      refine ends_bind (prompt_read ?_)
      refine ends_bind (prompt_close ⟨rfl, ?_⟩)
      rw [hc, Option.map_some, Option.bind_some, hr, ← himage, List.take_length]
      simp [Option.filter]
  · intro hnone
    exact ⟨rfl, by simp [Disk.content, hnone]⟩

/-! ## What was put is read -/

structure Recovered (dir bytes : Bytes) (record : ObsRecord) (d : Disk) : Prop where
  read : ∀ own, ends prompt (obsSpoolRead dir record.id own)
    (fun result _ => result = some (record, bytes)) d
  valid : ∀ now claimed pass, ends prompt (scanEntry dir now claimed (record.id ++ obsSuffix) pass)
    (fun result _ => ∃ pass', result = some pass' ∧ pass'.corrupt = pass.corrupt ∧
      (¬ Aged now claimed record.id record → pass'.count = pass.count + 1)) d

theorem Stored.content {later : Disk} (h : Stored dir bytes record d')
    (hkept : later (obsPath dir record.id) = d' (obsPath dir record.id)) :
    ∃ raw, headerBytes record = some raw ∧ raw.length = headerSize ∧
      later.content (obsPath dir record.id) = some (raw ++ bytes) := by
  obtain ⟨raw, hraw, hfile⟩ := h.file
  exact ⟨raw, hraw, headerBytes_length hraw, by rw [Disk.content, hkept, hfile]⟩

theorem Stored.recordAt {later : Disk} (h : Stored dir bytes record d') (hlength : bytes.length = record.bytes)
    (hkept : later (obsPath dir record.id) = d' (obsPath dir record.id)) :
    recordAt later dir record.id = if record.capturedAt ≤ lastMoment then some record else none := by
  obtain ⟨raw, hraw, -, hcontent⟩ := h.content hkept
  rw [recordAt_of_content h.storable.id hcontent, recordOf_file h.storable hraw hlength]
  split
  · simp [Option.filter]
  · rfl

theorem Stored.recovered {later : Disk} (h : Stored dir bytes record d') (hlength : bytes.length = record.bytes)
    (hkept : later (obsPath dir record.id) = d' (obsPath dir record.id)) :
    Recovered dir bytes record later ↔ record.capturedAt ≤ lastMoment := by
  have hrecord := h.recordAt hlength hkept
  obtain ⟨raw, hraw, hsize, hcontent⟩ := h.content hkept
  have hread : ∀ own, ends prompt (obsSpoolRead dir record.id own) (fun result d' => d' = later ∧ result =
      (if record.capturedAt ≤ lastMoment then some (record, bytes) else none)) later := by
    intro own
    refine ends_mono ?_ (obsSpoolRead_ends h.short h.storable.id)
    intro result d₁ hresult
    obtain ⟨hd₁, rfl⟩ := hresult
    refine ⟨hd₁, ?_⟩
    rw [hcontent, Option.bind_some, recordOf_file h.storable hraw hlength, ← hsize, List.drop_left]
    split
    · simp [Option.filter]
    · rfl
  constructor
  · intro hrecovered
    obtain ⟨_, result, hfound, -, hresult⟩ := ends_meet (hrecovered.read false) (hread false)
    by_contra hlate
    rw [if_neg hlate, hfound] at hresult
    exact absurd hresult (by simp)
  · intro hearly
    rw [if_pos hearly] at hrecord
    refine ⟨?_, ?_⟩
    · intro own
      refine ends_mono ?_ (hread own)
      intro result _ hresult
      rw [hresult.2, if_pos hearly]
    · intro now claimed pass
      have hentry : ends prompt (scanEntry dir now claimed (record.id ++ obsSuffix) pass) _ later :=
        scanEntry_obs_ends h.short h.storable.id (recordAt_present hrecord)
      rw [hrecord] at hentry
      refine ends_mono ?_ hentry
      intro result _ hresult
      rcases hresult with ⟨hold, rfl, -⟩ | ⟨_, -, _, rfl⟩
      · exact ⟨_, rfl, rfl, fun hyoung => absurd hold hyoung⟩
      · exact ⟨_, rfl, rfl, fun _ => rfl⟩

theorem stored_of_put (hput : Exec serves d (obsSpoolPut dir record bytes) d' (some true)) :
    Stored dir bytes record d' := ((hput.value obsSpoolPut_wp).2 rfl).2

/-- **A record that was put is read as it was, and counted, exactly if its moment is one that a header
may have.** -/
theorem put_recovered {later : Disk} (hlength : bytes.length = record.bytes)
    (hput : Exec serves d (obsSpoolPut dir record bytes) d' (some true))
    (hkept : later (obsPath dir record.id) = d' (obsPath dir record.id)) :
    Recovered dir bytes record later ↔ record.capturedAt ≤ lastMoment :=
  (stored_of_put hput).recovered hlength hkept

namespace Frames

def bare : Disk := fun p => if p = chars "/spool" then some .directory else none

def frameAt (moment : ℤ) : ObsRecord :=
  { id := chars "00000000-0000-4000-8000-000000000000"
    sha256 := List.replicate 64 97
    capturedAt := moment
    bytes := 2 }

theorem frameAt_storable {moment : ℤ} (h : 1700000000 ≤ moment) : Storable (frameAt moment) :=
  ⟨by show obsUuidValid (chars _) = true; decide, by show obsDigestValid (List.replicate 64 97) = true; decide,
    by simp [frameAt], by simp [frameAt, obsMaxBytes], h⟩

theorem bare_absent {name : Bytes} : bare (Path.child (chars "/spool") name) = none := by
  rw [bare, if_neg]
  intro heq
  have hlength := congrArg List.length heq
  rw [Path.child, List.length_append, List.length_cons] at hlength
  omega

theorem put_frameAt {moment : ℤ} (h : 1700000000 ≤ moment) (hfits : (headerBytes (frameAt moment)).isSome = true) :
    ∃ d', Exec serves bare (obsSpoolPut (chars "/spool") (frameAt moment) [255, 216]) d' (some true) := by
  obtain ⟨raw, hraw⟩ := Option.isSome_iff_exists.mp hfits
  exact ⟨_, put_exec (frameAt_storable h) (show 6 + 43 < 256 by omega) hraw
    bare_absent bare_absent⟩

end Frames

/-- A record of today is recovered. -/
theorem put_recovered_frame :
    ∃ d', Exec serves Frames.bare (obsSpoolPut (chars "/spool") (Frames.frameAt 1700000000) [255, 216]) d' (some true) ∧
      (Recovered (chars "/spool") [255, 216] (Frames.frameAt 1700000000) d' ↔ (1700000000 : ℤ) ≤ lastMoment) := by
  obtain ⟨d', hput⟩ := Frames.put_frameAt (show (1700000000 : ℤ) ≤ 1700000000 by omega) (by decide +kernel)
  exact ⟨d', hput, put_recovered rfl hput rfl⟩

/-- A record of the year 10000 is stored, and can not be read. -/
theorem put_not_recovered :
    ∃ d', Exec serves Frames.bare (obsSpoolPut (chars "/spool") (Frames.frameAt 253402300800) [255, 216]) d' (some true) ∧
      ¬ Recovered (chars "/spool") [255, 216] (Frames.frameAt 253402300800) d' := by
  obtain ⟨d', hput⟩ := Frames.put_frameAt (show (1700000000 : ℤ) ≤ 253402300800 by omega) (by decide +kernel)
  refine ⟨d', hput, ?_⟩
  intro hrecovered
  have hearly := ((stored_of_put hput).recovered rfl rfl).mp hrecovered
  simp only [Frames.frameAt, lastMoment] at hearly
  omega

end Albusforge.Camera
