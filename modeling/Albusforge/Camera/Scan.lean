import Mathlib
import Albusforge.Camera.Spool

/-!
# What a scan does to a directory

A scan can not tell a header that it failed to read from a bad one, nor a directory that it failed
to list from one that ends. Where it is answered attentively, so that no record is left out
(`Attentive`), it removes records for their age and, oldest first, for room (`Scanned`), **and when
it succeeds a new record fits in beside those that are left** (`scanLimits_wp`).
-/

namespace Albusforge.Camera

open Lib Lib.Disk Lib.Proc

/-! ## Records and their paths -/

section

variable {d d' : Disk} {dir id : Bytes} {r : ObsRecord}

theorem child_inj {dir a b : Bytes} (h : Path.child dir a = Path.child dir b) : a = b :=
  (List.cons.inj (List.append_cancel_left h)).2

theorem obsPath_inj {id' : Bytes} (h : obsPath dir id = obsPath dir id') : id = id' :=
  List.append_cancel_right (child_inj h)

theorem recordAt_congr (h : d' (obsPath dir id) = d (obsPath dir id)) :
    recordAt d' dir id = recordAt d dir id := by
  simp only [recordAt, Disk.content, h]

theorem recordAt_absent (h : d (obsPath dir id) = none) : recordAt d dir id = none := by
  simp [recordAt, Disk.content, h]

theorem recordAt_uuid (h : recordAt d dir id = some r) : obsUuidValid id = true := by
  unfold recordAt at h
  split at h
  · assumption
  · exact absurd h (by simp)

theorem recordAt_some (h : recordAt d dir id = some r) :
    ∃ c, d.content (obsPath dir id) = some c ∧ recordOf c = some r ∧ r.id = id := by
  unfold recordAt at h
  split at h
  · obtain ⟨hbind, hid⟩ := Option.filter_eq_some_iff.mp h
    obtain ⟨c, hc, hr⟩ := Option.bind_eq_some_iff.mp hbind
    exact ⟨c, hc, hr, by simpa using hid⟩
  · exact absurd h (by simp)

theorem recordAt_of_content {c : Bytes} (huuid : obsUuidValid id = true)
    (hc : d.content (obsPath dir id) = some c) : recordAt d dir id = (recordOf c).filter fun r => r.id = id := by
  simp [recordAt, huuid, hc]

theorem recordAt_present (h : recordAt d dir id = some r) : (d (obsPath dir id)).isSome = true := by
  obtain ⟨c, hc, -⟩ := recordAt_some h
  by_contra hnone
  rw [Option.not_isSome_iff_eq_none] at hnone
  exact absurd hc (by simp [Disk.content, hnone])

def IsRecordName (name : Bytes) : Prop :=
  ∃ id suffix, name = id ++ suffix ∧ obsUuidValid id = true ∧ (suffix = obsSuffix ∨ suffix = partSuffix)

def Shrunk (dir : Bytes) (d d' : Disk) : Prop :=
  ∀ p, d' p = d p ∨ d' p = none ∧ ∃ name, p = Path.child dir name ∧ IsRecordName name

theorem Shrunk.refl (d : Disk) : Shrunk dir d d := fun _ => Or.inl rfl

theorem Shrunk.trans {d'' : Disk} (h : Shrunk dir d d') (h' : Shrunk dir d' d'') : Shrunk dir d d'' := by
  intro p
  rcases h' p with hsame | hgone
  · rcases h p with hfirst | ⟨hnone, hname⟩
    · exact Or.inl (hsame.trans hfirst)
    · exact Or.inr ⟨hsame.trans hnone, hname⟩
  · exact Or.inr hgone

theorem Shrunk.record (h : Shrunk dir d d') (hr : recordAt d' dir id = some r) :
    recordAt d dir id = some r := by
  rcases h (obsPath dir id) with hsame | ⟨hnone, -⟩
  · rwa [recordAt_congr hsame] at hr
  · exact absurd hr (by simp [recordAt_absent hnone])

theorem shrunk_erase {name : Bytes} (h : IsRecordName name) :
    Shrunk dir d (d.erase (Path.child dir name)) := by
  intro p
  by_cases hp : p = Path.child dir name
  · subst hp
    exact Or.inr ⟨erase_self _ _, name, rfl, h⟩
  · exact Or.inl (erase_of_ne _ hp)

theorem recordAt_erase_of_ne {name : Bytes} (h : id ++ obsSuffix ≠ name) :
    recordAt (d.erase (Path.child dir name)) dir id = recordAt d dir id :=
  recordAt_congr (erase_of_ne _ fun heq => h (child_inj heq))

end

/-! ## Answers that leave nothing out -/

def Attentive (dir : Bytes) (d : Disk) : (op : DiskOp) → op.Ret → Prop
  | .openRead p, r => ∀ id, p = obsPath dir id → (recordAt d dir id).isSome = true → r = .done
  | .read p _ _, r => ∀ id, p = obsPath dir id → (recordAt d dir id).isSome = true → r ≠ none
  | .seekEnd p, r => ∀ id, p = obsPath dir id → (recordAt d dir id).isSome = true → r ≠ none
  | .list p, r => p = dir → ∀ names whole, r = .names names whole →
      ∀ id, (recordAt d dir id).isSome = true → id ++ obsSuffix ∈ names
  | _, _ => True

def attentive (dir : Bytes) : Surroundings DiskOp.Ret Disk :=
  fun d op r d' => serves d op r d' ∧ Attentive dir d op r

section

variable {d : Disk} {dir id : Bytes} {now : ℤ} {claimed : Option Bytes} {pass : Pass}

theorem header_wp {file : Path} : wp serves (header file)
    (fun result d' => d' = d ∧ ∀ r, result = some r → ∃ c, d.content file = some c ∧ recordOf c = some r)
    (fun _ => True) d := by
  unfold header
  refine wp_bind (wp_read trivial ?_)
  intro raw hraw
  cases hheader : raw.bind headerOf with
  | none => exact ⟨⟨rfl, by simp⟩, trivial⟩
  | some r =>
      obtain ⟨b, rfl, hb⟩ := Option.bind_eq_some_iff.mp hheader
      obtain ⟨c, hc, hbytes⟩ := hraw b rfl
      refine wp_bind (wp_seekEnd trivial ?_)
      intro size hsize
      refine ⟨⟨rfl, ?_⟩, trivial⟩
      intro r' hr'
      split at hr'
      · rename_i hlength
        obtain rfl := Option.some.inj hr'
        obtain ⟨c', hc', hn⟩ := hsize _ hlength
        obtain rfl : c = c' := Option.some.inj (hc.symm.trans hc')
        refine ⟨c, hc, ?_⟩
        rw [List.drop_zero] at hbytes
        rw [recordOf, ← hbytes, hb]
        simp [← hn]
      · exact absurd hr' (by simp)

theorem attend_openRead {p : Path} {Q : Outcome → Disk → Prop}
    (h : ∀ r, (r = .done → (d p).isSome = true) → (r = .absent → d p = none) →
      Attentive dir d (.openRead p) r → Q r d) :
    wp (attentive dir) (Posix.openRead p) Q (fun _ => True) d := by
  refine ⟨trivial, ?_⟩
  intro r d' ⟨⟨hd, hdone, habsent⟩, hattentive⟩
  subst hd
  exact ⟨h r hdone habsent hattentive, trivial⟩

theorem attend_read {p : Path} {offset length : ℕ} {Q : Option Bytes → Disk → Prop}
    (h : ∀ r, (∀ b, r = some b → ∃ c, d.content p = some c ∧ b = (c.drop offset).take length) →
      Attentive dir d (.read p offset length) r → Q r d) :
    wp (attentive dir) (Posix.read p offset length) Q (fun _ => True) d := by
  refine ⟨trivial, ?_⟩
  intro r d' ⟨⟨hd, hread⟩, hattentive⟩
  subst hd
  exact ⟨h r hread hattentive, trivial⟩

theorem attend_seekEnd {p : Path} {Q : Option ℕ → Disk → Prop}
    (h : ∀ r, (∀ n, r = some n → ∃ c, d.content p = some c ∧ n = c.length) →
      Attentive dir d (.seekEnd p) r → Q r d) :
    wp (attentive dir) (Posix.seekEnd p) Q (fun _ => True) d := by
  refine ⟨trivial, ?_⟩
  intro r d' ⟨⟨hd, hsize⟩, hattentive⟩
  subst hd
  exact ⟨h r hsize hattentive, trivial⟩

theorem attend_list {p : Path} {Q : Listing → Disk → Prop}
    (h : ∀ r, d.Lists p r → Attentive dir d (.list p) r → Q r d) :
    wp (attentive dir) (Posix.list p) Q (fun _ => True) d := by
  refine ⟨trivial, ?_⟩
  intro r d' ⟨⟨hd, hlists⟩, hattentive⟩
  subst hd
  exact ⟨h r hlists hattentive, trivial⟩

theorem attend {α : Type} {t : DiskProc α} {Q : α → Disk → Prop} {C : Disk → Prop}
    (h : wp serves t Q C d) : wp (attentive dir) t Q C d := wp_weaken (fun _ _ _ _ hop => hop.1) h

theorem header_attentive {r : ObsRecord} (hr : recordAt d dir id = some r) :
    wp (attentive dir) (header (obsPath dir id)) (fun result d' => d' = d ∧ result = some r)
      (fun _ => True) d := by
  have hsome : (recordAt d dir id).isSome = true := by rw [hr]; rfl
  obtain ⟨c, hc, hrecord, -⟩ := recordAt_some hr
  obtain ⟨hheader, hlength⟩ := Option.filter_eq_some_iff.mp hrecord
  unfold header
  refine wp_bind (attend_read ?_)
  intro raw hraw hattentive
  obtain ⟨b, rfl⟩ := Option.ne_none_iff_exists'.mp (hattentive id rfl hsome)
  obtain ⟨c', hc', rfl⟩ := hraw b rfl
  obtain rfl : c = c' := Option.some.inj (hc.symm.trans hc')
  rw [List.drop_zero, Option.bind_some, hheader]
  refine wp_bind (attend_seekEnd ?_)
  intro size hsize hattentive
  obtain ⟨n, rfl⟩ := Option.ne_none_iff_exists'.mp (hattentive id rfl hsome)
  obtain ⟨c', hc', rfl⟩ := hsize n rfl
  obtain rfl : c = c' := Option.some.inj (hc.symm.trans hc')
  exact ⟨⟨rfl, by rw [if_pos (by simpa using hlength)]⟩, trivial⟩

theorem openRecord_wp (huuid : obsUuidValid id = true) :
    wp (attentive dir) (openRecord (obsPath dir id) id)
      (fun result d' => d' = d ∧ result = recordAt d dir id) (fun _ => True) d := by
  unfold openRecord
  refine wp_bind (attend_openRead ?_)
  intro opened _ _ hattentive
  cases hr : recordAt d dir id with
  | some r =>
      obtain rfl := hattentive id rfl (by rw [hr]; rfl)
      rw [if_neg (by simp)]
      refine wp_bind (wp_mono ?_ (fun _ h => h) (header_attentive hr))
      intro result d' h
      obtain ⟨rfl, rfl⟩ := h
      refine wp_bind (attend (wp_close trivial ?_))
      intro _
      obtain ⟨_, _, _, hid⟩ := recordAt_some hr
      exact ⟨⟨rfl, by simp [Option.filter, hid]⟩, trivial⟩
  | none =>
      split
      · exact ⟨⟨rfl, rfl⟩, trivial⟩
      refine wp_bind (attend (wp_mono ?_ (fun _ h => h) header_wp))
      intro result d' h
      obtain ⟨rfl, hfile⟩ := h
      refine wp_bind (attend (wp_close trivial ?_))
      intro _
      refine ⟨⟨rfl, ?_⟩, trivial⟩
      cases result with
      | none => rfl
      | some r =>
          obtain ⟨c, hc, hrecord⟩ := hfile r rfl
          rw [recordAt_of_content huuid hc, hrecord] at hr
          exact hr

/-! ## One entry -/

theorem take_name {suffix : Bytes} (h : obsUuidValid id = true) : (id ++ suffix).take 36 = id := by
  rw [← uuid_length h, List.take_left]

theorem drop_name (suffix : Bytes) (h : obsUuidValid id = true) : (id ++ suffix).drop 36 = suffix := by
  rw [← uuid_length h, List.drop_left]

theorem length_obsName (h : obsUuidValid id = true) : (id ++ obsSuffix).length = 40 := by
  have hsuffix : obsSuffix.length = 4 := by decide
  rw [List.length_append, uuid_length h, hsuffix]

theorem recordPath_eq {suffix : Bytes} {p : Path} (h : recordPath dir id suffix = some p) :
    p = Path.child dir (id ++ suffix) := by
  unfold recordPath at h
  split at h
  · exact (Option.some.inj h).symm
  · exact absurd h (by simp)

def Aged (now : ℤ) (claimed : Option Bytes) (id : Bytes) (r : ObsRecord) : Prop :=
  claimed ≠ some id ∧ r.capturedAt < now - obsMaxAgeS

def Swept (dir : Bytes) (now : ℤ) (claimed : Option Bytes) (name : Bytes) (d d' : Disk) : Prop :=
  d' = d ∨ d' = d.erase (Path.child dir name) ∧ IsRecordName name ∧
    ∀ id r, name = id ++ obsSuffix → recordAt d dir id = some r → Aged now claimed id r

structure Passed (dir name : Bytes) (pass pass' : Pass) (d' : Disk) : Prop where
  count : pass'.count = pass.count
  bytes : pass'.bytes = pass.bytes
  candidate : pass'.candidate = pass.candidate
  gone : ∀ id, obsUuidValid id = true → name = id ++ obsSuffix → recordAt d' dir id = none

structure Counted (dir : Bytes) (claimed : Option Bytes) (name : Bytes) (pass pass' : Pass)
    (d d' : Disk) (r : ObsRecord) : Prop where
  same : d' = d
  name : name = r.id ++ obsSuffix
  record : recordAt d dir r.id = some r
  count : pass'.count = pass.count + 1
  bytes : pass'.bytes = pass.bytes + (r.bytes + headerSize)
  candidate : pass'.candidate =
    if ¬ claimed = some r.id ∧ r.before pass.candidate = true then some r else pass.candidate

theorem sweep_wp {name : Bytes} {pass' : Pass}
    (hname : IsRecordName name)
    (haged : ∀ id r, name = id ++ obsSuffix → recordAt d dir id = some r → Aged now claimed id r)
    (hcount : pass'.count = pass.count) (hbytes : pass'.bytes = pass.bytes)
    (hcandidate : pass'.candidate = pass.candidate) :
    wp (attentive dir) (do
        if (← Posix.unlink (Path.child dir name)) ≠ .done then return none
        return some pass')
      (fun result d' => Swept dir now claimed name d d' ∧ ∀ p, result = some p →
        Passed dir name pass p d' ∨ ∃ r, Counted dir claimed name pass p d d' r) (fun _ => True) d := by
  have hgone : Swept dir now claimed name d (d.erase (Path.child dir name)) := Or.inr ⟨rfl, hname, haged⟩
  refine wp_bind (attend (wp_unlink trivial ⟨trivial, ?_⟩ ?_))
  · intro r _
    split
    · exact ⟨⟨hgone, by simp⟩, trivial⟩
    · refine ⟨⟨hgone, ?_⟩, trivial⟩
      intro p hp
      obtain rfl := Option.some.inj hp
      refine Or.inl ⟨hcount, hbytes, hcandidate, ?_⟩
      intro id _ heq
      subst heq
      exact recordAt_absent (erase_self _ _)
  · intro r hr _
    rw [if_pos hr]
    exact ⟨⟨Or.inl rfl, by simp⟩, trivial⟩

theorem scanEntry_wp {name : Bytes} : wp (attentive dir) (scanEntry dir now claimed name pass)
    (fun result d' => Swept dir now claimed name d d' ∧ ∀ p, result = some p →
      Passed dir name pass p d' ∨ ∃ r, Counted dir claimed name pass p d d' r) (fun _ => True) d := by
  have hsame : Swept dir now claimed name d d := Or.inl rfl
  unfold scanEntry
  dsimp only
  split
  · -- not a name that is looked at
    rename_i hother
    refine ⟨⟨hsame, ?_⟩, trivial⟩
    intro p hp
    obtain rfl := Option.some.inj hp
    refine Or.inl ⟨rfl, rfl, rfl, ?_⟩
    intro id huuid heq
    subst heq
    rcases hother with ⟨hlength, -⟩ | hbad
    · exact absurd (length_obsName huuid) hlength
    · rw [take_name huuid, huuid] at hbad
      exact absurd hbad (by simp)
  rename_i hlooked
  obtain ⟨-, huuid⟩ := not_or.mp hlooked
  rw [Bool.not_eq_false] at huuid
  have hsplit : name = name.take 36 ++ name.drop 36 := (List.take_append_drop 36 name).symm
  generalize hid : name.take 36 = id at huuid hsplit
  generalize hsuffix : name.drop 36 = suffix at hsplit
  split
  · exact ⟨⟨hsame, by simp⟩, trivial⟩
  rename_i file hfile
  obtain rfl := recordPath_eq hfile
  rw [← hsplit]
  split
  · rename_i hpart
    refine sweep_wp ⟨id, suffix, hsplit, huuid, Or.inr hpart⟩ ?_ rfl rfl rfl
    intro id' r heq hr
    -- a record does not end so
    have hdrop := drop_name obsSuffix (recordAt_uuid hr)
    rw [← heq, hsuffix, hpart] at hdrop
    exact absurd hdrop (by decide)
  split
  · rename_i hobs
    refine ⟨⟨hsame, ?_⟩, trivial⟩
    intro p hp
    obtain rfl := Option.some.inj hp
    refine Or.inl ⟨rfl, rfl, rfl, ?_⟩
    intro id' huuid' heq
    have hdrop := drop_name obsSuffix huuid'
    rw [← heq, hsuffix] at hdrop
    exact absurd hdrop hobs
  rename_i hobs
  obtain rfl : suffix = obsSuffix := not_not.mp hobs
  have hrecordName : IsRecordName name := ⟨id, obsSuffix, hsplit, huuid, Or.inl rfl⟩
  have hone : ∀ {id'}, name = id' ++ obsSuffix → id' = id := by
    intro id' heq
    exact List.append_cancel_right (heq.symm.trans hsplit)
  have hpath : Path.child dir name = obsPath dir id := by rw [hsplit, obsPath]
  rw [hpath]
  refine wp_bind (wp_mono ?_ (fun _ h => h) (openRecord_wp huuid))
  intro result d' h
  obtain ⟨rfl, rfl⟩ := h
  cases hr : recordAt d' dir id with
  | none =>
      rw [← hpath]
      refine sweep_wp hrecordName ?_ rfl rfl rfl
      intro id' r heq hr'
      obtain rfl := hone heq
      exact absurd (hr.symm.trans hr') (by simp)
  | some r =>
      obtain ⟨_, _, _, hrid⟩ := recordAt_some hr
      dsimp only
      split
      · rename_i hold
        rw [← hpath]
        refine sweep_wp hrecordName ?_ rfl rfl rfl
        intro id' r' heq hr'
        obtain rfl := hone heq
        obtain rfl := Option.some.inj (hr.symm.trans hr')
        exact hold
      · refine ⟨⟨hsame, ?_⟩, trivial⟩
        intro p hp
        obtain rfl := Option.some.inj hp
        subst hrid
        exact Or.inr ⟨r, rfl, hsplit, hr, rfl, rfl, rfl⟩

/-! ## One pass -/

theorem before_trans {r c c' : ObsRecord} (h : r.before (some c) = true)
    (h' : c'.before (some c) = false) : c'.before (some r) = false := by
  by_contra hbefore
  rw [Bool.not_eq_false] at hbefore
  simp only [ObsRecord.before, Bool.or_eq_true, Bool.and_eq_true, decide_eq_true_eq] at h hbefore
  simp only [ObsRecord.before, Bool.or_eq_false_iff, Bool.and_eq_false_iff, decide_eq_false_iff_not] at h'
  obtain ⟨hlater, hid⟩ := h'
  rcases hbefore with hlt | ⟨heq, hlt⟩
  · rcases h with hr | ⟨hr, -⟩ <;> omega
  · rcases h with hr | ⟨hr, hlt'⟩
    · omega
    · rcases hid with hne | hnlt
      · exact hne (heq.trans hr)
      · exact hnlt (List.lt_trans hlt hlt')

theorem before_self (r : ObsRecord) : r.before (some r) = false := by
  simp [ObsRecord.before, List.lt_irrefl]

def spoolBytes (records : List ObsRecord) : ℕ := (records.map fun r => r.bytes + headerSize).sum

def IsOldest (claimed : Option Bytes) (records : List ObsRecord) : Option ObsRecord → Prop
  | none => ∀ r ∈ records, claimed = some r.id
  | some c => c ∈ records ∧ claimed ≠ some c.id ∧
      ∀ r ∈ records, claimed ≠ some r.id → r.before (some c) = false

/-- After the entries `seen` the pass has counted these records. -/
structure Tally (dir : Bytes) (claimed : Option Bytes) (seen : List Bytes) (records : List ObsRecord)
    (d : Disk) (pass : Pass) : Prop where
  ids : (records.map ObsRecord.id).Nodup
  listed : ∀ r ∈ records, r.id ++ obsSuffix ∈ seen
  there : ∀ r ∈ records, recordAt d dir r.id = some r
  all : ∀ id r, id ++ obsSuffix ∈ seen → recordAt d dir id = some r → r ∈ records
  count : pass.count = records.length
  bytes : pass.bytes = spoolBytes records
  oldest : IsOldest claimed records pass.candidate

structure Cleared (dir : Bytes) (now : ℤ) (claimed : Option Bytes) (d d' : Disk) : Prop where
  shrunk : Shrunk dir d d'
  aged : ∀ id r, recordAt d dir id = some r → recordAt d' dir id = some r ∨ Aged now claimed id r

theorem Cleared.refl (d : Disk) : Cleared dir now claimed d d := ⟨Shrunk.refl d, fun _ _ h => Or.inl h⟩

theorem Cleared.trans {d' d'' : Disk} (h : Cleared dir now claimed d d')
    (h' : Cleared dir now claimed d' d'') : Cleared dir now claimed d d'' := by
  refine ⟨h.shrunk.trans h'.shrunk, ?_⟩
  intro id r hr
  rcases h.aged id r hr with hstill | hold
  · exact h'.aged id r hstill
  · exact Or.inr hold

theorem Swept.cleared {name : Bytes} {d' : Disk} (h : Swept dir now claimed name d d') :
    Cleared dir now claimed d d' := by
  rcases h with rfl | ⟨rfl, hname, haged⟩
  · exact Cleared.refl _
  · refine ⟨shrunk_erase hname, ?_⟩
    intro id r hr
    by_cases heq : id ++ obsSuffix = name
    · exact Or.inr (haged id r heq.symm hr)
    · exact Or.inl ((recordAt_erase_of_ne heq).trans hr)

theorem Swept.recordAt {name : Bytes} {d' : Disk} (h : Swept dir now claimed name d d')
    (hne : id ++ obsSuffix ≠ name) : recordAt d' dir id = recordAt d dir id := by
  rcases h with rfl | ⟨rfl, -, -⟩
  · rfl
  · exact recordAt_erase_of_ne hne

theorem Tally.passed {seen : List Bytes} {records : List ObsRecord} {name : Bytes} {pass' : Pass} {d' : Disk}
    (h : Tally dir claimed seen records d pass) (hnew : name ∉ seen)
    (hswept : Swept dir now claimed name d d') (hpassed : Passed dir name pass pass' d') :
    Tally dir claimed (seen ++ [name]) records d' pass' := by
  refine ⟨h.ids, ?_, ?_, ?_, hpassed.count.trans h.count, hpassed.bytes.trans h.bytes, ?_⟩
  · intro r hr
    exact List.mem_append_left _ (h.listed r hr)
  · intro r hr
    rw [hswept.recordAt fun heq => hnew (heq ▸ h.listed r hr)]
    exact h.there r hr
  · intro id r hseen hr
    rcases List.mem_append.mp hseen with hold | hlast
    · rw [hswept.recordAt fun heq => hnew (heq ▸ hold)] at hr
      exact h.all id r hold hr
    · have hgone := hpassed.gone id (recordAt_uuid hr) (List.mem_singleton.mp hlast).symm
      exact absurd (hgone.symm.trans hr) (by simp)
  · rw [hpassed.candidate]
    exact h.oldest

theorem IsOldest.next {records : List ObsRecord} {candidate : Option ObsRecord} {r : ObsRecord}
    (h : IsOldest claimed records candidate) : IsOldest claimed (records ++ [r])
      (if ¬ claimed = some r.id ∧ r.before candidate = true then some r else candidate) := by
  split
  · rename_i hfirst
    obtain ⟨hfree, hbefore⟩ := hfirst
    refine ⟨by simp, hfree, ?_⟩
    intro r' hr' hfree'
    rcases List.mem_append.mp hr' with hold | hnew
    · cases candidate with
      | none => exact absurd (h r' hold) hfree'
      | some c => exact before_trans hbefore (h.2.2 r' hold hfree')
    · obtain rfl := List.mem_singleton.mp hnew
      exact before_self r'
  · rename_i hlater
    cases candidate with
    | none =>
        intro r' hr'
        rcases List.mem_append.mp hr' with hold | hnew
        · exact h r' hold
        · obtain rfl := List.mem_singleton.mp hnew
          by_contra hfree
          exact hlater ⟨hfree, rfl⟩
    | some c =>
        refine ⟨List.mem_append_left _ h.1, h.2.1, ?_⟩
        intro r' hr' hfree'
        rcases List.mem_append.mp hr' with hold | hnew
        · exact h.2.2 r' hold hfree'
        · obtain rfl := List.mem_singleton.mp hnew
          by_contra hbefore
          exact hlater ⟨hfree', Bool.eq_true_of_not_eq_false hbefore⟩

theorem Tally.counted {seen : List Bytes} {records : List ObsRecord} {name : Bytes} {pass' : Pass} {d' : Disk}
    {r : ObsRecord} (h : Tally dir claimed seen records d pass) (hnew : name ∉ seen)
    (hcounted : Counted dir claimed name pass pass' d d' r) :
    Tally dir claimed (seen ++ [name]) (records ++ [r]) d' pass' := by
  obtain ⟨rfl, rfl, hr, hcount, hbytes, hcandidate⟩ := hcounted
  refine ⟨?_, ?_, ?_, ?_, ?_, ?_, ?_⟩
  · rw [List.map_append, List.nodup_append]
    refine ⟨h.ids, by simp, ?_⟩
    intro id hid id' hid' heq
    obtain ⟨r', hr', rfl⟩ := List.mem_map.mp hid
    obtain rfl : id' = r.id := by simpa using hid'
    exact hnew (heq ▸ h.listed r' hr')
  · intro r' hr'
    rcases List.mem_append.mp hr' with hold | hlast
    · exact List.mem_append_left _ (h.listed r' hold)
    · obtain rfl := List.mem_singleton.mp hlast
      exact List.mem_append_right _ (List.mem_singleton_self _)
  · intro r' hr'
    rcases List.mem_append.mp hr' with hold | hlast
    · exact h.there r' hold
    · obtain rfl := List.mem_singleton.mp hlast
      exact hr
  · intro id r' hseen hr'
    rcases List.mem_append.mp hseen with hold | hlast
    · exact List.mem_append_left _ (h.all id r' hold hr')
    · obtain rfl : id = r.id := List.append_cancel_right (List.mem_singleton.mp hlast)
      obtain rfl := Option.some.inj (hr.symm.trans hr')
      exact List.mem_append_right _ (List.mem_singleton_self _)
  · rw [hcount, h.count, List.length_append, List.length_singleton]
  · rw [hbytes, h.bytes]
    simp [spoolBytes]
  · rw [hcandidate]
    exact h.oldest.next

theorem scanEntries_wp {names seen : List Bytes} {records : List ObsRecord}
    (hnames : (seen ++ names).Nodup) (h : Tally dir claimed seen records d pass) :
    wp (attentive dir) (scanEntries dir now claimed names pass)
      (fun result d' => Cleared dir now claimed d d' ∧ ∀ p, result = some p →
        ∃ rs, Tally dir claimed (seen ++ names) rs d' p) (fun _ => True) d := by
  induction names generalizing seen records pass d with
  | nil =>
      refine ⟨⟨Cleared.refl d, ?_⟩, trivial⟩
      intro p hp
      obtain rfl := Option.some.inj hp
      exact ⟨records, by rwa [List.append_nil]⟩
  | cons name names ih =>
      have hnew : name ∉ seen := by
        intro hmem
        exact (List.nodup_append.mp hnames).2.2 name hmem name List.mem_cons_self rfl
      refine wp_bind (wp_mono ?_ (fun _ h => h) scanEntry_wp)
      intro result d' hentry
      obtain ⟨hswept, hresult⟩ := hentry
      cases result with
      | none => exact ⟨⟨hswept.cleared, by simp⟩, trivial⟩
      | some pass' =>
          obtain ⟨rs, htally⟩ : ∃ rs, Tally dir claimed (seen ++ [name]) rs d' pass' := by
            rcases hresult pass' rfl with hpassed | ⟨r, hcounted⟩
            · exact ⟨_, h.passed hnew hswept hpassed⟩
            · exact ⟨_, h.counted hnew hcounted⟩
          have hrest : ((seen ++ [name]) ++ names).Nodup := by
            rwa [List.append_assoc, List.singleton_append]
          refine wp_mono ?_ (fun _ h => h) (ih hrest htally)
          intro result d'' hlast
          obtain ⟨hcleared, hlast⟩ := hlast
          refine ⟨hswept.cleared.trans hcleared, ?_⟩
          intro p hp
          obtain ⟨rs, hrs⟩ := hlast p hp
          exact ⟨rs, by rwa [List.append_assoc, List.singleton_append] at hrs⟩

/-! ## A scan -/

structure Stock (d : Disk) (dir : Bytes) (records : List ObsRecord) : Prop where
  ids : (records.map ObsRecord.id).Nodup
  there : ∀ r ∈ records, recordAt d dir r.id = some r
  all : ∀ id r, recordAt d dir id = some r → r ∈ records

structure Limits where
  reserveBytes : ℕ
  maxCount : ℕ
  maxBytes : ℕ

def Limits.fit (l : Limits) (records : List ObsRecord) : Bool :=
  fits l.reserveBytes l.maxCount l.maxBytes records.length (spoolBytes records)

structure Evicted (dir : Bytes) (claimed : Option Bytes) (l : Limits) (d : Disk) (r : ObsRecord) :
    Prop where
  free : claimed ≠ some r.id
  full : ∃ d₁ records, Shrunk dir d d₁ ∧ Stock d₁ dir records ∧ r ∈ records ∧
    l.fit records = false ∧ ∀ r' ∈ records, claimed ≠ some r'.id → r'.before (some r) = false

structure Scanned (dir : Bytes) (now : ℤ) (claimed : Option Bytes) (l : Limits) (d d' : Disk) : Prop where
  shrunk : Shrunk dir d d'
  left : ∀ id r, recordAt d dir id = some r → recordAt d' dir id = some r ∨
    Aged now claimed id r ∨ Evicted dir claimed l d r

variable {l : Limits}

theorem Cleared.scanned {d' : Disk} (h : Cleared dir now claimed d d') : Scanned dir now claimed l d d' := by
  refine ⟨h.shrunk, ?_⟩
  intro id r hr
  rcases h.aged id r hr with hstill | hold
  · exact Or.inl hstill
  · exact Or.inr (Or.inl hold)

theorem Evicted.earlier {d₀ : Disk} {r : ObsRecord} (h : Evicted dir claimed l d r)
    (hfirst : Shrunk dir d₀ d) : Evicted dir claimed l d₀ r := by
  obtain ⟨d₁, records, hd, hstock, hr, hfull, holdest⟩ := h.full
  exact ⟨h.free, d₁, records, hfirst.trans hd, hstock, hr, hfull, holdest⟩

theorem Scanned.trans {d' d'' : Disk} (h : Scanned dir now claimed l d d')
    (h' : Scanned dir now claimed l d' d'') : Scanned dir now claimed l d d'' := by
  refine ⟨h.shrunk.trans h'.shrunk, ?_⟩
  intro id r hr
  rcases h.left id r hr with hstill | hold | hevicted
  · rcases h'.left id r hstill with hstill | hold | hevicted
    · exact Or.inl hstill
    · exact Or.inr (Or.inl hold)
    · exact Or.inr (Or.inr (hevicted.earlier h.shrunk))
  · exact Or.inr (Or.inl hold)
  · exact Or.inr (Or.inr hevicted)

theorem Tally.stock {names : List Bytes} {records : List ObsRecord}
    (h : Tally dir claimed names records d pass)
    (hall : ∀ id, (recordAt d dir id).isSome = true → id ++ obsSuffix ∈ names) : Stock d dir records := by
  refine ⟨h.ids, h.there, ?_⟩
  intro id r hr
  exact h.all id r (hall id (by rw [hr]; rfl)) hr

theorem evict_scanned {records : List ObsRecord} {c : ObsRecord} (hstock : Stock d dir records)
    (hfull : l.fit records = false) (holdest : IsOldest claimed records (some c)) :
    Scanned dir now claimed l d (d.erase (obsPath dir c.id)) := by
  obtain ⟨hc, hfree, hfirst⟩ := holdest
  have huuid := recordAt_uuid (hstock.there c hc)
  have hshrunk : Shrunk dir d (d.erase (obsPath dir c.id)) :=
    shrunk_erase ⟨c.id, obsSuffix, rfl, huuid, Or.inl rfl⟩
  refine ⟨hshrunk, ?_⟩
  intro id r hr
  by_cases hid : id = c.id
  · subst hid
    obtain rfl := Option.some.inj ((hstock.there c hc).symm.trans hr)
    exact Or.inr (Or.inr ⟨hfree, d, records, Shrunk.refl d, hstock, hc, hfull, hfirst⟩)
  · refine Or.inl ((recordAt_erase_of_ne ?_).trans hr)
    intro heq
    exact hid (List.append_cancel_right heq)

theorem obsSpoolRemove_wp : wp serves (obsSpoolRemove dir id)
    (fun _ d' => d' = d ∨ d' = d.erase (obsPath dir id)) (fun _ => True) d := by
  unfold obsSpoolRemove
  split
  · exact ⟨Or.inl rfl, trivial⟩
  rename_i file hfile
  obtain rfl := recordPath_eq hfile
  refine wp_bind (wp_unlink trivial ⟨trivial, ?_⟩ ?_)
  · intro r _
    exact ⟨Or.inr rfl, trivial⟩
  · intro r _ _
    exact ⟨Or.inl rfl, trivial⟩

/-- **What a scan has done, and that there is room when it succeeds.** -/
theorem scanLimits_wp {rounds dropped corrupt : ℕ} :
    wp (attentive dir)
      (scanLimits dir now claimed l.reserveBytes l.maxCount l.maxBytes rounds dropped corrupt)
      (fun scan d' => Scanned dir now claimed l d d' ∧ (scan.ok = true →
        ∃ records, Stock d' dir records ∧ l.fit records = true ∧ IsOldest claimed records scan.pass.candidate))
      (fun _ => True) d := by
  have hnothing : Scanned dir now claimed l d d := (Cleared.refl d).scanned
  induction rounds generalizing d dropped corrupt with
  | zero => exact trivial
  | succ rounds ih =>
      unfold scanLimits
      dsimp only
      split
      · exact ⟨⟨hnothing, by simp⟩, trivial⟩
      refine wp_bind (attend_list ?_)
      intro listing hlists hattentive
      cases listing with
      | absent => exact ⟨⟨hnothing, by simp⟩, trivial⟩
      | failed => exact ⟨⟨hnothing, by simp⟩, trivial⟩
      | names names whole =>
          have hempty : Tally dir claimed [] [] d ⟨none, 0, 0, dropped, corrupt⟩ :=
            ⟨by simp, by simp, by simp, by simp, rfl, rfl, by simp [IsOldest]⟩
          have hlisted := hattentive rfl names whole rfl
          refine wp_bind (wp_mono ?_ (fun _ h => h) (scanEntries_wp (by simpa using hlists.1) hempty))
          intro result d' hresult
          obtain ⟨hcleared, htally⟩ := hresult
          have hscanned : Scanned dir now claimed l d d' := hcleared.scanned
          cases result with
          | none => exact ⟨⟨hscanned, by simp⟩, trivial⟩
          | some pass =>
              obtain ⟨records, hrecords⟩ := htally pass rfl
              rw [List.nil_append] at hrecords
              -- what is left was there before, and listed
              have hstock : Stock d' dir records := by
                refine hrecords.stock ?_
                intro id hsome
                obtain ⟨r, hr⟩ := Option.isSome_iff_exists.mp hsome
                exact hlisted id (by rw [hcleared.shrunk.record hr]; rfl)
              have hfit : fits l.reserveBytes l.maxCount l.maxBytes pass.count pass.bytes =
                  l.fit records := by rw [hrecords.count, hrecords.bytes, Limits.fit]
              have holdest := hrecords.oldest
              dsimp only
              split
              · rename_i hroom
                refine ⟨⟨hscanned, ?_⟩, trivial⟩
                intro _
                exact ⟨records, hstock, hfit ▸ hroom, holdest⟩
              rename_i hfull
              rw [hfit, Bool.not_eq_true] at hfull
              split
              · exact ⟨⟨hscanned, by simp⟩, trivial⟩
              rename_i c hc
              rw [hc] at holdest
              have hevicted : Scanned dir now claimed l d (d'.erase (obsPath dir c.id)) :=
                hscanned.trans (evict_scanned hstock hfull holdest)
              refine wp_bind (wp_mono ?_ (fun _ h => h) (attend obsSpoolRemove_wp))
              intro removed d'' hremoved
              have hnow : Scanned dir now claimed l d d'' := by
                rcases hremoved with rfl | rfl
                · exact hscanned
                · exact hevicted
              split
              · exact ⟨⟨hnow, by simp⟩, trivial⟩
              · refine wp_mono ?_ (fun _ h => h) (ih (Cleared.refl d'').scanned)
                intro scan d₁ hlast
                exact ⟨hnow.trans hlast.1, hlast.2⟩

end

/-! ## Only the directory that is scanned -/

def Inspects (dir : Bytes) : DiskOp → Prop
  | .openRead _ => True
  | .read _ _ _ => True
  | .seekEnd _ => True
  | .close => True
  | .list _ => True
  | .unlink p => ∃ name, p = Path.child dir name
  | _ => False

section

variable {dir : Bytes} {now : ℤ} {claimed : Option Bytes} {d d' : Disk}

theorem inspects_unlink {id suffix : Bytes} {file : Path} (h : recordPath dir id suffix = some file) :
    Inspects dir (.unlink file) := ⟨_, recordPath_eq h⟩

theorem Inspects.left {op : DiskOp} {r : op.Ret} (h : Inspects dir op) (hserves : serves d op r d') (p : Path) :
    d' p = d p ∨ d' p = none ∧ ∃ name, p = Path.child dir name := by
  cases op with
  | unlink q =>
      by_cases hp : p = q
      · subst hp
        obtain ⟨hdone, habsent, hfailed⟩ := hserves
        cases r with
        | done =>
            rw [(hdone rfl).2]
            exact Or.inr ⟨erase_self d p, h⟩
        | absent =>
            rw [(habsent rfl).2]
            exact Or.inl rfl
        | failed =>
            rcases hfailed rfl with rfl | rfl
            · exact Or.inl rfl
            · exact Or.inr ⟨erase_self d p, h⟩
      · exact Or.inl (serves_frame hserves (by simpa [DiskOp.touches] using hp))
  | openRead _ => exact Or.inl (serves_frame hserves (by simp [DiskOp.touches]))
  | read _ _ _ => exact Or.inl (serves_frame hserves (by simp [DiskOp.touches]))
  | seekEnd _ => exact Or.inl (serves_frame hserves (by simp [DiskOp.touches]))
  | close => exact Or.inl (serves_frame hserves (by simp [DiskOp.touches]))
  | list _ => exact Or.inl (serves_frame hserves (by simp [DiskOp.touches]))
  | openNew _ => exact absurd h id
  | openTruncated _ => exact absurd h id
  | stream => exact absurd h id
  | stat _ => exact absurd h id
  | write _ _ => exact absurd h id
  | sync _ => exact absurd h id
  | syncDirectory _ => exact absurd h id
  | rename _ _ => exact absurd h id

theorem openRecord_asks {file : Path} {id : Bytes} : (openRecord file id).Asks (Inspects dir) := by
  have hheader : (header file).Asks (Inspects dir) := by
    refine Asks.bind ⟨trivial, fun _ => trivial⟩ ?_
    intro raw
    split
    · trivial
    · exact Asks.bind ⟨trivial, fun _ => trivial⟩ fun _ => trivial
  refine Asks.bind ⟨trivial, fun _ => trivial⟩ ?_
  intro opened
  split
  · trivial
  · refine Asks.bind hheader ?_
    intro _
    exact Asks.bind ⟨trivial, fun _ => trivial⟩ fun _ => trivial

theorem scanEntry_asks {name : Bytes} {pass : Pass} :
    (scanEntry dir now claimed name pass).Asks (Inspects dir) := by
  unfold scanEntry
  dsimp only
  split
  · trivial
  split
  · trivial
  rename_i file hfile
  have hunlink : ∀ pass' : Pass, (do
      if (← Posix.unlink file) ≠ .done then return none
      return some pass' : DiskProc (Option Pass)).Asks (Inspects dir) := by
    intro pass'
    refine Asks.bind ⟨inspects_unlink hfile, fun _ => trivial⟩ ?_
    intro _
    split <;> trivial
  split
  · exact hunlink _
  split
  · trivial
  refine Asks.bind openRecord_asks ?_
  intro result
  split
  · exact hunlink _
  · split
    · exact hunlink _
    · trivial

theorem scanEntries_asks {names : List Bytes} {pass : Pass} :
    (scanEntries dir now claimed names pass).Asks (Inspects dir) := by
  induction names generalizing pass with
  | nil => trivial
  | cons name names ih =>
      refine Asks.bind scanEntry_asks ?_
      intro result
      cases result with
      | none => trivial
      | some pass' => exact ih

theorem scanLimits_asks {reserveBytes maxCount maxBytes rounds dropped corrupt : ℕ} :
    (scanLimits dir now claimed reserveBytes maxCount maxBytes rounds dropped corrupt).Asks
      (Inspects dir) := by
  induction rounds generalizing dropped corrupt with
  | zero => trivial
  | succ rounds ih =>
      unfold scanLimits
      dsimp only
      split
      · trivial
      refine Asks.bind ⟨trivial, fun _ => trivial⟩ ?_
      intro listing
      cases listing with
      | absent => trivial
      | failed => trivial
      | names names whole =>
          refine Asks.bind scanEntries_asks ?_
          intro result
          split
          · trivial
          split
          · trivial
          split
          · trivial
          rename_i c _
          have hremove : (obsSpoolRemove dir c.id).Asks (Inspects dir) := by
            unfold obsSpoolRemove
            split
            · trivial
            · rename_i file hfile
              exact Asks.bind ⟨inspects_unlink hfile, fun _ => trivial⟩ fun _ => trivial
          refine Asks.bind hremove ?_
          intro removed
          split
          · trivial
          · exact ih

theorem scanLimits_left {reserveBytes maxCount maxBytes rounds dropped corrupt : ℕ} :
    wp serves (scanLimits dir now claimed reserveBytes maxCount maxBytes rounds dropped corrupt)
      (fun _ d' => ∀ p, d' p = d p ∨ d' p = none ∧ ∃ name, p = Path.child dir name)
      (fun d' => ∀ p, d' p = d p ∨ d' p = none ∧ ∃ name, p = Path.child dir name) d := by
  refine scanLimits_asks.wp ?_ fun _ => Or.inl rfl
  intro d' op r d'' hinspects hleft hserves p
  rcases hinspects.left hserves p with hsame | hgone
  · rw [hsame]
    exact hleft p
  · exact Or.inr hgone

theorem scanLimits_frame {reserveBytes maxCount maxBytes rounds dropped corrupt : ℕ} :
    wp serves (scanLimits dir now claimed reserveBytes maxCount maxBytes rounds dropped corrupt)
      (fun _ d' => ∀ p, (∀ name, p ≠ Path.child dir name) → d' p = d p) (fun _ => True) d := by
  refine wp_mono ?_ (fun _ _ => trivial) scanLimits_left
  intro _ d' hleft p hp
  refine (hleft p).resolve_right ?_
  intro ⟨_, name, hname⟩
  exact hp name hname

end

end Albusforge.Camera
