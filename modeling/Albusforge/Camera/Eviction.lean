import Albusforge.Camera.Scan
import Albusforge.Lib.Prompt
import Mathlib.Algebra.BigOperators.Group.List.Basic
import Mathlib.Data.List.Sort

/-!
# What a scan evicts

On a card whose calls succeed a scan ends, and what it has removed can be said exactly: the partial
files, the files that are no records, the records that are too old, and of the others as few as it
takes, oldest first (`scanLimits_evicts_least`). A pass removes the first three kinds wherever it is
made (`scanEntries_ends`); each later pass finds one record less to evict, which is why the scan ends.
-/

namespace Albusforge.Camera

open Lib Lib.Disk Lib.Proc

section

variable {d d' : Disk} {dir id : Bytes} {now : ℤ} {claimed : Option Bytes} {pass : Pass}

def ShortPath (dir : Bytes) : Prop := dir.length + 43 < 256

def Doomed (d : Disk) (dir : Bytes) (now : ℤ) (claimed : Option Bytes) (name : Bytes) : Prop :=
  ∃ id, obsUuidValid id = true ∧ (name = id ++ partSuffix ∨
    name = id ++ obsSuffix ∧ ∀ r, recordAt d dir id = some r → Aged now claimed id r)

/-! ## A pass -/

theorem recordName_isName {suffix : Bytes} (h : obsUuidValid id = true) (hne : suffix ≠ [])
    (hslash : (47 : UInt8) ∉ suffix) : IsName (id ++ suffix) := by
  refine ⟨List.append_ne_nil_of_right_ne_nil _ hne, ?_⟩
  intro hmem
  rcases List.mem_append.mp hmem with hid | hsuffix
  · rcases uuid_byte h hid with hdash | hhex
    · exact absurd hdash (by decide)
    · exact absurd hhex (by decide)
  · exact hslash hsuffix

theorem obsName_isName (h : obsUuidValid id = true) : IsName (id ++ obsSuffix) :=
  recordName_isName h (by decide) (by decide)

theorem isDot_long {name : Bytes} (h : 2 < name.length) : isDot name = false := by
  by_contra hdot
  rw [Bool.not_eq_false, isDot, Bool.or_eq_true, beq_iff_eq, beq_iff_eq] at hdot
  rcases hdot with rfl | rfl
  · exact absurd h (by simp)
  · exact absurd h (by simp)

theorem name_inj {id' suffix suffix' : Bytes} (h : obsUuidValid id = true) (h' : obsUuidValid id' = true)
    (heq : id ++ suffix = id' ++ suffix') : id = id' ∧ suffix = suffix' :=
  List.append_inj heq (by rw [uuid_length h, uuid_length h'])

theorem prompt_attentive {op : DiskOp} {r : op.Ret} (h : prompt d op r d') : attentive dir d op r d' := by
  refine ⟨h.1, ?_⟩
  have hfile : ∀ {p id}, p = obsPath dir id → (recordAt d dir id).isSome = true → d.isFile p := by
    intro p id hp hsome
    obtain ⟨record, hrecord⟩ := Option.isSome_iff_exists.mp hsome
    obtain ⟨c, hc, -⟩ := recordAt_some hrecord
    simp [isFile, hp, hc]
  cases op with
  | openRead p =>
      intro id hp hsome
      obtain ⟨-, -, habsent⟩ := h.1
      cases r with
      | done => rfl
      | absent =>
          obtain ⟨n, hn⟩ := isFile_some (hfile hp hsome)
          exact absurd ((habsent rfl).symm.trans hn) (by simp)
      | failed => exact absurd rfl h.2
  | read p offset length =>
      intro id hp hsome
      exact Option.isSome_iff_ne_none.mp (h.2 (hfile hp hsome))
  | seekEnd p =>
      intro id hp hsome
      exact Option.isSome_iff_ne_none.mp (h.2 (hfile hp hsome))
  | list p =>
      intro hp names whole hr id hsome
      subst hp hr
      obtain ⟨_, hwhole⟩ := h.2
      obtain ⟨-, rfl⟩ := Listing.names.inj hwhole
      obtain ⟨record, hrecord⟩ := Option.isSome_iff_exists.mp hsome
      exact h.1.2.2.2 rfl _ (obsName_isName (recordAt_uuid hrecord)) (recordAt_present hrecord)
  | openNew => trivial
  | openTruncated => trivial
  | stream => trivial
  | close => trivial
  | stat => trivial
  | write => trivial
  | sync => trivial
  | syncDirectory => trivial
  | unlink => trivial
  | rename => trivial

theorem header_ends {file : Path} : ends prompt (header file)
    (fun result d' => d' = d ∧ result = (d.content file).bind recordOf) d := by
  unfold header
  refine ends_bind (prompt_read ?_)
  cases hc : d.content file with
  | none => exact ⟨rfl, rfl⟩
  | some c =>
      rw [Option.map_some, List.drop_zero, Option.bind_some, Option.bind_some]
      cases hr : headerOf (c.take headerSize) with
      | none => exact ⟨rfl, by simp [recordOf, hr]⟩
      | some r =>
          refine ends_bind (prompt_seekEnd ?_)
          refine ⟨rfl, ?_⟩
          simp [recordOf, hr, hc, Option.filter]

theorem openRecord_ends (huuid : obsUuidValid id = true) :
    ends prompt (openRecord (obsPath dir id) id)
      (fun result d' => d' = d ∧ result = recordAt d dir id) d := by
  unfold openRecord
  refine ends_bind (prompt_openRead ?_ ?_)
  · intro _
    rw [if_neg (by simp)]
    refine ends_bind (ends_mono ?_ header_ends)
    intro result d' h
    obtain ⟨rfl, rfl⟩ := h
    refine ends_bind (prompt_close ?_)
    exact ⟨rfl, by simp [recordAt, huuid]⟩
  · intro hnone
    exact ⟨rfl, (recordAt_absent hnone).symm⟩

theorem unlink_ends {p : Path} {pass' : Pass} (h : (d p).isSome = true) :
    ends prompt (do
        if (← Posix.unlink p) ≠ .done then return none
        return some pass')
      (fun result d' => result = some pass' ∧ d' = d.erase p) d := by
  refine ends_bind (prompt_unlink ?_ ?_)
  · intro _
    exact ⟨rfl, rfl⟩
  · intro hnone
    rw [hnone] at h
    exact absurd h (by simp)

theorem recordPath_short {suffix : Bytes} (hshort : ShortPath dir) (huuid : obsUuidValid id = true)
    (hsuffix : suffix.length ≤ 5) : recordPath dir id suffix = some (Path.child dir (id ++ suffix)) := by
  have hfits : dir.length + id.length + suffix.length + 2 < 256 := by
    rw [uuid_length huuid]
    unfold ShortPath at hshort
    omega
  rw [recordPath, if_pos (by simp [huuid, hfits])]

def Sifted (now : ℤ) (claimed : Option Bytes) (id : Bytes) (pass : Pass) (d : Disk) (p : Path) :
    Option ObsRecord → Option Pass → Disk → Prop
  | none, result, d' => result = some { pass with corrupt := pass.corrupt + 1 } ∧ d' = d.erase p
  | some r, result, d' =>
      Aged now claimed id r ∧ result = some { pass with dropped := pass.dropped + 1 } ∧ d' = d.erase p ∨
      ¬ Aged now claimed id r ∧ d' = d ∧ ∃ candidate, result = some { pass with
        count := pass.count + 1, bytes := pass.bytes + (r.bytes + headerSize), candidate := candidate }

theorem scanEntry_obs_ends (hshort : ShortPath dir) (huuid : obsUuidValid id = true)
    (hthere : (d (obsPath dir id)).isSome = true) :
    ends prompt (scanEntry dir now claimed (id ++ obsSuffix) pass)
      (Sifted now claimed id pass d (obsPath dir id) (recordAt d dir id)) d := by
  have hlength := length_obsName huuid
  unfold scanEntry
  dsimp only
  rw [if_neg (by simp [hlength, take_name huuid, huuid]), take_name huuid, drop_name _ huuid,
    recordPath_short hshort huuid (by decide)]
  dsimp only
  rw [if_neg (by decide), if_neg (by decide), ← obsPath]
  refine ends_bind (ends_mono ?_ (openRecord_ends huuid))
  intro result d' h
  obtain ⟨rfl, rfl⟩ := h
  cases hr : recordAt d' dir id with
  | none => exact ends_mono (fun _ _ h => h) (unlink_ends hthere)
  | some r =>
      dsimp only
      split
      · rename_i hold
        exact ends_mono (fun _ _ h => Or.inl ⟨hold, h⟩) (unlink_ends hthere)
      · rename_i hyoung
        exact Or.inr ⟨hyoung, rfl, _, rfl⟩

/-- **One entry is removed or not, and the pass goes on.** -/
theorem scanEntry_ends {name : Bytes} (hshort : ShortPath dir)
    (hthere : isDot name = false → (d (Path.child dir name)).isSome = true) :
    ends prompt (scanEntry dir now claimed name pass)
      (fun result d' => result.isSome = true ∧
        (Doomed d dir now claimed name ∧ d' = d.erase (Path.child dir name) ∨
          ¬ Doomed d dir now claimed name ∧ d' = d)) d := by
  by_cases hobs : ∃ id, obsUuidValid id = true ∧ name = id ++ obsSuffix
  · obtain ⟨id, huuid, rfl⟩ := hobs
    have hthere := hthere (isDot_long (by rw [length_obsName huuid]; omega))
    -- which record it is about is told by the name
    have hdoomed : Doomed d dir now claimed (id ++ obsSuffix) ↔
        ∀ r, recordAt d dir id = some r → Aged now claimed id r := by
      constructor
      · intro ⟨id', huuid', hname⟩
        rcases hname with heq | ⟨heq, haged⟩
        · exact absurd (name_inj huuid huuid' heq).2 (by decide)
        · obtain rfl := List.append_cancel_right heq
          exact haged
      · intro haged
        exact ⟨id, huuid, Or.inr ⟨rfl, haged⟩⟩
    rw [hdoomed]
    refine ends_mono ?_ (scanEntry_obs_ends hshort huuid hthere)
    intro result d' h
    cases hr : recordAt d dir id with
    | none =>
        rw [hr] at h
        obtain ⟨rfl, rfl⟩ := h
        exact ⟨rfl, Or.inl ⟨by simp, rfl⟩⟩
    | some r =>
        rw [hr] at h
        rcases h with ⟨hold, rfl, rfl⟩ | ⟨hyoung, rfl, _, rfl⟩
        · refine ⟨rfl, Or.inl ⟨?_, rfl⟩⟩
          intro r' hr'
          obtain rfl := Option.some.inj hr'
          exact hold
        · exact ⟨rfl, Or.inr ⟨fun haged => hyoung (haged r rfl), rfl⟩⟩
  · have hpart : Doomed d dir now claimed name ↔ ∃ id, obsUuidValid id = true ∧ name = id ++ partSuffix := by
      constructor
      · intro ⟨id, huuid, hname⟩
        exact ⟨id, huuid, hname.resolve_right fun h => hobs ⟨id, huuid, h.1⟩⟩
      · intro ⟨id, huuid, hname⟩
        exact ⟨id, huuid, Or.inl hname⟩
    rw [hpart]
    unfold scanEntry
    dsimp only
    split
    · -- not a name that is looked at
      rename_i hother
      refine ⟨rfl, Or.inr ⟨?_, rfl⟩⟩
      intro ⟨id, huuid, hname⟩
      subst hname
      rw [take_name huuid, huuid, List.length_append, uuid_length huuid] at hother
      exact absurd hother (by decide)
    rename_i hlooked
    obtain ⟨hlengths, huuid⟩ := not_or.mp hlooked
    rw [Bool.not_eq_false] at huuid
    have hthere := hthere (isDot_long (by omega))
    have hsplit : name = name.take 36 ++ name.drop 36 := (List.take_append_drop 36 name).symm
    have hdropped : (name.drop 36).length ≤ 5 := by
      rw [List.length_drop]
      omega
    generalize name.take 36 = id at huuid hsplit
    generalize name.drop 36 = suffix at hsplit hdropped
    subst hsplit
    rw [recordPath_short hshort huuid hdropped]
    dsimp only
    split
    · rename_i heq
      refine ends_mono ?_ (unlink_ends hthere)
      intro result d' h
      exact ⟨by rw [h.1]; rfl, Or.inl ⟨⟨id, huuid, by rw [heq]⟩, h.2⟩⟩
    rename_i hne
    rw [if_pos fun heq => hobs ⟨id, huuid, by rw [heq]⟩]
    refine ⟨rfl, Or.inr ⟨?_, rfl⟩⟩
    intro ⟨id', huuid', heq⟩
    exact hne (name_inj huuid huuid' heq).2

theorem Doomed.congr {name : Bytes}
    (h : ∀ id, name = id ++ obsSuffix → recordAt d' dir id = recordAt d dir id) :
    Doomed d' dir now claimed name ↔ Doomed d dir now claimed name := by
  have hone : ∀ id, name = id ++ obsSuffix → ((∀ r, recordAt d' dir id = some r → Aged now claimed id r) ↔
      ∀ r, recordAt d dir id = some r → Aged now claimed id r) := by
    intro id hname
    rw [h id hname]
  constructor
  · intro ⟨id, huuid, hname⟩
    exact ⟨id, huuid, hname.imp_right fun ⟨heq, haged⟩ => ⟨heq, (hone id heq).mp haged⟩⟩
  · intro ⟨id, huuid, hname⟩
    exact ⟨id, huuid, hname.imp_right fun ⟨heq, haged⟩ => ⟨heq, (hone id heq).mpr haged⟩⟩

theorem scanEntries_ends {names : List Bytes} (hshort : ShortPath dir) (hnodup : names.Nodup)
    (hthere : ∀ n ∈ names, isDot n = false → (d (Path.child dir n)).isSome = true) :
    ends prompt (scanEntries dir now claimed names pass)
      (fun result d' => result.isSome = true ∧
        Without d d' fun p => ∃ name ∈ names, p = Path.child dir name ∧ Doomed d dir now claimed name) d := by
  induction names generalizing pass d with
  | nil => exact ⟨rfl, ⟨by simp, by simp⟩⟩
  | cons name names ih =>
      obtain ⟨hnew, hnodup⟩ := List.nodup_cons.mp hnodup
      unfold scanEntries
      refine ends_bind (ends_mono ?_ (scanEntry_ends hshort (hthere name List.mem_cons_self)))
      intro result d₁ h
      obtain ⟨hsome, hstep⟩ := h
      obtain ⟨pass', rfl⟩ := Option.isSome_iff_exists.mp hsome
      have hother : ∀ n ∈ names, d₁ (Path.child dir n) = d (Path.child dir n) := by
        intro n hn
        rcases hstep with ⟨-, rfl⟩ | ⟨-, rfl⟩
        · refine erase_of_ne d fun heq => hnew ?_
          rw [← child_inj heq]
          exact hn
        · rfl
      have hsame : ∀ n ∈ names, Doomed d₁ dir now claimed n ↔ Doomed d dir now claimed n := by
        intro n hn
        refine Doomed.congr fun id hname => recordAt_congr ?_
        rw [obsPath, ← hname]
        exact hother n hn
      refine ends_mono ?_ (ih hnodup ?_)
      · intro result d₂ hlast
        obtain ⟨hsome, hrest⟩ := hlast
        refine ⟨hsome, ?_⟩
        have hfirst : Without d d₁ fun p => p = Path.child dir name ∧ Doomed d dir now claimed name := by
          rcases hstep with ⟨hdoomed, rfl⟩ | ⟨hkept, rfl⟩
          · exact ⟨fun p hp => hp.1 ▸ erase_self d _, fun p hp => erase_of_ne d fun heq => hp ⟨heq, hdoomed⟩⟩
          · exact ⟨fun p hp => absurd hp.2 hkept, fun _ _ => rfl⟩
        refine (hfirst.trans hrest).congr ?_ ?_
        · intro p hp
          rcases hp with ⟨hp, hdoomed⟩ | ⟨n, hn, hp, hdoomed⟩
          · exact ⟨name, List.mem_cons_self, hp, hdoomed⟩
          · exact ⟨n, List.mem_cons_of_mem _ hn, hp, (hsame n hn).mp hdoomed⟩
        · rintro p ⟨n, hn, hp, hdoomed⟩ hno
          rcases List.mem_cons.mp hn with rfl | hn
          · exact absurd (Or.inl ⟨hp, hdoomed⟩) hno
          · exact absurd (Or.inr ⟨n, hn, hp, (hsame n hn).mpr hdoomed⟩) hno
      · intro n hn hdot
        rw [hother n hn]
        exact hthere n (List.mem_cons_of_mem _ hn) hdot

def IsDoomed (d : Disk) (dir : Bytes) (now : ℤ) (claimed : Option Bytes) (p : Path) : Prop :=
  ∃ name, p = Path.child dir name ∧ Doomed d dir now claimed name

theorem Doomed.isName {name : Bytes} (h : Doomed d dir now claimed name) : IsName name := by
  obtain ⟨id, huuid, rfl | ⟨rfl, -⟩⟩ := h
  · exact recordName_isName huuid (by decide) (by decide)
  · exact recordName_isName huuid (by decide) (by decide)

theorem pass_ends {names : List Bytes} {dropped corrupt : ℕ} (hshort : ShortPath dir)
    (hlists : d.Lists dir (.names names true)) :
    ends prompt (scanEntries dir now claimed names ⟨none, 0, 0, dropped, corrupt⟩)
      (fun result d' => ∃ pass records, result = some pass ∧ Tally dir claimed names records d' pass ∧
        Stock d' dir records ∧ Without d d' (IsDoomed d dir now claimed)) d := by
  obtain ⟨hnodup, hthere, hwhole⟩ := hlists
  have hempty : Tally dir claimed [] [] d ⟨none, 0, 0, dropped, corrupt⟩ :=
    ⟨by simp, by simp, by simp, by simp, rfl, rfl, by simp [IsOldest]⟩
  have hcounted : wp prompt (scanEntries dir now claimed names _) _ _ d :=
    wp_weaken (fun _ _ _ _ hop => prompt_attentive hop) (scanEntries_wp (by simpa using hnodup) hempty)
  refine ends_mono ?_ (ends_and (scanEntries_ends hshort hnodup fun n hn hdot => (hthere n hn hdot).2) hcounted)
  intro result d' h
  obtain ⟨⟨hsome, hwithout⟩, hcleared, htally⟩ := h
  obtain ⟨pass, rfl⟩ := Option.isSome_iff_exists.mp hsome
  obtain ⟨records, hrecords⟩ := htally pass rfl
  rw [List.nil_append] at hrecords
  refine ⟨pass, records, rfl, hrecords, hrecords.stock ?_, hwithout.congr ?_ ?_⟩
  · intro id hid
    obtain ⟨r, hr⟩ := Option.isSome_iff_exists.mp hid
    have hfirst := hcleared.shrunk.record hr
    exact hwhole rfl _ (obsName_isName (recordAt_uuid hfirst)) (recordAt_present hfirst)
  · rintro p ⟨name, -, hp, hdoomed⟩
    exact ⟨name, hp, hdoomed⟩
  · rintro p ⟨name, hp, hdoomed⟩ hno
    -- it is not in the listing, so that it is not there
    by_contra hpresent
    refine hno ⟨name, hwhole rfl name hdoomed.isName ?_, hp, hdoomed⟩
    rw [← hp]
    exact Option.isSome_iff_ne_none.mpr hpresent

/-! ## The records in line -/

theorem before_connex {r r' : ObsRecord} (h : r.before (some r') = false) (h' : r'.before (some r) = false) :
    r.capturedAt = r'.capturedAt ∧ r.id = r'.id := by
  simp only [ObsRecord.before, Bool.or_eq_false_iff, Bool.and_eq_false_iff, decide_eq_false_iff_not] at h h'
  have htime : r.capturedAt = r'.capturedAt := by omega
  refine ⟨htime, List.le_antisymm ?_ ?_⟩
  · exact h'.2.resolve_left fun hne => hne htime.symm
  · exact h.2.resolve_left fun hne => hne htime

theorem before_asymm {r r' : ObsRecord} (h : r.before (some r') = true) : r'.before (some r) = false :=
  before_trans h (before_self r')

theorem exists_ordered {records : List ObsRecord} (h : (records.map ObsRecord.id).Nodup) :
    ∃ queue : List ObsRecord, queue.Perm records ∧ queue.Pairwise fun a b => a.before (some b) = true := by
  let notAfter : ObsRecord → ObsRecord → Prop := fun a b => b.before (some a) = false
  have htotal : Std.Total notAfter := by
    refine ⟨fun a b => ?_⟩
    cases hb : b.before (some a) with
    | false => exact Or.inl hb
    | true => exact Or.inr (before_asymm hb)
  have htrans : IsTrans ObsRecord notAfter := by
    refine ⟨fun a b c hab hbc => ?_⟩
    cases hb : a.before (some b) with
    | true => exact before_trans hb hbc
    | false =>
        obtain ⟨htime, hid⟩ := before_connex hb hab
        have hsame : c.before (some a) = c.before (some b) := by simp [ObsRecord.before, htime, hid]
        exact hsame.trans hbc
  have hperm := List.perm_insertionSort notAfter records
  refine ⟨records.insertionSort notAfter, hperm, ?_⟩
  have hids : (records.insertionSort notAfter).Pairwise fun a b => a.id ≠ b.id :=
    List.pairwise_map.mp ((hperm.map ObsRecord.id).nodup_iff.mpr h)
  refine ((List.pairwise_insertionSort notAfter records).and hids).imp ?_
  intro a b hboth
  by_contra hbefore
  exact hboth.2 (before_connex (Bool.eq_false_of_not_eq_true hbefore) hboth.1).2

theorem exists_stock {names : List Bytes} (hlists : d.Lists dir (.names names true)) :
    ∃ records, Stock d dir records := by
  suffices hsome : ∃ records : List ObsRecord, (records.map ObsRecord.id).Nodup ∧
      ∀ r, r ∈ records ↔ recordAt d dir r.id = some r ∧ r.id ++ obsSuffix ∈ names by
    obtain ⟨records, hids, hmem⟩ := hsome
    refine ⟨records, hids, fun r hr => ((hmem r).mp hr).1, ?_⟩
    intro id r hr
    obtain ⟨_, _, _, rfl⟩ := recordAt_some hr
    exact (hmem r).mpr ⟨hr, hlists.2.2 rfl _ (obsName_isName (recordAt_uuid hr)) (recordAt_present hr)⟩
  obtain ⟨hnodup, -, -⟩ := hlists
  induction names with
  | nil => exact ⟨[], by simp, by simp⟩
  | cons name names ih =>
      obtain ⟨hnew, hnodup⟩ := List.nodup_cons.mp hnodup
      obtain ⟨records, hids, hmem⟩ := ih hnodup
      by_cases hrecord : ∃ r, recordAt d dir r.id = some r ∧ r.id ++ obsSuffix = name
      · obtain ⟨r, hr, rfl⟩ := hrecord
        refine ⟨r :: records, ?_, ?_⟩
        · refine List.nodup_cons.mpr ⟨?_, hids⟩
          intro hid
          obtain ⟨r', hr', hsame⟩ := List.mem_map.mp hid
          exact hnew (hsame ▸ ((hmem r').mp hr').2)
        · intro r'
          rw [List.mem_cons, List.mem_cons, hmem r']
          constructor
          · intro h
            rcases h with rfl | ⟨hr', hlisted⟩
            · exact ⟨hr, Or.inl rfl⟩
            · exact ⟨hr', Or.inr hlisted⟩
          · intro ⟨hr', hlisted⟩
            rcases hlisted with hsame | hlisted
            · have hid : r'.id = r.id := List.append_cancel_right hsame
              rw [hid] at hr'
              exact Or.inl (Option.some.inj (hr'.symm.trans hr))
            · exact Or.inr ⟨hr', hlisted⟩
      · refine ⟨records, hids, ?_⟩
        intro r
        rw [hmem r, List.mem_cons]
        constructor
        · intro ⟨hr, hlisted⟩
          exact ⟨hr, Or.inr hlisted⟩
        · intro ⟨hr, hlisted⟩
          exact ⟨hr, hlisted.resolve_left fun hname => hrecord ⟨r, hr, hname⟩⟩

/-- The records that no pass removes: the one that is claimed, and the others in the order in which
they go. -/
structure Queue (d : Disk) (dir : Bytes) (now : ℤ) (claimed : Option Bytes) (owned queue : List ObsRecord) :
    Prop where
  once : owned.Nodup
  owned : ∀ r, r ∈ owned ↔ recordAt d dir r.id = some r ∧ claimed = some r.id
  waiting : ∀ r, r ∈ queue ↔
    recordAt d dir r.id = some r ∧ claimed ≠ some r.id ∧ now - obsMaxAgeS ≤ r.capturedAt
  ordered : queue.Pairwise fun a b => a.before (some b) = true

variable {owned queue : List ObsRecord}

theorem exists_queue {names : List Bytes} (hlists : d.Lists dir (.names names true)) :
    ∃ owned queue, Queue d dir now claimed owned queue := by
  obtain ⟨records, hids, hthere, hall⟩ := exists_stock hlists
  have hmem : ∀ r, r ∈ records ↔ recordAt d dir r.id = some r := fun r => ⟨hthere r, hall r.id r⟩
  obtain ⟨queue, hperm, hordered⟩ := exists_ordered (List.Nodup.sublist (List.Sublist.map ObsRecord.id
    (List.filter_sublist (p := fun r => claimed ≠ some r.id ∧ now - obsMaxAgeS ≤ r.capturedAt))) hids)
  refine ⟨records.filter fun r => claimed = some r.id, queue, ?_, ?_, ?_, hordered⟩
  · exact (List.Nodup.of_map _ hids).filter _
  · intro r
    rw [List.mem_filter, hmem, decide_eq_true_iff]
  · intro r
    rw [hperm.mem_iff, List.mem_filter, hmem, decide_eq_true_iff]

theorem Queue.nodup (h : Queue d dir now claimed owned queue) : (owned ++ queue).Nodup := by
  rw [List.nodup_append]
  refine ⟨h.once, h.ordered.imp ?_, ?_⟩
  · intro a b hbefore heq
    subst heq
    rw [before_self] at hbefore
    exact absurd hbefore (by simp)
  · intro r hr r' hr' heq
    subst heq
    exact ((h.waiting r).mp hr').2.1 ((h.owned r).mp hr).2

theorem Queue.length_le {names : List Bytes} (h : Queue d dir now claimed owned queue)
    (hlists : d.Lists dir (.names names true)) : queue.length ≤ names.length := by
  have hnodup : (queue.map fun r => r.id ++ obsSuffix).Nodup := by
    refine (List.nodup_map_iff_inj_on (List.nodup_append.mp h.nodup).2.1).mpr ?_
    intro r hr r' hr' hname
    have hid : r.id = r'.id := List.append_cancel_right hname
    have hrecord := ((h.waiting r).mp hr).1
    rw [hid, ((h.waiting r').mp hr').1] at hrecord
    exact (Option.some.inj hrecord).symm
  have hsubset : (queue.map fun r => r.id ++ obsSuffix) ⊆ names := by
    intro name hname
    obtain ⟨r, hr, rfl⟩ := List.mem_map.mp hname
    have hrecord := ((h.waiting r).mp hr).1
    exact hlists.2.2 rfl _ (obsName_isName (recordAt_uuid hrecord)) (recordAt_present hrecord)
  have hle := (List.subperm_of_subset hnodup hsubset).length_le
  rwa [List.length_map] at hle

theorem IsDoomed.recordAt_iff (h : Without d d' (IsDoomed d dir now claimed)) {r : ObsRecord} :
    recordAt d' dir id = some r ↔ recordAt d dir id = some r ∧ ¬ Aged now claimed id r := by
  by_cases hdoomed : IsDoomed d dir now claimed (obsPath dir id)
  · have hnone := recordAt_absent (h.gone _ hdoomed)
    refine ⟨fun hr => absurd (hnone.symm.trans hr) (by simp), ?_⟩
    intro ⟨hr, hyoung⟩
    obtain ⟨name, hp, id', huuid, hname⟩ := hdoomed
    have hid := child_inj hp
    rcases hname with rfl | ⟨rfl, haged⟩
    · exact absurd (name_inj (recordAt_uuid hr) huuid hid).2 (by decide)
    · obtain rfl := List.append_cancel_right hid
      exact absurd (haged r hr) hyoung
  · rw [recordAt_congr (h.same _ hdoomed)]
    refine ⟨fun hr => ⟨hr, ?_⟩, And.left⟩
    intro haged
    refine hdoomed ⟨_, rfl, id, recordAt_uuid hr, Or.inr ⟨rfl, ?_⟩⟩
    intro r' hr'
    obtain rfl := Option.some.inj (hr.symm.trans hr')
    exact haged

theorem Queue.swept (h : Queue d dir now claimed owned queue)
    (hpass : Without d d' (IsDoomed d dir now claimed)) : Queue d' dir now claimed owned queue := by
  refine ⟨h.once, ?_, ?_, h.ordered⟩
  · intro r
    rw [h.owned r, IsDoomed.recordAt_iff hpass]
    constructor
    · intro ⟨hr, hclaimed⟩
      exact ⟨⟨hr, fun haged => haged.1 hclaimed⟩, hclaimed⟩
    · intro ⟨⟨hr, _⟩, hclaimed⟩
      exact ⟨hr, hclaimed⟩
  · intro r
    rw [h.waiting r, IsDoomed.recordAt_iff hpass]
    constructor
    · intro ⟨hr, hfree, hyoung⟩
      exact ⟨⟨hr, fun haged => absurd haged.2 (by omega)⟩, hfree, hyoung⟩
    · intro ⟨⟨hr, _⟩, hfree, hyoung⟩
      exact ⟨hr, hfree, hyoung⟩

theorem Queue.perm {records : List ObsRecord} (h : Queue d dir now claimed owned queue)
    (hpass : Without d d' (IsDoomed d dir now claimed)) (hstock : Stock d' dir records) :
    records.Perm (owned ++ queue) := by
  refine (List.perm_ext_iff_of_nodup (List.Nodup.of_map _ hstock.ids) h.nodup).mpr ?_
  intro r
  have hmem : r ∈ records ↔ recordAt d' dir r.id = some r := ⟨hstock.there r, hstock.all r.id r⟩
  rw [hmem, List.mem_append, h.owned r, h.waiting r, IsDoomed.recordAt_iff hpass]
  constructor
  · intro ⟨hr, hyoung⟩
    by_cases hclaimed : claimed = some r.id
    · exact Or.inl ⟨hr, hclaimed⟩
    · refine Or.inr ⟨hr, hclaimed, ?_⟩
      by_contra hold
      exact hyoung ⟨hclaimed, by omega⟩
  · intro hr
    rcases hr with ⟨hr, hclaimed⟩ | ⟨hr, _, hyoung⟩
    · exact ⟨hr, fun haged => haged.1 hclaimed⟩
    · exact ⟨hr, fun haged => absurd haged.2 (by omega)⟩

/-! ## A scan -/

structure Evicts (l : Limits) (owned queue evicted left : List ObsRecord) : Prop where
  line : queue = evicted ++ left
  least : ∀ fewer rest, queue = fewer ++ rest → fewer.length < evicted.length → l.fit (owned ++ rest) = false
  enough : l.fit (owned ++ left) = true ∨ left = []

variable {l : Limits}

theorem Limits.fit_perm {records records' : List ObsRecord} (h : records.Perm records') :
    l.fit records = l.fit records' := by
  rw [Limits.fit, Limits.fit, spoolBytes, spoolBytes, h.length_eq, (h.map _).sum_eq]

theorem Evicts.stop (h : l.fit (owned ++ queue) = true ∨ queue = []) : Evicts l owned queue [] queue :=
  ⟨rfl, fun _ _ _ hless => absurd hless (by simp), h⟩

theorem Evicts.first {r : ObsRecord} {rest evicted left : List ObsRecord} (hfull : l.fit (owned ++ r :: rest) = false)
    (h : Evicts l owned rest evicted left) : Evicts l owned (r :: rest) (r :: evicted) left := by
  refine ⟨by rw [h.line, List.cons_append], ?_, h.enough⟩
  intro fewer others hline hless
  cases fewer with
  | nil =>
      rw [List.nil_append] at hline
      rwa [← hline]
  | cons r' fewer =>
      rw [List.cons_append] at hline
      exact h.least fewer others (List.cons.inj hline).2 (Nat.lt_of_succ_lt_succ hless)

theorem Queue.candidate {records : List ObsRecord} {candidate : Option ObsRecord}
    (h : Queue d dir now claimed owned queue) (hperm : records.Perm (owned ++ queue))
    (holdest : IsOldest claimed records candidate) : candidate = queue.head? := by
  have hfree : ∀ r ∈ records, claimed ≠ some r.id → r ∈ queue := by
    intro r hr hne
    rcases List.mem_append.mp (hperm.mem_iff.mp hr) with howned | hqueue
    · exact absurd ((h.owned r).mp howned).2 hne
    · exact hqueue
  have hwaiting : ∀ r ∈ queue, r ∈ records ∧ claimed ≠ some r.id := by
    intro r hr
    exact ⟨hperm.mem_iff.mpr (List.mem_append_right _ hr), ((h.waiting r).mp hr).2.1⟩
  cases candidate with
  | none =>
      cases queue with
      | nil => rfl
      | cons r rest =>
          obtain ⟨hr, hne⟩ := hwaiting r List.mem_cons_self
          exact absurd (holdest r hr) hne
  | some c =>
      obtain ⟨hc, hne, hfirst⟩ := holdest
      cases queue with
      | nil => exact absurd (hfree c hc hne) (by simp)
      | cons r rest =>
          rw [List.head?_cons, Option.some_inj]
          rcases List.mem_cons.mp (hfree c hc hne) with hsame | hlater
          · exact hsame
          · -- the first in line goes before every other
            obtain ⟨hr, hr'⟩ := hwaiting r List.mem_cons_self
            have hbefore := (List.pairwise_cons.mp h.ordered).1 c hlater
            exact absurd (hbefore.symm.trans (hfirst r hr hr')) (by simp)

theorem Queue.evict {r : ObsRecord} {rest : List ObsRecord} (h : Queue d dir now claimed owned (r :: rest)) :
    Queue (d.erase (obsPath dir r.id)) dir now claimed owned rest := by
  have hr := ((h.waiting r).mp List.mem_cons_self).1
  have hfree := ((h.waiting r).mp List.mem_cons_self).2.1
  have hgone : recordAt (d.erase (obsPath dir r.id)) dir r.id = none := recordAt_absent (erase_self d _)
  have hother : ∀ r' : ObsRecord, r'.id ≠ r.id →
      recordAt (d.erase (obsPath dir r.id)) dir r'.id = recordAt d dir r'.id := by
    intro r' hne
    exact recordAt_erase_of_ne fun heq => hne (List.append_cancel_right heq)
  obtain ⟨hbefore, hordered⟩ := List.pairwise_cons.mp h.ordered
  refine ⟨h.once, ?_, ?_, hordered⟩
  · intro r'
    rw [h.owned r']
    by_cases hid : r'.id = r.id
    · rw [hid, hgone]
      constructor
      · intro ⟨_, hclaimed⟩
        exact absurd hclaimed hfree
      · intro ⟨hnone, _⟩
        exact absurd hnone (by simp)
    · rw [hother r' hid]
  · intro r'
    by_cases hid : r'.id = r.id
    · rw [hid, hgone]
      constructor
      · intro hmem
        have hr' := ((h.waiting r').mp (List.mem_cons_of_mem _ hmem)).1
        rw [hid] at hr'
        obtain rfl := Option.some.inj (hr.symm.trans hr')
        exact absurd ((hbefore r hmem).symm.trans (before_self r)) (by simp)
      · intro ⟨hnone, _⟩
        exact absurd hnone (by simp)
    · rw [hother r' hid, ← h.waiting r', List.mem_cons]
      exact ⟨Or.inr, fun hmem => hmem.resolve_left fun heq => hid (heq ▸ rfl)⟩

theorem IsDoomed.evict {d₁ : Disk} {r : ObsRecord} {p : Path} (hpass : Without d d₁ (IsDoomed d dir now claimed))
    (h : IsDoomed (d₁.erase (obsPath dir r.id)) dir now claimed p) :
    IsDoomed d dir now claimed p ∨ p = obsPath dir r.id := by
  obtain ⟨name, rfl, id, huuid, hname⟩ := h
  rcases hname with rfl | ⟨rfl, haged⟩
  · exact Or.inl ⟨_, rfl, id, huuid, Or.inl rfl⟩
  by_cases hid : id = r.id
  · exact Or.inr (by rw [hid, obsPath])
  refine Or.inl ⟨_, rfl, id, huuid, Or.inr ⟨rfl, ?_⟩⟩
  intro r' hr'
  by_contra hyoung
  have hstill := (IsDoomed.recordAt_iff hpass).mpr ⟨hr', hyoung⟩
  have hother : recordAt (d₁.erase (obsPath dir r.id)) dir id = recordAt d₁ dir id :=
    recordAt_erase_of_ne fun heq => hid (List.append_cancel_right heq)
  exact hyoung (haged r' (hother.trans hstill))

structure Settled (dir : Bytes) (now : ℤ) (claimed : Option Bytes) (l : Limits) (d : Disk) (scan : Scan) (d' : Disk)
    (owned evicted left : List ObsRecord) : Prop where
  removed : Without d d' fun p => IsDoomed d dir now claimed p ∨ ∃ r ∈ evicted, p = obsPath dir r.id
  stock : Stock d' dir (owned ++ left)
  room : scan.ok = l.fit (owned ++ left)
  count : scan.ok = true → scan.pass.count = (owned ++ left).length
  bytes : scan.ok = true → scan.pass.bytes = spoolBytes (owned ++ left)
  oldest : scan.ok = true → scan.pass.candidate = left.head?

theorem Stock.perm {records records' : List ObsRecord} (h : Stock d dir records) (hperm : records.Perm records') :
    Stock d dir records' :=
  ⟨(hperm.map _).nodup_iff.mp h.ids, fun r hr => h.there r (hperm.mem_iff.mpr hr),
    fun id r hr => hperm.mem_iff.mp (h.all id r hr)⟩

theorem obsSpoolRemove_ends (hshort : ShortPath dir) (huuid : obsUuidValid id = true)
    (h : (d (obsPath dir id)).isSome = true) :
    ends prompt (obsSpoolRemove dir id) (fun removed d' => removed = true ∧ d' = d.erase (obsPath dir id)) d := by
  unfold obsSpoolRemove
  rw [recordPath_short hshort huuid (by decide)]
  refine ends_bind (prompt_unlink ?_ ?_)
  · intro _
    exact ⟨rfl, rfl⟩
  · intro hnone
    rw [show Path.child dir (id ++ obsSuffix) = obsPath dir id from rfl] at hnone
    rw [hnone] at h
    exact absurd h (by simp)

theorem scanLimits_ends {names : List Bytes} {rounds dropped corrupt : ℕ} (hshort : ShortPath dir)
    (hreserve : l.reserveBytes ≤ obsMaxBytes) (hlists : d.Lists dir (.names names true))
    (hqueue : Queue d dir now claimed owned queue) (hrounds : queue.length < rounds) :
    ends prompt (scanLimits dir now claimed l.reserveBytes l.maxCount l.maxBytes rounds dropped corrupt)
      (fun scan d' => ∃ evicted left, Evicts l owned queue evicted left ∧
        Settled dir now claimed l d scan d' owned evicted left) d := by
  induction rounds generalizing d queue names dropped corrupt with
  | zero => exact absurd hrounds (by simp)
  | succ rounds ih =>
      unfold scanLimits
      dsimp only
      rw [if_neg (by omega)]
      refine ends_bind (prompt_list ⟨names, hlists⟩ ?_)
      intro listed hlisted
      refine ends_bind (ends_mono ?_ (pass_ends hshort hlisted))
      intro result d₁ h
      obtain ⟨pass, records, rfl, htally, hstock, hpass⟩ := h
      have hperm := hqueue.perm hpass hstock
      have hfit : fits l.reserveBytes l.maxCount l.maxBytes pass.count pass.bytes = l.fit (owned ++ queue) := by
        rw [htally.count, htally.bytes, ← Limits.fit_perm hperm, Limits.fit]
      have hcandidate := hqueue.candidate hperm htally.oldest
      -- the scan may stop here, with nothing evicted
      have hsettled : ∀ ok, ok = l.fit (owned ++ queue) →
          Settled dir now claimed l d ⟨ok, pass⟩ d₁ owned [] queue := by
        intro ok hok
        refine ⟨hpass.congr (fun p => Or.inl) ?_, hstock.perm hperm, hok, ?_, ?_, fun _ => hcandidate⟩
        · intro p hp hno
          rcases hp with hdoomed | ⟨r, hr, _⟩
          · exact absurd hdoomed hno
          · exact absurd hr (by simp)
        · intro _
          exact htally.count.trans hperm.length_eq
        · intro _
          exact htally.bytes.trans (hperm.map _).sum_eq
      dsimp only
      split
      · rename_i hroom
        rw [hfit] at hroom
        exact ⟨[], queue, Evicts.stop (Or.inl hroom), hsettled true hroom.symm⟩
      rename_i hfull
      rw [hfit, Bool.not_eq_true] at hfull
      rw [hcandidate]
      cases queue with
      | nil => exact ⟨[], [], Evicts.stop (Or.inr rfl), hsettled false hfull.symm⟩
      | cons r rest =>
          have hline := hqueue.swept hpass
          have hr := ((hline.waiting r).mp List.mem_cons_self).1
          refine ends_bind (ends_mono ?_ (obsSpoolRemove_ends hshort (recordAt_uuid hr) (recordAt_present hr)))
          intro removed d₂ h
          obtain ⟨rfl, rfl⟩ := h
          obtain ⟨names₁, -, hlists₁⟩ := hpass.lists hlists
          obtain ⟨names₂, -, hlists₂⟩ := (Without.erase d₁ (obsPath dir r.id)).lists hlists₁
          refine ends_mono ?_ (ih hlists₂ hline.evict (Nat.lt_of_succ_lt_succ hrounds))
          intro scan d₃ h
          obtain ⟨evicted, left, hevicts, hlast⟩ := h
          refine ⟨r :: evicted, left, hevicts.first hfull, ?_⟩
          refine ⟨?_, hlast.stock, hlast.room, hlast.count, hlast.bytes, hlast.oldest⟩
          refine ((hpass.trans (Without.erase d₁ _)).trans hlast.removed).congr ?_ ?_
          · intro p hp
            rcases hp with (hdoomed | hp) | hdoomed | ⟨r', hr', hp⟩
            · exact Or.inl hdoomed
            · exact Or.inr ⟨r, List.mem_cons_self, hp⟩
            · rcases hdoomed.evict hpass with hdoomed | hp
              · exact Or.inl hdoomed
              · exact Or.inr ⟨r, List.mem_cons_self, hp⟩
            · exact Or.inr ⟨r', List.mem_cons_of_mem _ hr', hp⟩
          · intro p hp hno
            rcases hp with hdoomed | ⟨r', hr', hp⟩
            · exact absurd (Or.inl (Or.inl hdoomed)) hno
            · rcases List.mem_cons.mp hr' with rfl | hr'
              · exact absurd (Or.inl (Or.inr hp)) hno
              · exact absurd (Or.inr (Or.inr ⟨r', hr', hp⟩)) hno

end

end Albusforge.Camera
