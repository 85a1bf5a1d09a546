import Albusforge.Lib.JsonCanonical
import Albusforge.Lib.Rows
import Albusforge.Matcher.Accepted

/-!
# Loading the registry

`registry/scripts/load.ts`: part versions go into `registry.parts` in one transaction. What
is already there is compared by its canonical text; one difference fails the run and rolls
back what it inserted. Rows are never updated or deleted.

Plans pin a part by id and version, so this is what a plan rests on: **what is stored of a
version never changes, a load that would change one is refused as a whole, and any other
load adds exactly what was missing** (`loads_immutable`).
-/

namespace Albusforge.Registry

open Lib Lib.Json Matcher

variable {ν : Type}

/-! ## Rows -/

/-- A part as it was parsed: the object, and the three fields of it that have columns. The schema has
been checked. -/
structure PartFile (ν : Type) where
  pin : PartPin
  status : PartStatus
  members : List (Text × Json ν)
  accepted : pin.accepted = true
  distinct : (obj members).Distinct

/-- A row of `registry.parts`. -/
structure PartRow (ν : Type) where
  pin : PartPin
  status : PartStatus
  definition : Json ν
  accepted : pin.accepted = true
  distinct : definition.Distinct

/-- `` `${row.id}@${row.version}` `` -/
def PartRow.key (row : PartRow ν) : Text := pinKey row.pin

/-- `registry.parts`, with `(id, version)` as its primary key. -/
abbrev PartTable (ν : Type) : Type := Table (PartRow.pin (ν := ν))

theorem without_distinct {members : List (Text × Json ν)} (h : (obj members).Distinct) (name : Text) :
    (obj (members.filter fun m => m.1 ≠ name)).Distinct := by
  obtain ⟨hnd, hall⟩ := h
  refine ⟨(List.Sublist.map _ List.filter_sublist).nodup hnd, ?_⟩
  rw [membersDistinct_iff] at hall ⊢
  intro x hx
  exact hall x (List.mem_filter.mp hx).1

/-- What is stored: the definition without the editor's `$schema` hint. -/
def toRow (part : PartFile ν) : PartRow ν where
  pin := part.pin
  status := part.status
  definition := obj (part.members.filter fun m => m.1 ≠ js "$schema")
  accepted := part.accepted
  distinct := without_distinct part.distinct _

/-- A `jsonb` column: what is read back is what was written, in an order of its own. -/
structure Jsonb (ν : Type) where
  kept : Json ν → Json ν
  distinct : ∀ j, j.Distinct → (kept j).Distinct
  same : ∀ j, j.Distinct → Same (kept j) j

def Jsonb.keep (column : Jsonb ν) (row : PartRow ν) : PartRow ν :=
  { row with definition := column.kept row.definition, distinct := column.distinct _ row.distinct }

/-! ## The load -/

/-- `INSERT ... ON CONFLICT DO NOTHING RETURNING id, version` -/
def insertRows (column : Jsonb ν) (t : PartTable ν) : List (PartRow ν) → PartTable ν × List PartPin
  | [] => (t, [])
  | row :: rest =>
      match t.find row.pin with
      | some _ => insertRows column t rest
      | none =>
          let (t', inserted) := insertRows column (t.put (column.keep row)) rest
          (t', row.pin :: inserted)

structure LoadResult where
  inserted : List Text
  unchanged : List Text
  deriving DecidableEq

def unchangedRow [NumberText ν] (current : Option (PartRow ν)) (row : PartRow ν) : Bool :=
  match current with
  | none => false
  | some current =>
      current.status == row.status && canonicalJson current.definition == canonicalJson row.definition

/-- `loadParts(db, parts)`: what it answers or the versions it refuses to change, and the table after it. -/
def loadParts [NumberText ν] (column : Jsonb ν) (t : PartTable ν) (parts : List (PartFile ν)) :
    Except (List Text) LoadResult × PartTable ν :=
  let rows := parts.map toRow
  if rows.isEmpty then (.ok ⟨[], []⟩, t)
  else
    let (t', inserted) := insertRows column t rows
    let insertedKeys := (inserted.map pinKey).eraseDups
    let existing := rows.filter fun row => !insertedKeys.contains row.key
    let ids := (existing.map (·.pin.id)).eraseDups
    let stored := t'.rows.filter fun r => ids.contains r.pin.id
    -- A map by key: of rows with one key the last would count.
    let storedByKey := fun k => stored.reverse.find? (·.key == k)
    let unchanged := existing.filter fun row => unchangedRow (storedByKey row.key) row
    let changed := existing.filter fun row => !unchangedRow (storedByKey row.key) row
    if changed.isEmpty then
      (.ok ⟨sortBy compareText insertedKeys, sortBy compareText (unchanged.map (·.key))⟩, t')
    -- Throwing rolls the transaction back.
    else (.error (sortBy compareText (changed.map (·.key))), t)

def loads [NumberText ν] (column : Jsonb ν) (t : PartTable ν) (all : List (List (PartFile ν))) : PartTable ν :=
  all.foldl (fun t parts => (loadParts column t parts).2) t

/-! ## What an insert does -/

section Insert

variable {column : Jsonb ν}

theorem insertRows_find : ∀ {rows : List (PartRow ν)} {t : PartTable ν}, (rows.map PartRow.pin).Nodup →
    ∀ pin, (insertRows column t rows).1.find pin =
      (t.find pin).or ((rows.find? fun row => row.pin = pin).map column.keep)
  | [], t, _, pin => by simp [insertRows]
  | row :: rest, t, hnd, pin => by
      rw [List.map_cons, List.nodup_cons] at hnd
      unfold insertRows
      cases hrow : t.find row.pin with
      | some r =>
        dsimp only
        rw [insertRows_find hnd.2 pin, List.find?_cons]
        by_cases hpin : row.pin = pin
        · rw [← hpin, hrow, Option.some_or, Option.some_or]
        · simp [hpin]
      | none =>
        dsimp only
        rw [insertRows_find hnd.2 pin, List.find?_cons]
        by_cases hpin : row.pin = pin
        · have hput : (t.put (column.keep row)).find pin = some (column.keep row) :=
            Table.find_put_key hpin
          rw [hput, ← hpin, hrow]
          simp
        · have hne : pin ≠ (column.keep row).pin := fun heq => hpin heq.symm
          rw [Table.find_put_of_ne hne]
          simp [hpin]

theorem insertRows_inserted : ∀ {rows : List (PartRow ν)} {t : PartTable ν}, (rows.map PartRow.pin).Nodup →
    (insertRows column t rows).2 = (rows.filter fun row => (t.find row.pin).isNone).map PartRow.pin
  | [], t, _ => rfl
  | row :: rest, t, hnd => by
      rw [List.map_cons, List.nodup_cons] at hnd
      unfold insertRows
      cases hrow : t.find row.pin with
      | some r =>
        dsimp only
        rw [insertRows_inserted hnd.2, List.filter_cons_of_neg (by simp [hrow])]
      | none =>
        dsimp only
        rw [insertRows_inserted hnd.2, List.filter_cons_of_pos (by simp [hrow]), List.map_cons]
        congr 2
        apply List.filter_congr
        intro row' hrow'
        have hne : row'.pin ≠ (column.keep row).pin := by
          intro heq
          exact hnd.1 (List.mem_map.mpr ⟨row', hrow', heq⟩)
        rw [Table.find_put_of_ne hne]

end Insert

/-! ## What a load does -/

def Changed (t : PartTable ν) (part : PartFile ν) : Prop :=
  ∃ r, t.find part.pin = some r ∧ ¬ (r.status = part.status ∧ Same r.definition (toRow part).definition)

def Stored (t : PartTable ν) (pin : PartPin) (status : PartStatus) (definition : Json ν) : Prop :=
  ∃ r, t.find pin = some r ∧ r.status = status ∧ Same r.definition definition

section Load

variable {column : Jsonb ν} {t : PartTable ν} {parts : List (PartFile ν)}

theorem key_injective {r r' : PartRow ν} (h : r.key = r'.key) : r.pin = r'.pin :=
  pinKey_injective r.accepted r'.accepted h

theorem storedByKey_eq {ids : List Text} {row r : PartRow ν} (hid : row.pin.id ∈ ids)
    (hr : t.find row.pin = some r) :
    (t.rows.filter fun r => ids.contains r.pin.id).reverse.find? (·.key == row.key) = some r := by
  have hpin := Table.find_key hr
  refine find?_eq_some_of_unique ?_ ?_ ?_
  · rw [List.mem_reverse, List.mem_filter]
    exact ⟨Table.find_mem hr, by simpa [hpin] using hid⟩
  · rw [beq_iff_eq, PartRow.key, hpin, PartRow.key]
  · intro r' hr' hkey
    have hmem : r' ∈ t.rows := (List.mem_filter.mp (List.mem_reverse.mp hr')).1
    have hfound := Table.mem_find hmem
    rw [key_injective (beq_iff_eq.mp hkey), hr] at hfound
    exact (Option.some.inj hfound).symm

def existingRows (t : PartTable ν) (parts : List (PartFile ν)) : List (PartRow ν) :=
  (parts.map toRow).filter fun row => (t.find row.pin).isSome

theorem toRow_pins (hnd : (parts.map PartFile.pin).Nodup) : ((parts.map toRow).map PartRow.pin).Nodup := by
  rw [List.map_map]
  exact hnd

theorem existing_eq (hnd : (parts.map PartFile.pin).Nodup) :
    (parts.map toRow).filter (fun row =>
        !((insertRows column t (parts.map toRow)).2.map pinKey).eraseDups.contains row.key) =
      existingRows t parts := by
  apply List.filter_congr
  intro row hrow
  rw [insertRows_inserted (toRow_pins hnd), Bool.eq_iff_iff, Bool.not_eq_true', ← Bool.not_eq_true,
    List.contains_iff_mem, List.mem_eraseDups]
  constructor
  · intro h
    cases hfind : t.find row.pin with
    | some r => rfl
    | none =>
      have hnew : row ∈ (parts.map toRow).filter fun row => (t.find row.pin).isNone :=
        List.mem_filter.mpr ⟨hrow, by rw [hfind]; rfl⟩
      exact absurd (List.mem_map_of_mem (List.mem_map_of_mem hnew)) h
  · intro hsome hmem
    obtain ⟨pin, hpin, hkey⟩ := List.mem_map.mp hmem
    obtain ⟨row', hrow', rfl⟩ := List.mem_map.mp hpin
    have hnone := (List.mem_filter.mp hrow').2
    rw [key_injective (show row'.key = row.key from hkey), Option.isNone_iff_eq_none] at hnone
    rw [hnone] at hsome
    exact absurd hsome (by simp)

theorem insertRows_found : ∀ {rows : List (PartRow ν)}, (∀ row ∈ rows, (t.find row.pin).isSome = true) →
    insertRows column t rows = (t, [])
  | [], _ => rfl
  | row :: rest, h => by
      rw [List.forall_mem_cons] at h
      obtain ⟨r, hr⟩ := Option.isSome_iff_exists.mp h.1
      unfold insertRows
      rw [hr]
      exact insertRows_found h.2

theorem find?_toRow (hnd : (parts.map PartFile.pin).Nodup) {part : PartFile ν} (hpart : part ∈ parts) :
    (parts.map toRow).find? (fun row => row.pin = part.pin) = some (toRow part) := by
  refine find?_eq_some_of_unique (List.mem_map_of_mem hpart) (by simp [toRow]) ?_
  intro row hrow hpin
  obtain ⟨part', hpart', rfl⟩ := List.mem_map.mp hrow
  rw [List.inj_on_of_nodup_map hnd hpart' hpart (by simpa [toRow] using hpin)]

variable [NumberText ν]

def unchangedRows (t : PartTable ν) (parts : List (PartFile ν)) : List (PartRow ν) :=
  (existingRows t parts).filter fun row => unchangedRow (t.find row.pin) row

def changedRows (t : PartTable ν) (parts : List (PartFile ν)) : List (PartRow ν) :=
  (existingRows t parts).filter fun row => !unchangedRow (t.find row.pin) row

/-- **A load in terms of the table it finds**: refused for the rows that differ, or everything inserted. -/
theorem loadParts_eq (hnd : (parts.map PartFile.pin).Nodup) :
    loadParts column t parts =
      if (changedRows t parts).isEmpty then
        (.ok ⟨sortBy compareText ((insertRows column t (parts.map toRow)).2.map pinKey).eraseDups,
            sortBy compareText ((unchangedRows t parts).map PartRow.key)⟩,
          (insertRows column t (parts.map toRow)).1)
      else (.error (sortBy compareText ((changedRows t parts).map PartRow.key)), t) := by
  unfold loadParts
  dsimp only
  cases hrows : (parts.map toRow).isEmpty with
  | true =>
    have hnil : parts = [] := by simpa using hrows
    subst hnil
    rfl
  | false =>
    rw [if_neg (by simp), existing_eq hnd]
    -- The table read back has the row of each part, and it is the one that was found.
    have hlookup : ∀ row ∈ existingRows t parts,
        ((insertRows column t (parts.map toRow)).1.rows.filter fun r =>
          ((existingRows t parts).map (·.pin.id)).eraseDups.contains r.pin.id).reverse.find?
            (·.key == row.key) = t.find row.pin := by
      intro row hrow
      obtain ⟨r, hr⟩ := Option.isSome_iff_exists.mp (List.mem_filter.mp hrow).2
      rw [hr]
      refine storedByKey_eq (List.mem_eraseDups.mpr (List.mem_map_of_mem hrow)) ?_
      rw [insertRows_find (toRow_pins hnd), hr, Option.some_or]
    have hunchanged : (existingRows t parts).filter (fun row => unchangedRow
        (((insertRows column t (parts.map toRow)).1.rows.filter fun r =>
          ((existingRows t parts).map (·.pin.id)).eraseDups.contains r.pin.id).reverse.find?
            (·.key == row.key)) row) = unchangedRows t parts :=
      List.filter_congr fun row hrow => by rw [hlookup row hrow]
    have hchanged : (existingRows t parts).filter (fun row => !unchangedRow
        (((insertRows column t (parts.map toRow)).1.rows.filter fun r =>
          ((existingRows t parts).map (·.pin.id)).eraseDups.contains r.pin.id).reverse.find?
            (·.key == row.key)) row) = changedRows t parts :=
      List.filter_congr fun row hrow => by rw [hlookup row hrow]
    rw [hunchanged, hchanged]

variable [LawfulText ν]

theorem unchangedRow_iff {row : PartRow ν} {r : PartRow ν} :
    unchangedRow (some r) row = true ↔ r.status = row.status ∧ Same r.definition row.definition := by
  unfold unchangedRow
  rw [Bool.and_eq_true, beq_iff_eq, beq_iff_eq, canonicalJson_eq_iff r.distinct row.distinct]

theorem mem_changedRows {row : PartRow ν} :
    row ∈ changedRows t parts ↔ ∃ part ∈ parts, Changed t part ∧ toRow part = row := by
  unfold changedRows existingRows
  rw [List.mem_filter, List.mem_filter, List.mem_map, Bool.not_eq_true']
  constructor
  · intro h
    obtain ⟨⟨⟨part, hpart, rfl⟩, hsome⟩, hdiff⟩ := h
    obtain ⟨r, hr⟩ := Option.isSome_iff_exists.mp hsome
    rw [hr, ← Bool.not_eq_true, unchangedRow_iff] at hdiff
    exact ⟨part, hpart, ⟨r, hr, hdiff⟩, rfl⟩
  · intro h
    obtain ⟨part, hpart, ⟨r, hr, hdiff⟩, rfl⟩ := h
    have hr' : t.find (toRow part).pin = some r := hr
    refine ⟨⟨⟨part, hpart, rfl⟩, by rw [hr']; rfl⟩, ?_⟩
    rw [hr', ← Bool.not_eq_true, unchangedRow_iff]
    exact hdiff

theorem changedRows_isEmpty : (changedRows t parts).isEmpty = true ↔ ¬ ∃ part ∈ parts, Changed t part := by
  rw [List.isEmpty_iff, List.eq_nil_iff_forall_not_mem]
  constructor
  · intro h hex
    obtain ⟨part, hpart, hchanged⟩ := hex
    exact h _ (mem_changedRows.mpr ⟨part, hpart, hchanged, rfl⟩)
  · intro h row hrow
    obtain ⟨part, hpart, hchanged, -⟩ := mem_changedRows.mp hrow
    exact h ⟨part, hpart, hchanged⟩

omit [LawfulText ν] in
theorem loadParts_find (hnd : (parts.map PartFile.pin).Nodup) {pin : PartPin} {r : PartRow ν}
    (h : t.find pin = some r) : (loadParts column t parts).2.find pin = some r := by
  rw [loadParts_eq hnd]
  split_ifs
  · rw [insertRows_find (toRow_pins hnd), h, Option.some_or]
  · exact h

theorem insertRows_stored (hnd : (parts.map PartFile.pin).Nodup) (hsame : ¬ ∃ part ∈ parts, Changed t part)
    {pin : PartPin} {status : PartStatus} {d : Json ν} (hd : d.Distinct) :
    Stored (insertRows column t (parts.map toRow)).1 pin status d ↔
      Stored t pin status d ∨
        ∃ part ∈ parts, part.pin = pin ∧ part.status = status ∧ Same (toRow part).definition d := by
  unfold Stored
  rw [insertRows_find (toRow_pins hnd)]
  constructor
  · intro h
    obtain ⟨r, hr, hstatus, hdef⟩ := h
    cases hfind : t.find pin with
    | some r' =>
      rw [hfind, Option.some_or] at hr
      exact .inl ⟨r, hr, hstatus, hdef⟩
    | none =>
      rw [hfind, Option.none_or, Option.map_eq_some_iff] at hr
      obtain ⟨row, hrow, rfl⟩ := hr
      obtain ⟨part, hpart, rfl⟩ := List.mem_map.mp (List.mem_of_find?_eq_some hrow)
      have hpin : (toRow part).pin = pin := by simpa using List.find?_some hrow
      have hkept := column.same _ (toRow part).distinct
      refine .inr ⟨part, hpart, hpin, hstatus, ?_⟩
      exact (hkept.symm (column.distinct _ (toRow part).distinct) (toRow part).distinct).trans
        (toRow part).distinct (column.distinct _ (toRow part).distinct) hd hdef
  · intro h
    cases h with
    | inl hstored =>
      obtain ⟨r, hr, hrest⟩ := hstored
      exact ⟨r, by rw [hr, Option.some_or], hrest⟩
    | inr hload =>
      obtain ⟨part, hpart, rfl, rfl, hdef⟩ := hload
      cases hfind : t.find part.pin with
      | some r =>
        have hkeep : r.status = part.status ∧ Same r.definition (toRow part).definition := by
          by_contra hdiff
          exact hsame ⟨part, hpart, r, hfind, hdiff⟩
        exact ⟨r, rfl, hkeep.1, hkeep.2.trans r.distinct (toRow part).distinct hd hdef⟩
      | none =>
        refine ⟨column.keep (toRow part), ?_, rfl, ?_⟩
        · rw [Option.none_or, find?_toRow hnd hpart, Option.map_some]
        · exact (column.same _ (toRow part).distinct).trans (column.distinct _ (toRow part).distinct)
            (toRow part).distinct hd hdef

theorem loadParts_repeat (hnd : (parts.map PartFile.pin).Nodup) (hsame : ¬ ∃ part ∈ parts, Changed t part) :
    loadParts column (insertRows column t (parts.map toRow)).1 parts =
      (.ok ⟨[], sortBy compareText (parts.map fun part => pinKey part.pin)⟩,
        (insertRows column t (parts.map toRow)).1) := by
  set t' := (insertRows column t (parts.map toRow)).1 with ht'
  have hstored : ∀ part ∈ parts, Stored t' part.pin part.status (toRow part).definition := by
    intro part hpart
    exact (insertRows_stored hnd hsame (toRow part).distinct).mpr
      (.inr ⟨part, hpart, rfl, rfl, Same.refl (toRow part).distinct⟩)
  have hunchanged : ∀ row ∈ parts.map toRow, (t'.find row.pin).isSome = true ∧
      unchangedRow (t'.find row.pin) row = true := by
    intro row hrow
    obtain ⟨part, hpart, rfl⟩ := List.mem_map.mp hrow
    obtain ⟨r, hr, hstatus, hdef⟩ := hstored part hpart
    have hr' : t'.find (toRow part).pin = some r := hr
    rw [hr']
    exact ⟨rfl, unchangedRow_iff.mpr ⟨hstatus, hdef⟩⟩
  have hexisting : existingRows t' parts = parts.map toRow :=
    List.filter_eq_self.mpr fun row hrow => (hunchanged row hrow).1
  have hnone : (changedRows t' parts).isEmpty = true := by
    unfold changedRows
    rw [hexisting, List.isEmpty_iff, List.filter_eq_nil_iff]
    intro row hrow
    rw [(hunchanged row hrow).2]
    simp
  have hall : unchangedRows t' parts = parts.map toRow := by
    unfold unchangedRows
    rw [hexisting]
    exact List.filter_eq_self.mpr fun row hrow => (hunchanged row hrow).2
  rw [loadParts_eq hnd, if_pos hnone, hall, insertRows_found fun row hrow => (hunchanged row hrow).1,
    List.map_map]
  rfl

theorem refused_names (hnd : (parts.map PartFile.pin).Nodup) :
    (∀ k, k ∈ sortBy compareText ((changedRows t parts).map PartRow.key) ↔
        ∃ part ∈ parts, Changed t part ∧ k = pinKey part.pin) ∧
      (sortBy compareText ((changedRows t parts).map PartRow.key)).Pairwise (· < ·) := by
  constructor
  · intro k
    rw [mem_sortBy, List.mem_map]
    constructor
    · intro h
      obtain ⟨row, hrow, rfl⟩ := h
      obtain ⟨part, hpart, hchanged, rfl⟩ := mem_changedRows.mp hrow
      exact ⟨part, hpart, hchanged, rfl⟩
    · intro h
      obtain ⟨part, hpart, hchanged, rfl⟩ := h
      exact ⟨toRow part, mem_changedRows.mpr ⟨part, hpart, hchanged, rfl⟩, rfl⟩
  · have hkeys : ((changedRows t parts).map PartRow.key).Nodup := by
      have hrows : (changedRows t parts).Nodup := by
        refine (List.Nodup.filter _ (List.Nodup.filter _ ?_))
        exact List.Nodup.of_map _ (toRow_pins hnd)
      refine hrows.map_on ?_
      intro row hrow row' hrow' hkey
      obtain ⟨part, hpart, -, rfl⟩ := mem_changedRows.mp hrow
      obtain ⟨part', hpart', -, rfl⟩ := mem_changedRows.mp hrow'
      rw [List.inj_on_of_nodup_map hnd hpart hpart' (key_injective hkey)]
    refine strict_of_nodup (sortBy_pairwise compareText_byKey _) ?_
    rw [List.map_id']
    exact (sortBy_perm _ _).nodup_iff.mpr hkeys

omit [LawfulText ν] in
theorem loads_find : ∀ {all : List (List (PartFile ν))} {t : PartTable ν},
    (∀ parts ∈ all, (parts.map PartFile.pin).Nodup) → ∀ {pin : PartPin} {r : PartRow ν}, t.find pin = some r →
      (loads column t all).find pin = some r
  | [], _, _, _, _, h => h
  | parts :: all, t, hall, pin, r, h => by
      rw [List.forall_mem_cons] at hall
      exact loads_find hall.2 (loadParts_find hall.1 h)

end Load

/-- **Published part versions are immutable.** Whatever is loaded after it, a stored version keeps its
row. After any loads, one that would change stored versions is refused, names exactly those and
changes nothing; any other makes the table the union, and repeating it changes nothing. -/
theorem loads_immutable [NumberText ν] [LawfulText ν] (column : Jsonb ν) (t : PartTable ν)
    (all : List (List (PartFile ν))) (hall : ∀ parts ∈ all, (parts.map PartFile.pin).Nodup) :
    (∀ pin r, t.find pin = some r → (loads column t all).find pin = some r) ∧
    ∀ parts : List (PartFile ν), (parts.map PartFile.pin).Nodup →
      ((∃ part ∈ parts, Changed (loads column t all) part) →
        ∃ refused, loadParts column (loads column t all) parts = (.error refused, loads column t all) ∧
          refused.Pairwise (· < ·) ∧
          ∀ k, k ∈ refused ↔ ∃ part ∈ parts, Changed (loads column t all) part ∧ k = pinKey part.pin) ∧
      ((¬ ∃ part ∈ parts, Changed (loads column t all) part) →
        ∃ result t', loadParts column (loads column t all) parts = (.ok result, t') ∧
          (∀ pin status d, d.Distinct → (Stored t' pin status d ↔ Stored (loads column t all) pin status d ∨
            ∃ part ∈ parts, part.pin = pin ∧ part.status = status ∧ Same (toRow part).definition d)) ∧
          loadParts column t' parts =
            (.ok ⟨[], sortBy compareText (parts.map fun part => pinKey part.pin)⟩, t')) := by
  refine ⟨fun pin r h => loads_find hall h, ?_⟩
  intro parts hnd
  constructor
  · intro hchanged
    obtain ⟨hnames, hsorted⟩ := refused_names (t := loads column t all) hnd
    refine ⟨_, ?_, hsorted, hnames⟩
    rw [loadParts_eq hnd, if_neg fun hempty => changedRows_isEmpty.mp hempty hchanged]
  · intro hsame
    have hload : loadParts column (loads column t all) parts = _ := loadParts_eq hnd
    rw [if_pos (changedRows_isEmpty.mpr hsame)] at hload
    exact ⟨_, _, hload, fun pin status d hd => insertRows_stored hnd hsame hd, loadParts_repeat hnd hsame⟩

namespace Bench

def inOrder : Jsonb ℕ where
  kept := id
  distinct _ h := h
  same _ h := Same.refl h

def sensor (version name : Text) (h : (⟨js "P-001", version⟩ : PartPin).accepted = true) : PartFile ℕ where
  pin := ⟨js "P-001", version⟩
  status := .active
  members := [(js "id", .str (js "P-001")), (js "name", .str name), (js "version", .str version)]
  accepted := h
  distinct := by
    have hnames : [js "id", js "name", js "version"].Nodup := by decide
    refine ⟨hnames, ?_⟩
    simp [MembersDistinct, Distinct]

def loaded : List (List (PartFile ℕ)) := [[sensor (js "1.0.0") (js "BME280") (by decide +kernel)]]

def renamed : List (PartFile ℕ) :=
  [sensor (js "1.0.0") (js "BME280, renamed") (by decide +kernel),
    sensor (js "1.1.0") (js "BME280") (by decide +kernel)]

/-- A renamed part is refused by its version, and the new version beside it is not loaded. -/
theorem renamed_refused :
    loadParts inOrder (loads inOrder Table.empty loaded) renamed =
      (.error [js "P-001@1.0.0"], loads inOrder Table.empty loaded) := by
  have hanswer : (loadParts inOrder (loads inOrder Table.empty loaded) renamed).1 =
      .error [js "P-001@1.0.0"] := by decide +kernel
  obtain ⟨-, hload⟩ := loads_immutable inOrder Table.empty loaded (by decide +kernel)
  obtain ⟨hrefused, haccepted⟩ := hload renamed (by decide +kernel)
  by_cases hchanged : ∃ part ∈ renamed, Changed (loads inOrder Table.empty loaded) part
  · obtain ⟨refused, hrun, -⟩ := hrefused hchanged
    rw [hrun] at hanswer ⊢
    exact congrArg (·, loads inOrder Table.empty loaded) hanswer
  · obtain ⟨result, t', hrun, -⟩ := haccepted hchanged
    rw [hrun] at hanswer
    exact absurd hanswer (by simp)

end Bench

end Albusforge.Registry
