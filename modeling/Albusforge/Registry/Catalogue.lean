import Albusforge.Lib.Entries
import Albusforge.Lib.Register
import Albusforge.Matcher.VersionOrder

/-!
# The part catalogue

`registry/scripts/catalogue.ts`: what intake may choose from, one entry for each part at its
newest version, and the prompt text that is made of it. Every turn reads the text from a cache,
so it has to be the same whatever order the parts came in.

`chosen` is the one place where the parts are looked through. It is a sorted list without
repetitions of exactly the newest parts (`mem_chosen`), and **there is one such list**
(`chosen_perm`). The rest is made of it.
-/

namespace Albusforge.Registry

open Lib Matcher

/-! ## Parts -/

inductive PartCategory where
  | visual | physical | location | communication | motion | energy
  deriving DecidableEq, Repr

def PartCategory.text : PartCategory → Text
  | .visual => js "visual"
  | .physical => js "physical"
  | .location => js "location"
  | .communication => js "communication"
  | .motion => js "motion"
  | .energy => js "energy"

inductive Exposure where
  | none | vent | window | probeExternal
  deriving DecidableEq, Repr

def Exposure.text : Exposure → Text
  | .none => js "none"
  | .vent => js "vent"
  | .window => js "window"
  | .probeExternal => js "probe-external"

structure ListedPart (ν : Type) extends PartDefinition ν where
  name : Text
  category : PartCategory
  exposure : Exposure
  environmentFlags : List Text

/-! ## Units -/

def unitSuffixes : List (Text × Text) :=
  [(js "_c", js "°C"), (js "_pct", js "%"), (js "_hpa", js "hPa"), (js "_g", js "g"), (js "_dps", js "°/s"),
    (js "_cm", js "cm"), (js "_lux", js "lx"), (js "_deg", js "°"), (js "_bool", js "true/false")]

/-- `capabilityUnit(capability) ?? null` -/
def capabilityUnit (capability : Text) : Option Text :=
  let space := (split dot capability).headD []
  if space = js "read" ∨ space = js "act" then
    (unitSuffixes.find? fun s => s.1.isSuffixOf capability).map Prod.snd
  else none

/-! ## The catalogue -/

structure CatalogueCapability where
  capability : Text
  unit : Option Text
  parts : List Text
  deriving DecidableEq

structure CataloguePowerOption (ν : Type) where
  id : Text
  name : Text
  provides : List Text
  outputV : ν × ν
  maxOutputMa : ν
  capacityMah : Option ν

structure CataloguePart (ν : Type) where
  id : Text
  version : Text
  name : Text
  category : PartCategory
  provides : List Text
  requires : List Text
  voltageRange : ν × ν
  currentDrawMa : CurrentDraw ν
  exposure : Exposure
  environmentFlags : List Text

structure Catalogue (ν : Type) where
  capabilities : List CatalogueCapability
  environmentFlags : List Text
  powerOptions : List (CataloguePowerOption ν)
  parts : List (CataloguePart ν)

/-- `[...new Set(xs)].sort(byString)` -/
def sorted (xs : List Text) : List Text := sortBy compareText xs.eraseDups

section Code

variable {ν : Type}

def latestStep (statuses : List PartStatus) (latest : Entries Text (ListedPart ν)) (part : ListedPart ν) :
    Entries Text (ListedPart ν) :=
  if !statuses.contains part.status then latest
  else match latest.get part.id with
    | none => latest.set part.id part
    | some current =>
        if compareSemver part.version current.version = .gt then latest.set part.id part else latest

def chosen (statuses : List PartStatus) (parts : List (ListedPart ν)) : List (ListedPart ν) :=
  sortBy (fun a b => compareText a.id b.id) (parts.foldl (latestStep statuses) []).values

/-- `providers.set(cap, [...(providers.get(cap) ?? []), part.id])` -/
def provide (providers : Entries Text (List Text)) (pair : Text × Text) : Entries Text (List Text) :=
  providers.set pair.1 ((providers.get pair.1).getD [] ++ [pair.2])

def providersOf (parts : List (ListedPart ν)) : Entries Text (List Text) :=
  parts.foldl (fun providers part =>
    part.software.capabilities.foldl (fun providers cap => provide providers (cap, part.id)) providers) []

def powerOption (p : ListedPart ν) : List (CataloguePowerOption ν) :=
  match p.category, p.electrical.supply with
  | .energy, some supply =>
      [{ id := p.id
         name := p.name
         provides := sorted (p.software.capabilities.filter fun c => (js "power.").isPrefixOf c)
         outputV := supply.outputV
         maxOutputMa := supply.maxOutputMa
         capacityMah := supply.capacityMah }]
  | _, _ => []

def cataloguePart (p : ListedPart ν) : CataloguePart ν where
  id := p.id
  version := p.version
  name := p.name
  category := p.category
  provides := sorted p.software.capabilities
  requires := sorted p.electrical.requires
  voltageRange := p.electrical.voltageRange
  currentDrawMa := p.electrical.currentDrawMa
  exposure := p.exposure
  environmentFlags := sorted p.environmentFlags

def catalogueOf (chosen : List (ListedPart ν)) : Catalogue ν where
  capabilities := (sorted (providersOf chosen).keys).map fun capability =>
    { capability := capability
      unit := capabilityUnit capability
      parts := sorted (((providersOf chosen).get capability).getD []) }
  environmentFlags := sorted (chosen.flatMap fun p => p.environmentFlags)
  powerOptions := chosen.flatMap powerOption
  parts := chosen.map cataloguePart

/-- `buildCatalogue`, with `options.statuses`. -/
def buildCatalogue (parts : List (ListedPart ν)) (statuses : Option (List PartStatus)) : Catalogue ν :=
  catalogueOf (chosen (statuses.getD [.active]) parts)

/-! ## Its text -/

/-- `(xs.length > 0 ? xs.join(", ") : "none")` -/
def list (xs : List Text) : Text := if xs = [] then js "none" else (js ", ").intercalate xs

def capabilityLine (c : CatalogueCapability) : Text :=
  js "- " ++ c.capability ++ (c.unit.elim [] fun unit => js " [" ++ unit ++ js "]") ++ js ": " ++
    (js ", ").intercalate c.parts

variable [JsNumber ν]

open JsNumber

def powerLine (p : CataloguePowerOption ν) : Text :=
  let capacity := p.capacityMah.elim (js "no storage") fun mah => toText mah ++ js " mAh"
  js "- " ++ p.id ++ js " " ++ p.name ++ js ": " ++ list p.provides ++ js "; " ++ toText p.outputV.1 ++ js "–" ++
    toText p.outputV.2 ++ js " V; " ++ toText p.maxOutputMa ++ js " mA; " ++ capacity

def partLine (p : CataloguePart ν) : Text :=
  (js " | ").intercalate
    [js "- " ++ p.id ++ js "@" ++ p.version ++ js " " ++ p.name,
      p.category.text,
      list p.provides,
      list p.requires,
      toText p.voltageRange.1 ++ js "–" ++ toText p.voltageRange.2 ++ js " V",
      toText p.currentDrawMa.idle ++ js "/" ++ toText p.currentDrawMa.active ++ js " mA",
      p.exposure.text,
      list p.environmentFlags]

/-- `renderCatalogue`: the catalogue as prompt text. -/
def renderCatalogue (catalogue : Catalogue ν) : Text :=
  let lines :=
    [js "# Part catalogue", js "", js "## Capabilities (capability [unit]: parts)"] ++
    catalogue.capabilities.map capabilityLine ++
    [js "", js "## Environment flags", js "- " ++ list catalogue.environmentFlags] ++
    [js "", js "## Power options (id name: provides; output; max current; capacity)"] ++
    catalogue.powerOptions.map powerLine ++
    [js "", js "## Parts (id@version name | category | provides | requires | supply V | idle/active mA | exposure | flags)"] ++
    catalogue.parts.map partLine
  (js "\n").intercalate lines ++ js "\n"

end Code

/-! ## Sets of strings -/

theorem nodup_eraseDups (xs : List Text) : xs.eraseDups.Nodup := by
  induction h : xs.length using Nat.strongRecOn generalizing xs with
  | ind n ih =>
    cases xs with
    | nil => simp
    | cons x xs =>
      rw [List.eraseDups_cons]
      have hlt : (xs.filter fun b => !b == x).length < n := by
        have := List.length_filter_le (fun b => !b == x) xs
        rw [List.length_cons] at h
        omega
      refine List.nodup_cons.mpr ⟨?_, ih _ hlt _ rfl⟩
      simp [List.mem_eraseDups]

theorem mem_sorted {xs : List Text} {x : Text} : x ∈ sorted xs ↔ x ∈ xs := by
  rw [sorted, mem_sortBy, List.mem_eraseDups]

theorem nodup_sorted (xs : List Text) : (sorted xs).Nodup :=
  (sortBy_perm _ _).nodup_iff.mpr (nodup_eraseDups xs)

/-! ## The parts that are listed -/

section Chosen

variable {ν : Type} {statuses : List PartStatus} {parts : List (ListedPart ν)}

structure Newest (statuses : List PartStatus) (parts : List (ListedPart ν)) (p : ListedPart ν) : Prop where
  mem : p ∈ parts
  included : statuses.contains p.status = true
  greatest : ∀ q ∈ parts, statuses.contains q.status = true → q.id = p.id →
    compareSemver q.version p.version ≠ .gt

def versionOf (p : ListedPart ν) := versionKey p.version

theorem get_latestStep (m : Entries Text (ListedPart ν)) (a : ListedPart ν) (k : Text) :
    (latestStep statuses m a).get k =
      if a.id = k then (if statuses.contains a.status then raise versionOf (m.get k) a else m.get k)
      else m.get k := by
  unfold latestStep
  cases hincluded : statuses.contains a.status with
  | false => simp
  | true =>
    simp only [Bool.not_true, Bool.false_eq_true, if_false, if_true]
    cases hget : m.get a.id with
    | none =>
      dsimp only
      rw [Entries.get_set]
      by_cases hid : a.id = k
      · rw [if_pos hid, if_pos hid, ← hid, hget, raise_none]
      · rw [if_neg hid, if_neg hid]
    | some current =>
      dsimp only
      by_cases hid : a.id = k
      · rw [if_pos hid, ← hid, hget]
        by_cases hlt : compareSemver a.version current.version = .gt
        · rw [if_pos hlt, Entries.get_set, if_pos rfl]
          exact (if_pos (compareSemver_gt.mp hlt)).symm
        · rw [if_neg hlt, hget]
          exact (if_neg fun h => hlt (compareSemver_gt.mpr h)).symm
      · rw [if_neg hid]
        split
        · rw [Entries.get_set, if_neg hid]
        · rfl

theorem latest_holds (statuses : List PartStatus) (parts : List (ListedPart ν)) (k : Text) :
    Holds versionOf ((parts.filter fun a => a.id = k).filter fun a => statuses.contains a.status)
      ((parts.foldl (latestStep statuses) []).get k) := by
  rw [Entries.get_foldl (fun a : ListedPart ν => a.id)
    (fun old a => if statuses.contains a.status then raise versionOf old a else old) get_latestStep,
    Entries.get_nil, ← List.foldl_filter]
  exact foldl_raise_holds _ none

theorem latest_id {k : Text} {p : ListedPart ν}
    (h : (parts.foldl (latestStep statuses) []).get k = some p) : p.id = k := by
  have hholds := latest_holds statuses parts k
  rw [h] at hholds
  have hmem := hholds.mem
  simp only [List.mem_filter, decide_eq_true_eq] at hmem
  exact hmem.1.2

theorem latest_nodup : (parts.foldl (latestStep statuses) []).keys.Nodup := by
  refine Entries.nodup_foldl ?_ List.nodup_nil
  intro m a hm
  unfold latestStep
  split
  · exact hm
  · split
    · exact Entries.nodup_set _ _ hm
    · split
      · exact Entries.nodup_set _ _ hm
      · exact hm

/-- **Exactly the newest parts are chosen.** -/
theorem mem_chosen (hnd : (parts.map fun p => p.pin).Nodup) {p : ListedPart ν} :
    p ∈ chosen statuses parts ↔ Newest statuses parts p := by
  unfold chosen
  rw [mem_sortBy, Entries.mem_values latest_nodup]
  have hfilter : ∀ {k : Text} {q : ListedPart ν},
      q ∈ (parts.filter fun a => a.id = k).filter (fun a => statuses.contains a.status) ↔
        q ∈ parts ∧ q.id = k ∧ statuses.contains q.status = true := by
    intro k q
    simp only [List.mem_filter, decide_eq_true_eq, and_assoc]
  constructor
  · intro h
    obtain ⟨k, hk⟩ := h
    have hholds := latest_holds statuses parts k
    rw [hk] at hholds
    obtain ⟨hmem, hid, hincluded⟩ := hfilter.mp hholds.mem
    refine ⟨hmem, hincluded, ?_⟩
    intro q hq hqin hqid hgt
    have hle := hholds.le q (hfilter.mpr ⟨hq, hqid.trans hid, hqin⟩)
    exact absurd (compareSemver_gt.mp hgt) (not_lt.mpr hle)
  · intro h
    refine ⟨p.id, ?_⟩
    have hholds := latest_holds statuses parts p.id
    have hp := hfilter.mpr ⟨h.mem, rfl, h.included⟩
    cases hget : (parts.foldl (latestStep statuses) []).get p.id with
    | none =>
      rw [hget] at hholds
      rw [show _ = [] from hholds] at hp
      exact absurd hp (by simp)
    | some m =>
      rw [hget] at hholds
      obtain ⟨hm, hmid, hmin⟩ := hfilter.mp hholds.mem
      -- two greatest versions of one id are one version, and one pin is one part
      have hle : versionKey m.version ≤ versionKey p.version :=
        not_lt.mp fun hlt => h.greatest m hm hmin hmid (compareSemver_gt.mpr hlt)
      have hversion : m.version = p.version := versionKey_injective (le_antisymm hle (hholds.le p hp))
      have hpin : m.pin = p.pin := by
        rw [PartPin.mk.injEq]
        exact ⟨hmid, hversion⟩
      rw [List.inj_on_of_nodup_map hnd hm h.mem hpin]

theorem chosen_ids : ((chosen statuses parts).map fun p => p.id).Nodup := by
  unfold chosen
  have hkeys : (parts.foldl (latestStep statuses) []).values.map (fun p => p.id) =
      (parts.foldl (latestStep statuses) []).keys := by
    unfold Entries.values Entries.keys
    rw [List.map_map]
    refine List.map_congr_left ?_
    intro e he
    exact latest_id ((Entries.mem_iff_get latest_nodup).mp he)
  rw [((sortBy_perm _ _).map _).nodup_iff, hkeys]
  exact latest_nodup

theorem chosen_perm {parts' : List (ListedPart ν)} (hnd : (parts.map fun p => p.pin).Nodup)
    (hp : parts.Perm parts') : chosen statuses parts = chosen statuses parts' := by
  have hnd' : (parts'.map fun p => p.pin).Nodup := (hp.map _).nodup_iff.mp hnd
  have hsame : ∀ p, p ∈ chosen statuses parts ↔ p ∈ chosen statuses parts' := by
    intro p
    rw [mem_chosen hnd, mem_chosen hnd']
    constructor
    · intro h
      exact ⟨hp.mem_iff.mp h.mem, h.included, fun q hq => h.greatest q (hp.mem_iff.mpr hq)⟩
    · intro h
      exact ⟨hp.mem_iff.mpr h.mem, h.included, fun q hq => h.greatest q (hp.mem_iff.mp hq)⟩
  refine eq_of_sorted (Separates.of_nodup chosen_ids) ?_ (sortBy_pairwise (compareText_on _) _)
    (sortBy_pairwise (compareText_on _) _)
  exact (List.perm_ext_iff_of_nodup (List.Nodup.of_map _ chosen_ids) (List.Nodup.of_map _ chosen_ids)).mpr hsame

end Chosen

/-! ## The vocabularies -/

section Vocabulary

variable {ν : Type} {listed : List (ListedPart ν)}

def provisions (listed : List (ListedPart ν)) : List (Text × Text) :=
  listed.flatMap fun p => p.software.capabilities.map fun cap => (cap, p.id)

theorem mem_provisions {cap id : Text} :
    (cap, id) ∈ provisions listed ↔ ∃ p ∈ listed, cap ∈ p.software.capabilities ∧ p.id = id := by
  simp only [provisions, List.mem_flatMap, List.mem_map, Prod.mk.injEq]
  constructor
  · intro h
    obtain ⟨p, hp, _, hcap, rfl, hid⟩ := h
    exact ⟨p, hp, hcap, hid⟩
  · intro h
    obtain ⟨p, hp, hcap, hid⟩ := h
    exact ⟨p, hp, cap, hcap, rfl, hid⟩

theorem providersOf_eq : providersOf listed = (provisions listed).foldl provide [] := by
  unfold providersOf provisions
  rw [List.foldl_flatMap]
  simp only [List.foldl_map]

theorem get_providersOf (cap : Text) :
    (providersOf listed).get cap =
      ((provisions listed).filter fun e => e.1 = cap).foldl (fun old e => some (old.getD [] ++ [e.2])) none := by
  rw [providersOf_eq, Entries.get_foldl Prod.fst fun old e => some (old.getD [] ++ [e.2])]
  · rfl
  · intro m e k
    unfold provide
    rw [Entries.get_set]
    by_cases h : e.1 = k
    · rw [if_pos h, if_pos h, h]
    · rw [if_neg h, if_neg h]

theorem foldl_provide {es : List (Text × Text)} {old : Option (List Text)} :
    ((es.foldl (fun old e => some (old.getD [] ++ [e.2])) old).getD [] = old.getD [] ++ es.map Prod.snd) ∧
      ((es.foldl (fun old e => some (old.getD [] ++ [e.2])) old).isSome = true ↔ old.isSome = true ∨ es ≠ []) := by
  induction es generalizing old with
  | nil => simp
  | cons e es ih =>
    rw [List.foldl_cons, ih.1, ih.2]
    simp

theorem mem_providers {cap id : Text} :
    id ∈ ((providersOf listed).get cap).getD [] ↔ ∃ p ∈ listed, cap ∈ p.software.capabilities ∧ p.id = id := by
  rw [get_providersOf, foldl_provide.1, ← mem_provisions]
  simp

theorem mem_providers_keys {cap : Text} :
    cap ∈ (providersOf listed).keys ↔ ∃ p ∈ listed, cap ∈ p.software.capabilities := by
  rw [← Entries.get_isSome, get_providersOf, foldl_provide.2]
  simp only [Option.isSome_none, Bool.false_eq_true, false_or, ne_eq, List.filter_eq_nil_iff,
    decide_eq_true_eq, not_forall, not_not, exists_prop, Prod.exists]
  constructor
  · intro h
    obtain ⟨_, id, hmem, rfl⟩ := h
    obtain ⟨p, hp, hcap, -⟩ := mem_provisions.mp hmem
    exact ⟨p, hp, hcap⟩
  · intro h
    obtain ⟨p, hp, hcap⟩ := h
    exact ⟨cap, p.id, mem_provisions.mpr ⟨p, hp, hcap, rfl⟩, rfl⟩

theorem mem_capabilities {c : CatalogueCapability} :
    c ∈ (catalogueOf listed).capabilities ↔ (∃ p ∈ listed, c.capability ∈ p.software.capabilities) ∧
      c.unit = capabilityUnit c.capability ∧ c.parts = sorted (((providersOf listed).get c.capability).getD []) := by
  simp only [catalogueOf, List.mem_map, mem_sorted, mem_providers_keys]
  constructor
  · intro h
    obtain ⟨cap, hcap, rfl⟩ := h
    exact ⟨hcap, rfl, rfl⟩
  · intro h
    obtain ⟨hcap, hunit, hparts⟩ := h
    refine ⟨c.capability, hcap, ?_⟩
    rw [← hunit, ← hparts]

end Vocabulary

/-! ## One catalogue for one set of parts -/

section Canonical

variable {ν : Type} {parts : List (ListedPart ν)}

theorem mem_chosen_ids {statuses : List PartStatus} {id : Text} :
    id ∈ (chosen statuses parts).map (fun p => p.id) ↔
      ∃ p ∈ parts, statuses.contains p.status = true ∧ p.id = id := by
  have hholds := latest_holds statuses parts id
  rw [List.mem_map]
  constructor
  · intro h
    obtain ⟨p, hp, hid⟩ := h
    unfold chosen at hp
    rw [mem_sortBy, Entries.mem_values latest_nodup] at hp
    obtain ⟨k, hk⟩ := hp
    have hholds := latest_holds statuses parts k
    rw [hk] at hholds
    obtain ⟨hin, hincluded⟩ := List.mem_filter.mp hholds.mem
    exact ⟨p, (List.mem_filter.mp hin).1, hincluded, hid⟩
  · intro h
    obtain ⟨p, hp, hincluded, hid⟩ := h
    cases hget : (parts.foldl (latestStep statuses) []).get id with
    | none =>
      rw [hget] at hholds
      have hmem : p ∈ (parts.filter fun a => a.id = id).filter fun a => statuses.contains a.status := by
        simp only [List.mem_filter, decide_eq_true_eq]
        exact ⟨⟨hp, hid⟩, hincluded⟩
      rw [show _ = [] from hholds] at hmem
      exact absurd hmem (by simp)
    | some m =>
      refine ⟨m, ?_, latest_id hget⟩
      unfold chosen
      rw [mem_sortBy, Entries.mem_values latest_nodup]
      exact ⟨id, hget⟩

variable [JsNumber ν]

/-- **The catalogue does not depend on the order of the parts**: it lists each id of an included part
once, at its greatest included version, and its vocabularies are those of the parts that it lists. -/
theorem catalogue_canonical (statuses : Option (List PartStatus)) (hnd : (parts.map fun p => p.pin).Nodup) :
    let catalogue := buildCatalogue parts statuses
    let included := statuses.getD [.active]
    (∀ parts', parts.Perm parts' → buildCatalogue parts' statuses = catalogue ∧
        renderCatalogue (buildCatalogue parts' statuses) = renderCatalogue catalogue) ∧
      (catalogue.parts.map fun e => e.id).Nodup ∧
      (∀ id, id ∈ catalogue.parts.map (fun e => e.id) ↔
        ∃ p ∈ parts, included.contains p.status = true ∧ p.id = id) ∧
      (∀ e, e ∈ catalogue.parts ↔ ∃ p, Newest included parts p ∧ cataloguePart p = e) ∧
      (catalogue.capabilities.map fun c => c.capability).Nodup ∧
      (∀ cap, cap ∈ catalogue.capabilities.map (fun c => c.capability) ↔
        ∃ e ∈ catalogue.parts, cap ∈ e.provides) ∧
      (∀ c ∈ catalogue.capabilities, c.parts.Nodup ∧
        ∀ id, id ∈ c.parts ↔ ∃ e ∈ catalogue.parts, c.capability ∈ e.provides ∧ e.id = id) ∧
      catalogue.environmentFlags.Nodup ∧
      ∀ flag, flag ∈ catalogue.environmentFlags ↔ ∃ e ∈ catalogue.parts, flag ∈ e.environmentFlags := by
  intro catalogue included
  have hlisted : ∀ e, e ∈ catalogue.parts ↔ ∃ p ∈ chosen included parts, cataloguePart p = e := by
    intro e
    exact List.mem_map
  have hexists : ∀ P : CataloguePart ν → Prop,
      (∃ e ∈ catalogue.parts, P e) ↔ ∃ p ∈ chosen included parts, P (cataloguePart p) := by
    intro P
    simp only [hlisted]
    constructor
    · intro h
      obtain ⟨e, ⟨p, hp, rfl⟩, he⟩ := h
      exact ⟨p, hp, he⟩
    · intro h
      obtain ⟨p, hp, he⟩ := h
      exact ⟨_, ⟨p, hp, rfl⟩, he⟩
  have hids : catalogue.parts.map (fun e => e.id) = (chosen included parts).map fun p => p.id :=
    List.map_map
  have hcaps : catalogue.capabilities.map (fun c => c.capability) =
      sorted (providersOf (chosen included parts)).keys := by
    change List.map _ (List.map _ _) = _
    rw [List.map_map]
    exact List.map_id _
  refine ⟨?_, ?_, ?_, ?_, ?_, ?_, ?_, nodup_sorted _, ?_⟩
  · intro parts' hp
    have hsame : buildCatalogue parts' statuses = catalogue := congrArg catalogueOf (chosen_perm hnd hp).symm
    exact ⟨hsame, congrArg renderCatalogue hsame⟩
  · rw [hids]
    exact chosen_ids
  · intro id
    rw [hids]
    exact mem_chosen_ids
  · intro e
    rw [hlisted]
    exact exists_congr fun p => and_congr_left' (mem_chosen hnd)
  · rw [hcaps]
    exact nodup_sorted _
  · intro cap
    rw [hcaps, mem_sorted, mem_providers_keys, hexists]
    exact exists_congr fun p => and_congr_right fun _ => mem_sorted.symm
  · intro c hc
    obtain ⟨-, -, hparts⟩ := mem_capabilities.mp hc
    rw [hparts]
    refine ⟨nodup_sorted _, ?_⟩
    intro id
    rw [mem_sorted, mem_providers, hexists]
    exact exists_congr fun p => and_congr_right fun _ => and_congr_left' mem_sorted.symm
  · intro flag
    change flag ∈ sorted _ ↔ _
    rw [mem_sorted, List.mem_flatMap, hexists]
    exact exists_congr fun p => and_congr_right fun _ => mem_sorted.symm

end Canonical

def probe (version : Text) (status : PartStatus) : ListedPart ℚ where
  id := js "P-002"
  version := version
  status := status
  electrical :=
    { interface := .gpio, connector := js "hsx-3pin-v1", voltageRange := (3, 5), altInputs := none,
      currentDrawMa := ⟨0, 2⟩, requires := [], conflicts := [], i2cAddress := none, logicV := some (3, 5),
      supply := none }
  software :=
    { driverPkg := none, driverVersion := none, capabilities := [js "read.temperature_c"],
      minRuntime := js ">=0.1.0" }
  unitCostUsd := none
  name := js "Probe"
  category := .physical
  exposure := .probeExternal
  environmentFlags := [js "waterproof"]

/-- Among two active versions and a draft the newer active one is listed, in either order. -/
theorem catalogue_canonical_probe :
    ((buildCatalogue [probe (js "1.10.0") .active, probe (js "2.0.0") .draft, probe (js "1.9.0") .active]
      none).parts.map fun e => e.version) = [js "1.10.0"] ∧
      renderCatalogue (buildCatalogue
        [probe (js "1.9.0") .active, probe (js "1.10.0") .active, probe (js "2.0.0") .draft] none) =
      renderCatalogue (buildCatalogue
        [probe (js "1.10.0") .active, probe (js "2.0.0") .draft, probe (js "1.9.0") .active] none) := by
  refine ⟨by decide +kernel, ?_⟩
  refine ((catalogue_canonical none ?_).1 _ ?_).2
  · decide +kernel
  · exact (List.perm_append_comm : ([_, _] ++ [probe (js "1.9.0") .active]).Perm _)

end Albusforge.Registry
