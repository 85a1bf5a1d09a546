import Albusforge.Matcher.Constraints

/-!
# What it means that `checkParts` finds nothing

`checkParts` returns a list of failures. Here the empty list is spelled out as the
conditions it stands for, so that no later proof looks inside the loop:
`checkParts_eq_nil` for a whole selection, and `checkPartsFrom_filter` for the
failures that are not about `requires`, which a larger selection cannot repair.
-/

namespace Albusforge.Matcher

open Lib JsNumber

variable {ν : Type} [JsNumber ν]

/-- Every `requires` of the part is provided, buses and pins by the brain itself. -/
structure NeedsMet (parts : List (PartDefinition ν)) (brain part : PartDefinition ν) : Prop where
  provided : ∀ need ∈ part.electrical.requires, need ∈ capabilitiesOf parts
  hosted : ∀ need ∈ part.electrical.requires, hostCapability need = true →
    need ∈ brain.software.capabilities

structure PartSound (parts : List (PartDefinition ν)) (brain : PartDefinition ν)
    (input : SolveInput ν) (addresses : List Text) (part : PartDefinition ν) : Prop where
  compatible : ∀ conflict ∈ part.electrical.conflicts, ∀ p ∈ parts, p.id ≠ conflict
  address : ∀ a, part.electrical.i2cAddress = some a → a ≠ [] → a ∉ addresses
  runtime : satisfiesRuntime input.spec.runtime part.software.minRuntime = true
  driver : compiled input brain part = true
  logic : logicFits brain part = true
  connector : ∃ c, findConnector input part.electrical.connector = some c ∧
    part.electrical.interface ∈ c.interfaces

omit [JsNumber ν] in
theorem checkNeed_eq_nil {parts : List (PartDefinition ν)} {brain part : PartDefinition ν} :
    part.electrical.requires.flatMap (checkNeed parts brain part) = [] ↔
      NeedsMet parts brain part := by
  rw [List.flatMap_eq_nil_iff]
  unfold checkNeed
  simp only [List.append_eq_nil_iff, failUnless_eq_nil, List.contains_eq_mem, decide_eq_true_eq,
    Bool.not_eq_true', Bool.and_eq_false_imp, Bool.not_eq_false']
  constructor
  · intro h
    exact ⟨fun n hn => (h n hn).1, fun n hn hh => (h n hn).2 hh⟩
  · intro h n hn
    exact ⟨h.provided n hn, fun hh => h.hosted n hn hh⟩

omit [JsNumber ν] in
theorem mem_checkNeed {parts : List (PartDefinition ν)} {brain part : PartDefinition ν}
    {f : Failure} (h : f ∈ part.electrical.requires.flatMap (checkNeed parts brain part)) :
    f.constraint = .requires := by
  obtain ⟨need, _, hneed⟩ := List.mem_flatMap.mp h
  rcases List.mem_append.mp hneed with h | h
  · exact mem_failUnless h
  · exact mem_failUnless h

theorem mem_checkRest {parts : List (PartDefinition ν)} {brain part : PartDefinition ν}
    {input : SolveInput ν} {addresses : List Text} {f : Failure}
    (h : f ∈ checkRest parts brain input addresses part) : f.constraint ≠ .requires := by
  unfold checkRest at h
  simp only [List.mem_append, List.mem_flatMap] at h
  rcases h with ((((⟨_, _, h⟩ | ⟨_, _, h⟩) | h) | h) | h) | h
  all_goals rw [mem_failUnless h]; simp

theorem checkRest_eq_nil {parts : List (PartDefinition ν)} {brain part : PartDefinition ν}
    {input : SolveInput ν} {addresses : List Text} :
    checkRest parts brain input addresses part = [] ↔
      PartSound parts brain input addresses part := by
  unfold checkRest
  simp only [List.append_eq_nil_iff, List.flatMap_eq_nil_iff, failUnless_eq_nil]
  constructor
  · rintro ⟨⟨⟨⟨⟨h1, h2⟩, h3⟩, h4⟩, h5⟩, h6⟩
    refine ⟨?_, ?_, h3, h4, h5, ?_⟩
    · intro conflict hc p hp heq
      have := h1 conflict hc
      simp only [Bool.not_eq_true', List.any_eq_false, beq_iff_eq] at this
      exact this p hp heq
    · intro a ha hne hmem
      have := h2 a (by simp [ha])
      simp [hne, hmem] at this
    · obtain ⟨c, hc, hi⟩ := (Option.any_eq_true _ _).mp h6
      exact ⟨c, hc, by simpa using hi⟩
  · intro h
    refine ⟨⟨⟨⟨⟨?_, ?_⟩, h.runtime⟩, h.driver⟩, h.logic⟩, ?_⟩
    · intro conflict hc
      simp only [Bool.not_eq_true', List.any_eq_false, beq_iff_eq]
      exact fun p hp => h.compatible conflict hc p hp
    · intro a ha
      have ha' : part.electrical.i2cAddress = some a := by simpa using ha
      by_cases hne : a = []
      · simp [hne]
      · simpa [hne] using h.address a ha' hne
    · obtain ⟨c, hc, hi⟩ := h.connector
      exact (Option.any_eq_true _ _).mpr ⟨c, hc, by simpa using hi⟩

def AllSound (parts : List (PartDefinition ν)) (brain : PartDefinition ν) (input : SolveInput ν) :
    List Text → List (PartDefinition ν) → Prop
  | _, [] => True
  | addresses, part :: rest =>
      PartSound parts brain input addresses part ∧
        AllSound parts brain input (addAddress addresses part) rest

/-- **The failures that no larger selection can repair.** -/
theorem checkPartsFrom_filter {parts : List (PartDefinition ν)} {brain : PartDefinition ν}
    {input : SolveInput ν} : ∀ (l : List (PartDefinition ν)) (addresses : List Text),
    (checkPartsFrom parts brain input addresses l).filter (fun f => f.constraint != .requires) = []
      ↔ AllSound parts brain input addresses l
  | [], addresses => by simp [checkPartsFrom, AllSound]
  | part :: rest, addresses => by
      have hneeds : (part.electrical.requires.flatMap (checkNeed parts brain part)).filter
          (fun f => f.constraint != .requires) = [] := by
        rw [List.filter_eq_nil_iff]
        intro f hf
        simp [mem_checkNeed hf]
      have hrest : (checkRest parts brain input addresses part).filter
          (fun f => f.constraint != .requires) = checkRest parts brain input addresses part := by
        rw [List.filter_eq_self]
        intro f hf
        simpa using mem_checkRest hf
      rw [checkPartsFrom, checkPart, List.filter_append, List.filter_append, hneeds, hrest,
        List.nil_append, List.append_eq_nil_iff, checkRest_eq_nil,
        checkPartsFrom_filter rest, AllSound]

theorem checkPartsFrom_eq_nil {parts : List (PartDefinition ν)} {brain : PartDefinition ν}
    {input : SolveInput ν} : ∀ (l : List (PartDefinition ν)) (addresses : List Text),
    checkPartsFrom parts brain input addresses l = [] ↔
      (∀ p ∈ l, NeedsMet parts brain p) ∧ AllSound parts brain input addresses l
  | [], addresses => by simp [checkPartsFrom, AllSound]
  | part :: rest, addresses => by
      rw [checkPartsFrom, checkPart, List.append_eq_nil_iff, List.append_eq_nil_iff,
        checkNeed_eq_nil, checkRest_eq_nil, checkPartsFrom_eq_nil rest, AllSound,
        List.forall_mem_cons]
      tauto

/-! ## The loop, without its accumulator -/

def AddressFree (p q : PartDefinition ν) : Prop :=
  ∀ a, p.electrical.i2cAddress = some a → a ≠ [] → q.electrical.i2cAddress ≠ some a

omit [JsNumber ν] in
theorem mem_addAddress {addresses : List Text} {part : PartDefinition ν} {a : Text} :
    a ∈ addAddress addresses part ↔
      a ∈ addresses ∨ (part.electrical.i2cAddress = some a ∧ a ≠ []) := by
  unfold addAddress
  cases part.electrical.i2cAddress with
  | none => simp
  | some b =>
      by_cases hb : b = []
      · subst hb
        simp only [bne_self_eq_false, Bool.false_eq_true, if_false, Option.some.injEq]
        constructor
        · exact Or.inl
        · rintro (h | ⟨h, hne⟩)
          · exact h
          · exact absurd h.symm hne
      · simp only [bne_iff_ne, ne_eq, hb, not_false_eq_true, if_true, List.mem_cons,
          Option.some.injEq]
        constructor
        · rintro (rfl | h)
          · exact Or.inr ⟨rfl, hb⟩
          · exact Or.inl h
        · rintro (h | ⟨rfl, _⟩)
          · exact Or.inr h
          · exact Or.inl rfl

theorem partSound_iff {parts : List (PartDefinition ν)} {brain part : PartDefinition ν}
    {input : SolveInput ν} {addresses : List Text} :
    PartSound parts brain input addresses part ↔
      PartSound parts brain input [] part ∧
        ∀ a, part.electrical.i2cAddress = some a → a ≠ [] → a ∉ addresses :=
  ⟨fun h => ⟨⟨h.compatible, by simp, h.runtime, h.driver, h.logic, h.connector⟩, h.address⟩,
    fun ⟨h, ha⟩ => ⟨h.compatible, ha, h.runtime, h.driver, h.logic, h.connector⟩⟩

theorem allSound_iff {parts : List (PartDefinition ν)} {brain : PartDefinition ν}
    {input : SolveInput ν} : ∀ (l : List (PartDefinition ν)) (addresses : List Text),
    AllSound parts brain input addresses l ↔
      (∀ p ∈ l, PartSound parts brain input [] p) ∧ l.Pairwise AddressFree ∧
        ∀ p ∈ l, ∀ a, p.electrical.i2cAddress = some a → a ≠ [] → a ∉ addresses
  | [], addresses => by simp [AllSound]
  | part :: rest, addresses => by
      rw [AllSound, partSound_iff, allSound_iff rest, List.pairwise_cons, List.forall_mem_cons,
        List.forall_mem_cons]
      simp only [mem_addAddress, not_or, not_and]
      constructor
      · rintro ⟨⟨h1, h2⟩, h3, h4, h5⟩
        refine ⟨⟨h1, h3⟩, ⟨?_, h4⟩, h2, fun p hp a ha hne => (h5 p hp a ha hne).1⟩
        intro p hp a ha hne hpa
        exact (h5 p hp a hpa hne).2 ha hne
      · rintro ⟨⟨h1, h3⟩, ⟨h6, h4⟩, h2, h5⟩
        refine ⟨⟨h1, h2⟩, h3, h4, fun p hp a ha hne => ⟨h5 p hp a ha hne, ?_⟩⟩
        intro hpart hne'
        exact h6 p hp a hpart hne' ha

/-- What `checkParts` requires of a selection. -/
structure PartsOk (parts : List (PartDefinition ν)) (brain : PartDefinition ν)
    (input : SolveInput ν) : Prop where
  needs : ∀ p ∈ parts, NeedsMet parts brain p
  sound : ∀ p ∈ parts, PartSound parts brain input [] p
  addresses : parts.Pairwise AddressFree

theorem checkParts_eq_nil {parts : List (PartDefinition ν)} {brain : PartDefinition ν}
    {input : SolveInput ν} : checkParts parts brain input = [] ↔ PartsOk parts brain input := by
  rw [checkParts, checkPartsFrom_eq_nil, allSound_iff]
  constructor
  · rintro ⟨h1, h2, h3, _⟩
    exact ⟨h1, h2, h3⟩
  · rintro ⟨h1, h2, h3⟩
    exact ⟨h1, h2, h3, by simp⟩

theorem checkParts_filter_of_sublist {parts base : List (PartDefinition ν)}
    {brain : PartDefinition ν} {input : SolveInput ν} (hsub : base.Sublist parts)
    (h : PartsOk parts brain input) :
    (checkParts base brain input).filter (fun f => f.constraint != .requires) = [] := by
  rw [checkParts, checkPartsFrom_filter, allSound_iff]
  refine ⟨?_, h.addresses.sublist hsub, by simp⟩
  intro p hp
  have hs := h.sound p (hsub.subset hp)
  exact ⟨fun c hc q hq => hs.compatible c hc q (hsub.subset hq), hs.address, hs.runtime,
    hs.driver, hs.logic, hs.connector⟩

end Albusforge.Matcher
