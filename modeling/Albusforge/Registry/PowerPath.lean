import Mathlib
import Albusforge.Lib.Sorting
import Albusforge.Matcher.Types

/-!
# The power path of a golden build

`registry/scripts/lib/power.ts` and `packages/schema/src/electrical.ts`. A golden build
names the capability that powers it and the brain input that is wired to it.
`checkPowerPath` looks for one way to do that in which every value the build needs comes
from a part that stays powered, lowest part ids first.

What it should find is stated on parts alone: `Feeds` and `Runs` say when a supply keeps a
brain or a peripheral powered, and `Feasible` says that a supply and a brain serve the
whole build. **The check finds the least feasible pair, or there is none.**
-/

namespace Albusforge.Registry

open Lib Matcher

/-! ## The code -/

section Code

variable {ν : Type} [JsNumber ν]

open JsNumber

/-- The window over which `source` can feed `input`, if it can. -/
def usableWindow (source input : ν × ν) : Option (ν × ν) :=
  if gt source.2 input.2 then none
  else
    let low := max source.1 input.1
    if le low source.2 then some (low, source.2) else none

structure PowerPath where
  supply : Text
  brainInput : Text

structure GoldenBuild where
  requires : List Text
  power : PowerPath

structure PeripheralPower (ν : Type) where
  capability : Text
  part : Text
  rail : Text
  window : ν × ν
  deriving DecidableEq

structure PowerAssignment (ν : Type) where
  supply : Text
  brain : Text
  brainInput : Text
  window : ν × ν
  peripherals : List (PeripheralPower ν)
  deriving DecidableEq

inductive PowerCheck (ν : Type) where
  | ok (assignment : PowerAssignment ν)
  | failed (problems : List Text)
  deriving DecidableEq

def byId (a b : PartDefinition ν) : Ordering := compareText a.id b.id

def volts (w : ν × ν) : Text := toText w.1 ++ js "–" ++ toText w.2 ++ js " V"

def provides (p : PartDefinition ν) (capability : Text) : Bool := p.software.capabilities.contains capability

def power5v : Text := js "power.5v"

def supplies (build : GoldenBuild) (parts : List (PartDefinition ν)) : List (PartDefinition ν × (ν × ν)) :=
  sortBy (fun a b => byId a.1 b.1)
    ((parts.filter (provides · build.power.supply)).filterMap fun p =>
      p.electrical.supply.map fun supply => (p, supply.outputV))

def brains (parts : List (PartDefinition ν)) : List (PartDefinition ν) :=
  sortBy byId (parts.filter (·.electrical.interface == .host))

def needs (build : GoldenBuild) : List Text := build.requires.filter isValueCapability

def candidates (parts : List (PartDefinition ν)) (capability : Text) : List (PartDefinition ν) :=
  sortBy byId (parts.filter (provides · capability))

def brainInput (build : GoldenBuild) (brain : PartDefinition ν) : Option (ν × ν) :=
  if build.power.brainInput = js "primary" then some brain.electrical.voltageRange
  else ((brain.electrical.altInputs.getD []).find? (·.name == build.power.brainInput)).map (·.voltageRange)

def fromSupply (p : PartDefinition ν) : Bool := p.electrical.requires.contains power5v

def railOf (supply : PartDefinition ν) (output : ν × ν) (brain p : PartDefinition ν) : Option (ν × ν) :=
  if fromSupply p then if provides supply power5v then some output else none
  else brain.electrical.supply.map (·.outputV)

def powered (supply : PartDefinition ν) (output : ν × ν) (brain : PartDefinition ν) (capability : Text)
    (p : PartDefinition ν) : Option (PeripheralPower ν) :=
  ((railOf supply output brain p).bind (usableWindow · p.electrical.voltageRange)).map fun window =>
    { capability, part := p.id, rail := if fromSupply p then supply.id else brain.id ++ js " rail", window }

def assign (parts : List (PartDefinition ν)) (supply : PartDefinition ν) (output : ν × ν)
    (brain : PartDefinition ν) : List Text → List (PeripheralPower ν) × List Text
  | [] => ([], [])
  | capability :: rest =>
      let found := assign parts supply output brain rest
      match candidates parts capability with
      | [] => found
      | providers =>
          match providers.findSome? (powered supply output brain capability) with
          | some peripheral => (peripheral :: found.1, found.2)
          | none =>
              (found.1, (js "no part providing " ++ capability ++ js " runs from " ++ supply.id ++ js " or " ++
                brain.id ++ js "'s rail") :: found.2)

def attempt (build : GoldenBuild) (parts : List (PartDefinition ν)) (supply : PartDefinition ν)
    (output : ν × ν) (brain : PartDefinition ν) : Except (List Text) (PowerAssignment ν) :=
  match brainInput build brain with
  | none => .error [brain.id ++ js " has no \"" ++ build.power.brainInput ++ js "\" input"]
  | some input =>
      match usableWindow output input with
      | none =>
          .error [supply.id ++ js " (" ++ volts output ++ js ") can't feed " ++ brain.id ++ js " " ++
            build.power.brainInput ++ js " (" ++ volts input ++ js ")"]
      | some window =>
          match assign parts supply output brain (needs build) with
          | (peripherals, []) =>
              .ok { supply := supply.id, brain := brain.id, brainInput := build.power.brainInput,
                    window, peripherals }
          | (_, problems) => .error problems

def firstAssignment (build : GoldenBuild) (parts : List (PartDefinition ν)) :
    List ((PartDefinition ν × (ν × ν)) × PartDefinition ν) → List Text → PowerCheck ν
  | [], problems => .failed problems.eraseDups
  | (supply, brain) :: rest, problems =>
      match attempt build parts supply.1 supply.2 brain with
      | .ok assignment => .ok assignment
      | .error more => firstAssignment build parts rest (problems ++ more)

def checkPowerPath (build : GoldenBuild) (parts : List (PartDefinition ν)) : PowerCheck ν :=
  let missing := (if supplies build parts = [] then [js "no part supplies " ++ build.power.supply] else []) ++
    (if brains parts = [] then [js "no host part"] else [])
  firstAssignment build parts ((supplies build parts).flatMap fun s => (brains parts).map (s, ·)) missing

end Code

/-! ## What it should find -/

def Inside (w v : ℚ × ℚ) : Prop := v.1 ≤ w.1 ∧ w.2 ≤ v.2

theorem usableWindow_eq_some {source input w : ℚ × ℚ} :
    usableWindow source input = some w ↔
      source.2 ≤ input.2 ∧ max source.1 input.1 ≤ source.2 ∧ w = (max source.1 input.1, source.2) := by
  unfold usableWindow
  simp only [rat_gt, rat_max, rat_le, decide_eq_true_eq]
  split_ifs with hover hlow
  · simp [not_le.mpr hover]
  · simp [not_lt.mp hover, hlow, eq_comm]
  · simp [hlow]

theorem usableWindow_inside {source input w : ℚ × ℚ} (h : usableWindow source input = some w) :
    w.1 ≤ w.2 ∧ Inside w source ∧ Inside w input := by
  obtain ⟨hover, hlow, rfl⟩ := usableWindow_eq_some.mp h
  exact ⟨hlow, ⟨le_max_left _ _, le_rfl⟩, ⟨le_max_right _ _, hover⟩⟩

/-- `s` supplies the build and keeps `b` powered through the input the build names, over the window `w`. -/
structure Feeds (build : GoldenBuild) (s b : PartDefinition ℚ) (out inp w : ℚ × ℚ) : Prop where
  supplies : build.power.supply ∈ s.software.capabilities
  output : s.electrical.supply.map (·.outputV) = some out
  host : b.electrical.interface = .host
  input : brainInput build b = some inp
  window : usableWindow out inp = some w

/-- `p` stays powered next to the supply `s` and the brain `b`: it runs from `rail`, over the window `w`. -/
structure Runs (s b : PartDefinition ℚ) (out : ℚ × ℚ) (p : PartDefinition ℚ) (rail w : ℚ × ℚ) : Prop where
  fromRail : if power5v ∈ p.electrical.requires then power5v ∈ s.software.capabilities ∧ rail = out
    else b.electrical.supply.map (·.outputV) = some rail
  window : usableWindow rail p.electrical.voltageRange = some w

def Provided (parts : List (PartDefinition ℚ)) (capability : Text) : Prop :=
  ∃ p ∈ parts, capability ∈ p.software.capabilities

instance (parts : List (PartDefinition ℚ)) (capability : Text) : Decidable (Provided parts capability) := by
  unfold Provided
  infer_instance

def Served (parts : List (PartDefinition ℚ)) (s b : PartDefinition ℚ) (out : ℚ × ℚ) (capability : Text) : Prop :=
  ∃ p ∈ parts, capability ∈ p.software.capabilities ∧ ∃ rail w, Runs s b out p rail w

/-- **`s` and `b` power the whole build**: every value it needs comes from a part that stays powered,
if from any. -/
def Feasible (build : GoldenBuild) (parts : List (PartDefinition ℚ)) (s b : PartDefinition ℚ) : Prop :=
  ∃ out inp w, Feeds build s b out inp w ∧
    ∀ capability ∈ build.requires, isValueCapability capability = true → Provided parts capability →
      Served parts s b out capability

def Assigned (parts : List (PartDefinition ℚ)) (s b : PartDefinition ℚ) (out : ℚ × ℚ) (capability : Text)
    (x : PeripheralPower ℚ) : Prop :=
  x.capability = capability ∧ ∃ p ∈ parts, x.part = p.id ∧ capability ∈ p.software.capabilities ∧
    (∃ rail, Runs s b out p rail x.window ∧ x.window.1 ≤ x.window.2 ∧ Inside x.window rail ∧
      Inside x.window p.electrical.voltageRange) ∧
    ∀ q ∈ parts, capability ∈ q.software.capabilities → (∃ rail w, Runs s b out q rail w) → p.id ≤ q.id

structure Reported (build : GoldenBuild) (parts : List (PartDefinition ℚ)) (s b : PartDefinition ℚ)
    (a : PowerAssignment ℚ) : Prop where
  supply : a.supply = s.id
  brain : a.brain = b.id
  brainInput : a.brainInput = build.power.brainInput
  windows : ∃ out inp, Feeds build s b out inp a.window ∧ a.window.1 ≤ a.window.2 ∧ Inside a.window out ∧
    Inside a.window inp ∧
    List.Forall₂ (Assigned parts s b out) ((needs build).filter fun c => decide (Provided parts c)) a.peripherals

/-! ## One need, one pair, all pairs -/

section Search

variable {build : GoldenBuild} {parts : List (PartDefinition ℚ)} {s b p : PartDefinition ℚ} {out : ℚ × ℚ}

theorem mem_candidates {capability : Text} :
    p ∈ candidates parts capability ↔ p ∈ parts ∧ capability ∈ p.software.capabilities := by
  simp [candidates, provides]

theorem candidates_sorted (parts : List (PartDefinition ℚ)) (capability : Text) :
    (candidates parts capability).Pairwise fun p q => p.id ≤ q.id :=
  sortBy_pairwise (compareText_on fun p : PartDefinition ℚ => p.id) _

theorem railOf_eq_some {rail : ℚ × ℚ} :
    railOf s out b p = some rail ↔
      if power5v ∈ p.electrical.requires then power5v ∈ s.software.capabilities ∧ rail = out
      else b.electrical.supply.map (·.outputV) = some rail := by
  unfold railOf fromSupply provides
  simp only [List.contains_iff_mem]
  split_ifs with hfive hprovides
  · simp [hprovides, eq_comm]
  · simp [hprovides]
  · rfl

theorem powered_eq_some {capability : Text} {x : PeripheralPower ℚ} :
    powered s out b capability p = some x ↔
      ∃ rail w, Runs s b out p rail w ∧
        x = ⟨capability, p.id, if fromSupply p then s.id else b.id ++ js " rail", w⟩ := by
  unfold powered
  rw [Option.map_eq_some_iff]
  constructor
  · intro h
    obtain ⟨w, hw, rfl⟩ := h
    obtain ⟨rail, hrail, hwindow⟩ := Option.bind_eq_some_iff.mp hw
    exact ⟨rail, w, ⟨railOf_eq_some.mp hrail, hwindow⟩, rfl⟩
  · intro h
    obtain ⟨rail, w, hruns, rfl⟩ := h
    exact ⟨w, Option.bind_eq_some_iff.mpr ⟨rail, railOf_eq_some.mpr hruns.fromRail, hruns.window⟩, rfl⟩

theorem powered_ne_none {capability : Text} :
    powered s out b capability p ≠ none ↔ ∃ rail w, Runs s b out p rail w := by
  rw [Option.ne_none_iff_exists']
  constructor
  · intro h
    obtain ⟨x, hx⟩ := h
    obtain ⟨rail, w, hruns, -⟩ := powered_eq_some.mp hx
    exact ⟨rail, w, hruns⟩
  · intro h
    obtain ⟨rail, w, hruns⟩ := h
    exact ⟨_, powered_eq_some.mpr ⟨rail, w, hruns, rfl⟩⟩

theorem findSome?_assigned {capability : Text} {x : PeripheralPower ℚ}
    (h : (candidates parts capability).findSome? (powered s out b capability) = some x) :
    Assigned parts s b out capability x := by
  obtain ⟨p, hp, hx, hleast⟩ := findSome?_least (candidates_sorted parts capability) h
  obtain ⟨rail, w, hruns, rfl⟩ := powered_eq_some.mp hx
  obtain ⟨hmem, hcap⟩ := mem_candidates.mp hp
  refine ⟨rfl, p, hmem, rfl, hcap, ⟨rail, hruns, usableWindow_inside hruns.window⟩, ?_⟩
  intro q hq hqcap hqruns
  exact hleast q (mem_candidates.mpr ⟨hq, hqcap⟩) (powered_ne_none.mpr hqruns)

theorem findSome?_served {capability : Text} :
    (candidates parts capability).findSome? (powered s out b capability) ≠ none ↔
      Served parts s b out capability := by
  rw [ne_eq, List.findSome?_eq_none_iff, not_forall]
  unfold Served
  constructor
  · intro h
    obtain ⟨p, hp⟩ := h
    rw [Classical.not_imp] at hp
    obtain ⟨hmem, hcap⟩ := mem_candidates.mp hp.1
    exact ⟨p, hmem, hcap, powered_ne_none.mp hp.2⟩
  · intro h
    obtain ⟨p, hmem, hcap, hruns⟩ := h
    exact ⟨p, fun hnone => powered_ne_none.mpr hruns (hnone (mem_candidates.mpr ⟨hmem, hcap⟩))⟩

theorem candidates_eq_nil {capability : Text} : candidates parts capability = [] ↔ ¬ Provided parts capability := by
  rw [List.eq_nil_iff_forall_not_mem]
  unfold Provided
  simp only [mem_candidates, not_exists, not_and]

theorem assign_spec (parts : List (PartDefinition ℚ)) (s b : PartDefinition ℚ) (out : ℚ × ℚ) :
    ∀ capabilities : List Text,
      ((assign parts s out b capabilities).2 = [] ↔
        ∀ c ∈ capabilities, Provided parts c → Served parts s b out c) ∧
      ((assign parts s out b capabilities).2 = [] →
        List.Forall₂ (Assigned parts s b out) (capabilities.filter fun c => decide (Provided parts c))
          (assign parts s out b capabilities).1)
  | [] => by simp [assign]
  | c :: rest => by
      obtain ⟨hiff, hassigned⟩ := assign_spec parts s b out rest
      unfold assign
      dsimp only
      split
      · next hnone =>
        -- Nobody provides it: the need is skipped.
        have hprovided := candidates_eq_nil.mp hnone
        rw [List.filter_cons_of_neg (by simpa using hprovided)]
        refine ⟨?_, hassigned⟩
        rw [hiff, List.forall_mem_cons]
        exact ⟨fun h => ⟨fun hp => absurd hp hprovided, h⟩, fun h => h.2⟩
      · next hsome =>
        have hprovided : Provided parts c := by
          by_contra hno
          exact hsome (candidates_eq_nil.mpr hno)
        rw [List.filter_cons_of_pos (by simpa using hprovided)]
        cases hfind : (candidates parts c).findSome? (powered s out b c) with
        | none =>
          have hserved : ¬ Served parts s b out c := fun h => findSome?_served.mpr h hfind
          simp only [reduceCtorEq, IsEmpty.forall_iff, and_true, false_iff, not_forall]
          exact ⟨c, by simp, hprovided, hserved⟩
        | some x =>
          have hserved : Served parts s b out c := findSome?_served.mp (by rw [hfind]; simp)
          dsimp only
          refine ⟨?_, fun h => .cons (findSome?_assigned hfind) (hassigned h)⟩
          rw [hiff, List.forall_mem_cons]
          exact ⟨fun h => ⟨fun _ => hserved, h⟩, fun h => h.2⟩

theorem needs_served :
    (∀ c ∈ needs build, Provided parts c → Served parts s b out c) ↔
      ∀ c ∈ build.requires, isValueCapability c = true → Provided parts c → Served parts s b out c := by
  simp only [needs, List.mem_filter, and_imp]

/-- **One supply and one brain succeed exactly when they power the build.** -/
theorem attempt_spec (hs : build.power.supply ∈ s.software.capabilities)
    (hout : s.electrical.supply.map (·.outputV) = some out) (hb : b.electrical.interface = .host) :
    ((∃ a, attempt build parts s out b = .ok a) ↔ Feasible build parts s b) ∧
      ∀ a, attempt build parts s out b = .ok a → Reported build parts s b a := by
  obtain ⟨hiff, hassigned⟩ := assign_spec parts s b out (needs build)
  rw [needs_served] at hiff
  unfold attempt
  cases hinput : brainInput build b with
  | none =>
    refine ⟨⟨by simp, ?_⟩, by simp⟩
    intro h
    obtain ⟨out', inp, w, hfeeds, -⟩ := h
    exact absurd (hinput.symm.trans hfeeds.input) (by simp)
  | some inp =>
    dsimp only
    cases hwindow : usableWindow out inp with
    | none =>
      refine ⟨⟨by simp, ?_⟩, by simp⟩
      intro h
      obtain ⟨out', inp', w, hfeeds, -⟩ := h
      obtain rfl : inp = inp' := Option.some.inj (hinput.symm.trans hfeeds.input)
      obtain rfl : out = out' := Option.some.inj (hout.symm.trans hfeeds.output)
      exact absurd (hwindow.symm.trans hfeeds.window) (by simp)
    | some w =>
      dsimp only
      have hfeeds : Feeds build s b out inp w := ⟨hs, hout, hb, hinput, hwindow⟩
      cases hassign : assign parts s out b (needs build) with
      | mk peripherals problems =>
        rw [hassign] at hiff hassigned
        cases problems with
        | cons problem more =>
          refine ⟨⟨by simp, ?_⟩, by simp⟩
          intro h
          obtain ⟨out', inp', w', hfeeds', hserved⟩ := h
          obtain rfl : out = out' := Option.some.inj (hout.symm.trans hfeeds'.output)
          exact absurd (hiff.mpr hserved) (by simp)
        | nil =>
          refine ⟨⟨fun _ => ⟨out, inp, w, hfeeds, hiff.mp rfl⟩, fun _ => ⟨_, rfl⟩⟩, ?_⟩
          intro a ha
          obtain rfl := Except.ok.inj ha
          obtain ⟨hne, hout', hinp'⟩ := usableWindow_inside hwindow
          exact ⟨rfl, rfl, rfl, out, inp, hfeeds, hne, hout', hinp', hassigned rfl⟩

theorem firstAssignment_ok {a : PowerAssignment ℚ} :
    ∀ (pairs : List ((PartDefinition ℚ × (ℚ × ℚ)) × PartDefinition ℚ)) (problems : List Text),
      firstAssignment build parts pairs problems = .ok a ↔
        pairs.findSome? (fun x => (attempt build parts x.1.1 x.1.2 x.2).toOption) = some a
  | [], problems => by simp [firstAssignment]
  | (supply, brain) :: rest, problems => by
      unfold firstAssignment
      rw [List.findSome?_cons]
      cases attempt build parts supply.1 supply.2 brain with
      | error more => exact firstAssignment_ok rest (problems ++ more)
      | ok a' => simp [Except.toOption]

theorem mem_supplies : (s, out) ∈ supplies build parts ↔
    s ∈ parts ∧ build.power.supply ∈ s.software.capabilities ∧
      s.electrical.supply.map (·.outputV) = some out := by
  unfold supplies provides
  simp only [mem_sortBy, List.mem_filterMap, List.mem_filter, List.contains_iff_mem,
    Option.map_eq_some_iff, Prod.mk.injEq]
  constructor
  · intro h
    obtain ⟨p, ⟨hp, hcap⟩, supply, hsupply, rfl, rfl⟩ := h
    exact ⟨hp, hcap, supply, hsupply, rfl⟩
  · intro h
    obtain ⟨hp, hcap, supply, hsupply, rfl⟩ := h
    exact ⟨s, ⟨hp, hcap⟩, supply, hsupply, rfl, rfl⟩

theorem mem_brains : b ∈ brains parts ↔ b ∈ parts ∧ b.electrical.interface = .host := by
  simp [brains]

/-! ## The check -/

theorem supplies_separates (hnd : (parts.map (·.id)).Nodup) :
    Separates (fun x : PartDefinition ℚ × (ℚ × ℚ) => x.1.id) (supplies build parts) := by
  intro x hx y hy hid
  obtain ⟨s, out⟩ := x
  obtain ⟨s', out'⟩ := y
  obtain ⟨hs, -, hout⟩ := mem_supplies.mp hx
  obtain ⟨hs', -, hout'⟩ := mem_supplies.mp hy
  obtain rfl := Separates.of_nodup hnd s hs s' hs' hid
  obtain rfl : out = out' := Option.some.inj (hout.symm.trans hout')
  rfl

theorem supplies_sorted (hnd : (parts.map (·.id)).Nodup) :
    (supplies build parts).Pairwise fun x y => x.1.id < y.1.id := by
  have hle : (supplies build parts).Pairwise fun x y => x.1.id ≤ y.1.id :=
    sortBy_pairwise (compareText_on fun x : PartDefinition ℚ × (ℚ × ℚ) => x.1.id) _
  have hnodup : (supplies build parts).Nodup := by
    refine (sortBy_perm _ _).nodup_iff.mpr (List.Nodup.filterMap ?_ ((List.Nodup.of_map _ hnd).filter _))
    intro p p' x hx hx'
    obtain ⟨_, _, rfl⟩ := Option.map_eq_some_iff.mp hx
    obtain ⟨_, _, heq⟩ := Option.map_eq_some_iff.mp hx'
    exact (congrArg Prod.fst heq).symm
  exact strict_of_nodup hle (hnodup.map_on fun x hx y hy => supplies_separates hnd x hx y hy)

theorem brains_sorted (parts : List (PartDefinition ℚ)) : (brains parts).Pairwise fun p q => p.id ≤ q.id :=
  sortBy_pairwise (compareText_on fun p : PartDefinition ℚ => p.id) _

theorem toOption_eq_some {ε α : Type} {x : Except ε α} {a : α} : x.toOption = some a ↔ x = .ok a := by
  cases x <;> simp [Except.toOption]

theorem checkPowerPath_ok (hnd : (parts.map (·.id)).Nodup) {a : PowerAssignment ℚ}
    (h : checkPowerPath build parts = .ok a) :
    ∃ s ∈ parts, ∃ b ∈ parts, Feasible build parts s b ∧ Reported build parts s b a ∧
      ∀ s' ∈ parts, ∀ b' ∈ parts, Feasible build parts s' b' → toLex (s.id, b.id) ≤ toLex (s'.id, b'.id) := by
  obtain ⟨x, hx, ha, hleast⟩ := findSome?_least (pairs_pairwise (supplies_sorted hnd) (brains_sorted parts))
    ((firstAssignment_ok _ _).mp h)
  obtain ⟨⟨s, out⟩, hs, hpair⟩ := List.mem_flatMap.mp hx
  obtain ⟨b, hb, rfl⟩ := List.mem_map.mp hpair
  obtain ⟨hsmem, hscap, hsout⟩ := mem_supplies.mp hs
  obtain ⟨hbmem, hbhost⟩ := mem_brains.mp hb
  obtain ⟨hfeasible, hreported⟩ := attempt_spec hscap hsout hbhost
  have hattempt : attempt build parts s out b = .ok a := toOption_eq_some.mp ha
  refine ⟨s, hsmem, b, hbmem, hfeasible.mp ⟨a, hattempt⟩, hreported a hattempt, ?_⟩
  intro s' hs' b' hb' hfeas
  -- Another pair that powers the build is among those tried, and would have succeeded.
  obtain ⟨out', inp, w, hfeeds, _⟩ := id hfeas
  obtain ⟨a', ha'⟩ := (attempt_spec hfeeds.supplies hfeeds.output hfeeds.host).1.mpr hfeas
  have hmem : ((s', out'), b') ∈ (supplies build parts).flatMap fun x => (brains parts).map (x, ·) :=
    List.mem_flatMap.mpr ⟨(s', out'), mem_supplies.mpr ⟨hs', hfeeds.supplies, hfeeds.output⟩,
      List.mem_map.mpr ⟨b', mem_brains.mpr ⟨hb', hfeeds.host⟩, rfl⟩⟩
  exact hleast _ hmem (by dsimp only; rw [ha']; simp [Except.toOption])

theorem checkPowerPath_complete (h : ∃ s ∈ parts, ∃ b ∈ parts, Feasible build parts s b) :
    ∃ a, checkPowerPath build parts = .ok a := by
  obtain ⟨s, hs, b, hb, hfeas⟩ := h
  obtain ⟨out, inp, w, hfeeds, _⟩ := id hfeas
  obtain ⟨a, ha⟩ := (attempt_spec hfeeds.supplies hfeeds.output hfeeds.host).1.mpr hfeas
  have hsome : ((supplies build parts).flatMap fun x => (brains parts).map (x, ·)).findSome?
      (fun x => (attempt build parts x.1.1 x.1.2 x.2).toOption) ≠ none := by
    intro hnone
    have := List.findSome?_eq_none_iff.mp hnone ((s, out), b)
      (List.mem_flatMap.mpr ⟨(s, out), mem_supplies.mpr ⟨hs, hfeeds.supplies, hfeeds.output⟩,
        List.mem_map.mpr ⟨b, mem_brains.mpr ⟨hb, hfeeds.host⟩, rfl⟩⟩)
    dsimp only at this
    rw [ha] at this
    exact absurd this (by simp [Except.toOption])
  obtain ⟨a', ha'⟩ := Option.ne_none_iff_exists'.mp hsome
  exact ⟨a', (firstAssignment_ok _ _).mpr ha'⟩

theorem checkPowerPath_perm (hnd : (parts.map (·.id)).Nodup) {parts' : List (PartDefinition ℚ)}
    (hp : parts.Perm parts') : checkPowerPath build parts' = checkPowerPath build parts := by
  have hsep : Separates (fun p : PartDefinition ℚ => p.id) parts := Separates.of_nodup hnd
  have hcandidates : candidates parts' = candidates parts := by
    funext capability
    exact (sortBy_congr (compareText_on fun p : PartDefinition ℚ => p.id)
      (hsep.sublist List.filter_sublist.subset) (hp.filter _)).symm
  have hbrains : brains parts' = brains parts :=
    (sortBy_congr (compareText_on fun p : PartDefinition ℚ => p.id)
      (hsep.sublist List.filter_sublist.subset) (hp.filter _)).symm
  have hsupplies : supplies build parts' = supplies build parts := by
    refine (sortBy_congr (compareText_on fun x : PartDefinition ℚ × (ℚ × ℚ) => x.1.id) ?_
      ((hp.filter _).filterMap _)).symm
    exact (supplies_separates hnd).perm (sortBy_perm _ _)
  have hassign : ∀ s out b cs, assign parts' s out b cs = assign parts s out b cs := by
    intro s out b cs
    induction cs with
    | nil => rfl
    | cons c rest ih => unfold assign; rw [ih, hcandidates]
  have hattempt : ∀ s out b, attempt build parts' s out b = attempt build parts s out b := by
    intro s out b
    unfold attempt
    rw [hassign]
  have hfirst : ∀ pairs problems,
      firstAssignment build parts' pairs problems = firstAssignment build parts pairs problems := by
    intro pairs
    induction pairs with
    | nil => intro problems; rfl
    | cons pair rest ih =>
      intro problems
      unfold firstAssignment
      rw [hattempt]
      cases attempt build parts pair.1.1 pair.1.2 pair.2 with
      | ok a => rfl
      | error more => exact ih _
  unfold checkPowerPath
  rw [hsupplies, hbrains, hfirst]

end Search

/-- **Power-path validation.** The check is passed exactly when some supply and some brain power the
build; it then reports the least such pair, the least part for each need and windows that hold, and
the order of the parts does not matter. -/
theorem checkPowerPath_spec (build : GoldenBuild) (parts : List (PartDefinition ℚ))
    (hnd : (parts.map (·.id)).Nodup) :
    ((∃ a, checkPowerPath build parts = .ok a) ↔ ∃ s ∈ parts, ∃ b ∈ parts, Feasible build parts s b) ∧
    (∀ a, checkPowerPath build parts = .ok a →
      ∃ s ∈ parts, ∃ b ∈ parts, Feasible build parts s b ∧ Reported build parts s b a ∧
        ∀ s' ∈ parts, ∀ b' ∈ parts, Feasible build parts s' b' →
          toLex (s.id, b.id) ≤ toLex (s'.id, b'.id)) ∧
    ∀ parts', parts.Perm parts' → checkPowerPath build parts' = checkPowerPath build parts := by
  refine ⟨⟨?_, checkPowerPath_complete⟩, fun a => checkPowerPath_ok hnd, fun parts' => checkPowerPath_perm hnd⟩
  intro h
  obtain ⟨a, ha⟩ := h
  obtain ⟨s, hs, b, hb, hfeas, -⟩ := checkPowerPath_ok hnd ha
  exact ⟨s, hs, b, hb, hfeas⟩

namespace Bench

def board (id : Text) (interface : PartInterface) (range : ℚ × ℚ) (supply : Option (ℚ × ℚ))
    (capabilities : List Text) : PartDefinition ℚ where
  id := id
  version := js "1.0.0"
  status := .active
  electrical :=
    { interface, connector := js "pads-v1", voltageRange := range,
      altInputs := some [{ name := js "5v-pin", voltageRange := (368 / 100, 11 / 2) }],
      currentDrawMa := { idle := 0, active := 10 }, requires := [], conflicts := [], i2cAddress := none,
      logicV := none, supply := supply.map fun v => { outputV := v, maxOutputMa := 500, capacityMah := none } }
  software := { driverPkg := none, driverVersion := none, capabilities, minRuntime := js ">=0.1.0" }
  unitCostUsd := none

def fridge : GoldenBuild where
  requires := [js "read.temperature_c", js "power.battery"]
  power := { supply := js "power.battery", brainInput := js "5v-pin" }

def catalogue : List (PartDefinition ℚ) :=
  [board (js "P-001") .i2c (24 / 10, 55 / 10) none [js "read.temperature_c"],
    board (js "C-001") .host (5, 5) (some (3251 / 1000, 3349 / 1000)) [js "net.wifi"],
    board (js "E-001") .power (25 / 10, 42 / 10) (some (25 / 10, 42 / 10)) [js "power.battery"]]

/-- Below 3.68 V the brain drops out: the window is not the cell's. -/
theorem fridge_powered :
    checkPowerPath fridge catalogue = .ok
      { supply := js "E-001", brain := js "C-001", brainInput := js "5v-pin", window := (368 / 100, 42 / 10),
        peripherals := [{ capability := js "read.temperature_c", part := js "P-001", rail := js "C-001 rail",
                          window := (3251 / 1000, 3349 / 1000) }] } ∧
    ∃ s ∈ catalogue, ∃ b ∈ catalogue, Feasible fridge catalogue s b := by
  have hrun : checkPowerPath fridge catalogue = .ok
      { supply := js "E-001", brain := js "C-001", brainInput := js "5v-pin", window := (368 / 100, 42 / 10),
        peripherals := [{ capability := js "read.temperature_c", part := js "P-001", rail := js "C-001 rail",
                          window := (3251 / 1000, 3349 / 1000) }] } := by decide +kernel
  exact ⟨hrun, (checkPowerPath_spec fridge catalogue (by decide +kernel)).1.mp ⟨_, hrun⟩⟩

end Bench

end Albusforge.Registry
