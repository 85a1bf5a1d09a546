import Mathlib.Data.List.Dedup
import Albusforge.Matcher.Conflicts
import Albusforge.Matcher.Refinement

/-!
# Every plan works

What a request demands is `demand`: the capabilities it lists, its transport, its
battery life. `solved_plans_valid` says that a plan in a solved result reports an
assembly that is valid for that demand, figure by figure: the pins, the wiring
graph, the currents, the bill of materials and the cost are the assembly's own.
-/

namespace Albusforge.Matcher

open Lib

/-! ## Demands -/

def demand (spec : SolveSpec ℚ) : Query ℚ where
  required := spec.capabilities ++ match spec.transport with
    | .none => []
    | t => [js "net." ++ t.text]
  target := spec.targetLifeDays
  firstOnly := false

theorem drop_capabilityPrefix (c : Text) : (capabilityPrefix ++ c).drop 11 = c :=
  List.drop_left' (by decide)

theorem isPrefixOf_capabilityPrefix (c : Text) :
    capabilityPrefix.isPrefixOf (capabilityPrefix ++ c) = true :=
  List.isPrefixOf_iff_prefix.mpr (List.prefix_append _ _)

/-- **The requirements of a request ask for what it demands**, sorted and once each. -/
theorem query_requirements (spec : SolveSpec ℚ) (firstOnly : Bool) :
    query spec (requirements spec) firstOnly =
      { required := caps spec, target := spec.targetLifeDays, firstOnly } := by
  have hmap : ∀ l : List Text, ((l.map (capabilityPrefix ++ ·)).filter
      (fun n => capabilityPrefix.isPrefixOf n)).map (·.drop 11) = l := by
    intro l
    rw [List.filter_eq_self.mpr (by
      intro n hn
      obtain ⟨c, _, rfl⟩ := List.mem_map.mp hn
      exact isPrefixOf_capabilityPrefix c), List.map_map]
    exact (List.map_congr_left (fun c _ => drop_capabilityPrefix c)).trans (List.map_id l)
  have hlife : js "target_life_days" ∉ (caps spec).map (capabilityPrefix ++ ·) := by
    intro hmem
    obtain ⟨c, _, hc⟩ := List.mem_map.mp hmem
    have hhead := congrArg List.head? hc
    have : (capabilityPrefix ++ c).head? = some 99 := by
      rw [List.head?_append]
      rfl
    rw [this] at hhead
    exact absurd hhead (by decide)
  unfold query requirements
  cases htarget : spec.targetLifeDays with
  | none =>
      simp only [Option.isSome_none, Bool.false_eq_true, if_false, List.append_nil, hmap,
        List.contains_eq_mem, hlife, decide_false]
  | some t =>
      have hno : capabilityPrefix.isPrefixOf (js "target_life_days") = false := by decide
      simp only [Option.isSome_some, if_true, List.filter_append, hmap,
        List.filter_cons, hno, Bool.false_eq_true, if_false, List.filter_nil, List.append_nil,
        List.contains_eq_mem, List.mem_append, List.mem_singleton, or_true,
        decide_true]

theorem mem_caps {spec : SolveSpec ℚ} {c : Text} :
    c ∈ caps spec ↔ c ∈ (demand spec).required := by
  have hcaps : caps spec = sortBy compareText (demand spec).required.dedup := by
    unfold caps demand
    cases spec.transport <;> rfl
  rw [hcaps]
  exact mem_sortBy.trans List.mem_dedup

variable {input : SolveInput ℚ} {q q' : Query ℚ} {a : Assembly ℚ}

theorem Assembly.Valid.congr (h : a.Valid input q) (hreq : ∀ c, c ∈ q'.required → c ∈ q.required)
    (htarget : q'.target = q.target) : a.Valid input q' :=
  { h with
    covers := fun c hc => h.covers c (hreq c hc)
    life := fun t ht => h.life t (by rw [← htarget]; exact ht) }

theorem valid_demand_iff : a.Valid input (demand input.spec) ↔
    a.Valid input (query input.spec (requirements input.spec) true) := by
  rw [query_requirements]
  exact ⟨fun h => h.congr (fun c => mem_caps.mp) rfl, fun h => h.congr (fun c => mem_caps.mpr) rfl⟩

/-! ## Reports -/

structure BuildPlan.Reports (plan : BuildPlan ℚ) (input : SolveInput ℚ) (a : Assembly ℚ) : Prop where
  pins : plan.partVersions.Perm (a.parts.map (·.pin))
  runtime : plan.runtime = input.spec.runtime
  profile : plan.profileId = a.profile.id ∧ plan.profileVersion = a.profile.version
  wiring : plan.wiringGraph =
    { source := a.source.pin, brain := a.brain.pin, brainInput := a.profile.brainInput,
      peripherals := a.placed.map (fun x => edgeFor x.1 x.2) }
  budget : plan.powerBudget =
    { averageSourceMa := a.averageSource input.spec.intervalS
      peakSourceMa := a.peakSource
      peakBrainRailMa := a.peakRail
      usableCapacityMah := a.usable
      estimatedLifeDays := a.lifeDays input.spec.intervalS }
  bom : plan.bom.Perm (a.parts.map (fun p =>
    { part := p.pin, quantity := 1, unitCostUsd := unitCost p }))
  cost : plan.totalCostUsd = (a.parts.map unitCost).sum

theorem totalCost_eq (parts : List (PartDefinition ℚ)) :
    totalCost parts = (parts.map unitCost).sum := by
  unfold totalCost ordered
  have hadd := foldl_add_eq unitCost
    (sortBy (fun a b : PartDefinition ℚ => compareText (pinKey a.pin) (pinKey b.pin)) parts) 0
  rw [zero_add, ((sortBy_perm _ parts).map _).sum_eq] at hadd
  exact hadd

theorem Assembly.Passes.reports (hacc : input.accepted = true) (h : a.Passes input q) :
    (a.plan input q.target).Reports input a := by
  have hvalid := h.valid hacc
  have hmem : ∀ p ∈ a.peripherals, p ∈ input.parts := by
    intro p hp
    exact (hvalid.catalogue p (by simp [Assembly.parts, hp])).1
  have hpins := placed_pins_nodup (SolveInput.wellFormed hacc) hmem h.ids
  refine ⟨?_, rfl, ⟨rfl, rfl⟩, rfl, budget_eq a input q.target hpins, ?_, totalCost_eq _⟩
  · exact (sortBy_perm _ _).map _
  · exact (sortBy_perm _ _).map _

theorem reports_of_mem_allPlans (hacc : input.accepted = true) {plan : BuildPlan ℚ}
    (h : plan ∈ allPlans input q) :
    ∃ a : Assembly ℚ, a.Passes input q ∧ plan.Reports input a := by
  obtain ⟨profile, hprofile, h⟩ := List.mem_flatMap.mp h
  unfold profilePlans at h
  split at h
  · exact absurd h (by simp)
  · rename_i brain source hbase
    obtain ⟨l, hl, hplan⟩ := List.mem_filterMap.mp h
    obtain ⟨t, ht, hlt, hids⟩ := (mem_pick _ _ (by simp)).mp hl
    obtain rfl : l = t := by simpa using hlt
    obtain ⟨a, ha, -, -, hplan, -⟩ := planOf_some (mem_sortedProfiles.mp hprofile) hbase ht hids hplan
    exact ⟨a, ha, hplan ▸ ha.reports hacc⟩

theorem solveAccepted_solved {plans : List (BuildPlan ℚ)} {count steps : ℕ}
    (h : solveAccepted input = .solved plans count steps) :
    plans = (allPlans input (query input.spec (requirements input.spec) true)).foldl
        (keep comparePlans input.maxPlans) [] ∧
      count = (allPlans input (query input.spec (requirements input.spec) true)).length := by
  unfold solveAccepted at h
  split at h
  · exact absurd h (by simp)
  split at h
  · rename_i result s' hrun
    rcases solveBody_ok hrun with ⟨_, rfl⟩ | ⟨_, _, rfl⟩
    · injection h with h1 h2 _
      exact ⟨h1.symm, h2.symm⟩
    · exact absurd h (by simp)
  · exact absurd h (by simp)

theorem mem_foldl_keep {k : ℕ} {plan : BuildPlan ℚ} : ∀ (l kept : List (BuildPlan ℚ)),
    plan ∈ l.foldl (keep comparePlans k) kept → plan ∈ kept ∨ plan ∈ l
  | [], kept, h => Or.inl h
  | p :: l, kept, h => by
      rcases mem_foldl_keep l _ h with h | h
      · have hmem : plan ∈ sortBy comparePlans (kept ++ [p]) := by
          unfold keep at h
          dsimp only at h
          split at h
          · exact (List.dropLast_sublist _).subset h
          · exact h
        rcases List.mem_append.mp (mem_sortBy.mp hmem) with h | h
        · exact Or.inl h
        · exact Or.inr (by simp [List.mem_singleton.mp h])
      · exact Or.inr (List.mem_cons_of_mem _ h)

/--
**Solver soundness.**

Every plan of a solved result reports an assembly that works and provides what the
request demands.
-/
theorem solved_plans_valid (hacc : input.accepted = true) {plans : List (BuildPlan ℚ)}
    {count steps : ℕ} (h : solveAccepted input = .solved plans count steps) :
    ∀ plan ∈ plans, ∃ a : Assembly ℚ, a.Valid input (demand input.spec) ∧
      plan.Reports input a := by
  intro plan hplan
  obtain ⟨rfl, -⟩ := solveAccepted_solved h
  have hmem := (mem_foldl_keep _ _ hplan).resolve_left (by simp)
  obtain ⟨a, ha, hrep⟩ := reports_of_mem_allPlans hacc hmem
  exact ⟨a, valid_demand_iff.mpr (ha.valid hacc), hrep⟩

def benchSolvable : SolveInput ℚ := benchInput [js "read.temperature_c"]

/-- The one plan of the bench works. -/
theorem solved_plans_valid_bench :
    (solveAccepted benchSolvable).plans.length = 1 ∧
      ∀ plan ∈ (solveAccepted benchSolvable).plans, ∃ a : Assembly ℚ,
        a.Valid benchSolvable (demand benchSolvable.spec) ∧ plan.Reports benchSolvable a := by
  have hlen : (solveAccepted benchSolvable).plans.length = 1 := by decide +kernel
  obtain ⟨count, steps, hrun⟩ := SolveResult.eq_solved (r := solveAccepted benchSolvable)
    (by rw [← List.length_pos_iff, hlen]; decide)
  exact ⟨hlen, solved_plans_valid (by decide +kernel) hrun⟩

end Albusforge.Matcher
