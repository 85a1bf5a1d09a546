import Albusforge.Matcher.Checks
import Albusforge.Matcher.SearchSpec

/-!
# What a finished request has found

From one profile to the whole request. `allPlans` is everything an exhaustive
search would meet; `search_ok` says that a search that finishes kept those plans,
or the first of them, and `solveBody_ok` that a request that finishes either
reports them or runs one deletion pass over the requirements
(`solveAccepted_solved`, `solveAccepted_infeasible`).

**The check of the base pair loses nothing.** It drops a profile only for failures
that no selection of peripherals repairs (`profilePlans_of_baseFailures`).
-/

namespace Albusforge.Matcher

open Lib JsNumber

variable {ν : Type} [JsNumber ν]

/-! ## One profile -/

def profilePlans (input : SolveInput ν) (q : Query ν) (profile : AssemblyProfile ν) :
    List (BuildPlan ν) :=
  match basePair input profile with
  | none => []
  | some (brain, source) =>
      (pick (·.id) [] (candidates input brain source)).filterMap
        (planOf input q profile brain source)

def allPlans (input : SolveInput ν) (q : Query ν) : List (BuildPlan ν) :=
  (sortedProfiles input).flatMap (profilePlans input q)

theorem planOf_parts {input : SolveInput ν} {q : Query ν} {profile : AssemblyProfile ν}
    {brain source : PartDefinition ν} {peripherals : List (PartDefinition ν)} {plan : BuildPlan ν}
    (h : planOf input q profile brain source peripherals = some plan) :
    PartsOk (brain :: source :: peripherals) brain input := by
  unfold planOf at h
  dsimp only at h
  split at h
  · exact absurd h (by simp)
  · split at h
    · exact absurd h (by simp)
    · rename_i hfail
      exact checkParts_eq_nil.mp (by simpa using hfail)

theorem profilePlans_of_baseFailures {input : SolveInput ν} {q : Query ν}
    {profile : AssemblyProfile ν} {brain source : PartDefinition ν}
    (hbase : basePair input profile = some (brain, source))
    (hfail : baseFailures input brain source ≠ []) : profilePlans input q profile = [] := by
  unfold profilePlans
  simp only [hbase]
  rw [List.filterMap_eq_nil_iff]
  intro l _
  by_contra hne
  obtain ⟨plan, hplan⟩ := Option.ne_none_iff_exists'.mp hne
  have hsub : [brain, source].Sublist (brain :: source :: l) :=
    ((List.nil_sublist l).cons_cons source).cons_cons brain
  exact hfail (checkParts_filter_of_sublist hsub (planOf_parts hplan))

omit [JsNumber ν] in
theorem mem_candidates {input : SolveInput ν} {brain source p : PartDefinition ν}
    (h : p ∈ candidates input brain source) : p.id ≠ brain.id ∧ p.id ≠ source.id := by
  have hf := (List.mem_filter.mp h).2
  simp only [Bool.and_eq_true, bne_iff_ne, ne_eq] at hf
  exact ⟨hf.1.2, hf.2⟩

theorem searchProfile_yields (input : SolveInput ν) (q : Query ν) (profile : AssemblyProfile ν) :
    Yields found (searchProfile input q profile)
      (!(profilePlans input q profile).isEmpty && q.firstOnly)
      (addAll input.maxPlans (taken q (profilePlans input q profile))) := by
  refine Yields.after (step_yields _) ?_
  cases hbase : basePair input profile with
  | none =>
      have hnil : profilePlans input q profile = [] := by unfold profilePlans; rw [hbase]
      simp only [hnil, taken_nil]
      exact Yields.pure _
  | some pair =>
      obtain ⟨brain, source⟩ := pair
      by_cases hfail : (baseFailures input brain source != []) = true
      · have hnil := profilePlans_of_baseFailures (q := q) hbase (by simpa using hfail)
        simp only [hfail, if_true, hnil, taken_nil]
        exact Yields.after (recordAll_yields _) (Yields.pure _)
      · have hplans : profilePlans input q profile
            = (pick (·.id) [] (candidates input brain source)).filterMap
                (planOf input q profile brain source) := by
          unfold profilePlans
          rw [hbase]
        simp only [hfail]
        have hv := visit_yields input q profile brain source (candidates input brain source) []
          (fun c hc => mem_candidates hc)
        rw [← hplans] at hv
        refine Yields.before hv ?_
        cases q.firstOnly
        · simpa using pure_yields false
        · simpa using pure_yields (!(profilePlans input q profile).isEmpty)

/-! ## All profiles -/

theorem searchFrom_yields (input : SolveInput ν) (q : Query ν) :
    ∀ profiles : List (AssemblyProfile ν),
      Yields found (searchFrom input q profiles) ()
        (addAll input.maxPlans (taken q (profiles.flatMap (profilePlans input q))))
  | [] => by
      simp only [List.flatMap_nil, taken_nil]
      exact Yields.pure ()
  | profile :: rest => by
      have hp := searchProfile_yields input q profile
      rw [List.flatMap_cons]
      by_cases hfirst : (!(profilePlans input q profile).isEmpty && q.firstOnly) = true
      · have hq : q.firstOnly = true := by simp_all
        have hne : (profilePlans input q profile).isEmpty = false := by simp_all
        rw [taken_append_left hq hne]
        refine Yields.before hp ?_
        simp only [hfirst, if_true]
        exact Yields.pure ()
      · have hfirst' : (!(profilePlans input q profile).isEmpty && q.firstOnly) = false := by
          simpa using hfirst
        rw [taken_append hfirst', addAll_append]
        refine Yields.bind hp ?_
        simp only [hfirst', Bool.false_eq_true, if_false]
        exact searchFrom_yields input q rest

theorem search_ok {input : SolveInput ν} {needs : List Text} {firstOnly : Bool}
    {s s' : SolverState ν} {r : List (BuildPlan ν) × ℕ}
    (h : search input needs firstOnly s = .ok r s') :
    r = addAll input.maxPlans
      (taken (query input.spec needs firstOnly) (allPlans input (query input.spec needs firstOnly)))
      ([], 0) := by
  obtain ⟨_, s1, h1, h⟩ := EStateM_bind_ok h
  obtain ⟨_, rfl⟩ := EStateM.Result.ok.inj h1
  obtain ⟨_, s2, h2, h⟩ := EStateM_bind_ok h
  have hfound := (searchFrom_yields input _ _ _ _ _ h2).2
  obtain ⟨_, s3, h3, h⟩ := EStateM_bind_ok h
  obtain ⟨rfl, rfl⟩ := EStateM.Result.ok.inj h3
  obtain ⟨rfl, -⟩ := EStateM.Result.ok.inj h
  exact hfound

/-! ## The request -/

def unmet (input : SolveInput ν) (needs : List Text) : Bool :=
  (allPlans input (query input.spec needs true)).isEmpty

theorem search_first_ok {input : SolveInput ν} {needs : List Text} {s s' : SolverState ν}
    {plans : List (BuildPlan ν)} {count : ℕ}
    (h : search input needs true s = .ok (plans, count) s') :
    (count = 0) ↔ unmet input needs = true := by
  have hcount := congrArg Prod.snd (search_ok h)
  rw [addAll_count] at hcount
  unfold unmet
  cases hall : allPlans input (query input.spec needs true) with
  | nil =>
      rw [hall, taken_nil] at hcount
      simpa using hcount
  | cons p l =>
      have htaken : taken (query input.spec needs true) (p :: l) = [p] := by
        simp [taken, query]
      rw [hall, htaken] at hcount
      simp only [List.length_cons, List.length_nil] at hcount
      simp [hcount]

theorem minimize_ok {input : SolveInput ν} :
    ∀ {rest conflict r : List Text} {s s' : SolverState ν},
      minimize input rest conflict s = .ok r s' → r = deletePass (unmet input) rest conflict
  | [], conflict, r, s, s', h => by
      obtain ⟨rfl, -⟩ := EStateM.Result.ok.inj h
      rfl
  | requirement :: rest, conflict, r, s, s', h => by
      obtain ⟨⟨plans, count⟩, s1, h1, h⟩ := EStateM_bind_ok h
      have hdec := search_first_ok h1
      rw [minimize_ok h, deletePass]
      congr 1
      by_cases hc : count = 0
      · rw [if_pos hc, if_pos (hdec.mp hc)]
      · rw [if_neg hc, if_neg (fun hu => hc (hdec.mpr hu))]

theorem allPlans_firstOnly (input : SolveInput ν) (needs : List Text) (b b' : Bool) :
    allPlans input (query input.spec needs b) = allPlans input (query input.spec needs b') := rfl

theorem infeasibleResult_ok {input : SolveInput ν} {s s' : SolverState ν} {r : SolveResult ν}
    (h : infeasibleResult input s = .ok r s') :
    ∃ diagnostics, r = .infeasible
      (deletePass (unmet input) (requirements input.spec) (requirements input.spec)) diagnostics
      (explain (deletePass (unmet input) (requirements input.spec) (requirements input.spec))
        diagnostics) s'.steps := by
  obtain ⟨conflict, s1, h1, h⟩ := EStateM_bind_ok h
  obtain ⟨s2, s3, h2, h⟩ := EStateM_bind_ok h
  obtain ⟨rfl, rfl⟩ := EStateM.Result.ok.inj h2
  obtain ⟨rfl, rfl⟩ := EStateM.Result.ok.inj h
  rw [minimize_ok h1]
  exact ⟨_, rfl⟩

/-- **The two ways a request can finish.** -/
theorem solveBody_ok {input : SolveInput ν} {s s' : SolverState ν} {r : SolveResult ν}
    (h : solveBody input s = .ok r s') :
    (unmet input (requirements input.spec) = false ∧
      r = .solved
        ((allPlans input (query input.spec (requirements input.spec) false)).foldl
          (keep comparePlans input.maxPlans) [])
        (allPlans input (query input.spec (requirements input.spec) false)).length s'.steps) ∨
    (unmet input (requirements input.spec) = true ∧
      ∃ diagnostics, r = .infeasible
        (deletePass (unmet input) (requirements input.spec) (requirements input.spec))
        diagnostics
        (explain (deletePass (unmet input) (requirements input.spec) (requirements input.spec))
          diagnostics) s'.steps) := by
  obtain ⟨⟨plans, count⟩, s1, h1, h⟩ := EStateM_bind_ok h
  have hr := search_ok h1
  have htaken : taken (query input.spec (requirements input.spec) false)
      (allPlans input (query input.spec (requirements input.spec) false))
      = allPlans input (query input.spec (requirements input.spec) false) := by
    simp [taken, query]
  rw [htaken] at hr
  have hplans := congrArg Prod.fst hr
  have hcount := congrArg Prod.snd hr
  rw [addAll_plans] at hplans
  rw [addAll_count, Nat.zero_add] at hcount
  dsimp only at hplans hcount h
  by_cases hc : count ≠ 0
  · simp only [hc, ne_eq, not_false_eq_true, if_true] at h
    obtain ⟨s2, s3, h2, h⟩ := EStateM_bind_ok h
    obtain ⟨rfl, rfl⟩ := EStateM.Result.ok.inj h2
    obtain ⟨rfl, rfl⟩ := EStateM.Result.ok.inj h
    refine Or.inl ⟨?_, by rw [hplans, hcount]⟩
    unfold unmet
    rw [allPlans_firstOnly input _ true false, List.isEmpty_eq_false_iff, ← List.length_pos_iff]
    omega
  · have hc0 : count = 0 := not_not.mp hc
    simp only [hc0, ne_eq, not_true_eq_false, if_false] at h
    obtain ⟨_, s2, _, h⟩ := EStateM_bind_ok h
    obtain ⟨_, s3, _, h⟩ := EStateM_bind_ok h
    have hend : ∃ s4, infeasibleResult input s4 = .ok r s' := by
      split at h
      · obtain ⟨_, s4, _, h⟩ := EStateM_bind_ok h
        exact ⟨s4, h⟩
      · exact ⟨s3, h⟩
    obtain ⟨s4, hend⟩ := hend
    refine Or.inr ⟨?_, infeasibleResult_ok hend⟩
    unfold unmet
    rw [allPlans_firstOnly input _ true false, List.isEmpty_iff, ← List.length_eq_zero_iff]
    omega

end Albusforge.Matcher
