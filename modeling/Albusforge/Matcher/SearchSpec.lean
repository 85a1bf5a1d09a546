import Albusforge.Lib.Search
import Albusforge.Matcher.Solver

/-!
# What a finished search has found

A search that is not aborted does what an exhaustive one would: it meets the plans
of `feasiblePlans` in order, one for every profile and every selection that passes
each check, and keeps them through `addPlan`. The step budget and the diagnostics
play no part in that, so every statement here is about runs that finish.

`visit_yields` is the induction over the include/exclude tree. Pruning is sound
because a capability missing from everything still selectable is missing from
every leaf below.
-/

namespace Albusforge.Matcher

open Lib JsNumber

variable {ν : Type} [JsNumber ν]

def found (s : SolverState ν) : List (BuildPlan ν) × ℕ := (s.plans, s.count)

/-- What `addPlan` does to it. -/
def addFound (maxPlans : ℕ) (f : List (BuildPlan ν) × ℕ) (plan : BuildPlan ν) :
    List (BuildPlan ν) × ℕ := (keep comparePlans maxPlans f.1 plan, f.2 + 1)

def addAll (maxPlans : ℕ) (plans : List (BuildPlan ν)) (f : List (BuildPlan ν) × ℕ) :
    List (BuildPlan ν) × ℕ := plans.foldl (addFound maxPlans) f

theorem addAll_append (k : ℕ) (l l' : List (BuildPlan ν)) :
    addAll k (l ++ l') = addAll k l' ∘ addAll k l := by
  funext f
  exact List.foldl_append

theorem addAll_count (k : ℕ) : ∀ (l : List (BuildPlan ν)) (f : List (BuildPlan ν) × ℕ),
    (addAll k l f).2 = f.2 + l.length
  | [], f => rfl
  | p :: l, f => by
      show (addAll k l (addFound k f p)).2 = _
      rw [addAll_count k l, List.length_cons]
      show f.2 + 1 + l.length = _
      omega

theorem addAll_plans (k : ℕ) : ∀ (l : List (BuildPlan ν)) (f : List (BuildPlan ν) × ℕ),
    (addAll k l f).1 = l.foldl (keep comparePlans k) f.1
  | [], f => rfl
  | p :: l, f => by
      show (addAll k l (addFound k f p)).1 = _
      rw [addAll_plans k l]
      rfl

/-! ## Steps and diagnostics leave the findings alone -/

omit [JsNumber ν] in
theorem pure_yields {α : Type} (a : α) : Yields found (pure a : SolveM ν α) a id := Yields.pure a

omit [JsNumber ν] in
theorem step_yields (k : ℕ) : Yields found (step k : SolveM ν Unit) () id := by
  intro s b s' h
  unfold step at h
  split at h
  · exact absurd h (by simp)
  · obtain ⟨rfl, rfl⟩ := EStateM.Result.ok.inj h
    exact ⟨rfl, rfl⟩

omit [JsNumber ν] in
theorem record_yields (f : Failure) : Yields found (record f : SolveM ν Unit) () id :=
  Yields.modify (fun s => by split <;> rfl)

omit [JsNumber ν] in
theorem recordAll_yields (l : List Failure) : Yields found (recordAll l : SolveM ν Unit) () id :=
  Yields.forM record_yields l

theorem addPlan_yields (k : ℕ) (plan : BuildPlan ν) :
    Yields found (addPlan k plan) () (fun f => addFound k f plan) :=
  Yields.modify (fun _ => rfl)

/-! ## Wiring -/

def assignments (ctx : WireContext ν) :
    List (PartDefinition ν) → List WiringEdge → List (List WiringEdge)
  | [], wiring => [wiring]
  | part :: rest, wiring =>
      ctx.ports.flatMap (fun port =>
        if ctx.portFits part port && ctx.portFree part port wiring then
          assignments ctx rest (wiring ++ [edgeFor part port])
        else [])

def leaves (ctx : WireContext ν) (st : WireState ν) (wirings : List (List WiringEdge)) :
    WireState ν := wirings.foldl (fun st wiring => ctx.leaf wiring st) st

theorem wireVisit_yields (k : ℕ) (ctx : WireContext ν) :
    ∀ (rest : List (PartDefinition ν)) (wiring : List WiringEdge) (st : WireState ν),
      Yields found (wireVisit (step k : SolveM ν Unit) ctx rest wiring st)
        (leaves ctx st (assignments ctx rest wiring)) id
  | [], wiring, st => Yields.after (step_yields k) (Yields.pure _)
  | part :: rest, wiring, st => by
      refine Yields.after (step_yields k) ?_
      have hbody : ∀ (st : WireState ν) (port : ProfilePort ν),
          Yields found
            (if ctx.portFits part port && ctx.portFree part port wiring then
              wireVisit (step k : SolveM ν Unit) ctx rest (wiring ++ [edgeFor part port]) st
            else pure st)
            (leaves ctx st
              (if ctx.portFits part port && ctx.portFree part port wiring then
                assignments ctx rest (wiring ++ [edgeFor part port]) else [])) id := by
        intro st port
        split
        · exact wireVisit_yields k ctx rest _ st
        · exact Yields.pure st
      have hfold := Yields.foldlM hbody ctx.ports st
      rwa [show List.foldl (fun st port => leaves ctx st _) st ctx.ports
        = leaves ctx st (assignments ctx (part :: rest) wiring) from
          List.foldl_flatMap.symm] at hfold

/-- The result of a run of `wire` that is not aborted. -/
def wired (brain source : PartDefinition ν) (peripherals : List (PartDefinition ν))
    (profile : AssemblyProfile ν) (input : SolveInput ν) (target : Option ν) : WiringResult ν :=
  match powerPath brain source peripherals profile input target with
  | .error failure => .failed failure
  | .ok ctx => (leaves ctx (.start profile) (assignments ctx peripherals [])).result

theorem wire_yields (k : ℕ) (brain source : PartDefinition ν)
    (peripherals : List (PartDefinition ν)) (profile : AssemblyProfile ν) (input : SolveInput ν)
    (target : Option ν) :
    Yields found (wire brain source peripherals profile input target (step k : SolveM ν Unit))
      (wired brain source peripherals profile input target) id := by
  unfold wired wire
  cases powerPath brain source peripherals profile input target with
  | error failure => exact Yields.pure _
  | ok ctx =>
      exact Yields.after (wireVisit_yields k ctx peripherals [] _) (Yields.pure _)

/-! ## One selection -/

def planOf (input : SolveInput ν) (q : Query ν) (profile : AssemblyProfile ν)
    (brain source : PartDefinition ν) (peripherals : List (PartDefinition ν)) :
    Option (BuildPlan ν) :=
  let selected := brain :: source :: peripherals
  if uncovered q.required selected then none
  else if checkParts selected brain input != [] then none
  else match wired brain source peripherals profile input q.target with
    | .failed _ => none
    | .ok wiring budget =>
        if !isFinite (totalCost selected) then none
        else some (buildPlan input profile brain source selected wiring budget)

theorem complete_yields (input : SolveInput ν) (q : Query ν) (profile : AssemblyProfile ν)
    (brain source : PartDefinition ν) (peripherals : List (PartDefinition ν))
    (hcov : uncovered q.required (brain :: source :: peripherals) = false) :
    Yields found (complete input q profile brain source peripherals)
      (planOf input q profile brain source peripherals).isSome
      (addAll input.maxPlans (planOf input q profile brain source peripherals).toList) := by
  unfold complete planOf
  simp only [hcov, Bool.false_eq_true, if_false]
  by_cases hfail : (checkParts (brain :: source :: peripherals) brain input != []) = true
  · simp only [hfail, if_true, Option.isSome_none, Option.toList_none]
    exact Yields.after (recordAll_yields _) (Yields.pure _)
  · simp only [hfail]
    refine Yields.after (wire_yields _ _ _ _ _ _ _) ?_
    cases wired brain source peripherals profile input q.target with
    | failed failure => exact Yields.after (record_yields _) (Yields.pure _)
    | ok wiring budget =>
        by_cases hfin : (!isFinite (totalCost (brain :: source :: peripherals))) = true
        · simp only [hfin, if_true]
          exact Yields.after (record_yields _) (Yields.pure _)
        · simp only [hfin]
          simp only [Bool.false_eq_true, if_false, Option.isSome_some, Option.toList_some]
          exact Yields.before (addPlan_yields input.maxPlans _) (Yields.pure true)

/-! ## The tree -/

omit [JsNumber ν] in
theorem uncovered_mono {required : List Text} {l l' : List (PartDefinition ν)} (hsub : l' ⊆ l)
    (h : uncovered required l = true) : uncovered required l' = true := by
  unfold uncovered at h ⊢
  rw [List.any_eq_true] at h ⊢
  obtain ⟨c, hc, hn⟩ := h
  refine ⟨c, hc, ?_⟩
  simp only [Bool.not_eq_true', List.contains_eq_mem, decide_eq_false_iff_not, capabilitiesOf,
    List.mem_flatMap, not_exists, not_and] at hn ⊢
  exact fun p hp => hn p (hsub hp)

theorem planOf_pruned (input : SolveInput ν) (profile : AssemblyProfile ν) {q : Query ν}
    {brain source : PartDefinition ν} {chosen rest : List (PartDefinition ν)}
    (h : uncovered q.required (brain :: source :: chosen ++ rest) = true) :
    (pick (·.id) chosen rest).filterMap (planOf input q profile brain source) = [] := by
  rw [List.filterMap_eq_nil_iff]
  intro l hl
  obtain ⟨t, ht, rfl⟩ := pick_extends rest chosen l hl
  have hcov : uncovered q.required (brain :: source :: (chosen ++ t)) = true := by
    refine uncovered_mono ?_ h
    intro p hp
    simp only [List.cons_append, List.mem_cons, List.mem_append] at hp ⊢
    rcases hp with hp | hp | hp | hp
    · exact Or.inl hp
    · exact Or.inr (Or.inl hp)
    · exact Or.inr (Or.inr (Or.inl hp))
    · exact Or.inr (Or.inr (Or.inr (ht.subset hp)))
  unfold planOf
  simp [hcov]

def taken (q : Query ν) (plans : List (BuildPlan ν)) : List (BuildPlan ν) :=
  if q.firstOnly then plans.take 1 else plans

omit [JsNumber ν] in
theorem taken_nil (q : Query ν) : taken q [] = [] := by unfold taken; split <;> rfl

omit [JsNumber ν] in
theorem taken_append_left {q : Query ν} {l l' : List (BuildPlan ν)} (hq : q.firstOnly = true)
    (hl : l.isEmpty = false) : taken q (l ++ l') = taken q l := by
  cases l with
  | nil => simp at hl
  | cons p l => simp [taken, hq]

omit [JsNumber ν] in
theorem taken_append {q : Query ν} {l l' : List (BuildPlan ν)}
    (h : (!l.isEmpty && q.firstOnly) = false) :
    taken q (l ++ l') = taken q l ++ taken q l' := by
  unfold taken
  by_cases hq : q.firstOnly = true
  · have : l = [] := by simpa [hq] using h
    simp [hq, this]
  · simp [hq]

theorem branch_yields {q : Query ν} {k : ℕ} {skip extend : SolveM ν Bool}
    {excluded included : List (BuildPlan ν)} {b : Bool}
    (hex : Yields found skip (!excluded.isEmpty && (q.firstOnly || b))
      (addAll k (taken q excluded)))
    (hin : Yields found extend (!included.isEmpty && q.firstOnly) (addAll k (taken q included))) :
    Yields found (do if (← skip) && q.firstOnly then pure true else extend)
      (!(excluded ++ included).isEmpty && q.firstOnly)
      (addAll k (taken q (excluded ++ included))) := by
  by_cases hfirst : (!excluded.isEmpty && q.firstOnly) = true
  · have hq : q.firstOnly = true := by simp_all
    have hne : excluded.isEmpty = false := by simp_all
    rw [taken_append_left hq hne]
    have hne' : (excluded ++ included).isEmpty = false := by
      cases excluded with
      | nil => simp at hne
      | cons p l => rfl
    refine Yields.before hex ?_
    simpa [hq, hne, hne'] using pure_yields true
  · have hskip : ((!excluded.isEmpty && (q.firstOnly || b)) && q.firstOnly) = false := by
      cases hq : q.firstOnly <;> simp_all
    have hval : (!(excluded ++ included).isEmpty && q.firstOnly)
        = (!included.isEmpty && q.firstOnly) := by
      cases hq : q.firstOnly <;> cases hi : excluded <;> simp_all
    rw [taken_append (by simpa using hfirst), addAll_append, hval]
    refine Yields.bind hex ?_
    simp only [hskip, Bool.false_eq_true, if_false]
    exact hin

theorem include_yields {q : Query ν} {k : ℕ} {extend : SolveM ν Bool}
    {included : List (BuildPlan ν)} {b : Bool}
    (h : Yields found extend (!included.isEmpty && (q.firstOnly || b))
      (addAll k (taken q included))) :
    Yields found (do if (← extend) && q.firstOnly then pure true else pure false)
      (!included.isEmpty && q.firstOnly) (addAll k (taken q included)) := by
  refine Yields.before h ?_
  cases hq : q.firstOnly
  · simpa [hq] using pure_yields false
  · cases hi : included.isEmpty
    · simpa using pure_yields true
    · simpa using pure_yields false

/-- **The include/exclude recursion meets exactly the leaves of `pick`, in order.** -/
theorem visit_yields (input : SolveInput ν) (q : Query ν) (profile : AssemblyProfile ν)
    (brain source : PartDefinition ν) :
    ∀ (rest chosen : List (PartDefinition ν)),
      (∀ c ∈ rest, c.id ≠ brain.id ∧ c.id ≠ source.id) →
      Yields found (visit input q profile brain source chosen rest)
        (!((pick (·.id) chosen rest).filterMap (planOf input q profile brain source)).isEmpty &&
          (q.firstOnly || rest.isEmpty))
        (addAll input.maxPlans
          (taken q ((pick (·.id) chosen rest).filterMap (planOf input q profile brain source))))
  | [], chosen, _ => by
      refine Yields.after (step_yields _) ?_
      by_cases hcov : uncovered q.required (brain :: source :: chosen) = true
      · have hnil := planOf_pruned input profile
          (show uncovered q.required (brain :: source :: chosen ++ []) = true by simpa using hcov)
        simp only [hcov, if_true, hnil, taken_nil]
        exact Yields.pure _
      · simp only [hcov]
        have hc := complete_yields input q profile brain source chosen (by simpa using hcov)
        cases hp : planOf input q profile brain source chosen with
        | none => simpa [pick, hp, taken_nil] using hc
        | some plan =>
            have ht : taken q [plan] = [plan] := by unfold taken; split <;> rfl
            simpa [pick, hp, ht] using hc
  | c :: rest, chosen, hids => by
      have hrest : ∀ d ∈ rest, d.id ≠ brain.id ∧ d.id ≠ source.id :=
        fun d hd => hids d (List.mem_cons_of_mem _ hd)
      have hclash : (brain :: source :: chosen).any (fun p => p.id == c.id)
          = decide (c.id ∈ chosen.map (·.id)) := by
        have h1 : (brain.id == c.id) = false := by simpa using (hids c (by simp)).1.symm
        have h2 : (source.id == c.id) = false := by simpa using (hids c (by simp)).2.symm
        rw [List.any_cons, List.any_cons, h1, h2, Bool.false_or, Bool.false_or]
        rw [Bool.eq_iff_iff, List.any_eq_true, decide_eq_true_iff, List.mem_map]
        simp
      refine Yields.after (step_yields _) ?_
      by_cases hcov : uncovered q.required (brain :: source :: chosen ++ c :: rest) = true
      · have hnil := planOf_pruned input profile hcov
        simp only [hcov, if_true, hnil, taken_nil]
        exact Yields.pure _
      · simp only [hcov, Bool.false_eq_true, if_false, hclash, List.isEmpty_cons, Bool.or_false]
        have hex := visit_yields input q profile brain source rest chosen hrest
        have hin := visit_yields input q profile brain source rest (chosen ++ [c]) hrest
        rw [pick, List.filterMap_append]
        refine branch_yields hex ?_
        by_cases hmem : c.id ∈ chosen.map (·.id)
        · rw [if_pos hmem]
          simp only [hmem, decide_true, Bool.not_true, Bool.false_eq_true, if_false,
            List.filterMap_nil, List.isEmpty_nil, Bool.false_and, taken_nil]
          exact Yields.pure false
        · rw [if_neg hmem]
          simp only [hmem, decide_false, Bool.not_false, if_true]
          exact include_yields hin

end Albusforge.Matcher
