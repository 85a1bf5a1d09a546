import Albusforge.Matcher.Conflicts

/-!
# The step budget

One counter is spent by the search over profiles and parts, by the port assignment inside
it and by the searches that minimize a conflict, and running out of it aborts them all at
once. Every one of them is the same run whatever the budget is, broken off where the
budget ends; so **the budget decides whether there is an answer, and never which**
(`solve_budget`).

Nothing but `step` looks at the budget: a selection is checked against the spec, the connectors and
the compatibility matrix, and two inputs that agree on those judge it alike (`SolveInput.Alike`).
-/

namespace Albusforge.Matcher

open Lib JsNumber

variable {ν : Type} [JsNumber ν]

/-- The input with another `max_steps`. -/
def SolveInput.withSteps (input : SolveInput ν) (n : ℕ) : SolveInput ν := { input with maxSteps := n }

abbrev Spends {α : Type} (x : ℕ → SolveM ν α) : Prop := Budgeted SolverState.steps x

theorem step_spends : Spends (ν := ν) step := by
  refine ⟨fun s => ((), { s with steps := s.steps + 1 }), fun s => ⟨Nat.le_succ _, fun n hn => ⟨?_, ?_⟩⟩⟩
  · intro hle
    dsimp only at hle
    exact if_neg (by omega)
  · intro hlt
    dsimp only at hlt
    exact ⟨.limit, s, if_pos (by omega), by omega⟩

theorem record_spends (f : Failure) : Spends (ν := ν) fun _ => record f := by
  refine Budgeted.modify ?_
  intro s
  split_ifs <;> rfl

theorem recordAll_spends (failures : List Failure) : Spends (ν := ν) fun _ => recordAll failures :=
  Budgeted.forM record_spends failures

theorem addPlan_spends (k : ℕ) (plan : BuildPlan ν) : Spends fun _ => addPlan k plan := by
  refine Budgeted.modify ?_
  intro s
  rfl

/-! ## What a selection is checked against -/

/-- The two inputs differ in what no check of a selection reads: the parts and profiles on offer, and
the limits of the search. -/
structure SolveInput.Alike (input input' : SolveInput ν) : Prop where
  spec : input'.spec = input.spec
  connectors : input'.connectors = input.connectors
  compat : input'.compat = input.compat

section Alike

variable {input input' : SolveInput ν}

theorem checkPartsFrom_alike (h : input.Alike input') (parts : List (PartDefinition ν)) (brain : PartDefinition ν) :
    ∀ (rest : List (PartDefinition ν)) (addresses : List Text),
      checkPartsFrom parts brain input' addresses rest = checkPartsFrom parts brain input addresses rest
  | [], _ => rfl
  | part :: rest, addresses => by
      rw [checkPartsFrom, checkPartsFrom, checkPartsFrom_alike h parts brain rest]
      simp only [checkPart, checkRest, compiled, findConnector, h.spec, h.connectors, h.compat]

theorem checkParts_alike (h : input.Alike input') (parts : List (PartDefinition ν)) (brain : PartDefinition ν) :
    checkParts parts brain input' = checkParts parts brain input :=
  checkPartsFrom_alike h parts brain parts []

def WireContext.withInput (ctx : WireContext ν) (input' : SolveInput ν) : WireContext ν :=
  { ctx with input := input' }

theorem portFits_alike {ctx : WireContext ν} (h : ctx.input.Alike input') (part : PartDefinition ν)
    (port : ProfilePort ν) : (ctx.withInput input').portFits part port = ctx.portFits part port := by
  have hfind : findConnector (ctx.withInput input').input port.connector = findConnector ctx.input port.connector :=
    congrArg (List.find? (fun c : ConnectorDefinition ν => c.id == port.connector)) h.connectors
  unfold WireContext.portFits
  rw [hfind]
  rfl

theorem leaf_alike {ctx : WireContext ν} (h : ctx.input.Alike input') (wiring : List WiringEdge) (st : WireState ν) :
    (ctx.withInput input').leaf wiring st = ctx.leaf wiring st := by
  have hbudget : (ctx.withInput input').budget wiring = ctx.budget wiring :=
    congrArg (powerBudget ctx.brainInput ctx.output ctx.rail ctx.brain ctx.source ctx.peripherals wiring ctx.profile)
      h.spec
  unfold WireContext.leaf
  rw [hbudget]
  rfl

theorem wireVisit_alike {m : Type → Type} [Monad m] (one : m Unit) {ctx : WireContext ν} (h : ctx.input.Alike input') :
    ∀ (rest : List (PartDefinition ν)) (wiring : List WiringEdge) (st : WireState ν),
      wireVisit one (ctx.withInput input') rest wiring st = wireVisit one ctx rest wiring st
  | [], wiring, st => by
      rw [wireVisit, wireVisit, leaf_alike h]
  | part :: rest, wiring, st => by
      rw [wireVisit, wireVisit]
      simp only [wireVisit_alike one h rest, portFits_alike h]
      rfl

theorem powerPath_alike (h : input.Alike input') (brain source : PartDefinition ν)
    (peripherals : List (PartDefinition ν)) (profile : AssemblyProfile ν) (target : Option ν) :
    powerPath brain source peripherals profile input' target =
      (powerPath brain source peripherals profile input target).map (·.withInput input') := by
  have hfind : ∀ id, findConnector input' id = findConnector input id := by
    intro id
    unfold findConnector
    rw [h.connectors]
  unfold powerPath
  simp only [hfind]
  cases source.electrical.supply with
  | none => rfl
  | some output =>
    cases brain.electrical.supply with
    | none => rfl
    | some rail =>
      cases brainInputRange brain profile with
      | none => rfl
      | some brainInput =>
        dsimp only
        split_ifs <;> first | rfl | contradiction

theorem powerPath_input {brain source : PartDefinition ν} {peripherals : List (PartDefinition ν)}
    {profile : AssemblyProfile ν} {target : Option ν} {ctx : WireContext ν}
    (h : powerPath brain source peripherals profile input target = .ok ctx) : ctx.input = input := by
  unfold powerPath at h
  dsimp only at h
  split at h
  · split_ifs at h
    obtain rfl := Except.ok.inj h
    rfl
  · exact absurd h (by simp)

/-- **The port assignment of a selection is the same for both.** -/
theorem wire_alike (h : input.Alike input') {m : Type → Type} [Monad m] (one : m Unit)
    (brain source : PartDefinition ν) (peripherals : List (PartDefinition ν)) (profile : AssemblyProfile ν)
    (target : Option ν) : wire brain source peripherals profile input' target one =
      wire brain source peripherals profile input target one := by
  unfold wire
  rw [powerPath_alike h]
  cases hpath : powerPath brain source peripherals profile input target with
  | error failure => rfl
  | ok ctx =>
    have hctx : ctx.input.Alike input' := by
      rw [powerPath_input hpath]
      exact h
    simp only [Except.map, wireVisit_alike one hctx]

end Alike

omit [JsNumber ν] in
theorem withSteps_alike (input : SolveInput ν) (n : ℕ) : input.Alike (input.withSteps n) := ⟨rfl, rfl, rfl⟩

/-! ## Every search spends from the one budget -/

theorem wireVisit_spends (ctx : WireContext ν) :
    ∀ (rest : List (PartDefinition ν)) (wiring : List WiringEdge) (st : WireState ν),
      Spends fun n => wireVisit (step n : SolveM ν Unit) ctx rest wiring st
  | [], wiring, st => Budgeted.bind step_spends fun _ => Budgeted.pure _
  | part :: rest, wiring, st => by
      refine Budgeted.bind step_spends fun _ => Budgeted.foldlM ?_ ctx.ports st
      intro st port
      exact Budgeted.ite (wireVisit_spends ctx rest _ st) (Budgeted.pure st)

theorem wire_spends (brain source : PartDefinition ν) (peripherals : List (PartDefinition ν))
    (profile : AssemblyProfile ν) (input : SolveInput ν) (target : Option ν) :
    Spends fun n => wire brain source peripherals profile (input.withSteps n) target (step n : SolveM ν Unit) := by
  simp only [wire_alike (withSteps_alike input _)]
  unfold wire
  cases powerPath brain source peripherals profile input target with
  | error failure => exact Budgeted.pure _
  | ok ctx =>
    exact Budgeted.bind (wireVisit_spends ctx peripherals [] _) fun st => Budgeted.pure st.result

theorem complete_spends (input : SolveInput ν) (q : Query ν) (profile : AssemblyProfile ν)
    (brain source : PartDefinition ν) (peripherals : List (PartDefinition ν)) :
    Spends fun n => complete (input.withSteps n) q profile brain source peripherals := by
  unfold complete
  simp only [checkParts_alike (withSteps_alike input _)]
  refine Budgeted.ite (Budgeted.bind (recordAll_spends _) fun _ => Budgeted.pure false) ?_
  refine Budgeted.bind (wire_spends brain source peripherals profile input q.target) ?_
  intro result
  cases result with
  | failed failure => exact Budgeted.bind (record_spends failure) fun _ => Budgeted.pure false
  | ok wiring budget =>
    refine Budgeted.ite (Budgeted.bind (record_spends _) fun _ => Budgeted.pure false) ?_
    exact Budgeted.bind (addPlan_spends input.maxPlans
      (buildPlan input profile brain source (brain :: source :: peripherals) wiring budget))
      fun _ => Budgeted.pure true

theorem visit_spends (input : SolveInput ν) (q : Query ν) (profile : AssemblyProfile ν)
    (brain source : PartDefinition ν) :
    ∀ (rest chosen : List (PartDefinition ν)),
      Spends fun n => visit (input.withSteps n) q profile brain source chosen rest
  | [], chosen => by
      refine Budgeted.bind step_spends fun _ => Budgeted.ite (Budgeted.pure false) ?_
      exact complete_spends input q profile brain source chosen
  | candidate :: rest, chosen => by
      refine Budgeted.bind step_spends fun _ => Budgeted.ite (Budgeted.pure false) ?_
      refine Budgeted.bind (visit_spends input q profile brain source rest chosen) fun excluded => ?_
      refine Budgeted.ite (Budgeted.pure true) (Budgeted.ite ?_ (Budgeted.pure false))
      refine Budgeted.bind (visit_spends input q profile brain source rest (chosen ++ [candidate])) fun found => ?_
      exact Budgeted.ite (Budgeted.pure true) (Budgeted.pure false)

theorem searchProfile_spends (input : SolveInput ν) (q : Query ν) (profile : AssemblyProfile ν) :
    Spends fun n => searchProfile (input.withSteps n) q profile := by
  refine Budgeted.bind step_spends fun _ => ?_
  have hbase : ∀ n, basePair (input.withSteps n) profile = basePair input profile := fun _ => rfl
  simp only [hbase]
  cases basePair input profile with
  | none => exact Budgeted.pure false
  | some pair =>
    obtain ⟨brain, source⟩ := pair
    simp only [baseFailures, checkParts_alike (withSteps_alike input _)]
    refine Budgeted.ite (Budgeted.bind (recordAll_spends _) fun _ => Budgeted.pure false) ?_
    exact Budgeted.bind (visit_spends input q profile brain source (candidates input brain source) [])
      fun found => Budgeted.pure (found && q.firstOnly)

theorem searchFrom_spends (input : SolveInput ν) (q : Query ν) :
    ∀ profiles : List (AssemblyProfile ν), Spends fun n => searchFrom (input.withSteps n) q profiles
  | [] => Budgeted.pure ()
  | profile :: rest => by
      refine Budgeted.bind (searchProfile_spends input q profile) fun found => ?_
      exact Budgeted.ite (Budgeted.pure ()) (searchFrom_spends input q rest)

theorem search_spends (input : SolveInput ν) (needs : List Text) (firstOnly : Bool) :
    Spends fun n => search (input.withSteps n) needs firstOnly := by
  refine Budgeted.bind (Budgeted.modify fun _ => rfl) fun _ => ?_
  refine Budgeted.bind (searchFrom_spends input (query input.spec needs firstOnly) (sortedProfiles input)) fun _ => ?_
  exact Budgeted.bind Budgeted.get fun s => Budgeted.pure (s.plans, s.count)

theorem minimize_spends (input : SolveInput ν) :
    ∀ rest conflict : List Text, Spends fun n => minimize (input.withSteps n) rest conflict
  | [], conflict => Budgeted.pure conflict
  | requirement :: rest, conflict => by
      refine Budgeted.bind (search_spends input _ true) fun result => ?_
      exact minimize_spends input rest _

theorem infeasibleResult_spends (input : SolveInput ν) : Spends fun n => infeasibleResult (input.withSteps n) := by
  refine Budgeted.bind (minimize_spends input (requirements input.spec) (requirements input.spec)) fun conflict => ?_
  exact Budgeted.bind Budgeted.get fun s => Budgeted.pure _

theorem solveBody_spends (input : SolveInput ν) : Spends fun n => solveBody (input.withSteps n) := by
  refine Budgeted.bind (search_spends input (requirements input.spec) false) fun result => ?_
  refine Budgeted.ite (Budgeted.bind Budgeted.get fun s => Budgeted.pure _) ?_
  refine Budgeted.bind (recordAll_spends (missingCapabilities input)) fun _ => ?_
  refine Budgeted.bind Budgeted.get fun s => Budgeted.ite ?_ (infeasibleResult_spends input)
  exact Budgeted.bind (record_spends _) fun _ => infeasibleResult_spends input

/-! ## The answer -/

def SolveResult.steps : SolveResult ν → Option ℕ
  | .solved _ _ steps => some steps
  | .infeasible _ _ _ steps => some steps
  | .searchLimit steps => some steps
  | .invalidInput _ => none

def SolveResult.isLimit : SolveResult ν → Bool
  | .searchLimit _ => true
  | _ => false

theorem infeasibleResult_steps {input : SolveInput ν} {s s' : SolverState ν} {r : SolveResult ν}
    (h : infeasibleResult input s = .ok r s') : r.steps = some s'.steps ∧ r.isLimit = false := by
  obtain ⟨conflict, s₁, -, h₁⟩ := EStateM_bind_ok h
  obtain ⟨s₂, s₃, h₂, h₃⟩ := EStateM_bind_ok h₁
  obtain ⟨rfl, rfl⟩ := EStateM.Result.ok.inj h₂
  obtain ⟨rfl, rfl⟩ := EStateM.Result.ok.inj h₃
  exact ⟨rfl, rfl⟩

theorem solveBody_steps {input : SolveInput ν} {s s' : SolverState ν} {r : SolveResult ν}
    (h : solveBody input s = .ok r s') : r.steps = some s'.steps ∧ r.isLimit = false := by
  obtain ⟨⟨plans, count⟩, s₁, -, h₁⟩ := EStateM_bind_ok h
  dsimp only at h₁
  split_ifs at h₁ with hcount
  · obtain ⟨s₂, s₃, h₂, h₃⟩ := EStateM_bind_ok h₁
    obtain ⟨rfl, rfl⟩ := EStateM.Result.ok.inj h₂
    obtain ⟨rfl, rfl⟩ := EStateM.Result.ok.inj h₃
    exact ⟨rfl, rfl⟩
  · obtain ⟨_, s₂, -, h₂⟩ := EStateM_bind_ok h₁
    obtain ⟨s₃, s₄, -, h₃⟩ := EStateM_bind_ok h₂
    split_ifs at h₃ with hempty
    · obtain ⟨_, s₅, -, h₄⟩ := EStateM_bind_ok h₃
      exact infeasibleResult_steps h₄
    · exact infeasibleResult_steps h₃

theorem solveAccepted_budget (input : SolveInput ν) (n : ℕ) :
    (∀ k, (solveAccepted (input.withSteps n)).steps = some k → k ≤ n) ∧
    ((solveAccepted (input.withSteps n)).isLimit = false →
      (∀ m, n ≤ m → solveAccepted (input.withSteps m) = solveAccepted (input.withSteps n)) ∧
      ∀ k, (solveAccepted (input.withSteps n)).steps = some k →
        ∀ m, m < k → solveAccepted (input.withSteps m) = .searchLimit m) := by
  have hspec : ∀ m, (input.withSteps m).spec = input.spec := fun _ => rfl
  unfold solveAccepted
  simp only [hspec]
  split_ifs with htarget
  · exact ⟨by simp [SolveResult.steps], fun _ => ⟨fun _ _ => rfl, by simp [SolveResult.steps]⟩⟩
  · have hspends := solveBody_spends input
    have hstart : (SolverState.start : SolverState ν).steps = 0 := rfl
    cases hrun : (solveBody (input.withSteps n)).run .start with
    | error e s =>
      cases e
      have hsteps : s.steps = n := hspends.spent_all (by rw [hstart]; exact Nat.zero_le n) hrun
      refine ⟨?_, by simp [SolveResult.isLimit]⟩
      intro k hk
      obtain rfl : s.steps = k := Option.some.inj hk
      exact hsteps.le
    | ok r s =>
      obtain ⟨hle, hlarger, hsmaller⟩ := hspends.cut (by rw [hstart]; exact Nat.zero_le n) hrun
      obtain ⟨hsteps, hfinished⟩ := solveBody_steps hrun
      dsimp only
      refine ⟨?_, fun _ => ⟨?_, ?_⟩⟩
      · intro k hk
        rw [hsteps] at hk
        rw [← Option.some.inj hk]
        exact hle
      · intro m hm
        have hm' : (solveBody (input.withSteps m)).run .start = .ok r s := hlarger m hm
        rw [hm']
      · intro k hk m hm
        rw [hsteps] at hk
        obtain rfl := Option.some.inj hk
        obtain ⟨e, s', herror, hspent⟩ := hsmaller m (by rw [hstart]; exact Nat.zero_le m) hm
        cases e
        have hm' : (solveBody (input.withSteps m)).run .start = .error .limit s' := herror
        rw [hm']
        exact congrArg _ hspent

/-- **The step budget only cuts, never changes, the answer.** Two values that are accepted as the same
input but for `max_steps`: what is answered within the first budget is answered within the second if
it is no smaller, and nothing but `search_limit` if it is below the steps the answer took. -/
theorem solve_budget {α : Type} (safeParse : α → Except (List Text) {i : SolveInput ν // i.accepted = true})
    (value value' : α) (i i' : {i : SolveInput ν // i.accepted = true}) (hi : safeParse value = .ok i)
    (hi' : safeParse value' = .ok i') (hsame : i'.1 = i.1.withSteps i'.1.maxSteps) :
    (∀ k, (solve safeParse value).steps = some k → k ≤ i.1.maxSteps) ∧
    ((solve safeParse value).isLimit = false →
      (i.1.maxSteps ≤ i'.1.maxSteps → solve safeParse value' = solve safeParse value) ∧
      ∀ k, (solve safeParse value).steps = some k → i'.1.maxSteps < k →
        solve safeParse value' = .searchLimit i'.1.maxSteps) := by
  obtain ⟨hle, hanswer⟩ := solveAccepted_budget i.1 i.1.maxSteps
  have hvalue : solve safeParse value = solveAccepted (i.1.withSteps i.1.maxSteps) := by
    unfold solve
    rw [hi]
    rfl
  have hvalue' : solve safeParse value' = solveAccepted (i.1.withSteps i'.1.maxSteps) := by
    unfold solve
    rw [hi', ← hsame]
  rw [hvalue, hvalue']
  refine ⟨hle, fun hfinished => ?_⟩
  obtain ⟨hlarger, hsmaller⟩ := hanswer hfinished
  exact ⟨hlarger i'.1.maxSteps, fun k hk hlt => hsmaller k hk i'.1.maxSteps hlt⟩

theorem bench_accepted : (benchInput [js "read.temperature_c"]).accepted = true := by decide +kernel

theorem bench_five_accepted : ((benchInput [js "read.temperature_c"]).withSteps 5).accepted = true := by
  decide +kernel

/-- The bench's request takes six steps: five are one too few. -/
theorem solve_budget_bench :
    solve (fun i : {i : SolveInput ℚ // i.accepted = true} => .ok i)
      ⟨(benchInput [js "read.temperature_c"]).withSteps 5, bench_five_accepted⟩ = .searchLimit 5 := by
  obtain ⟨-, hanswer⟩ := solve_budget (fun i : {i : SolveInput ℚ // i.accepted = true} => .ok i)
    ⟨benchInput [js "read.temperature_c"], bench_accepted⟩
    ⟨(benchInput [js "read.temperature_c"]).withSteps 5, bench_five_accepted⟩ _ _ rfl rfl rfl
  exact (hanswer (by decide +kernel)).2 6 (by decide +kernel) (by decide)

end Albusforge.Matcher
