import Albusforge.Matcher.Constraints

/-!
# The solver

`apps/matcher/src/solver.ts`, with `rank.ts` and `explain.ts`: a bounded search
over profiles and subsets of the active parts. The step counter, the diagnostics
and the plans found so far are the state of the search; running out of steps
aborts it.
-/

namespace Albusforge.Matcher

open Lib JsNumber

variable {ν : Type} [JsNumber ν]

def comparePlans (a b : BuildPlan ν) : Ordering :=
  (sign (a.totalCostUsd - b.totalCostUsd)).then <|
  (sign (a.powerBudget.averageSourceMa - b.powerBudget.averageSourceMa)).then <|
  (compare a.partVersions.length b.partVersions.length).then <|
  (compareText (join comma (a.partVersions.map pinKey))
    (join comma (b.partVersions.map pinKey))).then
  (compareText (a.profileId ++ atSign :: a.profileVersion)
    (b.profileId ++ atSign :: b.profileVersion))

/-- `conflicts.map(...).join(", ")` -/
def joinNames : List Text → Text
  | [] => []
  | [t] => t
  | t :: u :: rest => t ++ js ", " ++ joinNames (u :: rest)

def capabilityPrefix : Text := js "capability:"

def explain (conflicts : List Text) (diagnostics : List Failure) : Text :=
  if conflicts = [] then
    js "No verified assembly can be built from this catalogue and its hardware/compile evidence. Add the missing evidence before changing the request."
  else
    js "These requirements cannot be met together: " ++
      joinNames (conflicts.map (fun c => if capabilityPrefix.isPrefixOf c then c.drop 11 else c)) ++
      js ". Could you relax one or add a compatible part?" ++
      (if diagnostics.any (fun d => d.constraint == .battery) then
        js " A larger usable battery capacity or a longer sensing interval may help; either change must be solved again."
      else [])

/-! ## The search state -/

inductive SearchLimit where
  | limit
  deriving DecidableEq

/-- `plans` and `count` belong to the running search, the other two to the request. -/
structure SolverState (ν : Type) where
  steps : ℕ
  diagnostics : List (Text × Failure)
  plans : List (BuildPlan ν)
  count : ℕ

abbrev SolveM (ν : Type) := EStateM SearchLimit (SolverState ν)

/-- `step`: one unit of the shared budget. -/
def step (maxSteps : ℕ) : SolveM ν Unit := fun s =>
  if s.steps ≥ maxSteps then .error .limit s else .ok () { s with steps := s.steps + 1 }

/-- `Map.set`: a key that is present keeps its place. -/
def mapSet (entries : List (Text × Failure)) (key : Text) (value : Failure) :
    List (Text × Failure) :=
  if entries.any (fun e => e.1 == key) then
    entries.map (fun e => if e.1 == key then (key, value) else e)
  else entries ++ [(key, value)]

def record (f : Failure) : SolveM ν Unit := modify fun s =>
  if s.diagnostics.length < 100 then
    { s with diagnostics := mapSet s.diagnostics f.key f }
  else s

/-- `failures.forEach(record)` -/
def recordAll (failures : List Failure) : SolveM ν Unit := failures.forM record

/-! ## One profile -/

def powerCapability : PowerSource → Text
  | .battery => js "power.battery"
  | .usb => js "power.5v"
  | .solar => js "power.solar"

def sortedParts (input : SolveInput ν) : List (PartDefinition ν) :=
  sortBy (fun a b => compareText (pinKey a.pin) (pinKey b.pin))
    (input.parts.filter (·.status == .active))

def sortedProfiles (input : SolveInput ν) : List (AssemblyProfile ν) :=
  sortBy (fun a b => compareText a.key b.key) input.profiles

def Transport.text : Transport → Text
  | .wifi => js "wifi"
  | .ble => js "ble"
  | .lora => js "lora"
  | .none => js "none"

def caps (spec : SolveSpec ν) : List Text :=
  let transport := match spec.transport with
    | .none => []
    | t => [js "net." ++ t.text]
  sortBy compareText (spec.capabilities ++ transport).dedup

def requirements (spec : SolveSpec ν) : List Text :=
  (caps spec).map (capabilityPrefix ++ ·) ++
    (if spec.targetLifeDays.isSome then [js "target_life_days"] else [])

/-- What one call of `search` is asked for. -/
structure Query (ν : Type) where
  required : List Text
  target : Option ν
  firstOnly : Bool

def query (spec : SolveSpec ν) (needs : List Text) (firstOnly : Bool) : Query ν :=
  { required := (needs.filter (fun n => capabilityPrefix.isPrefixOf n)).map (·.drop 11)
    target := if needs.contains (js "target_life_days") then spec.targetLifeDays else none
    firstOnly }

def basePair (input : SolveInput ν) (profile : AssemblyProfile ν) :
    Option (PartDefinition ν × PartDefinition ν) := do
  let parts := sortedParts input
  let brain ← parts.find? (fun p =>
    pinKey p.pin == pinKey profile.brain && p.electrical.interface == .host)
  let source ← parts.find? (fun p =>
    pinKey p.pin == pinKey profile.source && p.electrical.interface == .power &&
      p.software.capabilities.contains (powerCapability input.spec.powerSource))
  if brain.id = source.id then none
  else if input.spec.powerSource == .battery &&
      !(source.electrical.supply.any (fun s => s.capacityMah.any truthy)) then none
  else some (brain, source)

/--
One host, one source, and one instance of each part id. Additional power
converters/chargers need an explicit future multi-rail model.
-/
def candidates (input : SolveInput ν) (brain source : PartDefinition ν) :
    List (PartDefinition ν) :=
  (sortedParts input).filter (fun p => p.peripheral && p.id != brain.id && p.id != source.id)

/-- `p.commerce.unit_cost_usd!`; an active part has a price. -/
def unitCost (p : PartDefinition ν) : ν := p.unitCostUsd.getD (ofNat 0)

/-- `ordered`: the selection in the order plans list it. -/
def ordered (selected : List (PartDefinition ν)) : List (PartDefinition ν) :=
  sortBy (fun a b => compareText (pinKey a.pin) (pinKey b.pin)) selected

def totalCost (selected : List (PartDefinition ν)) : ν :=
  (ordered selected).foldl (fun sum p => sum + unitCost p) (ofNat 0)

/-- The lines `Duty ...` of the log. -/
def dutyLog (profile : AssemblyProfile ν) (spec : SolveSpec ν)
    (parts : List (PartDefinition ν)) : List Text :=
  (sortBy (fun a b => compareText (pinKey a.part) (pinKey b.part))
    (profile.activity.filter (fun a => parts.any (fun p => pinKey p.pin == pinKey a.part)))).map
    (fun a => js "Duty " ++ pinKey a.part ++ js ": min(1, " ++ toText a.activeS ++ js "/" ++
      toText spec.intervalS ++ js "); " ++ a.evidence)

def solverLog (profile : AssemblyProfile ν) (spec : SolveSpec ν)
    (parts : List (PartDefinition ν)) : List Text :=
  [js "Active registry pins only; all declared dependencies and requested capabilities covered.",
   js "IO levels, I2C addresses, conflicts, runtime and exact passed compile tuples checked.",
   js "Wiring and power evidence: " ++ profile.key ++ js ": " ++ profile.evidence,
   js "Unprofiled devices use continuous active current; peak load assumes simultaneous activity."]
  ++ dutyLog profile spec parts ++
  [js "Battery days = usable mAh / source mA / 24; runtime is an estimate within the profile's measured operating window."]

def buildPlan (input : SolveInput ν) (profile : AssemblyProfile ν)
    (brain source : PartDefinition ν) (selected : List (PartDefinition ν))
    (wiring : List WiringEdge) (budget : PowerBudget ν) : BuildPlan ν :=
  let parts := ordered selected
  { partVersions := parts.map (·.pin)
    runtime := input.spec.runtime
    profileId := profile.id
    profileVersion := profile.version
    wiringGraph :=
      { source := source.pin, brain := brain.pin, brainInput := profile.brainInput,
        peripherals := wiring }
    powerBudget := budget
    bom := parts.map (fun p => { part := p.pin, quantity := 1, unitCostUsd := unitCost p })
    totalCostUsd := totalCost selected
    solverLog := solverLog profile input.spec parts }

/-- `count++; plans.push(plan); plans.sort(comparePlans); if (...) plans.pop()` -/
def addPlan (maxPlans : ℕ) (plan : BuildPlan ν) : SolveM ν Unit := modify fun s =>
  { s with count := s.count + 1, plans := keep comparePlans maxPlans s.plans plan }

/-- The end of `visit`: the selection is complete. -/
def complete (input : SolveInput ν) (q : Query ν) (profile : AssemblyProfile ν)
    (brain source : PartDefinition ν) (peripherals : List (PartDefinition ν)) : SolveM ν Bool := do
  let selected := brain :: source :: peripherals
  let failures := checkParts selected brain input
  if failures != [] then
    recordAll failures
    return false
  match ← wire brain source peripherals profile input q.target (step input.maxSteps) with
  | .failed failure =>
      record failure
      return false
  | .ok wiring budget =>
      if !isFinite (totalCost selected) then
        record ⟨.catalogue, js "BOM cost exceeds the numeric range"⟩
        return false
      addPlan input.maxPlans (buildPlan input profile brain source selected wiring budget)
      return true

def uncovered (required : List Text) (available : List (PartDefinition ν)) : Bool :=
  required.any (fun c => !(capabilitiesOf available).contains c)

/-- `visit` of `search`: `peripherals` is `selected` without the brain and the source. -/
def visit (input : SolveInput ν) (q : Query ν) (profile : AssemblyProfile ν)
    (brain source : PartDefinition ν) :
    List (PartDefinition ν) → List (PartDefinition ν) → SolveM ν Bool
  | peripherals, [] => do
      step input.maxSteps
      if uncovered q.required (brain :: source :: peripherals) then return false
      complete input q profile brain source peripherals
  | peripherals, candidate :: rest => do
      step input.maxSteps
      if uncovered q.required (brain :: source :: peripherals ++ candidate :: rest) then
        return false
      -- Exclude first, ensuring extra parts aren't implicitly required.
      if (← visit input q profile brain source peripherals rest) && q.firstOnly then return true
      if !(brain :: source :: peripherals).any (fun p => p.id == candidate.id) then
        let found ← visit input q profile brain source (peripherals ++ [candidate]) rest
        if found && q.firstOnly then return true
      return false

def baseFailures (input : SolveInput ν) (brain source : PartDefinition ν) : List Failure :=
  (checkParts [brain, source] brain input).filter (fun f => f.constraint != .requires)

/-- The loop body of `search`: whether a first plan was found and is all that was asked for. -/
def searchProfile (input : SolveInput ν) (q : Query ν) (profile : AssemblyProfile ν) :
    SolveM ν Bool := do
  step input.maxSteps
  match basePair input profile with
  | none => return false
  | some (brain, source) =>
      let failures := baseFailures input brain source
      if failures != [] then
        recordAll failures
        return false
      let found ← visit input q profile brain source [] (candidates input brain source)
      return found && q.firstOnly

/-- The loop of `search`. -/
def searchFrom (input : SolveInput ν) (q : Query ν) : List (AssemblyProfile ν) → SolveM ν Unit
  | [] => return
  | profile :: rest => do
      if ← searchProfile input q profile then return
      searchFrom input q rest

/-- `search(needs, firstOnly)`: the plans kept and the number found. -/
def search (input : SolveInput ν) (needs : List Text) (firstOnly : Bool) :
    SolveM ν (List (BuildPlan ν) × ℕ) := do
  modify fun s => { s with plans := [], count := 0 }
  searchFrom input (query input.spec needs firstOnly) (sortedProfiles input)
  let s ← get
  return (s.plans, s.count)

/-! ## The request -/

def minimize (input : SolveInput ν) : List Text → List Text → SolveM ν (List Text)
  | [], conflict => return conflict
  | requirement :: rest, conflict => do
      let reduced := conflict.filter (· != requirement)
      let (_, count) ← search input reduced true
      minimize input rest (if count = 0 then reduced else conflict)

/-- `Coverage` diagnostics of the capabilities no active part provides. -/
def missingCapabilities (input : SolveInput ν) : List Failure :=
  ((caps input.spec).filter (fun c =>
    !(sortedParts input).any (fun p => p.software.capabilities.contains c))).map
    (fun c => ⟨.coverage, js "No active part provides " ++ c⟩)

def infeasibleResult (input : SolveInput ν) : SolveM ν (SolveResult ν) := do
  -- Deletion minimization gives an inclusion-minimal set, not necessarily
  -- the smallest cardinality set. Structural/evidence constraints stay fixed.
  let conflict ← minimize input (requirements input.spec) (requirements input.spec)
  let s ← get
  let failures := sortBy (fun a b => compareText a.key b.key) (s.diagnostics.map (·.2))
  return .infeasible conflict failures (explain conflict failures) s.steps

/-- The body of the `try`. -/
def solveBody (input : SolveInput ν) : SolveM ν (SolveResult ν) := do
  let (plans, count) ← search input (requirements input.spec) false
  if count ≠ 0 then return .solved plans count (← get).steps
  recordAll (missingCapabilities input)
  if (← get).diagnostics = [] then
    record ⟨.catalogue, js "No active host/source/profile combination can cover this request"⟩
  infeasibleResult input

def SolverState.start : SolverState ν := { steps := 0, diagnostics := [], plans := [], count := 0 }

/-- `solve` on what `SolveInput` has accepted. -/
def solveAccepted (input : SolveInput ν) : SolveResult ν :=
  if input.spec.targetLifeDays.isSome && input.spec.powerSource != .battery then
    .invalidInput [js "target_life_days requires a battery power source"]
  else match (solveBody input).run .start with
    | .ok result _ => result
    | .error .limit s => .searchLimit s.steps

/--
Pure, bounded search. `safeParse` is the schema library's parser: it reports what
is wrong with a value, or hands over an input the schema accepts.
-/
def solve {α : Type} (safeParse : α → Except (List Text) {i : SolveInput ν // i.accepted = true})
    (value : α) : SolveResult ν :=
  match safeParse value with
  | .error issues => .invalidInput issues
  | .ok input => solveAccepted input.1

end Albusforge.Matcher
