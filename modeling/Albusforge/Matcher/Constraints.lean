import Albusforge.Matcher.Power
import Albusforge.Matcher.Runtime

/-!
# Constraints on a selection, and the port assignment

`apps/matcher/src/constraints.ts`. `checkParts` lists what is wrong with a
selection of parts; `wire` backtracks over the ports of the profile, allocating
shared pins and rail budgets, and keeps the assignment with the lowest average
draw.

`wire` takes the step counter of its caller, which may abort the whole search, so
it runs in any monad that supplies one.
-/

namespace Albusforge.Matcher

open Lib JsNumber

variable {ν : Type} [JsNumber ν]

/-- Capabilities of a selection, as `parts.flatMap(p => p.software.capabilities)`. -/
def capabilitiesOf (parts : List (PartDefinition ν)) : List Text :=
  parts.flatMap (·.software.capabilities)

def hostCapability (need : Text) : Bool :=
  (js "bus.").isPrefixOf need || (js "gpio.").isPrefixOf need

/-- `if (!ok) fail(constraint, detail)` -/
def failUnless (ok : Bool) (constraint : Constraint) (detail : Text) : List Failure :=
  if ok then [] else [⟨constraint, detail⟩]

@[simp] theorem failUnless_eq_nil {ok : Bool} {c : Constraint} {detail : Text} :
    failUnless ok c detail = [] ↔ ok = true := by
  cases ok <;> simp [failUnless]

theorem mem_failUnless {ok : Bool} {c : Constraint} {detail : Text} {f : Failure}
    (h : f ∈ failUnless ok c detail) : f.constraint = c := by
  cases ok <;> simp_all [failUnless]

/-- What is wrong with one `requires` entry of a part. -/
def checkNeed (parts : List (PartDefinition ν)) (brain part : PartDefinition ν) (need : Text) :
    List Failure :=
  failUnless ((capabilitiesOf parts).contains need) .requires
    (pinKey part.pin ++ js " needs " ++ need) ++
  failUnless (!(hostCapability need && !brain.software.capabilities.contains need)) .requires
    (brain.id ++ js " does not provide " ++ need ++ js "; bus expanders are not modeled")

def compiled (input : SolveInput ν) (brain part : PartDefinition ν) : Bool :=
  part.software.driverPkg.isNone ||
    input.compat.any (fun row =>
      some row.driverPkg == part.software.driverPkg &&
        some row.driverVer == part.software.driverVersion &&
        row.runtimeVer == input.spec.runtime && row.brainId == brain.id && row.status == .passed)

def logicFits (brain part : PartDefinition ν) : Bool :=
  !part.peripheral ||
    match part.electrical.logicV, brain.electrical.logicV with
    | some window, some drive => containsVoltage window drive
    | _, _ => false

/-- `input.connectors.find(c => c.id === id)` -/
def findConnector (input : SolveInput ν) (id : Text) : Option (ConnectorDefinition ν) :=
  input.connectors.find? (fun c => c.id == id)

/-- The checks of the loop of `checkParts` that follow the `requires`. -/
def checkRest (parts : List (PartDefinition ν)) (brain : PartDefinition ν) (input : SolveInput ν)
    (addresses : List Text) (part : PartDefinition ν) : List Failure :=
  part.electrical.conflicts.flatMap (fun conflict =>
    failUnless (!parts.any (fun p => p.id == conflict)) .conflict
      (part.id ++ js " conflicts with " ++ conflict)) ++
  -- One logical I2C bus in this core; no implicit multiplexers/address changes.
  part.electrical.i2cAddress.toList.flatMap (fun address =>
    failUnless (!(address != [] && addresses.contains address)) .i2c
      (js "I2C address " ++ address ++ js " is used twice")) ++
  failUnless (satisfiesRuntime input.spec.runtime part.software.minRuntime) .runtime
    (pinKey part.pin ++ js " needs runtime " ++ part.software.minRuntime) ++
  failUnless (compiled input brain part) .compatibility
    (js "No passed compile for " ++ pinKey part.pin ++ js " on " ++ brain.id ++ js "/" ++
      input.spec.runtime) ++
  failUnless (logicFits brain part) .logic
    (pinKey part.pin ++ js " cannot use " ++ brain.id ++
      js "'s IO voltage without a modeled level shifter") ++
  failUnless ((findConnector input part.electrical.connector).any
      (fun c => c.interfaces.contains part.electrical.interface)) .wiring
    (js "Missing or incompatible connector definition for " ++ pinKey part.pin)

/-- The body of the loop of `checkParts`, given the addresses seen before. -/
def checkPart (parts : List (PartDefinition ν)) (brain : PartDefinition ν) (input : SolveInput ν)
    (addresses : List Text) (part : PartDefinition ν) : List Failure :=
  part.electrical.requires.flatMap (checkNeed parts brain part) ++
    checkRest parts brain input addresses part

/-- `addresses.add(address)` -/
def addAddress (addresses : List Text) (part : PartDefinition ν) : List Text :=
  match part.electrical.i2cAddress with
  | some address => if address != [] then address :: addresses else addresses
  | none => addresses

/-- The loop of `checkParts` from the addresses already seen. -/
def checkPartsFrom (parts : List (PartDefinition ν)) (brain : PartDefinition ν)
    (input : SolveInput ν) : List Text → List (PartDefinition ν) → List Failure
  | _, [] => []
  | addresses, part :: rest =>
      checkPart parts brain input addresses part ++
        checkPartsFrom parts brain input (addAddress addresses part) rest

def checkParts (parts : List (PartDefinition ν)) (brain : PartDefinition ν)
    (input : SolveInput ν) : List Failure :=
  checkPartsFrom parts brain input [] parts

/-! ## Wiring -/

inductive WiringResult (ν : Type) where
  | ok (wiring : List WiringEdge) (budget : PowerBudget ν)
  | failed (failure : Failure)

structure WireContext (ν : Type) where
  brain : PartDefinition ν
  source : PartDefinition ν
  peripherals : List (PartDefinition ν)
  profile : AssemblyProfile ν
  input : SolveInput ν
  targetDays : Option ν
  brainInput : ν × ν
  output : Supply ν
  rail : Supply ν
  ports : List (ProfilePort ν)

def WireContext.voltage (ctx : WireContext ν) (port : ProfilePort ν) : ν × ν :=
  match port.rail with
  | .brain => ctx.rail.outputV
  | .source => (JsNumber.max ctx.output.outputV.1 ctx.brainInput.1, ctx.output.outputV.2)

def WireContext.provider (ctx : WireContext ν) (port : ProfilePort ν) : PartDefinition ν :=
  match port.rail with
  | .brain => ctx.brain
  | .source => ctx.source

def WireContext.portFits (ctx : WireContext ν) (part : PartDefinition ν) (port : ProfilePort ν) :
    Bool :=
  port.interface == part.electrical.interface && port.connector == part.electrical.connector &&
    (findConnector ctx.input port.connector).any (fun c =>
      c.interfaces.contains port.interface && !lt c.maxVoltage (ctx.voltage port).2) &&
    containsVoltage part.electrical.voltageRange (ctx.voltage port) &&
    -- power.* requirements describe the actual powering rail, not another
    -- unrelated component that happens to advertise that capability.
    !part.electrical.requires.any (fun c =>
      (js "power.").isPrefixOf c && !(ctx.provider port).software.capabilities.contains c)

def WireContext.edgeDraw (ctx : WireContext ν) (edge : WiringEdge) : ν :=
  match ctx.peripherals.find? (fun p => pinKey p.pin == pinKey edge.part) with
  | some p => p.electrical.currentDrawMa.active
  | none => ofNat 0

def WireContext.portFree (ctx : WireContext ν) (part : PartDefinition ν) (port : ProfilePort ν)
    (wiring : List WiringEdge) : Bool :=
  let occupants := wiring.filter (fun edge => edge.port == port.id)
  let current := occupants.foldl (fun sum edge => sum + ctx.edgeDraw edge)
    part.electrical.currentDrawMa.active
  decide (occupants.length < port.capacity) &&
    !wiring.any (fun edge =>
      edge.port != port.id && edge.resources.any (fun r => port.resources.contains r)) &&
    !gt current port.maxCurrentMa

/-- The edge `wiring.push` adds. -/
def edgeFor (part : PartDefinition ν) (port : ProfilePort ν) : WiringEdge :=
  { part := part.pin, port := port.id, rail := port.rail, connector := port.connector,
    resources := sortBy compareText port.resources }

structure WireState (ν : Type) where
  best : Option (List WiringEdge × PowerBudget ν)
  failure : Failure

def WireState.start (profile : AssemblyProfile ν) : WireState ν :=
  { best := none
    failure := ⟨.wiring, profile.id ++ js " has no complete connector/port assignment"⟩ }

/-- `best ?? { ok: false, failure }` -/
def WireState.result (st : WireState ν) : WiringResult ν :=
  match st.best with
  | some (wiring, budget) => .ok wiring budget
  | none => .failed st.failure

def WireContext.budget (ctx : WireContext ν) (wiring : List WiringEdge) : PowerBudget ν :=
  powerBudget ctx.brainInput ctx.output ctx.rail ctx.brain ctx.source ctx.peripherals wiring
    ctx.profile ctx.input.spec

def WireContext.leafFailure (ctx : WireContext ν) (budget : PowerBudget ν) : Option Failure :=
  if !budget.finite then
    some ⟨.current, js "Power calculation exceeds the numeric range"⟩
  else if gt budget.peakBrainRailMa ctx.rail.maxOutputMa ||
      gt budget.peakSourceMa ctx.output.maxOutputMa then
    some ⟨.current, ctx.profile.id ++ js " exceeds a source or regulator peak-current limit"⟩
  else match ctx.targetDays with
    | some target =>
        if budget.estimatedLifeDays.all (fun days => lt days target) then
          some ⟨.battery, ctx.profile.id ++ js " does not meet " ++ toText target ++
            js " days of battery life"⟩
        else none
    | none => none

def WireContext.leaf (ctx : WireContext ν) (wiring : List WiringEdge) (st : WireState ν) :
    WireState ν :=
  let budget := ctx.budget wiring
  match ctx.leafFailure budget with
  | some failure => { st with failure }
  | none =>
      if st.best.all (fun best => lt budget.averageSourceMa best.2.averageSourceMa) then
        { st with best := some (wiring, budget) }
      else st

/-- `visit` of `wire`: the peripherals still to be wired, and the wiring so far. -/
def wireVisit {m : Type → Type} [Monad m] (step : m Unit) (ctx : WireContext ν) :
    List (PartDefinition ν) → List WiringEdge → WireState ν → m (WireState ν)
  | [], wiring, st => do
      step
      pure (ctx.leaf wiring st)
  | part :: rest, wiring, st => do
      step
      ctx.ports.foldlM
        (fun st port =>
          if ctx.portFits part port && ctx.portFree part port wiring then
            wireVisit step ctx rest (wiring ++ [edgeFor part port]) st
          else pure st)
        st

def brainInputRange (brain : PartDefinition ν) (profile : AssemblyProfile ν) : Option (ν × ν) :=
  if profile.brainInput = js "primary" then some brain.electrical.voltageRange
  else (brain.electrical.altInputs.bind (·.find? (fun p => p.name == profile.brainInput))).map
    (·.voltageRange)

def powerPath (brain source : PartDefinition ν) (peripherals : List (PartDefinition ν))
    (profile : AssemblyProfile ν) (input : SolveInput ν) (targetDays : Option ν) :
    Except Failure (WireContext ν) :=
  match source.electrical.supply, brain.electrical.supply, brainInputRange brain profile with
  | some output, some rail, some brainInput =>
      let sourceConnector := findConnector input profile.sourceConnector
      -- A measured usable-capacity fraction can account for a battery's dropout.
      -- Non-battery supplies must cover the input's full operating window.
      let battery := output.capacityMah.isSome &&
        source.software.capabilities.contains (js "power.battery")
      if source.electrical.connector != profile.sourceConnector ||
          !sourceConnector.any (fun c => !lt c.maxVoltage output.outputV.2) then
        .error ⟨.wiring, profile.id ++ js " does not match the source connector or voltage rating"⟩
      else if gt output.outputV.2 brainInput.2 || lt output.outputV.2 brainInput.1 ||
          (!battery && lt output.outputV.1 brainInput.1) then
        .error ⟨.voltage, source.id ++ js " cannot power " ++ brain.id ++ js "/" ++
          profile.brainInput⟩
      else if profile.brainInput = js "primary" &&
          (findConnector input brain.electrical.connector).any
            (fun c => lt c.maxVoltage output.outputV.2) then
        .error ⟨.voltage, brain.id ++ js " input connector is overvolted"⟩
      else
        .ok { brain, source, peripherals, profile, input, targetDays, brainInput, output, rail,
              ports := sortBy (fun a b => compareText a.id b.id) profile.ports }
  | _, _, _ => .error ⟨.voltage, profile.id ++ js " has no modeled power path"⟩

def wire {m : Type → Type} [Monad m] (brain source : PartDefinition ν)
    (peripherals : List (PartDefinition ν)) (profile : AssemblyProfile ν) (input : SolveInput ν)
    (targetDays : Option ν) (step : m Unit) : m (WiringResult ν) :=
  match powerPath brain source peripherals profile input targetDays with
  | .error failure => pure (.failed failure)
  | .ok ctx => do
      let st ← wireVisit step ctx peripherals [] (.start profile)
      pure st.result

end Albusforge.Matcher
