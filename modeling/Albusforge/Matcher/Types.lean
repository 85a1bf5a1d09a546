import Albusforge.Lib.JsText

/-!
# What the matcher reads and returns

The records of `packages/schema` and `apps/matcher/src/types.ts`, with the fields
the matcher reads, and the checks `SolveInput` makes on them before a search is
allowed to start. Numbers are any `JsNumber`.

The schema blocks no matcher function looks at (mechanical, cloud, suppliers,
names, successors) are not modelled, and neither are the checks on them.
-/

namespace Albusforge.Matcher

open Lib

inductive PartStatus where
  | draft | active | deprecated | retired
  deriving DecidableEq, Repr

inductive PartInterface where
  | i2c | spi | uart | oneWire | pwm | adc | gpio | power | host
  deriving DecidableEq, Repr

inductive Rail where
  | brain | source
  deriving DecidableEq, Repr

inductive Transport where
  | wifi | ble | lora | none
  deriving DecidableEq, Repr

inductive PowerSource where
  | battery | usb | solar
  deriving DecidableEq, Repr

inductive CompatStatus where
  | passed | failed | pending
  deriving DecidableEq, Repr

structure PartPin where
  id : Text
  version : Text
  deriving DecidableEq, Repr

/-- `` `${p.id}@${p.version}` `` -/
def pinKey (p : PartPin) : Text := p.id ++ atSign :: p.version

structure PowerInput (ν : Type) where
  name : Text
  voltageRange : ν × ν

structure CurrentDraw (ν : Type) where
  idle : ν
  active : ν

structure Supply (ν : Type) where
  outputV : ν × ν
  maxOutputMa : ν
  capacityMah : Option ν

structure PartElectrical (ν : Type) where
  interface : PartInterface
  connector : Text
  voltageRange : ν × ν
  altInputs : Option (List (PowerInput ν))
  currentDrawMa : CurrentDraw ν
  requires : List Text
  conflicts : List Text
  i2cAddress : Option Text
  logicV : Option (ν × ν)
  supply : Option (Supply ν)

structure PartSoftware where
  driverPkg : Option Text
  driverVersion : Option Text
  capabilities : List Text
  minRuntime : Text

structure PartDefinition (ν : Type) extends PartPin where
  status : PartStatus
  electrical : PartElectrical ν
  software : PartSoftware
  unitCostUsd : Option ν

/-- `pin(p)` -/
abbrev PartDefinition.pin {ν : Type} (p : PartDefinition ν) : PartPin := p.toPartPin

structure ConnectorDefinition (ν : Type) where
  id : Text
  interfaces : List PartInterface
  maxVoltage : ν

structure ProfilePort (ν : Type) where
  id : Text
  interface : PartInterface
  connector : Text
  rail : Rail
  maxCurrentMa : ν
  resources : List Text
  capacity : ℕ

structure Activity (ν : Type) where
  part : PartPin
  activeS : ν
  evidence : Text

structure AssemblyProfile (ν : Type) where
  id : Text
  version : Text
  evidence : Text
  brain : PartPin
  source : PartPin
  sourceConnector : Text
  brainInput : Text
  regulatorEfficiency : ν
  quiescentSourceMa : ν
  batteryUsableFraction : ν
  ports : List (ProfilePort ν)
  activity : List (Activity ν)

/-- `` `${x.id}@${x.version}` `` -/
def AssemblyProfile.key {ν : Type} (p : AssemblyProfile ν) : Text := p.id ++ atSign :: p.version

structure CompatEntry where
  driverPkg : Text
  driverVer : Text
  runtimeVer : Text
  brainId : Text
  status : CompatStatus
  deriving DecidableEq

structure SolveSpec (ν : Type) where
  capabilities : List Text
  transport : Transport
  powerSource : PowerSource
  intervalS : ν
  targetLifeDays : Option ν
  runtime : Text

structure SolveInput (ν : Type) where
  spec : SolveSpec ν
  parts : List (PartDefinition ν)
  connectors : List (ConnectorDefinition ν)
  profiles : List (AssemblyProfile ν)
  compat : List CompatEntry
  maxSteps : ℕ
  maxPlans : ℕ

/-! ## Plans and results -/

structure WiringEdge where
  part : PartPin
  port : Text
  rail : Rail
  connector : Text
  resources : List Text
  deriving DecidableEq, Repr

structure PowerBudget (ν : Type) where
  averageSourceMa : ν
  peakSourceMa : ν
  peakBrainRailMa : ν
  usableCapacityMah : Option ν
  estimatedLifeDays : Option ν
  deriving DecidableEq

structure WiringGraph where
  source : PartPin
  brain : PartPin
  brainInput : Text
  peripherals : List WiringEdge
  deriving DecidableEq

structure BomLine (ν : Type) where
  part : PartPin
  quantity : ℕ
  unitCostUsd : ν
  deriving DecidableEq

structure BuildPlan (ν : Type) where
  partVersions : List PartPin
  runtime : Text
  profileId : Text
  profileVersion : Text
  wiringGraph : WiringGraph
  powerBudget : PowerBudget ν
  bom : List (BomLine ν)
  totalCostUsd : ν
  solverLog : List Text
  deriving DecidableEq

inductive Constraint where
  | coverage | requires | conflict | i2c | runtime | compatibility | logic | wiring | voltage
  | current | battery | catalogue
  deriving DecidableEq, Repr

def Constraint.text : Constraint → Text
  | .coverage => js "coverage"
  | .requires => js "requires"
  | .conflict => js "conflict"
  | .i2c => js "i2c"
  | .runtime => js "runtime"
  | .compatibility => js "compatibility"
  | .logic => js "logic"
  | .wiring => js "wiring"
  | .voltage => js "voltage"
  | .current => js "current"
  | .battery => js "battery"
  | .catalogue => js "catalogue"

structure Failure where
  constraint : Constraint
  detail : Text
  deriving DecidableEq

/-- `` `${f.constraint}:${f.detail}` `` -/
def Failure.key (f : Failure) : Text := f.constraint.text ++ js ":" ++ f.detail

inductive SolveResult (ν : Type) where
  | solved (plans : List (BuildPlan ν)) (feasibleCount steps : ℕ)
  | infeasible (conflictSet : List Text) (diagnostics : List Failure) (explanation : Text)
      (steps : ℕ)
  | searchLimit (steps : ℕ)
  | invalidInput (issues : List Text)
  deriving DecidableEq

def SolveResult.plans {ν : Type} : SolveResult ν → List (BuildPlan ν)
  | .solved plans _ _ => plans
  | _ => []

theorem SolveResult.eq_solved {ν : Type} {r : SolveResult ν} (h : r.plans ≠ []) :
    ∃ count steps, r = .solved r.plans count steps := by
  cases r with
  | solved plans count steps => exact ⟨count, steps, rfl⟩
  | _ => exact absurd rfl h

/-! ## The schema's checks -/

/-- `0|[1-9]\d*` -/
def numericId (t : Text) : Bool := t.all isDigit && (t == [48] || (t != [] && t.head? != some 48))

/-- `0|[1-9]\d*|\d*[A-Za-z-][0-9A-Za-z-]*` -/
def prereleaseId (t : Text) : Bool :=
  numericId t ||
    (t.any (fun c => !isDigit c) &&
      t.all (fun c => isDigit c || isLower c || isUpper c || c == hyphen))

def splitVersion (version : Text) : Text × Option Text :=
  match version.span (· != hyphen) with
  | (core, []) => (core, none)
  | (core, _ :: pre) => (core, some pre)

/-- `SemVer`: `1.0.0`, without build metadata. -/
def isSemVer (t : Text) : Bool :=
  let (core, pre) := splitVersion t
  (split dot core).length == 3 && (split dot core).all numericId &&
    match pre with
    | none => true
    | some pre => (split dot pre).all prereleaseId

/-- The comparison operator a range starts with, `""` for an exact version. -/
def rangeOp (range : Text) : Text :=
  if (js ">=").isPrefixOf range then js ">="
  else if (js "^").isPrefixOf range then js "^"
  else if (js "~").isPrefixOf range then js "~"
  else []

/-- `SemVerRange` -/
def isSemVerRange (t : Text) : Bool := isSemVer (t.drop (rangeOp t).length)

/-- `^[VPLCME]-\d{3}$` -/
def isPartId (t : Text) : Bool :=
  match t with
  | [letter, h, a, b, c] =>
      (js "VPLCME").contains letter && h == hyphen && isDigit a && isDigit b && isDigit c
  | _ => false

/-- `^[a-z][a-z0-9]*(\.[a-z0-9_]+)+$` -/
def isCapability (t : Text) : Bool :=
  match split dot t with
  | head :: tail =>
      head.head?.any isLower && head.all (fun c => isLower c || isDigit c) && tail != [] &&
        tail.all (fun s => s != [] && s.all (fun c => isLower c || isDigit c || c == 95))
  | [] => false

/-- `^[a-z0-9]+(-[a-z0-9]+)*-v\d+$` -/
def isConnectorId (t : Text) : Bool :=
  let pieces := split hyphen t
  2 ≤ pieces.length && pieces.all (fun s => s != [] && s.all (fun c => isLower c || isDigit c)) &&
    match pieces.getLast? with
    | some (v :: rest) => v == 118 && rest != [] && rest.all isDigit
    | _ => false

/-- `^0x(0[89a-f]|[1-6][0-9a-f]|7[0-7])$` -/
def isI2cAddress (t : Text) : Bool :=
  match t with
  | [z, x, a, b] =>
      z == 48 && x == 120 &&
        ((a == 48 && (b == 56 || b == 57 || (97 ≤ b && b ≤ 102))) ||
          (49 ≤ a && a ≤ 54 && (isDigit b || (97 ≤ b && b ≤ 102))) ||
          (a == 55 && 48 ≤ b && b ≤ 55))
  | _ => false

/-- `^[a-z0-9]+(-[a-z0-9]+)*$`, and not the reserved `primary`. -/
def isInputName (t : Text) : Bool :=
  (split hyphen t).all (fun s => s != [] && s.all (fun c => isLower c || isDigit c)) &&
    t != js "primary"

/-- `^hsx-driver-[a-z0-9-]+$` -/
def isDriverPkg (t : Text) : Bool :=
  (js "hsx-driver-").isPrefixOf t && t.drop 11 != [] &&
    (t.drop 11).all (fun c => isLower c || isDigit c || c == hyphen)

/-- A list that `new Set` does not shrink. -/
def distinct [DecidableEq α] (l : List α) : Bool := decide l.Nodup

section Checks

variable {ν : Type} [JsNumber ν]

open JsNumber

def positive (n : ν) : Bool := isFinite n && lt (ofNat 0) n

def nonnegative (n : ν) : Bool := isFinite n && le (ofNat 0) n

/-- `[min, max]` volts. -/
def isVoltageRange (r : ν × ν) : Bool := positive r.1 && positive r.2 && le r.1 r.2

def isFraction (n : ν) : Bool := positive n && le n (ofNat 1)

def isValueCapability (capability : Text) : Bool :=
  (js "read.").isPrefixOf capability || (js "act.").isPrefixOf capability

def Supply.accepted (s : Supply ν) : Bool :=
  isVoltageRange s.outputV && positive s.maxOutputMa && s.capacityMah.all positive

def PartElectrical.accepted (e : PartElectrical ν) : Bool :=
  isConnectorId e.connector && isVoltageRange e.voltageRange &&
    e.altInputs.all (fun inputs =>
      inputs.all (fun i => isInputName i.name && isVoltageRange i.voltageRange) &&
        distinct (inputs.map (·.name))) &&
    nonnegative e.currentDrawMa.idle && nonnegative e.currentDrawMa.active &&
    le e.currentDrawMa.idle e.currentDrawMa.active &&
    e.requires.all isCapability && e.conflicts.all isPartId && e.i2cAddress.all isI2cAddress &&
    e.logicV.all isVoltageRange && e.supply.all Supply.accepted

def PartSoftware.accepted (s : PartSoftware) : Bool :=
  s.driverPkg.all isDriverPkg && s.driverVersion.all isSemVer &&
    s.driverPkg.isNone == s.driverVersion.isNone &&
    s.capabilities != [] && s.capabilities.all isCapability && isSemVerRange s.minRuntime

def PartDefinition.peripheral (p : PartDefinition ν) : Bool :=
  p.electrical.interface != .host && p.electrical.interface != .power

/-- `PartDefinition`, field by field and then across fields. -/
def PartDefinition.accepted (p : PartDefinition ν) : Bool :=
  isPartId p.id && isSemVer p.version && p.electrical.accepted && p.software.accepted &&
    p.unitCostUsd.all positive &&
    -- The letter of the id is the category's, and energy parts declare supply.
    (p.id.head? != some 69 || p.electrical.supply.isSome) &&
    (p.electrical.interface == .i2c) == p.electrical.i2cAddress.isSome &&
    (p.electrical.interface != .host || p.electrical.logicV.any (fun v => eq v.1 v.2)) &&
    (p.electrical.interface != .power || p.electrical.logicV.isNone) &&
    (p.status == .draft ||
      (p.unitCostUsd.isSome &&
        ((!p.peripheral && !p.software.capabilities.any isValueCapability) ||
          p.software.driverPkg.isSome) &&
        (!p.peripheral || p.electrical.logicV.isSome)))

def ConnectorDefinition.accepted (c : ConnectorDefinition ν) : Bool :=
  isConnectorId c.id && c.interfaces != [] && positive c.maxVoltage

def PartPin.accepted (p : PartPin) : Bool := isPartId p.id && isSemVer p.version

def ProfilePort.accepted (p : ProfilePort ν) : Bool :=
  p.id != [] && p.interface != .host && p.interface != .power && isConnectorId p.connector &&
    positive p.maxCurrentMa && p.resources != [] && p.resources.all (· != []) &&
    1 ≤ p.capacity && p.capacity ≤ 112 && (p.interface == .i2c || p.capacity == 1) &&
    distinct p.resources

def Activity.accepted (a : Activity ν) : Bool :=
  a.part.accepted && nonnegative a.activeS && a.evidence != []

/-- `AssemblyProfile` -/
def AssemblyProfile.accepted (p : AssemblyProfile ν) : Bool :=
  1 ≤ p.id.length && p.id.length ≤ 120 && isSemVer p.version && 1 ≤ p.evidence.length &&
    p.evidence.length ≤ 1000 && p.brain.accepted && p.source.accepted &&
    isConnectorId p.sourceConnector && p.brainInput != [] && isFraction p.regulatorEfficiency &&
    nonnegative p.quiescentSourceMa && isFraction p.batteryUsableFraction &&
    p.ports.length ≤ 32 && p.ports.all ProfilePort.accepted &&
    p.activity.length ≤ 24 && p.activity.all Activity.accepted &&
    distinct (p.ports.map (·.id)) && distinct (p.activity.map (fun a => pinKey a.part))

def CompatEntry.accepted (c : CompatEntry) : Bool :=
  c.driverPkg != [] && isSemVer c.driverVer && isSemVer c.runtimeVer && isPartId c.brainId

/-- `` `${driver_pkg}@${driver_ver}/${runtime_ver}/${brain_id}` `` -/
def CompatEntry.key (c : CompatEntry) : Text :=
  c.driverPkg ++ js "@" ++ c.driverVer ++ js "/" ++ c.runtimeVer ++ js "/" ++ c.brainId

def SolveSpec.accepted (s : SolveSpec ν) : Bool :=
  1 ≤ s.capabilities.length && s.capabilities.length ≤ 24 && s.capabilities.all isCapability &&
    positive s.intervalS && s.targetLifeDays.all positive && isSemVer s.runtime

/-- `SolveInput`: what a search may start from. -/
def SolveInput.accepted (i : SolveInput ν) : Bool :=
  i.spec.accepted &&
    i.parts.length ≤ 24 && i.parts.all PartDefinition.accepted &&
    i.connectors.length ≤ 64 && i.connectors.all ConnectorDefinition.accepted &&
    i.profiles.length ≤ 32 && i.profiles.all AssemblyProfile.accepted &&
    i.compat.length ≤ 4096 && i.compat.all CompatEntry.accepted &&
    1 ≤ i.maxSteps && i.maxSteps ≤ 1000000 && 1 ≤ i.maxPlans && i.maxPlans ≤ 20 &&
    distinct (i.parts.map (fun p => pinKey p.pin)) && distinct (i.connectors.map (·.id)) &&
    distinct (i.profiles.map AssemblyProfile.key) && distinct (i.compat.map CompatEntry.key)

end Checks

end Albusforge.Matcher
