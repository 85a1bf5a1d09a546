import Mathlib.Algebra.BigOperators.Group.List.Basic
import Mathlib.Algebra.Order.BigOperators.Group.List
import Albusforge.Matcher.Accepted
import Albusforge.Matcher.Assembly

/-!
# The constraints, as a statement about an assembly

`Assembly.Valid` is what the matcher is for: the conditions under which a set of
parts, wired to the ports of a profile, works. No order of parts, edges or checks
appears in it, and the loads are sums over the whole assembly. Numbers are exact.

It is stated independently of the search. `Assembly.Passes.valid` and
`Assembly.Valid.passes` connect the two.
-/

namespace Albusforge.Matcher

open Lib

namespace Assembly

variable (a : Assembly ℚ)

def voltage (port : ProfilePort ℚ) : ℚ × ℚ :=
  match port.rail with
  | .brain => a.rail.outputV
  | .source => (a.output.outputV.1 ⊔ a.window.1, a.output.outputV.2)

def provider : Rail → PartDefinition ℚ
  | .brain => a.brain
  | .source => a.source

def load (draw : PartDefinition ℚ → ℚ) (rail : Rail) : ℚ :=
  ((a.placed.filter (fun x => x.2.rail = rail)).map (fun x => draw x.1)).sum

def portLoad (port : Text) : ℚ :=
  ((a.placed.filter (fun x => x.2.id = port)).map
    (fun x => x.1.electrical.currentDrawMa.active)).sum

def averageDraw (interval : ℚ) (p : PartDefinition ℚ) : ℚ := averageCurrent p interval a.profile

def factor : ℚ :=
  a.rail.outputV.2 / ((a.output.outputV.1 ⊔ a.window.1) * a.profile.regulatorEfficiency)

def peakRail : ℚ :=
  a.brain.electrical.currentDrawMa.active + a.load (·.electrical.currentDrawMa.active) .brain

def peakSource : ℚ :=
  a.source.electrical.currentDrawMa.active + a.load (·.electrical.currentDrawMa.active) .source +
    a.peakRail * a.factor + a.profile.quiescentSourceMa

def averageSource (interval : ℚ) : ℚ :=
  a.averageDraw interval a.source + a.load (a.averageDraw interval) .source +
    (a.averageDraw interval a.brain + a.load (a.averageDraw interval) .brain) * a.factor +
    a.profile.quiescentSourceMa

def usable : Option ℚ := a.output.capacityMah.map (· * a.profile.batteryUsableFraction)

def lifeDays (interval : ℚ) : Option ℚ :=
  if a.averageSource interval = 0 then none
  else a.usable.map (fun u => u / a.averageSource interval / 24)

/-- **The assembly works**, and provides what is required for as long as is asked. -/
structure Valid (input : SolveInput ℚ) (q : Query ℚ) (a : Assembly ℚ) : Prop where
  profile : a.profile ∈ input.profiles
  catalogue : ∀ p ∈ a.parts, p ∈ input.parts ∧ p.status = .active
  ids : (a.parts.map (·.id)).Nodup
  host : a.brain.electrical.interface = .host ∧ a.brain.pin = a.profile.brain
  power : a.source.electrical.interface = .power ∧ a.source.pin = a.profile.source
  peripheral : ∀ p ∈ a.peripherals,
    p.electrical.interface ≠ .host ∧ p.electrical.interface ≠ .power
  kind : powerCapability input.spec.powerSource ∈ a.source.software.capabilities
  capacity : input.spec.powerSource = .battery →
    ∃ c, a.output.capacityMah = some c ∧ c ≠ 0
  covers : ∀ c ∈ q.required, c ∈ capabilitiesOf a.parts
  /-- Every `requires` is provided, buses and pins by the brain. -/
  requires : ∀ p ∈ a.parts, ∀ need ∈ p.electrical.requires, need ∈ capabilitiesOf a.parts ∧
    (hostCapability need = true → need ∈ a.brain.software.capabilities)
  conflicts : ∀ p ∈ a.parts, ∀ id ∈ p.electrical.conflicts, ∀ p' ∈ a.parts, p'.id ≠ id
  addresses : a.parts.Pairwise AddressFree
  runtime : ∀ p ∈ a.parts, satisfiesRuntime input.spec.runtime p.software.minRuntime = true
  drivers : ∀ p ∈ a.parts, ∀ pkg, p.software.driverPkg = some pkg →
    ∃ row ∈ input.compat, row.driverPkg = pkg ∧ p.software.driverVersion = some row.driverVer ∧
      row.runtimeVer = input.spec.runtime ∧ row.brainId = a.brain.id ∧ row.status = .passed
  logic : ∀ p ∈ a.peripherals, ∃ window drive, p.electrical.logicV = some window ∧
    a.brain.electrical.logicV = some drive ∧ window.1 ≤ drive.1 ∧ drive.2 ≤ window.2
  connectors : ∀ p ∈ a.parts, ∃ c ∈ input.connectors, c.id = p.electrical.connector ∧
    p.electrical.interface ∈ c.interfaces
  output : a.source.electrical.supply = some a.output
  rail : a.brain.electrical.supply = some a.rail
  window : brainInputRange a.brain a.profile = some a.window
  sourceConnector : a.source.electrical.connector = a.profile.sourceConnector
  sourceRated : ∃ c ∈ input.connectors, c.id = a.profile.sourceConnector ∧
    a.output.outputV.2 ≤ c.maxVoltage
  inputWindow : a.window.1 ≤ a.output.outputV.2 ∧ a.output.outputV.2 ≤ a.window.2 ∧
    ((a.output.capacityMah.isSome = true ∧
        js "power.battery" ∈ a.source.software.capabilities) ∨
      a.window.1 ≤ a.output.outputV.1)
  inputRated : a.profile.brainInput = js "primary" → ∀ c ∈ input.connectors,
    c.id = a.brain.electrical.connector → a.output.outputV.2 ≤ c.maxVoltage
  ports : ∀ x ∈ a.placed, x.2 ∈ a.profile.ports ∧ x.2.interface = x.1.electrical.interface ∧
    x.2.connector = x.1.electrical.connector
  portRated : ∀ x ∈ a.placed, ∃ c ∈ input.connectors, c.id = x.2.connector ∧
    x.2.interface ∈ c.interfaces ∧ (a.voltage x.2).2 ≤ c.maxVoltage
  voltages : ∀ x ∈ a.placed, x.1.electrical.voltageRange.1 ≤ (a.voltage x.2).1 ∧
    (a.voltage x.2).2 ≤ x.1.electrical.voltageRange.2
  powering : ∀ x ∈ a.placed, ∀ need ∈ x.1.electrical.requires, (js "power.").isPrefixOf need = true →
    need ∈ (a.provider x.2.rail).software.capabilities
  room : ∀ x ∈ a.placed, (a.placed.filter (fun y => y.2.id = x.2.id)).length ≤ x.2.capacity
  pins : ∀ x ∈ a.placed, ∀ y ∈ a.placed, x.2.id ≠ y.2.id → ∀ r ∈ x.2.resources, r ∉ y.2.resources
  portCurrents : ∀ x ∈ a.placed, a.portLoad x.2.id ≤ x.2.maxCurrentMa
  railCurrent : a.peakRail ≤ a.rail.maxOutputMa
  sourceCurrent : a.peakSource ≤ a.output.maxOutputMa
  life : ∀ target, q.target = some target →
    ∃ days, a.lifeDays input.spec.intervalS = some days ∧ target ≤ days

end Assembly

end Albusforge.Matcher
