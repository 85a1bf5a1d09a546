import Albusforge.Matcher.Types

/-!
# Power

`apps/matcher/src/power.ts`. Currents are compared on their own rails, and the
load of the regulated rail is referred back to the source at its minimum usable
voltage, with the profile's measured losses.
-/

namespace Albusforge.Matcher

open Lib JsNumber

variable {ν : Type} [JsNumber ν]

def containsVoltage (input source : ν × ν) : Bool := le input.1 source.1 && le source.2 input.2

def averageCurrent (part : PartDefinition ν) (interval : ν) (profile : AssemblyProfile ν) : ν :=
  let activity := profile.activity.find? (fun x => pinKey x.part == pinKey part.pin)
  let duty := match activity with
    | some a => JsNumber.min (ofNat 1) (a.activeS / interval)
    | none => ofNat 1
  let draw := part.electrical.currentDrawMa
  draw.idle + (draw.active - draw.idle) * duty

/-- The four sums `powerBudget` accumulates over the peripherals. -/
structure Loads (ν : Type) where
  railPeak : ν
  railAverage : ν
  directPeak : ν
  directAverage : ν

def Loads.add (wiring : List WiringEdge) (profile : AssemblyProfile ν) (interval : ν)
    (loads : Loads ν) (part : PartDefinition ν) : Loads ν :=
  let active := part.electrical.currentDrawMa.active
  let average := averageCurrent part interval profile
  if (wiring.find? (fun x => pinKey x.part == pinKey part.pin)).any (·.rail == .brain) then
    { loads with railPeak := loads.railPeak + active, railAverage := loads.railAverage + average }
  else
    { loads with
      directPeak := loads.directPeak + active, directAverage := loads.directAverage + average }

/--
The budget of a complete wiring. `input`, `output` and `rail` are the brain's
input window and the two supplies: the caller has found them before it asks.
-/
def powerBudget (input : ν × ν) (output rail : Supply ν) (brain source : PartDefinition ν)
    (peripherals : List (PartDefinition ν)) (wiring : List WiringEdge)
    (profile : AssemblyProfile ν) (spec : SolveSpec ν) : PowerBudget ν :=
  let sourceMin := JsNumber.max output.outputV.1 input.1
  let railMax := rail.outputV.2
  let loads := peripherals.foldl (Loads.add wiring profile spec.intervalS)
    { railPeak := brain.electrical.currentDrawMa.active
      railAverage := averageCurrent brain spec.intervalS profile
      directPeak := source.electrical.currentDrawMa.active
      directAverage := averageCurrent source spec.intervalS profile }
  let factor := railMax / (sourceMin * profile.regulatorEfficiency)
  let average := loads.directAverage + loads.railAverage * factor + profile.quiescentSourceMa
  let peak := loads.directPeak + loads.railPeak * factor + profile.quiescentSourceMa
  let usable := output.capacityMah.map (· * profile.batteryUsableFraction)
  { averageSourceMa := average
    peakSourceMa := peak
    peakBrainRailMa := loads.railPeak
    usableCapacityMah := usable
    estimatedLifeDays :=
      if eq average (ofNat 0) then none else usable.map (fun u => u / average / ofNat 24) }

/-- `Object.values(budget).every(value => value === null || Number.isFinite(value))` -/
def PowerBudget.finite (b : PowerBudget ν) : Bool :=
  isFinite b.averageSourceMa && isFinite b.peakSourceMa && isFinite b.peakBrainRailMa &&
    b.usableCapacityMah.all isFinite && b.estimatedLifeDays.all isFinite

end Albusforge.Matcher
