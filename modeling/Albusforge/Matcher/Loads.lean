import Albusforge.Matcher.Placement
import Albusforge.Matcher.Valid

/-!
# What an assembly draws

`powerBudget` finds each peripheral's rail by looking its edge up, and adds as it
goes. Over a placement with distinct parts that is the sum over the assembly
(`budget_eq`).
-/

namespace Albusforge.Matcher

open Lib

def railSum (draw : PartDefinition ℚ → ℚ) (rail : Rail)
    (placed : List (PartDefinition ℚ × ProfilePort ℚ)) : ℚ :=
  ((placed.filter (fun x => x.2.rail = rail)).map (fun x => draw x.1)).sum

theorem railSum_cons_of_eq {draw : PartDefinition ℚ → ℚ} {rail : Rail}
    {x : PartDefinition ℚ × ProfilePort ℚ} {rest : List (PartDefinition ℚ × ProfilePort ℚ)}
    (h : x.2.rail = rail) : railSum draw rail (x :: rest) = draw x.1 + railSum draw rail rest := by
  unfold railSum
  rw [List.filter_cons_of_pos (by simpa using h), List.map_cons, List.sum_cons]

theorem railSum_cons_of_ne {draw : PartDefinition ℚ → ℚ} {rail : Rail}
    {x : PartDefinition ℚ × ProfilePort ℚ} {rest : List (PartDefinition ℚ × ProfilePort ℚ)}
    (h : x.2.rail ≠ rail) : railSum draw rail (x :: rest) = railSum draw rail rest := by
  unfold railSum
  rw [List.filter_cons_of_neg (by simpa using h)]

theorem find?_edges {placed : List (PartDefinition ℚ × ProfilePort ℚ)}
    (hnd : (placed.map (fun x => pinKey x.1.pin)).Nodup)
    {x : PartDefinition ℚ × ProfilePort ℚ} (hx : x ∈ placed) :
    (edges placed).find? (fun e => pinKey e.part == pinKey x.1.pin) = some (edgeFor x.1 x.2) := by
  refine find?_eq_some_of_unique (List.mem_map.mpr ⟨x, hx, rfl⟩) (by simp [edgeFor]) ?_
  intro e he heq
  obtain ⟨y, hy, rfl⟩ := List.mem_map.mp he
  have hyx : y = x := Separates.of_nodup hnd y hy x hx (eq_of_beq heq)
  rw [hyx]

/-- **The loop adds each peripheral to the rail it is wired to.** -/
theorem foldl_loads {placed : List (PartDefinition ℚ × ProfilePort ℚ)}
    (hnd : (placed.map (fun x => pinKey x.1.pin)).Nodup) (profile : AssemblyProfile ℚ)
    (interval : ℚ) :
    ∀ (rest : List (PartDefinition ℚ × ProfilePort ℚ)), rest ⊆ placed → ∀ loads : Loads ℚ,
      (rest.map Prod.fst).foldl (Loads.add (edges placed) profile interval) loads =
        { railPeak := loads.railPeak + railSum (·.electrical.currentDrawMa.active) .brain rest
          railAverage := loads.railAverage +
            railSum (fun p => averageCurrent p interval profile) .brain rest
          directPeak := loads.directPeak + railSum (·.electrical.currentDrawMa.active) .source rest
          directAverage := loads.directAverage +
            railSum (fun p => averageCurrent p interval profile) .source rest }
  | [], _, loads => by simp [railSum]
  | x :: rest, hsub, loads => by
      have hx : x ∈ placed := hsub (by simp)
      rw [List.map_cons, List.foldl_cons,
        foldl_loads hnd profile interval rest (fun y hy => hsub (List.mem_cons_of_mem _ hy))]
      unfold Loads.add
      rw [find?_edges hnd hx]
      cases hrail : x.2.rail with
      | brain =>
          have hne : x.2.rail ≠ .source := by rw [hrail]; decide
          simp only [railSum_cons_of_eq hrail, railSum_cons_of_ne hne, Option.any_some, edgeFor,
            hrail, beq_self_eq_true, if_true, add_assoc]
      | source =>
          have hne : x.2.rail ≠ .brain := by rw [hrail]; decide
          simp only [railSum_cons_of_eq hrail, railSum_cons_of_ne hne, Option.any_some, edgeFor,
            hrail, show (Rail.source == Rail.brain) = false from rfl, Bool.false_eq_true, if_false,
            add_assoc]

theorem budget_eq (a : Assembly ℚ) (input : SolveInput ℚ) (target : Option ℚ)
    (hnd : (a.placed.map (fun x => pinKey x.1.pin)).Nodup) :
    (a.context input target).budget a.wiring =
      { averageSourceMa := a.averageSource input.spec.intervalS
        peakSourceMa := a.peakSource
        peakBrainRailMa := a.peakRail
        usableCapacityMah := a.usable
        estimatedLifeDays := a.lifeDays input.spec.intervalS } := by
  have hloads := foldl_loads hnd a.profile input.spec.intervalS a.placed (List.Subset.refl _)
  unfold WireContext.budget powerBudget
  simp only [Assembly.context, Assembly.wiring, Assembly.peripherals]
  simp only [edges] at hloads
  simp only [hloads, rat_eq, rat_max, rat_ofNat, decide_eq_true_eq, Nat.cast_zero,
    Nat.cast_ofNat]
  simp only [Assembly.lifeDays, Assembly.averageSource, Assembly.peakSource, Assembly.peakRail,
    Assembly.usable, Assembly.factor, Assembly.averageDraw, Assembly.load, railSum]
  rfl

end Albusforge.Matcher
