import Albusforge.Matcher.Assembly

/-!
# Conflict sets

When nothing can be built, the solver names requirements to give up. It tries each
requirement once, in a fixed order, and never returns to one it kept. That is
enough because buildability is antitone in the requirements (`Passes.of_subset`):
an assembly that meets more requirements meets fewer, through the coverage check
and the battery filter alike.
-/

namespace Albusforge.Matcher

open Lib JsNumber

variable {ν : Type} [JsNumber ν]

def Buildable (input : SolveInput ν) (needs : List Text) : Prop :=
  ∃ a : Assembly ν, a.Passes input (query input.spec needs true)

theorem placeable_target {a : Assembly ν} {input : SolveInput ν} {t t' : Option ν} :
    ∀ (placed : List (PartDefinition ν × ProfilePort ν)) (wiring : List WiringEdge),
      Placeable (a.context input t) wiring placed → Placeable (a.context input t') wiring placed
  | [], _, _ => trivial
  | (_, _) :: rest, _, ⟨hport, hfits, hfree, hrest⟩ =>
      ⟨hport, hfits, hfree, placeable_target rest _ hrest⟩

theorem admits_without_target {a : Assembly ν} {input : SolveInput ν} {t : Option ν}
    {wiring : List WiringEdge} (h : (a.context input t).admits wiring = true) :
    (a.context input none).admits wiring = true := by
  obtain ⟨hfinite, hpeaks, -⟩ := admits_iff.mp h
  exact admits_iff.mpr ⟨hfinite, hpeaks, fun _ ht => absurd ht (by simp [Assembly.context])⟩

/-- **An assembly that meets more requirements meets fewer.** -/
theorem Assembly.Passes.of_subset {input : SolveInput ν} {a : Assembly ν} {needs needs' : List Text}
    (hsub : needs ⊆ needs') (h : a.Passes input (query input.spec needs' true)) :
    a.Passes input (query input.spec needs true) := by
  have hrequired : (query input.spec needs true).required
      ⊆ (query input.spec needs' true).required := by
    intro c hc
    obtain ⟨n, hn, rfl⟩ := List.mem_map.mp hc
    obtain ⟨hn1, hn2⟩ := List.mem_filter.mp hn
    exact List.mem_map.mpr ⟨n, List.mem_filter.mpr ⟨hsub hn1, hn2⟩, rfl⟩
  refine ⟨h.profile, h.base, h.chosen, h.ids, ?_, h.sound, h.powered,
    placeable_target _ _ h.placeable, ?_, h.cost⟩
  · have hcov := h.covers
    unfold uncovered at hcov ⊢
    rw [List.any_eq_false] at hcov ⊢
    exact fun c hc => hcov c (hrequired hc)
  · by_cases ht : needs.contains (js "target_life_days") = true
    · have ht' : needs'.contains (js "target_life_days") = true := by
        rw [List.contains_iff_mem] at ht ⊢
        exact hsub ht
      have hsame : (query input.spec needs true).target = (query input.spec needs' true).target := by
        simp only [query, ht, ht', if_true]
      rw [hsame]
      exact h.admitted
    · have hnone : (query input.spec needs true).target = none := by
        unfold query
        dsimp only
        rw [if_neg ht]
      rw [hnone]
      exact admits_without_target h.admitted

theorem unmet_mono {input : SolveInput ν} (needs needs' : List Text) (hsub : needs ⊆ needs')
    (h : unmet input needs = true) : unmet input needs' = true := by
  by_contra hne
  obtain ⟨a, ha⟩ := unmet_eq_false_iff.mp (by simpa using hne)
  rw [unmet_eq_false_iff.mpr ⟨a, ha.of_subset hsub⟩] at h
  exact absurd h (by simp)

theorem unmet_iff {input : SolveInput ν} {needs : List Text} :
    unmet input needs = true ↔ ¬ Buildable input needs := by
  rw [← Bool.not_eq_false, not_iff_not]
  exact unmet_eq_false_iff

theorem solveAccepted_infeasible {input : SolveInput ν} {conflict : List Text}
    {diagnostics : List Failure} {explanation : Text} {steps : ℕ}
    (h : solveAccepted input = .infeasible conflict diagnostics explanation steps) :
    unmet input (requirements input.spec) = true ∧
      conflict = deletePass (unmet input) (requirements input.spec) (requirements input.spec) := by
  unfold solveAccepted at h
  split at h
  · exact absurd h (by simp)
  split at h
  · rename_i result s' hrun
    rcases solveBody_ok hrun with ⟨_, rfl⟩ | ⟨hunmet, _, rfl⟩
    · exact absurd h (by simp)
    · injection h with h _ _ _
      exact ⟨hunmet, h.symm⟩
  · exact absurd h (by simp)

/--
**Conflict sets are inclusion-minimal.**

Nothing meets the requirements of the set, and dropping any one of them leaves
requirements that something meets. The set is empty exactly when nothing can be
built even for no requirement at all.
-/
theorem conflictSet_minimal {input : SolveInput ν} {conflict : List Text}
    {diagnostics : List Failure} {explanation : Text} {steps : ℕ}
    (h : solveAccepted input = .infeasible conflict diagnostics explanation steps) :
    conflict ⊆ requirements input.spec ∧ ¬ Buildable input conflict ∧
      (∀ r ∈ conflict, Buildable input (conflict.filter (· != r))) ∧
      (conflict = [] ↔ ¬ Buildable input []) := by
  obtain ⟨hunmet, rfl⟩ := solveAccepted_infeasible h
  have hbad := deletePass_bad (requirements input.spec) _ hunmet
  have hsub := (deletePass_sublist (unmet input) (requirements input.spec)
    (requirements input.spec)).subset
  refine ⟨hsub, unmet_iff.mp hbad, ?_, ?_⟩
  · intro r hr
    have hfalse := deletePass_irredundant unmet_mono (requirements input.spec) _ r (hsub hr) hr
    exact unmet_eq_false_iff.mp hfalse
  · constructor
    · intro hnil
      rw [hnil] at hbad
      exact unmet_iff.mp hbad
    · intro hnone
      rw [List.eq_nil_iff_forall_not_mem]
      intro r hr
      have hfalse := deletePass_irredundant unmet_mono (requirements input.spec) _ r (hsub hr) hr
      -- with nothing buildable at all, no deletion could have been refused
      rw [unmet_mono [] _ (List.nil_subset _) (unmet_iff.mpr hnone)] at hfalse
      exact absurd hfalse (by simp)

/-! ## A bench request -/

def benchBrain : PartDefinition ℚ where
  id := js "C-001"
  version := js "1.0.0"
  status := .active
  electrical :=
    { interface := .host, connector := js "usb-v1", voltageRange := (4, 6), altInputs := none,
      currentDrawMa := ⟨1, 100⟩, requires := [], conflicts := [], i2cAddress := none,
      logicV := some (3, 3), supply := some ⟨(3, 3), 500, none⟩ }
  software := ⟨none, none, [js "net.wifi", js "bus.i2c"], js ">=0.1.0"⟩
  unitCostUsd := some 10

def benchSource : PartDefinition ℚ where
  id := js "E-001"
  version := js "1.0.0"
  status := .active
  electrical :=
    { interface := .power, connector := js "usb-v1", voltageRange := (5, 5), altInputs := none,
      currentDrawMa := ⟨0, 0⟩, requires := [], conflicts := [], i2cAddress := none,
      logicV := none, supply := some ⟨(5, 5), 1000, none⟩ }
  software := ⟨none, none, [js "power.5v"], js ">=0.1.0"⟩
  unitCostUsd := some 5

def benchSensor : PartDefinition ℚ where
  id := js "P-001"
  version := js "1.0.0"
  status := .active
  electrical :=
    { interface := .i2c, connector := js "qwiic-v1", voltageRange := (2, 4), altInputs := none,
      currentDrawMa := ⟨0, 2⟩, requires := [js "bus.i2c"], conflicts := [],
      i2cAddress := some (js "0x23"), logicV := some (2, 4), supply := none }
  software :=
    ⟨some (js "hsx-driver-bme280"), some (js "1.0.0"), [js "read.temperature_c"], js ">=0.1.0"⟩
  unitCostUsd := some 3

def benchProfile : AssemblyProfile ℚ where
  id := js "bench"
  version := js "1.0.0"
  evidence := js "bench"
  brain := benchBrain.pin
  source := benchSource.pin
  sourceConnector := js "usb-v1"
  brainInput := js "primary"
  regulatorEfficiency := 1 / 2
  quiescentSourceMa := 0
  batteryUsableFraction := 1
  ports := [⟨js "i2c", .i2c, js "qwiic-v1", .brain, 100, [js "sda", js "scl"], 4⟩]
  activity := []

def benchInput (capabilities : List Text) : SolveInput ℚ where
  spec := ⟨capabilities, .wifi, .usb, 60, none, js "0.1.0"⟩
  parts := [benchSensor, benchBrain, benchSource]
  connectors := [⟨js "usb-v1", [.host, .power], 6⟩, ⟨js "qwiic-v1", [.i2c], 5⟩]
  profiles := [benchProfile]
  compat := [⟨js "hsx-driver-bme280", js "1.0.0", js "0.1.0", js "C-001", .passed⟩]
  maxSteps := 1000
  maxPlans := 3

def benchAsked : List Text := [js "read.temperature_c", js "read.foo"]

/-- On the bench, the capability no part has is the whole conflict. -/
theorem conflictSet_minimal_bench :
    ¬ Buildable (benchInput benchAsked) [js "capability:read.foo"] ∧
      Buildable (benchInput benchAsked) [] := by
  have hrun : solveAccepted (benchInput benchAsked) =
      .infeasible [js "capability:read.foo"]
        [⟨.coverage, js "No active part provides read.foo"⟩]
        (explain [js "capability:read.foo"]
          [⟨.coverage, js "No active part provides read.foo"⟩]) 12 := by
    decide +kernel
  obtain ⟨-, hnot, hdrop, -⟩ := conflictSet_minimal hrun
  exact ⟨hnot, by simpa using hdrop (js "capability:read.foo") (by simp)⟩

end Albusforge.Matcher
