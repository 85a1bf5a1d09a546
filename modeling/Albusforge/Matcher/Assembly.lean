import Albusforge.Matcher.SolveSpec

/-!
# Assemblies

An `Assembly` is one way to build something: a profile, its brain and source, the
supplies they run on, and the peripherals, each with the port it is wired to.

`Assembly.Passes` says that every check of the code lets it through, in the order
in which the code makes them. It is the bridge between the search, which is about
runs, and the constraints, which are about assemblies: a selection has a plan
exactly when an assembly of it passes (`planOf_some`, `planOf_of_passes`), whatever the
numbers are.
-/

namespace Albusforge.Matcher

open Lib JsNumber

variable {ν : Type}

structure Assembly (ν : Type) where
  profile : AssemblyProfile ν
  brain : PartDefinition ν
  source : PartDefinition ν
  output : Supply ν
  rail : Supply ν
  window : ν × ν
  placed : List (PartDefinition ν × ProfilePort ν)

namespace Assembly

def peripherals (a : Assembly ν) : List (PartDefinition ν) := a.placed.map Prod.fst

def parts (a : Assembly ν) : List (PartDefinition ν) := a.brain :: a.source :: a.peripherals

def wiring (a : Assembly ν) : List WiringEdge := a.placed.map (fun x => edgeFor x.1 x.2)

def context (a : Assembly ν) (input : SolveInput ν) (target : Option ν) : WireContext ν where
  brain := a.brain
  source := a.source
  peripherals := a.peripherals
  profile := a.profile
  input := input
  targetDays := target
  brainInput := a.window
  output := a.output
  rail := a.rail
  ports := sortBy (fun p q => compareText p.id q.id) a.profile.ports

end Assembly

variable [JsNumber ν]

/-- The peripherals can be placed one after the other, after the edges of `wiring`. -/
def Placeable (ctx : WireContext ν) :
    List WiringEdge → List (PartDefinition ν × ProfilePort ν) → Prop
  | _, [] => True
  | wiring, (part, port) :: rest =>
      port ∈ ctx.ports ∧ ctx.portFits part port = true ∧ ctx.portFree part port wiring = true ∧
        Placeable ctx (wiring ++ [edgeFor part port]) rest

theorem mem_assignments {ctx : WireContext ν} :
    ∀ (parts : List (PartDefinition ν)) (wiring : List WiringEdge) {w : List WiringEdge},
      w ∈ assignments ctx parts wiring ↔
        ∃ placed : List (PartDefinition ν × ProfilePort ν), placed.map Prod.fst = parts ∧
          w = wiring ++ placed.map (fun x => edgeFor x.1 x.2) ∧ Placeable ctx wiring placed
  | [], wiring, w => by
      simp only [assignments, List.mem_singleton, List.map_eq_nil_iff]
      constructor
      · rintro rfl
        exact ⟨[], rfl, by simp, trivial⟩
      · rintro ⟨placed, rfl, hw, _⟩
        simpa using hw
  | part :: rest, wiring, w => by
      rw [assignments, List.mem_flatMap]
      constructor
      · rintro ⟨port, hport, hw⟩
        split at hw
        · rename_i hok
          obtain ⟨placed, hparts, rfl, hplaced⟩ := (mem_assignments rest _).mp hw
          obtain ⟨hfits, hfree⟩ := Bool.and_eq_true_iff.mp hok
          exact ⟨(part, port) :: placed, by simp [hparts], by simp, hport, hfits, hfree, hplaced⟩
        · exact absurd hw (by simp)
      · rintro ⟨placed, hparts, rfl, hplaced⟩
        match placed, hparts, hplaced with
        | (p, port) :: placed, hparts, ⟨hport, hfits, hfree, hplaced⟩ =>
            obtain ⟨rfl, hrest⟩ := List.cons.inj hparts
            refine ⟨port, hport, ?_⟩
            rw [if_pos (by rw [hfits, hfree]; rfl)]
            exact (mem_assignments rest _).mpr ⟨placed, hrest, by simp, hplaced⟩

/-! ## The best leaf -/

def WireContext.admits (ctx : WireContext ν) (wiring : List WiringEdge) : Bool :=
  (ctx.leafFailure (ctx.budget wiring)).isNone

theorem admits_iff {ctx : WireContext ν} {wiring : List WiringEdge} :
    ctx.admits wiring = true ↔
      (ctx.budget wiring).finite = true ∧
      (gt (ctx.budget wiring).peakBrainRailMa ctx.rail.maxOutputMa = false ∧
        gt (ctx.budget wiring).peakSourceMa ctx.output.maxOutputMa = false) ∧
      ∀ target, ctx.targetDays = some target →
        ∃ days, (ctx.budget wiring).estimatedLifeDays = some days ∧ lt days target = false := by
  unfold WireContext.admits WireContext.leafFailure
  by_cases hfin : (ctx.budget wiring).finite = true
  · by_cases hpeak : gt (ctx.budget wiring).peakBrainRailMa ctx.rail.maxOutputMa = false ∧
        gt (ctx.budget wiring).peakSourceMa ctx.output.maxOutputMa = false
    · cases ctx.targetDays with
      | none => simp [hfin, hpeak]
      | some target =>
          cases (ctx.budget wiring).estimatedLifeDays with
          | none => simp [hfin, hpeak]
          | some days => simp [hfin, hpeak]
    · have hpeak' : (gt (ctx.budget wiring).peakBrainRailMa ctx.rail.maxOutputMa ||
          gt (ctx.budget wiring).peakSourceMa ctx.output.maxOutputMa) = true := by
        by_contra hne
        rw [Bool.not_eq_true, Bool.or_eq_false_iff] at hne
        exact hpeak hne
      simp [hfin, hpeak, hpeak']
  · simp [hfin]

def drawsLess (x y : List WiringEdge × PowerBudget ν) : Bool :=
  lt x.2.averageSourceMa y.2.averageSourceMa

theorem leaves_best (ctx : WireContext ν) :
    ∀ (wirings : List (List WiringEdge)) (st : WireState ν),
      (leaves ctx st wirings).best =
        ((wirings.filter ctx.admits).map (fun w => (w, ctx.budget w))).foldl (better drawsLess)
          st.best
  | [], st => rfl
  | w :: wirings, st => by
      show (leaves ctx (ctx.leaf w st) wirings).best = _
      rw [leaves_best ctx wirings]
      cases hf : ctx.leafFailure (ctx.budget w) with
      | some failure =>
          have hadm : ctx.admits w = false := by simp [WireContext.admits, hf]
          rw [List.filter_cons_of_neg (by simp [hadm])]
          simp only [WireContext.leaf, hf]
      | none =>
          have hadm : ctx.admits w = true := by simp [WireContext.admits, hf]
          rw [List.filter_cons_of_pos hadm, List.map_cons, List.foldl_cons]
          congr 1
          have hless : (fun best : List WiringEdge × PowerBudget ν =>
              lt (ctx.budget w).averageSourceMa best.2.averageSourceMa)
              = drawsLess (w, ctx.budget w) := rfl
          simp only [WireContext.leaf, hf, better, hless]
          split <;> rfl

theorem wired_ok {brain source : PartDefinition ν} {peripherals : List (PartDefinition ν)}
    {profile : AssemblyProfile ν} {input : SolveInput ν} {target : Option ν}
    {wiring : List WiringEdge} {budget : PowerBudget ν}
    (h : wired brain source peripherals profile input target = .ok wiring budget) :
    ∃ ctx, powerPath brain source peripherals profile input target = .ok ctx ∧
      ((assignments ctx peripherals []).filter ctx.admits |>.map
        (fun w => (w, ctx.budget w))).foldl (better drawsLess) none = some (wiring, budget) := by
  unfold wired at h
  split at h
  · exact absurd h (by simp)
  · rename_i ctx hctx
    refine ⟨ctx, hctx, ?_⟩
    have hbest := leaves_best ctx (assignments ctx peripherals []) (.start profile)
    unfold WireState.result at h
    split at h
    · rename_i w b hb
      obtain ⟨rfl, rfl⟩ := WiringResult.ok.inj h
      rw [← hb, hbest]
      rfl
    · exact absurd h (by simp)

theorem wired_failed_iff {brain source : PartDefinition ν} {peripherals : List (PartDefinition ν)}
    {profile : AssemblyProfile ν} {input : SolveInput ν} {target : Option ν}
    {ctx : WireContext ν}
    (hctx : powerPath brain source peripherals profile input target = .ok ctx) :
    (∃ wiring budget, wired brain source peripherals profile input target = .ok wiring budget) ↔
      ∃ w ∈ assignments ctx peripherals [], ctx.admits w = true := by
  have hbest := leaves_best ctx (assignments ctx peripherals []) (.start profile)
  have hsome := foldl_better_isSome drawsLess
    (((assignments ctx peripherals []).filter ctx.admits).map (fun w => (w, ctx.budget w))) none
  have hwired : wired brain source peripherals profile input target
      = (leaves ctx (.start profile) (assignments ctx peripherals [])).result := by
    unfold wired
    rw [hctx]
  rw [hwired]
  unfold WireState.result
  rw [hbest]
  have hex : (∃ w ∈ assignments ctx peripherals [], ctx.admits w = true) ↔
      ((assignments ctx peripherals []).filter ctx.admits).map (fun w => (w, ctx.budget w)) ≠ [] := by
    rw [ne_eq, List.map_eq_nil_iff, List.filter_eq_nil_iff]
    push Not
    rfl
  rw [hex]
  have hstart : (WireState.start profile : WireState ν).best = none := rfl
  rw [hstart]
  simp only [Option.isSome_none, Bool.false_eq_true, false_or] at hsome
  rw [← hsome]
  cases List.foldl (better drawsLess) none
    (((assignments ctx peripherals []).filter ctx.admits).map (fun w => (w, ctx.budget w))) with
  | none => simp
  | some best => simp

/-! ## The power path -/

structure Powered (input : SolveInput ν) (a : Assembly ν) : Prop where
  output : a.source.electrical.supply = some a.output
  rail : a.brain.electrical.supply = some a.rail
  window : brainInputRange a.brain a.profile = some a.window
  connector : a.source.electrical.connector = a.profile.sourceConnector
  rated : ∃ c, findConnector input a.profile.sourceConnector = some c ∧
    lt c.maxVoltage a.output.outputV.2 = false
  notOver : lt a.window.2 a.output.outputV.2 = false
  reaches : lt a.output.outputV.2 a.window.1 = false
  holds : (a.output.capacityMah.isSome = true ∧
      js "power.battery" ∈ a.source.software.capabilities) ∨
    lt a.output.outputV.1 a.window.1 = false
  primary : a.profile.brainInput = js "primary" →
    ∀ c, findConnector input a.brain.electrical.connector = some c →
      lt c.maxVoltage a.output.outputV.2 = false

theorem powerPath_of_powered {input : SolveInput ν} {a : Assembly ν} (target : Option ν)
    (h : Powered input a) :
    powerPath a.brain a.source a.peripherals a.profile input target
      = .ok (a.context input target) := by
  obtain ⟨c, hc, hrated⟩ := h.rated
  have hbattery : (!(a.output.capacityMah.isSome &&
      a.source.software.capabilities.contains (js "power.battery")) &&
        lt a.output.outputV.1 a.window.1) = false := by
    rcases h.holds with ⟨h1, h2⟩ | h1
    · simp [h1, h2]
    · simp [h1]
  have hprimary : (decide (a.profile.brainInput = js "primary") &&
      (findConnector input a.brain.electrical.connector).any
        (fun c => lt c.maxVoltage a.output.outputV.2)) = false := by
    rw [Bool.and_eq_false_imp, decide_eq_true_eq]
    intro hp
    cases hfind : findConnector input a.brain.electrical.connector with
    | none => rfl
    | some c => simpa using h.primary hp c hfind
  unfold powerPath
  simp only [h.output, h.rail, h.window, h.connector, bne_self_eq_false, hc, Option.any_some,
    hrated, Bool.not_false, Bool.not_true, Bool.or_self, Bool.false_eq_true, if_false,
    JsNumber.gt, h.notOver, h.reaches, hbattery, hprimary]
  rfl

/-- **And only a powered one has.** -/
theorem powered_of_powerPath {brain source : PartDefinition ν}
    {peripherals : List (PartDefinition ν)} {profile : AssemblyProfile ν} {input : SolveInput ν}
    {target : Option ν} {ctx : WireContext ν}
    (h : powerPath brain source peripherals profile input target = .ok ctx) :
    ∃ output rail window, ∀ placed : List (PartDefinition ν × ProfilePort ν),
      placed.map Prod.fst = peripherals →
        Powered input ⟨profile, brain, source, output, rail, window, placed⟩ ∧
        ctx = Assembly.context ⟨profile, brain, source, output, rail, window, placed⟩ input
          target := by
  unfold powerPath at h
  split at h
  · rename_i output rail window houtput hrail hwindow
    dsimp only at h
    split at h
    · exact absurd h (by simp)
    split at h
    · exact absurd h (by simp)
    split at h
    · exact absurd h (by simp)
    rename_i hconn hvolt hprim
    refine ⟨output, rail, window, ?_⟩
    rintro placed rfl
    simp only [Bool.or_eq_true, bne_iff_ne, ne_eq, Bool.not_eq_true', not_or, not_not,
      Bool.not_eq_false] at hconn
    obtain ⟨c, hc, hrated⟩ := (Option.any_eq_true _ _).mp hconn.2
    simp only [Bool.or_eq_true, Bool.and_eq_true, JsNumber.gt, not_or, Bool.not_eq_true,
      Bool.not_eq_true', not_and] at hvolt
    refine ⟨⟨houtput, hrail, hwindow, hconn.1, ⟨c, hc, by simpa using hrated⟩, hvolt.1.1, hvolt.1.2,
      ?_, ?_⟩, ?_⟩
    · by_cases hb : output.capacityMah.isSome = true ∧
          js "power.battery" ∈ source.software.capabilities
      · exact Or.inl hb
      · refine Or.inr (hvolt.2 ?_)
        simpa using hb
    · intro hp c hc
      simp only [hc, Option.any_some, Bool.and_eq_true, decide_eq_true_eq, not_and,
        Bool.not_eq_true] at hprim
      exact hprim hp
    · exact (Except.ok.inj h).symm
  · exact absurd h (by simp)

/-! ## Assemblies and plans -/

structure Assembly.Passes (input : SolveInput ν) (q : Query ν) (a : Assembly ν) : Prop where
  profile : a.profile ∈ input.profiles
  base : basePair input a.profile = some (a.brain, a.source)
  chosen : a.peripherals.Sublist (candidates input a.brain a.source)
  ids : (a.peripherals.map (·.id)).Nodup
  covers : uncovered q.required a.parts = false
  sound : PartsOk a.parts a.brain input
  powered : Powered input a
  placeable : Placeable (a.context input q.target) [] a.placed
  admitted : (a.context input q.target).admits a.wiring = true
  cost : isFinite (totalCost a.parts) = true

def Assembly.plan (a : Assembly ν) (input : SolveInput ν) (target : Option ν) : BuildPlan ν :=
  buildPlan input a.profile a.brain a.source a.parts a.wiring
    ((a.context input target).budget a.wiring)

theorem planOf_some {input : SolveInput ν} {q : Query ν} {profile : AssemblyProfile ν}
    {brain source : PartDefinition ν} {peripherals : List (PartDefinition ν)} {plan : BuildPlan ν}
    (hprofile : profile ∈ input.profiles) (hbase : basePair input profile = some (brain, source))
    (hchosen : peripherals.Sublist (candidates input brain source))
    (hids : (peripherals.map (·.id)).Nodup)
    (h : planOf input q profile brain source peripherals = some plan) :
    ∃ a : Assembly ν, a.Passes input q ∧ a.profile = profile ∧ a.peripherals = peripherals ∧
      plan = a.plan input q.target ∧
      ((assignments (a.context input q.target) peripherals []).filter
        (a.context input q.target).admits |>.map
        (fun w => (w, (a.context input q.target).budget w))).foldl (better drawsLess) none
          = some (a.wiring, (a.context input q.target).budget a.wiring) := by
  have hsound := planOf_parts h
  unfold planOf at h
  dsimp only at h
  split at h
  · exact absurd h (by simp)
  rename_i hcov
  split at h
  · exact absurd h (by simp)
  split at h
  · exact absurd h (by simp)
  rename_i wiring budget hwired
  split at h
  · exact absurd h (by simp)
  rename_i hcost
  obtain ⟨ctx, hctx, hbest⟩ := wired_ok hwired
  have hmem := (foldl_better_mem _ _ hbest).resolve_left (by simp)
  obtain ⟨w, hw, heq⟩ := List.mem_map.mp hmem
  obtain ⟨rfl, rfl⟩ := Prod.mk.inj heq
  obtain ⟨hreach, hadm⟩ := List.mem_filter.mp hw
  obtain ⟨placed, rfl, rfl, hplaced⟩ := (mem_assignments _ _).mp hreach
  obtain ⟨output, rail, window, hpow⟩ := powered_of_powerPath hctx
  obtain ⟨hpowered, rfl⟩ := hpow placed rfl
  refine ⟨⟨profile, brain, source, output, rail, window, placed⟩, ?_, rfl, rfl,
    (Option.some.inj h).symm, hbest⟩
  have hcov' : uncovered q.required (brain :: source :: placed.map Prod.fst) = false := by
    simpa using hcov
  have hcost' : isFinite (totalCost (brain :: source :: placed.map Prod.fst)) = true := by
    simpa using hcost
  exact ⟨hprofile, hbase, hchosen, hids, hcov', hsound, hpowered, hplaced, hadm, hcost'⟩

theorem planOf_of_passes {input : SolveInput ν} {q : Query ν} {a : Assembly ν}
    (h : a.Passes input q) :
    ∃ plan, planOf input q a.profile a.brain a.source a.peripherals = some plan := by
  have hctx := powerPath_of_powered q.target h.powered
  have hreach : a.wiring ∈ assignments (a.context input q.target) a.peripherals [] :=
    (mem_assignments _ _).mpr ⟨a.placed, rfl, rfl, h.placeable⟩
  obtain ⟨wiring, budget, hwired⟩ := (wired_failed_iff hctx).mpr ⟨_, hreach, h.admitted⟩
  have hfail := checkParts_eq_nil.mpr h.sound
  have hcov := h.covers
  have hcost := h.cost
  unfold Assembly.parts at hfail hcov hcost
  refine ⟨buildPlan input a.profile a.brain a.source (a.brain :: a.source :: a.peripherals) wiring
    budget, ?_⟩
  unfold planOf
  simp only [hcov, hfail, hwired, hcost, bne_self_eq_false, Bool.false_eq_true, if_false,
    Bool.not_true]

omit [JsNumber ν] in
theorem mem_sortedProfiles {input : SolveInput ν} {profile : AssemblyProfile ν} :
    profile ∈ sortedProfiles input ↔ profile ∈ input.profiles := mem_sortBy

theorem unmet_eq_false_iff {input : SolveInput ν} {needs : List Text} :
    unmet input needs = false ↔ ∃ a : Assembly ν, a.Passes input (query input.spec needs true) := by
  unfold unmet
  rw [List.isEmpty_eq_false_iff_exists_mem]
  constructor
  · rintro ⟨plan, hplan⟩
    obtain ⟨profile, hprofile, hplan⟩ := List.mem_flatMap.mp hplan
    unfold profilePlans at hplan
    split at hplan
    · exact absurd hplan (by simp)
    · rename_i brain source hbase
      obtain ⟨l, hl, hplan⟩ := List.mem_filterMap.mp hplan
      obtain ⟨t, ht, hlt, hids⟩ := (mem_pick _ _ (by simp)).mp hl
      obtain rfl : l = t := by simpa using hlt
      obtain ⟨a, ha, _⟩ := planOf_some (mem_sortedProfiles.mp hprofile) hbase ht hids hplan
      exact ⟨a, ha⟩
  · rintro ⟨a, ha⟩
    obtain ⟨plan, hplan⟩ := planOf_of_passes ha
    refine ⟨plan, List.mem_flatMap.mpr ⟨a.profile, mem_sortedProfiles.mpr ha.profile, ?_⟩⟩
    unfold profilePlans
    rw [ha.base]
    exact List.mem_filterMap.mpr
      ⟨a.peripherals, (mem_pick _ _ (by simp)).mpr ⟨_, ha.chosen, by simp, ha.ids⟩, hplan⟩

end Albusforge.Matcher
