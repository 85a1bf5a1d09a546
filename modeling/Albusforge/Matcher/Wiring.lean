import Albusforge.Matcher.Conflicts
import Albusforge.Matcher.Refinement

/-!
# What the port assignment decides

`wire` on its own, for any parts, any profile and any input, called with a step that
never raises. `Wires` says what a map from peripherals to ports has to meet, with the
loads as sums over the whole map: no order of ports or peripherals appears in it. The
backtracking accepts exactly when such a map exists and keeps one that draws least
(`callWire_ok_iff`).
-/

namespace Albusforge.Matcher

open Lib

/-! ## The call -/

section Call

variable {ν : Type} [JsNumber ν] {ε σ : Type}

/-- `connectors.find(...)!` finds no connector for the brain's own input. -/
def inputConnectorMissing (brain : PartDefinition ν) (profile : AssemblyProfile ν)
    (input : SolveInput ν) : Bool :=
  decide (profile.brainInput = js "primary") &&
    (findConnector input brain.electrical.connector).isNone

/-- `wire` as it is called: reading `max_voltage` of a connector that was not found raises. -/
def callWire (typeError : ε) (brain source : PartDefinition ν)
    (peripherals : List (PartDefinition ν)) (profile : AssemblyProfile ν) (input : SolveInput ν)
    (targetDays : Option ν) (step : EStateM ε σ Unit) : EStateM ε σ (WiringResult ν) :=
  match powerPath brain source peripherals profile input targetDays with
  | .ok _ =>
      if inputConnectorMissing brain profile input then throw typeError
      else wire brain source peripherals profile input targetDays step
  | .error _ => wire brain source peripherals profile input targetDays step

theorem wireVisit_returns {step : EStateM ε σ Unit} (hstep : Returns step ()) (ctx : WireContext ν) :
    ∀ (rest : List (PartDefinition ν)) (wiring : List WiringEdge) (st : WireState ν),
      Returns (wireVisit step ctx rest wiring st) (leaves ctx st (assignments ctx rest wiring))
  | [], wiring, st => Returns.bind hstep (Returns.pure _)
  | part :: rest, wiring, st => by
      refine Returns.bind hstep ?_
      have hbody : ∀ (st : WireState ν) (port : ProfilePort ν),
          Returns
            (if ctx.portFits part port && ctx.portFree part port wiring then
              wireVisit step ctx rest (wiring ++ [edgeFor part port]) st
            else pure st)
            (leaves ctx st
              (if ctx.portFits part port && ctx.portFree part port wiring then
                assignments ctx rest (wiring ++ [edgeFor part port]) else [])) := by
        intro st port
        split
        · exact wireVisit_returns hstep ctx rest _ st
        · exact Returns.pure st
      have hfold := Returns.foldlM hbody ctx.ports st
      rwa [show List.foldl (fun st port => leaves ctx st _) st ctx.ports
        = leaves ctx st (assignments ctx (part :: rest) wiring) from
          List.foldl_flatMap.symm] at hfold

theorem wire_returns {step : EStateM ε σ Unit} (hstep : Returns step ())
    (brain source : PartDefinition ν) (peripherals : List (PartDefinition ν))
    (profile : AssemblyProfile ν) (input : SolveInput ν) (target : Option ν) :
    Returns (wire brain source peripherals profile input target step)
      (wired brain source peripherals profile input target) := by
  unfold wired wire
  cases powerPath brain source peripherals profile input target with
  | error failure => exact Returns.pure _
  | ok ctx => exact Returns.bind (wireVisit_returns hstep ctx peripherals [] _) (Returns.pure _)

theorem callWire_eq_ok_iff {step : EStateM ε σ Unit} (hstep : Returns step ()) {typeError : ε}
    {brain source : PartDefinition ν} {peripherals : List (PartDefinition ν)}
    {profile : AssemblyProfile ν} {input : SolveInput ν} {target : Option ν}
    {wiring : List WiringEdge} {budget : PowerBudget ν} (s : σ) :
    (∃ s', callWire typeError brain source peripherals profile input target step s
        = .ok (.ok wiring budget) s') ↔
      inputConnectorMissing brain profile input = false ∧
        wired brain source peripherals profile input target = .ok wiring budget := by
  obtain ⟨s₁, hs₁⟩ := wire_returns hstep brain source peripherals profile input target s
  unfold callWire
  cases hpath : powerPath brain source peripherals profile input target with
  | error failure =>
      have hwired : wired brain source peripherals profile input target = .failed failure := by
        unfold wired
        rw [hpath]
      simp only [hs₁, hwired, EStateM.Result.ok.injEq, reduceCtorEq, false_and, exists_false,
        and_false]
  | ok ctx =>
      cases inputConnectorMissing brain profile input with
      | true =>
          simp only [if_true, Bool.true_eq_false, false_and, iff_false, not_exists]
          intro s' hs'
          exact absurd hs' (by exact nofun)
      | false =>
          simp only [Bool.false_eq_true, if_false, hs₁, EStateM.Result.ok.injEq, exists_and_left,
            exists_eq', and_true, true_and]

end Call

/-! ## What a map has to meet -/

structure Assembly.Meets (input : SolveInput ℚ) (target : Option ℚ) (a : Assembly ℚ) : Prop where
  output : a.source.electrical.supply = some a.output
  rail : a.brain.electrical.supply = some a.rail
  window : brainInputRange a.brain a.profile = some a.window
  sourceConnector : a.source.electrical.connector = a.profile.sourceConnector
  sourceRated : ∃ c, findConnector input a.profile.sourceConnector = some c ∧
    a.output.outputV.2 ≤ c.maxVoltage
  inputWindow : a.window.1 ≤ a.output.outputV.2 ∧ a.output.outputV.2 ≤ a.window.2 ∧
    ((a.output.capacityMah.isSome = true ∧
        js "power.battery" ∈ a.source.software.capabilities) ∨
      a.window.1 ≤ a.output.outputV.1)
  inputRated : a.profile.brainInput = js "primary" →
    ∃ c, findConnector input a.brain.electrical.connector = some c ∧
      a.output.outputV.2 ≤ c.maxVoltage
  ports : ∀ x ∈ a.placed, x.2 ∈ a.profile.ports ∧ x.2.interface = x.1.electrical.interface ∧
    x.2.connector = x.1.electrical.connector
  portRated : ∀ x ∈ a.placed, ∃ c, findConnector input x.2.connector = some c ∧
    x.2.interface ∈ c.interfaces ∧ (a.voltage x.2).2 ≤ c.maxVoltage
  voltages : ∀ x ∈ a.placed, x.1.electrical.voltageRange.1 ≤ (a.voltage x.2).1 ∧
    (a.voltage x.2).2 ≤ x.1.electrical.voltageRange.2
  powering : ∀ x ∈ a.placed, ∀ need ∈ x.1.electrical.requires, (js "power.").isPrefixOf need = true →
    need ∈ (a.provider x.2.rail).software.capabilities
  room : ∀ x ∈ a.placed, (a.placed.filter (fun y => y.2.id = x.2.id)).length ≤ x.2.capacity
  pins : ∀ x ∈ a.placed, ∀ y ∈ a.placed, x.2.id ≠ y.2.id → ∀ r ∈ x.2.resources, r ∉ y.2.resources
  portCurrents : ∀ x ∈ a.placed, a.portLoad x.2.id ≤ x.2.maxCurrentMa
  railCurrent : a.peakRail ≤ a.rail.maxOutputMa
  sourceCurrent : a.peakSource ≤ a.output.maxOutputMa
  life : ∀ t, target = some t → ∃ days, a.lifeDays input.spec.intervalS = some days ∧ t ≤ days

section Maps

variable {input : SolveInput ℚ} {target : Option ℚ} {a : Assembly ℚ}

theorem powered_found_iff :
    (Powered input a ∧ inputConnectorMissing a.brain a.profile input = false) ↔
      (a.source.electrical.supply = some a.output ∧ a.brain.electrical.supply = some a.rail ∧
        brainInputRange a.brain a.profile = some a.window) ∧
      a.source.electrical.connector = a.profile.sourceConnector ∧
      (∃ c, findConnector input a.profile.sourceConnector = some c ∧
        a.output.outputV.2 ≤ c.maxVoltage) ∧
      (a.window.1 ≤ a.output.outputV.2 ∧ a.output.outputV.2 ≤ a.window.2 ∧
        ((a.output.capacityMah.isSome = true ∧
            js "power.battery" ∈ a.source.software.capabilities) ∨
          a.window.1 ≤ a.output.outputV.1)) ∧
      (a.profile.brainInput = js "primary" →
        ∃ c, findConnector input a.brain.electrical.connector = some c ∧
          a.output.outputV.2 ≤ c.maxVoltage) := by
  unfold inputConnectorMissing
  constructor
  · intro ⟨h, hfound⟩
    obtain ⟨c, hc, hrated⟩ := h.rated
    refine ⟨⟨h.output, h.rail, h.window⟩, h.connector, ⟨c, hc, by simpa using hrated⟩,
      ⟨by simpa using h.reaches, by simpa using h.notOver, by simpa using h.holds⟩, ?_⟩
    intro hp
    cases hfind : findConnector input a.brain.electrical.connector with
    | none => simp [hp, hfind] at hfound
    | some c => exact ⟨c, rfl, by simpa using h.primary hp c hfind⟩
  · intro ⟨⟨h1, h2, h3⟩, h4, ⟨c, hc, hrated⟩, ⟨h5, h6, h7⟩, h8⟩
    refine ⟨⟨h1, h2, h3, h4, ⟨c, hc, by simpa using hrated⟩, by simpa using h6,
      by simpa using h5, by simpa using h7, ?_⟩, ?_⟩
    · intro hp c' hc'
      obtain ⟨c, hc, hrated⟩ := h8 hp
      obtain rfl : c = c' := Option.some.inj (hc.symm.trans hc')
      simpa using hrated
    · by_cases hp : a.profile.brainInput = js "primary"
      · obtain ⟨c, hc, -⟩ := h8 hp
        simp [hc]
      · simp [hp]

theorem Assembly.context_regular_of_accepted (hprofile : a.profile.accepted = true)
    (hparts : ∀ p ∈ a.peripherals, p.accepted = true) (hpins : (a.peripherals.map (·.pin)).Nodup) :
    (a.context input target).Regular := by
  refine ⟨?_, ?_, ?_⟩
  · have hkeys : a.peripherals.map (fun p => pinKey p.pin) = (a.peripherals.map (·.pin)).map pinKey := by
      rw [List.map_map]
      rfl
    show (a.peripherals.map (fun p => pinKey p.pin)).Nodup
    rw [hkeys]
    refine List.Nodup.map_on ?_ hpins
    intro x hx y hy heq
    obtain ⟨p, hp, rfl⟩ := List.mem_map.mp hx
    obtain ⟨q, hq, rfl⟩ := List.mem_map.mp hy
    exact pinKey_injective (PartDefinition.accepted_pin (hparts p hp))
      (PartDefinition.accepted_pin (hparts q hq)) heq
  · exact ((sortBy_perm _ _).map _).nodup_iff.mpr (AssemblyProfile.accepted_keys hprofile).1
  · intro p hp
    exact nonnegative_rat (PartDefinition.accepted_active (hparts p hp))

theorem Assembly.meets_iff (hctx : (a.context input target).Regular) :
    a.Meets input target ↔
      (Powered input a ∧ inputConnectorMissing a.brain a.profile input = false) ∧
      Placeable (a.context input target) [] a.placed ∧
      (a.context input target).admits a.wiring = true := by
  have hkeys : (a.placed.map (fun x => pinKey x.1.pin)).Nodup := by
    have hnd : (a.peripherals.map (fun p => pinKey p.pin)).Nodup := hctx.peripherals
    unfold Assembly.peripherals at hnd
    rwa [List.map_map] at hnd
  have hplace : Placeable (a.context input target) [] a.placed ↔
      (∀ x ∈ a.placed, x.2 ∈ (a.context input target).ports ∧
        (a.context input target).portFits x.1 x.2 = true) ∧ Within ([] ++ a.placed) :=
    hctx.placeable_iff a.placed [] (fun y hy => List.mem_map.mpr ⟨y, hy, rfl⟩) (by simp) Within.nil
  have hmem : ∀ port : ProfilePort ℚ, port ∈ (a.context input target).ports ↔
      port ∈ a.profile.ports := fun _ => mem_sortBy
  rw [powered_found_iff, hplace, admits_wiring_iff hkeys]
  simp only [hmem, portFits_found_iff]
  constructor
  · intro h
    exact ⟨⟨⟨h.output, h.rail, h.window⟩, h.sourceConnector, h.sourceRated, h.inputWindow,
        h.inputRated⟩,
      ⟨fun x hx => ⟨(h.ports x hx).1, (h.ports x hx).2, h.portRated x hx, h.voltages x hx,
          h.powering x hx⟩, h.room, h.pins, h.portCurrents⟩,
      ⟨h.railCurrent, h.sourceCurrent⟩, h.life⟩
  · intro ⟨⟨⟨h1, h2, h3⟩, h4, h5, h6, h7⟩, ⟨hfits, hwithin⟩, ⟨h8, h9⟩, h10⟩
    exact
      { output := h1
        rail := h2
        window := h3
        sourceConnector := h4
        sourceRated := h5
        inputWindow := h6
        inputRated := h7
        ports := fun x hx => ⟨(hfits x hx).1, (hfits x hx).2.1⟩
        portRated := fun x hx => (hfits x hx).2.2.1
        voltages := fun x hx => (hfits x hx).2.2.2.1
        powering := fun x hx => (hfits x hx).2.2.2.2
        room := hwithin.room
        pins := hwithin.pins
        portCurrents := hwithin.currents
        railCurrent := h8
        sourceCurrent := h9
        life := h10 }

/-! ## Maps from peripherals to ports -/

def mapped (brain source : PartDefinition ℚ) (peripherals : List (PartDefinition ℚ))
    (profile : AssemblyProfile ℚ) (output rail : Supply ℚ) (window : ℚ × ℚ)
    (port : PartDefinition ℚ → ProfilePort ℚ) : Assembly ℚ where
  profile := profile
  brain := brain
  source := source
  output := output
  rail := rail
  window := window
  placed := peripherals.map fun p => (p, port p)

def Wires (brain source : PartDefinition ℚ) (peripherals : List (PartDefinition ℚ))
    (profile : AssemblyProfile ℚ) (input : SolveInput ℚ) (target : Option ℚ)
    (port : PartDefinition ℚ → ProfilePort ℚ) : Prop :=
  ∃ output rail window,
    (mapped brain source peripherals profile output rail window port).Meets input target

def mapEdges (peripherals : List (PartDefinition ℚ)) (port : PartDefinition ℚ → ProfilePort ℚ) :
    List WiringEdge := peripherals.map fun p => edgeFor p (port p)

/-- `powerBudget` of a wiring, where the parts have the supplies and the input it reads. -/
def budgetOf (brain source : PartDefinition ℚ) (peripherals : List (PartDefinition ℚ))
    (profile : AssemblyProfile ℚ) (input : SolveInput ℚ) (wiring : List WiringEdge) :
    Option (PowerBudget ℚ) := do
  let output ← source.electrical.supply
  let rail ← brain.electrical.supply
  let window ← brainInputRange brain profile
  pure (powerBudget window output rail brain source peripherals wiring profile input.spec)

section Search

variable {brain source : PartDefinition ℚ} {peripherals : List (PartDefinition ℚ)}
  {profile : AssemblyProfile ℚ} {output rail : Supply ℚ} {window : ℚ × ℚ}
  {port : PartDefinition ℚ → ProfilePort ℚ}

theorem mapped_peripherals :
    (mapped brain source peripherals profile output rail window port).peripherals = peripherals := by
  unfold Assembly.peripherals mapped
  rw [List.map_map]
  exact List.map_id _

theorem mapped_wiring :
    (mapped brain source peripherals profile output rail window port).wiring
      = mapEdges peripherals port := by
  unfold Assembly.wiring mapped mapEdges
  rw [List.map_map]
  rfl

theorem exists_port {placed : List (PartDefinition ℚ × ProfilePort ℚ)}
    (hplaced : placed.map Prod.fst = peripherals) (hpins : (peripherals.map (·.pin)).Nodup) :
    ∃ port : PartDefinition ℚ → ProfilePort ℚ, placed = peripherals.map fun p => (p, port p) := by
  subst hplaced
  have : Nonempty (ProfilePort ℚ) := ⟨⟨[], .i2c, [], .brain, 0, [], 0⟩⟩
  exact exists_graph (List.Nodup.of_map _ hpins)

/-- **The wirings the assignment admits are those of the maps that meet every constraint.** -/
theorem admitted_iff_wires (hprofile : profile.accepted = true)
    (hparts : ∀ p ∈ peripherals, p.accepted = true) (hpins : (peripherals.map (·.pin)).Nodup)
    {ctx : WireContext ℚ}
    (hctx : powerPath brain source peripherals profile input target = .ok ctx)
    (hfound : inputConnectorMissing brain profile input = false) {wiring : List WiringEdge} :
    (wiring ∈ assignments ctx peripherals [] ∧ ctx.admits wiring = true) ↔
      ∃ port, Wires brain source peripherals profile input target port ∧
        wiring = mapEdges peripherals port := by
  obtain ⟨output, rail, window, hpath⟩ := powered_of_powerPath hctx
  have hregular : ∀ (output rail : Supply ℚ) (window : ℚ × ℚ) (port : PartDefinition ℚ → ProfilePort ℚ),
      ((mapped brain source peripherals profile output rail window port).context input
        target).Regular := by
    intro output rail window port
    refine Assembly.context_regular_of_accepted hprofile ?_ ?_
    · rw [mapped_peripherals]
      exact hparts
    · rw [mapped_peripherals]
      exact hpins
  constructor
  · intro ⟨hreach, hadmits⟩
    obtain ⟨placed, hplaced, rfl, hplace⟩ := (mem_assignments _ _).mp hreach
    obtain ⟨hpowered, rfl⟩ := hpath placed hplaced
    obtain ⟨port, rfl⟩ := exists_port hplaced hpins
    have hwiring : [] ++ (peripherals.map fun p => (p, port p)).map (fun x => edgeFor x.1 x.2)
        = mapEdges peripherals port := by
      unfold mapEdges
      rw [List.nil_append, List.map_map]
      rfl
    rw [hwiring] at hadmits
    refine ⟨port, ⟨output, rail, window, (Assembly.meets_iff (hregular ..)).mpr
      ⟨⟨hpowered, hfound⟩, hplace, ?_⟩⟩, hwiring⟩
    rw [mapped_wiring]
    exact hadmits
  · intro ⟨port, ⟨output', rail', window', hmeets⟩, hwiring⟩
    obtain ⟨⟨hpowered, -⟩, hplace, hadmits⟩ := (Assembly.meets_iff (hregular ..)).mp hmeets
    have hctx' := powerPath_of_powered target hpowered
    rw [mapped_peripherals] at hctx'
    obtain rfl : ctx = _ := Except.ok.inj (hctx.symm.trans hctx')
    rw [mapped_wiring] at hadmits
    rw [hwiring]
    refine ⟨(mem_assignments _ _).mpr ⟨_, mapped_peripherals, ?_, hplace⟩, hadmits⟩
    rw [← mapped_wiring]
    rfl

theorem wired_ok_spec (hprofile : profile.accepted = true)
    (hparts : ∀ p ∈ peripherals, p.accepted = true) (hpins : (peripherals.map (·.pin)).Nodup)
    (hfound : inputConnectorMissing brain profile input = false) {wiring : List WiringEdge}
    {budget : PowerBudget ℚ}
    (h : wired brain source peripherals profile input target = .ok wiring budget) :
    (∃ port, Wires brain source peripherals profile input target port ∧
      wiring = mapEdges peripherals port) ∧
    budgetOf brain source peripherals profile input wiring = some budget ∧
    ∀ port, Wires brain source peripherals profile input target port →
      ∃ b, budgetOf brain source peripherals profile input (mapEdges peripherals port) = some b ∧
        budget.averageSourceMa ≤ b.averageSourceMa := by
  obtain ⟨ctx, hctx, hbest⟩ := wired_ok h
  obtain ⟨output, rail, window, hpath⟩ := powered_of_powerPath hctx
  have hadmitted : ∀ w, (w ∈ assignments ctx peripherals [] ∧ ctx.admits w = true) ↔
      ∃ port, Wires brain source peripherals profile input target port ∧ w = mapEdges peripherals port :=
    fun _ => admitted_iff_wires hprofile hparts hpins hctx hfound
  -- the budget of the context is `powerBudget` of the wiring
  have hbudget : ∀ w, budgetOf brain source peripherals profile input w = some (ctx.budget w) := by
    intro w
    obtain ⟨hpowered, rfl⟩ := hpath (peripherals.map fun p => (p, ⟨[], .i2c, [], .brain, 0, [], 0⟩))
      (by rw [List.map_map]; exact List.map_id _)
    have hperipherals : (mapped brain source peripherals profile output rail window
        fun _ => ⟨[], .i2c, [], .brain, 0, [], 0⟩).peripherals = peripherals := mapped_peripherals
    unfold budgetOf
    rw [hpowered.output, hpowered.rail, hpowered.window]
    unfold WireContext.budget Assembly.context
    exact congrArg (fun l => some (powerBudget window output rail brain source l w profile
      input.spec)) hperipherals.symm
  refine ⟨?_, ?_, ?_⟩
  · have hmem := (foldl_better_mem _ _ hbest).resolve_left (by simp)
    obtain ⟨w, hw, heq⟩ := List.mem_map.mp hmem
    obtain ⟨rfl, rfl⟩ := Prod.mk.inj heq
    exact (hadmitted w).mp (List.mem_filter.mp hw)
  · have hmem := (foldl_better_mem _ _ hbest).resolve_left (by simp)
    obtain ⟨w, hw, heq⟩ := List.mem_map.mp hmem
    obtain ⟨rfl, rfl⟩ := Prod.mk.inj heq
    exact hbudget w
  · intro port hport
    obtain ⟨hreach, hadmits⟩ := (hadmitted (mapEdges peripherals port)).mpr ⟨port, hport, rfl⟩
    refine ⟨_, hbudget _, ?_⟩
    have hless : (drawsLess : List WiringEdge × PowerBudget ℚ → _ → Bool)
        = fun x y => decide (x.2.averageSourceMa < y.2.averageSourceMa) := by
      funext x y
      exact rat_lt _ _
    rw [hless] at hbest
    exact (foldl_better_le (fun x : List WiringEdge × PowerBudget ℚ => x.2.averageSourceMa) _ _
      hbest).2 (mapEdges peripherals port, ctx.budget (mapEdges peripherals port))
      (List.mem_map.mpr ⟨_, List.mem_filter.mpr ⟨hreach, hadmits⟩, rfl⟩)

end Search

end Maps

/-! ## The allocator -/

/--
**`wire` accepts exactly when a map meets every constraint, and keeps one that draws least.**

For parts and a profile the schema accepts, peripherals with distinct pins, any input, and a step
that never raises. The wiring lists every peripheral once, in order, and its budget is `powerBudget`
of it.
-/
theorem callWire_ok_iff {ε σ : Type} {step : EStateM ε σ Unit} (hstep : ∀ s, ∃ s', step s = .ok () s')
    (typeError : ε) (brain source : PartDefinition ℚ) (peripherals : List (PartDefinition ℚ))
    (profile : AssemblyProfile ℚ) (input : SolveInput ℚ) (target : Option ℚ)
    (hprofile : profile.accepted = true) (hparts : ∀ p ∈ peripherals, p.accepted = true)
    (hpins : (peripherals.map (·.pin)).Nodup) (s : σ) :
    ((∃ wiring budget s', callWire typeError brain source peripherals profile input target step s
        = .ok (.ok wiring budget) s') ↔
      ∃ port, Wires brain source peripherals profile input target port) ∧
    ∀ wiring budget s', callWire typeError brain source peripherals profile input target step s
        = .ok (.ok wiring budget) s' →
      (∃ port, Wires brain source peripherals profile input target port ∧
        wiring = mapEdges peripherals port) ∧
      wiring.map (·.part) = peripherals.map (·.pin) ∧
      budgetOf brain source peripherals profile input wiring = some budget ∧
      ∀ port, Wires brain source peripherals profile input target port →
        ∃ b, budgetOf brain source peripherals profile input (mapEdges peripherals port) = some b ∧
          budget.averageSourceMa ≤ b.averageSourceMa := by
  have hcall : ∀ wiring budget,
      (∃ s', callWire typeError brain source peripherals profile input target step s
        = .ok (.ok wiring budget) s') ↔
      inputConnectorMissing brain profile input = false ∧
        wired brain source peripherals profile input target = .ok wiring budget :=
    fun _ _ => callWire_eq_ok_iff hstep s
  refine ⟨⟨?_, ?_⟩, ?_⟩
  · intro ⟨wiring, budget, hok⟩
    obtain ⟨hfound, hwired⟩ := (hcall wiring budget).mp hok
    obtain ⟨⟨port, hport, -⟩, -⟩ := wired_ok_spec hprofile hparts hpins hfound hwired
    exact ⟨port, hport⟩
  · intro ⟨port, hport⟩
    obtain ⟨output, rail, window, hmeets⟩ := hport
    obtain ⟨hpowered, hfound⟩ := powered_found_iff.mpr ⟨⟨hmeets.output, hmeets.rail, hmeets.window⟩,
      hmeets.sourceConnector, hmeets.sourceRated, hmeets.inputWindow, hmeets.inputRated⟩
    have hctx := powerPath_of_powered target hpowered
    rw [mapped_peripherals] at hctx
    have hadmitted := (admitted_iff_wires hprofile hparts hpins hctx hfound).mpr
      ⟨port, ⟨output, rail, window, hmeets⟩, rfl⟩
    obtain ⟨wiring, budget, hwired⟩ := (wired_failed_iff hctx).mpr ⟨_, hadmitted⟩
    exact ⟨wiring, budget, (hcall wiring budget).mpr ⟨hfound, hwired⟩⟩
  · intro wiring budget s' hok
    obtain ⟨hfound, hwired⟩ := (hcall wiring budget).mp ⟨s', hok⟩
    obtain ⟨⟨port, hport, hwiring⟩, hbudget, hleast⟩ :=
      wired_ok_spec hprofile hparts hpins hfound hwired
    refine ⟨⟨port, hport, hwiring⟩, ?_, hbudget, hleast⟩
    rw [hwiring]
    unfold mapEdges
    rw [List.map_map]
    rfl

/-- On the bench the sensor is wired, so some map of it meets every constraint. -/
theorem callWire_bench :
    ∃ port, Wires benchBrain benchSource [benchSensor] benchProfile
      (benchInput [js "read.temperature_c"]) none port := by
  have hstep : ∀ s, ∃ s', (pure () : EStateM Unit Unit Unit) s = .ok () s' := fun s => ⟨s, rfl⟩
  refine (callWire_ok_iff hstep () benchBrain benchSource [benchSensor] benchProfile
    (benchInput [js "read.temperature_c"]) none (by decide +kernel) ?_ (by simp) ()).1.mp ?_
  · intro p hp
    rw [List.mem_singleton.mp hp]
    decide +kernel
  · have hok : (match callWire () benchBrain benchSource [benchSensor] benchProfile
        (benchInput [js "read.temperature_c"]) none (pure () : EStateM Unit Unit Unit) () with
      | .ok (.ok _ _) _ => true
      | _ => false) = true := by decide +kernel
    split at hok
    · rename_i wiring budget s' hcall
      exact ⟨wiring, budget, s', hcall⟩
    · exact absurd hok (by simp)

end Albusforge.Matcher
