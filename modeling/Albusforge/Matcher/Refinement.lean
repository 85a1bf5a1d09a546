import Albusforge.Matcher.Loads

/-!
# The checks are the constraints

On an accepted input an assembly passes every check of the code exactly when it is
valid and its peripherals stand in the canonical order (`Assembly.Passes.valid`, `Assembly.Valid.passes`). Each check
has its own lemma here; a constraint that changes concerns that lemma and one
field of `Assembly.Valid`.
-/

namespace Albusforge.Matcher

open Lib

variable {input : SolveInput ℚ} {q : Query ℚ} {a : Assembly ℚ}

/-! ## Check by check -/

theorem uncovered_eq_false_iff {required : List Text} {parts : List (PartDefinition ℚ)} :
    uncovered required parts = false ↔ ∀ c ∈ required, c ∈ capabilitiesOf parts := by
  unfold uncovered
  rw [List.any_eq_false]
  simp

theorem compiled_iff {brain part : PartDefinition ℚ} :
    compiled input brain part = true ↔ ∀ pkg, part.software.driverPkg = some pkg →
      ∃ row ∈ input.compat, row.driverPkg = pkg ∧
        part.software.driverVersion = some row.driverVer ∧
        row.runtimeVer = input.spec.runtime ∧ row.brainId = brain.id ∧ row.status = .passed := by
  unfold compiled
  cases part.software.driverPkg with
  | none => simp
  | some pkg =>
      simp only [Option.isNone_some, Bool.false_or, List.any_eq_true, Bool.and_eq_true,
        beq_iff_eq, Option.some.injEq, forall_eq']
      constructor
      · rintro ⟨row, hrow, ⟨⟨⟨h1, h2⟩, h3⟩, h4⟩, h5⟩
        exact ⟨row, hrow, h1, h2.symm, h3, h4, h5⟩
      · rintro ⟨row, hrow, h1, h2, h3, h4, h5⟩
        exact ⟨row, hrow, ⟨⟨⟨h1, h2.symm⟩, h3⟩, h4⟩, h5⟩

theorem logicFits_iff {brain part : PartDefinition ℚ} :
    logicFits brain part = true ↔ (part.peripheral = true →
      ∃ window drive, part.electrical.logicV = some window ∧
        brain.electrical.logicV = some drive ∧ window.1 ≤ drive.1 ∧ drive.2 ≤ window.2) := by
  unfold logicFits containsVoltage
  cases hp : part.peripheral with
  | false => simp
  | true =>
      cases part.electrical.logicV with
      | none => simp
      | some window =>
          cases brain.electrical.logicV with
          | none => simp
          | some drive => simp

theorem partSound_nil_iff (hwf : input.WellFormed) {parts : List (PartDefinition ℚ)}
    {brain part : PartDefinition ℚ} :
    PartSound parts brain input [] part ↔
      (∀ id ∈ part.electrical.conflicts, ∀ p ∈ parts, p.id ≠ id) ∧
      satisfiesRuntime input.spec.runtime part.software.minRuntime = true ∧
      compiled input brain part = true ∧ logicFits brain part = true ∧
      ∃ c ∈ input.connectors, c.id = part.electrical.connector ∧
        part.electrical.interface ∈ c.interfaces := by
  constructor
  · intro h
    obtain ⟨c, hc, hi⟩ := h.connector
    obtain ⟨hmem, hid⟩ := hwf.findConnector_iff.mp hc
    exact ⟨h.compatible, h.runtime, h.driver, h.logic, c, hmem, hid, hi⟩
  · rintro ⟨h1, h2, h3, h4, c, hmem, hid, hi⟩
    exact ⟨h1, by simp, h2, h3, h4, c, hwf.findConnector_iff.mpr ⟨hmem, hid⟩, hi⟩

theorem portFits_found_iff {target : Option ℚ} {part : PartDefinition ℚ} {port : ProfilePort ℚ} :
    (a.context input target).portFits part port = true ↔
      (port.interface = part.electrical.interface ∧ port.connector = part.electrical.connector) ∧
      (∃ c, findConnector input port.connector = some c ∧ port.interface ∈ c.interfaces ∧
        (a.voltage port).2 ≤ c.maxVoltage) ∧
      (part.electrical.voltageRange.1 ≤ (a.voltage port).1 ∧
        (a.voltage port).2 ≤ part.electrical.voltageRange.2) ∧
      ∀ need ∈ part.electrical.requires, (js "power.").isPrefixOf need = true →
        need ∈ (a.provider port.rail).software.capabilities := by
  have hvolt : (a.context input target).voltage port = a.voltage port := by
    unfold WireContext.voltage Assembly.voltage
    cases port.rail <;> rfl
  have hprov : (a.context input target).provider port = a.provider port.rail := by
    unfold WireContext.provider Assembly.provider
    cases port.rail <;> rfl
  have hconn : (findConnector input port.connector).any (fun c =>
      c.interfaces.contains port.interface && !JsNumber.lt c.maxVoltage (a.voltage port).2) = true ↔
      ∃ c, findConnector input port.connector = some c ∧ port.interface ∈ c.interfaces ∧
        (a.voltage port).2 ≤ c.maxVoltage := by
    rw [Option.any_eq_true]
    simp only [Bool.and_eq_true, List.contains_eq_mem, decide_eq_true_eq, rat_lt, Bool.not_eq_true',
      decide_eq_false_iff_not, not_lt]
  unfold WireContext.portFits
  rw [hvolt, hprov]
  simp only [Bool.and_eq_true, beq_iff_eq, containsVoltage, rat_le, decide_eq_true_eq,
    Bool.not_eq_true', List.any_eq_false, Bool.and_eq_true, not_and, List.contains_eq_mem,
    decide_eq_false_iff_not, not_not]
  rw [show (a.context input target).input = input from rfl]
  simp only [List.contains_eq_mem] at hconn
  rw [hconn]
  tauto

theorem portFits_iff (hwf : input.WellFormed) {target : Option ℚ} {part : PartDefinition ℚ}
    {port : ProfilePort ℚ} :
    (a.context input target).portFits part port = true ↔
      (port.interface = part.electrical.interface ∧ port.connector = part.electrical.connector) ∧
      (∃ c ∈ input.connectors, c.id = port.connector ∧ port.interface ∈ c.interfaces ∧
        (a.voltage port).2 ≤ c.maxVoltage) ∧
      (part.electrical.voltageRange.1 ≤ (a.voltage port).1 ∧
        (a.voltage port).2 ≤ part.electrical.voltageRange.2) ∧
      ∀ need ∈ part.electrical.requires, (js "power.").isPrefixOf need = true →
        need ∈ (a.provider port.rail).software.capabilities := by
  rw [portFits_found_iff]
  simp only [hwf.findConnector_iff, and_assoc]

theorem powered_iff (hwf : input.WellFormed) :
    Powered input a ↔
      (a.source.electrical.supply = some a.output ∧ a.brain.electrical.supply = some a.rail ∧
        brainInputRange a.brain a.profile = some a.window) ∧
      a.source.electrical.connector = a.profile.sourceConnector ∧
      (∃ c ∈ input.connectors, c.id = a.profile.sourceConnector ∧
        a.output.outputV.2 ≤ c.maxVoltage) ∧
      (a.window.1 ≤ a.output.outputV.2 ∧ a.output.outputV.2 ≤ a.window.2 ∧
        ((a.output.capacityMah.isSome = true ∧
            js "power.battery" ∈ a.source.software.capabilities) ∨
          a.window.1 ≤ a.output.outputV.1)) ∧
      (a.profile.brainInput = js "primary" → ∀ c ∈ input.connectors,
        c.id = a.brain.electrical.connector → a.output.outputV.2 ≤ c.maxVoltage) := by
  constructor
  · intro h
    obtain ⟨c, hc, hrated⟩ := h.rated
    obtain ⟨hmem, hid⟩ := hwf.findConnector_iff.mp hc
    refine ⟨⟨h.output, h.rail, h.window⟩, h.connector, ⟨c, hmem, hid, by simpa using hrated⟩,
      ⟨by simpa using h.reaches, by simpa using h.notOver, by simpa using h.holds⟩, ?_⟩
    intro hp c hc hid
    simpa using h.primary hp c (hwf.findConnector_iff.mpr ⟨hc, hid⟩)
  · rintro ⟨⟨h1, h2, h3⟩, h4, ⟨c, hmem, hid, hrated⟩, ⟨h5, h6, h7⟩, h8⟩
    refine ⟨h1, h2, h3, h4, ⟨c, hwf.findConnector_iff.mpr ⟨hmem, hid⟩, by simpa using hrated⟩,
      by simpa using h6, by simpa using h5, by simpa using h7, ?_⟩
    intro hp c hc
    obtain ⟨hmem, hid⟩ := hwf.findConnector_iff.mp hc
    simpa using h8 hp c hmem hid

/-! ## The placement and the budget -/

theorem placed_pins_nodup (hwf : input.WellFormed) (hparts : ∀ p ∈ a.peripherals, p ∈ input.parts)
    (hids : (a.peripherals.map (·.id)).Nodup) :
    (a.placed.map (fun x => pinKey x.1.pin)).Nodup := by
  have hmap : a.placed.map (fun x => pinKey x.1.pin)
      = a.peripherals.map (fun p => pinKey p.pin) := by
    unfold Assembly.peripherals
    rw [List.map_map]
    rfl
  rw [hmap]
  refine List.Nodup.map_on ?_ (List.Nodup.of_map _ hids)
  intro p hp p' hp' heq
  exact Separates.of_nodup hwf.pins p (hparts p hp) p' (hparts p' hp') heq

theorem nonnegative_rat {n : ℚ} (h : nonnegative n = true) : 0 ≤ n := by
  simpa [nonnegative] using h

theorem context_regular (target : Option ℚ) (hwf : input.WellFormed)
    (hparts : ∀ p ∈ a.peripherals, p ∈ input.parts) (hids : (a.peripherals.map (·.id)).Nodup)
    (hprofile : a.profile ∈ input.profiles) : (a.context input target).Regular := by
  refine ⟨?_, ?_, ?_⟩
  · have hnd := placed_pins_nodup hwf hparts hids
    have hmap : a.placed.map (fun x => pinKey x.1.pin)
        = a.peripherals.map (fun p => pinKey p.pin) := by
      unfold Assembly.peripherals
      rw [List.map_map]
      rfl
    rwa [hmap] at hnd
  · have hports := (AssemblyProfile.accepted_keys (hwf.profiles _ hprofile)).1
    exact ((sortBy_perm _ _).map _).nodup_iff.mpr hports
  · intro p hp
    exact nonnegative_rat (PartDefinition.accepted_active (hwf.parts p (hparts p hp)))

theorem placeable_iff (hwf : input.WellFormed) {target : Option ℚ}
    (hparts : ∀ p ∈ a.peripherals, p ∈ input.parts) (hids : (a.peripherals.map (·.id)).Nodup)
    (hprofile : a.profile ∈ input.profiles) :
    Placeable (a.context input target) [] a.placed ↔
      (∀ x ∈ a.placed, x.2 ∈ a.profile.ports ∧
        (a.context input target).portFits x.1 x.2 = true) ∧ Within a.placed := by
  have hctx := context_regular target hwf hparts hids hprofile
  have hiff := hctx.placeable_iff a.placed [] (fun y hy => List.mem_map.mpr ⟨y, hy, rfl⟩)
    (by simp) Within.nil
  have hmem : ∀ port : ProfilePort ℚ, port ∈ (a.context input target).ports ↔
      port ∈ a.profile.ports := fun _ => mem_sortBy
  simpa only [edges, List.map_nil, List.nil_append, hmem] using hiff

theorem admits_wiring_iff (hnd : (a.placed.map (fun x => pinKey x.1.pin)).Nodup)
    {target : Option ℚ} :
    (a.context input target).admits a.wiring = true ↔
      (a.peakRail ≤ a.rail.maxOutputMa ∧ a.peakSource ≤ a.output.maxOutputMa) ∧
      ∀ t, target = some t → ∃ days, a.lifeDays input.spec.intervalS = some days ∧ t ≤ days := by
  rw [admits_iff, budget_eq a input target hnd]
  have hfinite : ∀ b : PowerBudget ℚ, b.finite = true := by
    intro b
    unfold PowerBudget.finite
    cases b.usableCapacityMah <;> cases b.estimatedLifeDays <;> simp
  simp only [hfinite, true_and, rat_gt, decide_eq_false_iff_not, not_lt, rat_lt]
  exact Iff.rfl

/-! ## The refinement -/

theorem peripheral_iff {p : PartDefinition ℚ} : p.peripheral = true ↔
    p.electrical.interface ≠ .host ∧ p.electrical.interface ≠ .power := by
  simp [PartDefinition.peripheral]

theorem mem_candidates_iff {brain source p : PartDefinition ℚ} :
    p ∈ candidates input brain source ↔ (p ∈ input.parts ∧ p.status = .active) ∧
      (p.electrical.interface ≠ .host ∧ p.electrical.interface ≠ .power) ∧
      p.id ≠ brain.id ∧ p.id ≠ source.id := by
  unfold candidates
  rw [List.mem_filter, mem_sortedParts, ← peripheral_iff]
  simp only [Bool.and_eq_true, bne_iff_ne, ne_eq, and_assoc]

/-- **An assembly that passes is valid.** -/
theorem Assembly.Passes.valid (hacc : input.accepted = true) (h : a.Passes input q) :
    a.Valid input q := by
  have hwf := SolveInput.wellFormed hacc
  have hbase := hwf.basePair_iff.mp h.base
  have hcand : ∀ p ∈ a.peripherals, p ∈ candidates input a.brain a.source :=
    fun p hp => h.chosen.subset hp
  have hmem : ∀ p ∈ a.peripherals, p ∈ input.parts :=
    fun p hp => (mem_candidates_iff.mp (hcand p hp)).1.1
  have hcatalogue : ∀ p ∈ a.parts, p ∈ input.parts ∧ p.status = .active := by
    intro p hp
    rcases List.mem_cons.mp hp with rfl | hp
    · exact mem_sortedParts.mp hbase.host.1
    rcases List.mem_cons.mp hp with rfl | hp
    · exact mem_sortedParts.mp hbase.power.1
    · exact (mem_candidates_iff.mp (hcand p hp)).1
  have haccepted : ∀ p ∈ a.parts, p.pin.accepted = true :=
    fun p hp => PartDefinition.accepted_pin (hwf.parts p (hcatalogue p hp).1)
  have hprofile := AssemblyProfile.accepted_pins (hwf.profiles _ h.profile)
  have hbrain : a.brain ∈ a.parts := by simp [Assembly.parts]
  have hsource : a.source ∈ a.parts := by simp [Assembly.parts]
  obtain ⟨⟨hout, hrail, hwindow⟩, hconn, hrated, hinput, hprimary⟩ := (powered_iff hwf).mp h.powered
  obtain ⟨hfits, hwithin⟩ := (placeable_iff hwf hmem h.ids h.profile).mp h.placeable
  obtain ⟨⟨hpeakRail, hpeakSource⟩, hlife⟩ :=
    (admits_wiring_iff (placed_pins_nodup hwf hmem h.ids)).mp h.admitted
  have hsound := fun p hp => (partSound_nil_iff hwf).mp (h.sound.sound p hp)
  have hfits' := fun x hx => (portFits_iff hwf).mp (hfits x hx).2
  exact
    { profile := h.profile
      catalogue := hcatalogue
      ids := by
        show (a.brain.id :: a.source.id :: a.peripherals.map (·.id)).Nodup
        rw [List.nodup_cons, List.nodup_cons]
        refine ⟨?_, ?_, h.ids⟩
        · intro hb
          rcases List.mem_cons.mp hb with hb | hb
          · exact hbase.ids hb
          · obtain ⟨p, hp, heq⟩ := List.mem_map.mp hb
            exact (mem_candidates_iff.mp (hcand p hp)).2.2.1 heq
        · intro hb
          obtain ⟨p, hp, heq⟩ := List.mem_map.mp hb
          exact (mem_candidates_iff.mp (hcand p hp)).2.2.2 heq
      host := ⟨hbase.host.2.2,
        pinKey_injective (haccepted _ hbrain) hprofile.1 hbase.host.2.1⟩
      power := ⟨hbase.power.2.2,
        pinKey_injective (haccepted _ hsource) hprofile.2 hbase.power.2.1⟩
      peripheral := fun p hp => (mem_candidates_iff.mp (hcand p hp)).2.1
      kind := hbase.kind
      capacity := by
        intro hbattery
        obtain ⟨s, c, hs, hc, hne⟩ := hbase.capacity hbattery
        obtain rfl : s = a.output := Option.some.inj (hs.symm.trans hout)
        exact ⟨c, hc, by simpa [rat_truthy] using hne⟩
      covers := uncovered_eq_false_iff.mp h.covers
      requires := fun p hp need hneed =>
        ⟨(h.sound.needs p hp).provided need hneed, (h.sound.needs p hp).hosted need hneed⟩
      conflicts := fun p hp => (hsound p hp).1
      addresses := h.sound.addresses
      runtime := fun p hp => (hsound p hp).2.1
      drivers := fun p hp => compiled_iff.mp (hsound p hp).2.2.1
      logic := fun p hp => logicFits_iff.mp (hsound p (by simp [Assembly.parts, hp])).2.2.2.1
        (peripheral_iff.mpr (mem_candidates_iff.mp (hcand p hp)).2.1)
      connectors := fun p hp => (hsound p hp).2.2.2.2
      output := hout
      rail := hrail
      window := hwindow
      sourceConnector := hconn
      sourceRated := hrated
      inputWindow := hinput
      inputRated := hprimary
      ports := fun x hx => ⟨(hfits x hx).1, (hfits' x hx).1⟩
      portRated := fun x hx => (hfits' x hx).2.1
      voltages := fun x hx => (hfits' x hx).2.2.1
      powering := fun x hx => (hfits' x hx).2.2.2
      room := hwithin.room
      pins := hwithin.pins
      portCurrents := hwithin.currents
      railCurrent := hpeakRail
      sourceCurrent := hpeakSource
      life := hlife }

def Assembly.Canonical (a : Assembly ℚ) : Prop :=
  a.peripherals.Pairwise (fun p p' => pinKey p.pin ≤ pinKey p'.pin)

theorem Assembly.Valid.passes (hacc : input.accepted = true) (h : a.Valid input q)
    (hsorted : a.Canonical) : a.Passes input q := by
  have hwf := SolveInput.wellFormed hacc
  have hbrain : a.brain ∈ a.parts := by simp [Assembly.parts]
  have hsource : a.source ∈ a.parts := by simp [Assembly.parts]
  have hperiph : ∀ p ∈ a.peripherals, p ∈ a.parts := by
    intro p hp
    simp [Assembly.parts, hp]
  have hmem : ∀ p ∈ a.peripherals, p ∈ input.parts := fun p hp => (h.catalogue p (hperiph p hp)).1
  have hnodup : (a.brain.id :: a.source.id :: a.peripherals.map (·.id)).Nodup := h.ids
  rw [List.nodup_cons, List.nodup_cons] at hnodup
  obtain ⟨hb, hs, hids⟩ := hnodup
  have hidne : ∀ p ∈ a.peripherals, p.id ≠ a.brain.id ∧ p.id ≠ a.source.id := by
    intro p hp
    refine ⟨fun heq => hb ?_, fun heq => hs ?_⟩
    · exact List.mem_cons_of_mem _ (List.mem_map.mpr ⟨p, hp, heq⟩)
    · exact List.mem_map.mpr ⟨p, hp, heq⟩
  have hpins := placed_pins_nodup hwf hmem hids
  refine ⟨h.profile, ?_, ?_, hids, ?_, ?_, ?_, ?_, ?_, rfl⟩
  · refine hwf.basePair_iff.mpr ⟨?_, ?_, h.kind, ?_, ?_⟩
    · exact ⟨mem_sortedParts.mpr (h.catalogue _ hbrain), by rw [h.host.2], h.host.1⟩
    · exact ⟨mem_sortedParts.mpr (h.catalogue _ hsource), by rw [h.power.2], h.power.1⟩
    · exact fun heq => hb (by simp [heq])
    · intro hbattery
      obtain ⟨c, hc, hne⟩ := h.capacity hbattery
      exact ⟨a.output, c, h.output, hc, by simpa [rat_truthy] using hne⟩
  · -- sorted and known by key, the peripherals are a sublist of the candidates
    refine sublist_of_sorted (fun p : PartDefinition ℚ => pinKey p.pin) ?_ ?_ ?_
    · have hkeys : (a.peripherals.map (fun p => pinKey p.pin)).Nodup := by
        have hmap : a.peripherals.map (fun p => pinKey p.pin)
            = a.placed.map (fun x => pinKey x.1.pin) := by
          unfold Assembly.peripherals
          rw [List.map_map]
          rfl
        rw [hmap]
        exact hpins
      exact (hsorted.and (List.pairwise_map.mp hkeys)).imp fun hpq => lt_of_le_of_ne hpq.1 hpq.2
    · have hcands : (candidates input a.brain a.source).Sublist (sortedParts input) :=
        List.filter_sublist
      have hle := sortedParts_sorted.sublist hcands
      have hne := List.pairwise_map.mp (hwf.sortedParts_nodup.sublist (hcands.map _))
      exact (hle.and hne).imp fun hpq => lt_of_le_of_ne hpq.1 hpq.2
    · intro p hp
      exact mem_candidates_iff.mpr ⟨h.catalogue p (hperiph p hp), h.peripheral p hp, hidne p hp⟩
  · exact uncovered_eq_false_iff.mpr h.covers
  · refine ⟨?_, ?_, h.addresses⟩
    · intro p hp
      exact ⟨fun need hneed => (h.requires p hp need hneed).1,
        fun need hneed => (h.requires p hp need hneed).2⟩
    · intro p hp
      refine (partSound_nil_iff hwf).mpr ⟨h.conflicts p hp, h.runtime p hp,
        compiled_iff.mpr (h.drivers p hp), logicFits_iff.mpr ?_, h.connectors p hp⟩
      intro hper
      have hper' := peripheral_iff.mp hper
      rcases List.mem_cons.mp hp with rfl | hp
      · exact absurd h.host.1 hper'.1
      rcases List.mem_cons.mp hp with rfl | hp
      · exact absurd h.power.1 hper'.2
      · exact h.logic p hp
  · exact (powered_iff hwf).mpr ⟨⟨h.output, h.rail, h.window⟩, h.sourceConnector, h.sourceRated,
      h.inputWindow, h.inputRated⟩
  · refine (placeable_iff hwf hmem hids h.profile).mpr ⟨?_, ?_⟩
    · intro x hx
      exact ⟨(h.ports x hx).1, (portFits_iff hwf).mpr
        ⟨(h.ports x hx).2, h.portRated x hx, h.voltages x hx, h.powering x hx⟩⟩
    · exact ⟨h.room, h.pins, h.portCurrents⟩
  · exact (admits_wiring_iff hpins).mpr ⟨⟨h.railCurrent, h.sourceCurrent⟩, h.life⟩

end Albusforge.Matcher
