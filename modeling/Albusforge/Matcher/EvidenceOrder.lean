import Mathlib.Data.List.Dedup
import Albusforge.Matcher.Soundness

/-!
# The order of the evidence does not matter

Two accepted inputs with the same parts, connectors, profiles, compile rows and
capabilities, listed in different orders, get the same answer from `solve`, down to
the step count. Everything the search goes through is sorted by a key that the
schema makes unique, and everything else is looked up by such a key or asked
whether it occurs.

The proof follows the program: each function that reads the input is shown to read
it alike, from the lookups up to the request. No law of arithmetic is used, so it
holds for doubles as for exact numbers.
-/

namespace Albusforge.Matcher

open Lib JsNumber

variable {ν : Type} [JsNumber ν]

structure SameProfile (p p' : AssemblyProfile ν) : Prop where
  rest : p' = { p with ports := p'.ports, activity := p'.activity }
  ports : p.ports.Perm p'.ports
  activity : p.activity.Perm p'.activity

structure SameEvidence (i i' : SolveInput ν) : Prop where
  spec : i'.spec = { i.spec with capabilities := i'.spec.capabilities }
  capabilities : i.spec.capabilities.Perm i'.spec.capabilities
  parts : i.parts.Perm i'.parts
  connectors : i.connectors.Perm i'.connectors
  profiles : ∃ l, List.Forall₂ SameProfile i.profiles l ∧ l.Perm i'.profiles
  compat : i.compat.Perm i'.compat
  limits : i'.maxSteps = i.maxSteps ∧ i'.maxPlans = i.maxPlans

structure Reordered (i i' : SolveInput ν) : Prop extends SameEvidence i i' where
  accepted : i.accepted = true
  accepted' : i'.accepted = true

variable {i i' : SolveInput ν} {p p' : AssemblyProfile ν}

/-! ## Lookups -/

namespace Reordered

theorem runtime (h : Reordered i i') : i'.spec.runtime = i.spec.runtime := by rw [h.spec]

theorem interval (h : Reordered i i') : i'.spec.intervalS = i.spec.intervalS := by rw [h.spec]

theorem powerSource (h : Reordered i i') : i'.spec.powerSource = i.spec.powerSource := by
  rw [h.spec]

theorem targetLifeDays (h : Reordered i i') : i'.spec.targetLifeDays = i.spec.targetLifeDays := by
  rw [h.spec]

theorem sortedParts_eq (h : Reordered i i') : sortedParts i' = sortedParts i := by
  refine (sortBy_congr (compareText_on (fun p : PartDefinition ν => pinKey p.pin)) ?_
    (h.parts.filter _)).symm
  intro p hp p' hp'
  exact Separates.of_nodup (SolveInput.wellFormed h.accepted).pins p (List.mem_of_mem_filter hp) p'
    (List.mem_of_mem_filter hp')

theorem findConnector_eq (h : Reordered i i') (id : Text) :
    findConnector i' id = findConnector i id :=
  (find?_perm (Separates.of_nodup (SolveInput.wellFormed h.accepted).connectorIds)
    h.connectors).symm

theorem compiled_eq (h : Reordered i i') (brain part : PartDefinition ν) :
    compiled i' brain part = compiled i brain part := by
  unfold compiled
  rw [h.runtime, h.compat.any_eq]

theorem caps_eq (h : Reordered i i') : caps i'.spec = caps i.spec := by
  unfold caps
  rw [show i'.spec.transport = i.spec.transport by rw [h.spec]]
  refine (sortBy_congr compareText_byKey (fun _ _ _ _ heq => heq) ?_).symm
  exact (h.capabilities.append_right _).dedup

theorem requirements_eq (h : Reordered i i') : requirements i'.spec = requirements i.spec := by
  unfold requirements
  rw [h.caps_eq, h.targetLifeDays]

theorem query_eq (h : Reordered i i') (needs : List Text) (firstOnly : Bool) :
    query i'.spec needs firstOnly = query i.spec needs firstOnly := by
  unfold query
  rw [h.targetLifeDays]

/-! ## Checks -/

theorem checkParts_eq (h : Reordered i i') (parts : List (PartDefinition ν))
    (brain : PartDefinition ν) : checkParts parts brain i' = checkParts parts brain i := by
  have hrest : ∀ addresses part, checkRest parts brain i' addresses part
      = checkRest parts brain i addresses part := by
    intro addresses part
    unfold checkRest
    rw [h.runtime, h.compiled_eq, h.findConnector_eq]
  have hfrom : ∀ (l : List (PartDefinition ν)) (addresses : List Text),
      checkPartsFrom parts brain i' addresses l = checkPartsFrom parts brain i addresses l := by
    intro l
    induction l with
    | nil => intro addresses; rfl
    | cons part rest ih =>
        intro addresses
        unfold checkPartsFrom checkPart
        rw [hrest, ih]
  exact hfrom parts []

theorem basePair_eq (h : Reordered i i') (hp : SameProfile p p') :
    basePair i' p' = basePair i p := by
  have hbrain : p'.brain = p.brain := by rw [hp.rest]
  have hsource : p'.source = p.source := by rw [hp.rest]
  unfold basePair
  rw [h.sortedParts_eq, h.powerSource, hbrain, hsource]

theorem candidates_eq (h : Reordered i i') (brain source : PartDefinition ν) :
    candidates i' brain source = candidates i brain source := by
  unfold candidates
  rw [h.sortedParts_eq]

theorem baseFailures_eq (h : Reordered i i') (brain source : PartDefinition ν) :
    baseFailures i' brain source = baseFailures i brain source := by
  unfold baseFailures
  rw [h.checkParts_eq]

end Reordered

/-! ## Wiring -/

structure SameContext (ctx ctx' : WireContext ν) : Prop where
  input : Reordered ctx.input ctx'.input
  profile : SameProfile ctx.profile ctx'.profile
  accepted : ctx.profile.accepted = true
  rest : ctx' = { ctx with input := ctx'.input, profile := ctx'.profile }

theorem SameProfile.find?_activity (hp : SameProfile p p') (hacc : p.accepted = true) (k : Text) :
    p'.activity.find? (fun x => pinKey x.part == k) = p.activity.find? (fun x => pinKey x.part == k) :=
  (find?_perm (Separates.of_nodup (AssemblyProfile.accepted_keys hacc).2) hp.activity).symm

theorem SameProfile.averageCurrent_eq (hp : SameProfile p p') (hacc : p.accepted = true)
    (part : PartDefinition ν) (interval : ν) :
    averageCurrent part interval p' = averageCurrent part interval p := by
  unfold averageCurrent
  rw [hp.find?_activity hacc]

theorem SameContext.budget_eq {ctx ctx' : WireContext ν} (h : SameContext ctx ctx')
    (wiring : List WiringEdge) : ctx'.budget wiring = ctx.budget wiring := by
  have havg := h.profile.averageCurrent_eq h.accepted
  have hadd : Loads.add wiring ctx'.profile ctx.input.spec.intervalS
      = Loads.add wiring ctx.profile ctx.input.spec.intervalS := by
    funext loads part
    unfold Loads.add
    rw [havg]
  have heff : ctx'.profile.regulatorEfficiency = ctx.profile.regulatorEfficiency := by
    rw [h.profile.rest]
  have hquiescent : ctx'.profile.quiescentSourceMa = ctx.profile.quiescentSourceMa := by
    rw [h.profile.rest]
  have husable : ctx'.profile.batteryUsableFraction = ctx.profile.batteryUsableFraction := by
    rw [h.profile.rest]
  unfold WireContext.budget
  rw [h.rest]
  dsimp only
  unfold powerBudget
  rw [h.input.interval, hadd, havg, havg, heff, hquiescent, husable]

theorem SameContext.leaf_eq {ctx ctx' : WireContext ν} (h : SameContext ctx ctx')
    (wiring : List WiringEdge) (st : WireState ν) : ctx'.leaf wiring st = ctx.leaf wiring st := by
  have hid : ctx'.profile.id = ctx.profile.id := by rw [h.profile.rest]
  have hfail : ∀ b, ctx'.leafFailure b = ctx.leafFailure b := by
    intro b
    unfold WireContext.leafFailure
    rw [hid, h.rest]
  unfold WireContext.leaf
  simp only [h.budget_eq, hfail]

theorem SameContext.portFits_eq {ctx ctx' : WireContext ν} (h : SameContext ctx ctx')
    (part : PartDefinition ν) (port : ProfilePort ν) :
    ctx'.portFits part port = ctx.portFits part port := by
  have hvolt : ctx'.voltage port = ctx.voltage port := by rw [h.rest]; rfl
  have hprov : ctx'.provider port = ctx.provider port := by rw [h.rest]; rfl
  unfold WireContext.portFits
  rw [h.input.findConnector_eq, hvolt, hprov]

theorem SameContext.portFree_eq {ctx ctx' : WireContext ν} (h : SameContext ctx ctx')
    (part : PartDefinition ν) (port : ProfilePort ν) (wiring : List WiringEdge) :
    ctx'.portFree part port wiring = ctx.portFree part port wiring := by rw [h.rest]; rfl

theorem SameContext.wireVisit_eq {m : Type → Type} [Monad m] (step : m Unit)
    {ctx ctx' : WireContext ν} (h : SameContext ctx ctx') :
    ∀ (rest : List (PartDefinition ν)) (wiring : List WiringEdge) (st : WireState ν),
      wireVisit step ctx' rest wiring st = wireVisit step ctx rest wiring st
  | [], wiring, st => by
      unfold wireVisit
      rw [h.leaf_eq]
  | part :: rest, wiring, st => by
      have hports : ctx'.ports = ctx.ports := by rw [h.rest]
      unfold wireVisit
      simp only [hports, h.portFits_eq, h.portFree_eq, h.wireVisit_eq step rest]

theorem powerPath_reads {brain source : PartDefinition ν} {peripherals : List (PartDefinition ν)}
    {target : Option ν} {ctx : WireContext ν}
    (h : powerPath brain source peripherals p i target = .ok ctx) :
    ctx.profile = p ∧ ctx.input = i := by
  unfold powerPath at h
  split at h
  · dsimp only at h
    split at h
    · exact absurd h (by simp)
    split at h
    · exact absurd h (by simp)
    split at h
    · exact absurd h (by simp)
    rw [← Except.ok.inj h]
    exact ⟨rfl, rfl⟩
  · exact absurd h (by simp)

/-- **The power path is the same one.** -/
theorem Reordered.powerPath_eq (h : Reordered i i') (hp : SameProfile p p')
    (hacc : p.accepted = true) (brain source : PartDefinition ν)
    (peripherals : List (PartDefinition ν)) (target : Option ν) :
    powerPath brain source peripherals p' i' target =
      (powerPath brain source peripherals p i target).map
        (fun ctx => { ctx with input := i', profile := p' }) := by
  have hports : sortBy (fun a b : ProfilePort ν => compareText a.id b.id) p'.ports
      = sortBy (fun a b => compareText a.id b.id) p.ports :=
    (sortBy_congr (compareText_on (·.id))
      (Separates.of_nodup (AssemblyProfile.accepted_keys hacc).1) hp.ports).symm
  have hid : p'.id = p.id := by rw [hp.rest]
  have hconn : p'.sourceConnector = p.sourceConnector := by rw [hp.rest]
  have hinput : p'.brainInput = p.brainInput := by rw [hp.rest]
  have hrange : brainInputRange brain p' = brainInputRange brain p := by
    unfold brainInputRange
    rw [hinput]
  unfold powerPath
  simp only [hports, hid, hconn, hinput, hrange, h.findConnector_eq]
  split
  · split_ifs <;> rfl
  · rfl

theorem Reordered.wire_eq {m : Type → Type} [Monad m] (step : m Unit) (h : Reordered i i')
    (hp : SameProfile p p') (hacc : p.accepted = true) (brain source : PartDefinition ν)
    (peripherals : List (PartDefinition ν)) (target : Option ν) :
    wire brain source peripherals p' i' target step
      = wire brain source peripherals p i target step := by
  have hstart : (WireState.start p' : WireState ν) = .start p := by
    unfold WireState.start
    rw [show p'.id = p.id by rw [hp.rest]]
  unfold wire
  rw [h.powerPath_eq hp hacc, hstart]
  cases hctx : powerPath brain source peripherals p i target with
  | error failure => rfl
  | ok ctx =>
      obtain ⟨rfl, rfl⟩ := powerPath_reads hctx
      have hsame : SameContext ctx { ctx with input := i', profile := p' } := ⟨h, hp, hacc, rfl⟩
      show (wireVisit step { ctx with input := i', profile := p' } peripherals [] _ >>= _) = _
      rw [hsame.wireVisit_eq]

/-! ## The search -/

theorem Reordered.solverLog_eq (h : Reordered i i') (hp : SameProfile p p')
    (hacc : p.accepted = true) (parts : List (PartDefinition ν)) :
    solverLog p' i'.spec parts = solverLog p i.spec parts := by
  have hkey : p'.key = p.key := by rw [hp.rest]; rfl
  have hev : p'.evidence = p.evidence := by rw [hp.rest]
  have hduty : dutyLog p' i'.spec parts = dutyLog p i.spec parts := by
    unfold dutyLog
    rw [h.interval]
    congr 1
    refine (sortBy_congr (compareText_on (fun a : Activity ν => pinKey a.part)) ?_
      (hp.activity.filter _)).symm
    exact (Separates.of_nodup (AssemblyProfile.accepted_keys hacc).2).sublist
      (List.filter_sublist.subset)
  unfold solverLog
  rw [hkey, hev, hduty]

theorem Reordered.buildPlan_eq (h : Reordered i i') (hp : SameProfile p p')
    (hacc : p.accepted = true) (brain source : PartDefinition ν)
    (selected : List (PartDefinition ν)) (wiring : List WiringEdge) (budget : PowerBudget ν) :
    buildPlan i' p' brain source selected wiring budget
      = buildPlan i p brain source selected wiring budget := by
  have hid : p'.id = p.id := by rw [hp.rest]
  have hver : p'.version = p.version := by rw [hp.rest]
  have hinput : p'.brainInput = p.brainInput := by rw [hp.rest]
  unfold buildPlan
  simp only [h.solverLog_eq hp hacc, hid, hver, hinput, h.runtime]

theorem Reordered.visit_eq (h : Reordered i i') (hp : SameProfile p p')
    (hacc : p.accepted = true) (q : Query ν) (brain source : PartDefinition ν) :
    ∀ (rest chosen : List (PartDefinition ν)),
      visit i' q p' brain source chosen rest = visit i q p brain source chosen rest
  | [], chosen => by
      have hcomplete : complete i' q p' brain source chosen = complete i q p brain source chosen := by
        unfold complete
        simp only [h.checkParts_eq, h.wire_eq _ hp hacc, h.buildPlan_eq hp hacc, h.limits.1,
          h.limits.2]
      unfold visit
      rw [hcomplete, h.limits.1]
  | c :: rest, chosen => by
      unfold visit
      rw [h.visit_eq hp hacc q brain source rest, h.visit_eq hp hacc q brain source rest,
        h.limits.1]

theorem Reordered.searchProfile_eq (h : Reordered i i') (hp : SameProfile p p')
    (hacc : p.accepted = true) (q : Query ν) : searchProfile i' q p' = searchProfile i q p := by
  unfold searchProfile
  simp only [h.basePair_eq hp, h.baseFailures_eq, h.candidates_eq, h.visit_eq hp hacc, h.limits.1]

theorem Reordered.searchFrom_eq (h : Reordered i i') (q : Query ν) :
    ∀ {l l' : List (AssemblyProfile ν)}, List.Forall₂ SameProfile l l' →
      (∀ p ∈ l, p.accepted = true) → searchFrom i' q l' = searchFrom i q l
  | _, _, .nil, _ => rfl
  | _, _, .cons hp hrest, hacc => by
      unfold searchFrom
      rw [h.searchProfile_eq hp (hacc _ (by simp)),
        h.searchFrom_eq q hrest (fun p hp => hacc p (List.mem_cons_of_mem _ hp))]

theorem Reordered.sortedProfiles_rel (h : Reordered i i') :
    List.Forall₂ SameProfile (sortedProfiles i) (sortedProfiles i') := by
  obtain ⟨l, hrel, hperm⟩ := h.profiles
  have hkeys := (SolveInput.wellFormed h.accepted').profileKeys
  have hsorted : sortedProfiles i' = sortBy (fun a b => compareText a.key b.key) l :=
    (sortBy_congr (compareText_on AssemblyProfile.key)
      (Separates.of_nodup hkeys |>.perm hperm.symm) hperm).symm
  rw [hsorted]
  refine sortBy_forall₂ ?_ hrel
  intro a a' b b' hab hab'
  have hkey : ∀ {p p' : AssemblyProfile ν}, SameProfile p p' → p'.key = p.key := by
    intro p p' hp
    rw [hp.rest]
    rfl
  rw [hkey hab, hkey hab']

theorem Reordered.search_eq (h : Reordered i i') (needs : List Text) (firstOnly : Bool) :
    search i' needs firstOnly = search i needs firstOnly := by
  have hacc : ∀ p ∈ sortedProfiles i, p.accepted = true :=
    fun p hp => (SolveInput.wellFormed h.accepted).profiles p (mem_sortBy.mp hp)
  unfold search
  rw [h.query_eq, h.searchFrom_eq _ h.sortedProfiles_rel hacc]

/-! ## The request -/

theorem Reordered.minimize_eq (h : Reordered i i') :
    ∀ rest conflict : List Text, minimize i' rest conflict = minimize i rest conflict
  | [], _ => rfl
  | r :: rest, conflict => by
      unfold minimize
      simp only [h.search_eq, h.minimize_eq rest]

theorem Reordered.solveBody_eq (h : Reordered i i') : solveBody i' = solveBody i := by
  have hmissing : missingCapabilities i' = missingCapabilities i := by
    unfold missingCapabilities
    rw [h.caps_eq, h.sortedParts_eq]
  have hinf : infeasibleResult i' = infeasibleResult i := by
    unfold infeasibleResult
    rw [h.requirements_eq, h.minimize_eq]
  unfold solveBody
  rw [h.requirements_eq, h.search_eq, hmissing, hinf]

/--
**The answer does not depend on the order of the evidence.**

Plans, wiring, budget, bill of materials and log, the count, the conflict set, the
diagnostics and the number of steps are all the same.
-/
theorem solve_order_independent (hacc : i.accepted = true) (hacc' : i'.accepted = true)
    (h : SameEvidence i i') : solveAccepted i = solveAccepted i' := by
  have hr : Reordered i i' := ⟨h, hacc, hacc'⟩
  unfold solveAccepted
  rw [hr.solveBody_eq, hr.targetLifeDays, hr.powerSource]

/-- The bench, with its parts and connectors listed backwards. -/
theorem solve_order_independent_bench :
    solveAccepted benchSolvable = solveAccepted
      { benchSolvable with
        parts := benchSolvable.parts.reverse, connectors := benchSolvable.connectors.reverse } :=
  solve_order_independent (by decide +kernel) (by decide +kernel)
    { spec := rfl
      capabilities := List.Perm.refl _
      parts := (List.reverse_perm _).symm
      connectors := (List.reverse_perm _).symm
      profiles := ⟨[benchProfile],
        .cons ⟨rfl, List.Perm.refl _, List.Perm.refl _⟩ .nil, List.Perm.refl _⟩
      compat := List.Perm.refl _
      limits := ⟨rfl, rfl⟩ }

end Albusforge.Matcher
