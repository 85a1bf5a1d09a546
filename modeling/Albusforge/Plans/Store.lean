import Albusforge.Lib.Search
import Albusforge.Lib.Serial
import Albusforge.Intake.Decide
import Albusforge.Matcher.Solver
import Albusforge.Sessions.Request

/-!
# The plan store

`apps/gateway/src/build-plan-store.ts`, with `apps/matcher/src/intake.ts`, and the write of a
turn in `apps/intake/src/handler.ts`. Generating, accepting and publishing a spec are one
transaction each, and each first locks the build's row. What a transaction reads beside the
build (the registry, its session, the clock) may change from statement to statement.
-/

namespace Albusforge.Plans

open Lib Matcher Sessions

/-! ## Rows -/

structure BuildPlanEvidence where
  parts : List (PartDefinition ℚ)
  connectors : List (ConnectorDefinition ℚ)
  profile : AssemblyProfile ℚ
  compat : List CompatEntry

structure BuildPlanMetadata where
  inputDigest : Text
  evidence : BuildPlanEvidence

/-- A row of `builds.plans`. -/
structure PlanRow where
  version : ℕ
  specVersion : ℕ
  plan : BuildPlan ℚ
  metadata : BuildPlanMetadata
  createdAt : ℤ
  acceptedAt : Option ℤ
  acceptedBy : Option Text

structure BuildRows where
  build : Option (Option Text)
  specs : List (Intake.SpecRow Intake.Spec)
  plans : List PlanRow

/-! ## What the schema accepts -/

def wiringEdgeAccepted (e : WiringEdge) : Bool :=
  e.part.accepted && e.port != [] && isConnectorId e.connector && e.resources.all (· != [])

def powerBudgetAccepted (b : PowerBudget ℚ) : Bool :=
  nonnegative b.averageSourceMa && nonnegative b.peakSourceMa && nonnegative b.peakBrainRailMa &&
    b.usableCapacityMah.all positive && b.estimatedLifeDays.all nonnegative

/-- `BuildPlanV1` -/
def buildPlanAccepted (p : BuildPlan ℚ) : Bool :=
  2 ≤ p.partVersions.length && p.partVersions.length ≤ 24 && p.partVersions.all PartPin.accepted &&
    isSemVer p.runtime && 1 ≤ p.profileId.length && p.profileId.length ≤ 120 &&
    isSemVer p.profileVersion && p.wiringGraph.source.accepted && p.wiringGraph.brain.accepted &&
    p.wiringGraph.brainInput != [] && p.wiringGraph.peripherals.length ≤ 24 &&
    p.wiringGraph.peripherals.all wiringEdgeAccepted && powerBudgetAccepted p.powerBudget &&
    2 ≤ p.bom.length && p.bom.length ≤ 24 &&
    p.bom.all (fun l => l.part.accepted && l.quantity == 1 && nonnegative l.unitCostUsd) &&
    nonnegative p.totalCostUsd && p.solverLog.length ≤ 256

/-- `BuildPlanMetadata`: `/^[a-f0-9]{64}$/`, and evidence that the schema accepts. -/
def BuildPlanMetadata.accepted (m : BuildPlanMetadata) : Bool :=
  m.inputDigest.length == 64 && m.inputDigest.all (fun c => isDigit c || (97 ≤ c && c ≤ 102)) &&
    2 ≤ m.evidence.parts.length && m.evidence.parts.length ≤ 24 &&
    m.evidence.parts.all PartDefinition.accepted && m.evidence.connectors.length ≤ 64 &&
    m.evidence.connectors.all ConnectorDefinition.accepted && m.evidence.profile.accepted &&
    m.evidence.compat.length ≤ 4096 && m.evidence.compat.all CompatEntry.accepted

/-- `decodeBuildPlan` finds a plan in the row. -/
def PlanRow.decodes (r : PlanRow) : Bool :=
  buildPlanAccepted r.plan && r.metadata.accepted && 1 ≤ r.version && 1 ≤ r.specVersion

/-! ## Trusted input -/

structure ReviewedPlanCatalogue where
  runtime : Option Text
  profiles : List (AssemblyProfile ℚ)
  connectors : List (ConnectorDefinition ℚ)

structure Beside where
  parts : List (PartDefinition ℚ)
  compat : List CompatEntry
  expired : Bool
  /-- `clock_timestamp()` -/
  now : ℤ

def transportOf : Intake.Transport → Transport
  | .wifi => .wifi
  | .ble => .ble
  | .lora => .lora
  | .none => .none

def powerSourceOf : Intake.PowerSource → Option PowerSource
  | .battery => some .battery
  | .solar => some .solar
  | .usb => some .usb
  | .unknown => none

/-- `fromIntakeSpec`, `none` where it throws: what the matcher cannot check is refused. -/
def fromIntakeSpec (s : Intake.Spec) (runtime : Text) : Option (SolveSpec ℚ) := do
  let interval ← s.sense.intervalS
  let power ← powerSourceOf s.power.source
  let spec : SolveSpec ℚ :=
    ⟨s.capabilities, transportOf s.connect.transport, power, interval, s.power.targetLifeDays, runtime⟩
  if s.settled && s.openQuestions.isEmpty && s.environment.flags.isEmpty &&
      s.sense.accuracy.all (fun a => trim a == []) && spec.accepted then
    some spec
  else none

def searchInput (catalogue : ReviewedPlanCatalogue) (spec : SolveSpec ℚ)
    (parts : List (PartDefinition ℚ)) (compat : List CompatEntry) : Option (SolveInput ℚ) :=
  let input : SolveInput ℚ :=
    ⟨spec, parts, catalogue.connectors, catalogue.profiles, compat, 100000, 3⟩
  if input.accepted then some input else none

/-- `evidenceFor`, unless the plan's profile is not among the input's. -/
def evidenceFor (plan : BuildPlan ℚ) (input : SolveInput ℚ) : Option BuildPlanEvidence :=
  let parts := input.parts.filter fun p => plan.partVersions.contains p.pin
  (input.profiles.find? fun f => f.id == plan.profileId && f.version == plan.profileVersion).map
    fun profile =>
      { parts, connectors := input.connectors, profile
        compat := input.compat.filter fun row =>
          row.runtimeVer == plan.runtime && row.brainId == plan.wiringGraph.brain.id &&
            parts.any fun p => p.software.driverPkg == some row.driverPkg &&
              p.software.driverVersion == some row.driverVer }

/-! ## Requests and answers -/

structure WriteIdentity where
  tenantId : Text
  userId : Text
  deriving DecidableEq

inductive PlanRequest
  | solve (session : Except HttpError WriteIdentity) (specVersion : ℕ)
  | accept (session : Except HttpError WriteIdentity) (version specVersion : ℕ)
  | publish (latest : ℕ) (data : Intake.Spec)
  deriving DecidableEq

inductive PlanAnswer
  | solved (plans : List PlanRow)
  | unavailable
  | infeasible (explanation : Text)
  | searchLimit
  | accepted (row : PlanRow)
  | published (version : ℕ)
  | refused (e : HttpError)
  | raised

def PlanAnswer.refusal : PlanAnswer → Option HttpError
  | .refused e => some e
  | _ => none

structure Outcome where
  request : PlanRequest
  basis : Option (Intake.SpecRow Intake.Spec × SolveInput ℚ)
  answer : PlanAnswer

def missing : HttpError := ⟨404, js "NOT_FOUND", js "Build not found"⟩

def specChanged (doing : Text) : HttpError :=
  ⟨409, js "SPEC_CHANGED", js "The spec changed. Reload before " ++ doing ++ js " a plan."⟩

def specNotSolvable : HttpError :=
  ⟨409, js "SPEC_NOT_SOLVABLE",
    js "The current spec is not settled or includes constraints the planner cannot verify."⟩

def planUnavailable (message : Text) : HttpError := ⟨409, js "PLAN_UNAVAILABLE", message⟩

def evidenceChanged : HttpError :=
  ⟨409, js "EVIDENCE_CHANGED", js "Plan evidence changed. Generate a new plan before accepting."⟩

def planAlreadyAccepted : HttpError :=
  ⟨409, js "PLAN_ALREADY_ACCEPTED",
    js "A plan is already accepted for this spec. Create a new spec revision to replace it."⟩

def notEstablished : Text := js "The bounded planner could not establish a feasible plan."

/-! ## The transactions -/

abbrev PlanProg : Type := Prog BuildRows Beside Outcome

def authorized (o : Outcome) : PlanProg :=
  .read fun g _ =>
    if g.expired then .finish { o with answer := .refused signInRequired } false else .finish o true

def withSpec (request : PlanRequest) (specVersion : ℕ) (doing : Text)
    (next : Intake.SpecRow Intake.Spec → PlanProg) : PlanProg :=
  .read fun g _ =>
    if g.expired then .finish ⟨request, none, .refused signInRequired⟩ false
    else .read fun _ s =>
      match (Intake.latestSpecOf s.specs).filter fun spec => spec.version == specVersion with
      | none => .finish ⟨request, none, .refused (specChanged doing)⟩ false
      | some spec => next spec

/-- `trustedInput`: `next none` where there is nothing approved to search. -/
def withTrustedInput (catalogue : ReviewedPlanCatalogue) (request : PlanRequest) (data : Intake.Spec)
    (next : Option (SolveInput ℚ) → PlanProg) : PlanProg :=
  match catalogue.runtime with
  | none => next none
  | some runtime =>
      if catalogue.profiles.isEmpty then next none
      else match fromIntakeSpec data runtime with
        | none => .finish ⟨request, none, .refused specNotSolvable⟩ false
        | some spec =>
            .read fun g _ =>
              let parts := g.parts.take 25
              if !parts.all PartDefinition.accepted then .finish ⟨request, none, .raised⟩ false
              else if 24 < parts.length || parts.any (fun p => p.status != .active) then next none
              else .read fun g _ =>
                next (searchInput catalogue spec parts ((g.compat.take 4097).filter CompatEntry.accepted))

section

variable (digest : Intake.Spec → Text → BuildPlanEvidence → Text) (catalogue : ReviewedPlanCatalogue)

/-- `BuildPlanMetadata.parse` of a plan of the solver, `none` where a check throws. -/
def metadataOf (spec : Intake.SpecRow Intake.Spec) (input : SolveInput ℚ) (plan : BuildPlan ℚ) :
    Option BuildPlanMetadata :=
  (evidenceFor plan input).bind fun evidence =>
    let metadata : BuildPlanMetadata := ⟨digest spec.data plan.runtime evidence, evidence⟩
    if buildPlanAccepted plan && metadata.accepted then some metadata else none

def PlanRow.identifies (specVersion : ℕ) (inputDigest : Text) (r : PlanRow) : Bool :=
  r.specVersion == specVersion && r.metadata.inputDigest == inputDigest

/-- `ORDER BY version LIMIT 1` -/
def firstRow (rows : List PlanRow) : Option PlanRow :=
  rows.foldl (better fun r b => decide (r.version < b.version)) none

/-- The loop over the solver's plans: `version` is the highest so far. -/
def storePlans (o : Outcome) (spec : Intake.SpecRow Intake.Spec) (input : SolveInput ℚ) :
    List (BuildPlan ℚ) → ℕ → List PlanRow → PlanProg
  | [], _, stored => authorized { o with answer := .solved stored }
  | plan :: rest, version, stored =>
      match metadataOf digest spec input plan with
      | none => .finish { o with answer := .raised } false
      | some metadata =>
          .read fun g s =>
            match firstRow (s.plans.filter (PlanRow.identifies spec.version metadata.inputDigest)) with
            | some row =>
                if row.decodes then storePlans o spec input rest version (stored ++ [row])
                else .finish { o with
                  answer := .refused (planUnavailable (js "Stored plan requires regeneration.")) } false
            | none =>
                let row : PlanRow := ⟨version + 1, spec.version, plan, metadata, g.now, none, none⟩
                -- the primary key
                if s.plans.any (fun r => r.version == row.version) then
                  .finish { o with answer := .raised } false
                else
                  .write (fun _ s => { s with plans := s.plans ++ [row] })
                    (storePlans o spec input rest (version + 1) (stored ++ [row]))

/-- `coalesce(max(version), 0)` -/
def maxVersion (plans : List PlanRow) : ℕ := plans.foldl (fun v r => max v r.version) 0

/-- `solve`, once the build's row is locked. -/
def solveBody (request : PlanRequest) (specVersion : ℕ) : PlanProg :=
  withSpec request specVersion (js "generating") fun spec =>
    withTrustedInput catalogue request spec.data fun
      | none => authorized ⟨request, none, .unavailable⟩
      | some input =>
          let o : Outcome := ⟨request, some (spec, input), .raised⟩
          match solveAccepted input with
          | .solved plans _ _ =>
              .read fun _ s => storePlans digest o spec input plans (maxVersion s.plans) []
          | .searchLimit _ => authorized { o with answer := .searchLimit }
          | .infeasible _ _ explanation _ => authorized { o with answer := .infeasible explanation }
          | .invalidInput _ => authorized { o with answer := .infeasible notEstablished }

def restricted (input : SolveInput ℚ) (plan : BuildPlan ℚ) : SolveInput ℚ :=
  { input with
    parts := input.parts.filter (fun p => plan.partVersions.contains p.pin)
    profiles := input.profiles.filter
      fun f => f.id == plan.profileId && f.version == plan.profileVersion }

def verified (spec : Intake.SpecRow Intake.Spec) (input : SolveInput ℚ) (row : PlanRow) : Bool :=
  (solveAccepted (restricted input row.plan)).plans.contains row.plan &&
    digest spec.data row.plan.runtime row.metadata.evidence == row.metadata.inputDigest &&
    (evidenceFor row.plan input).any fun evidence =>
      digest spec.data row.plan.runtime evidence == row.metadata.inputDigest

/-- `UPDATE ... SET accepted_at, accepted_by` on the row of a version. -/
def PlanRow.accept (version : ℕ) (now : ℤ) (userId : Text) (r : PlanRow) : PlanRow :=
  if r.version == version then { r with acceptedAt := some now, acceptedBy := some userId } else r

/-- `accept`, once the build's row is locked. -/
def acceptBody (request : PlanRequest) (identity : WriteIdentity) (version specVersion : ℕ) :
    PlanProg :=
  withSpec request specVersion (js "accepting") fun spec => .read fun _ s =>
    match (s.plans.find? fun r => r.version == version).filter
        (fun r => r.decodes && r.specVersion == spec.version) with
    | none => .finish ⟨request, none,
        .refused (planUnavailable (js "Choose a plan for the current spec."))⟩ false
    | some row =>
        -- A replay returns the recorded decision, not a new approval of mutable evidence.
        if row.acceptedAt.isSome then authorized ⟨request, none, .accepted row⟩
        else withTrustedInput catalogue request spec.data fun
          | none => .finish ⟨request, none,
              .refused (planUnavailable (js "Approved assembly evidence is unavailable."))⟩ false
          | some input =>
              let o : Outcome := ⟨request, some (spec, input), .raised⟩
              if !verified digest spec input row then
                .finish { o with answer := .refused evidenceChanged } false
              else .read fun g s =>
                if s.plans.any (fun r => r.specVersion == spec.version && r.acceptedAt.isSome) then
                  .finish { o with answer := .refused planAlreadyAccepted } false
                else
                  .write (fun _ s => { s with plans := s.plans.map (PlanRow.accept version g.now identity.userId) })
                    (authorized { o with answer := .accepted (row.accept version g.now identity.userId) })

def unmatched (request : PlanRequest) (session : Except HttpError WriteIdentity) (s : BuildRows) :
    Option Outcome :=
  match session with
  | .error e => some ⟨request, none, .refused e⟩
  | .ok identity =>
      if s.build = some (some identity.tenantId) then none else some ⟨request, none, .refused missing⟩

def publishBody (request : PlanRequest) (latest : ℕ) (data : Intake.Spec) : PlanProg :=
  .read fun _ s =>
    -- the primary key
    if s.specs.any (fun r => r.version == latest + 1) then .finish ⟨request, none, .raised⟩ false
    else .write (fun _ s => { s with specs := s.specs ++ [⟨latest + 1, data⟩] })
      (.finish ⟨request, none, .published (latest + 1)⟩ true)

def PlanRequest.transaction (request : PlanRequest) : Transaction BuildRows Beside Outcome :=
  match request with
  | .solve session specVersion =>
      { unmatched := unmatched request session, body := solveBody digest catalogue request specVersion }
  | .accept session version specVersion =>
      { unmatched := unmatched request session
        body := match session with
          | .error e => .finish ⟨request, none, .refused e⟩ false
          | .ok identity => acceptBody digest catalogue request identity version specVersion }
  | .publish latest data =>
      { unmatched := fun s => if s.build.isSome then none else some ⟨request, none, .raised⟩
        body := publishBody request latest data }

end

end Albusforge.Plans
