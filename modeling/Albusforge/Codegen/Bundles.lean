import Albusforge.Lib.Checks
import Albusforge.Lib.ReadCommitted
import Albusforge.Sessions.Request

/-!
# Firmware versions

A row of `builds.code_bundles` is one firmware version of a build. What the compile and retry routes
(`apps/gateway/src/firmware-routes.ts`) decide by and write, and the statements of the worker
(`apps/codegen/src/job.ts`) on such rows. What a plan decodes to and what a candidate renders to, the
compiler, and SHA-256 are given (`Toolchain`).
-/

namespace Albusforge.Codegen

open Lib Lib.ReadCommitted Sessions

/-! ## Rows -/

inductive Status
  | pending
  | running
  | passed
  | failed
  deriving DecidableEq

/-- `["pending", "running"].includes(status)` -/
def Status.active : Status → Bool
  | .pending => true
  | .running => true
  | _ => false

/-- `FirmwareJobRequest` -/
structure Job where
  requestId : Text
  intervalS : ℕ
  instruction : Text
  basedOn : Option ℕ
  attempts : ℕ
  deriving DecidableEq

/-- What `FirmwareJobRequest` parses. -/
def Job.valid (j : Job) : Bool :=
  10 ≤ j.intervalS && j.intervalS ≤ 86400 && j.instruction.length ≤ 500 && j.attempts ≤ 3

variable {π κ μ : Type}

/-- `FirmwareManifest`, with what the worker does not look into left as `rest`. -/
structure Manifest (μ : Type) where
  buildId : Text
  planVersion : ℕ
  codeVersion : ℕ
  /-- The `files`, each with its path, digest and size. -/
  files : List (Text × Text × ℕ)
  rest : μ

/-- What a `FirmwarePassedRecord` has beside its job and its diagnostics. -/
structure PassedRecord (μ : Type) where
  candidateId : Text
  manifest : Manifest μ
  manifestDigest : Text
  sourceSha256 : Text
  bundleSha256 : Text
  instruction : Text

structure CompileLog (μ : Type) where
  job : Job
  lease : Option Text := none
  error : Option Text := none
  diagnostics : Option Text := none
  passed : Option (PassedRecord μ) := none

/-- A row of `builds.code_bundles`, under its build and version. -/
structure Bundle (μ : Type) where
  planVersion : ℕ
  status : Status
  storageRef : Option Text
  log : CompileLog μ
  updatedAt : ℤ

/-- A row of `builds.plans`, with the `spec_data` of its spec. -/
structure Plan (π : Type) where
  specVersion : ℕ
  accepted : Bool
  contents : π

/-! ## What is given -/

/-- What `decodePlan` returns. -/
structure Decoded (κ : Type) where
  candidate : κ
  intervalS : ℕ
  inputDigest : Text

structure Compiled (μ : Type) where
  manifest : Manifest μ
  manifestBytes : Text
  manifestDigest : Text
  source : Text
  sourceSha256 : Text
  files : List (Text × Text)
  bundle : Text
  diagnostics : Text

structure Toolchain (π κ μ : Type) where
  /-- `enabled` and `artifacts` of the routes. -/
  enabled : Bool
  /-- `decodePlan`, where it throws nothing. -/
  decodePlan : π → Option (Decoded κ)
  /-- `editCandidate`, where it throws nothing. -/
  editCandidate : κ → Text → Option ℕ
  /-- `renderCandidate`, where it throws nothing. -/
  renderCandidate : κ → ℕ → Option Text
  isCamera : κ → Bool
  candidateId : κ → Text
  candidateManifestMatches : κ → Manifest μ → Bool
  /-- `compile` and `compileCamera` of the worker. -/
  compilerFor : κ → Bool
  serializeFirmwareManifest : Manifest μ → Text
  sha256 : Text → Text

/-! ## The routes -/

def planChanged : HttpError :=
  ⟨409, js "PLAN_CHANGED", js "Accept the current plan before compiling firmware"⟩
def unsupportedFirmware : HttpError :=
  ⟨422, js "UNSUPPORTED_FIRMWARE", js "This accepted plan does not have a supported firmware profile"⟩
def compilerUnavailable : HttpError :=
  ⟨503, js "COMPILER_UNAVAILABLE", js "Firmware compilation is not configured"⟩
def requestConflict : HttpError := ⟨409, js "REQUEST_CONFLICT", js "Compile request changed"⟩
def compilePending : HttpError := ⟨409, js "COMPILE_PENDING", js "A firmware compile is already pending"⟩
def versionLimit : HttpError := ⟨409, js "VERSION_LIMIT", js "Firmware version limit reached"⟩
def invalidEdit : HttpError := ⟨400, js "INVALID_EDIT", js "An edit needs its source version"⟩
def sourceChanged : HttpError :=
  ⟨409, js "SOURCE_CHANGED", js "Choose a compiled version of the current plan"⟩
def powerInterval : HttpError :=
  ⟨422, js "POWER_INTERVAL", js "A shorter interval needs a newly accepted plan"⟩
def retryUnavailable : HttpError :=
  ⟨409, js "RETRY_UNAVAILABLE", js "This firmware version cannot be retried"⟩
def internalError : HttpError := ⟨500, js "INTERNAL", js "Internal error"⟩

def unsupportedEdit (camera : Bool) : HttpError :=
  ⟨400, js "UNSUPPORTED_EDIT",
    if camera then js "Camera capture interval must remain 900 seconds"
    else js "Use: Set interval to N seconds (10–86400 seconds)"⟩

/-- A compile request, its body a `FirmwareRequest`. -/
structure CompileRequest where
  buildId : Text
  planVersion : ℕ
  requestId : Text
  instruction : Option Text
  basedOn : Option ℕ

def Plan.current (p : Plan π) (latestSpec : ℕ) : Bool := p.accepted && p.specVersion = latestSpec

/-- `accepted`, of the plan that is found under the version. -/
def accepted (tools : Toolchain π κ μ) (plan : Option (Plan π)) (latestSpec : ℕ) :
    Except HttpError (Decoded κ) := do
  let p ← present (plan.filter fun p => p.current latestSpec) planChanged
  present (tools.decodePlan p.contents) unsupportedFirmware

inductive Answer
  | duplicate (version : ℕ)
  | create (version : ℕ) (job : Job)

def sameRequest (q : CompileRequest) (row : Bundle μ) : Prop :=
  row.planVersion = q.planVersion ∧ row.log.job.instruction = q.instruction.getD [] ∧
    row.log.job.basedOn = q.basedOn

instance (q : CompileRequest) (row : Bundle μ) : Decidable (sameRequest q row) :=
  inferInstanceAs (Decidable (_ ∧ _))

def sourced (q : CompileRequest) (previous : List (ℕ × Bundle μ)) : Prop :=
  ∀ v ∈ q.basedOn, ∃ row ∈ previous, row.1 = v ∧ row.2.planVersion = q.planVersion ∧ row.2.status = .passed

instance (q : CompileRequest) (previous : List (ℕ × Bundle μ)) : Decidable (sourced q previous) := by
  unfold sourced
  infer_instance

def requestedInterval (tools : Toolchain π κ μ) (q : CompileRequest) (plan : Decoded κ) :
    Except HttpError ℕ :=
  match q.instruction with
  | none => .ok plan.intervalS
  | some text =>
      present (tools.editCandidate plan.candidate text) (unsupportedEdit (tools.isCamera plan.candidate))

def newJob (q : CompileRequest) (interval : ℕ) : Job :=
  ⟨q.requestId, interval, q.instruction.getD [], q.basedOn, 0⟩

/-- `POST /v1/builds/:id/code`, from the `previous` rows of the build, the last version first. -/
def compileRequest (tools : Toolchain π κ μ) (q : CompileRequest) (plan : Decoded κ)
    (previous : List (ℕ × Bundle μ)) : Except HttpError Answer :=
  match previous.find? fun row => row.2.log.job.requestId = q.requestId with
  | some row => do
      require (sameRequest q row.2) requestConflict
      return .duplicate row.1
  | none => do
      require (∀ row ∈ previous, row.2.status.active = false) compilePending
      require (previous.length < 100) versionLimit
      require (q.instruction.isSome = q.basedOn.isSome) invalidEdit
      require (sourced q previous) sourceChanged
      let interval ← requestedInterval tools q plan
      require (plan.intervalS ≤ interval) powerInterval
      require ((newJob q interval).valid = true) internalError
      return .create ((previous.head?.elim 0 Prod.fst) + 1) (newJob q interval)

def newBundle (planVersion : ℕ) (job : Job) (now : ℤ) : Bundle μ :=
  ⟨planVersion, .pending, none, { job }, now⟩

/-- `POST /v1/builds/:id/code/:version/retry`, of the row that it has locked. -/
def retryRequest (row : Bundle μ) : Except HttpError Unit :=
  require (row.status = .failed ∧ row.log.job.valid = true ∧ row.log.job.attempts < 3) retryUnavailable

def retried (now : ℤ) (row : Bundle μ) : Bundle μ :=
  { row with status := .pending, log := { job := row.log.job }, updatedAt := now }

/-! ## The worker's statements -/

def leaseMs : ℤ := 900000

/-- `updated_at<now()-interval '15 minutes'` -/
def Bundle.stale (r : Bundle μ) (now : ℤ) : Bool := r.updatedAt < now - leaseMs

def Bundle.expired (r : Bundle μ) (now : ℤ) : Bool := r.status = .running && r.stale now

def expire (now : ℤ) : Update (Bundle μ) where
  matching r := r.expired now && 3 ≤ r.log.job.attempts
  change r := { r with
    status := .failed
    log := { r.log with error := some (js "Worker lease expired after three attempts") }
    updatedAt := now }

def Bundle.claimable (r : Bundle μ) (now : ℤ) : Bool :=
  (r.status = .pending || r.expired now) && r.log.job.attempts < 3

def claim (now : ℤ) (lease : Text) : Update (Bundle μ) where
  matching r := r.claimable now
  change r := { r with
    status := .running
    log := { job := { r.log.job with attempts := r.log.job.attempts + 1 }, lease := some lease }
    updatedAt := now }

/-- `status='running' AND compile_log->>'lease'=$3` -/
def Bundle.leased (r : Bundle μ) (lease : Text) : Bool := r.status = .running && r.log.lease = some lease

structure Publication (μ : Type) where
  storageRef : Text
  job : Job
  diagnostics : Text
  record : PassedRecord μ

def publish (now : ℤ) (lease : Text) (p : Publication μ) : Update (Bundle μ) where
  matching r := r.leased lease
  change r := { r with
    status := .passed
    storageRef := some p.storageRef
    log := { job := p.job, diagnostics := some p.diagnostics, passed := some p.record }
    updatedAt := now }

structure Failure where
  message : Text
  diagnostics : Option Text

def fail (now : ℤ) (lease : Text) (f : Failure) : Update (Bundle μ) where
  matching r := r.leased lease
  change r := { r with
    status := .failed
    log := { r.log with error := some f.message, diagnostics := f.diagnostics }
    updatedAt := now }

/-! ## The worker's checks -/

structure Work (π : Type) where
  lease : Text
  buildId : Text
  version : ℕ
  planVersion : ℕ
  job : Job
  plan : Plan π
  /-- `b.tenant_id` is set. -/
  owned : Bool
  latestSpec : ℕ

def Work.key (w : Work π) : Text × ℕ := (w.buildId, w.version)

def noLongerCurrent : Text := js "Accepted plan is no longer current"

def prepare (tools : Toolchain π κ μ) (w : Work π) : Except Text (Decoded κ) := do
  require (w.job.valid = true) (js "Invalid job")
  require (w.owned = true ∧ w.plan.current w.latestSpec = true) noLongerCurrent
  let d ← present (tools.decodePlan w.plan.contents) (js "Invalid plan")
  require (d.intervalS ≤ w.job.intervalS) (js "Edit violates accepted power interval")
  let _ ← present (tools.renderCandidate d.candidate w.job.intervalS) (js "Unsupported interval")
  require (tools.compilerFor d.candidate = true) (js "This accepted plan has no configured camera compiler")
  return d

def identical (tools : Toolchain π κ μ) (w : Work π) (d : Decoded κ) (c : Compiled μ) : Prop :=
  c.manifest.buildId = w.buildId ∧ c.manifest.planVersion = w.planVersion ∧
    c.manifest.codeVersion = w.version ∧ tools.candidateManifestMatches d.candidate c.manifest = true ∧
    c.manifestBytes = tools.serializeFirmwareManifest c.manifest ∧
    c.manifestDigest = tools.sha256 c.manifestBytes ∧
    tools.renderCandidate d.candidate w.job.intervalS = some c.source ∧
    c.sourceSha256 = tools.sha256 c.source ∧ c.files.length = 3 ∧
    ∀ f ∈ c.manifest.files, ∃ bytes, (f.1, bytes) ∈ c.files ∧ bytes.length = f.2.2 ∧ tools.sha256 bytes = f.2.1

/-- `builds/${row.build_id}/code/${row.version}/${lease}` -/
def artifactPrefix (w : Work π) : Text :=
  js "builds/" ++ w.buildId ++ js "/code/" ++ js (toString w.version) ++ js "/" ++ w.lease

def publication (tools : Toolchain π κ μ) (w : Work π) (d : Decoded κ) (c : Compiled μ) : Publication μ where
  storageRef := artifactPrefix w
  job := w.job
  diagnostics := c.diagnostics
  record :=
    { candidateId := tools.candidateId d.candidate
      manifest := c.manifest
      manifestDigest := c.manifestDigest
      sourceSha256 := c.sourceSha256
      bundleSha256 := tools.sha256 c.bundle
      instruction := w.job.instruction }

/-- What `FirmwarePassedRecord` parses, of what is not checked before. -/
def Publication.valid (p : Publication μ) : Prop :=
  p.record.candidateId ≠ [] ∧ p.record.candidateId.length ≤ 120 ∧ p.diagnostics.length ≤ 20000

def fresh (tools : Toolchain π κ μ) (plan : Option (Plan π)) (latestSpec : ℕ) (w : Work π) (d : Decoded κ)
    (m : Manifest μ) : Except Text Unit := do
  let p ← present (plan.filter fun p => p.current latestSpec) noLongerCurrent
  let again ← present (tools.decodePlan p.contents) (js "Invalid plan")
  require (again.inputDigest = d.inputDigest ∧ tools.candidateManifestMatches again.candidate m = true)
    (js "Accepted plan compiler approval changed before publication")
  let _ ← present (tools.renderCandidate again.candidate w.job.intervalS) (js "Unsupported interval")
  return

def keptMessages : List Text :=
  [js "Accepted plan", js "This accepted plan", js "Edit violates", js "Compile deadline", js "Compile lease"]

def failure (error : Text) : Failure where
  message :=
    if keptMessages.any fun p => p.isPrefixOf error then error
    else js "Firmware compilation failed; inspect the bounded compiler diagnostics and retry"
  diagnostics :=
    if (js "Compile failed:").isPrefixOf error then some (error.drop (error.length - 20000)) else none

/-! ## What the statements do to a row -/

section

variable {r : Bundle μ} {now : ℤ} {lease : Text}

theorem expire_matching : (expire now).matching r = true ↔
    r.status = .running ∧ r.stale now = true ∧ 3 ≤ r.log.job.attempts := by
  simp [expire, Bundle.expired, and_assoc]

theorem claim_matching : (claim now lease).matching r = true ↔
    (r.status = .pending ∨ r.status = .running ∧ r.stale now = true) ∧ r.log.job.attempts < 3 := by
  simp [claim, Bundle.claimable, Bundle.expired]

theorem leased_iff : r.leased lease = true ↔ r.status = .running ∧ r.log.lease = some lease := by
  simp [Bundle.leased]

theorem active_iff : r.status.active = true ↔ r.status = .pending ∨ r.status = .running := by
  cases r.status with
  | pending => simp [Status.active]
  | running => simp [Status.active]
  | passed => simp [Status.active]
  | failed => simp [Status.active]

theorem retryRequest_ok {u : Unit} : retryRequest r = .ok u ↔
    r.status = .failed ∧ r.log.job.valid = true ∧ r.log.job.attempts < 3 := by
  rw [retryRequest, require_ok]

end

section

variable {tools : Toolchain π κ μ} {q : CompileRequest} {plan : Decoded κ} {previous : List (ℕ × Bundle μ)}
  {v : ℕ} {job : Job}

theorem accepted_ok {plan : Option (Plan π)} {latestSpec : ℕ} {d : Decoded κ}
    (h : accepted tools plan latestSpec = .ok d) : ∃ p, plan = some p ∧ p.current latestSpec = true := by
  obtain ⟨p, hp, -⟩ := bind_ok.mp h
  exact ⟨p, Option.filter_eq_some_iff.mp (present_ok.mp hp)⟩

theorem fresh_ok {plan : Option (Plan π)} {latestSpec : ℕ} {w : Work π} {d : Decoded κ} {m : Manifest μ} {u : Unit}
    (h : fresh tools plan latestSpec w d m = .ok u) : ∃ p, plan = some p ∧ p.current latestSpec = true := by
  obtain ⟨p, hp, -⟩ := bind_ok.mp h
  exact ⟨p, Option.filter_eq_some_iff.mp (present_ok.mp hp)⟩

/-- **The version of a request that was made before** has its request identifier. -/
theorem duplicate_found (h : compileRequest tools q plan previous = .ok (.duplicate v)) :
    ∃ row, (v, row) ∈ previous ∧ row.log.job.requestId = q.requestId := by
  unfold compileRequest at h
  split at h
  · rename_i row hrow
    obtain ⟨_, -, hlast⟩ := bind_ok.mp h
    obtain rfl := Answer.duplicate.inj (pure_ok.mp hlast)
    exact ⟨row.2, List.mem_of_find?_eq_some hrow, by simpa using List.find?_some hrow⟩
  · simp only [bind_ok] at h
    obtain ⟨_, -, _, -, _, -, _, -, _, -, _, -, _, -, hlast⟩ := h
    exact absurd (pure_ok.mp hlast) (by simp)

structure Creates (q : CompileRequest) (previous : List (ℕ × Bundle μ)) (v : ℕ) (job : Job) : Prop where
  newRequest : ∀ row ∈ previous, row.2.log.job.requestId ≠ q.requestId
  noneActive : ∀ row ∈ previous, row.2.status.active = false
  version : v = (previous.head?.elim 0 Prod.fst) + 1
  requestId : job.requestId = q.requestId
  attempts : job.attempts = 0
  valid : job.valid = true

theorem creates_of_ok (h : compileRequest tools q plan previous = .ok (.create v job)) :
    Creates q previous v job := by
  unfold compileRequest at h
  split at h
  · obtain ⟨_, -, hlast⟩ := bind_ok.mp h
    exact absurd (pure_ok.mp hlast) (by simp)
  · rename_i hnone
    simp only [bind_ok] at h
    obtain ⟨_, hactive, _, -, _, -, _, -, interval, -, _, -, _, hvalid, hlast⟩ := h
    obtain ⟨rfl, rfl⟩ := Answer.create.inj (pure_ok.mp hlast)
    refine ⟨?_, require_ok.mp hactive, rfl, rfl, rfl, require_ok.mp hvalid⟩
    intro row hrow
    simpa using List.find?_eq_none.mp hnone row hrow

end

end Albusforge.Codegen
