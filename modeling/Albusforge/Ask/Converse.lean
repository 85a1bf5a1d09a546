import Albusforge.Lib.Threads
import Albusforge.Llm.Meter

/-!
# The device chat

`converse` of `apps/ask/src/converse.ts` with `reserve`, `started` and `finish` of `apps/ask/src/converse-store.ts`, as
procedures, and the database and the provider that answer them. Any number of these calls, of any number of
instances, go on side by side (`service`).

A transaction reads what is committed and what it has written itself, statement by statement, and its writes are
there for the others once it commits. A statement that fails may have been carried out. A transaction may be
rolled back at any time, and where a `COMMIT` has failed it may still be carried out later. An id is the value of a
`uuid`, a time is in microseconds, and a cost is an exact number.
-/

namespace Albusforge.Ask.Chat

open Lib
open Llm.Tools (LlmResponse LlmCallRecord ModelPrice ToolOp ToolLoopOptions ToolLoopOutcome Thrown toRecord runToolLoop)

/-! ## Requests and rows -/

structure DeviceConverseRequest where
  requestId : ℕ
  tenantId : ℕ
  actorId : ℕ
  deviceId : ℕ
  history : List (Llm.Role × Text)
  question : Text

structure ChatLimits where
  user : ℕ
  tenant : ℕ
  global : ℕ

inductive Outcome
  | reserved | model | noTool | unavailable

structure ChatUsage where
  model : Option Text
  modelCalls : ℕ
  toolCalls : ℕ
  usageKnown : Bool
  inputTokens : ℕ
  outputTokens : ℕ
  cacheReadTokens : ℕ
  cacheCreationTokens : ℕ
  costUsd : ℚ

/-- The `usage` that a call begins with. -/
def ChatUsage.zero : ChatUsage := ⟨none, 0, 0, true, 0, 0, 0, 0, 0⟩

/-- A row of `telemetry.device_chat_requests`. -/
structure ChatRow where
  requestId : ℕ
  tenantId : ℕ
  actorId : ℕ
  deviceId : ℕ
  createdAt : ℤ
  outcome : Outcome
  model : Option Text
  modelAttempted : Bool
  modelCalls : ℕ
  toolCalls : ℕ
  usageKnown : Bool
  inputTokens : Option ℕ
  outputTokens : Option ℕ
  cacheReadTokens : Option ℕ
  cacheCreationTokens : Option ℕ
  costUsd : Option ℚ

def ChatRow.reserved (q : DeviceConverseRequest) (createdAt : ℤ) : ChatRow :=
  ⟨q.requestId, q.tenantId, q.actorId, q.deviceId, createdAt, .reserved, none, false, 0, 0, false, none, none, none, none,
    none⟩

/-- `WHERE request_id=$1 AND tenant_id=$2 AND actor_id=$3 AND device_id=$4` -/
def ChatRow.isOf (row : ChatRow) (q : DeviceConverseRequest) : Bool :=
  row.requestId = q.requestId && row.tenantId = q.tenantId && row.actorId = q.actorId && row.deviceId = q.deviceId

/-- `UPDATE` of `finish`; the column of the cost has six places. -/
def ChatRow.finished (row : ChatRow) (outcome : Outcome) (usage : ChatUsage) : ChatRow :=
  let unknown := row.modelAttempted && !usage.usageKnown
  { row with
    outcome
    model := usage.model
    modelCalls := usage.modelCalls
    toolCalls := usage.toolCalls
    usageKnown := !row.modelAttempted || usage.usageKnown
    inputTokens := if unknown then none else some usage.inputTokens
    outputTokens := if unknown then none else some usage.outputTokens
    cacheReadTokens := if unknown then none else some usage.cacheReadTokens
    cacheCreationTokens := if unknown then none else some usage.cacheCreationTokens
    costUsd := if unknown then none else some (Llm.Tools.round6 usage.costUsd) }

def ChatUsage.Fits (usage : ChatUsage) : Prop :=
  usage.modelCalls < 2 ^ 15 ∧ usage.toolCalls < 2 ^ 15 ∧ usage.inputTokens < 2 ^ 31 ∧ usage.outputTokens < 2 ^ 31 ∧
    usage.cacheReadTokens < 2 ^ 31 ∧ usage.cacheCreationTokens < 2 ^ 31 ∧ 0 ≤ usage.costUsd ∧ usage.costUsd < 10 ^ 10

/-! ## What a call asks for -/

inductive Fail
  | ask (status : ℕ) (code message : Text)
  | interrupted
  | thrown (thrown : Thrown)

/-- `counts` in `reserve` -/
structure Counts where
  global : ℕ
  tenant : ℕ
  actor : ℕ

/-- Statements of a transaction, and `begin` with the checkout before it. -/
inductive Statement
  | begin
  /-- `pg_advisory_xact_lock(CHAT_LOCK,1)` -/
  | lock
  | authorize (q : DeviceConverseRequest)
  | duplicate (requestId : ℕ)
  | counts (tenantId actorId : ℕ)
  | insert (q : DeviceConverseRequest)
  /-- `SET model_attempted=true` -/
  | attempt (q : DeviceConverseRequest)
  | finish (q : DeviceConverseRequest) (outcome : Outcome) (usage : ChatUsage)
  | commit
  | rollback

@[reducible] def Statement.Result : Statement → Type
  | duplicate _ => Bool
  | counts .. => Counts
  | _ => Unit

/-- What of the context goes into a call: the block of the prompt, and the deterministic reply. -/
structure Context where
  block : Text
  fallback : Text

inductive Line
  | llmCall (record : LlmCallRecord) (q : DeviceConverseRequest)
  | incomplete (failure : Llm.Tools.Failure) (iterations toolCalls : ℕ) (q : DeviceConverseRequest)

inductive ChatOp
  | db (statement : Statement)
  | context (q : DeviceConverseRequest)
  | tool (op : ToolOp)
  /-- The variable `usage` is changed, and read. -/
  | usage (change : ChatUsage → ChatUsage)
  | write (line : Line)
  /-- `pending.push(options.insert(call))`; the server gives every call an `insert`. -/
  | insert (record : LlmCallRecord)
  /-- `await Promise.all(pending)` -/
  | settled

@[reducible] def ChatOp.Ret : ChatOp → Type
  | db statement => Except Fail statement.Result
  | context _ => Except Fail Context
  | tool op => op.Ret
  | usage _ => ChatUsage
  | write _ => Except Fail Unit
  | insert _ => Unit
  | settled => Unit

abbrev Async : Type → Type := Proc ChatOp.Ret

def run (statement : Statement) : Async (Except Fail statement.Result) := Proc.ask (ChatOp.db statement)

/-- `transaction`, as the work that it is given sees it. -/
def transaction (work : Async (Except Fail Unit)) : Async (Except Fail Unit) := do
  match ← run .begin with
  | .error error => do
    let _ ← run .rollback
    return .error error
  | .ok () =>
    match ← work with
    | .error error => do
      let _ ← run .rollback
      return .error error
    | .ok () =>
      match ← run .commit with
      | .error error => do
        let _ ← run .rollback
        return .error error
      | .ok () => return .ok ()

/-! ## The store -/

def duplicateRequest : Fail := .ask 409 (js "DUPLICATE_REQUEST") (js "Request already accepted")

/-- `AskQuotaError`; the widest scope that is full is told to the operator only. -/
def quotaError : Fail := .ask 429 (js "DAILY_LIMIT") (js "Sensor chat daily request limit reached")

/-- `SELECT` and `INSERT` of `reserve`, under the lock. -/
def reserveRow (limits : ChatLimits) (q : DeviceConverseRequest) : Async (Except Fail Unit) := do
  match ← run (.counts q.tenantId q.actorId) with
  | .error error => return .error error
  | .ok counts =>
    if counts.global ≥ limits.global then return .error quotaError
    else if counts.tenant ≥ limits.tenant then return .error quotaError
    else if counts.actor ≥ limits.user then return .error quotaError
    else run (.insert q)

def reserve (limits : ChatLimits) (q : DeviceConverseRequest) : Async (Except Fail Unit) :=
  transaction do
    match ← run .lock with
    | .error error => return .error error
    | .ok () =>
      match ← run (.authorize q) with
      | .error error => return .error error
      | .ok () =>
        match ← run (.duplicate q.requestId) with
        | .error error => return .error error
        | .ok true => return .error duplicateRequest
        | .ok false => reserveRow limits q

def started (q : DeviceConverseRequest) : Async (Except Fail Unit) := transaction (run (.attempt q))

def finish (q : DeviceConverseRequest) (outcome : Outcome) (usage : ChatUsage) : Async (Except Fail Unit) :=
  transaction (run (.finish q outcome usage))

/-! ## The call -/

structure ConverseOptions where
  limits : ChatLimits
  provider : Bool
  model : Text
  maxTokens : ℕ
  maxIterations : ℕ
  /-- `ROUTE`, but for the context -/
  route : Llm.LlmRoute
  tools : List (Json JsonDouble)
  priceFor : Text → ModelPrice

def executors : List Text := [js "list_channels", js "device_status", js "query_window", js "query_series"]

def uuidText (id : ℕ) : Text := decimal id

def accumulate (into : ChatUsage) (record : LlmCallRecord) : ChatUsage :=
  { into with
    model := some record.model
    modelCalls := into.modelCalls + 1
    inputTokens := into.inputTokens + record.inputTokens
    outputTokens := into.outputTokens + record.outputTokens
    cacheReadTokens := into.cacheReadTokens + record.cacheReadInputTokens
    cacheCreationTokens := into.cacheCreationTokens + record.cacheCreationInputTokens
    costUsd := into.costUsd + record.costUsd }

inductive Mode
  | model | noTool | unavailable

def Mode.outcome : Mode → Outcome
  | model => .model
  | noTool => .noTool
  | unavailable => .unavailable

section Converse

variable (options : ConverseOptions) (q : DeviceConverseRequest)

/-- What `toRecord` makes of a response to this call. -/
def ConverseOptions.record (response : LlmResponse) : LlmCallRecord :=
  toRecord options.priceFor options.route.stage response (uuidText q.tenantId)

def onResponse (response : LlmResponse) : Async (Except Thrown Unit) := do
  let record := options.record q response
  let _ ← (Proc.ask (ChatOp.usage fun usage => accumulate usage record) : Async ChatUsage)
  let written : Except Fail Unit ← Proc.ask (ChatOp.write (.llmCall record q))
  match written with
  | .error _ => return .error .plain
  | .ok () => do
    let () ← (Proc.ask (ChatOp.insert record) : Async Unit)
    return .ok ()

def answer : (op : ToolOp) → Async op.Ret
  | .onResponse response => onResponse options q response
  | .onToolCall _ _ => return .ok ()
  | op => Proc.ask (ChatOp.tool op)

def loopOptions (context : Context) : ToolLoopOptions where
  model := options.model
  route := { options.route with cachedContext := some context.block }
  tools := options.tools
  executors
  messages := (q.history.map fun turn => ⟨turn.1, .text turn.2⟩) ++ [⟨.user, .text q.question⟩]
  maxIterations := options.maxIterations
  maxTokens := options.maxTokens
  onResponse := true
  onToolCall := true

def close (mode : Mode) (text : Text) : Async (Except Fail (Mode × Text)) := do
  let usage : ChatUsage ← Proc.ask (ChatOp.usage id)
  match ← finish q mode.outcome usage with
  | .error error => return .error error
  | .ok () => return .ok (mode, text)

def conclude (context : Context) (outcome : ToolLoopOutcome) : Async (Except Fail (Mode × Text)) := do
  let _ ← (Proc.ask (ChatOp.usage fun usage => { usage with toolCalls := outcome.toolCalls }) : Async ChatUsage)
  let () ← (Proc.ask ChatOp.settled : Async Unit)
  let _ ← (Proc.ask (ChatOp.usage fun usage =>
    if outcome.iterations > usage.modelCalls then { usage with usageKnown := false } else usage) : Async ChatUsage)
  match outcome with
  | .failed failure toolCalls iterations =>
    let written : Except Fail Unit ← Proc.ask (ChatOp.write (.incomplete failure iterations toolCalls q))
    match written with
    | .error error => return .error error
    | .ok () => close q .unavailable context.fallback
  | .ok text toolCalls _ => close q (if toolCalls ≠ 0 then .model else .noTool) text

def converse : Async (Except Fail (Mode × Text)) := do
  match ← reserve options.limits q with
  | .error error => return .error error
  | .ok () =>
    let context : Except Fail Context ← Proc.ask (ChatOp.context q)
    match context with
    | .error error => return .error error
    | .ok context =>
      if options.provider then
        match ← started q with
        | .error error => return .error error
        | .ok () =>
          match ← (runToolLoop (loopOptions options q context)).translate (answer options q) with
          | .error thrown => return .error (.thrown thrown)
          | .ok outcome => conclude q context outcome
      else close q .unavailable context.fallback

end Converse

end Albusforge.Ask.Chat
