import Albusforge.Lib.JsonParse
import Albusforge.Lib.Proc

/-!
# A structured model call

`callStructured` asks a provider for a JSON document that a schema accepts. A request that never
reached the provider is made again after a while, a truncated answer is asked for again with more
room, and an answer that the schema rejects is sent back to be repaired. All of these go through one
loop (`loop`), which every round brings closer to its end (`Turn.left`).
-/

namespace Albusforge.Llm

open Lib

/-! ## Requests and responses -/

inductive Effort
  | low | medium | high | xhigh | max

structure LlmRoute where
  stage : Text
  system : Text
  cachedContext : Option Text
  effort : Effort
  maxTokens : ℕ
  /-- for the single retry after a `max_tokens` stop -/
  retryMaxTokens : ℕ

inductive Role
  | user | assistant

inductive MessageContent
  | text (t : Text)
  | blocks (b : List (Json ℚ))

structure LlmMessage where
  role : Role
  content : MessageContent

structure SystemBlock where
  text : Text
  cached : Bool

structure LlmRequest where
  model : Text
  maxTokens : ℕ
  betas : List Text
  fallbacks : Text
  thinking : Text
  effort : Effort
  format : Json ℚ
  system : List SystemBlock
  messages : List LlmMessage

inductive ContentBlock
  | text (t : Text)
  | other

inductive StopReason
  | refusal
  | maxTokens
  | modelContextWindowExceeded
  /-- any other, `null` among them -/
  | other

structure LlmResponse where
  content : List ContentBlock
  stopReason : StopReason

structure CallAttribution where
  buildId : Option Text
  tenantId : Option Text
  anonOwnerHash : Option Text

structure CallContext where
  stage : Text
  prefixHash : Text

def fallbackBeta : Text := js "server-side-fallback-2026-07-01"

def systemBlocks (route : LlmRoute) : List SystemBlock :=
  match route.cachedContext with
  | none => [⟨route.system, true⟩]
  | some context => [⟨route.system, false⟩, ⟨context, true⟩]

def buildRequest (route : LlmRoute) (model : Text) (maxTokens : ℕ) (format : Json ℚ)
    (messages : List LlmMessage) : LlmRequest where
  model
  maxTokens
  betas := [fallbackBeta]
  fallbacks := js "default"
  thinking := js "adaptive"
  effort := route.effort
  format
  system := systemBlocks route
  messages

def responseText (response : LlmResponse) : Text :=
  response.content.flatMap fun block =>
    match block with
    | .text t => t
    | .other => []

/-! ## What is thrown -/

inductive Property
  | nullish
  | string (t : Text)
  | number (n : ℤ)
  | other

inductive Thrown
  /-- `null` and `undefined`, of which no property can be read -/
  | nullish
  /-- `error` is what an instance of `Error` has for its name and for that of its constructor, `causes`
  the codes along its chain of causes. -/
  | value (error : Option (Text × Option Text)) (status requestID request_id : Property) (causes : List Property)

inductive DiagnosticReason
  | invalidJson | schemaMismatch | providerError | aborted

structure CallDiagnostic where
  reason : DiagnosticReason
  paths : Option (List Text)
  codes : Option (List Text)
  errorName : Option Text
  status : Option ℤ
  requestId : Option Text
  causeCode : Option Text
  attempts : Option ℕ

def CallDiagnostic.of (reason : DiagnosticReason) : CallDiagnostic :=
  ⟨reason, none, none, none, none, none, none, none⟩

def errorClass : Thrown → Option Text
  | .value (some (name, constructor)) .. => some (if name = js "Error" then constructor.getD name else name)
  | _ => none

def Property.string? : Property → Option Text
  | .string t => some t
  | _ => none

def Property.number? : Property → Option ℤ
  | .number n => some n
  | _ => none

/-- `a ?? b` -/
def Property.orElse : Property → Property → Property
  | .nullish, b => b
  | a, _ => a

def causeCode (causes : List Property) : Option Text := (causes.take 5).findSome? Property.string?

/-- Reading a property of `null` or `undefined` throws. -/
def providerDiagnostic (error : Thrown) (aborted : Bool) : Except Thrown CallDiagnostic :=
  match error with
  | .nullish => .error (.value (some (js "TypeError", some (js "TypeError"))) .nullish .nullish .nullish [.nullish])
  | .value _ status requestID request_id causes => .ok
    { CallDiagnostic.of (if aborted then .aborted else .providerError) with
      errorName := errorClass error
      status := status.number?
      requestId := (requestID.orElse request_id).string?
      causeCode := causeCode causes }

/-- `{ ...diagnostic, ...(attempts > 1 ? { attempts } : {}) }` -/
def CallDiagnostic.after (diagnostic : CallDiagnostic) (attempts : ℕ) : CallDiagnostic :=
  if attempts > 1 then { diagnostic with attempts := some attempts } else diagnostic

/-! ## Validation -/

structure Issue where
  path : List Text
  message : Text
  code : Text

structure Schema (α : Type) where
  format : Json ℚ
  safeParse : Json ℚ → Except (List Issue) α

/-- The library's parts of the program: the digest in hexadecimal, and what `JSON.parse` says of a
text it rejects. -/
structure Platform where
  sha256 : Text → Text
  parseMessage : Text → Text

inductive Validation (α : Type)
  | accepted (value : α)
  /-- `detail` goes back to the model only. -/
  | rejected (detail : Text) (diagnostic : CallDiagnostic)

def maxDiagnosticPaths : ℕ := 10

def issuePath (issue : Issue) : Text :=
  let path := join dot issue.path
  if path = [] then js "(root)" else path

def schemaDetail (issues : List Issue) : Text :=
  (js "; ").intercalate (issues.map fun issue => issuePath issue ++ js ": " ++ issue.message)

variable {α : Type}

def validate (platform : Platform) (schema : Schema α) (text : Text) : Validation α :=
  match Json.parse text with
  | none => .rejected (js "Not valid JSON: " ++ platform.parseMessage text) (.of .invalidJson)
  | some json =>
    match schema.safeParse json with
    | .ok value => .accepted value
    | .error issues => .rejected (js "Schema mismatch: " ++ schemaDetail issues)
      { CallDiagnostic.of .schemaMismatch with
        paths := some ((issues.map issuePath).eraseDups.take maxDiagnosticPaths)
        codes := some (issues.map Issue.code).eraseDups }

def maxRepairDetail : ℕ := 1500

def repairTurn (text detail : Text) : List LlmMessage :=
  [⟨.assistant, .text (if trim text = [] then js "\x7b\x7d" else text)⟩,
   ⟨.user, .text (js "That output was rejected. " ++ detail.take maxRepairDetail ++
      js "\nReturn the whole corrected JSON object, matching the schema exactly.")⟩]

def prefixHash (platform : Platform) (route : LlmRoute) : Text :=
  (platform.sha256 (route.system ++ js " " ++ route.cachedContext.getD [])).take 16

/-! ## What a call asks for -/

inductive LlmOp
  /-- `signal.aborted` -/
  | aborted
  /-- `tokenCeiling.used()` -/
  | used
  | create (request : LlmRequest)
  | record (call : CallContext) (response : LlmResponse) (attribution : CallAttribution)
  | onMeterError (error : Thrown)
  | pause (ms : ℕ)

@[reducible] def LlmOp.Ret : LlmOp → Type
  | aborted => Bool
  | used => Except Thrown ℕ
  | create _ => Except Thrown LlmResponse
  | record .. => Except Thrown Unit
  | onMeterError _ => Except Thrown Unit
  | pause _ => Unit

abbrev Async : Type → Type := Proc LlmOp.Ret

structure CallOptions where
  model : Text
  attribution : CallAttribution
  signal : Bool
  tokenCeiling : Option ℕ
  onMeterError : Bool

inductive CallFailure
  | refusal | maxTokens | invalidOutput | tokenCeiling | deadline | providerError

inductive CallResult (α : Type)
  | ok (value : α) (calls : ℕ)
  | failed (failure : CallFailure) (calls : ℕ) (diagnostic : Option CallDiagnostic)

def CallResult.calls : CallResult α → ℕ
  | ok _ calls => calls
  | failed _ calls _ => calls

def signalAborted (options : CallOptions) : Async Bool :=
  if options.signal then Proc.ask LlmOp.aborted else pure false

def isAbort (options : CallOptions) (error : Thrown) : Async Bool := do
  return (← signalAborted options) || errorClass error = some (js "APIUserAbortError")

/-- `tokenCeiling && (await tokenCeiling.used()) >= tokenCeiling.limit` -/
def ceilingReached (options : CallOptions) : Async (Except Thrown Bool) :=
  match options.tokenCeiling with
  | none => pure (.ok false)
  | some limit => do
    let used : Except Thrown ℕ ← Proc.ask LlmOp.used
    return used.map fun n => n ≥ limit

def meterRecord (options : CallOptions) (call : CallContext) (response : LlmResponse) : Async (Except Thrown Unit) := do
  let stored : Except Thrown Unit ← Proc.ask (LlmOp.record call response options.attribution)
  match stored with
  | .ok () => return .ok ()
  | .error error => if options.onMeterError then Proc.ask (LlmOp.onMeterError error) else return .ok ()

/-! ## The loop -/

def maxCalls : ℕ := 3

def connectionBackoffMs : List ℕ := [1000, 3000, 6000]

structure Turn where
  transcript : List LlmMessage
  maxTokens : ℕ
  truncationRetried : Bool
  repaired : Bool
  calls : ℕ
  attempts : ℕ
  reconnects : ℕ

def Turn.left (s : Turn) : ℕ := (maxCalls - s.calls) + (connectionBackoffMs.length - s.reconnects)

inductive Next (α : Type) (s : Turn)
  | again (s' : Turn) (closer : s'.left < s.left)
  | done (result : CallResult α)

section Rounds

variable (platform : Platform) (route : LlmRoute) (schema : Schema α) (messages : List LlmMessage)
  (options : CallOptions)

/-- The `catch` around the request: only what never reached the provider is tried again. -/
def onError (s : Turn) (error : Thrown) : Async (Except Thrown (Next α s)) := do
  let aborted ← isAbort options error
  match providerDiagnostic error aborted with
  | .error thrown => return .error thrown
  | .ok diagnostic =>
    let diagnostic := diagnostic.after (s.attempts + 1)
    let failed : CallResult α := .failed (if aborted then .deadline else .providerError) s.calls (some diagnostic)
    if h : s.reconnects < connectionBackoffMs.length then
      if !aborted && diagnostic.status.isNone then do
        Proc.ask (LlmOp.pause connectionBackoffMs[s.reconnects])
        return .ok (.again { s with attempts := s.attempts + 1, reconnects := s.reconnects + 1 }
          (by simp only [Turn.left]; omega))
      else return .ok (.done failed)
    else return .ok (.done failed)

/-- The `switch` on a response that is metered, `s` being as it was before the response came. -/
def onResponse (s : Turn) (hcalls : s.calls < maxCalls) (response : LlmResponse) : Next α s :=
  let calls := s.calls + 1
  match response.stopReason with
  | .refusal => .done (.failed .refusal calls none)
  | .maxTokens =>
    if s.truncationRetried then .done (.failed .maxTokens calls none)
    else .again
      { s with truncationRetried := true, maxTokens := max s.maxTokens route.retryMaxTokens, calls := calls
               attempts := s.attempts + 1 }
      (by simp only [Turn.left]; omega)
  | .modelContextWindowExceeded => .done (.failed .maxTokens calls none)
  | .other =>
    let text := responseText response
    match validate platform schema text with
    | .accepted value => .done (.ok value calls)
    | .rejected detail diagnostic =>
      if s.repaired then .done (.failed .invalidOutput calls (some diagnostic))
      else .again
        { s with repaired := true, transcript := messages ++ repairTurn text detail, calls := calls
                 attempts := s.attempts + 1 }
        (by simp only [Turn.left]; omega)

def round (s : Turn) (hcalls : s.calls < maxCalls) : Async (Except Thrown (Next α s)) := do
  if ← signalAborted options then return .ok (.done (.failed .deadline s.calls none))
  else
    match ← ceilingReached options with
    | .error thrown => return .error thrown
    | .ok true => return .ok (.done (.failed .tokenCeiling s.calls none))
    | .ok false =>
      let request := buildRequest route options.model s.maxTokens schema.format s.transcript
      let answer : Except Thrown LlmResponse ← Proc.ask (LlmOp.create request)
      match answer with
      | .error error => onError options s error
      | .ok response =>
        match ← meterRecord options ⟨route.stage, prefixHash platform route⟩ response with
        | .error thrown => return .error thrown
        | .ok () => return .ok (onResponse platform route schema messages s hcalls response)

def loop (after : Turn → CallResult α) (s : Turn) : Async (Except Thrown (CallResult α)) :=
  if hcalls : s.calls < maxCalls then do
    match ← round platform route schema messages options s hcalls with
    | .error thrown => return .error thrown
    | .ok (.done result) => return .ok result
    | .ok (.again s' _) => loop after s'
  else return .ok (after s)
termination_by s.left

def Turn.start : Turn := ⟨messages, route.maxTokens, false, false, 0, 0, 0⟩

/-- The `return` after the loop. -/
def fallThrough (s : Turn) : CallResult α :=
  .failed (if s.truncationRetried then .maxTokens else .invalidOutput) s.calls none

def callStructured : Async (Except Thrown (CallResult α)) :=
  loop platform route schema messages options fallThrough (.start route messages)

end Rounds

end Albusforge.Llm
