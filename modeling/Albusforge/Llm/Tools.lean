import Mathlib
import Albusforge.Lib.Double
import Albusforge.Llm.Call

/-!
# The tool loop

`runToolLoop` of `packages/llm/src/tools.ts`: it asks a provider, runs the tools that the answer asks for, and sends
their results back, until the answer asks for none or a limit is reached. An executor is looked up as a property
of the object that holds them, so a name may also stand for what every object inherits (`Builtin`). What is handed
over is not changed by those that it is handed to.
-/

namespace Albusforge.Llm.Tools

open Lib

/-! ## Values -/

/-- What is thrown, as far as `catch` looks at it. -/
inductive Thrown
  | plain
  | coded (code : Text)
  /-- Its code cannot be read, or `String` throws on it. -/
  | unreadable

def typeError : Thrown := .plain

/-- A value, as far as `JSON.stringify` sees it. -/
inductive Value
  | undefined
  | json (j : Json JsonDouble)
  /-- with its text, or `undefined`, or what is thrown instead -/
  | other (text : Except Thrown (Option Text))

/-- `JSON.stringify(value)` -/
def Value.stringify : Value → Except Thrown (Option Text)
  | undefined => .ok none
  | json j => .ok (some j.stringify)
  | other text => text

/-- What an executor resolves with; no property can be read of `null` and `undefined`. -/
inductive Resolved
  | nullish
  | fields (result note : Value)

/-! ## Requests and responses -/

structure ToolUse where
  id : Text
  name : Text
  input : Json JsonDouble

inductive ContentBlock
  | text (t : Text)
  | toolUse (use : ToolUse)
  | other (block : Json JsonDouble)

inductive StopReason
  | refusal
  | maxTokens
  | toolUse
  /-- any other, `null` among them -/
  | other
  deriving DecidableEq

/-- What a response says of its tokens, `iterations` being those of the models that a fallback has gone through. -/
structure TokenCounts where
  inputTokens : ℕ
  outputTokens : ℕ
  cacheReadInputTokens : Option ℕ
  cacheCreationInputTokens : Option ℕ
  cacheCreation : Option (ℕ × ℕ)

structure LlmUsage extends TokenCounts where
  iterations : List (Text × TokenCounts)

structure LlmResponse where
  content : List ContentBlock
  stopReason : StopReason
  model : Text
  usage : LlmUsage

structure ToolResultBlock where
  toolUseId : Text
  isError : Bool
  content : Option Text

inductive Message
  | given (m : LlmMessage)
  | assistant (content : List ContentBlock)
  | user (results : List ToolResultBlock)

structure LlmRequest where
  model : Text
  maxTokens : ℕ
  betas : List Text
  fallbacks : Text
  thinking : Text
  effort : Effort
  system : List SystemBlock
  tools : List (Json JsonDouble)
  messages : List Message

def buildToolRequest (route : LlmRoute) (model : Text) (maxTokens : ℕ) (tools : List (Json JsonDouble))
    (messages : List Message) : LlmRequest where
  model
  maxTokens
  betas := [fallbackBeta]
  fallbacks := js "default"
  thinking := js "adaptive"
  effort := route.effort
  system := systemBlocks route
  tools
  messages

def newline : ℕ := 10

def textOf (response : LlmResponse) : Text :=
  trim (join newline (response.content.filterMap fun block =>
    match block with
    | .text t => some t
    | _ => none))

/-- `response.content.filter((block) => block.type === "tool_use")` -/
def LlmResponse.uses (response : LlmResponse) : List ToolUse :=
  response.content.filterMap fun block =>
    match block with
    | .toolUse use => some use
    | _ => none

/-! ## Executors -/

inductive Builtin
  | constructor | isPrototypeOf | toString
  /-- a method of `Object.prototype` that reads its `this` -/
  | onThis
  | proto

def thisMethods : List Text :=
  [js "__defineGetter__", js "__defineSetter__", js "hasOwnProperty", js "__lookupGetter__", js "__lookupSetter__",
   js "propertyIsEnumerable", js "valueOf", js "toLocaleString"]

def objectPrototype (name : Text) : Option Builtin :=
  if name = js "constructor" then some .constructor
  else if name = js "isPrototypeOf" then some .isPrototypeOf
  else if name = js "toString" then some .toString
  else if name ∈ thisMethods then some .onThis
  else if name = js "__proto__" then some .proto
  else none

/-- A property of `Object(input)`. -/
def propertyOf (input : Json JsonDouble) (name : Text) : Value :=
  match input with
  | .obj members => ((members.find? fun m => m.1 = name).map fun m => .json m.2).getD .undefined
  | _ => .undefined

/-- What it does when it is called on the input, without a `this`. -/
def Builtin.call : Builtin → Json JsonDouble → Except Thrown Resolved
  | constructor, input => .ok (.fields (propertyOf input (js "result")) (propertyOf input (js "note")))
  | isPrototypeOf, .obj _ | isPrototypeOf, .arr _ => .error typeError
  | isPrototypeOf, _ => .ok (.fields .undefined .undefined)
  | toString, _ => .ok (.fields .undefined .undefined)
  | onThis, _ | proto, _ => .error typeError

structure ToolLoopOptions where
  model : Text
  route : LlmRoute
  tools : List (Json JsonDouble)
  executors : List Text
  messages : List LlmMessage
  maxIterations : ℕ
  maxTokens : ℕ
  onResponse : Bool
  onToolCall : Bool

inductive Executor
  | registered
  | inherited (b : Builtin)

/-- `options.executors[name]` -/
def ToolLoopOptions.executor (options : ToolLoopOptions) (name : Text) : Option Executor :=
  if name ∈ options.executors then some .registered else (objectPrototype name).map .inherited

/-! ## What the loop asks for -/

inductive ToolOp
  | signal
  | create (request : LlmRequest)
  | onResponse (response : LlmResponse)
  | execute (use : ToolUse)
  | onToolCall (name : Text) (note : Value)

@[reducible] def ToolOp.Ret : ToolOp → Type
  | signal => Option Thrown
  | create _ => Except Thrown LlmResponse
  | onResponse _ => Except Thrown Unit
  | execute _ => Except Thrown Resolved
  | onToolCall .. => Except Thrown Unit

abbrev Async : Type → Type := Proc ToolOp.Ret

inductive Failure
  | maxIterations | refusal | maxTokens | noText | providerError

inductive ToolLoopOutcome
  | ok (text : Text) (toolCalls iterations : ℕ)
  | failed (failure : Failure) (toolCalls iterations : ℕ)

def ToolLoopOutcome.toolCalls : ToolLoopOutcome → ℕ
  | ok _ toolCalls _ => toolCalls
  | failed _ toolCalls _ => toolCalls

def ToolLoopOutcome.iterations : ToolLoopOutcome → ℕ
  | ok _ _ iterations => iterations
  | failed _ _ iterations => iterations

/-- `JSON.stringify({ error })` -/
def errorText (error : Text) : Text := Json.stringify (.obj [(js "error", .str error)] : Json JsonDouble)

def errorResult (use : ToolUse) (error : Text) : ToolResultBlock := ⟨use.id, true, some (errorText error)⟩

def Thrown.code : Thrown → Except Thrown Text
  | plain => .ok (js "failed")
  | coded code => .ok code
  | unreadable => .error typeError

section Loop

variable (options : ToolLoopOptions)

def callExecutor (executor : Executor) (use : ToolUse) : Async (Except Thrown Resolved) :=
  match executor with
  | .registered => Proc.ask (ToolOp.execute use)
  | .inherited b => pure (b.call use.input)

def noteCall (name : Text) (note : Value) : Async (Except Thrown Unit) :=
  if options.onToolCall then Proc.ask (ToolOp.onToolCall name note) else pure (.ok ())

/-- The `try` around an executor. -/
def tryExecutor (executor : Executor) (use : ToolUse) : Async (Except Thrown ToolResultBlock) := do
  match ← callExecutor executor use with
  | .error thrown => return .error thrown
  | .ok .nullish => return .error typeError
  | .ok (.fields result note) =>
    match ← noteCall options use.name note with
    | .error thrown => return .error thrown
    | .ok () => return result.stringify.map fun content => ⟨use.id, false, content⟩

def runUse (use : ToolUse) : Async (Except Thrown ToolResultBlock) :=
  match options.executor use.name with
  | none => return .ok (errorResult use (js "unknown_tool"))
  | some executor => do
    match ← tryExecutor options executor use with
    | .ok result => return .ok result
    | .error thrown =>
      let reason : Option Thrown ← Proc.ask ToolOp.signal
      if reason.isSome then return .error thrown else return thrown.code.map (errorResult use)

def runUses : List ToolUse → Async (Except Thrown (List ToolResultBlock))
  | [] => return .ok []
  | use :: uses => do
    match ← runUse options use with
    | .error thrown => return .error thrown
    | .ok result => return (← runUses uses).map fun results => result :: results

def reportResponse (response : LlmResponse) : Async (Except Thrown Unit) :=
  if options.onResponse then Proc.ask (ToolOp.onResponse response) else pure (.ok ())

inductive Next
  | again (messages : List Message) (toolCalls : ℕ)
  | done (outcome : ToolLoopOutcome)

def onStop (messages : List Message) (toolCalls iteration : ℕ) (response : LlmResponse) : Async (Except Thrown Next) :=
  match response.stopReason with
  | .refusal => return .ok (.done (.failed .refusal toolCalls iteration))
  | .maxTokens => return .ok (.done (.failed .maxTokens toolCalls iteration))
  | .toolUse => do
    let results ← runUses options response.uses
    return results.map fun results =>
      .again (messages ++ [.assistant response.content, .user results]) (toolCalls + response.uses.length)
  | .other =>
    let text := textOf response
    return .ok (.done (if text ≠ [] then .ok text toolCalls iteration else .failed .noText toolCalls iteration))

def round (messages : List Message) (toolCalls iteration : ℕ) : Async (Except Thrown Next) := do
  let reason : Option Thrown ← Proc.ask ToolOp.signal
  match reason with
  | some reason => return .error reason
  | none =>
    let request := buildToolRequest options.route options.model options.maxTokens options.tools messages
    let answer : Except Thrown LlmResponse ← Proc.ask (ToolOp.create request)
    match answer with
    | .error _ => return .ok (.done (.failed .providerError toolCalls iteration))
    | .ok response =>
      match ← reportResponse options response with
      | .error thrown => return .error thrown
      | .ok () => onStop options messages toolCalls iteration response

def loop (messages : List Message) (toolCalls : ℕ) : ℕ → Async (Except Thrown ToolLoopOutcome)
  | 0 => return .ok (.failed .maxIterations toolCalls options.maxIterations)
  | left + 1 => do
    match ← round options messages toolCalls (options.maxIterations - left) with
    | .error thrown => return .error thrown
    | .ok (.done outcome) => return .ok outcome
    | .ok (.again messages toolCalls) => loop messages toolCalls left

def runToolLoop : Async (Except Thrown ToolLoopOutcome) :=
  loop options (options.messages.map .given) 0 options.maxIterations

end Loop

end Albusforge.Llm.Tools
