import Mathlib
import Albusforge.Lib.Entries
import Albusforge.Lib.Machine
import Albusforge.Web.Trace

/-!
# One entry for each failure

`createRequestErrorLogger` of `apps/web/src/lib/request-errors.ts`. A failure is told of twice, with and without
its request, and the two find each other by a digest that other failures share. Whichever comes first leaves a
timer, and the other clears it.

Calls are counted, and a timer goes by the number of the call that has set it. Values are taken to have a text
each, as they have unless they forbid it, and `format` of the host is a parameter.
-/

namespace Albusforge.Web.Errors

open Lib

/-! ## Values -/

/-- What is found under `digest`. -/
inductive DigestValue
  | string (t : Text)
  | number (t : Text)
  | other

structure ErrorObject where
  identity : ℕ
  digest : Option DigestValue
  /-- the name and the message of an instance of `Error` -/
  error : Option (Text × Text)
  /-- `String(value)` -/
  text : Text

inductive Value
  | undefined
  | object (o : ErrorObject)
  | string (t : Text)
  | other (text : Text)

inductive Severity
  | debug | info | warning | error | critical

structure Request where
  path : Text
  method : Text
  headers : Headers

structure LogEntry where
  severity : Severity
  message : Text
  error : Option Value
  trace : Option TraceContext
  digest : Option Text
  request : Option (Text × Text)
  next : Option (List (Text × Text))

def digestOf (value : Option Value) : Option Text :=
  match value with
  | some (.object o) =>
    match o.digest with
    | some (.string t) => some t
    | some (.number t) => some t
    | _ => none
  | _ => none

def truthy (t : Option Text) : Option Text := t.filter (· ≠ [])

/-! ## Messages -/

/-- How much of a text `ANSI` matches at its start. -/
def ansiLength (t : Text) : ℕ :=
  match t with
  | 27 :: 91 :: rest =>
    let params := rest.takeWhile fun u => isDigit u || u = 59
    if (rest.drop params.length).head? = some 109 then params.length + 3 else 0
  | _ => 0

/-- `.replace(ANSI, "")`, where so many units are still to be dropped. -/
def withoutAnsi : ℕ → Text → Text
  | _, [] => []
  | n + 1, _ :: rest => withoutAnsi n rest
  | 0, u :: rest =>
    match ansiLength (u :: rest) with
    | 0 => u :: withoutAnsi 0 rest
    | n + 1 => withoutAnsi n rest

/-- `arg === error` -/
def isSame (error : Option ErrorObject) (arg : Value) : Bool :=
  match arg, error with
  | .object o, some e => e.identity = o.identity
  | .undefined, none => true
  | _, _ => false

def consoleMessage (format : List Value → Text) (args : List Value) (error : Option ErrorObject) : Text :=
  let rest := (args.filter fun arg => !isSame error arg).map fun arg =>
    match arg with
    | .string t => .string (trim (withoutAnsi 0 t))
    | arg => arg
  let rest := rest.filter fun arg =>
    match arg with
    | .string t => t ≠ [] && t ≠ js "⨯"
    | _ => true
  let text := if rest = [] then [] else format rest
  let named := (error.bind ErrorObject.error).elim [] fun e => e.1 ++ js ": " ++ e.2
  let message := join 32 ([text, named].filter (· ≠ []))
  if message = [] then js "(empty console call)" else message

/-! ## The logger -/

inductive Callback
  /-- `release(digest, "credits", credit)` -/
  | credit
  /-- `release(digest, "held", held)`, and the copy is logged. -/
  | held (severity : Severity) (args : List Value)

structure Timer where
  id : ℕ
  digest : Text
  callback : Callback

structure DigestState where
  held : List ℕ
  credits : List ℕ

def DigestState.size (s : DigestState) : ℕ := s.held.length + s.credits.length

def DigestState.none : DigestState := ⟨[], []⟩

structure Settings where
  maxPerDigest : ℕ
  maxTotal : ℕ
  format : List Value → Text

structure Logger where
  states : Entries Text DigestState
  total : ℤ
  reported : ℕ → Option (List Text)
  timers : List Timer
  calls : ℕ

def Logger.initial : Logger := ⟨[], 0, fun _ => none, [], 0⟩

inductive Effect
  | log (entry : LogEntry)
  | setTimeout (timer : ℕ)
  | clearTimeout (timer : ℕ)

def maxRequestsPerError : ℕ := 1000

inductive ListName
  | held | credits
  deriving DecidableEq

def DigestState.list (s : DigestState) : ListName → List ℕ
  | .held => s.held
  | .credits => s.credits

/-- `list.push(timer)` -/
def DigestState.push (s : DigestState) (list : ListName) (timer : ℕ) : DigestState :=
  match list with
  | .held => { s with held := s.held ++ [timer] }
  | .credits => { s with credits := s.credits ++ [timer] }

/-- `state[list].splice(index, 1)` -/
def DigestState.splice (s : DigestState) (list : ListName) (timer : ℕ) : DigestState :=
  match list with
  | .held => { s with held := s.held.erase timer }
  | .credits => { s with credits := s.credits.erase timer }

def DigestState.isEmpty (s : DigestState) : Bool := s.held.isEmpty && s.credits.isEmpty

namespace Logger

def stateFor (l : Logger) (digest : Text) : Logger × DigestState :=
  match l.states.get digest with
  | some s => (l, s)
  | none => ({ l with states := l.states.set digest .none }, .none)

def release (l : Logger) (digest : Text) (list : ListName) (timer : ℕ) : Logger :=
  match l.states.get digest with
  | none => l
  | some s =>
    if timer ∈ s.list list then
      let s := s.splice list timer
      { l with
        states := if s.isEmpty then l.states.delete digest else l.states.set digest s
        total := l.total - 1 }
    else l

def hasRoom (settings : Settings) (l : Logger) (s : DigestState) : Bool :=
  l.total < settings.maxTotal && s.size < settings.maxPerDigest

def forget (l : Logger) (timer : ℕ) : Logger := { l with timers := l.timers.filter fun t => t.id ≠ timer }

/-- The entry that `stateFor` has made goes again, if nothing was put there. -/
def dropEmpty (l : Logger) (digest : Text) (s : DigestState) : Logger :=
  if s.isEmpty then { l with states := l.states.delete digest } else l

def wait (l : Logger) (digest : Text) (s : DigestState) (list : ListName) (callback : Callback) : Logger :=
  { l with
    states := l.states.set digest (s.push list l.calls)
    total := l.total + 1
    timers := l.timers ++ [⟨l.calls, digest, callback⟩] }

def remember (l : Logger) (error : Value) (key : Option Text) : Option Logger :=
  match error, key with
  | .object o, some key =>
    let seen := (l.reported o.identity).getD []
    if key ∈ seen then none
    else
      let seen := if maxRequestsPerError ≤ seen.length then [] else seen
      some { l with reported := Function.update l.reported o.identity (some (seen ++ [key])) }
  | _, _ => some l

end Logger

def requestEntry (error : Value) (request : Request) (context : List (Text × Text)) : LogEntry :=
  let pathname := ((split 63 request.path).head?).getD []
  let reason := match error with
    | .object o => (o.error.map Prod.snd).getD o.text
    | .undefined => js "undefined"
    | .string t => t
    | .other t => t
  { severity := .error
    message := request.method ++ js " " ++ pathname ++ js " failed: " ++ reason
    error := some error
    trace := traceFromHeaders request.headers
    digest := truthy (digestOf (some error))
    request := some (request.method, request.path)
    next := some context }

def reportRequestError (settings : Settings) (l : Logger) (error : Value) (request : Request)
    (context : List (Text × Text)) : Logger × List Effect :=
  match l.remember error (requestKey (traceFromHeaders request.headers)) with
  | none => (l, [])
  | some l =>
    let entry := Effect.log (requestEntry error request context)
    match truthy (digestOf (some error)) with
    | none => (l, [entry])
    | some digest =>
      let (l, state) := l.stateFor digest
      match state.held with
      | held :: _ => ((l.forget held).release digest .held held, [entry, .clearTimeout held])
      | [] =>
        if !l.hasRoom settings state then (l.dropEmpty digest state, [entry])
        else (l.wait digest state .credits .credit, [entry, .setTimeout l.calls])

/-- The first argument that is an instance of `Error`. -/
def errorOf (args : List Value) : Option ErrorObject :=
  args.findSome? fun arg =>
    match arg with
    | .object o => if o.error.isSome then some o else none
    | _ => none

def consoleDigest (args : List Value) : Option Text := truthy (digestOf ((errorOf args).map .object))

def consoleEntry (settings : Settings) (severity : Severity) (args : List Value) : LogEntry where
  severity
  message := consoleMessage settings.format args (errorOf args)
  error := (errorOf args).map .object
  trace := none
  digest := consoleDigest args
  request := none
  next := none

def routeConsoleCall (settings : Settings) (l : Logger) (severity : Severity) (args : List Value) :
    Logger × List Effect :=
  let emit := Effect.log (consoleEntry settings severity args)
  match consoleDigest args with
  | none => (l, [emit])
  | some digest =>
    let (l, state) := l.stateFor digest
    match state.credits with
    | credit :: _ => ((l.forget credit).release digest .credits credit, [.clearTimeout credit])
    | [] =>
      if !l.hasRoom settings state then (l.dropEmpty digest state, [emit])
      else (l.wait digest state .held (.held severity args), [.setTimeout l.calls])

def expire (settings : Settings) (l : Logger) (timer : Timer) : Logger × List Effect :=
  match timer.callback with
  | .credit => ((l.forget timer.id).release timer.digest .credits timer.id, [])
  | .held severity args =>
    ((l.forget timer.id).release timer.digest .held timer.id, [.log (consoleEntry settings severity args)])

/-! ## Runs -/

inductive Input
  | report (call : ℕ) (error : Value) (request : Request) (context : List (Text × Text))
  | console (call : ℕ) (severity : Severity) (args : List Value)
  | expire (timer : ℕ)

structure Event where
  input : Input
  effects : List Effect

inductive LogStep (settings : Settings) : Logger → Event → Logger → Prop
  | report {l l' : Logger} {error : Value} {request : Request} {context : List (Text × Text)} {effects : List Effect} :
      reportRequestError settings l error request context = (l', effects) →
      LogStep settings l ⟨.report l.calls error request context, effects⟩ { l' with calls := l.calls + 1 }
  | console {l l' : Logger} {severity : Severity} {args : List Value} {effects : List Effect} :
      routeConsoleCall settings l severity args = (l', effects) →
      LogStep settings l ⟨.console l.calls severity args, effects⟩ { l' with calls := l.calls + 1 }
  | expire {l l' : Logger} {timer : Timer} {effects : List Effect} : timer ∈ l.timers →
      expire settings l timer = (l', effects) → LogStep settings l ⟨.expire timer.id, effects⟩ l'

def errorLogger (settings : Settings) : Machine Logger Event where
  init l := l = .initial
  step := LogStep settings

def Logger.pendingCount (l : Logger) : ℤ := l.total

end Albusforge.Web.Errors
