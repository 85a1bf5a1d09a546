import Albusforge.Lib.Machine

/-!
# A transaction that may be interrupted

`transaction` of `apps/ask/src/store.ts`. It waits for a lease of the pool, unless the signal aborts first, and then
for each of its statements; the abort, an error of the client and the outcomes come in any order and at any time,
also between an outcome and what follows on it. **A lease goes back once** (`leases_returned`), whichever of them
gives it back.

What is awaited is either still to settle or has settled, and what follows is a step of its own (`resume`). The
client's connection is told by what the pool and the events of the client do to it.
-/

namespace Albusforge.Ask.Leases

open Lib

/-! ## The helper -/

inductive Sql
  | begin | lock | work | commit | rollback
  deriving DecidableEq

inductive Conn
  /-- `client` is undefined. -/
  | none
  | held
  | pooled
  /-- `release(true)`, and no `end` yet -/
  | destroyed
  | ended
  deriving DecidableEq

inductive Query
  | pending | ok | failed
  deriving DecidableEq

inductive Stage (α : Type)
  /-- `Promise.race` -/
  | racing
  | beginning (q : Query)
  | locking (q : Query)
  /-- `work`, with its value unless it threw, once it is over -/
  | working (result : Option (Option α))
  | committing (value : α) (q : Query)
  | rollingBack (q : Query)
  | settled (value : Option α)

inductive Checkout
  /-- `pool.connect()` is yet to be called. -/
  | queued
  | pending
  | over
  deriving DecidableEq

structure Call (α : Type) where
  released : Bool
  broken : Bool
  expired : Bool
  /-- `signal.aborted` -/
  aborted : Bool
  /-- `abort` listens to the signal. -/
  listening : Bool
  checkout : Checkout
  race : Option Bool
  stage : Stage α
  conn : Conn
  /-- `onClientError` is installed. -/
  handler : Bool
  /-- `removeErrorHandler` waits for `end`. -/
  endHook : Bool

inductive Effect (α : Type)
  | send (sql : Sql)
  | release (destroy : Bool)
  | resolve (value : α)
  | reject
  | uncaught
  deriving DecidableEq

inductive Input (α : Type)
  | connects
  | lease
  | refused
  | abort
  | clientError
  | ends
  | settles (sql : Sql) (ok : Bool)
  | workSends
  | workSettles (result : Option α)
  | resumes

structure Event (α : Type) where
  input : Input α
  effects : List (Effect α)

variable {α : Type}

namespace Call

def settleRace (c : Call α) (won : Bool) : Call α := { c with race := c.race.or (some won) }

def release (c : Call α) (destroy : Bool) : Call α × List (Effect α) :=
  if c.conn = .none ∨ c.released then (c, [])
  else if destroy || c.broken then
    ({ c with released := true, endHook := true, conn := .destroyed }, [.release true])
  else ({ c with released := true, conn := .pooled, handler := false }, [.release false])

/-- `finally` -/
def finish (c : Call α) (value : Option α) : Call α × List (Effect α) :=
  let (c, effects) := { c with listening := false }.release false
  ({ c with stage := .settled value }, effects ++ [value.elim .reject .resolve])

/-- `catch` -/
def fail (c : Call α) : Call α × List (Effect α) :=
  if c.conn ≠ .none ∧ !c.released then ({ c with stage := .rollingBack .pending }, [.send .rollback])
  else c.finish none

def resume (read : Bool) (c : Call α) : Option (Call α × List (Effect α)) :=
  match c.stage with
  | .racing =>
    match c.race with
    | none => none
    | some false => some c.fail
    | some true =>
      if c.aborted then some c.fail
      else if c.released || c.broken then some c.fail
      else some ({ c with stage := .beginning .pending }, [.send .begin])
  | .beginning .ok =>
    if read then some ({ c with stage := .locking .pending }, [.send .lock]) else some ({ c with stage := .working none }, [])
  | .locking .ok => some ({ c with stage := .working none }, [])
  | .working (some none) => some c.fail
  | .working (some (some value)) =>
    if c.aborted then some c.fail
    else if c.broken then some c.fail
    else some ({ c with stage := .committing value .pending }, [.send .commit])
  | .committing value .ok => some (c.finish (some value))
  | .beginning .failed | .locking .failed | .committing _ .failed => some c.fail
  | .rollingBack .ok => some (c.finish none)
  | .rollingBack .failed =>
    let (c, effects) := c.release true
    let (c, effects') := c.finish none
    some (c, effects ++ effects')
  | .beginning .pending | .locking .pending | .working none | .committing _ .pending | .rollingBack .pending => none
  | .settled _ => none

/-- `.then((lease) => ...)` -/
def leased (c : Call α) : Call α × List (Effect α) :=
  let c := { c with checkout := .over, conn := .held, handler := true }
  if c.expired || c.aborted then
    let (c, effects) := c.release true
    (c.settleRace false, effects)
  else (c.settleRace true, [])

/-- The signal aborts: `abort`, if it listens. -/
def abort (c : Call α) : Call α × List (Effect α) :=
  let c := { c with aborted := true }
  if c.listening then
    let (c, effects) := { c with listening := false, expired := true }.release true
    (c.settleRace false, effects)
  else (c, [])

/-- `"error"` on the client -/
def clientError (c : Call α) : Call α × List (Effect α) :=
  if c.handler then { c with broken := true }.release true else (c, [.uncaught])

/-- `"end"` on the client -/
def ends (c : Call α) : Call α :=
  let c := { c with conn := .ended }
  if c.endHook then { c with endHook := false, handler := false } else c

def awaited (c : Call α) : Option (Sql × (Query → Stage α)) :=
  match c.stage with
  | .beginning .pending => some (.begin, .beginning)
  | .locking .pending => some (.lock, .locking)
  | .committing value .pending => some (.commit, .committing value)
  | .rollingBack .pending => some (.rollback, .rollingBack)
  | _ => none

/-- The call of `transaction`. With a signal that has aborted before it is over at once; the signal cannot abort
before `abort` listens to it. -/
def start (aborted : Bool) : Call α where
  released := false
  broken := false
  expired := false
  aborted
  listening := !aborted
  checkout := if aborted then .over else .queued
  race := none
  stage := if aborted then .settled none else .racing
  conn := .none
  handler := false
  endHook := false

end Call

def queryOf (ok : Bool) : Query := if ok then .ok else .failed

inductive Step (read : Bool) (c : Call α) : Event α → Call α → Prop
  | connects : c.checkout = .queued → Step read c ⟨.connects, []⟩ { c with checkout := .pending }
  | lease : c.checkout = .pending → Step read c ⟨.lease, c.leased.2⟩ c.leased.1
  | refused : c.checkout = .pending → Step read c ⟨.refused, []⟩ ({ c with checkout := .over }.settleRace false)
  | abort : c.aborted = false → Step read c ⟨.abort, c.abort.2⟩ c.abort.1
  | clientError : c.conn = .held ∨ c.conn = .destroyed → Step read c ⟨.clientError, c.clientError.2⟩ c.clientError.1
  | ends : c.conn = .destroyed → Step read c ⟨.ends, []⟩ c.ends
  | settles {sql : Sql} {next : Query → Stage α} {ok : Bool} : c.awaited = some (sql, next) →
      (ok = true → c.conn = .held) → Step read c ⟨.settles sql ok, []⟩ { c with stage := next (queryOf ok) }
  | workSends : c.stage = .working none → Step read c ⟨.workSends, [.send .work]⟩ c
  | workSettles (result : Option α) : c.stage = .working none →
      Step read c ⟨.workSettles result, []⟩ { c with stage := .working (some result) }
  | resumes {c' : Call α} {effects : List (Effect α)} : c.resume read = some (c', effects) →
      Step read c ⟨.resumes, effects⟩ c'

def transaction (α : Type) (read : Bool) : Machine (Call α) (Event α) where
  init c := ∃ aborted, c = .start aborted
  step := Step read

end Albusforge.Ask.Leases
