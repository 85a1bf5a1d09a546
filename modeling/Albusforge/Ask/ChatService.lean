import Albusforge.Ask.Converse

/-!
# Device chats side by side

The database, the provider and the variables of every call, and what they may do when a call asks. What is charged
is read off the record of the world.
-/

namespace Albusforge.Ask.Chat

open Lib
open Llm.Tools (LlmResponse LlmCallRecord ToolOp)

/-! ## The world -/

inductive Write
  | insert (row : ChatRow)
  | attempt (q : DeviceConverseRequest)
  | finish (q : DeviceConverseRequest) (outcome : Outcome) (usage : ChatUsage)

inductive Tx
  | none
  | active (writes : List Write)
  /-- The call is told that its `COMMIT` has failed, and it has yet to be carried out or given up. -/
  | sent (writes : List Write)

inductive Insert
  | unsettled | stored | failed

structure Memory where
  usage : ChatUsage
  pending : List (LlmCallRecord × Insert)

inductive Entry
  | admitted (call : ℕ)
  | called (call : ℕ) (answer : Option LlmResponse)
  /-- A record is in `builds.llm_calls`. -/
  | stored (call : ℕ) (record : LlmCallRecord)

structure Call where
  options : ConverseOptions
  q : DeviceConverseRequest

def Call.record (c : Call) (response : LlmResponse) : LlmCallRecord := c.options.record c.q response

structure World where
  now : ℤ
  rows : List ChatRow
  lock : Option ℕ
  tx : ℕ → Tx
  call : ℕ → Option Call
  memory : ℕ → Memory
  log : List Entry

def Write.row? : Write → Option ChatRow
  | insert row => some row
  | _ => none

def Write.requestId : Write → ℕ
  | insert row => row.requestId
  | attempt q => q.requestId
  | finish q _ _ => q.requestId

def Write.apply (rows : List ChatRow) : Write → List ChatRow
  | insert row => rows ++ [row]
  | attempt q => rows.map fun row => if row.isOf q then { row with modelAttempted := true } else row
  | finish q outcome usage => rows.map fun row => if row.isOf q then row.finished outcome usage else row

def Tx.writes : Tx → List Write
  | none => []
  | active writes | sent writes => writes

def day : ℤ := 86400000000

def recent (now : ℤ) (rows : List ChatRow) : List ChatRow := rows.filter fun row => now - day < row.createdAt

/-- `count(*)`, and with each `FILTER` -/
def countsOf (now : ℤ) (rows : List ChatRow) (tenantId actorId : ℕ) : Counts where
  global := (recent now rows).length
  tenant := (recent now rows).countP fun row => row.tenantId = tenantId
  actor := (recent now rows).countP fun row => row.actorId = actorId

namespace World

variable (w : World)

def setTx (i : ℕ) (tx : Tx) : World := { w with tx := Function.update w.tx i tx }

def setMemory (i : ℕ) (memory : Memory) : World := { w with memory := Function.update w.memory i memory }

def record (e : Entry) : World := { w with log := w.log ++ [e] }

def endTx (i : ℕ) : World := { w.setTx i .none with lock := if w.lock = some i then none else w.lock }

def commit (i : ℕ) (writes : List Write) : World :=
  { w.endTx i with
    rows := writes.foldl Write.apply w.rows
    log := w.log ++ (writes.filterMap Write.row?).map fun _ => .admitted i }

def seen (writes : List Write) : List ChatRow := writes.foldl Write.apply w.rows

def Unlocked (i requestId : ℕ) : Prop := ∀ j, j ≠ i → ∀ write ∈ (w.tx j).writes, write.requestId ≠ requestId

end World

/-! ## What a call may be answered -/

/-- A statement of the call `i` is carried out. -/
inductive Carried (i : ℕ) (w : World) : (statement : Statement) → statement.Result → World → Prop
  | begin : w.tx i = .none → Carried i w .begin () (w.setTx i (.active []))
  | lock {writes : List Write} : w.tx i = .active writes → w.lock = none ∨ w.lock = some i →
      Carried i w .lock () { w with lock := some i }
  | authorize {writes : List Write} (q : DeviceConverseRequest) : w.tx i = .active writes →
      Carried i w (.authorize q) () w
  | duplicate {writes : List Write} (requestId : ℕ) : w.tx i = .active writes →
      Carried i w (.duplicate requestId) ((w.seen writes).any fun row => row.requestId = requestId) w
  | counts {writes : List Write} (tenantId actorId : ℕ) : w.tx i = .active writes →
      Carried i w (.counts tenantId actorId) (countsOf w.now (w.seen writes) tenantId actorId) w
  | insert {writes : List Write} (q : DeviceConverseRequest) : w.tx i = .active writes →
      (∀ row ∈ w.seen writes, row.requestId ≠ q.requestId) → w.Unlocked i q.requestId →
      Carried i w (.insert q) () (w.setTx i (.active (writes ++ [.insert (.reserved q w.now)])))
  | attempt {writes : List Write} (q : DeviceConverseRequest) : w.tx i = .active writes → w.Unlocked i q.requestId →
      Carried i w (.attempt q) () (w.setTx i (.active (writes ++ [.attempt q])))
  | finish {writes : List Write} (q : DeviceConverseRequest) (outcome : Outcome) (usage : ChatUsage) :
      w.tx i = .active writes → w.Unlocked i q.requestId → usage.Fits →
      Carried i w (.finish q outcome usage) () (w.setTx i (.active (writes ++ [.finish q outcome usage])))
  | commit {writes : List Write} : w.tx i = .active writes → Carried i w .commit () (w.commit i writes)
  | rollback {writes : List Write} : w.tx i = .active writes → Carried i w .rollback () (w.endTx i)

def toolEntry (i : ℕ) : (op : ToolOp) → op.Ret → List Entry
  | .create _, answer => [.called i answer.toOption]
  | _, _ => []

/-- What the surroundings may answer to the call `i`. -/
inductive Serves (i : ℕ) (w : World) : (op : ChatOp) → op.Ret → World → Prop
  | carried {statement : Statement} {result : statement.Result} {w' : World} : Carried i w statement result w' →
      Serves i w (.db statement) (.ok result) w'
  | failed {statement : Statement} (error : Fail) : Serves i w (.db statement) (.error error) w
  | lost {statement : Statement} {result : statement.Result} {w' : World} (error : Fail) :
      Carried i w statement result w' → Serves i w (.db statement) (.error error) w'
  | sent {writes : List Write} (error : Fail) : w.tx i = .active writes →
      Serves i w (.db .commit) (.error error) (w.setTx i (.sent writes))
  | context (q : DeviceConverseRequest) (r : Except Fail Context) : Serves i w (.context q) r w
  | tool (op : ToolOp) (r : op.Ret) : Serves i w (.tool op) r { w with log := w.log ++ toolEntry i op r }
  | usage (change : ChatUsage → ChatUsage) :
      Serves i w (.usage change) (change (w.memory i).usage)
        (w.setMemory i { w.memory i with usage := change (w.memory i).usage })
  | write (line : Line) (r : Except Fail Unit) : Serves i w (.write line) r w
  | insert (record : LlmCallRecord) :
      Serves i w (.insert record) ()
        (w.setMemory i { w.memory i with pending := (w.memory i).pending ++ [(record, .unsettled)] })
  | settled : (∀ p ∈ (w.memory i).pending, p.2 ≠ .unsettled) → Serves i w .settled () w

inductive Idle (w : World) : World → Prop
  | tick (t : ℤ) : w.now ≤ t → Idle w { w with now := t }
  | aborts (i : ℕ) : Idle w (w.endTx i)
  /-- A `COMMIT` is carried out late. -/
  | commits {i : ℕ} {writes : List Write} : w.tx i = .sent writes → Idle w (w.commit i writes)
  | stores {i : ℕ} {before after : List (LlmCallRecord × Insert)} {record : LlmCallRecord} :
      (w.memory i).pending = before ++ (record, .unsettled) :: after →
      Idle w ((w.setMemory i { w.memory i with pending := before ++ (record, .stored) :: after }).record
        (.stored i record))
  | fails {i : ℕ} {before after : List (LlmCallRecord × Insert)} {record : LlmCallRecord} (done : Bool) :
      (w.memory i).pending = before ++ (record, .unsettled) :: after →
      Idle w
        { w.setMemory i
            ⟨{ (w.memory i).usage with usageKnown := false }, before ++ (record, .failed) :: after⟩ with
          log := w.log ++ if done then [.stored i record] else [] }

inductive Begins (limits : ChatLimits) (i : ℕ) : Async (Except Fail (Mode × Text)) → World → World → Prop
  | mk {c : Call} {w : World} : c.options.limits = limits → w.call i = none →
      Begins limits i (converse c.options c.q) w
        { w.setMemory i ⟨.zero, []⟩ with call := Function.update w.call i (some c) }

def service (limits : ChatLimits) : Threads.System ℕ ChatOp.Ret World (Except Fail (Mode × Text)) where
  init w := ∃ now, w = ⟨now, [], none, fun _ => .none, fun _ => none, fun _ => ⟨.zero, []⟩, []⟩
  begins := Begins limits
  env := Serves
  idle := Idle

/-! ## Honest books -/

def Entry.admitted? : Entry → Option ℕ
  | admitted i => some i
  | _ => none

/-- The calls of the provider for `i`, with what was answered. -/
def Entry.calledBy (i : ℕ) : Entry → Option (Option LlmResponse)
  | called j answer => if j = i then some answer else none
  | _ => none

def Entry.storedBy (i : ℕ) : Entry → Option LlmCallRecord
  | stored j record => if j = i then some record else none
  | _ => none

def admitted (log : List Entry) : List ℕ := log.filterMap Entry.admitted?

def calledBy (i : ℕ) (log : List Entry) : List (Option LlmResponse) := log.filterMap (Entry.calledBy i)

def storedBy (i : ℕ) (log : List Entry) : List LlmCallRecord := log.filterMap (Entry.storedBy i)

structure Within (limits : ChatLimits) (now : ℤ) (rows : List ChatRow) : Prop where
  global : (recent now rows).length ≤ limits.global
  tenant : ∀ tenantId, ((recent now rows).countP fun row => row.tenantId = tenantId) ≤ limits.tenant
  actor : ∀ actorId, ((recent now rows).countP fun row => row.actorId = actorId) ≤ limits.user

structure Sums (records : List LlmCallRecord) (row : ChatRow) : Prop where
  modelCalls : row.modelCalls = records.length
  inputTokens : row.inputTokens = some (records.map (·.inputTokens)).sum
  outputTokens : row.outputTokens = some (records.map (·.outputTokens)).sum
  cacheReadTokens : row.cacheReadTokens = some (records.map (·.cacheReadInputTokens)).sum
  cacheCreationTokens : row.cacheCreationTokens = some (records.map (·.cacheCreationInputTokens)).sum
  costUsd : row.costUsd = some (records.map (·.costUsd)).sum

end Albusforge.Ask.Chat
