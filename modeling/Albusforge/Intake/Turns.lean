import Albusforge.Lib.Machine
import Albusforge.Gateway.Stream

/-!
# Turns

`handler.ts`: `POST /v1/turns` answers the latest unanswered user message of a build. Any
number of calls run at once, on any number of instances, each on a connection of its own.
What keeps them apart is one advisory lock per build, which a session gets by asking and
loses by unlocking or by ending. A call that runs out of budget is given up wherever it
is: the statement it sent last may still be carried out, until its session ends.

The world is one build: its messages and specs, the lock, and the calls made so far. A
statement is one step, and so is a transaction that holds the build's row. What a step
shows is the message that was said, or the reply that was written and to what. Hash
collisions are there too: another build's call may hold the same lock.
-/

namespace Albusforge.Intake

open Albusforge.Lib Albusforge.Gateway

/-- What the handler reads from a spec's data. -/
class SpecData (δ : Type) where
  settled : δ → Bool
  openQuestions : δ → ℕ

structure SpecRow (δ : Type) where
  version : ℕ
  data : δ
  deriving DecidableEq

inductive Reason
  | outOfScope
  | offTopic
  | refusal
  | maxTokens
  | invalidOutput
  | tokenCeiling
  | deadline
  | providerError
  | error
  deriving DecidableEq

/-- `RETRYABLE_REASONS` -/
def Reason.retryable : Reason → Bool
  | .providerError => true
  | .error => true
  | _ => false

structure Decision (δ : Type) where
  spec : δ
  reply : Text
  status : BuildStatus
  newVersion : Bool
  deriving DecidableEq

inductive TurnOutcome (δ : Type)
  | spec (decision : Decision δ)
  | reply (reason : Reason) (reply : Text)
  deriving DecidableEq

/-- What `runTurn` is given of the build. -/
structure TurnInput (δ : Type) where
  transcript : List (Role × Text)
  previous : Option δ
  roundsUsed : ℕ
  deriving DecidableEq

def fallbackReply : Text :=
  js "Something went wrong on my end, so I couldn't get to that — nothing to do with what you wrote. Send it again in a moment and it should go through."

/-- What a turn may come to: `runTurn`'s outcome, the deadline's, or that of an error. -/
def MayEnd {δ : Type} (runTurn : TurnInput δ → TurnOutcome δ → Prop) (input : TurnInput δ)
    (outcome : TurnOutcome δ) : Prop :=
  runTurn input outcome ∨ outcome = .reply .deadline fallbackReply ∨
    outcome = .reply .error fallbackReply

structure Turn (δ : Type) where
  target : MessageRow
  input : TurnInput δ
  latestSpec : Option (SpecRow δ)
  outcome : TurnOutcome δ

inductive Sent (δ : Type)
  | lock
  | write (turn : Turn δ)
  | unlock

/-- Where a call is. `passes` counts the messages it has answered. -/
inductive Phase (δ : Type)
  | starting
  | locking (passes : ℕ)
  | reading (passes : ℕ)
  | readingSpecs (passes : ℕ) (target : MessageRow) (transcript : List (Role × Text))
  | readingRounds (passes : ℕ) (target : MessageRow) (transcript : List (Role × Text))
      (latestSpec : Option (SpecRow δ))
  | turning (passes : ℕ) (target : MessageRow) (input : TurnInput δ)
      (latestSpec : Option (SpecRow δ))
  | writing (passes : ℕ) (turn : Turn δ)
  | unlocking (passes : ℕ) (retry : Bool)
  | checking (passes : ℕ)
  /-- Over: the answer is a noop when nothing was answered, and an error when `failed`. -/
  | returned (passes : ℕ) (failed : Bool)
  | dying (sent : Option (Sent δ))

structure Call (δ : Type) where
  mayRetry : Bool
  phase : Phase δ

inductive Holder
  | call (i : ℕ)
  | other
  deriving DecidableEq

structure World (δ : Type) where
  table : List MessageRow
  specs : List (SpecRow δ)
  status : BuildStatus
  holder : Option Holder
  calls : List (Call δ)

inductive Move (δ : Type)
  | begin
  | tryLock
  | read
  | readSpecs
  | readRounds
  | turned (outcome : TurnOutcome δ)
  /-- The final write commits, with a new id; `spent` when the budget has no turn left. -/
  | write (id : Uuid) (spent : Bool)
  | unlock
  | check
  /-- The call is given up; `sent` when its statement is on the wire. -/
  | giveUp (sent : Bool)
  | lands (id : Uuid)
  | ends

inductive Action (δ : Type)
  /-- `createBuild`: the build with its first message. -/
  | create (id : Uuid) (askText : Text) (clientMessageId : Option Text) (now : ℕ)
  | submit (s : Submission)
  | start (mayRetry : Bool)
  | move (i : ℕ) (m : Move δ)
  | otherLocks
  | otherUnlocks

structure Answer where
  target : MessageRow
  reply : MessageRow

inductive Shown
  | nothing
  | said (m : MessageRow)
  | answered (a : Answer)

abbrev maxPasses : ℕ := 3

section

variable {δ : Type} [SpecData δ]

def World.put (w : World δ) (i : ℕ) (c : Call δ) : World δ := { w with calls := w.calls.set i c }

def Turn.newSpec (t : Turn δ) : Option (SpecRow δ) :=
  match t.outcome with
  | .spec d =>
      if d.newVersion then some ⟨(t.latestSpec.map SpecRow.version).getD 0 + 1, d.spec⟩ else none
  | .reply _ _ => none

def Turn.text (t : Turn δ) : Text :=
  match t.outcome with
  | .spec d => d.reply
  | .reply _ reply => reply

def Turn.status (t : Turn δ) : BuildStatus :=
  match t.outcome with
  | .spec d => d.status
  | .reply _ _ =>
      if (t.latestSpec.map fun s => SpecData.settled s.data).getD false then .planning else .asking

def Turn.reply (t : Turn δ) (id : Uuid) (table : List MessageRow) : Option MessageRow :=
  (table.find? fun m => m.id == t.target.id).map fun m =>
    { id := id, role := .assistant, text := t.text, clientMessageId := none,
      createdAt := m.createdAt + 1 }

def World.write (w : World δ) (t : Turn δ) (id : Uuid) : Option (World δ × Answer) :=
  match t.reply id w.table with
  | none => none
  | some reply =>
      if w.table.any fun m => m.id == id then none
      else match t.newSpec with
        | none =>
            some ({ w with table := w.table ++ [reply], status := t.status }, ⟨t.target, reply⟩)
        | some spec =>
            if w.specs.any fun s => s.version == spec.version then none
            else some ({ w with table := w.table ++ [reply], specs := w.specs ++ [spec],
                                status := t.status }, ⟨t.target, reply⟩)

/-- `ORDER BY version DESC LIMIT 1` -/
def latestSpecOf (specs : List (SpecRow δ)) : Option (SpecRow δ) :=
  specs.foldl (fun best s =>
    match best with
    | none => some s
    | some b => if b.version < s.version then some s else some b) none

def roundsUsed (specs : List (SpecRow δ)) : ℕ :=
  (specs.filter fun s => 0 < SpecData.openQuestions s.data).length

/-- Whether the latest message is the user's: `answerLatest`'s target. -/
def unanswered (table : List MessageRow) : Option MessageRow :=
  (lastMessageOf table).filter fun m => m.role == .user

def Phase.sent : Phase δ → Option (Sent δ)
  | .locking _ => some .lock
  | .writing _ t => some (.write t)
  | .unlocking _ _ => some .unlock
  | _ => none

def Phase.running : Phase δ → Bool
  | .returned _ _ => false
  | .dying _ => false
  | _ => true

def World.grants (w : World δ) (i : ℕ) : Bool := w.holder == none || w.holder == some (.call i)

/-- The lock once session `i` has let go of it. -/
def World.released (w : World δ) (i : ℕ) : World δ :=
  { w with holder := if w.holder = some (.call i) then none else w.holder }

/-- One step of call `i`. -/
def World.move (w : World δ) (i : ℕ) (c : Call δ) (m : Move δ) : Option (World δ × Shown) :=
  let goto (w : World δ) (p : Phase δ) : Option (World δ × Shown) :=
    some (w.put i { c with phase := p }, .nothing)
  match c.phase, m with
  | .starting, .begin =>
      -- a build is there with its first message
      if w.table.isEmpty then goto w (.returned 0 false) else goto w (.locking 0)
  | .locking passes, .tryLock =>
      if w.grants i then goto { w with holder := some (.call i) } (.reading passes)
      -- whoever holds it answers
      else goto w (.returned passes false)
  | .reading passes, .read =>
      match unanswered w.table with
      | none => goto w (.unlocking passes false)
      | some target =>
          goto w (.readingSpecs passes target ((listMessages w.table).map fun m => (m.role, m.text)))
  | .readingSpecs passes target transcript, .readSpecs =>
      goto w (.readingRounds passes target transcript (latestSpecOf w.specs))
  | .readingRounds passes target transcript latest, .readRounds =>
      goto { w with status := .specifying }
        (.turning passes target ⟨transcript, latest.map SpecRow.data, roundsUsed w.specs⟩ latest)
  | .turning passes target input latest, .turned outcome =>
      match outcome with
      | .reply reason _ =>
          if c.mayRetry && reason.retryable then goto w (.unlocking passes true)
          else goto w (.writing passes ⟨target, input, latest, outcome⟩)
      | .spec _ => goto w (.writing passes ⟨target, input, latest, outcome⟩)
  | .writing passes turn, .write id spent =>
      match w.write turn id with
      | none => goto w (.dying none)
      | some (w', answer) =>
          -- another pass while there are passes and budget left
          let next : Phase δ :=
            if passes + 1 < maxPasses ∧ spent = false then .reading (passes + 1)
            else .unlocking (passes + 1) false
          some (w'.put i { c with phase := next }, .answered answer)
  | .unlocking passes retry, .unlock =>
      goto (w.released i) (if retry then .returned passes true else .checking passes)
  | .checking passes, .check =>
      if (unanswered w.table).isSome && passes < maxPasses then goto w (.locking passes)
      else goto w (.returned passes false)
  | .dying (some .lock), .lands _ =>
      if w.grants i then goto { w with holder := some (.call i) } (.dying none) else goto w (.dying none)
  | .dying (some .unlock), .lands _ => goto (w.released i) (.dying none)
  | .dying (some (.write turn)), .lands id =>
      match w.write turn id with
      | none => goto w (.dying none)
      | some (w', answer) => some (w'.put i { c with phase := .dying none }, .answered answer)
  | .dying _, .ends => goto (w.released i) (.returned 0 true)
  | p, .giveUp sent =>
      if p.running then goto w (.dying (if sent then p.sent else none)) else none
  | _, _ => none

def World.say (w : World δ) (m : MessageRow) : World δ × Shown :=
  ({ w with table := w.table ++ [m] }, .said m)

def World.next (w : World δ) : Action δ → Option (World δ × Shown)
  | .create id askText clientMessageId now =>
      if w.table.isEmpty then
        some (w.say { id := id, role := .user, text := askText, clientMessageId := clientMessageId,
                      createdAt := now })
      else none
  | .submit s =>
      if w.table.isEmpty then none
      else match submitUserMessage turnInProgressS s w.table with
        | .created m => some (w.say m)
        | _ => some (w, .nothing)
  | .start mayRetry => some ({ w with calls := w.calls ++ [⟨mayRetry, .starting⟩] }, .nothing)
  | .move i m => w.calls[i]?.bind fun c => w.move i c m
  | .otherLocks => if w.holder = none then some ({ w with holder := some .other }, .nothing) else none
  | .otherUnlocks =>
      if w.holder = some .other then some ({ w with holder := none }, .nothing) else none

def World.run (w : World δ) : List (Action δ) → Option (World δ × List (Action δ × Shown))
  | [] => some (w, [])
  | a :: as =>
      match w.next a with
      | none => none
      | some (w', shown) => (w'.run as).map fun r => (r.1, (a, shown) :: r.2)

end

/-! ## What a step does -/

section

variable {δ : Type} [SpecData δ]

/-- The moves of a call that write no answer: from which phase to which, and who holds the lock
afterwards. -/
inductive Path (w : World δ) (i : ℕ) (mayRetry : Bool) :
    Phase δ → Move δ → Phase δ → Option Holder → Prop
  | begin : Path w i mayRetry .starting .begin (.locking 0) w.holder
  | absent : w.table = [] → Path w i mayRetry .starting .begin (.returned 0 false) w.holder
  | locked {n : ℕ} : w.grants i = true →
      Path w i mayRetry (.locking n) .tryLock (.reading n) (some (.call i))
  | refused {n : ℕ} : w.grants i = false →
      Path w i mayRetry (.locking n) .tryLock (.returned n false) w.holder
  | nothing {n : ℕ} : unanswered w.table = none →
      Path w i mayRetry (.reading n) .read (.unlocking n false) w.holder
  | found {n : ℕ} {t : MessageRow} {tr : List (Role × Text)} : unanswered w.table = some t →
      Path w i mayRetry (.reading n) .read (.readingSpecs n t tr) w.holder
  | readSpecs {n : ℕ} {t : MessageRow} {tr : List (Role × Text)} :
      Path w i mayRetry (.readingSpecs n t tr) .readSpecs
        (.readingRounds n t tr (latestSpecOf w.specs)) w.holder
  | readRounds {n : ℕ} {t : MessageRow} {tr : List (Role × Text)} {latest : Option (SpecRow δ)} :
      Path w i mayRetry (.readingRounds n t tr latest) .readRounds
        (.turning n t ⟨tr, latest.map SpecRow.data, roundsUsed w.specs⟩ latest) w.holder
  | retry {n : ℕ} {t : MessageRow} {input : TurnInput δ} {latest : Option (SpecRow δ)}
      {o : TurnOutcome δ} : mayRetry = true →
      Path w i mayRetry (.turning n t input latest) (.turned o) (.unlocking n true) w.holder
  | turned {n : ℕ} {t : MessageRow} {input : TurnInput δ} {latest : Option (SpecRow δ)}
      {o : TurnOutcome δ} :
      Path w i mayRetry (.turning n t input latest) (.turned o) (.writing n ⟨t, input, latest, o⟩)
        w.holder
  | failed {n : ℕ} {turn : Turn δ} {id : Uuid} {spent : Bool} : w.write turn id = none →
      Path w i mayRetry (.writing n turn) (.write id spent) (.dying none) w.holder
  | unlocked {n : ℕ} {retry : Bool} :
      Path w i mayRetry (.unlocking n retry) .unlock
        (if retry then .returned n true else .checking n) (w.released i).holder
  | again {n : ℕ} : (unanswered w.table).isSome = true → n < maxPasses →
      Path w i mayRetry (.checking n) .check (.locking n) w.holder
  | enough {n : ℕ} : (unanswered w.table).isSome = false ∨ maxPasses ≤ n →
      Path w i mayRetry (.checking n) .check (.returned n false) w.holder
  | lockLands {id : Uuid} : w.grants i = true →
      Path w i mayRetry (.dying (some .lock)) (.lands id) (.dying none) (some (.call i))
  | lockRefused {id : Uuid} : w.grants i = false →
      Path w i mayRetry (.dying (some .lock)) (.lands id) (.dying none) w.holder
  | unlockLands {id : Uuid} :
      Path w i mayRetry (.dying (some .unlock)) (.lands id) (.dying none) (w.released i).holder
  | writeFails {id : Uuid} {turn : Turn δ} : w.write turn id = none →
      Path w i mayRetry (.dying (some (.write turn))) (.lands id) (.dying none) w.holder
  | ends {sent : Option (Sent δ)} :
      Path w i mayRetry (.dying sent) .ends (.returned 0 true) (w.released i).holder
  | givenUp {p : Phase δ} {sent : Bool} : p.running = true →
      Path w i mayRetry p (.giveUp sent) (.dying (if sent then p.sent else none)) w.holder

inductive Writing : Phase δ → Move δ → Turn δ → Uuid → Phase δ → Prop
  | live {n : ℕ} {turn : Turn δ} {id : Uuid} {spent : Bool} :
      Writing (.writing n turn) (.write id spent) turn id
        (if n + 1 < maxPasses ∧ spent = false then .reading (n + 1) else .unlocking (n + 1) false)
  | abandoned {turn : Turn δ} {id : Uuid} :
      Writing (.dying (some (.write turn))) (.lands id) turn id (.dying none)

/-- What one move of call `i` can do. -/
inductive Moved (w : World δ) (i : ℕ) (c : Call δ) (m : Move δ) : World δ → Shown → Prop
  | quiet {p : Phase δ} {holder : Option Holder} {status : BuildStatus} :
      Path w i c.mayRetry c.phase m p holder →
      Moved w i c m { w with status := status, holder := holder,
                             calls := w.calls.set i { c with phase := p } } .nothing
  | wrote {turn : Turn δ} {id : Uuid} {p : Phase δ} {w' : World δ} {a : Answer} :
      Writing c.phase m turn id p → w.write turn id = some (w', a) →
      Moved w i c m (w'.put i { c with phase := p }) (.answered a)

/-- **Every move is one of these.** -/
theorem move_moved {w w' : World δ} {i : ℕ} {c : Call δ} {m : Move δ} {a : Shown}
    (h : w.move i c m = some (w', a)) : Moved w i c m w' a := by
  have key : ∀ {p : Phase δ} {holder : Option Holder} {status : BuildStatus},
      some (({ w with status := status, holder := holder,
                      calls := w.calls.set i { c with phase := p } } : World δ),
        Shown.nothing) = some (w', a) →
      Path w i c.mayRetry c.phase m p holder → Moved w i c m w' a := by
    intro p holder status heq hpath
    obtain ⟨rfl, rfl⟩ := Prod.mk.inj (Option.some.inj heq)
    exact .quiet hpath
  obtain ⟨mayRetry, phase⟩ := c
  unfold World.move at h
  dsimp only at h
  split at h
  · split at h
    · rename_i hempty
      exact key h (.absent (List.isEmpty_iff.mp hempty))
    · exact key h .begin
  · split at h
    · rename_i hg
      exact key h (.locked hg)
    · rename_i hg
      exact key h (.refused (by simpa using hg))
  · split at h
    · rename_i hu
      exact key h (.nothing hu)
    · rename_i hu
      exact key h (.found hu)
  · exact key h .readSpecs
  · exact key h .readRounds
  · split at h
    · split at h
      · rename_i hretry
        exact key h (.retry (by simp_all))
      · exact key h .turned
    · exact key h .turned
  · split at h
    · rename_i hw
      exact key h (.failed hw)
    · rename_i hw
      obtain ⟨rfl, rfl⟩ := Prod.mk.inj (Option.some.inj h)
      exact .wrote .live hw
  · exact key h .unlocked
  · split at h
    · rename_i hcond
      simp only [Bool.and_eq_true, decide_eq_true_eq] at hcond
      exact key h (.again hcond.1 hcond.2)
    · rename_i hcond
      refine key h (.enough ?_)
      by_cases hu : (unanswered w.table).isSome = true
      · right
        simpa [hu] using hcond
      · left
        simpa using hu
  · split at h
    · rename_i hg
      exact key h (.lockLands hg)
    · rename_i hg
      exact key h (.lockRefused (by simpa using hg))
  · exact key h .unlockLands
  · split at h
    · rename_i hw
      exact key h (.writeFails hw)
    · rename_i hw
      obtain ⟨rfl, rfl⟩ := Prod.mk.inj (Option.some.inj h)
      exact .wrote .abandoned hw
  · exact key h .ends
  · split at h
    · rename_i hr
      exact key h (.givenUp hr)
    · exact absurd h (by simp)
  · exact absurd h (by simp)

end

def Action.Allowed {δ : Type} (runTurn : TurnInput δ → TurnOutcome δ → Prop) (w : World δ) :
    Action δ → Prop
  | .move i (.turned outcome) => ∀ mayRetry passes target input latest,
      w.calls[i]? = some ⟨mayRetry, .turning passes target input latest⟩ → MayEnd runTurn input outcome
  | _ => True

/--
A build from its creation on. `runTurn` is what a turn may come to, given the transcript, the
spec before it and the rounds used.
-/
def turns {δ : Type} [SpecData δ] (runTurn : TurnInput δ → TurnOutcome δ → Prop) :
    Machine (World δ) (Action δ × Shown) where
  init w := w.table = [] ∧ w.specs = [] ∧ w.calls = [] ∧ ∀ i, w.holder ≠ some (.call i)
  step w e w' := w.next e.1 = some (w', e.2) ∧ e.1.Allowed runTurn w

def Shown.answer : Shown → Option Answer
  | .answered a => some a
  | _ => none

def Shown.rows : Shown → List MessageRow
  | .nothing => []
  | .said m => [m]
  | .answered a => [a.reply]

def answers {δ : Type} (es : List (Action δ × Shown)) : List Answer :=
  es.filterMap fun e => e.2.answer

def World.ending {δ : Type} (w : World δ) : Action δ → List (TurnInput δ × TurnOutcome δ)
  | .move i (.turned outcome) =>
      match w.calls[i]? with
      | some ⟨_, .turning _ _ input _⟩ => [(input, outcome)]
      | _ => []
  | _ => []

def World.endings {δ : Type} [SpecData δ] (w : World δ) :
    List (Action δ) → List (TurnInput δ × TurnOutcome δ)
  | [] => []
  | a :: as =>
      w.ending a ++
        match w.next a with
        | none => []
        | some (w', _) => w'.endings as

theorem allowed_of_ending {δ : Type} {runTurn : TurnInput δ → TurnOutcome δ → Prop} {w : World δ}
    {a : Action δ} (h : ∀ p ∈ w.ending a, runTurn p.1 p.2) : a.Allowed runTurn w := by
  unfold Action.Allowed
  split
  · intro mayRetry passes target input latest hc
    rw [World.ending, hc] at h
    exact Or.inl (h (input, _) (by simp))
  · trivial

theorem World.run_steps {δ : Type} [SpecData δ] {runTurn : TurnInput δ → TurnOutcome δ → Prop}
    {as : List (Action δ)} {w w' : World δ} {es : List (Action δ × Shown)}
    (hends : ∀ p ∈ w.endings as, runTurn p.1 p.2) (h : w.run as = some (w', es)) :
    (turns runTurn).Steps w es w' := by
  induction as generalizing w es with
  | nil =>
      obtain ⟨rfl, rfl⟩ := Prod.mk.inj (Option.some.inj h)
      exact .refl w
  | cons a as ih =>
      rw [World.run] at h
      split at h
      · exact absurd h (by simp)
      · rename_i w₁ shown hnext
        obtain ⟨r, hr, heq⟩ := Option.map_eq_some_iff.mp h
        obtain ⟨rfl, rfl⟩ := Prod.mk.inj heq
        rw [World.endings, hnext] at hends
        exact .step ⟨hnext, allowed_of_ending fun p hp => hends p (List.mem_append_left _ hp)⟩
          (ih (fun p hp => hends p (List.mem_append_right _ hp)) hr)

end Albusforge.Intake
