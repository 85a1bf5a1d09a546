import Albusforge.Lib.Machine
import Albusforge.Gateway.Stream

/-!
# Creating builds and submitting messages

`createBuild` and `submitUserMessage` of `apps/gateway/src/chat-store.ts`, with the limits that
the routes of `build-routes.ts` admit by. Transactions run statement by statement, on any number
of instances: a statement sees what is committed when it runs, and what a transaction inserts is
seen when it commits. `createBuild` holds an advisory lock on the owner and the client message
id; `submitUserMessage` holds the lock of the build's row, which intake's replies take as well.
-/

namespace Albusforge.Chat

open Lib Gateway

/-! ## Limits -/

structure RateLimiter where
  limit : ℕ
  windowMs : ℤ
  hits : Text → Option (List ℤ)
  takes : ℕ

def RateLimiter.sweep (l : RateLimiter) (now : ℤ) : RateLimiter :=
  { l with hits := fun key => (l.hits key).filter fun times => !times.all (· ≤ now - l.windowMs) }

def RateLimiter.set (l : RateLimiter) (key : Text) (times : List ℤ) : RateLimiter :=
  { l with hits := fun k => if k = key then some times else l.hits k }

def RateLimiter.take (l : RateLimiter) (now : ℤ) (key : Text) : RateLimiter × ℤ :=
  let counted : RateLimiter := { l with takes := l.takes + 1 }
  let swept := if counted.takes % 1000 = 0 then counted.sweep now else counted
  let recent := ((swept.hits key).getD []).filter fun time => now - l.windowMs < time
  if l.limit ≤ recent.length then
    -- without any hit the sum is NaN, which is not positive
    (swept.set key recent, (recent.head?.map fun oldest => oldest + l.windowMs - now).getD 0)
  else (swept.set key (recent ++ [now]), 0)

structure Limits where
  builds : RateLimiter
  messages : RateLimiter
  anonOwners : RateLimiter

/-! ## Builds and who may read them -/

structure Owner where
  tenantId : Option Text
  anonHash : Option Text
  deriving DecidableEq

def ownerKey (owner : Owner) : Text :=
  match owner.tenantId with
  | some tenantId => js "tenant:" ++ tenantId
  | none => js "anon:" ++ owner.anonHash.getD []

/-- A row of `builds.builds`, with the messages of the build in the order in which they came. -/
structure Build where
  id : Uuid
  tenantId : Option Text
  anonOwnerHash : Option Text
  askText : Text
  status : BuildStatus
  createdAt : ℕ
  updatedAt : ℕ
  messages : List MessageRow
  deriving DecidableEq

def ownedBy (owner : Owner) (b : Build) : Bool :=
  (owner.tenantId.isSome && b.tenantId == owner.tenantId) ||
    (owner.anonHash.isSome && b.anonOwnerHash == owner.anonHash && b.tenantId.isNone)

/-- The owner of a new build, as the route resolves it: the session's tenant, or else a cookie. -/
inductive Creator
  | tenant (tenantId : Text)
  | anon (anonHash : Text)
  deriving DecidableEq

def Creator.owner : Creator → Owner
  | .tenant tenantId => ⟨some tenantId, none⟩
  | .anon anonHash => ⟨none, some anonHash⟩

/-! ## Calls -/

structure CreateBuild where
  owner : Creator
  askText : Text
  clientMessageId : Option Text
  deriving DecidableEq

structure SubmitMessage where
  buildId : Text
  owner : Owner
  text : Text
  clientMessageId : Text
  deriving DecidableEq

inductive Call
  | create (c : CreateBuild)
  | submit (c : SubmitMessage)
  deriving DecidableEq

inductive Answer
  | createdBuild (build : Build)
  | replayedBuild (build : Build)
  | createdMessage (message : MessageRow)
  | replayedMessage (message : MessageRow)
  | pending (pendingMessageId : Uuid)
  | notFound
  | rateLimited (what : Text) (retryAfterS : ℤ)
  | raised
  deriving DecidableEq

def rateLimited (retryMs : ℤ) (what : Text) : Answer := .rateLimited what (max 1 (-(-retryMs / 1000)))

/-- The create route's `admit`, at two readings of the clock. -/
def admitBuild (l : Limits) (now now' : ℤ) (isNewOwner : Bool) (limitKey : Text) :
    Limits × Option Answer :=
  let cap := if isNewOwner then l.anonOwners.take now (js "instance") else (l.anonOwners, 0)
  if 0 < cap.2 then ({ l with anonOwners := cap.1 }, some (rateLimited cap.2 (js "new builds")))
  else
    let build := l.builds.take now' limitKey
    ({ l with anonOwners := cap.1, builds := build.1 },
      if 0 < build.2 then some (rateLimited build.2 (js "new builds")) else none)

/-- The message route's `admit`. -/
def admitMessage (l : Limits) (now : ℤ) (limitKey : Text) : Limits × Option Answer :=
  let message := l.messages.take now limitKey
  ({ l with messages := message.1 },
    if 0 < message.2 then some (rateLimited message.2 (js "messages")) else none)

/-! ## Transactions -/

inductive Phase
  | locking
  | finding
  | looking
  | admitting (isNewOwner : Bool)
  | inserting
  | committingBuild (build : Build)
  | committingMessage (message : MessageRow)
  | ended
  deriving DecidableEq

structure Session where
  server : ℕ
  call : Call
  /-- `now()` -/
  startedAt : ℕ
  phase : Phase
  deriving DecidableEq

structure ChatWorld where
  builds : List Build
  limits : ℕ → Limits
  sessions : List Session

/-- What a statement is given: readings of the clocks, new ids, and which of equals comes first. -/
structure Given where
  /-- `clock_timestamp()` -/
  clock : ℕ
  /-- `Date.now()`, twice -/
  now : ℤ
  now' : ℤ
  /-- `gen_random_uuid()`, twice -/
  id : Uuid
  messageId : Uuid
  /-- The row that `ORDER BY created_at LIMIT 1` returns. -/
  chosen : Uuid

inductive Move
  | arrive (server : ℕ) (call : Call) (startedAt : ℕ)
  | statement (i : ℕ) (given : Given)
  | lose (i : ℕ)
  | reply (build : Uuid) (message : MessageRow) (status : BuildStatus) (now : ℕ)
  | restart (server : ℕ) (fresh : Limits)

inductive Event
  | nothing
  | took (s : Session)
  | answered (s : Session) (answer : Answer)
  | restarted

def uuidOfText (t : Text) : Option Uuid :=
  let lower := t.map fun u => if isUpper u then u + 32 else u
  if h : isUuidText lower = true then some ⟨lower, h⟩ else none

def CreateBuild.lockText (c : CreateBuild) (clientMessageId : Text) : Text :=
  js "create-build:" ++ ownerKey c.owner.owner ++ js ":" ++ clientMessageId

section

variable (hashtextextended : Text → ℤ) (pendingWithinS : ℕ)

def Session.advisory (s : Session) : Option ℤ :=
  match s.call, s.phase with
  | .create _, .locking => none
  | .create _, .ended => none
  | .create c, _ => c.clientMessageId.map fun id => hashtextextended (c.lockText id)
  | .submit _, _ => none

def Session.row (s : Session) : Option Uuid :=
  match s.call, s.phase with
  | .create _, _ => none
  | .submit _, .locking => none
  | .submit _, .ended => none
  | .submit c, _ => uuidOfText c.buildId

def ChatWorld.rowFree (w : ChatWorld) (id : Uuid) : Bool :=
  w.sessions.all fun s => s.row != some id

def ChatWorld.advisoryFree (w : ChatWorld) (key : ℤ) : Bool :=
  w.sessions.all fun s => s.advisory hashtextextended != some key

def ChatWorld.goto (w : ChatWorld) (i : ℕ) (s : Session) (phase : Phase) : ChatWorld :=
  { w with sessions := w.sessions.set i { s with phase } }

def ChatWorld.answer (w : ChatWorld) (i : ℕ) (s : Session) (answer : Answer) : ChatWorld × Event :=
  (w.goto i s .ended, .answered s answer)

def ChatWorld.owned (w : ChatWorld) (c : SubmitMessage) : Option Build :=
  w.builds.find? fun b => some b.id == uuidOfText c.buildId && ownedBy c.owner b

/-- The join of `findBuildByFirstMessage`. -/
def Build.asks (owner : Owner) (clientMessageId : Text) (b : Build) : Bool :=
  ownedBy owner b && b.messages.any fun m =>
    m.clientMessageId == some clientMessageId && m.role == .user && m.text == b.askText

/-- What `findBuildByFirstMessage` may return: the row it is given, if none is older. -/
def ChatWorld.oldest (w : ChatWorld) (owner : Owner) (clientMessageId : Text) (chosen : Uuid) :
    Option Build :=
  let candidates := w.builds.filter (Build.asks owner clientMessageId)
  candidates.find? fun b => b.id == chosen && candidates.all fun b' => b.createdAt ≤ b'.createdAt

def ChatWorld.hasMessage (w : ChatWorld) (id : Uuid) : Bool :=
  w.builds.any fun b => b.messages.any fun m => m.id == id

def CreateBuild.row (c : CreateBuild) (startedAt : ℕ) (id messageId : Uuid) : Build :=
  { id, tenantId := c.owner.owner.tenantId, anonOwnerHash := c.owner.owner.anonHash
    askText := c.askText, status := .asking, createdAt := startedAt, updatedAt := startedAt
    messages := [⟨messageId, .user, c.askText, c.clientMessageId, startedAt⟩] }

/-- `createBuild`, from statement to statement; `none` while it waits. -/
def ChatWorld.createBuild (w : ChatWorld) (i : ℕ) (s : Session) (c : CreateBuild) (x : Given) :
    Option (ChatWorld × Event) :=
  match s.phase with
  | .locking =>
      match c.clientMessageId with
      | none => some (w.goto i s .looking, .nothing)
      | some id =>
          if w.advisoryFree hashtextextended (hashtextextended (c.lockText id)) then
            some (w.goto i s .finding, .nothing)
          else none
  | .finding =>
      match c.clientMessageId with
      | none => none
      | some id =>
          if w.builds.any (Build.asks c.owner.owner id) then
            (w.oldest c.owner.owner id x.chosen).map fun b => w.answer i s (.replayedBuild b)
          else some (w.goto i s .looking, .nothing)
  | .looking =>
      match c.owner with
      | .tenant _ => some (w.goto i s (.admitting false), .nothing)
      | .anon hash =>
          some (w.goto i s (.admitting (!w.builds.any fun b => b.anonOwnerHash == some hash)), .nothing)
  | .admitting isNewOwner =>
      let (limits, refusal) :=
        admitBuild (w.limits s.server) x.now x.now' isNewOwner (ownerKey c.owner.owner)
      let w := { w with limits := Function.update w.limits s.server limits }
      match refusal with
      | some answer => some (w.answer i s answer)
      | none => some (w.goto i s .inserting, .took s)
  | .inserting =>
      some (w.goto i s (.committingBuild (c.row s.startedAt x.id x.messageId)), .nothing)
  | .committingBuild b =>
      -- the primary keys, also against rows that were inserted and not yet committed
      if w.builds.any (fun b' => b'.id == b.id) || b.messages.any (fun m => w.hasMessage m.id) then
        some (w.answer i s .raised)
      else
        let w := { w with builds := w.builds ++ [b] }
        some (w.answer i s (.createdBuild b))
  | .committingMessage _ => none
  | .ended => none

/-- A build after `m` was written to the build `id`. -/
def Build.say (id : Uuid) (m : MessageRow) (b : Build) : Build :=
  if b.id = id then { b with messages := b.messages ++ [m] } else b

def Build.reply (id : Uuid) (m : MessageRow) (status : BuildStatus) (now : ℕ) (b : Build) : Build :=
  if b.id = id then { b with messages := b.messages ++ [m], status, updatedAt := now } else b

/-- `submitUserMessage`, from statement to statement; `none` while it waits. -/
def ChatWorld.submitUserMessage (w : ChatWorld) (i : ℕ) (s : Session) (c : SubmitMessage) (x : Given) :
    Option (ChatWorld × Event) :=
  match w.owned c with
  | none =>
      match s.phase with
      | .locking => some (w.answer i s .notFound)
      | _ => none
  | some b =>
      match s.phase with
      | .locking => if w.rowFree b.id then some (w.goto i s .finding, .nothing) else none
      | .finding =>
          match b.messages.find? fun m => m.clientMessageId == some c.clientMessageId with
          | some m => some (w.answer i s (.replayedMessage m))
          | none => some (w.goto i s .looking, .nothing)
      | .looking =>
          match (lastMessageOf b.messages).filter fun m =>
              m.role == .user && m.recent s.startedAt pendingWithinS with
          | some m => some (w.answer i s (.pending m.id))
          | none => some (w.goto i s (.admitting false), .nothing)
      | .admitting _ =>
          let (limits, refusal) := admitMessage (w.limits s.server) x.now (ownerKey c.owner)
          let w := { w with limits := Function.update w.limits s.server limits }
          match refusal with
          | some answer => some (w.answer i s answer)
          | none => some (w.goto i s .inserting, .took s)
      | .inserting =>
          let m : MessageRow := ⟨x.id, .user, c.text, some c.clientMessageId,
            newCreatedAt x.clock b.messages⟩
          some (w.goto i s (.committingMessage m), .nothing)
      | .committingMessage m =>
          if w.hasMessage m.id then some (w.answer i s .raised)
          else
            let w := { w with builds := w.builds.map (Build.say b.id m) }
            some (w.answer i s (.createdMessage m))
      | .committingBuild _ => none
      | .ended => none

def ChatWorld.next (w : ChatWorld) : Move → Option (ChatWorld × Event)
  | .arrive server call startedAt =>
      some ({ w with sessions := w.sessions ++ [⟨server, call, startedAt, .locking⟩] }, .nothing)
  | .statement i x =>
      w.sessions[i]?.bind fun s =>
        match s.call with
        | .create c => w.createBuild hashtextextended i s c x
        | .submit c => w.submitUserMessage pendingWithinS i s c x
  | .lose i => w.sessions[i]?.map fun s => (w.goto i s .ended, .nothing)
  | .reply id m status now =>
      if w.rowFree id && m.role == .assistant && m.clientMessageId == none && !w.hasMessage m.id then
        some ({ w with builds := w.builds.map (Build.reply id m status now) }, .nothing)
      else none
  | .restart server fresh =>
      some ({ w with
        limits := Function.update w.limits server fresh
        sessions := w.sessions.map fun s => if s.server = server then { s with phase := .ended } else s },
        .restarted)

def chatStore : Machine ChatWorld Event where
  init w := w.builds = [] ∧ w.sessions = []
  step w e w' := ∃ m, w.next hashtextextended pendingWithinS m = some (w', e)

end

end Albusforge.Chat
