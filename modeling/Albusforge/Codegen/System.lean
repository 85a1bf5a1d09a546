import Albusforge.Codegen.Ledger

/-!
# Compile requests, retries and workers, statement by statement

The transactions of the gateway (`firmware-routes.ts`, and those of the chat and plan stores that touch specs
and plans), each of which locks the row of its build first, and the workers of `job.ts`. A worker run has two
connections: `pool`, where each of its statements is a transaction of its own, and a dedicated one, which holds
the advisory lock and publishes. It may stall between any two statements, go on without knowing that its
dedicated connection has ended, and give up while its `COMMIT` is on the way. A statement that would run on
that connection after its worker has given up leaves nothing, and is left out. Any transaction may fail at
any point. Which of several versions a worker claims is left open.
-/

namespace Albusforge.Codegen

open Lib Lib.ReadCommitted Sessions

inductive Tx
  | request (t : ℕ)
  | pool (t : ℕ)
  | dedicated (t : ℕ)
  deriving DecidableEq

/-! ## Where everything is -/

inductive Ask
  | compile (q : CompileRequest)
  | retry (buildId : Text) (version : ℕ)
  | draft (buildId : Text)

def Ask.build : Ask → Text
  | .compile q => q.buildId
  | .retry b _ => b
  | .draft b => b

inductive Request (κ μ : Type)
  | idle
  | finished
  | waiting (a : Ask)
  | entered (a : Ask)
  | planned (q : CompileRequest) (plan : Decoded κ)
  | duplicate (q : CompileRequest) (version : ℕ)
  | creating (q : CompileRequest) (version : ℕ) (job : Job)
  | inserted (q : CompileRequest) (version : ℕ) (r : Bundle μ)
  | found (buildId : Text) (version : ℕ) (r : Bundle μ)
  | cleared (buildId : Text) (version : ℕ) (r : Bundle μ)
  | alone (buildId : Text) (version : ℕ) (r : Bundle μ)
  | reopened (buildId : Text) (version : ℕ) (r r' : Bundle μ)

def Request.build {κ μ : Type} : Request κ μ → Option Text
  | .entered a => some a.build
  | .planned q _ => some q.buildId
  | .duplicate q _ => some q.buildId
  | .creating q _ _ => some q.buildId
  | .inserted q _ _ => some q.buildId
  | .found b _ _ => some b
  | .cleared b _ _ => some b
  | .alone b _ _ => some b
  | .reopened b _ _ _ => some b
  | _ => none

structure Delivery (π κ μ : Type) where
  work : Work π
  decoded : Decoded κ
  compiled : Compiled μ

inductive Worker (π κ μ : Type)
  | idle
  | finished
  | started (lease : Text)
  | expiring (lease : Text) (now : ℤ) (rest : Key → Bool)
  | ready (lease : Text)
  | claiming (w : Work π)
  | working (w : Work π)
  | compiling (w : Work π) (d : Decoded κ)
  | publishing (x : Delivery π κ μ)
  | failing (w : Work π) (f : Failure)
  | settling (w : Work π) (f : Failure)

def Worker.work {π κ μ : Type} : Worker π κ μ → Option (Work π)
  | .working w => some w
  | .compiling w _ => some w
  | .publishing x => some x.work
  | _ => none

inductive Sending (π κ μ : Type)
  | none
  | begun (x : Delivery π κ μ)
  | locked (x : Delivery π κ μ)
  | checked (x : Delivery π κ μ)
  | written (x : Delivery π κ μ)
  /-- `COMMIT` is on the way. -/
  | committing (x : Delivery π κ μ)
  | done

def Sending.build {π κ μ : Type} : Sending π κ μ → Option Text
  | .locked x => some x.work.buildId
  | .checked x => some x.work.buildId
  | .written x => some x.work.buildId
  | .committing x => some x.work.buildId
  | _ => Option.none

variable {π κ μ : Type}

structure State (π κ μ : Type) where
  now : ℤ
  bundles : Heap Key Tx (Bundle μ)
  drafts : Drafts π
  session : Option ℕ
  leases : ℕ → Option Text
  requests : ℕ → Request κ μ
  workers : ℕ → Worker π κ μ
  sendings : ℕ → Sending π κ μ

namespace State

def setRequest (s : State π κ μ) (t : ℕ) (x : Request κ μ) : State π κ μ :=
  { s with requests := Function.update s.requests t x }

def setWorker (s : State π κ μ) (t : ℕ) (x : Worker π κ μ) : State π κ μ :=
  { s with workers := Function.update s.workers t x }

def setSending (s : State π κ μ) (t : ℕ) (x : Sending π κ μ) : State π κ μ :=
  { s with sendings := Function.update s.sendings t x }

/-- `x` locks the row and would leave `r`. -/
def write (s : State π κ μ) (x : Tx) (k : Key) (r : Bundle μ) : State π κ μ :=
  { s with bundles := Function.update s.bundles k ((s.bundles k).hold x r) }

def commit (s : State π κ μ) (x : Tx) : State π κ μ := { s with bundles := fun k => (s.bundles k).commit x }

def rollback (s : State π κ μ) (x : Tx) : State π κ μ := { s with bundles := fun k => (s.bundles k).abort x }

def version (s : State π κ μ) (k : Key) : Option (Bundle μ) := (s.bundles k).committed

def build (s : State π κ μ) : Tx → Option Text
  | .request t => (s.requests t).build
  | .pool _ => none
  | .dedicated t => (s.sendings t).build

def Unlocked (s : State π κ μ) (x : Tx) (b : Text) : Prop := ∀ y, s.build y = some b → y = x

/-- `SELECT * FROM builds.code_bundles WHERE build_id=$1 ORDER BY version DESC` -/
structure Listed (s : State π κ μ) (b : Text) (rows : List (ℕ × Bundle μ)) : Prop where
  mem : ∀ v r, (v, r) ∈ rows ↔ s.version (b, v) = some r
  sorted : rows.Pairwise fun x y => y.1 < x.1

end State

/-! ## Steps -/

section

variable (tools : Toolchain π κ μ)

inductive RequestStep (t : ℕ) : State π κ μ → Event → State π κ μ → Prop
  | begin {s : State π κ μ} {a : Ask} : s.requests t = .idle →
      RequestStep t s .quiet (s.setRequest t (.waiting a))
  | lock {s : State π κ μ} {a : Ask} : s.requests t = .waiting a → s.Unlocked (.request t) a.build →
      RequestStep t s .quiet (s.setRequest t (.entered a))
  | draft {s : State π κ μ} {b : Text} {x : Drafts π} : s.requests t = .entered (.draft b) →
      Drafted b s.drafts x → RequestStep t s (.drafted b) { s.setRequest t .finished with drafts := x }
  | plan {s : State π κ μ} {q : CompileRequest} {d : Decoded κ} : s.requests t = .entered (.compile q) →
      tools.enabled = true →
      accepted tools (s.drafts.plans q.buildId q.planVersion) (s.drafts.latestSpec q.buildId) = .ok d →
      RequestStep t s .quiet (s.setRequest t (.planned q d))
  | duplicate {s : State π κ μ} {q : CompileRequest} {d : Decoded κ} {rows : List (ℕ × Bundle μ)} {v : ℕ} :
      s.requests t = .planned q d → s.Listed q.buildId rows →
      compileRequest tools q d rows = .ok (.duplicate v) →
      RequestStep t s .quiet (s.setRequest t (.duplicate q v))
  | create {s : State π κ μ} {q : CompileRequest} {d : Decoded κ} {rows : List (ℕ × Bundle μ)} {v : ℕ}
      {job : Job} : s.requests t = .planned q d → s.Listed q.buildId rows →
      compileRequest tools q d rows = .ok (.create v job) →
      RequestStep t s .quiet (s.setRequest t (.creating q v job))
  | insert {s : State π κ μ} {q : CompileRequest} {v : ℕ} {job : Job} :
      s.requests t = .creating q v job → s.bundles (q.buildId, v) = .empty →
      RequestStep t s .quiet ((s.write (.request t) (q.buildId, v) (newBundle q.planVersion job s.now)).setRequest t
        (.inserted q v (newBundle q.planVersion job s.now)))
  | answerDuplicate {s : State π κ μ} {q : CompileRequest} {v : ℕ} : s.requests t = .duplicate q v →
      RequestStep t s (.answered q.buildId q.requestId v) (s.setRequest t .finished)
  | answer {s : State π κ μ} {q : CompileRequest} {v : ℕ} {r : Bundle μ} : s.requests t = .inserted q v r →
      RequestStep t s (.answered q.buildId q.requestId v) ((s.commit (.request t)).setRequest t .finished)
  | find {s : State π κ μ} {b : Text} {v : ℕ} {r : Bundle μ} : s.requests t = .entered (.retry b v) →
      tools.enabled = true → (s.bundles (b, v)).Free (.request t) → s.version (b, v) = some r →
      RequestStep t s .quiet ((s.write (.request t) (b, v) r).setRequest t (.found b v r))
  | clear {s : State π κ μ} {b : Text} {v : ℕ} {r : Bundle μ} {d : Decoded κ} : s.requests t = .found b v r →
      accepted tools (s.drafts.plans b r.planVersion) (s.drafts.latestSpec b) = .ok d →
      retryRequest r = .ok () → RequestStep t s .quiet (s.setRequest t (.cleared b v r))
  | alone {s : State π κ μ} {b : Text} {v : ℕ} {r : Bundle μ} : s.requests t = .cleared b v r →
      (∀ v' r', s.version (b, v') = some r' → r'.status.active = false) →
      RequestStep t s .quiet (s.setRequest t (.alone b v r))
  | reopen {s : State π κ μ} {b : Text} {v : ℕ} {r : Bundle μ} : s.requests t = .alone b v r →
      RequestStep t s .quiet
        ((s.write (.request t) (b, v) (retried s.now r)).setRequest t (.reopened b v r (retried s.now r)))
  | retry {s : State π κ μ} {b : Text} {v : ℕ} {r r' : Bundle μ} : s.requests t = .reopened b v r r' →
      RequestStep t s (.retried (b, v)) ((s.commit (.request t)).setRequest t .finished)
  | fail {s : State π κ μ} : s.requests t ≠ .idle → s.requests t ≠ .finished →
      RequestStep t s .quiet ((s.rollback (.request t)).setRequest t .finished)

inductive WorkerStep (t : ℕ) : State π κ μ → Event → State π κ μ → Prop
  | start {s : State π κ μ} {lease : Text} : s.workers t = .idle → s.session = none → s.leases t = none →
      (∀ u, s.leases u ≠ some lease) → WorkerStep t s .quiet
        { s.setWorker t (.started lease) with
          session := some t
          leases := Function.update s.leases t (some lease) }
  | busy {s : State π κ μ} : s.workers t = .idle → s.session ≠ none →
      WorkerStep t s .quiet (s.setWorker t .finished)
  | expire {s : State π κ μ} {lease : Text} : s.workers t = .started lease →
      WorkerStep t s (.expiring t)
        (s.setWorker t (.expiring lease s.now ((expire s.now).targets (.pool t) s.bundles)))
  | expireRow {s : State π κ μ} {lease : Text} {now : ℤ} {rest : Key → Bool} {k : Key} :
      s.workers t = .expiring lease now rest → rest k = true → (s.bundles k).Free (.pool t) →
      WorkerStep t s .quiet
        { s.setWorker t (.expiring lease now (Function.update rest k false)) with
          bundles := (Codegen.expire now).visit (.pool t) k s.bundles }
  | expired {s : State π κ μ} {lease : Text} {now : ℤ} {rest : Key → Bool} :
      s.workers t = .expiring lease now rest → (∀ k, rest k = false) →
      WorkerStep t s (.expired t now) ((s.commit (.pool t)).setWorker t (.ready lease))
  | claim {s : State π κ μ} {w : Work π} {r : Bundle μ} : s.workers t = .ready w.lease →
      (s.bundles w.key).Free (.pool t) → s.version w.key = some r → r.claimable s.now = true →
      w.planVersion = r.planVersion → w.job = ((Codegen.claim s.now w.lease).change r).log.job →
      s.drafts.plans w.buildId r.planVersion = some w.plan → w.latestSpec = s.drafts.latestSpec w.buildId →
      WorkerStep t s .quiet
        ((s.write (.pool t) w.key ((Codegen.claim s.now w.lease).change r)).setWorker t (.claiming w))
  | claimed {s : State π κ μ} {w : Work π} : s.workers t = .claiming w →
      WorkerStep t s (.claimed t w.key) ((s.commit (.pool t)).setWorker t (.working w))
  | nothing {s : State π κ μ} {lease : Text} : s.workers t = .ready lease →
      (∀ k r, s.version k = some r → r.claimable s.now = true → ¬ (s.bundles k).Free (.pool t)) →
      WorkerStep t s .quiet (s.setWorker t .finished)
  | prepare {s : State π κ μ} {w : Work π} {d : Decoded κ} : s.workers t = .working w →
      prepare tools w = .ok d → WorkerStep t s .quiet (s.setWorker t (.compiling w d))
  | deliver {s : State π κ μ} {w : Work π} {d : Decoded κ} {c : Compiled μ} : s.workers t = .compiling w d →
      identical tools w d c → (publication tools w d c).valid → s.session = some t → s.sendings t = .none →
      WorkerStep t s .quiet ((s.setWorker t (.publishing ⟨w, d, c⟩)).setSending t (.begun ⟨w, d, c⟩))
  | finish {s : State π κ μ} {x : Delivery π κ μ} : s.workers t = .publishing x → s.sendings t = .done →
      WorkerStep t s .quiet (s.setWorker t .finished)
  | giveUp {s : State π κ μ} {w : Work π} {error : Text} : (s.workers t).work = some w →
      WorkerStep t s .quiet (s.setWorker t (.failing w (failure error)))
  | failRow {s : State π κ μ} {w : Work π} {f : Failure} {r : Bundle μ} : s.workers t = .failing w f →
      (s.bundles w.key).Free (.pool t) → s.version w.key = some r → r.leased w.lease = true →
      WorkerStep t s .quiet
        ((s.write (.pool t) w.key ((Codegen.fail s.now w.lease f).change r)).setWorker t (.settling w f))
  | failNone {s : State π κ μ} {w : Work π} {f : Failure} {r : Bundle μ} : s.workers t = .failing w f →
      s.version w.key = some r → r.leased w.lease = false → WorkerStep t s .quiet (s.setWorker t .finished)
  | failed {s : State π κ μ} {w : Work π} {f : Failure} : s.workers t = .settling w f →
      WorkerStep t s (.failed t w.key) ((s.commit (.pool t)).setWorker t .finished)
  | crash {s : State π κ μ} : s.workers t ≠ .idle → s.workers t ≠ .finished →
      WorkerStep t s .quiet ((s.rollback (.pool t)).setWorker t .finished)

inductive SendingStep (t : ℕ) : State π κ μ → Event → State π κ μ → Prop
  | lock {s : State π κ μ} {x : Delivery π κ μ} : s.workers t = .publishing x → s.session = some t →
      s.sendings t = .begun x → s.Unlocked (.dedicated t) x.work.buildId →
      SendingStep t s .quiet (s.setSending t (.locked x))
  | check {s : State π κ μ} {x : Delivery π κ μ} : s.workers t = .publishing x → s.session = some t →
      s.sendings t = .locked x →
      fresh tools (s.drafts.plans x.work.buildId x.work.planVersion) (s.drafts.latestSpec x.work.buildId) x.work
        x.decoded x.compiled.manifest = .ok () → SendingStep t s .quiet (s.setSending t (.checked x))
  | write {s : State π κ μ} {x : Delivery π κ μ} {r : Bundle μ} : s.workers t = .publishing x →
      s.session = some t → s.sendings t = .checked x → (s.bundles x.work.key).Free (.dedicated t) →
      s.version x.work.key = some r → r.leased x.work.lease = true → SendingStep t s .quiet
        ((s.write (.dedicated t) x.work.key ((publish s.now x.work.lease
          (publication tools x.work x.decoded x.compiled)).change r)).setSending t (.written x))
  | commit {s : State π κ μ} {x : Delivery π κ μ} : s.workers t = .publishing x → s.session = some t →
      s.sendings t = .written x → SendingStep t s .quiet (s.setSending t (.committing x))
  | committed {s : State π κ μ} {x : Delivery π κ μ} : s.session = some t → s.sendings t = .committing x →
      SendingStep t s (.published t x.work.key) ((s.commit (.dedicated t)).setSending t .done)
  | part {s : State π κ μ} : s.session = some t → SendingStep t s .quiet
      { (s.rollback (.dedicated t)).setSending t .none with session := none }

inductive FirmwareStep : State π κ μ → Event → State π κ μ → Prop
  | request {t : ℕ} {s s' : State π κ μ} {e : Event} : RequestStep tools t s e s' → FirmwareStep s e s'
  | worker {t : ℕ} {s s' : State π κ μ} {e : Event} : WorkerStep tools t s e s' → FirmwareStep s e s'
  | sending {t : ℕ} {s s' : State π κ μ} {e : Event} : SendingStep tools t s e s' → FirmwareStep s e s'
  | tick {s : State π κ μ} {now : ℤ} : s.now ≤ now → FirmwareStep s .quiet { s with now }

def firmware : Machine (State π κ μ) Event where
  init s := (∀ k, s.bundles k = .empty) ∧ (∀ t, s.leases t = none) ∧ (∀ t, s.requests t = .idle) ∧
    (∀ t, s.workers t = .idle) ∧ ∀ t, s.sendings t = .none
  step := FirmwareStep tools

end

end Albusforge.Codegen
