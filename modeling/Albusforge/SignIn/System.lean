import Albusforge.Lib.Machine
import Albusforge.SignIn.Store

/-!
# Sign-ins, builds and model calls, statement by statement

Transactions under read committed: `issueCode`, `verifyCode`, `createBuild` (`chat-store.ts`) and the
inserter of model calls (`llmCallsInserter`, `packages/llm/src/meter.ts`). The first two hold an advisory lock
on their address until they end. A claim of anonymous work is two `UPDATE`s, each with a snapshot of its own,
that go from row to row and wait for each row's lock; the inserter locks the build that its row is about.
Any transaction may fail at any point, and leaves nothing then.
-/

namespace Albusforge.SignIn

open Lib Lib.ReadCommitted Sessions

/-- Where a claim is: in the one `UPDATE` or the other, with the rows still to go to. -/
inductive Stage
  | builds (rest : Text → Bool)
  | calls (rest : Text → Bool)

inductive Task
  | idle
  | over
  | issuing (q : IssueRequest)
  | issued (q : IssueRequest)
  | verifying (q : VerifyRequest)
  | checked (q : VerifyRequest) (c : Checked)
  /-- The code was right, and the anonymous owner `h` has work to claim. -/
  | claiming (q : VerifyRequest) (id : Text) (x : SignedIn) (h : Text) (stage : Stage)
  | ready (q : VerifyRequest) (id : Text) (x : SignedIn)
  | creating
  | recording (r : LlmCallRecord)
  | owning (r : LlmCallRecord) (owner : Build)
  | recorded (r : LlmCallRecord)

def Task.lock : Task → Option Text
  | .issued q => some q.email
  | .checked q _ => some q.email
  | .claiming q _ _ _ _ => some q.email
  | .ready q _ _ => some q.email
  | _ => none

structure State where
  codes : List EmailCode
  accounts : Accounts
  builds : Heap Text ℕ Build
  calls : Heap Text ℕ Call
  tasks : ℕ → Task

inductive Event
  | quiet
  | issued (c : EmailCode)
  | missed (email id : Text)
  | rejected (email : Text)
  | spending (t : ℕ) (h : Text)
  | verified (t : ℕ) (q : VerifyRequest) (id tenantId : Text)
  | failed (t : ℕ)

def State.setTask (s : State) (t : ℕ) (x : Task) : State := { s with tasks := Function.update s.tasks t x }

/-- `t` holds the lock of the address, or could take it. -/
def State.Unlocked (s : State) (t : ℕ) (email : Text) : Prop := ∀ u, (s.tasks u).lock = some email → u = t

def State.release (s : State) (t : ℕ) : State :=
  { s with
    builds := fun id => (s.builds id).commit t
    calls := fun id => (s.calls id).commit t }

def State.rollback (s : State) (t : ℕ) : State :=
  { s with
    builds := fun id => (s.builds id).abort t
    calls := fun id => (s.calls id).abort t }

section

variable (hash : Text → Text) (mail : Text → Prop)

/-- A step of the transaction `t`. -/
inductive SignInStep (t : ℕ) : State → Event → State → Prop
  | beginIssue {s : State} {q : IssueRequest} : s.tasks t = .idle → mail q.email →
      SignInStep t s .quiet (s.setTask t (.issuing q))
  | beginVerify {s : State} {q : VerifyRequest} : s.tasks t = .idle → mail q.email →
      SignInStep t s .quiet (s.setTask t (.verifying q))
  | beginCreate {s : State} {id : Text} {o : Owner} : s.tasks t = .idle → s.builds id = .empty →
      SignInStep t s .quiet
        { s.setTask t .creating with builds := Function.update s.builds id ((s.builds id).hold t o.build) }
  | beginRecord {s : State} {r : LlmCallRecord} : s.tasks t = .idle →
      (∀ id, r.buildId = some id → (s.builds id).committed ≠ none) →
      SignInStep t s .quiet (s.setTask t (.recording r))
  | lockIssue {s : State} {q : IssueRequest} : s.tasks t = .issuing q → s.Unlocked t q.email →
      SignInStep t s .quiet (s.setTask t (.issued q))
  | commitIssue {s : State} {q : IssueRequest} : s.tasks t = .issued q →
      (∀ c ∈ s.codes, c.id ≠ q.id) → SignInStep t s (.issued (q.row hash))
        { s.setTask t .over with codes := issueCode hash q s.codes }
  | lockVerify {s : State} {q : VerifyRequest} : s.tasks t = .verifying q → s.Unlocked t q.email →
      SignInStep t s .quiet (s.setTask t (.checked q (check hash s.codes q)))
  | commitRejected {s : State} {q : VerifyRequest} : s.tasks t = .checked q .rejected →
      SignInStep t s (.rejected q.email) (s.setTask t .over)
  | commitMissed {s : State} {q : VerifyRequest} {id : Text} {attempts : ℕ} :
      s.tasks t = .checked q (.missed id attempts) → SignInStep t s (.missed q.email id)
        { s.setTask t .over with codes := countMiss id attempts q.now s.codes }
  | signIn {s : State} {q : VerifyRequest} {id : Text} {f : Fresh} {x : SignedIn} :
      s.tasks t = .checked q (.hit id) → signIn hash s.accounts q f = some x → q.anonOwnerHash = none →
      SignInStep t s .quiet (s.setTask t (.ready q id x))
  | claim {s : State} {q : VerifyRequest} {id h : Text} {f : Fresh} {x : SignedIn} :
      s.tasks t = .checked q (.hit id) → signIn hash s.accounts q f = some x → q.anonOwnerHash = some h →
      SignInStep t s .quiet
        (s.setTask t (.claiming q id x h (.builds ((claimBuilds h x.tenantId).targets t s.builds))))
  | claimBuild {s : State} {q : VerifyRequest} {id h : Text} {x : SignedIn} {rest : Text → Bool}
      {b : Text} : s.tasks t = .claiming q id x h (.builds rest) → rest b = true → (s.builds b).Free t →
      SignInStep t s .quiet
        { s.setTask t (.claiming q id x h (.builds (Function.update rest b false))) with
          builds := (claimBuilds h x.tenantId).visit t b s.builds }
  | claimSpend {s : State} {q : VerifyRequest} {id h : Text} {x : SignedIn} {rest : Text → Bool} :
      s.tasks t = .claiming q id x h (.builds rest) → (∀ b, rest b = false) →
      SignInStep t s (.spending t h)
        (s.setTask t (.claiming q id x h (.calls ((claimCalls h x.tenantId).targets t s.calls))))
  | claimCall {s : State} {q : VerifyRequest} {id h : Text} {x : SignedIn} {rest : Text → Bool}
      {c : Text} : s.tasks t = .claiming q id x h (.calls rest) → rest c = true → (s.calls c).Free t →
      SignInStep t s .quiet
        { s.setTask t (.claiming q id x h (.calls (Function.update rest c false))) with
          calls := (claimCalls h x.tenantId).visit t c s.calls }
  | claimed {s : State} {q : VerifyRequest} {id h : Text} {x : SignedIn} {rest : Text → Bool} :
      s.tasks t = .claiming q id x h (.calls rest) → (∀ c, rest c = false) →
      SignInStep t s .quiet (s.setTask t (.ready q id x))
  | commitVerified {s : State} {q : VerifyRequest} {id : Text} {x : SignedIn} :
      s.tasks t = .ready q id x → SignInStep t s (.verified t q id x.tenantId)
        { (s.setTask t .over).release t with
          codes := consume id q.now s.codes
          accounts := x.apply s.accounts }
  | commitCreate {s : State} : s.tasks t = .creating →
      SignInStep t s .quiet ((s.setTask t .over).release t)
  | lockBuild {s : State} {r : LlmCallRecord} {id : Text} {owner : Build} :
      s.tasks t = .recording r → r.buildId = some id → (s.builds id).Free t →
      (s.builds id).committed = some owner → SignInStep t s .quiet
        { s.setTask t (.owning r owner) with
          builds := Function.update s.builds id ((s.builds id).hold t owner) }
  | missBuild {s : State} {r : LlmCallRecord} {id : Text} : s.tasks t = .recording r →
      r.buildId = some id → (s.builds id).seen t = none →
      SignInStep t s .quiet (s.setTask t (.owning r ⟨r.tenantId, r.anonOwnerHash⟩))
  | noBuild {s : State} {r : LlmCallRecord} : s.tasks t = .recording r → r.buildId = none →
      SignInStep t s .quiet (s.setTask t (.owning r ⟨r.tenantId, r.anonOwnerHash⟩))
  | insertCall {s : State} {r : LlmCallRecord} {owner : Build} {id : Text} :
      s.tasks t = .owning r owner → s.calls id = .empty → SignInStep t s .quiet
        { s.setTask t (.recorded r) with
          calls := Function.update s.calls id
            ((s.calls id).hold t ⟨r.buildId, owner.tenantId, owner.anonOwnerHash⟩) }
  | commitCall {s : State} {r : LlmCallRecord} : s.tasks t = .recorded r →
      SignInStep t s .quiet ((s.setTask t .over).release t)
  | fail {s : State} : s.tasks t ≠ .idle → s.tasks t ≠ .over →
      SignInStep t s (.failed t) ((s.setTask t .over).rollback t)

/-- The service over tables without codes, builds and calls, where sign-ins are of the addresses `mail`. -/
def signInService : Machine State Event where
  init s := s.codes = [] ∧ (∀ id, s.builds id = .empty) ∧ (∀ id, s.calls id = .empty) ∧
    ∀ t, s.tasks t = .idle
  step := fun s e s' => ∃ t, SignInStep hash mail t s e s'

end

/-! ## What a step leaves alone -/

section

variable {s : State} {t u : ℕ} {x : Task} {id : Text}

@[simp] theorem setTask_self : (s.setTask t x).tasks t = x := Function.update_self ..
theorem setTask_of_ne (h : u ≠ t) : (s.setTask t x).tasks u = s.tasks u := Function.update_of_ne h ..
@[simp] theorem setTask_codes : (s.setTask t x).codes = s.codes := rfl
@[simp] theorem setTask_accounts : (s.setTask t x).accounts = s.accounts := rfl
@[simp] theorem setTask_builds : (s.setTask t x).builds = s.builds := rfl
@[simp] theorem setTask_calls : (s.setTask t x).calls = s.calls := rfl
@[simp] theorem release_codes : (s.release t).codes = s.codes := rfl
@[simp] theorem release_tasks : (s.release t).tasks = s.tasks := rfl
@[simp] theorem release_builds : (s.release t).builds id = (s.builds id).commit t := rfl
@[simp] theorem release_calls : (s.release t).calls id = (s.calls id).commit t := rfl
@[simp] theorem rollback_codes : (s.rollback t).codes = s.codes := rfl
@[simp] theorem rollback_accounts : (s.rollback t).accounts = s.accounts := rfl
@[simp] theorem rollback_tasks : (s.rollback t).tasks = s.tasks := rfl
@[simp] theorem rollback_builds : (s.rollback t).builds id = (s.builds id).abort t := rfl
@[simp] theorem rollback_calls : (s.rollback t).calls id = (s.calls id).abort t := rfl

end

/-! ## A claim that a build comes after -/

namespace Bench

def email : Text := js "ada@example.org"

def anon : Text := js "anon"

def issue : IssueRequest := ⟨email, 0, js "123456", js "code", 0⟩

def verify : VerifyRequest := ⟨email, js "123456", some anon, none, 3600, 1000⟩

def fresh : Fresh := ⟨js "user", js "tenant", js "session", js "token", 1000⟩

def record : LlmCallRecord := ⟨some (js "build"), none, some anon⟩

def s₀ : State where
  codes := []
  accounts := ⟨.empty, .empty, .empty, .empty⟩
  builds := fun _ => .empty
  calls := fun _ => .empty
  tasks := fun _ => .idle

def signedIn : SignedIn where
  newUser := some ⟨js "user", email⟩
  newTenant := some (⟨js "tenant", PERSONAL_TENANT_NAME, none⟩, ⟨js "tenant", js "user", .admin, 1000⟩)
  session := ⟨js "session", js "token", js "user", js "tenant", none, 3601000, none⟩

theorem signIn_fresh : signIn id s₀.accounts verify fresh = some signedIn := by decide +kernel

theorem check_hit : check id [issue.row id] verify = .hit (js "code") := by decide +kernel

theorem issue_email : issue.email = email := by decide +kernel

theorem verify_email : verify.email = email := by decide +kernel

theorem unlocked {s : State} {t : ℕ} {email : Text} (h : ∀ u, u ≠ t → (s.tasks u).lock = none) :
    s.Unlocked t email := by
  intro u hu
  by_contra hne
  exact absurd ((h u hne).symm.trans hu) (by simp)

def service : Machine State Event := signInService id fun e => e = email

variable {C : List Event → State → Event → Prop}

theorem goes {es : List Event} {s s' : State} {e : Event} {t : ℕ} (h : service.RunWhere C es s)
    (hs : SignInStep id (fun e => e = email) t s e s') (hc : C es s e) : service.RunWhere C (es ++ [e]) s' :=
  .step h ⟨t, hs⟩ hc

theorem late_build (hC : ∀ es s e, (∀ t h, e ≠ .spending t h) → C es s e) :
    ∃ es s, service.RunWhere C es s ∧
      s.tasks 1 = .claiming verify (js "code") signedIn anon (.builds fun _ => false) ∧
      s.builds (js "build") = ⟨some ⟨none, some anon⟩, none⟩ ∧
      ∀ c, s.calls c = if c = js "call" then ⟨some ⟨some (js "build"), none, some anon⟩, none⟩ else .empty := by
  have quiet : ∀ {es s}, C es s .quiet := hC _ _ _ (by simp)
  have h₀ : service.RunWhere C [] s₀ := .init ⟨rfl, fun _ => rfl, fun _ => rfl, fun _ => rfl⟩
  have h₁ := goes h₀ (SignInStep.beginIssue (t := 0) (q := issue) rfl issue_email) quiet
  have h₂ := goes h₁ (SignInStep.lockIssue (t := 0) (q := issue) rfl
    (unlocked fun u hu => by rw [setTask_of_ne hu]; rfl)) quiet
  have h₃ := goes h₂ (SignInStep.commitIssue (t := 0) (q := issue) rfl (by simp [s₀])) (hC _ _ _ (by simp))
  have h₄ := goes h₃ (SignInStep.beginVerify (t := 1) (q := verify) rfl verify_email) quiet
  have h₅ := goes h₄ (SignInStep.lockVerify (t := 1) (q := verify) rfl
    (unlocked fun u hu => by
      rw [setTask_of_ne hu]
      by_cases h0 : u = 0
      · rw [h0]
        rfl
      · simp [State.setTask, Function.update_of_ne h0, s₀, Task.lock])) quiet
  have h₆ := goes h₅ (SignInStep.claim (t := 1) (h := anon) (congrArg (Task.checked verify) check_hit)
    signIn_fresh rfl) quiet
  have h₇ := goes h₆ (@SignInStep.beginCreate id _ 2 _ (js "build") (.anonymous anon) rfl rfl) quiet
  have h₈ := goes h₇ (SignInStep.commitCreate (t := 2) rfl) quiet
  have h₉ := goes h₈ (SignInStep.beginRecord (t := 3) (r := record) rfl (by
    intro id hid
    obtain rfl := Option.some.inj hid
    exact Option.some_ne_none _)) quiet
  have h₁₀ := goes h₉ (@SignInStep.lockBuild id _ 3 _ record (js "build") ⟨none, some anon⟩ rfl rfl
    (fun u B hheld => (Option.some_ne_none _ hheld.symm).elim) rfl) quiet
  have h₁₁ := goes h₁₀ (@SignInStep.insertCall id _ 3 _ record _ (js "call") rfl rfl) quiet
  have h₁₂ := goes h₁₁ (SignInStep.commitCall (t := 3) rfl) quiet
  refine ⟨_, _, h₁₂, rfl, rfl, ?_⟩
  intro c
  by_cases hc : c = js "call"
  · rw [hc]
    rfl
  · rw [if_neg hc]
    exact (congrArg (Slot.commit 3) (Function.update_of_ne hc _ fun _ => Slot.empty)).trans rfl

theorem late_claim : ∃ es s, service.Run es s ∧ s.tasks 1 = .ready verify (js "code") signedIn ∧
    s.builds (js "build") = ⟨some ⟨none, some anon⟩, none⟩ ∧
    (s.calls (js "call")).held = some (1, ⟨some (js "build"), some (js "tenant"), none⟩) := by
  obtain ⟨es, s, h₀, htask, hbuild, hcalls⟩ := late_build fun _ _ _ _ => trivial
  have h₁ := goes h₀ (SignInStep.claimSpend (t := 1) htask fun _ => rfl) trivial
  have hcall := hcalls (js "call")
  rw [if_pos rfl] at hcall
  have hfound : (claimCalls anon signedIn.tenantId).targets 1 s.calls (js "call") = true := by
    rw [Update.targets, hcall]
    rfl
  have hdone : ∀ c, Function.update ((claimCalls anon signedIn.tenantId).targets 1 s.calls) (js "call") false c =
      false := by
    intro c
    by_cases hc : c = js "call"
    · rw [hc, Function.update_self]
    · rw [Function.update_of_ne hc, Update.targets, hcalls, if_neg hc]
      rfl
  have hfree : (s.calls (js "call")).Free 1 := by
    intro u C hheld
    rw [hcall] at hheld
    exact absurd hheld (by simp)
  have h₂ := goes h₁ (SignInStep.claimCall (t := 1) setTask_self hfound hfree) trivial
  have h₃ := goes h₂ (SignInStep.claimed (t := 1) rfl hdone) trivial
  refine ⟨_, _, h₃, setTask_self, hbuild, ?_⟩
  have hmoved : (Update.visit (claimCalls anon signedIn.tenantId) 1 (js "call") s.calls (js "call")).held =
      some (1, ⟨some (js "build"), some (js "tenant"), none⟩) := by
    rw [Update.visit_self, hcall]
    rfl
  exact hmoved

end Bench

end Albusforge.SignIn
