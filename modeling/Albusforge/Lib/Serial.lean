import Mathlib.Data.Nat.Notation
import Mathlib.Logic.Function.Basic

/-!
# Transactions under a row lock

A service runs each request as one database transaction, statement by statement,
and the transaction first takes an exclusive lock on the row its request is about.
Sessions of different rows interleave in any way. Everything a session writes is
private until it commits; a session may vanish at any point, and other writers
change a row only while nobody holds it.

`World` and `Step` are that system. `Serial` is the system one reasons about: each
request happens at once, in some order. **Every step of the one is a step of the
other, or none at all** (`step_serial`), so an invariant of the serial system holds
in every reachable world (`Reachable.serial`).
-/

namespace Albusforge.Lib

/--
A transaction's program on its view `σ` of the rows it locks. A statement changes
the view and may look at `γ`, whatever else is there; a finished program carries its
result, and says whether it commits.
-/
inductive Prog (σ γ ρ : Type) where
  | finish (result : ρ) (commit : Bool)
  | stmt (effect : γ → σ → σ) (next : γ → σ → Prog σ γ ρ)

def Prog.read {σ γ ρ : Type} (next : γ → σ → Prog σ γ ρ) : Prog σ γ ρ := .stmt (fun _ s => s) next

def Prog.write {σ γ ρ : Type} (effect : γ → σ → σ) (next : Prog σ γ ρ) : Prog σ γ ρ :=
  .stmt effect fun _ _ => next

def Prog.exec {σ γ ρ : Type} (g : γ) : Prog σ γ ρ → σ → σ × ρ × Bool
  | .finish r c, s => (s, r, c)
  | .stmt effect next, s => (next g s).exec g (effect g s)

structure Transaction (σ γ ρ : Type) where
  /-- The result if the first `SELECT ... FOR UPDATE` finds no row. -/
  unmatched : σ → Option ρ
  body : Prog σ γ ρ

inductive Runs {σ γ ρ : Type} : Prog σ γ ρ → σ → σ → ρ → Bool → Prop
  | finish (s : σ) (r : ρ) (c : Bool) : Runs (.finish r c) s s r c
  | stmt {effect : γ → σ → σ} {next : γ → σ → Prog σ γ ρ} {s s' : σ} {r : ρ} {c : Bool} (g : γ) :
      Runs (next g s) (effect g s) s' r c → Runs (.stmt effect next) s s' r c

inductive Phase (σ γ ρ : Type) where
  | waiting
  /-- It holds the lock, sees `view`, and has `rest` still to run. -/
  | running (view : σ) (rest : Prog σ γ ρ)

structure Session (κ σ γ ρ : Type) where
  key : κ
  txn : Transaction σ γ ρ
  phase : Phase σ γ ρ

structure World (κ σ γ ρ : Type) where
  tables : κ → σ
  shared : γ
  sessions : ℕ → Option (Session κ σ γ ρ)
  log : List (κ × ρ)

def Transaction.exec {σ γ ρ : Type} (g : γ) (t : Transaction σ γ ρ) (s : σ) : σ × ρ :=
  match t.unmatched s with
  | some r => (s, r)
  | none =>
      let (s', r, c) := t.body.exec g s
      (if c then s' else s, r)

theorem Runs.finish_inv {σ γ ρ : Type} {r r' : ρ} {c c' : Bool} {s s' : σ}
    (h : Runs (.finish r c : Prog σ γ ρ) s s' r' c') : s' = s ∧ r' = r ∧ c' = c := by
  cases h
  exact ⟨rfl, rfl, rfl⟩

theorem Runs.stmt_inv {σ γ ρ : Type} {effect : γ → σ → σ} {next : γ → σ → Prog σ γ ρ} {r : ρ}
    {c : Bool} {s s' : σ} (h : Runs (.stmt effect next) s s' r c) :
    ∃ g, Runs (next g s) (effect g s) s' r c := by
  cases h with
  | stmt g h => exact ⟨g, h⟩

theorem Prog.exec_runs {σ γ ρ : Type} (g : γ) (p : Prog σ γ ρ) : ∀ s : σ,
    Runs p s (p.exec g s).1 (p.exec g s).2.1 (p.exec g s).2.2 := by
  induction p with
  | finish r c => exact fun s => Runs.finish s r c
  | stmt effect next ih => exact fun s => Runs.stmt g (ih g s (effect g s))

variable {κ σ γ ρ : Type} [DecidableEq κ]

/-- Session `i` holds the lock of row `k`. -/
def World.Holds (w : World κ σ γ ρ) (i : ℕ) (k : κ) : Prop :=
  ∃ txn view rest, w.sessions i = some ⟨k, txn, .running view rest⟩

/-- Session `i` is now `s`. -/
def World.put (w : World κ σ γ ρ) (i : ℕ) (s : Session κ σ γ ρ) : World κ σ γ ρ :=
  { w with sessions := Function.update w.sessions i (some s) }

/-- Session `i` is over. -/
def World.drop (w : World κ σ γ ρ) (i : ℕ) : World κ σ γ ρ :=
  { w with sessions := Function.update w.sessions i none }

section

variable (requests : κ → Transaction σ γ ρ → Prop) (outside : κ → σ → σ → Prop)

inductive Step (w : World κ σ γ ρ) : World κ σ γ ρ → Prop
  | arrive (i : ℕ) (k : κ) (txn : Transaction σ γ ρ) :
      requests k txn → w.sessions i = none →
      Step w (w.put i ⟨k, txn, .waiting⟩)
  | refuse (i : ℕ) (k : κ) (txn : Transaction σ γ ρ) (r : ρ) :
      w.sessions i = some ⟨k, txn, .waiting⟩ → txn.unmatched (w.tables k) = some r →
      Step w { w.drop i with log := w.log ++ [(k, r)] }
  | acquire (i : ℕ) (k : κ) (txn : Transaction σ γ ρ) :
      w.sessions i = some ⟨k, txn, .waiting⟩ → txn.unmatched (w.tables k) = none →
      (∀ j, ¬ w.Holds j k) →
      Step w (w.put i ⟨k, txn, .running (w.tables k) txn.body⟩)
  | statement (i : ℕ) (k : κ) (txn : Transaction σ γ ρ) (view : σ) (effect : γ → σ → σ)
      (next : γ → σ → Prog σ γ ρ) :
      w.sessions i = some ⟨k, txn, .running view (.stmt effect next)⟩ →
      Step w (w.put i ⟨k, txn, .running (effect w.shared view) (next w.shared view)⟩)
  | finish (i : ℕ) (k : κ) (txn : Transaction σ γ ρ) (view : σ) (r : ρ) (c : Bool) :
      w.sessions i = some ⟨k, txn, .running view (.finish r c)⟩ →
      Step w { w.drop i with
        tables := Function.update w.tables k (if c then view else w.tables k)
        log := w.log ++ [(k, r)] }
  | lose (i : ℕ) : Step w (w.drop i)
  | outside (k : κ) (s : σ) : (∀ j, ¬ w.Holds j k) → outside k (w.tables k) s →
      Step w { w with tables := Function.update w.tables k s }
  | share (g : γ) : Step w { w with shared := g }

inductive Serial : (κ → σ) → List (κ × ρ) → (κ → σ) → List (κ × ρ) → Prop
  | refuse (t : κ → σ) (l : List (κ × ρ)) (k : κ) (txn : Transaction σ γ ρ) (r : ρ) :
      requests k txn → txn.unmatched (t k) = some r → Serial t l t (l ++ [(k, r)])
  | run (t : κ → σ) (l : List (κ × ρ)) (k : κ) (txn : Transaction σ γ ρ) (s : σ) (r : ρ) (c : Bool) :
      requests k txn → txn.unmatched (t k) = none → Runs txn.body (t k) s r c →
      Serial t l (Function.update t k (if c then s else t k)) (l ++ [(k, r)])
  | outside (t : κ → σ) (l : List (κ × ρ)) (k : κ) (s : σ) : outside k (t k) s →
      Serial t l (Function.update t k s) l

/-- The worlds reachable from `w₀`. -/
inductive Reachable (w₀ : World κ σ γ ρ) : World κ σ γ ρ → Prop
  | init : Reachable w₀ w₀
  | step {w w' : World κ σ γ ρ} : Reachable w₀ w → Step requests outside w w' → Reachable w₀ w'

/-! ## What a lock protects -/

structure LockInv (w : World κ σ γ ρ) : Prop where
  known : ∀ i s, w.sessions i = some s → requests s.key s.txn
  exclusive : ∀ i j k, w.Holds i k → w.Holds j k → i = j
  matched : ∀ i k txn view rest, w.sessions i = some ⟨k, txn, .running view rest⟩ →
    txn.unmatched (w.tables k) = none
  /-- **What is left to run from the view is what is left of a run from the committed row.** -/
  partway : ∀ i k txn view rest, w.sessions i = some ⟨k, txn, .running view rest⟩ →
    ∀ s r c, Runs rest view s r c → Runs txn.body (w.tables k) s r c

end

variable {requests : κ → Transaction σ γ ρ → Prop} {outside : κ → σ → σ → Prop}
  {w w' w₀ : World κ σ γ ρ}

omit [DecidableEq κ] in
theorem World.put_self (w : World κ σ γ ρ) (i : ℕ) (s : Session κ σ γ ρ) :
    (w.put i s).sessions i = some s := by
  simp [World.put]

omit [DecidableEq κ] in
theorem World.put_of_ne (w : World κ σ γ ρ) {i j : ℕ} (s : Session κ σ γ ρ) (h : j ≠ i) :
    (w.put i s).sessions j = w.sessions j := by
  simp [World.put, h]

omit [DecidableEq κ] in
theorem World.drop_self (w : World κ σ γ ρ) (i : ℕ) : (w.drop i).sessions i = none := by
  simp [World.drop]

omit [DecidableEq κ] in
theorem World.drop_of_ne (w : World κ σ γ ρ) {i j : ℕ} (h : j ≠ i) :
    (w.drop i).sessions j = w.sessions j := by
  simp [World.drop, h]

omit [DecidableEq κ] in
theorem World.put_sessions {i j : ℕ} {s t : Session κ σ γ ρ}
    (h : (w.put i s).sessions j = some t) : (j = i ∧ t = s) ∨ (j ≠ i ∧ w.sessions j = some t) := by
  by_cases hij : j = i
  · subst hij
    rw [World.put_self] at h
    exact Or.inl ⟨rfl, (Option.some.inj h).symm⟩
  · rw [World.put_of_ne w s hij] at h
    exact Or.inr ⟨hij, h⟩

omit [DecidableEq κ] in
theorem World.drop_sessions {i j : ℕ} {t : Session κ σ γ ρ}
    (h : (w.drop i).sessions j = some t) : j ≠ i ∧ w.sessions j = some t := by
  by_cases hij : j = i
  · subst hij
    rw [World.drop_self] at h
    exact absurd h (by simp)
  · rw [World.drop_of_ne w hij] at h
    exact ⟨hij, h⟩

omit [DecidableEq κ] in
theorem LockInv.drop (h : LockInv requests w) (i : ℕ) : LockInv requests (w.drop i) := by
  refine ⟨?_, ?_, ?_, ?_⟩
  · intro j s hs
    exact h.known j s (World.drop_sessions hs).2
  · rintro j j' k ⟨_, _, _, hj⟩ ⟨_, _, _, hj'⟩
    exact h.exclusive j j' k ⟨_, _, _, (World.drop_sessions hj).2⟩
      ⟨_, _, _, (World.drop_sessions hj').2⟩
  · intro j k txn view rest hs
    exact h.matched j k txn view rest (World.drop_sessions hs).2
  · intro j k txn view rest hs
    exact h.partway j k txn view rest (World.drop_sessions hs).2

theorem LockInv.update (h : LockInv requests w) {k : κ} (hfree : ∀ j, ¬ w.Holds j k) (s : σ)
    (l : List (κ × ρ)) :
    LockInv requests { w with tables := Function.update w.tables k s, log := l } := by
  have hrow : ∀ {j k' txn view rest}, w.sessions j = some ⟨k', txn, .running view rest⟩ →
      Function.update w.tables k s k' = w.tables k' := by
    intro j k' txn view rest hs
    refine Function.update_of_ne ?_ ..
    rintro rfl
    exact hfree j ⟨txn, view, rest, hs⟩
  refine ⟨h.known, h.exclusive, ?_, ?_⟩
  · intro j k' txn view rest hs
    show txn.unmatched (Function.update w.tables k s k') = none
    rw [hrow hs]
    exact h.matched j k' txn view rest hs
  · intro j k' txn view rest hs
    show ∀ s' r c, Runs rest view s' r c → Runs txn.body (Function.update w.tables k s k') s' r c
    rw [hrow hs]
    exact h.partway j k' txn view rest hs

omit [DecidableEq κ] in
theorem LockInv.put (h : LockInv requests w) {i : ℕ} {s : Session κ σ γ ρ}
    (hknown : requests s.key s.txn)
    (hrun : ∀ view rest, s.phase = .running view rest →
      (∀ j, w.Holds j s.key → j = i) ∧ s.txn.unmatched (w.tables s.key) = none ∧
      ∀ s' r c, Runs rest view s' r c → Runs s.txn.body (w.tables s.key) s' r c) :
    LockInv requests (w.put i s) := by
  have hholds : ∀ {j k}, (w.put i s).Holds j k → (j = i ∧ k = s.key ∧ ∃ v p, s.phase = .running v p) ∨
      (j ≠ i ∧ w.Holds j k) := by
    rintro j k ⟨txn, view, rest, hs⟩
    rcases World.put_sessions hs with ⟨hj, rfl⟩ | ⟨hj, hs⟩
    · exact Or.inl ⟨hj, rfl, view, rest, rfl⟩
    · exact Or.inr ⟨hj, txn, view, rest, hs⟩
  refine ⟨?_, ?_, ?_, ?_⟩
  · intro j t ht
    rcases World.put_sessions ht with ⟨_, rfl⟩ | ⟨_, ht⟩
    · exact hknown
    · exact h.known j t ht
  · intro j j' k hj hj'
    rcases hholds hj with ⟨rfl, rfl, v, p, hp⟩ | ⟨-, hold⟩
    · rcases hholds hj' with ⟨rfl, -, -⟩ | ⟨-, hold'⟩
      · rfl
      · exact ((hrun v p hp).1 j' hold').symm
    · rcases hholds hj' with ⟨rfl, rfl, v, p, hp⟩ | ⟨-, hold'⟩
      · exact (hrun v p hp).1 j hold
      · exact h.exclusive j j' k hold hold'
  · intro j k txn view rest hs
    rcases World.put_sessions hs with ⟨_, rfl⟩ | ⟨_, hs⟩
    · exact (hrun view rest rfl).2.1
    · exact h.matched j k txn view rest hs
  · intro j k txn view rest hs
    rcases World.put_sessions hs with ⟨_, rfl⟩ | ⟨_, hs⟩
    · exact (hrun view rest rfl).2.2
    · exact h.partway j k txn view rest hs

theorem LockInv.step (h : LockInv requests w) (hs : Step requests outside w w') :
    LockInv requests w' := by
  cases hs with
  | arrive i k txn hreq hnew => exact h.put hreq (by simp)
  | refuse i k txn r hi hr => exact ⟨(h.drop i).known, (h.drop i).exclusive, (h.drop i).matched,
      (h.drop i).partway⟩
  | acquire i k txn hi hmatch hfree =>
      have hreq : requests k txn := h.known i _ hi
      refine h.put hreq ?_
      intro view rest hrun
      obtain ⟨rfl, rfl⟩ := Phase.running.inj hrun
      exact ⟨fun j hj => absurd hj (hfree j), hmatch, fun s r c hr => hr⟩
  | statement i k txn view effect next hi =>
      have hreq : requests k txn := h.known i _ hi
      refine h.put hreq ?_
      intro view' rest hrun
      obtain ⟨rfl, rfl⟩ := Phase.running.inj hrun
      refine ⟨fun j hj => h.exclusive j i k hj ⟨_, _, _, hi⟩, h.matched i k txn _ _ hi, ?_⟩
      intro s r c hr
      exact h.partway i k txn _ _ hi s r c (Runs.stmt w.shared hr)
  | finish i k txn view r c hi =>
      -- with its one holder gone, the row is free to change
      have hfree : ∀ j, ¬ (w.drop i).Holds j k := by
        rintro j ⟨_, _, _, hj⟩
        obtain ⟨hne, hj⟩ := World.drop_sessions hj
        exact hne (h.exclusive j i k ⟨_, _, _, hj⟩ ⟨_, _, _, hi⟩)
      exact (h.drop i).update hfree _ _
  | lose i => exact h.drop i
  | outside k s hfree hout => exact h.update hfree s w.log
  | share g => exact ⟨h.known, h.exclusive, h.matched, h.partway⟩

theorem LockInv.reachable (h₀ : ∀ i, w₀.sessions i = none)
    (hr : Reachable requests outside w₀ w) : LockInv requests w := by
  induction hr with
  | init =>
      refine ⟨?_, ?_, ?_, ?_⟩
      · intro i s hs
        exact absurd ((h₀ i).symm.trans hs) (by simp)
      · rintro i j k ⟨_, _, _, hi⟩ _
        exact absurd ((h₀ i).symm.trans hi) (by simp)
      · intro i k txn view rest hs
        exact absurd ((h₀ i).symm.trans hs) (by simp)
      · intro i k txn view rest hs
        exact absurd ((h₀ i).symm.trans hs) (by simp)
  | step _ hs ih => exact ih.step hs

/-! ## Seriality -/

/--
**Each step is a whole request, another writer, or nothing.**

Requests take effect when they finish: what a session saw in between is what a run
from the row committed then would have seen.
-/
theorem step_serial (h : LockInv requests w) (hs : Step requests outside w w') :
    (w'.tables = w.tables ∧ w'.log = w.log) ∨
      Serial requests outside w.tables w.log w'.tables w'.log := by
  cases hs with
  | refuse i k txn r hi hr =>
      exact Or.inr (Serial.refuse _ _ k txn r (h.known i _ hi) hr)
  | finish i k txn view r c hi =>
      refine Or.inr (Serial.run _ _ k txn view r c (h.known i _ hi) (h.matched i k txn _ _ hi) ?_)
      exact h.partway i k txn _ _ hi view r c (Runs.finish view r c)
  | outside k s hfree hout => exact Or.inr (Serial.outside _ _ k s hout)
  | _ => exact Or.inl ⟨rfl, rfl⟩

theorem Reachable.serial {I : (κ → σ) → List (κ × ρ) → Prop} (h₀ : ∀ i, w₀.sessions i = none)
    (hinit : I w₀.tables w₀.log)
    (hstep : ∀ t l t' l', I t l → Serial requests outside t l t' l' → I t' l')
    (hr : Reachable requests outside w₀ w) : I w.tables w.log := by
  induction hr with
  | init => exact hinit
  | step hr hs ih =>
      rcases step_serial (LockInv.reachable h₀ hr) hs with ⟨ht, hl⟩ | hser
      · rw [ht, hl]
        exact ih
      · exact hstep _ _ _ _ ih hser

/-! ## A request that meets nobody -/

theorem Reachable.exec (i : ℕ) (k : κ) (txn : Transaction σ γ ρ) (p : Prog σ γ ρ) :
    ∀ {w : World κ σ γ ρ} (view : σ), Reachable requests outside w₀ w →
      w.sessions i = some ⟨k, txn, .running view p⟩ →
      ∃ w', Reachable requests outside w₀ w' ∧ w'.tables = w.tables ∧ w'.shared = w.shared ∧
        w'.log = w.log ∧ (w'.sessions i = some ⟨k, txn, .running (p.exec w.shared view).1
          (.finish (p.exec w.shared view).2.1 (p.exec w.shared view).2.2)⟩) ∧
        ∀ j, j ≠ i → w'.sessions j = w.sessions j := by
  induction p with
  | finish r c =>
      intro w view hr hi
      exact ⟨w, hr, rfl, rfl, rfl, hi, fun _ _ => rfl⟩
  | stmt effect next ih =>
      intro w view hr hi
      have hs : Step requests outside w _ := Step.statement i k txn view effect next hi
      obtain ⟨w', hr', ht, hg, hl, hi', hj⟩ := ih w.shared view _ (hr.step hs) (World.put_self w i _)
      refine ⟨w', hr', ht, hg, hl, hi', ?_⟩
      intro j hne
      rw [hj j hne, World.put_of_ne w _ hne]

/-- **Where nobody is being served, a request may be carried out at once.** -/
theorem Reachable.alone (hr : Reachable requests outside w₀ w) {k : κ} {txn : Transaction σ γ ρ}
    (hreq : requests k txn) (hidle : ∀ j, w.sessions j = none) :
    ∃ w', Reachable requests outside w₀ w' ∧
      w'.tables = Function.update w.tables k (txn.exec w.shared (w.tables k)).1 ∧
      w'.shared = w.shared ∧ w'.log = w.log ++ [(k, (txn.exec w.shared (w.tables k)).2)] ∧
      ∀ j, w'.sessions j = none := by
  have harrive : Reachable requests outside w₀ (w.put 0 ⟨k, txn, .waiting⟩) :=
    hr.step (Step.arrive 0 k txn hreq (hidle 0))
  have hzero := World.put_self w 0 ⟨k, txn, .waiting⟩
  rcases hun : txn.unmatched (w.tables k) with _ | r
  · -- the row is there: lock it, run the body, finish
    have hfree : ∀ j, ¬ (w.put 0 ⟨k, txn, .waiting⟩).Holds j k := by
      rintro j ⟨_, _, _, hj⟩
      rcases World.put_sessions hj with ⟨-, hphase⟩ | ⟨-, hold⟩
      · simp at hphase
      · rw [hidle j] at hold
        exact absurd hold (by simp)
    have hacquire := harrive.step (Step.acquire 0 k txn hzero hun hfree)
    obtain ⟨w', hr', ht, hg, hl, h0, hj⟩ := hacquire.exec 0 k txn txn.body (w.tables k)
      (World.put_self _ 0 _)
    refine ⟨_, hr'.step (Step.finish 0 k txn _ _ _ h0), ?_, hg, ?_, ?_⟩
    · simp only [ht, Transaction.exec, hun]
      rfl
    · simp only [hl, Transaction.exec, hun]
      rfl
    · intro j
      by_cases hj0 : j = 0
      · subst hj0
        exact World.drop_self w' 0
      · refine (World.drop_of_ne w' hj0).trans ?_
        rw [hj j hj0, World.put_of_ne _ _ hj0, World.put_of_ne _ _ hj0]
        exact hidle j
  · refine ⟨_, harrive.step (Step.refuse 0 k txn r hzero hun), ?_, rfl, ?_, ?_⟩
    · simp only [Transaction.exec, hun]
      exact (Function.update_eq_self k w.tables).symm
    · simp only [Transaction.exec, hun]
      rfl
    · intro j
      by_cases hj0 : j = 0
      · subst hj0
        exact World.drop_self (w.put 0 ⟨k, txn, .waiting⟩) 0
      · refine (World.drop_of_ne (w.put 0 ⟨k, txn, .waiting⟩) hj0).trans ?_
        rw [World.put_of_ne _ _ hj0]
        exact hidle j

def serve (g : γ) : List (Transaction σ γ ρ) → σ → σ × List ρ
  | [], s => (s, [])
  | txn :: rest, s =>
      let (s', r) := txn.exec g s
      let (s'', answers) := serve g rest s'
      (s'', r :: answers)

theorem Reachable.alone_all {k : κ} : ∀ (txns : List (Transaction σ γ ρ)) {w : World κ σ γ ρ},
    Reachable requests outside w₀ w → (∀ txn ∈ txns, requests k txn) → (∀ j, w.sessions j = none) →
    ∃ w', Reachable requests outside w₀ w' ∧ w'.tables k = (serve w.shared txns (w.tables k)).1 ∧
      w'.shared = w.shared ∧
      w'.log = w.log ++ (serve w.shared txns (w.tables k)).2.map (fun r => (k, r)) ∧
      ∀ j, w'.sessions j = none
  | [], w, hr, _, hidle => ⟨w, hr, rfl, rfl, by simp [serve], hidle⟩
  | txn :: rest, w, hr, hreq, hidle => by
      obtain ⟨w₁, hr₁, ht₁, hg₁, hl₁, hidle₁⟩ := hr.alone (hreq txn (by simp)) hidle
      obtain ⟨w₂, hr₂, ht₂, hg₂, hl₂, hidle₂⟩ := Reachable.alone_all rest hr₁
        (fun t ht => hreq t (List.mem_cons_of_mem _ ht)) hidle₁
      rw [hg₁, ht₁, Function.update_self] at ht₂ hl₂
      refine ⟨w₂, hr₂, ht₂, hg₂.trans hg₁, ?_, hidle₂⟩
      rw [hl₂, hl₁]
      simp [serve]

end Albusforge.Lib
