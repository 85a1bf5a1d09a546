import Albusforge.Db.Handle

/-!
# Managed transactions

`managedTransaction` takes a connection, lends its handle to a callback between a `BEGIN` and a `COMMIT`,
and closes the handle before the connection goes back to the pool. The callback may leave statements
behind that nobody waits for, and the connection may fail at any time. Each step on the handle is one
that the handle's own machine takes, so that what holds of a handle holds here (`World.Inv`).
-/

namespace Albusforge.Db

open Lib

inductive Lease
  | none
  | reused
  | destroyed

inductive Phase (α : Type)
  | acquiring
  | acquired
  /-- It waits for its `BEGIN`. -/
  | beginning (i : ℕ)
  | reading
  /-- It waits for its `COMMIT`. -/
  | committing (i : ℕ) (value : α)
  /-- It waits for a call of `close`. -/
  | closing (k : ℕ) (value : α)
  /-- In `finally`, it waits for the call of `close` that has no time. -/
  | failing
  | ended (lease : Lease) (value : Option α)

structure World (α : Type) where
  handle : Handle
  connectionError : Bool
  phase : Phase α
  /-- where its `COMMIT` stands among what was sent -/
  commit : Option ℕ

variable {α : Type}

def Phase.lends : Phase α → Bool
  | reading | committing .. | closing .. | failing => true
  | ended .none _ => false
  | ended .. => true
  | acquiring | acquired | beginning _ => false

def Phase.listens : Phase α → Bool
  | acquiring => false
  | ended .. => false
  | _ => true

/-- What others do to the handle. The callback has no `close`. -/
def HandleEvent.others (phase : Phase α) : HandleEvent → Bool
  | queries _ => phase.lends
  | closes _ => false
  | _ => true

def commitSql : Text := js "COMMIT"

/-- What is thrown ends in `finally`, with `clean` false. -/
def World.fail (w : World α) : World α := { w with handle := w.handle.close false, phase := .failing }

def World.start (w : World α) (beginSql : Text) : World α :=
  if w.connectionError then w.fail
  else { w with handle := w.handle.query beginSql, phase := .beginning w.handle.sent.length }

def World.read (w : World α) : Option α → World α
  | none => w.fail
  | some value =>
    if w.connectionError then w.fail
    else { w with
      handle := w.handle.query commitSql
      phase := .committing w.handle.sent.length value
      commit := some w.handle.sent.length }

/-- What follows on the call of `close`. -/
def World.finish (w : World α) (value : α) : Closing → World α
  | .resolved => if w.connectionError then w.fail else { w with phase := .ended .reused (some value) }
  | _ => w.fail

inductive Event (α : Type)
  | handle (e : HandleEvent)
  /-- `"error"` on the connection -/
  | errs
  | connects (succeeds : Bool)
  | starts
  | begun
  | reads (result : Option α)
  | committed
  | closed
  | releases

inductive Step (beginSql : Text) (w : World α) : Event α → World α → Prop
  | handle {e : HandleEvent} {h : Handle} : w.handle.Step e h → e.others w.phase = true →
      Step beginSql w (.handle e) { w with handle := h }
  | errs : w.phase.listens = true → Step beginSql w .errs { w with connectionError := true }
  | connects : w.phase = .acquiring → Step beginSql w (.connects true) { w with phase := .acquired }
  | refused : w.phase = .acquiring → Step beginSql w (.connects false) { w with phase := .ended .none none }
  | starts : w.phase = .acquired → Step beginSql w .starts (w.start beginSql)
  | begun {i : ℕ} {s : Sent} : w.phase = .beginning i → w.handle.sent[i]? = some s → s.settled = some true →
      Step beginSql w .begun { w with phase := .reading }
  | notBegun {i : ℕ} {s : Sent} : w.phase = .beginning i → w.handle.sent[i]? = some s → s.settled = some false →
      Step beginSql w .begun w.fail
  | reads (result : Option α) : w.phase = .reading → Step beginSql w (.reads result) (w.read result)
  | committed {i : ℕ} {value : α} {s : Sent} : w.phase = .committing i value → w.handle.sent[i]? = some s →
      s.settled = some true →
      Step beginSql w .committed
        { w with handle := w.handle.close true, phase := .closing w.handle.closes.length value }
  | notCommitted {i : ℕ} {value : α} {s : Sent} : w.phase = .committing i value → w.handle.sent[i]? = some s →
      s.settled = some false → Step beginSql w .committed w.fail
  | closed {k : ℕ} {value : α} {c : Closing} : w.phase = .closing k value → w.handle.closes[k]? = some c →
      c ≠ .pending → Step beginSql w .closed (w.finish value c)
  | releases : w.phase = .failing → Step beginSql w .releases { w with phase := .ended .destroyed none }

def managedTransaction (α : Type) (beginSql : Text) : Machine (World α) (Event α) where
  init w := w = ⟨.new, false, .acquiring, none⟩
  step := Step beginSql

def readSnapshot (α : Type) : Machine (World α) (Event α) :=
  managedTransaction α (js "BEGIN ISOLATION LEVEL REPEATABLE READ READ ONLY")

def writeTransaction (α : Type) : Machine (World α) (Event α) :=
  managedTransaction α (js "BEGIN ISOLATION LEVEL READ COMMITTED READ WRITE")

/-! ## What every step keeps -/

/-- The `COMMIT` has been sent, and has succeeded if `settled` says so. -/
def World.Commits (w : World α) (i : ℕ) (settled : Option Bool) : Prop :=
  w.commit = some i ∧ ∃ s, w.handle.sent[i]? = some s ∧ s.statement = .issued commitSql ∧
    ∀ b, settled = some b → s.settled = some b

/-- The transaction has been committed: the `COMMIT` was fulfilled. -/
def World.Committed (w : World α) : Prop := ∃ i, w.Commits i (some true)

def World.Known (w : World α) : Prop :=
  match w.phase with
  | .acquiring | .acquired | .ended .none none => w.handle = .new
  | .beginning _ | .reading => w.handle.closed = false
  | .committing i _ => w.handle.closed = false ∧ w.Commits i none
  | .closing _ _ => w.Committed
  | .failing | .ended .destroyed none => w.handle.closed = true
  | .ended .reused (some _) => w.Committed ∧ .resolved ∈ w.handle.closes ∧ w.connectionError = false
  | .ended _ _ => False

structure World.Inv (w : World α) : Prop where
  handle : w.handle.Inv
  known : w.Known

theorem World.Inv.fails {w : World α} (hI : w.handle.Inv) : w.fail.Inv := ⟨hI.closing false, rfl⟩

section Steps

variable {w w' : World α} {i : ℕ}

theorem query_sent {h : Handle} (hopen : h.closed = false) (sql : Text) :
    (h.query sql).closed = false ∧ (h.query sql).sent[h.sent.length]? = some ⟨.issued sql, none, none⟩ := by
  unfold Handle.query
  rw [hopen, if_neg Bool.false_ne_true]
  exact ⟨rfl, List.getElem?_concat_length⟩

theorem World.Commits.handle {settled : Option Bool} (hcommits : w.Commits i settled) {e : HandleEvent} {h : Handle}
    (hs : w.handle.Step e h) : World.Commits { w with handle := h } i settled := by
  obtain ⟨hcommit, s, hsent, hstatement, hsettled⟩ := hcommits
  obtain ⟨s', hsent', hstatement', hkept⟩ := step_sent hsent hs
  exact ⟨hcommit, s', hsent', hstatement'.trans hstatement, fun b hb => hkept b (hsettled b hb)⟩

/-- **Whatever happens to the handle**, what is known stays so. -/
theorem World.Known.handle (hknown : w.Known) {e : HandleEvent} {h : Handle} (hs : w.handle.Step e h)
    (hothers : e.others w.phase = true) : World.Known { w with handle := h } := by
  have hcloses : ∀ timeLeft, e ≠ .closes timeLeft := by
    intro timeLeft he
    rw [he] at hothers
    cases hothers
  -- nobody else has a handle that is new
  have hnew : w.phase.lends = false → w.handle ≠ .new := by
    intro hlends hhandle
    rw [hhandle] at hs
    rcases step_new hs with ⟨sql, rfl⟩ | ⟨timeLeft, rfl⟩
    · rw [HandleEvent.others, hlends] at hothers
      cases hothers
    · exact hcloses timeLeft rfl
  obtain ⟨handle, connectionError, phase, commit⟩ := w
  cases phase with
  | acquiring => exact absurd hknown (hnew rfl)
  | acquired => exact absurd hknown (hnew rfl)
  | beginning i => exact (step_open hcloses hs).trans hknown
  | reading => exact (step_open hcloses hs).trans hknown
  | committing i value => exact ⟨(step_open hcloses hs).trans hknown.1, hknown.2.handle hs⟩
  | closing k value =>
    obtain ⟨i, hcommits⟩ := hknown
    exact ⟨i, hcommits.handle hs⟩
  | failing => exact (step_fenced hknown hs).1
  | ended lease value =>
    cases lease with
    | none =>
      cases value with
      | none => exact absurd hknown (hnew rfl)
      | some value => exact hknown.elim
    | reused =>
      cases value with
      | none => exact hknown.elim
      | some value =>
        obtain ⟨⟨i, hcommits⟩, hresolved, hhealthy⟩ := hknown
        exact ⟨⟨i, hcommits.handle hs⟩, step_resolved hresolved hs, hhealthy⟩
    | destroyed =>
      cases value with
      | none => exact (step_fenced hknown hs).1
      | some value => exact hknown.elim

theorem World.Inv.starts (hI : w.Inv) (hphase : w.phase = .acquired) (beginSql : Text) : (w.start beginSql).Inv := by
  have hnew := hI.known
  unfold World.Known at hnew
  rw [hphase] at hnew
  unfold World.start
  split
  · exact World.Inv.fails hI.handle
  · refine ⟨hI.handle.queries beginSql, (query_sent ?_ beginSql).1⟩
    rw [hnew]
    rfl

theorem World.Inv.reads (hI : w.Inv) (hphase : w.phase = .reading) (result : Option α) : (w.read result).Inv := by
  have hopen := hI.known
  unfold World.Known at hopen
  rw [hphase] at hopen
  cases result with
  | none => exact World.Inv.fails hI.handle
  | some value =>
    simp only [World.read]
    split
    · exact World.Inv.fails hI.handle
    · obtain ⟨hstill, hlast⟩ := query_sent hopen commitSql
      exact ⟨hI.handle.queries commitSql, hstill, rfl, _, hlast, rfl, nofun⟩

theorem World.Inv.commits (hI : w.Inv) {value : α} {s : Sent} (hphase : w.phase = .committing i value)
    (hs : w.handle.sent[i]? = some s) (hsettled : s.settled = some true) (k : ℕ) :
    World.Inv { w with handle := w.handle.close true, phase := .closing k value } := by
  have hknown := hI.known
  unfold World.Known at hknown
  rw [hphase] at hknown
  obtain ⟨-, hcommit, s', hs', hstatement, -⟩ := hknown
  obtain rfl := Option.some.inj (hs.symm.trans hs')
  refine ⟨hI.handle.closing true, i, hcommit, s, hs, hstatement, fun b hb => ?_⟩
  rw [← Option.some.inj hb, hsettled]

theorem World.Inv.finishes (hI : w.Inv) {k : ℕ} {value : α} {c : Closing} (hphase : w.phase = .closing k value)
    (hc : w.handle.closes[k]? = some c) : (w.finish value c).Inv := by
  have hknown := hI.known
  unfold World.Known at hknown
  rw [hphase] at hknown
  cases c with
  | pending => exact World.Inv.fails hI.handle
  | rejected => exact World.Inv.fails hI.handle
  | resolved =>
    simp only [World.finish]
    split
    · exact World.Inv.fails hI.handle
    · rename_i hhealthy
      exact ⟨hI.handle, hknown, List.mem_of_getElem? hc, Bool.eq_false_iff.mpr hhealthy⟩

theorem managed_step {beginSql : Text} {e : Event α} (hI : w.Inv) (hs : Step beginSql w e w') : w'.Inv := by
  cases hs with
  | handle hstep hothers => exact ⟨inv_step hI.handle hstep, hI.known.handle hstep hothers⟩
  | errs hlistens =>
    refine ⟨hI.handle, ?_⟩
    have hknown := hI.known
    obtain ⟨handle, connectionError, phase, commit⟩ := w
    cases phase with
    | ended lease value => cases hlistens
    | _ => exact hknown
  | connects hphase =>
    have hknown := hI.known
    unfold World.Known at hknown
    rw [hphase] at hknown
    exact ⟨hI.handle, hknown⟩
  | refused hphase =>
    have hknown := hI.known
    unfold World.Known at hknown
    rw [hphase] at hknown
    exact ⟨hI.handle, hknown⟩
  | starts hphase => exact hI.starts hphase beginSql
  | begun hphase _ _ =>
    have hknown := hI.known
    unfold World.Known at hknown
    rw [hphase] at hknown
    exact ⟨hI.handle, hknown⟩
  | notBegun _ _ _ => exact World.Inv.fails hI.handle
  | reads result hphase => exact hI.reads hphase result
  | committed hphase hs hsettled => exact hI.commits hphase hs hsettled _
  | notCommitted _ _ _ => exact World.Inv.fails hI.handle
  | closed hphase hc _ => exact hI.finishes hphase hc
  | releases hphase =>
    have hknown := hI.known
    unfold World.Known at hknown
    rw [hphase] at hknown
    exact ⟨hI.handle, hknown⟩

end Steps

theorem managed_run {beginSql : Text} {es : List (Event α)} {w : World α}
    (hrun : (managedTransaction α beginSql).Run es w) : w.Inv := by
  refine Machine.RunWhere.invariant (I := fun _ w => w.Inv) ?_ (fun _ _ _ _ hI hs _ => managed_step hI hs) hrun
  intro w hinit
  obtain rfl : w = ⟨.new, false, .acquiring, none⟩ := hinit
  exact ⟨inv_new, rfl⟩

/-! ## The handle and what rests on it -/

theorem World.Inv.ended {w : World α} (hI : w.Inv) {lease : Lease} {value : Option α} (hphase : w.phase = .ended lease value) :
    ((∃ v, value = some v) ∧ lease = .reused ∧ w.Committed ∧ w.handle.Clean ∧ w.connectionError = false) ∨
      (value = none ∧ lease = .destroyed) ∨ value = none ∧ lease = .none ∧ w.handle = .new := by
  have hknown := hI.known
  unfold World.Known at hknown
  rw [hphase] at hknown
  cases lease with
  | none =>
    cases value with
    | none => exact .inr (.inr ⟨rfl, rfl, hknown⟩)
    | some v => exact hknown.elim
  | reused =>
    cases value with
    | none => exact hknown.elim
    | some v =>
      obtain ⟨hcommitted, hresolved, hhealthy⟩ := hknown
      exact .inl ⟨⟨v, rfl⟩, rfl, hcommitted, hI.handle.clean (hI.handle.closes hresolved), hhealthy⟩
  | destroyed =>
    cases value with
    | none => exact .inr (.inl ⟨rfl, rfl⟩)
    | some v => exact hknown.elim

/-- **A closed handle cannot touch the connection.** From any call of `close` on nothing more reaches it
through the handle. The `ROLLBACK` is sent once at most, last, and after all else has settled. A call of
`close` that resolves leaves the handle clean, and one that waits can be rejected by its timer at any time.
So `readSnapshot` and `writeTransaction` return a value only when their `COMMIT` has been fulfilled, and the
connection goes back to the pool then, clean, and in no other case. -/
theorem closed_handle_untouchable (α : Type) :
    (∀ es h, handles.Run es h →
      (∀ timeLeft es' h', handles.Steps (h.close timeLeft) es' h' → h'.reached = h.reached) ∧
      h.sent.countP Sent.isRollback ≤ 1 ∧
      (∀ front s rest, h.sent = front ++ s :: rest → s.statement = .rollback →
        (∀ x ∈ front, x.settled.isSome = true) ∧ rest = []) ∧
      (.resolved ∈ h.closes → h.Clean) ∧
      ∀ k, h.closes[k]? = some .pending →
        ∃ h', h.Step (.timerFires k) h' ∧ h'.closes[k]? = some .rejected) ∧
    ∀ m, m = readSnapshot α ∨ m = writeTransaction α → ∀ es w, m.Run es w →
      ∀ lease value, w.phase = .ended lease value →
        ((∃ v, value = some v) ∧ lease = .reused ∧ w.Committed ∧ w.handle.Clean ∧ w.connectionError = false) ∨
          (value = none ∧ lease = .destroyed) ∨ value = none ∧ lease = .none ∧ w.handle = .new := by
  constructor
  · intro es h hrun
    have hI := inv_run hrun
    refine ⟨fun timeLeft es' h' hsteps => ?_, hI.rollbacks, fun front s rest => hI.before_rollback,
      fun hmem => hI.clean (hI.closes hmem), fun k hk => ⟨_, .timerFires hk, ?_⟩⟩
    · obtain ⟨hclosed, hreached⟩ := close_fenced h timeLeft
      exact (steps_fenced hclosed hsteps).2.trans hreached
    · exact List.getElem?_set_self (List.getElem?_eq_some_iff.mp hk).1
  · intro m hm es w hrun lease value hphase
    rcases hm with rfl | rfl
    · exact (managed_run hrun).ended hphase
    · exact (managed_run hrun).ended hphase

/-- A snapshot that comes to its end with a value. -/
theorem readSnapshot_returns : ∃ es w, (readSnapshot ℕ).Run es w ∧ w.phase = .ended .reused (some 7) ∧
    w.Committed ∧ w.handle.Clean := by
  -- the server has come to all that was sent before
  have hserved : ∀ (h : Handle) {i : ℕ} {s : Sent} (opens : Bool), h.sent[i]? = some s → s.executed = none →
      (h.sent.take i).all (fun s => s.executed.isSome) = true →
      h.Step (.served i true opens) { h with
        sent := h.sent.set i { s with executed := some true }
        transaction := s.statement.leavesOpen opens } := by
    intro h i s opens hs hnone hbefore
    refine .served true opens hs hnone fun j hj s' hs' => List.all_eq_true.mp hbefore s' ?_
    exact List.mem_of_getElem? (i := j) (by rw [List.getElem?_take_of_lt hj, hs'])
  have hsteps : ∃ es w, (readSnapshot ℕ).Steps ⟨.new, false, .acquiring, none⟩ es w ∧ w.phase = .ended .reused (some 7) :=
    ⟨_, _, .step (Step.connects rfl) <| .step (Step.starts rfl) <|
      .step (Step.handle (hserved _ (i := 0) true rfl rfl rfl) rfl) <|
      .step (Step.handle (Handle.Step.settles (i := 0) true rfl rfl fun _ => rfl) rfl) <|
      .step (Step.begun rfl rfl rfl) <| .step (Step.reads (some 7) rfl) <|
      .step (Step.handle (hserved _ (i := 1) false rfl rfl rfl) rfl) <|
      .step (Step.handle (Handle.Step.settles (i := 1) true rfl rfl fun _ => rfl) rfl) <|
      .step (Step.committed rfl rfl rfl) <|
      .step (Step.handle (Handle.Step.drained false rfl nofun) rfl) <|
      .step (Step.handle (hserved _ (i := 2) false rfl rfl rfl) rfl) <|
      .step (Step.handle (Handle.Step.settles (i := 2) true rfl rfl fun _ => rfl) rfl) <|
      .step (Step.handle (Handle.Step.rolledBack rfl rfl rfl) rfl) <|
      .step (Step.handle (Handle.Step.toldResolved (k := 0) rfl rfl) rfl) <|
      .step (Step.closed rfl rfl nofun) <| .refl _, rfl⟩
  obtain ⟨es, w, hsteps, hphase⟩ := hsteps
  have hrun : (readSnapshot ℕ).Run es w := Machine.Run.steps (.init rfl) hsteps
  rcases (closed_handle_untouchable ℕ).2 _ (.inl rfl) _ _ hrun _ _ hphase with
    ⟨_, _, hcommitted, hclean, _⟩ | ⟨hnone, _⟩ | ⟨hnone, _⟩
  · exact ⟨es, w, hrun, hphase, hcommitted, hclean⟩
  · cases hnone
  · cases hnone

end Albusforge.Db
