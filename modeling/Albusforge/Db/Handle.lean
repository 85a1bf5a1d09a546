import Albusforge.Lib.JsText
import Albusforge.Lib.Machine

/-!
# A database handle and its fence

`createClientDb` lends out a connection. Statements go to the connection through the handle until the
first `close`; from then on the handle refuses them, waits for those in flight, and rolls back. Several
calls of `close` share that cleanup, each with a timer of its own.

The server gets the statements in the order they were sent and may execute each or lose it. A promise
may be rejected at any time and is fulfilled only by a statement that was executed.

**A cleanup that has come to its end leaves nothing in flight and no transaction open**
(`Handle.Inv`, `Inv.clean`).
-/

namespace Albusforge.Db

open Lib

/-! ## The handle -/

inductive Statement
  | issued (sql : Text)
  | rollback

structure Sent where
  statement : Statement
  executed : Option Bool
  settled : Option Bool

/-- The promise that the calls of `close` share. -/
inductive Cleanup
  | none
  | draining (waiting : List ℕ)
  /-- It waits for its `ROLLBACK`. -/
  | rollingBack (i : ℕ)
  | resolved
  | rejected

/-- The promise of one call of `close`. -/
inductive Closing
  | pending
  | resolved
  | rejected

structure Handle where
  closed : Bool
  issued : Bool
  sent : List Sent
  transaction : Bool
  cleanup : Cleanup
  closes : List Closing

def Handle.new : Handle := ⟨false, false, [], false, .none, []⟩

def Handle.inFlight (h : Handle) : List ℕ :=
  (List.range h.sent.length).filter fun i => (h.sent[i]?.bind Sent.settled).isNone

/-- `query` of the fenced client -/
def Handle.query (h : Handle) (sql : Text) : Handle :=
  if h.closed then h else { h with issued := true, sent := h.sent ++ [⟨.issued sql, none, none⟩] }

/-- `close`, and whether it has any time left -/
def Handle.close (h : Handle) (timeLeft : Bool) : Handle :=
  let h := { h with closed := true }
  if timeLeft then
    { h with
      cleanup := match h.cleanup with
        | .none => .draining h.inFlight
        | cleanup => cleanup
      closes := h.closes ++ [.pending] }
  else { h with closes := h.closes ++ [.rejected] }

/-- `drainAndRollback`, after the wait, and whether that has outlasted the budget -/
def Handle.drain (h : Handle) (late : Bool) : Handle :=
  if !h.issued then { h with cleanup := .resolved }
  else if late then { h with cleanup := .rejected }
  else { h with sent := h.sent ++ [⟨.rollback, none, none⟩], cleanup := .rollingBack h.sent.length }

def Statement.leavesOpen (opens : Bool) : Statement → Bool
  | issued _ => opens
  | rollback => false

inductive HandleEvent
  | queries (sql : Text)
  | closes (timeLeft : Bool)
  | served (i : ℕ) (executes opens : Bool)
  | settles (i : ℕ) (fulfilled : Bool)
  | drained (late : Bool)
  | rolledBack
  | timerFires (k : ℕ)
  /-- The shared cleanup settles a call of `close`. -/
  | told (k : ℕ)

inductive Handle.Step (h : Handle) : HandleEvent → Handle → Prop
  | queries (sql : Text) : Step h (.queries sql) (h.query sql)
  | closes (timeLeft : Bool) : Step h (.closes timeLeft) (h.close timeLeft)
  | served {i : ℕ} {s : Sent} (executes opens : Bool) : h.sent[i]? = some s → s.executed = none →
      (∀ j < i, ∀ s', h.sent[j]? = some s' → s'.executed.isSome = true) →
      Step h (.served i executes opens)
        { h with
          sent := h.sent.set i { s with executed := some executes }
          transaction := if executes then s.statement.leavesOpen opens else h.transaction }
  | settles {i : ℕ} {s : Sent} (fulfilled : Bool) : h.sent[i]? = some s → s.settled = none →
      (fulfilled = true → s.executed = some true) →
      Step h (.settles i fulfilled) { h with sent := h.sent.set i { s with settled := some fulfilled } }
  | drained {waiting : List ℕ} (late : Bool) : h.cleanup = .draining waiting →
      (∀ i ∈ waiting, ∀ s, h.sent[i]? = some s → s.settled.isSome = true) →
      Step h (.drained late) (h.drain late)
  | rolledBack {i : ℕ} {s : Sent} {fulfilled : Bool} : h.cleanup = .rollingBack i → h.sent[i]? = some s →
      s.settled = some fulfilled →
      Step h .rolledBack { h with cleanup := if fulfilled then .resolved else .rejected }
  | timerFires {k : ℕ} : h.closes[k]? = some .pending →
      Step h (.timerFires k) { h with closes := h.closes.set k .rejected }
  | toldResolved {k : ℕ} : h.closes[k]? = some .pending → h.cleanup = .resolved →
      Step h (.told k) { h with closes := h.closes.set k .resolved }
  | toldRejected {k : ℕ} : h.closes[k]? = some .pending → h.cleanup = .rejected →
      Step h (.told k) { h with closes := h.closes.set k .rejected }

def handles : Machine Handle HandleEvent where
  init h := h = .new
  step := Handle.Step

/-! ## What every step keeps -/

def Handle.Clean (h : Handle) : Prop := (∀ s ∈ h.sent, s.settled.isSome = true) ∧ h.transaction = false

def Plain (sent : List Sent) : Prop := ∀ s ∈ sent, ∃ sql, s.statement = .issued sql

/-- The `ROLLBACK` has been sent, behind all else and after all else had settled. -/
structure RollsBack (h : Handle) (front : List Sent) (last : Sent) : Prop where
  sent : h.sent = front ++ [last]
  statement : last.statement = .rollback
  plain : Plain front
  settled : ∀ s ∈ front, s.settled.isSome = true
  executed : last.executed = some true → h.transaction = false ∧ ∀ s ∈ front, s.executed.isSome = true

def Handle.Stage (h : Handle) : Prop :=
  match h.cleanup with
  | .none => Plain h.sent
  | .draining waiting => Plain h.sent ∧ ∀ (i : ℕ) s, h.sent[i]? = some s → s.settled = none → i ∈ waiting
  | .rollingBack i => ∃ front last, RollsBack h front last ∧ i = front.length
  | .resolved => h.issued = false ∨ ∃ front last, RollsBack h front last ∧ last.settled = some true
  | .rejected => Plain h.sent ∨ ∃ front last, RollsBack h front last

structure Handle.Inv (h : Handle) : Prop where
  fenced : h.cleanup ≠ .none → h.closed = true
  unissued : h.issued = false → h.sent = [] ∧ h.transaction = false
  fulfilled : ∀ s ∈ h.sent, s.settled = some true → s.executed = some true
  stage : h.Stage
  closes : .resolved ∈ h.closes → h.cleanup = .resolved

theorem inv_new : Handle.new.Inv where
  fenced h := absurd rfl h
  unissued _ := ⟨rfl, rfl⟩
  fulfilled := nofun
  stage := nofun
  closes := nofun

theorem Handle.Inv.clean {h : Handle} (hI : h.Inv) (hresolved : h.cleanup = .resolved) : h.Clean := by
  have hstage := hI.stage
  unfold Handle.Stage at hstage
  rw [hresolved] at hstage
  rcases hstage with hunissued | ⟨front, last, hback, hlast⟩
  · obtain ⟨hsent, hnone⟩ := hI.unissued hunissued
    exact ⟨by rw [hsent]; nofun, hnone⟩
  · have hmem : last ∈ h.sent := by
      rw [hback.sent]
      exact List.mem_append_right _ List.mem_cons_self
    refine ⟨fun s hs => ?_, (hback.executed (hI.fulfilled last hmem hlast)).1⟩
    rw [hback.sent] at hs
    rcases List.mem_append.mp hs with hs | hs
    · exact hback.settled s hs
    · rw [List.mem_singleton.mp hs, hlast]
      rfl

section Steps

variable {h h' : Handle} {i : ℕ} {s s' : Sent}

theorem getElem?_snoc {front : List Sent} {last : Sent} (hs : (front ++ [last])[i]? = some s) :
    front[i]? = some s ∨ i = front.length ∧ s = last := by
  rcases Nat.lt_or_ge i front.length with hlt | hge
  · rw [List.getElem?_append_left hlt] at hs
    exact .inl hs
  · have hi := (List.getElem?_eq_some_iff.mp hs).1
    rw [List.length_append, List.length_singleton] at hi
    obtain rfl : i = front.length := by omega
    rw [List.getElem?_append_right (Nat.le_refl _), Nat.sub_self] at hs
    exact .inr ⟨rfl, (Option.some.inj hs).symm⟩

theorem set_snoc_front {front : List Sent} {last : Sent} (hs : front[i]? = some s) :
    (front ++ [last]).set i s' = front.set i s' ++ [last] :=
  List.set_append_left _ _ (List.getElem?_eq_some_iff.mp hs).1

theorem set_snoc_last {front : List Sent} {last : Sent} : (front ++ [last]).set front.length s' = front ++ [s'] := by
  rw [List.set_append_right _ _ (Nat.le_refl _), Nat.sub_self]
  rfl

theorem Plain.set {sent : List Sent} (hplain : Plain sent) (hs : sent[i]? = some s)
    (hstatement : s'.statement = s.statement) : Plain (sent.set i s') := by
  intro x hx
  rcases List.mem_or_eq_of_mem_set hx with hx | rfl
  · exact hplain x hx
  · rw [hstatement]
    exact hplain s (List.mem_of_getElem? hs)

theorem forall_set {P : Sent → Prop} {sent : List Sent} (hall : ∀ x ∈ sent, P x) (hs' : P s') :
    ∀ x ∈ sent.set i s', P x := by
  intro x hx
  rcases List.mem_or_eq_of_mem_set hx with hx | rfl
  · exact hall x hx
  · exact hs'

theorem Handle.Stage.keep (hstage : h.Stage) (hcleanup : h'.cleanup = h.cleanup) (hissued : h'.issued = h.issued)
    (hplain : Plain h.sent → Plain h'.sent)
    (hflight : ∀ (i : ℕ) s', h'.sent[i]? = some s' → s'.settled = none → ∃ s, h.sent[i]? = some s ∧ s.settled = none)
    (hback : ∀ front last, RollsBack h front last → ∃ front' last', RollsBack h' front' last' ∧
      front'.length = front.length ∧ (last.settled = some true → last'.settled = some true)) : h'.Stage := by
  unfold Handle.Stage at hstage ⊢
  rw [hcleanup]
  cases hnow : h.cleanup with
  | none =>
    rw [hnow] at hstage
    exact hplain hstage
  | draining waiting =>
    rw [hnow] at hstage
    refine ⟨hplain hstage.1, fun i s' hs' hnone => ?_⟩
    obtain ⟨s, hs, hwas⟩ := hflight i s' hs' hnone
    exact hstage.2 i s hs hwas
  | rollingBack i =>
    rw [hnow] at hstage
    obtain ⟨front, last, hrolls, hi⟩ := hstage
    obtain ⟨front', last', hrolls', hlength, _⟩ := hback front last hrolls
    exact ⟨front', last', hrolls', hi.trans hlength.symm⟩
  | resolved =>
    rw [hnow] at hstage
    rcases hstage with hunissued | ⟨front, last, hrolls, hlast⟩
    · exact .inl (hissued.trans hunissued)
    · obtain ⟨front', last', hrolls', _, hkept⟩ := hback front last hrolls
      exact .inr ⟨front', last', hrolls', hkept hlast⟩
  | rejected =>
    rw [hnow] at hstage
    rcases hstage with hplain' | ⟨front, last, hrolls⟩
    · exact .inl (hplain hplain')
    · obtain ⟨front', last', hrolls', _, _⟩ := hback front last hrolls
      exact .inr ⟨front', last', hrolls'⟩

theorem Handle.Stage.same (hstage : h.Stage) (hcleanup : h'.cleanup = h.cleanup) (hissued : h'.issued = h.issued)
    (hsent : h'.sent = h.sent) (htransaction : h'.transaction = h.transaction) : h'.Stage := by
  refine hstage.keep hcleanup hissued (fun hplain => hsent ▸ hplain) (fun i s hs hnone => ⟨s, hsent ▸ hs, hnone⟩) ?_
  intro front last hback
  refine ⟨front, last, ⟨hsent ▸ hback.sent, hback.statement, hback.plain, hback.settled, fun hlast => ?_⟩, rfl, id⟩
  rw [htransaction]
  exact hback.executed hlast

theorem inFlight_set (hs : h.sent[i]? = some s) (hflight : s'.settled = none → s.settled = none) (j : ℕ) (x : Sent)
    (hx : (h.sent.set i s')[j]? = some x) (hnone : x.settled = none) : ∃ y, h.sent[j]? = some y ∧ y.settled = none := by
  by_cases hij : i = j
  · subst hij
    rw [List.getElem?_set_self (List.getElem?_eq_some_iff.mp hs).1] at hx
    obtain rfl := Option.some.inj hx
    exact ⟨s, hs, hflight hnone⟩
  · rw [List.getElem?_set_ne hij] at hx
    exact ⟨x, hx, hnone⟩

theorem RollsBack.served {front : List Sent} {last : Sent} (hback : RollsBack h front last) {executes opens : Bool}
    (hs : h.sent[i]? = some s) (hnone : s.executed = none)
    (horder : ∀ j < i, ∀ s', h.sent[j]? = some s' → s'.executed.isSome = true) :
    ∃ front' last', RollsBack
      { h with
        sent := h.sent.set i { s with executed := some executes }
        transaction := if executes then s.statement.leavesOpen opens else h.transaction } front' last' ∧
      front'.length = front.length ∧ (last.settled = some true → last'.settled = some true) := by
  have hsnoc := hs
  rw [hback.sent] at hsnoc
  rcases getElem?_snoc hsnoc with hfront | ⟨rfl, rfl⟩
  · refine ⟨front.set i { s with executed := some executes }, last, ⟨?_, hback.statement, hback.plain.set hfront rfl,
      forall_set hback.settled (hback.settled s (List.mem_of_getElem? hfront)), fun hlast => ?_⟩, List.length_set, id⟩
    · simp only [hback.sent]
      exact set_snoc_front hfront
    · -- the rollback had been executed before this one
      have hdone := (hback.executed hlast).2 s (List.mem_of_getElem? hfront)
      rw [hnone] at hdone
      cases hdone
  · refine ⟨front, { s with executed := some executes }, ⟨?_, hback.statement, hback.plain, hback.settled,
      fun hlast => ⟨?_, fun x hx => ?_⟩⟩, rfl, id⟩
    · simp only [hback.sent]
      exact set_snoc_last
    · obtain rfl : executes = true := Option.some.inj hlast
      simp only [if_true, hback.statement]
      rfl
    · obtain ⟨j, hj⟩ := List.getElem?_of_mem hx
      have hlt := (List.getElem?_eq_some_iff.mp hj).1
      refine horder j hlt x ?_
      rw [hback.sent, List.getElem?_append_left hlt, hj]

theorem RollsBack.settles {front : List Sent} {last : Sent} (hback : RollsBack h front last) {fulfilled : Bool}
    (hs : h.sent[i]? = some s) (hnone : s.settled = none) :
    ∃ front' last', RollsBack { h with sent := h.sent.set i { s with settled := some fulfilled } } front' last' ∧
      front'.length = front.length ∧ (last.settled = some true → last'.settled = some true) := by
  have hsnoc := hs
  rw [hback.sent] at hsnoc
  rcases getElem?_snoc hsnoc with hfront | ⟨rfl, rfl⟩
  · have hdone := hback.settled s (List.mem_of_getElem? hfront)
    rw [hnone] at hdone
    cases hdone
  · refine ⟨front, { s with settled := some fulfilled }, ⟨?_, hback.statement, hback.plain, hback.settled,
      hback.executed⟩, rfl, fun hlast => ?_⟩
    · simp only [hback.sent]
      exact set_snoc_last
    · rw [hnone] at hlast
      cases hlast

theorem Handle.Inv.queries (hI : h.Inv) (sql : Text) : (h.query sql).Inv := by
  unfold Handle.query
  split
  · exact hI
  · rename_i hopen
    have hnone : h.cleanup = .none := by
      by_contra hcleanup
      exact hopen (hI.fenced hcleanup)
    have hplain := hI.stage
    unfold Handle.Stage at hplain
    rw [hnone] at hplain
    refine ⟨hI.fenced, nofun, fun s hs hfulfilled => ?_, ?_, hI.closes⟩
    · rcases List.mem_append.mp hs with hs | hs
      · exact hI.fulfilled s hs hfulfilled
      · rw [List.mem_singleton.mp hs] at hfulfilled
        cases hfulfilled
    · unfold Handle.Stage
      simp only [hnone]
      intro s hs
      rcases List.mem_append.mp hs with hs | hs
      · exact hplain s hs
      · exact ⟨sql, by rw [List.mem_singleton.mp hs]⟩

theorem mem_inFlight (hs : h.sent[i]? = some s) (hnone : s.settled = none) : i ∈ h.inFlight := by
  refine List.mem_filter.mpr ⟨List.mem_range.mpr (List.getElem?_eq_some_iff.mp hs).1, ?_⟩
  rw [hs, Option.bind_some, hnone]
  rfl

theorem Handle.Inv.closing (hI : h.Inv) (timeLeft : Bool) : (h.close timeLeft).Inv := by
  have hresolved : ∀ c : Closing, c ≠ .resolved → Closing.resolved ∈ h.closes ++ [c] → h.cleanup = .resolved := by
    intro c hc hmem
    rcases List.mem_append.mp hmem with hmem | hmem
    · exact hI.closes hmem
    · exact absurd (List.mem_singleton.mp hmem).symm hc
  cases timeLeft with
  | false =>
    exact ⟨fun _ => rfl, hI.unissued, hI.fulfilled, hI.stage.same rfl rfl rfl rfl, hresolved .rejected (by simp)⟩
  | true =>
    by_cases hcleanup : h.cleanup = .none
    · have hclose : h.close true =
          { h with closed := true, cleanup := .draining h.inFlight, closes := h.closes ++ [.pending] } := by
        simp [Handle.close, hcleanup, Handle.inFlight]
      rw [hclose]
      refine ⟨fun _ => rfl, hI.unissued, hI.fulfilled, ?_, fun hmem => ?_⟩
      · have hstage := hI.stage
        unfold Handle.Stage at hstage
        rw [hcleanup] at hstage
        exact ⟨hstage, fun i s hs hnone => mem_inFlight hs hnone⟩
      · rw [hresolved .pending (by simp) hmem] at hcleanup
        cases hcleanup
    · -- a later call shares the cleanup of the first
      have hclose : h.close true = { h with closed := true, closes := h.closes ++ [.pending] } := by
        cases hnow : h.cleanup <;> simp_all [Handle.close]
      rw [hclose]
      exact ⟨fun _ => rfl, hI.unissued, hI.fulfilled, hI.stage.same rfl rfl rfl rfl, hresolved .pending (by simp)⟩

/-- **The rollback is sent after the wait**: what was in flight when the fence went up has settled, and
nothing has been sent since. -/
theorem Handle.Inv.drains (hI : h.Inv) {waiting : List ℕ} (hcleanup : h.cleanup = .draining waiting)
    (hwaited : ∀ i ∈ waiting, ∀ s, h.sent[i]? = some s → s.settled.isSome = true) (late : Bool) :
    (h.drain late).Inv := by
  have hclosed := hI.fenced (by rw [hcleanup]; simp)
  have hnone : ∀ c : Cleanup, .resolved ∈ h.closes → c = .resolved := by
    intro c hmem
    have hresolved := hI.closes hmem
    rw [hcleanup] at hresolved
    cases hresolved
  have hstage := hI.stage
  unfold Handle.Stage at hstage
  rw [hcleanup] at hstage
  unfold Handle.drain
  split
  · rename_i hunissued
    exact ⟨fun _ => hclosed, hI.unissued, hI.fulfilled, .inl (by simpa using hunissued), fun _ => rfl⟩
  · rename_i hissued
    split
    · exact ⟨fun _ => hclosed, hI.unissued, hI.fulfilled, .inl hstage.1, hnone _⟩
    · refine ⟨fun _ => hclosed, fun hfalse => absurd hfalse (by simpa using hissued), fun s hs hfulfilled => ?_, ?_, hnone _⟩
      · rcases List.mem_append.mp hs with hs | hs
        · exact hI.fulfilled s hs hfulfilled
        · rw [List.mem_singleton.mp hs] at hfulfilled
          cases hfulfilled
      · refine ⟨h.sent, ⟨.rollback, none, none⟩, ⟨rfl, rfl, hstage.1, fun s hs => ?_, nofun⟩, rfl⟩
        obtain ⟨i, hi⟩ := List.getElem?_of_mem hs
        cases hsettled : s.settled with
        | some fulfilled => rfl
        | none =>
          have hdone := hwaited i (hstage.2 i s hi hsettled) s hi
          rw [hsettled] at hdone
          cases hdone

theorem Handle.Inv.rolled (hI : h.Inv) {fulfilled : Bool} (hcleanup : h.cleanup = .rollingBack i)
    (hs : h.sent[i]? = some s) (hsettled : s.settled = some fulfilled) :
    Handle.Inv { h with cleanup := if fulfilled then .resolved else .rejected } := by
  have hstage := hI.stage
  unfold Handle.Stage at hstage
  rw [hcleanup] at hstage
  obtain ⟨front, last, hback, rfl⟩ := hstage
  obtain rfl : last = s := by
    rw [hback.sent, List.getElem?_append_right (Nat.le_refl _), Nat.sub_self] at hs
    exact Option.some.inj hs
  have hback' : ∀ c : Cleanup, RollsBack { h with cleanup := c } front last := fun _ =>
    ⟨hback.sent, hback.statement, hback.plain, hback.settled, hback.executed⟩
  refine ⟨fun _ => hI.fenced (by rw [hcleanup]; simp), hI.unissued, hI.fulfilled, ?_, fun hmem => ?_⟩
  · cases fulfilled with
    | true => exact .inr ⟨front, last, hback' _, hsettled⟩
    | false => exact .inr ⟨front, last, hback' _⟩
  · have hresolved := hI.closes hmem
    rw [hcleanup] at hresolved
    cases hresolved

theorem Handle.Inv.tells (hI : h.Inv) {k : ℕ} {c : Closing} (hc : c = .resolved → h.cleanup = .resolved) :
    Handle.Inv { h with closes := h.closes.set k c } := by
  refine ⟨hI.fenced, hI.unissued, hI.fulfilled, hI.stage.same rfl rfl rfl rfl, fun hmem => ?_⟩
  rcases List.mem_or_eq_of_mem_set hmem with hmem | rfl
  · exact hI.closes hmem
  · exact hc rfl

end Steps

theorem inv_step {h h' : Handle} {e : HandleEvent} (hI : h.Inv) (hs : h.Step e h') : h'.Inv := by
  cases hs with
  | queries sql => exact hI.queries sql
  | closes timeLeft => exact hI.closing timeLeft
  | @served i s executes opens hs hnone horder =>
    have hmem := List.mem_of_getElem? hs
    refine ⟨hI.fenced, fun hunissued => ?_, forall_set hI.fulfilled fun hfulfilled => ?_, ?_, hI.closes⟩
    · have hempty := (hI.unissued hunissued).1
      rw [hempty] at hmem
      cases hmem
    · have hdone := hI.fulfilled s hmem hfulfilled
      rw [hnone] at hdone
      cases hdone
    · exact hI.stage.keep rfl rfl (fun hplain => hplain.set hs rfl) (inFlight_set hs id)
        fun front last hback => hback.served hs hnone horder
  | @settles i s fulfilled hs hnone hexecuted =>
    have hmem := List.mem_of_getElem? hs
    refine ⟨hI.fenced, fun hunissued => ?_, forall_set hI.fulfilled fun hfulfilled => ?_, ?_, hI.closes⟩
    · have hempty := (hI.unissued hunissued).1
      rw [hempty] at hmem
      cases hmem
    · exact hexecuted (Option.some.inj hfulfilled)
    · exact hI.stage.keep rfl rfl (fun hplain => hplain.set hs rfl) (inFlight_set hs nofun)
        fun front last hback => hback.settles hs hnone
  | drained late hcleanup hwaited => exact hI.drains hcleanup hwaited late
  | rolledBack hcleanup hs hsettled => exact hI.rolled hcleanup hs hsettled
  | timerFires hpending => exact hI.tells nofun
  | toldResolved hpending hresolved => exact hI.tells fun _ => hresolved
  | toldRejected hpending hrejected => exact hI.tells nofun

theorem inv_run {es : List HandleEvent} {h : Handle} (hrun : handles.Run es h) : h.Inv := by
  refine Machine.RunWhere.invariant (I := fun _ h => h.Inv) ?_ (fun _ _ _ _ hI hs _ => inv_step hI hs) hrun
  intro h hinit
  obtain rfl : h = .new := hinit
  exact inv_new

/-! ## The fence -/

def Sent.sql? (s : Sent) : Option Text :=
  match s.statement with
  | .issued sql => some sql
  | .rollback => none

def Sent.isRollback (s : Sent) : Bool := s.sql?.isNone

def Handle.reached (h : Handle) : List Text := h.sent.filterMap Sent.sql?

section Fence

variable {h h' : Handle} {e : HandleEvent}

theorem filterMap_set {β : Type} {f : Sent → Option β} {sent : List Sent} {i : ℕ} {s s' : Sent}
    (hs : sent[i]? = some s) (hsame : f s' = f s) : (sent.set i s').filterMap f = sent.filterMap f := by
  obtain ⟨hlt, hi⟩ := List.getElem?_eq_some_iff.mp hs
  have hsplit : sent = sent.take i ++ s :: sent.drop (i + 1) := by
    rw [← hi, ← List.drop_eq_getElem_cons hlt, List.take_append_drop]
  rw [List.set_eq_take_append_cons_drop, if_pos hlt]
  conv_rhs => rw [hsplit]
  rw [List.filterMap_append, List.filterMap_append, List.filterMap_cons, List.filterMap_cons, hsame]

theorem step_fenced (hclosed : h.closed = true) (hs : h.Step e h') : h'.closed = true ∧ h'.reached = h.reached := by
  cases hs with
  | queries sql =>
    unfold Handle.query
    rw [if_pos hclosed]
    exact ⟨hclosed, rfl⟩
  | closes timeLeft => cases timeLeft <;> exact ⟨rfl, rfl⟩
  | served executes opens hs hnone horder => exact ⟨hclosed, filterMap_set hs rfl⟩
  | settles fulfilled hs hnone hexecuted => exact ⟨hclosed, filterMap_set hs rfl⟩
  | drained late hcleanup hwaited =>
    unfold Handle.drain
    split
    · exact ⟨hclosed, rfl⟩
    · split
      · exact ⟨hclosed, rfl⟩
      · exact ⟨hclosed, List.filterMap_append.trans (List.append_nil _)⟩
  | rolledBack _ _ _ => exact ⟨hclosed, rfl⟩
  | timerFires _ => exact ⟨hclosed, rfl⟩
  | toldResolved _ _ => exact ⟨hclosed, rfl⟩
  | toldRejected _ _ => exact ⟨hclosed, rfl⟩

theorem close_fenced (h : Handle) (timeLeft : Bool) :
    (h.close timeLeft).closed = true ∧ (h.close timeLeft).reached = h.reached := by
  cases timeLeft <;> exact ⟨rfl, rfl⟩

theorem steps_fenced {es : List HandleEvent} (hclosed : h.closed = true) (hs : handles.Steps h es h') :
    h'.closed = true ∧ h'.reached = h.reached := by
  induction hs with
  | refl => exact ⟨hclosed, rfl⟩
  | step hone _ ih =>
    obtain ⟨hclosed', hreached⟩ := step_fenced hclosed hone
    obtain ⟨hend, hsame⟩ := ih hclosed'
    exact ⟨hend, hsame.trans hreached⟩

theorem Plain.rollbacks {sent : List Sent} (hplain : Plain sent) : sent.countP Sent.isRollback = 0 := by
  refine List.countP_eq_zero.mpr fun s hs => ?_
  obtain ⟨sql, hsql⟩ := hplain s hs
  simp [Sent.isRollback, Sent.sql?, hsql]

theorem Handle.Inv.rollback (hI : h.Inv) : Plain h.sent ∨ ∃ front last, RollsBack h front last := by
  have hstage := hI.stage
  unfold Handle.Stage at hstage
  cases hcleanup : h.cleanup with
  | none =>
    rw [hcleanup] at hstage
    exact .inl hstage
  | draining waiting =>
    rw [hcleanup] at hstage
    exact .inl hstage.1
  | rollingBack i =>
    rw [hcleanup] at hstage
    obtain ⟨front, last, hback, _⟩ := hstage
    exact .inr ⟨front, last, hback⟩
  | resolved =>
    rw [hcleanup] at hstage
    rcases hstage with hunissued | ⟨front, last, hback, _⟩
    · exact .inl (by rw [(hI.unissued hunissued).1]; nofun)
    · exact .inr ⟨front, last, hback⟩
  | rejected =>
    rw [hcleanup] at hstage
    exact hstage

theorem Handle.Inv.rollbacks (hI : h.Inv) : h.sent.countP Sent.isRollback ≤ 1 := by
  rcases hI.rollback with hplain | ⟨front, last, hback⟩
  · rw [hplain.rollbacks]
    exact Nat.zero_le 1
  · rw [hback.sent, List.countP_append, hback.plain.rollbacks, Nat.zero_add]
    exact List.countP_le_length

theorem Handle.Inv.before_rollback (hI : h.Inv) {front rest : List Sent} {s : Sent} (hsent : h.sent = front ++ s :: rest)
    (hrollback : s.statement = .rollback) : (∀ x ∈ front, x.settled.isSome = true) ∧ rest = [] := by
  have hnot : ∀ {sent : List Sent}, Plain sent → s ∉ sent := by
    intro sent hplain hmem
    obtain ⟨sql, hsql⟩ := hplain s hmem
    rw [hrollback] at hsql
    cases hsql
  rcases hI.rollback with hplain | ⟨front', last, hback⟩
  · exact absurd (by rw [hsent]; simp) (hnot hplain)
  · rw [hback.sent] at hsent
    rcases List.eq_nil_or_concat rest with rfl | ⟨rest', x, rfl⟩
    · obtain ⟨rfl, _⟩ := List.append_inj' hsent rfl
      exact ⟨hback.settled, rfl⟩
    · rw [List.concat_eq_append, ← List.cons_append, ← List.append_assoc] at hsent
      obtain ⟨rfl, _⟩ := List.append_inj' hsent rfl
      exact absurd (by simp) (hnot hback.plain)

theorem step_sent {i : ℕ} {s : Sent} (hi : h.sent[i]? = some s) (hs : h.Step e h') :
    ∃ s', h'.sent[i]? = some s' ∧ s'.statement = s.statement ∧ ∀ b, s.settled = some b → s'.settled = some b := by
  have happend : ∀ more : List Sent, (h.sent ++ more)[i]? = some s := fun more => by
    rw [List.getElem?_append_left (List.getElem?_eq_some_iff.mp hi).1, hi]
  have hset : ∀ {j : ℕ} {x x' : Sent}, h.sent[j]? = some x → x'.statement = x.statement →
      (∀ b, x.settled = some b → x'.settled = some b) →
      ∃ s', (h.sent.set j x')[i]? = some s' ∧ s'.statement = s.statement ∧ ∀ b, s.settled = some b → s'.settled = some b := by
    intro j x x' hx hstatement hsettled
    by_cases hij : j = i
    · subst hij
      obtain rfl := Option.some.inj (hi.symm.trans hx)
      exact ⟨x', List.getElem?_set_self (List.getElem?_eq_some_iff.mp hi).1, hstatement, hsettled⟩
    · exact ⟨s, by rw [List.getElem?_set_ne hij, hi], rfl, fun _ hb => hb⟩
  cases hs with
  | queries sql =>
    unfold Handle.query
    split
    · exact ⟨s, hi, rfl, fun _ hb => hb⟩
    · exact ⟨s, happend _, rfl, fun _ hb => hb⟩
  | closes timeLeft => cases timeLeft <;> exact ⟨s, hi, rfl, fun _ hb => hb⟩
  | served executes opens hj hnone horder => exact hset hj rfl fun _ hb => hb
  | settles fulfilled hj hnone hexecuted =>
    refine hset hj rfl fun b hb => ?_
    rw [hnone] at hb
    cases hb
  | drained late hcleanup hwaited =>
    unfold Handle.drain
    split
    · exact ⟨s, hi, rfl, fun _ hb => hb⟩
    · split
      · exact ⟨s, hi, rfl, fun _ hb => hb⟩
      · exact ⟨s, happend _, rfl, fun _ hb => hb⟩
  | rolledBack _ _ _ => exact ⟨s, hi, rfl, fun _ hb => hb⟩
  | timerFires _ => exact ⟨s, hi, rfl, fun _ hb => hb⟩
  | toldResolved _ _ => exact ⟨s, hi, rfl, fun _ hb => hb⟩
  | toldRejected _ _ => exact ⟨s, hi, rfl, fun _ hb => hb⟩

theorem step_resolved (hmem : .resolved ∈ h.closes) (hs : h.Step e h') : .resolved ∈ h'.closes := by
  have hset : ∀ {k : ℕ} {c : Closing}, h.closes[k]? = some .pending → .resolved ∈ h.closes.set k c := by
    intro k c hk
    obtain ⟨j, hj⟩ := List.getElem?_of_mem hmem
    have hne : k ≠ j := by
      intro heq
      rw [← heq, hk] at hj
      cases hj
    exact List.mem_of_getElem? (by rw [List.getElem?_set_ne hne, hj])
  cases hs with
  | queries sql =>
    unfold Handle.query
    split <;> exact hmem
  | closes timeLeft => cases timeLeft <;> exact List.mem_append_left _ hmem
  | served _ _ _ _ _ => exact hmem
  | settles _ _ _ _ => exact hmem
  | drained late _ _ =>
    unfold Handle.drain
    split
    · exact hmem
    · split <;> exact hmem
  | rolledBack _ _ _ => exact hmem
  | timerFires hk => exact hset hk
  | toldResolved hk _ => exact hset hk
  | toldRejected hk _ => exact hset hk

theorem step_open (hcloses : ∀ timeLeft, e ≠ .closes timeLeft) (hs : h.Step e h') : h'.closed = h.closed := by
  cases hs with
  | queries sql =>
    unfold Handle.query
    split <;> rfl
  | closes timeLeft => exact absurd rfl (hcloses timeLeft)
  | served _ _ _ _ _ => rfl
  | settles _ _ _ _ => rfl
  | drained late _ _ =>
    unfold Handle.drain
    split
    · rfl
    · split <;> rfl
  | rolledBack _ _ _ => rfl
  | timerFires _ => rfl
  | toldResolved _ _ => rfl
  | toldRejected _ _ => rfl

theorem step_new (hs : Handle.new.Step e h') : (∃ sql, e = .queries sql) ∨ ∃ timeLeft, e = .closes timeLeft := by
  cases hs with
  | queries sql => exact .inl ⟨sql, rfl⟩
  | closes timeLeft => exact .inr ⟨timeLeft, rfl⟩
  | served _ _ hs _ _ => cases hs
  | settles _ hs _ _ => cases hs
  | drained _ hcleanup _ => cases hcleanup
  | rolledBack hcleanup _ _ => cases hcleanup
  | timerFires hk => cases hk
  | toldResolved hk _ => cases hk
  | toldRejected hk _ => cases hk

end Fence

end Albusforge.Db
