import Mathlib
import Albusforge.Ask.Leases

/-!
# What a run of the helper has done

`leases_returned` speaks of the events of a run: the leases that have come, the releases, the statements sent and
how they went. `Told` says how these go with the flags of the state that the run has led to.
-/

namespace Albusforge.Ask.Leases

open Lib

variable {α : Type}

/-! ## Reading a run -/

def Input.isLease : Input α → Bool
  | .lease => true
  | _ => false

def Effect.isRelease : Effect α → Bool
  | .release _ => true
  | _ => false

@[simp] theorem isRelease_release (destroy : Bool) : (Effect.release destroy : Effect α).isRelease = true := rfl
@[simp] theorem isRelease_send (sql : Sql) : (Effect.send sql : Effect α).isRelease = false := rfl
@[simp] theorem isRelease_reject : (Effect.reject : Effect α).isRelease = false := rfl

@[simp] theorem isRelease_outcome (value : Option α) : (outcome value).isRelease = false := by
  cases value <;> rfl

theorem outcome_ne_send {value : Option α} {sql : Sql} : Effect.send sql ≠ outcome value := by
  cases value <;> nofun

def leases (es : List (Event α)) : ℕ := es.countP fun e => e.input.isLease

def releases (es : List (Event α)) : ℕ := (es.map fun e => e.effects.countP Effect.isRelease).sum

def Silent (es : List (Event α)) : Prop := ∀ e ∈ es, ∀ sql, Effect.send sql ∉ e.effects

def Effect.sendsEnd : Effect α → Bool
  | .send .commit | .send .rollback => true
  | _ => false

/-- How the last `COMMIT` or `ROLLBACK` has gone, once it has. -/
def Event.lastEnd (last : Option Bool) (e : Event α) : Option Bool :=
  if e.effects.any Effect.sendsEnd then none
  else
    match e.input with
    | .settles .commit ok | .settles .rollback ok => some ok
    | _ => last

def lastEnd (es : List (Event α)) : Option Bool := es.foldl Event.lastEnd none

def Committed (es : List (Event α)) : Prop := ∃ e ∈ es, e.input = .settles .commit true

def ClientError (es : List (Event α)) : Prop := ∃ e ∈ es, e.input = .clientError

def Aborted (es : List (Event α)) : Prop := ∃ e ∈ es, e.input = .abort

section

variable {es : List (Event α)} {e : Event α} {c c' : Call α} {read : Bool}

@[simp] theorem leases_snoc : leases (es ++ [e]) = leases es + if e.input.isLease then 1 else 0 := by
  simp [leases, List.countP_append, List.countP_singleton]

@[simp] theorem releases_snoc : releases (es ++ [e]) = releases es + e.effects.countP Effect.isRelease := by
  simp [releases]

@[simp] theorem silent_snoc : Silent (es ++ [e]) ↔ Silent es ∧ ∀ sql, Effect.send sql ∉ e.effects := by
  simp [Silent, or_imp, forall_and]

@[simp] theorem lastEnd_snoc : lastEnd (es ++ [e]) = e.lastEnd (lastEnd es) := by
  simp [lastEnd]

@[simp] theorem committed_snoc : Committed (es ++ [e]) ↔ Committed es ∨ e.input = .settles .commit true := by
  simp [Committed, or_and_right, exists_or]

@[simp] theorem clientError_snoc : ClientError (es ++ [e]) ↔ ClientError es ∨ e.input = .clientError := by
  simp [ClientError, or_and_right, exists_or]

@[simp] theorem aborted_snoc : Aborted (es ++ [e]) ↔ Aborted es ∨ e.input = .abort := by
  simp [Aborted, or_and_right, exists_or]

/-! ## What goes with the state -/

structure Told (es : List (Event α)) (c : Call α) : Prop where
  ok : Ok c
  leases : leases es = if c.conn = .none then 0 else 1
  releases : releases es = if c.released then 1 else 0
  clientError : ClientError es → c.broken = true
  aborted : Aborted es → c.aborted = true
  idle : c.conn = .none → Silent es
  ended : ∀ value, c.stage.Ended value → lastEnd es = some true ∧ (value.isSome → Committed es)

theorem told_start (aborted : Bool) : Told [] (.start aborted : Call α) := by
  refine ⟨ok_start aborted, ?_, ?_, ?_, ?_, ?_, ?_⟩
  · simp [Leases.leases, Call.start]
  · simp [Leases.releases, Call.start]
  · simp [ClientError]
  · simp [Aborted]
  · simp [Silent]
  · intro value h
    cases aborted <;> cases h

theorem Told.leases_move (h : Told es c) (hmove : Move c e c') :
    Leases.leases (es ++ [e]) = if c'.conn = .none then 0 else 1 := by
  have hover := h.ok.checkedOut
  rw [leases_snoc, h.leases]
  cases hmove <;> grind [Input.isLease]

theorem Told.releases_move (h : Told es c) (hmove : Move c e c') :
    Leases.releases (es ++ [e]) = if c'.released then 1 else 0 := by
  have hreleased := h.ok.released
  have hover := h.ok.checkedOut
  rw [releases_snoc, h.releases]
  cases hmove with
  | goesOn => cases ‹Option Sql› <;> simp
  | _ => simp [List.countP_cons] <;> grind

theorem not_ended_settled {value v : Option α} : ¬(Stage.settled value).Ended v := nofun

theorem not_ended_working {result : Option (Option α)} {v : Option α} : ¬(Stage.working result).Ended v := nofun

theorem not_ended_fresh {stage : Stage α} {v : Option α} (h : stage.Fresh) : ¬stage.Ended v := by
  cases h <;> nofun

theorem Told.ended_move (h : Told es c) (hmove : Move c e c') {value : Option α} (hend : c'.stage.Ended value) :
    Leases.lastEnd (es ++ [e]) = some true ∧ (value.isSome → Committed (es ++ [e])) := by
  have hkeeps : c.stage.Ended value → e.lastEnd (Leases.lastEnd es) = Leases.lastEnd es →
      Leases.lastEnd (es ++ [e]) = some true ∧ (value.isSome → Committed (es ++ [e])) := by
    intro hend he
    obtain ⟨hlast, hcommitted⟩ := h.ended value hend
    exact ⟨by rw [lastEnd_snoc, he, hlast], fun hv => committed_snoc.mpr (Or.inl (hcommitted hv))⟩
  cases hmove with
  | @settles sql next ok hq =>
    -- only a COMMIT or a ROLLBACK that has succeeded is such an end
    unfold Call.awaited at hq
    split at hq <;> cases hq <;> cases ok <;> cases hend <;> simp [Event.lastEnd]
  | workSends hs => exact absurd (hs ▸ hend) not_ended_working
  | workSettles => exact absurd hend not_ended_working
  | goesOn _ hf => exact absurd hend (not_ended_fresh hf)
  | givesBack => exact absurd hend not_ended_settled
  | destroys => exact absurd hend not_ended_settled
  | settled => exact absurd hend not_ended_settled
  | _ => exact hkeeps hend rfl

theorem Told.move (h : Told es c) (hmove : Move c e c') : Told (es ++ [e]) c' where
  ok := h.ok.move hmove
  leases := h.leases_move hmove
  releases := h.releases_move hmove
  clientError := by
    rw [clientError_snoc]
    have hbroken := h.clientError
    cases hmove <;> simp_all
  aborted := by
    rw [aborted_snoc]
    have haborted := h.aborted
    cases hmove <;> simp_all
  idle := by
    rw [silent_snoc]
    have hidle := h.idle
    have hclient := h.ok.hasClient
    cases hmove with
    | goesOn sql hf hc hs => grind
    | workSends hs => grind
    | _ => simp_all [outcome_ne_send]
  ended _ hend := h.ended_move hmove hend

theorem told_run (h : (transaction α read).Run es c) : Told es c := by
  refine h.invariant ?_ ?_
  · rintro _ ⟨aborted, rfl⟩
    exact told_start aborted
  · intro es c e c' htold hstep _
    exact htold.move (step_move htold.ok hstep)

/-! ## Every event of a run -/

theorem event_move {before after : List (Event α)} (h : (transaction α read).Run (before ++ e :: after) c) :
    ∃ s s', Told before s ∧ Move s e s' ∧ (transaction α read).Steps s' after c := by
  obtain ⟨s, hrun, hsteps⟩ := Machine.Run.split h
  obtain ⟨s', hstep, hrest⟩ := hsteps.cons_inv
  have htold := told_run hrun
  exact ⟨s, s', htold, step_move htold.ok hstep, hrest⟩

theorem steps_silent (hsteps : (transaction α read).Steps c es c') (h : Ok c) (hclient : c.stage.hasClient = false)
    (hnone : c.conn ≠ .none) (hheld : c.conn ≠ .held) : Silent es := by
  induction hsteps with
  | refl => simp [Silent]
  | @step c s c' e es hstep _ ih =>
    have hmove := step_move h hstep
    have hover := h.checkedOut hnone
    have hkept : (∀ sql, Effect.send sql ∉ e.effects) ∧ s.stage.hasClient = false ∧ s.conn ≠ .none ∧
        s.conn ≠ .held := by
      cases hmove with
      | settles hq =>
        have hs := (awaited_stage (q := .ok) hq).2.1
        exact absurd (hs.symm.trans hclient) (by decide)
      | _ => simp_all [outcome_ne_send]
    obtain ⟨hsent, hclient', hnone', hheld'⟩ := hkept
    have hrest := ih (h.move hmove) hclient' hnone' hheld'
    intro e' he' sql
    rcases List.mem_cons.mp he' with rfl | he'
    · exact hsent sql
    · exact hrest e' he' sql

theorem late_lease {before after : List (Event α)} (h : (transaction α read).Run (before ++ e :: after) c)
    (hlease : e.input = .lease) (hab : Aborted before) :
    e.effects = [.release true] ∧ Silent (before ++ e :: after) := by
  obtain ⟨s, s', htold, hmove, hsteps⟩ := event_move h
  have hok := htold.ok.move hmove
  have haborted := htold.aborted hab
  have hnone : s.conn = .none := by
    by_contra hn
    have hover := htold.ok.checkedOut hn
    cases hmove <;> simp_all
  have hclient : s.stage.hasClient = false := by
    rw [← Bool.not_eq_true]
    exact fun hc => htold.ok.hasClient hc hnone
  have hlate : e.effects = [.release true] ∧ s'.stage.hasClient = false ∧ s'.conn ≠ .none ∧ s'.conn ≠ .held := by
    cases hmove <;> simp_all
  obtain ⟨heffects, hclient', hnone', hheld'⟩ := hlate
  refine ⟨heffects, ?_⟩
  have hbefore := htold.idle hnone
  have hafter := steps_silent hsteps hok hclient' hnone' hheld'
  intro e' he' sql
  rcases List.mem_append.mp he' with he' | he'
  · exact hbefore e' he' sql
  · rcases List.mem_cons.mp he' with rfl | he'
    · rw [heffects]
      simp
    · exact hafter e' he' sql

theorem reused_lease {before after : List (Event α)} (h : (transaction α read).Run (before ++ e :: after) c)
    (hreuse : .release false ∈ e.effects) : lastEnd before = some true ∧ ¬ClientError before := by
  obtain ⟨s, s', htold, hmove, -⟩ := event_move h
  have hgiven : (∃ value, s.stage.Ended value) ∧ s.conn = .held := by
    cases hmove with
    | givesBack hend hc => exact ⟨⟨_, hend⟩, hc⟩
    | settled => cases ‹Option α› <;> simp_all [outcome]
    | _ => simp_all
  obtain ⟨⟨value, hend⟩, hheld⟩ := hgiven
  refine ⟨(htold.ended value hend).1, ?_⟩
  intro herror
  have hbroken := htold.clientError herror
  rw [(htold.ok.held hheld).2] at hbroken
  cases hbroken

theorem resolved_value {before after : List (Event α)} {value : α}
    (h : (transaction α read).Run (before ++ e :: after) c) (hvalue : .resolve value ∈ e.effects) :
    Committed before := by
  obtain ⟨s, s', htold, hmove, -⟩ := event_move h
  have hout : ∀ value' : Option α, Effect.resolve value = outcome value' → value' = some value := by
    intro value' heq
    cases value' <;> cases heq
    rfl
  have hend : s.stage.Ended (some value) := by
    cases hmove with
    | givesBack hend =>
      have heq := hout _ (by simpa using hvalue)
      exact heq ▸ hend
    | settled hend =>
      have heq := hout _ (by simpa using hvalue)
      subst heq
      exact hend.resolve_left (by simp)
    | _ => simp_all
  exact (htold.ended _ hend).2 rfl

theorem handled_errors (h : (transaction α read).Run es c) : ∀ e ∈ es, Effect.uncaught ∉ e.effects := by
  intro e he
  obtain ⟨before, after, rfl⟩ := List.append_of_mem he
  obtain ⟨s, s', -, hmove, -⟩ := event_move h
  cases hmove with
  | givesBack => cases ‹Option α› <;> simp [outcome]
  | settled => cases ‹Option α› <;> simp [outcome]
  | _ => simp

/-! ## The end of a call

Everything that is awaited counts down to the end; the aborts and the errors of a client only change the way. -/

def Stage.left : Stage α → ℕ
  | .racing => 12
  | .beginning .pending => 11
  | .beginning _ => 10
  | .locking .pending => 9
  | .locking _ => 8
  | .working none => 7
  | .working (some _) => 6
  | .committing _ .pending => 5
  | .committing _ _ => 4
  | .rollingBack .pending => 3
  | .rollingBack _ => 2
  | .settled _ => 0

def Checkout.left : Checkout → ℕ
  | .queued => 2
  | .pending => 1
  | .over => 0

def Call.left (c : Call α) : ℕ := c.checkout.left + c.stage.left

def Input.isAwaited : Input α → Bool
  | .connects | .lease | .refused | .settles _ _ | .workSettles _ | .resumes => true
  | .abort | .clientError | .ends | .workSends => false

@[simp] theorem release_kept {destroy : Bool} :
    (c.release destroy).1.checkout = c.checkout ∧ (c.release destroy).1.stage = c.stage := by
  unfold Call.release
  split
  · exact ⟨rfl, rfl⟩
  · split <;> exact ⟨rfl, rfl⟩

theorem finish_left (value : Option α) : (c.finish value).1.left = c.checkout.left := by
  simp [Call.finish, Call.left, Stage.left]

theorem fail_left : c.fail.1.left ≤ c.checkout.left + 3 := by
  unfold Call.fail
  split
  · simp [Call.left, Stage.left]
  · rw [finish_left]
    omega

theorem resume_left {effects : List (Effect α)} (h : c.resume read = some (c', effects)) : c'.left < c.left := by
  have hfail : c.fail = (c', effects) → 3 < c.stage.left → c'.left < c.left := by
    intro heq hlt
    have hle := fail_left (c := c)
    rw [heq] at hle
    simp only [Call.left] at hle ⊢
    omega
  have hfinish : ∀ value, c.finish value = (c', effects) → 0 < c.stage.left → c'.left < c.left := by
    intro value heq hlt
    have hle := finish_left (c := c) value
    rw [heq] at hle
    simp only [Call.left] at hle ⊢
    omega
  unfold Call.resume at h
  split at h <;> rename_i hstage
  · split at h
    · cases h
    · exact hfail (Option.some.inj h) (by simp [hstage, Stage.left])
    · split at h
      · exact hfail (Option.some.inj h) (by simp [hstage, Stage.left])
      · split at h
        · exact hfail (Option.some.inj h) (by simp [hstage, Stage.left])
        · cases h
          simp [Call.left, Stage.left, hstage]
  · split at h
    all_goals
      cases h
      simp [Call.left, Stage.left, hstage]
  · cases h
    simp [Call.left, Stage.left, hstage]
  · exact hfail (Option.some.inj h) (by simp [hstage, Stage.left])
  · split at h
    · exact hfail (Option.some.inj h) (by simp [hstage, Stage.left])
    · split at h
      · exact hfail (Option.some.inj h) (by simp [hstage, Stage.left])
      · cases h
        simp [Call.left, Stage.left, hstage]
  · exact hfinish _ (Option.some.inj h) (by simp [hstage, Stage.left])
  · exact hfail (Option.some.inj h) (by simp [hstage, Stage.left])
  · exact hfail (Option.some.inj h) (by simp [hstage, Stage.left])
  · exact hfail (Option.some.inj h) (by simp [hstage, Stage.left])
  · exact hfinish _ (Option.some.inj h) (by simp [hstage, Stage.left])
  · have hleft := finish_left (c := (c.release true).1) none
    simp only [Option.some.injEq, Prod.mk.injEq] at h
    rw [h.1, release_kept.1] at hleft
    simp only [Call.left, hstage, Stage.left] at hleft ⊢
    omega
  all_goals cases h

theorem step_left (hstep : Step read c e c') :
    c'.left + (if e.input.isAwaited then 1 else 0) ≤ c.left := by
  cases hstep with
  | connects hc =>
    simp only [Call.left, Checkout.left, hc, Input.isAwaited, if_true]
    omega
  | lease hc =>
    have hleft : c.leased.1.left = c.stage.left := by
      unfold Call.leased
      dsimp only
      split
      · simp only [Call.settleRace, Call.left, release_kept, Checkout.left, Nat.zero_add]
      · simp only [Call.settleRace, Call.left, Checkout.left, Nat.zero_add]
    rw [hleft]
    simp only [Call.left, Checkout.left, hc, Input.isAwaited, if_true]
    omega
  | refused hc =>
    simp only [Call.left, Call.settleRace, Checkout.left, hc, Input.isAwaited, if_true]
    omega
  | abort =>
    unfold Call.abort
    dsimp only
    split
    · simp [Call.settleRace, Call.left, Input.isAwaited]
    · simp [Call.left, Input.isAwaited]
  | clientError =>
    unfold Call.clientError
    split
    · simp [Call.left, Input.isAwaited]
    · simp [Call.left, Input.isAwaited]
  | ends =>
    unfold Call.ends
    dsimp only
    split <;> simp [Call.left, Input.isAwaited]
  | @settles sql next ok hq =>
    unfold Call.awaited at hq
    split at hq <;> cases hq <;> cases ok <;> simp_all [Call.left, Stage.left, Input.isAwaited, queryOf]
  | workSends => simp [Input.isAwaited]
  | workSettles result hs => simp [Call.left, Stage.left, hs, Input.isAwaited]
  | resumes hr =>
    have hlt := resume_left hr
    simp only [Input.isAwaited, if_true]
    omega

theorem run_left (h : (transaction α read).Run es c) : (es.countP fun e => e.input.isAwaited) + c.left ≤ 14 := by
  refine h.invariant (I := fun es c => (es.countP fun e => e.input.isAwaited) + c.left ≤ 14) ?_ ?_
  · rintro _ ⟨aborted, rfl⟩
    cases aborted <;> simp [Call.left, Call.start, Checkout.left, Stage.left]
  · intro es c e c' hle hstep _
    have hstep' := step_left hstep
    rw [List.countP_append, List.countP_singleton]
    omega

theorem goes_on (h : Ok c) (hs : c.stage.isSettled = false) :
    ∃ e c', Step read c e c' ∧ e.input.isAwaited = true := by
  have hsettles : ∀ sql next, c.awaited = some (sql, next) → ∃ e c', Step read c e c' ∧ e.input.isAwaited = true :=
    fun sql next hq => ⟨⟨.settles sql false, []⟩, _, Step.settles hq nofun, rfl⟩
  have hresumes : (c.resume read).isSome → ∃ e c', Step read c e c' ∧ e.input.isAwaited = true := by
    intro hr
    obtain ⟨next, hr⟩ := Option.isSome_iff_exists.mp hr
    exact ⟨_, _, .resumes hr, rfl⟩
  cases hstage : c.stage with
  | racing =>
    cases hrace : c.race with
    | none =>
      cases hc : c.checkout with
      | queued => exact ⟨_, _, .connects hc, rfl⟩
      | pending => exact ⟨_, _, .refused hc, rfl⟩
      | _ => exact absurd hc (h.undecided hrace hs)
    | some won =>
      refine hresumes ?_
      unfold Call.resume
      rw [hstage, hrace]
      cases won
      · rfl
      · dsimp only
        split
        · rfl
        · split <;> rfl
  | working result =>
    cases result with
    | none => exact ⟨_, _, .workSettles none hstage, rfl⟩
    | some result =>
      refine hresumes ?_
      unfold Call.resume
      rw [hstage]
      cases result
      · rfl
      · dsimp only
        split
        · rfl
        · split <;> rfl
  | settled value =>
    rw [hstage] at hs
    cases hs
  | beginning q =>
    cases q with
    | pending => exact hsettles .begin .beginning (by rw [Call.awaited, hstage])
    | ok =>
      refine hresumes ?_
      unfold Call.resume
      rw [hstage]
      cases read <;> rfl
    | failed => exact hresumes (by rw [Call.resume, hstage]; rfl)
  | locking q =>
    cases q with
    | pending => exact hsettles .lock .locking (by rw [Call.awaited, hstage])
    | ok => exact hresumes (by rw [Call.resume, hstage]; rfl)
    | failed => exact hresumes (by rw [Call.resume, hstage]; rfl)
  | committing value q =>
    cases q with
    | pending => exact hsettles .commit (.committing value) (by rw [Call.awaited, hstage])
    | ok => exact hresumes (by rw [Call.resume, hstage]; rfl)
    | failed => exact hresumes (by rw [Call.resume, hstage]; rfl)
  | rollingBack q =>
    cases q with
    | pending => exact hsettles .rollback .rollingBack (by rw [Call.awaited, hstage])
    | ok => exact hresumes (by rw [Call.resume, hstage]; rfl)
    | failed => exact hresumes (by rw [Call.resume, hstage]; rfl)

/-! ## The leases -/

/-- A run that has led to the call `c` has dealt with its lease. -/
structure Returned (es : List (Event α)) (c : Call α) : Prop where
  once : releases es ≤ leases es ∧ leases es ≤ 1
  all : c.stage.isSettled = true → releases es = leases es
  late : ∀ before e after, es = before ++ e :: after → e.input = .lease → Aborted before →
    e.effects = [.release true] ∧ Silent es
  reuse : ∀ before e after, es = before ++ e :: after → .release false ∈ e.effects →
    lastEnd before = some true ∧ ¬ClientError before
  value : ∀ before e after v, es = before ++ e :: after → .resolve v ∈ e.effects → Committed before
  handler : c.conn = .held ∨ c.conn = .destroyed → c.handler = true
  handled : ∀ e ∈ es, Effect.uncaught ∉ e.effects

theorem returned_run (h : (transaction α read).Run es c) : Returned es c := by
  have htold := told_run h
  refine ⟨⟨?_, ?_⟩, ?_, ?_, ?_, ?_, htold.ok.handled, handled_errors h⟩
  · rw [htold.releases, htold.leases]
    have hreleased := htold.ok.released
    split <;> split <;> simp_all
  · rw [htold.leases]
    split <;> omega
  · intro hs
    have hheld := (htold.ok.settled hs).1
    have hreleased := htold.ok.released
    rw [htold.releases, htold.leases]
    split <;> split <;> simp_all
  · rintro before e after rfl hlease hab
    exact late_lease h hlease hab
  · rintro before e after rfl hreuse
    exact reused_lease h hreuse
  · rintro before e after v rfl hvalue
    exact resolved_value h hvalue

end

/-- **The leases.** In any order of what happens to a call, its lease goes back once. Until the call is over
something that it awaits is to come, and fourteen such steps are the most. -/
theorem leases_returned (read : Bool) (es : List (Event α)) (c : Call α) (h : (transaction α read).Run es c) :
    Returned es c ∧ (es.countP fun e => e.input.isAwaited) ≤ 14 ∧
      (c.stage.isSettled = false → ∃ e c', (transaction α read).step c e c' ∧ e.input.isAwaited = true) := by
  refine ⟨returned_run h, ?_, goes_on (told_run h).ok⟩
  have hle := run_left h
  omega

def lateRun : List (Event ℕ) :=
  [⟨.connects, []⟩, ⟨.abort, []⟩, ⟨.resumes, [.reject]⟩, ⟨.lease, [.release true]⟩]

theorem lateRun_run : ∃ c, (transaction ℕ true).Run lateRun c := by
  have hstart : (transaction ℕ true).Run [] (.start false) := .init ⟨false, rfl⟩
  have hconnects : (transaction ℕ true).Run [⟨.connects, []⟩] _ := hstart.step (.connects rfl) trivial
  have habort : (transaction ℕ true).Run [⟨.connects, []⟩, ⟨.abort, []⟩] _ := hconnects.step (.abort rfl) trivial
  have hresumes : (transaction ℕ true).Run [⟨.connects, []⟩, ⟨.abort, []⟩, ⟨.resumes, [.reject]⟩] _ :=
    habort.step (.resumes rfl) trivial
  exact ⟨_, hresumes.step (.lease rfl) trivial⟩

theorem leases_returned_late : ∃ c, Returned lateRun c ∧ leases lateRun = 1 ∧ releases lateRun = 1 := by
  obtain ⟨c, hrun⟩ := lateRun_run
  exact ⟨c, (leases_returned true lateRun c hrun).1, by decide, by decide⟩

end Albusforge.Ask.Leases
