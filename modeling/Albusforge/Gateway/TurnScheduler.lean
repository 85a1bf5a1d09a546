import Albusforge.Lib.JsText
import Albusforge.Lib.Machine

/-!
# Turns, one at a time for each build

`createTurnScheduler` (`apps/gateway/src/intake.ts`): a trigger starts a run of a build's turn, or asks for one more
run after the one that is going on. A run calls intake once, and once more after a delay where the first call failed
in a way that is worth it. Everything after an `await` is a step of its own here, and anything may come between.

**No build has two calls open, and no trigger is lost** (`turns_scheduled`): a call that starts after it comes before
the build's entry goes away. Without `INTAKE_URL` there is nothing to call, and a run is over at once
(`unset_starts_nothing`).

The logger does not throw, and what it is told is left out. A call is open until its promise settles or its deadline
passes, whichever is first; a promise may settle after that, too.
-/

namespace Albusforge.Gateway.Turns

open Lib

inductive TurnError
  | intake (status : Option ℕ)
  | timeout
  | abort
  | typeError
  | other

def isRetryable : TurnError → Bool
  | .intake status => status.any (500 ≤ ·)
  | .timeout => false
  | .abort => false
  | .typeError => true
  | .other => false

/-- A call of `intake.turn`: whether its promise has settled, and whether its deadline has passed. -/
structure Call where
  buildId : Text
  settled : Bool
  expired : Bool

def Call.isOpen (c : Call) : Bool := !c.settled && !c.expired

inductive Stage
  /-- `Promise.race`, of a call and its deadline. -/
  | attempting (call : ℕ) (attempt : ℕ)
  | decided (attempt : ℕ) (outcome : Except TurnError Unit)
  /-- `sleep(retryDelayMs)` -/
  | delaying (attempt : ℕ)
  | delayed (attempt : ℕ)
  /-- `runOnce` has returned. -/
  | returned

structure Entry where
  again : Bool
  stage : Stage

structure State where
  running : Text → Option Entry
  calls : List Call

inductive Shown
  /-- `runOnce` is called. -/
  | run
  /-- `intake.turn` is called. -/
  | attempt (mayRetry : Bool)
  deriving DecidableEq

inductive Input
  | trigger (buildId : Text)
  | settle (call : ℕ) (outcome : Except TurnError Unit)
  | expire (call : ℕ)
  | wake (buildId : Text)
  /-- A build's run goes on after an `await`. -/
  | resume (buildId : Text)

structure Event where
  input : Input
  buildId : Text
  shown : List Shown

namespace State

def setEntry (s : State) (buildId : Text) (entry : Option Entry) : State :=
  { s with running := Function.update s.running buildId entry }

@[simp] theorem setEntry_self (s : State) (b : Text) (entry : Option Entry) : (s.setEntry b entry).running b = entry :=
  Function.update_self ..

theorem setEntry_other (s : State) {b b' : Text} (entry : Option Entry) (hne : b' ≠ b) :
    (s.setEntry b entry).running b' = s.running b' :=
  Function.update_of_ne hne _ _

def setCall (s : State) (i : ℕ) (call : Call) : State := { s with calls := s.calls.set i call }

def attempt (s : State) (buildId : Text) (entry : Entry) (attempt : ℕ) : State :=
  { (s.setEntry buildId (some { entry with stage := .attempting s.calls.length attempt })) with
    calls := s.calls ++ [⟨buildId, false, false⟩] }

def race (s : State) (buildId : Text) (i : ℕ) (outcome : Except TurnError Unit) : State :=
  match s.running buildId with
  | some ⟨again, .attempting j n⟩ => if j = i then s.setEntry buildId (some ⟨again, .decided n outcome⟩) else s
  | _ => s

end State

/-! ## The scheduler

`configured` says whether there is an `intake`. -/

section

variable (configured : Bool)

/-- `entry.again = false`, and `runOnce` up to its first `await`. -/
def startRun (s : State) (buildId : Text) : State × List Shown :=
  if configured then (s.attempt buildId ⟨false, .returned⟩ 1, [.run, .attempt true])
  else (s.setEntry buildId (some ⟨false, .returned⟩), [.run])

def trigger (s : State) (buildId : Text) : State × List Shown :=
  match s.running buildId with
  | some entry => (s.setEntry buildId (some { entry with again := true }), [])
  | none => startRun configured s buildId

def isRunning (s : State) (buildId : Text) : Bool := (s.running buildId).isSome

def resume (s : State) (buildId : Text) : Option (State × List Shown) :=
  match s.running buildId with
  | some ⟨again, .decided attempt (.error e)⟩ =>
    if attempt = 1 ∧ isRetryable e then some (s.setEntry buildId (some ⟨again, .delaying attempt⟩), [])
    else some (s.setEntry buildId (some ⟨again, .returned⟩), [])
  | some ⟨again, .decided _ (.ok ())⟩ => some (s.setEntry buildId (some ⟨again, .returned⟩), [])
  | some ⟨again, .delayed attempt⟩ =>
    let next := attempt + 1
    some (s.attempt buildId ⟨again, .returned⟩ next, [.attempt (next = 1)])
  | some ⟨again, .returned⟩ => if again then some (startRun configured s buildId) else some (s.setEntry buildId none, [])
  | _ => none

inductive Step : State → Event → State → Prop
  | trigger {s : State} {b : Text} : Step s ⟨.trigger b, b, (trigger configured s b).2⟩ (trigger configured s b).1
  | settle {s : State} {i : ℕ} {c : Call} {outcome : Except TurnError Unit} : s.calls[i]? = some c →
      c.settled = false →
      Step s ⟨.settle i outcome, c.buildId, []⟩ ((s.setCall i { c with settled := true }).race c.buildId i outcome)
  | expire {s : State} {i : ℕ} {c : Call} : s.calls[i]? = some c → c.expired = false →
      Step s ⟨.expire i, c.buildId, []⟩
        ((s.setCall i { c with expired := true }).race c.buildId i (.error .timeout))
  | wake {s : State} {b : Text} {again : Bool} {attempt : ℕ} : s.running b = some ⟨again, .delaying attempt⟩ →
      Step s ⟨.wake b, b, []⟩ (s.setEntry b (some ⟨again, .delayed attempt⟩))
  | resume {s s' : State} {b : Text} {shown : List Shown} : resume configured s b = some (s', shown) →
      Step s ⟨.resume b, b, shown⟩ s'

def scheduler : Machine State Event where
  init s := (∀ b, s.running b = none) ∧ s.calls = []
  step := Step configured

end

/-! ## What a step does to a build -/

def started (configured : Bool) : List Shown := if configured then [.run, .attempt true] else [.run]

def Stage.IsFirst (configured : Bool) (stage : Stage) : Prop :=
  if configured then ∃ i, stage = .attempting i 1 else stage = .returned

/-- What becomes of a build's entry, and what is shown, when its run goes on, or when it does not. -/
inductive Local (configured : Bool) : Bool → Option Entry → List Shown → Option Entry → Prop
  | start {stage : Stage} : stage.IsFirst configured →
      Local configured false none (started configured) (some ⟨false, stage⟩)
  | again {entry : Entry} : Local configured false (some entry) [] (some { entry with again := true })
  | late {entry : Option Entry} : Local configured false entry [] entry
  | race {again : Bool} {i n : ℕ} {outcome : Except TurnError Unit} :
      Local configured false (some ⟨again, .attempting i n⟩) [] (some ⟨again, .decided n outcome⟩)
  | wake {again : Bool} {n : ℕ} : Local configured false (some ⟨again, .delaying n⟩) [] (some ⟨again, .delayed n⟩)
  | retry {again : Bool} {e : TurnError} : isRetryable e = true →
      Local configured true (some ⟨again, .decided 1 (.error e)⟩) [] (some ⟨again, .delaying 1⟩)
  | done {again : Bool} {n : ℕ} {outcome : Except TurnError Unit} :
      Local configured true (some ⟨again, .decided n outcome⟩) [] (some ⟨again, .returned⟩)
  | second {again : Bool} {i n : ℕ} : Local configured true (some ⟨again, .delayed n⟩)
      [.attempt (n + 1 = 1)] (some ⟨again, .attempting i (n + 1)⟩)
  | rerun {stage : Stage} : stage.IsFirst configured →
      Local configured true (some ⟨true, .returned⟩) (started configured) (some ⟨false, stage⟩)
  | leave : Local configured true (some ⟨false, .returned⟩) [] none

def Input.isResume : Input → Bool
  | .resume _ => true
  | _ => false

variable {configured : Bool} {s s' : State} {e : Event}

variable (configured) in
theorem startRun_first (s : State) (b : Text) : (startRun configured s b).2 = started configured ∧
    ∃ stage : Stage, stage.IsFirst configured ∧ (startRun configured s b).1.running b = some ⟨false, stage⟩ := by
  cases configured with
  | true => exact ⟨rfl, .attempting s.calls.length 1, ⟨_, rfl⟩, State.setEntry_self ..⟩
  | false => exact ⟨rfl, .returned, rfl, State.setEntry_self ..⟩

theorem race_running (s : State) (b : Text) (i : ℕ) (outcome : Except TurnError Unit) :
    Local configured false (s.running b) [] ((s.race b i outcome).running b) := by
  unfold State.race
  split
  · rename_i again j n hrunning
    split
    · rw [hrunning]
      rw [State.setEntry_self]
      exact .race
    · exact .late
  · exact .late

theorem resume_local {b : Text} {shown : List Shown} (h : resume configured s b = some (s', shown)) :
    Local configured true (s.running b) shown (s'.running b) := by
  unfold resume at h
  split at h
  · rename_i again attempt error hrunning
    rw [hrunning]
    split at h
    · rename_i hretry
      obtain ⟨rfl, rfl⟩ := Prod.mk.inj (Option.some.inj h)
      obtain ⟨rfl, herror⟩ := hretry
      rw [State.setEntry_self]
      exact .retry herror
    · obtain ⟨rfl, rfl⟩ := Prod.mk.inj (Option.some.inj h)
      rw [State.setEntry_self]
      exact .done
  · rename_i again attempt hrunning
    obtain ⟨rfl, rfl⟩ := Prod.mk.inj (Option.some.inj h)
    rw [hrunning, State.setEntry_self]
    exact .done
  · rename_i again attempt hrunning
    obtain ⟨rfl, rfl⟩ := Prod.mk.inj (Option.some.inj h)
    have hnext : (s.attempt b ⟨again, .returned⟩ (attempt + 1)).running b =
        some ⟨again, .attempting s.calls.length (attempt + 1)⟩ := State.setEntry_self ..
    rw [hrunning, hnext]
    exact .second
  · rename_i again hrunning
    rw [hrunning]
    cases again with
    | true =>
      obtain ⟨hshown, stage, hfirst, hentry⟩ := startRun_first configured s b
      rw [if_pos rfl] at h
      rw [Option.some.inj h] at hshown hentry
      dsimp only at hshown hentry
      rw [hshown, hentry]
      exact .rerun hfirst
    | false =>
      obtain ⟨rfl, rfl⟩ := Prod.mk.inj (Option.some.inj h)
      rw [State.setEntry_self]
      exact .leave
  · exact absurd h (by simp)

theorem trigger_local (s : State) (b : Text) :
    Local configured false (s.running b) (trigger configured s b).2 ((trigger configured s b).1.running b) := by
  cases hrunning : s.running b with
  | none =>
    obtain ⟨hshown, stage, hfirst, hentry⟩ := startRun_first configured s b
    simp only [trigger, hrunning, hshown, hentry]
    exact .start hfirst
  | some entry =>
    simp only [trigger, hrunning, State.setEntry_self]
    exact .again

theorem Step.own (h : Step configured s e s') :
    Local configured e.input.isResume (s.running e.buildId) e.shown (s'.running e.buildId) := by
  cases h with
  | @trigger b => exact trigger_local s b
  | settle hcall hsettled => exact race_running (s.setCall _ _) _ _ _
  | expire hcall hexpired => exact race_running (s.setCall _ _) _ _ _
  | wake hrunning =>
    simp only [hrunning, Input.isResume, State.setEntry_self]
    exact .wake
  | @resume _ b shown hresume => exact resume_local hresume

theorem Step.other (h : Step configured s e s') {b : Text} (hb : b ≠ e.buildId) : s'.running b = s.running b := by
  have hstart : ∀ {b' : Text}, b ≠ b' → (startRun configured s b').1.running b = s.running b := by
    intro b' hne
    unfold startRun
    split
    · exact s.setEntry_other _ hne
    · exact s.setEntry_other _ hne
  have hrace : ∀ (t : State) {b' : Text} (i : ℕ) (outcome : Except TurnError Unit), b ≠ b' →
      (t.race b' i outcome).running b = t.running b := by
    intro t b' i outcome hne
    unfold State.race
    split
    · split
      · exact t.setEntry_other _ hne
      · rfl
    · rfl
  cases h with
  | @trigger b' =>
    unfold Turns.trigger
    split
    · exact s.setEntry_other _ hb
    · exact hstart hb
  | settle hcall hsettled => exact hrace (s.setCall _ _) _ _ hb
  | expire hcall hexpired => exact hrace (s.setCall _ _) _ _ hb
  | wake hrunning => exact s.setEntry_other _ hb
  | @resume _ b' shown hresume =>
    unfold Turns.resume at hresume
    split at hresume
    · split at hresume
      · rw [← (Prod.mk.inj (Option.some.inj hresume)).1]
        exact s.setEntry_other _ hb
      · rw [← (Prod.mk.inj (Option.some.inj hresume)).1]
        exact s.setEntry_other _ hb
    · rw [← (Prod.mk.inj (Option.some.inj hresume)).1]
      exact s.setEntry_other _ hb
    · rw [← (Prod.mk.inj (Option.some.inj hresume)).1]
      exact s.setEntry_other _ hb
    · split at hresume
      · have hnext := congrArg Prod.fst (Option.some.inj hresume)
        dsimp only at hnext
        rw [← hnext]
        exact hstart hb
      · rw [← (Prod.mk.inj (Option.some.inj hresume)).1]
        exact s.setEntry_other _ hb
    · exact absurd hresume (by simp)

/-! ## Runs -/

def shownOf (b : Text) (es : List Event) : List Shown := (es.filter fun e => e.buildId = b).flatMap Event.shown

def IsRun (configured : Bool) (run : List Shown) : Prop :=
  if configured then run = [.run, .attempt true] ∨ run = [.run, .attempt true, .attempt false] else run = [.run]

def Phase (configured : Bool) : Option Entry → List Shown → Prop
  | none, now => now = []
  | some ⟨_, .attempting _ n⟩, now => configured = true ∧ Attempted n now
  | some ⟨_, .decided n _⟩, now => configured = true ∧ Attempted n now
  | some ⟨_, .delaying n⟩, now => configured = true ∧ n = 1 ∧ now = [.run, .attempt true]
  | some ⟨_, .delayed n⟩, now => configured = true ∧ n = 1 ∧ now = [.run, .attempt true]
  | some ⟨_, .returned⟩, now => IsRun configured now
where
  Attempted (n : ℕ) (now : List Shown) : Prop :=
    (n = 1 ∧ now = [.run, .attempt true]) ∨ (n = 2 ∧ now = [.run, .attempt true, .attempt false])

def Traced (configured : Bool) (entry : Option Entry) (trace : List Shown) : Prop :=
  ∃ (runs : List (List Shown)) (now : List Shown), trace = runs.flatten ++ now ∧ (∀ run ∈ runs, IsRun configured run) ∧
    Phase configured entry now

theorem phase_started {stage : Stage} (again : Bool) (h : stage.IsFirst configured) :
    Phase configured (some ⟨again, stage⟩) (started configured) := by
  cases configured with
  | true =>
    obtain ⟨i, rfl⟩ := h
    exact ⟨rfl, Or.inl ⟨rfl, rfl⟩⟩
  | false =>
    obtain rfl : stage = .returned := h
    rfl

theorem isRun_attempted {n : ℕ} {now : List Shown} (hconfigured : configured = true) (h : Phase.Attempted n now) :
    IsRun configured now := by
  rw [IsRun, if_pos hconfigured]
  exact h.imp And.right And.right

theorem Traced.step {entry entry' : Option Entry} {trace shown : List Shown} {resumed : Bool}
    (h : Traced configured entry trace) (hlocal : Local configured resumed entry shown entry') :
    Traced configured entry' (trace ++ shown) := by
  obtain ⟨runs, now, rfl, hruns, hphase⟩ := h
  have hquiet : ∀ {next : Option Entry}, Phase configured next now →
      Traced configured next (runs.flatten ++ now ++ []) := by
    intro next hnext
    exact ⟨runs, now, List.append_nil _, hruns, hnext⟩
  cases hlocal with
  | start hfirst =>
    obtain rfl : now = [] := hphase
    exact ⟨runs, _, by rw [List.append_nil], hruns, phase_started _ hfirst⟩
  | @again e =>
    obtain ⟨a, stage⟩ := e
    cases stage with
    | _ => exact hquiet hphase
  | late => exact hquiet hphase
  | race => exact hquiet hphase
  | wake => exact hquiet hphase
  | retry hretry =>
    obtain ⟨hconfigured, ⟨-, hnow⟩ | ⟨htwo, -⟩⟩ := hphase
    · exact hquiet ⟨hconfigured, rfl, hnow⟩
    · exact absurd htwo (by decide)
  | done => exact hquiet (isRun_attempted hphase.1 hphase.2)
  | second =>
    obtain ⟨hconfigured, rfl, rfl⟩ := hphase
    exact ⟨runs, _, List.append_assoc _ _ _, hruns, hconfigured, Or.inr ⟨rfl, rfl⟩⟩
  | rerun hfirst =>
    refine ⟨runs ++ [now], _, ?_, ?_, phase_started _ hfirst⟩
    · rw [List.flatten_append, List.flatten_singleton]
    · intro run hrun
      rcases List.mem_append.mp hrun with hrun | hrun
      · exact hruns run hrun
      · exact List.mem_singleton.mp hrun ▸ hphase
  | leave =>
    refine ⟨runs ++ [now], [], ?_, ?_, rfl⟩
    · rw [List.flatten_append, List.flatten_singleton]
    · intro run hrun
      rcases List.mem_append.mp hrun with hrun | hrun
      · exact hruns run hrun
      · exact List.mem_singleton.mp hrun ▸ hphase

theorem shownOf_snoc (b : Text) (es : List Event) (e : Event) :
    shownOf b (es ++ [e]) = shownOf b es ++ if e.buildId = b then e.shown else [] := by
  rw [shownOf, List.filter_append, List.flatMap_append]
  by_cases hb : e.buildId = b
  · simp [hb, shownOf]
  · simp [hb, shownOf]

theorem traced_run {es : List Event} (h : (scheduler configured).Run es s) (b : Text) :
    Traced configured (s.running b) (shownOf b es) := by
  induction h with
  | init hinit =>
    rw [hinit.1 b]
    exact ⟨[], [], rfl, fun run hrun => absurd hrun List.not_mem_nil, rfl⟩
  | @step es s s' e _ hstep _ ih =>
    rw [shownOf_snoc]
    by_cases hb : e.buildId = b
    · subst hb
      rw [if_pos rfl]
      exact ih.step hstep.own
    · rw [if_neg hb, List.append_nil, hstep.other (Ne.symm hb)]
      exact ih

theorem Traced.runs {entry : Option Entry} {trace : List Shown} (h : Traced configured entry trace) :
    ∃ runs : List (List Shown), trace = runs.flatten ∧ ∀ run ∈ runs, IsRun configured run := by
  obtain ⟨runs, now, rfl, hruns, hphase⟩ := h
  have hnow : now = [] ∨ IsRun configured now := by
    match entry, hphase with
    | none, hphase => exact Or.inl hphase
    | some ⟨_, .attempting _ n⟩, hphase => exact Or.inr (isRun_attempted hphase.1 hphase.2)
    | some ⟨_, .decided n _⟩, hphase => exact Or.inr (isRun_attempted hphase.1 hphase.2)
    | some ⟨_, .delaying n⟩, hphase => exact Or.inr (isRun_attempted hphase.1 (Or.inl ⟨rfl, hphase.2.2⟩))
    | some ⟨_, .delayed n⟩, hphase => exact Or.inr (isRun_attempted hphase.1 (Or.inl ⟨rfl, hphase.2.2⟩))
    | some ⟨_, .returned⟩, hphase => exact Or.inr hphase
  rcases hnow with rfl | hnow
  · exact ⟨runs, List.append_nil _, hruns⟩
  · refine ⟨runs ++ [now], by rw [List.flatten_append, List.flatten_singleton], ?_⟩
    intro run hrun
    rcases List.mem_append.mp hrun with hrun | hrun
    · exact hruns run hrun
    · exact List.mem_singleton.mp hrun ▸ hnow

/-! ## Calls -/

def waits : Option Entry → Option ℕ
  | some ⟨_, .attempting i _⟩ => some i
  | _ => none

theorem waits_again (entry : Entry) (again : Bool) : waits (some { entry with again }) = waits (some entry) := by
  obtain ⟨_, stage⟩ := entry
  cases stage with
  | _ => rfl

/-- **A call is open if and only if its build waits for it.** -/
def CallsKept (s : State) : Prop :=
  ∀ (b : Text) (i : ℕ), waits (s.running b) = some i ↔ ∃ c, s.calls[i]? = some c ∧ c.buildId = b ∧ c.isOpen = true

theorem CallsKept.setEntry (h : CallsKept s) {b : Text} {entry : Option Entry}
    (hwaits : waits entry = waits (s.running b)) : CallsKept (s.setEntry b entry) := by
  intro b' i
  have hentry : waits ((s.setEntry b entry).running b') = waits (s.running b') := by
    by_cases hb : b' = b
    · subst hb
      rw [State.setEntry_self, hwaits]
    · rw [s.setEntry_other _ hb]
  rw [hentry]
  exact h b' i

theorem CallsKept.attempt (h : CallsKept s) {b : Text} (entry : Entry) (n : ℕ)
    (hwaits : waits (s.running b) = none) : CallsKept (s.attempt b entry n) := by
  intro b' i
  have hcalls : (s.attempt b entry n).calls = s.calls ++ [⟨b, false, false⟩] := rfl
  rw [hcalls]
  by_cases hb : b' = b
  · subst hb
    have hnow : waits ((s.attempt b' entry n).running b') = some s.calls.length := by
      rw [State.attempt, State.setEntry_self]
      rfl
    rw [hnow, Option.some.injEq]
    constructor
    · intro hi
      subst hi
      exact ⟨_, List.getElem?_concat_length .., rfl, rfl⟩
    · intro ⟨c, hcall, hid, hopen⟩
      rcases Nat.lt_or_ge i s.calls.length with hi | hi
      · -- an older one would have been waited for
        rw [List.getElem?_append_left hi] at hcall
        have hold := (h b' i).mpr ⟨c, hcall, hid, hopen⟩
        rw [hwaits] at hold
        exact absurd hold (by simp)
      · have hlt := (List.getElem?_eq_some_iff.mp hcall).1
        rw [List.length_append, List.length_singleton] at hlt
        omega
  · have hnow : (s.attempt b entry n).running b' = s.running b' := Function.update_of_ne hb _ _
    rw [hnow, h b' i]
    rcases Nat.lt_or_ge i s.calls.length with hi | hi
    · rw [List.getElem?_append_left hi]
    · rw [List.getElem?_eq_none hi]
      constructor
      · intro ⟨c, hcall, _⟩
        exact absurd hcall (by simp)
      · intro ⟨c, hcall, hid, _⟩
        rw [List.getElem?_append_right hi] at hcall
        have hlast : c = ⟨b, false, false⟩ := List.mem_singleton.mp (List.mem_of_getElem? hcall)
        subst hlast
        exact absurd hid.symm hb

theorem race_waits (s : State) (b b' : Text) (i : ℕ) (outcome : Except TurnError Unit) :
    waits ((s.race b i outcome).running b') =
      if b' = b ∧ waits (s.running b) = some i then none else waits (s.running b') := by
  unfold State.race
  split
  · rename_i again j n hrunning
    rw [hrunning]
    by_cases hj : j = i
    · rw [if_pos hj, hj]
      by_cases hb : b' = b
      · rw [if_pos ⟨hb, rfl⟩, hb, State.setEntry_self]
        rfl
      · rw [if_neg fun h => hb h.1, s.setEntry_other _ hb]
    · have hne : ¬(b' = b ∧ waits (some ⟨again, .attempting j n⟩) = some i) := fun h => hj (Option.some.inj h.2)
      rw [if_neg hj, if_neg hne]
  · rename_i hno
    rw [if_neg]
    intro ⟨_, hwaits⟩
    unfold waits at hwaits
    split at hwaits
    · rename_i again j n hrunning
      exact hno again j n hrunning
    · exact absurd hwaits (by simp)

theorem race_calls (s : State) (b : Text) (i : ℕ) (outcome : Except TurnError Unit) :
    (s.race b i outcome).calls = s.calls := by
  unfold State.race
  split
  · split
    · rfl
    · rfl
  · rfl

theorem CallsKept.close (h : CallsKept s) {i : ℕ} {c c' : Call} (hcall : s.calls[i]? = some c)
    (hclosed : c'.isOpen = false) (outcome : Except TurnError Unit) :
    CallsKept ((s.setCall i c').race c.buildId i outcome) := by
  intro b j
  have hi : i < s.calls.length := (List.getElem?_eq_some_iff.mp hcall).1
  rw [race_waits, race_calls]
  show (if b = c.buildId ∧ waits (s.running c.buildId) = some i then none else waits (s.running b)) = some j ↔
    ∃ d, (s.calls.set i c')[j]? = some d ∧ d.buildId = b ∧ d.isOpen = true
  by_cases hj : i = j
  · subst hj
    have hnone : ¬∃ d, (s.calls.set i c')[i]? = some d ∧ d.buildId = b ∧ d.isOpen = true := by
      intro ⟨d, hd, _, hopen⟩
      rw [List.getElem?_set_self hi] at hd
      rw [← Option.some.inj hd, hclosed] at hopen
      exact absurd hopen (by simp)
    rw [iff_false_right hnone]
    split
    · simp
    · rename_i hne
      intro hwaits
      obtain ⟨d, hd, hbuild, _⟩ := (h b i).mp hwaits
      obtain rfl := Option.some.inj (hcall.symm.trans hd)
      subst hbuild
      exact hne ⟨rfl, hwaits⟩
  · rw [List.getElem?_set_ne hj, ← h b j]
    split
    · rename_i hb
      rw [hb.1, hb.2, Option.some.injEq]
      exact iff_of_false (by simp) hj
    · exact Iff.rfl

theorem CallsKept.startRun (h : CallsKept s) {b : Text} (hwaits : waits (s.running b) = none) :
    CallsKept (startRun configured s b).1 := by
  unfold Turns.startRun
  split
  · exact h.attempt _ _ hwaits
  · exact h.setEntry hwaits.symm

theorem CallsKept.step (h : CallsKept s) (hstep : Step configured s e s') : CallsKept s' := by
  cases hstep with
  | @trigger b =>
    unfold Turns.trigger
    split
    · rename_i entry hrunning
      refine h.setEntry ?_
      rw [hrunning, waits_again]
    · rename_i hrunning
      exact h.startRun (by rw [hrunning]; rfl)
  | settle hcall hsettled => exact h.close hcall rfl _
  | expire hcall hexpired => exact h.close hcall (by simp [Call.isOpen]) _
  | wake hrunning =>
    refine h.setEntry ?_
    rw [hrunning]
    rfl
  | @resume _ b shown hresume =>
    unfold Turns.resume at hresume
    split at hresume
    · rename_i hrunning
      split at hresume
      · rw [← (Prod.mk.inj (Option.some.inj hresume)).1]
        exact h.setEntry (by rw [hrunning]; rfl)
      · rw [← (Prod.mk.inj (Option.some.inj hresume)).1]
        exact h.setEntry (by rw [hrunning]; rfl)
    · rename_i hrunning
      rw [← (Prod.mk.inj (Option.some.inj hresume)).1]
      exact h.setEntry (by rw [hrunning]; rfl)
    · rename_i hrunning
      rw [← (Prod.mk.inj (Option.some.inj hresume)).1]
      exact h.attempt _ _ (by rw [hrunning]; rfl)
    · rename_i hrunning
      split at hresume
      · have hnext := congrArg Prod.fst (Option.some.inj hresume)
        dsimp only at hnext
        rw [← hnext]
        exact h.startRun (by rw [hrunning]; rfl)
      · rw [← (Prod.mk.inj (Option.some.inj hresume)).1]
        exact h.setEntry (by rw [hrunning]; rfl)
    · exact absurd hresume (by simp)

theorem callsKept_run {es : List Event} (h : (scheduler configured).Run es s) : CallsKept s := by
  induction h with
  | @init s hinit =>
    intro b i
    rw [hinit.1 b, hinit.2]
    simp [waits]
  | step _ hstep _ ih => exact ih.step hstep

/-! ## Triggers -/

def Stage.need : Stage → ℕ
  | .attempting _ _ => 2
  | .decided _ _ => 2
  | .delaying _ => 1
  | .delayed _ => 1
  | .returned => 1

/-- A run that is asked for one more, and has gone on `k` times since. -/
def Asked (k : ℕ) (entry : Option Entry) : Prop := ∃ stage : Stage, entry = some ⟨true, stage⟩ ∧ k + stage.need ≤ 2

def Starts (b : Text) (es : List Event) : Prop := ∃ e ∈ es, e.buildId = b ∧ ∃ mayRetry, .attempt mayRetry ∈ e.shown

def resumesOf (b : Text) (es : List Event) : ℕ := es.countP fun e => e.buildId = b && e.input.isResume

theorem Stage.need_le (stage : Stage) : stage.need ≤ 2 := by
  cases stage with
  | attempting | decided => exact Nat.le_refl 2
  | delaying | delayed | returned => exact Nat.le_succ 1

theorem Asked.local {k : ℕ} {entry entry' : Option Entry} {resumed : Bool} {shown : List Shown} (h : Asked k entry)
    (hlocal : Local true resumed entry shown entry') :
    (∃ mayRetry, .attempt mayRetry ∈ shown) ∨ Asked (k + if resumed then 1 else 0) entry' := by
  obtain ⟨stage, hentry, hneed⟩ := h
  cases hlocal with
  | start hfirst => exact absurd hentry (by simp)
  | @again e =>
    obtain rfl := Option.some.inj hentry
    exact Or.inr ⟨stage, rfl, hneed⟩
  | late => exact Or.inr ⟨stage, hentry, hneed⟩
  | race | wake =>
    obtain ⟨rfl, rfl⟩ := Entry.mk.inj (Option.some.inj hentry)
    exact Or.inr ⟨_, rfl, hneed⟩
  | retry | done =>
    obtain ⟨rfl, rfl⟩ := Entry.mk.inj (Option.some.inj hentry)
    exact Or.inr ⟨_, rfl, hneed⟩
  | second => exact Or.inl ⟨_, List.mem_singleton_self _⟩
  | rerun => exact Or.inl ⟨true, List.mem_cons_of_mem _ (List.mem_singleton_self _)⟩
  | leave => exact absurd (congrArg Entry.again (Option.some.inj hentry)) (by simp)

theorem Asked.steps {k : ℕ} {b : Text} {es : List Event} (hsteps : (scheduler true).Steps s es s')
    (h : Asked k (s.running b)) : Starts b es ∨ Asked (k + resumesOf b es) (s'.running b) := by
  induction hsteps generalizing k with
  | refl => exact Or.inr h
  | @step s s₁ s₂ e es hstep hsteps ih =>
    have hnext : (e.buildId = b ∧ ∃ mayRetry, .attempt mayRetry ∈ e.shown) ∨
        Asked (k + if (e.buildId = b && e.input.isResume) then 1 else 0) (s₁.running b) := by
      by_cases hb : e.buildId = b
      · subst hb
        have hown : Local true e.input.isResume (s.running e.buildId) e.shown (s₁.running e.buildId) := Step.own hstep
        simpa using h.local hown
      · have hother : s₁.running b = s.running b := Step.other hstep (Ne.symm hb)
        rw [hother]
        exact Or.inr (by simpa [hb] using h)
    rcases hnext with hstarts | hasked
    · exact Or.inl ⟨e, List.mem_cons_self .., hstarts⟩
    · rcases ih hasked with ⟨f, hf, hstarts⟩ | hlater
      · exact Or.inl ⟨f, List.mem_cons_of_mem _ hf, hstarts⟩
      · refine Or.inr ?_
        rw [resumesOf, List.countP_cons]
        rwa [add_assoc, add_comm (ite _ _ _)] at hlater

theorem Step.triggered (h : Step configured s e s') {b : Text} (hinput : e.input = .trigger b) :
    e.buildId = b ∧ (e.shown = started configured ∨ (isRunning s b = true ∧ Asked 0 (s'.running b))) := by
  cases h with
  | @trigger b' =>
    obtain rfl : b' = b := Input.trigger.inj hinput
    refine ⟨rfl, ?_⟩
    cases hrunning : s.running b' with
    | none =>
      simp only [Turns.trigger, hrunning]
      exact Or.inl (startRun_first configured s b').1
    | some entry =>
      simp only [Turns.trigger, hrunning, State.setEntry_self]
      have hruns : isRunning s b' = true := by
        rw [isRunning, hrunning]
        rfl
      exact Or.inr ⟨hruns, entry.stage, rfl, by simpa using entry.stage.need_le⟩
  | settle | expire | wake | resume => exact absurd hinput (by simp)

/-! ## Ends -/

def Stage.left : Stage → ℕ
  | .attempting _ attempt => if attempt = 1 then 7 else 3
  | .decided attempt _ => if attempt = 1 then 6 else 2
  | .delaying _ => 5
  | .delayed _ => 4
  | .returned => 1

def left : Option Entry → ℕ
  | none => 0
  | some entry => (if entry.again then 7 else 0) + entry.stage.left

def Moves (s : State) : Input → Prop
  | .trigger _ => False
  | .settle i _ | .expire i => ∃ c, s.calls[i]? = some c ∧ c.isOpen = true
  | .wake _ => True
  | .resume _ => True

theorem left_first {stage : Stage} (h : stage.IsFirst configured) : stage.left ≤ 7 := by
  cases configured with
  | true =>
    obtain ⟨i, rfl⟩ := h
    exact Nat.le_refl 7
  | false =>
    obtain rfl : stage = .returned := h
    exact Nat.le_add_left 1 6

theorem left_resume {entry entry' : Option Entry} {shown now : List Shown} (hphase : Phase configured entry now)
    (h : Local configured true entry shown entry') : left entry' < left entry := by
  cases h with
  | retry => simp [left, Stage.left]
  | @done again n outcome =>
    have hleft : 2 ≤ Stage.left (.decided n outcome) := by
      show 2 ≤ if n = 1 then 6 else 2
      split
      · omega
      · omega
    simp only [left]
    exact Nat.add_lt_add_left (Nat.lt_of_lt_of_le (Nat.lt_succ_self 1) hleft) _
  | second =>
    obtain ⟨-, rfl, -⟩ := hphase
    simp [left, Stage.left]
  | @rerun stage hfirst =>
    have hleft := left_first hfirst
    show 0 + stage.left < 8
    omega
  | leave => exact Nat.lt_succ_self 0

/-- **A step that an entry waits for brings its end nearer.** -/
theorem Step.lowers {now : List Shown} (h : Step configured s e s') (hkept : CallsKept s)
    (hphase : Phase configured (s.running e.buildId) now) (hmoves : Moves s e.input) :
    left (s'.running e.buildId) < left (s.running e.buildId) := by
  have hclose : ∀ {i : ℕ} {c : Call} (c' : Call) (outcome : Except TurnError Unit), s.calls[i]? = some c →
      (∃ d, s.calls[i]? = some d ∧ d.isOpen = true) →
      left (((s.setCall i c').race c.buildId i outcome).running c.buildId) < left (s.running c.buildId) := by
    intro i c c' outcome hcall ⟨d, hd, hopen⟩
    obtain rfl := Option.some.inj (hcall.symm.trans hd)
    have hwaits := (hkept c.buildId i).mpr ⟨c, hcall, rfl, hopen⟩
    unfold waits at hwaits
    split at hwaits
    · rename_i again j n hrunning
      obtain rfl := Option.some.inj hwaits
      have hsame : (s.setCall j c').running c.buildId = some ⟨again, .attempting j n⟩ := hrunning
      rw [State.race, hsame, hrunning]
      dsimp only
      rw [if_pos rfl, State.setEntry_self]
      refine Nat.add_lt_add_left ?_ _
      show (if n = 1 then 6 else 2) < if n = 1 then 7 else 3
      by_cases hn : n = 1
      · rw [if_pos hn, if_pos hn]
        omega
      · rw [if_neg hn, if_neg hn]
        omega
    · exact absurd hwaits (by simp)
  cases h with
  | trigger => exact absurd hmoves id
  | settle hcall hsettled => exact hclose _ _ hcall hmoves
  | expire hcall hexpired => exact hclose _ _ hcall hmoves
  | wake hrunning =>
    dsimp only
    rw [hrunning, State.setEntry_self]
    simp [left, Stage.left]
  | resume hresume => exact left_resume hphase (resume_local hresume)

theorem Step.still (h : Step configured s e s') (hkept : CallsKept s) (hmoves : ¬Moves s e.input)
    (htrigger : ∀ b, e.input ≠ .trigger b) : s'.running = s.running := by
  have hclose : ∀ {i : ℕ} {c : Call} (c' : Call) (outcome : Except TurnError Unit), s.calls[i]? = some c →
      (¬∃ d, s.calls[i]? = some d ∧ d.isOpen = true) →
      ((s.setCall i c').race c.buildId i outcome).running = s.running := by
    intro i c c' outcome hcall hclosed
    unfold State.race
    split
    · rename_i again j n hrunning
      split
      · rename_i hj
        have hwaits : waits (s.running c.buildId) = some i := by
          have hsame : s.running c.buildId = some ⟨again, .attempting j n⟩ := hrunning
          rw [hsame, ← hj]
          rfl
        obtain ⟨d, hd, _, hopen⟩ := (hkept c.buildId i).mp hwaits
        exact absurd ⟨d, hd, hopen⟩ hclosed
      · rfl
    · rfl
  cases h with
  | trigger => exact absurd rfl (htrigger _)
  | settle hcall hsettled => exact hclose _ _ hcall hmoves
  | expire hcall hexpired => exact hclose _ _ hcall hmoves
  | wake | resume => exact absurd trivial hmoves

theorem goes_on (hkept : CallsKept s) {b : Text} (hrunning : isRunning s b = true) :
    ∃ e s', Step configured s e s' ∧ e.buildId = b ∧ Moves s e.input := by
  obtain ⟨⟨again, stage⟩, hentry⟩ := Option.isSome_iff_exists.mp hrunning
  cases stage with
  | attempting i n =>
    obtain ⟨c, hcall, hid, hopen⟩ := (hkept b i).mp (by rw [hentry]; rfl)
    have hexpired : c.expired = false := by
      simp only [Call.isOpen, Bool.and_eq_true, Bool.not_eq_true'] at hopen
      exact hopen.2
    exact ⟨_, _, .expire hcall hexpired, hid, c, hcall, hopen⟩
  | delaying n => exact ⟨_, _, .wake hentry, rfl, trivial⟩
  | decided n outcome =>
    have hresume : ∃ r, resume configured s b = some r := by
      unfold resume
      rw [hentry]
      cases outcome with
      | ok => exact ⟨_, rfl⟩
      | error e =>
        dsimp only
        split
        · exact ⟨_, rfl⟩
        · exact ⟨_, rfl⟩
    obtain ⟨⟨s₁, shown⟩, hresume⟩ := hresume
    exact ⟨_, _, .resume hresume, rfl, trivial⟩
  | delayed n =>
    have hresume : ∃ r, resume configured s b = some r := by
      unfold resume
      rw [hentry]
      exact ⟨_, rfl⟩
    obtain ⟨⟨s₁, shown⟩, hresume⟩ := hresume
    exact ⟨_, _, .resume hresume, rfl, trivial⟩
  | returned =>
    have hresume : ∃ r, resume configured s b = some r := by
      unfold resume
      rw [hentry]
      dsimp only
      split
      · exact ⟨_, rfl⟩
      · exact ⟨_, rfl⟩
    obtain ⟨⟨s₁, shown⟩, hresume⟩ := hresume
    exact ⟨_, _, .resume hresume, rfl, trivial⟩

structure Scheduled (configured : Bool) (es : List Event) (s : State) : Prop where
  one (i j : ℕ) (c d : Call) : s.calls[i]? = some c → s.calls[j]? = some d → c.buildId = d.buildId →
    c.isOpen = true → d.isOpen = true → i = j
  runs (b : Text) : ∃ runs : List (List Shown), shownOf b es = runs.flatten ∧ ∀ run ∈ runs, IsRun configured run
  followed (before after : List Event) (e : Event) (b : Text) : configured = true → es = before ++ e :: after →
    e.input = .trigger b → Starts b (e :: after) ∨ (isRunning s b = true ∧ resumesOf b after < 2)
  at_once (e : Event) (s' : State) (b : Text) : Step configured s e s' → e.input = .trigger b →
    isRunning s b = false → e.shown = started configured
  waiting (b : Text) : isRunning s b = true → ∃ e s', Step configured s e s' ∧ e.buildId = b ∧ Moves s e.input
  fewer (e : Event) (s' : State) : Step configured s e s' → Moves s e.input →
    left (s'.running e.buildId) < left (s.running e.buildId)
  still (e : Event) (s' : State) : Step configured s e s' → ¬Moves s e.input → (∀ b, e.input ≠ .trigger b) →
    s'.running = s.running

theorem Asked.isRunning {k : ℕ} {b : Text} (h : Asked k (s.running b)) : isRunning s b = true ∧ k < 2 := by
  obtain ⟨stage, hentry, hneed⟩ := h
  have hpos : 0 < stage.need := by
    cases stage with
    | _ => exact Nat.succ_pos _
  refine ⟨?_, by omega⟩
  rw [Turns.isRunning, hentry]
  rfl

theorem followed {before after : List Event} {b : Text} (h : (scheduler true).Run (before ++ e :: after) s)
    (hinput : e.input = .trigger b) : Starts b (e :: after) ∨ (isRunning s b = true ∧ resumesOf b after < 2) := by
  obtain ⟨s₁, _, hsteps⟩ := h.split
  obtain ⟨s₂, hstep, hafter⟩ := Machine.Steps.cons_inv hsteps
  obtain ⟨hb, hshown | ⟨-, hasked⟩⟩ := Step.triggered hstep hinput
  · refine Or.inl ⟨e, List.mem_cons_self .., hb, true, ?_⟩
    rw [hshown]
    exact List.mem_cons_of_mem _ (List.mem_singleton_self _)
  · rcases hasked.steps hafter with ⟨f, hf, hstarts⟩ | hlater
    · exact Or.inl ⟨f, List.mem_cons_of_mem _ hf, hstarts⟩
    · rw [Nat.zero_add] at hlater
      exact Or.inr hlater.isRunning

/-- **Turns are scheduled**, whatever comes between what. -/
theorem turns_scheduled (configured : Bool) (es : List Event) (s : State) (h : (scheduler configured).Run es s) :
    Scheduled configured es s where
  one := by
    intro i j c d hc hd hsame hopen hopen'
    have hkept := callsKept_run h
    have hi := (hkept c.buildId i).mpr ⟨c, hc, rfl, hopen⟩
    have hj := (hkept c.buildId j).mpr ⟨d, hd, hsame.symm, hopen'⟩
    exact Option.some.inj (hi.symm.trans hj)
  runs b := (traced_run h b).runs
  followed := by
    intro before after e b hconfigured hes hinput
    subst hconfigured hes
    exact Turns.followed h hinput
  at_once := by
    intro e s' b hstep hinput hidle
    obtain ⟨-, hshown | ⟨hrunning, -⟩⟩ := hstep.triggered hinput
    · exact hshown
    · exact absurd (hidle.symm.trans hrunning) (by simp)
  waiting b := goes_on (callsKept_run h)
  fewer := by
    intro e s' hstep hmoves
    obtain ⟨_, now, _, _, hphase⟩ := traced_run h e.buildId
    exact hstep.lowers (callsKept_run h) hphase hmoves
  still := by
    intro e s' hstep hmoves htrigger
    exact hstep.still (callsKept_run h) hmoves htrigger

namespace Bench

def build : Text := [98]

def quiet : State := ⟨fun _ => none, []⟩

def s₁ : State := quiet.attempt build ⟨false, .returned⟩ 1
def s₂ : State := s₁.setEntry build (some ⟨true, .attempting 0 1⟩)
def s₃ : State := (s₂.setCall 0 ⟨build, true, false⟩).race build 0 (.ok ())
def s₄ : State := s₃.setEntry build (some ⟨true, .returned⟩)
def s₅ : State := s₄.attempt build ⟨false, .returned⟩ 1

theorem queued_run : (scheduler true).Run [⟨.trigger build, build, [.run, .attempt true]⟩, ⟨.trigger build, build, []⟩,
    ⟨.settle 0 (.ok ()), build, []⟩, ⟨.resume build, build, []⟩, ⟨.resume build, build, [.run, .attempt true]⟩] s₅ := by
  have hinit : (scheduler true).init quiet := ⟨fun _ => rfl, rfl⟩
  have hstart : Step true quiet ⟨.trigger build, build, [.run, .attempt true]⟩ s₁ := .trigger
  have hqueue : Step true s₁ ⟨.trigger build, build, []⟩ s₂ := .trigger
  have hsettle : Step true s₂ ⟨.settle 0 (.ok ()), build, []⟩ s₃ :=
    .settle (c := ⟨build, false, false⟩) rfl rfl
  have hdone : Step true s₃ ⟨.resume build, build, []⟩ s₄ := .resume rfl
  have hagain : Step true s₄ ⟨.resume build, build, [.run, .attempt true]⟩ s₅ := .resume rfl
  exact .step (.step (.step (.step (.step (.init hinit) hstart trivial) hqueue trivial) hsettle trivial) hdone trivial)
    hagain trivial

theorem unset_run : (scheduler false).Run [⟨.trigger build, build, [.run]⟩, ⟨.resume build, build, []⟩]
    ((quiet.setEntry build (some ⟨false, .returned⟩)).setEntry build none) := by
  have hinit : (scheduler false).init quiet := ⟨fun _ => rfl, rfl⟩
  have hstart : Step false quiet ⟨.trigger build, build, [.run]⟩ (quiet.setEntry build (some ⟨false, .returned⟩)) :=
    .trigger
  have hleave : Step false (quiet.setEntry build (some ⟨false, .returned⟩)) ⟨.resume build, build, []⟩
      ((quiet.setEntry build (some ⟨false, .returned⟩)).setEntry build none) := .resume rfl
  exact .step (.step (.init hinit) hstart trivial) hleave trivial

end Bench

theorem turns_scheduled_bench : Scheduled true
    [⟨.trigger Bench.build, Bench.build, [.run, .attempt true]⟩, ⟨.trigger Bench.build, Bench.build, []⟩,
      ⟨.settle 0 (.ok ()), Bench.build, []⟩, ⟨.resume Bench.build, Bench.build, []⟩,
      ⟨.resume Bench.build, Bench.build, [.run, .attempt true]⟩] Bench.s₅ :=
  turns_scheduled true _ _ Bench.queued_run

/-- **Without an intake, no attempt follows a trigger.** -/
theorem unset_starts_nothing : ∃ (e : Event) (es : List Event) (s : State) (b : Text),
    (scheduler false).Run (e :: es) s ∧ e.input = .trigger b ∧ isRunning s b = false ∧ ¬Starts b (e :: es) := by
  refine ⟨_, _, _, Bench.build, Bench.unset_run, rfl, rfl, ?_⟩
  intro ⟨f, hf, _, mayRetry, hshown⟩
  rcases List.mem_cons.mp hf with rfl | hf
  · exact absurd hshown (by simp)
  · obtain rfl := List.mem_singleton.mp hf
    exact absurd hshown List.not_mem_nil

end Albusforge.Gateway.Turns
