import Mathlib
import Albusforge.Intake.Replies

/-!
# What a stream misses

The stream looks back from its cursor by a fixed time, since "a message committed after a
later one was already polled would sort before the cursor". A reply is such a message: it is
stamped one microsecond after the message it answers, whenever it is committed. The gateway
takes a new message once the last one has been unanswered for a minute, so a reply may be
committed when the cursor is further ahead than the lookback.

**A run emits every message by the next successful poll exactly when every message was
committed within the lookback of the cursor** (`complete_iff_prompt`). A message of the
user's always is; a reply to a message that has been superseded need not be (`reply_missed`).
-/

namespace Albusforge.Gateway

open Albusforge.Lib Albusforge.Intake

structure Services (δ : Type) where
  chat : World δ
  stream : StreamState
  now : ℕ
  made : List ℕ

inductive ServiceEvent (δ : Type)
  | chat (action : Action δ) (shown : Shown)
  | poll (out : List SseEvent) (successful : Bool)
  | close
  | tick (micros : ℕ)

def budgetMicros : ℕ := 48000000

section

variable {δ : Type}

def buildState (w : World δ) : BuildState :=
  { status := w.status, specVersion := (latestSpecOf w.specs).map SpecRow.version }

/-- What the services' clocks say of an action: the database stamps a message with its own time, and
a call that is not given up writes within its budget. -/
def Timely (s : Services δ) : Action δ → Prop
  | .create _ _ _ now => now = s.now
  | .submit sub => sub.startedAt ≤ sub.clock ∧ sub.clock = s.now
  | .move i (.write _ _) => ∀ t ∈ s.made[i]?, s.now ≤ t + budgetMicros
  | _ => True

instance (s : Services δ) (action : Action δ) : Decidable (Timely s action) := by
  unfold Timely
  split <;> infer_instance

def Services.madeAfter (s : Services δ) : Action δ → List ℕ
  | .start _ => s.made ++ [s.now]
  | _ => s.made

inductive ServiceStep [SpecData δ] (lookbackMs : ℕ) (resumeFrom : Option Cursor)
    (runTurn : TurnInput δ → TurnOutcome δ → Prop) : Services δ → ServiceEvent δ → Services δ → Prop
  | chat {s : Services δ} {action : Action δ} {shown : Shown} {w : World δ} :
      (turns runTurn).step s.chat (action, shown) w → Timely s action →
      ServiceStep lookbackMs resumeFrom runTurn s (.chat action shown)
        { s with chat := w, made := s.madeAfter action }
  | poll {s : Services δ} {slow : ℕ → Bool} {gone : Bool}
      {batch : Option (BuildState × List MessageRow)} {st : StreamState} {out : List SseEvent} :
      s.stream.closed = false →
      (∀ b, batch = some b →
        b = (buildState s.chat, messagesSince s.chat.table s.stream.cursor lookbackMs)) →
      poll lookbackMs resumeFrom slow batch { s.stream with closed := gone } = (st, out) →
      ServiceStep lookbackMs resumeFrom runTurn s (.poll out !st.closed) { s with stream := st }
  | close {s : Services δ} :
      ServiceStep lookbackMs resumeFrom runTurn s .close
        { s with stream := { s.stream with closed := true } }
  | tick {s : Services δ} {micros : ℕ} :
      ServiceStep lookbackMs resumeFrom runTurn s (.tick micros) { s with now := s.now + micros }

def services [SpecData δ] (lookbackMs : ℕ) (resumeFrom : Option Cursor)
    (runTurn : TurnInput δ → TurnOutcome δ → Prop) : Machine (Services δ) (ServiceEvent δ) where
  init s := (∃ es, (turns runTurn).Run es s.chat) ∧ s.stream = .opened resumeFrom ∧
    s.made.length = s.chat.calls.length
  step := ServiceStep lookbackMs resumeFrom runTurn

def ServiceEvent.view : ServiceEvent δ → StreamEvent
  | .chat _ shown => .commit shown.rows
  | .poll out successful => .poll out successful
  | .close => .close
  | .tick _ => .commit []

def cursorAfter (resumeFrom : Option Cursor) (es : List (ServiceEvent δ)) : Option Cursor :=
  (places (written (es.map ServiceEvent.view))).foldl advance resumeFrom

def Unpolled (es : List (ServiceEvent δ)) : Prop := ∀ out successful, .poll out successful ∉ es

def Complete (resumeFrom : Option Cursor) (es : List (ServiceEvent δ)) : Prop :=
  ∀ before action shown between out after,
    es = before ++ .chat action shown :: (between ++ .poll out true :: after) → Unpolled between →
    ∀ m ∈ shown.rows, ∀ p, m.position = some p → (∀ r, resumeFrom = some r → r < p) →
      .messageCreated (toChatMessage m) p ∈ out

def Prompt (lookbackMs : ℕ) (resumeFrom : Option Cursor) (es : List (ServiceEvent δ)) : Prop :=
  ∀ before action shown between out after,
    es = before ++ .chat action shown :: (between ++ .poll out true :: after) → Unpolled between →
    ∀ m ∈ shown.rows, ∀ p, m.position = some p → (∀ r, resumeFrom = some r → r < p) →
      InLookback lookbackMs (cursorAfter resumeFrom before) m.createdAt

end

section

variable {δ : Type} [SpecData δ] {runTurn : TurnInput δ → TurnOutcome δ → Prop}
  {lookbackMs : ℕ} {resumeFrom : Option Cursor}

theorem step_table {w w' : World δ} {action : Action δ} {shown : Shown}
    (h : (turns runTurn).step w (action, shown) w') : w'.table = w.table ++ shown.rows := by
  obtain ⟨hnext, -⟩ := h
  cases action with
  | create id askText clientMessageId now =>
      simp only [World.next] at hnext
      split at hnext
      · obtain ⟨rfl, rfl⟩ := Prod.mk.inj (Option.some.inj hnext)
        rfl
      · exact absurd hnext (by simp)
  | submit s =>
      simp only [World.next] at hnext
      split at hnext
      · exact absurd hnext (by simp)
      · split at hnext
        · obtain ⟨rfl, rfl⟩ := Prod.mk.inj (Option.some.inj hnext)
          rfl
        · obtain ⟨rfl, rfl⟩ := Prod.mk.inj (Option.some.inj hnext)
          exact (List.append_nil _).symm
  | start mayRetry =>
      obtain ⟨rfl, rfl⟩ := Prod.mk.inj (Option.some.inj hnext)
      exact (List.append_nil _).symm
  | move i m =>
      obtain ⟨c, -, hmove⟩ := Option.bind_eq_some_iff.mp hnext
      cases move_moved hmove with
      | quiet _ => exact (List.append_nil _).symm
      | wrote _ hwrite => exact (write_wrote hwrite).table
  | otherLocks =>
      simp only [World.next] at hnext
      split at hnext
      · obtain ⟨rfl, rfl⟩ := Prod.mk.inj (Option.some.inj hnext)
        exact (List.append_nil _).symm
      · exact absurd hnext (by simp)
  | otherUnlocks =>
      simp only [World.next] at hnext
      split at hnext
      · obtain ⟨rfl, rfl⟩ := Prod.mk.inj (Option.some.inj hnext)
        exact (List.append_nil _).symm
      · exact absurd hnext (by simp)

def Services.world (s : Services δ) : StreamWorld := ⟨s.chat.table, s.stream⟩

def Chatted (runTurn : TurnInput δ → TurnOutcome δ → Prop) (s : Services δ) : Prop :=
  ∃ es, (turns runTurn).Run es s.chat

/-- **A step of the services is a step of the stream beside a table that grows.** -/
theorem service_stream {s s' : Services δ} {e : ServiceEvent δ} (hchat : Chatted runTurn s)
    (h : ServiceStep lookbackMs resumeFrom runTurn s e s') :
    StreamStep lookbackMs resumeFrom s.world e.view s'.world ∧ Chatted runTurn s' := by
  obtain ⟨es, hrun⟩ := hchat
  cases h with
  | @chat action shown w hstep _ =>
      have hrun' : (turns runTurn).Run (es ++ [(action, shown)]) w := .step hrun hstep trivial
      have htable := step_table hstep
      have hids := (inv_run hrun').dialogue.ids
      rw [htable] at hids
      refine ⟨?_, _, hrun'⟩
      have hcommit := @StreamStep.commit lookbackMs resumeFrom s.world shown.rows hids
      rwa [Services.world, ← htable] at hcommit
  | poll hopen hbatch hpoll =>
      refine ⟨.poll hopen ?_ hpoll, es, hrun⟩
      intro b hb
      rw [hbatch b hb]
      rfl
  | close => exact ⟨.close, es, hrun⟩
  | tick =>
      have hids := (inv_run hrun).dialogue.ids
      have hcommit := @StreamStep.commit lookbackMs resumeFrom s.world [] (by simpa [Services.world] using hids)
      rw [Services.world, List.append_nil] at hcommit
      exact ⟨hcommit, es, hrun⟩

theorem services_steps {s s' : Services δ} {es : List (ServiceEvent δ)} (hchat : Chatted runTurn s)
    (h : (services lookbackMs resumeFrom runTurn).Steps s es s') :
    (streamMachine lookbackMs resumeFrom).Steps s.world (es.map ServiceEvent.view) s'.world ∧
      Chatted runTurn s' := by
  induction h with
  | refl s => exact ⟨.refl _, hchat⟩
  | step hone _ ih =>
      obtain ⟨hstep, hchat'⟩ := service_stream hchat hone
      obtain ⟨hsteps, hlast⟩ := ih hchat'
      exact ⟨.step hstep hsteps, hlast⟩

theorem services_run {s : Services δ} {es : List (ServiceEvent δ)}
    (h : (services lookbackMs resumeFrom runTurn).Run es s) :
    Chatted runTurn s ∧ ∃ first, (streamMachine lookbackMs resumeFrom).Run
      (.commit first :: es.map ServiceEvent.view) s.world := by
  refine Machine.RunWhere.invariant (I := fun es s => Chatted runTurn s ∧ ∃ first,
    (streamMachine lookbackMs resumeFrom).Run (.commit first :: es.map ServiceEvent.view) s.world)
    ?_ ?_ h
  · intro s ⟨hchat, hopened, _⟩
    refine ⟨hchat, s.chat.table, ?_⟩
    obtain ⟨es, hrun⟩ := hchat
    have hids := (inv_run hrun).dialogue.ids
    have hfirst : (streamMachine lookbackMs resumeFrom).Run [] ⟨[], s.stream⟩ := .init ⟨hopened, rfl⟩
    exact hfirst.step (@StreamStep.commit lookbackMs resumeFrom ⟨[], s.stream⟩ s.chat.table hids) trivial
  · intro es s e s' ⟨hchat, first, hrun⟩ hstep _
    obtain ⟨hstream, hchat'⟩ := service_stream hchat hstep
    refine ⟨hchat', first, ?_⟩
    rw [List.map_append, ← List.cons_append]
    exact hrun.step hstream trivial

theorem cursor_eq {s : Services δ} {es : List (ServiceEvent δ)}
    (h : (services lookbackMs resumeFrom runTurn).Run es s) :
    s.stream.cursor = cursorAfter resumeFrom es := by
  obtain ⟨-, first, hrun⟩ := services_run h
  obtain ⟨t, ht⟩ := streaming_run hrun
  have hshown : places (written (es.map ServiceEvent.view)) = t.shown := by
    rw [← (Follow.Run.invariant ht.run).shown, shows_view]
    rfl
  have hadvance : advance = Follow.furthest := by
    funext c p
    exact advance_eq c p
  rw [cursorAfter, hshown, hadvance]
  exact ht.follows.memory.cursor

theorem emitted_iff_prompt {s : Services δ} {before between after : List (ServiceEvent δ)}
    {action : Action δ} {shown : Shown} {out : List SseEvent}
    (h : (services lookbackMs resumeFrom runTurn).Run
      (before ++ .chat action shown :: (between ++ .poll out true :: after)) s)
    (hquiet : Unpolled between) {m : MessageRow} (hm : m ∈ shown.rows) {p : Cursor}
    (hp : m.position = some p) (hafter : ∀ r, resumeFrom = some r → r < p) :
    .messageCreated (toChatMessage m) p ∈ out ↔
      InLookback lookbackMs (cursorAfter resumeFrom before) m.createdAt := by
  obtain ⟨s₀, hbefore, hrest⟩ := h.split
  obtain ⟨s₁, hcommit, hrest⟩ := hrest.cons_inv
  obtain ⟨s₂, hbetween, hrest⟩ := hrest.split
  obtain ⟨s₃, hpoll, -⟩ := hrest.cons_inv
  obtain ⟨hchat, first, hrun⟩ := services_run hbefore
  obtain ⟨hcommit', hchat₁⟩ := service_stream hchat hcommit
  obtain ⟨hbetween', hchat₂⟩ := services_steps hchat₁ hbetween
  obtain ⟨hpoll', -⟩ := service_stream hchat₂ hpoll
  have hnopoll : NoPoll (between.map ServiceEvent.view) := by
    intro out successful hmem
    obtain ⟨e, he, hview⟩ := List.mem_map.mp hmem
    cases e with
    | poll out' successful' => exact hquiet out' successful' he
    | chat action shown => exact absurd hview (by simp [ServiceEvent.view])
    | close => exact absurd hview (by simp [ServiceEvent.view])
    | tick micros => exact absurd hview (by simp [ServiceEvent.view])
  rw [emitted_next_poll_iff hrun hcommit' hnopoll hbetween' hpoll' hm hp, ← cursor_eq hbefore]
  exact and_iff_right hafter

/--
**A run emits every message by the next successful poll exactly when every message was committed
within the lookback of the stream's cursor.**
-/
theorem complete_iff_prompt {es : List (ServiceEvent δ)} {s : Services δ}
    (h : (services lookbackMs resumeFrom runTurn).Run es s) :
    Complete resumeFrom es ↔ Prompt lookbackMs resumeFrom es := by
  constructor
  · intro hall before action shown between out after heq hquiet m hm p hp hafter
    subst heq
    exact (emitted_iff_prompt h hquiet hm hp hafter).mp
      (hall before action shown between out after rfl hquiet m hm p hp hafter)
  · intro hall before action shown between out after heq hquiet m hm p hp hafter
    subst heq
    exact (emitted_iff_prompt h hquiet hm hp hafter).mpr
      (hall before action shown between out after rfl hquiet m hm p hp hafter)

end

namespace Bench

open Albusforge.Intake.Bench

inductive Deed
  | act (action : Action Draft)
  | look
  | wait (micros : ℕ)

def deed (s : Services Draft) : Deed → Option (Services Draft × ServiceEvent Draft)
  | .act action =>
      if Timely s action then
        (s.chat.next action).map fun r =>
          ({ s with chat := r.1, made := s.madeAfter action }, .chat action r.2)
      else none
  | .look =>
      if s.stream.closed then none
      else
        let batch := (buildState s.chat, messagesSince s.chat.table s.stream.cursor 5000)
        let r := poll 5000 none (fun _ => false) (some batch) { s.stream with closed := false }
        some ({ s with stream := r.1 }, .poll r.2 !r.1.closed)
  | .wait micros => some ({ s with now := s.now + micros }, .tick micros)

def deeds (s : Services Draft) : List Deed → Option (Services Draft × List (ServiceEvent Draft))
  | [] => some (s, [])
  | d :: ds => (deed s d).bind fun r => (deeds r.1 ds).map fun rest => (rest.1, r.2 :: rest.2)

theorem deed_step {s s' : Services Draft} {d : Deed} {e : ServiceEvent Draft}
    (h : deed s d = some (s', e)) : ServiceStep 5000 none anything s e s' := by
  cases d with
  | act action =>
      simp only [deed] at h
      split at h
      · rename_i htimely
        obtain ⟨⟨w, shown⟩, hnext, heq⟩ := Option.map_eq_some_iff.mp h
        obtain ⟨rfl, rfl⟩ := Prod.mk.inj heq
        exact .chat ⟨hnext, allowed_of_ending fun _ _ => trivial⟩ htimely
      · exact absurd h (by simp)
  | look =>
      simp only [deed] at h
      split at h
      · exact absurd h (by simp)
      · rename_i hopen
        obtain ⟨rfl, rfl⟩ := Prod.mk.inj (Option.some.inj h)
        refine @ServiceStep.poll _ _ 5000 none anything s (fun _ => false) false
          (some (buildState s.chat, messagesSince s.chat.table s.stream.cursor 5000)) _ _
          (by simpa using hopen) ?_ rfl
        intro b hb
        exact (Option.some.inj hb).symm
  | wait micros =>
      obtain ⟨rfl, rfl⟩ := Prod.mk.inj (Option.some.inj h)
      exact .tick

theorem deeds_run {s s' : Services Draft} {ds : List Deed} {es es' : List (ServiceEvent Draft)}
    (h : (services 5000 none anything).Run es s) (hdeeds : deeds s ds = some (s', es')) :
    (services 5000 none anything).Run (es ++ es') s' := by
  induction ds generalizing s es es' with
  | nil =>
      obtain ⟨rfl, rfl⟩ := Prod.mk.inj (Option.some.inj hdeeds)
      rwa [List.append_nil]
  | cons d ds ih =>
      obtain ⟨⟨s₁, e⟩, hone, hrest⟩ := Option.bind_eq_some_iff.mp hdeeds
      obtain ⟨⟨s₂, es₂⟩, hds, heq⟩ := Option.map_eq_some_iff.mp hrest
      obtain ⟨rfl, rfl⟩ := Prod.mk.inj heq
      have hall := ih (h.step (deed_step hone) trivial) hds
      rwa [List.append_assoc, List.singleton_append] at hall

def created : List (Action Draft) := [.create (uuid 1) (js "a lamp") none 1000000]

def opened : Services Draft :=
  { chat := after created, stream := .opened none,
    now := 1000000, made := [] }

def second : Submission :=
  { text := js "and a bell", clientMessageId := (uuid 3).val, id := uuid 3, startedAt := 63000000,
    clock := 63000000, owned := true, admitted := true }

def late : List Deed :=
  [.look, .wait 61000000, .act (.start true), .act (.move 0 .begin), .act (.move 0 .tryLock),
    .act (.move 0 .read), .act (.move 0 .readSpecs), .act (.move 0 .readRounds), .wait 1000000,
    .act (.submit second), .look, .wait 7000000, .act (.move 0 (.turned (.spec decision)))]

def replied : List Deed := [.act (.move 0 (.write (uuid 2) false)), .look]

def ended (ds : List Deed) : Services Draft := ((deeds opened ds).map Prod.fst).getD opened

def happened (ds : List Deed) : List (ServiceEvent Draft) := ((deeds opened ds).map Prod.snd).getD []

theorem deeds_ran {ds : List Deed} (h : (deeds opened ds).isSome = true) :
    (services 5000 none anything).Run (happened ds) (ended ds) := by
  obtain ⟨⟨s, es⟩, hs⟩ := Option.isSome_iff_exists.mp h
  have hfirst : (services 5000 none anything).Run [] opened :=
    .init ⟨⟨_, ran (show (nowhere.run created).isSome = true from rfl)⟩, rfl, rfl⟩
  have hrun := deeds_run hfirst hs
  rw [List.nil_append] at hrun
  simpa [happened, ended, hs] using hrun

def lateReply : MessageRow :=
  { id := uuid 2, role := .assistant, text := decision.reply, clientMessageId := none,
    createdAt := 1000001 }

def lateAnswer : Answer :=
  { target := { id := uuid 1, role := .user, text := js "a lamp", clientMessageId := none,
                createdAt := 1000000 },
    reply := lateReply }

end Bench

theorem complete_iff_prompt_bench :
    Complete none (Bench.happened Bench.late) ↔ Prompt 5000 none (Bench.happened Bench.late) :=
  complete_iff_prompt (Bench.deeds_ran (by decide))

/-- **A reply committed after a second message was taken is never shown.** -/
theorem reply_missed : ¬ ∀ es s, (services 5000 none Intake.Bench.anything).Run es s → Complete none es := by
  intro h
  have hcomplete := h (Bench.happened (Bench.late ++ Bench.replied))
    (Bench.ended (Bench.late ++ Bench.replied)) (Bench.deeds_ran (by decide))
  have hevents : Bench.happened (Bench.late ++ Bench.replied) = Bench.happened Bench.late ++
      [.chat (.move 0 (.write (Intake.Bench.uuid 2) false)) (.answered Bench.lateAnswer),
        .poll [.buildUpdated ⟨.asking, some 1⟩ (some ⟨63000000, Intake.Bench.uuid 3⟩)] true] := rfl
  have hshown := hcomplete _ _ _ [] _ [] hevents (by simp [Unpolled]) Bench.lateReply
    (by simp [Shown.rows, Bench.lateAnswer]) ⟨1000001, Intake.Bench.uuid 2⟩ rfl (by simp)
  exact absurd hshown (by simp)

end Albusforge.Gateway
