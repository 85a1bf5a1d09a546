import Albusforge.Llm.Tools

/-!
# The tool loop keeps to its protocol

Provider, executors, callbacks and signal may answer anything, so the record of a run is all that constrains it
(`heard`). The record is a list of turns, each a request with its response and the results of its tool uses, and then
the beginning of one more (`Spoken`). Each result has its own stretch of the record (`Answer`).
-/

namespace Albusforge.Llm.Tools

open Lib

/-! ## The record of a run -/

inductive Event
  | signal (reason : Option Thrown)
  | attempt (request : LlmRequest) (answer : Except Thrown LlmResponse)
  | reported (response : LlmResponse) (handled : Except Thrown Unit)
  | executed (use : ToolUse) (outcome : Except Thrown Resolved)
  | noted (name : Text) (note : Value) (handled : Except Thrown Unit)

abbrev Record : Type := List Event

def eventOf : (op : ToolOp) → op.Ret → Event
  | .signal, r => .signal r
  | .create request, r => .attempt request r
  | .onResponse response, r => .reported response r
  | .execute use, r => .executed use r
  | .onToolCall name note, r => .noted name note r

def heard : Proc.Surroundings ToolOp.Ret Record := fun log op r log' => log' = log ++ [eventOf op r]

def Event.isTool : Event → Bool
  | signal _ | executed .. | noted .. => true
  | attempt .. | reported .. => false

def Event.isAttempt : Event → Bool
  | attempt .. => true
  | _ => false

def Event.isNoted : Event → Bool
  | noted .. => true
  | _ => false

def Event.executed? : Event → Option ToolUse
  | executed use _ => some use
  | _ => none

def Value.thrown? (value : Value) : Option Thrown :=
  match value.stringify with
  | .error thrown => some thrown
  | .ok _ => none

/-- What the `try` around an executor is left with because of this. -/
def Event.thrown? : Event → Option Thrown
  | executed _ (.error thrown) => some thrown
  | executed _ (.ok .nullish) => some typeError
  | executed _ (.ok (.fields result _)) => result.thrown?
  | noted _ _ (.error thrown) => some thrown
  | _ => none

/-! ## The protocol -/

structure Answer (options : ToolLoopOptions) (use : ToolUse) (stretch : Record) (result : ToolResultBlock) : Prop where
  id : result.toolUseId = use.id
  ran : stretch.filterMap Event.executed? = if use.name ∈ options.executors then [use] else []
  unknown : use.name ∉ options.executors → result.isError = true
  failed : ∀ e ∈ stretch, e.thrown?.isSome → result.isError = true
  quiet : ∀ e ∈ stretch, e.isTool = true

inductive Answers (options : ToolLoopOptions) : List ToolUse → Record → List ToolResultBlock → Prop
  | nil : Answers options [] [] []
  | cons {use : ToolUse} {uses : List ToolUse} {stretch rest : Record} {result : ToolResultBlock}
      {results : List ToolResultBlock} : Answer options use stretch result → Answers options uses rest results →
      Answers options (use :: uses) (stretch ++ rest) (result :: results)

structure Turn where
  request : LlmRequest
  response : LlmResponse
  stretches : Record
  results : List ToolResultBlock

/-- What `onResponse` is told. -/
def report (options : ToolLoopOptions) (response : LlmResponse) : Record :=
  if options.onResponse then [.reported response (.ok ())] else []

def Turn.record (options : ToolLoopOptions) (turn : Turn) : Record :=
  .signal none :: .attempt turn.request (.ok turn.response) :: (report options turn.response ++ turn.stretches)

def Turn.messages (turn : Turn) : List Message := [.assistant turn.response.content, .user turn.results]

def ToolLoopOptions.request (options : ToolLoopOptions) (messages : List Message) : LlmRequest :=
  buildToolRequest options.route options.model options.maxTokens options.tools messages

def Chained (options : ToolLoopOptions) : List Message → List Turn → Prop
  | _, [] => True
  | messages, turn :: turns =>
    turn.request = options.request messages ∧ turn.response.stopReason = .toolUse ∧
      Answers options turn.response.uses turn.stretches turn.results ∧ Chained options (messages ++ turn.messages) turns

/-- A turn that is cut off or is the last: what there is of it. Only where it is cut off may its response be
unreported. -/
inductive Begun (options : ToolLoopOptions) (messages : List Message) (cut : Bool) : Record → Prop
  | nothing : Begun options messages cut []
  | signal (reason : Option Thrown) : Begun options messages cut [.signal reason]
  | failed (thrown : Thrown) :
      Begun options messages cut [.signal none, .attempt (options.request messages) (.error thrown)]
  | unreported (response : LlmResponse) : cut = true →
      Begun options messages cut [.signal none, .attempt (options.request messages) (.ok response)]
  | unheard (response : LlmResponse) (thrown : Thrown) : options.onResponse = true →
      Begun options messages cut
        [.signal none, .attempt (options.request messages) (.ok response), .reported response (.error thrown)]
  | reported {response : LlmResponse} {rest : Record} : (∀ e ∈ rest, e.isTool = true) →
      Begun options messages cut
        (.signal none :: .attempt (options.request messages) (.ok response) :: (report options response ++ rest))

def Stops (log : Record) : Prop :=
  ∃ e ∈ log.getLast?, (∃ reason, e = .signal (some reason)) ∨ ∃ response thrown, e = .reported response (.error thrown)

/-- A run keeps to the protocol, with `x` for what it has returned or thrown, if it has. -/
structure Spoken (options : ToolLoopOptions) (log : Record) (x : Option (Except Thrown ToolLoopOutcome)) : Prop where
  calls : log.countP Event.isAttempt ≤ options.maxIterations
  turns : ∃ (turns : List Turn) (rest : Record),
    log = turns.flatMap (Turn.record options) ++ rest ∧ Chained options (options.messages.map .given) turns ∧
      Begun options (options.messages.map .given ++ turns.flatMap Turn.messages) x.isNone rest ∧
      ∀ outcome, x = some (.ok outcome) → outcome.toolCalls = (turns.flatMap fun turn => turn.response.uses).length
  thrown : ∀ thrown, x = some (.error thrown) → Stops log

/-! ## Where it is kept to -/

def ToolUse.forged (use : ToolUse) : Bool :=
  match objectPrototype use.name with
  | some b => (b.call use.input).isOk
  | none => false

structure Fair (options : ToolLoopOptions) (log : Record) : Prop where
  unforged : ∀ request response, .attempt request (.ok response) ∈ log → response.stopReason = .toolUse →
    ∀ use ∈ response.uses, use.name ∉ options.executors → use.forged = false
  readable : ∀ before e between after, log = before ++ e :: (between ++ .signal none :: after) →
    (∀ e' ∈ between, e'.isNoted = true) → e.thrown? ≠ some .unreadable

theorem Fair.back {options : ToolLoopOptions} {log : Record} {op : ToolOp} {r : op.Ret} {log' : Record}
    (hop : heard log op r log') (h : Fair options log') : Fair options log := by
  obtain rfl : log' = log ++ [eventOf op r] := hop
  refine ⟨?_, ?_⟩
  · intro request response hmem
    exact h.unforged request response (List.mem_append_left _ hmem)
  · rintro before e between after rfl
    exact h.readable before e between (after ++ [eventOf op r]) (by simp)

def fair (options : ToolLoopOptions) : Proc.Surroundings ToolOp.Ret Record :=
  fun log op r log' => heard log op r log' ∧ Fair options log'

/-! ## The tools of one response -/

section Uses

variable {options : ToolLoopOptions} {log : Record}

def Goes (log : Record) (P : Record → Prop) (log' : Record) : Prop :=
  ∃ stretch, log' = log ++ stretch ∧ (∀ e ∈ stretch, e.isTool = true) ∧ P stretch

theorem Goes.refl {P : Record → Prop} (h : P []) : Goes log P log := ⟨[], by simp, by simp, h⟩

theorem Goes.quiet {P : Record → Prop} {log' : Record} (h : Goes log P log') : Goes log (fun _ => True) log' := by
  obtain ⟨stretch, hlog, htool, -⟩ := h
  exact ⟨stretch, hlog, htool, trivial⟩

theorem wp_tool (op : ToolOp) {stretch : Record} (hlog : ∀ e ∈ stretch, e.isTool = true)
    (hop : ∀ r, (eventOf op r).isTool = true) :
    Proc.wp (fair options) (Proc.ask op)
      (fun r log' => log' = log ++ (stretch ++ [eventOf op r]) ∧ Fair options log') (Goes log fun _ => True)
      (log ++ stretch) := by
  refine ⟨⟨stretch, rfl, hlog, trivial⟩, ?_⟩
  rintro r log' ⟨hheard, hfair⟩
  obtain rfl : log' = log ++ stretch ++ [eventOf op r] := hheard
  rw [List.append_assoc] at hfair ⊢
  refine ⟨⟨rfl, hfair⟩, stretch ++ [eventOf op r], rfl, ?_, trivial⟩
  intro e he
  rcases List.mem_append.mp he with he | he
  · exact hlog e he
  · rw [List.mem_singleton.mp he]
    exact hop r

/-- What the `try` around an executor leads to. -/
structure Tried (options : ToolLoopOptions) (use : ToolUse) (r : Except Thrown ToolResultBlock) (stretch : Record) :
    Prop where
  ran : stretch.filterMap Event.executed? = if use.name ∈ options.executors then [use] else []
  result : ∀ result, r = .ok result → result.toolUseId = use.id ∧ use.name ∈ options.executors ∧
    ∀ e ∈ stretch, e.thrown? = none
  unreadable : r = .error .unreadable → ∃ before e between, stretch = before ++ e :: between ∧
    (∀ e' ∈ between, e'.isNoted = true) ∧ e.thrown? = some .unreadable

theorem builtin_throws {b : Builtin} {input : Json JsonDouble} (h : (b.call input).isOk = false) :
    b.call input = .error typeError := by
  cases b with
  | constructor => cases h
  | toString => cases h
  | isPrototypeOf => cases input <;> first | rfl | cases h
  | onThis => rfl
  | proto => rfl

theorem inherited_throws {use : ToolUse} {b : Builtin} (hforged : use.name ∉ options.executors → use.forged = false)
    (h : options.executor use.name = some (.inherited b)) :
    use.name ∉ options.executors ∧ b.call use.input = .error typeError := by
  unfold ToolLoopOptions.executor at h
  split at h
  · cases h
  · rename_i hnot
    refine ⟨hnot, builtin_throws ?_⟩
    have hforged := hforged hnot
    unfold ToolUse.forged at hforged
    cases hproto : objectPrototype use.name with
    | none => rw [hproto] at h; cases h
    | some b' =>
      rw [hproto] at h hforged
      cases h
      exact hforged

theorem registered_mem {name : Text} (h : options.executor name = some .registered) : name ∈ options.executors := by
  unfold ToolLoopOptions.executor at h
  split at h
  · assumption
  · cases hproto : objectPrototype name <;> rw [hproto] at h <;> cases h

theorem wp_noteCall {name : Text} {note : Value} {stretch : Record} (hlog : ∀ e ∈ stretch, e.isTool = true) :
    Proc.wp (fair options) (noteCall options name note)
      (fun r log' => ∃ notes, log' = log ++ (stretch ++ notes) ∧
        (notes = [] ∧ r = .ok () ∨ notes = [.noted name note r]))
      (Goes log fun _ => True) (log ++ stretch) := by
  unfold noteCall
  split
  · refine Proc.wp_mono ?_ (fun _ hc => hc) (wp_tool _ hlog fun _ => rfl)
    rintro r log' ⟨rfl, -⟩
    exact ⟨[.noted name note r], rfl, Or.inr rfl⟩
  · exact ⟨⟨[], by simp, Or.inl ⟨rfl, rfl⟩⟩, stretch, rfl, hlog, trivial⟩

theorem wp_tryExecutor {executor : Executor} {use : ToolUse} (hexec : options.executor use.name = some executor)
    (hforged : use.name ∉ options.executors → use.forged = false) :
    Proc.wp (fair options) (tryExecutor options executor use) (fun r => Goes log (Tried options use r))
      (Goes log fun _ => True) log := by
  have hstart : Goes log (fun _ => True) log := .refl trivial
  cases executor with
  | inherited b =>
    obtain ⟨hnot, hthrows⟩ := inherited_throws hforged hexec
    have hcall : callExecutor (.inherited b) use = pure (.error typeError) := by
      change pure (b.call use.input) = _
      rw [hthrows]
    unfold tryExecutor
    rw [hcall]
    exact ⟨.refl ⟨by simp [hnot], nofun, nofun⟩, hstart⟩
  | registered =>
    have hmem := registered_mem hexec
    have hnone : ∀ e ∈ ([] : Record), e.isTool = true := nofun
    have hask : Proc.wp (fair options) (Proc.ask (ToolOp.execute use)) _ _ (log ++ []) :=
      wp_tool (.execute use) hnone fun _ => rfl
    rw [List.append_nil] at hask
    refine Proc.wp_bind (Proc.wp_mono ?_ (fun _ hc => hc) hask)
    rintro r log' ⟨rfl, -⟩
    have htool : ∀ e ∈ ([.executed use r] : Record), e.isTool = true := by simp [Event.isTool]
    have hcut : Goes log (fun _ => True) (log ++ [.executed use r]) := ⟨_, rfl, htool, trivial⟩
    match r with
    | .error thrown =>
      refine ⟨⟨[.executed use (.error thrown)], rfl, htool, ?_, nofun, ?_⟩, hcut⟩
      · simp [Event.executed?, hmem]
      · rintro ⟨⟩
        exact ⟨[], _, [], rfl, by simp, rfl⟩
    | .ok .nullish =>
      refine ⟨⟨[.executed use (.ok .nullish)], rfl, htool, ?_, nofun, nofun⟩, hcut⟩
      simp [Event.executed?, hmem]
    | .ok (.fields result note) =>
      refine Proc.wp_bind (Proc.wp_mono ?_ (fun _ hc => hc) (wp_noteCall htool))
      rintro handled log' ⟨notes, rfl, hnotes⟩
      have hnoted : ∀ e ∈ notes, e.isNoted = true ∧ e.isTool = true ∧ e.executed? = none := by
        rcases hnotes with ⟨rfl, -⟩ | rfl <;> simp [Event.isNoted, Event.isTool, Event.executed?]
      have htool' : ∀ e ∈ [.executed use (.ok (.fields result note))] ++ notes, e.isTool = true := by
        intro e he
        rcases List.mem_append.mp he with he | he
        · exact htool e he
        · exact (hnoted e he).2.1
      have hran : ([.executed use (.ok (.fields result note))] ++ notes : Record).filterMap Event.executed? =
          if use.name ∈ options.executors then [use] else [] := by
        have hnone : notes.filterMap Event.executed? = [] :=
          List.filterMap_eq_nil_iff.mpr fun e he => (hnoted e he).2.2
        rw [List.filterMap_append, hnone, if_pos hmem]
        rfl
      have hcut' : Goes log (fun _ => True) (log ++ ([.executed use (.ok (.fields result note))] ++ notes)) :=
        ⟨_, rfl, htool', trivial⟩
      match handled with
      | .error thrown =>
        -- the callback has thrown
        have hnotes : notes = [.noted use.name note (.error thrown)] := hnotes.resolve_left (by simp)
        refine ⟨⟨[.executed use (.ok (.fields result note))] ++ notes, rfl, htool', hran, nofun, ?_⟩, hcut'⟩
        rintro ⟨⟩
        exact ⟨[.executed use (.ok (.fields result note))], _, [], by rw [hnotes], by simp, rfl⟩
      | .ok () =>
        refine ⟨⟨[.executed use (.ok (.fields result note))] ++ notes, rfl, htool', hran, ?_, ?_⟩, hcut'⟩
        · intro block hblock
          cases htext : result.stringify with
          | error thrown => rw [htext] at hblock; cases hblock
          | ok content =>
            rw [htext] at hblock
            cases hblock
            refine ⟨rfl, hmem, ?_⟩
            have hnone : result.thrown? = none := by rw [Value.thrown?, htext]
            rcases hnotes with ⟨rfl, -⟩ | rfl <;> simp [Event.thrown?, hnone]
        · intro hthrown
          cases htext : result.stringify with
          | error thrown =>
            rw [htext] at hthrown
            cases hthrown
            have hsome : result.thrown? = some .unreadable := by rw [Value.thrown?, htext]
            exact ⟨[], _, notes, rfl, fun e he => (hnoted e he).1, hsome⟩
          | ok content => rw [htext] at hthrown; cases hthrown

theorem code_readable {thrown : Thrown} (h : thrown ≠ .unreadable) : ∃ code, thrown.code = .ok code := by
  cases thrown with
  | plain => exact ⟨_, rfl⟩
  | coded code => exact ⟨_, rfl⟩
  | unreadable => exact absurd rfl h

def Used (options : ToolLoopOptions) (use : ToolUse) (r : Except Thrown ToolResultBlock) (stretch : Record) : Prop :=
  match r with
  | .ok result => Answer options use stretch result
  | .error _ => Stops stretch

theorem wp_runUse {use : ToolUse} (hforged : use.name ∉ options.executors → use.forged = false) :
    Proc.wp (fair options) (runUse options use) (fun r => Goes log (Used options use r)) (Goes log fun _ => True) log := by
  have hstart : Goes log (fun _ => True) log := .refl trivial
  unfold runUse
  cases hexec : options.executor use.name with
  | none =>
    have hnot : use.name ∉ options.executors := by
      intro hmem
      simp [ToolLoopOptions.executor, hmem] at hexec
    refine ⟨.refl ⟨rfl, by simp [hnot], fun _ => rfl, by simp, by simp⟩, hstart⟩
  | some executor =>
    refine Proc.wp_bind (Proc.wp_mono ?_ (fun _ hc => hc) (wp_tryExecutor hexec hforged))
    rintro r log' ⟨stretch, rfl, htool, htried⟩
    have hcut : Goes log (fun _ => True) (log ++ stretch) := ⟨stretch, rfl, htool, trivial⟩
    match r with
    | .ok result =>
      obtain ⟨hid, hmem, hnone⟩ := htried.result result rfl
      refine ⟨⟨stretch, rfl, htool, hid, htried.ran, fun hnot => absurd hmem hnot, ?_, htool⟩, hcut⟩
      intro e he hsome
      rw [hnone e he] at hsome
      cases hsome
    | .error thrown =>
      refine Proc.wp_bind (Proc.wp_mono ?_ (fun _ hc => hc) (wp_tool _ htool fun _ => rfl))
      rintro reason log' ⟨rfl, hfair⟩
      have htool' : ∀ e ∈ stretch ++ [.signal reason], e.isTool = true := by
        intro e he
        rcases List.mem_append.mp he with he | he
        · exact htool e he
        · rw [List.mem_singleton.mp he]
          rfl
      have hcut' : Goes log (fun _ => True) (log ++ (stretch ++ [.signal reason])) := ⟨_, rfl, htool', trivial⟩
      change Fair options (log ++ (stretch ++ [.signal reason])) at hfair
      cases reason with
      | some reason =>
        exact ⟨⟨stretch ++ [.signal (some reason)], rfl, htool', _, by simp, Or.inl ⟨reason, rfl⟩⟩, hcut'⟩
      | none =>
        have hreadable : thrown ≠ .unreadable := by
          rintro rfl
          obtain ⟨before, e, between, rfl, hbetween, he⟩ := htried.unreadable rfl
          exact hfair.readable (log ++ before) e between [] (by simp) hbetween he
        obtain ⟨code, hcode⟩ := code_readable hreadable
        refine ⟨?_, hcut'⟩
        simp only [hcode]
        refine ⟨stretch ++ [.signal none], rfl, htool', rfl, ?_, fun _ => rfl, fun _ _ _ => rfl, htool'⟩
        rw [List.filterMap_append, htried.ran]
        simp [Event.executed?]

theorem stops_append {stretch : Record} (h : Stops stretch) : Stops (log ++ stretch) := by
  obtain ⟨e, he, hcause⟩ := h
  exact ⟨e, List.mem_getLast?_append_of_mem_getLast? he, hcause⟩

def Ran (options : ToolLoopOptions) (uses : List ToolUse) (r : Except Thrown (List ToolResultBlock)) (stretch : Record) :
    Prop :=
  match r with
  | .ok results => Answers options uses stretch results
  | .error _ => Stops stretch

theorem Goes.append {P Q : Record → Prop} {stretch log' : Record} (htool : ∀ e ∈ stretch, e.isTool = true)
    (hP : ∀ rest, P rest → Q (stretch ++ rest)) (h : Goes (log ++ stretch) P log') : Goes log Q log' := by
  obtain ⟨rest, rfl, hrest, hrestP⟩ := h
  refine ⟨stretch ++ rest, List.append_assoc .., ?_, hP rest hrestP⟩
  intro e he
  rcases List.mem_append.mp he with he | he
  · exact htool e he
  · exact hrest e he

theorem wp_runUses {uses : List ToolUse}
    (hforged : ∀ use ∈ uses, use.name ∉ options.executors → use.forged = false) :
    Proc.wp (fair options) (runUses options uses) (fun r => Goes log (Ran options uses r)) (Goes log fun _ => True) log := by
  induction uses generalizing log with
  | nil => exact ⟨.refl .nil, .refl trivial⟩
  | cons use uses ih =>
    have hhead := hforged use (List.mem_cons_self ..)
    refine Proc.wp_bind (Proc.wp_mono ?_ (fun _ hc => hc) (wp_runUse hhead))
    rintro r log' ⟨stretch, rfl, htool, hused⟩
    have hcut : Goes log (fun _ => True) (log ++ stretch) := ⟨stretch, rfl, htool, trivial⟩
    match r with
    | .error thrown => exact ⟨⟨stretch, rfl, htool, hused⟩, hcut⟩
    | .ok result =>
      have hrest : Proc.wp (fair options) (runUses options uses) _ _ (log ++ stretch) :=
        ih fun use' hmem => hforged use' (List.mem_cons_of_mem _ hmem)
      have hcuts : ∀ log', Goes (log ++ stretch) (fun _ => True) log' → Goes log (fun _ => True) log' :=
        fun log' hlog => hlog.append htool fun _ _ => trivial
      refine Proc.wp_bind (Proc.wp_mono ?_ hcuts hrest)
      intro results log' hlog
      refine ⟨hlog.append htool ?_, hcuts log' (hlog.quiet)⟩
      intro rest hran
      match results with
      | .ok results => exact .cons hused hran
      | .error thrown => exact stops_append hran

end Uses

/-! ## One iteration -/

section Rounds

variable {options : ToolLoopOptions} {messages : List Message} {log : Record} {toolCalls iteration : ℕ}

def Begins (options : ToolLoopOptions) (messages : List Message) (cut : Bool) (log log' : Record) : Prop :=
  ∃ rest, log' = log ++ rest ∧ Begun options messages cut rest

theorem Begins.cut {cut : Bool} {log' : Record} (h : Begins options messages cut log log') :
    Begins options messages true log log' := by
  obtain ⟨rest, hlog, hbegun⟩ := h
  refine ⟨rest, hlog, ?_⟩
  cases hbegun with
  | nothing => exact .nothing
  | signal reason => exact .signal reason
  | failed thrown => exact .failed thrown
  | unreported response => exact .unreported response rfl
  | unheard response thrown hon => exact .unheard response thrown hon
  | reported htool => exact .reported htool

def Led (options : ToolLoopOptions) (messages : List Message) (toolCalls : ℕ) (log : Record) (r : Except Thrown Next)
    (log' : Record) : Prop :=
  match r with
  | .error _ => Begins options messages false log log' ∧ Stops log'
  | .ok (.done outcome) => Begins options messages false log log' ∧ outcome.toolCalls = toolCalls
  | .ok (.again messages' toolCalls') => ∃ turn : Turn, log' = log ++ turn.record options ∧
      turn.request = options.request messages ∧ turn.response.stopReason = .toolUse ∧
      Answers options turn.response.uses turn.stretches turn.results ∧ messages' = messages ++ turn.messages ∧
      toolCalls' = toolCalls + turn.response.uses.length

def heardOf (options : ToolLoopOptions) (messages : List Message) (response : LlmResponse) : Record :=
  .signal none :: .attempt (options.request messages) (.ok response) :: report options response

theorem begins_reported {response : LlmResponse} {cut : Bool} {log' : Record}
    (h : Goes (log ++ heardOf options messages response) (fun _ => True) log') : Begins options messages cut log log' := by
  obtain ⟨rest, rfl, htool, -⟩ := h
  exact ⟨heardOf options messages response ++ rest, List.append_assoc .., .reported htool⟩

theorem wp_onStop {response : LlmResponse} (hfair : Fair options (log ++ heardOf options messages response)) :
    Proc.wp (fair options) (onStop options messages toolCalls iteration response) (Led options messages toolCalls log)
      (Begins options messages true log) (log ++ heardOf options messages response) := by
  have hdone : Begins options messages false log (log ++ heardOf options messages response) :=
    begins_reported (.refl trivial)
  unfold onStop
  cases hstop : response.stopReason with
  | refusal => exact ⟨⟨hdone, rfl⟩, hdone.cut⟩
  | maxTokens => exact ⟨⟨hdone, rfl⟩, hdone.cut⟩
  | other =>
    refine ⟨⟨hdone, ?_⟩, hdone.cut⟩
    split <;> rfl
  | toolUse =>
    have hforged := hfair.unforged (options.request messages) response (by simp [heardOf]) hstop
    refine Proc.wp_bind (Proc.wp_mono ?_ (fun _ hc => begins_reported hc) (wp_runUses hforged))
    intro results log' hlog
    have hbegins : Begins options messages false log log' := begins_reported hlog.quiet
    refine ⟨?_, hbegins.cut⟩
    match results with
    | .error thrown =>
      obtain ⟨stretch, rfl, -, hstops⟩ := hlog
      exact ⟨hbegins, stops_append hstops⟩
    | .ok results =>
      obtain ⟨stretch, rfl, -, hanswers⟩ := hlog
      exact ⟨⟨options.request messages, response, stretch, results⟩, by simp [Turn.record, heardOf], rfl, hstop,
        hanswers, rfl, rfl⟩

theorem wp_reportResponse {response : LlmResponse}
    (hfair : Fair options (log ++ [.signal none, .attempt (options.request messages) (.ok response)])) :
    Proc.wp (fair options) (reportResponse options response)
      (fun r log' =>
        match r with
        | .ok _ => log' = log ++ heardOf options messages response ∧ Fair options log'
        | .error _ => Begins options messages false log log' ∧ Stops log')
      (Begins options messages true log)
      (log ++ [.signal none, .attempt (options.request messages) (.ok response)]) := by
  have hcut : Begins options messages true log _ := ⟨_, rfl, .unreported response rfl⟩
  unfold reportResponse
  cases hon : options.onResponse with
  | false =>
    refine ⟨⟨?_, hfair⟩, hcut⟩
    simp [heardOf, report, hon]
  | true =>
    refine ⟨hcut, ?_⟩
    rintro r log' ⟨hheard, hfair'⟩
    have hlog' : log' = log ++ [.signal none, .attempt (options.request messages) (.ok response)] ++
      [Event.reported response r] := hheard
    subst hlog'
    match r with
    | .ok () =>
      have hlog : log ++ [.signal none, .attempt (options.request messages) (.ok response)] ++
          [.reported response (.ok ())] = log ++ heardOf options messages response := by
        simp [heardOf, report, hon]
      rw [hlog] at hfair' ⊢
      exact ⟨⟨rfl, hfair'⟩, begins_reported (.refl trivial)⟩
    | .error thrown =>
      have hbegins : Begins options messages false log (log ++
          [.signal none, .attempt (options.request messages) (.ok response)] ++ [.reported response (.error thrown)]) :=
        ⟨_, by rw [List.append_assoc]; rfl, .unheard response thrown hon⟩
      exact ⟨⟨hbegins, _, by simp, Or.inr ⟨response, thrown, rfl⟩⟩, hbegins.cut⟩

/-- **What one iteration leads to.** -/
theorem wp_round : Proc.wp (fair options) (round options messages toolCalls iteration)
    (Led options messages toolCalls log) (Begins options messages true log) log := by
  have hnothing : Begins options messages true log log := ⟨[], by simp, .nothing⟩
  refine ⟨hnothing, ?_⟩
  rintro reason log' ⟨hheard, -⟩
  have hlog' : log' = log ++ [Event.signal reason] := hheard
  subst hlog'
  have hsignal : Begins options messages false log (log ++ [.signal reason]) := ⟨_, rfl, .signal reason⟩
  cases reason with
  | some reason => exact ⟨⟨hsignal, _, by simp, Or.inl ⟨reason, rfl⟩⟩, hsignal.cut⟩
  | none =>
    refine ⟨hsignal.cut, ?_⟩
    rintro answer log' ⟨hheard, hfair⟩
    have hlog' : log' = log ++ [.signal none] ++ [Event.attempt (options.request messages) answer] := hheard
    subst hlog'
    rw [List.append_assoc] at hfair ⊢
    match answer with
    | .error thrown =>
      have hfailed : Begins options messages false log
          (log ++ [.signal none, .attempt (options.request messages) (.error thrown)]) := ⟨_, rfl, .failed thrown⟩
      exact ⟨⟨hfailed, rfl⟩, hfailed.cut⟩
    | .ok response =>
      change Proc.wp (fair options) (reportResponse options response >>= _) _ _ _
      refine Proc.wp_bind (Proc.wp_mono ?_ (fun _ hc => hc) (wp_reportResponse hfair))
      intro handled log' hlog
      match handled with
      | .error thrown => exact ⟨hlog, hlog.1.cut⟩
      | .ok () =>
        obtain ⟨rfl, hfair'⟩ := hlog
        exact wp_onStop hfair'

/-! ## The loop -/

theorem chained_snoc {turns : List Turn} {turn : Turn} (h : Chained options messages turns)
    (hrequest : turn.request = options.request (messages ++ turns.flatMap Turn.messages))
    (hstop : turn.response.stopReason = .toolUse)
    (hanswers : Answers options turn.response.uses turn.stretches turn.results) :
    Chained options messages (turns ++ [turn]) := by
  induction turns generalizing messages with
  | nil => exact ⟨by simpa using hrequest, hstop, hanswers, trivial⟩
  | cons first turns ih =>
    obtain ⟨hfirst, hfirstStop, hfirstAnswers, hrest⟩ := h
    refine ⟨hfirst, hfirstStop, hfirstAnswers, ih hrest ?_⟩
    rw [hrequest, List.flatMap_cons, List.append_assoc]

structure Inv (options : ToolLoopOptions) (messages : List Message) (toolCalls left : ℕ) (turns : List Turn)
    (log : Record) : Prop where
  log : log = turns.flatMap (Turn.record options)
  chained : Chained options (options.messages.map .given) turns
  messages : messages = options.messages.map .given ++ turns.flatMap Turn.messages
  toolCalls : toolCalls = (turns.flatMap fun turn => turn.response.uses).length
  left : turns.length + left = options.maxIterations

theorem countP_quiet {stretch : Record} (h : ∀ e ∈ stretch, e.isTool = true) : stretch.countP Event.isAttempt = 0 := by
  refine List.countP_eq_zero.mpr ?_
  intro e he hattempt
  have htool := h e he
  cases e <;> simp [Event.isTool, Event.isAttempt] at htool hattempt

theorem report_attempts (options : ToolLoopOptions) (response : LlmResponse) : (report options response).countP Event.isAttempt = 0 := by
  unfold report
  split <;> rfl

theorem answers_quiet {uses : List ToolUse} {stretches : Record} {results : List ToolResultBlock}
    (h : Answers options uses stretches results) : ∀ e ∈ stretches, e.isTool = true := by
  induction h with
  | nil => simp
  | cons hanswer _ ih =>
    intro e he
    rcases List.mem_append.mp he with he | he
    · exact hanswer.quiet e he
    · exact ih e he

theorem chained_attempts {turns : List Turn} (h : Chained options messages turns) :
    (turns.flatMap (Turn.record options)).countP Event.isAttempt = turns.length := by
  induction turns generalizing messages with
  | nil => rfl
  | cons turn turns ih =>
    obtain ⟨-, -, hanswers, hrest⟩ := h
    have hquiet := countP_quiet (answers_quiet hanswers)
    have hreport := report_attempts options turn.response
    have hturn : (turn.record options).countP Event.isAttempt = 1 := by
      rw [Turn.record, List.countP_cons_of_neg (by decide), List.countP_cons_of_pos rfl, List.countP_append, hreport,
        hquiet]
    rw [List.flatMap_cons, List.countP_append, ih hrest, hturn, List.length_cons, Nat.add_comm]

theorem begun_attempts {cut : Bool} {rest : Record} (h : Begun options messages cut rest) :
    rest.countP Event.isAttempt ≤ 1 := by
  cases h with
  | reported htool =>
    have hquiet := countP_quiet htool
    rename_i response rest
    have hreport := report_attempts options response
    rw [List.countP_cons_of_neg (by decide), List.countP_cons_of_pos rfl, List.countP_append, hreport, hquiet]
  | _ => simp [List.countP_cons, Event.isAttempt]

theorem Inv.begins {left : ℕ} {turns : List Turn} {log' : Record} {x : Option (Except Thrown ToolLoopOutcome)}
    (h : Inv options messages toolCalls (left + 1) turns log) (hbegins : Begins options messages x.isNone log log')
    (hthrown : ∀ thrown, x = some (.error thrown) → Stops log')
    (hcalls : ∀ outcome, x = some (.ok outcome) → outcome.toolCalls = toolCalls) : Spoken options log' x := by
  obtain ⟨rest, rfl, hbegun⟩ := hbegins
  refine ⟨?_, ⟨turns, rest, by rw [h.log], h.chained, h.messages ▸ hbegun, ?_⟩, hthrown⟩
  · have hleft := h.left
    have hturns := chained_attempts h.chained
    have hone := begun_attempts hbegun
    rw [h.log, List.countP_append]
    omega
  · intro outcome hx
    rw [hcalls outcome hx, h.toolCalls]

theorem wp_loop {left : ℕ} {turns : List Turn} (h : Inv options messages toolCalls left turns log) :
    Proc.wp (fair options) (loop options messages toolCalls left) (fun r log' => Spoken options log' (some r))
      (fun log' => Spoken options log' none) log := by
  induction left generalizing messages toolCalls turns log with
  | zero =>
    have hspoken : ∀ x : Option (Except Thrown ToolLoopOutcome), (∀ thrown, x ≠ some (.error thrown)) →
        (∀ outcome, x = some (.ok outcome) → outcome.toolCalls = toolCalls) → Spoken options log x := by
      intro x hx hcalls
      refine ⟨?_, ⟨turns, [], by rw [h.log, List.append_nil], h.chained, .nothing, ?_⟩, ?_⟩
      · have hleft := h.left
        have hturns := chained_attempts h.chained
        rw [h.log]
        omega
      · intro outcome houtcome
        rw [hcalls outcome houtcome, h.toolCalls]
      · intro thrown hthrown
        exact absurd hthrown (hx thrown)
    refine ⟨hspoken _ (by simp) ?_, hspoken _ (by simp) (by simp)⟩
    rintro outcome ⟨⟩
    rfl
  | succ left ih =>
    have hcut : ∀ log', Begins options messages true log log' → Spoken options log' none :=
      fun log' hbegins => h.begins hbegins (by simp) (by simp)
    refine Proc.wp_bind (Proc.wp_mono ?_ hcut wp_round)
    intro next log' hled
    match next with
    | .error thrown => exact ⟨h.begins hled.1 (fun _ _ => hled.2) (by simp), hcut log' hled.1.cut⟩
    | .ok (.done outcome) =>
      refine ⟨h.begins hled.1 (by simp) ?_, hcut log' hled.1.cut⟩
      rintro outcome' ⟨⟩
      exact hled.2
    | .ok (.again messages' toolCalls') =>
      obtain ⟨turn, rfl, hrequest, hstop, hanswers, rfl, rfl⟩ := hled
      have hleft := h.left
      suffices hinv : Inv options _ _ left (turns ++ [turn]) _ from ih hinv
      refine ⟨?_, ?_, ?_, ?_, ?_⟩
      · rw [h.log]
        simp
      · exact chained_snoc h.chained (h.messages ▸ hrequest) hstop hanswers
      · rw [h.messages]
        simp
      · rw [h.toolCalls]
        simp
      · rw [List.length_append, List.length_singleton]
        omega

end Rounds

/-! ## The loop ends -/

section Total

variable {options : ToolLoopOptions}

theorem total_noteCall (name : Text) (note : Value) : (noteCall options name note).Total := by
  unfold noteCall
  split
  · exact Proc.total_ask _
  · trivial

theorem total_tryExecutor (executor : Executor) (use : ToolUse) : (tryExecutor options executor use).Total := by
  have hcall : (callExecutor executor use).Total := by
    cases executor with
    | registered => exact Proc.total_ask _
    | inherited b => trivial
  refine hcall.bind fun r => ?_
  match r with
  | .error thrown => trivial
  | .ok .nullish => trivial
  | .ok (.fields result note) =>
    refine (total_noteCall use.name note).bind fun handled => ?_
    match handled with
    | .error thrown => trivial
    | .ok () => trivial

theorem total_runUse (use : ToolUse) : (runUse options use).Total := by
  unfold runUse
  cases options.executor use.name with
  | none => trivial
  | some executor =>
    refine (total_tryExecutor executor use).bind fun r => ?_
    match r with
    | .ok result => trivial
    | .error thrown =>
      refine (Proc.total_ask _).bind fun reason => ?_
      split <;> trivial

theorem total_runUses (uses : List ToolUse) : (runUses options uses).Total := by
  induction uses with
  | nil => trivial
  | cons use uses ih =>
    refine (total_runUse use).bind fun r => ?_
    match r with
    | .error thrown => trivial
    | .ok result => exact ih.bind fun results => trivial

theorem total_onStop (messages : List Message) (toolCalls iteration : ℕ) (response : LlmResponse) :
    (onStop options messages toolCalls iteration response).Total := by
  unfold onStop
  cases response.stopReason with
  | refusal => trivial
  | maxTokens => trivial
  | toolUse => exact (total_runUses response.uses).bind fun results => trivial
  | other => trivial

theorem total_round (messages : List Message) (toolCalls iteration : ℕ) :
    (round options messages toolCalls iteration).Total := by
  refine (Proc.total_ask _).bind fun reason => ?_
  match reason with
  | some reason => trivial
  | none =>
    refine (Proc.total_ask _).bind fun answer => ?_
    match answer with
    | .error thrown => trivial
    | .ok response =>
      have hreport : (reportResponse options response).Total := by
        unfold reportResponse
        split
        · exact Proc.total_ask _
        · trivial
      refine hreport.bind fun handled => ?_
      match handled with
      | .error thrown => trivial
      | .ok () => exact total_onStop messages toolCalls iteration response

theorem total_loop (messages : List Message) (toolCalls left : ℕ) : (loop options messages toolCalls left).Total := by
  induction left generalizing messages toolCalls with
  | zero => trivial
  | succ left ih =>
    refine (total_round messages toolCalls _).bind fun next => ?_
    match next with
    | .error thrown => trivial
    | .ok (.done outcome) => trivial
    | .ok (.again messages toolCalls) => exact ih messages toolCalls

end Total

/-- **The tool loop** ends wherever it is answered, and keeps to its protocol in every run in which no tool is forged
and the codes of what is thrown can be read. -/
theorem toolLoop_spoken (options : ToolLoopOptions) :
    (∀ {σ : Type} (env : Proc.Surroundings ToolOp.Ret σ), (∀ st op, ∃ r st', env st op r st') → ∀ st,
      Proc.ends env (runToolLoop options) (fun _ _ => True) st) ∧
    ∀ log x, Proc.Exec heard [] (runToolLoop options) log x → Fair options log → Spoken options log x := by
  refine ⟨fun env hanswers st => (total_loop _ _ _).ends hanswers, ?_⟩
  intro log x h hfair
  obtain ⟨-, hexec⟩ := h.within (fun _ _ _ _ hop => Fair.back hop) hfair
  have hinv : Inv options (options.messages.map .given) 0 options.maxIterations [] [] :=
    ⟨rfl, trivial, by simp, rfl, by simp⟩
  obtain ⟨hvalue, hcut⟩ := hexec.wp (wp_loop hinv)
  cases x with
  | none => exact hcut rfl
  | some r => exact hvalue r rfl

/-! ## A run that is fair, and one that is not -/

def shortRoute : LlmRoute := ⟨js "test", js "S", none, .low, 64, 64⟩

/-- One tool is registered, under the name `read`. -/
def readOnly : ToolLoopOptions :=
  { model := js "m", route := shortRoute, tools := [], executors := [js "read"], messages := [], maxIterations := 2
    maxTokens := 100, onResponse := false, onToolCall := false }

def useOf (name : Text) : ToolUse := ⟨js "a", name, .obj []⟩

def oneToken : LlmUsage := ⟨⟨1, 1, none, none, none⟩, []⟩

def asksFor (name : Text) : LlmResponse := ⟨[.toolUse (useOf name)], .toolUse, js "m", oneToken⟩

def replies : LlmResponse := ⟨[.text (js "ok")], .other, js "m", oneToken⟩

/-- A run of two requests, `between` them being what the tool has done. -/
def twoTurns (name : Text) (between : Record) (result : ToolResultBlock) : Record :=
  [.signal none, .attempt (readOnly.request []) (.ok (asksFor name))] ++ between ++
    [.signal none, .attempt (readOnly.request [.assistant (asksFor name).content, .user [result]]) (.ok replies)]

def readRun : Record :=
  twoTurns (js "read") [.executed (useOf (js "read")) (.ok (.fields (.json .null) .undefined))]
    ⟨js "a", false, some (js "null")⟩

theorem readRun_exec : Proc.Exec heard [] (runToolLoop readOnly) readRun (some (.ok (.ok (js "ok") 1 2))) := by
  refine .call (r := none) rfl ?_
  refine .call (r := .ok (asksFor (js "read"))) rfl ?_
  refine .call (r := .ok (.fields (.json .null) .undefined)) rfl ?_
  refine .call (r := none) rfl ?_
  refine .call (r := .ok replies) rfl ?_
  exact .ret

theorem readRun_fair : Fair readOnly readRun := by
  refine ⟨?_, ?_⟩
  · intro request response hmem hstop use huse hnot
    have hresponse : response = asksFor (js "read") ∨ response = replies := by
      simp only [readRun, twoTurns, List.cons_append, List.nil_append, List.mem_cons, List.not_mem_nil] at hmem
      simp only [reduceCtorEq, false_or, or_false, Event.attempt.injEq, Except.ok.injEq] at hmem
      exact hmem.imp And.right And.right
    rcases hresponse with rfl | rfl
    · have huse : use = useOf (js "read") := by simpa [asksFor, LlmResponse.uses] using huse
      rw [huse] at hnot
      exact absurd (by decide) hnot
    · cases hstop
  · intro before e between after hlog _
    have hmem : e ∈ readRun := by
      rw [hlog]
      simp
    have hnone : ∀ e ∈ readRun, e.thrown? = none := by
      simp [readRun, twoTurns, Event.thrown?, Value.thrown?, Value.stringify]
    rw [hnone e hmem]
    simp

theorem toolLoop_spoken_read : Spoken readOnly readRun (some (.ok (.ok (js "ok") 1 2))) :=
  (toolLoop_spoken readOnly).2 _ _ readRun_exec readRun_fair

def forgedRun : Record := twoTurns (js "toString") [] ⟨js "a", false, none⟩

theorem forgedRun_exec : Proc.Exec heard [] (runToolLoop readOnly) forgedRun (some (.ok (.ok (js "ok") 1 2))) := by
  refine .call (r := none) rfl ?_
  refine .call (r := .ok (asksFor (js "toString"))) rfl ?_
  refine .call (r := none) rfl ?_
  refine .call (r := .ok replies) rfl ?_
  exact .ret

theorem Spoken.second {options : ToolLoopOptions} {first second : LlmRequest} {response : LlmResponse}
    {answer : Except Thrown LlmResponse} {after : Record} {x : Option (Except Thrown ToolLoopOutcome)} (between : Record)
    (h : Spoken options (.signal none :: .attempt first (.ok response) :: (between ++ .attempt second answer :: after)) x)
    (hbetween : ∀ e ∈ between, e.isAttempt = false) :
    ∃ stretches results, Answers options response.uses stretches results ∧
      second = options.request (options.messages.map .given ++ [.assistant response.content, .user results]) := by
  obtain ⟨turns, rest, hlog, hchained, hbegun, -⟩ := h.turns
  have hfind : (between ++ .attempt second answer :: after).find? Event.isAttempt = some (.attempt second answer) := by
    have hnone : between.find? Event.isAttempt = none := by simpa using hbetween
    rw [List.find?_append, hnone]
    rfl
  have hreport : ∀ response : LlmResponse, (report options response).find? Event.isAttempt = none := by
    intro response
    unfold report
    split <;> rfl
  have htools : ∀ {rest : Record}, (∀ e ∈ rest, e.isTool = true) → rest.find? Event.isAttempt = none := by
    intro rest hrest
    have hcount := countP_quiet hrest
    rw [List.countP_eq_zero] at hcount
    simpa using hcount
  cases turns with
  | nil =>
    exfalso
    rw [List.flatMap_nil, List.nil_append] at hlog
    rw [← hlog] at hbegun
    generalize hafter : between ++ .attempt second answer :: after = tail at hfind hbegun
    cases hbegun with
    | unreported => cases hfind
    | unheard => cases hfind
    | reported htool =>
      rw [List.find?_append, hreport, htools htool] at hfind
      cases hfind
  | cons turn turns =>
    obtain ⟨-, -, hanswers, hrest⟩ := hchained
    simp only [List.flatMap_cons, Turn.record, List.cons_append, List.cons.injEq, true_and, Event.attempt.injEq,
      Except.ok.injEq] at hlog
    obtain ⟨⟨-, rfl⟩, hlog⟩ := hlog
    refine ⟨turn.stretches, turn.results, hanswers, ?_⟩
    rw [hlog, List.append_assoc, List.append_assoc, List.find?_append, hreport, List.find?_append,
      htools (answers_quiet hanswers)] at hfind
    cases turns with
    | nil =>
      simp only [List.flatMap_nil, List.nil_append, List.flatMap_cons, List.append_nil] at hfind hbegun
      cases hbegun <;> simp [Event.isAttempt, Turn.messages] at hfind <;> exact hfind.1.symm
    | cons next turns =>
      obtain ⟨hnext, -⟩ := hrest
      simp [Turn.record, Event.isAttempt] at hfind
      rw [← hfind.1, hnext]
      rfl

theorem forged_unspoken : ∃ log x, Proc.Exec heard [] (runToolLoop readOnly) log x ∧ ¬Spoken readOnly log x := by
  refine ⟨forgedRun, _, forgedRun_exec, ?_⟩
  intro hspoken
  obtain ⟨stretches, results, hanswers, hrequest⟩ := hspoken.second [.signal none] (by simp [Event.isAttempt])
  have hresults : results = [⟨js "a", false, none⟩] := by
    simpa [ToolLoopOptions.request, buildToolRequest, readOnly] using (congrArg LlmRequest.messages hrequest).symm
  subst hresults
  generalize huses : (asksFor (js "toString")).uses = uses at hanswers
  cases hanswers with
  | cons hanswer _ =>
    obtain ⟨rfl, -⟩ := List.cons.inj huses
    exact Bool.false_ne_true (hanswer.unknown (by decide))

end Albusforge.Llm.Tools
