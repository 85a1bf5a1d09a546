import Albusforge.Web.Transcript

/-!
# The state of a conversation

`apps/web/src/components/build/conversation.ts`. The page hears of a build on the event stream and reads its
details on its own; a read that was started before an announcement may end after it. `withTranscript` takes the
details of a read only if no newer version has been observed, so **what is shown of the spec is all of one
transcript, of the highest version that was ever shown** (`Coherent`), and the state says so when that is not the
highest version announced.

Cards, specs and parts are handed on as they are, and are parameters.
-/

namespace Albusforge.Web

open Lib Gateway

variable {Ready Spec Part : Type}

structure BuildTranscript (Ready Spec Part : Type) where
  buildId : Text
  messages : List ChatMessage
  ready : Option Ready
  status : Option BuildStatus
  specVersion : Option ℕ
  spec : Option Spec
  candidateParts : List Part

/-- `Partial<BuildTranscript>`: what is null and what is not there are the same to `initConversation`. -/
structure PartialTranscript (Ready Spec Part : Type) where
  buildId : Option Text
  messages : Option (List ChatMessage)
  ready : Option Ready
  status : Option BuildStatus
  specVersion : Option ℕ
  spec : Option Spec
  candidateParts : Option (List Part)

structure Unsent where
  text : Text
  clientMessageId : Text

structure ConversationState (Ready Spec Part : Type) where
  buildId : Option Text
  messages : List ChatMessage
  ready : Option Ready
  status : Option BuildStatus
  specVersion : Option ℕ
  spec : Option Spec
  candidateParts : List Part
  draft : Text
  error : Option Text
  refreshError : Option Text
  detailsStale : Bool
  observedSpecVersion : Option ℕ
  sending : Bool
  checks : ℕ
  overdue : Bool
  unsent : Option Unsent

inductive ConversationEvent (Ready Spec Part : Type)
  | draft (text : Text)
  | sent (text : Text) (sentAt : ℕ) (clientMessageId : Text)
  | created (transcript : BuildTranscript Ready Spec Part)
  | accepted (message : ChatMessage)
  | failed (message text clientMessageId : Text)
  | messageCreated (message : ChatMessage)
  | buildUpdated (status : BuildStatus) (specVersion : Option ℕ)
  | refreshed (transcript : BuildTranscript Ready Spec Part)
  | refreshRequested
  | refreshFailed (message : Text)
  | overdue (message : Text)
  | checking

/-- `initConversation`. With no transcript at all, every field of it is missing. -/
def initConversation (initial : PartialTranscript Ready Spec Part) (draft : Text) :
    ConversationState Ready Spec Part :=
  { buildId := initial.buildId
    messages := initial.messages.getD []
    ready := initial.ready
    status := initial.status
    specVersion := initial.specVersion
    spec := initial.spec
    candidateParts := initial.candidateParts.getD []
    draft := draft
    error := none
    refreshError := none
    detailsStale := false
    observedSpecVersion := initial.specVersion
    sending := false
    checks := 0
    overdue := false
    unsent := none }

/-- `version ?? 0` -/
abbrev orZero (version : Option ℕ) : ℕ := version.getD 0

/-- `n || null` -/
def orNull (n : ℕ) : Option ℕ := if n = 0 then none else some n

@[simp] theorem orZero_orNull (n : ℕ) : orZero (orNull n) = n := by
  unfold orNull
  split
  · next h => rw [h]; rfl
  · rfl

def withTranscript (state : ConversationState Ready Spec Part) (transcript : BuildTranscript Ready Spec Part) :
    ConversationState Ready Spec Part :=
  let merged := { state with buildId := some transcript.buildId
                             messages := mergeMessages state.messages transcript.messages }
  -- A stream event can announce a newer version while a detail read is in flight.
  if orZero transcript.specVersion < orZero state.observedSpecVersion then merged
  else
    { merged with
      ready := transcript.ready
      status := transcript.status
      specVersion := transcript.specVersion
      spec := transcript.spec
      candidateParts := transcript.candidateParts
      observedSpecVersion := transcript.specVersion
      detailsStale := false
      refreshError := none }

def settleOverdue (state : ConversationState Ready Spec Part) : ConversationState Ready Spec Part :=
  if (state.overdue || decide (0 < state.checks)) && !awaitingReply state.messages then
    { state with checks := 0, overdue := false, error := none }
  else state

def conversationReducer (state : ConversationState Ready Spec Part) :
    ConversationEvent Ready Spec Part → ConversationState Ready Spec Part
  | .draft text => { state with draft := text }
  | .sent text sentAt clientMessageId =>
      { state with
        sending := true
        error := none
        draft := []
        checks := 0
        overdue := false
        messages := state.messages ++
          [{ id := localMessageId clientMessageId, role := .user, text := text, createdAt := sentAt,
             clientMessageId := some clientMessageId }] }
  | .created transcript =>
      settleOverdue { withTranscript state transcript with sending := false, unsent := none }
  | .accepted message =>
      settleOverdue
        { state with sending := false, unsent := none, messages := mergeMessages state.messages [message] }
  | .failed message text clientMessageId =>
      { state with
        sending := false
        error := some message
        messages := state.messages.filter fun m => m.id ≠ localMessageId clientMessageId
        draft := if state.draft = [] then text else state.draft
        unsent := some ⟨text, clientMessageId⟩ }
  | .messageCreated message => settleOverdue { state with messages := mergeMessages state.messages [message] }
  | .buildUpdated status specVersion =>
      { state with
        status := some status
        observedSpecVersion := orNull (max (orZero state.observedSpecVersion) (orZero specVersion))
        detailsStale := state.detailsStale || decide (specVersion ≠ state.specVersion) ||
          decide (some status ≠ state.status) }
  | .refreshRequested => { state with detailsStale := true, refreshError := none }
  | .refreshed transcript => settleOverdue (withTranscript state transcript)
  | .refreshFailed message =>
      { state with refreshError := some message, detailsStale := true, overdue := awaitingReply state.messages }
  | .overdue message =>
      if awaitingReply state.messages then { state with overdue := true, error := some message } else state
  | .checking => { state with checks := state.checks + 1, overdue := false, error := none }

def converse (initial : PartialTranscript Ready Spec Part) (draft : Text)
    (events : List (ConversationEvent Ready Spec Part)) : ConversationState Ready Spec Part :=
  events.foldl conversationReducer (initConversation initial draft)

/-! ## What is shown of the spec -/

structure Details (Ready Spec Part : Type) where
  specVersion : Option ℕ
  spec : Option Spec
  ready : Option Ready
  candidateParts : List Part

def BuildTranscript.details (t : BuildTranscript Ready Spec Part) : Details Ready Spec Part :=
  ⟨t.specVersion, t.spec, t.ready, t.candidateParts⟩

def PartialTranscript.details (t : PartialTranscript Ready Spec Part) : Details Ready Spec Part :=
  ⟨t.specVersion, t.spec, t.ready, t.candidateParts.getD []⟩

def ConversationState.details (s : ConversationState Ready Spec Part) : Details Ready Spec Part :=
  ⟨s.specVersion, s.spec, s.ready, s.candidateParts⟩

def ConversationEvent.details : ConversationEvent Ready Spec Part → Option (Details Ready Spec Part)
  | .created t => some t.details
  | .refreshed t => some t.details
  | _ => none

def ConversationEvent.announces : ConversationEvent Ready Spec Part → ℕ
  | .created t => orZero t.specVersion
  | .refreshed t => orZero t.specVersion
  | .buildUpdated _ specVersion => orZero specVersion
  | _ => 0

/-- What one event may do to the details: nothing, a transcript that is not older than anything observed, or an
announcement. -/
inductive Moves (s s' : ConversationState Ready Spec Part) (e : ConversationEvent Ready Spec Part) : Prop
  | keep : s'.details = s.details → s'.observedSpecVersion = s.observedSpecVersion →
      (s.detailsStale = true → s'.detailsStale = true) → e.announces ≤ orZero s.observedSpecVersion → Moves s s' e
  | take (d : Details Ready Spec Part) : e.details = some d → s'.details = d →
      s'.observedSpecVersion = d.specVersion → orZero s.observedSpecVersion ≤ orZero d.specVersion →
      e.announces = orZero d.specVersion → Moves s s' e
  | announce : s'.details = s.details →
      orZero s'.observedSpecVersion = max (orZero s.observedSpecVersion) e.announces →
      (s.detailsStale = true → s'.detailsStale = true) →
      (orZero s.specVersion < e.announces → s'.detailsStale = true) → Moves s s' e

section

variable (s : ConversationState Ready Spec Part)

@[simp] theorem settleOverdue_details : (settleOverdue s).details = s.details := by
  unfold settleOverdue
  split <;> rfl

@[simp] theorem settleOverdue_observed : (settleOverdue s).observedSpecVersion = s.observedSpecVersion := by
  unfold settleOverdue
  split <;> rfl

@[simp] theorem settleOverdue_stale : (settleOverdue s).detailsStale = s.detailsStale := by
  unfold settleOverdue
  split <;> rfl

end

variable {s s' : ConversationState Ready Spec Part} {e : ConversationEvent Ready Spec Part}

theorem withTranscript_moves {t : BuildTranscript Ready Spec Part} (hd : e.details = some t.details)
    (ha : e.announces = orZero t.specVersion) (hdetails : s'.details = (withTranscript s t).details)
    (hobserved : s'.observedSpecVersion = (withTranscript s t).observedSpecVersion)
    (hstale : s'.detailsStale = (withTranscript s t).detailsStale) : Moves s s' e := by
  by_cases hold : orZero t.specVersion < orZero s.observedSpecVersion
  · have hkept : (withTranscript s t).details = s.details := by simp [withTranscript, hold, ConversationState.details]
    refine .keep (hdetails.trans hkept) ?_ ?_ ?_
    · rw [hobserved]
      simp [withTranscript, hold]
    · intro hs
      rw [hstale]
      simpa [withTranscript, hold] using hs
    · rw [ha]
      exact hold.le
  · have htaken : (withTranscript s t).details = t.details := by
      simp [withTranscript, hold, ConversationState.details, BuildTranscript.details]
    refine .take t.details hd (hdetails.trans htaken) ?_ (not_lt.mp hold) ha
    rw [hobserved]
    simp [withTranscript, hold, BuildTranscript.details]

/-- **What an event does to the details.** -/
theorem reducer_moves (s : ConversationState Ready Spec Part) (e : ConversationEvent Ready Spec Part) :
    Moves s (conversationReducer s e) e := by
  cases e with
  | created t =>
      exact withTranscript_moves rfl rfl (settleOverdue_details _) (settleOverdue_observed _) (settleOverdue_stale _)
  | refreshed t =>
      exact withTranscript_moves rfl rfl (settleOverdue_details _) (settleOverdue_observed _) (settleOverdue_stale _)
  | buildUpdated status version =>
      refine .announce rfl (orZero_orNull _) ?_ ?_
      · intro hs
        simp [conversationReducer, hs]
      · intro hlt
        have hne : version ≠ s.specVersion := by
          intro heq
          exact absurd hlt (by simp [ConversationEvent.announces, heq])
        simp [conversationReducer, hne]
  | accepted m =>
      exact .keep (settleOverdue_details _) (settleOverdue_observed _) (fun hs => (settleOverdue_stale _).trans hs)
        (Nat.zero_le _)
  | messageCreated m =>
      exact .keep (settleOverdue_details _) (settleOverdue_observed _) (fun hs => (settleOverdue_stale _).trans hs)
        (Nat.zero_le _)
  | overdue message =>
      unfold conversationReducer
      dsimp only
      split
      · exact .keep rfl rfl id (Nat.zero_le _)
      · exact .keep rfl rfl id (Nat.zero_le _)
  | refreshRequested => exact .keep rfl rfl (fun _ => rfl) (Nat.zero_le _)
  | refreshFailed message => exact .keep rfl rfl (fun _ => rfl) (Nat.zero_le _)
  | draft text => exact .keep rfl rfl id (Nat.zero_le _)
  | sent text sentAt id => exact .keep rfl rfl (fun hs => hs) (Nat.zero_le _)
  | failed message text id => exact .keep rfl rfl (fun hs => hs) (Nat.zero_le _)
  | checking => exact .keep rfl rfl id (Nat.zero_le _)

/-- The details are all of one of these transcripts, no version observed is older, and a newer one shows. -/
structure Coherent (transcripts : List (Details Ready Spec Part)) (announced : List ℕ)
    (s : ConversationState Ready Spec Part) : Prop where
  whole : s.details ∈ transcripts
  shown_le : orZero s.specVersion ≤ orZero s.observedSpecVersion
  announced_le : ∀ v ∈ announced, v ≤ orZero s.observedSpecVersion
  stale : orZero s.specVersion < orZero s.observedSpecVersion → s.detailsStale = true

variable {transcripts : List (Details Ready Spec Part)} {announced : List ℕ}

theorem Coherent.init (initial : PartialTranscript Ready Spec Part) (draft : Text) :
    Coherent [initial.details] [orZero initial.specVersion] (initConversation initial draft) where
  whole := List.mem_singleton_self _
  shown_le := le_rfl
  announced_le := by
    intro v hv
    rw [List.mem_singleton.mp hv]
    rfl
  stale := fun h => absurd h (lt_irrefl _)

theorem version_of_details (h : s'.details = s.details) : s'.specVersion = s.specVersion :=
  congrArg Details.specVersion h

theorem Coherent.step (h : Coherent transcripts announced s) (e : ConversationEvent Ready Spec Part) :
    Coherent (transcripts ++ e.details.toList) (announced ++ [e.announces]) (conversationReducer s e) ∧
      orZero s.specVersion ≤ orZero (conversationReducer s e).specVersion := by
  have hmoves := reducer_moves s e
  generalize conversationReducer s e = s' at hmoves
  cases hmoves with
  | keep hd ho hs ha =>
      have hv := version_of_details hd
      refine ⟨⟨?_, ?_, ?_, ?_⟩, by rw [hv]⟩
      · rw [hd]
        exact List.mem_append_left _ h.whole
      · rw [hv, ho]
        exact h.shown_le
      · intro v hmem
        rw [ho]
        rcases List.mem_append.mp hmem with hmem | hmem
        · exact h.announced_le v hmem
        · rwa [List.mem_singleton.mp hmem]
      · intro hlt
        rw [hv, ho] at hlt
        exact hs (h.stale hlt)
  | take d hdetails hd ho hle ha =>
      have hv : s'.specVersion = d.specVersion := congrArg Details.specVersion hd
      refine ⟨⟨?_, ?_, ?_, ?_⟩, ?_⟩
      · rw [hd, hdetails]
        exact List.mem_append_right _ (List.mem_singleton_self _)
      · rw [hv, ho]
      · intro v hmem
        rw [ho]
        rcases List.mem_append.mp hmem with hmem | hmem
        · exact (h.announced_le v hmem).trans hle
        · exact (List.mem_singleton.mp hmem).trans_le ha.le
      · intro hlt
        rw [hv, ho] at hlt
        exact absurd hlt (lt_irrefl _)
      · rw [hv]
        exact h.shown_le.trans hle
  | announce hd ho hs hnew =>
      have hv := version_of_details hd
      refine ⟨⟨?_, ?_, ?_, ?_⟩, by rw [hv]⟩
      · rw [hd]
        exact List.mem_append_left _ h.whole
      · rw [hv, ho]
        exact h.shown_le.trans (le_max_left _ _)
      · intro v hmem
        rw [ho]
        rcases List.mem_append.mp hmem with hmem | hmem
        · exact (h.announced_le v hmem).trans (le_max_left _ _)
        · exact (List.mem_singleton.mp hmem).trans_le (le_max_right _ _)
      · -- below the new maximum is below what was observed before, or below what is announced now
        intro hlt
        rw [hv, ho, lt_max_iff] at hlt
        rcases hlt with hlt | hlt
        · exact hs (h.stale hlt)
        · exact hnew hlt

def transcriptsOf (initial : PartialTranscript Ready Spec Part) (events : List (ConversationEvent Ready Spec Part)) :
    List (Details Ready Spec Part) := initial.details :: events.flatMap fun e => e.details.toList

def versionsOf (initial : PartialTranscript Ready Spec Part) (events : List (ConversationEvent Ready Spec Part)) :
    List ℕ := orZero initial.specVersion :: events.map ConversationEvent.announces

/-- **A conversation never shows an older spec**, nor parts of two. -/
theorem converse_coherent (initial : PartialTranscript Ready Spec Part) (draft : Text)
    (events : List (ConversationEvent Ready Spec Part)) :
    Coherent (transcriptsOf initial events) (versionsOf initial events) (converse initial draft events) ∧
      ∀ e, orZero (converse initial draft events).specVersion ≤
        orZero (converse initial draft (events ++ [e])).specVersion := by
  have hstep : ∀ (es : List (ConversationEvent Ready Spec Part)) (e : ConversationEvent Ready Spec Part),
      converse initial draft (es ++ [e]) = conversationReducer (converse initial draft es) e := by
    intro es e
    simp [converse]
  have hcoherent : Coherent (transcriptsOf initial events) (versionsOf initial events)
      (converse initial draft events) := by
    induction events using List.reverseRecOn with
    | nil => exact Coherent.init initial draft
    | append_singleton es e ih =>
      have hes := (ih.step e).1
      rw [hstep]
      simpa [transcriptsOf, versionsOf] using hes
  refine ⟨hcoherent, ?_⟩
  intro e
  rw [hstep]
  exact (hcoherent.step e).2

end Albusforge.Web
