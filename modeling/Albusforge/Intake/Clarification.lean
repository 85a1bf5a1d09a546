import Albusforge.Intake.Decide
import Albusforge.Intake.Stranded

/-!
# Rounds of questions

The rounds are counted in the spec rows, the decision whether to ask reads that count, and
asking always writes a row. Under the lock the count a turn was given is still the count
when its version is written (`Tallied`), so no more versions ask than there are rounds
(`clarification_bounded`).

That a settled spec stays settled rests on the count alone; settledness itself is worked out
anew each turn from the capabilities that are left. **A turn that leaves none unsettles the
spec** (`settled_reopened`), and only such a turn does (`settled_stays`).
-/

namespace Albusforge.Intake

open Albusforge.Lib Albusforge.Gateway

/-! ## What a turn may come to -/

inductive ScopeCategory
  | weaponsHarm
  | mainsVoltage
  | medicalMonitoring
  | covertTracking

/-- `OUT_OF_SCOPE_REASON` -/
def ScopeCategory.reason : ScopeCategory → Text
  | .weaponsHarm => js "devices meant to hurt people or animals"
  | .mainsVoltage => js "anything wired to mains electricity"
  | .medicalMonitoring => js "devices that monitor or diagnose medical conditions"
  | .covertTracking => js "devices that track or record people without their knowledge"

def outOfScopeReply (category : ScopeCategory) : Text :=
  js "Sorry — Albus Forge doesn't make " ++ category.reason ++
    js ", so this isn't something I can design. " ++ whatWeBuild ++
    js " If that's what you're after, describe the device and I'll start there."

def refusalReply : Text :=
  js "Sorry — that isn't something I can design. " ++ whatWeBuild ++
    js " If that's what you're after, describe the device and I'll start there."

def offTopicReply (again : Bool) : Text :=
  if again then
    js "I can't help with that one either — designing a device is all I do here. " ++ whatWeBuild ++
      js " I'll be here when you have one in mind."
  else
    js "That's not something I can help with — I only design devices. " ++ whatWeBuild ++
      js " Tell me what you'd like one to do and we'll get started."

def tokenCeilingReply : Text :=
  js "This design conversation has reached its length limit, so I can't take more changes here. Start a new build to keep going."

/-- `FAILURE_REPLY`, for the ways a call of the model fails. -/
def failureReply : Reason → Option Text
  | .refusal => some refusalReply
  | .tokenCeiling => some tokenCeilingReply
  | .maxTokens => some fallbackReply
  | .invalidOutput => some fallbackReply
  | .deadline => some fallbackReply
  | .providerError => some fallbackReply
  | _ => none

def wasOffTopic (transcript : List (Role × Text)) : Bool :=
  match (transcript.filter fun m => m.1 == .assistant).getLast? with
  | none => false
  | some m => m.2 == offTopicReply false || m.2 == offTopicReply true

/--
`runTurn`: what it may come to. `screen` is the scope filter. The catalogue and the model are
free, as long as the model's turn is one the schema accepts; `Takes` says which turns are
taken, of those that are about the device.
-/
inductive RunTurn (screen : Text → Option ScopeCategory)
    (Takes : TurnInput Spec → SpecTurn → Vocabulary → Prop) (input : TurnInput Spec) :
    TurnOutcome Spec → Prop
  | outOfScope {text : Text} {category : ScopeCategory} :
      input.transcript.getLast? = some (.user, text) → screen text = some category →
      RunTurn screen Takes input (.reply .outOfScope (outOfScopeReply category))
  | failed {text : Text} {failure : Reason} {reply : Text} :
      input.transcript.getLast? = some (.user, text) → screen text = none →
      failureReply failure = some reply → RunTurn screen Takes input (.reply failure reply)
  | offTopic {text : Text} {turn : SpecTurn} :
      input.transcript.getLast? = some (.user, text) → screen text = none →
      turn.accepted = true → turn.replyKind = .offTopic →
      RunTurn screen Takes input (.reply .offTopic (offTopicReply (wasOffTopic input.transcript)))
  | decided {text : Text} {turn : SpecTurn} {vocabulary : Vocabulary} {d : Decided} :
      input.transcript.getLast? = some (.user, text) → screen text = none →
      turn.accepted = true → turn.replyKind = .spec → Takes input turn vocabulary →
      DecideInput.decide ⟨input.previous, turn, vocabulary, input.roundsUsed⟩ = some d →
      RunTurn screen Takes input (.spec d.toDecision)

theorem RunTurn.spec_inv {screen : Text → Option ScopeCategory}
    {Takes : TurnInput Spec → SpecTurn → Vocabulary → Prop} {input : TurnInput Spec}
    {d : Decision Spec} (h : RunTurn screen Takes input (.spec d)) :
    ∃ turn vocabulary d', Takes input turn vocabulary ∧
      DecideInput.decide ⟨input.previous, turn, vocabulary, input.roundsUsed⟩ = some d' ∧
      d'.toDecision = d := by
  generalize houtcome : TurnOutcome.spec d = outcome at h
  cases h with
  | outOfScope _ _ => exact absurd houtcome (by simp)
  | failed _ _ _ => exact absurd houtcome (by simp)
  | offTopic _ _ _ _ => exact absurd houtcome (by simp)
  | decided _ _ _ _ htakes hd =>
      exact ⟨_, _, _, htakes, hd, (TurnOutcome.spec.inj houtcome).symm⟩

/-! ## The count under the lock -/

inductive Tallied {δ : Type} [SpecData δ] (runTurn : TurnInput δ → TurnOutcome δ → Prop) :
    List (SpecRow δ) → Prop
  | nil : Tallied runTurn []
  | snoc {specs : List (SpecRow δ)} {input : TurnInput δ} {d : Decision δ} :
      Tallied runTurn specs → runTurn input (.spec d) → d.newVersion = true →
      input.previous = specs.getLast?.map SpecRow.data → input.roundsUsed = roundsUsed specs →
      Tallied runTurn (specs ++ [⟨specs.length + 1, d.spec⟩])

def Phase.input {δ : Type} : Phase δ → Option (TurnInput δ)
  | .turning _ _ input _ => some input
  | .writing _ turn => some turn.input
  | .dying (some (.write turn)) => some turn.input
  | _ => none

section

variable {δ : Type} {runTurn : TurnInput δ → TurnOutcome δ → Prop}

theorem Phase.holds_of_input {p : Phase δ} {input : TurnInput δ} (h : p.input = some input) :
    p.holds = true := by
  cases p with
  | turning n t input latest => rfl
  | writing n turn => rfl
  | dying sent =>
      cases sent with
      | none => exact absurd h (by simp [Phase.input])
      | some sent =>
          cases sent with
          | write turn => rfl
          | lock => exact absurd h (by simp [Phase.input])
          | unlock => exact absurd h (by simp [Phase.input])
  | _ => exact absurd h (by simp [Phase.input])

variable [SpecData δ]

theorem Path.input {w : World δ} {i : ℕ} {mayRetry : Bool} {m : Move δ} {p p' : Phase δ}
    {holder : Option Holder} (h : Path w i mayRetry p m p' holder) {input : TurnInput δ}
    (hinput : p'.input = some input) :
    p.input = some input ∨ input.roundsUsed = roundsUsed w.specs := by
  cases h with
  | readRounds =>
      rw [← Option.some.inj hinput]
      exact Or.inr rfl
  | turned => exact Or.inl hinput
  | unlocked =>
      split at hinput
      · exact absurd hinput (by simp [Phase.input])
      · exact absurd hinput (by simp [Phase.input])
  | @givenUp _ sent hr =>
      cases sent with
      | false => exact absurd hinput (by simp [Phase.input])
      | true =>
          cases p with
          | writing n turn => exact Or.inl hinput
          | _ => exact absurd hinput (by simp [Phase.input, Phase.sent])
  | _ => exact absurd hinput (by simp [Phase.input])

theorem next_frame {w w' : World δ} {a : Action δ} {shown : Shown} (h : w.next a = some (w', shown))
    (ha : ∀ i m, a ≠ .move i m) : w'.specs = w.specs ∧
      ∀ (i : ℕ) (c : Call δ), w'.calls[i]? = some c → w.calls[i]? = some c ∨ c.phase = .starting := by
  cases a with
  | create id askText clientMessageId now =>
      simp only [World.next] at h
      split at h
      · obtain ⟨rfl, rfl⟩ := Prod.mk.inj (Option.some.inj h)
        exact ⟨rfl, fun i c hc => Or.inl hc⟩
      · exact absurd h (by simp)
  | submit s =>
      simp only [World.next] at h
      split at h
      · exact absurd h (by simp)
      · split at h
        · obtain ⟨rfl, rfl⟩ := Prod.mk.inj (Option.some.inj h)
          exact ⟨rfl, fun i c hc => Or.inl hc⟩
        · obtain ⟨rfl, rfl⟩ := Prod.mk.inj (Option.some.inj h)
          exact ⟨rfl, fun i c hc => Or.inl hc⟩
  | start mayRetry =>
      obtain ⟨rfl, rfl⟩ := Prod.mk.inj (Option.some.inj h)
      refine ⟨rfl, ?_⟩
      intro i c hc
      rw [List.getElem?_append] at hc
      split at hc
      · exact Or.inl hc
      · obtain ⟨_, rfl⟩ := List.getElem?_eq_some_iff.mp hc
        exact Or.inr (by simp)
  | move i m => exact absurd rfl (ha i m)
  | otherLocks =>
      simp only [World.next] at h
      split at h
      · obtain ⟨rfl, rfl⟩ := Prod.mk.inj (Option.some.inj h)
        exact ⟨rfl, fun i c hc => Or.inl hc⟩
      · exact absurd h (by simp)
  | otherUnlocks =>
      simp only [World.next] at h
      split at h
      · obtain ⟨rfl, rfl⟩ := Prod.mk.inj (Option.some.inj h)
        exact ⟨rfl, fun i c hc => Or.inl hc⟩
      · exact absurd h (by simp)

structure Counts (runTurn : TurnInput δ → TurnOutcome δ → Prop) (es : List (Action δ × Shown))
    (w : World δ) : Prop where
  inv : Inv runTurn es w
  inputs : ∀ (i : ℕ) (c : Call δ) (input : TurnInput δ), w.calls[i]? = some c →
    c.phase.input = some input → input.roundsUsed = roundsUsed w.specs
  tallied : Tallied runTurn w.specs

theorem Tallied.latest {specs : List (SpecRow δ)} (h : Tallied runTurn specs) :
    Versions runTurn specs := by
  induction h with
  | nil => exact .nil
  | snoc _ hrun hnew hprevious _ ih => exact .snoc ih hrun hnew hprevious

theorem Tallied.write {w w' : World δ} {t : Turn δ} {a : Answer} (h : Tallied runTurn w.specs)
    (hsound : t.Sound runTurn w.specs) (hrounds : t.input.roundsUsed = roundsUsed w.specs)
    (hwrote : Wrote w t w' a) : Tallied runTurn w'.specs := by
  rw [hwrote.specs]
  obtain ⟨hlatest, hlength⟩ := h.latest.latest
  unfold Turn.newSpec
  split
  · rename_i d hd
    split
    · rename_i hnew
      have hversion : (t.latestSpec.map SpecRow.version).getD 0 = w.specs.length := by
        rw [hsound.latest, hlatest, hlength]
      rw [hversion]
      refine .snoc h ?_ hnew (by rw [hsound.previous, hlatest]) hrounds
      rcases hsound.ends with hends | hends | hends
      · rwa [hd] at hends
      · rw [hd] at hends
        exact absurd hends (by simp)
      · rw [hd] at hends
        exact absurd hends (by simp)
    · simpa using h
  · simpa using h

theorem counts_step {es : List (Action δ × Shown)} {w w' : World δ} {e : Action δ × Shown}
    (h : Counts runTurn es w) (hs : (turns runTurn).step w e w') : Counts runTurn (es ++ [e]) w' := by
  have hinv := inv_step h.inv hs
  obtain ⟨action, shown⟩ := e
  obtain ⟨hnext, -⟩ := hs
  by_cases hmove : ∃ i m, action = .move i m
  · obtain ⟨i, m, rfl⟩ := hmove
    obtain ⟨c, hc, hmove⟩ := Option.bind_eq_some_iff.mp hnext
    have hrange : i < w.calls.length := (List.getElem?_eq_some_iff.mp hc).1
    cases move_moved hmove with
    | @quiet p holder status hpath =>
        refine ⟨hinv, ?_, h.tallied⟩
        intro j c' input hc' hinput
        by_cases hji : j = i
        · subst hji
          rw [List.getElem?_set_self hrange] at hc'
          rw [← Option.some.inj hc'] at hinput
          rcases hpath.input hinput with hold | hcount
          · exact h.inputs _ _ _ hc hold
          · exact hcount
        · rw [List.getElem?_set_ne (fun hij => hji hij.symm)] at hc'
          exact h.inputs _ _ _ hc' hinput
    | @wrote turn id p w' a hwriting hwrite =>
        have hwrote := write_wrote hwrite
        have hcareful := h.inv.calls i c hc
        -- the turn that is written is in hand, and afterwards none is
        have hready : c.phase.input = some turn.input ∧ turn.Sound runTurn w.specs ∧
            p.input = none := by
          have hsound := hcareful.sound
          generalize c.phase = q at hwriting hsound
          cases hwriting with
          | live =>
              refine ⟨rfl, hsound, ?_⟩
              split
              · rfl
              · rfl
          | abandoned => exact ⟨rfl, hsound, rfl⟩
        obtain ⟨hinput, hsound, hnone⟩ := hready
        have hlock := hcareful.holds (Phase.holds_of_input hinput)
        have htallied : Tallied runTurn w'.specs :=
          h.tallied.write hsound (h.inputs _ _ _ hc hinput) hwrote
        refine ⟨hinv, ?_, htallied⟩
        intro j c' input hc' hinput'
        have hcalls : (w'.put i { c with phase := p }).calls
            = w.calls.set i { c with phase := p } := by
          rw [← hwrote.calls]
          rfl
        rw [hcalls] at hc'
        by_cases hji : j = i
        · subst hji
          rw [List.getElem?_set_self hrange] at hc'
          rw [← Option.some.inj hc'] at hinput'
          exact absurd (hnone.symm.trans hinput') (by simp)
        · -- nobody else has the lock
          rw [List.getElem?_set_ne (fun hij => hji hij.symm)] at hc'
          have hother := (h.inv.calls j c' hc').holds (Phase.holds_of_input hinput')
          rw [hlock] at hother
          exact absurd (Holder.call.inj (Option.some.inj hother)) (fun heq => hji heq.symm)
  · obtain ⟨hspecs, hcalls⟩ := next_frame hnext fun i m heq => hmove ⟨i, m, heq⟩
    refine ⟨hinv, ?_, by rw [hspecs]; exact h.tallied⟩
    intro i c input hc hinput
    rw [hspecs]
    rcases hcalls i c hc with hold | hstarting
    · exact h.inputs i c input hold hinput
    · rw [hstarting] at hinput
      exact absurd hinput (by simp [Phase.input])

theorem counts_run {es : List (Action δ × Shown)} {w : World δ} (h : (turns runTurn).Run es w) :
    Counts runTurn es w := by
  refine Machine.RunWhere.invariant ?_ ?_ h
  · intro w hinit
    have hinv : Inv runTurn [] w := inv_run (.init hinit)
    obtain ⟨_, hspecs, hcalls, _⟩ := hinit
    refine ⟨hinv, by simp [hcalls], ?_⟩
    rw [hspecs]
    exact .nil
  · intro es w e w' hi hs _
    exact counts_step hi hs

end

/-! ## Asking -/

section

variable {screen : Text → Option ScopeCategory}
  {Takes : TurnInput Spec → SpecTurn → Vocabulary → Prop} {specs : List (SpecRow Spec)}

theorem roundsUsed_append (specs : List (SpecRow Spec)) (s : SpecRow Spec) :
    roundsUsed (specs ++ [s])
      = roundsUsed specs + if s.data.openQuestions = [] then 0 else 1 := by
  unfold roundsUsed
  rw [List.filter_append, List.length_append]
  congr 1
  cases hs : s.data.openQuestions with
  | nil => simp [SpecData.openQuestions, hs]
  | cons q qs => simp [SpecData.openQuestions, hs]

theorem Tallied.bounded (h : Tallied (RunTurn screen Takes) specs) :
    roundsUsed specs ≤ maxClarificationRounds ∧
      ∀ s ∈ specs, s.data.openQuestions.length ≤ maxQuestionsPerRound ∧
        ∀ q ∈ s.data.openQuestions, q.field ∈ solverRelevantFields := by
  induction h with
  | nil => exact ⟨by simp [roundsUsed], by simp⟩
  | @snoc specs input d _ hrun _ _ hrounds ih =>
      obtain ⟨turn, vocabulary, d', -, hd, rfl⟩ := hrun.spec_inv
      obtain ⟨hfew, hrelevant, hleft⟩ := DecideInput.questions_sound
        (i := ⟨input.previous, turn, vocabulary, input.roundsUsed⟩)
      have hspec := (DecideInput.decide_some hd).2.1
      have hquestions : d'.spec.openQuestions
          = (DecideInput.questions ⟨input.previous, turn, vocabulary, input.roundsUsed⟩).kept := by
        rw [hspec]
        rfl
      refine ⟨?_, ?_⟩
      · rw [roundsUsed_append]
        dsimp only
        rw [hquestions]
        split
        · exact ih.1
        · rename_i hasked
          have hlt := (hleft hasked).2
          dsimp only at hlt
          omega
      · intro s hs
        rcases List.mem_append.mp hs with hs | hs
        · exact ih.2 s hs
        · rw [List.mem_singleton.mp hs]
          dsimp only
          rw [hquestions]
          exact ⟨hfew, hrelevant⟩

/--
**Clarification is bounded**: at most `MAX_CLARIFICATION_ROUNDS` versions of a build ever carry
open questions, each carries at most one, and every one is about a field that changes the parts.
-/
theorem clarification_bounded {es : List (Action Spec × Shown)} {w : World Spec}
    (h : (turns (RunTurn screen Takes)).Run es w) :
    (w.specs.filter fun s => !s.data.openQuestions.isEmpty).length ≤ maxClarificationRounds ∧
      ∀ s ∈ w.specs, s.data.openQuestions.length ≤ 1 ∧
        ∀ q ∈ s.data.openQuestions, q.field ∈ solverRelevantFields := by
  obtain ⟨hrounds, hquestions⟩ := (counts_run h).tallied.bounded
  refine ⟨?_, hquestions⟩
  have hcount : (w.specs.filter fun s => !s.data.openQuestions.isEmpty)
      = w.specs.filter fun s => 0 < SpecData.openQuestions s.data := by
    refine List.filter_congr fun s _ => ?_
    cases hs : s.data.openQuestions with
    | nil => simp [SpecData.openQuestions, hs]
    | cons q qs => simp [SpecData.openQuestions, hs]
  rw [hcount]
  exact hrounds

/-! ## Settling -/

def KeepsCapability (input : TurnInput Spec) (turn : SpecTurn) (vocabulary : Vocabulary) : Prop :=
  (∃ s, input.previous = some s ∧ s.settled = true) →
    ∀ cs, turn.specPatch.capabilities = some cs →
      ∃ c ∈ cs, vocabulary.lists (Lib.trim c) = true

def SettledStays (specs : List (SpecRow Spec)) : Prop :=
  ∀ s ∈ specs, ∀ t ∈ specs, s.version < t.version → s.data.settled = true →
    t.data.settled = true ∧ t.data.openQuestions = []

/-- **On a settled spec with a capability, the next is settled exactly when the turn keeps one.** -/
theorem settled_again_iff {i : DecideInput} {d : Decided} {s : Spec} (hd : i.decide = some d)
    (hprevious : i.previous = some s) (hsettled : s.settled = true) (hsome : s.capabilities ≠ []) :
    d.spec.settled = true ↔ ∀ cs, i.turn.specPatch.capabilities = some cs →
      ∃ c ∈ cs, i.vocabulary.lists (Lib.trim c) = true := by
  have hbase : i.base = s := by
    unfold DecideInput.base
    rw [hprevious, Option.getD_some]
  rw [(DecideInput.decide_some hd).2.1, DecideInput.settled_again (by rw [hbase]; exact hsettled),
    DecideInput.capabilities_ne_nil, hbase]
  cases i.turn.specPatch.capabilities with
  | none => simp [hsome]
  | some cs => simp

structure Settling (specs : List (SpecRow Spec)) : Prop where
  numbered : ∀ s ∈ specs, s.version ≤ specs.length
  capable : ∀ s ∈ specs, s.data.settled = true → s.data.capabilities ≠ []
  latest : (∃ s ∈ specs, s.data.settled = true) →
    ∃ s, specs.getLast? = some s ∧ s.data.settled = true
  stays : SettledStays specs

theorem Settling.snoc {specs : List (SpecRow Spec)} (h : Settling specs) {d : Spec}
    (hcapable : d.settled = true → d.capabilities ≠ [] ∧ d.openQuestions = [])
    (hsettled : (∃ s, specs.getLast? = some s ∧ s.data.settled = true) → d.settled = true) :
    Settling (specs ++ [⟨specs.length + 1, d⟩]) := by
  refine ⟨?_, ?_, ?_, ?_⟩
  · intro s hs
    rw [List.length_append, List.length_singleton]
    rcases List.mem_append.mp hs with hs | hs
    · have := h.numbered s hs
      omega
    · rw [List.mem_singleton.mp hs]
  · intro s hs hset
    rcases List.mem_append.mp hs with hs | hs
    · exact h.capable s hs hset
    · rw [List.mem_singleton.mp hs] at hset ⊢
      exact (hcapable hset).1
  · intro ⟨s, hs, hset⟩
    refine ⟨_, List.getLast?_concat, ?_⟩
    rcases List.mem_append.mp hs with hs | hs
    · exact hsettled (h.latest ⟨s, hs, hset⟩)
    · rw [List.mem_singleton.mp hs] at hset
      exact hset
  · intro s hs t ht hlt hset
    rcases List.mem_append.mp ht with ht | ht
    · rcases List.mem_append.mp hs with hs | hs
      · exact h.stays s hs t ht hlt hset
      · -- the new version is the last
        rw [List.mem_singleton.mp hs] at hlt
        have := h.numbered t ht
        dsimp only at hlt
        omega
    · rw [List.mem_singleton.mp ht] at hlt ⊢
      rcases List.mem_append.mp hs with hs | hs
      · have hset' := hsettled (h.latest ⟨s, hs, hset⟩)
        exact ⟨hset', (hcapable hset').2⟩
      · rw [List.mem_singleton.mp hs] at hlt
        exact absurd hlt (lt_irrefl _)

theorem Tallied.settling {specs : List (SpecRow Spec)}
    (h : Tallied (RunTurn screen KeepsCapability) specs) : Settling specs := by
  induction h with
  | nil => exact ⟨by simp, by simp, by simp, by simp [SettledStays]⟩
  | @snoc specs input d _ hrun _ hprevious _ ih =>
      obtain ⟨turn, vocabulary, d', hkeeps, hd, rfl⟩ := hrun.spec_inv
      refine ih.snoc ?_ ?_
      · intro hset
        rw [(DecideInput.decide_some hd).2.1] at hset ⊢
        exact DecideInput.spec_settled hset
      · intro ⟨s, hlast, hset⟩
        have hinput : input.previous = some s.data := by rw [hprevious, hlast, Option.map_some]
        exact (settled_again_iff hd hinput hset
          (ih.capable s (List.mem_of_getLast? hlast) hset)).mpr (hkeeps ⟨s.data, hinput, hset⟩)

/--
**Settled stays settled while every turn keeps a capability**: in a run whose turns on a settled
spec leave the capabilities alone or name one that the catalogue has, every version after a
settled one is settled and has no open questions.
-/
theorem settled_stays {es : List (Action Spec × Shown)} {w : World Spec}
    (h : (turns (RunTurn screen KeepsCapability)).Run es w) : SettledStays w.specs :=
  (counts_run h).tallied.settling.stays

end

/-! ## Three turns on the bench -/

namespace Bench

def catalogue : Vocabulary := ⟨[js "read.temperature_c"], []⟩

def naming (capabilities : Option (List Text)) (questions : List OpenQuestion) : SpecTurn where
  replyKind := .spec
  specPatch := ⟨none, none, none, none, none, none, capabilities, none, none⟩
  candidateQuestions := questions
  assumptions := []
  reply := js "Done."

def powerQuestion : OpenQuestion := ⟨js "power.source", js "Battery or USB?", none⟩

def settling : DecideInput := ⟨none, naming (some [js "read.temperature_c"]) [], catalogue, 0⟩

def asking : DecideInput :=
  ⟨none, naming (some [js "read.temperature_c"]) [powerQuestion], catalogue, 0⟩

def edit (i : DecideInput) (turn : SpecTurn) : DecideInput := ⟨some i.spec, turn, catalogue, 0⟩

def keeping : DecideInput :=
  let turn := naming none [powerQuestion]
  edit settling { turn with specPatch := { turn.specPatch with power := some ⟨some .usb, none⟩ } }

def emptying : DecideInput := edit settling (naming (some []) [])

def reopening : DecideInput := edit emptying (naming none [powerQuestion])

def outcome (i : DecideInput) : TurnOutcome Spec :=
  match i.decide with
  | some d => .spec d.toDecision
  | none => .reply .error fallbackReply

def answered (i : ℕ) (turn : DecideInput) (id : Uuid) : List (Action Spec) :=
  [.start true, .move i .begin, .move i .tryLock, .move i .read, .move i .readSpecs,
    .move i .readRounds, .move i (.turned (outcome turn)), .move i (.write id false), .move i .read,
    .move i .unlock, .move i .check]

def told : List DecideInput → List (Action Spec)
  | [] => []
  | first :: rest =>
      .create (uuid 1) (js "a fridge thermometer") none 1000000 :: answered 0 first (uuid 2) ++
        match rest with
        | [] => []
        | second :: rest =>
            .submit (again 3 9000000) :: answered 1 second (uuid 4) ++
              match rest with
              | [] => []
              | third :: _ => .submit (again 5 18000000) :: answered 2 third (uuid 6)

def unbuilt : World Spec :=
  { table := [], specs := [], status := .asking, holder := none, calls := [] }

def built (is : List DecideInput) : World Spec := ((unbuilt.run (told is)).map Prod.fst).getD unbuilt

def played (i : DecideInput) (p : TurnInput Spec × TurnOutcome Spec) : Bool :=
  p.2 == outcome i && p.1.previous == i.previous && p.1.roundsUsed == i.roundsUsed &&
    p.1.transcript.getLast?.any (fun m => m.1 == .user) && i.turn.accepted &&
    i.turn.replyKind == .spec && i.decide.isSome

theorem played_runTurn {Takes : TurnInput Spec → SpecTurn → Vocabulary → Prop} {i : DecideInput}
    {p : TurnInput Spec × TurnOutcome Spec} (h : played i p = true)
    (htakes : ∀ input : TurnInput Spec, input.previous = i.previous →
      Takes input i.turn i.vocabulary) : RunTurn (fun _ => none) Takes p.1 p.2 := by
  obtain ⟨⟨transcript, previous, rounds⟩, o⟩ := p
  unfold played at h
  simp only [Bool.and_eq_true, beq_iff_eq] at h
  obtain ⟨⟨⟨⟨⟨⟨ho, hprevious⟩, hrounds⟩, huser⟩, haccepted⟩, hkind⟩, hsome⟩ := h
  obtain ⟨⟨role, text⟩, hlast, hrole⟩ := (Option.any_eq_true _ _).mp huser
  obtain rfl : role = .user := eq_of_beq hrole
  obtain ⟨d, hd⟩ := Option.isSome_iff_exists.mp hsome
  have houtcome : outcome i = .spec d.toDecision := by
    unfold outcome
    rw [hd]
  rw [ho, houtcome]
  refine .decided hlast rfl haccepted hkind (htakes _ hprevious) ?_
  rw [← hd]
  dsimp only
  rw [hprevious, hrounds]

theorem told_run {Takes : TurnInput Spec → SpecTurn → Vocabulary → Prop} {is : List DecideInput}
    (hrun : (unbuilt.run (told is)).isSome = true)
    (hplayed : (unbuilt.endings (told is)).all (fun p => is.any fun i => played i p) = true)
    (htakes : ∀ i ∈ is, ∀ input : TurnInput Spec, input.previous = i.previous →
      Takes input i.turn i.vocabulary) :
    ∃ es, (turns (RunTurn (fun _ => none) Takes)).Run es (built is) := by
  obtain ⟨⟨w, es⟩, hw⟩ := Option.isSome_iff_exists.mp hrun
  have hsteps : (turns (RunTurn (fun _ => none) Takes)).Steps unbuilt es w := by
    refine World.run_steps ?_ hw
    intro p hp
    obtain ⟨i, hi, hip⟩ := List.any_eq_true.mp (List.all_eq_true.mp hplayed p hp)
    exact played_runTurn hip (htakes i hi)
  have hfirst : (turns (RunTurn (fun _ => none) Takes)).Run [] unbuilt :=
    .init ⟨rfl, rfl, rfl, by simp [unbuilt]⟩
  refine ⟨[] ++ es, ?_⟩
  have hrun := Machine.Run.steps hfirst hsteps
  rwa [built, hw]

end Bench

/-- The first turn asks: one version with one question. -/
theorem clarification_bounded_bench :
    ((Bench.built [Bench.asking]).specs.map fun s => s.data.openQuestions) = [[Bench.powerQuestion]] ∧
      ((Bench.built [Bench.asking]).specs.filter fun s => !s.data.openQuestions.isEmpty).length
        ≤ maxClarificationRounds := by
  have hrun : ∃ es, (turns (RunTurn (fun _ => none) fun _ _ _ => True)).Run es
      (Bench.built [Bench.asking]) :=
    Bench.told_run (by decide +kernel) (by decide +kernel) (fun _ _ _ _ => trivial)
  obtain ⟨es, hrun⟩ := hrun
  exact ⟨by decide +kernel, (clarification_bounded hrun).1⟩

/-- An edit that leaves the capabilities alone: two settled versions, although it asks. -/
theorem settled_stays_bench :
    ((Bench.built [Bench.settling, Bench.keeping]).specs.map fun s => s.data.settled) = [true, true] ∧
      SettledStays (Bench.built [Bench.settling, Bench.keeping]).specs := by
  have hkeeps : ∀ i ∈ [Bench.settling, Bench.keeping], ∀ input : TurnInput Spec,
      input.previous = i.previous → KeepsCapability input i.turn i.vocabulary := by
    intro i hi input hprevious ⟨s, hs, _⟩ cs hcs
    rcases List.mem_pair.mp hi with rfl | rfl
    · rw [hprevious] at hs
      exact absurd hs (by simp [Bench.settling])
    · exact absurd hcs (by simp [Bench.keeping, Bench.edit, Bench.naming])
  have hrun : ∃ es, (turns (RunTurn (fun _ => none) KeepsCapability)).Run es
      (Bench.built [Bench.settling, Bench.keeping]) :=
    Bench.told_run (by decide +kernel) (by decide +kernel) hkeeps
  obtain ⟨es, hrun⟩ := hrun
  exact ⟨by decide +kernel, settled_stays hrun⟩

/-- **An edit that empties the capabilities unsettles the spec, and the next turn asks again.** -/
theorem settled_reopened : ¬ ∀ es w,
    (turns (RunTurn (fun _ => none) fun _ _ _ => True)).Run es w → SettledStays w.specs := by
  intro h
  have hrun : ∃ es, (turns (RunTurn (fun _ => none) fun _ _ _ => True)).Run es
      (Bench.built [Bench.settling, Bench.emptying, Bench.reopening]) :=
    Bench.told_run (by decide +kernel) (by decide +kernel) (fun _ _ _ _ => trivial)
  obtain ⟨es, hrun⟩ := hrun
  have hreopened : ((Bench.built [Bench.settling, Bench.emptying, Bench.reopening]).specs.any fun s =>
      (Bench.built [Bench.settling, Bench.emptying, Bench.reopening]).specs.any fun t =>
        decide (s.version < t.version) && s.data.settled &&
          decide (t.data.openQuestions = [Bench.powerQuestion])) = true := by decide +kernel
  obtain ⟨s, hs, hreopened⟩ := List.any_eq_true.mp hreopened
  obtain ⟨t, ht, hreopened⟩ := List.any_eq_true.mp hreopened
  simp only [Bool.and_eq_true, decide_eq_true_eq] at hreopened
  have hstays := (h es _ hrun s hs t ht hreopened.1.1 hreopened.1.2).2
  rw [hreopened.2] at hstays
  exact absurd hstays (by simp)

end Albusforge.Intake
