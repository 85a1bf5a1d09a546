import Mathlib.Algebra.Order.Ring.Rat
import Albusforge.Intake.Turns

/-!
# The decision of a turn

`decide.ts`, with the spec of `packages/schema` and the replies code writes. A turn's patch
is merged into the spec, what the registry does not know is dropped, the questions that
change the parts are kept as long as there are rounds left, and the spec settles when it
has a capability and nothing is left to ask.
-/

namespace Albusforge.Intake

open Albusforge.Lib Albusforge.Gateway

/-! ## The spec -/

inductive Transport
  | wifi
  | ble
  | lora
  | none
  deriving DecidableEq

inductive PowerSource
  | battery
  | solar
  | usb
  | unknown
  deriving DecidableEq

structure OpenQuestion where
  field : Text
  question : Text
  options : Option (List Text)
  deriving DecidableEq

structure Sense where
  what : List Text
  accuracy : Option Text
  intervalS : Option ℚ
  deriving DecidableEq

structure Act where
  what : List Text
  deriving DecidableEq

structure Environment where
  location : Text
  flags : List Text
  deriving DecidableEq

structure Connect where
  transport : Transport
  experience : List Text
  deriving DecidableEq

structure Power where
  source : PowerSource
  targetLifeDays : Option ℚ
  deriving DecidableEq

structure Experience where
  alerts : Option (List Text)
  dashboard : Option Bool
  deriving DecidableEq

/-- What `specs.data` stores: a full spec, every version. -/
structure Spec where
  sense : Sense
  act : Option Act
  environment : Environment
  connect : Connect
  power : Power
  experience : Experience
  capabilities : List Text
  assumptions : List Text
  openQuestions : List OpenQuestion
  settled : Bool
  deriving DecidableEq

instance : SpecData Spec := ⟨Spec.settled, fun s => s.openQuestions.length⟩

/-! ## What the schema accepts -/

/-- `^[a-z][a-z0-9_]*(\.[a-z0-9_]+)+$`, at most 64 long. -/
def isCapabilityId (t : Text) : Bool :=
  let word (c : ℕ) : Bool := isLower c || isDigit c || c == 95
  t.length ≤ 64 &&
    match split dot t with
    | head :: tail =>
        head.head?.any isLower && head.all word && tail != [] &&
          tail.all (fun s => s != [] && s.all word)
    | [] => false

def isShort (t : Text) : Bool := t.length ≤ 120

def isSentence (t : Text) : Bool := t.length ≤ 300

def isShortList (l : List Text) : Bool := l.length ≤ 12 && l.all isShort

def isFlagList (l : List Text) : Bool := l.length ≤ 16 && l.all (fun f => f.length ≤ 64)

def isPositive (n : ℚ) : Bool := 0 < n

def OpenQuestion.accepted (q : OpenQuestion) : Bool :=
  1 ≤ q.field.length && q.field.length ≤ 64 && 1 ≤ q.question.length && q.question.length ≤ 300 &&
    q.options.all (fun options => 1 ≤ options.length && options.length ≤ 4 &&
      options.all (fun o => 1 ≤ o.length && o.length ≤ 60))

/-- `Spec`, as `parse` checks it. -/
def Spec.accepted (s : Spec) : Bool :=
  isShortList s.sense.what && s.sense.accuracy.all isShort && s.sense.intervalS.all isPositive &&
    s.act.all (fun a => isShortList a.what) &&
    isShort s.environment.location && isFlagList s.environment.flags &&
    isShortList s.connect.experience && s.power.targetLifeDays.all isPositive &&
    s.experience.alerts.all isShortList &&
    s.capabilities.length ≤ 24 && s.capabilities.all isCapabilityId &&
    s.assumptions.length ≤ 20 && s.assumptions.all isSentence &&
    s.openQuestions.length ≤ 6 && s.openQuestions.all OpenQuestion.accepted

/-! ## The model's turn -/

structure SensePatch where
  what : Option (List Text)
  accuracy : Option Text
  intervalS : Option ℚ

structure ActPatch where
  what : Option (List Text)

structure EnvironmentPatch where
  location : Option Text
  flags : Option (List Text)

structure ConnectPatch where
  transport : Option Transport
  experience : Option (List Text)

structure PowerPatch where
  source : Option PowerSource
  targetLifeDays : Option ℚ

structure SpecPatch where
  sense : Option SensePatch
  act : Option ActPatch
  environment : Option EnvironmentPatch
  connect : Option ConnectPatch
  power : Option PowerPatch
  experience : Option Experience
  capabilities : Option (List Text)
  assumptions : Option (List Text)
  openQuestions : Option (List OpenQuestion)

def SpecPatch.accepted (p : SpecPatch) : Bool :=
  p.sense.all (fun s => s.what.all isShortList && s.accuracy.all isShort &&
      s.intervalS.all isPositive) &&
    p.act.all (fun a => a.what.all isShortList) &&
    p.environment.all (fun e => e.location.all isShort && e.flags.all isFlagList) &&
    p.connect.all (fun c => c.experience.all isShortList) &&
    p.power.all (fun w => w.targetLifeDays.all isPositive) &&
    p.experience.all (fun e => e.alerts.all isShortList) &&
    p.capabilities.all (fun cs => cs.length ≤ 24 && cs.all (fun c => c.length ≤ 64)) &&
    p.assumptions.all (fun l => l.length ≤ 20 && l.all isSentence) &&
    p.openQuestions.all (fun l => l.length ≤ 6 && l.all OpenQuestion.accepted)

inductive ReplyKind
  | spec
  | offTopic
  deriving DecidableEq

structure SpecTurn where
  replyKind : ReplyKind
  specPatch : SpecPatch
  candidateQuestions : List OpenQuestion
  assumptions : List Text
  reply : Text

def SpecTurn.accepted (t : SpecTurn) : Bool :=
  t.specPatch.accepted && t.candidateQuestions.length ≤ 6 &&
    t.candidateQuestions.all OpenQuestion.accepted && t.assumptions.length ≤ 10 &&
    t.assumptions.all isSentence && 1 ≤ t.reply.length && t.reply.length ≤ 2000

structure Vocabulary where
  capabilities : List Text
  environmentFlags : List Text

/-! ## Merging -/

def emptySpec : Spec where
  sense := ⟨[], none, none⟩
  act := none
  environment := ⟨js "unspecified", []⟩
  connect := ⟨.wifi, []⟩
  power := ⟨.unknown, none⟩
  experience := ⟨none, none⟩
  capabilities := []
  assumptions := []
  openQuestions := []
  settled := false

/-- `slice(-n)` -/
def lastOf {α : Type} (n : ℕ) (l : List α) : List α := l.drop (l.length - n)

abbrev maxAssumptions : ℕ := 20

def Sense.merge (s : Sense) (p : SensePatch) : Sense :=
  ⟨p.what.getD s.what, p.accuracy <|> s.accuracy, p.intervalS <|> s.intervalS⟩

def Act.merge (a : Act) (p : ActPatch) : Act := ⟨p.what.getD a.what⟩

def Environment.merge (e : Environment) (p : EnvironmentPatch) : Environment :=
  ⟨p.location.getD e.location, p.flags.getD e.flags⟩

def Connect.merge (c : Connect) (p : ConnectPatch) : Connect :=
  ⟨p.transport.getD c.transport, p.experience.getD c.experience⟩

def Power.merge (w : Power) (p : PowerPatch) : Power :=
  ⟨p.source.getD w.source, p.targetLifeDays <|> w.targetLifeDays⟩

def Experience.merge (e p : Experience) : Experience := ⟨p.alerts <|> e.alerts, p.dashboard <|> e.dashboard⟩

structure MergeResult where
  spec : Spec
  droppedCapabilities : List Text
  droppedFlags : List Text

def Vocabulary.lists (v : Vocabulary) (id : Text) : Bool :=
  isCapabilityId id && v.capabilities.contains id

/--
Sections merge field by field, arrays replace, and what is not in the vocabulary is
dropped. The patch's questions are ignored and assumptions accumulate.
-/
def mergePatch (base : Spec) (patch : SpecPatch) (vocabulary : Vocabulary) : MergeResult :=
  let act := (match patch.act with
    | some p => some ((base.act.getD ⟨[]⟩).merge p)
    | none => base.act)
  let environment := (patch.environment.map base.environment.merge).getD base.environment
  let flags := environment.flags.eraseDups
  let known (flag : Text) : Bool := vocabulary.environmentFlags.contains flag
  let ids := patch.capabilities.map fun cs => (cs.map Lib.trim).eraseDups
  { spec :=
      { sense := (patch.sense.map base.sense.merge).getD base.sense
        act := act.filter (fun a => a.what != [])
        environment := { environment with flags := flags.filter known }
        connect := (patch.connect.map base.connect.merge).getD base.connect
        power := (patch.power.map base.power.merge).getD base.power
        experience := (patch.experience.map base.experience.merge).getD base.experience
        capabilities := (ids.map fun l => l.filter vocabulary.lists).getD base.capabilities
        assumptions :=
          lastOf maxAssumptions (base.assumptions ++ patch.assumptions.getD []).eraseDups
        openQuestions := base.openQuestions
        settled := base.settled }
    droppedCapabilities := (ids.map fun l => l.filter fun id => !vocabulary.lists id).getD []
    droppedFlags := flags.filter fun flag => !known flag }

/-! ## Questions -/

def solverRelevantFields : List Text :=
  [js "sense.what", js "act.what", js "power.source", js "connect.transport",
    js "power.target_life_days", js "environment.flags"]

abbrev maxClarificationRounds : ℕ := 4

abbrev maxQuestionsPerRound : ℕ := 1

structure QuestionFilter where
  kept : List OpenQuestion
  cappedOut : List OpenQuestion
  irrelevant : List OpenQuestion
  seen : List Text

def OpenQuestion.tidied (candidate : OpenQuestion) : OpenQuestion :=
  let options := candidate.options.map fun l => ((l.map Lib.trim).filter (· != [])).eraseDups
  { field := Lib.trim candidate.field
    question := Lib.trim candidate.question
    options := (options.filter (· != [])).map (List.take 4) }

def QuestionFilter.take (f : QuestionFilter) (capReached : Bool) (candidate : OpenQuestion) :
    QuestionFilter :=
  let field := Lib.trim candidate.field
  if !solverRelevantFields.contains field then { f with irrelevant := f.irrelevant ++ [candidate] }
  else if f.seen.contains field then f
  else if capReached || maxQuestionsPerRound ≤ f.kept.length then
    { f with seen := field :: f.seen, cappedOut := f.cappedOut ++ [candidate.tidied] }
  else { f with seen := field :: f.seen, kept := f.kept ++ [candidate.tidied] }

def filterQuestions (candidates : List OpenQuestion) (roundsUsed : ℕ) : QuestionFilter :=
  candidates.foldl (fun f candidate => f.take (decide (maxClarificationRounds ≤ roundsUsed)) candidate)
    ⟨[], [], [], []⟩

/-! ## Replies -/

def whatWeBuild : Text :=
  js "Albus Forge designs small connected devices that sense something and tell you about it."

def lines (l : List Text) : Text := join 10 l

def questionsReply (questions : List OpenQuestion) : Text :=
  let intro := if questions.length = 1 then js "Thanks. One thing changes which parts I'd pick:"
    else js "Thanks. A few things change which parts I'd pick:"
  lines (intro :: questions.map fun q => js "- " ++ q.question)

def settledReply (assumptions : List Text) : Text :=
  let shown := lastOf 5 assumptions
  js "That's everything I need to pick parts." ++
    if shown.isEmpty then []
    else lines ([[], [], js "I'm going with these defaults, and you can change any of them:"] ++
      shown.map fun a => js "- " ++ a)

def needsMoreReply : Text :=
  js "Tell me a bit more about what the device should sense or do, and I'll take it from there."

/-! ## The decision -/

def fieldLabel (field : Text) : Option Text :=
  ([(js "sense.what", js "what it measures"), (js "act.what", js "what it does"),
    (js "power.source", js "how it's powered"), (js "connect.transport", js "how it connects"),
    (js "power.target_life_days", js "how long the battery should last"),
    (js "environment.flags", js "the conditions where it lives")].find? (·.1 == field)).map (·.2)

/-- `^[a-z0-9][a-z0-9:.-]{0,63}$` -/
def isFlagShape (t : Text) : Bool :=
  t.length ≤ 64 && t.head?.any (fun c => isLower c || isDigit c) &&
    t.tail.all (fun c => isLower c || isDigit c || c == 58 || c == dot || c == hyphen)

def describeDropped (value : Text) (shape : Text → Bool) (kind : Text) : Text :=
  if shape value then value else js "an unrecognised " ++ kind

structure DecideInput where
  previous : Option Spec
  turn : SpecTurn
  vocabulary : Vocabulary
  roundsUsed : ℕ

structure Decided extends Decision Spec where
  droppedCapabilities : List Text
  droppedFlags : List Text

def DecideInput.base (i : DecideInput) : Spec := i.previous.getD emptySpec

def DecideInput.merged (i : DecideInput) : MergeResult := mergePatch i.base i.turn.specPatch i.vocabulary

def DecideInput.rounds (i : DecideInput) : ℕ :=
  if i.base.settled then maxClarificationRounds else i.roundsUsed

def DecideInput.questions (i : DecideInput) : QuestionFilter :=
  filterQuestions i.turn.candidateQuestions i.rounds

def DecideInput.settled (i : DecideInput) : Bool :=
  i.merged.spec.capabilities != [] && i.questions.kept.isEmpty

def DecideInput.notes (i : DecideInput) : List Text :=
  (i.merged.droppedCapabilities.map fun c => js "Left out, not in the parts catalogue: " ++
    describeDropped c isCapabilityId (js "capability")) ++
  i.merged.droppedFlags.map fun f => js "Left out, not a known environment condition: " ++
    describeDropped f isFlagShape (js "condition")

def DecideInput.defaultsTaken (i : DecideInput) : List Text :=
  let capped := i.questions.cappedOut.filter fun q => !i.questions.kept.any fun k => k.field == q.field
  if i.settled then
    (capped.map (·.field)).eraseDups.map fun field =>
      js "No answer on " ++ (fieldLabel field).getD field ++ js "; the spec uses a default for it"
  else []

def DecideInput.spec (i : DecideInput) : Spec :=
  { i.merged.spec with
    assumptions := lastOf maxAssumptions
      (i.merged.spec.assumptions ++ i.turn.assumptions ++ i.notes ++ i.defaultsTaken).eraseDups
    openQuestions := i.questions.kept
    settled := i.settled }

def DecideInput.reply (i : DecideInput) : Text :=
  if i.questions.cappedOut.isEmpty && i.questions.irrelevant.isEmpty then i.turn.reply
  else if !i.questions.kept.isEmpty then questionsReply i.questions.kept
  else if i.settled then settledReply i.spec.assumptions
  else needsMoreReply

/-- `decide`. `Spec.parse` throws on a spec the schema does not accept. -/
def DecideInput.decide (i : DecideInput) : Option Decided :=
  if i.spec.accepted then
    some
      { spec := i.spec
        reply := i.reply
        status := if i.settled then .planning else .asking
        -- asking always writes a version, so rounds can be counted from specs
        newVersion := i.previous != some i.spec || !i.questions.kept.isEmpty
        droppedCapabilities := i.merged.droppedCapabilities
        droppedFlags := i.merged.droppedFlags }
  else none

/-! ## What a decision is like -/

structure QuestionFilter.Sound (capReached : Bool) (f : QuestionFilter) : Prop where
  few : f.kept.length ≤ maxQuestionsPerRound
  relevant : ∀ q ∈ f.kept, q.field ∈ solverRelevantFields
  capped : capReached = true → f.kept = []

theorem QuestionFilter.Sound.take {capReached : Bool} {f : QuestionFilter} (h : f.Sound capReached)
    (candidate : OpenQuestion) : (f.take capReached candidate).Sound capReached := by
  unfold QuestionFilter.take
  dsimp only
  split
  · exact ⟨h.few, h.relevant, h.capped⟩
  · rename_i hrelevant
    split
    · exact h
    split
    · exact ⟨h.few, h.relevant, h.capped⟩
    · rename_i hroom
      obtain ⟨hcap, hlength⟩ := Bool.or_eq_false_iff.mp (Bool.not_eq_true _ ▸ hroom)
      refine ⟨?_, ?_, ?_⟩
      · have := of_decide_eq_false hlength
        rw [List.length_append, List.length_singleton]
        omega
      · intro q hq
        rcases List.mem_append.mp hq with hq | hq
        · exact h.relevant q hq
        · rw [List.mem_singleton.mp hq]
          show Lib.trim candidate.field ∈ solverRelevantFields
          simpa using hrelevant
      · intro hcap'
        rw [hcap] at hcap'
        exact absurd hcap' (by simp)

theorem filterQuestions_sound (candidates : List OpenQuestion) (roundsUsed : ℕ) :
    (filterQuestions candidates roundsUsed).Sound (decide (maxClarificationRounds ≤ roundsUsed)) := by
  unfold filterQuestions
  generalize decide (maxClarificationRounds ≤ roundsUsed) = capReached
  have key : ∀ (l : List OpenQuestion) (f : QuestionFilter), f.Sound capReached →
      (l.foldl (fun f candidate => f.take capReached candidate) f).Sound capReached := by
    intro l
    induction l with
    | nil => exact fun f h => h
    | cons candidate l ih => exact fun f h => ih _ (h.take candidate)
  exact key candidates _ ⟨by simp, by simp, fun _ => rfl⟩

section

variable {i : DecideInput} {d : Decided}

theorem DecideInput.decide_some (h : i.decide = some d) :
    i.spec.accepted = true ∧ d.spec = i.spec ∧
      d.newVersion = (i.previous != some i.spec || !i.questions.kept.isEmpty) := by
  unfold DecideInput.decide at h
  split at h
  · rename_i haccepted
    rw [← Option.some.inj h]
    exact ⟨haccepted, rfl, rfl⟩
  · exact absurd h (by simp)

/-- **A question is asked only while there are rounds left**, about a part, and alone. -/
theorem DecideInput.questions_sound : i.questions.kept.length ≤ maxQuestionsPerRound ∧
    (∀ q ∈ i.questions.kept, q.field ∈ solverRelevantFields) ∧
    (i.questions.kept ≠ [] → i.base.settled = false ∧ i.roundsUsed < maxClarificationRounds) := by
  have h := filterQuestions_sound i.turn.candidateQuestions i.rounds
  refine ⟨h.few, h.relevant, ?_⟩
  intro hasked
  have hleft : ¬ maxClarificationRounds ≤ i.rounds :=
    fun hcap => hasked (h.capped (decide_eq_true hcap))
  unfold DecideInput.rounds at hleft
  cases hsettled : i.base.settled with
  | true =>
      rw [hsettled, if_pos rfl] at hleft
      exact absurd le_rfl hleft
  | false =>
      rw [hsettled, if_neg (by simp)] at hleft
      exact ⟨rfl, not_le.mp hleft⟩

theorem DecideInput.capabilities_ne_nil : i.merged.spec.capabilities ≠ [] ↔
    match i.turn.specPatch.capabilities with
    | none => i.base.capabilities ≠ []
    | some cs => ∃ c ∈ cs, i.vocabulary.lists (Lib.trim c) = true := by
  unfold DecideInput.merged mergePatch
  cases i.turn.specPatch.capabilities with
  | none => exact Iff.rfl
  | some cs =>
      simp only [Option.map_some, Option.getD_some, ne_eq, List.filter_eq_nil_iff, List.mem_eraseDups,
        List.mem_map, forall_exists_index, and_imp, forall_apply_eq_imp_iff₂, not_forall, not_not,
        exists_prop]

theorem DecideInput.settled_iff : i.settled = true ↔
    i.merged.spec.capabilities ≠ [] ∧ i.questions.kept = [] := by
  unfold DecideInput.settled
  rw [Bool.and_eq_true, bne_iff_ne, List.isEmpty_iff]

theorem DecideInput.spec_settled (h : i.spec.settled = true) :
    i.spec.capabilities ≠ [] ∧ i.spec.openQuestions = [] := DecideInput.settled_iff.mp h

theorem DecideInput.settled_again (hbase : i.base.settled = true) :
    i.spec.settled = true ↔ i.merged.spec.capabilities ≠ [] := by
  have hnone : i.questions.kept = [] := by
    by_contra hasked
    have hopen := (DecideInput.questions_sound.2.2 hasked).1
    rw [hbase] at hopen
    exact absurd hopen (by simp)
  show i.settled = true ↔ _
  rw [DecideInput.settled_iff]
  exact and_iff_left hnone

end

end Albusforge.Intake
