import Albusforge.Lib.Entries
import Albusforge.Lib.JsonCanonical
import Albusforge.Web.Trace

/-!
# What a log line shows of an error

`formatLogLine` of `apps/intake/src/log.ts`. The engine puts the whole message into the stack of an error, between
the name of its constructor and the frames. `frames` takes the message out again, by the name the error has now,
and **what it leaves does not depend on the message** (`frames_stackText`): the header goes exactly where the two
names are one, and elsewhere nothing is taken for a frame. So a line is the same whatever is put for the message of
an error that is not marked (`logs_keep_messages`).

Values other than errors are taken to be plain data. An object that is met again, or in itself, is told by its
identity; those that `formatLogLine` makes are met once.
-/

namespace Albusforge.Intake.Log

open Lib

variable {ν : Type}

/-! ## Errors -/

inductive TypeOf
  | undefined | object | boolean | number | bigint | string | symbol | function
  deriving DecidableEq

def TypeOf.text : TypeOf → Text
  | .undefined => js "undefined"
  | .object => js "object"
  | .boolean => js "boolean"
  | .number => js "number"
  | .bigint => js "bigint"
  | .string => js "string"
  | .symbol => js "symbol"
  | .function => js "function"

/-- A value that is no instance of `Error`. -/
inductive Plain (ν : Type)
  | undefined
  | null
  | boolean (b : Bool)
  | number (n : ν)
  | bigint (n : ℤ)
  | string (t : Text)
  | symbol (description : Text)
  | function (identity : ℕ)
  | object (identity : ℕ)

def Plain.typeOf : Plain ν → TypeOf
  | .undefined => .undefined
  | .null => .object
  | .boolean _ => .boolean
  | .number _ => .number
  | .bigint _ => .bigint
  | .string _ => .string
  | .symbol _ => .symbol
  | .function _ => .function
  | .object _ => .object

structure Fields (ν : Type) where
  name : Text
  message : Text
  code : Option Text
  status : Option ν
  safeToLog : Bool
  stack : Option Text

/-- What is thrown, with the chain of its causes. An error without a cause has `undefined` for one. -/
inductive Thrown (ν : Type)
  | plain (value : Plain ν)
  | error (fields : Fields ν) (cause : Thrown ν)

def maxFrames : ℕ := 5

def startsWith (t header : Text) : Bool := header.isPrefixOf t

def isFrame (line : Text) : Bool := startsWith line (js "at ")

/-- `error.message === "" ? error.name : ...` -/
def headerText (name message : Text) : Text := if message = [] then name else name ++ js ": " ++ message

def framesIn (rest : Text) : List Text :=
  let lines := ((split 10 rest).map trim).filter (· ≠ [])
  if !lines.all isFrame then [] else lines.take maxFrames

def frames (e : Fields ν) : List Text :=
  match e.stack with
  | none => []
  | some stack =>
    let header := headerText e.name e.message
    if !startsWith stack header then [] else framesIn (stack.drop header.length)

/-! ## Lines -/

inductive Value (ν : Type)
  | undefined
  | null
  | bool (b : Bool)
  | num (n : ν)
  | bigint (t : Text)
  | str (t : Text)
  | arr (identity : Option ℕ) (items : List (Value ν))
  | obj (identity : Option ℕ) (members : List (Text × Value ν))

/-- What `serializeError` makes of an error but for its cause. -/
def ownMembers (e : Fields ν) : List (Text × Value ν) :=
  let stack := frames e
  [(js "name", .str e.name)] ++
    (e.code.map fun code => (js "code", .str code)).toList ++
    (e.status.map fun status => (js "status", .num status)).toList ++
    [if e.safeToLog then (js "message", .str e.message) else (js "redacted", .bool true)] ++
    if stack = [] then [] else [(js "frames", .arr none (stack.map .str))]

def serializeError : Thrown ν → Value ν
  | .plain value => .obj none [(js "name", .str value.typeOf.text), (js "redacted", .bool true)]
  | .error e (.plain .undefined) => .obj none (ownMembers e)
  | .error e cause => .obj none (ownMembers e ++ [(js "cause", serializeError cause)])

def ownOrder {β : Type} (members : List (Text × β)) : List (Text × β) :=
  sortBy (fun a b => compare (parseDecimal a.1) (parseDecimal b.1)) (members.filter fun m => Json.isIndex m.1) ++
    members.filter fun m => !Json.isIndex m.1

/-- `seen.has(current)` and, where it has not, `seen.add(current)`. -/
def meet (seen : List ℕ) (identity : Option ℕ) : Option (List ℕ) :=
  match identity with
  | none => some seen
  | some i => if i ∈ seen then none else some (i :: seen)

mutual

/-- What the replacer of `safeStringify` makes of a value, and the objects met by then. Nothing is written for
`undefined`. -/
def replace (seen : List ℕ) : Value ν → Option (Json ν) × List ℕ
  | .undefined => (none, seen)
  | .null => (some .null, seen)
  | .bool b => (some (.bool b), seen)
  | .num n => (some (.num n), seen)
  | .bigint t => (some (.str t), seen)
  | .str t => (some (.str t), seen)
  | .arr identity items =>
    match meet seen identity with
    | none => (some (.str (js "[Circular]")), seen)
    | some seen =>
      let (items, seen) := replaceItems seen items
      (some (.arr items), seen)
  | .obj identity members =>
    match meet seen identity with
    | none => (some (.str (js "[Circular]")), seen)
    | some seen =>
      let (members, seen) := replaceMembers seen members
      (some (.obj members), seen)

def replaceItems (seen : List ℕ) : List (Value ν) → List (Json ν) × List ℕ
  | [] => ([], seen)
  | item :: items =>
    let (item, seen) := replace seen item
    let (items, seen) := replaceItems seen items
    (item.getD .null :: items, seen)

def replaceMembers (seen : List ℕ) : List (Text × Value ν) → List (Text × Json ν) × List ℕ
  | [] => ([], seen)
  | (name, value) :: members =>
    let (value, seen) := replace seen value
    let (members, seen) := replaceMembers seen members
    ((value.map fun value => (name, value)).toList ++ members, seen)

end

/-- The members of a value that comes with `fields` are listed in their order already. -/
def safeStringify [Json.NumberText ν] (members : List (Text × Value ν)) : Text :=
  Json.stringify (.obj (replaceMembers [] (ownOrder members)).1)

def traceField : Text := js "logging.googleapis.com/trace"
def spanField : Text := js "logging.googleapis.com/spanId"
def sampledField : Text := js "logging.googleapis.com/trace_sampled"

structure LogOptions (ν : Type) where
  error : Thrown ν
  trace : Option Web.Errors.TraceContext
  fields : List (Text × Value ν)

def traceMembers (trace : Option Web.Errors.TraceContext) (project : Option Text) : List (Text × Value ν) :=
  match trace, project.filter (· ≠ []) with
  | some trace, some project =>
    [(traceField, .str (js "projects/" ++ project ++ js "/traces/" ++ trace.traceId))] ++
      ((trace.spanId.filter (· ≠ [])).map fun span => (spanField, .str span)).toList ++
      (trace.sampled.map fun sampled => (sampledField, .bool sampled)).toList
  | _, _ => []

/-- `entry[name] = value`, one after the other. -/
def assign {β : Type} (entry members : List (Text × β)) : List (Text × β) :=
  members.foldl (fun entry m => Entries.set entry m.1 m.2) entry

def logEntry (severity message : Text) (options : LogOptions ν) (project : Option Text) : List (Text × Value ν) :=
  let own := [(js "severity", .str severity), (js "message", .str message)]
  let entry := assign (assign own options.fields) own
  let entry := match options.error with
    | .plain .undefined => entry
    | error => Entries.set entry (js "error") (serializeError error)
  assign entry (traceMembers options.trace project)

def formatLogLine [Json.NumberText ν] (severity message : Text) (options : LogOptions ν) (project : Option Text) : Text :=
  safeStringify (logEntry severity message options project) ++ [10]

/-! ## Stacks -/

def isIdentifierUnit (u : ℕ) : Bool :=
  isDigit u || isLower u || isUpper u || u = 36 || u = 95 || (128 ≤ u && !isWhite u)

def IsIdentifier (t : Text) : Prop := t ≠ [] ∧ ∀ u ∈ t, isIdentifierUnit u = true

def stackText (constructor message : Text) (lines : List Text) : Text :=
  headerText constructor message ++ lines.flatMap fun line => 10 :: line

theorem isIdentifierUnit_spec {u : ℕ} (h : isIdentifierUnit u = true) :
    isWhite u = false ∧ u ≠ 10 ∧ u ≠ 32 ∧ u ≠ 58 := by
  simp only [isIdentifierUnit, isDigit, isLower, isUpper, isWhite, Bool.or_eq_true, Bool.and_eq_true,
    decide_eq_true_eq, Bool.not_eq_true', Bool.or_eq_false_iff, Bool.and_eq_false_iff, decide_eq_false_iff_not] at h ⊢
  omega

theorem trim_of_no_white {t : Text} (h : ∀ u ∈ t, isWhite u = false) : trim t = t := by
  have hself : ∀ {t : Text}, (∀ u ∈ t, isWhite u = false) → t.dropWhile isWhite = t := by
    intro t h
    cases t with
    | nil => rfl
    | cons u t => rw [List.dropWhile_cons_of_neg (by simp [h u List.mem_cons_self])]
  rw [trim, hself h, hself (by simpa using h), List.reverse_reverse]

theorem framesIn_identifier {a : Text} (ha : IsIdentifier a) (lines : List Text) :
    framesIn (a ++ lines.flatMap fun line => 10 :: line) = [] := by
  have hunit := fun u hu => isIdentifierUnit_spec (ha.2 u hu)
  have hnot : 10 ∉ a := fun hmem => (hunit 10 hmem).2.1 rfl
  have hmem : a ∈ split 10 (a ++ lines.flatMap fun line => 10 :: line) := by
    cases lines with
    | nil => simp [split_of_notMem hnot]
    | cons line lines =>
      rw [List.flatMap_cons, List.cons_append, split_append hnot]
      exact List.mem_cons_self
  have hline : a ∈ ((split 10 (a ++ lines.flatMap fun line => 10 :: line)).map trim).filter (· ≠ []) := by
    refine List.mem_filter.mpr ⟨?_, by simpa using ha.1⟩
    exact List.mem_map.mpr ⟨a, hmem, trim_of_no_white fun u hu => (hunit u hu).1⟩
  have hframe : isFrame a = false := by
    rw [isFrame, startsWith, ← Bool.not_eq_true, List.isPrefixOf_iff_prefix]
    rintro ⟨rest, rfl⟩
    exact (hunit 32 (by simp [js, codeUnits])).2.2.1 rfl
  have hall : (((split 10 (a ++ lines.flatMap fun line => 10 :: line)).map trim).filter (· ≠ [])).all isFrame = false := by
    rw [← Bool.not_eq_true, List.all_eq_true]
    intro hall
    rw [hall a hline] at hframe
    cases hframe
  rw [framesIn]
  simp only [hall, Bool.not_false, if_true]

/-- **What is left of a stack without its header does not depend on the message.** -/
theorem frames_stackText {e : Fields ν} {constructor : Text} {lines : List Text} (hname : IsIdentifier e.name)
    (hconstructor : IsIdentifier constructor) (hstack : e.stack = some (stackText constructor e.message lines)) :
    frames e = if e.name = constructor then framesIn (lines.flatMap fun line => 10 :: line) else [] := by
  have hcolon : ∀ {t : Text}, IsIdentifier t → 58 ∉ t := fun ht hmem => (isIdentifierUnit_spec (ht.2 58 hmem)).2.2.2 rfl
  unfold frames
  rw [hstack]
  dsimp only
  split_ifs with hstart hsame hsame
  · -- the header is there
    rw [stackText, hsame, startsWith, List.isPrefixOf_iff_prefix.mpr (List.prefix_append _ _)] at hstart
    cases hstart
  · rfl
  · rw [stackText, hsame, List.drop_left]
  · -- another name that the stack begins with: the message is empty and the name is cut short
    rw [Bool.not_eq_true', Bool.not_eq_false, startsWith, List.isPrefixOf_iff_prefix] at hstart
    obtain ⟨rest, hrest⟩ := hstart
    unfold stackText headerText at hrest ⊢
    by_cases hmessage : e.message = []
    · rw [if_pos hmessage] at hrest
      rw [if_pos hmessage, if_pos hmessage]
      rw [if_pos hmessage] at hrest
      rcases List.append_eq_append_iff.mp hrest with ⟨a, ha, hafter⟩ | ⟨c, hc, hafter⟩
      · rw [ha, List.append_assoc, List.drop_left]
        refine framesIn_identifier ⟨?_, ?_⟩ lines
        · rintro rfl
          exact hsame (by rw [ha, List.append_nil])
        · intro u hu
          exact hconstructor.2 u (ha ▸ List.mem_append_right _ hu)
      · exfalso
        cases c with
        | nil => exact hsame (by rw [hc, List.append_nil])
        | cons u c =>
          have hu := (isIdentifierUnit_spec (hname.2 u (hc ▸ List.mem_append_right _ List.mem_cons_self))).2.1
          cases lines with
          | nil => cases hafter
          | cons line lines => exact hu (List.cons.inj hafter).1.symm
    · exfalso
      rw [if_neg hmessage, if_neg hmessage] at hrest
      have hcut : e.name ++ 58 :: (32 :: e.message ++ rest) =
          constructor ++ 58 :: (32 :: e.message ++ lines.flatMap fun line => 10 :: line) := by
        simpa [js, codeUnits] using hrest
      exact hsame (append_sep_injective (hcolon hname) (hcolon hconstructor) hcut).1

/-! ## Two runs -/

inductive Restacked (message message' : Text) : Option Text → Option Text → Prop
  | absent : Restacked message message' none none
  | engine {constructor : Text} (lines : List Text) : IsIdentifier constructor →
      Restacked message message' (some (stackText constructor message lines))
        (some (stackText constructor message' lines))

/-- What is thrown, with other messages wherever none is marked, and other values of the same types. -/
inductive Reworded : Thrown ν → Thrown ν → Prop
  | plain {value value' : Plain ν} : value.typeOf = value'.typeOf → Reworded (.plain value) (.plain value')
  | kept {e : Fields ν} {cause cause' : Thrown ν} : Reworded cause cause' → Reworded (.error e cause) (.error e cause')
  | reworded {e : Fields ν} {message' : Text} {stack' : Option Text} {cause cause' : Thrown ν} :
      e.safeToLog = false → IsIdentifier e.name → Restacked e.message message' e.stack stack' → Reworded cause cause' →
      Reworded (.error e cause) (.error { e with message := message', stack := stack' } cause')

theorem Restacked.frames {e : Fields ν} {message' : Text} {stack' : Option Text} (hname : IsIdentifier e.name)
    (h : Restacked e.message message' e.stack stack') :
    Log.frames { e with message := message', stack := stack' } = Log.frames e := by
  generalize hstack : e.stack = stack at h
  cases h with
  | absent => simp only [Log.frames, hstack]
  | engine lines hconstructor =>
    rw [frames_stackText hname hconstructor hstack]
    exact frames_stackText hname hconstructor rfl

theorem reworded_undefined {error error' : Thrown ν} (h : Reworded error error') :
    error = .plain .undefined ↔ error' = .plain .undefined := by
  have htype : ∀ {value : Plain ν}, value.typeOf = .undefined ↔ value = .undefined := by
    intro value
    cases value <;> simp [Plain.typeOf]
  cases h with
  | plain htypes =>
    rw [Thrown.plain.injEq, Thrown.plain.injEq, ← htype, ← htype, htypes]
  | kept => exact ⟨fun heq => (nomatch heq), fun heq => (nomatch heq)⟩
  | reworded => exact ⟨fun heq => (nomatch heq), fun heq => (nomatch heq)⟩

theorem ownMembers_reworded {e : Fields ν} {message' : Text} {stack' : Option Text} (hunmarked : e.safeToLog = false)
    (hname : IsIdentifier e.name) (h : Restacked e.message message' e.stack stack') :
    ownMembers { e with message := message', stack := stack' } = ownMembers e := by
  unfold ownMembers
  rw [h.frames hname]
  simp only [hunmarked, Bool.false_eq_true, if_false]

theorem serializeError_cause (e : Fields ν) {cause : Thrown ν} (h : cause ≠ .plain .undefined) :
    serializeError (.error e cause) = .obj none (ownMembers e ++ [(js "cause", serializeError cause)]) := by
  rw [serializeError]
  exact h

theorem serializeError_congr {e e' : Fields ν} {cause cause' : Thrown ν} (he : ownMembers e = ownMembers e')
    (hcause : Reworded cause cause') (heq : serializeError cause = serializeError cause') :
    serializeError (.error e cause) = serializeError (.error e' cause') := by
  by_cases hnone : cause = .plain .undefined
  · rw [hnone, (reworded_undefined hcause).mp hnone, serializeError, serializeError, he]
  · rw [serializeError_cause e hnone, serializeError_cause e' ((reworded_undefined hcause).not.mp hnone), he, heq]

theorem serializeError_reworded {error error' : Thrown ν} (h : Reworded error error') :
    serializeError error = serializeError error' := by
  induction h with
  | plain htypes => rw [serializeError, serializeError, htypes]
  | kept hcause ih => exact serializeError_congr rfl hcause ih
  | reworded hunmarked hname hstack hcause ih =>
    exact serializeError_congr (ownMembers_reworded hunmarked hname hstack).symm hcause ih

theorem logEntry_reworded {error error' : Thrown ν} (h : Reworded error error') (severity message : Text)
    (trace : Option Web.Errors.TraceContext) (fields : List (Text × Value ν)) (project : Option Text) :
    logEntry severity message ⟨error, trace, fields⟩ project = logEntry severity message ⟨error', trace, fields⟩ project := by
  have heq := serializeError_reworded h
  by_cases hnone : error = .plain .undefined
  · rw [hnone, (reworded_undefined h).mp hnone]
  · have hsome : ∀ {error : Thrown ν}, error ≠ .plain .undefined → logEntry severity message ⟨error, trace, fields⟩ project =
        assign (Entries.set (assign (assign [(js "severity", .str severity), (js "message", .str message)] fields)
          [(js "severity", .str severity), (js "message", .str message)]) (js "error") (serializeError error))
          (traceMembers trace project) := by
      intro error hne
      unfold logEntry
      dsimp only
      split
      · exact absurd rfl hne
      · rfl
    rw [hsome hnone, hsome ((reworded_undefined h).not.mp hnone), heq]

/-! ## A marked message -/

section Marked

variable [Json.NumberText ν]

def Thrown.chain : Thrown ν → List (Fields ν)
  | .plain _ => []
  | .error e cause => e :: cause.chain

theorem infix_join (sep : ℕ) {t : Text} : ∀ {ts : List Text}, t ∈ ts → t <:+: join sep ts
  | [u], h => by
    rw [List.mem_singleton.mp h]
    exact List.infix_refl u
  | u :: v :: ts, h => by
    rw [join]
    rcases List.mem_cons.mp h with rfl | hrest
    · exact (List.prefix_append t _).isInfix
    · have hjoin := infix_join sep hrest
      exact hjoin.trans ((List.suffix_cons sep _).trans (List.suffix_append u _)).isInfix

theorem infix_member {members : List (Text × Json ν)} {m : Text × Json ν} (h : m ∈ members) :
    Json.quote m.1 ++ Json.colon :: Json.stringify m.2 <:+: Json.stringify (.obj members) := by
  rw [Json.stringify_obj]
  have hjoin := infix_join comma
    (List.mem_map_of_mem (f := fun m => Json.quote m.1 ++ Json.colon :: Json.stringify m.2) h)
  exact hjoin.trans ((List.prefix_append _ _).isInfix.trans (List.suffix_cons _ _).isInfix)

omit [Json.NumberText ν] in
theorem mem_replaceMembers {name : Text} {value : Value ν} : ∀ {members : List (Text × Value ν)} (seen : List ℕ),
    (name, value) ∈ members →
      ∃ seen', ∀ j, (replace seen' value).1 = some j → (name, j) ∈ (replaceMembers seen members).1
  | m :: members, seen, h => by
    rw [replaceMembers]
    rcases List.mem_cons.mp h with rfl | hrest
    · refine ⟨seen, fun j hj => ?_⟩
      simp [hj]
    · obtain ⟨seen', hmem⟩ := mem_replaceMembers (replace seen m.2).2 hrest
      exact ⟨seen', fun j hj => List.mem_append_right _ (hmem j hj)⟩

/-- `"message":` and the message. -/
def shownMessage (message : Text) : Text := Json.quote (js "message") ++ Json.colon :: Json.quote message

theorem serializeError_shows {error : Thrown ν} {e : Fields ν} (he : e ∈ error.chain) (hmarked : e.safeToLog = true)
    (seen : List ℕ) : ∃ members, (replace seen (serializeError error)).1 = some (.obj members) ∧
      shownMessage e.message <:+: Json.stringify (.obj members) := by
  induction error generalizing seen with
  | plain value => cases he
  | error e' cause ih =>
    have hmembers : ∃ rest, serializeError (.error e' cause) = .obj none (ownMembers e' ++ rest) ∧
        (cause ≠ .plain .undefined → rest = [(js "cause", serializeError cause)]) := by
      by_cases hnone : cause = .plain .undefined
      · refine ⟨[], ?_, fun hsome => absurd hnone hsome⟩
        rw [hnone, serializeError, List.append_nil]
      · exact ⟨_, serializeError_cause e' hnone, fun _ => rfl⟩
    obtain ⟨rest, hobj, hcause⟩ := hmembers
    rw [hobj]
    refine ⟨_, rfl, ?_⟩
    rcases List.mem_cons.mp he with rfl | hdeep
    · have hown : (js "message", Value.str e.message) ∈ ownMembers e ++ rest := by
        simp [ownMembers, hmarked]
      obtain ⟨seen', hmem⟩ := mem_replaceMembers seen hown
      have hshown := infix_member (hmem (.str e.message) rfl)
      rwa [Json.stringify] at hshown
    · have hsome : cause ≠ .plain .undefined := by
        rintro rfl
        cases hdeep
      have hmember : (js "cause", serializeError cause) ∈ ownMembers e' ++ rest := by
        rw [hcause hsome]
        exact List.mem_append_right _ List.mem_cons_self
      obtain ⟨seen', hmem⟩ := mem_replaceMembers seen hmember
      obtain ⟨members, hreplace, hshown⟩ := ih hdeep seen'
      have hinfix := infix_member (hmem _ hreplace)
      exact hshown.trans ((((List.suffix_cons _ _).trans (List.suffix_append _ _)).isInfix).trans hinfix)

omit [Json.NumberText ν] in
theorem mem_assign {entry members : List (Text × Value ν)} {m : Text × Value ν} (h : m ∈ entry)
    (hother : ∀ m' ∈ members, m.1 ≠ m'.1) : m ∈ assign entry members := by
  induction members generalizing entry with
  | nil => exact h
  | cons m' members ih =>
    exact ih (Entries.mem_set_of_ne _ h (hother m' List.mem_cons_self)) fun m'' hm'' =>
      hother m'' (List.mem_cons_of_mem _ hm'')

omit [Json.NumberText ν] in
theorem mem_ownOrder {members : List (Text × Value ν)} {m : Text × Value ν} (h : m ∈ members) : m ∈ ownOrder members := by
  cases hindex : Json.isIndex m.1 with
  | true => exact List.mem_append_left _ (mem_sortBy.mpr (List.mem_filter.mpr ⟨h, hindex⟩))
  | false => exact List.mem_append_right _ (List.mem_filter.mpr ⟨h, by simp [hindex]⟩)

omit [Json.NumberText ν] in
theorem mem_logEntry {error : Thrown ν} (h : error ≠ .plain .undefined) (severity message : Text)
    (trace : Option Web.Errors.TraceContext) (fields : List (Text × Value ν)) (project : Option Text) :
    (js "error", serializeError error) ∈ logEntry severity message ⟨error, trace, fields⟩ project := by
  unfold logEntry
  dsimp only
  have hother : ∀ m ∈ (traceMembers trace project : List (Text × Value ν)), js "error" ≠ m.1 := by
    intro m hm
    unfold traceMembers at hm
    split at hm
    · simp only [List.mem_append, List.mem_singleton, Option.mem_toList, Option.map_eq_some_iff] at hm
      rcases hm with (rfl | ⟨span, -, rfl⟩) | ⟨sampled, -, rfl⟩ <;> simp [js, codeUnits, traceField, spanField, sampledField]
    · cases hm
  refine mem_assign ?_ hother
  split
  · exact absurd rfl h
  · exact Entries.mem_set_self _ _ _

end Marked

/-! ## Lines -/

/-- **Lines never carry an unmarked message.** -/
theorem logs_keep_messages [Json.NumberText ν] (severity message : Text) (trace : Option Web.Errors.TraceContext)
    (fields : List (Text × Value ν)) (project : Option Text) :
    -- whatever is put for the messages that are not marked
    (∀ error error', Reworded error error' →
      formatLogLine severity message ⟨error, trace, fields⟩ project =
        formatLogLine severity message ⟨error', trace, fields⟩ project) ∧
    -- of a value that is no error, the type
    (∀ value value' : Plain ν, value.typeOf = value'.typeOf →
      formatLogLine severity message ⟨.plain value, trace, fields⟩ project =
        formatLogLine severity message ⟨.plain value', trace, fields⟩ project) ∧
    -- and of a marked error, its message
    ∀ error, ∀ e ∈ error.chain, e.safeToLog = true →
      shownMessage e.message <:+: formatLogLine severity message ⟨error, trace, fields⟩ project := by
  have hsame : ∀ {error error' : Thrown ν}, Reworded error error' →
      formatLogLine severity message ⟨error, trace, fields⟩ project =
        formatLogLine severity message ⟨error', trace, fields⟩ project := by
    intro error error' h
    rw [formatLogLine, formatLogLine, logEntry_reworded h]
  refine ⟨fun _ _ h => hsame h, fun _ _ h => hsame (.plain h), ?_⟩
  intro error e he hmarked
  have hsome : error ≠ .plain .undefined := by
    rintro rfl
    cases he
  obtain ⟨seen, hmem⟩ := mem_replaceMembers [] (mem_ownOrder (mem_logEntry hsome severity message trace fields project))
  obtain ⟨members, hreplace, hshown⟩ := serializeError_shows he hmarked seen
  have hline := infix_member (hmem _ hreplace)
  have hinner := hshown.trans ((((List.suffix_cons _ _).trans (List.suffix_append _ _)).isInfix).trans hline)
  exact hinner.trans (List.prefix_append _ _).isInfix

def typeError (message : Text) : Thrown ℚ :=
  .error ⟨js "TypeError", message, none, none, false,
    some (stackText (js "TypeError") message [js "    at run (app.js:1:2)"])⟩ (.plain .undefined)

def privateMessage : Text := js "row\n    at <private>"

theorem logs_keep_messages_private :
    formatLogLine (js "ERROR") (js "failed") ⟨typeError privateMessage, none, []⟩ none =
      formatLogLine (js "ERROR") (js "failed") ⟨typeError [], none, []⟩ none := by
  have hname : IsIdentifier (js "TypeError") := ⟨by decide, by decide⟩
  exact (logs_keep_messages (js "ERROR") (js "failed") none [] none).1 _ _
    (.reworded rfl hname (.engine _ hname) (.plain rfl))

end Albusforge.Intake.Log
