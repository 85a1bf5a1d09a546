import Mathlib.Data.Prod.Lex
import Albusforge.Lib.Json

/-!
# The messages of a build

`chat-store.ts`: the table `builds.build_messages` as one build sees it, the cursors that
name a place in its transcript, and the queries the services put to it. Times are whole
microseconds since the epoch, which is what Postgres keeps and what a cursor carries; the
doubles in which `messagesSince` and `lastMessage` send seconds are taken as exact.
-/

namespace Albusforge.Gateway

open Albusforge.Lib

/-- `[0-9a-f]{8}-[0-9a-f]{4}-[0-9a-f]{4}-[0-9a-f]{4}-[0-9a-f]{12}` -/
def isUuidText (t : Text) : Bool :=
  (split hyphen t).map List.length == [8, 4, 4, 4, 12] &&
    t.all fun u => isDigit u || (97 ≤ u && u ≤ 102) || u == hyphen

abbrev Uuid := {t : Text // isUuidText t = true}

inductive Role
  | user
  | assistant
  deriving DecidableEq, Repr

structure MessageRow where
  id : Uuid
  role : Role
  text : Text
  clientMessageId : Option Text
  createdAt : ℕ
  deriving DecidableEq

/-! ## Cursors -/

structure Cursor where
  micros : ℕ
  id : Uuid
  deriving DecidableEq

namespace Cursor

def key (c : Cursor) : ℕ ×ₗ Text := toLex (c.micros, c.id.val)

theorem key_injective : Function.Injective key := by
  intro a b h
  cases a
  cases b
  simpa [key, Subtype.ext_iff] using h

instance : LinearOrder Cursor := LinearOrder.lift' key key_injective

theorem lt_def {a b : Cursor} : a < b ↔ a.micros < b.micros ∨ a.micros = b.micros ∧ a.id.val < b.id.val := by
  change key a < key b ↔ _
  simp [key, Prod.Lex.toLex_lt_toLex]

theorem micros_le {a b : Cursor} (h : a ≤ b) : a.micros ≤ b.micros := by
  rcases h.lt_or_eq with h | h
  · rcases lt_def.mp h with h | h
    · exact h.le
    · exact h.1.le
  · rw [h]

end Cursor

/-- `(micros, id)` order: negative, positive, or zero. -/
def compareCursors (a b : Cursor) : ℤ :=
  if a.micros ≠ b.micros then (if a.micros < b.micros then -1 else 1)
  else if a.id.val < b.id.val then -1 else if b.id.val < a.id.val then 1 else 0

theorem compareCursors_pos {a b : Cursor} : 0 < compareCursors a b ↔ b < a := by
  rw [Cursor.lt_def, compareCursors]
  split
  · split <;> omega
  · split
    · rename_i hm hid
      simp [not_lt_of_gt hid]
      omega
    · split
      · rename_i hid
        simp [hid]
        omega
      · rename_i hid
        simp [hid]
        omega

theorem compareCursors_nonpos {a b : Cursor} : compareCursors a b ≤ 0 ↔ a ≤ b := by
  rw [← not_lt, compareCursors_pos, not_lt]

/-- What `String.prototype.trim` takes away. -/
def isBlank (u : ℕ) : Bool :=
  (9 ≤ u && u ≤ 13) || u == 32 || u == 160 || u == 0x1680 || (0x2000 ≤ u && u ≤ 0x200A) ||
    u == 0x2028 || u == 0x2029 || u == 0x202F || u == 0x205F || u == 0x3000 || u == 0xFEFF

def trim (t : Text) : Text := ((t.dropWhile isBlank).reverse.dropWhile isBlank).reverse

/-- `CURSOR_PATTERN` on the trimmed text: up to nineteen digits, a dot, a uuid. -/
def parseCursor (value : Option Text) : Option Cursor :=
  let t := trim (value.getD [])
  let digits := t.takeWhile isDigit
  match t.dropWhile isDigit with
  | [] => none
  | u :: id =>
      if h : isUuidText id = true then
        if u = dot ∧ 1 ≤ digits.length ∧ digits.length ≤ 19 then some ⟨parseDecimal digits, id, h⟩
        else none
      else none

/-- `cursorSql`: the row's place, printed. -/
def MessageRow.cursor (m : MessageRow) : Text := decimal m.createdAt ++ dot :: m.id.val

def MessageRow.position (m : MessageRow) : Option Cursor := parseCursor (some m.cursor)

theorem trim_of_solid {t : Text} (h : ∀ u ∈ t, isBlank u = false) : trim t = t := by
  have hdrop : ∀ s : Text, (∀ u ∈ s, isBlank u = false) → s.dropWhile isBlank = s := by
    intro s hs
    cases s with
    | nil => rfl
    | cons u s => simp [hs u (by simp)]
  rw [trim, hdrop t h, hdrop _ (by simpa using h), List.reverse_reverse]

theorem isBlank_digit {u : ℕ} (h : isDigit u = true) : isBlank u = false := by
  simp only [isDigit, Bool.and_eq_true, decide_eq_true_eq] at h
  simp only [isBlank, Bool.or_eq_false_iff, Bool.and_eq_false_iff, decide_eq_false_iff_not, beq_eq_false_iff_ne]
  omega

theorem isBlank_uuid (id : Uuid) {u : ℕ} (h : u ∈ id.val) : isBlank u = false := by
  have hid := id.property
  simp only [isUuidText, Bool.and_eq_true, List.all_eq_true] at hid
  have hu := hid.2 u h
  simp only [isDigit, hyphen, Bool.or_eq_true, Bool.and_eq_true, decide_eq_true_eq, beq_iff_eq] at hu
  simp only [isBlank, Bool.or_eq_false_iff, Bool.and_eq_false_iff, decide_eq_false_iff_not,
    beq_eq_false_iff_ne]
  omega

theorem trim_cursor (m : MessageRow) : trim m.cursor = m.cursor := by
  refine trim_of_solid ?_
  intro u hu
  rcases List.mem_append.mp hu with hu | hu
  · exact isBlank_digit (Json.isDigit_decimal hu)
  · rcases List.mem_cons.mp hu with rfl | hu
    · rfl
    · exact isBlank_uuid m.id hu

theorem takeWhile_cursor (m : MessageRow) : m.cursor.takeWhile isDigit = decimal m.createdAt := by
  rw [MessageRow.cursor, List.takeWhile_append_of_pos fun u hu => Json.isDigit_decimal hu]
  simp [isDigit, dot]

theorem dropWhile_cursor (m : MessageRow) : m.cursor.dropWhile isDigit = dot :: m.id.val := by
  rw [MessageRow.cursor, List.dropWhile_append_of_pos fun u hu => Json.isDigit_decimal hu]
  simp [isDigit, dot]

/-- **A cursor printed by the database is read back**, for times of up to nineteen digits. -/
theorem MessageRow.position_eq (m : MessageRow) :
    m.position = if (decimal m.createdAt).length ≤ 19 then some ⟨m.createdAt, m.id⟩ else none := by
  have hpos : 1 ≤ (decimal m.createdAt).length :=
    List.length_pos_iff.mpr (Json.decimal_ne_nil m.createdAt)
  simp only [position, parseCursor, Option.getD_some, trim_cursor, takeWhile_cursor,
    dropWhile_cursor, Json.parseDecimal_decimal, hpos, true_and, m.id.property, dite_true]

theorem MessageRow.position_some {m : MessageRow} {p : Cursor} (h : m.position = some p) :
    p = ⟨m.createdAt, m.id⟩ := by
  rw [position_eq] at h
  split at h
  · exact (Option.some.inj h).symm
  · exact absurd h (by simp)

/-! ## Queries -/

/-- What `ORDER BY created_at, id` compares. -/
def MessageRow.key (m : MessageRow) : ℕ ×ₗ Text := toLex (m.createdAt, m.id.val)

def rowOrder (a b : MessageRow) : Ordering :=
  (compare a.createdAt b.createdAt).then (compareText a.id.val b.id.val)

theorem rowOrder_byKey : ByKey rowOrder MessageRow.key := by
  have htime : Compares (fun a b : MessageRow => compare a.createdAt b.createdAt)
      MessageRow.createdAt := fun _ _ => rfl
  exact (htime.then (compareText_compares fun m : MessageRow => m.id.val)).byKey

/-- `listMessages`, and the transcript intake reads: the messages in order. -/
def listMessages (table : List MessageRow) : List MessageRow := sortBy rowOrder table

/-- `messagesSince`: the rows later than `after` less the lookback, in order. -/
def messagesSince (table : List MessageRow) (after : Option Cursor) (lookbackMs : ℕ) :
    List MessageRow :=
  sortBy rowOrder <| table.filter fun m =>
    match after with
    | none => true
    | some c => decide ((c.micros : ℤ) - lookbackMs * 1000 < m.createdAt)

/-- `lastMessageOf`: the newest message. -/
def lastMessageOf (table : List MessageRow) : Option MessageRow := (listMessages table).getLast?

/-- Whether a message is younger than `withinS` seconds at `now`. -/
def MessageRow.recent (m : MessageRow) (now withinS : ℕ) : Bool := now < m.createdAt + withinS * 1000000

def maxCreatedAt (table : List MessageRow) : Option ℕ := (table.map MessageRow.createdAt).max?

/-! ## Submitting a message -/

/-- What one submission brings, and what the database gives it: `startedAt` is `now()`, when the
transaction began, and `clock` is `clock_timestamp()`. -/
structure Submission where
  text : Text
  clientMessageId : Text
  /-- `gen_random_uuid()` -/
  id : Uuid
  startedAt : ℕ
  clock : ℕ
  owned : Bool
  /-- `admit` did not throw. -/
  admitted : Bool

inductive SubmitMessageResult
  | created (message : MessageRow)
  | replayed (message : MessageRow)
  | pending (pendingMessageId : Uuid)
  | notFound
  | refused
  deriving DecidableEq

/-- `greatest(clock_timestamp(), max(created_at) + interval '2 microseconds')` -/
def newCreatedAt (clock : ℕ) (table : List MessageRow) : ℕ :=
  match maxCreatedAt table with
  | none => clock
  | some latest => max clock (latest + 2)

def Submission.row (s : Submission) (table : List MessageRow) : MessageRow :=
  { id := s.id, role := .user, text := s.text, clientMessageId := some s.clientMessageId,
    createdAt := newCreatedAt s.clock table }

/-- `TURN_IN_PROGRESS_S`: a newer user message than this with no reply yet is still being answered. -/
abbrev turnInProgressS : ℕ := 60

/-- `submitUserMessage`, which holds the build's row throughout. -/
def submitUserMessage (pendingWithinS : ℕ) (s : Submission) (table : List MessageRow) :
    SubmitMessageResult :=
  if !s.owned then .notFound
  else match table.find? fun m => m.clientMessageId == some s.clientMessageId with
    | some m => .replayed m
    | none =>
        match (lastMessageOf table).filter fun m =>
            m.role == .user && m.recent s.startedAt pendingWithinS with
        | some m => .pending m.id
        | none =>
            if !s.admitted then .refused
            -- the primary key
            else if table.any fun m => m.id == s.id then .refused
            else .created (s.row table)

theorem submitUserMessage_created {pendingWithinS : ℕ} {s : Submission} {table : List MessageRow}
    {m : MessageRow} (h : submitUserMessage pendingWithinS s table = .created m) :
    m = s.row table ∧ ∀ m' ∈ table, m'.id ≠ m.id := by
  unfold submitUserMessage at h
  split at h
  · exact absurd h (by simp)
  · split at h
    · exact absurd h (by simp)
    · split at h
      · exact absurd h (by simp)
      · split at h
        · exact absurd h (by simp)
        · split at h
          · exact absurd h (by simp)
          · rename_i hid
            obtain rfl := SubmitMessageResult.created.inj h
            refine ⟨rfl, ?_⟩
            intro m hm hsame
            exact hid (List.any_eq_true.mpr ⟨m, hm, beq_iff_eq.mpr hsame⟩)

theorem le_maxCreatedAt {table : List MessageRow} {m : MessageRow} (h : m ∈ table) :
    ∃ latest, maxCreatedAt table = some latest ∧ m.createdAt ≤ latest := by
  have hmem : m.createdAt ∈ table.map MessageRow.createdAt := List.mem_map_of_mem h
  cases hmax : maxCreatedAt table with
  | none => simp [maxCreatedAt, List.max?_eq_none_iff] at hmax; simp [hmax] at h
  | some latest => exact ⟨latest, rfl, (List.max?_eq_some_iff.mp hmax).2 _ hmem⟩

theorem add_two_le_newCreatedAt {table : List MessageRow} {m : MessageRow} (clock : ℕ) (h : m ∈ table) :
    m.createdAt + 2 ≤ newCreatedAt clock table := by
  obtain ⟨latest, hlatest, hle⟩ := le_maxCreatedAt h
  rw [newCreatedAt, hlatest]
  have := le_max_right clock (latest + 2)
  change _ ≤ max clock (latest + 2)
  omega

theorem mem_listMessages {table : List MessageRow} {m : MessageRow} : m ∈ listMessages table ↔ m ∈ table :=
  mem_sortBy

theorem listMessages_sorted {table : List MessageRow} (h : (table.map MessageRow.id).Nodup) :
    (listMessages table).Pairwise (fun a b => a.key < b.key) := by
  have hids : (listMessages table).Pairwise (fun a b => a.id ≠ b.id) :=
    List.pairwise_map.mp (((sortBy_perm rowOrder table).map MessageRow.id).nodup_iff.mpr h)
  refine ((sortBy_pairwise rowOrder_byKey table).and hids).imp ?_
  intro a b hab
  refine lt_of_le_of_ne hab.1 ?_
  intro heq
  have hval : a.id.val = b.id.val := congrArg (fun k => (ofLex k).2) heq
  exact hab.2 (Subtype.ext hval)

theorem MessageRow.key_lt {a b : MessageRow} :
    a.key < b.key ↔ a.createdAt < b.createdAt ∨ a.createdAt = b.createdAt ∧ a.id.val < b.id.val := by
  simp [MessageRow.key, Prod.Lex.toLex_lt_toLex]

theorem lastMessageOf_some {table : List MessageRow} {m : MessageRow} (h : lastMessageOf table = some m) :
    m ∈ table ∧ ∀ m' ∈ table, m'.key ≤ m.key := by
  have hmem := List.mem_of_getLast? h
  refine ⟨mem_listMessages.mp hmem, ?_⟩
  intro m' hm'
  obtain ⟨front, hfront⟩ : ∃ front, listMessages table = front ++ [m] :=
    ⟨_, (List.dropLast_append_getLast? m h).symm⟩
  have hsorted := sortBy_pairwise rowOrder_byKey table
  rw [← listMessages, hfront, List.pairwise_append] at hsorted
  rcases List.mem_append.mp (hfront ▸ mem_listMessages.mpr hm') with hm | hm
  · exact hsorted.2.2 m' hm m (by simp)
  · rw [List.mem_singleton.mp hm]

end Albusforge.Gateway
