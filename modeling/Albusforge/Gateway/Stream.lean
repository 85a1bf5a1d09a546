import Albusforge.Lib.Follow
import Albusforge.Gateway.Messages

/-!
# The event stream of a build

`sse.ts`. A stream polls the messages of its build and writes what is new: the rows after
the position the client resumes from, once each, and a `build.updated` whenever the build's
state is not the one last written. Between two polls the table may get rows anywhere, so
every poll goes back a lookback behind the stream's cursor, and the ids already sent are
kept for twice as long.

A poll reads one snapshot, and writes without waiting. A row committed while a batch is
being written is a row of the next snapshot.
-/

namespace Albusforge.Gateway

open Albusforge.Lib

inductive BuildStatus
  | asking
  | specifying
  | planning
  | coding
  | bodying
  | ready
  | ordered
  deriving DecidableEq, Repr

structure BuildState where
  status : BuildStatus
  specVersion : Option ℕ
  deriving DecidableEq

structure ChatMessage where
  id : Uuid
  role : Role
  text : Text
  /-- The instant `toISOString` prints, in milliseconds. -/
  createdAt : ℕ
  clientMessageId : Option Text
  deriving DecidableEq

def toChatMessage (row : MessageRow) : ChatMessage :=
  { id := row.id, role := row.role, text := row.text, createdAt := row.createdAt / 1000,
    clientMessageId := row.clientMessageId }

/-- What is written to the client, with its `id` line. -/
inductive SseEvent
  | buildUpdated (payload : BuildState) (id : Option Cursor)
  | messageCreated (message : ChatMessage) (id : Cursor)
  deriving DecidableEq

structure StreamState where
  cursor : Option Cursor
  lastState : Option BuildState
  sent : List (Uuid × ℕ)
  closed : Bool

def StreamState.opened (resumeFrom : Option Cursor) : StreamState :=
  { cursor := resumeFrom, lastState := none, sent := [], closed := false }

/-! ## A poll -/

section

variable (lookbackMs : ℕ) (resumeFrom : Option Cursor)
  -- whether the client is dropped for what it has not read once the `k`-th write is buffered
  (slow : ℕ → Bool)

def send (e : SseEvent) (st : StreamState) (out : List SseEvent) : StreamState × List SseEvent :=
  if st.closed then (st, out) else ({ st with closed := slow out.length }, out ++ [e])

/-- `if (!cursor || compareCursors(position, cursor) > 0) cursor = position` -/
def advance (cursor : Option Cursor) (position : Cursor) : Option Cursor :=
  match cursor with
  | none => some position
  | some c => if 0 < compareCursors position c then some position else some c

def emitRows : List MessageRow → StreamState → List SseEvent → StreamState × List SseEvent × Bool
  | [], st, out => (st, out, false)
  | row :: rows, st, out =>
      if st.closed then (st, out, true)
      else match row.position with
        | none => emitRows rows st out
        | some position =>
            if st.sent.any fun e => e.1 == row.id then emitRows rows st out
            else if resumeFrom.any fun r => compareCursors position r ≤ 0 then emitRows rows st out
            else
              let st := { st with sent := st.sent ++ [(row.id, position.micros)],
                                  cursor := advance st.cursor position }
              let (st, out) := send slow (.messageCreated (toChatMessage row) position) st out
              emitRows rows st out

def StreamState.forget (st : StreamState) : StreamState :=
  match st.cursor with
  | none => st
  | some c => { st with sent := st.sent.filter fun e => !decide ((e.2 : ℤ) < c.micros - lookbackMs * 2000) }

/-- `build.updated`, when the state is not the one written last. -/
def emitState (state : BuildState) (st : StreamState) : StreamState × List SseEvent :=
  if st.lastState = some state then (st, [])
  else
    let (st, out) := send slow (.buildUpdated state st.cursor) st []
    ({ st with lastState := some state }, out)

/-- `poll`, from the batch on. There is none when the build is no longer the caller's, and when
reading it failed. -/
def poll (batch : Option (BuildState × List MessageRow)) (st : StreamState) :
    StreamState × List SseEvent :=
  match batch with
  | none => ({ st with closed := true }, [])
  | some (state, rows) =>
      let (st, out) := emitState slow state st
      let (st, out, returned) := emitRows resumeFrom slow rows st out
      if returned then (st, out) else (st.forget lookbackMs, out)

end

/-! ## A stream beside a table that grows -/

structure StreamWorld where
  table : List MessageRow
  stream : StreamState

inductive StreamEvent
  | commit (rows : List MessageRow)
  | poll (out : List SseEvent) (successful : Bool)
  | close

inductive StreamStep (lookbackMs : ℕ) (resumeFrom : Option Cursor) :
    StreamWorld → StreamEvent → StreamWorld → Prop
  | commit {w : StreamWorld} {rows : List MessageRow} :
      ((w.table ++ rows).map MessageRow.id).Nodup →
      StreamStep lookbackMs resumeFrom w (.commit rows) { w with table := w.table ++ rows }
  /-- `gone`: the stream was closed while the batch was being read. -/
  | poll {w : StreamWorld} {slow : ℕ → Bool} {gone : Bool} {batch : Option (BuildState × List MessageRow)}
      {st : StreamState} {out : List SseEvent} :
      w.stream.closed = false →
      (∀ b, batch = some b → b.2 = messagesSince w.table w.stream.cursor lookbackMs) →
      poll lookbackMs resumeFrom slow batch { w.stream with closed := gone } = (st, out) →
      StreamStep lookbackMs resumeFrom w (.poll out !st.closed) { w with stream := st }
  | close {w : StreamWorld} :
      StreamStep lookbackMs resumeFrom w .close { w with stream := { w.stream with closed := true } }

def streamMachine (lookbackMs : ℕ) (resumeFrom : Option Cursor) : Machine StreamWorld StreamEvent where
  init w := w.stream = .opened resumeFrom ∧ w.table = []
  step := StreamStep lookbackMs resumeFrom

def StreamEvent.written : StreamEvent → List SseEvent
  | .commit _ => []
  | .poll out _ => out
  | .close => []

def written (es : List StreamEvent) : List SseEvent := es.flatMap StreamEvent.written

def SseEvent.place : SseEvent → Option Cursor
  | .buildUpdated _ _ => none
  | .messageCreated _ id => some id

def places (out : List SseEvent) : List Cursor := out.filterMap SseEvent.place

def emittedIds (out : List SseEvent) : List Uuid :=
  out.filterMap fun
    | .buildUpdated _ _ => none
    | .messageCreated message _ => some message.id

/-- What an event does to the client's `Last-Event-ID`: one without an `id` line leaves it. -/
def SseEvent.move (position : Option Cursor) : SseEvent → Option Cursor
  | .buildUpdated _ id => id.or position
  | .messageCreated _ id => some id

/-- The `Last-Event-ID` a client has after these events. -/
def lastEventId (position : Option Cursor) (out : List SseEvent) : Option Cursor :=
  out.foldl SseEvent.move position

/-- No `build.updated` moves a client that starts at `position` backwards. -/
def Steady : Option Cursor → List SseEvent → Prop
  | _, [] => True
  | position, .buildUpdated state id :: out =>
      (∀ q, position = some q → ∃ c, id = some c ∧ q ≤ c) ∧
        Steady (SseEvent.move position (.buildUpdated state id)) out
  | position, .messageCreated message id :: out =>
      Steady (SseEvent.move position (.messageCreated message id)) out

@[simp] theorem places_append (a b : List SseEvent) : places (a ++ b) = places a ++ places b :=
  List.filterMap_append

theorem lastEventId_append (position : Option Cursor) (a b : List SseEvent) :
    lastEventId position (a ++ b) = lastEventId (lastEventId position a) b :=
  List.foldl_append

theorem Steady.append {a b : List SseEvent} {position : Option Cursor} (ha : Steady position a)
    (hb : Steady (lastEventId position a) b) : Steady position (a ++ b) := by
  induction a generalizing position with
  | nil => exact hb
  | cons e a ih =>
      cases e with
      | buildUpdated state id => exact ⟨ha.1, ih ha.2 hb⟩
      | messageCreated message id => exact ih ha hb

/-! ## The reader that forgets nothing -/

def following (lookbackMs : ℕ) (resumeFrom : Option Cursor) : Follow Cursor :=
  { stamp := fun c => c.micros, look := lookbackMs * 1000, start := resumeFrom }

def tablePlaces (table : List MessageRow) : Set Cursor := {p | ∃ m ∈ table, m.position = some p}

theorem advance_eq (c : Option Cursor) (p : Cursor) : advance c p = Follow.furthest c p := by
  cases c with
  | none => rfl
  | some c =>
      simp only [advance, Follow.furthest, compareCursors_pos]
      split
      · rename_i h
        rw [max_eq_right h.le]
      · rename_i h
        rw [max_eq_left (not_lt.mp h)]

variable {lookbackMs : ℕ} {resumeFrom : Option Cursor} {slow : ℕ → Bool}

/-- What the stream's memory says about the places it has shown: the cursor is theirs, what it
remembers was shown, and what was shown is remembered or forgotten for good. -/
structure Memory (lookbackMs : ℕ) (resumeFrom : Option Cursor) (forgotten : Cursor → Prop)
    (shown : List Cursor) (st : StreamState) : Prop where
  cursor : st.cursor = (following lookbackMs resumeFrom).cursor shown
  sent : ∀ e ∈ st.sent, ∃ p ∈ shown, e = (p.id, p.micros)
  remembered : ∀ p ∈ shown, (p.id, p.micros) ∈ st.sent ∨ forgotten p

structure Emits (lookbackMs : ℕ) (resumeFrom : Option Cursor) (forgotten : Cursor → Prop)
    (rows : List MessageRow) (shown : List Cursor) (out : List SseEvent)
    (r : StreamState × List SseEvent × Bool) (l : List Cursor) : Prop where
  written : ∃ new, r.2.1 = out ++ new ∧ places new = l ∧
    ∀ e ∈ new, ∃ row ∈ rows, ∃ p, row.position = some p ∧ e = .messageCreated (toChatMessage row) p
  fresh : ∀ p ∈ l, (∃ row ∈ rows, row.position = some p) ∧ p ∉ shown ∧
    (following lookbackMs resumeFrom).After p
  sorted : l.Pairwise (· < ·)
  whole : r.1.closed = false → ∀ row ∈ rows, ∀ p, row.position = some p → p ∉ shown →
    (following lookbackMs resumeFrom).After p → p ∈ l
  memory : Memory lookbackMs resumeFrom forgotten (shown ++ l) r.1

theorem Memory.snoc {forgotten : Cursor → Prop} {shown : List Cursor} {st : StreamState}
    (h : Memory lookbackMs resumeFrom forgotten shown st) (p : Cursor) (closed : Bool) :
    Memory lookbackMs resumeFrom forgotten (shown ++ [p])
      { st with sent := st.sent ++ [(p.id, p.micros)], cursor := advance st.cursor p,
                closed := closed } := by
  constructor
  · rw [Follow.cursor, List.foldl_append, ← Follow.cursor, ← h.cursor]
    exact advance_eq st.cursor p
  · intro e he
    rcases List.mem_append.mp he with he | he
    · obtain ⟨q, hq, hqe⟩ := h.sent e he
      exact ⟨q, List.mem_append_left _ hq, hqe⟩
    · exact ⟨p, by simp, List.mem_singleton.mp he⟩
  · intro q hq
    rcases List.mem_append.mp hq with hq | hq
    · rcases h.remembered q hq with hs | hf
      · exact Or.inl (List.mem_append_left _ hs)
      · exact Or.inr hf
    · rw [List.mem_singleton.mp hq]
      exact Or.inl (by simp)

theorem Emits.skip {forgotten : Cursor → Prop} {row : MessageRow} {rows : List MessageRow}
    {shown : List Cursor} {out : List SseEvent} {r : StreamState × List SseEvent × Bool}
    {l : List Cursor} (h : Emits lookbackMs resumeFrom forgotten rows shown out r l)
    (hskip : ∀ p, row.position = some p → p ∉ shown →
      (following lookbackMs resumeFrom).After p → p ∈ l) :
    Emits lookbackMs resumeFrom forgotten (row :: rows) shown out r l := by
  obtain ⟨new, hnew, hplaces, hrows⟩ := h.written
  refine ⟨⟨new, hnew, hplaces, ?_⟩, ?_, h.sorted, ?_, h.memory⟩
  · intro e he
    obtain ⟨row', hrow', hp⟩ := hrows e he
    exact ⟨row', List.mem_cons_of_mem _ hrow', hp⟩
  · intro p hp
    obtain ⟨⟨row', hrow', hpos⟩, hrest⟩ := h.fresh p hp
    exact ⟨⟨row', List.mem_cons_of_mem _ hrow', hpos⟩, hrest⟩
  · intro hopen row' hrow' p hpos hshown hafter
    rcases List.mem_cons.mp hrow' with rfl | hrow'
    · exact hskip p hpos hshown hafter
    · exact h.whole hopen row' hrow' p hpos hshown hafter

theorem Emits.cons {forgotten : Cursor → Prop} {row : MessageRow} {rows : List MessageRow}
    {shown : List Cursor} {out : List SseEvent} {r : StreamState × List SseEvent × Bool}
    {l : List Cursor} {p : Cursor} (hpos : row.position = some p) (hshown : p ∉ shown)
    (hafter : (following lookbackMs resumeFrom).After p)
    (hlater : ∀ row' ∈ rows, ∀ q, row'.position = some q → p < q)
    (h : Emits lookbackMs resumeFrom forgotten rows (shown ++ [p])
      (out ++ [.messageCreated (toChatMessage row) p]) r l) :
    Emits lookbackMs resumeFrom forgotten (row :: rows) shown out r (p :: l) := by
  obtain ⟨new, hnew, hplaces, hrows⟩ := h.written
  refine ⟨⟨.messageCreated (toChatMessage row) p :: new, by rw [hnew]; simp, ?_, ?_⟩, ?_, ?_, ?_, ?_⟩
  · rw [← hplaces]
    rfl
  · intro e he
    rcases List.mem_cons.mp he with rfl | he
    · exact ⟨row, by simp, p, hpos, rfl⟩
    · obtain ⟨row', hrow', hp⟩ := hrows e he
      exact ⟨row', List.mem_cons_of_mem _ hrow', hp⟩
  · intro q hq
    rcases List.mem_cons.mp hq with rfl | hq
    · exact ⟨⟨row, by simp, hpos⟩, hshown, hafter⟩
    · obtain ⟨⟨row', hrow', hpos'⟩, hfresh, hafter'⟩ := h.fresh q hq
      exact ⟨⟨row', List.mem_cons_of_mem _ hrow', hpos'⟩,
        fun hq => hfresh (List.mem_append_left _ hq), hafter'⟩
  · refine List.pairwise_cons.mpr ⟨?_, h.sorted⟩
    intro q hq
    obtain ⟨⟨row', hrow', hpos'⟩, _⟩ := h.fresh q hq
    exact hlater row' hrow' q hpos'
  · intro hopen row' hrow' q hpos' hnew' hafter'
    rcases List.mem_cons.mp hrow' with rfl | hrow'
    · have hqp : q = p := Option.some.inj (hpos'.symm.trans hpos)
      exact List.mem_cons.mpr (Or.inl hqp)
    · have hne : q ≠ p := (hlater row' hrow' q hpos').ne'
      refine List.mem_cons_of_mem _ (h.whole hopen row' hrow' q hpos' ?_ hafter')
      simp [hnew', hne]
  · have := h.memory
    rwa [List.append_assoc, List.singleton_append] at this

theorem position_lt {a b : MessageRow} {p q : Cursor} (h : a.key ≤ b.key) (hid : a.id ≠ b.id)
    (ha : a.position = some p) (hb : b.position = some q) : p < q := by
  rw [MessageRow.position_some ha, MessageRow.position_some hb]
  have hlt : a.key < b.key := by
    refine lt_of_le_of_ne h ?_
    intro heq
    have hids : a.id.val = b.id.val := congrArg (fun k => (ofLex k).2) heq
    exact hid (Subtype.ext hids)
  exact hlt

/--
The loop over rows that come in order and are not forgotten. The induction is on the rows; what
was shown grows by each row emitted, so the memory is the invariant.
-/
theorem emitRows_emits {forgotten : Cursor → Prop} : ∀ (rows : List MessageRow)
    (st : StreamState) (out : List SseEvent) (shown : List Cursor),
    rows.Pairwise (fun a b => a.key ≤ b.key) → (rows.map MessageRow.id).Nodup →
    (∀ row ∈ rows, ∀ p, row.position = some p → ¬ forgotten p) →
    (∀ row ∈ rows, ∀ p ∈ shown, p.id = row.id → row.position = some p) →
    Memory lookbackMs resumeFrom forgotten shown st →
    ∃ l, Emits lookbackMs resumeFrom forgotten rows shown out
      (emitRows resumeFrom slow rows st out) l := by
  intro rows
  induction rows with
  | nil =>
      intro st out shown _ _ _ _ hmem
      exact ⟨[], ⟨[], by simp [emitRows], rfl, by simp⟩, by simp, List.Pairwise.nil, by simp,
        by simpa [emitRows] using hmem⟩
  | cons row rows ih =>
      intro st out shown hsorted hids hkept hsame hmem
      rw [List.pairwise_cons] at hsorted
      rw [List.map_cons, List.nodup_cons] at hids
      have hkept' : ∀ row' ∈ rows, ∀ p, row'.position = some p → ¬ forgotten p :=
        fun row' h => hkept row' (List.mem_cons_of_mem _ h)
      have hsame' : ∀ row' ∈ rows, ∀ p ∈ shown, p.id = row'.id → row'.position = some p :=
        fun row' h => hsame row' (List.mem_cons_of_mem _ h)
      have hskip := ih st out shown hsorted.2 hids.2 hkept' hsame' hmem
      rw [emitRows]
      split
      · rename_i hclosed
        exact ⟨[], ⟨[], by simp, rfl, by simp⟩, by simp, List.Pairwise.nil, by simp [hclosed],
          by simpa using hmem⟩
      · rename_i hopen
        cases hpos : row.position with
        | none =>
            obtain ⟨l, hl⟩ := hskip
            exact ⟨l, hl.skip (by simp [hpos])⟩
        | some p =>
            have hp := MessageRow.position_some hpos
            dsimp only
            split
            · -- an id that is remembered is the id of a place already shown
              rename_i hsent
              obtain ⟨e, he, hid⟩ := List.any_eq_true.mp hsent
              obtain ⟨q, hq, hqe⟩ := hmem.sent e he
              have hqid : q.id = row.id := by rw [← beq_iff_eq.mp hid, hqe]
              have hqp : q = p :=
                Option.some.inj ((hsame row (by simp) q hq hqid).symm.trans hpos)
              obtain ⟨l, hl⟩ := hskip
              refine ⟨l, hl.skip ?_⟩
              intro p' hp' hnew
              exact absurd (Option.some.inj (hpos.symm.trans hp') ▸ hqp ▸ hq) hnew
            · split
              · rename_i hbefore
                obtain ⟨s, hs, hle⟩ := (Option.any_eq_true _ _).mp hbefore
                obtain ⟨l, hl⟩ := hskip
                refine ⟨l, hl.skip ?_⟩
                intro p' hp' _ hafter
                have hle : p ≤ s := compareCursors_nonpos.mp (of_decide_eq_true hle)
                exact absurd (hafter s hs) (not_lt.mpr (Option.some.inj (hpos.symm.trans hp') ▸ hle))
              · rename_i hsent hbefore
                have hshown : p ∉ shown := by
                  intro hmem'
                  rcases hmem.remembered p hmem' with hs | hf
                  · refine hsent (List.any_eq_true.mpr ⟨_, hs, ?_⟩)
                    rw [hp]
                    exact beq_iff_eq.mpr rfl
                  · exact hkept row (by simp) p hpos hf
                have hafter : (following lookbackMs resumeFrom).After p := by
                  intro s hs
                  refine not_le.mp ?_
                  intro hle
                  refine hbefore ((Option.any_eq_true _ _).mpr ⟨s, hs, ?_⟩)
                  exact decide_eq_true (compareCursors_nonpos.mpr hle)
                have hlater : ∀ row' ∈ rows, ∀ q, row'.position = some q → p < q := by
                  intro row' hrow' q hq
                  refine position_lt (hsorted.1 row' hrow') ?_ hpos hq
                  intro heq
                  exact hids.1 (heq ▸ List.mem_map_of_mem hrow')
                have hsend : ∀ st' : StreamState, st'.closed = false →
                    send slow (.messageCreated (toChatMessage row) p) st' out =
                      ({ st' with closed := slow out.length },
                        out ++ [.messageCreated (toChatMessage row) p]) := by
                  intro st' hst'
                  simp [send, hst']
                have hrowid : row.id = p.id := by rw [hp]
                rw [hsend _ (by simpa using hopen), hrowid]
                obtain ⟨l, hl⟩ := ih _ (out ++ [.messageCreated (toChatMessage row) p])
                  (shown ++ [p]) hsorted.2 hids.2 hkept' (by
                    intro row' hrow' q hq hqid
                    rcases List.mem_append.mp hq with hq | hq
                    · exact hsame' row' hrow' q hq hqid
                    · rw [List.mem_singleton.mp hq, ← hrowid] at hqid
                      exact absurd (hqid ▸ List.mem_map_of_mem hrow') hids.1)
                  (hmem.snoc p (slow out.length))
                exact ⟨p :: l, hl.cons hpos hshown hafter hlater⟩

def Past (lookbackMs : ℕ) (cursor : Option Cursor) (p : Cursor) : Prop :=
  ∃ c, cursor = some c ∧ (p.micros : ℤ) < c.micros - lookbackMs * 2000

structure Follows (lookbackMs : ℕ) (resumeFrom : Option Cursor) (w : StreamWorld)
    (s : Follow.State Cursor) : Prop where
  table : s.table = tablePlaces w.table
  inside : ∀ p ∈ s.shown, p ∈ s.table
  reading : s.reading = !w.stream.closed
  ids : (w.table.map MessageRow.id).Nodup
  memory : Memory lookbackMs resumeFrom (Past lookbackMs w.stream.cursor) s.shown w.stream

theorem row_of_id {table : List MessageRow} (h : (table.map MessageRow.id).Nodup) {a b : MessageRow}
    (ha : a ∈ table) (hb : b ∈ table) (hid : a.id = b.id) : a = b :=
  List.inj_on_of_nodup_map h ha hb hid

theorem Memory.later {shown l : List Cursor} {st st' : StreamState}
    (h : Memory lookbackMs resumeFrom (Past lookbackMs st.cursor) (shown ++ l) st')
    (hcursor : st.cursor = (following lookbackMs resumeFrom).cursor shown) :
    Memory lookbackMs resumeFrom (Past lookbackMs st'.cursor) (shown ++ l) st' := by
  refine ⟨h.cursor, h.sent, ?_⟩
  intro p hp
  rcases h.remembered p hp with hs | ⟨c, hc, hlt⟩
  · exact Or.inl hs
  · obtain ⟨d, hd, hle⟩ := Follow.cursor_mono (l := l) (hcursor ▸ hc)
    have hmicros := Cursor.micros_le hle
    exact Or.inr ⟨d, h.cursor.trans hd, by omega⟩

theorem Memory.forget {shown : List Cursor} {st : StreamState}
    (h : Memory lookbackMs resumeFrom (Past lookbackMs st.cursor) shown st) :
    Memory lookbackMs resumeFrom (Past lookbackMs st.cursor) shown (st.forget lookbackMs) := by
  unfold StreamState.forget
  split
  · exact h
  · rename_i c hc
    refine ⟨h.cursor, fun e he => h.sent e (List.mem_of_mem_filter he), ?_⟩
    intro p hp
    rcases h.remembered p hp with hs | hpast
    · by_cases hold : (p.micros : ℤ) < c.micros - lookbackMs * 2000
      · exact Or.inr ⟨c, hc, hold⟩
      · exact Or.inl (List.mem_filter.mpr ⟨hs, by simpa using hold⟩)
    · exact Or.inr hpast

@[simp] theorem forget_cursor (st : StreamState) : (st.forget lookbackMs).cursor = st.cursor := by
  unfold StreamState.forget
  split <;> rfl

@[simp] theorem forget_closed (st : StreamState) : (st.forget lookbackMs).closed = st.closed := by
  unfold StreamState.forget
  split <;> rfl

/-- What a poll writes: at most one `build.updated`, with the stream's cursor, and then rows. -/
structure Writes (table : List MessageRow) (cursor : Option Cursor) (out : List SseEvent) : Prop where
  shape : ∃ head new, out = head ++ new ∧
    (head = [] ∨ ∃ state, head = [.buildUpdated state cursor]) ∧
    ∀ e ∈ new, ∃ row ∈ table, ∃ p, row.position = some p ∧ e = .messageCreated (toChatMessage row) p

variable (slow) in
theorem emitState_spec (state : BuildState) (st : StreamState) :
    (emitState slow state st).1.cursor = st.cursor ∧ (emitState slow state st).1.sent = st.sent ∧
      ((emitState slow state st).2 = [] ∨
        (emitState slow state st).2 = [.buildUpdated state st.cursor]) := by
  unfold emitState send
  by_cases hsame : st.lastState = some state
  · simp [hsame]
  · by_cases hclosed : st.closed = true
    · simp [hsame, hclosed]
    · simp [hsame, hclosed]

/-- **A poll is a look of the reader that forgets nothing.** -/
theorem poll_look {w : StreamWorld} {s : Follow.State Cursor} {gone : Bool}
    {batch : Option (BuildState × List MessageRow)} {st : StreamState} {out : List SseEvent}
    (h : Follows lookbackMs resumeFrom w s)
    (hbatch : ∀ b, batch = some b → b.2 = messagesSince w.table w.stream.cursor lookbackMs)
    (hpoll : poll lookbackMs resumeFrom slow batch { w.stream with closed := gone } = (st, out)) :
    (following lookbackMs resumeFrom).Look s (places out) (!st.closed) ∧
      Memory lookbackMs resumeFrom (Past lookbackMs st.cursor) (s.shown ++ places out) st ∧
      Writes w.table w.stream.cursor out := by
  cases batch with
  | none =>
      obtain ⟨rfl, rfl⟩ := Prod.mk.inj hpoll
      refine ⟨⟨by simp [places], by simp [places], by simp⟩, ?_,
        ⟨[], [], rfl, Or.inl rfl, by simp⟩⟩
      simpa [places] using (⟨h.memory.cursor, h.memory.sent, h.memory.remembered⟩ :
        Memory lookbackMs resumeFrom _ s.shown { w.stream with closed := true })
  | some b =>
      obtain ⟨state, rows⟩ := b
      have hrows : rows = messagesSince w.table w.stream.cursor lookbackMs := hbatch _ rfl
      obtain ⟨hcursor, hsent, hhead⟩ :=
        emitState_spec slow state { w.stream with closed := gone }
      rw [poll] at hpoll
      generalize emitState slow state { w.stream with closed := gone } = r at hpoll hcursor hsent hhead
      obtain ⟨st₁, head⟩ := r
      have hmem₁ : Memory lookbackMs resumeFrom (Past lookbackMs st₁.cursor) s.shown st₁ := by
        refine ⟨hcursor.trans h.memory.cursor, hsent ▸ h.memory.sent, ?_⟩
        rw [hcursor, hsent]
        exact h.memory.remembered
      have hsub : ∀ row ∈ rows, row ∈ w.table := by
        intro row hrow
        rw [hrows, messagesSince, mem_sortBy] at hrow
        exact List.mem_of_mem_filter hrow
      have hsorted : rows.Pairwise (fun a b => a.key ≤ b.key) := by
        rw [hrows]
        exact sortBy_pairwise rowOrder_byKey _
      have hids : (rows.map MessageRow.id).Nodup := by
        rw [hrows]
        refine ((sortBy_perm rowOrder _).map MessageRow.id).nodup_iff.mpr ?_
        exact h.ids.sublist (List.filter_sublist.map _)
      have hkept : ∀ row ∈ rows, ∀ p, row.position = some p → ¬ Past lookbackMs st₁.cursor p := by
        intro row hrow p hp ⟨c, hc, hlt⟩
        rw [hrows, messagesSince, mem_sortBy, ← hcursor, hc, List.mem_filter] at hrow
        have hwindow := of_decide_eq_true hrow.2
        rw [MessageRow.position_some hp] at hlt
        dsimp only at hlt
        omega
      have hsame : ∀ row ∈ rows, ∀ p ∈ s.shown, p.id = row.id → row.position = some p := by
        intro row hrow p hp hid
        obtain ⟨m, hm, hmp⟩ : p ∈ tablePlaces w.table := h.table ▸ h.inside p hp
        have hmid : m.id = row.id := by rw [← hid, MessageRow.position_some hmp]
        rw [← row_of_id h.ids hm (hsub row hrow) hmid]
        exact hmp
      obtain ⟨l, hl⟩ := emitRows_emits rows st₁ head s.shown hsorted hids hkept hsame hmem₁
      dsimp only at hpoll
      generalize emitRows resumeFrom slow rows st₁ head = r at hpoll hl
      obtain ⟨st₂, out₂, returned⟩ := r
      obtain ⟨new, hnew, hplaces, hnewrows⟩ := hl.written
      have hlater := hl.memory.later hmem₁.cursor
      have hend : out = out₂ ∧ st.closed = st₂.closed ∧
          Memory lookbackMs resumeFrom (Past lookbackMs st.cursor) (s.shown ++ l) st := by
        dsimp only at hpoll hlater
        split at hpoll
        · obtain ⟨rfl, rfl⟩ := Prod.mk.inj hpoll
          exact ⟨rfl, rfl, hlater⟩
        · obtain ⟨rfl, rfl⟩ := Prod.mk.inj hpoll
          exact ⟨rfl, forget_closed st₂, by rw [forget_cursor]; exact hlater.forget⟩
      obtain ⟨rfl, hclosed, hmem⟩ := hend
      have hnew : out = head ++ new := hnew
      have hl' : places out = l := by
        rw [hnew, places_append, hplaces]
        rcases hhead with hhead | hhead
        · change head = [] at hhead
          simp [hhead, places]
        · change head = [.buildUpdated state w.stream.cursor] at hhead
          simp [hhead, places, SseEvent.place]
      rw [hl']
      refine ⟨⟨?_, hl.sorted, ?_⟩, hmem, ⟨head, new, hnew, ?_, ?_⟩⟩
      · intro p hp
        obtain ⟨⟨row, hrow, hpos⟩, hfresh, hafter⟩ := hl.fresh p hp
        refine ⟨h.table ▸ ⟨row, hsub row hrow, hpos⟩, hfresh, hafter, ?_⟩
        intro c hc
        rw [hrows, messagesSince, mem_sortBy, h.memory.cursor, hc, List.mem_filter] at hrow
        have hwindow := of_decide_eq_true hrow.2
        rw [MessageRow.position_some hpos]
        exact hwindow
      · intro hopen p hp
        obtain ⟨row, hrow, hpos⟩ : p ∈ tablePlaces w.table := h.table ▸ hp.table
        refine hl.whole (by simpa [hclosed] using hopen) row ?_ p hpos hp.fresh hp.after
        rw [hrows, messagesSince, mem_sortBy, List.mem_filter]
        refine ⟨hrow, ?_⟩
        cases hc : w.stream.cursor with
        | none => rfl
        | some c =>
            have hwindow := hp.window c (h.memory.cursor ▸ hc)
            rw [MessageRow.position_some hpos] at hwindow
            exact decide_eq_true hwindow
      · rcases hhead with hhead | hhead
        · exact Or.inl hhead
        · exact Or.inr ⟨state, hhead⟩
      · intro e he
        obtain ⟨row, hrow, hp⟩ := hnewrows e he
        exact ⟨row, hsub row hrow, hp⟩

/-! ## Runs -/

def StreamEvent.view : StreamEvent → Follow.Event Cursor
  | .commit rows => .grow (tablePlaces rows)
  | .poll out successful => .look (places out) successful
  | .close => .stop

theorem tablePlaces_append (a b : List MessageRow) :
    tablePlaces (a ++ b) = tablePlaces a ∪ tablePlaces b := by
  ext p
  simp [tablePlaces, or_and_right, exists_or]

theorem follows_step {w w' : StreamWorld} {e : StreamEvent} {s : Follow.State Cursor}
    (h : Follows lookbackMs resumeFrom w s) (hs : StreamStep lookbackMs resumeFrom w e w') :
    ∃ s', (following lookbackMs resumeFrom).Step s e.view s' ∧ Follows lookbackMs resumeFrom w' s' := by
  cases hs with
  | @commit rows hids =>
      have hnew : ∀ p ∈ tablePlaces rows, p ∉ s.table := by
        intro p ⟨m, hm, hp⟩ hold
        obtain ⟨m', hm', hp'⟩ : p ∈ tablePlaces w.table := h.table ▸ hold
        have hid : m'.id = m.id := by
          have hcursors := (MessageRow.position_some hp').symm.trans (MessageRow.position_some hp)
          exact congrArg Cursor.id hcursors
        rw [List.map_append, List.nodup_append] at hids
        exact hids.2.2 _ (List.mem_map_of_mem hm') _ (List.mem_map_of_mem hm) hid
      refine ⟨_, .grow hnew, ⟨?_, fun p hp => Or.inl (h.inside p hp), h.reading, hids, h.memory⟩⟩
      rw [tablePlaces_append, ← h.table]
  | poll hopen hbatch hpoll =>
      obtain ⟨hlook, hmem, _⟩ := poll_look h hbatch hpoll
      refine ⟨_, .look (by simp [h.reading, hopen]) hlook, ⟨h.table, ?_, rfl, h.ids, hmem⟩⟩
      intro p hp
      rcases List.mem_append.mp hp with hp | hp
      · exact h.inside p hp
      · exact (hlook.due p hp).table
  | close =>
      exact ⟨_, .stop, ⟨h.table, h.inside, rfl, h.ids,
        ⟨h.memory.cursor, h.memory.sent, h.memory.remembered⟩⟩⟩

structure Streaming (lookbackMs : ℕ) (resumeFrom : Option Cursor) (es : List StreamEvent)
    (w : StreamWorld) (s : Follow.State Cursor) : Prop where
  run : (following lookbackMs resumeFrom).machine.Run (es.map StreamEvent.view) s
  follows : Follows lookbackMs resumeFrom w s
  rows : ∀ message id, .messageCreated message id ∈ written es →
    ∃ row ∈ w.table, row.position = some id ∧ message = toChatMessage row
  client : ∀ q, lastEventId resumeFrom (written es) = some q → resumeFrom = some q ∨ q ∈ s.shown
  steady : Steady resumeFrom (written es)

theorem written_snoc (es : List StreamEvent) (e : StreamEvent) :
    written (es ++ [e]) = written es ++ e.written := by
  simp [written]

theorem shows_view (es : List StreamEvent) :
    (es.map StreamEvent.view).flatMap Follow.Event.shows = places (written es) := by
  induction es with
  | nil => rfl
  | cons e es ih =>
      have hsplit : written (e :: es) = e.written ++ written es := rfl
      rw [List.map_cons, List.flatMap_cons, ih, hsplit, places_append]
      cases e <;> rfl

/-! ### Where what a poll writes leaves the client -/

section

variable {table : List MessageRow} {cursor position : Option Cursor} {out : List SseEvent}

theorem steady_rows {new : List SseEvent} (h : ∀ e ∈ new, ∃ m p, e = .messageCreated m p) :
    Steady position new := by
  induction new generalizing position with
  | nil => trivial
  | cons e new ih =>
      obtain ⟨m, p, rfl⟩ := h e (by simp)
      exact ih fun e he => h e (List.mem_cons_of_mem _ he)

theorem lastEventId_rows {new : List SseEvent} (h : ∀ e ∈ new, ∃ m p, e = .messageCreated m p)
    {q : Cursor} (hq : lastEventId position new = some q) : position = some q ∨ q ∈ places new := by
  induction new generalizing position with
  | nil => exact Or.inl hq
  | cons e new ih =>
      obtain ⟨m, p, rfl⟩ := h e (by simp)
      right
      rcases ih (fun e he => h e (List.mem_cons_of_mem _ he)) hq with hp | hp
      · have hpq : p = q := Option.some.inj hp
        simp [places, SseEvent.place, hpq]
      · exact List.mem_cons_of_mem _ hp

theorem Writes.created (h : Writes table cursor out) :
    ∃ head new, out = head ++ new ∧ (head = [] ∨ ∃ state, head = [.buildUpdated state cursor]) ∧
      ∀ e ∈ new, ∃ m p, e = SseEvent.messageCreated m p := by
  obtain ⟨head, new, hout, hhead, hnew⟩ := h.shape
  refine ⟨head, new, hout, hhead, ?_⟩
  intro e he
  obtain ⟨row, _, p, _, heq⟩ := hnew e he
  exact ⟨_, p, heq⟩

theorem Writes.rows (h : Writes table cursor out) {message : ChatMessage} {id : Cursor}
    (hm : .messageCreated message id ∈ out) :
    ∃ row ∈ table, row.position = some id ∧ message = toChatMessage row := by
  obtain ⟨head, new, rfl, hhead, hnew⟩ := h.shape
  rcases List.mem_append.mp hm with hm | hm
  · rcases hhead with rfl | ⟨state, rfl⟩ <;> simp at hm
  · obtain ⟨row, hrow, p, hp, heq⟩ := hnew _ hm
    obtain ⟨rfl, rfl⟩ := SseEvent.messageCreated.inj heq
    exact ⟨row, hrow, hp, rfl⟩

theorem Writes.steady (h : Writes table cursor out)
    (hahead : ∀ q, position = some q → ∃ c, cursor = some c ∧ q ≤ c) : Steady position out := by
  obtain ⟨head, new, rfl, hhead, hnew⟩ := h.created
  refine Steady.append ?_ (steady_rows hnew)
  rcases hhead with rfl | ⟨state, rfl⟩
  · trivial
  · exact ⟨hahead, trivial⟩

theorem Writes.client (h : Writes table cursor out) {q : Cursor}
    (hq : lastEventId position out = some q) :
    position = some q ∨ cursor = some q ∨ q ∈ places out := by
  obtain ⟨head, new, rfl, hhead, hnew⟩ := h.created
  rw [lastEventId_append] at hq
  rcases lastEventId_rows hnew hq with hq | hq
  · rcases hhead with rfl | ⟨state, rfl⟩
    · exact Or.inl hq
    · rcases Option.or_eq_some_iff.mp hq with hq | hq
      · exact Or.inr (Or.inl hq)
      · exact Or.inl hq.2
  · exact Or.inr (Or.inr (by simp [hq]))

end

theorem streaming_step {es : List StreamEvent} {w w' : StreamWorld} {e : StreamEvent}
    {s : Follow.State Cursor} (h : Streaming lookbackMs resumeFrom es w s)
    (hs : StreamStep lookbackMs resumeFrom w e w') :
    ∃ s', Streaming lookbackMs resumeFrom (es ++ [e]) w' s' := by
  obtain ⟨s', hstep, hfollows⟩ := follows_step h.follows hs
  have hrun : (following lookbackMs resumeFrom).machine.Run ((es ++ [e]).map StreamEvent.view) s' := by
    rw [List.map_append]
    exact .step h.run hstep trivial
  suffices hafter : (∀ message id, .messageCreated message id ∈ written es ++ e.written →
      ∃ row ∈ w'.table, row.position = some id ∧ message = toChatMessage row) ∧
      (∀ q, lastEventId resumeFrom (written es ++ e.written) = some q →
        resumeFrom = some q ∨ q ∈ s'.shown) ∧ Steady resumeFrom (written es ++ e.written) by
    rw [← written_snoc] at hafter
    exact ⟨s', hrun, hfollows, hafter.1, hafter.2.1, hafter.2.2⟩
  cases hs with
  | commit hids =>
      cases hstep with
      | grow _ =>
          rw [StreamEvent.written, List.append_nil]
          refine ⟨?_, h.client, h.steady⟩
          intro message id hm
          obtain ⟨row, hrow, hp⟩ := h.rows message id hm
          exact ⟨row, List.mem_append_left _ hrow, hp⟩
  | close =>
      cases hstep with
      | stop =>
          rw [StreamEvent.written, List.append_nil]
          exact ⟨h.rows, h.client, h.steady⟩
  | @poll slow gone batch st out hopen hbatch hpoll =>
      obtain ⟨-, -, hwrites⟩ := poll_look h.follows hbatch hpoll
      cases hstep with
      | look _ _ =>
          rw [StreamEvent.written]
          refine ⟨?_, ?_, h.steady.append (hwrites.steady ?_)⟩
          · intro message id hm
            rcases List.mem_append.mp hm with hm | hm
            · exact h.rows message id hm
            · exact hwrites.rows hm
          · intro q hq
            rw [lastEventId_append] at hq
            have hold : resumeFrom = some q ∨ q ∈ s.shown →
                resumeFrom = some q ∨ q ∈ s.shown ++ places out := fun h =>
              h.imp_right (List.mem_append_left _)
            rcases hwrites.client hq with hq | hq | hq
            · exact hold (h.client q hq)
            · exact hold (Follow.cursor_mem (h.follows.memory.cursor ▸ hq))
            · exact Or.inr (List.mem_append_right _ hq)
          · -- the cursor a build.updated carries is the stream's: nothing shown is ahead of it
            intro q hq
            rw [h.follows.memory.cursor]
            rcases h.client q hq with hq | hq
            · exact Follow.start_le_cursor hq
            · exact Follow.le_cursor hq

theorem streaming_run {es : List StreamEvent} {w : StreamWorld}
    (h : (streamMachine lookbackMs resumeFrom).Run es w) :
    ∃ s, Streaming lookbackMs resumeFrom es w s := by
  refine Machine.RunWhere.invariant (I := fun es w => ∃ s, Streaming lookbackMs resumeFrom es w s)
    ?_ ?_ h
  · intro w ⟨hopened, hempty⟩
    have hmemory : Memory lookbackMs resumeFrom (Past lookbackMs w.stream.cursor) [] w.stream := by
      rw [hopened]
      exact ⟨rfl, by simp [StreamState.opened], by simp⟩
    refine ⟨⟨∅, [], true⟩, .init rfl, ⟨?_, by simp, by simp [hopened, StreamState.opened],
      by simp [hempty], hmemory⟩, by simp [written], fun q hq => Or.inl hq, trivial⟩
    simp [tablePlaces, hempty]
  · intro es w e w' ⟨s, hs⟩ hstep _
    exact streaming_step hs hstep

/-! ## What a connection sees -/

theorem Follows.steps {w w' : StreamWorld} {es : List StreamEvent} {s : Follow.State Cursor}
    (h : Follows lookbackMs resumeFrom w s)
    (hs : (streamMachine lookbackMs resumeFrom).Steps w es w') :
    ∃ s', (following lookbackMs resumeFrom).machine.Steps s (es.map StreamEvent.view) s' ∧
      Follows lookbackMs resumeFrom w' s' := by
  induction hs generalizing s with
  | refl w => exact ⟨s, .refl s, h⟩
  | step hone _ ih =>
      obtain ⟨s₁, hstep, h₁⟩ := follows_step h hone
      obtain ⟨s₂, hsteps, h₂⟩ := ih h₁
      exact ⟨s₂, .step hstep hsteps, h₂⟩

theorem StreamStep.writes {w w' : StreamWorld} {s : Follow.State Cursor} {out : List SseEvent}
    {successful : Bool} (h : Follows lookbackMs resumeFrom w s)
    (hs : StreamStep lookbackMs resumeFrom w (.poll out successful) w') :
    Writes w.table w.stream.cursor out := by
  cases hs with
  | poll _ hbatch hpoll => exact (poll_look h hbatch hpoll).2.2

theorem table_subset {w w' : StreamWorld} {es : List StreamEvent}
    (hs : (streamMachine lookbackMs resumeFrom).Steps w es w') : w.table ⊆ w'.table := by
  induction hs with
  | refl w => exact List.Subset.refl _
  | step hone _ ih =>
      refine List.Subset.trans ?_ ih
      cases hone with
      | commit _ => exact List.subset_append_left _ _
      | poll _ _ _ => exact List.Subset.refl _
      | close => exact List.Subset.refl _

def NoPoll (es : List StreamEvent) : Prop := ∀ out successful, StreamEvent.poll out successful ∉ es

theorem NoPoll.quiet {es : List StreamEvent} (h : NoPoll es) :
    Follow.Quiet (es.map StreamEvent.view) := by
  intro l whole hl
  obtain ⟨e, he, hview⟩ := List.mem_map.mp hl
  cases e with
  | commit rows => exact absurd hview (by simp [StreamEvent.view])
  | poll out successful => exact h out successful he
  | close => exact absurd hview (by simp [StreamEvent.view])

def InLookback (lookbackMs : ℕ) (cursor : Option Cursor) (createdAt : ℕ) : Prop :=
  ∀ c, cursor = some c → c.micros < createdAt + lookbackMs * 1000

/--
A message is emitted by the first successful poll after its commit exactly when it stands after
the resume position and was committed within the lookback of the stream's cursor.
-/
theorem emitted_next_poll_iff {es es' : List StreamEvent} {w w₁ w₂ w₃ : StreamWorld}
    {rows : List MessageRow} {out : List SseEvent}
    (h : (streamMachine lookbackMs resumeFrom).Run es w)
    (hcommit : StreamStep lookbackMs resumeFrom w (.commit rows) w₁) (hquiet : NoPoll es')
    (hsteps : (streamMachine lookbackMs resumeFrom).Steps w₁ es' w₂)
    (hpoll : StreamStep lookbackMs resumeFrom w₂ (.poll out true) w₃)
    {m : MessageRow} (hm : m ∈ rows) {p : Cursor} (hp : m.position = some p) :
    .messageCreated (toChatMessage m) p ∈ out ↔
      (∀ r, resumeFrom = some r → r < p) ∧ InLookback lookbackMs w.stream.cursor m.createdAt := by
  obtain ⟨s, hs⟩ := streaming_run h
  obtain ⟨s₁, hgrow, h₁⟩ := follows_step hs.follows hcommit
  obtain ⟨s₂, hquietly, h₂⟩ := h₁.steps hsteps
  obtain ⟨s₃, hlook, -⟩ := follows_step h₂ hpoll
  have hnext := Follow.mem_next_look hs.run hgrow hquiet.quiet hquietly hlook
    (show p ∈ tablePlaces rows from ⟨m, hm, hp⟩)
  have hwindow : (following lookbackMs resumeFrom).InWindow s.shown p ↔
      InLookback lookbackMs w.stream.cursor m.createdAt := by
    have hcreated : p.micros = m.createdAt := by rw [MessageRow.position_some hp]
    simp only [Follow.InWindow, InLookback, ← hs.follows.memory.cursor, Option.mem_def]
    refine forall_congr' fun c => imp_congr_right fun _ => ?_
    simp only [following]
    omega
  rw [← hwindow]
  refine Iff.trans ?_ hnext
  constructor
  · intro hmem
    exact List.mem_filterMap.mpr ⟨_, hmem, rfl⟩
  · intro hmem
    obtain ⟨e, he, hplace⟩ := List.mem_filterMap.mp hmem
    cases e with
    | buildUpdated state id => exact absurd hplace (by simp [SseEvent.place])
    | messageCreated message id =>
        obtain rfl : id = p := Option.some.inj hplace
        -- a place belongs to one row of the table
        obtain ⟨row, hrow, hpos, rfl⟩ := (hpoll.writes h₂).rows he
        have hrows : m ∈ w₁.table := by
          cases hcommit
          exact List.mem_append_right _ hm
        have hid : row.id = m.id := by
          have hcursors := (MessageRow.position_some hpos).symm.trans (MessageRow.position_some hp)
          exact congrArg Cursor.id hcursors
        rw [← row_of_id h₂.ids hrow (table_subset hsteps hrows) hid]
        exact he

theorem emittedIds_eq {out : List SseEvent}
    (h : ∀ message id, .messageCreated message id ∈ out → message.id = id.id) :
    emittedIds out = (places out).map Cursor.id := by
  induction out with
  | nil => rfl
  | cons e out ih =>
      have hrest := ih fun message id hm => h message id (List.mem_cons_of_mem _ hm)
      cases e with
      | buildUpdated state id => exact hrest
      | messageCreated message id =>
          have hid := h message id (by simp)
          calc emittedIds (.messageCreated message id :: out) = message.id :: emittedIds out := rfl
            _ = id.id :: (places out).map Cursor.id := by rw [hid, hrest]

/--
**One connection shows every message at most once, none from before the position it resumes
at, and each poll in order; it shows what turns up within the lookback of its cursor by the
next successful poll; and no `build.updated` moves the client backwards.**
-/
theorem stream_emits_once {es : List StreamEvent} {w : StreamWorld}
    (h : (streamMachine lookbackMs resumeFrom).Run es w) :
    (emittedIds (written es)).Nodup ∧
      (∀ message id, .messageCreated message id ∈ written es →
        message.id = id.id ∧ ∀ r, resumeFrom = some r → r < id) ∧
      (∀ out successful, .poll out successful ∈ es → (places out).Pairwise (· < ·)) ∧
      (∀ {rows : List MessageRow} {w₁ w₂ w₃ : StreamWorld} {es' : List StreamEvent} {out : List SseEvent},
        StreamStep lookbackMs resumeFrom w (.commit rows) w₁ → NoPoll es' →
        (streamMachine lookbackMs resumeFrom).Steps w₁ es' w₂ →
        StreamStep lookbackMs resumeFrom w₂ (.poll out true) w₃ →
        ∀ m ∈ rows, ∀ p, m.position = some p → (∀ r, resumeFrom = some r → r < p) →
          InLookback lookbackMs w.stream.cursor m.createdAt →
          .messageCreated (toChatMessage m) p ∈ out) ∧
      Steady resumeFrom (written es) := by
  obtain ⟨s, hs⟩ := streaming_run h
  have hplaced : ∀ message id, .messageCreated message id ∈ written es → message.id = id.id := by
    intro message id hm
    obtain ⟨row, _, hpos, rfl⟩ := hs.rows message id hm
    rw [MessageRow.position_some hpos]
    rfl
  have hshown : places (written es) = s.shown := by
    rw [← shows_view]
    exact (Follow.Run.invariant hs.run).shown
  refine ⟨?_, ?_, ?_, ?_, hs.steady⟩
  · rw [emittedIds_eq hplaced, hshown]
    refine List.Nodup.map_on ?_ (Follow.Run.invariant hs.run).nodup
    intro p hp q hq hid
    obtain ⟨m, hm, hmp⟩ : p ∈ tablePlaces w.table := hs.follows.table ▸ hs.follows.inside p hp
    obtain ⟨m', hm', hmq⟩ : q ∈ tablePlaces w.table := hs.follows.table ▸ hs.follows.inside q hq
    have hids : m.id = m'.id := by
      rw [MessageRow.position_some hmp, MessageRow.position_some hmq] at hid
      exact hid
    rw [row_of_id hs.follows.ids hm hm' hids] at hmp
    exact Option.some.inj (hmp.symm.trans hmq)
  · intro message id hm
    refine ⟨hplaced message id hm, ?_⟩
    have hmem : id ∈ s.shown := hshown ▸ List.mem_filterMap.mpr ⟨_, hm, rfl⟩
    exact (Follow.Run.invariant hs.run).after id hmem
  · intro out successful hmem
    exact (Follow.Run.invariant hs.run).ordered _ successful (List.mem_map_of_mem hmem)
  · intro rows w₁ w₂ w₃ es' out hcommit hquiet hsteps hpoll m hm p hp hafter hwindow
    exact (emitted_next_poll_iff h hcommit hquiet hsteps hpoll hm hp).mpr ⟨hafter, hwindow⟩

namespace Bench

def question : MessageRow :=
  { id := ⟨js "11111111-1111-4111-8111-111111111111", by decide⟩, role := .user,
    text := js "a lamp", clientMessageId := none, createdAt := 1000000 }

def answer : MessageRow :=
  { id := ⟨js "00000000-0000-4000-8000-000000000000", by decide⟩, role := .assistant,
    text := js "which colour?", clientMessageId := none, createdAt := 1000001 }

def state : BuildState := { status := .asking, specVersion := none }

def events : List StreamEvent :=
  [.commit [question],
    .poll [.buildUpdated state none, .messageCreated (toChatMessage question) ⟨1000000, question.id⟩] true,
    .commit [answer],
    .poll [.messageCreated (toChatMessage answer) ⟨1000001, answer.id⟩] true]

def asked : StreamState :=
  { cursor := some ⟨1000000, question.id⟩, lastState := some state,
    sent := [(question.id, 1000000)], closed := false }

def answered : StreamState :=
  { asked with
    cursor := some ⟨1000001, answer.id⟩
    sent := [(question.id, 1000000), (answer.id, 1000001)] }

theorem run : (streamMachine 5000 none).Run events ⟨[question, answer], answered⟩ := by
  have hopened : (streamMachine 5000 none).Run [] ⟨[], .opened none⟩ := .init ⟨rfl, rfl⟩
  have hfirst := hopened.step (@StreamStep.commit 5000 none _ [question] (by simp)) trivial
  have hasked := hfirst.step (@StreamStep.poll 5000 none _ (fun _ => false) false
    (some (state, [question])) asked _ rfl (by intro b hb; cases hb; rfl) rfl) trivial
  have hsecond := hasked.step (@StreamStep.commit 5000 none _ [answer] (by decide)) trivial
  exact hsecond.step (@StreamStep.poll 5000 none _ (fun _ => false) false
    (some (state, [question, answer])) answered _ rfl (by intro b hb; cases hb; rfl) rfl) trivial

end Bench

theorem stream_emits_once_bench : (emittedIds (written Bench.events)).Nodup ∧
    emittedIds (written Bench.events) = [Bench.question.id, Bench.answer.id] :=
  ⟨(stream_emits_once Bench.run).1, rfl⟩

end Albusforge.Gateway
