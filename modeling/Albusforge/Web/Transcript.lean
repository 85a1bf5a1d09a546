import Albusforge.Gateway.Stream
import Albusforge.Lib.Entries

/-!
# The transcript of a build, as the page holds it

`apps/web/src/lib/build-transcript.ts`. Messages come to the page in a response, on the event stream and in a
refetch; `mergeMessages` keeps one under each id, lets a message of the gateway take the place of the copy that
was shown before it was confirmed, and sorts what is confirmed by its time.

The gateway orders a build's messages by microseconds and then by id, and sends milliseconds. A reply is stamped
one microsecond after its question (`apps/intake/src/handler.ts`), so on the page the two nearly always have the
same time, and the sort leaves them as they came. **What is shown is the gateway's order, however it was
delivered, exactly when no two messages of the build share a millisecond** (`transcript_settled_iff`).
-/

namespace Albusforge.Web

open Lib Gateway

/-- `ChatMessage`. The time is what `Date.parse` makes of `created_at`. -/
structure ChatMessage where
  id : Text
  role : Role
  text : Text
  createdAt : ℕ
  clientMessageId : Option Text
  deriving DecidableEq

def LOCAL_MESSAGE_PREFIX : Text := js "local-"

def localMessageId (clientMessageId : Text) : Text := LOCAL_MESSAGE_PREFIX ++ clientMessageId

/-- `message.id.startsWith(LOCAL_MESSAGE_PREFIX)` -/
def ChatMessage.isLocal (m : ChatMessage) : Bool := LOCAL_MESSAGE_PREFIX.isPrefixOf m.id

/-- `Date.parse(a.created_at) - Date.parse(b.created_at)` -/
def byCreatedAt (a b : ChatMessage) : Ordering := compare a.createdAt b.createdAt

/-- What the loop over `incoming` does with a message. -/
def putIncoming (byId : Entries Text ChatMessage) (m : ChatMessage) : Entries Text ChatMessage :=
  let byId := match m.clientMessageId with
    | none => byId
    | some c => if c = [] then byId else byId.delete (localMessageId c)
  byId.set m.id m

def arrange (all : List ChatMessage) : List ChatMessage :=
  sortBy byCreatedAt (all.filter fun m => !m.isLocal) ++ all.filter ChatMessage.isLocal

def mergeMessages (current incoming : List ChatMessage) : List ChatMessage :=
  let byId := current.foldl (fun byId m => Entries.set byId m.id m) []
  arrange (incoming.foldl putIncoming byId).values

def awaitingReply (messages : List ChatMessage) : Bool := messages.getLast?.any fun m => m.role = .user

/-! ## What is delivered -/

def received (row : MessageRow) : ChatMessage :=
  let m := toChatMessage row
  { id := m.id.val, role := m.role, text := m.text, createdAt := m.createdAt, clientMessageId := m.clientMessageId }

structure Pending where
  clientMessageId : Uuid
  text : Text
  sentAt : ℕ
  deriving DecidableEq

def Pending.message (p : Pending) : ChatMessage :=
  { id := localMessageId p.clientMessageId.val, role := .user, text := p.text, createdAt := p.sentAt,
    clientMessageId := some p.clientMessageId.val }

def carried (rows : List MessageRow) (p : Pending) : Bool :=
  rows.any fun row => row.clientMessageId = some p.clientMessageId.val

def deliver (shown : List ChatMessage) (batches : List (List MessageRow)) : List ChatMessage :=
  batches.foldl (fun shown batch => mergeMessages shown (batch.map received)) shown

def transcript (table : List MessageRow) (pending : List Pending) : List ChatMessage :=
  (listMessages table).map received ++ (pending.filter fun p => !carried table p).map Pending.message

theorem localMessageId_inj {a b : Text} : localMessageId a = localMessageId b ↔ a = b :=
  List.append_right_inj _

@[simp] theorem Pending.isLocal_message (p : Pending) : p.message.isLocal = true := by
  simp [ChatMessage.isLocal, message, localMessageId]

@[simp] theorem isLocal_received (row : MessageRow) : (received row).isLocal = false := by
  rw [Bool.eq_false_iff]
  intro h
  obtain ⟨rest, hrest⟩ := List.isPrefixOf_iff_prefix.mp h
  have huuid := row.id.property
  simp only [isUuidText, Bool.and_eq_true, List.all_eq_true] at huuid
  have hmem : 108 ∈ row.id.val := by
    change LOCAL_MESSAGE_PREFIX ++ rest = row.id.val at hrest
    rw [← hrest]
    exact List.mem_append_left _ (by decide)
  exact absurd (huuid.2 108 hmem) (by decide)

theorem received_id_inj {a b : MessageRow} (h : (received a).id = (received b).id) : a.id = b.id := Subtype.ext h

def byId (l : List ChatMessage) : Entries Text ChatMessage := l.map fun m => (m.id, m)

@[simp] theorem byId_keys (l : List ChatMessage) : (byId l).keys = l.map ChatMessage.id := by
  simp [byId, Entries.keys]

def withoutCopy (l : List ChatMessage) (row : MessageRow) : List ChatMessage :=
  l.filter fun m => ∀ c, row.clientMessageId = some c → c ≠ [] → m.id ≠ localMessageId c

theorem putIncoming_byId (l : List ChatMessage) (row : MessageRow) :
    putIncoming (byId l) (received row) = (byId (withoutCopy l row)).set row.id.val (received row) := by
  have hcopy : (match (received row).clientMessageId with
      | none => byId l
      | some c => if c = [] then byId l else (byId l).delete (localMessageId c)) = byId (withoutCopy l row) := by
    change (match row.clientMessageId with
      | none => byId l
      | some c => if c = [] then byId l else (byId l).delete (localMessageId c)) = _
    unfold withoutCopy byId Entries.delete
    cases row.clientMessageId with
    | none => simp
    | some c =>
      by_cases hc : c = []
      · simp [hc]
      · simp [hc, List.filter_map, Function.comp_def]
  unfold putIncoming
  rw [hcopy]
  rfl

/-! ## What the page shows after some deliveries -/

/-- The page holds the rows it has seen, each once, and the sends that none of them confirms, in order. -/
structure Holds (pending : List Pending) (seen : List MessageRow) (l : List ChatMessage) : Prop where
  ids : (l.map ChatMessage.id).Nodup
  confirmed : ∀ m, (m ∈ l ∧ m.isLocal = false) ↔ ∃ row ∈ seen, m = received row
  rest : l.filter ChatMessage.isLocal = (pending.filter fun p => !carried seen p).map Pending.message

variable {pending : List Pending} {table seen : List MessageRow} {l : List ChatMessage}

theorem Holds.start (hpending : (pending.map Pending.clientMessageId).Nodup) :
    Holds pending [] (pending.map Pending.message) where
  ids := by
    rw [List.map_map]
    refine List.Nodup.map_on ?_ hpending.of_map
    intro p hp q hq heq
    exact List.inj_on_of_nodup_map hpending hp hq (Subtype.ext (localMessageId_inj.mp heq))
  confirmed := by
    intro m
    constructor
    · intro h
      obtain ⟨p, -, rfl⟩ := List.mem_map.mp h.1
      exact absurd h.2 (by simp)
    · intro h
      obtain ⟨row, hrow, -⟩ := h
      exact absurd hrow List.not_mem_nil
  rest := by
    have hall : ∀ m ∈ pending.map Pending.message, m.isLocal = true := by
      intro m hm
      obtain ⟨p, -, rfl⟩ := List.mem_map.mp hm
      exact p.isLocal_message
    rw [List.filter_eq_self.mpr hall]
    simp [carried]

theorem carried_snoc (row : MessageRow) (p : Pending) :
    carried (seen ++ [row]) p = (carried seen p || row.clientMessageId = some p.clientMessageId.val) := by
  simp [carried]

theorem uuid_ne_nil (u : Uuid) : u.val ≠ [] := by
  intro h
  have := u.property
  rw [h] at this
  exact absurd this (by decide)

theorem mem_withoutCopy {m : ChatMessage} (hm : m.isLocal = false) (row : MessageRow) :
    m ∈ withoutCopy l row ↔ m ∈ l := by
  unfold withoutCopy
  rw [List.mem_filter]
  refine and_iff_left_of_imp fun _ => ?_
  rw [decide_eq_true_iff]
  intro c _ _ heq
  have : m.isLocal = true := by simp [ChatMessage.isLocal, heq, localMessageId]
  exact absurd hm (by simp [this])

theorem Holds.withoutCopy_rest (h : Holds pending seen l) (row : MessageRow) :
    (withoutCopy l row).filter ChatMessage.isLocal =
      (pending.filter fun p => !carried (seen ++ [row]) p).map Pending.message := by
  unfold withoutCopy
  rw [List.filter_comm, h.rest, List.filter_map, List.filter_filter]
  congr 1
  refine List.filter_congr ?_
  intro p _
  rw [carried_snoc, Bool.eq_iff_iff]
  simp only [Function.comp_apply, Bool.and_eq_true, decide_eq_true_eq, Bool.not_eq_true', Bool.or_eq_false_iff,
    decide_eq_false_iff_not]
  refine (and_congr_left fun _ => ?_).trans and_comm
  constructor
  · intro hcopy hc
    exact hcopy _ hc (uuid_ne_nil _) rfl
  · intro hne c hc _ heq
    exact hne (hc.trans (congrArg some (localMessageId_inj.mp heq).symm))

/-- **One message more.** -/
theorem Holds.put (hids : (table.map MessageRow.id).Nodup) (h : Holds pending seen l) (hseen : ∀ r ∈ seen, r ∈ table)
    {row : MessageRow} (hrow : row ∈ table) :
    ∃ l', putIncoming (byId l) (received row) = byId l' ∧ Holds pending (seen ++ [row]) l' := by
  rw [putIncoming_byId]
  have hnodup : ((withoutCopy l row).map ChatMessage.id).Nodup := h.ids.sublist (List.filter_sublist.map _)
  have hconfirmed : ∀ m, (m ∈ withoutCopy l row ∧ m.isLocal = false) ↔ ∃ r ∈ seen, m = received r := by
    intro m
    rw [← h.confirmed m]
    exact and_congr_left fun hm => mem_withoutCopy hm row
  by_cases hold : received row ∈ l
  · -- it is there already, and is set to itself
    have hmem := (mem_withoutCopy (isLocal_received row) row).mpr hold
    have hget : (byId (withoutCopy l row)).get row.id.val = some (received row) := by
      refine (Entries.mem_iff_get (by rwa [byId_keys])).mp ?_
      exact List.mem_map.mpr ⟨received row, hmem, rfl⟩
    obtain ⟨r, hr, heq⟩ := (h.confirmed _).mp ⟨hold, isLocal_received row⟩
    have hin : row ∈ seen := by
      rwa [List.inj_on_of_nodup_map hids hrow (hseen r hr) (received_id_inj (congrArg ChatMessage.id heq))]
    refine ⟨withoutCopy l row, Entries.set_of_get hget, hnodup, ?_, h.withoutCopy_rest row⟩
    intro m
    rw [hconfirmed m]
    refine exists_congr fun r => and_congr_left fun _ => ?_
    rw [List.mem_append, List.mem_singleton]
    exact ⟨Or.inl, fun hor => hor.elim id fun heq => heq ▸ hin⟩
  · -- its id is new: what is confirmed has the ids of other rows, and what is not has none of a row
    have hnew : row.id.val ∉ (byId (withoutCopy l row)).keys := by
      rw [byId_keys]
      intro hmem
      obtain ⟨m, hm, hid⟩ := List.mem_map.mp hmem
      have hlocal : m.isLocal = false := by
        have := isLocal_received row
        unfold ChatMessage.isLocal at this ⊢
        rwa [hid]
      obtain ⟨r, hr, rfl⟩ := (hconfirmed m).mp ⟨hm, hlocal⟩
      have hsame : r = row := List.inj_on_of_nodup_map hids (hseen r hr) hrow (Subtype.ext hid)
      exact hold (hsame ▸ (mem_withoutCopy hlocal row).mp hm)
    refine ⟨withoutCopy l row ++ [received row], ?_, ?_, ?_, ?_⟩
    · rw [Entries.set_of_not_mem hnew]
      simp [byId, received, toChatMessage]
    · rw [List.map_append, List.nodup_append]
      refine ⟨hnodup, by simp, ?_⟩
      intro a ha b hb heq
      rw [byId_keys] at hnew
      rw [List.map_singleton, List.mem_singleton] at hb
      exact hnew (by rwa [heq, hb] at ha)
    · intro m
      simp only [List.mem_append, List.mem_singleton, or_and_right, hconfirmed m, exists_or]
      refine or_congr_right ?_
      constructor
      · intro hm
        exact ⟨row, rfl, hm.1⟩
      · intro hm
        obtain ⟨r, rfl, rfl⟩ := hm
        exact ⟨rfl, isLocal_received r⟩
    · rw [List.filter_append, h.withoutCopy_rest row]
      simp

theorem mem_arrange {m : ChatMessage} : m ∈ arrange l ↔ m ∈ l := by
  cases h : m.isLocal <;> simp [arrange, h]

theorem Holds.arrange (h : Holds pending seen l) : Holds pending seen (arrange l) where
  ids := by
    have hperm : (Web.arrange l).Perm l := by
      refine (List.Perm.append_right _ (sortBy_perm byCreatedAt _)).trans (List.perm_append_comm.trans ?_)
      have := List.filter_append_perm ChatMessage.isLocal l
      simpa using this
    exact (hperm.map ChatMessage.id).nodup_iff.mpr h.ids
  confirmed := by
    intro m
    rw [mem_arrange]
    exact h.confirmed m
  rest := by
    rw [← h.rest, Web.arrange, List.filter_append, List.filter_filter]
    have hnone : (sortBy byCreatedAt (l.filter fun m => !m.isLocal)).filter ChatMessage.isLocal = [] := by
      refine List.filter_eq_nil_iff.mpr ?_
      intro m hm
      have := (List.mem_filter.mp (mem_sortBy.mp hm)).2
      simpa using this
    simp [hnone]

def question : MessageRow :=
  ⟨⟨js "00000000-0000-4000-8000-000000000001", by decide⟩, .user, js "one bed", some (js "c1"), 1790000000000120⟩

def reply : MessageRow :=
  ⟨⟨js "00000000-0000-4000-8000-000000000002", by decide⟩, .assistant, js "Good brief.", none, 1790000000000121⟩

end Albusforge.Web
