import Albusforge.Ask.ChatService

/-!
# What device chats keep

Of each call it is said what its transaction is about to do, how its variables go with what was charged and stored
for it, and what its row may say (`CallOk`). **A step of one call leaves all this alone for the others** (`Same`),
so a step is checked for its own call only.
-/

namespace Albusforge.Ask.Chat

open Lib
open Llm.Tools (LlmResponse LlmCallRecord ToolOp)

/-! ## Records and rows -/

section Lists

variable {log log' : List Entry} {i j : ℕ}

@[simp] theorem admitted_append : admitted (log ++ log') = admitted log ++ admitted log' := List.filterMap_append ..

@[simp] theorem calledBy_append : calledBy i (log ++ log') = calledBy i log ++ calledBy i log' := List.filterMap_append ..

@[simp] theorem storedBy_append : storedBy i (log ++ log') = storedBy i log ++ storedBy i log' := List.filterMap_append ..

@[simp] theorem admitted_nil : admitted [] = [] := rfl
@[simp] theorem calledBy_nil : calledBy i [] = [] := rfl
@[simp] theorem storedBy_nil : storedBy i [] = [] := rfl

@[simp] theorem admitted_admitted : admitted [.admitted i] = [i] := rfl
@[simp] theorem calledBy_admitted : calledBy j [.admitted i] = [] := rfl
@[simp] theorem storedBy_admitted : storedBy j [.admitted i] = [] := rfl

@[simp] theorem admitted_stored {record : LlmCallRecord} : admitted [.stored i record] = [] := rfl
@[simp] theorem calledBy_stored {record : LlmCallRecord} : calledBy j [.stored i record] = [] := rfl

@[simp] theorem storedBy_stored {record : LlmCallRecord} :
    storedBy j [.stored i record] = if i = j then [record] else [] := by
  simp only [storedBy, Entry.storedBy, List.filterMap_cons, List.filterMap_nil]
  split <;> simp_all

@[simp] theorem admitted_toolEntry {op : ToolOp} {r : op.Ret} : admitted (toolEntry i op r) = [] := by
  cases op <;> rfl

@[simp] theorem storedBy_toolEntry {op : ToolOp} {r : op.Ret} : storedBy j (toolEntry i op r) = [] := by
  cases op <;> rfl

theorem calledBy_toolEntry {op : ToolOp} {r : op.Ret} (h : j ≠ i) : calledBy j (toolEntry i op r) = [] := by
  cases op <;> simp [calledBy, toolEntry, Entry.calledBy, Ne.symm h]

end Lists

structure Stamp where
  requestId : ℕ
  tenantId : ℕ
  actorId : ℕ
  deviceId : ℕ
  createdAt : ℤ

def ChatRow.stamp (row : ChatRow) : Stamp :=
  ⟨row.requestId, row.tenantId, row.actorId, row.deviceId, row.createdAt⟩

/-- What `attempt` and `finish` do to the table. -/
def revise (q : DeviceConverseRequest) (f : ChatRow → ChatRow) (rows : List ChatRow) : List ChatRow :=
  rows.map fun row => if row.isOf q then f row else row

theorem isOf_requestId {row : ChatRow} {q : DeviceConverseRequest} (h : row.isOf q = true) :
    row.requestId = q.requestId := by
  simp only [ChatRow.isOf, Bool.and_eq_true, decide_eq_true_eq] at h
  exact h.1.1.1

theorem revise_stamp {q : DeviceConverseRequest} {f : ChatRow → ChatRow} {rows : List ChatRow}
    (hf : ∀ row, (f row).stamp = row.stamp) :
    (revise q f rows).map ChatRow.stamp = rows.map ChatRow.stamp := by
  rw [revise, List.map_map]
  refine List.map_congr_left ?_
  intro row _
  simp only [Function.comp_apply]
  split
  · exact hf row
  · rfl

theorem mem_revise {q : DeviceConverseRequest} {f : ChatRow → ChatRow} {rows : List ChatRow} {row : ChatRow}
    (hf : ∀ row, (f row).stamp = row.stamp) (hid : row.requestId ≠ q.requestId) :
    row ∈ revise q f rows ↔ row ∈ rows := by
  rw [revise, List.mem_map]
  constructor
  · rintro ⟨row', hrow', heq⟩
    by_cases hof : row'.isOf q
    · rw [if_pos hof] at heq
      -- a row of `q` would have kept its id
      have hstamp : row.requestId = row'.requestId := heq ▸ congrArg Stamp.requestId (hf row')
      exact absurd (hstamp.trans (isOf_requestId hof)) hid
    · rw [if_neg hof] at heq
      exact heq ▸ hrow'
  · intro hrow
    exact ⟨row, hrow, if_neg fun hof => hid (isOf_requestId hof)⟩

theorem recent_countP {now : ℤ} {rows : List ChatRow} (p : Stamp → Bool) :
    (recent now rows).countP (fun row => p row.stamp) =
      (rows.map ChatRow.stamp).countP fun s => p s && decide (now - day < s.createdAt) := by
  rw [recent, List.countP_filter, List.countP_map]
  rfl

theorem recent_countP_le {now now' : ℤ} {rows rows' : List ChatRow} (hnow : now ≤ now')
    (hrows : rows'.map ChatRow.stamp = rows.map ChatRow.stamp) (p : Stamp → Bool) :
    (recent now' rows').countP (fun row => p row.stamp) ≤ (recent now rows).countP fun row => p row.stamp := by
  rw [recent_countP, recent_countP, hrows]
  refine List.countP_mono_left ?_
  intro s _ hs
  simp only [Bool.and_eq_true, decide_eq_true_eq] at hs ⊢
  exact ⟨hs.1, by omega⟩

theorem recent_length {now : ℤ} {rows : List ChatRow} :
    (recent now rows).length = (recent now rows).countP fun _ => true := by
  simp

structure Room (limits : ChatLimits) (now : ℤ) (rows : List ChatRow) (q : DeviceConverseRequest) : Prop where
  global : (recent now rows).length < limits.global
  tenant : ((recent now rows).countP fun row => row.tenantId = q.tenantId) < limits.tenant
  actor : ((recent now rows).countP fun row => row.actorId = q.actorId) < limits.user
  id : ∀ row ∈ rows, row.requestId ≠ q.requestId

section Counts

variable {limits : ChatLimits} {now now' : ℤ} {rows rows' : List ChatRow} {q : DeviceConverseRequest}

theorem Room.later (h : Room limits now rows q) (hnow : now ≤ now')
    (hrows : rows'.map ChatRow.stamp = rows.map ChatRow.stamp) : Room limits now' rows' q where
  global := by
    have hle := recent_countP_le hnow hrows fun _ => true
    have hlt := h.global
    rw [recent_length] at hlt ⊢
    omega
  tenant := lt_of_le_of_lt (recent_countP_le hnow hrows fun s => s.tenantId = q.tenantId) h.tenant
  actor := lt_of_le_of_lt (recent_countP_le hnow hrows fun s => s.actorId = q.actorId) h.actor
  id := by
    intro row hrow
    have hmem : row.stamp ∈ rows.map ChatRow.stamp := hrows ▸ List.mem_map_of_mem hrow
    obtain ⟨row', hrow', hstamp⟩ := List.mem_map.mp hmem
    have hid : row'.requestId = row.requestId := congrArg Stamp.requestId hstamp
    exact hid ▸ h.id row' hrow'

theorem Within.later (h : Within limits now rows) (hnow : now ≤ now')
    (hrows : rows'.map ChatRow.stamp = rows.map ChatRow.stamp) : Within limits now' rows' where
  global := by
    have hle := recent_countP_le hnow hrows fun _ => true
    have hlt := h.global
    rw [recent_length] at hlt ⊢
    omega
  tenant tenantId := le_trans (recent_countP_le hnow hrows fun s => s.tenantId = tenantId) (h.tenant tenantId)
  actor actorId := le_trans (recent_countP_le hnow hrows fun s => s.actorId = actorId) (h.actor actorId)

theorem recent_append {row : ChatRow} :
    recent now (rows ++ [row]) = recent now rows ++ if now - day < row.createdAt then [row] else [] := by
  rw [recent, List.filter_append, List.filter_singleton]
  simp [recent]

theorem Within.insert {t : ℤ} (h : Within limits now rows) (hroom : Room limits now rows q) :
    Within limits now (rows ++ [.reserved q t]) where
  global := by
    have hlt := hroom.global
    rw [recent_append, List.length_append]
    split <;> simp <;> omega
  tenant tenantId := by
    have hle := h.tenant tenantId
    have hlt := hroom.tenant
    rw [recent_append, List.countP_append]
    by_cases hid : q.tenantId = tenantId
    · subst hid
      split <;> simp [ChatRow.reserved] <;> omega
    · split <;> simp [ChatRow.reserved, hid] <;> omega
  actor actorId := by
    have hle := h.actor actorId
    have hlt := hroom.actor
    rw [recent_append, List.countP_append]
    by_cases hid : q.actorId = actorId
    · subst hid
      split <;> simp [ChatRow.reserved] <;> omega
    · split <;> simp [ChatRow.reserved, hid] <;> omega

end Counts

/-! ## What holds of a call -/

structure Tally (records : List LlmCallRecord) (usage : ChatUsage) : Prop where
  modelCalls : usage.modelCalls = records.length
  inputTokens : usage.inputTokens = (records.map (·.inputTokens)).sum
  outputTokens : usage.outputTokens = (records.map (·.outputTokens)).sum
  cacheReadTokens : usage.cacheReadTokens = (records.map (·.cacheReadInputTokens)).sum
  cacheCreationTokens : usage.cacheCreationTokens = (records.map (·.cacheCreationInputTokens)).sum
  costUsd : usage.costUsd = (records.map (·.costUsd)).sum

def Memory.Settled (m : Memory) : Prop := ∀ p ∈ m.pending, p.2 ≠ .unsettled

/-- The records that are known to be in `builds.llm_calls`. -/
def Memory.stored (m : Memory) : List LlmCallRecord :=
  m.pending.filterMap fun p =>
    match p.2 with
    | .stored => some p.1
    | _ => none

def Memory.Ok (m : Memory) (stored : List LlmCallRecord) : Prop :=
  m.usage.usageKnown = true → (∀ p ∈ m.pending, p.2 ≠ .failed) ∧ stored.Perm m.stored

section Calls

variable (limits : ChatLimits) (w : World) (i : ℕ) (c : Call)

/-- The provider was called for these responses and no others, and all of them are stored for good. -/
structure Paid (responses : List LlmResponse) : Prop where
  called : calledBy i w.log = responses.map some
  stored : (storedBy i w.log).Perm (responses.map c.record)
  settled : (w.memory i).Settled

def Known (usage : ChatUsage) : Prop :=
  ∃ responses, Paid w i c responses ∧ Tally (responses.map c.record) usage

def WriteOk : Write → Prop
  | .insert row => (∃ t, row = .reserved c.q t) ∧ w.lock = some i ∧ Room limits w.now w.rows c.q ∧ i ∉ admitted w.log
  | .attempt q => q = c.q ∧ i ∈ admitted w.log
  | .finish q _ usage => q = c.q ∧ i ∈ admitted w.log ∧ (usage.usageKnown = true → Known w i c usage) ∧
      (usage.usageKnown = true ∨ ∀ row ∈ w.rows, row.requestId = c.q.requestId → row.modelAttempted = true)

def RowOk (row : ChatRow) : Prop :=
  row.usageKnown = true → ∃ responses, Paid w i c responses ∧ Sums (responses.map c.record) row

structure CallOk : Prop where
  writes : (w.tx i).writes = [] ∨ ∃ write, (w.tx i).writes = [write] ∧ WriteOk limits w i c write
  memory : (w.memory i).Ok (storedBy i w.log)
  row : i ∈ admitted w.log → ∀ row ∈ w.rows, row.requestId = c.q.requestId → RowOk w i c row

structure Fresh : Prop where
  tx : w.tx i = .none
  admitted : i ∉ admitted w.log
  called : calledBy i w.log = []
  stored : storedBy i w.log = []
  pending : (w.memory i).pending = []

end Calls

def World.idOf (w : World) (i : ℕ) : Option ℕ := (w.call i).map fun c => c.q.requestId

structure Inv (limits : ChatLimits) (w : World) : Prop where
  owners : w.rows.map (fun row => some row.stamp.requestId) = (admitted w.log).map w.idOf
  ids : (w.rows.map fun row => row.stamp.requestId).Nodup
  within : Within limits w.now w.rows
  paid : ∀ before i answer after, w.log = before ++ .called i answer :: after → i ∈ admitted before
  fresh : ∀ i, w.call i = none → Fresh w i
  calls : ∀ i c, w.call i = some c → CallOk limits w i c

structure Kept (i : ℕ) (w w' : World) : Prop where
  now : w.now ≤ w'.now
  call : w'.call i = w.call i
  admitted : i ∈ admitted w'.log ↔ i ∈ admitted w.log
  rows : ∀ c, w.call i = some c → i ∈ Chat.admitted w.log → ∀ row, row.requestId = c.q.requestId →
    (row ∈ w'.rows ↔ row ∈ w.rows)
  paid : ∀ c responses, Paid w i c responses → Paid w' i c responses

structure Same (i : ℕ) (w w' : World) : Prop where
  now : w.now ≤ w'.now
  call : w'.call i = w.call i
  tx : w'.tx i = w.tx i
  memory : w'.memory i = w.memory i
  admitted : i ∈ admitted w'.log ↔ i ∈ admitted w.log
  called : calledBy i w'.log = calledBy i w.log
  stored : storedBy i w'.log = storedBy i w.log
  rows : ∀ c, w.call i = some c → i ∈ Chat.admitted w.log → ∀ row, row.requestId = c.q.requestId →
    (row ∈ w'.rows ↔ row ∈ w.rows)
  lock : w.lock = some i → w'.lock = some i ∧ w'.rows.map ChatRow.stamp = w.rows.map ChatRow.stamp

structure Quiet (i : ℕ) (w w' : World) (new : List Entry) : Prop where
  now : w'.now = w.now
  rows : w'.rows = w.rows
  call : w'.call = w.call
  tx : ∀ j, j ≠ i → w'.tx j = w.tx j
  memory : ∀ j, j ≠ i → w'.memory j = w.memory j
  log : w'.log = w.log ++ new
  admitted : admitted new = []
  called : ∀ j, j ≠ i → calledBy j new = []
  stored : ∀ j, j ≠ i → storedBy j new = []
  lock : ∀ j, j ≠ i → w.lock = some j → w'.lock = some j

section Steps

variable {limits : ChatLimits} {w w' : World} {i j : ℕ} {c : Call} {new : List Entry}

theorem Same.kept (h : Same i w w') : Kept i w w' where
  now := h.now
  call := h.call
  admitted := h.admitted
  rows := h.rows
  paid _ _ hpaid := ⟨h.called.trans hpaid.called, h.stored.symm ▸ hpaid.stored, h.memory.symm ▸ hpaid.settled⟩

theorem Quiet.same (h : Quiet i w w' new) (hj : j ≠ i) : Same j w w' where
  now := le_of_eq h.now.symm
  call := congrFun h.call j
  tx := h.tx j hj
  memory := h.memory j hj
  admitted := by rw [h.log, admitted_append, h.admitted, List.append_nil]
  called := by rw [h.log, calledBy_append, h.called j hj, List.append_nil]
  stored := by rw [h.log, storedBy_append, h.stored j hj, List.append_nil]
  rows _ _ _ _ _ := by rw [h.rows]
  lock hlock := ⟨h.lock j hj hlock, by rw [h.rows]⟩

theorem Quiet.kept (h : Quiet i w w' new) (hpaid : ∀ c responses, Paid w i c responses → Paid w' i c responses) :
    Kept i w w' where
  now := le_of_eq h.now.symm
  call := congrFun h.call i
  admitted := by rw [h.log, admitted_append, h.admitted, List.append_nil]
  rows _ _ _ _ _ := by rw [h.rows]
  paid := hpaid

theorem WriteOk.kept {write : Write} (h : WriteOk limits w i c write) (hk : Kept i w w') (hcall : w.call i = some c)
    (hlock : w.lock = some i → w'.lock = some i ∧ w'.rows.map ChatRow.stamp = w.rows.map ChatRow.stamp) :
    WriteOk limits w' i c write := by
  cases write with
  | insert row =>
    obtain ⟨hrow, hheld, hroom, hadmitted⟩ := h
    obtain ⟨hheld', hstamps⟩ := hlock hheld
    exact ⟨hrow, hheld', hroom.later hk.now hstamps, fun hmem => hadmitted (hk.admitted.mp hmem)⟩
  | attempt q => exact ⟨h.1, hk.admitted.mpr h.2⟩
  | finish q outcome usage =>
    obtain ⟨hq, hadmitted, hknown, hattempted⟩ := h
    refine ⟨hq, hk.admitted.mpr hadmitted, ?_, ?_⟩
    · intro husage
      obtain ⟨responses, hpaid, htally⟩ := hknown husage
      exact ⟨responses, hk.paid c responses hpaid, htally⟩
    · refine hattempted.imp_right ?_
      intro hrows row hrow hid
      exact hrows row ((hk.rows c hcall hadmitted row hid).mp hrow) hid

theorem RowOk.kept {row : ChatRow} (h : RowOk w i c row) (hk : Kept i w w') : RowOk w' i c row := by
  intro husage
  obtain ⟨responses, hpaid, hsums⟩ := h husage
  exact ⟨responses, hk.paid c responses hpaid, hsums⟩

theorem CallOk.kept (h : CallOk limits w i c) (hk : Kept i w w') (hcall : w.call i = some c)
    (hwrites : (w'.tx i).writes = [] ∨ ∃ write, (w'.tx i).writes = [write] ∧ WriteOk limits w' i c write)
    (hmemory : (w'.memory i).Ok (storedBy i w'.log)) : CallOk limits w' i c where
  writes := hwrites
  memory := hmemory
  row := by
    intro hadmitted row hrow hid
    have hadmitted' := hk.admitted.mp hadmitted
    exact (h.row hadmitted' row ((hk.rows c hcall hadmitted' row hid).mp hrow) hid).kept hk

theorem CallOk.same (h : CallOk limits w i c) (hs : Same i w w') (hcall : w.call i = some c) :
    CallOk limits w' i c := by
  refine h.kept hs.kept hcall ?_ ?_
  · rw [hs.tx]
    exact h.writes.imp_right fun ⟨write, hwrites, hok⟩ => ⟨write, hwrites, hok.kept hs.kept hcall hs.lock⟩
  · rw [hs.memory, hs.stored]
    exact h.memory

theorem Fresh.same (h : Fresh w i) (hs : Same i w w') : Fresh w' i where
  tx := hs.tx.trans h.tx
  admitted := fun hmem => h.admitted (hs.admitted.mp hmem)
  called := hs.called.trans h.called
  stored := hs.stored.trans h.stored
  pending := hs.memory.symm ▸ h.pending

theorem paid_append {log : List Entry}
    (h : ∀ before i answer after, log = before ++ .called i answer :: after → i ∈ admitted before)
    (hnew : ∀ i answer, Entry.called i answer ∈ new → i ∈ admitted log) :
    ∀ before i answer after, log ++ new = before ++ .called i answer :: after → i ∈ admitted before := by
  intro before i answer after heq
  rcases List.append_eq_append_iff.mp heq with ⟨rest, rfl, hrest⟩ | ⟨rest, hlog, hrest⟩
  · have hmem := hnew i answer (by rw [hrest]; simp)
    simp [hmem]
  · cases rest with
    | nil =>
      rw [List.append_nil] at hlog
      subst hlog
      exact hnew i answer (by rw [List.nil_append] at hrest; rw [← hrest]; simp)
    | cons e rest =>
      obtain ⟨rfl, -⟩ := List.cons.inj hrest
      exact h before i answer rest hlog

theorem Inv.quiet (h : Inv limits w) (hquiet : Quiet i w w' new)
    (hnew : ∀ j answer, Entry.called j answer ∈ new → j ∈ admitted w.log)
    (hfresh : w.call i = none → Fresh w' i) (hown : ∀ c, w.call i = some c → CallOk limits w' i c) : Inv limits w' where
  owners := by
    have hid : w'.idOf = w.idOf := by
      funext j
      rw [World.idOf, World.idOf, hquiet.call]
    rw [hquiet.rows, hquiet.log, admitted_append, hquiet.admitted, List.append_nil, hid]
    exact h.owners
  ids := by
    rw [hquiet.rows]
    exact h.ids
  within := by
    rw [hquiet.now, hquiet.rows]
    exact h.within
  paid := by
    rw [hquiet.log]
    exact paid_append h.paid hnew
  fresh := by
    intro j hcall
    rw [hquiet.call] at hcall
    by_cases hj : j = i
    · subst hj
      exact hfresh hcall
    · exact (h.fresh j hcall).same (hquiet.same hj)
  calls := by
    intro j c hcall
    rw [hquiet.call] at hcall
    by_cases hj : j = i
    · subst hj
      exact hown c hcall
    · exact (h.calls j c hcall).same (hquiet.same hj) hcall

/-! ## Commits -/

theorem Inv.unique {c' : Call} (h : Inv limits w) (hi : i ∈ admitted w.log) (hj : j ∈ admitted w.log)
    (hci : w.call i = some c) (hcj : w.call j = some c') (hid : c.q.requestId = c'.q.requestId) : i = j := by
  have hnodup : ((admitted w.log).map w.idOf).Nodup := by
    rw [← h.owners, ← Function.comp_def some, ← List.map_map]
    exact h.ids.map (Option.some_injective ℕ)
  refine List.inj_on_of_nodup_map hnodup hi hj ?_
  simp [World.idOf, hci, hcj, hid]

theorem Inv.row_of (h : Inv limits w) (hi : i ∈ admitted w.log) (hcall : w.call i = some c) :
    ∃ row ∈ w.rows, row.requestId = c.q.requestId := by
  have hmem : w.idOf i ∈ w.rows.map fun row => some row.stamp.requestId := h.owners ▸ List.mem_map_of_mem hi
  obtain ⟨row, hrow, hid⟩ := List.mem_map.mp hmem
  have hown : w.idOf i = some c.q.requestId := by rw [World.idOf, hcall]; rfl
  exact ⟨row, hrow, Option.some.inj (hid.trans hown)⟩

section Commit

variable {writes : List Write}

@[simp] theorem commit_rows : (w.commit i writes).rows = w.seen writes := rfl

@[simp] theorem commit_log :
    (w.commit i writes).log = w.log ++ (writes.filterMap Write.row?).map fun _ => .admitted i := rfl

@[simp] theorem commit_tx : (w.commit i writes).tx i = .none := Function.update_self ..

@[simp] theorem commit_memory : (w.commit i writes).memory = w.memory := rfl

@[simp] theorem commit_idOf : (w.commit i writes).idOf = w.idOf := rfl

@[simp] theorem seen_nil : w.seen [] = w.rows := rfl

@[simp] theorem seen_single {write : Write} : w.seen [write] = write.apply w.rows := rfl

end Commit

theorem endTx_quiet : Quiet i w (w.endTx i) [] where
  now := rfl
  rows := rfl
  call := rfl
  tx j hj := Function.update_of_ne hj ..
  memory _ _ := rfl
  log := (List.append_nil _).symm
  admitted := rfl
  called _ _ := rfl
  stored _ _ := rfl
  lock j hj hlock := by
    have hother : w.lock ≠ some i := by
      rw [hlock]
      exact fun heq => hj (Option.some.inj heq)
    change (if w.lock = some i then none else w.lock) = some j
    rw [if_neg hother, hlock]

theorem endTx_paid {c : Call} {responses : List LlmResponse} (h : Paid w i c responses) :
    Paid (w.endTx i) i c responses := ⟨h.called, h.stored, h.settled⟩

@[simp] theorem endTx_tx : (w.endTx i).tx i = .none := Function.update_self ..

theorem Inv.endTx (h : Inv limits w) : Inv limits (w.endTx i) := by
  refine h.quiet (i := i) endTx_quiet nofun ?_ ?_
  · intro hcall
    have hfresh := h.fresh i hcall
    exact ⟨endTx_tx, hfresh.admitted, hfresh.called, hfresh.stored, hfresh.pending⟩
  · intro c hcall
    have hcalls := h.calls i c hcall
    refine hcalls.kept (endTx_quiet.kept fun _ _ => endTx_paid) hcall ?_ hcalls.memory
    exact Or.inl (by rw [endTx_tx]; rfl)

/-- **A reservation is committed.** -/
theorem Inv.admits {row : ChatRow} (h : Inv limits w) (hcall : w.call i = some c)
    (hok : WriteOk limits w i c (.insert row)) :
    Inv limits (w.commit i [.insert row]) ∧ ∀ j, j ≠ i → Same j w (w.commit i [.insert row]) := by
  obtain ⟨⟨t, rfl⟩, hlock, hroom, hadmitted⟩ := hok
  have hsame : ∀ j, j ≠ i → Same j w (w.commit i [.insert (.reserved c.q t)]) := by
    intro j hj
    refine ⟨le_rfl, rfl, Function.update_of_ne hj .., rfl, ?_, ?_, ?_, ?_, ?_⟩
    · simp [Write.row?, hj]
    · simp [Write.row?]
    · simp [Write.row?]
    · -- the id of another admitted call is in the table, where this one is not
      intro c' hcall' hj' row hid
      obtain ⟨row', hrow', hid'⟩ := h.row_of hj' hcall'
      have hother : row ≠ .reserved c.q t := by
        rintro rfl
        exact hroom.id row' hrow' (hid'.trans hid.symm)
      simp [Write.apply, hother]
    · intro hother
      rw [hlock] at hother
      exact absurd (Option.some.inj hother).symm hj
  have hcalls := h.calls i c hcall
  refine ⟨⟨?_, ?_, ?_, ?_, ?_, ?_⟩, hsame⟩
  · have hown : w.idOf i = some c.q.requestId := by rw [World.idOf, hcall]; rfl
    rw [commit_rows, seen_single, Write.apply, List.map_append, h.owners, commit_idOf, commit_log]
    simp [Write.row?, hown, ChatRow.reserved, ChatRow.stamp]
  · have hnew : c.q.requestId ∉ w.rows.map fun row => row.stamp.requestId := by
      intro hmem
      obtain ⟨row, hrow, hid⟩ := List.mem_map.mp hmem
      exact hroom.id row hrow hid
    rw [commit_rows, seen_single, Write.apply, List.map_append]
    exact h.ids.append (by simp) (by simpa [List.disjoint_singleton, ChatRow.reserved, ChatRow.stamp] using hnew)
  · exact h.within.insert hroom
  · exact paid_append h.paid (by simp [Write.row?])
  · intro j hnone
    have hj : j ≠ i := by
      rintro rfl
      exact absurd (hnone.symm.trans hcall) (by simp)
    exact (h.fresh j hnone).same (hsame j hj)
  · intro j c' hcall'
    by_cases hj : j = i
    · subst hj
      obtain rfl := Option.some.inj (hcall.symm.trans hcall')
      refine ⟨Or.inl (by rw [commit_tx]; rfl), ?_, ?_⟩
      · simpa [Write.row?] using hcalls.memory
      · intro _ row hrow hid
        have hrow' : row = .reserved c.q t := by
          rw [commit_rows, seen_single, Write.apply, List.mem_append, List.mem_singleton] at hrow
          exact hrow.resolve_left fun hold => hroom.id row hold hid
        subst hrow'
        nofun
    · exact (h.calls j c' hcall').same (hsame j hj) hcall'

theorem Inv.revises {write : Write} {f : ChatRow → ChatRow} (h : Inv limits w) (hcall : w.call i = some c)
    (hi : i ∈ admitted w.log) (hnone : write.row? = none) (happly : write.apply w.rows = revise c.q f w.rows)
    (hf : ∀ row, (f row).stamp = row.stamp)
    (hok : ∀ row ∈ w.rows, row.requestId = c.q.requestId → RowOk w i c row → RowOk w i c (f row)) :
    Inv limits (w.commit i [write]) ∧ ∀ j, j ≠ i → Same j w (w.commit i [write]) := by
  have hlog : (w.commit i [write]).log = w.log := by simp [hnone]
  have hrows : (w.commit i [write]).rows = revise c.q f w.rows := happly
  have hstamps : (w.commit i [write]).rows.map ChatRow.stamp = w.rows.map ChatRow.stamp := by
    rw [hrows, revise_stamp hf]
  have hids : ((w.commit i [write]).rows.map fun row => row.stamp.requestId) =
      w.rows.map fun row => row.stamp.requestId := by
    have hmap := congrArg (List.map Stamp.requestId) hstamps
    rwa [List.map_map, List.map_map] at hmap
  have hsame : ∀ j, j ≠ i → Same j w (w.commit i [write]) := by
    intro j hj
    refine ⟨le_rfl, rfl, Function.update_of_ne hj .., rfl, by rw [hlog], by rw [hlog], by rw [hlog], ?_, ?_⟩
    · intro c' hcall' hj' row hid
      rw [hrows]
      refine mem_revise hf ?_
      intro heq
      exact hj (h.unique hj' hi hcall' hcall (hid.symm.trans heq))
    · intro hlock
      exact ⟨(endTx_quiet (w := w) (i := i)).lock j hj hlock, hstamps⟩
  have hcalls := h.calls i c hcall
  have hpaid : ∀ responses, Paid w i c responses → Paid (w.commit i [write]) i c responses := by
    intro responses hp
    exact ⟨hlog.symm ▸ hp.called, hlog.symm ▸ hp.stored, hp.settled⟩
  refine ⟨⟨?_, ?_, ?_, ?_, ?_, ?_⟩, hsame⟩
  · rw [hlog, commit_idOf, ← h.owners, ← Function.comp_def some, ← List.map_map, hids, List.map_map,
      Function.comp_def]
  · rw [hids]
    exact h.ids
  · exact h.within.later le_rfl hstamps
  · rw [hlog]
    exact h.paid
  · intro j hfresh
    have hj : j ≠ i := by
      rintro rfl
      exact absurd (hfresh.symm.trans hcall) (by simp)
    exact (h.fresh j hfresh).same (hsame j hj)
  · intro j c' hcall'
    by_cases hj : j = i
    · subst hj
      obtain rfl := Option.some.inj (hcall.symm.trans hcall')
      refine ⟨Or.inl (by rw [commit_tx]; rfl), ?_, ?_⟩
      · rw [hlog]
        exact hcalls.memory
      · intro _ row hrow hid
        rw [hrows, revise, List.mem_map] at hrow
        obtain ⟨row', hrow', rfl⟩ := hrow
        -- the row had this id before
        have hid' : row'.requestId = c.q.requestId := by
          split at hid
          · exact (congrArg Stamp.requestId (hf row')).symm.trans hid
          · exact hid
        have hold := hcalls.row hi row' hrow' hid'
        have hnew : RowOk w j c (if row'.isOf c.q then f row' else row') := by
          split
          · exact hok row' hrow' hid' hold
          · exact hold
        intro husage
        obtain ⟨responses, hp, hsums⟩ := hnew husage
        exact ⟨responses, hpaid responses hp, hsums⟩
    · exact (h.calls j c' hcall').same (hsame j hj) hcall'

theorem Tally.costs {options : ConverseOptions} {q : DeviceConverseRequest} {responses : List LlmResponse} :
    Llm.Tools.SixPlaces ((responses.map (Call.record ⟨options, q⟩)).map (·.costUsd)).sum := by
  induction responses with
  | nil => exact Llm.Tools.sixPlaces_zero
  | cons response responses ih => exact (Llm.Tools.costUsd_sixPlaces _ _ _).add ih

theorem Tally.sums {responses : List LlmResponse} {usage : ChatUsage} {row : ChatRow} {outcome : Outcome}
    (h : Tally (responses.map c.record) usage) (hknown : (row.finished outcome usage).usageKnown = true) :
    Sums (responses.map c.record) (row.finished outcome usage) := by
  have hunknown : (row.modelAttempted && !usage.usageKnown) = false := by
    simp only [ChatRow.finished, Bool.or_eq_true, Bool.not_eq_true'] at hknown
    rcases hknown with hknown | hknown <;> simp [hknown]
  have hcost : Llm.Tools.round6 usage.costUsd = usage.costUsd := by
    rw [h.costUsd]
    exact Llm.Tools.round6_of_sixPlaces Tally.costs
  constructor
  · exact h.modelCalls
  all_goals simp only [ChatRow.finished, hunknown, Bool.false_eq_true, if_false, hcost]
  · rw [h.inputTokens]
  · rw [h.outputTokens]
  · rw [h.cacheReadTokens]
  · rw [h.cacheCreationTokens]
  · rw [h.costUsd]

theorem Inv.commits (h : Inv limits w) (hcall : w.call i = some c) :
    Inv limits (w.commit i (w.tx i).writes) ∧ ∀ j, j ≠ i → Same j w (w.commit i (w.tx i).writes) := by
  rcases (h.calls i c hcall).writes with hnil | ⟨write, hwrites, hok⟩
  · have heq : w.commit i (w.tx i).writes = w.endTx i := by
      rw [hnil]
      simp [World.commit, World.endTx, World.setTx]
    rw [heq]
    exact ⟨h.endTx, fun j hj => endTx_quiet.same hj⟩
  rw [hwrites]
  cases write with
  | insert row => exact h.admits hcall hok
  | attempt q =>
    obtain ⟨rfl, hi⟩ := hok
    refine h.revises hcall hi rfl rfl (fun _ => rfl) ?_
    intro row _ _ hrow husage
    obtain ⟨responses, hpaid, hsums⟩ := hrow husage
    exact ⟨responses, hpaid, hsums.modelCalls, hsums.inputTokens, hsums.outputTokens, hsums.cacheReadTokens,
      hsums.cacheCreationTokens, hsums.costUsd⟩
  | finish q outcome usage =>
    obtain ⟨rfl, hi, hknown, hattempted⟩ := hok
    refine h.revises (f := fun row => row.finished outcome usage) hcall hi rfl rfl (fun _ => rfl) ?_
    intro row hrow hid _ husage
    -- a row that was not attempted is finished with what is known
    have husage' : usage.usageKnown = true := by
      simp only [ChatRow.finished, Bool.or_eq_true, Bool.not_eq_true'] at husage
      rcases husage with hnot | husage
      · refine hattempted.resolve_right ?_
        intro hall
        exact absurd (hall row hrow hid) (by simp [hnot])
      · exact husage
    obtain ⟨responses, hpaid, htally⟩ := hknown husage'
    exact ⟨responses, hpaid, htally.sums (by simp [ChatRow.finished, husage'])⟩

end Steps

end Albusforge.Ask.Chat
