import Albusforge.Ask.ChatBooks

/-!
# What each device chat leaves the others

A call asks for what it asks at its own places only (`Allowed`); every such step, and all that goes on without a
call asking, keeps the books (`Inv.serves`, `Inv.idle`) and is something that the other calls can rely on (`Rely`).
-/

namespace Albusforge.Ask.Chat

open Lib
open Llm.Tools (LlmResponse LlmCallRecord ToolOp)

structure Charging (i : ℕ) (c : Call) (w : World) : Prop where
  admitted : i ∈ admitted w.log
  tx : w.tx i = .none
  rows : ∀ row ∈ w.rows, row.requestId = c.q.requestId → row.usageKnown = false

structure Counted (i : ℕ) (c : Call) (w : World) (usage : ChatUsage) (responses : List LlmResponse) : Prop where
  known : (w.memory i).usage.usageKnown = true
  called : calledBy i w.log = responses.map some
  pending : (w.memory i).pending.map Prod.fst = responses.map c.record
  settled : (w.memory i).Settled
  tally : Tally (responses.map c.record) usage

def AllowedOf (limits : ChatLimits) (i : ℕ) (c : Call) (w : World) : ChatOp → Prop
  | .db (.insert q) => q = c.q ∧ ∀ writes, w.tx i = .active writes →
      writes = [] ∧ w.lock = some i ∧ Room limits w.now w.rows q ∧ i ∉ admitted w.log
  | .db (.attempt q) => q = c.q ∧ i ∈ admitted w.log ∧ ∀ writes, w.tx i = .active writes → writes = []
  | .db (.finish q _ usage) => q = c.q ∧ i ∈ admitted w.log ∧ (∀ writes, w.tx i = .active writes → writes = []) ∧
      (usage.usageKnown = true → ∃ responses, Counted i c w usage responses) ∧
      (usage.usageKnown = true ∨ ∀ row ∈ w.rows, row.requestId = c.q.requestId → row.modelAttempted = true)
  | .tool (.create _) => Charging i c w
  | .insert _ => Charging i c w
  | .usage change => ∀ usage, (change usage).usageKnown = true → usage.usageKnown = true
  | _ => True

def Allowed (limits : ChatLimits) (i : ℕ) (op : ChatOp) (w : World) : Prop :=
  ∃ c, w.call i = some c ∧ AllowedOf limits i c w op

structure Rely (i : ℕ) (w w' : World) : Prop where
  now : w.now ≤ w'.now
  call : w'.call i = w.call i
  called : calledBy i w'.log = calledBy i w.log
  idle : w.tx i = .none → w'.tx i = .none
  active : ∀ writes, w.tx i = .active writes → w'.tx i = .none ∨ w'.tx i = .active writes ∧
    (w.lock = some i → w'.lock = some i ∧ w'.rows.map ChatRow.stamp = w.rows.map ChatRow.stamp)
  unsent : (∀ writes, w.tx i ≠ .sent writes) → (i ∈ admitted w'.log ↔ i ∈ admitted w.log) ∧
    ∀ c, w.call i = some c → i ∈ admitted w.log → ∀ row, row.requestId = c.q.requestId →
      (row ∈ w'.rows ↔ row ∈ w.rows)
  usage : (w'.memory i).usage = (w.memory i).usage ∨
    (w'.memory i).usage = { (w.memory i).usage with usageKnown := false }
  pending : (w'.memory i).pending.map Prod.fst = (w.memory i).pending.map Prod.fst
  settled : (w.memory i).Settled → w'.memory i = w.memory i

section Steps

variable {limits : ChatLimits} {w w' w'' : World} {i j : ℕ} {c : Call} {new : List Entry}

theorem Rely.refl (i : ℕ) (w : World) : Rely i w w where
  now := le_rfl
  call := rfl
  called := rfl
  idle h := h
  active _ h := Or.inr ⟨h, fun hlock => ⟨hlock, rfl⟩⟩
  unsent _ := ⟨Iff.rfl, fun _ _ _ _ _ => Iff.rfl⟩
  usage := Or.inl rfl
  pending := rfl
  settled _ := rfl

theorem Rely.stays (h : Rely i w w') (hunsent : ∀ writes, w.tx i ≠ .sent writes) (writes : List Write) :
    w'.tx i ≠ .sent writes := by
  cases htx : w.tx i with
  | none => simp [h.idle htx]
  | active own =>
    rcases h.active own htx with hnone | ⟨hactive, -⟩
    · simp [hnone]
    · simp [hactive]
  | sent own => exact absurd htx (hunsent own)

theorem Rely.trans (h : Rely i w w') (h' : Rely i w' w'') : Rely i w w'' where
  now := h.now.trans h'.now
  call := h'.call.trans h.call
  called := h'.called.trans h.called
  idle htx := h'.idle (h.idle htx)
  active := by
    intro writes htx
    rcases h.active writes htx with hnone | ⟨hactive, hlock⟩
    · exact Or.inl (h'.idle hnone)
    refine (h'.active writes hactive).imp_right ?_
    rintro ⟨hactive', hlock'⟩
    refine ⟨hactive', ?_⟩
    intro hheld
    obtain ⟨hheld', hstamps⟩ := hlock hheld
    obtain ⟨hheld'', hstamps'⟩ := hlock' hheld'
    exact ⟨hheld'', hstamps'.trans hstamps⟩
  unsent := by
    intro hunsent
    obtain ⟨hadmitted, hrows⟩ := h.unsent hunsent
    obtain ⟨hadmitted', hrows'⟩ := h'.unsent (h.stays hunsent)
    refine ⟨hadmitted'.trans hadmitted, ?_⟩
    intro c hcall hmem row hid
    exact (hrows' c (h.call.trans hcall) (hadmitted.mpr hmem) row hid).trans (hrows c hcall hmem row hid)
  usage := by
    rcases h.usage with husage | husage <;> rcases h'.usage with husage' | husage' <;> rw [husage', husage] <;> simp
  pending := h'.pending.trans h.pending
  settled hsettled := by
    have hsame := h.settled hsettled
    exact (h'.settled (hsame.symm ▸ hsettled)).trans hsame

theorem Same.rely (h : Same i w w') : Rely i w w' where
  now := h.now
  call := h.call
  called := h.called
  idle htx := h.tx.trans htx
  active _ htx := Or.inr ⟨h.tx.trans htx, h.lock⟩
  unsent _ := ⟨h.admitted, h.rows⟩
  usage := Or.inl (by rw [h.memory])
  pending := by rw [h.memory]
  settled _ := h.memory

theorem Same.refl (i : ℕ) (w : World) : Same i w w :=
  ⟨le_rfl, rfl, rfl, rfl, Iff.rfl, rfl, rfl, fun _ _ _ _ _ => Iff.rfl, fun hlock => ⟨hlock, rfl⟩⟩

/-! ## Statements -/

theorem setTx_quiet {tx : Tx} : Quiet i w (w.setTx i tx) [] where
  now := rfl
  rows := rfl
  call := rfl
  tx _ hj := Function.update_of_ne hj ..
  memory _ _ := rfl
  log := (List.append_nil _).symm
  admitted := rfl
  called _ _ := rfl
  stored _ _ := rfl
  lock _ _ hlock := hlock

@[simp] theorem setTx_tx {tx : Tx} : (w.setTx i tx).tx i = tx := Function.update_self ..

theorem Inv.setTx {tx : Tx} (h : Inv limits w) (hcall : w.call i = some c)
    (hwrites : tx.writes = [] ∨ ∃ write, tx.writes = [write] ∧ WriteOk limits w i c write) :
    Inv limits (w.setTx i tx) := by
  have hkept : Kept i w (w.setTx i tx) := setTx_quiet.kept fun _ _ hp => ⟨hp.called, hp.stored, hp.settled⟩
  refine h.quiet (i := i) setTx_quiet nofun ?_ ?_
  · intro hnone
    exact absurd (hnone.symm.trans hcall) (by simp)
  · intro c' hcall'
    obtain rfl := Option.some.inj (hcall.symm.trans hcall')
    have hcalls := h.calls i c hcall
    refine hcalls.kept hkept hcall ?_ hcalls.memory
    rw [setTx_tx]
    exact hwrites.imp_right fun ⟨write, heq, hok⟩ =>
      ⟨write, heq, hok.kept hkept hcall fun hlock => ⟨hlock, rfl⟩⟩

theorem setLock_quiet (hlock : w.lock = none ∨ w.lock = some i) : Quiet i w { w with lock := some i } [] where
  now := rfl
  rows := rfl
  call := rfl
  tx _ _ := rfl
  memory _ _ := rfl
  log := (List.append_nil _).symm
  admitted := rfl
  called _ _ := rfl
  stored _ _ := rfl
  lock j hj hheld := by
    rw [hheld] at hlock
    rcases hlock with hlock | hlock
    · exact absurd hlock (by simp)
    · exact absurd (Option.some.inj hlock) hj

theorem Inv.setLock (h : Inv limits w) (hcall : w.call i = some c) (hlock : w.lock = none ∨ w.lock = some i) :
    Inv limits { w with lock := some i } := by
  have hkept : Kept i w { w with lock := some i } :=
    (setLock_quiet hlock).kept fun _ _ hp => ⟨hp.called, hp.stored, hp.settled⟩
  refine h.quiet (i := i) (setLock_quiet hlock) nofun ?_ ?_
  · intro hnone
    exact absurd (hnone.symm.trans hcall) (by simp)
  · intro c' hcall'
    obtain rfl := Option.some.inj (hcall.symm.trans hcall')
    have hcalls := h.calls i c hcall
    exact hcalls.kept hkept hcall
      (hcalls.writes.imp_right fun ⟨write, heq, hok⟩ => ⟨write, heq, hok.kept hkept hcall fun _ => ⟨rfl, rfl⟩⟩)
      hcalls.memory

theorem Memory.stored_eq {m : Memory} (hsettled : m.Settled) (hfailed : ∀ p ∈ m.pending, p.2 ≠ .failed) :
    m.stored = m.pending.map Prod.fst := by
  rw [Memory.stored, ← List.filterMap_eq_map]
  refine List.filterMap_congr ?_
  intro p hp
  have hunsettled := hsettled p hp
  have hnot := hfailed p hp
  obtain ⟨record, state⟩ := p
  cases state <;> simp_all

theorem Inv.known {usage : ChatUsage} {responses : List LlmResponse} (h : Inv limits w) (hcall : w.call i = some c)
    (hc : Counted i c w usage responses) : Known w i c usage := by
  obtain ⟨hfailed, hstored⟩ := (h.calls i c hcall).memory hc.known
  rw [Memory.stored_eq hc.settled hfailed, hc.pending] at hstored
  exact ⟨responses, ⟨hc.called, hstored, hc.settled⟩, hc.tally⟩

theorem Inv.carried {statement : Statement} {result : statement.Result} (h : Inv limits w)
    (ha : Allowed limits i (.db statement) w) (hs : Carried i w statement result w') :
    Inv limits w' ∧ ∀ j, j ≠ i → Same j w w' := by
  obtain ⟨c, hcall, ha⟩ := ha
  cases hs with
  | begin htx => exact ⟨h.setTx hcall (Or.inl rfl), fun j hj => setTx_quiet.same hj⟩
  | lock htx hlock => exact ⟨h.setLock hcall hlock, fun j hj => (setLock_quiet hlock).same hj⟩
  | authorize q htx => exact ⟨h, fun j _ => Same.refl j w⟩
  | duplicate requestId htx => exact ⟨h, fun j _ => Same.refl j w⟩
  | counts tenantId actorId htx => exact ⟨h, fun j _ => Same.refl j w⟩
  | insert q htx =>
    obtain ⟨rfl, hinsert⟩ := ha
    obtain ⟨rfl, hlock, hroom, hadmitted⟩ := hinsert _ htx
    exact ⟨h.setTx hcall (Or.inr ⟨_, rfl, ⟨_, rfl⟩, hlock, hroom, hadmitted⟩), fun j hj => setTx_quiet.same hj⟩
  | attempt q htx =>
    obtain ⟨rfl, hadmitted, hwrites⟩ := ha
    obtain rfl := hwrites _ htx
    exact ⟨h.setTx hcall (Or.inr ⟨_, rfl, rfl, hadmitted⟩), fun j hj => setTx_quiet.same hj⟩
  | finish q outcome usage htx =>
    obtain ⟨rfl, hadmitted, hwrites, hcounted, hattempted⟩ := ha
    obtain rfl := hwrites _ htx
    refine ⟨h.setTx hcall (Or.inr ⟨_, rfl, rfl, hadmitted, ?_, hattempted⟩), fun j hj => setTx_quiet.same hj⟩
    intro husage
    obtain ⟨responses, hc⟩ := hcounted husage
    exact h.known hcall hc
  | commit htx =>
    have hcommits := h.commits hcall
    rw [htx] at hcommits
    exact hcommits
  | rollback htx => exact ⟨h.endTx, fun j hj => endTx_quiet.same hj⟩

/-! ## The provider and the variables -/

theorem log_quiet (hadmitted : admitted new = []) (hcalled : ∀ j, j ≠ i → calledBy j new = [])
    (hstored : ∀ j, j ≠ i → storedBy j new = []) : Quiet i w { w with log := w.log ++ new } new where
  now := rfl
  rows := rfl
  call := rfl
  tx _ _ := rfl
  memory _ _ := rfl
  log := rfl
  admitted := hadmitted
  called := hcalled
  stored := hstored
  lock _ _ hlock := hlock

theorem setMemory_quiet {m : Memory} (hstored : ∀ j, j ≠ i → storedBy j new = []) (hadmitted : admitted new = [])
    (hcalled : ∀ j, j ≠ i → calledBy j new = []) :
    Quiet i w { w.setMemory i m with log := w.log ++ new } new where
  now := rfl
  rows := rfl
  call := rfl
  tx _ _ := rfl
  memory _ hj := Function.update_of_ne hj ..
  log := rfl
  admitted := hadmitted
  called := hcalled
  stored := hstored
  lock _ _ hlock := hlock

@[simp] theorem setMemory_memory {m : Memory} : (w.setMemory i m).memory i = m := Function.update_self ..

theorem Charging.callOk (h : Charging i c w) (hrows : w'.rows = w.rows) (htx : w'.tx = w.tx)
    (hmemory : (w'.memory i).Ok (storedBy i w'.log)) : CallOk limits w' i c where
  writes := Or.inl (by rw [htx, h.tx]; rfl)
  memory := hmemory
  row := by
    intro _ row hrow hid husage
    rw [hrows] at hrow
    exact absurd husage (by simp [h.rows row hrow hid])

theorem not_called (hcalled : ∀ j, calledBy j new = []) (answer : Option LlmResponse) : Entry.called j answer ∉ new := by
  intro hmem
  have hnone := List.filterMap_eq_nil_iff.mp (hcalled j) _ hmem
  simp [Entry.calledBy] at hnone

theorem Inv.setMemory {m : Memory} (h : Inv limits w) (hcall : w.call i = some c)
    (hadmitted : admitted new = []) (hcalled : ∀ j, calledBy j new = []) (hstored : ∀ j, j ≠ i → storedBy j new = [])
    (hpaid : (w.memory i).Settled → m.Settled ∧ storedBy i new = [])
    (hok : m.Ok (storedBy i (w.log ++ new))) : Inv limits { w.setMemory i m with log := w.log ++ new } := by
  have hquiet := setMemory_quiet (w := w) (m := m) hstored hadmitted fun j _ => hcalled j
  have hkept : Kept i w { w.setMemory i m with log := w.log ++ new } := by
    refine hquiet.kept ?_
    intro c' responses hp
    obtain ⟨hsettled, hnone⟩ := hpaid hp.settled
    refine ⟨?_, ?_, ?_⟩
    · simp [hcalled, hp.called]
    · simp [hnone, hp.stored]
    · change ((w.setMemory i m).memory i).Settled
      rw [setMemory_memory]
      exact hsettled
  refine h.quiet hquiet (fun j answer hmem => absurd hmem (not_called hcalled answer)) ?_ ?_
  · intro hnone
    exact absurd (hnone.symm.trans hcall) (by simp)
  · intro c' hcall'
    obtain rfl := Option.some.inj (hcall.symm.trans hcall')
    refine (h.calls i c hcall).kept hkept hcall ?_ ?_
    · exact (h.calls i c hcall).writes.imp_right fun ⟨write, heq, hwrite⟩ =>
        ⟨write, heq, hwrite.kept hkept hcall fun hlock => ⟨hlock, rfl⟩⟩
    · change ((w.setMemory i m).memory i).Ok _
      rw [setMemory_memory]
      exact hok

theorem setMemory_nil {m : Memory} : { w.setMemory i m with log := w.log ++ [] } = w.setMemory i m := by
  rw [List.append_nil]
  rfl

theorem setMemory_same {m : Memory} (hj : j ≠ i) : Same j w (w.setMemory i m) := by
  rw [← setMemory_nil]
  exact (setMemory_quiet (fun _ _ => rfl) rfl fun _ _ => rfl).same hj

theorem Inv.usage {change : ChatUsage → ChatUsage} (h : Inv limits w) (hcall : w.call i = some c)
    (hchange : ∀ usage, (change usage).usageKnown = true → usage.usageKnown = true) :
    Inv limits (w.setMemory i { w.memory i with usage := change (w.memory i).usage }) := by
  rw [← setMemory_nil]
  refine h.setMemory hcall rfl (fun _ => rfl) (fun _ _ => rfl) (fun hsettled => ⟨hsettled, rfl⟩) ?_
  rw [List.append_nil]
  intro husage
  exact (h.calls i c hcall).memory (hchange _ husage)

theorem Inv.inserts {record : LlmCallRecord} (h : Inv limits w) (hcall : w.call i = some c) (hc : Charging i c w) :
    Inv limits (w.setMemory i { w.memory i with pending := (w.memory i).pending ++ [(record, .unsettled)] }) := by
  rw [← setMemory_nil]
  refine h.quiet (i := i) (setMemory_quiet (fun _ _ => rfl) rfl fun _ _ => rfl) nofun ?_ ?_
  · intro hnone
    exact absurd (hnone.symm.trans hcall) (by simp)
  · intro c' hcall'
    obtain rfl := Option.some.inj (hcall.symm.trans hcall')
    refine hc.callOk rfl rfl ?_
    rw [setMemory_nil, setMemory_memory]
    intro husage
    obtain ⟨hfailed, hstored⟩ := (h.calls i c hcall).memory husage
    refine ⟨?_, ?_⟩
    · intro p hp
      rcases List.mem_append.mp hp with hp | hp
      · exact hfailed p hp
      · rw [List.mem_singleton.mp hp]
        nofun
    · have hmore : Memory.stored { w.memory i with pending := (w.memory i).pending ++ [(record, .unsettled)] } =
          (w.memory i).stored := by simp [Memory.stored]
      exact hmore.symm ▸ hstored

theorem called_toolEntry {op : ToolOp} {r : op.Ret} {answer : Option LlmResponse}
    (h : Entry.called j answer ∈ toolEntry i op r) : j = i ∧ ∃ request, op = .create request := by
  cases op with
  | create request =>
    obtain ⟨rfl, -⟩ := Entry.called.inj (List.mem_singleton.mp h)
    exact ⟨rfl, request, rfl⟩
  | signal | onResponse | execute | onToolCall => cases h

theorem Inv.tool {op : ToolOp} {r : op.Ret} (h : Inv limits w) (ha : Allowed limits i (.tool op) w) :
    Inv limits { w with log := w.log ++ toolEntry i op r } ∧
      ∀ j, j ≠ i → Same j w { w with log := w.log ++ toolEntry i op r } := by
  obtain ⟨c, hcall, ha⟩ := ha
  have hquiet : Quiet i w { w with log := w.log ++ toolEntry i op r } (toolEntry i op r) :=
    log_quiet admitted_toolEntry (fun _ hj => calledBy_toolEntry hj) fun _ _ => storedBy_toolEntry
  refine ⟨h.quiet hquiet ?_ ?_ ?_, fun j hj => hquiet.same hj⟩
  · intro j answer hmem
    obtain ⟨rfl, request, rfl⟩ := called_toolEntry hmem
    exact ha.admitted
  · intro hnone
    exact absurd (hnone.symm.trans hcall) (by simp)
  · intro c' hcall'
    obtain rfl := Option.some.inj (hcall.symm.trans hcall')
    have hcalls := h.calls i c hcall
    have hmemory : (w.memory i).Ok (storedBy i (w.log ++ toolEntry i op r)) := by simpa using hcalls.memory
    cases op with
    | create request => exact Charging.callOk ha rfl rfl hmemory
    | signal | onResponse | execute | onToolCall =>
      simp only [toolEntry, List.append_nil]
      exact hcalls

theorem Inv.serves {op : ChatOp} {r : op.Ret} (h : Inv limits w) (ha : Allowed limits i op w) (hs : Serves i w op r w') :
    Inv limits w' ∧ ∀ j, j ≠ i → Same j w w' := by
  cases hs with
  | carried hcarried => exact h.carried ha hcarried
  | failed error => exact ⟨h, fun j _ => Same.refl j w⟩
  | lost error hcarried => exact h.carried ha hcarried
  | sent error htx =>
    obtain ⟨c, hcall, -⟩ := ha
    have hwrites := (h.calls i c hcall).writes
    rw [htx] at hwrites
    exact ⟨h.setTx hcall hwrites, fun j hj => setTx_quiet.same hj⟩
  | context q r => exact ⟨h, fun j _ => Same.refl j w⟩
  | tool op r => exact h.tool ha
  | usage change =>
    obtain ⟨c, hcall, hchange⟩ := ha
    exact ⟨h.usage hcall hchange, fun j hj => setMemory_same hj⟩
  | write line r => exact ⟨h, fun j _ => Same.refl j w⟩
  | insert record =>
    obtain ⟨c, hcall, hc⟩ := ha
    exact ⟨h.inserts hcall hc, fun j hj => setMemory_same hj⟩
  | settled hsettled => exact ⟨h, fun j _ => Same.refl j w⟩

/-! ## What goes on without a call asking -/

theorem unsettled {m : Memory} {before after : List (LlmCallRecord × Insert)} {record : LlmCallRecord}
    (hpending : m.pending = before ++ (record, .unsettled) :: after) : ¬m.Settled := by
  intro hsettled
  exact hsettled (record, .unsettled) (by rw [hpending]; simp) rfl

theorem Memory.Ok.stores {m : Memory} {stored : List LlmCallRecord} {before after : List (LlmCallRecord × Insert)}
    {record : LlmCallRecord} (h : m.Ok stored) (hpending : m.pending = before ++ (record, .unsettled) :: after) :
    Memory.Ok { m with pending := before ++ (record, .stored) :: after } (stored ++ [record]) := by
  intro husage
  obtain ⟨hfailed, hstored⟩ := h husage
  rw [hpending] at hfailed
  refine ⟨?_, ?_⟩
  · intro p hp
    rcases List.mem_append.mp hp with hp | hp
    · exact hfailed p (List.mem_append_left _ hp)
    · rcases List.mem_cons.mp hp with rfl | hp
      · nofun
      · exact hfailed p (List.mem_append_right _ (List.mem_cons_of_mem _ hp))
  · simp only [Memory.stored, hpending, List.filterMap_append, List.filterMap_cons] at hstored ⊢
    exact (List.perm_append_singleton record stored).trans ((hstored.cons record).trans List.perm_middle.symm)

theorem calledBy_admits {rows : List ChatRow} : calledBy j (rows.map fun _ => .admitted i) = [] := by
  refine List.filterMap_eq_nil_iff.mpr ?_
  intro e he
  obtain ⟨_, _, rfl⟩ := List.mem_map.mp he
  rfl

theorem Inv.same (h : Inv limits w) (hsame : ∀ j, Same j w w') (hrows : w'.rows = w.rows) (hlog : w'.log = w.log) :
    Inv limits w' where
  owners := by
    have hid : w'.idOf = w.idOf := by
      funext j
      rw [World.idOf, World.idOf, (hsame j).call]
    rw [hrows, hlog, hid]
    exact h.owners
  ids := hrows ▸ h.ids
  within := h.within.later (hsame 0).now (by rw [hrows])
  paid := hlog ▸ h.paid
  fresh j hcall := (h.fresh j ((hsame j).call ▸ hcall)).same (hsame j)
  calls j c hcall := (h.calls j c ((hsame j).call ▸ hcall)).same (hsame j) ((hsame j).call ▸ hcall)

theorem insert_rely {m : Memory} (hadmitted : admitted new = []) (hcalled : calledBy i new = [])
    (husage : m.usage = (w.memory i).usage ∨ m.usage = { (w.memory i).usage with usageKnown := false })
    (hpending : m.pending.map Prod.fst = (w.memory i).pending.map Prod.fst) (hunsettled : ¬(w.memory i).Settled) :
    Rely i w { w.setMemory i m with log := w.log ++ new } where
  now := le_rfl
  call := rfl
  called := by rw [calledBy_append, hcalled, List.append_nil]
  idle htx := htx
  active _ htx := Or.inr ⟨htx, fun hlock => ⟨hlock, rfl⟩⟩
  unsent _ := ⟨by rw [admitted_append, hadmitted, List.append_nil], fun _ _ _ _ _ => Iff.rfl⟩
  usage := by rwa [setMemory_memory]
  pending := by rwa [setMemory_memory]
  settled hsettled := absurd hsettled hunsettled

/-- **What goes on without a call asking keeps the books**, and every call relies on no more. -/
theorem Inv.idle (h : Inv limits w) (hidle : Idle w w') : Inv limits w' ∧ ∀ j, Rely j w w' := by
  cases hidle with
  | tick t hnow =>
    have hsame : ∀ j, Same j w { w with now := t } := fun j => { Same.refl j w with now := hnow }
    exact ⟨h.same hsame rfl rfl, fun j => (hsame j).rely⟩
  | aborts i =>
    refine ⟨h.endTx, ?_⟩
    intro j
    by_cases hj : j = i
    · subst hj
      refine ⟨le_rfl, rfl, rfl, fun _ => endTx_tx, fun _ _ => Or.inl endTx_tx, ?_, Or.inl rfl, rfl, fun _ => rfl⟩
      exact fun _ => ⟨Iff.rfl, fun _ _ _ _ _ => Iff.rfl⟩
    · exact (endTx_quiet.same hj).rely
  | @commits i writes htx =>
    cases hcall : w.call i with
    | none => exact absurd ((h.fresh i hcall).tx.symm.trans htx) (by simp)
    | some c =>
      have hcommits := h.commits hcall
      rw [htx] at hcommits
      refine ⟨hcommits.1, ?_⟩
      intro j
      by_cases hj : j = i
      · -- what is sent is carried out when the call has been told that it failed
        subst hj
        refine ⟨le_rfl, rfl, by rw [commit_log, calledBy_append, calledBy_admits, List.append_nil], fun hnone => ?_,
          fun own hactive => ?_, fun hunsent => absurd htx (hunsent writes), Or.inl rfl, rfl, fun _ => rfl⟩
        · exact absurd (htx.symm.trans hnone) (by simp)
        · exact absurd (htx.symm.trans hactive) (by simp)
      · exact (hcommits.2 j hj).rely
  | @stores i before after record hpending =>
    cases hcall : w.call i with
    | none => exact absurd (hpending.symm.trans (h.fresh i hcall).pending) (by simp)
    | some c =>
      have hother : ∀ j, j ≠ i → storedBy j [.stored i record] = [] := by
        intro j hj
        rw [storedBy_stored, if_neg (Ne.symm hj)]
      refine ⟨h.setMemory hcall rfl (fun _ => rfl) hother (fun hsettled => absurd hsettled (unsettled hpending)) ?_, ?_⟩
      · rw [storedBy_append, storedBy_stored, if_pos rfl]
        exact (h.calls i c hcall).memory.stores hpending
      · intro j
        by_cases hj : j = i
        · subst hj
          exact insert_rely rfl rfl (Or.inl rfl) (by simp [hpending]) (unsettled hpending)
        · exact ((setMemory_quiet hother rfl fun _ _ => rfl).same hj).rely
  | @fails i before after record done hpending =>
    cases hcall : w.call i with
    | none => exact absurd (hpending.symm.trans (h.fresh i hcall).pending) (by simp)
    | some c =>
      have hadmitted : admitted (if done then [.stored i record] else []) = [] := by cases done <;> rfl
      have hcalled : ∀ j, calledBy j (if done then [.stored i record] else []) = [] := by intro j; cases done <;> rfl
      have hother : ∀ j, j ≠ i → storedBy j (if done then [.stored i record] else []) = [] := by
        intro j hj
        cases done
        · rfl
        · exact storedBy_stored.trans (if_neg (Ne.symm hj))
      refine ⟨h.setMemory hcall hadmitted hcalled hother (fun hsettled => absurd hsettled (unsettled hpending)) nofun, ?_⟩
      intro j
      by_cases hj : j = i
      · subst hj
        exact insert_rely hadmitted (hcalled j) (Or.inr rfl) (by simp [hpending]) (unsettled hpending)
      · exact ((setMemory_quiet hother hadmitted fun j _ => hcalled j).same hj).rely

end Steps

end Albusforge.Ask.Chat
