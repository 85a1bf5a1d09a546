import Albusforge.Ask.ChatSteps

/-!
# A device chat goes by the rules

However a call goes among others, it asks for each thing where it may (`converse_right`). What it knows at each place
is said so that the other calls leave it true: the reservation under its lock, then the row of its own, then what
its variables say of the responses it has had.
-/

namespace Albusforge.Ask.Chat

open Lib
open Llm.Tools (LlmResponse LlmCallRecord ToolOp ToolLoopOptions ToolLoopOutcome Next Thrown ToolUse Message)

variable {limits : ChatLimits} {i : ℕ} {c : Call} {w w' : World}

/-- However it goes from here, each thing is asked for where it may be, and the value meets `Q`. -/
abbrev Right (limits : ChatLimits) (i : ℕ) {α : Type} (t : Async α) (Q : α → World → Prop) (w : World) : Prop :=
  Proc.guarded (Serves i) (Rely i) (Allowed limits i) t Q w

section Rules

variable {α : Type} {Q : α → World → Prop}

theorem Carried.call {statement : Statement} {result : statement.Result} (h : Carried i w statement result w') :
    w'.call = w.call := by
  cases h <;> rfl

theorem Serves.call {op : ChatOp} {r : op.Ret} (h : Serves i w op r w') : w'.call = w.call := by
  cases h with
  | carried hcarried | lost _ hcarried => exact hcarried.call
  | failed | sent | context | tool | usage | write | insert | settled => rfl

theorem Right.call {t : Async α} (h : Right limits i t Q w) (hcall : w.call i = some c) :
    Right limits i t (fun a w => Q a w ∧ w.call i = some c) w :=
  Proc.guarded_keeps (fun _ _ hrely hcall => hrely.call.trans hcall)
    (fun _ _ _ _ hserves hcall => (congrFun hserves.call i).trans hcall) h hcall

theorem right_run (statement : Statement) {next : Except Fail statement.Result → Async α} (hcall : w.call i = some c)
    (ha : ∀ w₁, Rely i w w₁ → AllowedOf limits i c w₁ (.db statement))
    (hok : ∀ w₁ result w', Rely i w w₁ → Carried i w₁ statement result w' → w'.call i = some c →
      Right limits i (next (.ok result)) Q w')
    (herror : ∀ error w', w'.call i = some c → Right limits i (next (.error error)) Q w') :
    Right limits i (run statement >>= next) Q w := by
  refine Proc.guarded_call (ChatOp.db statement) ?_
  intro w₁ hrely
  have hcall₁ : w₁.call i = some c := hrely.call.trans hcall
  refine ⟨⟨c, hcall₁, ha w₁ hrely⟩, ?_⟩
  intro r w' hserves
  have hcall' : w'.call i = some c := (congrFun hserves.call i).trans hcall₁
  cases hserves with
  | carried hcarried => exact hok w₁ _ w' hrely hcarried hcall'
  | failed error => exact herror error _ hcall'
  | lost error _ => exact herror error _ hcall'
  | sent error _ => exact herror error _ hcall'

theorem right_transaction {work : Async (Except Fail Unit)} {P P' : World → Prop} (hcall : w.call i = some c)
    (hwork : ∀ w₁ w', Rely i w w₁ → w₁.tx i = .none → w'.call i = some c → w' = w₁.setTx i (.active []) →
      Right limits i work (fun r w => r = .ok () → P w) w')
    (hcommit : ∀ w w₁ writes, P w → Rely i w w₁ → w₁.tx i = .active writes → P' (w₁.commit i writes))
    (hstable : ∀ w w₁, P' w → Rely i w w₁ → P' w₁) :
    Right limits i (transaction work) (fun r w => r = .ok () → P' w) w := by
  have hrollback : ∀ (error : Fail) (w : World), w.call i = some c →
      Right limits i (run .rollback >>= fun _ => pure (Except.error error)) (fun r w => r = Except.ok () → P' w) w := by
    intro error w hcall
    exact right_run .rollback hcall (fun _ _ => trivial) (fun _ _ _ _ _ _ => nofun) fun _ _ _ => nofun
  refine right_run .begin hcall (fun _ _ => trivial) ?_ hrollback
  intro w₁ result w' hrely hcarried hcall'
  cases hcarried with
  | begin htx =>
    refine Proc.guarded_bind (Rely.refl i) ?_
    refine Proc.guarded_mono ?_ (Right.call (hwork w₁ _ hrely htx hcall' rfl) hcall')
    rintro (error | ⟨⟩) w ⟨hP, hcall⟩
    · exact hrollback error w hcall
    · refine right_run .commit hcall (fun _ _ => trivial) ?_ hrollback
      intro w₁ result w' hrely hcarried _
      cases hcarried with
      | commit htx => exact fun w₂ hrely' _ => hstable _ _ (hcommit w w₁ _ (hP rfl) hrely htx) hrely'

end Rules

/-! ## What a call knows -/

/-- It has yet to be admitted, and its transaction is about to write `writes`, where `R` holds. -/
structure Reserving (i : ℕ) (c : Call) (writes : List Write) (R : World → Prop) (w : World) : Prop where
  call : w.call i = some c
  unadmitted : i ∉ admitted w.log
  called : calledBy i w.log = []
  memory : w.memory i = ⟨.zero, []⟩
  tx : w.tx i = .none ∨ w.tx i = .active writes ∧ R w

structure Own (i : ℕ) (c : Call) (attempted : Bool) (w : World) : Prop where
  call : w.call i = some c
  unsent : ∀ writes, w.tx i ≠ .sent writes
  admitted : i ∈ admitted w.log
  rows : ∀ row ∈ w.rows, row.requestId = c.q.requestId →
    row.isOf c.q = true ∧ row.usageKnown = false ∧ (attempted = true → row.modelAttempted = true)

structure Metered (i : ℕ) (c : Call) (called : List (Option LlmResponse)) (counted pending : List LlmResponse)
    (w : World) : Prop where
  called : calledBy i w.log = called
  tally : Tally (counted.map c.record) (w.memory i).usage
  pending : (w.memory i).pending.map Prod.fst = pending.map c.record

section Stable

variable {writes : List Write} {R : World → Prop} {attempted : Bool} {called : List (Option LlmResponse)}
  {counted pending : List LlmResponse}

/-- What the others may change of `R` while the transaction goes on. -/
def Lasting (i : ℕ) (R : World → Prop) : Prop :=
  ∀ w w', R w → w.now ≤ w'.now →
    (w.lock = some i → w'.lock = some i ∧ w'.rows.map ChatRow.stamp = w.rows.map ChatRow.stamp) → R w'

theorem Reserving.later (h : Reserving i c writes R w) (hR : Lasting i R) (hrely : Rely i w w') :
    Reserving i c writes R w' where
  call := hrely.call.trans h.call
  unadmitted := by
    have hunsent : ∀ own, w.tx i ≠ .sent own := by
      intro own
      rcases h.tx with htx | ⟨htx, -⟩ <;> simp [htx]
    rw [(hrely.unsent hunsent).1]
    exact h.unadmitted
  called := hrely.called.trans h.called
  memory := by
    have hsettled : (w.memory i).Settled := by
      rw [h.memory]
      nofun
    exact (hrely.settled hsettled).trans h.memory
  tx := by
    rcases h.tx with htx | ⟨htx, hr⟩
    · exact Or.inl (hrely.idle htx)
    · exact (hrely.active writes htx).imp_right fun ⟨hactive, hlock⟩ => ⟨hactive, hR w w' hr hrely.now hlock⟩

theorem Own.later (h : Own i c attempted w) (hrely : Rely i w w') : Own i c attempted w' where
  call := hrely.call.trans h.call
  unsent := hrely.stays h.unsent
  admitted := ((hrely.unsent h.unsent).1).mpr h.admitted
  rows row hrow hid := h.rows row (((hrely.unsent h.unsent).2 c h.call h.admitted row hid).mp hrow) hid

theorem Tally.unknown {records : List LlmCallRecord} {usage : ChatUsage} (h : Tally records usage) (known : Bool) :
    Tally records { usage with usageKnown := known } :=
  ⟨h.modelCalls, h.inputTokens, h.outputTokens, h.cacheReadTokens, h.cacheCreationTokens, h.costUsd⟩

theorem Metered.later (h : Metered i c called counted pending w) (hrely : Rely i w w') :
    Metered i c called counted pending w' where
  called := hrely.called.trans h.called
  tally := by
    rcases hrely.usage with husage | husage <;> rw [husage]
    · exact h.tally
    · exact h.tally.unknown false
  pending := hrely.pending.trans h.pending

end Stable

/-! ## The reservation -/

theorem lasting_true : Lasting i fun _ => True := fun _ _ _ _ _ => trivial

theorem lasting_lock : Lasting i fun w => w.lock = some i := fun _ _ hlock _ hlasts => (hlasts hlock).1

def Unused (i requestId : ℕ) (w : World) : Prop := w.lock = some i ∧ ∀ row ∈ w.rows, row.requestId ≠ requestId

theorem lasting_unused {requestId : ℕ} : Lasting i (Unused i requestId) := by
  rintro w w' ⟨hlock, hrows⟩ - hlasts
  obtain ⟨hlock', hstamps⟩ := hlasts hlock
  refine ⟨hlock', ?_⟩
  intro row hrow
  have hmem : row.stamp ∈ w.rows.map ChatRow.stamp := hstamps ▸ List.mem_map_of_mem hrow
  obtain ⟨row', hrow', hstamp⟩ := List.mem_map.mp hmem
  have hid : row'.requestId = row.requestId := congrArg Stamp.requestId hstamp
  exact hid ▸ hrows row' hrow'

def Roomy (limits : ChatLimits) (i : ℕ) (q : DeviceConverseRequest) (w : World) : Prop :=
  w.lock = some i ∧ Room limits w.now w.rows q

theorem lasting_roomy {q : DeviceConverseRequest} : Lasting i (Roomy limits i q) := by
  rintro w w' ⟨hlock, hroom⟩ hnow hlasts
  obtain ⟨hlock', hstamps⟩ := hlasts hlock
  exact ⟨hlock', hroom.later hnow hstamps⟩

def Inserting (limits : ChatLimits) (i : ℕ) (c : Call) (w : World) : Prop :=
  ∃ t, Reserving i c [.insert (.reserved c.q t)] (Roomy limits i c.q) w

theorem Reserving.active {writes writes' : List Write} {R : World → Prop} (h : Reserving i c writes R w)
    (htx : w.tx i = .active writes') : writes' = writes ∧ R w := by
  rcases h.tx with hnone | ⟨hactive, hR⟩
  · exact absurd (hnone.symm.trans htx) (by simp)
  · exact ⟨Tx.active.inj (htx.symm.trans hactive), hR⟩

theorem Reserving.writes {writes : List Write} {R : World → Prop} (h : Reserving i c writes R w)
    (writes' : List Write) (R' : World → Prop) (hR : R' (w.setTx i (.active writes'))) :
    Reserving i c writes' R' (w.setTx i (.active writes')) :=
  ⟨h.call, h.unadmitted, h.called, h.memory, Or.inr ⟨setTx_tx, hR⟩⟩

theorem reserveRow_right (h : Reserving i c [] (Unused i c.q.requestId) w) :
    Right limits i (reserveRow limits c.q) (fun r w => r = .ok () → Inserting limits i c w) w := by
  refine right_run (.counts c.q.tenantId c.q.actorId) h.call (fun _ _ => trivial) ?_ fun _ _ _ _ _ => nofun
  intro w₁ counts w' hrely hcarried hcall'
  have h₁ := h.later lasting_unused hrely
  cases hcarried with
  | counts _ _ htx =>
    obtain ⟨rfl, hlock, hid⟩ := h₁.active htx
    rw [seen_nil]
    dsimp only
    split_ifs with hglobal htenant hactor
    · exact fun _ _ => nofun
    · exact fun _ _ => nofun
    · exact fun _ _ => nofun
    have hroom : Reserving i c [] (Roomy limits i c.q) w₁ :=
      { h₁ with tx := Or.inr ⟨htx, hlock, ⟨not_le.mp hglobal, not_le.mp htenant, not_le.mp hactor, hid⟩⟩ }
    change Right limits i (run (.insert c.q) >>= pure) _ _
    refine right_run (.insert c.q) hcall' ?_ ?_ fun _ _ _ _ _ => nofun
    · intro w₂ hrely'
      have h₂ := hroom.later lasting_roomy hrely'
      refine ⟨rfl, ?_⟩
      intro writes htx'
      obtain ⟨rfl, hlock', hroom'⟩ := h₂.active htx'
      exact ⟨rfl, hlock', hroom', h₂.unadmitted⟩
    · intro w₂ result w₃ hrely' hcarried' _
      have h₂ := hroom.later lasting_roomy hrely'
      cases hcarried' with
      | insert _ htx' =>
        obtain ⟨rfl, hroomy⟩ := h₂.active htx'
        exact fun w₄ hrely'' _ => ⟨w₂.now, (h₂.writes _ _ hroomy).later lasting_roomy hrely''⟩

/-- Its request is in the table, and its transaction, if there is one, is about to write `writes`; it has yet to do
anything else. -/
structure Opened (i : ℕ) (c : Call) (attempted : Bool) (writes : Option (List Write)) (w : World) : Prop where
  own : Own i c attempted w
  tx : w.tx i = .none ∨ ∃ own ∈ writes, w.tx i = .active own
  called : calledBy i w.log = []
  memory : w.memory i = ⟨.zero, []⟩

theorem Opened.later {attempted : Bool} {writes : Option (List Write)} (h : Opened i c attempted writes w)
    (hrely : Rely i w w') : Opened i c attempted writes w' where
  own := h.own.later hrely
  tx := by
    rcases h.tx with htx | ⟨own, hown, htx⟩
    · exact Or.inl (hrely.idle htx)
    · exact (hrely.active own htx).imp_right fun hactive => ⟨own, hown, hactive.1⟩
  called := hrely.called.trans h.called
  memory := by
    have hsettled : (w.memory i).Settled := by
      rw [h.memory]
      nofun
    exact (hrely.settled hsettled).trans h.memory

theorem isOf_reserved {q : DeviceConverseRequest} {t : ℤ} : (ChatRow.reserved q t).isOf q = true := by
  simp [ChatRow.isOf, ChatRow.reserved]

theorem Inserting.opened {writes : List Write} (h : Inserting limits i c w) (htx : w.tx i = .active writes) :
    Opened i c false none (w.commit i writes) := by
  obtain ⟨t, h⟩ := h
  obtain ⟨rfl, -, hroom⟩ := h.active htx
  refine ⟨⟨h.call, by simp, by simp [Write.row?], ?_⟩, Or.inl commit_tx, ?_, h.memory⟩
  · intro row hrow hid
    rw [commit_rows, seen_single, Write.apply, List.mem_append, List.mem_singleton] at hrow
    obtain rfl := hrow.resolve_left fun hold => hroom.id row hold hid
    exact ⟨isOf_reserved, rfl, by simp⟩
  · simp [Write.row?, h.called]

theorem Inserting.later (h : Inserting limits i c w) (hrely : Rely i w w') : Inserting limits i c w' := by
  obtain ⟨t, h⟩ := h
  exact ⟨t, h.later lasting_roomy hrely⟩

theorem Carried.duplicated {requestId : ℕ} {result : Bool} (h : Carried i w (.duplicate requestId) result w') :
    w' = w ∧ ∃ writes, w.tx i = .active writes ∧
      result = (w.seen writes).any fun row => row.requestId = requestId := by
  cases h with
  | duplicate _ htx => exact ⟨rfl, _, htx, rfl⟩

/-- **A reservation is made where there is room.** -/
theorem reserve_right (hcall : w.call i = some c) (hfresh : Fresh w i) (hmemory : w.memory i = ⟨.zero, []⟩) :
    Right limits i (reserve limits c.q) (fun r w => r = .ok () → Opened i c false none w) w := by
  have hstart : Reserving i c [] (fun _ => True) w :=
    ⟨hcall, hfresh.admitted, hfresh.called, hmemory, Or.inl hfresh.tx⟩
  refine right_transaction (P := Inserting limits i c) hcall ?_ ?_ fun _ _ => Opened.later
  · rintro w₁ - hrely - hcall' rfl
    have h₁ := (hstart.later lasting_true hrely).writes [] (fun _ => True) trivial
    -- nothing is read before the lock is held
    refine right_run .lock hcall' (fun _ _ => trivial) ?_ fun _ _ _ _ _ => nofun
    intro w₂ result w₃ hrely' hcarried hcall₃
    have h₂ := h₁.later lasting_true hrely'
    cases hcarried with
    | lock htx _ =>
      obtain ⟨rfl, -⟩ := h₂.active htx
      have h₃ : Reserving i c [] (fun w => w.lock = some i) { w₂ with lock := some i } :=
        ⟨h₂.call, h₂.unadmitted, h₂.called, h₂.memory, Or.inr ⟨htx, rfl⟩⟩
      refine right_run (.authorize c.q) hcall₃ (fun _ _ => trivial) ?_ fun _ _ _ _ _ => nofun
      intro w₄ result w₅ hrely'' hcarried' hcall₅
      have h₄ := h₃.later lasting_lock hrely''
      cases hcarried' with
      | authorize _ _ =>
        refine right_run (.duplicate c.q.requestId) hcall₅ (fun _ _ => trivial) ?_ fun _ _ _ _ _ => nofun
        intro w₆ result w₇ hrely₃ hcarried'' _
        have h₆ := h₄.later lasting_lock hrely₃
        obtain ⟨rfl, writes, htx', hfound⟩ := hcarried''.duplicated
        cases result with
        | true => exact fun _ _ => nofun
        | false =>
          obtain ⟨rfl, hlock⟩ := h₆.active htx'
          refine reserveRow_right { h₆ with tx := Or.inr ⟨htx', hlock, ?_⟩ }
          intro row hrow hid
          have hnone := List.any_eq_false.mp hfound.symm row hrow
          exact hnone (by simp [hid])
  · intro w w₁ writes h hrely htx
    exact (h.later hrely).opened htx

/-! ## The row of its own -/

theorem Opened.writes {attempted : Bool} {own : Option (List Write)} (h : Opened i c attempted own w)
    (writes : List Write) : Opened i c attempted (some writes) (w.setTx i (.active writes)) where
  own := ⟨h.own.call, by simp, h.own.admitted, h.own.rows⟩
  tx := Or.inr ⟨writes, rfl, setTx_tx⟩
  called := h.called
  memory := h.memory

theorem Opened.active {attempted : Bool} {writes writes' : List Write} (h : Opened i c attempted (some writes) w)
    (htx : w.tx i = .active writes') : writes' = writes := by
  rcases h.tx with hnone | ⟨own, hown, hactive⟩
  · exact absurd (hnone.symm.trans htx) (by simp)
  · obtain rfl := Option.some.inj hown
    exact Tx.active.inj (htx.symm.trans hactive)

theorem Opened.attempted (h : Opened i c false (some [.attempt c.q]) w) :
    Opened i c true none (w.commit i [.attempt c.q]) := by
  have hlog : (w.commit i [.attempt c.q]).log = w.log := List.append_nil w.log
  refine ⟨⟨h.own.call, by simp, hlog.symm ▸ h.own.admitted, ?_⟩, Or.inl commit_tx, hlog.symm ▸ h.called, h.memory⟩
  intro row hrow hid
  rw [commit_rows, seen_single, Write.apply, List.mem_map] at hrow
  obtain ⟨row', hrow', rfl⟩ := hrow
  have hid' : row'.requestId = c.q.requestId := by
    split at hid
    · exact hid
    · exact hid
  obtain ⟨hof, husage, -⟩ := h.own.rows row' hrow' hid'
  rw [if_pos hof]
  exact ⟨hof, husage, fun _ => rfl⟩

theorem started_right (h : Opened i c false none w) :
    Right limits i (started c.q) (fun r w => r = .ok () → Opened i c true none w) w := by
  refine right_transaction (P := Opened i c false (some [.attempt c.q])) h.own.call ?_ ?_ fun _ _ => Opened.later
  · rintro w₁ - hrely - hcall' rfl
    have h₁ := (h.later hrely).writes []
    change Right limits i (run (.attempt c.q) >>= pure) _ _
    refine right_run (.attempt c.q) hcall' ?_ ?_ fun _ _ _ _ _ => nofun
    · intro w₂ hrely'
      have h₂ := h₁.later hrely'
      exact ⟨rfl, h₂.own.admitted, fun writes htx => h₂.active htx⟩
    · intro w₂ result w₃ hrely' hcarried _
      cases hcarried with
      | attempt _ htx =>
        have h₂ := h₁.later hrely'
        obtain rfl := h₂.active htx
        exact fun w₄ hrely'' _ => (h₂.writes _).later hrely''
  · intro w w₁ writes h hrely htx
    have h₁ := h.later hrely
    obtain rfl := h₁.active htx
    exact h₁.attempted

structure Closing (i : ℕ) (c : Call) (usage : ChatUsage) (w : World) : Prop where
  own : ∃ attempted, Own i c attempted w ∧ (usage.usageKnown = true ∨ attempted = true)
  tx : w.tx i = .none ∨ w.tx i = .active []
  settled : (w.memory i).Settled
  stands : (w.memory i).usage = usage
  known : usage.usageKnown = true → ∃ responses, Metered i c (responses.map some) responses responses w

theorem Closing.later {usage : ChatUsage} (h : Closing i c usage w) (hrely : Rely i w w') : Closing i c usage w' where
  own := by
    obtain ⟨attempted, hown, hknown⟩ := h.own
    exact ⟨attempted, hown.later hrely, hknown⟩
  tx := by
    rcases h.tx with htx | htx
    · exact Or.inl (hrely.idle htx)
    · exact (hrely.active [] htx).imp_right And.left
  settled := by
    rw [hrely.settled h.settled]
    exact h.settled
  stands := by
    rw [hrely.settled h.settled]
    exact h.stands
  known husage := by
    obtain ⟨responses, hmetered⟩ := h.known husage
    exact ⟨responses, hmetered.later hrely⟩

theorem finish_right {usage : ChatUsage} (outcome : Outcome) (h : Closing i c usage w) :
    Right limits i (finish c.q outcome usage) (fun r _ => r = .ok () → True) w := by
  obtain ⟨_, hown, -⟩ := h.own
  refine right_transaction (P := fun _ => True) hown.call ?_ (fun _ _ _ _ _ _ => trivial) fun _ _ _ _ => trivial
  rintro w₁ - hrely - hcall' rfl
  have h₀ := h.later hrely
  have h₁ : Closing i c usage (w₁.setTx i (.active [])) := by
    obtain ⟨attempted, hown, hknown⟩ := h₀.own
    have hown' : Own i c attempted (w₁.setTx i (.active [])) := ⟨hown.call, by simp, hown.admitted, hown.rows⟩
    refine ⟨⟨attempted, hown', hknown⟩, Or.inr setTx_tx, h₀.settled, h₀.stands, ?_⟩
    intro husage
    obtain ⟨responses, hmetered⟩ := h₀.known husage
    exact ⟨responses, hmetered.called, hmetered.tally, hmetered.pending⟩
  change Right limits i (run (.finish c.q outcome usage) >>= pure) _ _
  refine right_run (.finish c.q outcome usage) hcall' ?_ (fun _ _ _ _ _ _ _ _ _ => trivial) fun _ _ _ _ _ => nofun
  intro w₂ hrely'
  have h₂ := h₁.later hrely'
  obtain ⟨attempted, hown, hknown⟩ := h₂.own
  refine ⟨rfl, hown.admitted, ?_, ?_, ?_⟩
  · intro writes htx
    rcases h₂.tx with hnone | hactive
    · exact absurd (hnone.symm.trans htx) (by simp)
    · exact Tx.active.inj (htx.symm.trans hactive)
  · intro husage
    obtain ⟨responses, hmetered⟩ := h₂.known husage
    exact ⟨responses, by rw [h₂.stands]; exact husage, hmetered.called, hmetered.pending, h₂.settled,
      h₂.stands ▸ hmetered.tally⟩
  · refine hknown.imp_right ?_
    intro hattempted row hrow hid
    exact (hown.rows row hrow hid).2.2 hattempted

/-! ## The tool loop -/

structure Running (i : ℕ) (c : Call) (called : List (Option LlmResponse)) (counted pending : List LlmResponse)
    (w : World) : Prop where
  own : Own i c true w
  tx : w.tx i = .none
  metered : Metered i c called counted pending w

section Running

variable {called : List (Option LlmResponse)} {counted pending : List LlmResponse}

theorem Running.later (h : Running i c called counted pending w) (hrely : Rely i w w') :
    Running i c called counted pending w' :=
  ⟨h.own.later hrely, hrely.idle h.tx, h.metered.later hrely⟩

theorem Running.charging (h : Running i c called counted pending w) : Charging i c w :=
  ⟨h.own.admitted, h.tx, fun row hrow hid => (h.own.rows row hrow hid).2.1⟩

theorem Running.setMemory {m : Memory} (counted' pending' : List LlmResponse)
    (h : Running i c called counted pending w) (htally : Tally (counted'.map c.record) m.usage)
    (hpending : m.pending.map Prod.fst = pending'.map c.record) :
    Running i c called counted' pending' (w.setMemory i m) where
  own := ⟨h.own.call, h.own.unsent, h.own.admitted, h.own.rows⟩
  tx := h.tx
  metered := ⟨h.metered.called, by rwa [setMemory_memory], by rwa [setMemory_memory]⟩

def Quietly : ToolOp → Prop
  | .create _ | .onResponse _ => False
  | _ => True

theorem tool_right {op : ToolOp} (hop : ∀ request, op ≠ .create request) (h : Running i c called counted pending w) :
    Right limits i (Proc.ask (ChatOp.tool op)) (fun _ => Running i c called counted pending) w := by
  refine Proc.guarded_ask ?_
  intro w₁ hrely
  have h₁ := h.later hrely
  refine ⟨⟨c, h₁.own.call, ?_⟩, ?_⟩
  · cases op with
    | create request => exact absurd rfl (hop request)
    | signal | onResponse | execute | onToolCall => trivial
  · intro r w' hserves
    cases hserves with
    | tool _ _ =>
      have hentry : toolEntry i op r = [] := by
        cases op with
        | create request => exact absurd rfl (hop request)
        | signal | onResponse | execute | onToolCall => rfl
      rw [hentry, List.append_nil]
      exact fun w₂ hrely' => h₁.later hrely'

theorem create_right {request : Llm.Tools.LlmRequest} (h : Running i c called counted pending w) :
    Right limits i (Proc.ask (ChatOp.tool (.create request)))
      (fun r => Running i c (called ++ [Except.toOption r]) counted pending) w := by
  refine Proc.guarded_ask ?_
  intro w₁ hrely
  have h₁ := h.later hrely
  refine ⟨⟨c, h₁.own.call, h₁.charging⟩, ?_⟩
  intro r w' hserves
  cases hserves with
  | tool _ _ =>
    have hadmitted : i ∈ admitted (w₁.log ++ toolEntry i (.create request) r) := by simpa using h₁.own.admitted
    have hcalled : calledBy i (w₁.log ++ toolEntry i (.create request) r) = called ++ [Except.toOption r] := by
      rw [calledBy_append, h₁.metered.called]
      simp [calledBy, toolEntry, Entry.calledBy]
    have h₂ : Running i c (called ++ [Except.toOption r]) counted pending
        { w₁ with log := w₁.log ++ toolEntry i (.create request) r } :=
      ⟨⟨h₁.own.call, h₁.own.unsent, hadmitted, h₁.own.rows⟩, h₁.tx, ⟨hcalled, h₁.metered.tally, h₁.metered.pending⟩⟩
    exact fun w₂ hrely' => h₂.later hrely'

theorem Tally.accumulate {records : List LlmCallRecord} {usage : ChatUsage} (h : Tally records usage)
    (record : LlmCallRecord) : Tally (records ++ [record]) (accumulate usage record) := by
  constructor <;> simp [Chat.accumulate, h.modelCalls, h.inputTokens, h.outputTokens, h.cacheReadTokens,
    h.cacheCreationTokens, h.costUsd]

theorem onResponse_right {response : LlmResponse} (h : Running i c called counted counted w) :
    Right limits i (onResponse c.options c.q response)
      (fun r w => r = .ok () → Running i c called (counted ++ [response]) (counted ++ [response]) w) w := by
  refine Proc.guarded_call (ChatOp.usage fun usage => accumulate usage (c.record response)) ?_
  intro w₁ hrely
  have h₁ := h.later hrely
  refine ⟨⟨c, h₁.own.call, fun _ husage => husage⟩, ?_⟩
  intro _ w' hserves
  cases hserves with
  | usage _ =>
    have hcounted := h₁.setMemory (counted ++ [response]) counted
      (m := { w₁.memory i with usage := accumulate (w₁.memory i).usage (c.record response) })
      (by simpa using h₁.metered.tally.accumulate (c.record response)) h₁.metered.pending
    refine Proc.guarded_call (ChatOp.write (.llmCall (c.record response) c.q)) ?_
    intro w₂ hrely'
    have h₂ := hcounted.later hrely'
    refine ⟨⟨c, h₂.own.call, trivial⟩, ?_⟩
    intro written w'' hserves'
    cases hserves' with
    | write _ _ =>
      cases written with
      | error error => exact fun _ _ => nofun
      | ok _ =>
        refine Proc.guarded_call (ChatOp.insert (c.record response)) ?_
        intro w₃ hrely''
        have h₃ := h₂.later hrely''
        refine ⟨⟨c, h₃.own.call, h₃.charging⟩, ?_⟩
        intro _ w₄ hserves''
        cases hserves'' with
        | insert _ =>
          have h₄ := h₃.setMemory (counted ++ [response]) (counted ++ [response])
            (m := { w₃.memory i with pending := (w₃.memory i).pending ++ [(c.record response, .unsettled)] })
            h₃.metered.tally (by simp [h₃.metered.pending])
          exact fun w₅ hrely₅ _ => h₄.later hrely₅

def Ended (i : ℕ) (c : Call) (outcome : ToolLoopOutcome) (w : World) : Prop :=
  ∃ called responses, Running i c called responses responses w ∧
    (responses.length < outcome.iterations ∨ called = responses.map some)

theorem quiet_answer (op : ToolOp) (hop : Quietly op) (h : Running i c called counted pending w) :
    Right limits i (answer c.options c.q op) (fun _ => Running i c called counted pending) w := by
  cases op with
  | create request | onResponse response => exact absurd hop id
  | onToolCall name note => exact fun w₁ hrely => h.later hrely
  | signal | execute use => exact tool_right (fun _ => nofun) h

section Asks

variable (options : ToolLoopOptions)

theorem runUse_asks (use : ToolUse) : (Llm.Tools.runUse options use).Asks Quietly := by
  unfold Llm.Tools.runUse
  split
  · trivial
  · refine Proc.Asks.bind ?_ ?_
    · unfold Llm.Tools.tryExecutor
      refine Proc.Asks.bind ?_ ?_
      · unfold Llm.Tools.callExecutor
        split
        · exact ⟨trivial, fun _ => trivial⟩
        · trivial
      · intro r
        split
        · trivial
        · trivial
        · refine Proc.Asks.bind ?_ ?_
          · unfold Llm.Tools.noteCall
            split
            · exact ⟨trivial, fun _ => trivial⟩
            · trivial
          · intro r
            split <;> trivial
    · intro r
      split
      · trivial
      · refine ⟨trivial, ?_⟩
        intro reason
        change Proc.Asks Quietly (if reason.isSome = true then _ else _)
        split <;> trivial

theorem runUses_asks (uses : List ToolUse) : (Llm.Tools.runUses options uses).Asks Quietly := by
  induction uses with
  | nil => trivial
  | cons use uses ih =>
    refine Proc.Asks.bind (runUse_asks options use) ?_
    intro r
    split
    · trivial
    · exact Proc.Asks.bind ih fun _ => trivial

end Asks

theorem runUses_right (options : ToolLoopOptions) (uses : List ToolUse) (h : Running i c called counted pending w) :
    Right limits i ((Llm.Tools.runUses options uses).translate (answer c.options c.q))
      (fun _ => Running i c called counted pending) w :=
  (runUses_asks options uses).guarded (Rely.refl i) (fun _ _ hrely h => h.later hrely)
    (fun op _ hop h => quiet_answer op hop h) h

end Running

section Loop

variable {options : ToolLoopOptions} {responses : List LlmResponse} {messages : List Message} {toolCalls iteration : ℕ}

def Led (i : ℕ) (c : Call) (iteration : ℕ) (w : World) : Next → Prop
  | .again _ _ => ∃ responses, responses.length = iteration ∧ Running i c (responses.map some) responses responses w
  | .done outcome => Ended i c outcome w

theorem onStop_right {response : LlmResponse} (hlength : responses.length = iteration)
    (h : Running i c (responses.map some) responses responses w) :
    Right limits i ((Llm.Tools.onStop options messages toolCalls iteration response).translate (answer c.options c.q))
      (fun r w => ∀ next, r = .ok next → Led i c iteration w next) w := by
  have hended : ∀ (outcome : ToolLoopOutcome) (w₁ : World), Rely i w w₁ → Ended i c outcome w₁ :=
    fun outcome w₁ hrely => ⟨responses.map some, responses, h.later hrely, Or.inr rfl⟩
  unfold Llm.Tools.onStop
  split
  · rintro w₁ hrely next ⟨⟩
    exact hended _ w₁ hrely
  · rintro w₁ hrely next ⟨⟩
    exact hended _ w₁ hrely
  · rw [Proc.translate_bind]
    refine Proc.guarded_bind (Rely.refl i) (Proc.guarded_mono ?_ (runUses_right options response.uses h))
    rintro (thrown | results) w₁ h₁ w₂ hrely next heq
    · exact absurd heq nofun
    · obtain rfl := Except.ok.inj heq
      exact ⟨responses, hlength, h₁.later hrely⟩
  · rintro w₁ hrely next ⟨⟩
    exact hended _ w₁ hrely

theorem round_right (hreport : options.onResponse = true) (hlength : responses.length + 1 = iteration)
    (h : Running i c (responses.map some) responses responses w) :
    Right limits i ((Llm.Tools.round options messages toolCalls iteration).translate (answer c.options c.q))
      (fun r w => ∀ next, r = .ok next → Led i c iteration w next) w := by
  unfold Llm.Tools.round
  rw [Proc.translate_ask]
  refine Proc.guarded_bind (Rely.refl i) (Proc.guarded_mono ?_ (quiet_answer .signal trivial h))
  rintro (_ | reason) w₁ h₁
  · refine Proc.guarded_bind (Rely.refl i) (Proc.guarded_mono ?_ (create_right h₁))
    rintro (thrown | response) w₂ h₂
    · rintro w₃ hrely next ⟨⟩
      refine ⟨_, responses, h₂.later hrely, Or.inl ?_⟩
      change responses.length < iteration
      omega
    · have hcalled : responses.map some ++ [Except.toOption (Except.ok response : Except Thrown LlmResponse)] =
          (responses ++ [response]).map some := by simp [Except.toOption]
      rw [hcalled] at h₂
      change Right limits i ((Llm.Tools.reportResponse options response >>= _).translate _) _ _
      rw [Llm.Tools.reportResponse, if_pos hreport, Proc.translate_ask]
      refine Proc.guarded_bind (Rely.refl i) (Proc.guarded_mono ?_ (onResponse_right h₂))
      rintro (thrown | ⟨⟩) w₃ h₃
      · rintro w₄ hrely next ⟨⟩
      · exact onStop_right (by simp [hlength]) (h₃ rfl)
  · rintro w₂ hrely next ⟨⟩

theorem loop_right (hreport : options.onResponse = true) {left : ℕ}
    (hlength : responses.length + left = options.maxIterations)
    (h : Running i c (responses.map some) responses responses w) :
    Right limits i ((Llm.Tools.loop options messages toolCalls left).translate (answer c.options c.q))
      (fun r w => ∀ outcome, r = .ok outcome → Ended i c outcome w) w := by
  induction left generalizing messages toolCalls responses w with
  | zero =>
    rintro w₁ hrely outcome ⟨⟩
    exact ⟨_, responses, h.later hrely, Or.inr rfl⟩
  | succ left ih =>
    unfold Llm.Tools.loop
    rw [Proc.translate_bind]
    have hround : Right limits i
        ((Llm.Tools.round options messages toolCalls (options.maxIterations - left)).translate (answer c.options c.q))
        (fun r w => ∀ next, r = .ok next → Led i c (options.maxIterations - left) w next) w :=
      round_right hreport (by omega) h
    refine Proc.guarded_bind (Rely.refl i) (Proc.guarded_mono ?_ hround)
    rintro (thrown | (⟨messages', toolCalls'⟩ | outcome)) w₁ h₁
    · rintro w₂ hrely outcome ⟨⟩
    · obtain ⟨responses', hlength', hrunning⟩ := h₁ _ rfl
      exact ih (by omega) hrunning
    · rintro w₂ hrely _ ⟨⟩
      obtain ⟨called, responses', hrunning, hends⟩ := h₁ _ rfl
      exact ⟨called, responses', hrunning.later hrely, hends⟩

end Loop

/-! ## The whole of a call -/

theorem close_right (mode : Mode) (text : Text) {usage : ChatUsage} (h : Closing i c usage w) :
    Right limits i (close c.q mode text) (fun _ _ => True) w := by
  refine Proc.guarded_call (ChatOp.usage id) ?_
  intro w₁ hrely
  have h₁ := h.later hrely
  obtain ⟨_, hown, -⟩ := h₁.own
  refine ⟨⟨c, hown.call, fun _ husage => husage⟩, ?_⟩
  intro read w' hserves
  cases hserves with
  | usage _ =>
    have hsame : w₁.setMemory i { w₁.memory i with usage := id (w₁.memory i).usage } = w₁ := by
      simp [World.setMemory]
    rw [hsame, h₁.stands]
    refine Proc.guarded_bind (Rely.refl i) (Proc.guarded_mono ?_ (finish_right mode.outcome h₁))
    rintro (error | _) w₂ -
    · exact fun _ _ => trivial
    · exact fun _ _ => trivial

theorem Opened.closing (h : Opened i c false none w) : Closing i c .zero w where
  own := ⟨false, h.own, Or.inl rfl⟩
  tx := h.tx.imp_right fun ⟨own, hown, _⟩ => absurd hown (by simp)
  settled := by
    rw [h.memory]
    nofun
  stands := by rw [h.memory]
  known _ := ⟨[], h.called, by rw [h.memory]; exact ⟨rfl, rfl, rfl, rfl, rfl, rfl⟩, by rw [h.memory]; rfl⟩

theorem Opened.running (h : Opened i c true none w) : Running i c [] [] [] w where
  own := h.own
  tx := h.tx.resolve_right fun ⟨own, hown, _⟩ => absurd hown (by simp)
  metered := ⟨h.called, by rw [h.memory]; exact ⟨rfl, rfl, rfl, rfl, rfl, rfl⟩, by rw [h.memory]; rfl⟩

theorem Running.closing {called : List (Option LlmResponse)} {responses : List LlmResponse} {iterations : ℕ}
    {usage : ChatUsage} (h : Running i c called responses responses w) (hsettled : (w.memory i).Settled)
    (hends : responses.length < iterations ∨ called = responses.map some)
    (husage : usage = if iterations > (w.memory i).usage.modelCalls then
      { (w.memory i).usage with usageKnown := false } else (w.memory i).usage) :
    Closing i c usage (w.setMemory i { w.memory i with usage }) := by
  have htally : Tally (responses.map c.record) usage := by
    rw [husage]
    split
    · exact h.metered.tally.unknown false
    · exact h.metered.tally
  have h' := h.setMemory responses responses (m := { w.memory i with usage }) htally h.metered.pending
  refine ⟨⟨true, h'.own, Or.inr rfl⟩, Or.inl h'.tx, ?_, by rw [setMemory_memory], ?_⟩
  · rw [setMemory_memory]
    exact hsettled
  · intro hknown
    have hmodelCalls : (w.memory i).usage.modelCalls = responses.length := by
      simpa using h.metered.tally.modelCalls
    have hcalled : called = responses.map some := by
      refine hends.resolve_left ?_
      intro hmore
      rw [hmodelCalls, if_pos hmore] at husage
      exact absurd hknown (by simp [husage])
    exact ⟨responses, hcalled ▸ h'.metered⟩

theorem conclude_right (context : Context) {outcome : ToolLoopOutcome} (h : Ended i c outcome w) :
    Right limits i (conclude c.q context outcome) (fun _ _ => True) w := by
  obtain ⟨called, responses, h, hends⟩ := h
  refine Proc.guarded_call (ChatOp.usage fun usage => { usage with toolCalls := outcome.toolCalls }) ?_
  intro w₁ hrely
  have h₁ := h.later hrely
  refine ⟨⟨c, h₁.own.call, fun _ husage => husage⟩, ?_⟩
  intro _ w₂ hserves
  cases hserves with
  | usage _ =>
    have h₂ := h₁.setMemory responses responses
      (m := { w₁.memory i with usage := { (w₁.memory i).usage with toolCalls := outcome.toolCalls } })
      ⟨h₁.metered.tally.modelCalls, h₁.metered.tally.inputTokens, h₁.metered.tally.outputTokens,
        h₁.metered.tally.cacheReadTokens, h₁.metered.tally.cacheCreationTokens, h₁.metered.tally.costUsd⟩
      h₁.metered.pending
    refine Proc.guarded_call ChatOp.settled ?_
    intro w₃ hrely'
    have h₃ := h₂.later hrely'
    refine ⟨⟨c, h₃.own.call, trivial⟩, ?_⟩
    intro _ w₄ hserves'
    cases hserves' with
    | settled hsettled =>
      refine Proc.guarded_call (ChatOp.usage fun usage =>
        if outcome.iterations > usage.modelCalls then { usage with usageKnown := false } else usage) ?_
      intro w₅ hrely''
      have h₅ := h₃.later hrely''
      have hsettled₅ : (w₅.memory i).Settled := by
        rw [hrely''.settled hsettled]
        exact hsettled
      refine ⟨⟨c, h₅.own.call, ?_⟩, ?_⟩
      · intro usage husage
        dsimp only at husage
        split at husage
        · exact absurd husage (by simp)
        · exact husage
      · intro _ w₆ hserves''
        cases hserves'' with
        | usage _ =>
          have hclosing := h₅.closing hsettled₅ hends rfl
          cases outcome with
          | ok text toolCalls iterations => exact close_right _ text hclosing
          | failed failure toolCalls iterations =>
            refine Proc.guarded_call (ChatOp.write (.incomplete failure iterations toolCalls c.q)) ?_
            intro w₇ hrely₇
            obtain ⟨_, hown, -⟩ := (hclosing.later hrely₇).own
            refine ⟨⟨c, hown.call, trivial⟩, ?_⟩
            intro written w₈ hserves₈
            cases hserves₈ with
            | write _ _ =>
              cases written with
              | error error => exact fun _ _ => trivial
              | ok _ => exact close_right .unavailable context.fallback (hclosing.later hrely₇)

theorem converse_right (hlimits : c.options.limits = limits) (hcall : w.call i = some c) (hfresh : Fresh w i)
    (hmemory : w.memory i = ⟨.zero, []⟩) :
    Right limits i (converse c.options c.q) (fun _ _ => True) w := by
  subst hlimits
  unfold converse
  refine Proc.guarded_bind (Rely.refl i) (Proc.guarded_mono ?_ (reserve_right hcall hfresh hmemory))
  rintro (error | _) w₁ h₁
  · exact fun _ _ => trivial
  · have hopened := h₁ rfl
    refine Proc.guarded_call (ChatOp.context c.q) ?_
    intro w₂ hrely
    have h₂ := hopened.later hrely
    refine ⟨⟨c, h₂.own.call, trivial⟩, ?_⟩
    intro context w₃ hserves
    cases hserves with
    | context _ _ =>
      cases context with
      | error error => exact fun _ _ => trivial
      | ok context =>
        change Right _ i (if c.options.provider = true then _ else _) _ _
        split
        · refine Proc.guarded_bind (Rely.refl i) (Proc.guarded_mono ?_ (started_right h₂))
          rintro (error | _) w₄ h₄
          · exact fun _ _ => trivial
          · have hrunning : Running i c (([] : List LlmResponse).map some) [] [] w₄ := (h₄ rfl).running
            have hloop : Right c.options.limits i
                ((Llm.Tools.runToolLoop (loopOptions c.options c.q context)).translate (answer c.options c.q))
                (fun r w => ∀ outcome, r = .ok outcome → Ended i c outcome w) w₄ :=
              loop_right rfl (Nat.zero_add _) hrunning
            refine Proc.guarded_bind (Rely.refl i) (Proc.guarded_mono ?_ hloop)
            rintro (thrown | outcome) w₅ h₅
            · exact fun _ _ => trivial
            · exact conclude_right context (h₅ outcome rfl)
        · exact close_right .unavailable context.fallback h₂.closing

end Albusforge.Ask.Chat
