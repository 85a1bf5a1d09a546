import Albusforge.Ask.ChatTurn
import Albusforge.Llm.ToolLoop

/-!
# The books of the device chat are honest

**Whatever the calls of all instances do, and in whatever order**, no allowance is exceeded, nothing is charged for a
request that is not admitted, and a row that says its usage is known has the sums of all that was charged for its
request, every part of which is stored (`chats_honest`).
-/

namespace Albusforge.Ask.Chat

open Lib
open Llm.Tools (LlmResponse LlmCallRecord)

def World.charged (w : World) (requestId : ℕ) : List (Option LlmResponse) :=
  w.log.filterMap fun e =>
    match e with
    | .called i answer => if w.idOf i = some requestId then some answer else none
    | _ => none

structure Honest (limits : ChatLimits) (w : World) : Prop where
  within : Within limits w.now w.rows
  rows : (w.rows.map fun row => some row.requestId) = (admitted w.log).map w.idOf
  once : ((admitted w.log).map w.idOf).Nodup
  paid : ∀ before i answer after, w.log = before ++ .called i answer :: after → i ∈ admitted before
  known : ∀ row ∈ w.rows, row.usageKnown = true → ∃ (i : ℕ) (c : Call) (responses : List LlmResponse),
    i ∈ admitted w.log ∧ w.call i = some c ∧
    row.requestId = c.q.requestId ∧ w.charged row.requestId = responses.map some ∧
    Sums (responses.map c.record) row ∧ (storedBy i w.log).Perm (responses.map c.record)

section Honest

variable {limits : ChatLimits} {w w' : World} {i : ℕ} {c : Call}

theorem Inv.called_admitted {answer : Option LlmResponse} (h : Inv limits w) (hmem : .called i answer ∈ w.log) :
    i ∈ admitted w.log := by
  obtain ⟨before, after, hlog⟩ := List.append_of_mem hmem
  have hadmitted := h.paid before i answer after hlog
  rw [hlog, admitted_append]
  exact List.mem_append_left _ hadmitted

theorem Inv.charged (h : Inv limits w) (hcall : w.call i = some c) (hi : i ∈ admitted w.log) :
    w.charged c.q.requestId = calledBy i w.log := by
  refine List.filterMap_congr ?_
  intro e he
  cases e with
  | admitted j | stored j record => rfl
  | called j answer =>
    change (if w.idOf j = some c.q.requestId then some answer else none) = if j = i then some answer else none
    by_cases hj : j = i
    · subst hj
      have hid : w.idOf j = some c.q.requestId := by rw [World.idOf, hcall]; rfl
      rw [if_pos hid, if_pos rfl]
    · rw [if_neg hj, if_neg]
      intro hid
      cases hcall' : w.call j with
      | none => simp [World.idOf, hcall'] at hid
      | some c' =>
        rw [World.idOf, hcall'] at hid
        exact hj (h.unique (h.called_admitted he) hi hcall' hcall (Option.some.inj hid))

theorem Inv.honest (h : Inv limits w) : Honest limits w where
  within := h.within
  rows := h.owners
  once := by
    rw [← h.owners, ← Function.comp_def some, ← List.map_map]
    exact h.ids.map (Option.some_injective ℕ)
  paid := h.paid
  known := by
    intro row hrow husage
    have hmem : some row.requestId ∈ (admitted w.log).map w.idOf := h.owners ▸ List.mem_map_of_mem hrow
    obtain ⟨i, hi, hid⟩ := List.mem_map.mp hmem
    cases hcall : w.call i with
    | none => simp [World.idOf, hcall] at hid
    | some c =>
      rw [World.idOf, hcall] at hid
      have hid' : row.requestId = c.q.requestId := (Option.some.inj hid).symm
      obtain ⟨responses, hpaid, hsums⟩ := (h.calls i c hcall).row hi row hrow hid' husage
      refine ⟨i, c, responses, hi, hcall, hid', ?_, hsums, hpaid.stored⟩
      rw [hid', h.charged hcall hi]
      exact hpaid.called

theorem Inv.begins (h : Inv limits w) (hcall : w.call i = none) (c : Call) :
    Inv limits { w.setMemory i ⟨.zero, []⟩ with call := Function.update w.call i (some c) } ∧
      ∀ j, j ≠ i → Same j w { w.setMemory i ⟨.zero, []⟩ with call := Function.update w.call i (some c) } := by
  have hfresh := h.fresh i hcall
  have hsame : ∀ j, j ≠ i → Same j w { w.setMemory i ⟨.zero, []⟩ with call := Function.update w.call i (some c) } := by
    intro j hj
    exact ⟨le_rfl, Function.update_of_ne hj .., rfl, Function.update_of_ne hj .., Iff.rfl, rfl, rfl,
      fun _ _ _ _ _ => Iff.rfl, fun hlock => ⟨hlock, rfl⟩⟩
  refine ⟨⟨?_, h.ids, h.within, h.paid, ?_, ?_⟩, hsame⟩
  · refine h.owners.trans (List.map_congr_left ?_)
    intro j hj
    have hne : j ≠ i := by
      rintro rfl
      exact hfresh.admitted hj
    rw [World.idOf, World.idOf, (hsame j hne).call]
  · intro j hnone
    have hj : j ≠ i := by
      rintro rfl
      exact absurd hnone (by simp)
    exact (h.fresh j ((hsame j hj).call ▸ hnone)).same (hsame j hj)
  · intro j c' hcall'
    by_cases hj : j = i
    · subst hj
      refine ⟨Or.inl ?_, ?_, fun hadmitted => absurd hadmitted hfresh.admitted⟩
      · change (w.tx j).writes = []
        rw [hfresh.tx]
        rfl
      · change ((w.setMemory j ⟨.zero, []⟩).memory j).Ok (storedBy j w.log)
        rw [setMemory_memory, hfresh.stored]
        exact fun _ => ⟨by simp, List.Perm.refl _⟩
    · have hold : w.call j = some c' := (hsame j hj).call ▸ hcall'
      exact (h.calls j c' hold).same (hsame j hj) hold

theorem inv_init (now : ℤ) : Inv limits ⟨now, [], none, fun _ => .none, fun _ => none, fun _ => ⟨.zero, []⟩, []⟩ where
  owners := rfl
  ids := List.nodup_nil
  within := ⟨Nat.zero_le _, fun _ => Nat.zero_le _, fun _ => Nat.zero_le _⟩
  paid before i answer after hlog := absurd hlog (by simp)
  fresh _ _ := ⟨rfl, by simp, rfl, rfl, rfl⟩
  calls _ _ hcall := absurd hcall (by simp)

def discipline (limits : ChatLimits) : Threads.Discipline (service limits) where
  inv := Inv limits
  rely := Rely
  allowed := Allowed limits
  post _ _ _ := True
  rely_refl := Rely.refl
  rely_trans _ _ _ _ := Rely.trans
  inv_init := by
    rintro w ⟨now, rfl⟩
    exact inv_init now
  begins := by
    rintro i t w w' h ⟨hlimits, hcall⟩
    rename_i c
    obtain ⟨hinv, hsame⟩ := h.begins hcall c
    have hfresh := h.fresh i hcall
    refine ⟨hinv, ?_, fun j hj => (hsame j hj).rely⟩
    exact converse_right hlimits (Function.update_self ..)
      ⟨hfresh.tx, hfresh.admitted, hfresh.called, hfresh.stored, by simp [setMemory_memory]⟩ setMemory_memory
  goesOn := by
    intro i op r w w' h ha hserves
    obtain ⟨hinv, hsame⟩ := h.serves ha hserves
    exact ⟨hinv, fun j hj => (hsame j hj).rely⟩
  idle := fun _ _ h hidle => h.idle hidle

end Honest

/-- **The device chat is honest.** In any order of what any number of calls do, at every moment no allowance is
exceeded, no id is admitted twice, the provider is called for admitted calls only, and what a row says it knows is
the sum of all that was charged for it. -/
theorem chats_honest (limits : ChatLimits) (p : Threads ℕ ChatOp.Ret World (Except Fail (Mode × Text)))
    (h : Threads.Run (service limits) p) : Honest limits p.world :=
  (h.guarded (discipline limits)).1.honest

/-! ## A turn that is paid for -/

def turn : Call where
  options :=
    { limits := ⟨1, 1, 1⟩, provider := true, model := js "m", maxTokens := 100, maxIterations := 1
      route := Llm.Tools.shortRoute, tools := [], priceFor := fun _ => ⟨1, 1, 1, 1, 1⟩ }
  q := { requestId := 7, tenantId := 1, actorId := 2, deviceId := 3, history := [], question := js "?" }

def idleWorld : World := ⟨0, [], none, fun _ => .none, fun _ => none, fun _ => ⟨.zero, []⟩, []⟩

def turnStart : World :=
  { idleWorld.setMemory 0 ⟨.zero, []⟩ with call := Function.update idleWorld.call 0 (some turn) }

abbrev turnEnv : Proc.Surroundings ChatOp.Ret World :=
  fun w op r w' => ∃ w₁, Relation.ReflTransGen Idle w w₁ ∧ Serves 0 w₁ op r w'

theorem turnEnv_at_once {op : ChatOp} {r : op.Ret} {w w' : World} (h : Serves 0 w op r w') : turnEnv w op r w' :=
  ⟨w, .refl, h⟩

def turnUsage : ChatUsage :=
  { accumulate .zero (turn.record Llm.Tools.replies) with toolCalls := 0 }

theorem turn_cost : turnUsage.costUsd = 2 / 1000000 := by
  have hcost : (turn.record Llm.Tools.replies).costUsd = Llm.Tools.round6 (2 / 1000000) := by
    simp [Call.record, ConverseOptions.record, Llm.Tools.toRecord, Llm.Tools.costUsd, Llm.Tools.costOf, turn,
      Llm.Tools.replies, Llm.Tools.oneToken]
    norm_num
  have hsix : Llm.Tools.round6 (2 / 1000000) = 2 / 1000000 := Llm.Tools.round6_of_sixPlaces ⟨2, by simp⟩
  simp [turnUsage, accumulate, hcost, hsix, ChatUsage.zero]

theorem turn_fits : turnUsage.Fits := by
  refine ⟨by decide, by decide, by decide, by decide, by decide, by decide, ?_, ?_⟩ <;> rw [turn_cost] <;> norm_num

theorem turn_exec : ∃ w x, Proc.Exec turnEnv turnStart (converse turn.options turn.q) w x ∧
    w.rows.map (·.usageKnown) = [true] := by
  refine ⟨?w, none, ?exec, ?known⟩
  case exec =>
    refine .call (turnEnv_at_once (.carried (.begin rfl))) ?_
    refine .call (turnEnv_at_once (.carried (.lock rfl (Or.inl rfl)))) ?_
    refine .call (turnEnv_at_once (.carried (.authorize _ rfl))) ?_
    refine .call (turnEnv_at_once (.carried (.duplicate _ rfl))) ?_
    refine .call (turnEnv_at_once (.carried (.counts _ _ rfl))) ?_
    refine .call (turnEnv_at_once (.carried (.insert _ rfl ?_ ?_))) ?_
    · intro row hrow
      cases hrow
    · intro j hj
      simp [World.setTx, World.setMemory, hj, turnStart, idleWorld, Tx.writes]
    refine .call (turnEnv_at_once (.carried (.commit rfl))) ?_
    refine .call (turnEnv_at_once (.context _ (.ok ⟨js "C", js "F"⟩))) ?_
    refine .call (turnEnv_at_once (.carried (.begin rfl))) ?_
    refine .call (turnEnv_at_once (.carried (.attempt _ rfl ?_))) ?_
    · intro j hj
      simp [World.setTx, World.commit, World.endTx, World.setMemory, hj, turnStart, idleWorld, Tx.writes]
    refine .call (turnEnv_at_once (.carried (.commit rfl))) ?_
    refine .call (turnEnv_at_once (.tool .signal none)) ?_
    refine .call (turnEnv_at_once (.tool (.create _) (Except.ok Llm.Tools.replies))) ?_
    refine .call (turnEnv_at_once (.usage _)) ?_
    refine .call (turnEnv_at_once (.write _ (.ok ()))) ?_
    refine .call (turnEnv_at_once (.insert _)) ?_
    refine .call (turnEnv_at_once (.usage _)) ?_
    -- the insert is done before it is waited for
    refine .call ⟨_, .single (.stores (i := 0) (show _ = [] ++ _ :: _ from rfl)), .settled ?_⟩ ?_
    · intro p hp
      obtain rfl : p = (turn.record Llm.Tools.replies, .stored) := List.mem_singleton.mp hp
      simp
    refine .call (turnEnv_at_once (.usage _)) ?_
    refine .call (turnEnv_at_once (.usage _)) ?_
    refine .call (turnEnv_at_once (.carried (.begin rfl))) ?_
    refine .call (turnEnv_at_once (.carried (.finish _ _ _ rfl ?_ ?_))) ?_
    · intro j hj
      simp [World.setTx, World.commit, World.endTx, World.setMemory, World.record, hj, turnStart, idleWorld, Tx.writes]
    · exact turn_fits
    refine .call (turnEnv_at_once (.carried (.commit rfl))) ?_
    exact .cut
  case known => rfl

theorem chats_honest_turn : ∃ w : World, Honest turn.options.limits w ∧ w.rows.map (·.usageKnown) = [true] := by
  obtain ⟨w, x, hexec, hknown⟩ := turn_exec
  have hinit : Threads.Run (service turn.options.limits) ⟨idleWorld, fun _ => none⟩ := .init ⟨0, rfl⟩
  have hbegins : Begins turn.options.limits 0 (converse turn.options turn.q) idleWorld turnStart := .mk rfl rfl
  have hstart : Threads.Run (service turn.options.limits) ⟨turnStart, Function.update (fun _ => none) 0
      (some (converse turn.options turn.q))⟩ := hinit.begins rfl hbegins
  obtain ⟨p, hrun, rfl⟩ := hstart.exec hexec rfl rfl
  exact ⟨p.world, chats_honest turn.options.limits p hrun, hknown⟩

end Albusforge.Ask.Chat
