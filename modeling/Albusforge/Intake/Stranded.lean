import Mathlib
import Albusforge.Intake.Replies

/-!
# Messages left without a reply

A call that fails to take the lock leaves its message to the holder, which looks once more
after it has let go. So while calls run, somebody still looks; but the holder's looking is
bounded by the messages it may answer, and the lock may be held by a session that answers
another build. **No message is stranded as long as no call of these two kinds is the last to
run** (`never_stranded`). Three messages answered and a fourth whose own call has come and
gone are enough (`stranded`).
-/

namespace Albusforge.Intake

open Albusforge.Lib Albusforge.Gateway

section

variable {δ : Type}

def Phase.failed : Phase δ → Bool
  | .unlocking _ retry => retry
  | .returned _ failed => failed
  | .dying _ => true
  | _ => false

def Idle (w : World δ) : Prop := ∀ c ∈ w.calls, c.phase.running = false

def Unfailing (w : World δ) : Prop := ∀ c ∈ w.calls, c.phase.failed = false

def Action.spends : Action δ → Bool
  | .move _ (.write _ spent) => spent
  | _ => false

def Unspent (es : List (Action δ × Shown)) : Prop := ∀ e ∈ es, e.1.spends = false

def Action.isStart : Action δ → Bool
  | .start _ => true
  | _ => false

def followed : List (Action δ × Shown) → Bool
  | [] => true
  | (_, .said _) :: es => (es.any fun e => e.1.isStart) && followed es
  | _ :: es => followed es

/-- Call `i` takes a branch that leaves a message to nobody: it does not look again because its
passes are used up, or it finds the lock in the hands of another build's session. -/
inductive Leaves (w : World δ) (i : ℕ) : Action δ → Prop
  | usedUp {mayRetry : Bool} {passes : ℕ} :
      w.calls[i]? = some ⟨mayRetry, .checking passes⟩ → maxPasses ≤ passes →
      Leaves w i (.move i .check)
  | locked : w.holder = some .other → Leaves w i (.move i .tryLock)

def Unhindered (es : List (Action δ × Shown)) (w : World δ) (action : Action δ) : Prop :=
  ∀ i, Leaves w i action → unanswered w.table ≠ none → followed es = true →
    ∃ (j : ℕ) (c : Call δ), j ≠ i ∧ w.calls[j]? = some c ∧ c.phase.running = true

theorem followed_append {es es' : List (Action δ × Shown)} (h : followed es = false)
    (hnone : (es'.any fun e => e.1.isStart) = false) : followed (es ++ es') = false := by
  induction es with
  | nil => exact absurd h (by simp [followed])
  | cons e es ih =>
      obtain ⟨action, shown⟩ := e
      cases shown with
      | said m =>
          rw [followed, Bool.and_eq_false_iff] at h
          rw [List.cons_append, followed, List.any_append, hnone, Bool.or_false,
            Bool.and_eq_false_iff]
          exact h.imp_right ih
      | nothing => exact ih h
      | answered a => exact ih h

theorem followed_said (es : List (Action δ × Shown)) (action : Action δ) (m : MessageRow) :
    followed (es ++ [(action, .said m)]) = false := by
  induction es with
  | nil => rfl
  | cons e es ih =>
      obtain ⟨action', shown⟩ := e
      cases shown with
      | said m' =>
          rw [List.cons_append, followed, ih, Bool.and_false]
      | nothing => exact ih
      | answered a => exact ih

def World.calm (w : World δ) : Action δ → Bool
  | .move i .check =>
      match w.calls[i]? with
      | some ⟨_, .checking passes⟩ => passes < maxPasses
      | _ => true
  | .move _ .tryLock => w.holder != some .other
  | _ => true

theorem unhindered_of_calm {es : List (Action δ × Shown)} {w : World δ} {action : Action δ}
    (h : w.calm action = true) : Unhindered es w action := by
  intro i hleaves
  cases hleaves with
  | usedUp hc hmax =>
      rw [World.calm, hc] at h
      exact absurd (of_decide_eq_true h) (by omega)
  | locked hholder =>
      rw [World.calm, hholder] at h
      exact absurd h (by decide)

def Attended (es : List (Action δ × Shown)) (w : World δ) : Prop :=
  followed es = false ∨ (∃ (i : ℕ) (c : Call δ), w.calls[i]? = some c ∧ c.phase.running = true) ∨
    ∃ (i : ℕ) (c : Call δ), w.calls[i]? = some c ∧ c.phase.failed = true

def Owned (w : World δ) : Prop :=
  ∀ i, w.holder = some (.call i) →
    ∃ c, w.calls[i]? = some c ∧ (c.phase.holds = true ∨ c.phase.failed = true)

structure Watched (es : List (Action δ × Shown)) (w : World δ) : Prop where
  owned : Owned w
  attended : unanswered w.table ≠ none → Attended es w

theorem Attended.snoc {es : List (Action δ × Shown)} {w w' : World δ} {e : Action δ × Shown}
    (h : Attended es w) (he : e.1.isStart = false) (hcalls : w'.calls = w.calls) : Attended (es ++ [e]) w' := by
  rcases h with h | h | h
  · exact Or.inl (followed_append h (by simp [he]))
  · exact Or.inr (Or.inl (hcalls ▸ h))
  · exact Or.inr (Or.inr (hcalls ▸ h))

theorem running_of_holds {p : Phase δ} (h : p.holds = true) : p.running = true ∨ p.failed = true := by
  cases p with
  | dying sent => exact Or.inr rfl
  | _ => first | exact Or.inl rfl | exact absurd h (by simp [Phase.holds])

/-! ## One step -/

section

variable {w : World δ} {i : ℕ} {mayRetry : Bool} {m : Move δ} {p p' : Phase δ} {holder : Option Holder}

theorem Path.owner [SpecData δ] (h : Path w i mayRetry p m p' holder)
    (hp : w.holder = some (.call i) → p.holds = true ∨ p.failed = true)
    (hi : holder = some (.call i)) : p'.holds = true ∨ p'.failed = true := by
  have hreleased : (w.released i).holder ≠ some (.call i) := by
    unfold World.released
    dsimp only
    split
    · simp
    · assumption
  cases h with
  | begin => exact absurd (hp hi) (by simp [Phase.holds, Phase.failed])
  | absent _ => exact absurd (hp hi) (by simp [Phase.holds, Phase.failed])
  | refused _ => exact absurd (hp hi) (by simp [Phase.holds, Phase.failed])
  | again _ _ => exact absurd (hp hi) (by simp [Phase.holds, Phase.failed])
  | enough _ => exact absurd (hp hi) (by simp [Phase.holds, Phase.failed])
  | unlocked => exact absurd hi hreleased
  | lockLands _ => exact Or.inr rfl
  | lockRefused _ => exact Or.inr rfl
  | unlockLands => exact Or.inr rfl
  | writeFails _ => exact Or.inr rfl
  | failed _ => exact Or.inr rfl
  | givenUp _ => exact Or.inr rfl
  | ends => exact Or.inr rfl
  | _ => exact Or.inl rfl

theorem Path.holder_was [SpecData δ] {j : ℕ} (hne : j ≠ i) (h : Path w i mayRetry p m p' holder)
    (hj : holder = some (.call j)) : w.holder = some (.call j) := by
  have hreleased : (w.released i).holder = some (.call j) → w.holder = some (.call j) := by
    unfold World.released
    dsimp only
    split
    · simp
    · exact id
  cases h with
  | locked _ => exact absurd (Holder.call.inj (Option.some.inj hj)) hne.symm
  | lockLands _ => exact absurd (Holder.call.inj (Option.some.inj hj)) hne.symm
  | unlocked => exact hreleased hj
  | unlockLands => exact hreleased hj
  | ends => exact hreleased hj
  | _ => exact hj

theorem Path.ends_well [SpecData δ] (h : Path w i mayRetry p m p' holder)
    (hrunning : p'.running = false) (hfailed : p'.failed = false) :
    w.table = [] ∨ (m = .tryLock ∧ w.grants i = false) ∨
      ∃ n, m = .check ∧ p = .checking n ∧ (unanswered w.table = none ∨ maxPasses ≤ n) := by
  cases h with
  | absent hempty => exact Or.inl hempty
  | refused hg => exact Or.inr (Or.inl ⟨rfl, hg⟩)
  | enough hn =>
      refine Or.inr (Or.inr ⟨_, rfl, rfl, ?_⟩)
      simpa using hn
  | @unlocked n retry =>
      cases retry with
      | true => exact absurd hfailed (by simp [Phase.failed])
      | false => exact absurd hrunning (by simp [Phase.running])
  | ends => exact absurd hfailed (by simp [Phase.failed])
  | failed _ => exact absurd hfailed (by simp [Phase.failed])
  | lockLands _ => exact absurd hfailed (by simp [Phase.failed])
  | lockRefused _ => exact absurd hfailed (by simp [Phase.failed])
  | unlockLands => exact absurd hfailed (by simp [Phase.failed])
  | writeFails _ => exact absurd hfailed (by simp [Phase.failed])
  | givenUp _ => exact absurd hfailed (by simp [Phase.failed])
  | _ => exact absurd hrunning (by simp [Phase.running])

end

variable [SpecData δ] {runTurn : TurnInput δ → TurnOutcome δ → Prop}

theorem watched_move {es : List (Action δ × Shown)} {w w' : World δ} {i : ℕ} {c : Call δ}
    {m : Move δ} {shown : Shown} (h : Watched es w) (hc : w.calls[i]? = some c)
    (hmove : w.move i c m = some (w', shown)) (hunhindered : Unhindered es w (.move i m)) :
    Watched (es ++ [(.move i m, shown)]) w' := by
  have hrange : i < w.calls.length := (List.getElem?_eq_some_iff.mp hc).1
  cases move_moved hmove with
  | @quiet p holder status hpath =>
      have hmoved : ∀ j d, j ≠ i → w.calls[j]? = some d →
          (w.calls.set i { c with phase := p })[j]? = some d := by
        intro j d hne hj
        rw [List.getElem?_set_ne (fun hij => hne hij.symm)]
        exact hj
      have hself : (w.calls.set i { c with phase := p })[i]? = some { c with phase := p } :=
        List.getElem?_set_self hrange
      refine ⟨?_, ?_⟩
      · intro j hj
        by_cases hji : j = i
        · subst hji
          refine ⟨_, hself, hpath.owner ?_ hj⟩
          intro hheld
          obtain ⟨d, hd, hphase⟩ := h.owned j hheld
          rw [hc] at hd
          rw [Option.some.inj hd]
          exact hphase
        · obtain ⟨d, hd, hphase⟩ := h.owned j (hpath.holder_was hji hj)
          exact ⟨d, hmoved j d hji hd, hphase⟩
      · intro hunanswered
        by_cases hrunning : p.running = true
        · exact Or.inr (Or.inl ⟨i, _, hself, hrunning⟩)
        by_cases hfailed : p.failed = true
        · exact Or.inr (Or.inr ⟨i, _, hself, hfailed⟩)
        by_cases hfollowed : followed es = false
        · exact Or.inl (followed_append hfollowed (by simp [Action.isStart]))
        rcases hpath.ends_well (by simpa using hrunning) (by simpa using hfailed) with
          hempty | ⟨rfl, hgrants⟩ | ⟨n, rfl, hn, hnone⟩
        · exact absurd (by simp [hempty, unanswered, lastMessageOf, listMessages]) hunanswered
        · -- a call of the build that holds the lock still looks
          cases hholder : w.holder with
          | none => exact absurd hgrants (by simp [World.grants, hholder])
          | some holder =>
              cases holder with
              | other =>
                  obtain ⟨j, d, hji, hd, hrun⟩ :=
                    hunhindered i (.locked hholder) hunanswered (by simpa using hfollowed)
                  exact Or.inr (Or.inl ⟨j, d, hmoved j d hji hd, hrun⟩)
              | call j =>
                  have hji : j ≠ i := by
                    rintro rfl
                    exact absurd hgrants (by simp [World.grants, hholder])
                  obtain ⟨d, hd, hphase⟩ := h.owned j hholder
                  rcases hphase with hholds | hfail
                  · rcases running_of_holds hholds with hrun | hfail
                    · exact Or.inr (Or.inl ⟨j, d, hmoved j d hji hd, hrun⟩)
                    · exact Or.inr (Or.inr ⟨j, d, hmoved j d hji hd, hfail⟩)
                  · exact Or.inr (Or.inr ⟨j, d, hmoved j d hji hd, hfail⟩)
        · rcases hnone with hnone | hmax
          · exact absurd hnone hunanswered
          · obtain ⟨mayRetry, phase⟩ := c
            have hphase : phase = .checking n := hn
            subst hphase
            obtain ⟨j, d, hji, hd, hrun⟩ :=
              hunhindered i (.usedUp hc hmax) hunanswered (by simpa using hfollowed)
            exact Or.inr (Or.inl ⟨j, d, hmoved j d hji hd, hrun⟩)
  | @wrote turn id p w₁ a hwriting hwrite =>
      have hwrote := write_wrote hwrite
      have hself : (w₁.put i { c with phase := p }).calls[i]? = some { c with phase := p } := by
        refine List.getElem?_set_self ?_
        rw [hwrote.calls]
        exact hrange
      have hphase : p.holds = true ∨ p.failed = true := by
        generalize c.phase = q at hwriting
        cases hwriting with
        | live => split <;> exact Or.inl rfl
        | abandoned => exact Or.inr rfl
      refine ⟨?_, ?_⟩
      · intro j hj
        by_cases hji : j = i
        · subst hji
          exact ⟨_, hself, hphase⟩
        · obtain ⟨d, hd, hholds⟩ := h.owned j (hwrote.holder ▸ hj)
          refine ⟨d, ?_, hholds⟩
          have hcalls : (w₁.put i { c with phase := p }).calls = w₁.calls.set i { c with phase := p } :=
            rfl
          rw [hcalls, hwrote.calls, List.getElem?_set_ne (fun hij => hji hij.symm)]
          exact hd
      · intro _
        rcases hphase with hholds | hfailed
        · rcases running_of_holds hholds with hrun | hfail
          · exact Or.inr (Or.inl ⟨i, _, hself, hrun⟩)
          · exact Or.inr (Or.inr ⟨i, _, hself, hfail⟩)
        · exact Or.inr (Or.inr ⟨i, _, hself, hfailed⟩)

theorem watched_step {es : List (Action δ × Shown)} {w w' : World δ} {e : Action δ × Shown}
    (h : Watched es w) (hs : (turns runTurn).step w e w') (hunhindered : Unhindered es w e.1) :
    Watched (es ++ [e]) w' := by
  obtain ⟨action, shown⟩ := e
  obtain ⟨hnext, -⟩ := hs
  cases action with
  | create id askText clientMessageId now =>
      simp only [World.next] at hnext
      split at hnext
      · obtain ⟨rfl, rfl⟩ := Prod.mk.inj (Option.some.inj hnext)
        exact ⟨h.owned, fun _ => Or.inl (followed_said es _ _)⟩
      · exact absurd hnext (by simp)
  | submit s =>
      simp only [World.next] at hnext
      split at hnext
      · exact absurd hnext (by simp)
      · split at hnext
        · obtain ⟨rfl, rfl⟩ := Prod.mk.inj (Option.some.inj hnext)
          exact ⟨h.owned, fun _ => Or.inl (followed_said es _ _)⟩
        · obtain ⟨rfl, rfl⟩ := Prod.mk.inj (Option.some.inj hnext)
          exact ⟨h.owned, fun hu => (h.attended hu).snoc rfl rfl⟩
  | start mayRetry =>
      obtain ⟨rfl, rfl⟩ := Prod.mk.inj (Option.some.inj hnext)
      refine ⟨?_, fun _ => Or.inr (Or.inl ⟨w.calls.length, _, List.getElem?_concat_length, rfl⟩)⟩
      intro i hi
      obtain ⟨c, hc, hphase⟩ := h.owned i hi
      refine ⟨c, ?_, hphase⟩
      rw [List.getElem?_append_left (List.getElem?_eq_some_iff.mp hc).1]
      exact hc
  | move i m =>
      obtain ⟨c, hc, hmove⟩ := Option.bind_eq_some_iff.mp hnext
      exact watched_move h hc hmove hunhindered
  | otherLocks =>
      simp only [World.next] at hnext
      split at hnext
      · obtain ⟨rfl, rfl⟩ := Prod.mk.inj (Option.some.inj hnext)
        exact ⟨fun i hi => absurd hi (by simp), fun hu => (h.attended hu).snoc rfl rfl⟩
      · exact absurd hnext (by simp)
  | otherUnlocks =>
      simp only [World.next] at hnext
      split at hnext
      · obtain ⟨rfl, rfl⟩ := Prod.mk.inj (Option.some.inj hnext)
        exact ⟨fun i hi => absurd hi (by simp), fun hu => (h.attended hu).snoc rfl rfl⟩
      · exact absurd hnext (by simp)

/--
**In a run whose steps are all unhindered, where every message was followed by a call and no call
failed, nothing is left unanswered once no call is running.**
-/
theorem never_stranded {es : List (Action δ × Shown)} {w : World δ}
    (h : (turns runTurn).RunWhere (fun es w e => Unhindered es w e.1) es w) (hfollowed : followed es = true)
    (hfailed : Unfailing w) (hidle : Idle w) : unanswered w.table = none := by
  have hwatched : Watched es w := by
    refine Machine.RunWhere.invariant ?_ ?_ h
    · intro w ⟨htable, _, _, hfree⟩
      refine ⟨fun i hi => absurd hi (hfree i), ?_⟩
      intro hu
      exact absurd (by simp [htable, unanswered, lastMessageOf, listMessages]) hu
    · intro es w e w' hw hs hc
      exact watched_step hw hs hc
  by_contra hunanswered
  rcases hwatched.attended hunanswered with
    hnone | ⟨i, c, hc, hrunning⟩ | ⟨i, c, hc, hfail⟩
  · exact absurd hfollowed (by simp [hnone])
  · exact absurd hrunning (by simp [hidle c (List.mem_of_getElem? hc)])
  · exact absurd hfail (by simp [hfailed c (List.mem_of_getElem? hc)])

def World.calmly (w : World δ) : List (Action δ) → Bool
  | [] => true
  | a :: as => w.calm a && ((w.next a).map fun r => r.1.calmly as).getD true

theorem unhindered_run (hany : ∀ input outcome, runTurn input outcome) {as : List (Action δ)}
    {es es' : List (Action δ × Shown)} {w w' : World δ}
    (h : (turns runTurn).RunWhere (fun es w e => Unhindered es w e.1) es w)
    (hrun : w.run as = some (w', es')) (hcalm : w.calmly as = true) :
    (turns runTurn).RunWhere (fun es w e => Unhindered es w e.1) (es ++ es') w' := by
  induction as generalizing w es es' with
  | nil =>
      obtain ⟨rfl, rfl⟩ := Prod.mk.inj (Option.some.inj hrun)
      rwa [List.append_nil]
  | cons a as ih =>
      rw [World.run] at hrun
      split at hrun
      · exact absurd hrun (by simp)
      · rename_i w₁ shown hnext
        obtain ⟨r, hr, heq⟩ := Option.map_eq_some_iff.mp hrun
        obtain ⟨rfl, rfl⟩ := Prod.mk.inj heq
        rw [World.calmly, hnext, Bool.and_eq_true] at hcalm
        have hunhindered : Unhindered es w a := unhindered_of_calm hcalm.1
        have hstep : (turns runTurn).step w (a, shown) w₁ := ⟨hnext, allowed_of_ending fun _ _ => hany _ _⟩
        have hnow := h.step hstep hunhindered
        have hrest := ih hnow hr hcalm.2
        rwa [List.append_assoc, List.singleton_append] at hrest

end

namespace Bench

def again (n : Fin 10) (now : ℕ) : Submission :=
  { text := js "and a bell", clientMessageId := (uuid n).val, id := uuid n, startedAt := now,
    clock := now, owned := true, admitted := true }

def refused (i : ℕ) (n : Fin 10) (now : ℕ) : List (Action Draft) :=
  [.submit (again n now), .start true, .move i .begin, .move i .tryLock]

def fourMessages : List (Action Draft) :=
  [.create (uuid 1) (js "a lamp") none 1000000, .start true, .move 0 .begin, .move 0 .tryLock] ++
    answering 0 (uuid 2) ++ refused 1 3 9000000 ++ answering 0 (uuid 4) ++ refused 2 5 18000000 ++
    answering 0 (uuid 6) ++ refused 3 7 27000000 ++ [.move 0 .unlock, .move 0 .check]

end Bench

theorem never_stranded_bench : unanswered (Bench.after Bench.oneTurn).table = none := by
  have hrun : Bench.nowhere.run Bench.oneTurn =
      some (Bench.after Bench.oneTurn, Bench.events Bench.oneTurn) := by rfl
  have hfirst : (turns Bench.anything).RunWhere (fun es w e => Unhindered es w e.1) [] Bench.nowhere :=
    .init ⟨rfl, rfl, rfl, by simp [Bench.nowhere]⟩
  exact never_stranded (unhindered_run (fun _ _ => trivial) hfirst hrun (by decide)) (by decide)
    (by unfold Unfailing; decide) (by unfold Idle; decide)

/-- **A fourth message is stranded**: its call was refused by a call that does not look again. -/
theorem stranded : ¬ ∀ es w, (turns Bench.anything).Run es w → followed es = true → Unspent es →
    Unfailing w → Idle w → unanswered w.table = none := by
  intro h
  have hnone := h (Bench.events Bench.fourMessages) (Bench.after Bench.fourMessages)
    (Bench.ran (by decide)) (by decide) (by unfold Unspent; decide) (by unfold Unfailing; decide)
    (by unfold Idle; decide)
  exact absurd hnone (by decide)

end Albusforge.Intake
