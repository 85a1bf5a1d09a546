import Mathlib.Tactic.Common
import Albusforge.Ask.Transaction

/-!
# Every lease goes back once

What holds between the flags, the race and the client in every state (`Ok`) decides what each of the helper's own
functions does there, so that a step is one of a few (`Move`). What a run has done is read off its events, and
goes with the state it led to (`Told`).
-/

namespace Albusforge.Ask.Leases

open Lib

variable {α : Type}

/-! ## States -/

def Stage.isSettled : Stage α → Bool
  | .settled _ => true
  | _ => false

def Stage.hasClient : Stage α → Bool
  | .racing | .settled _ => false
  | _ => true

@[simp, grind =] theorem isSettled_settled (value : Option α) : (Stage.settled value).isSettled = true := rfl
@[simp, grind =] theorem hasClient_settled (value : Option α) : (Stage.settled value).hasClient = false := rfl
@[simp, grind =] theorem isSettled_working (result : Option (Option α)) : (Stage.working result).isSettled = false := rfl
@[simp, grind =] theorem hasClient_working (result : Option (Option α)) : (Stage.working result).hasClient = true := rfl

def Call.Waived (c : Call α) : Prop := c.conn = .none → c.checkout = .over ∨ c.expired = true

structure Ok (c : Call α) : Prop where
  released : c.released = true ↔ c.conn ≠ .none ∧ c.conn ≠ .held
  broken : c.broken = true → c.released = true
  handled : c.conn = .held ∨ c.conn = .destroyed → c.handler = true
  expired : c.expired = true → c.conn ≠ .held
  listening : c.listening = true ↔ c.stage.isSettled = false ∧ c.aborted = false
  aborted : c.aborted = true → c.expired = true ∨ c.stage.isSettled = true
  hasClient : c.stage.hasClient = true → c.conn ≠ .none
  settled : c.stage.isSettled = true → c.conn ≠ .held ∧ c.Waived
  lost : c.race = some false → c.conn ≠ .held ∧ c.Waived
  won : c.race = some true → c.conn ≠ .none
  checkedOut : c.conn ≠ .none → c.checkout = .over
  undecided : c.race = none → c.stage.isSettled = false → c.checkout ≠ .over

theorem ok_start (aborted : Bool) : Ok (.start aborted : Call α) := by
  cases aborted <;> constructor <;> simp [Call.start, Stage.isSettled, Stage.hasClient, Call.Waived]

/-! ## What a step can do -/

inductive Stage.Fresh : Stage α → Prop
  | beginning : Fresh (.beginning .pending)
  | locking : Fresh (.locking .pending)
  | working : Fresh (.working none)
  | committing (value : α) : Fresh (.committing value .pending)
  | rollingBack : Fresh (.rollingBack .pending)

inductive Stage.Ended : Stage α → Option α → Prop
  | commit (value : α) : Ended (.committing value .ok) (some value)
  | rollback : Ended (.rollingBack .ok) none

def outcome (value : Option α) : Effect α := value.elim .reject .resolve

inductive Move (c : Call α) : Event α → Call α → Prop
  | connects : c.checkout = .queued → Move c ⟨.connects, []⟩ { c with checkout := .pending }
  | lease : c.checkout = .pending → c.expired = false → c.aborted = false →
      Move c ⟨.lease, []⟩
        { c with checkout := .over, conn := .held, handler := true, race := c.race.or (some true) }
  | late : c.checkout = .pending → c.expired = true ∨ c.aborted = true →
      Move c ⟨.lease, [.release true]⟩
        { c with
          checkout := .over, conn := .destroyed, handler := true, released := true, endHook := true
          race := c.race.or (some false) }
  | refused : c.checkout = .pending →
      Move c ⟨.refused, []⟩ { c with checkout := .over, race := c.race.or (some false) }
  | abortHeld : c.aborted = false → c.conn = .held →
      Move c ⟨.abort, [.release true]⟩
        { c with
          aborted := true, listening := false, expired := true, released := true, endHook := true
          conn := .destroyed, race := c.race.or (some false) }
  | abort : c.aborted = false → c.stage.isSettled = false → c.conn ≠ .held →
      Move c ⟨.abort, []⟩
        { c with aborted := true, listening := false, expired := true, race := c.race.or (some false) }
  | abortUnheard : c.stage.isSettled = true → Move c ⟨.abort, []⟩ { c with aborted := true }
  | errorHeld : c.conn = .held →
      Move c ⟨.clientError, [.release true]⟩
        { c with broken := true, released := true, endHook := true, conn := .destroyed }
  | errorDestroyed : c.conn = .destroyed → Move c ⟨.clientError, []⟩ { c with broken := true }
  | ends (endHook handler : Bool) : c.conn = .destroyed →
      Move c ⟨.ends, []⟩ { c with conn := .ended, endHook, handler }
  | settles {sql : Sql} {next : Query → Stage α} {ok : Bool} : c.awaited = some (sql, next) →
      Move c ⟨.settles sql ok, []⟩ { c with stage := next (queryOf ok) }
  | workSends : c.stage = .working none → Move c ⟨.workSends, [.send .work]⟩ c
  | workSettles (result : Option α) : c.stage = .working none →
      Move c ⟨.workSettles result, []⟩ { c with stage := .working (some result) }
  | goesOn (sql : Option Sql) {stage : Stage α} : stage.Fresh → c.conn = .held ∨ c.stage.hasClient = true →
      c.stage.isSettled = false → Move c ⟨.resumes, sql.toList.map .send⟩ { c with stage }
  | givesBack {value : Option α} : c.stage.Ended value → c.conn = .held →
      Move c ⟨.resumes, [.release false, outcome value]⟩
        { c with listening := false, stage := .settled value, released := true, conn := .pooled, handler := false }
  | destroys : c.stage = .rollingBack .failed → c.conn = .held →
      Move c ⟨.resumes, [.release true, .reject]⟩
        { c with
          listening := false, stage := .settled none, released := true, endHook := true, conn := .destroyed }
  | settled {value : Option α} : value = none ∨ c.stage.Ended value → c.stage.isSettled = false →
      c.conn ≠ .held → c.Waived →
      Move c ⟨.resumes, [outcome value]⟩ { c with listening := false, stage := .settled value }

section

variable {c c' : Call α} {e : Event α} {read : Bool}

theorem release_free (destroy : Bool) (h : c.conn = .none ∨ c.released = true) : c.release destroy = (c, []) := by
  rw [Call.release, if_pos h]

theorem release_destroy (destroy : Bool) (hc : c.conn ≠ .none) (hr : c.released = false)
    (hd : destroy = true ∨ c.broken = true) :
    c.release destroy =
      ({ c with released := true, endHook := true, conn := .destroyed }, [.release true]) := by
  rw [Call.release, if_neg (by simp [hc, hr]), if_pos (by simpa using hd)]

theorem release_reuse (hc : c.conn ≠ .none) (hr : c.released = false) (hb : c.broken = false) :
    c.release false = ({ c with released := true, conn := .pooled, handler := false }, [.release false]) := by
  rw [Call.release, if_neg (by simp [hc, hr]), if_neg (by simp [hb])]

theorem Ok.free (h : Ok c) (hc : c.conn ≠ .held) : c.conn = .none ∨ c.released = true := by
  rw [h.released]
  tauto

theorem Ok.held (h : Ok c) (hc : c.conn = .held) : c.released = false ∧ c.broken = false := by
  have hr : c.released = false := by
    rw [← Bool.not_eq_true, h.released]
    tauto
  refine ⟨hr, ?_⟩
  rw [← Bool.not_eq_true]
  intro hb
  exact Bool.false_ne_true (hr.symm.trans (h.broken hb))

theorem Ok.queued (h : Ok c) (hc : c.checkout ≠ .over) :
    c.conn = .none ∧ c.released = false ∧ c.broken = false := by
  have hn : c.conn = .none := by
    by_contra hn
    exact hc (h.checkedOut hn)
  have hr : c.released = false := by
    rw [← Bool.not_eq_true, h.released]
    tauto
  refine ⟨hn, hr, ?_⟩
  rw [← Bool.not_eq_true]
  intro hb
  exact Bool.false_ne_true (hr.symm.trans (h.broken hb))

theorem Ok.finish_free (h : Ok c) (hc : c.conn ≠ .held) (value : Option α) :
    c.finish value = ({ c with listening := false, stage := .settled value }, [outcome value]) := by
  have hr : ({ c with listening := false } : Call α).release false = ({ c with listening := false }, []) :=
    release_free _ (h.free hc)
  simp only [Call.finish, hr, List.nil_append, outcome]

theorem Ok.finish_held (h : Ok c) (hc : c.conn = .held) (value : Option α) :
    c.finish value =
      ({ c with listening := false, stage := .settled value, released := true, conn := .pooled, handler := false },
        [.release false, outcome value]) := by
  obtain ⟨hr, hb⟩ := h.held hc
  have hrel := release_reuse (c := { c with listening := false }) (by simp [hc]) hr hb
  simp only [Call.finish, hrel, List.singleton_append, outcome]

theorem Ok.fail (h : Ok c) (hs : c.stage.isSettled = false) (hw : c.conn ≠ .held → c.Waived) :
    Move c ⟨.resumes, c.fail.2⟩ c.fail.1 := by
  rw [Call.fail]
  by_cases hc : c.conn = .held
  · obtain ⟨hr, -⟩ := h.held hc
    rw [if_pos (by simp [hc, hr])]
    exact .goesOn (some .rollback) .rollingBack (Or.inl hc) hs
  · have hfree := h.free hc
    rw [if_neg (by simpa [imp_iff_not_or] using hfree), h.finish_free hc]
    exact .settled (Or.inl rfl) hs hc (hw hc)

theorem Ok.waived (h : Ok c) (hs : c.stage.hasClient = true) : c.Waived := fun hn => absurd hn (h.hasClient hs)

theorem Ok.resume {effects : List (Effect α)} (h : Ok c) (hstep : c.resume read = some (c', effects)) :
    Move c ⟨.resumes, effects⟩ c' := by
  have hfail : c.stage.isSettled = false → (c.conn ≠ .held → c.Waived) → c.fail = (c', effects) →
      Move c ⟨.resumes, effects⟩ c' := by
    intro hs hw heq
    have hmove := h.fail hs hw
    rwa [heq] at hmove
  have hfailClient : c.stage.hasClient = true → c.fail = (c', effects) → Move c ⟨.resumes, effects⟩ c' := by
    intro hs
    refine hfail ?_ fun _ => h.waived hs
    cases hstage : c.stage <;> simp_all [Stage.hasClient, Stage.isSettled]
  have hends : ∀ value, c.stage.Ended value → c.finish value = (c', effects) → Move c ⟨.resumes, effects⟩ c' := by
    intro value hend heq
    have hs : c.stage.isSettled = false ∧ c.stage.hasClient = true := by
      generalize c.stage = stage at hend
      cases hend <;> exact ⟨rfl, rfl⟩
    by_cases hc : c.conn = .held
    · rw [h.finish_held hc] at heq
      cases heq
      exact .givesBack hend hc
    · rw [h.finish_free hc] at heq
      cases heq
      exact .settled (Or.inr hend) hs.1 hc (h.waived hs.2)
  unfold Call.resume at hstep
  split at hstep
  · -- the race
    rename_i hstage
    have hs : c.stage.isSettled = false := by rw [hstage]; rfl
    split at hstep
    · cases hstep
    · rename_i hrace
      exact hfail hs (fun _ => (h.lost hrace).2) (Option.some.inj hstep)
    · rename_i hrace
      have hw : c.conn ≠ .held → c.Waived := fun _ hn => absurd hn (h.won hrace)
      split at hstep
      · exact hfail hs hw (Option.some.inj hstep)
      · split at hstep
        · exact hfail hs hw (Option.some.inj hstep)
        · rename_i hfree
          cases hstep
          have hheld : c.conn = .held := by
            by_contra hc
            have hr := h.released.mpr ⟨h.won hrace, hc⟩
            exact hfree (by simp [hr])
          exact .goesOn (some .begin) .beginning (Or.inl hheld) hs
  · rename_i hstage
    split at hstep <;> cases hstep
    · exact .goesOn (some .lock) .locking (by simp [hstage, Stage.hasClient]) (by rw [hstage]; rfl)
    · exact .goesOn none .working (by simp [hstage, Stage.hasClient]) (by rw [hstage]; rfl)
  · rename_i hstage
    cases hstep
    exact .goesOn none .working (by simp [hstage, Stage.hasClient]) (by rw [hstage]; rfl)
  · rename_i hstage
    exact hfailClient (by rw [hstage]; rfl) (Option.some.inj hstep)
  · rename_i value hstage
    have hs : c.stage.hasClient = true := by rw [hstage]; rfl
    split at hstep
    · exact hfailClient hs (Option.some.inj hstep)
    · split at hstep
      · exact hfailClient hs (Option.some.inj hstep)
      · cases hstep
        exact .goesOn (some .commit) (.committing value) (Or.inr hs) (by rw [hstage]; rfl)
  · rename_i value hstage
    exact hends (some value) (by rw [hstage]; exact .commit value) (Option.some.inj hstep)
  · rename_i hstage
    exact hfailClient (by rw [hstage]; rfl) (Option.some.inj hstep)
  · rename_i hstage
    exact hfailClient (by rw [hstage]; rfl) (Option.some.inj hstep)
  · rename_i hstage
    exact hfailClient (by rw [hstage]; rfl) (Option.some.inj hstep)
  · rename_i hstage
    exact hends none (by rw [hstage]; exact .rollback) (Option.some.inj hstep)
  · -- the ROLLBACK has failed: the client is destroyed, unless it is already
    rename_i hstage
    by_cases hc : c.conn = .held
    · rw [release_destroy _ (by simp [hc]) (h.held hc).1 (Or.inl rfl)] at hstep
      have hfree := release_free
        (c := { c with released := true, endHook := true, conn := .destroyed, listening := false }) false (Or.inr rfl)
      simp only [Call.finish, hfree, Option.some.injEq, Prod.mk.injEq] at hstep
      obtain ⟨rfl, rfl⟩ := hstep
      exact .destroys hstage hc
    · rw [release_free _ (h.free hc)] at hstep
      simp only [h.finish_free hc, Option.some.injEq, Prod.mk.injEq] at hstep
      obtain ⟨rfl, rfl⟩ := hstep
      exact .settled (Or.inl rfl) (by rw [hstage]; rfl) hc (h.waived (by rw [hstage]; rfl))
  all_goals cases hstep

theorem leased_early (he : c.expired = false) (ha : c.aborted = false) :
    c.leased =
      ({ c with checkout := .over, conn := .held, handler := true, race := c.race.or (some true) }, []) := by
  rw [Call.leased, if_neg (by simp [he, ha])]
  rfl

theorem leased_late (hr : c.released = false) (hlate : c.expired = true ∨ c.aborted = true) :
    c.leased =
      ({ c with
        checkout := .over, conn := .destroyed, handler := true, released := true, endHook := true
        race := c.race.or (some false) }, [.release true]) := by
  have hrel := release_destroy (c := { c with checkout := .over, conn := .held, handler := true }) true
    (by simp) hr (Or.inl rfl)
  rw [Call.leased, if_pos (by simpa using hlate)]
  simp only [hrel, Call.settleRace]

theorem abort_held (hl : c.listening = true) (hc : c.conn ≠ .none) (hr : c.released = false) :
    c.abort =
      ({ c with
        aborted := true, listening := false, expired := true, released := true, endHook := true
        conn := .destroyed, race := c.race.or (some false) }, [.release true]) := by
  have hrel := release_destroy (c := { c with aborted := true, listening := false, expired := true })
    true hc hr (Or.inl rfl)
  rw [Call.abort, if_pos hl]
  simp only [hrel, Call.settleRace]

theorem abort_free (hl : c.listening = true) (hc : c.conn = .none ∨ c.released = true) :
    c.abort =
      ({ c with aborted := true, listening := false, expired := true, race := c.race.or (some false) }, []) := by
  have hrel := release_free (c := { c with aborted := true, listening := false, expired := true })
    true hc
  rw [Call.abort, if_pos hl]
  simp only [hrel, Call.settleRace]

theorem step_move (h : Ok c) (hstep : Step read c e c') : Move c e c' := by
  cases hstep with
  | connects hc => exact .connects hc
  | lease hc =>
    obtain ⟨-, hr, -⟩ := h.queued (by simp [hc])
    by_cases hlate : c.expired = true ∨ c.aborted = true
    · rw [leased_late hr hlate]
      exact .late hc hlate
    · simp only [not_or, Bool.not_eq_true] at hlate
      rw [leased_early hlate.1 hlate.2]
      exact .lease hc hlate.1 hlate.2
  | refused hc => exact .refused hc
  | abort ha =>
    by_cases hl : c.listening = true
    · by_cases hc : c.conn = .held
      · rw [abort_held hl (by simp [hc]) (h.held hc).1]
        exact .abortHeld ha hc
      · rw [abort_free hl (h.free hc)]
        exact .abort ha (h.listening.mp hl).1 hc
    · rw [Call.abort, if_neg hl]
      refine .abortUnheard ?_
      rw [h.listening] at hl
      simpa [ha] using hl
  | clientError hc =>
    rw [Call.clientError, if_pos (h.handled hc)]
    rcases hc with hc | hc
    · have hrel := release_destroy (c := { c with broken := true }) true (by simp [hc]) (h.held hc).1
        (Or.inl rfl)
      rw [hrel]
      exact .errorHeld hc
    · have hrel := release_free (c := { c with broken := true }) true
        (Or.inr (h.released.mpr (by simp [hc])))
      rw [hrel]
      exact .errorDestroyed hc
  | ends hc =>
    rw [Call.ends]
    split
    · exact .ends _ _ hc
    · exact .ends _ _ hc
  | settles hq _ => exact .settles hq
  | workSends hs => exact .workSends hs
  | workSettles result hs => exact .workSettles result hs
  | resumes hr => exact h.resume hr

/-! ## What holds in every state -/

theorem awaited_stage {sql : Sql} {next : Query → Stage α} {q : Query} (h : c.awaited = some (sql, next)) :
    c.stage.isSettled = false ∧ c.stage.hasClient = true ∧ (next q).isSettled = false ∧ (next q).hasClient = true := by
  unfold Call.awaited at h
  split at h <;> cases h <;> simp_all [Stage.isSettled, Stage.hasClient]

theorem fresh_stage {stage : Stage α} (h : stage.Fresh) : stage.isSettled = false ∧ stage.hasClient = true := by
  cases h <;> exact ⟨rfl, rfl⟩

theorem Ok.settles {sql : Sql} {next : Query → Stage α} {q : Query} (h : Ok c) (hq : c.awaited = some (sql, next)) :
    Ok { c with stage := next q } := by
  obtain ⟨h1, h2, h3, h4, h5, h6, h7, h8, h9, h10, h11, h12⟩ := h
  unfold Call.Waived at h8 h9
  obtain ⟨hs, hl, hs', hl'⟩ := awaited_stage (q := q) hq
  constructor <;> dsimp only [Call.Waived] <;> grind

theorem Ok.goesOn {stage : Stage α} (h : Ok c) (hc : c.conn = .held ∨ c.stage.hasClient = true)
    (hs : c.stage.isSettled = false) (hs' : stage.isSettled = false) : Ok { c with stage } := by
  obtain ⟨h1, h2, h3, h4, h5, h6, h7, h8, h9, h10, h11, h12⟩ := h
  unfold Call.Waived at h8 h9
  constructor <;> dsimp only [Call.Waived] <;> grind

theorem Ok.ended {value : Option α} {conn : Conn} {released endHook handler : Bool} (h : Ok c)
    (hconn : conn ≠ .none ∧ conn ≠ .held ∧ c.conn = .held ∧ released = true ∧ (conn = .destroyed → handler = true) ∨
      conn = c.conn ∧ c.conn ≠ .held ∧ c.Waived ∧ released = c.released ∧ handler = c.handler) :
    Ok { c with listening := false, stage := .settled value, released, endHook, conn, handler } := by
  obtain ⟨h1, h2, h3, h4, h5, h6, h7, h8, h9, h10, h11, h12⟩ := h
  unfold Call.Waived at h8 h9 hconn
  constructor <;> dsimp only [Call.Waived] <;> grind

theorem Ok.checked {conn : Conn} {handler released endHook : Bool} {race : Option Bool} (h : Ok c)
    (hpending : c.checkout = .pending)
    (hconn : conn = .held ∧ c.expired = false ∧ c.aborted = false ∧ handler = true ∧ released = c.released ∧
        race = c.race.or (some true) ∨
      conn = .destroyed ∧ handler = true ∧ released = true ∧ race = c.race.or (some false) ∨
      conn = c.conn ∧ handler = c.handler ∧ released = c.released ∧ race = c.race.or (some false)) :
    Ok { c with checkout := .over, conn, handler, race, released, endHook } := by
  obtain ⟨h1, h2, h3, h4, h5, h6, h7, h8, h9, h10, h11, h12⟩ := h
  unfold Call.Waived at h8 h9
  constructor <;> dsimp only [Call.Waived] <;> grind [Option.or_eq_some_iff]

theorem Ok.aborts {conn : Conn} {released endHook : Bool} (h : Ok c)
    (hconn : c.conn = .held ∧ conn = .destroyed ∧ released = true ∨
      c.conn ≠ .held ∧ conn = c.conn ∧ released = c.released) :
    Ok { c with
      aborted := true, listening := false, expired := true, race := c.race.or (some false), conn, released, endHook } := by
  obtain ⟨h1, h2, h3, h4, h5, h6, h7, h8, h9, h10, h11, h12⟩ := h
  unfold Call.Waived at h8 h9
  constructor <;> dsimp only [Call.Waived] <;> grind [Option.or_eq_some_iff]

theorem Ok.breaks {conn : Conn} {broken released handler endHook : Bool} (h : Ok c) (hreleased : released = true)
    (hconn : c.conn = .held ∧ conn = .destroyed ∧ handler = c.handler ∨
      c.conn = .destroyed ∧ (conn = c.conn ∧ handler = c.handler ∨ conn = .ended)) :
    Ok { c with broken, released, endHook, conn, handler } := by
  obtain ⟨h1, h2, h3, h4, h5, h6, h7, h8, h9, h10, h11, h12⟩ := h
  unfold Call.Waived at h8 h9
  constructor <;> dsimp only [Call.Waived] <;> grind

theorem Ok.unheard (h : Ok c) (hs : c.stage.isSettled = true) : Ok { c with aborted := true } := by
  refine { h with listening := ?_, aborted := fun _ => Or.inr hs }
  rw [h.listening]
  simp [hs]

theorem Ok.connects (h : Ok c) (hq : c.checkout = .queued) : Ok { c with checkout := .pending } := by
  have hwaived : c.Waived → c.conn = .none → c.expired = true :=
    fun hw hnone => (hw hnone).resolve_left (by simp [hq])
  refine { h with
    settled := fun hs => ⟨(h.settled hs).1, fun hn => Or.inr (hwaived (h.settled hs).2 hn)⟩
    lost := fun hr => ⟨(h.lost hr).1, fun hn => Or.inr (hwaived (h.lost hr).2 hn)⟩
    checkedOut := fun hn => ?_
    undecided := fun _ _ => by simp }
  have hover := h.checkedOut hn
  rw [hq] at hover
  exact absurd hover (by simp)

theorem Ok.released_of (h : Ok c) (hconn : c.conn = .destroyed) : c.released = true :=
  h.released.mpr ⟨by simp [hconn], by simp [hconn]⟩

theorem Ok.move (h : Ok c) (hmove : Move c e c') : Ok c' := by
  cases hmove with
  | connects hq => exact h.connects hq
  | lease hp he ha => exact h.checked hp (Or.inl ⟨rfl, he, ha, rfl, rfl, rfl⟩)
  | late hp _ => exact h.checked hp (Or.inr (Or.inl ⟨rfl, rfl, rfl, rfl⟩))
  | refused hp => exact h.checked hp (Or.inr (Or.inr ⟨rfl, rfl, rfl, rfl⟩))
  | abortHeld _ hheld => exact h.aborts (Or.inl ⟨hheld, rfl, rfl⟩)
  | abort _ _ hne => exact h.aborts (Or.inr ⟨hne, rfl, rfl⟩)
  | abortUnheard hs => exact h.unheard hs
  | errorHeld hheld => exact h.breaks rfl (Or.inl ⟨hheld, rfl, rfl⟩)
  | errorDestroyed hd => exact h.breaks (h.released_of hd) (Or.inr ⟨hd, Or.inl ⟨rfl, rfl⟩⟩)
  | ends endHook handler hd => exact h.breaks (h.released_of hd) (Or.inr ⟨hd, Or.inr rfl⟩)
  | settles hq => exact h.settles hq
  | workSends hs => exact h
  | workSettles result hs => exact h.goesOn (Or.inr (by simp [hs])) (by simp [hs]) rfl
  | goesOn sql hf hc hs => exact h.goesOn hc hs (fresh_stage hf).1
  | givesBack hend hheld => exact h.ended (Or.inl ⟨by simp, by simp, hheld, rfl, by simp⟩)
  | destroys hs hheld =>
    exact h.ended (Or.inl ⟨by simp, by simp, hheld, rfl, fun _ => h.handled (Or.inl hheld)⟩)
  | settled hv hs hne hw => exact h.ended (Or.inr ⟨rfl, hne, hw, rfl, rfl⟩)

end

end Albusforge.Ask.Leases
