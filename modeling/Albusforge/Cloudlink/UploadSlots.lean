import Albusforge.Lib.Machine
import Mathlib.Data.Int.Notation

/-!
# The slots of uploads

An upload that is admitted takes a slot of its own route and one of the budget it shares with the
other routes, and four flags decide between them who gives both back: the hook, the handler, the
timer, the response and the connection all may come last. The machine lets these come in any order,
for any number of uploads at once.

**A slot is held exactly while its upload is open or has code that waits** (`Slot.Ok`), and the
counters count the slots that are held (`Inv`).
-/

namespace Albusforge.Cloudlink.Uploads

open Lib

/-! ## One upload -/

inductive Stage
  | authorizing
  | receiving
  | validating
  | reserving
  /-- the handler, for `store.create` -/
  | creating
  /-- the handler, for `store.head` -/
  | heading
  | storing
  | ended
  deriving DecidableEq

def Stage.runs : Stage → Bool
  | authorizing | reserving | creating | heading | storing => true
  | receiving | validating | ended => false

def Stage.waits : Stage → Bool
  | receiving | ended => false
  | _ => true

structure Slot where
  released : Bool
  working : Bool
  cleanupRequested : Bool
  /-- `released` of the closure that `acquire` gave -/
  sharedReleased : Bool
  /-- of its `AbortController` -/
  aborted : Bool
  timer : Bool
  /-- whether `cleanup` is still to be called for `"close"` -/
  listening : Bool
  /-- whether `contexts` has it -/
  context : Bool
  stage : Stage
  /-- how often `inflight` was decremented for it -/
  returns : ℕ
  sharedReturns : ℕ

structure Desk where
  inflight : ℤ
  active : ℤ
  slot : Slot

namespace Desk

def releaseShared (d : Desk) : Desk :=
  if d.slot.sharedReleased then d
  else { d with
    active := d.active - 1
    slot := { d.slot with sharedReleased := true, sharedReturns := d.slot.sharedReturns + 1 } }

def release (d : Desk) : Desk :=
  if d.slot.released then d
  else releaseShared { d with
    inflight := d.inflight - 1
    slot := { d.slot with released := true, returns := d.slot.returns + 1 } }

def cleanup (d : Desk) : Desk :=
  let d := { d with slot := { d.slot with timer := false, aborted := true, cleanupRequested := true } }
  if d.slot.working then d else d.release

def enter (d : Desk) : Desk := { d with slot := { d.slot with working := true } }

def leave (d : Desk) : Desk :=
  let d := { d with slot := { d.slot with working := false } }
  if d.slot.cleanupRequested then d.release else d

def goTo (d : Desk) (stage : Stage) : Desk := { d with slot := { d.slot with stage := stage } }

def hookSettled (d : Desk) (passes : Bool) : Desk :=
  if passes then leave { d with slot := { d.slot with context := true, stage := .receiving } }
  else leave (cleanup (d.goTo .ended))

/-- `finally { context.leave(); context.release(); }` -/
def finish (d : Desk) : Desk := cleanup (leave (d.goTo .ended))

/-- The handler, up to where it first waits. `valid` is whether the body passes the checks on its length
and digest. -/
def handle (d : Desk) (valid : Bool) : Desk :=
  let d := enter d
  if d.slot.aborted || !valid then finish d else d.goTo .validating

end Desk

inductive Outcome
  | goesOn
  /-- `store.create` finds an object -/
  | exists
  | stops

def Stage.next (stage : Stage) (outcome : Outcome) (aborted : Bool) : Stage :=
  match stage, outcome with
  | .validating, .goesOn => if aborted then .ended else .reserving
  | .reserving, .goesOn => if aborted then .ended else .creating
  | .creating, .goesOn => if aborted then .ended else .storing
  | .creating, .exists => .heading
  | .heading, .goesOn => if aborted then .ended else .storing
  | _, _ => .ended

def Desk.handlerSettled (d : Desk) (outcome : Outcome) : Desk :=
  match d.slot.stage.next outcome d.slot.aborted with
  | .ended => d.finish
  | stage => d.goTo stage

/-! ## All of them -/

structure Limits where
  maxInflight : ℕ
  maximum : ℕ

structure World where
  inflight : ℤ
  active : ℤ
  uploads : List Slot
  others : List Bool

inductive Event
  | arrives (admissible : Bool)
  | hookSettles (i : ℕ) (passes : Bool)
  | handled (i : ℕ) (valid : Bool)
  | bodyFails (i : ℕ)
  | handlerSettles (i : ℕ) (outcome : Outcome)
  | timerFires (i : ℕ)
  | closes (i : ℕ)
  | responded (i : ℕ)
  | otherArrives
  | otherEnds (j : ℕ)

def Slot.new : Slot where
  released := false
  working := true
  cleanupRequested := false
  sharedReleased := false
  aborted := false
  timer := true
  listening := true
  context := false
  stage := .authorizing
  returns := 0
  sharedReturns := 0

def World.arrive (limits : Limits) (w : World) (admissible : Bool) : World :=
  if w.inflight ≥ limits.maxInflight then w
  else if !admissible then w
  else if w.active ≥ limits.maximum then w
  else { w with inflight := w.inflight + 1, active := w.active + 1, uploads := w.uploads ++ [.new] }

def World.with (w : World) (i : ℕ) (d : Desk) : World :=
  { w with inflight := d.inflight, active := d.active, uploads := w.uploads.set i d.slot }

def World.desk (w : World) (slot : Slot) : Desk := ⟨w.inflight, w.active, slot⟩

def Desk.on (d : Desk) : Event → Option Desk
  | .hookSettles _ passes => if d.slot.stage = .authorizing then some (d.hookSettled passes) else none
  | .handled _ valid => if d.slot.stage = .receiving then some (d.handle valid) else none
  | .bodyFails _ => if d.slot.stage = .receiving then some (d.goTo .ended) else none
  | .handlerSettles _ outcome =>
    if d.slot.stage.waits && d.slot.stage ≠ .authorizing then some (d.handlerSettled outcome) else none
  | .timerFires _ =>
    if d.slot.timer then some { d with slot := { d.slot with timer := false, aborted := true } } else none
  | .closes _ =>
    if d.slot.listening then some (Desk.cleanup { d with slot := { d.slot with listening := false } }) else none
  | .responded _ => some (if d.slot.context then d.cleanup else d)
  | _ => none

def Event.upload? : Event → Option ℕ
  | hookSettles i _ | handled i _ | bodyFails i | handlerSettles i _ | timerFires i | closes i | responded i => some i
  | _ => none

inductive Step (limits : Limits) (w : World) : Event → World → Prop
  | arrives (admissible : Bool) : Step limits w (.arrives admissible) (w.arrive limits admissible)
  | upload {e : Event} {i : ℕ} {slot : Slot} {d : Desk} : e.upload? = some i → w.uploads[i]? = some slot →
      (w.desk slot).on e = some d → Step limits w e (w.with i d)
  | otherArrives : w.active < limits.maximum →
      Step limits w .otherArrives { w with active := w.active + 1, others := w.others ++ [false] }
  | otherEnds {j : ℕ} : w.others[j]? = some false →
      Step limits w (.otherEnds j) { w with active := w.active - 1, others := w.others.set j true }

def slots (limits : Limits) : Machine World Event where
  init w := w = ⟨0, 0, [], []⟩
  step := Step limits

/-! ## What one upload keeps -/

/-- The counters have this upload beside what is held otherwise, and know how often it gave back. -/
structure Desk.Fits (n m : ℤ) (d : Desk) : Prop where
  inflight : d.inflight = n + if d.slot.released then 0 else 1
  active : d.active = m + if d.slot.released then 0 else 1
  shared : d.slot.sharedReleased = d.slot.released
  returns : d.slot.returns = d.slot.released.toNat
  sharedReturns : d.slot.sharedReturns = d.slot.released.toNat

structure Slot.Loose (s : Slot) : Prop where
  released : s.released = true → s.cleanupRequested = true
  aborted : s.cleanupRequested = true → s.aborted = true
  listening : s.listening = false → s.cleanupRequested = true

/-- **A slot is held while its upload has code that waits, and no longer than that once the upload is
cleaned up.** -/
structure Slot.Ok (s : Slot) : Prop where
  loose : s.Loose
  working : s.working = s.stage.waits
  held : s.working = true → s.released = false
  given : s.cleanupRequested = true → s.working = false → s.released = true

namespace Desk

variable {n m : ℤ} {d : Desk}

theorem Fits.release (h : d.Fits n m) : d.release.Fits n m := by
  obtain ⟨hinflight, hactive, hshared, hreturns, hsharedReturns⟩ := h
  unfold Desk.release
  split
  · exact ⟨hinflight, hactive, hshared, hreturns, hsharedReturns⟩
  · rename_i hheld
    rw [Bool.not_eq_true] at hheld
    rw [hheld] at hinflight hactive hshared hreturns hsharedReturns
    simp only [releaseShared, hshared, Bool.false_eq_true, if_false]
    exact ⟨by simp [hinflight], by simp [hactive], rfl, by simp [hreturns], by simp [hsharedReturns]⟩

theorem release_slot (h : d.Fits n m) :
    d.release.slot = { d.slot with
      released := true, sharedReleased := true
      returns := d.release.slot.returns, sharedReturns := d.release.slot.sharedReturns } := by
  have hshared := h.shared
  unfold Desk.release
  split
  · rename_i hreleased
    rw [hreleased] at hshared
    cases hslot : d.slot
    rw [hslot] at hreleased hshared
    simp only at hreleased hshared
    rw [hreleased, hshared]
  · rename_i hheld
    rw [Bool.not_eq_true] at hheld
    simp [releaseShared, hshared, hheld]

theorem Fits.congr (h : d.Fits n m) {s : Slot} (hreleased : s.released = d.slot.released)
    (hshared : s.sharedReleased = d.slot.sharedReleased) (hreturns : s.returns = d.slot.returns)
    (hsharedReturns : s.sharedReturns = d.slot.sharedReturns) : Fits n m { d with slot := s } where
  inflight := by rw [hreleased]; exact h.inflight
  active := by rw [hreleased]; exact h.active
  shared := by rw [hreleased, hshared]; exact h.shared
  returns := by rw [hreleased, hreturns]; exact h.returns
  sharedReturns := by rw [hreleased, hsharedReturns]; exact h.sharedReturns

theorem cleanup_ok (h : d.Fits n m) (hworking : d.slot.working = d.slot.stage.waits)
    (hheld : d.slot.working = true → d.slot.released = false) :
    d.cleanup.Fits n m ∧ d.cleanup.slot.Ok := by
  have hflags := h.congr (s := { d.slot with timer := false, aborted := true, cleanupRequested := true }) rfl rfl rfl rfl
  unfold cleanup
  dsimp only
  split
  · rename_i hbusy
    exact ⟨hflags, ⟨⟨fun _ => rfl, fun _ => rfl, fun _ => rfl⟩, hworking, hheld,
      fun _ hidle => absurd (hbusy.symm.trans hidle) (by simp)⟩⟩
  · rename_i hidle
    refine ⟨hflags.release, ?_⟩
    rw [release_slot hflags]
    exact ⟨⟨fun _ => rfl, fun _ => rfl, fun _ => rfl⟩, hworking, fun hbusy => absurd hbusy hidle, fun _ _ => rfl⟩

theorem cleanup_working (h : d.Fits n m) (hworking : d.slot.working = true) :
    d.cleanup.Fits n m ∧ d.cleanup.slot.Loose ∧ d.cleanup.slot.stage = d.slot.stage := by
  unfold cleanup
  dsimp only
  rw [if_pos hworking]
  exact ⟨h.congr rfl rfl rfl rfl, ⟨fun _ => rfl, fun _ => rfl, fun _ => rfl⟩, rfl⟩

theorem leave_ok (h : d.Fits n m) (hloose : d.slot.Loose) (hidle : d.slot.stage.waits = false) :
    d.leave.Fits n m ∧ d.leave.slot.Ok := by
  have hflags := h.congr (s := { d.slot with working := false }) rfl rfl rfl rfl
  unfold leave
  dsimp only
  split
  · rename_i hasked
    refine ⟨hflags.release, ?_⟩
    rw [release_slot hflags]
    exact ⟨⟨fun _ => hasked, hloose.aborted, hloose.listening⟩, hidle.symm, nofun, fun _ _ => rfl⟩
  · rename_i hopen
    exact ⟨hflags, ⟨⟨hloose.released, hloose.aborted, hloose.listening⟩, hidle.symm, nofun,
      fun hasked => absurd hasked hopen⟩⟩

theorem finish_ok (h : d.Fits n m) (hloose : d.slot.Loose) : d.finish.Fits n m ∧ d.finish.slot.Ok := by
  obtain ⟨hfits, hok⟩ := leave_ok (d := d.goTo .ended) (h.congr rfl rfl rfl rfl)
    ⟨hloose.released, hloose.aborted, hloose.listening⟩ rfl
  exact cleanup_ok hfits hok.working hok.held

theorem hookSettled_ok (h : d.Fits n m) (hok : d.slot.Ok) (hstage : d.slot.stage = .authorizing) (passes : Bool) :
    (d.hookSettled passes).Fits n m ∧ (d.hookSettled passes).slot.Ok := by
  have hloose := hok.loose
  cases passes with
  | true =>
    exact leave_ok (d := { d with slot := { d.slot with context := true, stage := .receiving } })
      (h.congr rfl rfl rfl rfl) ⟨hloose.released, hloose.aborted, hloose.listening⟩ rfl
  | false =>
    have hworking : d.slot.working = true := by rw [hok.working, hstage]; rfl
    obtain ⟨hfits, hloose, hended⟩ := cleanup_working (d := d.goTo .ended) (h.congr rfl rfl rfl rfl) hworking
    exact leave_ok hfits hloose (by rw [hended]; rfl)

theorem handle_ok (h : d.Fits n m) (hok : d.slot.Ok) (valid : Bool) :
    (d.handle valid).Fits n m ∧ (d.handle valid).slot.Ok := by
  have hloose := hok.loose
  have henter : d.enter.Fits n m := h.congr rfl rfl rfl rfl
  unfold handle
  dsimp only
  split
  · exact finish_ok henter ⟨hloose.released, hloose.aborted, hloose.listening⟩
  · rename_i hgoes
    have hopen : d.slot.aborted = false := by
      rw [Bool.not_eq_true, Bool.or_eq_false_iff] at hgoes
      exact hgoes.1
    refine ⟨henter.congr rfl rfl rfl rfl, ⟨⟨hloose.released, hloose.aborted, hloose.listening⟩, rfl, fun _ => ?_, nofun⟩⟩
    by_contra hreleased
    have haborted := hloose.aborted (hloose.released (Bool.of_not_eq_false hreleased))
    exact absurd (hopen.symm.trans haborted) (by simp)

theorem next_waits {stage : Stage} {outcome : Outcome} {aborted : Bool} (h : stage.next outcome aborted ≠ .ended) :
    (stage.next outcome aborted).waits = true := by
  cases stage <;> cases outcome <;> cases aborted <;> simp_all [Stage.next, Stage.waits]

theorem handlerSettled_ok (h : d.Fits n m) (hok : d.slot.Ok) (hwaits : d.slot.stage.waits = true) (outcome : Outcome) :
    (d.handlerSettled outcome).Fits n m ∧ (d.handlerSettled outcome).slot.Ok := by
  have hloose := hok.loose
  have hworking : d.slot.working = true := hok.working.trans hwaits
  unfold handlerSettled
  split
  · exact finish_ok h hloose
  · rename_i stage hended
    have hnext : (d.slot.stage.next outcome d.slot.aborted).waits = true := next_waits hended
    exact ⟨h.congr rfl rfl rfl rfl, ⟨⟨hloose.released, hloose.aborted, hloose.listening⟩, hworking.trans hnext.symm,
      hok.held, fun _ hidle => absurd (hworking.symm.trans hidle) (by simp)⟩⟩

/-- **Whatever happens to an upload**, the counters and its flags stay right. -/
theorem on_ok {e : Event} {d' : Desk} (h : d.Fits n m) (hok : d.slot.Ok) (he : d.on e = some d') :
    d'.Fits n m ∧ d'.slot.Ok := by
  have hloose := hok.loose
  cases e with
  | hookSettles i passes =>
    simp only [on, Option.ite_none_right_eq_some, Option.some.injEq] at he
    exact he.2 ▸ hookSettled_ok h hok he.1 passes
  | handled i valid =>
    simp only [on, Option.ite_none_right_eq_some, Option.some.injEq] at he
    exact he.2 ▸ handle_ok h hok valid
  | bodyFails i =>
    simp only [on, Option.ite_none_right_eq_some, Option.some.injEq] at he
    obtain ⟨hstage, rfl⟩ := he
    have hidle : d.slot.working = false := by rw [hok.working, hstage]; rfl
    exact ⟨h.congr rfl rfl rfl rfl, ⟨⟨hloose.released, hloose.aborted, hloose.listening⟩, hidle, hok.held, hok.given⟩⟩
  | handlerSettles i outcome =>
    simp only [on, Option.ite_none_right_eq_some, Option.some.injEq, Bool.and_eq_true] at he
    exact he.2 ▸ handlerSettled_ok h hok he.1.1 outcome
  | timerFires i =>
    simp only [on, Option.ite_none_right_eq_some, Option.some.injEq] at he
    obtain ⟨_, rfl⟩ := he
    exact ⟨h.congr rfl rfl rfl rfl, ⟨⟨hloose.released, fun _ => rfl, hloose.listening⟩, hok.working, hok.held, hok.given⟩⟩
  | closes i =>
    simp only [on, Option.ite_none_right_eq_some, Option.some.injEq] at he
    obtain ⟨_, rfl⟩ := he
    exact cleanup_ok (d := { d with slot := { d.slot with listening := false } }) (h.congr rfl rfl rfl rfl)
      hok.working hok.held
  | responded i =>
    simp only [on, Option.some.injEq] at he
    split at he
    · exact he ▸ cleanup_ok h hok.working hok.held
    · exact he ▸ ⟨h, hok⟩
  | arrives admissible => cases he
  | otherArrives => cases he
  | otherEnds j => cases he

theorem release_gone (h : d.slot.released = true) : d.release.slot.released = true := by
  rw [release, if_pos h, h]

theorem cleanup_gone (h : d.slot.released = true) : d.cleanup.slot.released = true := by
  unfold cleanup
  dsimp only
  split
  · exact h
  · exact release_gone h

theorem leave_gone (h : d.slot.released = true) : d.leave.slot.released = true := by
  unfold leave
  dsimp only
  split
  · exact release_gone h
  · exact h

theorem on_gone {e : Event} {d' : Desk} (h : d.slot.released = true) (he : d.on e = some d') :
    d'.slot.released = true := by
  cases e with
  | hookSettles i passes =>
    simp only [on, Option.ite_none_right_eq_some, Option.some.injEq] at he
    obtain ⟨_, rfl⟩ := he
    cases passes with
    | true => exact leave_gone h
    | false => exact leave_gone (cleanup_gone h)
  | handled i valid =>
    simp only [on, Option.ite_none_right_eq_some, Option.some.injEq] at he
    obtain ⟨_, rfl⟩ := he
    unfold handle
    dsimp only
    split
    · exact cleanup_gone (leave_gone h)
    · exact h
  | bodyFails i =>
    simp only [on, Option.ite_none_right_eq_some, Option.some.injEq] at he
    exact he.2 ▸ h
  | handlerSettles i outcome =>
    simp only [on, Option.ite_none_right_eq_some, Option.some.injEq] at he
    obtain ⟨_, rfl⟩ := he
    unfold handlerSettled
    split
    · exact cleanup_gone (leave_gone h)
    · exact h
  | timerFires i =>
    simp only [on, Option.ite_none_right_eq_some, Option.some.injEq] at he
    exact he.2 ▸ h
  | closes i =>
    simp only [on, Option.ite_none_right_eq_some, Option.some.injEq] at he
    obtain ⟨_, rfl⟩ := he
    exact cleanup_gone h
  | responded i =>
    simp only [on, Option.some.injEq] at he
    split at he
    · exact he ▸ cleanup_gone h
    · exact he ▸ h
  | arrives admissible => cases he
  | otherArrives => cases he
  | otherEnds j => cases he

end Desk

/-! ## What the counters count -/

def held (uploads : List Slot) : ℕ := uploads.countP fun s => !s.released

def otherHeld (others : List Bool) : ℕ := others.countP fun released => !released

structure Inv (limits : Limits) (w : World) : Prop where
  inflight : w.inflight = held w.uploads
  active : w.active = held w.uploads + otherHeld w.others
  inflightLimit : w.inflight ≤ limits.maxInflight
  activeLimit : w.active ≤ limits.maximum
  uploads : ∀ s ∈ w.uploads, s.Ok ∧ s.sharedReleased = s.released ∧ s.returns = s.released.toNat ∧
    s.sharedReturns = s.released.toNat

theorem countP_replaced {α : Type} {p : α → Bool} {l : List α} {i : ℕ} {a b : α} (h : l[i]? = some a) :
    (l.set i b).countP p + (if p a then 1 else 0) = l.countP p + if p b then 1 else 0 := by
  obtain ⟨hlt, ha⟩ := List.getElem?_eq_some_iff.mp h
  have hpos : p a = true → 0 < l.countP p := fun hp => List.countP_pos_iff.mpr ⟨a, List.mem_of_getElem? h, hp⟩
  rw [List.countP_set hlt, ha]
  by_cases hp : p a = true
  · have hpos := hpos hp
    rw [if_pos hp]
    omega
  · rw [if_neg hp]
    omega

theorem held_set {uploads : List Slot} {i : ℕ} {s s' : Slot} (h : uploads[i]? = some s) :
    (held (uploads.set i s') : ℤ) + (if s.released then 0 else 1) =
      held uploads + if s'.released then 0 else 1 := by
  have hset : held (uploads.set i s') + _ = held uploads + _ := countP_replaced h
  cases hold : s.released <;> cases hnew : s'.released <;> simp [hold, hnew] at hset ⊢ <;> omega

theorem inv_init (limits : Limits) : Inv limits ⟨0, 0, [], []⟩ where
  inflight := rfl
  active := rfl
  inflightLimit := Int.natCast_nonneg _
  activeLimit := Int.natCast_nonneg _
  uploads := nofun

theorem Inv.arrive {limits : Limits} {w : World} (h : Inv limits w) (admissible : Bool) :
    Inv limits (w.arrive limits admissible) := by
  unfold World.arrive
  split
  · exact h
  · rename_i hinflight
    split
    · exact h
    · split
      · exact h
      · rename_i hactive
        have hheld : held (w.uploads ++ [Slot.new]) = held w.uploads + 1 := List.countP_append
        refine ⟨?_, ?_, by simp only; omega, by simp only; omega, ?_⟩
        · have hcount := h.inflight
          simp only [hheld]
          omega
        · have hcount := h.active
          simp only [hheld]
          omega
        · intro s hs
          rcases List.mem_append.mp hs with hs | hs
          · exact h.uploads s hs
          · obtain rfl := List.mem_singleton.mp hs
            exact ⟨⟨⟨nofun, nofun, nofun⟩, rfl, fun _ => rfl, nofun⟩, rfl, rfl, rfl⟩

theorem Inv.upload {limits : Limits} {w : World} (h : Inv limits w) {e : Event} {i : ℕ} {s : Slot} {d : Desk}
    (hs : w.uploads[i]? = some s) (he : (w.desk s).on e = some d) : Inv limits (w.with i d) := by
  obtain ⟨hok, hshared, hreturns, hsharedReturns⟩ := h.uploads s (List.mem_of_getElem? hs)
  have hfits : (w.desk s).Fits (w.inflight - if s.released then 0 else 1) (w.active - if s.released then 0 else 1) :=
    ⟨(Int.sub_add_cancel _ _).symm, (Int.sub_add_cancel _ _).symm, hshared, hreturns, hsharedReturns⟩
  obtain ⟨hfits', hok'⟩ := Desk.on_ok hfits hok he
  have hgone : s.released = true → (w.desk s).on e = some d → d.slot.released = true :=
    fun hold hon => Desk.on_gone (show (w.desk s).slot.released = true from hold) hon
  have hset : (held (w.uploads.set i d.slot) : ℤ) + _ = held w.uploads + _ := held_set hs
  have hinflight := hfits'.inflight
  have hactive := hfits'.active
  -- nothing is taken here, so that no limit is passed
  have hle : (if d.slot.released then (0 : ℤ) else 1) ≤ if s.released then 0 else 1 := by
    by_cases hold : s.released = true
    · have hnew := hgone hold he
      simp [hnew, hold]
    · rw [if_neg hold]
      split <;> omega
  have hfirst := h.inflight
  have hsecond := h.active
  refine ⟨?_, ?_, ?_, ?_, ?_⟩
  · simp only [World.with]
    omega
  · simp only [World.with]
    omega
  · have hlimit := h.inflightLimit
    simp only [World.with]
    omega
  · have hlimit := h.activeLimit
    simp only [World.with]
    omega
  · intro s' hs'
    rcases List.mem_or_eq_of_mem_set hs' with hs' | rfl
    · exact h.uploads s' hs'
    · exact ⟨hok', hfits'.shared, hfits'.returns, hfits'.sharedReturns⟩

theorem inv_step {limits : Limits} {w w' : World} {e : Event} (h : Inv limits w) (hs : (slots limits).step w e w') :
    Inv limits w' := by
  cases hs with
  | arrives admissible => exact h.arrive admissible
  | upload _ hslot he => exact h.upload hslot he
  | otherArrives hlt =>
    have hother : otherHeld (w.others ++ [false]) = otherHeld w.others + 1 := List.countP_append
    have hactive := h.active
    refine ⟨h.inflight, ?_, h.inflightLimit, ?_, h.uploads⟩
    · simp only [hother]
      omega
    · simp only
      omega
  | @otherEnds j hj =>
    have hother : otherHeld (w.others.set j true) + 1 = otherHeld w.others := by
      have hset : otherHeld (w.others.set j true) + _ = otherHeld w.others + _ := countP_replaced hj
      simpa using hset
    have hactive := h.active
    have hlimit := h.activeLimit
    refine ⟨h.inflight, ?_, h.inflightLimit, ?_, h.uploads⟩
    · simp only
      omega
    · simp only
      omega

theorem inv_run {limits : Limits} {es : List Event} {w : World} (h : (slots limits).Run es w) : Inv limits w := by
  refine Machine.RunWhere.invariant (I := fun _ w => Inv limits w) ?_ (fun _ _ _ _ hI hs _ => inv_step hI hs) h
  intro w hinit
  obtain rfl : w = ⟨0, 0, [], []⟩ := hinit
  exact inv_init limits

def Slot.Over (s : Slot) : Prop := s.listening = false ∧ s.stage.waits = false

theorem Slot.Ok.over {s : Slot} (h : s.Ok) (hover : s.Over) : s.released = true :=
  h.given (h.loose.listening hover.1) (h.working.trans hover.2)

theorem Slot.Ok.runs {s : Slot} (h : s.Ok) (hruns : s.stage.runs = true) : s.released = false := by
  refine h.held (h.working.trans ?_)
  cases hstage : s.stage <;> rw [hstage] at hruns <;> first | rfl | cases hruns

/-- **Slots are given back exactly once.** However admissions, bodies, timers, disconnects, responses and
the code of the uploads come one after the other: no upload gives back a slot twice, or while one of
its transactions or operations runs; each has given back both of its slots once it is over, so that the
counters are then at zero but for other routes; and they are never negative nor above their limits. -/
theorem slots_released_once {limits : Limits} {es : List Event} {w : World} (h : (slots limits).Run es w) :
    (∀ s ∈ w.uploads, s.returns ≤ 1 ∧ s.sharedReturns = s.returns ∧ (s.stage.runs = true → s.returns = 0) ∧
      (s.Over → s.returns = 1)) ∧
    w.inflight = w.uploads.countP (fun s => s.returns = 0) ∧
    w.active = w.uploads.countP (fun s => s.sharedReturns = 0) + w.others.countP (fun given => !given) ∧
    ((∀ s ∈ w.uploads, s.Over) → w.inflight = 0 ∧ w.active = w.others.countP fun given => !given) ∧
    0 ≤ w.inflight ∧ w.inflight ≤ limits.maxInflight ∧ 0 ≤ w.active ∧ w.active ≤ limits.maximum := by
  have hI := inv_run h
  have hinflight := hI.inflight
  have hactive := hI.active
  have hcount : ∀ f : Slot → ℕ, (∀ s ∈ w.uploads, f s = s.released.toNat) →
      w.uploads.countP (fun s => f s = 0) = held w.uploads := by
    intro f hf
    refine List.countP_congr fun s hs => ?_
    rw [hf s hs]
    cases s.released <;> simp
  refine ⟨fun s hs => ?_, ?_, ?_, fun hover => ?_, ?_, hI.inflightLimit, ?_, hI.activeLimit⟩
  · obtain ⟨hok, _, hreturns, hsharedReturns⟩ := hI.uploads s hs
    rw [hreturns, hsharedReturns]
    exact ⟨Bool.toNat_le _, rfl, fun hruns => by rw [hok.runs hruns]; rfl, fun hover => by rw [hok.over hover]; rfl⟩
  · rw [hinflight, hcount Slot.returns fun s hs => (hI.uploads s hs).2.2.1]
  · rw [hactive, hcount Slot.sharedReturns fun s hs => (hI.uploads s hs).2.2.2]
    rfl
  · have hnone : held w.uploads = 0 := by
      refine List.countP_eq_zero.mpr fun s hs => ?_
      rw [(hI.uploads s hs).1.over (hover s hs)]
      simp
    rw [hnone] at hinflight hactive
    exact ⟨hinflight, hactive.trans (Int.zero_add _)⟩
  · omega
  · omega

def Slot.gone : Slot where
  released := true
  working := false
  cleanupRequested := true
  sharedReleased := true
  aborted := true
  timer := false
  listening := false
  context := true
  stage := .receiving
  returns := 1
  sharedReturns := 1

theorem gone_run : ∃ es, (slots ⟨4, 8⟩).Run es ⟨0, 0, [.gone], []⟩ := by
  let passed : Slot := { Slot.new with working := false, context := true, stage := .receiving }
  have hinit : (slots ⟨4, 8⟩).Run [] ⟨0, 0, [], []⟩ := .init rfl
  have harrives : (slots ⟨4, 8⟩).Run [.arrives true] ⟨1, 1, [.new], []⟩ := .step hinit (Step.arrives true) trivial
  have hpasses : (slots ⟨4, 8⟩).Run [.arrives true, .hookSettles 0 true] ⟨1, 1, [passed], []⟩ :=
    .step harrives (Step.upload (i := 0) (d := ⟨1, 1, passed⟩) rfl rfl rfl) trivial
  have hcloses : (slots ⟨4, 8⟩).step ⟨1, 1, [passed], []⟩ (.closes 0) ⟨0, 0, [.gone], []⟩ :=
    Step.upload (i := 0) (d := ⟨0, 0, .gone⟩) rfl rfl rfl
  exact ⟨_, .step hpasses hcloses trivial⟩

theorem slots_released_once_gone : Slot.gone.Over ∧ Slot.gone.returns = 1 :=
  have ⟨_, hrun⟩ := gone_run
  ⟨⟨rfl, rfl⟩, ((slots_released_once hrun).1 Slot.gone List.mem_cons_self).2.2.2 ⟨rfl, rfl⟩⟩

end Albusforge.Cloudlink.Uploads
