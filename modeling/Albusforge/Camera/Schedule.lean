import Mathlib.Data.Int.ModEq
import Mathlib.Order.Bounds.Basic
import Mathlib.Tactic.Ring
import Albusforge.Lib.CInt
import Albusforge.Lib.Machine

/-!
# The schedule of captures

`obs_next_deadline` of `src/firmware/esp32s3-camera/main/observation_policy.c`, and the loop of
`capture_task` that asks it for its next deadline. Deadlines are a whole number of intervals apart, and
what lies from one to the next is a slot. **A wake-up is due if, and only if, it is the first of its
slot** (`capture_schedule`), however late it comes: a stall costs the slots that it covers, and moves no
later deadline.
-/

namespace Albusforge.Camera.Schedule

open Lib

/-- `OBS_INTERVAL_US` -/
def obsInterval : ℤ := 900000000

def obsNextDeadline (previous now : CInt 64) : CInt 64 :=
  if now.exact < previous.exact then previous
  else previous + ((now - previous) / .int64 obsInterval + 1) * .int64 obsInterval

def slotOf (first t : ℤ) : ℤ := (t - first) / obsInterval

/-! ## One deadline -/

theorem nextDeadline_exact {previous now : CInt 64} (h : previous.exact ≤ now.exact) :
    (obsNextDeadline previous now).exact =
      previous.exact + (slotOf previous.exact now.exact + 1) * obsInterval := by
  have hdiv : (now.exact - previous.exact).tdiv obsInterval = slotOf previous.exact now.exact :=
    Int.tdiv_eq_ediv_of_nonneg (by omega)
  rw [obsNextDeadline, if_neg (by omega), ← hdiv]
  rfl

theorem slotOf_bounds (first t : ℤ) :
    first + slotOf first t * obsInterval ≤ t ∧ t < first + (slotOf first t + 1) * obsInterval := by
  simp only [slotOf, obsInterval]
  omega

/-- **No operation overflows** while there is room for one more interval. -/
theorem nextDeadline_defined {previous now : CInt 64} (hp : previous.defined = true) (hn : now.defined = true)
    (hle : previous.exact ≤ now.exact) (hroom : now.exact - previous.exact + obsInterval < 2 ^ 63)
    (hlast : now.exact + obsInterval < 2 ^ 63) : (obsNextDeadline previous now).defined = true := by
  have hdiv : (now.exact - previous.exact).tdiv obsInterval = slotOf previous.exact now.exact :=
    Int.tdiv_eq_ediv_of_nonneg (by omega)
  have hbounds := slotOf_bounds previous.exact now.exact
  have hslot : 0 ≤ slotOf previous.exact now.exact := Int.ediv_nonneg (by omega) (by decide)
  have hfits := fits_64.mp (previous.fits hp)
  have hinterval : (CInt.int64 obsInterval).defined = true := by decide
  have hone : (1 : CInt 64).defined = true := by decide
  unfold obsInterval at hroom hlast hbounds
  have hsub : (now - previous).defined = true :=
    (CInt.sub_defined now previous).mpr ⟨⟨hn, hp⟩, fits_64.mpr ⟨by omega, by omega⟩⟩
  have hquotient : ((now - previous) / .int64 obsInterval).defined = true := by
    refine (CInt.div_defined _ _).mpr ⟨⟨⟨hsub, hinterval⟩, by decide⟩, ?_⟩
    rw [CInt.sub_exact, CInt.val_exact, hdiv, fits_64]
    omega
  have hnext : ((now - previous) / .int64 obsInterval + 1).defined = true := by
    refine (CInt.add_defined _ _).mpr ⟨⟨hquotient, hone⟩, ?_⟩
    rw [CInt.div_exact, CInt.sub_exact, CInt.val_exact, hdiv, CInt.ofNat_exact, fits_64]
    omega
  have hspan : (((now - previous) / .int64 obsInterval + 1) * .int64 obsInterval).defined = true := by
    refine (CInt.mul_defined _ _).mpr ⟨⟨hnext, hinterval⟩, ?_⟩
    rw [CInt.add_exact, CInt.div_exact, CInt.sub_exact, CInt.val_exact, hdiv, CInt.ofNat_exact, fits_64,
      obsInterval]
    omega
  rw [obsNextDeadline, if_neg (by omega)]
  refine (CInt.add_defined _ _).mpr ⟨⟨hp, hspan⟩, ?_⟩
  rw [CInt.mul_exact, CInt.add_exact, CInt.div_exact, CInt.sub_exact, CInt.val_exact, hdiv,
    CInt.ofNat_exact, fits_64, obsInterval]
  omega

theorem nextDeadline_least {previous now : CInt 64} (h : previous.exact ≤ now.exact) :
    IsLeast {t | now.exact < t ∧ t ≡ previous.exact [ZMOD obsInterval]} (obsNextDeadline previous now).exact := by
  obtain ⟨hlow, hhigh⟩ := slotOf_bounds previous.exact now.exact
  rw [nextDeadline_exact h]
  constructor
  · refine ⟨hhigh, ?_⟩
    exact Int.modEq_iff_add_fac.mpr ⟨-(slotOf previous.exact now.exact + 1), by ring⟩
  · rintro t ⟨hafter, hmod⟩
    -- a moment that is `k` intervals on comes after now only if `k` is more than the slot of now
    obtain ⟨k, rfl⟩ := Int.modEq_iff_add_fac.mp hmod.symm
    have hslot : slotOf previous.exact now.exact < k := by
      simp only [slotOf, obsInterval] at *
      omega
    simp only [obsInterval]
    omega

/-! ## The capture task -/

/-- What `capture_task` finds when it wakes up. -/
structure WakeUp where
  /-- `esp_timer_get_time()`, in microseconds since the board started -/
  mono : ℤ
  storageReady : Bool
  authPaused : Bool
  /-- `time(NULL)` -/
  captured : ℤ
  /-- whether `jpeg` gives a picture -/
  jpeg : Bool

inductive Outcome
  | delayed
  | withheld
  | unset
  | failed
  | captured
  deriving DecidableEq

/-- One round of the loop of `capture_task`, up to the picture. -/
def captureRound (next : CInt 64) (w : WakeUp) : CInt 64 × Outcome :=
  if w.mono < next.exact then (next, .delayed)
  else
    let next := obsNextDeadline next (.int64 w.mono)
    if !w.storageReady || w.authPaused then (next, .withheld)
    else if w.captured < 1700000000 then (next, .unset)
    else if !w.jpeg then (next, .failed)
    else (next, .captured)

def firstDeadline (start : ℤ) (random : ℕ) : CInt 64 := .int64 start + .int64 (random % 15001) * .int64 1000

structure Round where
  wake : WakeUp
  outcome : Outcome

def captureTask (start : ℤ) (random : ℕ) : Machine (CInt 64) Round where
  init next := next = firstDeadline start random
  step next r next' := captureRound next r.wake = (next', r.outcome)

def Clocked (start : ℤ) (rs : List Round) (_ : CInt 64) (r : Round) : Prop :=
  start ≤ r.wake.mono ∧ (∀ r' ∈ rs, r'.wake.mono ≤ r.wake.mono) ∧ r.wake.mono < 2 ^ 62

def Round.Due (r : Round) : Prop := r.outcome ≠ .delayed

theorem captureRound_early {next : CInt 64} {w : WakeUp} (h : w.mono < next.exact) :
    captureRound next w = (next, .delayed) := if_pos h

theorem captureRound_due {next : CInt 64} {w : WakeUp} (h : next.exact ≤ w.mono) :
    (captureRound next w).1 = obsNextDeadline next (.int64 w.mono) ∧ (captureRound next w).2 ≠ .delayed := by
  rw [captureRound, if_neg (by omega)]
  dsimp only
  split
  · exact ⟨rfl, by simp⟩
  · split
    · exact ⟨rfl, by simp⟩
    · split <;> exact ⟨rfl, by simp⟩

/-! ## What holds over a run -/

def FirstOfSlot (first : ℤ) (before : List Round) (r : Round) : Prop :=
  first ≤ r.wake.mono ∧ ∀ r' ∈ before, slotOf first r'.wake.mono ≠ slotOf first r.wake.mono

structure Inv (first : ℤ) (rs : List Round) (next : CInt 64) : Prop where
  defined : next.defined = true
  aligned : ∃ k, 0 ≤ k ∧ next.exact = first + k * obsInterval
  near : next.exact ≤ 2 ^ 62 + obsInterval
  ordered : rs.Pairwise fun r r' => r.wake.mono ≤ r'.wake.mono
  passed : ∀ r ∈ rs, r.wake.mono < next.exact
  latest : next.exact = first ∨ ∃ r ∈ rs, next.exact ≤ r.wake.mono + obsInterval
  firsts : ∀ before r after, rs = before ++ r :: after → (r.Due ↔ FirstOfSlot first before r)

section

variable {start first : ℤ} {random : ℕ} {rs : List Round} {next : CInt 64} {r : Round}

theorem Inv.due_iff (h : Inv first rs next) (hmono : ∀ r' ∈ rs, r'.wake.mono ≤ r.wake.mono) :
    next.exact ≤ r.wake.mono ↔ FirstOfSlot first rs r := by
  obtain ⟨k, hk, hnext⟩ := h.aligned
  simp only [obsInterval] at hnext
  constructor
  · intro hdue
    refine ⟨by omega, ?_⟩
    intro r' hr' hsame
    -- the deadline begins a slot, and lies between the two
    have hpassed := h.passed r' hr'
    simp only [slotOf, obsInterval] at hsame
    omega
  · rintro ⟨hfirst, hother⟩
    rcases h.latest with heq | ⟨r', hr', hlatest⟩
    · omega
    · have hslots := hother r' hr'
      have hle := hmono r' hr'
      have hpassed := h.passed r' hr'
      simp only [slotOf, obsInterval] at hslots hlatest
      omega

theorem Inv.init (hstart : 0 ≤ start) (hlow : start < 2 ^ 62) :
    Inv (firstDeadline start random).exact [] (firstDeadline start random) where
  defined := by
    have hmod := Nat.mod_lt random (show 15001 > 0 by decide)
    refine (CInt.add_defined _ _).mpr ⟨⟨(CInt.val_defined _).mpr ?_, (CInt.mul_defined _ _).mpr
      ⟨⟨(CInt.val_defined _).mpr ?_, by decide⟩, ?_⟩⟩, ?_⟩ <;>
    simp only [CInt.val_exact, CInt.mul_exact, fits_64] <;> omega
  aligned := ⟨0, le_rfl, by omega⟩
  near := by
    have hmod := Nat.mod_lt random (show 15001 > 0 by decide)
    simp only [firstDeadline, CInt.add_exact, CInt.mul_exact, CInt.val_exact, obsInterval]
    omega
  ordered := .nil
  passed := by simp
  latest := Or.inl rfl
  firsts := by simp

theorem snoc_cases {before after : List Round} {r' : Round} (h : rs ++ [r] = before ++ r' :: after) :
    (rs = before ∧ r = r') ∨ ∃ after', rs = before ++ r' :: after' := by
  rcases List.eq_nil_or_concat after with rfl | ⟨front, last, rfl⟩
  · obtain ⟨hfront, hlast⟩ := List.append_inj' h rfl
    exact Or.inl ⟨hfront, List.singleton_inj.mp hlast⟩
  · rw [List.concat_eq_append, ← List.cons_append, ← List.append_assoc] at h
    exact Or.inr ⟨front, (List.append_inj' h rfl).1⟩

theorem Inv.step {next' : CInt 64} (hfirst : 0 ≤ first) (hstart : 0 ≤ start)
    (h : Inv first rs next) (hclock : Clocked start rs next r)
    (hstep : captureRound next r.wake = (next', r.outcome)) : Inv first (rs ++ [r]) next' := by
  obtain ⟨hafter, hmono, hsmall⟩ := hclock
  obtain ⟨k, hk, hnext⟩ := h.aligned
  have hdue := h.due_iff hmono
  have hordered : (rs ++ [r]).Pairwise fun r r' => r.wake.mono ≤ r'.wake.mono := by
    refine List.pairwise_append.mpr ⟨h.ordered, List.pairwise_singleton _ _, ?_⟩
    intro r₁ hr₁ r₂ hr₂
    exact List.mem_singleton.mp hr₂ ▸ hmono r₁ hr₁
  have hfirsts : (r.Due ↔ next.exact ≤ r.wake.mono) → ∀ before r' after, rs ++ [r] = before ++ r' :: after →
      (r'.Due ↔ FirstOfSlot first before r') := by
    intro hthis before r' after heq
    rcases snoc_cases heq with ⟨rfl, rfl⟩ | ⟨after', heq'⟩
    · exact hthis.trans hdue
    · exact h.firsts before r' after' heq'
  rcases lt_or_ge r.wake.mono next.exact with hearly | hlate
  · -- the task only waits
    rw [captureRound_early hearly] at hstep
    obtain ⟨rfl, hout⟩ := Prod.mk.inj hstep
    refine ⟨h.defined, h.aligned, h.near, hordered, ?_, ?_, hfirsts ?_⟩
    · intro r' hr'
      rcases List.mem_append.mp hr' with hr' | hr'
      · exact h.passed r' hr'
      · exact List.mem_singleton.mp hr' ▸ hearly
    · rcases h.latest with heq | ⟨r', hr', hlatest⟩
      · exact Or.inl heq
      · exact Or.inr ⟨r', List.mem_append_left _ hr', hlatest⟩
    · exact ⟨fun hd => absurd hout.symm hd, fun hd => absurd hearly (by omega)⟩
  · obtain ⟨hround, hout⟩ := captureRound_due hlate
    rw [hstep] at hround hout
    have hnow : (CInt.int64 r.wake.mono).defined = true :=
      (CInt.val_defined _).mpr (fits_64.mpr ⟨by omega, by omega⟩)
    have hexact : (obsNextDeadline next (.int64 r.wake.mono)).exact =
        next.exact + (slotOf next.exact (CInt.int64 r.wake.mono).exact + 1) * obsInterval := nextDeadline_exact hlate
    have hslot : 0 ≤ slotOf next.exact r.wake.mono := Int.ediv_nonneg (by omega) (by decide)
    have hbounds := slotOf_bounds next.exact r.wake.mono
    have hpositive : 0 ≤ k * obsInterval := Int.mul_nonneg hk (by decide)
    dsimp only at hround hout
    rw [← hround, CInt.val_exact] at hexact
    simp only [obsInterval] at hbounds hexact hpositive hnext
    refine ⟨?_, ⟨k + slotOf next.exact r.wake.mono + 1, by omega, ?_⟩, ?_, hordered, ?_, ?_, hfirsts ?_⟩
    · rw [hround]
      refine nextDeadline_defined h.defined hnow hlate ?_ ?_ <;> simp only [CInt.val_exact, obsInterval] <;> omega
    · simp only [obsInterval]
      omega
    · simp only [obsInterval]
      omega
    · intro r' hr'
      rcases List.mem_append.mp hr' with hr' | hr'
      · have hbefore := h.passed r' hr'
        omega
      · rw [List.mem_singleton.mp hr']
        omega
    · refine Or.inr ⟨r, by simp, ?_⟩
      simp only [obsInterval]
      omega
    · exact ⟨fun _ => hlate, fun _ => hout⟩

theorem inv_run (hstart : 0 ≤ start) (hlow : start < 2 ^ 62)
    (h : (captureTask start random).RunWhere (Clocked start) rs next) :
    Inv (firstDeadline start random).exact rs next := by
  have hle : start ≤ (firstDeadline start random).exact := by
    simp only [firstDeadline, CInt.add_exact, CInt.mul_exact, CInt.val_exact]
    omega
  refine h.invariant ?_ ?_
  · rintro _ rfl
    exact .init hstart hlow
  · intro rs next r next' hinv hstep hclock
    exact hinv.step (by omega) hstart hclock hstep

end

structure OnSchedule (first : ℤ) (rs : List Round) (next : CInt 64) : Prop where
  defined : next.defined = true
  aligned : next.exact ≡ first [ZMOD obsInterval]
  due : ∀ before r after, rs = before ++ r :: after → (r.Due ↔ FirstOfSlot first before r)
  once : rs.Pairwise fun r r' => r.outcome = .captured → r'.outcome = .captured →
    slotOf first r.wake.mono < slotOf first r'.wake.mono

theorem Inv.onSchedule {first : ℤ} {rs : List Round} {next : CInt 64} (h : Inv first rs next) :
    OnSchedule first rs next where
  defined := h.defined
  aligned := by
    obtain ⟨k, -, hnext⟩ := h.aligned
    rw [hnext, mul_comm]
    exact Int.modEq_add_fac_self
  due := h.firsts
  once := by
    refine List.pairwise_iff_getElem.mpr ?_
    intro i j hi hj hij _ hcaptured
    have hle := List.pairwise_iff_getElem.mp h.ordered i j hi hj hij
    have hsplit : rs = rs.take j ++ rs[j] :: rs.drop (j + 1) := by
      rw [List.getElem_cons_drop, List.take_append_drop]
    have hdue : rs[j].Due := by
      rw [Round.Due, hcaptured]
      decide
    have hother := ((h.firsts _ _ _ hsplit).mp hdue).2 rs[i] (List.mem_take_iff_getElem.mpr ⟨i, by omega, rfl⟩)
    have hslots : slotOf first rs[i].wake.mono ≤ slotOf first rs[j].wake.mono :=
      Int.ediv_le_ediv (by decide) (by omega)
    omega

/-- **The schedule.** A next deadline is the least moment after now that is a whole number of intervals from
the deadline before, and is found without an overflow. Over any wake-ups, however late, the deadline comes
once for each slot in which there is one. -/
theorem capture_schedule :
    (∀ previous now : ℤ, previous ≤ now →
      IsLeast {t | now < t ∧ t ≡ previous [ZMOD obsInterval]}
        (obsNextDeadline (.int64 previous) (.int64 now)).exact ∧
      (obsInterval - 2 ^ 62 ≤ previous → now < 2 ^ 62 →
        (obsNextDeadline (.int64 previous) (.int64 now)).defined = true)) ∧
    ∀ (start : ℤ) (random : ℕ) (rs : List Round) (next : CInt 64), 0 ≤ start → start < 2 ^ 62 →
      (captureTask start random).RunWhere (Clocked start) rs next →
      OnSchedule (firstDeadline start random).exact rs next := by
  refine ⟨?_, ?_⟩
  · intro previous now hle
    refine ⟨nextDeadline_least hle, ?_⟩
    intro hlow hhigh
    have hinterval : obsInterval = 900000000 := rfl
    refine nextDeadline_defined ((CInt.val_defined _).mpr (fits_64.mpr ⟨?_, ?_⟩))
      ((CInt.val_defined _).mpr (fits_64.mpr ⟨?_, ?_⟩)) hle ?_ ?_
    all_goals simp only [CInt.val_exact, hinterval] at *
    all_goals omega
  · intro start random rs next hstart hlow hrun
    exact (inv_run hstart hlow hrun).onSchedule

def stalled : List Round :=
  [⟨⟨3150000000, true, false, 1800000000, true⟩, .captured⟩, ⟨⟨3151000000, true, false, 1800000001, true⟩, .delayed⟩]

theorem stalled_run : (captureTask 0 0).RunWhere (Clocked 0) stalled (.int64 3600000000) := by
  have hinit : (captureTask 0 0).RunWhere (Clocked 0) [] (firstDeadline 0 0) := .init rfl
  have hfirst : (captureTask 0 0).RunWhere (Clocked 0) ([] ++ [stalled.head (by decide)]) (.int64 3600000000) :=
    .step hinit rfl ⟨by decide, by simp, by decide⟩
  exact .step hfirst rfl ⟨by decide, by simp [stalled], by decide⟩

theorem capture_schedule_stalled : OnSchedule 0 stalled (.int64 3600000000) :=
  capture_schedule.2 0 0 stalled _ (by decide) (by decide) stalled_run

end Albusforge.Camera.Schedule
