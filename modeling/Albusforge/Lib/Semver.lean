import Mathlib.Data.List.Lex
import Mathlib.Data.Prod.Lex
import Mathlib.Data.Sum.Order
import Mathlib.Order.WithBot
import Mathlib.Tactic

/-!
# Semantic versions

Versions as values, their precedence, and what a range of them means. Precedence is a
linear order: the three components count first, and at equal components a pre-release
comes before its release.

A range is read as the package managers read it: into comparators, all of which must hold.
An upper bound `<2.0.0-0` stops below the first pre-release of `2.0.0`. A pre-release is
admitted only when some comparator is itself a pre-release of the same three components;
`Range.mem_versions` says that **only the range's own bound can be that comparator**.
-/

namespace Albusforge.Lib.Semver

variable {ω : Type*}

abbrev Identifier (ω : Type*) : Type _ := ℕ ⊕ₗ ω

def Identifier.number (n : ℕ) : Identifier ω := toLex (.inl n)

def Identifier.word (w : ω) : Identifier ω := toLex (.inr w)

/-- `major.minor.patch-pre`; a release has no pre-release identifiers. -/
@[ext]
structure Version (ω : Type*) where
  major : ℕ
  minor : ℕ
  patch : ℕ
  pre : List (Identifier ω)

namespace Version

def core (v : Version ω) : ℕ ×ₗ ℕ ×ₗ ℕ := toLex (v.major, toLex (v.minor, v.patch))

def stage (v : Version ω) : WithTop (List (Identifier ω)) := if v.pre = [] then ⊤ else v.pre

def key (v : Version ω) : (ℕ ×ₗ ℕ ×ₗ ℕ) ×ₗ WithTop (List (Identifier ω)) := toLex (v.core, v.stage)

theorem core_eq {v w : Version ω} :
    v.core = w.core ↔ v.major = w.major ∧ v.minor = w.minor ∧ v.patch = w.patch := by
  simp [core]

theorem stage_injective {v w : Version ω} (h : v.stage = w.stage) : v.pre = w.pre := by
  unfold stage at h
  split_ifs at h with hv hw hw
  · rw [hv, hw]
  · exact absurd h.symm (WithTop.coe_ne_top)
  · exact absurd h (WithTop.coe_ne_top)
  · exact WithTop.coe_injective h

theorem key_injective : Function.Injective (key : Version ω → _) := by
  intro v w h
  obtain ⟨hcore, hstage⟩ := Prod.mk.inj (toLex.injective h)
  obtain ⟨hmajor, hminor, hpatch⟩ := core_eq.mp hcore
  exact Version.ext hmajor hminor hpatch (stage_injective hstage)

def release (c : ℕ × ℕ × ℕ) : Version ω := ⟨c.1, c.2.1, c.2.2, []⟩

/-- The first pre-release of the given components, `major.minor.patch-0`. -/
def first (c : ℕ × ℕ × ℕ) : Version ω := ⟨c.1, c.2.1, c.2.2, [.number 0]⟩

theorem lt_core_first {v : Version ω} {c : ℕ × ℕ × ℕ} :
    v.core < (first c : Version ω).core ↔
      v.major < c.1 ∨ v.major = c.1 ∧ (v.minor < c.2.1 ∨ v.minor = c.2.1 ∧ v.patch < c.2.2) := by
  simp [core, first, Prod.Lex.lt_iff]

def caret (v : Version ω) : ℕ × ℕ × ℕ :=
  if 0 < v.major then (v.major + 1, 0, 0)
  else if 0 < v.minor then (0, v.minor + 1, 0)
  else (0, 0, v.patch + 1)

def tilde (v : Version ω) : ℕ × ℕ × ℕ := (v.major, v.minor + 1, 0)

theorem core_lt_caret (v : Version ω) : v.core < (first v.caret : Version ω).core := by
  rw [lt_core_first]
  unfold caret
  split_ifs <;> simp <;> omega

theorem core_lt_tilde (v : Version ω) : v.core < (first v.tilde : Version ω).core := by
  rw [lt_core_first]
  unfold tilde
  simp

variable [LinearOrder ω]

/-- **Precedence is a linear order.** -/
instance : LinearOrder (Version ω) := LinearOrder.lift' key key_injective

theorem lt_iff {v w : Version ω} : v < w ↔ v.core < w.core ∨ v.core = w.core ∧ v.stage < w.stage :=
  Prod.Lex.lt_iff

theorem number_zero_le (i : Identifier ω) : Identifier.number 0 ≤ i := by
  obtain ⟨s, rfl⟩ := toLex.surjective i
  cases s with
  | inl n => exact Sum.Lex.inl_le_inl_iff.mpr (Nat.zero_le n)
  | inr w => exact Sum.Lex.inl_le_inr 0 w

theorem first_stage_le {v : Version ω} {c : ℕ × ℕ × ℕ} : (first c : Version ω).stage ≤ v.stage := by
  have hfirst : (first c : Version ω).stage = (([.number 0] : List (Identifier ω)) : WithTop _) := by
    simp [stage, first]
  rw [hfirst]
  unfold stage
  cases hv : v.pre with
  | nil => simp
  | cons i rest =>
    rw [if_neg (by simp), WithTop.coe_le_coe]
    cases (number_zero_le i).lt_or_eq with
    | inl hlt => exact le_of_lt (List.Lex.rel hlt)
    | inr heq =>
      rw [← heq]
      cases rest with
      | nil => exact le_rfl
      | cons j rest => exact List.cons_le_cons _ (le_of_lt List.Lex.nil)

theorem lt_first {v : Version ω} {c : ℕ × ℕ × ℕ} : v < first c ↔ v.core < (first c : Version ω).core := by
  rw [lt_iff]
  constructor
  · intro h
    cases h with
    | inl hlt => exact hlt
    | inr heq => exact absurd heq.2 (not_lt.mpr first_stage_le)
  · intro h
    exact .inl h

theorem lt_release {v : Version ω} {c : ℕ × ℕ × ℕ} :
    v < release c ↔
      v.core < (first c : Version ω).core ∨ v.core = (first c : Version ω).core ∧ v.pre ≠ [] := by
  have htop : (release c : Version ω).stage = ⊤ := by simp [stage, release]
  have hstage : v.stage < ⊤ ↔ v.pre ≠ [] := by
    unfold stage
    split_ifs with hv
    · simp [hv]
    · simp [hv, WithTop.coe_lt_top]
  rw [lt_iff, htop, hstage]
  rfl

end Version

/-! ## Ranges -/

inductive Comparator (ω : Type*) where
  | exactly (v : Version ω)
  | atLeast (v : Version ω)
  | below (v : Version ω)

def Comparator.bound : Comparator ω → Version ω
  | exactly v => v
  | atLeast v => v
  | below v => v

inductive Operator where
  | exact | atLeast | caret | tilde
  deriving DecidableEq, Repr

structure Range (ω : Type*) where
  op : Operator
  floor : Version ω

variable [LinearOrder ω]

def Comparator.Holds (v : Version ω) : Comparator ω → Prop
  | exactly w => v = w
  | atLeast w => w ≤ v
  | below w => v < w

/-- A range as the comparators that stand for it: `^1.2.3` is `>=1.2.3 <2.0.0-0`. -/
def Range.comparators (r : Range ω) : List (Comparator ω) :=
  match r.op with
  | .exact => [.exactly r.floor]
  | .atLeast => [.atLeast r.floor]
  | .caret => [.atLeast r.floor, .below (.first r.floor.caret)]
  | .tilde => [.atLeast r.floor, .below (.first r.floor.tilde)]

def Range.versions (r : Range ω) : Set (Version ω) :=
  {v | (∀ c ∈ r.comparators, c.Holds v) ∧
    (v.pre = [] ∨ ∃ c ∈ r.comparators, c.bound.pre ≠ [] ∧ c.bound.core = v.core)}

def Range.OptsIn (r : Range ω) (v : Version ω) : Prop :=
  v.pre = [] ∨ r.floor.pre ≠ [] ∧ r.floor.core = v.core

theorem below_first_optsIn {v floor : Version ω} {c : ℕ × ℕ × ℕ} :
    (∀ k ∈ [Comparator.atLeast floor, .below (.first c)], k.Holds v) ∧
        (v.pre = [] ∨ ∃ k ∈ [Comparator.atLeast floor, .below (.first c)],
          k.bound.pre ≠ [] ∧ k.bound.core = v.core) ↔
      (floor ≤ v ∧ v < .first c) ∧ (v.pre = [] ∨ floor.pre ≠ [] ∧ floor.core = v.core) := by
  simp only [List.forall_mem_cons, List.not_mem_nil, IsEmpty.forall_iff, implies_true, and_true,
    List.exists_mem_cons_iff, false_and, exists_false, or_false, Comparator.Holds, Comparator.bound]
  constructor
  · intro h
    obtain ⟨⟨hge, hlt⟩, hopt⟩ := h
    refine ⟨⟨hge, hlt⟩, hopt.imp_right fun hbound => ?_⟩
    cases hbound with
    | inl hfloor => exact hfloor
    | inr hfirst => exact absurd hfirst.2 (Version.lt_first.mp hlt).ne'
  · intro h
    exact ⟨h.1, h.2.imp_right .inl⟩

/-- **The versions of a range, operator by operator.** -/
theorem Range.mem_versions {r : Range ω} {v : Version ω} :
    v ∈ r.versions ↔
      (match r.op with
        | .exact => v = r.floor
        | .atLeast => r.floor ≤ v
        | .caret => r.floor ≤ v ∧ v < .first r.floor.caret
        | .tilde => r.floor ≤ v ∧ v < .first r.floor.tilde) ∧ r.OptsIn v := by
  unfold Range.versions Range.comparators Range.OptsIn
  cases r.op with
  | exact => simp [Comparator.Holds, Comparator.bound]
  | atLeast => simp [Comparator.Holds, Comparator.bound]
  | caret => exact below_first_optsIn
  | tilde => exact below_first_optsIn

end Albusforge.Lib.Semver
