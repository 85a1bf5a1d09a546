import Mathlib.Algebra.Order.Group.Unbundled.Abs
import Mathlib.Algebra.Order.Ring.Abs
import Mathlib.Data.Int.Basic

/-!
# Signed integers of C

An operation of C on a signed type is defined only if its result is in the range of the type. A `CInt`
is what an expression computes by exact arithmetic, and whether all of it was defined: then, and only
then, is the exact value the one that C has.

A left shift is the product by a power of two, and a right shift rounds down, as compilers define them.
**What an expression needs to be defined** is a range for each of its operations (`add_defined` and the
rest). A product is in range when its factors are small enough (`mul_bounds`).
-/

namespace Albusforge.Lib

def Fits (w : ℕ) (x : ℤ) : Prop := -2 ^ (w - 1) ≤ x ∧ x < 2 ^ (w - 1)

instance (w : ℕ) (x : ℤ) : Decidable (Fits w x) := inferInstanceAs (Decidable (_ ∧ _))

theorem fits_32 {x : ℤ} : Fits 32 x ↔ -2147483648 ≤ x ∧ x < 2147483648 := Iff.rfl

theorem fits_64 {x : ℤ} : Fits 64 x ↔ -9223372036854775808 ≤ x ∧ x < 9223372036854775808 := Iff.rfl

structure CInt (w : ℕ) where
  exact : ℤ
  defined : Bool
  fits : defined = true → Fits w exact

namespace CInt

variable {w : ℕ}

def of (w : ℕ) (x : ℤ) (operands : Bool) : CInt w where
  exact := x
  defined := operands && decide (Fits w x)
  fits h := of_decide_eq_true (Bool.and_eq_true_iff.mp h).2

def val (w : ℕ) (x : ℤ) : CInt w := .of w x true

/-- A conversion to `int32_t` of what is no wider. -/
abbrev int32 (x : ℤ) : CInt 32 := .val 32 x

/-- A conversion to `int64_t`. -/
abbrev int64 (x : ℤ) : CInt 64 := .val 64 x

instance (n : ℕ) : OfNat (CInt w) n := ⟨.val w (OfNat.ofNat n)⟩

instance : Add (CInt w) := ⟨fun a b => .of w (a.exact + b.exact) (a.defined && b.defined)⟩

instance : Sub (CInt w) := ⟨fun a b => .of w (a.exact - b.exact) (a.defined && b.defined)⟩

instance : Mul (CInt w) := ⟨fun a b => .of w (a.exact * b.exact) (a.defined && b.defined)⟩

instance : HShiftLeft (CInt w) ℕ (CInt w) := ⟨fun a k => .of w (a.exact * 2 ^ k) a.defined⟩

instance : HShiftRight (CInt w) ℕ (CInt w) := ⟨fun a k => .of w (a.exact / 2 ^ k) a.defined⟩

/-- Division rounds towards zero, and is not defined by zero. -/
instance : Div (CInt w) :=
  ⟨fun a b => .of w (a.exact.tdiv b.exact) (a.defined && b.defined && decide (b.exact ≠ 0))⟩

def widen (a : CInt w) (w' : ℕ) : CInt w' := .of w' a.exact a.defined

def after (a : CInt w) (dropped : Bool) : CInt w := .of w a.exact (dropped && a.defined)

/-- The conversion to `uint32_t`, which is defined for every value. -/
def toUInt32 (a : CInt w) : ℕ := (a.exact % 2 ^ 32).toNat

section Exact

variable (a b : CInt w) (k : ℕ) (x : ℤ)

@[simp] theorem val_exact : (CInt.val w x).exact = x := rfl
@[simp] theorem ofNat_exact (n : ℕ) : (no_index (OfNat.ofNat n) : CInt w).exact = OfNat.ofNat n := rfl
@[simp] theorem add_exact : (a + b).exact = a.exact + b.exact := rfl
@[simp] theorem sub_exact : (a - b).exact = a.exact - b.exact := rfl
@[simp] theorem mul_exact : (a * b).exact = a.exact * b.exact := rfl
@[simp] theorem shl_exact : (a <<< k).exact = a.exact * 2 ^ k := rfl
@[simp] theorem shr_exact : (a >>> k).exact = a.exact / 2 ^ k := rfl
@[simp] theorem div_exact : (a / b).exact = a.exact.tdiv b.exact := rfl
@[simp] theorem widen_exact (w' : ℕ) : (a.widen w').exact = a.exact := rfl
@[simp] theorem after_exact (dropped : Bool) : (a.after dropped).exact = a.exact := rfl

end Exact

section Defined

variable (a b : CInt w) (k : ℕ) (x : ℤ)

theorem of_defined (operands : Bool) : (CInt.of w x operands).defined = true ↔ operands = true ∧ Fits w x := by
  simp [CInt.of]

@[simp] theorem val_defined : (CInt.val w x).defined = true ↔ Fits w x := by simp [val, of_defined]

@[simp] theorem ofNat_defined (n : ℕ) :
    (no_index (OfNat.ofNat n) : CInt w).defined = true ↔ Fits w (OfNat.ofNat n) := val_defined _

@[simp] theorem add_defined :
    (a + b).defined = true ↔ (a.defined = true ∧ b.defined = true) ∧ Fits w (a.exact + b.exact) := by
  rw [← Bool.and_eq_true_iff]
  exact of_defined _ _

@[simp] theorem sub_defined :
    (a - b).defined = true ↔ (a.defined = true ∧ b.defined = true) ∧ Fits w (a.exact - b.exact) := by
  rw [← Bool.and_eq_true_iff]
  exact of_defined _ _

@[simp] theorem mul_defined :
    (a * b).defined = true ↔ (a.defined = true ∧ b.defined = true) ∧ Fits w (a.exact * b.exact) := by
  rw [← Bool.and_eq_true_iff]
  exact of_defined _ _

@[simp] theorem shl_defined : (a <<< k).defined = true ↔ a.defined = true ∧ Fits w (a.exact * 2 ^ k) := of_defined _ _

@[simp] theorem div_defined :
    (a / b).defined = true ↔
      ((a.defined = true ∧ b.defined = true) ∧ b.exact ≠ 0) ∧ Fits w (a.exact.tdiv b.exact) := by
  rw [← Bool.and_eq_true_iff, ← decide_eq_true_iff (p := b.exact ≠ 0), ← Bool.and_eq_true_iff]
  exact of_defined _ _

@[simp] theorem after_defined (dropped : Bool) : (a.after dropped).defined = true ↔ dropped = true ∧ a.defined = true := by
  rw [after, of_defined, Bool.and_eq_true_iff]
  exact ⟨And.left, fun h => ⟨h, a.fits h.2⟩⟩

end Defined

end CInt

theorem Fits.shr {w : ℕ} {x : ℤ} (h : Fits w x) (k : ℕ) : Fits w (x / 2 ^ k) := by
  have hpos : (0 : ℤ) < 2 ^ k := pow_pos (by decide) k
  have hle : (2 : ℤ) ^ (w - 1) ≤ 2 ^ (w - 1) * 2 ^ k := le_mul_of_one_le_right (pow_pos (by decide) _).le hpos
  constructor
  · refine (Int.le_ediv_iff_mul_le hpos).mpr (Int.le_trans ?_ h.1)
    rw [Int.neg_mul]
    exact Int.neg_le_neg hle
  · exact Int.ediv_lt_of_lt_mul hpos (Int.lt_of_lt_of_le h.2 hle)

@[simp] theorem CInt.shr_defined {w : ℕ} (a : CInt w) (k : ℕ) : (a >>> k).defined = true ↔ a.defined = true :=
  (CInt.of_defined _ _).trans ⟨And.left, fun h => ⟨h, (a.fits h).shr k⟩⟩

theorem Fits.mono {w w' : ℕ} {x : ℤ} (h : Fits w x) (hle : w ≤ w') : Fits w' x := by
  have hpow : (2 : ℤ) ^ (w - 1) ≤ 2 ^ (w' - 1) := pow_le_pow_right₀ (by decide) (by omega)
  exact ⟨Int.le_trans (Int.neg_le_neg hpow) h.1, Int.lt_of_lt_of_le h.2 hpow⟩

theorem CInt.widen_defined {w w' : ℕ} (a : CInt w) (hle : w ≤ w') : (a.widen w').defined = true ↔ a.defined = true :=
  (CInt.of_defined _ _).trans ⟨And.left, fun h => ⟨h, (a.fits h).mono hle⟩⟩

theorem mul_bounds {x y A B : ℤ} (hx : -A ≤ x ∧ x ≤ A) (hy : -B ≤ y ∧ y ≤ B) : -(A * B) ≤ x * y ∧ x * y ≤ A * B := by
  refine abs_le.mp ?_
  rw [abs_mul]
  exact mul_le_mul (abs_le.mpr hx) (abs_le.mpr hy) (abs_nonneg y) (Int.le_trans (abs_nonneg x) (abs_le.mpr hx))

/-! ## Expressions that are always defined -/

namespace CInt

structure Within {w : ℕ} (a : CInt w) (A : ℤ) : Prop where
  defined : a.defined = true
  bounds : -A ≤ a.exact ∧ a.exact ≤ A

variable {w : ℕ} {a b : CInt w} {A B : ℤ}

theorem Within.val {x : ℤ} (hbounds : -A ≤ x ∧ x ≤ A) (hA : A < 2 ^ (w - 1)) : Within (.val w x) A := by
  refine ⟨(val_defined x).mpr ⟨?_, ?_⟩, hbounds⟩ <;> omega

theorem Within.mono (ha : Within a A) (hle : A ≤ B) : Within a B :=
  ⟨ha.defined, by have := ha.bounds; omega⟩

theorem Within.add (ha : Within a A) (hb : Within b B) (h : A + B < 2 ^ (w - 1)) : Within (a + b) (A + B) := by
  have hbounds : -(A + B) ≤ a.exact + b.exact ∧ a.exact + b.exact ≤ A + B := by
    have hA := ha.bounds
    have hB := hb.bounds
    omega
  exact ⟨(add_defined a b).mpr ⟨⟨ha.defined, hb.defined⟩, by omega, by omega⟩, hbounds⟩

theorem Within.sub (ha : Within a A) (hb : Within b B) (h : A + B < 2 ^ (w - 1)) : Within (a - b) (A + B) := by
  have hbounds : -(A + B) ≤ a.exact - b.exact ∧ a.exact - b.exact ≤ A + B := by
    have hA := ha.bounds
    have hB := hb.bounds
    omega
  exact ⟨(sub_defined a b).mpr ⟨⟨ha.defined, hb.defined⟩, by omega, by omega⟩, hbounds⟩

theorem Within.mul (ha : Within a A) (hb : Within b B) (h : A * B < 2 ^ (w - 1)) : Within (a * b) (A * B) := by
  have hbounds := mul_bounds ha.bounds hb.bounds
  exact ⟨(mul_defined a b).mpr ⟨⟨ha.defined, hb.defined⟩, by omega, by omega⟩, hbounds⟩

theorem Within.shl (ha : Within a A) (k : ℕ) (h : A * 2 ^ k < 2 ^ (w - 1)) : Within (a <<< k) (A * 2 ^ k) := by
  have hpos : (0 : ℤ) ≤ 2 ^ k := pow_nonneg (by decide) k
  have hbounds := mul_bounds ha.bounds ⟨by omega, Int.le_refl (2 ^ k)⟩
  exact ⟨(shl_defined a k).mpr ⟨ha.defined, by omega, by omega⟩, hbounds⟩

theorem Within.shr {k : ℕ} (ha : Within a (A * 2 ^ k)) : Within (a >>> k) A := by
  have hpos : (0 : ℤ) < 2 ^ k := pow_pos (by decide) k
  refine ⟨(shr_defined a k).mpr ha.defined, (Int.le_ediv_iff_mul_le hpos).mpr ?_, ?_⟩
  · rw [Int.neg_mul]
    exact ha.bounds.1
  · rw [← Int.mul_ediv_cancel A hpos.ne']
    exact Int.ediv_le_ediv hpos ha.bounds.2

theorem Within.widen {w' : ℕ} (ha : Within a A) (hle : w ≤ w') : Within (a.widen w') A :=
  ⟨(widen_defined a hle).mpr ha.defined, ha.bounds⟩

end CInt

end Albusforge.Lib
