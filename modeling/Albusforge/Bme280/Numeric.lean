import Mathlib.Tactic.Linarith
import Mathlib.Tactic.Linarith
import Albusforge.Bme280.Formula

/-!
# The numeric firmware's driver

`bme280_init` takes a block of calibration words unless two of them are zero, and `bme280_read` computes
what it reports by the fixed-point formulas of the part, in 32 and 64 bits. Most of what the formulas compute is
in range for every block and every frame. **What can leave its range** is listed, as conditions on
the block and the frame, by `SafeTemperature`, `SafePressure` and `SafeHumidity`.
-/

namespace Albusforge.Bme280

open Lib

/-! ## What it reads -/

/-- `dig_H4` and `dig_H5`: the byte is sign-extended and makes room for four bits. -/
def digH (b n : UInt8) : Int16 := (b.toInt8.toInt16 <<< 4) ||| n.toUInt16.toInt16

theorem digH_fin : ∀ b : Fin 256, ∀ n : Fin 16,
    (digH (UInt8.ofNat b) (UInt8.ofNat n)).toInt = nibbled (UInt8.ofNat b) (UInt8.ofNat n) := by
  decide +kernel

theorem digH_eq (b : UInt8) {n : UInt8} (hn : n.toNat < 16) : (digH b n).toInt = nibbled b n := by
  have h := digH_fin ⟨b.toNat, b.toNat_lt⟩ ⟨n.toNat, hn⟩
  rwa [UInt8.ofNat_toNat, UInt8.ofNat_toNat] at h

abbrev Nibble : Type := {n : UInt8 // n.toNat < 16}

theorem low_nibble (b : UInt8) : (b &&& 0x0f).toNat < 16 := by
  rw [UInt8.toNat_and]
  exact Nat.lt_of_le_of_lt Nat.and_le_right (by decide)

theorem high_nibble (b : UInt8) : (b >>> 4).toNat < 16 := by
  have hb := b.toNat_lt
  rw [UInt8.toNat_shiftRight, Nat.shiftRight_eq_div_pow]
  exact Nat.div_lt_of_lt_mul hb

def lowNibble (b : UInt8) : Nibble := ⟨b &&& 0x0f, low_nibble b⟩

def highNibble (b : UInt8) : Nibble := ⟨b >>> 4, high_nibble b⟩

namespace Numeric

open CInt

def h12 (b : UInt8) (n : Nibble) : S 12 := ⟨(digH b n).toInt, digH_eq b n.2 ▸ nibbled_fits b n.2⟩

/-- `bme280_init`, after the reset -/
def bme280Init (registers : Registers) : Option Calibration :=
  let low i := registers (0x88 + i)
  let high i := registers (0xE1 + i)
  let c : Calibration := {
    t1 := u16 (low 0) (low 1)
    t2 := s16 (low 2) (low 3)
    t3 := s16 (low 4) (low 5)
    p1 := u16 (low 6) (low 7)
    p2 := s16 (low 8) (low 9)
    p3 := s16 (low 10) (low 11)
    p4 := s16 (low 12) (low 13)
    p5 := s16 (low 14) (low 15)
    p6 := s16 (low 16) (low 17)
    p7 := s16 (low 18) (low 19)
    p8 := s16 (low 20) (low 21)
    p9 := s16 (low 22) (low 23)
    h1 := u8 (registers 0xA1)
    h2 := s16 (high 0) (high 1)
    h3 := u8 (high 2)
    h4 := h12 (high 3) (lowNibble (high 4))
    h5 := h12 (high 5) (highNibble (high 4))
    h6 := s8 (high 6) }
  if registers 0xD0 ≠ 0x60 then none
  else if c.t1.val = 0 ∨ c.p1.val = 0 then none
  else some c

/-! ## The compensation -/

/-- The fine temperature, which it leaves in `t_fine`, and the temperature in hundredths. -/
def compensateT (c : Calibration) (adcT : CInt 32) : CInt 32 × CInt 32 :=
  let var1 := (((adcT >>> 3) - (int32 c.t1 <<< 1)) * int32 c.t2) >>> 11
  let var2 := (((((adcT >>> 4) - int32 c.t1) * ((adcT >>> 4) - int32 c.t1)) >>> 12) * int32 c.t3) >>> 14
  let tFine := var1 + var2
  (tFine, (tFine * 5 + 128) >>> 8)

/-- `var2` of the pressure, before the division -/
def pressureVar2 (c : Calibration) (var1 : CInt 64) : CInt 64 :=
  let var2 := var1 * var1 * int64 c.p6
  let var2 := var2 + ((var1 * int64 c.p5) <<< 17)
  var2 + (int64 c.p4 <<< 35)

/-- `var1` of the pressure, before the division -/
def pressureVar1 (c : Calibration) (var1 : CInt 64) : CInt 64 :=
  let var1 := ((var1 * var1 * int64 c.p3) >>> 8) + ((var1 * int64 c.p2) <<< 12)
  ((((1 : CInt 64) <<< 47) + var1) * int64 c.p1) >>> 33

def pressurePolynomial (c : Calibration) (p : CInt 64) : CInt 64 :=
  let var1 := (int64 c.p9 * (p >>> 13) * (p >>> 13)) >>> 25
  let var2 := (int64 c.p8 * p) >>> 19
  ((p + var1 + var2) >>> 8) + (int64 c.p7 <<< 4)

/-- The pressure before its conversion to `uint32_t`. -/
def compensateP (c : Calibration) (tFine adcP : CInt 32) : CInt 64 :=
  let var1 := tFine.widen 64 - 128000
  let var2 := pressureVar2 c var1
  let var1 := pressureVar1 c var1
  if var1.exact = 0 then (0 : CInt 64).after (var1.defined && var2.defined)
  else
    let p := (1048576 - adcP).widen 64
    pressurePolynomial c ((((p <<< 31) - var2) * 3125) / var1)

/-- `left` of the humidity -/
def humidityLeft (c : Calibration) (v adcH : CInt 32) : CInt 32 :=
  ((adcH <<< 14) - (int32 c.h4 <<< 20) - (int32 c.h5 * v) + 16384) >>> 15

/-- `right` of the humidity -/
def humidityRight (c : Calibration) (v : CInt 32) : CInt 32 :=
  ((((((v * int32 c.h6) >>> 10) * (((v * int32 c.h3) >>> 11) + 32768)) >>> 10) + 2097152) * int32 c.h2) + 8192

def compensateH (c : Calibration) (tFine adcH : CInt 32) : CInt 32 :=
  let v := tFine - 76800
  let v := humidityLeft c v adcH * (humidityRight c v >>> 14)
  let v := v - (((((v >>> 15) * (v >>> 15)) >>> 7) * int32 c.h1) >>> 4)
  let v := if v.exact < 0 then (0 : CInt 32).after v.defined else v
  let v := if v.exact > 419430400 then (419430400 : CInt 32).after v.defined else v
  v >>> 12

/-! ## A measurement -/

def adcP (data : Frame) : ℕ := (data 0).toNat <<< 12 ||| (data 1).toNat <<< 4 ||| (data 2).toNat >>> 4

def adcT (data : Frame) : ℕ := (data 3).toNat <<< 12 ||| (data 4).toNat <<< 4 ||| (data 5).toNat >>> 4

def adcH (data : Frame) : ℕ := (data 6).toNat <<< 8 ||| (data 7).toNat

def skipped (data : Frame) : Bool := adcT data == 0x80000 || adcP data == 0x80000 || adcH data == 0x8000

/-- `bme280_read`, once it has the frame. The quotients are exact. -/
def bme280Read (c : Calibration) (data : Frame) : Outcome :=
  if skipped data then .refused
  else
    let (tFine, temperature) := compensateT c (int32 (adcT data))
    let pressure := compensateP c tFine (int32 (adcP data))
    if pressure.toUInt32 = 0 then Outcome.refused.provided (temperature.defined && pressure.defined)
    else
      let humidity := compensateH c tFine (int32 (adcH data))
      (Outcome.sampled {
        temperatureC := temperature.exact / 100
        pressureHpa := pressure.toUInt32 / 25600
        humidityPct := humidity.exact / 1024 }).provided (temperature.defined && pressure.defined && humidity.defined)

end Numeric

/-! ## What the temperature needs -/

section Square

theorem square_fits {x : ℤ} : Fits 32 (x * x) ↔ -46340 ≤ x ∧ x ≤ 46340 := by
  rw [fits_32]
  constructor
  · intro ⟨_, h⟩
    constructor
    · by_contra hlt
      nlinarith
    · by_contra hlt
      nlinarith
  · intro h
    have hbounds := mul_bounds h h
    omega

end Square

namespace Calibration

structure SafeTemperature (c : Calibration) (adcT : ℤ) : Prop where
  first : Fits 32 (c.offset1 adcT * c.t2)
  near : -46340 ≤ c.offset2 adcT ∧ c.offset2 adcT ≤ 46340
  second : Fits 32 (c.offset2 adcT * c.offset2 adcT / 2 ^ 12 * c.t3)

theorem SafeTemperature.fine_bounds {c : Calibration} {adcT : ℤ} (h : c.SafeTemperature adcT) :
    -1179648 ≤ c.fine adcT ∧ c.fine adcT ≤ 1179648 := by
  obtain ⟨hfirst, _, hsecond⟩ := h
  rw [fits_32] at hfirst hsecond
  unfold fine
  omega

end Calibration

section Temperature

open CInt Numeric

variable (c : Calibration) {adcT : ℤ}

theorem compensateT_exact : (compensateT c (int32 adcT)).1.exact = c.fine adcT ∧
    (compensateT c (int32 adcT)).2.exact = c.temperature adcT := ⟨rfl, rfl⟩

theorem compensateT_fine (hT : 0 ≤ adcT ∧ adcT < 2 ^ 20) :
    (compensateT c (int32 adcT)).1.defined = true ↔ c.SafeTemperature adcT := by
  have ht1 := c.t1.2
  have ht2 := c.t2.2
  have ht3 := c.t3.2
  simp only [compensateT, add_defined, shr_defined, mul_defined, sub_defined, shl_defined, val_defined, sub_exact,
    mul_exact, shr_exact, shl_exact, val_exact]
  constructor
  · intro h
    exact ⟨h.1.1.2, square_fits.mp h.1.2.1.1.2, h.1.2.2⟩
  · intro h
    have hsquare := square_fits.mpr h.near
    have hfine := h.fine_bounds
    obtain ⟨hfirst, _, hsecond⟩ := h
    simp only [Calibration.offset1, Calibration.offset2, Calibration.fine, Fits] at *
    omega

theorem compensateT_defined (hT : 0 ≤ adcT ∧ adcT < 2 ^ 20) :
    (compensateT c (int32 adcT)).2.defined = true ↔ c.SafeTemperature adcT := by
  have hlast : (compensateT c (int32 adcT)).2 = ((compensateT c (int32 adcT)).1 * 5 + 128) >>> 8 := rfl
  rw [hlast, shr_defined, add_defined, mul_defined, compensateT_fine c hT]
  constructor
  · exact fun h => h.1.1.1.1
  · intro h
    have hfine := h.fine_bounds
    simp only [h, true_and, ofNat_defined, mul_exact, compensateT_exact, ofNat_exact, fits_32]
    omega

end Temperature

/-! ## What the pressure needs -/

namespace Calibration

structure SafePressure (c : Calibration) (adcP fine : ℤ) : Prop where
  scaled : Fits 64 (c.sensitivity fine * c.p1)
  dividend : c.divisor fine ≠ 0 → Fits 64 (c.dividend adcP fine)
  square : c.divisor fine ≠ 0 → Fits 64 (c.square adcP fine)
  linear : c.divisor fine ≠ 0 → Fits 64 (c.linear adcP fine)
  polynomial : c.divisor fine ≠ 0 → Fits 64 (c.polynomial adcP fine)

end Calibration

section Pressure

open CInt Numeric

variable (c : Calibration)

theorem word_within (x : S 16) : Within (int64 x) 32768 := by
  refine .val ?_ (by decide)
  have h := x.2
  simp only [Fits] at h
  omega

theorem pressureVar2_within {var1 : CInt 64} (h : Within var1 1307648) :
    Within (pressureVar2 c var1) 63000000000000000 := by
  have hsquare := (h.mul h (by decide)).mul (word_within c.p6) (by decide)
  have hlinear := (h.mul (word_within c.p5) (by decide)).shl 17 (by decide)
  have hconstant := (word_within c.p4).shl 35 (by decide)
  exact ((hsquare.add hlinear (by decide)).add hconstant (by decide)).mono (by decide)

theorem sensitivity_within {var1 : CInt 64} (h : Within var1 1307648) :
    Within (((1 : CInt 64) <<< 47) + (((var1 * var1 * int64 c.p3) >>> 8) + ((var1 * int64 c.p2) <<< 12)))
      540000000000000 := by
  have hone : Within (1 : CInt 64) 1 := .val (by decide) (by decide)
  have hsquare := (h.mul h (by decide)).mul (word_within c.p3) (by decide)
  have hlinear := (h.mul (word_within c.p2) (by decide)).shl 12 (by decide)
  have hshifted : Within ((var1 * var1 * int64 c.p3) >>> 8) 219000000000000 := .shr (hsquare.mono (by decide))
  exact ((hone.shl 47 (by decide)).add (hshifted.add hlinear (by decide)) (by decide)).mono (by decide)

theorem pressureVar1_defined {var1 : CInt 64} (h : Within var1 1307648) :
    (pressureVar1 c var1).defined = true ↔
      Fits 64 ((2 ^ 47 + (var1.exact * var1.exact * c.p3 / 2 ^ 8 + var1.exact * c.p2 * 2 ^ 12)) * c.p1) := by
  have hp1 := c.p1.2
  have hsensitivity := (sensitivity_within c h).defined
  rw [pressureVar1, shr_defined, mul_defined, val_defined]
  constructor
  · exact fun h => h.2
  · exact fun h => ⟨⟨hsensitivity, by constructor <;> omega⟩, h⟩

theorem fits_factor {a q : ℤ} (ha : -32768 ≤ a ∧ a ≤ 32768) (h : Fits 64 (a * q * q)) : Fits 64 (a * q) := by
  rw [fits_64] at h ⊢
  by_cases hsmall : -1 ≤ q ∧ q ≤ 1
  · have hbounds := mul_bounds ha hsmall
    omega
  · generalize a * q = m at h
    have hlarge : q ≤ -2 ∨ 2 ≤ q := by omega
    constructor
    · by_contra hlt
      rcases hlarge with hq | hq <;> nlinarith
    · by_contra hlt
      rcases hlarge with hq | hq <;> nlinarith

theorem fits_root {a p : ℤ} (hp : Fits 64 p) (h : Fits 64 (a * (p / 2 ^ 13) * (p / 2 ^ 13))) :
    Fits 64 (p + a * (p / 2 ^ 13) * (p / 2 ^ 13) / 2 ^ 25) := by
  by_cases ha : a = 0
  · simpa [ha] using hp
  · have hroot : -3037000500 ≤ p / 2 ^ 13 ∧ p / 2 ^ 13 ≤ 3037000500 := by
      generalize p / 2 ^ 13 = q at h
      rw [fits_64, mul_assoc] at h
      have hsquare : q * q ≤ 9223372036854775808 := by
        rcases Int.lt_or_gt_of_ne ha with hneg | hpos
        · nlinarith [mul_self_nonneg q]
        · nlinarith [mul_self_nonneg q]
      constructor <;> nlinarith
    rw [fits_64] at h ⊢
    omega

theorem pressurePolynomial_defined (p : CInt 64) : (pressurePolynomial c p).defined = true ↔
    p.defined = true ∧ Fits 64 (c.p9 * (p.exact / 2 ^ 13) * (p.exact / 2 ^ 13)) ∧ Fits 64 (c.p8 * p.exact) ∧
      Fits 64 (p.exact + c.p9 * (p.exact / 2 ^ 13) * (p.exact / 2 ^ 13) / 2 ^ 25 + c.p8 * p.exact / 2 ^ 19) := by
  have hp7 := c.p7.2
  have hp8 := c.p8.2
  have hp9 := c.p9.2
  simp only [pressurePolynomial, add_defined, shr_defined, mul_defined, shl_defined, val_defined, add_exact, shr_exact,
    mul_exact, shl_exact, val_exact]
  constructor
  · intro h
    exact ⟨h.1.1.1.1.1.1, h.1.1.1.1.1.2.2, h.1.1.1.2.2, h.1.1.2⟩
  · rintro ⟨hp, hsquare, hlinear, hsum⟩
    have hfactor := fits_factor (by simp only [Fits] at hp9; omega) hsquare
    have hroot := fits_root (p.fits hp) hsquare
    simp only [hp, eq_self, true_and, and_true, Fits] at *
    omega

theorem fits_tdiv {x d : ℤ} (h : Fits 64 (x * 3125)) : Fits 64 ((x * 3125).tdiv d) := by
  have hle := Int.natAbs_tdiv_le_natAbs (x * 3125) d
  rw [fits_64] at h ⊢
  omega

theorem compensateP_defined {adcP : ℤ} (hP : 0 ≤ adcP ∧ adcP < 2 ^ 20) {tFine : CInt 32} (hdefined : tFine.defined = true)
    (hfine : -1179648 ≤ tFine.exact ∧ tFine.exact ≤ 1179648) :
    (compensateP c tFine (int32 adcP)).defined = true ↔ c.SafePressure adcP tFine.exact := by
  have hwide : Within (tFine.widen 64) 1179648 := .widen ⟨hdefined, hfine⟩ (by decide)
  have hoffset : Within (128000 : CInt 64) 128000 := .val (by decide) (by decide)
  have hvar1 : Within (tFine.widen 64 - 128000) 1307648 := hwide.sub hoffset (by decide)
  have hvar2 := pressureVar2_within c hvar1
  have hscaled : (pressureVar1 c (tFine.widen 64 - 128000)).defined = true ↔ Fits 64 (c.sensitivity tFine.exact * c.p1) :=
    pressureVar1_defined c hvar1
  have hdivisor : (pressureVar1 c (tFine.widen 64 - 128000)).exact = c.divisor tFine.exact := rfl
  rw [compensateP]
  dsimp only
  rw [hdivisor]
  split
  · rename_i hzero
    rw [after_defined, Bool.and_eq_true_iff, hscaled]
    constructor
    · exact fun h => ⟨h.1.1, fun hne => absurd hzero hne, fun hne => absurd hzero hne, fun hne => absurd hzero hne,
        fun hne => absurd hzero hne⟩
    · exact fun h => ⟨⟨h.scaled, hvar2.defined⟩, (ofNat_defined 0).mpr (by decide)⟩
  · rename_i hne
    have hp : Within ((1048576 - int32 adcP).widen 64 <<< 31) 4503599627370496 := by
      have hadc : Within (int32 adcP) 1048576 := .val (by omega) (by decide)
      have hbase : Within (1048576 : CInt 32) 1048576 := .val (by decide) (by decide)
      exact ((hbase.sub hadc (by decide)).widen (by decide)).shl 31 (by decide)
    have hdifference := hp.sub hvar2 (by decide)
    have hthousands : Fits 64 3125 := by decide
    rw [pressurePolynomial_defined, div_defined, mul_defined, hscaled, ofNat_defined]
    constructor
    · intro ⟨⟨⟨⟨⟨_, hdividend⟩, hscale⟩, _⟩, _⟩, hsquare, hlinear, hsum⟩
      exact ⟨hscale, fun _ => hdividend, fun _ => hsquare, fun _ => hlinear, fun _ => hsum⟩
    · intro h
      exact ⟨⟨⟨⟨⟨⟨hdifference.defined, hthousands⟩, h.dividend hne⟩, h.scaled⟩, hne⟩, fits_tdiv (h.dividend hne)⟩,
        h.square hne, h.linear hne, h.polynomial hne⟩

end Pressure

/-! ## What the humidity needs -/

namespace Calibration

structure SafeHumidity (c : Calibration) (adcH fine : ℤ) : Prop where
  offset : adcH - 64 * c.h4 < 131072
  slope : Fits 32 (c.h5 * (fine - 76800))
  difference : Fits 32 (adcH * 2 ^ 14 - c.h4 * 2 ^ 20 - c.h5 * (fine - 76800))
  left : Fits 32 (c.left adcH fine)
  curve : Fits 32 (c.curve fine)
  scaled : Fits 32 ((c.curve fine / 2 ^ 10 + 2097152) * c.h2)
  gain : Fits 32 (c.gain fine)
  uncorrected : Fits 32 (c.uncorrected adcH fine)
  near : -46340 ≤ c.uncorrected adcH fine / 2 ^ 15 ∧ c.uncorrected adcH fine / 2 ^ 15 ≤ 46340
  correction : Fits 32
    (c.uncorrected adcH fine / 2 ^ 15 * (c.uncorrected adcH fine / 2 ^ 15) / 2 ^ 7 * c.h1)

end Calibration

section Humidity

open CInt Numeric

variable (c : Calibration) {adcH : ℤ} {v : CInt 32}

theorem humidityLeft_defined (hH : 0 ≤ adcH ∧ adcH < 2 ^ 16) (hv : v.defined = true) :
    (humidityLeft c v (int32 adcH)).defined = true ↔
      adcH - 64 * c.h4 < 131072 ∧ Fits 32 (c.h5 * v.exact) ∧
        Fits 32 (adcH * 2 ^ 14 - c.h4 * 2 ^ 20 - c.h5 * v.exact) ∧
          Fits 32 (adcH * 2 ^ 14 - c.h4 * 2 ^ 20 - c.h5 * v.exact + 16384) := by
  have hh4 := c.h4.2
  have hh5 := c.h5.2
  simp only [humidityLeft, shr_defined, add_defined, sub_defined, shl_defined, mul_defined, val_defined, ofNat_defined,
    sub_exact, shl_exact, val_exact, mul_exact, ofNat_exact, hv, eq_self, and_true]
  simp only [Fits] at hh4 hh5 ⊢
  generalize (c.h5 : ℤ) * v.exact = slope
  omega

theorem humidityRight_defined (hv : Within v 1256448) :
    (humidityRight c v).defined = true ↔
      Fits 32 (v.exact * c.h6 / 2 ^ 10 * (v.exact * c.h3 / 2 ^ 11 + 32768)) ∧
        Fits 32 ((v.exact * c.h6 / 2 ^ 10 * (v.exact * c.h3 / 2 ^ 11 + 32768) / 2 ^ 10 + 2097152) * c.h2) ∧
          Fits 32 ((v.exact * c.h6 / 2 ^ 10 * (v.exact * c.h3 / 2 ^ 11 + 32768) / 2 ^ 10 + 2097152) * c.h2 + 8192) := by
  have hh2 := c.h2.2
  have hh3 := c.h3.2
  have hh6 := c.h6.2
  simp only [Fits] at hh2 hh6
  have hfirst := mul_bounds hv.bounds (show -(128 : ℤ) ≤ c.h6 ∧ (c.h6 : ℤ) ≤ 128 by omega)
  have hsecond := mul_bounds hv.bounds (show -(256 : ℤ) ≤ c.h3 ∧ (c.h3 : ℤ) ≤ 256 by omega)
  simp only [humidityRight, shr_defined, add_defined, mul_defined, val_defined, ofNat_defined, add_exact,
    shr_exact, val_exact, mul_exact, ofNat_exact, hv.defined, eq_self, true_and]
  generalize v.exact * (c.h6 : ℤ) = first at *
  generalize v.exact * (c.h3 : ℤ) = second at *
  generalize first / 2 ^ 10 * (second / 2 ^ 11 + 32768) = curve
  generalize hscaled : (curve / 2 ^ 10 + 2097152) * (c.h2 : ℤ) = scaled
  simp only [Fits]
  omega

theorem clamped {low high : CInt 32} (hlow : low.defined = true) (hhigh : high.defined = true)
    (hle : low.exact ≤ high.exact) (v : CInt 32) :
    let v' := if v.exact < low.exact then low.after v.defined else v
    let v' := if v'.exact > high.exact then high.after v'.defined else v'
    v'.exact = min (max v.exact low.exact) high.exact ∧ (v'.defined = true ↔ v.defined = true) := by
  by_cases hbelow : v.exact < low.exact
  · have hnot : ¬low.exact > high.exact := by omega
    simp only [if_pos hbelow, after_exact, if_neg hnot, after_defined, hlow, and_true]
    omega
  · by_cases habove : v.exact > high.exact
    · simp only [if_neg hbelow, if_pos habove, after_exact, after_defined, hhigh, and_true]
      omega
    · simp only [if_neg hbelow, if_neg habove, and_true]
      omega

theorem compensateH_exact (tFine : CInt 32) :
    (compensateH c tFine (int32 adcH)).exact = c.humidity adcH tFine.exact := by
  have hzero : (0 : CInt 32).defined = true := rfl
  have hlimit : (419430400 : CInt 32).defined = true := rfl
  have hclamped := fun v => (clamped hzero hlimit (by decide) v).1
  exact congrArg (· / 2 ^ 12) (hclamped _)

theorem corrected_defined (v : CInt 32) :
    (v - (((((v >>> 15) * (v >>> 15)) >>> 7) * int32 c.h1) >>> 4)).defined = true ↔
      v.defined = true ∧ (-46340 ≤ v.exact / 2 ^ 15 ∧ v.exact / 2 ^ 15 ≤ 46340) ∧
        Fits 32 (v.exact / 2 ^ 15 * (v.exact / 2 ^ 15) / 2 ^ 7 * c.h1) := by
  have hh1 := c.h1.2
  simp only [sub_defined, shr_defined, mul_defined, val_defined, mul_exact, shr_exact, val_exact, square_fits]
  constructor
  · intro h
    exact ⟨h.1.1, h.1.2.1.1.2, h.1.2.2⟩
  · rintro ⟨hv, hnear, hcorrection⟩
    refine ⟨⟨hv, ⟨⟨⟨hv, hv⟩, hnear⟩, ?_⟩, hcorrection⟩, ?_⟩
    · constructor <;> omega
    · rw [fits_32] at hcorrection ⊢
      omega

theorem compensateH_defined (hH : 0 ≤ adcH ∧ adcH < 2 ^ 16) {tFine : CInt 32} (hdefined : tFine.defined = true)
    (hfine : -1179648 ≤ tFine.exact ∧ tFine.exact ≤ 1179648) :
    (compensateH c tFine (int32 adcH)).defined = true ↔ c.SafeHumidity adcH tFine.exact := by
  have hoffset : Within (76800 : CInt 32) 76800 := .val (by decide) (by decide)
  have hv : Within (tFine - 76800) 1256448 := Within.sub ⟨hdefined, hfine⟩ hoffset (by decide)
  have hzero : (0 : CInt 32).defined = true := rfl
  have hlimit : (419430400 : CInt 32).defined = true := rfl
  have hclamped := fun v => (clamped hzero hlimit (by decide) v).2
  rw [compensateH, shr_defined]
  refine (hclamped _).trans ?_
  rw [corrected_defined, mul_defined, shr_defined, humidityLeft_defined c hH hv.defined, humidityRight_defined c hv]
  constructor
  · intro ⟨⟨⟨⟨hlow, hslope, hdifference, hleft⟩, hcurve, hscaled, hgain⟩, huncorrected⟩, hnear, hcorrection⟩
    exact ⟨hlow, hslope, hdifference, hleft, hcurve, hscaled, hgain, huncorrected, hnear, hcorrection⟩
  · intro h
    exact ⟨⟨⟨⟨h.offset, h.slope, h.difference, h.left⟩, h.curve, h.scaled, h.gain⟩, h.uncorrected⟩, h.near, h.correction⟩

end Humidity

/-! ## A whole measurement -/

section Measurement

open CInt Numeric

theorem adc_lt (a b c : UInt8) : a.toNat <<< 12 ||| b.toNat <<< 4 ||| c.toNat >>> 4 < 2 ^ 20 := by
  have ha := a.toNat_lt
  have hb := b.toNat_lt
  have hc := c.toNat_lt
  refine Nat.or_lt_two_pow (Nat.or_lt_two_pow ?_ ?_) ?_
  · rw [Nat.shiftLeft_eq]
    omega
  · rw [Nat.shiftLeft_eq]
    omega
  · rw [Nat.shiftRight_eq_div_pow]
    omega

theorem adcH_lt (data : Frame) : adcH data < 2 ^ 16 := by
  have hhigh := (data 6).toNat_lt
  have hlow := (data 7).toNat_lt
  refine Nat.or_lt_two_pow ?_ (by omega)
  rw [Nat.shiftLeft_eq]
  omega

variable (c : Calibration) (data : Frame)

def exactSample : Sample where
  temperatureC := c.temperature (adcT data) / 100
  pressureHpa := c.pressure (adcP data) (c.fine (adcT data)) / 25600
  humidityPct := c.humidity (adcH data) (c.fine (adcT data)) / 1024

def Outcome.Reports (outcome : Outcome) (s : Sample) : Prop :=
  outcome ≠ .undefined ∧ ∀ s', outcome = .sampled s' → s' = s

structure Calibration.Safe : Prop where
  temperature : c.SafeTemperature (adcT data)
  pressure : c.SafePressure (adcP data) (c.fine (adcT data))
  reported : c.pressure (adcP data) (c.fine (adcT data)) % 2 ^ 32 = 0 ∨
    0 ≤ c.pressure (adcP data) (c.fine (adcT data)) ∧ c.pressure (adcP data) (c.fine (adcT data)) < 2 ^ 32
  humidity : c.pressure (adcP data) (c.fine (adcT data)) % 2 ^ 32 ≠ 0 →
    c.SafeHumidity (adcH data) (c.fine (adcT data))

theorem compensateP_exact {adcP : ℤ} (tFine : CInt 32) :
    (compensateP c tFine (int32 adcP)).exact = c.pressure adcP tFine.exact := by
  have hdivisor : (pressureVar1 c (tFine.widen 64 - 128000)).exact = c.divisor tFine.exact := rfl
  rw [compensateP, Calibration.pressure, hdivisor]
  split <;> rfl

theorem refused_reports {defined : Bool} {s : Sample} :
    (Outcome.refused.provided defined).Reports s ↔ defined = true := by
  unfold Outcome.Reports Outcome.provided
  cases defined <;> simp

theorem sampled_reports {defined : Bool} {s s' : Sample} :
    ((Outcome.sampled s').provided defined).Reports s ↔ defined = true ∧ s' = s := by
  unfold Outcome.Reports Outcome.provided
  cases defined <;> simp

theorem toUInt32_eq {w : ℕ} (a : CInt w) : (a.toUInt32 : ℤ) = a.exact ↔ 0 ≤ a.exact ∧ a.exact < 2 ^ 32 := by
  unfold toUInt32
  omega

theorem toUInt32_eq_zero {w : ℕ} (a : CInt w) : a.toUInt32 = 0 ↔ a.exact % 2 ^ 32 = 0 := by
  unfold toUInt32
  omega

variable {c data}

theorem sample_eq_iff {t p h : ℤ} {n : ℕ} :
    (⟨t / 100, n / 25600, h / 1024⟩ : Sample) = ⟨t / 100, p / 25600, h / 1024⟩ ↔ (n : ℤ) = p := by
  constructor
  · intro heq
    have hpressure := congrArg Sample.pressureHpa heq
    rw [div_left_inj' (by norm_num)] at hpressure
    exact_mod_cast hpressure
  · intro heq
    rw [← heq, Int.cast_natCast]

theorem reports_iff (hpass : skipped data = false) : (bme280Read c data).Reports (exactSample c data) ↔ c.Safe data := by
  have hTlt := adc_lt (data 3) (data 4) (data 5)
  have hPlt := adc_lt (data 0) (data 1) (data 2)
  have hHlt := adcH_lt data
  have hT : (0 : ℤ) ≤ adcT data ∧ (adcT data : ℤ) < 2 ^ 20 := by
    unfold adcT
    omega
  have hP : (0 : ℤ) ≤ adcP data ∧ (adcP data : ℤ) < 2 ^ 20 := by
    unfold adcP
    omega
  have hH : (0 : ℤ) ≤ adcH data ∧ (adcH data : ℤ) < 2 ^ 16 := by omega
  have htemperature := compensateT_defined c hT
  rw [bme280Read, hpass, if_neg Bool.false_ne_true]
  by_cases hsafe : c.SafeTemperature (adcT data)
  · have hpressure := compensateP_defined c hP ((compensateT_fine c hT).mpr hsafe) hsafe.fine_bounds
    have hhumidity := compensateH_defined c hH ((compensateT_fine c hT).mpr hsafe) hsafe.fine_bounds
    have hexact : (compensateP c (compensateT c (int32 (adcT data))).1 (int32 (adcP data))).exact =
        c.pressure (adcP data) (c.fine (adcT data)) := compensateP_exact c _
    dsimp only
    rw [htemperature.mpr hsafe, Bool.true_and]
    split
    · rename_i hzero
      rw [toUInt32_eq_zero, hexact] at hzero
      rw [refused_reports, hpressure]
      constructor
      · exact fun h => ⟨hsafe, h, .inl hzero, fun hne => absurd hzero hne⟩
      · exact fun h => h.pressure
    · rename_i hne
      rw [toUInt32_eq_zero, hexact] at hne
      have hkept := toUInt32_eq (compensateP c (compensateT c (int32 (adcT data))).1 (int32 (adcP data)))
      rw [hexact] at hkept
      rw [sampled_reports, Bool.and_eq_true_iff, hpressure, hhumidity, compensateH_exact]
      have hsample := (sample_eq_iff (t := c.temperature (adcT data)) (h := c.humidity (adcH data) (c.fine (adcT data)))
        (n := (compensateP c (compensateT c (int32 (adcT data))).1 (int32 (adcP data))).toUInt32)).trans hkept
      refine (and_congr_right fun _ => hsample).trans ?_
      constructor
      · exact fun h => ⟨hsafe, h.1.1, .inr h.2, fun _ => h.1.2⟩
      · exact fun h => ⟨⟨h.pressure, h.humidity hne⟩, h.reported.resolve_left hne⟩
  · have hoverflows : (compensateT c (int32 (adcT data))).2.defined = false :=
      Bool.eq_false_iff.mpr fun h => hsafe (htemperature.mp h)
    dsimp only
    rw [hoverflows, Bool.false_and, Bool.false_and]
    constructor
    · intro h
      split at h
      · exact absurd (refused_reports.mp h) Bool.false_ne_true
      · exact absurd (sampled_reports.mp h).1 Bool.false_ne_true
    · exact fun h => absurd h.temperature hsafe

end Measurement

/-! ## Blocks and frames that are accepted -/

section Accepted

open Numeric

/-- **A frame is compensated exactly when its block and it are safe.** -/
theorem compensated_iff_safe {registers : Registers} {c : Calibration} (_ : bme280Init registers = some c) {data : Frame}
    (hpass : skipped data = false) : (bme280Read c data).Reports (exactSample c data) ↔ c.Safe data :=
  reports_iff hpass

def Registers.of (low high : List UInt8) : Registers := fun i =>
  if i = 0xD0 then 0x60 else if i < 0xE1 then low.getD (i - 0x88) 0 else high.getD (i - 0xE1) 0

def ordinary : Registers :=
  .of [0x70, 0x6B, 0x43, 0x67, 0x18, 0xFC, 0x7D, 0x8E, 0x43, 0xD6, 0xD0, 0x0B, 0x27, 0x0B, 0x8C, 0x00, 0xF9, 0xFF,
    0x8C, 0x3C, 0xF8, 0xC6, 0x70, 0x17, 0x00, 0x4B] [0x6A, 0x01, 0x00, 0x14, 0x2D, 0x03, 0x1E]

def ordinaryWords : Calibration := (bme280Init ordinary).get rfl

theorem ordinary_init : bme280Init ordinary = some ordinaryWords := rfl

def ordinaryFrame : Frame := fun i => [0x65, 0x5A, 0xC0, 0x7E, 0xED, 0x00, 0x75, 0x30].getD i 0

theorem ordinary_compensated : (bme280Read ordinaryWords ordinaryFrame).Reports (exactSample ordinaryWords ordinaryFrame) := by
  have hpass : skipped ordinaryFrame = false := by decide +kernel
  refine (compensated_iff_safe ordinary_init hpass).mpr ⟨⟨?_, ?_, ?_⟩, ⟨?_, ?_, ?_, ?_, ?_⟩, ?_, fun _ => ⟨?_, ?_, ?_, ?_, ?_, ?_, ?_,
    ?_, ?_, ?_⟩⟩
  all_goals decide +kernel

/-- A bus that is stuck reads as a block of ones, which is accepted, and the square of a temperature offset then
is out of range. -/
theorem stuck_undefined : ∃ c data, bme280Init (.of (List.replicate 26 0xFF) (List.replicate 7 0xFF)) = some c ∧
    skipped data = false ∧ ¬(bme280Read c data).Reports (exactSample c data) := by
  refine ⟨_, fun _ => 0, rfl, rfl, fun h => ?_⟩
  exact absurd ((reports_iff rfl).mp h).temperature.near (by decide +kernel)

end Accepted

end Albusforge.Bme280
