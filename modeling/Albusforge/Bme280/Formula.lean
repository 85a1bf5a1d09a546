import Mathlib.Algebra.Order.Ring.Rat
import Albusforge.Lib.CInt

/-!
# The compensation of a BME280

The sensor has a block of calibration words, which two drivers read and use in the same formulas. Here are
the words, each with the range of its type, and what the formulas come to by exact arithmetic, where a
shift is by a power of two and nothing has a width.
-/

namespace Albusforge.Bme280

open Lib

abbrev U (w : ℕ) : Type := { x : ℤ // 0 ≤ x ∧ x < 2 ^ w }

abbrev S (w : ℕ) : Type := { x : ℤ // Fits w x }

abbrev Registers : Type := ℕ → UInt8

abbrev Frame : Type := Fin 8 → UInt8

instance instNeZeroEight : NeZero 8 := ⟨by decide⟩

@[ext] structure Calibration where
  t1 : U 16
  t2 : S 16
  t3 : S 16
  p1 : U 16
  p2 : S 16
  p3 : S 16
  p4 : S 16
  p5 : S 16
  p6 : S 16
  p7 : S 16
  p8 : S 16
  p9 : S 16
  h1 : U 8
  h2 : S 16
  h3 : U 8
  h4 : S 12
  h5 : S 12
  h6 : S 8

@[ext] structure Sample where
  temperatureC : ℚ
  pressureHpa : ℚ
  humidityPct : ℚ
  deriving DecidableEq

inductive Outcome
  | undefined
  | refused
  | sampled (s : Sample)
  deriving DecidableEq

def Outcome.provided (outcome : Outcome) (defined : Bool) : Outcome := if defined then outcome else .undefined

/-! ## The words -/

def u16 (low high : UInt8) : U 16 :=
  ⟨((high.toUInt16 <<< 8) ||| low.toUInt16).toNat, Int.natCast_nonneg _, by
    have := ((high.toUInt16 <<< 8) ||| low.toUInt16).toNat_lt
    omega⟩

def s16 (low high : UInt8) : S 16 :=
  ⟨((high.toUInt16 <<< 8) ||| low.toUInt16).toInt16.toInt, Int16.le_toInt _, Int16.toInt_lt _⟩

def u8 (b : UInt8) : U 8 := ⟨b.toNat, Int.natCast_nonneg _, by have := b.toNat_lt; omega⟩

def s8 (b : UInt8) : S 8 := ⟨b.toInt8.toInt, Int8.le_toInt _, Int8.toInt_lt _⟩

def nibbled (b n : UInt8) : ℤ := 16 * b.toInt8.toInt + n.toNat

theorem nibbled_fits (b : UInt8) {n : UInt8} (hn : n.toNat < 16) : Fits 12 (nibbled b n) := by
  have hlow := Int8.le_toInt b.toInt8
  have hhigh := Int8.toInt_lt b.toInt8
  unfold nibbled
  constructor <;> omega

/-! ## The temperature -/

namespace Calibration

variable (c : Calibration) (adcT adcP adcH : ℤ)

def offset1 : ℤ := adcT / 2 ^ 3 - c.t1 * 2 ^ 1

def offset2 : ℤ := adcT / 2 ^ 4 - c.t1

def fine : ℤ :=
  c.offset1 adcT * c.t2 / 2 ^ 11 + c.offset2 adcT * c.offset2 adcT / 2 ^ 12 * c.t3 / 2 ^ 14

def temperature : ℤ := (c.fine adcT * 5 + 128) / 2 ^ 8

/-! ## The pressure, for a fine temperature -/

variable (fine : ℤ)

def sensitivity : ℤ :=
  2 ^ 47 + ((fine - 128000) * (fine - 128000) * c.p3 / 2 ^ 8 + (fine - 128000) * c.p2 * 2 ^ 12)

def divisor : ℤ := c.sensitivity fine * c.p1 / 2 ^ 33

def dividend : ℤ :=
  ((1048576 - adcP) * 2 ^ 31 - ((fine - 128000) * (fine - 128000) * c.p6 + (fine - 128000) * c.p5 * 2 ^ 17 +
    c.p4 * 2 ^ 35)) * 3125

def quotient : ℤ := (c.dividend adcP fine).tdiv (c.divisor fine)

def square : ℤ := c.p9 * (c.quotient adcP fine / 2 ^ 13) * (c.quotient adcP fine / 2 ^ 13)

def linear : ℤ := c.p8 * c.quotient adcP fine

def polynomial : ℤ := c.quotient adcP fine + c.square adcP fine / 2 ^ 25 + c.linear adcP fine / 2 ^ 19

def pressure : ℤ := if c.divisor fine = 0 then 0 else c.polynomial adcP fine / 2 ^ 8 + c.p7 * 2 ^ 4

/-! ## The humidity, for a fine temperature -/

def left : ℤ := adcH * 2 ^ 14 - c.h4 * 2 ^ 20 - c.h5 * (fine - 76800) + 16384

def curve : ℤ := (fine - 76800) * c.h6 / 2 ^ 10 * ((fine - 76800) * c.h3 / 2 ^ 11 + 32768)

def gain : ℤ := (c.curve fine / 2 ^ 10 + 2097152) * c.h2 + 8192

def uncorrected : ℤ := c.left adcH fine / 2 ^ 15 * (c.gain fine / 2 ^ 14)

def correction : ℤ :=
  (c.uncorrected adcH fine / 2 ^ 15) * (c.uncorrected adcH fine / 2 ^ 15) / 2 ^ 7 * c.h1 / 2 ^ 4

def humidity : ℤ := min (max (c.uncorrected adcH fine - c.correction adcH fine) 0) 419430400 / 2 ^ 12

end Calibration

end Albusforge.Bme280
