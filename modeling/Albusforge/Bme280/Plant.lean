import Mathlib
import Albusforge.Lib.JsText
import Albusforge.Bme280.Numeric

/-!
# The camera's driver, next to the numeric firmware's

`plant_sensors.c` has the same formulas once more. It decodes two of the words in another way, has no check
for a measurement that was skipped, and keeps the sign of the pressure, which the other driver converts to
`uint32_t`. Both then refuse what is out of range.

**The words and the formulas are the same** (`init_agree`, `plant_read`). The drivers part where the camera
has no check for what the other refuses, and where the conversion brings a pressure into range.
-/

namespace Albusforge.Bme280

open Lib

/-! ## The camera's driver -/

namespace Plant

open CInt

def s12 (value : UInt16) : Int16 :=
  if value &&& 0x0800 ≠ 0 then (value ||| 0xf000).toInt16 else value.toInt16

theorem s12_fin : ∀ b : Fin 256, ∀ n : Fin 16,
    (s12 (((UInt8.ofNat b).toUInt16 <<< 4) ||| (UInt8.ofNat n).toUInt16)).toInt =
      nibbled (UInt8.ofNat b) (UInt8.ofNat n) := by
  decide +kernel

theorem s12_eq (b : UInt8) {n : UInt8} (hn : n.toNat < 16) :
    (s12 ((b.toUInt16 <<< 4) ||| n.toUInt16)).toInt = nibbled b n := by
  have h := s12_fin ⟨b.toNat, b.toNat_lt⟩ ⟨n.toNat, hn⟩
  rwa [UInt8.ofNat_toNat, UInt8.ofNat_toNat] at h

def h12 (b : UInt8) (n : Nibble) : S 12 :=
  ⟨(s12 ((b.toUInt16 <<< 4) ||| n.val.toUInt16)).toInt, s12_eq b n.2 ▸ nibbled_fits b n.2⟩

/-- `bme280_init`, after the reset -/
def bme280Init (registers : Registers) : Option Calibration :=
  let a i := registers (0x88 + i)
  let b i := registers (0xe1 + i)
  let calibration : Calibration := {
    t1 := u16 (a 0) (a 1)
    t2 := s16 (a 2) (a 3)
    t3 := s16 (a 4) (a 5)
    p1 := u16 (a 6) (a 7)
    p2 := s16 (a 8) (a 9)
    p3 := s16 (a 10) (a 11)
    p4 := s16 (a 12) (a 13)
    p5 := s16 (a 14) (a 15)
    p6 := s16 (a 16) (a 17)
    p7 := s16 (a 18) (a 19)
    p8 := s16 (a 20) (a 21)
    p9 := s16 (a 22) (a 23)
    h1 := u8 (a 25)
    h2 := s16 (b 0) (b 1)
    h3 := u8 (b 2)
    h4 := h12 (b 3) (lowNibble (b 4))
    h5 := h12 (b 5) (highNibble (b 4))
    h6 := s8 (b 6) }
  if registers 0xd0 ≠ 0x60 then none
  else if calibration.t1.val = 0 ∨ calibration.p1.val = 0 then none
  else some calibration

def adcP (raw : Frame) : ℕ := (raw 0).toNat <<< 12 ||| (raw 1).toNat <<< 4 ||| (raw 2).toNat >>> 4

def adcT (raw : Frame) : ℕ := (raw 3).toNat <<< 12 ||| (raw 4).toNat <<< 4 ||| (raw 5).toNat >>> 4

def adcH (raw : Frame) : ℕ := (raw 6).toNat <<< 8 ||| (raw 7).toNat

/-- `bme280_read`, once it has the frame. The quotients are exact, and so never infinite. -/
def bme280Read (calibration : Calibration) (raw : Frame) : Outcome :=
  let adcP := int32 (adcP raw)
  let adcT := int32 (adcT raw)
  let adcH := int32 (adcH raw)
  let x1 := (((adcT >>> 3) - (int32 calibration.t1 <<< 1)) * int32 calibration.t2) >>> 11
  let x2 := (((((adcT >>> 4) - int32 calibration.t1) * ((adcT >>> 4) - int32 calibration.t1)) >>> 12) *
    int32 calibration.t3) >>> 14
  let fine := x1 + x2
  let centiC := (fine * 5 + 128) >>> 8
  let var1 := fine.widen 64 - 128000
  let var2 := var1 * var1 * int64 calibration.p6
  let var2 := var2 + ((var1 * int64 calibration.p5) <<< 17)
  let var2 := var2 + (int64 calibration.p4 <<< 35)
  let var1 := ((var1 * var1 * int64 calibration.p3) >>> 8) + ((var1 * int64 calibration.p2) <<< 12)
  let var1 := ((((1 : CInt 64) <<< 47) + var1) * int64 calibration.p1) >>> 33
  if var1.exact = 0 then Outcome.refused.provided (centiC.defined && var1.defined && var2.defined)
  else
    let p := (1048576 - adcP).widen 64
    let p := (((p <<< 31) - var2) * 3125) / var1
    let var1 := (int64 calibration.p9 * (p >>> 13) * (p >>> 13)) >>> 25
    let var2 := (int64 calibration.p8 * p) >>> 19
    let p := ((p + var1 + var2) >>> 8) + (int64 calibration.p7 <<< 4)
    let h := fine - 76800
    let h := (((adcH <<< 14) - (int32 calibration.h4 <<< 20) - (int32 calibration.h5 * h) + 16384) >>> 15) *
      (((((((h * int32 calibration.h6) >>> 10) * (((h * int32 calibration.h3) >>> 11) + 32768)) >>> 10) + 2097152) *
        int32 calibration.h2 + 8192) >>> 14)
    let h := h - (((((h >>> 15) * (h >>> 15)) >>> 7) * int32 calibration.h1) >>> 4)
    let h := if h.exact < 0 then (0 : CInt 32).after h.defined else h
    let h := if h.exact > 419430400 then (419430400 : CInt 32).after h.defined else h
    (Outcome.sampled {
      temperatureC := centiC.exact / 100
      pressureHpa := p.exact / 25600
      humidityPct := (h >>> 12).exact / 1024 }).provided (centiC.defined && p.defined && h.defined)

end Plant

/-! ## What follows on a reading -/

/-- `climate_ok`, for what was read -/
def Sample.climateOk (s : Sample) : Bool :=
  s.temperatureC ≥ -40 && s.temperatureC ≤ 85 && s.pressureHpa ≥ 300 && s.pressureHpa ≤ 1100 &&
    s.humidityPct ≥ 0 && s.humidityPct ≤ 100

/-- The climate that `plant_sensors_read` reports. -/
def plantSensorsRead : Outcome → Option Sample
  | .sampled s => if s.climateOk then some s else none
  | _ => none

structure Reading where
  channel : Text
  value : ℚ
  min : ℚ
  max : ℚ
  synthetic : Bool

def push (capacity : ℕ) (readings : List Reading) (channel : Text) (value min max : ℚ) : Option (List Reading) :=
  if readings.length ≥ capacity then none
  else if value < min ∨ value > max then none
  else some (readings ++ [⟨channel, value, min, max, false⟩])

/-- The part of `hsx_sensors_read` for this sensor, behind what the others have read. -/
def hsxSensorsRead (capacity : ℕ) (readings : List Reading) : Outcome → Option (List Reading)
  | .sampled s => do
    let readings ← push capacity readings (js "temperature") s.temperatureC (-40) 85
    let readings ← push capacity readings (js "humidity") s.humidityPct 0 100
    push capacity readings (js "pressure") s.pressureHpa 300 1100
  | _ => none

def Sample.readings (s : Sample) : List Reading :=
  [⟨js "temperature", s.temperatureC, -40, 85, false⟩, ⟨js "humidity", s.humidityPct, 0, 100, false⟩,
    ⟨js "pressure", s.pressureHpa, 300, 1100, false⟩]

/-! ## What is the same -/

theorem h12_agree (b : UInt8) (n : Nibble) : Plant.h12 b n = Numeric.h12 b n :=
  Subtype.ext ((Plant.s12_eq b n.2).trans (digH_eq b n.2).symm)

theorem init_agree (registers : Registers) : Plant.bme280Init registers = Numeric.bme280Init registers := by
  unfold Plant.bme280Init Numeric.bme280Init
  simp only [h12_agree]

section Reads

open CInt

variable (c : Calibration) (data : Frame)

theorem toUInt32_cast {w : ℕ} (a : CInt w) : (a.toUInt32 : ℤ) = a.exact % 2 ^ 32 := by
  unfold toUInt32
  omega

theorem provided_eq {outcome : Outcome} {defined : Bool} (h : outcome.provided defined ≠ .undefined) :
    outcome.provided defined = outcome := by
  cases defined with
  | true => rfl
  | false => exact absurd rfl h

/-- **The camera's formulas are the exact ones**, as far as they are defined. -/
theorem plant_read (h : Plant.bme280Read c data ≠ .undefined) :
    Plant.bme280Read c data =
      if c.divisor (c.fine (Numeric.adcT data)) = 0 then .refused else .sampled (exactSample c data) := by
  have hzero : (0 : CInt 32).defined = true := rfl
  have hlimit : (419430400 : CInt 32).defined = true := rfl
  have hclamped := fun v => (clamped hzero hlimit (by decide) v).1
  by_cases hdivisor : c.divisor (c.fine (Numeric.adcT data)) = 0
  · have hread : Plant.bme280Read c data = Outcome.refused.provided _ := if_pos hdivisor
    rw [hread] at h
    rw [hread, if_pos hdivisor, provided_eq h]
  · have hread : Plant.bme280Read c data = Outcome.provided (.sampled _) _ := if_neg hdivisor
    rw [hread] at h
    rw [hread, if_neg hdivisor, provided_eq h]
    have hpressure : c.pressure (Numeric.adcP data) (c.fine (Numeric.adcT data)) = _ := if_neg hdivisor
    have hhumidity := fun v => congrArg (· / 2 ^ 12) (hclamped v)
    refine congrArg Outcome.sampled (Sample.ext rfl ?_ ?_)
    · rw [exactSample, hpressure]
      rfl
    · exact congrArg (fun h : ℤ => (h : ℚ) / 1024) (hhumidity _)

/-- What the conversion to `uint32_t` makes of the sample. -/
def wrappedSample : Sample :=
  { exactSample c data with
    pressureHpa := (c.pressure (Numeric.adcP data) (c.fine (Numeric.adcT data)) % 2 ^ 32 : ℤ) / 25600 }

theorem numeric_read (h : Numeric.bme280Read c data ≠ .undefined) :
    Numeric.bme280Read c data =
      if Numeric.skipped data || c.pressure (Numeric.adcP data) (c.fine (Numeric.adcT data)) % 2 ^ 32 == 0 then .refused
      else .sampled (wrappedSample c data) := by
  unfold Numeric.bme280Read at h ⊢
  cases hskipped : Numeric.skipped data with
  | true => rfl
  | false =>
    rw [hskipped, if_neg Bool.false_ne_true] at h
    rw [if_neg Bool.false_ne_true, Bool.false_or]
    dsimp only at h ⊢
    have hexact : (Numeric.compensateP c (Numeric.compensateT c (int32 (Numeric.adcT data))).1
        (int32 (Numeric.adcP data))).exact = c.pressure (Numeric.adcP data) (c.fine (Numeric.adcT data)) :=
      compensateP_exact c _
    split at h
    · rename_i hzero
      rw [if_pos hzero, provided_eq h]
      rw [toUInt32_eq_zero, hexact] at hzero
      rw [if_pos (beq_iff_eq.mpr hzero)]
    · rename_i hne
      rw [if_neg hne, provided_eq h]
      rw [toUInt32_eq_zero, hexact] at hne
      rw [if_neg (by simpa using hne)]
      refine congrArg Outcome.sampled (Sample.ext rfl ?_ ?_)
      · rw [wrappedSample, ← hexact, ← toUInt32_cast, Int.cast_natCast]
      · exact congrArg (fun h : ℤ => (h : ℚ) / 1024) (compensateH_exact c _)

/-! ## What is accepted -/

variable {c data}

theorem climateOk_pressure {s : Sample} {p : ℤ} (hs : s.pressureHpa = p / 25600) (h : s.climateOk = true) :
    7680000 ≤ p ∧ p ≤ 28160000 := by
  simp only [Sample.climateOk, Bool.and_eq_true, decide_eq_true_eq, hs] at h
  obtain ⟨⟨⟨⟨⟨_, _⟩, hlow⟩, hhigh⟩, _⟩, _⟩ := h
  rw [ge_iff_le, le_div_iff₀ (by norm_num)] at hlow
  rw [div_le_iff₀ (by norm_num)] at hhigh
  constructor
  · have hle : ((7680000 : ℤ) : ℚ) ≤ p := by
      push_cast
      linarith
    exact_mod_cast hle
  · have hle : (p : ℚ) ≤ (28160000 : ℤ) := by
      push_cast
      linarith
    exact_mod_cast hle

theorem plant_accepts (h : Plant.bme280Read c data ≠ .undefined) :
    plantSensorsRead (Plant.bme280Read c data) =
      if (exactSample c data).climateOk then some (exactSample c data) else none := by
  rw [plant_read c data h]
  split
  · rename_i hdivisor
    have hpressure : c.pressure (Numeric.adcP data) (c.fine (Numeric.adcT data)) = 0 := if_pos hdivisor
    rw [if_neg]
    · rfl
    · intro hok
      have hrange := climateOk_pressure rfl hok
      omega
  · rfl

theorem push_eq {capacity : ℕ} {readings : List Reading} (hroom : readings.length < capacity) (channel : Text)
    (value min max : ℚ) : push capacity readings channel value min max =
      if min ≤ value ∧ value ≤ max then some (readings ++ [⟨channel, value, min, max, false⟩]) else none := by
  unfold push
  rw [if_neg (by omega)]
  by_cases hrange : min ≤ value ∧ value ≤ max
  · rw [if_pos hrange, if_neg]
    rw [not_or, not_lt, gt_iff_lt, not_lt]
    exact hrange
  · rw [if_neg hrange, if_pos]
    rw [gt_iff_lt, ← not_le, ← not_le, ← not_and_or]
    exact hrange

theorem pushed {capacity : ℕ} {readings : List Reading} (hroom : readings.length + 3 ≤ capacity) (s : Sample) :
    hsxSensorsRead capacity readings (.sampled s) = if s.climateOk then some (readings ++ s.readings) else none := by
  have hok : s.climateOk = true ↔ (-40 ≤ s.temperatureC ∧ s.temperatureC ≤ 85) ∧
      (0 ≤ s.humidityPct ∧ s.humidityPct ≤ 100) ∧ 300 ≤ s.pressureHpa ∧ s.pressureHpa ≤ 1100 := by
    simp only [Sample.climateOk, Bool.and_eq_true, decide_eq_true_eq, ge_iff_le]
    constructor
    · exact fun ⟨⟨⟨⟨⟨ht, ht'⟩, hp⟩, hp'⟩, hh⟩, hh'⟩ => ⟨⟨ht, ht'⟩, ⟨hh, hh'⟩, hp, hp'⟩
    · exact fun ⟨⟨ht, ht'⟩, ⟨hh, hh'⟩, hp, hp'⟩ => ⟨⟨⟨⟨⟨ht, ht'⟩, hp⟩, hp'⟩, hh⟩, hh'⟩
  simp only [hok, hsxSensorsRead, Option.bind_eq_bind]
  rw [push_eq (by omega)]
  by_cases ht : -40 ≤ s.temperatureC ∧ s.temperatureC ≤ 85
  · rw [if_pos ht, Option.bind_some, push_eq (by rw [List.length_append, List.length_singleton]; omega)]
    by_cases hh : 0 ≤ s.humidityPct ∧ s.humidityPct ≤ 100
    · rw [if_pos hh, Option.bind_some,
        push_eq (by rw [List.length_append, List.length_append, List.length_singleton]; exact hroom)]
      simp only [ht, hh, true_and, List.append_assoc]
      rfl
    · rw [if_neg hh, if_neg fun h => hh h.2.1]
      rfl
  · rw [if_neg ht, if_neg fun h => ht h.1]
    rfl

theorem numeric_accepts {capacity : ℕ} {readings : List Reading} (hroom : readings.length + 3 ≤ capacity)
    (h : Numeric.bme280Read c data ≠ .undefined) :
    hsxSensorsRead capacity readings (Numeric.bme280Read c data) =
      if !Numeric.skipped data && (wrappedSample c data).climateOk then
        some (readings ++ (wrappedSample c data).readings)
      else none := by
  rw [numeric_read c data h]
  cases hskipped : Numeric.skipped data with
  | true => rfl
  | false =>
    rw [Bool.false_or, Bool.not_false, Bool.true_and]
    split
    · rename_i hzero
      rw [if_neg]
      · rfl
      · intro hok
        have hrange := climateOk_pressure rfl hok
        rw [beq_iff_eq] at hzero
        omega
    · exact pushed hroom _

def Agree (capacity : ℕ) (readings : List Reading) (numeric plant : Outcome) : Prop :=
  hsxSensorsRead capacity readings numeric = none ∧ plantSensorsRead plant = none ∨
    ∃ s, hsxSensorsRead capacity readings numeric = some (readings ++ s.readings) ∧ plantSensorsRead plant = some s

def Kept (c : Calibration) (data : Frame) : Prop :=
  0 ≤ c.pressure (Numeric.adcP data) (c.fine (Numeric.adcT data)) ∧
    c.pressure (Numeric.adcP data) (c.fine (Numeric.adcT data)) < 2 ^ 32

def WrapsIntoRange (c : Calibration) (data : Frame) : Prop :=
  ¬Kept c data ∧ (wrappedSample c data).climateOk = true

theorem agree_iff {capacity : ℕ} {readings : List Reading} (hroom : readings.length + 3 ≤ capacity)
    (hnumeric : Numeric.bme280Read c data ≠ .undefined) (hplant : Plant.bme280Read c data ≠ .undefined) :
    Agree capacity readings (Numeric.bme280Read c data) (Plant.bme280Read c data) ↔
      (Numeric.skipped data = true → (exactSample c data).climateOk = false) ∧
        (Numeric.skipped data = false → ¬WrapsIntoRange c data) := by
  unfold Agree WrapsIntoRange
  rw [numeric_accepts hroom hnumeric, plant_accepts hplant]
  cases hskipped : Numeric.skipped data with
  | true =>
    cases hok : (exactSample c data).climateOk <;> simp
  | false =>
    by_cases hkept : Kept c data
    · have hsame : wrappedSample c data = exactSample c data := by
        rw [wrappedSample, Int.emod_eq_of_lt hkept.1 hkept.2]
        rfl
      rw [hsame]
      cases hok : (exactSample c data).climateOk <;> simp [hkept]
    · have hrefused : (exactSample c data).climateOk = false := by
        refine Bool.eq_false_iff.mpr fun hok => hkept ?_
        have hrange := climateOk_pressure rfl hok
        exact ⟨by omega, by omega⟩
      cases hok : (wrappedSample c data).climateOk <;> simp [hkept, hrefused]

end Reads

/-! ## The two drivers on one sensor -/

/-- **The drivers agree exactly where** a frame with a measurement that was skipped is out of range by the formulas,
and no pressure of another frame is converted into range. -/
theorem drivers_agree_iff {registers : Registers} {c c' : Calibration} (hnumeric : Numeric.bme280Init registers = some c)
    (hplant : Plant.bme280Init registers = some c') {capacity : ℕ} {readings : List Reading}
    (hroom : readings.length + 3 ≤ capacity) {data : Frame} (hdefined : Numeric.bme280Read c data ≠ .undefined)
    (hdefined' : Plant.bme280Read c' data ≠ .undefined) :
    (Agree capacity readings (Numeric.bme280Read c data) (Plant.bme280Read c' data) ∧
      (Numeric.skipped data = true → hsxSensorsRead capacity readings (Numeric.bme280Read c data) = none ∧
        plantSensorsRead (Plant.bme280Read c' data) = none)) ↔
      (Numeric.skipped data = true → (exactSample c data).climateOk = false) ∧
        (Numeric.skipped data = false → ¬WrapsIntoRange c data) := by
  obtain rfl : c' = c := by
    rw [init_agree, hnumeric] at hplant
    exact (Option.some.inj hplant).symm
  rw [agree_iff hroom hdefined hdefined', and_iff_left_iff_imp]
  intro ⟨hskips, _⟩ hskipped
  rw [numeric_accepts hroom hdefined, plant_accepts hdefined', hskipped, hskips hskipped]
  exact ⟨rfl, rfl⟩

theorem ordinary_plant : Plant.bme280Init ordinary = some ordinaryWords := (init_agree ordinary).trans ordinary_init

/-- An ordinary part in an ordinary room. -/
theorem ordinary_agree :
    Agree 8 [] (Numeric.bme280Read ordinaryWords ordinaryFrame) (Plant.bme280Read ordinaryWords ordinaryFrame) := by
  refine ((drivers_agree_iff ordinary_init ordinary_plant (by decide) ?_ ?_).mpr ⟨?_, ?_⟩).1
  · decide +kernel
  · decide +kernel
  · exact fun h => absurd h (by decide +kernel)
  · exact fun _ h => h.1 ⟨by decide +kernel, by decide +kernel⟩

def skippedFrame : Frame := fun i => [0x65, 0x5A, 0xC0, 0x80, 0x00, 0x00, 0x75, 0x30].getD i 0

/-- The camera reports what it makes of the mark for a skipped temperature. -/
theorem skipped_reported : Numeric.bme280Init ordinary = some ordinaryWords ∧
    Plant.bme280Init ordinary = some ordinaryWords ∧ Numeric.skipped skippedFrame = true ∧
    Numeric.bme280Read ordinaryWords skippedFrame ≠ .undefined ∧
    Plant.bme280Read ordinaryWords skippedFrame ≠ .undefined ∧
    (plantSensorsRead (Plant.bme280Read ordinaryWords skippedFrame)).isSome = true ∧
    ¬Agree 8 [] (Numeric.bme280Read ordinaryWords skippedFrame) (Plant.bme280Read ordinaryWords skippedFrame) := by
  have hreports : (plantSensorsRead (Plant.bme280Read ordinaryWords skippedFrame)).isSome = true := by decide +kernel
  have hrefuses : hsxSensorsRead 8 [] (Numeric.bme280Read ordinaryWords skippedFrame) = none := rfl
  refine ⟨ordinary_init, ordinary_plant, by decide +kernel, by decide +kernel, by decide +kernel, hreports, ?_⟩
  intro hagree
  rcases hagree with ⟨_, hnone⟩ | ⟨s, hsome, _⟩
  · rw [hnone] at hreports
    cases hreports
  · rw [hrefuses] at hsome
    cases hsome

end Albusforge.Bme280
