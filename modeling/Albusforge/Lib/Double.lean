import Mathlib.Data.Int.Log
import Mathlib.Data.Rat.Floor
import Albusforge.Lib.Json

/-!
# Doubles and their texts

The numbers of the host language: binary floating point with 53 bits, `NaN`, two infinities and two
zeros. A magnitude is a rational that rounding leaves alone.

A number is written with the fewest decimal digits that still round to it (`shortest`), and then laid
out with or without an exponent. The text is a decimal whose value rounds back (`nearest_shortest`,
`readDecimal_layout`), so **two magnitudes with one text are one** (`layout_injective`): only the two
zeros share a text.
-/

namespace Albusforge.Lib

/-! ## Rounding -/

/-- The exponent of the last bit of a double near `q`. -/
def lastPlace (q : ℚ) : ℤ := max (-1074) (Int.log 2 q - 52)

def halfEven (q : ℚ) : ℤ :=
  let r := q - ⌊q⌋
  if r < 1 / 2 then ⌊q⌋ else if 1 / 2 < r then ⌊q⌋ + 1 else if ⌊q⌋ % 2 = 0 then ⌊q⌋ else ⌊q⌋ + 1

def nearest (q : ℚ) : ℚ := halfEven (q / 2 ^ lastPlace q) * 2 ^ lastPlace q

structure Magnitude where
  value : ℚ
  positive : 0 < value
  double : nearest value = value
  bounded : value < 2 ^ 1024

theorem Magnitude.ext {m n : Magnitude} (h : m.value = n.value) : m = n := by
  cases m
  cases n
  simpa using h

theorem halfEven_natCast (n : ℕ) : halfEven n = n := by
  unfold halfEven
  have hfloor : ⌊(n : ℚ)⌋ = n := Int.floor_natCast n
  rw [hfloor]
  norm_num

/-! ## The fewest digits -/

/-- `s * 10 ^ e` with `k` digits that rounds to `q`: the closer one of those around `q`. -/
def digitsAt (q : ℚ) (k : ℕ) : Option (ℕ × ℤ) :=
  let e := Int.log 10 q + 1 - k
  let low := ⌊q / 10 ^ e⌋₊
  let below := 0 < low ∧ nearest (low * 10 ^ e) = q
  let above := nearest ((low + 1 : ℕ) * 10 ^ e) = q
  let beyond := q / 10 ^ e - low
  if below ∧ (¬ above ∨ beyond < 1 / 2 ∨ beyond = 1 / 2 ∧ low % 2 = 0) then some (low, e)
  else if above then some (low + 1, e)
  else none

def allDigits (q : ℚ) : ℕ × ℤ :=
  let j := (-lastPlace q).toNat
  (⌊q * 10 ^ j⌋₊, -(j : ℤ))

def stripZeros : ℕ → ℕ × ℤ → ℕ × ℤ
  | 0, d => d
  | fuel + 1, (s, e) => if s % 10 = 0 then stripZeros fuel (s / 10, e + 1) else (s, e)

/-- The fewest digits that round to `q`; seventeen are always enough. -/
def shortest (q : ℚ) : ℕ × ℤ :=
  let d := ((List.range 17).findSome? fun k => digitsAt q (k + 1)).getD (allDigits q)
  stripZeros (decimal d.1).length d

def decimalValue (d : ℕ × ℤ) : ℚ := d.1 * 10 ^ d.2

theorem stripZeros_value (fuel : ℕ) (d : ℕ × ℤ) : decimalValue (stripZeros fuel d) = decimalValue d := by
  induction fuel generalizing d with
  | zero => rfl
  | succ fuel ih =>
    obtain ⟨s, e⟩ := d
    unfold stripZeros
    split
    · rename_i hzero
      rw [ih]
      have hs : (s : ℚ) = 10 * (s / 10 : ℕ) := by
        exact_mod_cast (Nat.mul_div_cancel' (Nat.dvd_of_mod_eq_zero hzero)).symm
      unfold decimalValue
      dsimp only
      rw [hs, zpow_add_one₀ (by norm_num)]
      ring
    · rfl

theorem digitsAt_value {q : ℚ} {k : ℕ} {d : ℕ × ℤ} (h : digitsAt q k = some d) :
    nearest (decimalValue d) = q := by
  unfold digitsAt at h
  dsimp only at h
  split_ifs at h with hbelow habove
  · obtain rfl := Option.some.inj h
    exact hbelow.1.2
  · obtain rfl := Option.some.inj h
    exact habove

theorem allDigits_value {m : Magnitude} : decimalValue (allDigits m.value) = m.value := by
  have htwo : (2 : ℚ) ≠ 0 := by norm_num
  obtain ⟨j, hj⟩ : ∃ j : ℕ, (lastPlace m.value + (-lastPlace m.value).toNat) = (j : ℤ) :=
    ⟨(lastPlace m.value + (-lastPlace m.value).toNat).toNat, by omega⟩
  -- scaled by its last place the value is an integer
  have hint : m.value * 10 ^ (-lastPlace m.value).toNat =
      ((halfEven (m.value / 2 ^ lastPlace m.value) * 2 ^ j * 5 ^ (-lastPlace m.value).toNat : ℤ) : ℚ) := by
    have hpow : (10 : ℚ) ^ (-lastPlace m.value).toNat =
        2 ^ (-lastPlace m.value).toNat * 5 ^ (-lastPlace m.value).toNat := by
      rw [← mul_pow]
      norm_num
    have hsum : (2 : ℚ) ^ lastPlace m.value * 2 ^ (-lastPlace m.value).toNat = 2 ^ j := by
      rw [← zpow_natCast, ← zpow_add₀ htwo, hj, zpow_natCast]
    calc m.value * 10 ^ (-lastPlace m.value).toNat
        = nearest m.value * 10 ^ (-lastPlace m.value).toNat := by rw [m.double]
      _ = halfEven (m.value / 2 ^ lastPlace m.value) *
            (2 ^ lastPlace m.value * 2 ^ (-lastPlace m.value).toNat) * 5 ^ (-lastPlace m.value).toNat := by
          rw [nearest, hpow]
          ring
      _ = _ := by
          rw [hsum]
          push_cast
          ring
  have hpos : (0 : ℚ) ≤ m.value * 10 ^ (-lastPlace m.value).toNat :=
    le_of_lt (mul_pos m.positive (pow_pos (by norm_num) _))
  have hfloor : ((⌊m.value * 10 ^ (-lastPlace m.value).toNat⌋₊ : ℕ) : ℚ) =
      m.value * 10 ^ (-lastPlace m.value).toNat := by
    rw [natCast_floor_eq_intCast_floor hpos, hint, Int.floor_intCast]
  unfold decimalValue allDigits
  dsimp only
  rw [hfloor, zpow_neg, zpow_natCast, mul_assoc, mul_inv_cancel₀, mul_one]
  exact pow_ne_zero _ (by norm_num)

theorem nearest_shortest (m : Magnitude) : nearest (decimalValue (shortest m.value)) = m.value := by
  unfold shortest
  dsimp only
  rw [stripZeros_value]
  cases h : (List.range 17).findSome? fun k => digitsAt m.value (k + 1) with
  | none => rw [Option.getD_none, allDigits_value, m.double]
  | some d =>
    obtain ⟨k, -, hk⟩ := List.exists_of_findSome?_eq_some h
    exact digitsAt_value hk

/-! ## Layout -/

abbrev zeroUnit : ℕ := 48
abbrev plusUnit : ℕ := 43
abbrev exponentUnit : ℕ := 101

def exponentText (z : ℤ) : Text :=
  exponentUnit :: (if z < 0 then hyphen else plusUnit) :: decimal z.natAbs

def layout (d : ℕ × ℤ) : Text :=
  let digits := decimal d.1
  let k := digits.length
  let n := d.2 + k
  if k ≤ n ∧ n ≤ 21 then digits ++ List.replicate (n - k).toNat zeroUnit
  else if 0 < n ∧ n ≤ 21 then digits.take n.toNat ++ dot :: digits.drop n.toNat
  else if -6 < n ∧ n ≤ 0 then zeroUnit :: dot :: (List.replicate (-n).toNat zeroUnit ++ digits)
  else if k = 1 then digits ++ exponentText (n - 1)
  else digits.take 1 ++ dot :: digits.drop 1 ++ exponentText (n - 1)

def readMantissa (t : Text) : ℚ :=
  match split dot t with
  | [whole] => parseDecimal whole
  | [whole, part] => parseDecimal (whole ++ part) / 10 ^ part.length
  | _ => 0

def readExponent : Text → ℤ
  | [] => 0
  | c :: digits => if c = hyphen then -(parseDecimal digits : ℤ) else parseDecimal digits

def readDecimal (t : Text) : ℚ :=
  match split exponentUnit t with
  | [mantissa] => readMantissa mantissa
  | [mantissa, exponent] => readMantissa mantissa * 10 ^ readExponent exponent
  | _ => 0

theorem parseDecimal_append (a b : Text) :
    parseDecimal (a ++ b) = parseDecimal a * 10 ^ b.length + parseDecimal b := by
  have hfold : ∀ (t : Text) (n : ℕ), t.foldl (fun n c => 10 * n + (c - 48)) n =
      n * 10 ^ t.length + t.foldl (fun n c => 10 * n + (c - 48)) 0 := by
    intro t
    induction t with
    | nil => simp
    | cons c t ih =>
      intro n
      rw [List.foldl_cons, List.foldl_cons, ih, ih (10 * 0 + (c - 48)), List.length_cons, pow_succ]
      ring
  unfold parseDecimal
  rw [List.foldl_append, hfold b]

theorem parseDecimal_zeros (j : ℕ) : parseDecimal (List.replicate j zeroUnit) = 0 := by
  induction j with
  | zero => rfl
  | succ j ih => rw [List.replicate_succ', parseDecimal_append, ih]; rfl

def Digits (t : Text) : Prop := ∀ u ∈ t, isDigit u = true

theorem digits_decimal (n : ℕ) : Digits (decimal n) := fun _ hu => Json.isDigit_decimal hu

theorem digits_zeros (j : ℕ) : Digits (List.replicate j zeroUnit) := by
  intro u hu
  rw [(List.mem_replicate.mp hu).2]
  rfl

theorem Digits.append {a b : Text} (ha : Digits a) (hb : Digits b) : Digits (a ++ b) := by
  intro u hu
  exact (List.mem_append.mp hu).elim (ha u) (hb u)

theorem Digits.notMem {t : Text} (h : Digits t) {c : ℕ} (hc : isDigit c = false) : c ∉ t := by
  intro hmem
  rw [h c hmem] at hc
  exact absurd hc (by simp)

theorem readMantissa_whole {t : Text} (h : Digits t) : readMantissa t = parseDecimal t := by
  unfold readMantissa
  rw [split_of_notMem (h.notMem rfl)]

theorem readMantissa_point {a b : Text} (ha : Digits a) (hb : Digits b) :
    readMantissa (a ++ dot :: b) = parseDecimal (a ++ b) / 10 ^ b.length := by
  unfold readMantissa
  rw [split_append (ha.notMem rfl), split_of_notMem (hb.notMem rfl)]

theorem readDecimal_plain {t : Text} (h : exponentUnit ∉ t) : readDecimal t = readMantissa t := by
  unfold readDecimal
  rw [split_of_notMem h]

theorem readDecimal_exponent {t : Text} (h : exponentUnit ∉ t) (z : ℤ) :
    readDecimal (t ++ exponentText z) = readMantissa t * 10 ^ z := by
  have hdigits : exponentUnit ∉ (if z < 0 then hyphen else plusUnit) :: decimal z.natAbs := by
    have hexp := (digits_decimal z.natAbs).notMem (show isDigit exponentUnit = false from rfl)
    split_ifs <;> simpa [exponentUnit, hyphen, plusUnit] using hexp
  have hread : readExponent ((if z < 0 then hyphen else plusUnit) :: decimal z.natAbs) = z := by
    by_cases hneg : z < 0
    · rw [if_pos hneg, readExponent, if_pos rfl, Json.parseDecimal_decimal]
      omega
    · rw [if_neg hneg, readExponent, if_neg (by decide), Json.parseDecimal_decimal]
      omega
  unfold readDecimal exponentText
  rw [split_append h, split_of_notMem hdigits]
  dsimp only
  rw [hread]

/-- **The layout says what the digits say.** -/
theorem readDecimal_layout (d : ℕ × ℤ) : readDecimal (layout d) = decimalValue d := by
  obtain ⟨s, e⟩ := d
  have hten : (10 : ℚ) ≠ 0 := by norm_num
  have hdigits := digits_decimal s
  have hexp : ∀ {t : Text}, Digits t → exponentUnit ∉ t := fun h => h.notMem rfl
  have hpart : ∀ {a b : Text}, Digits a → Digits b → exponentUnit ∉ a ++ dot :: b := by
    intro a b ha hb
    simp only [List.mem_append, List.mem_cons, not_or]
    exact ⟨hexp ha, by decide, hexp hb⟩
  have htake : ∀ n, Digits ((decimal s).take n) := fun n u hu => hdigits u (List.mem_of_mem_take hu)
  have hdrop : ∀ n, Digits ((decimal s).drop n) := fun n u hu => hdigits u (List.mem_of_mem_drop hu)
  have hlength : 0 < (decimal s).length := List.length_pos_iff.mpr (Json.decimal_ne_nil s)
  unfold layout decimalValue
  dsimp only
  split_ifs with hwhole hpoint hsmall hone
  · -- zeros follow the digits
    have hn : (e + (decimal s).length - (decimal s).length).toNat = e.toNat := by omega
    rw [hn, readDecimal_plain (hexp (hdigits.append (digits_zeros _))),
      readMantissa_whole (hdigits.append (digits_zeros _)), parseDecimal_append, parseDecimal_zeros,
      Json.parseDecimal_decimal, List.length_replicate, Nat.add_zero]
    push_cast
    rw [← zpow_natCast, Int.toNat_of_nonneg (by omega)]
  · -- the point stands among them
    rw [readDecimal_plain (hpart (htake _) (hdrop _)), readMantissa_point (htake _) (hdrop _),
      List.take_append_drop, Json.parseDecimal_decimal, List.length_drop, div_eq_mul_inv, ← zpow_natCast,
      ← zpow_neg]
    congr 2
    omega
  · -- the point stands before them
    have hzeros := (digits_zeros (-(e + (decimal s).length)).toNat).append hdigits
    have hfirst : Digits [zeroUnit] := digits_zeros 1
    change readDecimal ([zeroUnit] ++ dot :: _) = _
    rw [readDecimal_plain (hpart hfirst hzeros), readMantissa_point hfirst hzeros, parseDecimal_append,
      parseDecimal_append, parseDecimal_zeros, Json.parseDecimal_decimal, List.length_append,
      List.length_replicate, div_eq_mul_inv, ← zpow_natCast, ← zpow_neg]
    rw [show parseDecimal [zeroUnit] = 0 from rfl, Nat.zero_mul, Nat.zero_add, Nat.zero_mul, Nat.zero_add]
    congr 2
    push_cast
    omega
  · rw [readDecimal_exponent (hexp hdigits), readMantissa_whole hdigits, Json.parseDecimal_decimal]
    congr 2
    omega
  · rw [readDecimal_exponent (hpart (htake _) (hdrop _)), readMantissa_point (htake _) (hdrop _),
      List.take_append_drop, Json.parseDecimal_decimal, List.length_drop, div_eq_mul_inv, mul_assoc,
      ← zpow_natCast, ← zpow_neg, ← zpow_add₀ hten]
    congr 2
    omega

theorem layout_head (d : ℕ × ℤ) : ∃ u rest, layout d = u :: rest ∧ isDigit u = true := by
  obtain ⟨u, rest, hu⟩ := List.exists_cons_of_ne_nil (Json.decimal_ne_nil d.1)
  have hdigit : isDigit u = true := digits_decimal d.1 u (by rw [hu]; simp)
  unfold layout
  dsimp only
  rw [hu]
  split_ifs with hwhole hpoint
  · exact ⟨u, _, rfl, hdigit⟩
  · obtain ⟨j, hj⟩ : ∃ j, (d.2 + (u :: rest).length).toNat = j + 1 := ⟨(d.2 + (u :: rest).length).toNat - 1, by omega⟩
    rw [hj, List.take_succ_cons]
    exact ⟨u, _, rfl, hdigit⟩
  · exact ⟨zeroUnit, _, rfl, rfl⟩
  · exact ⟨u, _, rfl, hdigit⟩
  · exact ⟨u, _, rfl, hdigit⟩

theorem layout_units (d : ℕ × ℤ) : ∀ u ∈ layout d, Json.isNumberUnit u = true := by
  have hdigit : ∀ {u : ℕ}, isDigit u = true → Json.isNumberUnit u = true := by
    intro u hu
    simp [Json.isNumberUnit, hu]
  have hdec : ∀ {n u : ℕ}, u ∈ decimal n → Json.isNumberUnit u = true := fun hu => hdigit (Json.isDigit_decimal hu)
  have hzeros : ∀ {j u : ℕ}, u ∈ List.replicate j zeroUnit → Json.isNumberUnit u = true :=
    fun hu => hdigit (digits_zeros _ _ hu)
  have hexp : ∀ {z : ℤ} {u : ℕ}, u ∈ exponentText z → Json.isNumberUnit u = true := by
    intro z u hu
    unfold exponentText at hu
    rcases List.mem_cons.mp hu with rfl | hu
    · rfl
    rcases List.mem_cons.mp hu with rfl | hu
    · split_ifs <;> rfl
    · exact hdec hu
  intro u hu
  unfold layout at hu
  dsimp only at hu
  split_ifs at hu
  · exact (List.mem_append.mp hu).elim hdec hzeros
  · rcases List.mem_append.mp hu with hu | hu
    · exact hdec (List.mem_of_mem_take hu)
    rcases List.mem_cons.mp hu with rfl | hu
    · rfl
    · exact hdec (List.mem_of_mem_drop hu)
  · rcases List.mem_cons.mp hu with rfl | hu
    · rfl
    rcases List.mem_cons.mp hu with rfl | hu
    · rfl
    · exact (List.mem_append.mp hu).elim hzeros hdec
  · exact (List.mem_append.mp hu).elim hdec hexp
  · rcases List.mem_append.mp hu with hu | hu
    · rcases List.mem_append.mp hu with hu | hu
      · exact hdec (List.mem_of_mem_take hu)
      rcases List.mem_cons.mp hu with rfl | hu
      · rfl
      · exact hdec (List.mem_of_mem_drop hu)
    · exact hexp hu

theorem layout_ne_zero (m : Magnitude) : layout (shortest m.value) ≠ [zeroUnit] := by
  intro h
  have hvalue : decimalValue (shortest m.value) = 0 := by
    rw [← readDecimal_layout, h]
    rfl
  have hdouble := nearest_shortest m
  rw [hvalue, nearest, zero_div, show ((0 : ℚ)) = ((0 : ℕ) : ℚ) by norm_num, halfEven_natCast] at hdouble
  have hpos := m.positive
  rw [← hdouble] at hpos
  simp at hpos

theorem layout_injective {m n : Magnitude} (h : layout (shortest m.value) = layout (shortest n.value)) :
    m = n := by
  apply Magnitude.ext
  calc m.value = nearest (decimalValue (shortest m.value)) := (nearest_shortest m).symm
    _ = nearest (decimalValue (shortest n.value)) := by rw [← readDecimal_layout, h, readDecimal_layout]
    _ = n.value := nearest_shortest n

/-! ## Doubles -/

inductive Double where
  | nan
  | infinite (negative : Bool)
  | zero (negative : Bool)
  | finite (negative : Bool) (m : Magnitude)

namespace Double

/-- `Number.isFinite(x)` -/
def isFinite : Double → Bool
  | nan => false
  | infinite _ => false
  | zero _ => true
  | finite _ _ => true

/-- `x === y` -/
def StrictEq : Double → Double → Prop
  | infinite s, infinite t => s = t
  | zero _, zero _ => True
  | finite s m, finite t n => s = t ∧ m = n
  | _, _ => False

def signText (negative : Bool) : Text := if negative then [hyphen] else []

/-- `String(x)` -/
def text : Double → Text
  | nan => js "NaN"
  | infinite negative => signText negative ++ js "Infinity"
  | zero _ => [zeroUnit]
  | finite negative m => signText negative ++ layout (shortest m.value)

instance : Json.NumberText Double := ⟨text⟩

theorem signText_layout {s t : Bool} {m n : Magnitude}
    (h : signText s ++ layout (shortest m.value) = signText t ++ layout (shortest n.value)) : s = t ∧ m = n := by
  have hhead : ∀ {m n : Magnitude}, hyphen :: layout (shortest m.value) ≠ layout (shortest n.value) := by
    intro m n heq
    obtain ⟨u, rest, hu, hdigit⟩ := layout_head (shortest n.value)
    rw [hu] at heq
    rw [← (List.cons.inj heq).1] at hdigit
    exact absurd hdigit (by decide)
  cases s with
  | false =>
    cases t with
    | false => exact ⟨rfl, layout_injective h⟩
    | true => exact absurd h.symm hhead
  | true =>
    cases t with
    | false => exact absurd h hhead
    | true => exact ⟨rfl, layout_injective (List.cons.inj h).2⟩

theorem signText_ne_zero (s : Bool) (m : Magnitude) : signText s ++ layout (shortest m.value) ≠ [zeroUnit] := by
  cases s with
  | false => exact layout_ne_zero m
  | true =>
    intro h
    exact absurd (List.cons.inj h).1 (by decide)

end Double

inductive JsonDouble where
  | zero
  | finite (negative : Bool) (m : Magnitude)

namespace JsonDouble

def toDouble : JsonDouble → Double
  | zero => .zero false
  | finite negative m => .finite negative m

def ofDouble : Double → Option JsonDouble
  | .nan => none
  | .infinite _ => none
  | .zero _ => some zero
  | .finite negative m => some (finite negative m)

instance : Json.NumberText JsonDouble := ⟨fun x => x.toDouble.text⟩

theorem ofDouble_eq_iff {x y : Double} {m n : JsonDouble} (hx : ofDouble x = some m) (hy : ofDouble y = some n) :
    m = n ↔ x.StrictEq y := by
  cases x with
  | nan => exact absurd hx (by simp [ofDouble])
  | infinite _ => exact absurd hx (by simp [ofDouble])
  | zero _ =>
    obtain rfl := Option.some.inj hx
    cases y with
    | nan => exact absurd hy (by simp [ofDouble])
    | infinite _ => exact absurd hy (by simp [ofDouble])
    | zero _ =>
      obtain rfl := Option.some.inj hy
      simp [Double.StrictEq]
    | finite _ _ =>
      obtain rfl := Option.some.inj hy
      simp [Double.StrictEq]
  | finite _ _ =>
    obtain rfl := Option.some.inj hx
    cases y with
    | nan => exact absurd hy (by simp [ofDouble])
    | infinite _ => exact absurd hy (by simp [ofDouble])
    | zero _ =>
      obtain rfl := Option.some.inj hy
      simp [Double.StrictEq]
    | finite _ _ =>
      obtain rfl := Option.some.inj hy
      simp [Double.StrictEq]

instance : Json.LawfulText JsonDouble where
  toText_ne_nil x := by
    cases x with
    | zero => exact List.cons_ne_nil _ _
    | finite s m =>
      obtain ⟨u, rest, hu, -⟩ := layout_head (shortest m.value)
      change Double.signText s ++ layout (shortest m.value) ≠ []
      simp [hu]
  toText_units x u hu := by
    cases x with
    | zero =>
      obtain rfl := List.mem_singleton.mp hu
      rfl
    | finite s m =>
      change u ∈ Double.signText s ++ layout (shortest m.value) at hu
      rcases List.mem_append.mp hu with hsign | hu
      · cases s with
        | false => exact absurd hsign (by simp [Double.signText])
        | true =>
          obtain rfl := List.mem_singleton.mp hsign
          rfl
      · exact layout_units _ u hu
  toText_injective x y h := by
    cases x with
    | zero =>
      cases y with
      | zero => rfl
      | finite t n => exact absurd h.symm (Double.signText_ne_zero t n)
    | finite s m =>
      cases y with
      | zero => exact absurd h (Double.signText_ne_zero s m)
      | finite t n =>
        obtain ⟨rfl, rfl⟩ := Double.signText_layout h
        rfl

end JsonDouble

/-- A tenth, the first integer that is written with an exponent, and the least number of all. -/
example : layout (shortest (nearest (1 / 10))) = js "0.1" ∧ layout (shortest (nearest (10 ^ 21))) = js "1e+21" ∧
    layout (shortest (nearest (5 / 10 ^ 324))) = js "5e-324" := by
  decide +kernel

end Albusforge.Lib
