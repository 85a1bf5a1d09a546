import Albusforge.Lib.Double
import Albusforge.Lib.JsonParse

/-!
# `%.6g`

A number is rounded to six significant digits, to the even one of two, and laid out with or without an
exponent; zeros at the end are left out. **The text is JSON's for the rounded number** (`spelt_printG`), and
rounding passes no integer of six digits (`roundSix_le`, `le_roundSix`).
-/

namespace Albusforge.Lib

open Json

/-! ## Six digits -/

def lastDigit (q : ℚ) : ℤ := Int.log 10 q - 5

def sixDigits (q : ℚ) : ℕ × ℤ :=
  if q = 0 then (0, 0) else stripZeros 6 ((halfEven (q / 10 ^ lastDigit q)).toNat, lastDigit q)

def roundSix (q : ℚ) : ℚ := decimalValue (sixDigits q)

theorem halfEven_le {x : ℚ} {n : ℤ} (h : x ≤ n) : halfEven x ≤ n := by
  have hfloor : ⌊x⌋ ≤ n := by
    have hle := (Int.floor_le x).trans h
    exact_mod_cast hle
  unfold halfEven
  dsimp only
  by_cases heq : ⌊x⌋ = n
  · have hx : x = n := le_antisymm h (heq ▸ Int.floor_le x)
    rw [hx, Int.floor_intCast, sub_self, if_pos (by norm_num)]
  · split_ifs <;> omega

theorem le_halfEven {x : ℚ} {n : ℤ} (h : (n : ℚ) ≤ x) : n ≤ halfEven x := by
  have hfloor : n ≤ ⌊x⌋ := Int.le_floor.mpr h
  unfold halfEven
  dsimp only
  split_ifs <;> omega

theorem lastDigit_le {q : ℚ} (hq : 0 < q) (hlt : q < 10 ^ 6) : lastDigit q ≤ 0 := by
  have hlog : Int.log 10 q < 6 := (Int.lt_zpow_iff_log_lt (by norm_num) hq).mp (by exact_mod_cast hlt)
  unfold lastDigit
  omega

theorem scaled_int {e : ℤ} (he : e ≤ 0) (n : ℕ) : (n : ℚ) / 10 ^ e = ((n * 10 ^ (-e).toNat : ℕ) : ℤ) := by
  have hneg : (10 : ℚ) ^ e = (10 ^ (-e).toNat)⁻¹ := by
    rw [← zpow_natCast, ← zpow_neg, Int.toNat_of_nonneg (by omega), neg_neg]
  rw [hneg, div_inv_eq_mul]
  push_cast
  rfl

theorem roundSix_eq {q : ℚ} (hq : 0 < q) :
    roundSix q = (halfEven (q / 10 ^ lastDigit q)).toNat * 10 ^ lastDigit q := by
  unfold roundSix sixDigits
  rw [if_neg (ne_of_gt hq), stripZeros_value]
  rfl

theorem roundSix_le {q : ℚ} {n : ℕ} (hq : 0 ≤ q) (hle : q ≤ n) (hn : n < 10 ^ 6) : roundSix q ≤ n := by
  rcases hq.eq_or_lt with rfl | hpos
  · simp [roundSix, sixDigits, decimalValue]
  · have hn' : (n : ℚ) < 10 ^ 6 := by exact_mod_cast hn
    have hlast := lastDigit_le hpos (lt_of_le_of_lt hle hn')
    have hten : (0 : ℚ) < 10 ^ lastDigit q := zpow_pos (by norm_num) _
    have hdiv : q / 10 ^ lastDigit q ≤ ((n * 10 ^ (-lastDigit q).toNat : ℕ) : ℤ) := by
      rw [← scaled_int hlast]
      exact div_le_div_of_nonneg_right hle hten.le
    have hround := halfEven_le hdiv
    have hnat : (((halfEven (q / 10 ^ lastDigit q)).toNat : ℕ) : ℚ) ≤ n / 10 ^ lastDigit q := by
      rw [scaled_int hlast]
      exact_mod_cast (show ((halfEven (q / 10 ^ lastDigit q)).toNat : ℤ) ≤ (n * 10 ^ (-lastDigit q).toNat : ℕ) by omega)
    rw [roundSix_eq hpos]
    exact (le_div_iff₀ hten).mp hnat

theorem le_roundSix {q : ℚ} {n : ℕ} (hq : 0 < q) (hle : (n : ℚ) ≤ q) (hlt : q < 10 ^ 6) : (n : ℚ) ≤ roundSix q := by
  have hlast := lastDigit_le hq hlt
  have hten : (0 : ℚ) < 10 ^ lastDigit q := zpow_pos (by norm_num) _
  have hdiv : (((n * 10 ^ (-lastDigit q).toNat : ℕ) : ℤ) : ℚ) ≤ q / 10 ^ lastDigit q := by
    rw [← scaled_int hlast]
    exact div_le_div_of_nonneg_right hle hten.le
  have hround := le_halfEven hdiv
  have hnat : (n : ℚ) / 10 ^ lastDigit q ≤ ((halfEven (q / 10 ^ lastDigit q)).toNat : ℕ) := by
    rw [scaled_int hlast]
    exact_mod_cast (show ((n * 10 ^ (-lastDigit q).toNat : ℕ) : ℤ) ≤ (halfEven (q / 10 ^ lastDigit q)).toNat by omega)
  rw [roundSix_eq hq]
  exact (div_le_iff₀ hten).mp hnat

/-! ## Reading a number by its parts -/

def numberText (whole fraction power : Text) : Text :=
  whole ++ ((if fraction = [] then [] else dot :: fraction) ++ power)

theorem takeWhile_digits {t rest : Text} (ht : Digits t) (hrest : ∀ u ∈ rest.head?, isDigit u = false) :
    (t ++ rest).takeWhile isDigit = t ∧ (t ++ rest).dropWhile isDigit = rest := by
  rw [List.takeWhile_append_of_pos ht, List.dropWhile_append_of_pos ht]
  cases rest with
  | nil => exact ⟨List.append_nil _, rfl⟩
  | cons u rest =>
    have hu : isDigit u = false := hrest u rfl
    rw [List.takeWhile_cons_of_neg (by simp [hu]), List.dropWhile_cons_of_neg (by simp [hu]), List.append_nil]
    exact ⟨rfl, rfl⟩

structure Power (power : Text) (e : ℤ) : Prop where
  reads : Json.readExponent power = some e
  starts : ∀ u ∈ power.head?, isDigit u = false ∧ u ≠ dot
  units : ∀ u ∈ power, isDecimalUnit u = true

/-- **A number is read by its parts.** -/
theorem readNumber_parts {whole fraction power : Text} {e : ℤ} (negative : Bool) (hwhole : isWhole whole = true)
    (hdigits : Digits whole) (hfraction : Digits fraction) (hpower : Power power e) :
    readNumber ((if negative then [hyphen] else []) ++ numberText whole fraction power) =
      some ((if negative then -1 else 1) * (parseDecimal (whole ++ fraction) : ℚ) *
        10 ^ (e - (fraction.length : ℤ))) := by
  have hsign : readSign ((if negative then [hyphen] else []) ++ numberText whole fraction power) =
      (negative, numberText whole fraction power) := by
    cases negative with
    | true => rfl
    | false =>
      cases whole with
      | nil => cases hwhole
      | cons u rest =>
        have hu : isDigit u = true := hdigits u List.mem_cons_self
        have hne : u ≠ 45 := by
          intro heq
          rw [heq] at hu
          cases hu
        rw [if_neg Bool.false_ne_true, List.nil_append, numberText, List.cons_append]
        unfold readSign
        split
        · rename_i heq
          exact absurd (List.cons.inj heq).1 hne
        · rfl
  have hrest : ∀ u ∈ ((if fraction = [] then [] else dot :: fraction) ++ power).head?, isDigit u = false := by
    split
    · exact fun u hu => (hpower.starts u hu).1
    · intro u hu
      obtain rfl : dot = u := Option.some.inj hu
      rfl
  have hread : readFraction ((if fraction = [] then [] else dot :: fraction) ++ power) = some (fraction, power) := by
    split
    · rename_i hempty
      rw [hempty, List.nil_append]
      unfold readFraction
      split
      · exact absurd rfl (hpower.starts 46 rfl).2
      · rfl
    · rename_i hne
      obtain ⟨htake, hdrop⟩ := takeWhile_digits hfraction fun u hu => (hpower.starts u hu).1
      rw [List.cons_append, readFraction, htake, hdrop, if_neg (by simpa using hne)]
  obtain ⟨htake, hdrop⟩ := takeWhile_digits hdigits hrest
  rw [readNumber, hsign]
  dsimp only
  rw [numberText, htake, hdrop, hwhole, hread]
  simp only [Bool.not_true, Bool.false_eq_true, if_false, Option.bind_some, hpower.reads, Option.map_some]

/-! ## The layout -/

def powerText (z : ℤ) : Text :=
  exponentUnit :: (if z < 0 then hyphen else plusUnit) :: ((if z.natAbs < 10 then [zeroUnit] else []) ++ decimal z.natAbs)

def layoutG (d : ℕ × ℤ) : Text :=
  let digits := decimal d.1
  let k := digits.length
  -- where the point stands; the exponent is one less
  let n := d.2 + k
  if -4 ≤ n - 1 ∧ n - 1 < 6 then
    if k ≤ n then numberText (digits ++ List.replicate (n - k).toNat zeroUnit) [] []
    else if 0 < n then numberText (digits.take n.toNat) (digits.drop n.toNat) []
    else numberText [zeroUnit] (List.replicate (-n).toNat zeroUnit ++ digits) []
  else numberText (digits.take 1) (digits.drop 1) (powerText (n - 1))

/-- `%.6g` -/
def printG (negative : Bool) (magnitude : ℚ) : Numeral where
  text := (if negative then [hyphen] else []) ++ layoutG (sixDigits magnitude)
  value := (if negative then -1 else 1) * roundSix magnitude

theorem power_nil : Power [] 0 := ⟨rfl, nofun, nofun⟩

theorem powerText_units (z : ℤ) : ∀ u ∈ powerText z, isDecimalUnit u = true := by
  intro u hu
  rcases List.mem_cons.mp hu with rfl | hu
  · rfl
  rcases List.mem_cons.mp hu with rfl | hu
  · split <;> rfl
  rcases List.mem_append.mp hu with hu | hu
  · split at hu
    · obtain rfl := List.mem_singleton.mp hu
      rfl
    · cases hu
  · simp [isDecimalUnit, isDigit_decimal hu]

theorem power_text (z : ℤ) : Power (powerText z) z := by
  have hdigits : Digits ((if z.natAbs < 10 then [zeroUnit] else []) ++ decimal z.natAbs) := by
    refine Digits.append ?_ (digits_decimal _)
    split
    · exact digits_zeros 1
    · nofun
  have hvalue : parseDecimal ((if z.natAbs < 10 then [zeroUnit] else []) ++ decimal z.natAbs) = z.natAbs := by
    rw [parseDecimal_append, parseDecimal_decimal]
    split
    · rw [show parseDecimal [zeroUnit] = 0 from rfl, Nat.zero_mul, Nat.zero_add]
    · rw [show parseDecimal [] = 0 from rfl, Nat.zero_mul, Nat.zero_add]
  generalize hpart : (if z.natAbs < 10 then [zeroUnit] else []) ++ decimal z.natAbs = digits at hdigits hvalue
  have hne : digits.isEmpty = false := by
    rw [← hpart]
    simp [decimal_ne_nil]
  refine ⟨?_, ?_, powerText_units z⟩
  · have hall : digits.all isDigit = true := List.all_eq_true.mpr hdigits
    rw [powerText, hpart, Json.readExponent, if_pos (by simp [exponentUnit]), readPower]
    by_cases hneg : z < 0
    · rw [if_pos hneg, if_neg (by simp [hyphen]), show readSign (hyphen :: digits) = (true, digits) from rfl]
      dsimp only
      rw [hne, hall, hvalue]
      simp only [Bool.not_true, Bool.or_false, Bool.false_eq_true, if_false, if_true]
      congr 1
      omega
    · rw [if_neg hneg, if_pos (by simp [plusUnit]), List.tail_cons]
      dsimp only
      rw [hne, hall, hvalue]
      simp only [Bool.not_true, Bool.or_false, Bool.false_eq_true, if_false]
      congr 1
      omega
  · intro u hu
    obtain rfl : exponentUnit = u := Option.some.inj hu
    exact ⟨rfl, by decide⟩

theorem isWhole_take {n : ℕ} (hn : 0 < n) {j : ℕ} (hj : 0 < j) : isWhole ((decimal n).take j) = true := by
  obtain ⟨hwhole, hhead⟩ := isWhole_decimal n
  have hne := hhead hn
  obtain ⟨u, rest, hu⟩ := List.exists_cons_of_ne_nil (decimal_ne_nil n)
  obtain ⟨j, rfl⟩ := Nat.exists_eq_succ_of_ne_zero (Nat.pos_iff_ne_zero.mp hj)
  rw [hu, List.head?_cons] at hne
  have hu48 : u ≠ 48 := by simpa using hne
  rw [hu, List.take_succ_cons]
  simp [isWhole, hu48]

structure Parts (text : Text) (q : ℚ) where
  whole : Text
  fraction : Text
  power : Text
  exponent : ℤ
  text_eq : text = numberText whole fraction power
  isWhole : isWhole whole = true
  wholeDigits : Digits whole
  fractionDigits : Digits fraction
  ends : Power power exponent
  value : (parseDecimal (whole ++ fraction) : ℚ) * 10 ^ (exponent - (fraction.length : ℤ)) = q

theorem layoutG_zero : Nonempty (Parts (layoutG (0, 0)) (decimalValue (0, 0))) :=
  ⟨{ whole := [zeroUnit], fraction := [], power := [], exponent := 0, text_eq := rfl, isWhole := rfl,
     wholeDigits := digits_zeros 1, fractionDigits := nofun, ends := power_nil,
     value := by simp [decimalValue, show parseDecimal [zeroUnit] = 0 from rfl] }⟩

theorem layoutG_parts {d : ℕ × ℤ} (hpos : 0 < d.1) : Nonempty (Parts (layoutG d) (decimalValue d)) := by
  obtain ⟨s, e⟩ := d
  have hdigits := digits_decimal s
  have htake : ∀ j, Digits ((decimal s).take j) := fun j u hu => hdigits u (List.mem_of_mem_take hu)
  have hdrop : ∀ j, Digits ((decimal s).drop j) := fun j u hu => hdigits u (List.mem_of_mem_drop hu)
  have hlength : 0 < (decimal s).length := List.length_pos_iff.mpr (decimal_ne_nil s)
  unfold layoutG decimalValue
  dsimp only at hpos ⊢
  split_ifs with hplain hend hpoint
  · -- zeros follow the digits
    refine ⟨⟨_, _, _, _, rfl, isWhole_append (isWhole_decimal s).1 ((isWhole_decimal s).2 hpos) _,
      hdigits.append (digits_zeros _), nofun, power_nil, ?_⟩⟩
    rw [List.append_nil, parseDecimal_append, parseDecimal_zeros, parseDecimal_decimal, List.length_replicate, Nat.add_zero]
    push_cast
    rw [← zpow_natCast, Int.toNat_of_nonneg (by omega)]
    simp
  · -- the point stands among them
    refine ⟨⟨_, _, _, _, rfl, isWhole_take hpos (by omega), htake _, hdrop _, power_nil, ?_⟩⟩
    rw [List.take_append_drop, parseDecimal_decimal, List.length_drop]
    congr 2
    omega
  · -- the point stands before them
    refine ⟨⟨_, _, _, _, rfl, rfl, digits_zeros 1, (digits_zeros _).append hdigits, power_nil, ?_⟩⟩
    rw [parseDecimal_append, parseDecimal_append, parseDecimal_zeros, parseDecimal_decimal, List.length_append,
      List.length_replicate, show parseDecimal [zeroUnit] = 0 from rfl, Nat.zero_mul, Nat.zero_add, Nat.zero_mul,
      Nat.zero_add]
    congr 2
    push_cast
    omega
  · refine ⟨⟨_, _, _, _, rfl, isWhole_take hpos Nat.one_pos, htake _, hdrop _, power_text _, ?_⟩⟩
    rw [List.take_append_drop, parseDecimal_decimal, List.length_drop]
    congr 2
    omega

theorem stripZeros_pos (fuel : ℕ) {d : ℕ × ℤ} (hpos : 0 < d.1) : 0 < (stripZeros fuel d).1 := by
  induction fuel generalizing d with
  | zero => exact hpos
  | succ fuel ih =>
    obtain ⟨s, e⟩ := d
    unfold stripZeros
    split
    · rename_i hzero
      dsimp only at hpos
      exact ih (by dsimp only; omega)
    · exact hpos

theorem sixDigits_pos {q : ℚ} (hq : 0 < q) : 0 < (sixDigits q).1 := by
  have hten : (0 : ℚ) < 10 ^ lastDigit q := zpow_pos (by norm_num) _
  have hlog : (10 : ℚ) ^ Int.log 10 q ≤ q := by exact_mod_cast Int.zpow_log_le_self (by norm_num) hq
  have hone : ((1 : ℤ) : ℚ) ≤ q / 10 ^ lastDigit q := by
    rw [le_div_iff₀ hten, Int.cast_one, one_mul]
    refine le_trans (zpow_le_zpow_right₀ (by norm_num) ?_) hlog
    unfold lastDigit
    omega
  have hround := le_halfEven hone
  unfold sixDigits
  rw [if_neg hq.ne']
  refine stripZeros_pos 6 ?_
  dsimp only
  omega

theorem sixDigits_parts {q : ℚ} (hq : 0 ≤ q) : Nonempty (Parts (layoutG (sixDigits q)) (roundSix q)) := by
  rcases hq.eq_or_lt with rfl | hpos
  · have hzero : sixDigits 0 = (0, 0) := if_pos rfl
    rw [roundSix, hzero]
    exact layoutG_zero
  · exact layoutG_parts (sixDigits_pos hpos)

theorem Parts.units {t : Text} {q : ℚ} (p : Parts t q) : ∀ u ∈ t, isDecimalUnit u = true := by
  have hdigits : ∀ {t : Text}, Digits t → ∀ u ∈ t, isDecimalUnit u = true := by
    intro t ht u hu
    simp [isDecimalUnit, ht u hu]
  intro u hu
  rw [p.text_eq, numberText] at hu
  rcases List.mem_append.mp hu with hu | hu
  · exact hdigits p.wholeDigits u hu
  rcases List.mem_append.mp hu with hu | hu
  · split at hu
    · cases hu
    · rcases List.mem_cons.mp hu with rfl | hu
      · rfl
      · exact hdigits p.fractionDigits u hu
  · exact p.ends.units u hu

theorem spelt_printG (negative : Bool) {q : ℚ} (hq : 0 ≤ q) : Spelt Numeral.value (printG negative q) := by
  obtain ⟨p⟩ := sixDigits_parts hq
  constructor
  · intro u hu
    rcases List.mem_append.mp hu with hu | hu
    · split at hu
      · obtain rfl := List.mem_singleton.mp hu
        rfl
      · cases hu
    · exact p.units u hu
  · have hread := readNumber_parts negative p.isWhole p.wholeDigits p.fractionDigits p.ends
    rw [← p.text_eq, mul_assoc, p.value] at hread
    exact hread

end Albusforge.Lib
