import Albusforge.Lib.JsText

/-!
# Dates

The calendar of `Date`, and the text of an instant in UTC. Years are counted from March, in spans of 400, 100 and 4,
so that the leap day is the last of its span. An instant is a number of milliseconds from 1970-01-01.

**The text of an instant reads back as that instant** (`readIso_toISOString`), while years have four digits.
-/

namespace Albusforge.Lib

/-! ## Days -/

structure Civil where
  year : ℤ
  month : ℤ
  day : ℤ
  deriving DecidableEq

def yearOfEra (doe : ℤ) : ℤ × ℤ :=
  let century := min 3 (doe / 36524)
  let doc := doe - 36524 * century
  let quad := doc / 1461
  let doq := doc - 1461 * quad
  let year := min 3 (doq / 365)
  (100 * century + 4 * quad + year, doq - 365 * year)

def daysBefore (yoe : ℤ) : ℤ := 365 * yoe + yoe / 4 - yoe / 100

def civil (days : ℤ) : Civil :=
  let s := days + 719468
  let (yoe, doy) := yearOfEra (s % 146097)
  let mp := (5 * doy + 2) / 153
  { year := yoe + 400 * (s / 146097) + if mp < 10 then 0 else 1
    month := if mp < 10 then mp + 3 else mp - 9
    day := doy - (153 * mp + 2) / 5 + 1 }

def dayNumber (c : Civil) : ℤ :=
  let y := if c.month ≤ 2 then c.year - 1 else c.year
  let mp := if c.month ≤ 2 then c.month + 9 else c.month - 3
  146097 * (y / 400) + daysBefore (y % 400) + ((153 * mp + 2) / 5 + c.day - 1) - 719468

theorem daysBefore_spans {century quad year : ℤ} (hquad : 0 ≤ quad ∧ quad ≤ 24) (hyear : 0 ≤ year ∧ year ≤ 3) :
    daysBefore (100 * century + 4 * quad + year) = 36524 * century + 1461 * quad + 365 * year := by
  have hfour : (100 * century + 4 * quad + year) / 4 = 25 * century + quad := by omega
  have hhundred : (100 * century + 4 * quad + year) / 100 = century := by omega
  rw [daysBefore, hfour, hhundred]
  omega

/-- The year and the day that `yearOfEra` finds are those of the day. -/
structure OfEra (doe : ℤ) (x : ℤ × ℤ) : Prop where
  year_nonneg : 0 ≤ x.1
  year_le : x.1 ≤ 399
  day_nonneg : 0 ≤ x.2
  day_le : x.2 ≤ 365
  before : daysBefore x.1 + x.2 = doe

theorem yearOfEra_spec {doe : ℤ} (h : 0 ≤ doe) (hlt : doe < 146097) : OfEra doe (yearOfEra doe) := by
  obtain ⟨century, hcentury⟩ : ∃ c, c = min 3 (doe / 36524) := ⟨_, rfl⟩
  obtain ⟨quad, hquad⟩ : ∃ q, q = (doe - 36524 * century) / 1461 := ⟨_, rfl⟩
  obtain ⟨year, hyear⟩ : ∃ y, y = min 3 ((doe - 36524 * century - 1461 * quad) / 365) := ⟨_, rfl⟩
  have heq : yearOfEra doe =
      (100 * century + 4 * quad + year, doe - 36524 * century - 1461 * quad - 365 * year) := by
    rw [hyear, hquad, hcentury]
    rfl
  have hcenturies : 0 ≤ century ∧ century ≤ 3 := by omega
  have hdoc : 0 ≤ doe - 36524 * century ∧ doe - 36524 * century ≤ 36524 := by omega
  have hquads : 0 ≤ quad ∧ quad ≤ 24 := by omega
  have hyears : 0 ≤ year ∧ year ≤ 3 := by omega
  rw [heq]
  refine ⟨?_, ?_, ?_, ?_, ?_⟩
  · dsimp only
    omega
  · dsimp only
    omega
  · dsimp only
    omega
  · dsimp only
    omega
  · dsimp only
    rw [daysBefore_spans hquads hyears]
    omega

def monthStart (mp : ℤ) : ℤ := (153 * mp + 2) / 5

def civilOfEra (era yoe doy : ℤ) : Civil :=
  let mp := (5 * doy + 2) / 153
  { year := yoe + 400 * era + if mp < 10 then 0 else 1
    month := if mp < 10 then mp + 3 else mp - 9
    day := doy - monthStart mp + 1 }

theorem civil_eq (days : ℤ) : civil days =
    civilOfEra ((days + 719468) / 146097) (yearOfEra ((days + 719468) % 146097)).1
      (yearOfEra ((days + 719468) % 146097)).2 := rfl

theorem dayNumber_civilOfEra {era yoe doy : ℤ} (hyear : 0 ≤ yoe ∧ yoe ≤ 399) (hday : 0 ≤ doy ∧ doy ≤ 365) :
    dayNumber (civilOfEra era yoe doy) = 146097 * era + daysBefore yoe + doy - 719468 := by
  obtain ⟨mp, hmp⟩ : ∃ m, m = (5 * doy + 2) / 153 := ⟨_, rfl⟩
  have hera : (yoe + 400 * era) / 400 = era := by omega
  have hyoe : (yoe + 400 * era) % 400 = yoe := by omega
  rw [civilOfEra, ← hmp]
  -- January and February belong to the year before
  rcases lt_or_ge mp 10 with hlt | hge
  · have hmonth : ¬mp + 3 ≤ 2 := by omega
    have hstart : mp + 3 - 3 = mp := by omega
    simp only [dayNumber, if_pos hlt, if_neg hmonth, add_zero, hera, hyoe, hstart, monthStart]
    omega
  · have hmonth : mp - 9 ≤ 2 := by omega
    have hyear' : yoe + 400 * era + 1 - 1 = yoe + 400 * era := by omega
    have hstart : mp - 9 + 9 = mp := by omega
    simp only [dayNumber, if_neg (not_lt.mpr hge), if_pos hmonth, hyear', hera, hyoe, hstart, monthStart]
    omega

theorem dayNumber_civil (days : ℤ) : dayNumber (civil days) = days := by
  have hspec : OfEra ((days + 719468) % 146097) (yearOfEra ((days + 719468) % 146097)) :=
    yearOfEra_spec (by omega) (by omega)
  rw [civil_eq, dayNumber_civilOfEra ⟨hspec.year_nonneg, hspec.year_le⟩ ⟨hspec.day_nonneg, hspec.day_le⟩]
  have hbefore := hspec.before
  omega

theorem civil_range (days : ℤ) (h : 0 ≤ days) (hlt : days < 2932897) :
    (0 ≤ (civil days).year ∧ (civil days).year ≤ 9999) ∧ (1 ≤ (civil days).month ∧ (civil days).month ≤ 12) ∧
      1 ≤ (civil days).day ∧ (civil days).day ≤ 31 := by
  have hspec : OfEra ((days + 719468) % 146097) (yearOfEra ((days + 719468) % 146097)) :=
    yearOfEra_spec (by omega) (by omega)
  rw [civil_eq]
  obtain ⟨hyear, hyear', hday, hday', hbefore⟩ := hspec
  generalize (yearOfEra ((days + 719468) % 146097)).1 = yoe at *
  generalize (yearOfEra ((days + 719468) % 146097)).2 = doy at *
  obtain ⟨mp, hmp⟩ : ∃ m, m = (5 * doy + 2) / 153 := ⟨_, rfl⟩
  rw [civilOfEra, ← hmp]
  simp only [monthStart, daysBefore] at *
  refine ⟨⟨?_, ?_⟩, ⟨?_, ?_⟩, ?_, ?_⟩
  · split_ifs <;> omega
  · split_ifs <;> omega
  · split_ifs <;> omega
  · split_ifs <;> omega
  · omega
  · omega

/-! ## Texts -/

/-- The last `k` decimal digits of a number. -/
def pad : ℕ → ℕ → Text
  | 0, _ => []
  | k + 1, n => pad k (n / 10) ++ [48 + n % 10]

/-- `YYYY-MM-DDThh:mm:ss.mmmZ` -/
def isoText (year : Text) (month day hour minute second milli : ℕ) : Text :=
  year ++ (hyphen :: (pad 2 month ++ (hyphen :: (pad 2 day ++ (84 :: (pad 2 hour ++ (58 :: (pad 2 minute ++
    (58 :: (pad 2 second ++ (dot :: (pad 3 milli ++ [90]))))))))))))

def yearText (year : ℤ) : Text :=
  if 0 ≤ year ∧ year ≤ 9999 then pad 4 year.toNat
  else (if year < 0 then hyphen else 43) :: pad 6 year.natAbs

def toISOString (ms : ℤ) : Text :=
  let date := civil (ms / 86400000)
  let time := (ms % 86400000).toNat
  isoText (yearText date.year) date.month.toNat date.day.toNat (time / 3600000) (time / 60000 % 60)
    (time / 1000 % 60) (time % 1000)

def field (t : Text) (start length : ℕ) : ℕ := parseDecimal ((t.drop start).take length)

def readIso (t : Text) : Option ℤ :=
  let ms := 86400000 * dayNumber ⟨field t 0 4, field t 5 2, field t 8 2⟩ +
    3600000 * field t 11 2 + 60000 * field t 14 2 + 1000 * field t 17 2 + field t 20 3
  if toISOString ms = t then some ms else none

def maxInstant : ℤ := 253402300799999

theorem pad_length (k n : ℕ) : (pad k n).length = k := by
  induction k generalizing n with
  | zero => rfl
  | succ k ih => rw [pad, List.length_append, ih, List.length_singleton]

theorem isDigit_pad {k n u : ℕ} (h : u ∈ pad k n) : isDigit u = true := by
  induction k generalizing n with
  | zero => exact absurd h List.not_mem_nil
  | succ k ih =>
    rcases List.mem_append.mp h with h | h
    · exact ih h
    · rw [List.mem_singleton.mp h]
      simp only [isDigit, Bool.and_eq_true, decide_eq_true_eq]
      omega

theorem parseDecimal_pad (k n : ℕ) : parseDecimal (pad k n) = n % 10 ^ k := by
  induction k generalizing n with
  | zero => simp [pad, parseDecimal, Nat.mod_one]
  | succ k ih =>
    have hsnoc : parseDecimal (pad (k + 1) n) = 10 * parseDecimal (pad k (n / 10)) + (48 + n % 10 - 48) := by
      simp [parseDecimal, pad, List.foldl_append]
    rw [hsnoc, ih, pow_succ, Nat.mul_comm (10 ^ k) 10, Nat.mod_mul]
    omega

theorem field_pad {k start : ℕ} (n : ℕ) (t : Text) (length : ℕ) (h : k ≤ start) :
    field (pad k n ++ t) start length = field t (start - k) length := by
  rw [field, List.drop_append, pad_length, List.drop_of_length_le (by rw [pad_length]; exact h), List.nil_append]
  rfl

theorem field_cons {start : ℕ} (u : ℕ) (t : Text) (length : ℕ) (h : 0 < start) :
    field (u :: t) start length = field t (start - 1) length := by
  obtain ⟨start, rfl⟩ := Nat.exists_eq_succ_of_ne_zero h.ne'
  rfl

theorem field_zero {length n : ℕ} (t : Text) (h : n < 10 ^ length) : field (pad length n ++ t) 0 length = n := by
  have htake : (pad length n ++ t).take length = pad length n := List.take_left' (pad_length length n)
  rw [field, List.drop_zero, htake, parseDecimal_pad, Nat.mod_eq_of_lt h]

structure Fields (t : Text) (year month day hour minute second milli : ℕ) : Prop where
  year : field t 0 4 = year
  month : field t 5 2 = month
  day : field t 8 2 = day
  hour : field t 11 2 = hour
  minute : field t 14 2 = minute
  second : field t 17 2 = second
  milli : field t 20 3 = milli

theorem fields_isoText {year month day hour minute second milli : ℕ} (hyear : year < 10 ^ 4) (hmonth : month < 10 ^ 2)
    (hday : day < 10 ^ 2) (hhour : hour < 10 ^ 2) (hminute : minute < 10 ^ 2) (hsecond : second < 10 ^ 2)
    (hmilli : milli < 10 ^ 3) :
    Fields (isoText (pad 4 year) month day hour minute second milli) year month day hour minute second milli := by
  refine ⟨field_zero _ hyear, ?_, ?_, ?_, ?_, ?_, ?_⟩
  · simpa [isoText, field_pad, field_cons] using field_zero _ hmonth
  · simpa [isoText, field_pad, field_cons] using field_zero _ hday
  · simpa [isoText, field_pad, field_cons] using field_zero _ hhour
  · simpa [isoText, field_pad, field_cons] using field_zero _ hminute
  · simpa [isoText, field_pad, field_cons] using field_zero _ hsecond
  · simpa [isoText, field_pad, field_cons] using field_zero _ hmilli

/-- **The text of an instant reads back.** -/
theorem readIso_toISOString {ms : ℤ} (h : 0 ≤ ms) (hle : ms ≤ maxInstant) : readIso (toISOString ms) = some ms := by
  have hmax : ms ≤ 253402300799999 := hle
  obtain ⟨hyear, hmonth, hday⟩ := civil_range (ms / 86400000) (by omega) (by omega)
  have hnumber := dayNumber_civil (ms / 86400000)
  obtain ⟨time, htime⟩ : ∃ t, t = (ms % 86400000).toNat := ⟨_, rfl⟩
  have hyearText : yearText (civil (ms / 86400000)).year = pad 4 (civil (ms / 86400000)).year.toNat := if_pos hyear
  have hfields : Fields (toISOString ms) (civil (ms / 86400000)).year.toNat (civil (ms / 86400000)).month.toNat
      (civil (ms / 86400000)).day.toNat (time / 3600000) (time / 60000 % 60) (time / 1000 % 60) (time % 1000) := by
    simp only [toISOString, hyearText, ← htime]
    exact fields_isoText (by omega) (by omega) (by omega) (by omega) (by omega) (by omega) (by omega)
  have hms : 86400000 * dayNumber ⟨field (toISOString ms) 0 4, field (toISOString ms) 5 2, field (toISOString ms) 8 2⟩ +
      3600000 * field (toISOString ms) 11 2 + 60000 * field (toISOString ms) 14 2 +
      1000 * field (toISOString ms) 17 2 + field (toISOString ms) 20 3 = ms := by
    rw [hfields.year, hfields.month, hfields.day, hfields.hour, hfields.minute, hfields.second, hfields.milli,
      Int.toNat_of_nonneg hyear.1, Int.toNat_of_nonneg (by omega), Int.toNat_of_nonneg (by omega)]
    change 86400000 * dayNumber (civil (ms / 86400000)) + _ + _ + _ + _ = ms
    omega
  simp only [readIso, hms, if_true]

theorem pad_ascii {k n u : ℕ} (h : u ∈ pad k n) : u < 128 := by
  have hdigit := isDigit_pad h
  simp only [isDigit, Bool.and_eq_true, decide_eq_true_eq] at hdigit
  omega

theorem yearText_ascii {year : ℤ} {u : ℕ} (h : u ∈ yearText year) : u < 128 := by
  unfold yearText at h
  split at h
  · exact pad_ascii h
  · rcases List.mem_cons.mp h with h | h
    · split at h <;> rw [h] <;> decide
    · exact pad_ascii h

theorem toISOString_ascii {ms : ℤ} {u : ℕ} (h : u ∈ toISOString ms) : u < 128 := by
  simp only [toISOString, isoText, List.mem_append, List.mem_cons, List.not_mem_nil, or_false] at h
  rcases h with h | h | h | h | h | h | h | h | h | h | h | h | h | h
  · exact yearText_ascii h
  · rw [h]; decide
  · exact pad_ascii h
  · rw [h]; decide
  · exact pad_ascii h
  · rw [h]; decide
  · exact pad_ascii h
  · rw [h]; decide
  · exact pad_ascii h
  · rw [h]; decide
  · exact pad_ascii h
  · rw [h]; decide
  · exact pad_ascii h
  · rw [h]; decide

theorem toISOString_length (ms : ℤ) : (toISOString ms).length ≤ 27 := by
  have hyear : (yearText (civil (ms / 86400000)).year).length ≤ 7 := by
    unfold yearText
    split
    · rw [pad_length]
      omega
    · rw [List.length_cons, pad_length]
  simp only [toISOString, isoText, List.length_append, List.length_cons, List.length_nil, pad_length]
  omega

end Albusforge.Lib
