import Mathlib.Data.Rat.Floor
import Albusforge.Lib.Decimal

/-!
# Reading JSON

`JSON.parse`, with numbers read as the decimals they spell: whitespace, the escapes of a
string, the grammar of a number. A name that comes twice in an object keeps its first
place and its last value. **What `stringify` writes reads back** (`parse_stringify`), if
every number in it is spelt the way JSON spells numbers.
-/

namespace Albusforge.Lib.Json

/-! ## Numbers -/

def isDecimalUnit (u : ℕ) : Bool := isDigit u || u = 45 || u = 43 || u = 46 || u = 101 || u = 69

/-- `-?` -/
def readSign : Text → Bool × Text
  | 45 :: t => (true, t)
  | t => (false, t)

/-- `0|[1-9][0-9]*` -/
def isWhole : Text → Bool
  | [] => false
  | u :: rest => u ≠ 48 || rest.isEmpty

/-- `(\.[0-9]+)?` -/
def readFraction : Text → Option (Text × Text)
  | 46 :: t => if (t.takeWhile isDigit).isEmpty then none
      else some (t.takeWhile isDigit, t.dropWhile isDigit)
  | t => some ([], t)

/-- `[+-]?[0-9]+` to the end -/
def readPower (t : Text) : Option ℤ :=
  let (negative, digits) := if t.head? = some 43 then (false, t.tail) else readSign t
  if digits.isEmpty || !digits.all isDigit then none
  else some (if negative then -(parseDecimal digits : ℤ) else parseDecimal digits)

/-- `([eE][+-]?[0-9]+)?` to the end -/
def readExponent : Text → Option ℤ
  | [] => some 0
  | u :: t => if u = 101 || u = 69 then readPower t else none

def readNumber (t : Text) : Option ℚ :=
  let (negative, t) := readSign t
  let whole := t.takeWhile isDigit
  if !isWhole whole then none
  else (readFraction (t.dropWhile isDigit)).bind fun (fraction, t) =>
    (readExponent t).map fun e =>
      (if negative then -1 else 1) * (parseDecimal (whole ++ fraction) : ℚ) *
        10 ^ (e - (fraction.length : ℤ))

/-! ## Strings -/

def hexValue (u : ℕ) : Option ℕ :=
  if isDigit u then some (u - 48)
  else if 97 ≤ u ∧ u ≤ 102 then some (u - 87)
  else if 65 ≤ u ∧ u ≤ 70 then some (u - 55)
  else none

/-- `XXXX` of `\uXXXX` -/
def hexUnits (a b c d : ℕ) : Option ℕ := do
  let a ← hexValue a
  let b ← hexValue b
  let c ← hexValue c
  let d ← hexValue d
  pure (((a * 16 + b) * 16 + c) * 16 + d)

def escaped (e : ℕ) : Option ℕ :=
  if e = 98 then some 8 else if e = 116 then some 9 else if e = 110 then some 10
  else if e = 102 then some 12 else if e = 114 then some 13
  else if e = dquote || e = backslash || e = 47 then some e
  else none

def push (u : Option ℕ) (rest : Option (Text × Text)) : Option (Text × Text) :=
  u.bind fun u => rest.map fun p => (u :: p.1, p.2)

def scanString : Text → Option (Text × Text)
  | [] => none
  | 34 :: rest => some ([], rest)
  | 92 :: 117 :: a :: b :: c :: d :: rest => push (hexUnits a b c d) (scanString rest)
  | 92 :: e :: rest => push (escaped e) (scanString rest)
  | u :: rest => push (if u < 32 then none else some u) (scanString rest)

/-! ## Values -/

def isSpace (u : ℕ) : Bool := u = 32 || u = 9 || u = 10 || u = 13

def skip (t : Text) : Text := t.dropWhile isSpace

def scanWord (word : Text) (j : Json ℚ) (t : Text) : Option (Json ℚ × Text) :=
  if word.isPrefixOf t then some (j, t.drop word.length) else none

def scanNumber (t : Text) : Option (Json ℚ × Text) :=
  (readNumber (t.takeWhile isDecimalUnit)).map fun q => (num q, t.dropWhile isDecimalUnit)

/-- `members[name] = value` -/
def assign (members : List (Text × Json ℚ)) (m : Text × Json ℚ) : List (Text × Json ℚ) :=
  if members.any fun n => n.1 == m.1 then members.map fun n => if n.1 == m.1 then m else n
  else members ++ [m]

mutual

def scanValue : ℕ → Text → Option (Json ℚ × Text)
  | 0, _ => none
  | fuel + 1, t =>
      match skip t with
      | [] => none
      | u :: rest =>
          if u = dquote then (scanString rest).map fun p => (str p.1, p.2)
          else if u = lbracket then
            if (skip rest).head? = some rbracket then some (arr [], (skip rest).tail)
            else (scanItems fuel rest).map fun p => (arr p.1, p.2)
          else if u = lbrace then
            if (skip rest).head? = some rbrace then some (obj [], (skip rest).tail)
            else (scanMembers fuel rest).map fun p => (obj (p.1.foldl assign []), p.2)
          else if u = 116 then scanWord (js "rue") (bool true) rest
          else if u = 102 then scanWord (js "alse") (bool false) rest
          else if u = 110 then scanWord (js "ull") null rest
          else scanNumber (u :: rest)

def scanItems : ℕ → Text → Option (List (Json ℚ) × Text)
  | 0, _ => none
  | fuel + 1, t =>
      (scanValue fuel t).bind fun (j, t) =>
        match skip t with
        | [] => none
        | u :: rest =>
            if u = comma then (scanItems fuel rest).map fun p => (j :: p.1, p.2)
            else if u = rbracket then some ([j], rest)
            else none

def scanMembers : ℕ → Text → Option (List (Text × Json ℚ) × Text)
  | 0, _ => none
  | fuel + 1, t =>
      if (skip t).head? = some dquote then
        (scanString (skip t).tail).bind fun (k, t) =>
          if (skip t).head? = some colon then
            (scanValue fuel (skip t).tail).bind fun (j, t) =>
              match skip t with
              | [] => none
              | u :: rest =>
                  if u = comma then (scanMembers fuel rest).map fun p => ((k, j) :: p.1, p.2)
                  else if u = rbrace then some ([(k, j)], rest)
                  else none
          else none
      else none
end

/-- `JSON.parse(text)` -/
def parse (t : Text) : Option (Json ℚ) :=
  (scanValue t.length t).bind fun (j, rest) => if (skip rest).isEmpty then some j else none

example : (parse (js "[1.5e+02, -0.25]")).map stringify = some (js "[150,-1/4]") := by
  decide +kernel

/-! ## Integers read back -/

theorem isWhole_append {a : Text} (h : isWhole a = true) (ha : a.head? ≠ some 48) (b : Text) :
    isWhole (a ++ b) = true := by
  cases a with
  | nil => simp [isWhole] at h
  | cons u rest =>
      have hu : u ≠ 48 := by simpa using ha
      simp [isWhole, hu]

theorem isWhole_decimal (n : ℕ) :
    isWhole (decimal n) = true ∧ (0 < n → (decimal n).head? ≠ some 48) := by
  induction n using Nat.strongRecOn with
  | ind n ih =>
      by_cases hn : n < 10
      · unfold decimal
        rw [Nat.toDigits_of_lt_base hn]
        have hdigits : ∀ m < 10, 0 < m → ([m.digitChar].map Char.toNat).head? ≠ some 48 := by decide
        exact ⟨by simp [isWhole], hdigits n hn⟩
      · have hpos : 0 < n / 10 := by omega
        obtain ⟨hwhole, hhead⟩ := ih (n / 10) (by omega)
        have hsplit : decimal n = decimal (n / 10) ++ [(n % 10).digitChar.toNat] := by
          unfold decimal
          rw [Nat.toDigits_of_base_le (by decide) (by omega), List.map_append]
          rfl
        rw [hsplit]
        refine ⟨isWhole_append hwhole (hhead hpos) _, ?_⟩
        intro _
        rw [List.head?_append_of_ne_nil _ (decimal_ne_nil _)]
        exact hhead hpos

theorem readSign_decimal (n : ℕ) : readSign (decimal n) = (false, decimal n) := by
  obtain ⟨u, rest, hu⟩ := List.exists_cons_of_ne_nil (decimal_ne_nil n)
  have hdigit : isDigit u = true := isDigit_decimal (n := n) (by rw [hu]; simp)
  rw [hu]
  unfold readSign
  split
  · rename_i heq
    obtain ⟨rfl, -⟩ := List.cons.inj heq
    exact absurd hdigit (by decide)
  · rfl

theorem readNumber_ofInt (z : ℤ) : readNumber (Numeral.ofInt z).text = some (z : ℚ) := by
  have hrest : ∀ negative : Bool, readSign (Numeral.ofInt z).text = (negative, decimal z.natAbs) →
      readNumber (Numeral.ofInt z).text =
        some ((if negative then -1 else 1) * (z.natAbs : ℚ)) := by
    intro negative hsign
    simp [readNumber, hsign, takeWhile_decimal, dropWhile_decimal, (isWhole_decimal z.natAbs).1,
      readFraction, readExponent, parseDecimal_decimal]
  by_cases hz : z < 0
  · rw [hrest true (by simp [Numeral.ofInt, hz, readSign])]
    have habs : (z.natAbs : ℚ) = -z := by
      rw [Nat.cast_natAbs, abs_of_neg hz, Int.cast_neg]
    simp [habs]
  · rw [hrest false (by simp [Numeral.ofInt, hz, readSign_decimal])]
    have habs : (z.natAbs : ℚ) = z := by
      rw [Nat.cast_natAbs, abs_of_nonneg (not_lt.mp hz)]
    simp [habs]

/-! ## Strings read back -/

theorem hexValue_hexUnit {d : ℕ} (h : d < 16) : hexValue (hexUnit d) = some d := by
  unfold hexUnit hexValue isDigit
  split
  · rw [if_pos (by simp; omega)]
    simp
  · rw [if_neg (by simp; omega), if_pos (by omega)]
    simp

theorem scanString_plain {u : ℕ} (hq : u ≠ dquote) (hb : u ≠ backslash) (hu : 32 ≤ u)
    (rest : Text) : scanString (u :: rest) = push (some u) (scanString rest) := by
  rw [scanString.eq_def]
  split <;> simp_all
  rw [if_neg (by omega)]

theorem scanString_unicode {u : ℕ} (h : u < 65536) (rest : Text) :
    scanString (unicodeEscape u ++ rest) = push (some u) (scanString rest) := by
  have hu : ((u / 4096 % 16 * 16 + u / 256 % 16) * 16 + u / 16 % 16) * 16 + u % 16 = u := by omega
  simp [unicodeEscape, scanString, hexUnits, hexValue_hexUnit (Nat.mod_lt _ (show 0 < 16 by decide)),
    hu]

theorem scanString_quoteUnit (u : ℕ) (rest : Text) :
    scanString (quoteUnit u ++ rest) = push (some u) (scanString rest) := by
  unfold quoteUnit
  split_ifs with h8 h9 h10 h12 h13 hq hb hs
  · subst h8; simp [scanString, escaped]
  · subst h9; simp [scanString, escaped]
  · subst h10; simp [scanString, escaped]
  · subst h12; simp [scanString, escaped]
  · subst h13; simp [scanString, escaped]
  · subst hq; simp [scanString, escaped, dquote]
  · subst hb; simp [scanString, escaped, backslash]
  · exact scanString_unicode (surrogate_lt hs) rest
  · refine scanString_plain hq hb ?_ rest
    simp only [Bool.or_eq_true, decide_eq_true_eq, not_or] at hs
    omega

theorem scanString_quoteRest : ∀ (s rest : Text), scanString (quoteRest s ++ rest) = some (s, rest)
  | [], rest => by simp [quoteRest, scanString]
  | [u], rest => by
      rw [quoteRest, List.append_assoc, scanString_quoteUnit]
      simp [scanString, push]
  | u :: v :: s, rest => by
      rw [quoteRest]
      split
      · rename_i h
        simp only [isHighSurrogate, isLowSurrogate, Bool.and_eq_true, decide_eq_true_eq] at h
        rw [List.cons_append, List.cons_append,
          scanString_plain (show u ≠ 34 by omega) (show u ≠ 92 by omega) (by omega),
          scanString_plain (show v ≠ 34 by omega) (show v ≠ 92 by omega) (by omega),
          scanString_quoteRest s rest]
        rfl
      · rw [List.append_assoc, scanString_quoteUnit, scanString_quoteRest (v :: s) rest]
        rfl

/-! ## Values read back -/

section

variable {ν : Type} [NumberText ν] (value : ν → ℚ)

mutual

def valued : Json ν → Json ℚ
  | null => null
  | bool b => bool b
  | num n => num (value n)
  | str s => str s
  | arr items => arr (valuedItems items)
  | obj members => obj (valuedMembers members)

def valuedItems : List (Json ν) → List (Json ℚ)
  | [] => []
  | j :: items => valued j :: valuedItems items

def valuedMembers : List (Text × Json ν) → List (Text × Json ℚ)
  | [] => []
  | (k, j) :: members => (k, valued j) :: valuedMembers members
end

structure Spelt (n : ν) : Prop where
  units : ∀ u ∈ NumberText.toText n, isDecimalUnit u = true
  reads : readNumber (NumberText.toText n) = some (value n)

mutual

def Readable : Json ν → Prop
  | null | bool _ | str _ => True
  | num n => Spelt value n
  | arr items => AllReadable items
  | obj members => (members.map Prod.fst).Nodup ∧ MembersReadable members

def AllReadable : List (Json ν) → Prop
  | [] => True
  | j :: items => Readable j ∧ AllReadable items

def MembersReadable : List (Text × Json ν) → Prop
  | [] => True
  | (_, j) :: members => Readable j ∧ MembersReadable members
end

end

variable {ν : Type} [NumberText ν] {value : ν → ℚ}

/-- No number goes on into `x`. -/
def Ends (x : Text) : Prop := ∀ u ∈ x.head?, isDecimalUnit u = false

theorem ends_cons {u : ℕ} {x : Text} (h : isDecimalUnit u = false) : Ends (u :: x) := by
  intro v hv
  obtain rfl : u = v := by simpa using hv
  exact h

theorem ends_items (items : List (Json ν)) (x : Text) : Ends (stringifyItems items ++ x) := by
  cases items <;> (rw [stringifyItems]; exact ends_cons (by decide))

theorem ends_members (members : List (Text × Json ν)) (x : Text) :
    Ends (stringifyMembers members ++ x) := by
  rcases members with _ | ⟨⟨k, j⟩, members⟩ <;> (rw [stringifyMembers]; exact ends_cons (by decide))

theorem skip_cons {u : ℕ} {t : Text} (h : isSpace u = false) : skip (u :: t) = u :: t := by
  rw [skip, List.dropWhile_cons_of_neg (by simp [h])]

theorem scanNumber_text {n : ν} (h : Spelt value n) {x : Text} (hx : Ends x) :
    scanNumber (NumberText.toText n ++ x) = some (num (value n), x) := by
  have hcut : (NumberText.toText n ++ x).takeWhile isDecimalUnit = NumberText.toText n ∧
      (NumberText.toText n ++ x).dropWhile isDecimalUnit = x := by
    rw [List.takeWhile_append_of_pos h.units, List.dropWhile_append_of_pos h.units]
    cases x with
    | nil => simp
    | cons u x =>
        have hu : isDecimalUnit u = false := hx u (by simp)
        simp [hu]
  simp [scanNumber, hcut.1, hcut.2, h.reads]

theorem Spelt.ne_nil {n : ν} (h : Spelt value n) : NumberText.toText n ≠ [] := by
  intro hnil
  have hreads := h.reads
  rw [hnil] at hreads
  simp [readNumber, readSign, isWhole] at hreads

theorem foldl_assign {members : List (Text × Json ℚ)} : ∀ {before : List (Text × Json ℚ)},
    ((before ++ members).map Prod.fst).Nodup → members.foldl assign before = before ++ members := by
  induction members with
  | nil =>
      intro before _
      simp
  | cons m members ih =>
      intro before h
      have hnew : (before.any fun n => n.1 == m.1) = false := by
        rw [List.map_append, List.map_cons, List.nodup_append] at h
        rw [List.any_eq_false]
        intro n hn heq
        exact h.2.2 n.1 (List.mem_map_of_mem hn) m.1 (by simp) (by simpa using heq)
      rw [List.foldl_cons, assign, hnew, if_neg (by simp), ih (by simpa using h), List.append_assoc]
      rfl

omit [NumberText ν] in
theorem valuedMembers_fst (members : List (Text × Json ν)) :
    (valuedMembers value members).map Prod.fst = members.map Prod.fst := by
  induction members with
  | nil => rfl
  | cons m members ih => simp [valuedMembers, ih]

theorem decimalUnit_ne {u : ℕ} (h : isDecimalUnit u = true) : isSpace u = false ∧
    u ≠ dquote ∧ u ≠ lbracket ∧ u ≠ lbrace ∧ u ≠ 116 ∧ u ≠ 102 ∧ u ≠ 110 ∧ u ≠ rbracket := by
  simp only [isDecimalUnit, isDigit, Bool.or_eq_true, Bool.and_eq_true, decide_eq_true_eq] at h
  simp only [isSpace, Bool.or_eq_false_iff, decide_eq_false_iff_not, dquote, lbracket, lbrace,
    rbracket]
  omega

theorem stringify_begins {j : Json ν} (h : Readable value j) :
    ∃ u rest, stringify j = u :: rest ∧ isSpace u = false ∧ u ≠ rbracket := by
  cases j with
  | null => exact ⟨_, _, by rw [stringify]; rfl, rfl, by decide⟩
  | bool b => cases b <;> exact ⟨_, _, by rw [stringify]; rfl, rfl, by decide⟩
  | num n =>
      obtain ⟨u, rest, hu⟩ := List.exists_cons_of_ne_nil (Spelt.ne_nil h)
      have hunit := decimalUnit_ne (Spelt.units h u (by rw [hu]; simp))
      exact ⟨u, rest, by rw [stringify, hu], hunit.1, hunit.2.2.2.2.2.2.2⟩
  | str s => exact ⟨_, _, by rw [stringify]; rfl, rfl, by decide⟩
  | arr items => cases items <;> exact ⟨_, _, by rw [stringify], rfl, by decide⟩
  | obj members =>
      rcases members with _ | ⟨⟨k, j⟩, members⟩ <;> exact ⟨_, _, by rw [stringify], rfl, by decide⟩

theorem skip_stringify {j : Json ν} (h : Readable value j) (x : Text) :
    skip (stringify j ++ x) = stringify j ++ x ∧ (stringify j ++ x).head? ≠ some rbracket := by
  obtain ⟨u, rest, hu, hspace, hne⟩ := stringify_begins h
  rw [hu, List.cons_append]
  exact ⟨skip_cons hspace, by simpa using hne⟩

theorem fuel_succ {fuel : ℕ} {u : ℕ} {t : Text} (h : (u :: t).length ≤ fuel) :
    ∃ n, fuel = n + 1 ∧ t.length ≤ n :=
  ⟨fuel - 1, by simp at h; omega, by simp at h; omega⟩

theorem fuel_rest {fuel : ℕ} {s t : Text} (hs : 0 < s.length) (ht : 0 < t.length)
    (h : (s ++ t).length ≤ fuel) : ∃ n, fuel = n + 1 ∧ s.length ≤ n ∧ t.length ≤ n := by
  rw [List.length_append] at h
  exact ⟨fuel - 1, by omega, by omega, by omega⟩

theorem stringify_pos {j : Json ν} (h : Readable value j) : 0 < (stringify j).length := by
  obtain ⟨u, rest, hu, -, -⟩ := stringify_begins h
  simp [hu]

theorem stringifyItems_pos (items : List (Json ν)) : 0 < (stringifyItems items).length := by
  cases items <;> simp [stringifyItems]

theorem scanMembers_quote {fuel : ℕ} {k rest x : Text} :
    scanMembers (fuel + 1) (quote k ++ colon :: rest ++ x) =
      (scanValue fuel (rest ++ x)).bind fun (j, t) =>
        match skip t with
        | [] => none
        | u :: rest =>
            if u = comma then (scanMembers fuel rest).map fun p => ((k, j) :: p.1, p.2)
            else if u = rbrace then some ([(k, j)], rest)
            else none := by
  rw [scanMembers, quote, List.cons_append, List.cons_append, skip_cons (by decide), List.head?_cons,
    if_pos rfl, List.tail_cons, List.append_assoc, scanString_quoteRest, Option.bind_some]
  dsimp only
  rw [List.cons_append, skip_cons (by decide), List.head?_cons, if_pos rfl, List.tail_cons]

mutual

/-- **A value's text is read up to where it ends.** Its length is fuel enough. -/
theorem scanValue_stringify : ∀ (j : Json ν) {fuel : ℕ} {x : Text}, Readable value j →
    (stringify j).length ≤ fuel → Ends x →
    scanValue fuel (stringify j ++ x) = some (valued value j, x)
  | null, fuel, x, _, hfuel, _ => by
      obtain ⟨fuel, rfl, -⟩ := fuel_succ (u := 110) (t := js "ull") hfuel
      simp [stringify, js, codeUnits, scanValue, skip, isSpace, scanWord, valued]
  | bool false, fuel, x, _, hfuel, _ => by
      obtain ⟨fuel, rfl, -⟩ := fuel_succ (u := 102) (t := js "alse") hfuel
      simp [stringify, js, codeUnits, scanValue, skip, isSpace, scanWord, valued]
  | bool true, fuel, x, _, hfuel, _ => by
      obtain ⟨fuel, rfl, -⟩ := fuel_succ (u := 116) (t := js "rue") hfuel
      simp [stringify, js, codeUnits, scanValue, skip, isSpace, scanWord, valued]
  | num n, fuel, x, hj, hfuel, hx => by
      have hscan := scanNumber_text hj hx
      obtain ⟨u, rest, hu⟩ := List.exists_cons_of_ne_nil (Spelt.ne_nil hj)
      obtain ⟨hspace, h34, h91, h123, h116, h102, h110, -⟩ :=
        decimalUnit_ne (Spelt.units hj u (by rw [hu]; simp))
      rw [stringify, hu] at hfuel
      obtain ⟨fuel, rfl, -⟩ := fuel_succ hfuel
      rw [stringify, valued]
      rw [hu, List.cons_append] at hscan ⊢
      rw [scanValue, skip_cons hspace]
      dsimp only
      rw [if_neg h34, if_neg h91, if_neg h123, if_neg h116, if_neg h102, if_neg h110, hscan]
  | str s, fuel, x, _, hfuel, _ => by
      rw [stringify, quote] at hfuel
      obtain ⟨fuel, rfl, -⟩ := fuel_succ hfuel
      rw [stringify, quote, List.cons_append, scanValue, skip_cons (by decide)]
      simp [scanString_quoteRest, valued]
  | arr [], fuel, x, _, hfuel, _ => by
      rw [stringify] at hfuel
      obtain ⟨fuel, rfl, -⟩ := fuel_succ hfuel
      rw [stringify, List.cons_append, scanValue, skip_cons (by decide)]
      simp [skip, isSpace, valued, valuedItems]
  | arr (j :: items), fuel, x, hj, hfuel, _ => by
      rw [stringify] at hfuel
      obtain ⟨fuel, rfl, hlen⟩ := fuel_succ hfuel
      have hitems := scanItems_stringify j items (x := x) hj hlen
      obtain ⟨hskip, hhead⟩ := skip_stringify hj.1 (stringifyItems items ++ x)
      rw [List.append_assoc] at hitems
      rw [stringify, List.cons_append, scanValue, skip_cons (by decide)]
      dsimp only
      rw [if_neg (by decide), if_pos rfl, List.append_assoc, hskip, if_neg hhead, hitems]
      rfl
  | obj [], fuel, x, _, hfuel, _ => by
      rw [stringify] at hfuel
      obtain ⟨fuel, rfl, -⟩ := fuel_succ hfuel
      rw [stringify, List.cons_append, scanValue, skip_cons (by decide)]
      simp [skip, isSpace, valued, valuedMembers]
  | obj ((k, j) :: members), fuel, x, hj, hfuel, _ => by
      rw [stringify] at hfuel
      obtain ⟨fuel, rfl, hlen⟩ := fuel_succ hfuel
      have hmembers := scanMembers_stringify k j members (x := x) hj.2 hlen
      have hassign : (valuedMembers value ((k, j) :: members)).foldl assign [] =
          valuedMembers value ((k, j) :: members) := by
        refine foldl_assign ?_
        rw [List.nil_append, valuedMembers_fst]
        exact hj.1
      rw [stringify, List.cons_append, scanValue, skip_cons (by decide)]
      dsimp only
      rw [if_neg (by decide), if_neg (by decide), if_pos rfl, hmembers]
      rw [quote, List.cons_append, List.cons_append, skip_cons (by decide), List.head?_cons,
        if_neg (by decide), Option.map_some, hassign]
      rfl
termination_by j => sizeOf j
decreasing_by all_goals simp <;> omega

theorem scanItems_stringify : ∀ (j : Json ν) (items : List (Json ν)) {fuel : ℕ} {x : Text},
    AllReadable value (j :: items) → (stringify j ++ stringifyItems items).length ≤ fuel →
    scanItems fuel (stringify j ++ stringifyItems items ++ x) =
      some (valuedItems value (j :: items), x)
  | j, [], fuel, x, hj, hfuel => by
      obtain ⟨fuel, rfl, hlen⟩ := fuel_rest (stringify_pos hj.1) (stringifyItems_pos (ν := ν) _) hfuel
      have hfirst := scanValue_stringify j hj.1 hlen.1 (ends_items (ν := ν) [] x)
      rw [scanItems, List.append_assoc, hfirst, Option.bind_some]
      simp [stringifyItems, skip, isSpace, valuedItems]
  | j, j' :: items, fuel, x, hj, hfuel => by
      obtain ⟨fuel, rfl, hlen⟩ := fuel_rest (stringify_pos hj.1) (stringifyItems_pos (ν := ν) _) hfuel
      have hfirst := scanValue_stringify j hj.1 hlen.1 (ends_items (j' :: items) x)
      have hle : (stringify j' ++ stringifyItems items).length ≤ fuel := by
        have := hlen.2
        simp only [stringifyItems, List.length_cons] at this
        omega
      have hrest := scanItems_stringify j' items (x := x) hj.2 hle
      rw [scanItems, List.append_assoc, hfirst, Option.bind_some, stringifyItems, List.cons_append]
      dsimp only
      rw [skip_cons (by decide)]
      dsimp only
      rw [if_pos rfl, hrest]
      rfl
termination_by j items => sizeOf j + sizeOf items
decreasing_by all_goals simp <;> omega

theorem scanMembers_stringify : ∀ (k : Text) (j : Json ν) (members : List (Text × Json ν))
    {fuel : ℕ} {x : Text}, MembersReadable value ((k, j) :: members) →
    (quote k ++ colon :: (stringify j ++ stringifyMembers members)).length ≤ fuel →
    scanMembers fuel (quote k ++ colon :: (stringify j ++ stringifyMembers members) ++ x) =
      some (valuedMembers value ((k, j) :: members), x)
  | k, j, [], fuel, x, hj, hfuel => by
      obtain ⟨fuel, rfl, hlen⟩ := fuel_rest (by simp [quote]) (by simp) hfuel
      have hle : (stringify j).length ≤ fuel := by
        have := hlen.2
        simp only [List.length_cons, List.length_append] at this
        omega
      have hfirst := scanValue_stringify j hj.1 hle (ends_members (ν := ν) [] x)
      rw [scanMembers_quote, List.append_assoc, hfirst]
      simp [stringifyMembers, skip, isSpace, valuedMembers]
  | k, j, (k', j') :: members, fuel, x, hj, hfuel => by
      obtain ⟨fuel, rfl, hlen⟩ := fuel_rest (by simp [quote]) (by simp) hfuel
      have hlen' := hlen.2
      simp only [List.length_cons, List.length_append] at hlen'
      have hle : (stringify j).length ≤ fuel := by omega
      have hfirst := scanValue_stringify j hj.1 hle (ends_members ((k', j') :: members) x)
      have hle' : (quote k' ++ colon :: (stringify j' ++ stringifyMembers members)).length ≤ fuel := by
        simp only [stringifyMembers, List.length_cons, List.length_append] at hlen' ⊢
        omega
      have hrest := scanMembers_stringify k' j' members (x := x) hj.2 hle'
      rw [scanMembers_quote, List.append_assoc, hfirst, Option.bind_some, stringifyMembers,
        List.cons_append]
      dsimp only
      rw [skip_cons (by decide)]
      dsimp only
      rw [if_pos rfl, hrest]
      rfl
termination_by k j members => sizeOf k + sizeOf j + sizeOf members
decreasing_by all_goals simp <;> omega
end

theorem parse_stringify {j : Json ν} (h : Readable value j) :
    parse (stringify j) = some (valued value j) := by
  have hscan := scanValue_stringify j (x := []) h le_rfl (by intro u hu; simp at hu)
  rw [List.append_nil] at hscan
  simp [parse, hscan, skip]

end Albusforge.Lib.Json
