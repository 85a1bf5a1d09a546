import Mathlib.Data.List.TakeWhile
import Albusforge.Lib.JsText

/-!
# JSON

Values as `JSON.parse` returns them, and the text `JSON.stringify` makes of them.
Two values with one text are one value (`stringify_injective`): no text of a value
begins another's, because strings are quoted, brackets are balanced and a number
ends where no unit of a number follows.
-/

namespace Albusforge.Lib

/-- A JSON value. An object lists its members in order; `JSON.parse` leaves no name twice. -/
inductive Json (ν : Type) where
  | null
  | bool (b : Bool)
  | num (n : ν)
  | str (s : Text)
  | arr (items : List (Json ν))
  | obj (members : List (Text × Json ν))

namespace Json

abbrev dquote : ℕ := 34
abbrev backslash : ℕ := 92
abbrev lbracket : ℕ := 91
abbrev rbracket : ℕ := 93
abbrev lbrace : ℕ := 123
abbrev rbrace : ℕ := 125
abbrev colon : ℕ := 58

/-! ## Strings -/

def isHighSurrogate (u : ℕ) : Bool := 0xD800 ≤ u && u ≤ 0xDBFF
def isLowSurrogate (u : ℕ) : Bool := 0xDC00 ≤ u && u ≤ 0xDFFF

def hexUnit (d : ℕ) : ℕ := if d < 10 then 48 + d else 87 + d

/-- `\uXXXX` -/
def unicodeEscape (u : ℕ) : Text :=
  [backslash, 117, hexUnit (u / 4096 % 16), hexUnit (u / 256 % 16), hexUnit (u / 16 % 16), hexUnit (u % 16)]

def quoteUnit (u : ℕ) : Text :=
  if u = 8 then [backslash, 98]
  else if u = 9 then [backslash, 116]
  else if u = 10 then [backslash, 110]
  else if u = 12 then [backslash, 102]
  else if u = 13 then [backslash, 114]
  else if u = dquote then [backslash, dquote]
  else if u = backslash then [backslash, backslash]
  else if u < 32 || isHighSurrogate u || isLowSurrogate u then unicodeEscape u
  else [u]

def quoteRest : Text → Text
  | [] => [dquote]
  | [u] => quoteUnit u ++ [dquote]
  | u :: v :: rest =>
      if isHighSurrogate u && isLowSurrogate v then u :: v :: quoteRest rest
      else quoteUnit u ++ quoteRest (v :: rest)

def quote (s : Text) : Text := dquote :: quoteRest s

def unhex (u : ℕ) : ℕ := if u < 58 then u - 48 else u - 87

def unquote : Text → Option (Text × Text)
  | [] => none
  | 34 :: rest => some ([], rest)
  | 92 :: 117 :: a :: b :: c :: d :: rest =>
      (unquote rest).map fun p =>
        ((((unhex a * 16 + unhex b) * 16 + unhex c) * 16 + unhex d) :: p.1, p.2)
  | 92 :: e :: rest =>
      (unquote rest).map fun p =>
        ((if e = 98 then 8 else if e = 116 then 9 else if e = 110 then 10 else if e = 102 then 12
          else if e = 114 then 13 else e) :: p.1, p.2)
  | u :: rest => (unquote rest).map fun p => (u :: p.1, p.2)

theorem unhex_hexUnit {d : ℕ} (h : d < 16) : unhex (hexUnit d) = d := by
  unfold hexUnit unhex
  split <;> split <;> omega

theorem unquote_plain {u : ℕ} (hq : u ≠ dquote) (hb : u ≠ backslash) (rest : Text) :
    unquote (u :: rest) = (unquote rest).map fun p => (u :: p.1, p.2) := by
  rw [unquote.eq_def]
  split <;> simp_all

theorem unquote_unicode {u : ℕ} (h : u < 65536) (rest : Text) :
    unquote (unicodeEscape u ++ rest) = (unquote rest).map fun p => (u :: p.1, p.2) := by
  have hu : ((u / 4096 % 16 * 16 + u / 256 % 16) * 16 + u / 16 % 16) * 16 + u % 16 = u := by omega
  simp only [unicodeEscape, List.cons_append, List.nil_append, unquote]
  rw [unhex_hexUnit (Nat.mod_lt _ (by decide)), unhex_hexUnit (Nat.mod_lt _ (by decide)),
    unhex_hexUnit (Nat.mod_lt _ (by decide)), unhex_hexUnit (Nat.mod_lt _ (by decide)), hu]

theorem surrogate_lt {u : ℕ} (h : (u < 32 || isHighSurrogate u || isLowSurrogate u) = true) :
    u < 65536 := by
  simp only [isHighSurrogate, isLowSurrogate, Bool.or_eq_true, Bool.and_eq_true,
    decide_eq_true_eq] at h
  omega

theorem unquote_quoteUnit (u : ℕ) (rest : Text) :
    unquote (quoteUnit u ++ rest) = (unquote rest).map fun p => (u :: p.1, p.2) := by
  unfold quoteUnit
  split_ifs with h8 h9 h10 h12 h13 hq hb hs
  · subst h8; simp [unquote]
  · subst h9; simp [unquote]
  · subst h10; simp [unquote]
  · subst h12; simp [unquote]
  · subst h13; simp [unquote]
  · subst hq; simp [unquote, dquote]
  · subst hb; simp [unquote, backslash]
  · exact unquote_unicode (surrogate_lt hs) rest
  · exact unquote_plain hq hb rest

theorem unquote_quoteRest : ∀ (s rest : Text), unquote (quoteRest s ++ rest) = some (s, rest)
  | [], rest => by simp [quoteRest, unquote]
  | [u], rest => by
      rw [quoteRest, List.append_assoc, unquote_quoteUnit]
      simp [unquote]
  | u :: v :: s, rest => by
      rw [quoteRest]
      split
      · rename_i h
        simp only [isHighSurrogate, isLowSurrogate, Bool.and_eq_true, decide_eq_true_eq] at h
        rw [List.cons_append, List.cons_append, unquote_plain (show u ≠ 34 by omega)
          (show u ≠ 92 by omega), unquote_plain (show v ≠ 34 by omega) (show v ≠ 92 by omega),
          unquote_quoteRest s rest]
        rfl
      · rw [List.append_assoc, unquote_quoteUnit, unquote_quoteRest (v :: s) rest]
        rfl

theorem quoteRest_append_inj {s t x y : Text} (h : quoteRest s ++ x = quoteRest t ++ y) :
    s = t ∧ x = y := by
  have hread := congrArg unquote h
  rw [unquote_quoteRest, unquote_quoteRest] at hread
  simpa using hread

/-! ## Numbers -/

def isNumberUnit (u : ℕ) : Bool := isDigit u || u = 45 || u = 43 || u = 46 || u = 101 || u = 47

/-- Numbers that have a text: all that writing a value takes. -/
class NumberText (ν : Type) where
  toText : ν → Text

instance (ν : Type) [JsNumber ν] : NumberText ν := ⟨JsNumber.toText⟩

/-- The text of a number is nothing but number units, and tells the number. -/
class LawfulText (ν : Type) [NumberText ν] : Prop where
  toText_ne_nil : ∀ n : ν, NumberText.toText n ≠ []
  toText_units : ∀ n : ν, ∀ u ∈ NumberText.toText n, isNumberUnit u = true
  toText_injective : ∀ m n : ν, NumberText.toText m = NumberText.toText n → m = n

/-! ## Values -/

variable {ν : Type} [NumberText ν]

mutual

/-- `JSON.stringify(value)` -/
def stringify : Json ν → Text
  | null => js "null"
  | bool b => if b then js "true" else js "false"
  | num n => NumberText.toText n
  | str s => quote s
  | arr [] => [lbracket, rbracket]
  | arr (j :: items) => lbracket :: (stringify j ++ stringifyItems items)
  | obj [] => [lbrace, rbrace]
  | obj ((k, j) :: members) =>
      lbrace :: (quote k ++ colon :: (stringify j ++ stringifyMembers members))

def stringifyItems : List (Json ν) → Text
  | [] => [rbracket]
  | j :: items => comma :: (stringify j ++ stringifyItems items)

def stringifyMembers : List (Text × Json ν) → Text
  | [] => [rbrace]
  | (k, j) :: members => comma :: (quote k ++ colon :: (stringify j ++ stringifyMembers members))
end

omit [NumberText ν] in
theorem join_cons (sep : ℕ) (t : Text) (ts : List Text) :
    join sep (t :: ts) = t ++ ts.flatMap fun u => sep :: u := by
  induction ts generalizing t with
  | nil => simp [join]
  | cons u ts ih => rw [join, ih, List.flatMap_cons, List.cons_append]

theorem stringifyItems_eq (items : List (Json ν)) :
    stringifyItems items = ((items.map stringify).flatMap fun t => comma :: t) ++ [rbracket] := by
  induction items with
  | nil => rfl
  | cons j items ih => simp [stringifyItems, ih]

theorem stringifyMembers_eq (members : List (Text × Json ν)) :
    stringifyMembers members =
      ((members.map fun m => quote m.1 ++ colon :: stringify m.2).flatMap fun t => comma :: t) ++ [rbrace] := by
  induction members with
  | nil => rfl
  | cons m members ih => simp [stringifyMembers, ih]

theorem stringify_arr (items : List (Json ν)) :
    stringify (arr items) = lbracket :: (join comma (items.map stringify) ++ [rbracket]) := by
  cases items with
  | nil => rfl
  | cons j items => rw [stringify, stringifyItems_eq, List.map_cons, join_cons, List.append_assoc]

theorem stringify_obj (members : List (Text × Json ν)) :
    stringify (obj members) =
      lbrace :: (join comma (members.map fun m => quote m.1 ++ colon :: stringify m.2) ++ [rbrace]) := by
  cases members with
  | nil => rfl
  | cons m members =>
    rw [stringify, stringifyMembers_eq, List.map_cons, join_cons, List.append_assoc, List.append_assoc,
      List.cons_append]

/-! ## The text tells the value -/

/-- No number goes on into `x`. -/
def Stops (x : Text) : Prop := ∀ u ∈ x.head?, isNumberUnit u = false

theorem units_append_inj : ∀ {a b x y : Text}, (∀ u ∈ a, isNumberUnit u = true) →
    (∀ u ∈ b, isNumberUnit u = true) → Stops x → Stops y → a ++ x = b ++ y → a = b ∧ x = y
  | [], [], _, _, _, _, _, _, h => ⟨rfl, h⟩
  | [], u :: b, x, y, _, hb, hx, _, h => by
      have hu : isNumberUnit u = false := hx u (by rw [← List.nil_append x, h]; rfl)
      rw [hb u (by simp)] at hu
      exact absurd hu (by decide)
  | u :: a, [], x, y, ha, _, _, hy, h => by
      have hu : isNumberUnit u = false := hy u (by rw [← List.nil_append y, ← h]; rfl)
      rw [ha u (by simp)] at hu
      exact absurd hu (by decide)
  | u :: a, v :: b, x, y, ha, hb, hx, hy, h => by
      obtain ⟨huv, hrest⟩ := List.cons.inj h
      obtain ⟨hab, hxy⟩ := units_append_inj (fun w hw => ha w (List.mem_cons_of_mem _ hw))
        (fun w hw => hb w (List.mem_cons_of_mem _ hw)) hx hy hrest
      exact ⟨by rw [huv, hab], hxy⟩

inductive Kind where
  | null | bool | num | str | arr | obj
  deriving DecidableEq

def kind : Json ν → Kind
  | null => .null
  | bool _ => .bool
  | num _ => .num
  | str _ => .str
  | arr _ => .arr
  | obj _ => .obj

/-- The kind of the values whose text begins with `u`, if there are any. -/
def kindOf (u : ℕ) : Option Kind :=
  if isNumberUnit u then some .num
  else if u = 110 then some .null
  else if u = 116 || u = 102 then some .bool
  else if u = dquote then some .str
  else if u = lbracket then some .arr
  else if u = lbrace then some .obj
  else none

variable [LawfulText ν]

theorem stringify_head (j : Json ν) :
    ∃ u rest, stringify j = u :: rest ∧ kindOf u = some j.kind := by
  cases j with
  | null => exact ⟨_, _, by rw [stringify]; rfl, rfl⟩
  | bool b => cases b <;> exact ⟨_, _, by rw [stringify]; rfl, rfl⟩
  | num n =>
      rcases htext : NumberText.toText n with _ | ⟨u, rest⟩
      · exact absurd htext (LawfulText.toText_ne_nil n)
      · have hu : isNumberUnit u = true := LawfulText.toText_units n u (by rw [htext]; simp)
        exact ⟨u, rest, by rw [stringify, htext], by rw [kindOf, if_pos hu]; rfl⟩
  | str s => exact ⟨_, _, by rw [stringify]; rfl, rfl⟩
  | arr items => cases items <;> exact ⟨_, _, by rw [stringify], rfl⟩
  | obj members =>
      rcases members with _ | ⟨⟨k, j⟩, members⟩ <;> exact ⟨_, _, by rw [stringify], rfl⟩

theorem kind_eq {a b : Json ν} {x y : Text} (h : stringify a ++ x = stringify b ++ y) :
    a.kind = b.kind := by
  obtain ⟨u, s, hu, hku⟩ := stringify_head a
  obtain ⟨v, t, hv, hkv⟩ := stringify_head b
  rw [hu, hv, List.cons_append, List.cons_append] at h
  obtain ⟨rfl, -⟩ := List.cons.inj h
  exact Option.some.inj (hku.symm.trans hkv)

theorem stringify_ne_cons {j : Json ν} {u : ℕ} {x y : Text} (hu : kindOf u = none) :
    stringify j ++ x ≠ u :: y := by
  intro h
  obtain ⟨v, s, hv, hkv⟩ := stringify_head j
  rw [hv, List.cons_append] at h
  obtain ⟨rfl, -⟩ := List.cons.inj h
  exact absurd (hu.symm.trans hkv) (by simp)

theorem stops_cons {u : ℕ} {x : Text} (h : isNumberUnit u = false) : Stops (u :: x) := by
  intro v hv
  obtain rfl : u = v := by simpa using hv
  exact h

omit [LawfulText ν] in
theorem stops_items (items : List (Json ν)) (x : Text) : Stops (stringifyItems items ++ x) := by
  cases items <;> (rw [stringifyItems]; exact stops_cons (by decide))

omit [LawfulText ν] in
theorem stops_members (members : List (Text × Json ν)) (x : Text) :
    Stops (stringifyMembers members ++ x) := by
  rcases members with _ | ⟨⟨k, j⟩, members⟩ <;> (rw [stringifyMembers]; exact stops_cons (by decide))

theorem quote_append_inj {s t x y : Text} (h : quote s ++ x = quote t ++ y) : s = t ∧ x = y :=
  quoteRest_append_inj (List.cons.inj h).2

mutual

/-- **The text of a value, and what follows it, can be cut apart in one way only.** -/
theorem stringify_append_inj : ∀ {a b : Json ν} {x y : Text}, Stops x → Stops y →
    stringify a ++ x = stringify b ++ y → a = b ∧ x = y
  | null, b, x, y, _, _, h => by
      cases b with
      | null => exact ⟨rfl, List.append_cancel_left h⟩
      | _ => exact absurd (kind_eq h) (by simp [kind])
  | bool c, b, x, y, _, _, h => by
      cases b with
      | bool d =>
          cases c <;> cases d
          · exact ⟨rfl, List.append_cancel_left h⟩
          · simp [stringify, js, codeUnits] at h
          · simp [stringify, js, codeUnits] at h
          · exact ⟨rfl, List.append_cancel_left h⟩
      | _ => exact absurd (kind_eq h) (by simp [kind])
  | num m, b, x, y, hx, hy, h => by
      cases b with
      | num n =>
          rw [stringify, stringify] at h
          obtain ⟨hmn, hxy⟩ := units_append_inj (LawfulText.toText_units m)
            (LawfulText.toText_units n) hx hy h
          exact ⟨by rw [LawfulText.toText_injective m n hmn], hxy⟩
      | _ => exact absurd (kind_eq h) (by simp [kind])
  | str s, b, x, y, _, _, h => by
      cases b with
      | str t =>
          rw [stringify, stringify] at h
          obtain ⟨hst, hxy⟩ := quote_append_inj h
          exact ⟨by rw [hst], hxy⟩
      | _ => exact absurd (kind_eq h) (by simp [kind])
  | arr items, b, x, y, _, _, h => by
      cases b with
      | arr items' =>
          cases items with
          | nil =>
              cases items' with
              | nil => exact ⟨rfl, List.append_cancel_left h⟩
              | cons j' items' =>
                  rw [stringify, stringify] at h
                  simp only [List.cons_append, List.nil_append, List.append_assoc,
                    List.cons.injEq, true_and] at h
                  exact absurd h.symm (stringify_ne_cons (by decide))
          | cons j items =>
              cases items' with
              | nil =>
                  rw [stringify, stringify] at h
                  simp only [List.cons_append, List.nil_append, List.append_assoc,
                    List.cons.injEq, true_and] at h
                  exact absurd h (stringify_ne_cons (by decide))
              | cons j' items' =>
                  rw [stringify, stringify] at h
                  simp only [List.cons_append, List.append_assoc, List.cons.injEq, true_and] at h
                  obtain ⟨hj, hrest⟩ := stringify_append_inj (stops_items items x)
                    (stops_items items' y) h
                  obtain ⟨hitems, hxy⟩ := stringifyItems_append_inj hrest
                  exact ⟨by rw [hj, hitems], hxy⟩
      | _ => exact absurd (kind_eq h) (by simp [kind])
  | obj members, b, x, y, _, _, h => by
      cases b with
      | obj members' =>
          rcases members with _ | ⟨⟨k, j⟩, members⟩
          · rcases members' with _ | ⟨⟨k', j'⟩, members'⟩
            · exact ⟨rfl, List.append_cancel_left h⟩
            · rw [stringify, stringify] at h
              simp [quote, dquote, rbrace] at h
          · rcases members' with _ | ⟨⟨k', j'⟩, members'⟩
            · rw [stringify, stringify] at h
              simp [quote, dquote, rbrace] at h
            · rw [stringify, stringify] at h
              simp only [List.cons_append, List.append_assoc, List.cons.injEq, true_and] at h
              obtain ⟨hk, hcolon⟩ := quote_append_inj h
              obtain ⟨hj, hrest⟩ := stringify_append_inj (stops_members members x)
                (stops_members members' y) (List.cons.inj hcolon).2
              obtain ⟨hmembers, hxy⟩ := stringifyMembers_append_inj hrest
              exact ⟨by rw [hk, hj, hmembers], hxy⟩
      | _ => exact absurd (kind_eq h) (by simp [kind])

theorem stringifyItems_append_inj : ∀ {l l' : List (Json ν)} {x y : Text},
    stringifyItems l ++ x = stringifyItems l' ++ y → l = l' ∧ x = y
  | [], [], x, y, h => ⟨rfl, List.append_cancel_left h⟩
  | [], j' :: l', x, y, h => by simp [stringifyItems, comma, rbracket] at h
  | j :: l, [], x, y, h => by simp [stringifyItems, comma, rbracket] at h
  | j :: l, j' :: l', x, y, h => by
      rw [stringifyItems, stringifyItems] at h
      simp only [List.cons_append, List.append_assoc, List.cons.injEq, true_and] at h
      obtain ⟨hj, hrest⟩ := stringify_append_inj (stops_items l x) (stops_items l' y) h
      obtain ⟨hl, hxy⟩ := stringifyItems_append_inj hrest
      exact ⟨by rw [hj, hl], hxy⟩

theorem stringifyMembers_append_inj : ∀ {l l' : List (Text × Json ν)} {x y : Text},
    stringifyMembers l ++ x = stringifyMembers l' ++ y → l = l' ∧ x = y
  | [], [], x, y, h => ⟨rfl, List.append_cancel_left h⟩
  | [], (k', j') :: l', x, y, h => by simp [stringifyMembers, comma, rbrace] at h
  | (k, j) :: l, [], x, y, h => by simp [stringifyMembers, comma, rbrace] at h
  | (k, j) :: l, (k', j') :: l', x, y, h => by
      rw [stringifyMembers, stringifyMembers] at h
      simp only [List.cons_append, List.append_assoc, List.cons.injEq, true_and] at h
      obtain ⟨hk, hcolon⟩ := quote_append_inj h
      obtain ⟨hj, hrest⟩ := stringify_append_inj (stops_members l x) (stops_members l' y)
        (List.cons.inj hcolon).2
      obtain ⟨hl, hxy⟩ := stringifyMembers_append_inj hrest
      exact ⟨by rw [hk, hj, hl], hxy⟩
end

theorem stringify_injective {a b : Json ν} (h : stringify a = stringify b) : a = b := by
  have hstop : Stops [] := by
    intro u hu
    simp at hu
  refine (stringify_append_inj (x := []) (y := []) hstop hstop ?_).1
  rw [List.append_nil, List.append_nil, h]

/-! ## Integers among the numbers -/

/-- `Number.MAX_SAFE_INTEGER` -/
def maxSafeInteger : ℤ := 9007199254740991

end Json

/-- Numbers among which there are the integers. -/
class JsonNumber (ν : Type) extends JsNumber ν where
  ofInt : ℤ → ν
  toInt : ν → Option ℤ

namespace Json

/-- Integers a double holds exactly are there, each with a text of its own. -/
class LawfulJson (ν : Type) [JsonNumber ν] : Prop extends LawfulText ν where
  toInt_ofInt : ∀ z, -maxSafeInteger ≤ z → z ≤ maxSafeInteger →
    JsonNumber.toInt (JsonNumber.ofInt z : ν) = some z

instance : JsonNumber ℚ where
  ofInt z := z
  toInt q := if q.den = 1 then some q.num else none

theorem isDigit_decimal {n u : ℕ} (h : u ∈ decimal n) : isDigit u = true := by
  obtain ⟨c, hc, rfl⟩ := List.mem_map.mp h
  have hd : c.isDigit = true := Nat.isDigit_of_mem_toDigits (by decide) (by decide) hc
  simp only [Char.isDigit, Bool.and_eq_true, decide_eq_true_eq, ge_iff_le,
    UInt32.le_iff_toNat_le] at hd
  simp only [isDigit, Bool.and_eq_true, decide_eq_true_eq]
  exact hd

theorem decimal_ne_nil (n : ℕ) : decimal n ≠ [] := by
  simp [decimal]

theorem parseDecimal_decimal (n : ℕ) : parseDecimal (decimal n) = n := by
  unfold parseDecimal decimal
  rw [List.foldl_map]
  exact Nat.ofDigitChars_ten_toDigits

theorem takeWhile_decimal (n : ℕ) : (decimal n).takeWhile isDigit = decimal n := by
  rw [List.takeWhile_eq_self_iff]
  intro u hu
  exact isDigit_decimal hu

theorem dropWhile_decimal (n : ℕ) : (decimal n).dropWhile isDigit = [] := by
  rw [List.dropWhile_eq_nil_iff]
  intro u hu
  exact isDigit_decimal hu

theorem decimal_injective {m n : ℕ} (h : decimal m = decimal n) : m = n := by
  have hchars : Nat.toDigits 10 m = Nat.toDigits 10 n :=
    List.map_injective_iff.mpr (fun a b hab => Char.toNat_inj.mp hab) h
  rw [← Nat.ofDigitChars_ten_toDigits (n := m), hchars, Nat.ofDigitChars_ten_toDigits]

instance : NumberText ℕ := ⟨decimal⟩

instance : LawfulText ℕ where
  toText_ne_nil := decimal_ne_nil
  toText_units n u hu := by
    have hdigit : isDigit u = true := isDigit_decimal hu
    simp [isNumberUnit, hdigit]
  toText_injective _ _ h := decimal_injective h

theorem decimal_digit {d : ℕ} (hd : isDigit d = true) : decimal (d - 48) = [d] := by
  simp only [isDigit, Bool.and_eq_true, decide_eq_true_eq] at hd
  have hlt : d - 48 < 10 := by omega
  unfold decimal
  rw [Nat.toDigits_of_lt_base hlt, List.map_singleton, Nat.toNat_digitChar_of_lt_ten hlt]
  congr 1
  omega

theorem decimal_append_digit {n d : ℕ} (hn : 0 < n) (hd : isDigit d = true) :
    decimal (10 * n + (d - 48)) = decimal n ++ [d] := by
  have hlt : d - 48 < 10 := by
    simp only [isDigit, Bool.and_eq_true, decide_eq_true_eq] at hd
    omega
  rw [← decimal_digit hd]
  unfold decimal
  rw [← List.map_append, Nat.toDigits_append_toDigits (by omega) hn hlt]

theorem decimal_foldl : ∀ (t : Text) (n : ℕ), 0 < n → t.all isDigit = true →
    decimal (t.foldl (fun n c => 10 * n + (c - 48)) n) = decimal n ++ t
  | [], n, _, _ => by simp
  | c :: t, n, hn, ht => by
      rw [List.all_cons, Bool.and_eq_true] at ht
      rw [List.foldl_cons, decimal_foldl t _ (by omega) ht.2, decimal_append_digit hn ht.1, List.append_assoc,
        List.singleton_append]

theorem decimal_parseDecimal {t : Text} (hdigits : t.all isDigit = true)
    (hlead : t = [48] ∨ t ≠ [] ∧ t.head? ≠ some 48) : decimal (parseDecimal t) = t := by
  cases hlead with
  | inl hzero => rw [hzero]; rfl
  | inr hlead =>
    obtain ⟨hne, hhead⟩ := hlead
    cases t with
    | nil => exact absurd rfl hne
    | cons c rest =>
      rw [List.all_cons, Bool.and_eq_true] at hdigits
      have hc : 0 < c - 48 := by
        have hlow := hdigits.1
        simp only [isDigit, Bool.and_eq_true, decide_eq_true_eq] at hlow
        have : c ≠ 48 := fun heq => hhead (by rw [heq]; rfl)
        omega
      unfold parseDecimal
      rw [List.foldl_cons, Nat.mul_zero, Nat.zero_add, decimal_foldl rest _ hc hdigits.2,
        decimal_digit hdigits.1, List.singleton_append]

theorem decimal_head? {n : ℕ} (hn : 0 < n) : (decimal n).head? ≠ some 48 := by
  induction n using Nat.strongRecOn with
  | ind n ih =>
    have hdigit : isDigit (n % 10 + 48) = true := by
      simp only [isDigit, Bool.and_eq_true, decide_eq_true_eq]
      omega
    by_cases hsmall : n < 10
    · have hone := decimal_digit hdigit
      rw [Nat.add_sub_cancel, Nat.mod_eq_of_lt hsmall] at hone
      rw [hone, List.head?_cons, ne_eq, Option.some.injEq]
      omega
    · have hq : 0 < n / 10 := by omega
      have happ := decimal_append_digit hq hdigit
      rw [Nat.add_sub_cancel, Nat.div_add_mod] at happ
      rw [happ, List.head?_append_of_ne_nil _ (decimal_ne_nil _)]
      exact ih (n / 10) (by omega) hq

theorem decimal_append_inj {m n : ℕ} {x y : Text} (hx : ∀ u ∈ x.head?, isDigit u = false)
    (hy : ∀ u ∈ y.head?, isDigit u = false) (h : decimal m ++ x = decimal n ++ y) :
    m = n ∧ x = y := by
  have hcut : ∀ {k : ℕ} {z : Text}, (∀ u ∈ z.head?, isDigit u = false) →
      (decimal k ++ z).takeWhile isDigit = decimal k := by
    intro k z hz
    rw [List.takeWhile_append_of_pos (fun u hu => isDigit_decimal hu)]
    cases z with
    | nil => simp
    | cons u z => rw [List.takeWhile_cons_of_neg (by simp [hz u (by simp)]), List.append_nil]
  have hmn : decimal m = decimal n := by
    calc decimal m = (decimal m ++ x).takeWhile isDigit := (hcut hx).symm
      _ = (decimal n ++ y).takeWhile isDigit := by rw [h]
      _ = decimal n := hcut hy
  obtain rfl := decimal_injective hmn
  exact ⟨rfl, List.append_cancel_left h⟩

theorem rat_toText_inj {p q : ℚ} (h : JsNumber.toText p = JsNumber.toText q) : p = q := by
  have hden : ∀ (r : ℚ), ∀ u ∈ (if r.den = 1 then [] else js "/" ++ decimal r.den).head?,
      isDigit u = false := by
    intro r u hu
    split at hu
    · simp at hu
    · obtain rfl : (47 : ℕ) = u := by simpa [js, codeUnits] using hu
      rfl
  have hsign : ∀ {a b : ℚ}, a.num < 0 → JsNumber.toText a = JsNumber.toText b → b.num < 0 := by
    intro a b ha hab
    by_contra hb
    obtain ⟨u, rest, hu⟩ := List.exists_cons_of_ne_nil (decimal_ne_nil b.num.natAbs)
    have hdigit : isDigit u = true := isDigit_decimal (n := b.num.natAbs) (by rw [hu]; simp)
    simp only [JsNumber.toText, if_pos ha, if_neg hb, hu, List.cons_append, List.nil_append,
      List.cons.injEq] at hab
    rw [← hab.1] at hdigit
    exact absurd hdigit (by decide)
  have hiff : p.num < 0 ↔ q.num < 0 := ⟨fun hp => hsign hp h, fun hq => hsign hq h.symm⟩
  simp only [JsNumber.toText, hiff, List.append_assoc] at h
  obtain ⟨hnum, hrest⟩ := decimal_append_inj (hden p) (hden q) (List.append_cancel_left h)
  have hdens : p.den = q.den := by
    split_ifs at hrest with h1 h2 h2
    · rw [h1, h2]
    · simp [js, codeUnits] at hrest
    · simp [js, codeUnits] at hrest
    · exact decimal_injective (List.append_cancel_left hrest)
  refine Rat.ext ?_ hdens
  omega

instance : LawfulJson ℚ where
  toText_ne_nil q := by simp [NumberText.toText, JsNumber.toText, decimal_ne_nil]
  toText_units q u hu := by
    simp only [NumberText.toText, JsNumber.toText, List.mem_append] at hu
    have hdigit : ∀ {n : ℕ}, u ∈ decimal n → isNumberUnit u = true := by
      intro n hn
      simp [isNumberUnit, isDigit_decimal hn]
    rcases hu with (hu | hu) | hu
    · split at hu
      · obtain rfl : u = 45 := by simpa using hu
        rfl
      · simp at hu
    · exact hdigit hu
    · split at hu
      · simp at hu
      · rcases List.mem_append.mp hu with hu | hu
        · obtain rfl : u = 47 := by simpa [js, codeUnits] using hu
          rfl
        · exact hdigit hu
  toText_injective p q h := rat_toText_inj h
  toInt_ofInt z _ _ := by simp [JsonNumber.toInt, JsonNumber.ofInt]

/-! ## What a schema checks -/

variable {ν : Type} [JsonNumber ν] {α : Type}

/-- `z.strictObject`: the members, if there are none but the known ones. -/
def strictObject (known : List Text) : Json ν → Option (List (Text × Json ν))
  | obj members => if members.all (fun m => known.contains m.1) then some members else none
  | _ => none

/-- `z.number().int().min(lo).max(hi)` -/
def integer (lo hi : ℤ) : Json ν → Option ℤ
  | num n => (JsonNumber.toInt n).filter fun z => decide (lo ≤ z ∧ z ≤ hi)
  | _ => none

/-- `z.number().finite()` -/
def finite : Json ν → Option ν
  | num n => if JsNumber.isFinite n then some n else none
  | _ => none

def string (check : Text → Bool) : Json ν → Option Text
  | str s => if check s then some s else none
  | _ => none

/-- `z.array(item).min(lo).max(hi)` -/
def array (item : Json ν → Option α) (lo hi : ℕ) : Json ν → Option (List α)
  | arr items => if lo ≤ items.length ∧ items.length ≤ hi then items.mapM item else none
  | _ => none

def member (members : List (Text × Json ν)) (name : Text) (check : Json ν → Option α) : Option α :=
  (members.lookup name).bind check

def optionalMember (members : List (Text × Json ν)) (name : Text) (check : Json ν → Option α) :
    Option (Option α) :=
  match members.lookup name with
  | none => some none
  | some j => (check j).map some

theorem integer_eq_some {lo hi z : ℤ} {j : Json ν} (h : integer lo hi j = some z) :
    lo ≤ z ∧ z ≤ hi := by
  cases j with
  | num n =>
      have hz := (Option.filter_eq_some_iff.mp h).2
      simpa using hz
  | _ => simp [integer] at h

omit [JsonNumber ν] in
theorem string_eq_some {check : Text → Bool} {s : Text} {j : Json ν}
    (h : string check j = some s) : check s = true := by
  cases j with
  | str t =>
      by_cases ht : check t = true
      · simp only [string, if_pos ht] at h
        rwa [← Option.some.inj h]
      · simp [string, ht] at h
  | _ => simp [string] at h

theorem finite_eq_some {n : ν} {j : Json ν} (h : finite j = some n) :
    JsNumber.isFinite n = true := by
  cases j with
  | num m =>
      by_cases hm : JsNumber.isFinite m = true
      · simp only [finite, if_pos hm] at h
        rwa [← Option.some.inj h]
      · simp [finite, hm] at h
  | _ => simp [finite] at h

omit [JsonNumber ν] in
theorem member_eq_some {members : List (Text × Json ν)} {name : Text} {check : Json ν → Option α}
    {a : α} (h : member members name check = some a) : ∃ j, check j = some a := by
  obtain ⟨j, _, hj⟩ := Option.bind_eq_some_iff.mp h
  exact ⟨j, hj⟩

omit [JsonNumber ν] in
theorem optionalMember_eq_some {members : List (Text × Json ν)} {name : Text}
    {check : Json ν → Option α} {a : Option α} (h : optionalMember members name check = some a) :
    ∀ z ∈ a, ∃ j, check j = some z := by
  intro z hz
  unfold optionalMember at h
  split at h
  · rw [← Option.some.inj h] at hz
    simp at hz
  · rename_i j _
    obtain ⟨y, hy, rfl⟩ := Option.map_eq_some_iff.mp h
    obtain rfl : y = z := by simpa using hz
    exact ⟨j, hy⟩

theorem mapM_eq_some {β : Type} {f : β → Option α} : ∀ {bs : List β} {as : List α},
    bs.mapM f = some as → as.length = bs.length ∧ ∀ a ∈ as, ∃ b, f b = some a
  | [], as, h => by
      obtain rfl : [] = as := by simpa using h
      simp
  | b :: bs, as, h => by
      simp only [List.mapM_cons, Option.bind_eq_bind, Option.bind_eq_some_iff] at h
      obtain ⟨a, ha, as', has, heq⟩ := h
      obtain rfl : a :: as' = as := by simpa using heq
      obtain ⟨hlen, hall⟩ := mapM_eq_some has
      refine ⟨by simp [hlen], ?_⟩
      intro c hc
      rcases List.mem_cons.mp hc with rfl | hc
      · exact ⟨b, ha⟩
      · exact hall c hc

theorem mapM_map_eq_some {β : Type} {f : β → Option α} {g : α → β} : ∀ {as : List α},
    (∀ a ∈ as, f (g a) = some a) → (as.map g).mapM f = some as
  | [], _ => rfl
  | a :: as, h => by
      have hrest := mapM_map_eq_some (f := f) fun b hb => h b (List.mem_cons_of_mem _ hb)
      simp [List.mapM_cons, h a (by simp), hrest]

omit [JsonNumber ν] in
theorem array_eq_some {item : Json ν → Option α} {lo hi : ℕ} {j : Json ν} {as : List α}
    (h : array item lo hi j = some as) :
    (lo ≤ as.length ∧ as.length ≤ hi) ∧ ∀ a ∈ as, ∃ i, item i = some a := by
  cases j with
  | arr items =>
      by_cases hlen : lo ≤ items.length ∧ items.length ≤ hi
      · simp only [array, if_pos hlen] at h
        obtain ⟨heq, hall⟩ := mapM_eq_some h
        exact ⟨by rwa [heq], hall⟩
      · simp [array, if_neg hlen] at h
  | _ => simp [array] at h

end Json

end Albusforge.Lib
