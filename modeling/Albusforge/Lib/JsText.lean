import Mathlib.Data.List.Lex
import Mathlib.Algebra.Order.Ring.Rat
import Mathlib.Algebra.Order.Group.Unbundled.Basic
import Mathlib.Order.Compare
import Albusforge.Lib.Sorting

/-!
# Strings and numbers of the host language

The services are TypeScript, where a string is a sequence of UTF-16 code units
compared unit by unit, and a number is whatever the engine's arithmetic makes of
it. `Text` is the former. The latter is the class `JsNumber`: the operations a
program applies to numbers, with no law attached, so that a definition over it
says what the program computes in doubles and in exact rationals alike. A result
that needs arithmetic is stated at `ℚ`.
-/

namespace Albusforge.Lib

abbrev Text := List ℕ

instance : LawfulBEq Text := inferInstance

def codeUnits (c : Char) : Text :=
  let n := c.toNat
  if n < 0x10000 then [n]
  else [0xD800 + (n - 0x10000) / 0x400, 0xDC00 + (n - 0x10000) % 0x400]

def js (s : String) : Text := s.toList.flatMap codeUnits

abbrev hyphen : ℕ := 45
abbrev dot : ℕ := 46
abbrev comma : ℕ := 44
abbrev atSign : ℕ := 64

def isDigit (c : ℕ) : Bool := 48 ≤ c && c ≤ 57
def isLower (c : ℕ) : Bool := 97 ≤ c && c ≤ 122
def isUpper (c : ℕ) : Bool := 65 ≤ c && c ≤ 90

/-- White space and line ends, as `trim` has them. -/
def isWhite (c : ℕ) : Bool :=
  (9 ≤ c && c ≤ 13) || c = 0x20 || c = 0xA0 || c = 0x1680 || (0x2000 ≤ c && c ≤ 0x200A) || c = 0x2028 ||
    c = 0x2029 || c = 0x202F || c = 0x205F || c = 0x3000 || c = 0xFEFF

def trim (t : Text) : Text := ((t.dropWhile isWhite).reverse.dropWhile isWhite).reverse

/-- `a < b ? -1 : a > b ? 1 : 0` on strings. -/
def compareText (a b : Text) : Ordering := if a < b then .lt else if b < a then .gt else .eq

theorem compareText_compares {α : Type*} (name : α → Text) :
    Compares (fun a b => compareText (name a) (name b)) name := by
  intro a b
  unfold compareText
  dsimp only
  rcases lt_trichotomy (name a) (name b) with h | h | h
  · rw [if_pos h, compare_lt_iff_lt.mpr h]
  · rw [if_neg (not_lt.mpr h.ge), if_neg (not_lt.mpr h.le), compare_eq_iff_eq.mpr h]
  · rw [if_neg (not_lt_of_gt h), if_pos h, compare_gt_iff_gt.mpr h]

theorem compareText_byKey : ByKey compareText (id : Text → Text) := by
  exact (compareText_compares id).byKey

theorem compareText_on {α : Type*} (name : α → Text) :
    ByKey (fun a b => compareText (name a) (name b)) name :=
  (compareText_compares name).byKey

theorem compareText_eq {a b : Text} : compareText a b = .eq ↔ a = b := by
  unfold compareText
  rcases lt_trichotomy a b with h | h | h
  · simp [h, h.ne]
  · simp [h]
  · simp [h, h.ne', not_lt_of_gt h]

/-- `s.split(sep)` for a one-unit separator. Never empty. -/
def split (sep : ℕ) : Text → List Text
  | [] => [[]]
  | c :: rest =>
      if c = sep then [] :: split sep rest
      else match split sep rest with
        | [] => [[c]]
        | head :: tail => (c :: head) :: tail

/-- `parts.join(sep)`. -/
def join (sep : ℕ) : List Text → Text
  | [] => []
  | [t] => t
  | t :: u :: rest => t ++ sep :: join sep (u :: rest)

theorem split_ne_nil {sep : ℕ} : ∀ t : Text, split sep t ≠ []
  | [] => by simp [split]
  | c :: rest => by
      unfold split
      split_ifs
      · simp
      · split <;> simp

theorem split_append {sep : ℕ} : ∀ {t x : Text}, sep ∉ t → split sep (t ++ sep :: x) = t :: split sep x
  | [], x, _ => by rw [List.nil_append, split, if_pos rfl]
  | c :: t, x, h => by
      have hc : c ≠ sep := fun heq => h (by simp [heq])
      rw [List.cons_append, split, if_neg hc, split_append fun hmem => h (List.mem_cons_of_mem _ hmem)]

theorem split_of_notMem {sep : ℕ} : ∀ {t : Text}, sep ∉ t → split sep t = [t]
  | [], _ => rfl
  | c :: t, h => by
      have hc : c ≠ sep := fun heq => h (by simp [heq])
      rw [split, if_neg hc, split_of_notMem fun hmem => h (List.mem_cons_of_mem _ hmem)]

theorem split_join {sep : ℕ} : ∀ {l : List Text}, l ≠ [] → (∀ t ∈ l, sep ∉ t) → split sep (join sep l) = l
  | [], hne, _ => absurd rfl hne
  | [t], _, h => split_of_notMem (h t (by simp))
  | t :: u :: rest, _, h => by
      rw [join, split_append (h t (by simp)),
        split_join (by simp) fun s hs => h s (List.mem_cons_of_mem _ hs)]

theorem join_split (sep : ℕ) : ∀ t : Text, join sep (split sep t) = t
  | [] => rfl
  | c :: rest => by
      have hrest := join_split sep rest
      unfold split
      split_ifs with hc
      · cases hsplit : split sep rest with
        | nil => exact absurd hsplit (split_ne_nil rest)
        | cons head tail =>
            rw [hsplit] at hrest
            rw [join, hrest, hc, List.nil_append]
      · cases hsplit : split sep rest with
        | nil => exact absurd hsplit (split_ne_nil rest)
        | cons head tail =>
            rw [hsplit] at hrest
            rw [← hrest]
            cases tail with
            | nil => rfl
            | cons _ _ => rfl

theorem append_sep_injective {sep : ℕ} : ∀ {a b x y : Text}, sep ∉ a → sep ∉ b →
    a ++ sep :: x = b ++ sep :: y → a = b ∧ x = y
  | [], [], x, y, _, _, h => by simpa using h
  | [], c :: b, x, y, _, hb, h => by
      exfalso
      have : sep = c := by simpa using (List.cons.inj h).1
      exact hb (by simp [this])
  | c :: a, [], x, y, ha, _, h => by
      exfalso
      have : c = sep := by simpa using (List.cons.inj h).1
      exact ha (by simp [this])
  | c :: a, d :: b, x, y, ha, hb, h => by
      have h' : c :: (a ++ sep :: x) = d :: (b ++ sep :: y) := h
      obtain ⟨hcd, hrest⟩ := List.cons.inj h'
      obtain ⟨hab, hxy⟩ := append_sep_injective (by simp_all) (by simp_all) hrest
      exact ⟨by rw [hcd, hab], hxy⟩

theorem append_sep_injective_right {sep : ℕ} {a b x y : Text} (hx : sep ∉ x) (hy : sep ∉ y)
    (h : a ++ sep :: x = b ++ sep :: y) : a = b ∧ x = y := by
  have hrev := congrArg List.reverse h
  simp only [List.reverse_append, List.reverse_cons, List.append_assoc, List.cons_append,
    List.nil_append] at hrev
  obtain ⟨h1, h2⟩ := append_sep_injective (by simpa using hx) (by simpa using hy) hrev
  exact ⟨List.reverse_injective h2, List.reverse_injective h1⟩

/-- **Joining loses nothing** on nonempty parts that hold no separator. -/
theorem join_injective {sep : ℕ} : ∀ {l l' : List Text},
    (∀ t ∈ l, sep ∉ t ∧ t ≠ []) → (∀ t ∈ l', sep ∉ t ∧ t ≠ []) → join sep l = join sep l' → l = l'
  | [], [], _, _, _ => rfl
  | [], [t], _, h', h => absurd h.symm (h' t (by simp)).2
  | [t], [], h₀, _, h => absurd h (h₀ t (by simp)).2
  | [], t :: u :: rest, _, _, h => by simp [join] at h
  | t :: u :: rest, [], _, _, h => by simp [join] at h
  | [t], [t'], _, _, h => by simpa [join] using h
  | [t], t' :: u' :: rest', h₀, _, h => by
      exfalso
      have : sep ∈ join sep [t] := by rw [h]; simp [join]
      exact (h₀ t (by simp)).1 (by simpa [join] using this)
  | t :: u :: rest, [t'], _, h', h => by
      exfalso
      have : sep ∈ join sep [t'] := by rw [← h]; simp [join]
      exact (h' t' (by simp)).1 (by simpa [join] using this)
  | t :: u :: rest, t' :: u' :: rest', h₀, h', h => by
      rw [join, join] at h
      obtain ⟨ht, hrest⟩ := append_sep_injective (h₀ t (by simp)).1 (h' t' (by simp)).1 h
      have := join_injective (fun s hs => h₀ s (List.mem_cons_of_mem _ hs))
        (fun s hs => h' s (List.mem_cons_of_mem _ hs)) hrest
      rw [ht, this]

theorem map_inj_on {α β : Type*} {f : α → β} : ∀ {l l' : List α},
    (∀ a ∈ l, ∀ b ∈ l', f a = f b → a = b) → l.map f = l'.map f → l = l'
  | [], [], _, _ => rfl
  | [], _ :: _, _, h => by simp at h
  | _ :: _, [], _, h => by simp at h
  | a :: l, b :: l', hinj, h => by
      rw [List.map_cons, List.map_cons] at h
      obtain ⟨hab, hrest⟩ := List.cons.inj h
      rw [hinj a (by simp) b (by simp) hab, map_inj_on (fun c hc d hd =>
        hinj c (List.mem_cons_of_mem _ hc) d (List.mem_cons_of_mem _ hd)) hrest]

def decimal (n : ℕ) : Text := (Nat.toDigits 10 n).map Char.toNat

def parseDecimal (t : Text) : ℕ := t.foldl (fun n c => 10 * n + (c - 48)) 0

/-! ## Numbers -/

/-- What the programs do with numbers. Comparisons are the host's operators, so `eq` is `===`. -/
class JsNumber (ν : Type) extends Add ν, Sub ν, Mul ν, Div ν where
  ofNat : ℕ → ν
  lt : ν → ν → Bool
  le : ν → ν → Bool
  eq : ν → ν → Bool
  min : ν → ν → ν
  max : ν → ν → ν
  isFinite : ν → Bool
  toText : ν → Text

namespace JsNumber

variable {ν : Type} [JsNumber ν]

/-- `a > b` -/
def gt (a b : ν) : Bool := lt b a

/-- A number used as a condition: neither zero nor `NaN`. -/
def truthy (a : ν) : Bool := lt a (ofNat 0) || lt (ofNat 0) a

def sign (a : ν) : Ordering :=
  if lt a (ofNat 0) then .lt else if lt (ofNat 0) a then .gt else .eq

end JsNumber

/-- Exact rationals. Every one of them is finite. -/
instance : JsNumber ℚ where
  ofNat n := n
  lt a b := decide (a < b)
  le a b := decide (a ≤ b)
  eq a b := decide (a = b)
  min := Min.min
  max := Max.max
  isFinite _ := true
  toText q := (if q.num < 0 then [hyphen] else []) ++ decimal q.num.natAbs ++
    (if q.den = 1 then [] else js "/" ++ decimal q.den)

section Rational

variable (a b : ℚ)

@[simp] theorem rat_ofNat (n : ℕ) : (JsNumber.ofNat n : ℚ) = n := rfl
@[simp] theorem rat_lt : JsNumber.lt a b = decide (a < b) := rfl
@[simp] theorem rat_gt : JsNumber.gt a b = decide (b < a) := rfl
@[simp] theorem rat_le : JsNumber.le a b = decide (a ≤ b) := rfl
@[simp] theorem rat_eq : JsNumber.eq a b = decide (a = b) := rfl
@[simp] theorem rat_min : JsNumber.min a b = Min.min a b := rfl
@[simp] theorem rat_max : JsNumber.max a b = Max.max a b := rfl
@[simp] theorem rat_isFinite : JsNumber.isFinite a = true := rfl

theorem rat_truthy : JsNumber.truthy a = decide (a ≠ 0) := by
  rcases lt_trichotomy a 0 with h | h | h
  · simp [JsNumber.truthy, h, h.ne]
  · simp [JsNumber.truthy, h]
  · simp [JsNumber.truthy, h, h.ne']

theorem rat_sign_sub : JsNumber.sign (a - b) = compare a b := by
  unfold JsNumber.sign
  simp only [rat_lt, rat_ofNat, Nat.cast_zero, decide_eq_true_eq, sub_neg, sub_pos]
  rcases lt_trichotomy a b with h | h | h
  · rw [if_pos h, compare_lt_iff_lt.mpr h]
  · rw [if_neg (not_lt.mpr h.ge), if_neg (not_lt.mpr h.le), compare_eq_iff_eq.mpr h]
  · rw [if_neg (not_lt_of_gt h), if_pos h, compare_gt_iff_gt.mpr h]

end Rational

end Albusforge.Lib
