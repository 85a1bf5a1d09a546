import Albusforge.Lib.JsonParse
import Albusforge.Lib.Url

/-!
# UTF-8

Strings written as bytes, and bytes read as a string, as an encoder and a decoder of the platform do it: a lone half
of a pair, and what is no character's bytes, becomes U+FFFD. **What has ASCII units only is its own bytes**
(`encodeUtf8_ascii`, `decodeUtf8_ascii`), also when it is quoted (`quote_ascii`).
-/

namespace Albusforge.Lib

open Json

/-! ## Writing and reading -/

def encodeUtf8 (t : Text) : List ℕ := (Url.points t).flatMap Url.utf8

def unitsOf (c : ℕ) : Text := if c < 0x10000 then [c] else [0xD800 + (c - 0x10000) / 0x400, 0xDC00 + (c - 0x10000) % 0x400]

/-- Where a decoder is in a character: how many bytes it needs, what they said so far, and the bounds of the next. -/
structure Decoder where
  needed : ℕ
  point : ℕ
  lower : ℕ
  upper : ℕ

namespace Decoder

def between : Decoder := ⟨0, 0, 0x80, 0xBF⟩

def first (b : ℕ) : Text × Decoder :=
  if b < 0x80 then ([b], between)
  else if 0xC2 ≤ b ∧ b ≤ 0xDF then ([], ⟨1, b % 0x20, 0x80, 0xBF⟩)
  else if 0xE0 ≤ b ∧ b ≤ 0xEF then
    ([], ⟨2, b % 0x10, if b = 0xE0 then 0xA0 else 0x80, if b = 0xED then 0x9F else 0xBF⟩)
  else if 0xF0 ≤ b ∧ b ≤ 0xF4 then
    ([], ⟨3, b % 8, if b = 0xF0 then 0x90 else 0x80, if b = 0xF4 then 0x8F else 0xBF⟩)
  else ([0xFFFD], between)

def next (d : Decoder) (b : ℕ) : Text × Decoder :=
  if d.needed = 0 then first b
  else if d.lower ≤ b ∧ b ≤ d.upper then
    let point := 0x40 * d.point + b % 0x40
    if d.needed = 1 then (unitsOf point, between) else ([], ⟨d.needed - 1, point, 0x80, 0xBF⟩)
  else (0xFFFD :: (first b).1, (first b).2)

def read (d : Decoder) : List ℕ → Text
  | [] => if d.needed = 0 then [] else [0xFFFD]
  | b :: rest => (d.next b).1 ++ read (d.next b).2 rest

end Decoder

def decodeUtf8 (bytes : List ℕ) : Text := Decoder.between.read bytes

/-! ## ASCII -/

theorem scalar_ascii {u : ℕ} (h : u < 128) : Url.scalar u = u := by
  have hhigh : isHighSurrogate u = false := by simp [isHighSurrogate]; omega
  have hlow : isLowSurrogate u = false := by simp [isLowSurrogate]; omega
  simp [Url.scalar, hhigh, hlow]

theorem points_ascii {t : Text} (h : ∀ u ∈ t, u < 128) : Url.points t = t := by
  induction t using Url.points.induct with
  | case1 => rfl
  | case2 u => rw [Url.points, scalar_ascii (h u (by simp))]
  | case3 u v rest hpair ih =>
    have hu := h u (by simp)
    simp only [isHighSurrogate, Bool.and_eq_true, decide_eq_true_eq] at hpair
    omega
  | case4 u v rest hpair ih =>
    rw [Url.points, if_neg hpair, scalar_ascii (h u (by simp)), ih fun w hw => h w (List.mem_cons_of_mem _ hw)]

theorem encodeUtf8_ascii {t : Text} (h : ∀ u ∈ t, u < 128) : encodeUtf8 t = t := by
  rw [encodeUtf8, points_ascii h]
  induction t with
  | nil => rfl
  | cons u t ih =>
    have hu : Url.utf8 u = [u] := if_pos (h u (by simp))
    rw [List.flatMap_cons, hu, ih fun w hw => h w (List.mem_cons_of_mem _ hw)]
    rfl

theorem decodeUtf8_ascii {bytes : List ℕ} (h : ∀ b ∈ bytes, b < 128) : decodeUtf8 bytes = bytes := by
  induction bytes with
  | nil => rfl
  | cons b rest ih =>
    have hb : Decoder.between.next b = ([b], Decoder.between) := if_pos (h b (by simp))
    have hread := ih fun w hw => h w (List.mem_cons_of_mem _ hw)
    rw [decodeUtf8, Decoder.read, hb]
    exact congrArg _ hread

/-! ## JSON -/

theorem hexUnit_ascii {d : ℕ} (h : d < 16) : hexUnit d < 128 := by
  unfold hexUnit
  split <;> omega

theorem unicodeEscape_ascii {u v : ℕ} (hv : v ∈ unicodeEscape u) : v < 128 := by
  have hhex : ∀ n : ℕ, hexUnit (n % 16) < 128 := fun n => hexUnit_ascii (Nat.mod_lt n (by omega))
  simp only [unicodeEscape, List.mem_cons, List.not_mem_nil, or_false] at hv
  rcases hv with hv | hv | hv | hv | hv | hv
  · rw [hv]; decide
  · rw [hv]; decide
  · exact hv ▸ hhex (u / 4096)
  · exact hv ▸ hhex (u / 256)
  · exact hv ▸ hhex (u / 16)
  · exact hv ▸ hhex u

theorem quoteUnit_ascii {u v : ℕ} (h : u < 128) (hv : v ∈ quoteUnit u) : v < 128 := by
  have hescape : ∀ {e : ℕ}, e < 128 → v ∈ [backslash, e] → v < 128 := by
    intro e he hv
    rcases List.mem_cons.mp hv with hv | hv
    · rw [hv]; decide
    · rw [List.mem_singleton.mp hv]; exact he
  unfold quoteUnit at hv
  split_ifs at hv
  · exact hescape (by decide) hv
  · exact hescape (by decide) hv
  · exact hescape (by decide) hv
  · exact hescape (by decide) hv
  · exact hescape (by decide) hv
  · exact hescape (by decide) hv
  · exact hescape (by decide) hv
  · exact unicodeEscape_ascii hv
  · rw [List.mem_singleton.mp hv]; exact h

theorem quoteRest_ascii {s : Text} (h : ∀ u ∈ s, u < 128) : ∀ v ∈ quoteRest s, v < 128 := by
  induction s using quoteRest.induct with
  | case1 =>
    intro v hv
    rw [List.mem_singleton.mp hv]; decide
  | case2 u =>
    intro v hv
    rcases List.mem_append.mp hv with hv | hv
    · exact quoteUnit_ascii (h u (by simp)) hv
    · rw [List.mem_singleton.mp hv]; decide
  | case3 u v rest hpair ih =>
    have hu := h u (by simp)
    simp only [isHighSurrogate, Bool.and_eq_true, decide_eq_true_eq] at hpair
    omega
  | case4 u v rest hpair ih =>
    rw [quoteRest, if_neg hpair]
    intro w hw
    rcases List.mem_append.mp hw with hw | hw
    · exact quoteUnit_ascii (h u (by simp)) hw
    · exact ih (fun x hx => h x (List.mem_cons_of_mem _ hx)) w hw

theorem quote_ascii {s : Text} (h : ∀ u ∈ s, u < 128) : ∀ v ∈ quote s, v < 128 := by
  intro v hv
  rcases List.mem_cons.mp hv with hv | hv
  · rw [hv]; decide
  · exact quoteRest_ascii h v hv

theorem quoteUnit_length (u : ℕ) : (quoteUnit u).length ≤ 6 := by
  unfold quoteUnit
  split_ifs <;> simp [unicodeEscape]

theorem quoteRest_length (s : Text) : (quoteRest s).length ≤ 6 * s.length + 1 := by
  induction s using quoteRest.induct with
  | case1 => simp [quoteRest]
  | case2 u =>
    have hu := quoteUnit_length u
    simp only [quoteRest, List.length_append, List.length_cons, List.length_nil]
    omega
  | case3 u v rest hpair ih =>
    rw [quoteRest, if_pos hpair]
    simp only [List.length_cons] at *
    omega
  | case4 u v rest hpair ih =>
    have hu := quoteUnit_length u
    rw [quoteRest, if_neg hpair, List.length_append]
    simp only [List.length_cons] at *
    omega

theorem quote_length (s : Text) : (quote s).length ≤ 6 * s.length + 2 := by
  have hrest := quoteRest_length s
  rw [quote, List.length_cons]
  omega

end Albusforge.Lib
