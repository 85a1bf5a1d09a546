import Albusforge.Camera.FormFields
import Albusforge.Camera.Setup

/-!
# The text of the settings

What cJSON is relied on for: it prints a quote, a backslash or a control character of a string as an
escape of two or six bytes and every other byte as it is, and finds the strings again in what it
printed (`CJson.Documented`). A parser that does this for the text of two settings is `plainJson`.
-/

namespace Albusforge.Camera

open Lib

def escapeLetters : List (UInt8 × UInt8) :=
  [(34, 34), (92, 92), (8, 98), (12, 102), (10, 110), (13, 114), (9, 116)]

def escaped (c : UInt8) : Bytes :=
  match escapeLetters.lookup c with
  | some letter => [92, letter]
  | none => if c < 32 then [92, 117, 48, 48, hexDigit (c.toNat / 16), hexDigit (c.toNat % 16)] else [c]

def settingsText (ssid password : Bytes) : Bytes :=
  chars "\x7b\"ssid\":\"" ++ (ssid.flatMap escaped ++ (chars "\",\"password\":\"" ++
    (password.flatMap escaped ++ chars "\"\x7d")))

structure CJson.Documented (json : CJson) : Prop where
  prints : ∀ ssid password : CString, json.print ssid.bytes password.bytes = settingsText ssid.bytes password.bytes
  ssid : ∀ ssid password : CString, json.item (json.print ssid.bytes password.bytes) (chars "ssid") = some ssid
  password : ∀ ssid password : CString,
    json.item (json.print ssid.bytes password.bytes) (chars "password") = some password

theorem settingsText_length (ssid password : Bytes) : (settingsText ssid password).length =
    25 + (ssid.flatMap escaped).length + (password.flatMap escaped).length := by
  have hopen : (chars "\x7b\"ssid\":\"").length = 9 := by decide
  have hbetween : (chars "\",\"password\":\"").length = 14 := by decide
  have hclose : (chars "\"\x7d").length = 2 := by decide
  rw [settingsText, List.length_append, List.length_append, List.length_append, List.length_append, hopen, hbetween,
    hclose]
  omega

/-! ## Reading it back -/

def unescape : Bytes → Option (UInt8 × Bytes)
  | 117 :: 48 :: 48 :: a :: b :: rest => do
      let high ← hexValue a
      let low ← hexValue b
      return (UInt8.ofNat (high * 16 + low), rest)
  | c :: rest => ((escapeLetters.map Prod.swap).lookup c).map fun v => (v, rest)
  | [] => none

def unquote : (rounds : ℕ) → Bytes → Option (Bytes × Bytes)
  | 0, _ => none
  | _ + 1, [] => none
  | rounds + 1, c :: rest =>
      if c = 34 then some ([], rest)
      else do
        let (c, rest) ← if c = 92 then unescape rest else some (c, rest)
        let (s, rest) ← unquote rounds rest
        return (c :: s, rest)

theorem escaped_cases (c : UInt8) : escaped c = [c] ∧ c ≠ 34 ∧ c ≠ 92 ∨
    ∃ e, escaped c = 92 :: e ∧ ∀ rest, unescape (e ++ rest) = some (c, rest) := by
  cases hletter : escapeLetters.lookup c with
  | some letter =>
      right
      rw [escaped, hletter]
      refine ⟨[letter], rfl, ?_⟩
      intro rest
      have hmem : (c, letter) ∈ escapeLetters := by
        obtain ⟨before, after, hsplit, -⟩ := List.lookup_eq_some_iff.mp hletter
        rw [hsplit]
        simp
      simp only [escapeLetters, List.mem_cons, List.not_mem_nil, or_false, Prod.mk.injEq] at hmem
      rcases hmem with ⟨rfl, rfl⟩ | ⟨rfl, rfl⟩ | ⟨rfl, rfl⟩ | ⟨rfl, rfl⟩ | ⟨rfl, rfl⟩ | ⟨rfl, rfl⟩ | ⟨rfl, rfl⟩
      all_goals rfl
  | none =>
      have hescaped : escaped c =
          if c < 32 then [92, 117, 48, 48, hexDigit (c.toNat / 16), hexDigit (c.toNat % 16)] else [c] := by
        rw [escaped, hletter]
      rw [hescaped]
      split
      · rename_i hcontrol
        right
        refine ⟨_, rfl, ?_⟩
        intro rest
        have hnat : c.toNat < 32 := hcontrol
        have hbyte : UInt8.ofNat (c.toNat / 16 * 16 + c.toNat % 16) = c := by
          rw [Nat.div_add_mod', UInt8.ofNat_toNat]
        show (do
          let high ← hexValue (hexDigit (c.toNat / 16))
          let low ← hexValue (hexDigit (c.toNat % 16))
          return (UInt8.ofNat (high * 16 + low), rest)) = _
        rw [hexValue_hexDigit (by omega), hexValue_hexDigit (by omega)]
        exact congrArg (fun c => some (c, rest)) hbyte
      · left
        refine ⟨rfl, ?_, ?_⟩
        · intro heq
          rw [heq] at hletter
          exact absurd hletter (by decide)
        · intro heq
          rw [heq] at hletter
          exact absurd hletter (by decide)

theorem unquote_escaped (s rest : Bytes) {rounds : ℕ} (h : s.length < rounds) :
    unquote rounds (s.flatMap escaped ++ 34 :: rest) = some (s, rest) := by
  induction s generalizing rounds with
  | nil =>
      obtain ⟨rounds, rfl⟩ := Nat.exists_eq_succ_of_ne_zero (Nat.ne_of_gt h)
      rfl
  | cons c s ih =>
      obtain ⟨rounds, rfl⟩ := Nat.exists_eq_succ_of_ne_zero (Nat.ne_of_gt (Nat.zero_lt_of_lt h))
      have hrest : unquote rounds (s.flatMap escaped ++ 34 :: rest) = some (s, rest) := by
        rw [List.length_cons] at h
        exact ih (by omega)
      rw [List.flatMap_cons, List.append_assoc]
      rcases escaped_cases c with ⟨hplain, hquote, hbackslash⟩ | ⟨e, he, hunescape⟩
      · rw [hplain, List.singleton_append, unquote, if_neg hquote, if_neg hbackslash]
        simp [hrest]
      · rw [he, List.cons_append, unquote, if_neg (by decide), if_pos rfl, hunescape]
        simp [hrest]

def readSettings (text : Bytes) : Option (Bytes × Bytes) := do
  if !(chars "\x7b\"ssid\":\"").isPrefixOf text then none
  let (ssid, rest) ← unquote text.length (text.drop 9)
  if !(chars ",\"password\":\"").isPrefixOf rest then none
  let (password, rest) ← unquote text.length (rest.drop 13)
  if rest ≠ chars "\x7d" then none
  return (ssid, password)

theorem length_le_escaped (s : Bytes) : s.length ≤ (s.flatMap escaped).length := by
  induction s with
  | nil => simp
  | cons c s ih =>
      have hone : 1 ≤ (escaped c).length := by
        rcases escaped_cases c with ⟨hplain, -⟩ | ⟨e, he, -⟩
        · simp [hplain]
        · simp [he]
      rw [List.flatMap_cons, List.length_append, List.length_cons]
      omega

theorem readSettings_text (ssid password : Bytes) : readSettings (settingsText ssid password) = some (ssid, password) := by
  have hlength := settingsText_length ssid password
  have hssid := length_le_escaped ssid
  have hpassword := length_le_escaped password
  have hopen : chars "\",\"password\":\"" = 34 :: chars ",\"password\":\"" := by decide
  have hclose : chars "\"\x7d" = 34 :: chars "\x7d" := by decide
  have hskip : (settingsText ssid password).drop 9 =
      ssid.flatMap escaped ++ 34 :: (chars ",\"password\":\"" ++ (password.flatMap escaped ++ 34 :: chars "\x7d")) := by
    rw [settingsText, List.drop_left' (by decide), hopen, hclose, List.cons_append]
  have hbegins : (chars "\x7b\"ssid\":\"").isPrefixOf (settingsText ssid password) = true :=
    List.isPrefixOf_iff_prefix.mpr ⟨_, rfl⟩
  have hgoes : (chars ",\"password\":\"").isPrefixOf
      (chars ",\"password\":\"" ++ (password.flatMap escaped ++ 34 :: chars "\x7d")) = true :=
    List.isPrefixOf_iff_prefix.mpr ⟨_, rfl⟩
  unfold readSettings
  rw [hbegins, hskip, unquote_escaped _ _ (by omega)]
  simp only [Bool.not_true, Bool.false_eq_true, if_false, Option.bind_eq_bind, Option.bind_some, hgoes]
  rw [List.drop_left' (by decide), unquote_escaped _ _ (by omega)]
  simp

def plainJson : CJson where
  print := settingsText
  item text key := do
    let (ssid, password) ← readSettings text
    let value ← if key = chars "ssid" then some ssid else if key = chars "password" then some password else none
    if h : 0 ∈ value then none else some ⟨value, h⟩

theorem plainJson_documented : plainJson.Documented where
  prints _ _ := rfl
  ssid ssid password := by
    simp [plainJson, readSettings_text, ssid.nonzero]
  password ssid password := by
    have hkeys : chars "password" ≠ chars "ssid" := by decide
    simp [plainJson, readSettings_text, password.nonzero, hkeys]

end Albusforge.Camera
