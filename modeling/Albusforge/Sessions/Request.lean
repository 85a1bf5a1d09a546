import Mathlib
import Albusforge.Lib.Checks
import Albusforge.Lib.JsText

/-!
# What a request says of its session

The session token in the `Cookie` header and the tenant in the `Host` header. There are two readings of the
cookie: `sessionTokenHash` (`apps/gateway/src/session.ts`) wants exactly one of that name, with a token as it
is issued; `sessionTokenFromCookieHeader` (`apps/gateway/src/session-cookie.ts`) takes the first. **What the
first reads, the second reads too** (`sessionTokenFromCookieHeader_of_sessionToken`).
-/

namespace Albusforge.Sessions

open Lib

structure HttpError where
  status : ℕ
  code : Text
  message : Text
  deriving DecidableEq

def signInRequired : HttpError := ⟨401, js "UNAUTHORIZED", js "Sign in required"⟩

/-! ## Cookies -/

def SESSION_COOKIE : Text := js "__Host-albus_session"

abbrev semicolon : ℕ := 59
abbrev equalsSign : ℕ := 61
abbrev underscore : ℕ := 95

/-- The value of one `name=value`, when it has this name. -/
def namedValue (name pair : Text) : Option Text :=
  if equalsSign ∈ pair ∧ trim (pair.takeWhile (· ≠ equalsSign)) = name then
    some (trim ((pair.dropWhile (· ≠ equalsSign)).drop 1))
  else none

/-- `/^[A-Za-z0-9_-]{43}$/` -/
def matchesToken (t : Text) : Bool :=
  t.length = 43 && t.all fun u => isUpper u || isLower u || isDigit u || u = underscore || u = hyphen

def sextet (u : ℕ) : ℕ :=
  if isUpper u then u - 65 else if isLower u then u - 71 else if isDigit u then u + 4
  else if u = hyphen then 62 else 63

def sextetUnit (n : ℕ) : ℕ :=
  if n < 26 then n + 65 else if n < 52 then n + 71 else if n < 62 then n - 4
  else if n = 62 then hyphen else underscore

/-- `Buffer.from(token, "base64url")`, of the six bits of each unit. Bits that fill no byte are dropped. -/
def decodeSextets : List ℕ → List ℕ
  | a :: b :: c :: d :: rest => (a * 4 + b / 16) :: (b % 16 * 16 + c / 4) :: (c % 4 * 64 + d) :: decodeSextets rest
  | [a, b, c] => [a * 4 + b / 16, b % 16 * 16 + c / 4]
  | [a, b] => [a * 4 + b / 16]
  | _ => []

/-- `toString("base64url")` -/
def encodeSextets : List ℕ → List ℕ
  | x :: y :: z :: rest =>
      (x / 4) :: (x % 4 * 16 + y / 16) :: (y % 16 * 4 + z / 64) :: (z % 64) :: encodeSextets rest
  | [x, y] => [x / 4, x % 4 * 16 + y / 16, y % 16 * 4]
  | [x] => [x / 4, x % 4 * 16]
  | [] => []

theorem encodeSextets_lt {bytes : List ℕ} (h : ∀ b ∈ bytes, b < 256) : ∀ n ∈ encodeSextets bytes, n < 64 := by
  induction bytes using encodeSextets.induct with
  | case1 x y z rest ih =>
    have hx := h x (by simp)
    have hy := h y (by simp)
    have hz := h z (by simp)
    have hrest := ih fun b hb => h b (by simp [hb])
    intro n hn
    simp only [encodeSextets, List.mem_cons] at hn
    rcases hn with hn | hn | hn | hn | hn
    · omega
    · omega
    · omega
    · omega
    · exact hrest n hn
  | case2 x y =>
    have hx := h x (by simp)
    have hy := h y (by simp)
    intro n hn
    simp only [encodeSextets, List.mem_cons, List.not_mem_nil, or_false] at hn
    omega
  | case3 x =>
    have hx := h x (by simp)
    intro n hn
    simp only [encodeSextets, List.mem_cons, List.not_mem_nil, or_false] at hn
    omega
  | case4 => exact fun n hn => absurd hn List.not_mem_nil

/-- **Bytes read back from their sextets.** -/
theorem decodeSextets_encodeSextets {bytes : List ℕ} (h : ∀ b ∈ bytes, b < 256) :
    decodeSextets (encodeSextets bytes) = bytes := by
  induction bytes using encodeSextets.induct with
  | case1 x y z rest ih =>
    have hx := h x (by simp)
    have hy := h y (by simp)
    have hz := h z (by simp)
    rw [encodeSextets, decodeSextets, ih fun b hb => h b (by simp [hb])]
    have hfirst : x / 4 * 4 + (x % 4 * 16 + y / 16) / 16 = x := by omega
    have hsecond : (x % 4 * 16 + y / 16) % 16 * 16 + (y % 16 * 4 + z / 64) / 4 = y := by omega
    have hthird : (y % 16 * 4 + z / 64) % 4 * 64 + z % 64 = z := by omega
    rw [hfirst, hsecond, hthird]
  | case2 x y =>
    have hx := h x (by simp)
    have hy := h y (by simp)
    have hfirst : x / 4 * 4 + (x % 4 * 16 + y / 16) / 16 = x := by omega
    have hsecond : (x % 4 * 16 + y / 16) % 16 * 16 + y % 16 * 4 / 4 = y := by omega
    rw [encodeSextets, decodeSextets, hfirst, hsecond]
  | case3 x =>
    have hx := h x (by simp)
    have hfirst : x / 4 * 4 + x % 4 * 16 / 16 = x := by omega
    rw [encodeSextets, decodeSextets, hfirst]
  | case4 => rfl

theorem encodeSextets_length (bytes : List ℕ) : 3 * (encodeSextets bytes).length ≤ 4 * bytes.length + 2 := by
  induction bytes using encodeSextets.induct with
  | case1 x y z rest ih =>
    simp only [encodeSextets, List.length_cons]
    omega
  | case2 x y => simp [encodeSextets]
  | case3 x => simp [encodeSextets]
  | case4 => simp [encodeSextets]

/-- `Buffer.from(token, "base64url").toString("base64url")` -/
def recoded (t : Text) : Text := (encodeSextets (decodeSextets (t.map sextet))).map sextetUnit

/-- The token that `sessionTokenHash` hashes. -/
def sessionToken (cookie : Option Text) : Option Text :=
  match (split semicolon (cookie.getD [])).filterMap (namedValue SESSION_COOKIE) with
  | [token] => if token ≠ [] ∧ matchesToken token = true ∧ recoded token = token then some token else none
  | _ => none

def sessionTokenHash (hash : Text → Text) (cookie : Option Text) : Except HttpError Text :=
  present ((sessionToken cookie).map hash) signInRequired

def cookieValue (header : Option Text) (name : Text) : Option Text :=
  match header with
  | none => none
  | some raw => if raw = [] then none else (split semicolon raw).findSome? (namedValue name)

def sessionTokenFromCookieHeader (header : Option Text) : Option Text :=
  (cookieValue header SESSION_COOKIE).filter matchesToken

theorem sessionTokenFromCookieHeader_of_sessionToken {cookie : Option Text} {token : Text}
    (h : sessionToken cookie = some token) : sessionTokenFromCookieHeader cookie = some token := by
  unfold sessionToken at h
  split at h
  · rename_i value hvalues
    split at h
    · rename_i hok
      obtain rfl := Option.some.inj h
      have hfirst : (split semicolon (cookie.getD [])).findSome? (namedValue SESSION_COOKIE) = some value := by
        rw [← List.head?_filterMap, hvalues]
        rfl
      have hnothing : (split semicolon []).findSome? (namedValue SESSION_COOKIE) = none := by decide
      have hcookie : cookieValue cookie SESSION_COOKIE = some value := by
        cases cookie with
        | none => exact absurd (hnothing.symm.trans hfirst) (by simp)
        | some raw =>
            rw [cookieValue, if_neg]
            · exact hfirst
            · intro hempty
              subst hempty
              exact absurd (hnothing.symm.trans hfirst) (by simp)
      rw [sessionTokenFromCookieHeader, hcookie]
      simp [hok.2.1]
    · exact absurd h (by simp)
  · exact absurd h (by simp)

/-! ## Hosts -/

/-- `toLowerCase()` of a header, whose units are bytes. -/
def lowerLatin1 (t : Text) : Text :=
  t.map fun u => if isUpper u || (0xC0 ≤ u && u ≤ 0xDE && u ≠ 0xD7) then u + 32 else u

abbrev colon : ℕ := 58

/-- `.replace(/:\d+$/, "")` -/
def dropPort (t : Text) : Text :=
  let digits := t.reverse.takeWhile isDigit
  let front := (t.reverse.dropWhile isDigit)
  if digits ≠ [] ∧ front.head? = some colon then front.tail.reverse else t

/-- `.replace(/\.$/, "")` -/
def dropDot (t : Text) : Text := if t.getLast? = some dot then t.dropLast else t

/-- `/^[a-z0-9](?:[a-z0-9-]*[a-z0-9])?$/` -/
def matchesSlug (t : Text) : Bool :=
  t.all (fun u => isLower u || isDigit u || u = hyphen) && t.head?.any (· ≠ hyphen) &&
    t.getLast?.any (· ≠ hyphen)

def apex : Text := js ".albusforge.ai"

def unknownTenantHost : HttpError := ⟨404, js "NOT_FOUND", js "Unknown tenant host"⟩

def tenantSlug (host : Text) : Except HttpError (Option Text) :=
  let name := dropDot (dropPort (lowerLatin1 host))
  if name = js "albusforge.ai" ∨ name = js "staging.albusforge.ai" then .ok none
  else if ¬ apex <:+ name then .ok none
  else
    let slug := name.take (name.length - apex.length)
    if matchesSlug slug = false ∨ slug ∈ [js "app", js "api", js "www", js "ingest"] then
      .error unknownTenantHost
    else .ok (some slug)

example : tenantSlug (js "Acme.albusforge.ai:443") = .ok (some (js "acme")) := by decide +kernel

end Albusforge.Sessions
