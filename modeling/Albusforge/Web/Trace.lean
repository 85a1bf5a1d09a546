import Albusforge.Lib.JsText
import Albusforge.Cloudlink.Envelope

/-!
# Where a request's trace comes from

`traceFromHeaders` of `apps/web/src/lib/log.ts`. A trace has 32 units, so that a trace and a span after it are
told apart however they are put together (`requestKey_inj`).

Where a header is put in lower case, units beyond ASCII are left as they are: none of them becomes a digit.
-/

namespace Albusforge.Web.Errors

open Lib

structure TraceContext where
  traceId : Text
  spanId : Option Text
  sampled : Option Bool
  deriving DecidableEq

inductive HeaderValue
  | one (t : Text)
  | many (ts : List Text)

/-- `HeaderSource` -/
inductive Headers
  /-- with a `get` method -/
  | getter (get : Text → Option Text)
  | record (members : Text → Option HeaderValue)

def readHeader (headers : Headers) (name : Text) : Option Text :=
  match headers with
  | .getter get => get name
  | .record members =>
    match members name with
    | none => none
    | some (.one t) => some t
    | some (.many ts) => ts.head?

/-- `toLowerCase()` -/
def toLower (t : Text) : Text := t.map fun u => if isUpper u then u + 32 else u

def isLowerHex (u : ℕ) : Bool := isDigit u || (97 ≤ u && u ≤ 102)

def isAllZero (hex : Text) : Bool := !hex.isEmpty && hex.all (· = 48)

/-- `(?:\/(\d{1,20}))?`, and what comes after it -/
def matchSpan (t : Text) : Option Text × Text :=
  match t with
  | 47 :: after =>
    let digits := after.takeWhile isDigit
    if 1 ≤ digits.length ∧ digits.length ≤ 20 then (some digits, after.drop digits.length) else (none, t)
  | _ => (none, t)

/-- `/^([0-9a-f]{32})(?:\/(\d{1,20}))?(?:;o=([01]))?$/i` -/
def matchCloud (t : Text) : Option (Text × Option Text × Option Bool) :=
  let traceId := t.take 32
  if traceId.length = 32 && traceId.all Cloudlink.isHex then
    let (span, rest) := matchSpan (t.drop 32)
    match rest with
    | [] => some (traceId, span, none)
    | [59, o, 61, flag] =>
      if (o = 111 ∨ o = 79) ∧ (flag = 48 ∨ flag = 49) then some (traceId, span, some (flag = 49)) else none
    | _ => none
  else none

/-- `span.toString(16).padStart(16, "0")` -/
def spanText (span : ℕ) : Text :=
  let digits := (Nat.toDigits 16 span).map Char.toNat
  List.replicate (16 - digits.length) 48 ++ digits

def parseCloudTraceContext (value : Option Text) : Option TraceContext :=
  match matchCloud (trim (value.getD [])) with
  | none => none
  | some (id, span, sampled) =>
    let traceId := toLower id
    if isAllZero traceId then none
    else
      let spanId := span.bind fun digits =>
        let span := parseDecimal digits
        if 0 < span ∧ span < 2 ^ 64 then some (spanText span) else none
      some { traceId, spanId, sampled }

def hexValue (u : ℕ) : ℕ := if isDigit u then u - 48 else u - 87

def parseTraceparent (value : Option Text) : Option TraceContext :=
  match split hyphen (toLower (trim (value.getD []))) with
  | [version, traceId, spanId, flags] =>
    let isField (length : ℕ) (t : Text) : Bool := t.length = length && t.all isLowerHex
    if isField 2 version && isField 32 traceId && isField 16 spanId && isField 2 flags then
      if version = js "ff" || isAllZero traceId || isAllZero spanId then none
      else some { traceId, spanId := some spanId, sampled := some (flags.getLast?.any fun u => hexValue u % 2 = 1) }
    else none
  | _ => none

def traceFromHeaders (headers : Headers) : Option TraceContext :=
  (parseCloudTraceContext (readHeader headers (js "x-cloud-trace-context"))).orElse fun _ =>
    parseTraceparent (readHeader headers (js "traceparent"))

/-- `trace?.spanId ? ... : undefined`, an empty span being none. -/
def requestKey (trace : Option TraceContext) : Option Text :=
  match trace with
  | none => none
  | some trace =>
    match trace.spanId with
    | none => none
    | some span => if span = [] then none else some (trace.traceId ++ 47 :: span)

theorem matchCloud_length {t id : Text} {span : Option Text} {sampled : Option Bool}
    (h : matchCloud t = some (id, span, sampled)) : id.length = 32 := by
  unfold matchCloud at h
  dsimp only at h
  split at h
  · rename_i hid
    have hlength : (t.take 32).length = 32 := (of_decide_eq_true (Bool.and_eq_true_iff.mp hid).1)
    split at h
    · obtain ⟨rfl, -⟩ := Prod.mk.inj (Option.some.inj h)
      exact hlength
    · split at h
      · obtain ⟨rfl, -⟩ := Prod.mk.inj (Option.some.inj h)
        exact hlength
      · cases h
    · cases h
  · cases h

theorem traceFromHeaders_length {headers : Headers} {trace : TraceContext}
    (h : traceFromHeaders headers = some trace) : trace.traceId.length = 32 := by
  unfold traceFromHeaders at h
  rcases hcloud : parseCloudTraceContext (readHeader headers (js "x-cloud-trace-context")) with _ | found
  · rw [hcloud] at h
    have hparent : parseTraceparent (readHeader headers (js "traceparent")) = some trace := h
    unfold parseTraceparent at hparent
    split at hparent
    · dsimp only at hparent
      split at hparent
      · rename_i hfields
        split at hparent
        · cases hparent
        · obtain rfl := Option.some.inj hparent
          simp only [Bool.and_eq_true, decide_eq_true_eq] at hfields
          exact hfields.1.1.2.1
      · cases hparent
    · cases hparent
  · rw [hcloud] at h
    obtain rfl : found = trace := Option.some.inj h
    unfold parseCloudTraceContext at hcloud
    split at hcloud
    · cases hcloud
    · rename_i id span sampled hmatch
      dsimp only at hcloud
      split at hcloud
      · cases hcloud
      · obtain rfl := Option.some.inj hcloud
        simpa [toLower] using matchCloud_length hmatch

/-- **A key tells the trace and the span.** -/
theorem requestKey_inj {headers headers' : Headers} {key : Text} (h : requestKey (traceFromHeaders headers) = some key)
    (h' : requestKey (traceFromHeaders headers') = some key) :
    ∃ trace trace' span, traceFromHeaders headers = some trace ∧ traceFromHeaders headers' = some trace' ∧
      trace.traceId = trace'.traceId ∧ trace.spanId = some span ∧ trace'.spanId = some span := by
  have hparts : ∀ {headers : Headers}, requestKey (traceFromHeaders headers) = some key → ∃ trace span,
      traceFromHeaders headers = some trace ∧ trace.spanId = some span ∧ key = trace.traceId ++ 47 :: span := by
    intro headers h
    rcases htrace : traceFromHeaders headers with _ | trace
    · rw [htrace] at h
      cases h
    · rcases hspan : trace.spanId with _ | span
      · rw [htrace, requestKey] at h
        simp [hspan] at h
      · rw [htrace, requestKey] at h
        simp only [hspan] at h
        split at h
        · cases h
        · exact ⟨trace, span, rfl, hspan, (Option.some.inj h).symm⟩
  obtain ⟨trace, span, htrace, hspan, hkey⟩ := hparts h
  obtain ⟨trace', span', htrace', hspan', hkey'⟩ := hparts h'
  have hlength := (traceFromHeaders_length htrace).trans (traceFromHeaders_length htrace').symm
  obtain ⟨hid, hrest⟩ := List.append_inj (hkey.symm.trans hkey') hlength
  obtain rfl := (List.cons.inj hrest).2
  exact ⟨trace, trace', span, htrace, htrace', hid, hspan, hspan'⟩

end Albusforge.Web.Errors
