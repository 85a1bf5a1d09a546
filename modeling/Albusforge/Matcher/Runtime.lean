import Albusforge.Matcher.Types

/-!
# Versions and runtime ranges

`registry/scripts/lib/semver.ts` and `apps/matcher/src/runtime.ts`: the precedence
order of semantic versions, and the range grammar of `min_runtime`.
-/

namespace Albusforge.Matcher

open Lib

/-- `/^\d+$/` -/
def numeric (t : Text) : Bool := t != [] && t.all isDigit

def compareIdentifier (a b : Text) : Ordering :=
  if numeric a && numeric b then compare (parseDecimal a) (parseDecimal b)
  else if numeric a then .lt
  else if numeric b then .gt
  else compareText a b

def compareIdentifiers : List Text → List Text → Ordering
  | [], [] => .eq
  | [], _ :: _ => .lt
  | _ :: _, [] => .gt
  | a :: as, b :: bs =>
      match compareIdentifier a b with
      | .eq => compareIdentifiers as bs
      | result => result

def comparePrerelease : Option Text → Option Text → Ordering
  | none, some _ => .gt
  | some _, none => .lt
  | some a, some b => compareIdentifiers (split dot a) (split dot b)
  | none, none => .eq

def compareSemver (a b : Text) : Ordering :=
  let (coreA, preA) := splitVersion a
  let (coreB, preB) := splitVersion b
  ((compareIdentifiers (split dot coreA) (split dot coreB)).then (comparePrerelease preA preB)).then
    (compareText a b)

def upperBound (op : Text) (floor : Text) : Text :=
  let nums := (split dot ((split hyphen floor).headD [])).map parseDecimal
  let major := nums.getD 0 0
  let minor := nums.getD 1 0
  let patch := nums.getD 2 0
  if op = js "~" then decimal major ++ js "." ++ decimal (minor + 1) ++ js ".0"
  else if major > 0 then decimal (major + 1) ++ js ".0.0"
  else if minor > 0 then js "0." ++ decimal (minor + 1) ++ js ".0"
  else js "0.0." ++ decimal (patch + 1)

/-- Whether a runtime version lies in a range: exact, `>=`, `^` or `~`. -/
def satisfiesRuntime (version range : Text) : Bool :=
  let op := rangeOp range
  let floor := range.drop op.length
  if op = [] then compareSemver version floor == .eq
  -- Range prereleases opt in to the same core only, as in SemVer ranges.
  else if version.contains hyphen &&
      (!floor.contains hyphen || (split hyphen version).head? != (split hyphen floor).head?) then
    false
  else if compareSemver version floor == .lt then false
  else if op = js ">=" then true
  else compareSemver version (upperBound op floor) == .lt

/-- **Versions that compare equal are the same text.** -/
theorem compareSemver_eq {a b : Text} (h : compareSemver a b = .eq) : a = b := by
  unfold compareSemver at h
  dsimp only at h
  rw [Ordering.then_eq_eq] at h
  exact compareText_eq.mp h.2

/-- The ranges of the runtime tests: operators, carets below 1.0.0 and pre-releases. -/
example :
    satisfiesRuntime (js "1.9.9") (js "^1.2.3") = true
    ∧ satisfiesRuntime (js "2.0.0") (js "^1.2.3") = false
    ∧ satisfiesRuntime (js "0.3.0") (js "^0.2.3") = false
    ∧ satisfiesRuntime (js "1.2.9") (js "~1.2.3") = true
    ∧ satisfiesRuntime (js "1.2.4-rc.1") (js ">=1.2.3-rc.1") = false := by
  decide +kernel

end Albusforge.Matcher
