import Albusforge.Matcher.RuntimeRanges

/-!
# Versions are in one order, whatever they are

`compareSemver` takes any two strings. What it compares is read off each of them alone: the
identifiers of its core, those of its pre-release, and last the string itself. So it is the order
of these triples (`compareSemver_key`), **a strict total order on all strings, and on valid versions
their precedence** (`compareSemver_strictTotal`).
-/

namespace Albusforge.Matcher

open Lib Semver

def identifiers (t : Text) : List (Identifier Text) := (split dot t).map readIdentifier

def versionKey (t : Text) : List (Identifier Text) ×ₗ WithTop (List (Identifier Text)) ×ₗ Text :=
  let (core, pre) := splitVersion t
  toLex (identifiers core, toLex (match pre with
    | none => ⊤
    | some pre => ((identifiers pre : List _) : WithTop _), t))

theorem versionKey_injective : Function.Injective versionKey := by
  intro a b h
  have hrest := congrArg Prod.snd (toLex.injective h)
  exact congrArg Prod.snd (toLex.injective hrest)

theorem comparePrerelease_compares (preA preB : Option Text) :
    (comparePrerelease preA preB).Compares
      (match preA with
        | none => (⊤ : WithTop (List (Identifier Text)))
        | some pre => ((identifiers pre : List _) : WithTop _))
      (match preB with
        | none => (⊤ : WithTop (List (Identifier Text)))
        | some pre => ((identifiers pre : List _) : WithTop _)) := by
  cases preA with
  | none =>
    cases preB with
    | none => rfl
    | some q => exact WithTop.coe_lt_top _
  | some p =>
    cases preB with
    | none => exact WithTop.coe_lt_top _
    | some q =>
      have h := compareIdentifiers_compares (split dot p) (split dot q)
      change (compareIdentifiers (split dot p) (split dot q)).Compares _ _
      cases hc : compareIdentifiers (split dot p) (split dot q) with
      | lt => exact WithTop.coe_lt_coe.mpr (h.eq_lt.mp hc)
      | eq => exact congrArg _ (h.eq_eq.mp hc)
      | gt => exact WithTop.coe_lt_coe.mpr (h.eq_gt.mp hc)

/-- **Two strings compare as their keys do**, valid or not. -/
theorem compareSemver_key (a b : Text) : (compareSemver a b).Compares (versionKey a) (versionKey b) := by
  unfold compareSemver versionKey
  dsimp only
  rw [Ordering.then_assoc]
  refine compares_then (compareIdentifiers_compares _ _) ?_
  exact compares_then (comparePrerelease_compares _ _) (compareText_trichotomy a b)

theorem compareSemver_lt {a b : Text} : compareSemver a b = .lt ↔ versionKey a < versionKey b :=
  (compareSemver_key a b).eq_lt

theorem compareSemver_gt {a b : Text} : compareSemver a b = .gt ↔ versionKey b < versionKey a :=
  (compareSemver_key a b).eq_gt

theorem compareSemver_swap (a b : Text) : compareSemver b a = (compareSemver a b).swap := by
  cases hc : compareSemver a b with
  | lt => exact compareSemver_gt.mpr (compareSemver_lt.mp hc)
  | eq =>
    obtain rfl := compareSemver_eq hc
    exact hc
  | gt => exact compareSemver_lt.mpr (compareSemver_gt.mp hc)

theorem compareSemver_trans {a b c : Text} (h : compareSemver a b = .lt) (h' : compareSemver b c = .lt) :
    compareSemver a c = .lt :=
  compareSemver_lt.mpr ((compareSemver_lt.mp h).trans (compareSemver_lt.mp h'))

theorem compareSemver_self (a : Text) : compareSemver a a = .eq := (compareSemver_key a a).eq_eq.mpr rfl

theorem compareSemver_precedence {a b : Text} (ha : isSemVer a = true) (hb : isSemVer b = true) :
    compareSemver a b = compare (readVersion a) (readVersion b) := by
  have h := compareSemver_compares ha hb
  cases hc : compareSemver a b with
  | lt => rw [hc] at h; exact (compare_lt_iff_lt.mpr h).symm
  | eq => rw [hc] at h; exact (compare_eq_iff_eq.mpr h).symm
  | gt => rw [hc] at h; exact (compare_gt_iff_gt.mpr h).symm

/-- **`compareSemver` is a strict total order on all strings**, and precedence on valid versions. -/
theorem compareSemver_strictTotal :
    (∀ a b, compareSemver b a = (compareSemver a b).swap) ∧
      (∀ a b c, compareSemver a b = .lt → compareSemver b c = .lt → compareSemver a c = .lt) ∧
      (∀ a b, compareSemver a b = .eq ↔ a = b) ∧
      ∀ a b, isSemVer a = true → isSemVer b = true →
        compareSemver a b = compare (readVersion a) (readVersion b) := by
  refine ⟨compareSemver_swap, fun a b c => compareSemver_trans, fun a b => ⟨compareSemver_eq, ?_⟩,
    fun a b => compareSemver_precedence⟩
  intro h
  rw [h]
  exact compareSemver_self b

/-- A malformed version among valid ones, and two spellings of one precedence. -/
example :
    compareSemver (js "1.0.0-rc.1") (js "1.0.0") = .lt ∧
    compareSemver (js "1.0.0-rc.2") (js "1.0.0-rc.10") = .lt ∧
    compareSemver (js "1.0.0") (js "1.0.0.0") = .lt ∧
    compareSemver (js "1.0.0-rc.01") (js "1.0.0-rc.1") = .lt := by
  decide +kernel

end Albusforge.Matcher
