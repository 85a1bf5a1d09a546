import Albusforge.Lib.Json
import Albusforge.Lib.Semver
import Albusforge.Matcher.Runtime

/-!
# Runtime ranges mean semantic version ranges

`satisfiesRuntime` works on texts: it compares them identifier by identifier and builds the
text of an upper bound. Here the texts the schema admits are read as versions and ranges, and
the answer is membership in the range.

Reading loses nothing: no admitted identifier has leading zeros, so a version has one spelling.
-/

namespace Albusforge.Matcher

open Lib Semver

def readIdentifier (t : Text) : Identifier Text :=
  if numeric t then .number (parseDecimal t) else .word t

def readVersion (t : Text) : Version Text :=
  let (core, pre) := splitVersion t
  let nums := (split dot core).map parseDecimal
  ⟨nums.getD 0 0, nums.getD 1 0, nums.getD 2 0, match pre with
    | none => []
    | some pre => (split dot pre).map readIdentifier⟩

def readOp (op : Text) : Operator :=
  if op = js ">=" then .atLeast else if op = js "^" then .caret else if op = js "~" then .tilde else .exact

def readRange (t : Text) : Range Text := ⟨readOp (rangeOp t), readVersion (t.drop (rangeOp t).length)⟩

/-! ## Comparing -/

theorem compareText_trichotomy (a b : Text) : (compareText a b).Compares a b := by
  unfold compareText
  rcases lt_trichotomy a b with hlt | heq | hgt
  · rwa [if_pos hlt]
  · rw [heq, if_neg (lt_irrefl _), if_neg (lt_irrefl _)]
    rfl
  · rwa [if_neg (not_lt_of_gt hgt), if_pos hgt]

theorem compareIdentifier_compares (a b : Text) :
    (compareIdentifier a b).Compares (readIdentifier a) (readIdentifier b) := by
  unfold compareIdentifier readIdentifier
  by_cases ha : numeric a = true
  · by_cases hb : numeric b = true
    · simp only [ha, hb, Bool.and_self, if_true]
      cases h : compare (parseDecimal a) (parseDecimal b) with
      | lt => exact Sum.Lex.inl_lt_inl_iff.mpr (compare_lt_iff_lt.mp h)
      | eq => exact congrArg _ (compare_eq_iff_eq.mp h)
      | gt => exact Sum.Lex.inl_lt_inl_iff.mpr (compare_gt_iff_gt.mp h)
    · simp only [ha, hb, Bool.and_false, if_false, if_true, Bool.false_eq_true]
      exact Sum.Lex.inl_lt_inr _ _
  · by_cases hb : numeric b = true
    · simp only [ha, hb, Bool.and_true, if_false, if_true, Bool.false_eq_true]
      exact Sum.Lex.inl_lt_inr _ _
    · simp only [ha, hb, Bool.and_self, if_false, Bool.false_eq_true]
      have h := compareText_trichotomy a b
      cases hc : compareText a b with
      | lt => exact Sum.Lex.inr_lt_inr_iff.mpr (h.eq_lt.mp hc)
      | eq => exact congrArg _ (h.eq_eq.mp hc)
      | gt => exact Sum.Lex.inr_lt_inr_iff.mpr (h.eq_gt.mp hc)

theorem compareIdentifiers_compares : ∀ as bs : List Text,
    (compareIdentifiers as bs).Compares (as.map readIdentifier) (bs.map readIdentifier)
  | [], [] => rfl
  | [], _ :: _ => List.Lex.nil
  | _ :: _, [] => List.Lex.nil
  | a :: as, b :: bs => by
      have hhead := compareIdentifier_compares a b
      have htail := compareIdentifiers_compares as bs
      rw [compareIdentifiers, List.map_cons, List.map_cons]
      cases hc : compareIdentifier a b with
      | lt => exact List.Lex.rel (hhead.eq_lt.mp hc)
      | gt => exact List.Lex.rel (hhead.eq_gt.mp hc)
      | eq =>
        -- Equal first identifiers leave the rest to decide.
        rw [hhead.eq_eq.mp hc]
        dsimp only
        cases hr : compareIdentifiers as bs with
        | lt => exact List.Lex.cons (htail.eq_lt.mp hr)
        | eq => exact congrArg _ (htail.eq_eq.mp hr)
        | gt => exact List.Lex.cons (htail.eq_gt.mp hr)

/-! ## What the schema admits -/

theorem numericId_digits {t : Text} (h : numericId t = true) :
    t.all isDigit = true ∧ (t = [48] ∨ t ≠ [] ∧ t.head? ≠ some 48) := by
  simpa [numericId] using h

theorem numericId_numeric {t : Text} (h : numericId t = true) : numeric t = true := by
  obtain ⟨hdigits, hlead⟩ := numericId_digits h
  have hne : t ≠ [] := by
    cases hlead with
    | inl hzero => simp [hzero]
    | inr hlead => exact hlead.1
  simp [numeric, hdigits, hne]

theorem numericId_injective {a b : Text} (ha : numericId a = true) (hb : numericId b = true)
    (h : parseDecimal a = parseDecimal b) : a = b := by
  obtain ⟨hda, hla⟩ := numericId_digits ha
  obtain ⟨hdb, hlb⟩ := numericId_digits hb
  rw [← Json.decimal_parseDecimal hda hla, h, Json.decimal_parseDecimal hdb hlb]

theorem prereleaseId_numeric {t : Text} (h : prereleaseId t = true) (hn : numeric t = true) :
    numericId t = true := by
  unfold prereleaseId at h
  cases hid : numericId t with
  | true => rfl
  | false =>
    exfalso
    simp only [hid, Bool.false_or, Bool.and_eq_true, List.any_eq_true, Bool.not_eq_true'] at h
    obtain ⟨⟨c, hc, hnot⟩, _⟩ := h
    simp only [numeric, Bool.and_eq_true, List.all_eq_true] at hn
    rw [hn.2 c hc] at hnot
    exact absurd hnot (by simp)

theorem readIdentifier_injective {a b : Text} (ha : prereleaseId a = true) (hb : prereleaseId b = true)
    (h : readIdentifier a = readIdentifier b) : a = b := by
  unfold readIdentifier at h
  split_ifs at h with hna hnb hnb
  · have hval : parseDecimal a = parseDecimal b := Sum.inl.inj (toLex.injective h)
    exact numericId_injective (prereleaseId_numeric ha hna) (prereleaseId_numeric hb hnb) hval
  · exact absurd (toLex.injective h) (by simp)
  · exact absurd (toLex.injective h) (by simp)
  · exact Sum.inr.inj (toLex.injective h)

theorem splitVersion_cases (t : Text) :
    hyphen ∉ t ∧ splitVersion t = (t, none) ∨
      ∃ core pre, hyphen ∉ core ∧ t = core ++ hyphen :: pre ∧ splitVersion t = (core, some pre) := by
  unfold splitVersion
  rw [List.span_eq_takeWhile_dropWhile]
  have hno : hyphen ∉ t.takeWhile (· != hyphen) := by
    intro hmem
    simpa using List.mem_takeWhile_imp hmem
  have happ := List.takeWhile_append_dropWhile (p := (· != hyphen)) (l := t)
  cases hd : t.dropWhile (· != hyphen) with
  | nil =>
    rw [hd, List.append_nil] at happ
    rw [happ] at hno ⊢
    exact .inl ⟨hno, rfl⟩
  | cons c pre =>
    have hc : c = hyphen := by
      have := List.head?_dropWhile_not (· != hyphen) t
      rw [hd] at this
      simpa using this
    rw [hd, hc] at happ
    exact .inr ⟨_, pre, hno, happ.symm, rfl⟩

theorem splitVersion_injective {a b : Text} (h : splitVersion a = splitVersion b) : a = b := by
  rcases splitVersion_cases a with ⟨-, ha⟩ | ⟨core, pre, -, hta, ha⟩ <;>
    rcases splitVersion_cases b with ⟨-, hb⟩ | ⟨core', pre', -, htb, hb⟩
  · exact congrArg Prod.fst (ha.symm.trans (h.trans hb))
  · exact absurd (congrArg Prod.snd (ha.symm.trans (h.trans hb))) (by simp)
  · exact absurd (congrArg Prod.snd (ha.symm.trans (h.trans hb))) (by simp)
  · rw [ha, hb, Prod.mk.injEq, Option.some.injEq] at h
    rw [hta, htb, h.1, h.2]

/-- A version text taken apart: three numbers, and the identifiers of its pre-release if it has one. -/
structure Spelled (t major minor patch : Text) (pre : Option Text) : Prop where
  split : splitVersion t = (join dot [major, minor, patch], pre)
  major : numericId major = true
  minor : numericId minor = true
  patch : numericId patch = true
  identifiers : ∀ p ∈ pre, ∀ i ∈ Lib.split dot p, prereleaseId i = true

theorem isSemVer_spelled {t : Text} (h : isSemVer t = true) :
    ∃ major minor patch pre, Spelled t major minor patch pre := by
  unfold isSemVer at h
  cases hs : splitVersion t with
  | mk core pre =>
    rw [hs] at h
    simp only [Bool.and_eq_true, beq_iff_eq, List.all_eq_true] at h
    obtain ⟨⟨hlen, hnums⟩, hpre⟩ := h
    obtain ⟨major, minor, patch, hparts⟩ := List.length_eq_three.mp hlen
    rw [hparts] at hnums
    refine ⟨major, minor, patch, pre, by rw [hs, ← hparts, join_split], hnums major (by simp),
      hnums minor (by simp), hnums patch (by simp), ?_⟩
    intro p hp i hi
    rw [Option.mem_def.mp hp] at hpre
    exact List.all_eq_true.mp hpre i hi

theorem numericId_noDot {t : Text} (h : numericId t = true) : dot ∉ t := by
  intro hmem
  have := List.all_eq_true.mp (numericId_digits h).1 dot hmem
  exact absurd this (by decide)

theorem Spelled.parts {t major minor patch : Text} {pre : Option Text} (h : Spelled t major minor patch pre) :
    Lib.split dot (join dot [major, minor, patch]) = [major, minor, patch] := by
  apply split_join (by simp)
  intro u hu
  simp only [List.mem_cons, List.not_mem_nil, or_false] at hu
  rcases hu with rfl | rfl | rfl
  · exact numericId_noDot h.major
  · exact numericId_noDot h.minor
  · exact numericId_noDot h.patch

theorem Spelled.read {t major minor patch : Text} {pre : Option Text} (h : Spelled t major minor patch pre) :
    readVersion t = ⟨parseDecimal major, parseDecimal minor, parseDecimal patch,
      pre.elim [] fun p => (Lib.split dot p).map readIdentifier⟩ := by
  unfold readVersion
  rw [h.split]
  dsimp only
  rw [h.parts]
  cases pre <;> rfl

theorem Spelled.pre_eq_nil {t major minor patch : Text} {pre : Option Text} (h : Spelled t major minor patch pre) :
    (readVersion t).pre = [] ↔ pre = none := by
  rw [h.read]
  cases pre with
  | none => simp
  | some p => simp [split_ne_nil]

theorem readVersion_injective {a b : Text} (ha : isSemVer a = true) (hb : isSemVer b = true)
    (h : readVersion a = readVersion b) : a = b := by
  obtain ⟨majorA, minorA, patchA, preA, hA⟩ := isSemVer_spelled ha
  obtain ⟨majorB, minorB, patchB, preB, hB⟩ := isSemVer_spelled hb
  have hnone : preA = none ↔ preB = none := by rw [← hA.pre_eq_nil, h, hB.pre_eq_nil]
  rw [hA.read, hB.read, Version.mk.injEq] at h
  obtain ⟨hmajor, hminor, hpatch, hpre⟩ := h
  have hpre : preA = preB := by
    cases preA with
    | none => exact (hnone.mp rfl).symm
    | some p =>
      cases preB with
      | none => exact absurd (hnone.mpr rfl) (by simp)
      | some q =>
        have hparts := map_inj_on (fun i hi j hj => readIdentifier_injective (hA.identifiers p rfl i hi)
          (hB.identifiers q rfl j hj)) hpre
        rw [← join_split dot p, hparts, join_split]
  apply splitVersion_injective
  rw [hA.split, hB.split, numericId_injective hA.major hB.major hmajor,
    numericId_injective hA.minor hB.minor hminor, numericId_injective hA.patch hB.patch hpatch, hpre]

/-! ## Versions compare by precedence -/

theorem Spelled.stage {t major minor patch : Text} {pre : Option Text} (h : Spelled t major minor patch pre) :
    (readVersion t).stage = pre.elim ⊤ fun p => (((Lib.split dot p).map readIdentifier : List _) : WithTop _) := by
  unfold Version.stage
  rw [h.read]
  cases pre with
  | none => rfl
  | some p => exact if_neg (by simp [split_ne_nil])

theorem stage_compares {a b majorA minorA patchA majorB minorB patchB : Text} {preA preB : Option Text}
    (hA : Spelled a majorA minorA patchA preA) (hB : Spelled b majorB minorB patchB preB) :
    (comparePrerelease preA preB).Compares (readVersion a).stage (readVersion b).stage := by
  rw [hA.stage, hB.stage]
  cases preA with
  | none =>
    cases preB with
    | none => rfl
    | some q => exact WithTop.coe_lt_top _
  | some p =>
    cases preB with
    | none => exact WithTop.coe_lt_top _
    | some q =>
      have h := compareIdentifiers_compares (Lib.split dot p) (Lib.split dot q)
      change (compareIdentifiers (Lib.split dot p) (Lib.split dot q)).Compares _ _
      cases hc : compareIdentifiers (Lib.split dot p) (Lib.split dot q) with
      | lt => exact WithTop.coe_lt_coe.mpr (h.eq_lt.mp hc)
      | eq => exact congrArg _ (h.eq_eq.mp hc)
      | gt => exact WithTop.coe_lt_coe.mpr (h.eq_gt.mp hc)

theorem compareIdentifier_number {a b : Text} (ha : numericId a = true) (hb : numericId b = true) :
    compareIdentifier a b = compare (parseDecimal a) (parseDecimal b) := by
  unfold compareIdentifier
  rw [numericId_numeric ha, numericId_numeric hb]
  rfl

theorem compares_then {α β : Type*} [LinearOrder α] [LinearOrder β] {o o' : Ordering} {a b : α} {x y : β}
    (h : o.Compares a b) (h' : o'.Compares x y) : (o.then o').Compares (toLex (a, x)) (toLex (b, y)) := by
  cases o with
  | lt => exact Prod.Lex.lt_iff.mpr (.inl h)
  | gt => exact Prod.Lex.lt_iff.mpr (.inl h)
  | eq =>
    have hab : a = b := h
    subst hab
    cases o' with
    | lt => exact Prod.Lex.lt_iff.mpr (.inr ⟨rfl, h'⟩)
    | eq => exact congrArg (fun z => toLex (a, z)) h'
    | gt => exact Prod.Lex.lt_iff.mpr (.inr ⟨rfl, h'⟩)

theorem compare_compares (m n : ℕ) : (compare m n).Compares m n := by
  cases h : compare m n with
  | lt => exact compare_lt_iff_lt.mp h
  | eq => exact compare_eq_iff_eq.mp h
  | gt => exact compare_gt_iff_gt.mp h

theorem core_compares {a b majorA minorA patchA majorB minorB patchB : Text} {preA preB : Option Text}
    (hA : Spelled a majorA minorA patchA preA) (hB : Spelled b majorB minorB patchB preB) :
    (compareIdentifiers [majorA, minorA, patchA] [majorB, minorB, patchB]).Compares
      (readVersion a).core (readVersion b).core := by
  have hcmp : compareIdentifiers [majorA, minorA, patchA] [majorB, minorB, patchB] =
      (compare (parseDecimal majorA) (parseDecimal majorB)).then
        ((compare (parseDecimal minorA) (parseDecimal minorB)).then
          (compare (parseDecimal patchA) (parseDecimal patchB))) := by
    unfold compareIdentifiers compareIdentifiers compareIdentifiers compareIdentifiers
    rw [compareIdentifier_number hA.major hB.major, compareIdentifier_number hA.minor hB.minor,
      compareIdentifier_number hA.patch hB.patch]
    cases compare (parseDecimal majorA) (parseDecimal majorB) <;>
      cases compare (parseDecimal minorA) (parseDecimal minorB) <;>
        cases compare (parseDecimal patchA) (parseDecimal patchB) <;> rfl
  rw [hcmp, hA.read, hB.read]
  exact compares_then (compare_compares _ _) (compares_then (compare_compares _ _) (compare_compares _ _))

theorem compareSemver_compares {a b : Text} (ha : isSemVer a = true) (hb : isSemVer b = true) :
    (compareSemver a b).Compares (readVersion a) (readVersion b) := by
  obtain ⟨majorA, minorA, patchA, preA, hA⟩ := isSemVer_spelled ha
  obtain ⟨majorB, minorB, patchB, preB, hB⟩ := isSemVer_spelled hb
  unfold compareSemver
  rw [hA.split, hB.split]
  dsimp only
  rw [hA.parts, hB.parts]
  have hkey := compares_then (core_compares hA hB) (stage_compares hA hB)
  cases ho : (compareIdentifiers [majorA, minorA, patchA] [majorB, minorB, patchB]).then
      (comparePrerelease preA preB) with
  | lt => rw [ho] at hkey; exact hkey
  | gt => rw [ho] at hkey; exact hkey
  | eq =>
    -- Equal precedence is equal text, so the fallback never decides.
    rw [ho] at hkey
    have hread : readVersion a = readVersion b := Version.key_injective hkey
    have hab := readVersion_injective ha hb hread
    rw [Ordering.eq_then, compareText_eq.mpr hab]
    exact hread

/-! ## Upper bounds and opting in -/

theorem numericId_decimal (n : ℕ) : numericId (decimal n) = true := by
  unfold numericId
  have hdigits : (decimal n).all isDigit = true := List.all_eq_true.mpr fun u hu => Json.isDigit_decimal hu
  rcases Nat.eq_zero_or_pos n with hzero | hpos
  · rw [hzero]
    rfl
  · have hhead := Json.decimal_head? hpos
    have hne := Json.decimal_ne_nil n
    simp [hdigits, hhead, hne]

theorem hyphen_notMem_core {major minor patch : Text} (hmajor : numericId major = true)
    (hminor : numericId minor = true) (hpatch : numericId patch = true) :
    hyphen ∉ join dot [major, minor, patch] := by
  have hno : ∀ {t : Text}, numericId t = true → hyphen ∉ t := by
    intro t ht hmem
    exact absurd (List.all_eq_true.mp (numericId_digits ht).1 hyphen hmem) (by decide)
  simp only [join, List.mem_append, List.mem_cons, not_or]
  exact ⟨hno hmajor, by decide, hno hminor, by decide, hno hpatch⟩

theorem splitVersion_release {t : Text} (h : hyphen ∉ t) : splitVersion t = (t, none) := by
  rcases splitVersion_cases t with ⟨-, hs⟩ | ⟨core, pre, -, ht, -⟩
  · exact hs
  · exact absurd (by rw [ht]; simp) h

def releaseText (c : ℕ × ℕ × ℕ) : Text := join dot [decimal c.1, decimal c.2.1, decimal c.2.2]

theorem releaseText_spelled (c : ℕ × ℕ × ℕ) :
    Spelled (releaseText c) (decimal c.1) (decimal c.2.1) (decimal c.2.2) none where
  split := splitVersion_release
    (hyphen_notMem_core (numericId_decimal _) (numericId_decimal _) (numericId_decimal _))
  major := numericId_decimal _
  minor := numericId_decimal _
  patch := numericId_decimal _
  identifiers := by simp

theorem isSemVer_releaseText (c : ℕ × ℕ × ℕ) : isSemVer (releaseText c) = true := by
  have h := releaseText_spelled c
  unfold isSemVer
  rw [h.split]
  dsimp only
  rw [h.parts]
  simp [h.major, h.minor, h.patch]

theorem readVersion_releaseText (c : ℕ × ℕ × ℕ) : readVersion (releaseText c) = .release c := by
  rw [(releaseText_spelled c).read, Json.parseDecimal_decimal, Json.parseDecimal_decimal,
    Json.parseDecimal_decimal]
  rfl

theorem split_hyphen (t : Text) : (split hyphen t).head? = some (splitVersion t).1 := by
  rcases splitVersion_cases t with ⟨hno, hs⟩ | ⟨core, pre, hno, ht, hs⟩
  · rw [hs, split_of_notMem hno, List.head?_cons]
  · rw [hs, ht, split_append hno, List.head?_cons]

theorem contains_hyphen (t : Text) : t.contains hyphen = true ↔ (splitVersion t).2 ≠ none := by
  rw [List.contains_iff_mem]
  rcases splitVersion_cases t with ⟨hno, hs⟩ | ⟨core, pre, hno, ht, hs⟩
  · rw [hs]
    simpa using hno
  · rw [hs, ht]
    simp

/-- **The text of an upper bound is the release its operator ends at.** -/
theorem upperBound_eq (op floor : Text) :
    upperBound op floor =
      releaseText (if op = js "~" then (readVersion floor).tilde else (readVersion floor).caret) := by
  have hzero : decimal 0 = [48] := rfl
  have hhead : (split hyphen floor).headD [] = (splitVersion floor).1 := by
    rw [List.headD_eq_head?_getD, split_hyphen, Option.getD_some]
  have hread : ∀ i, i < 3 → ((split dot (splitVersion floor).1).map parseDecimal).getD i 0 =
      [(readVersion floor).major, (readVersion floor).minor, (readVersion floor).patch].getD i 0 := by
    intro i hi
    interval_cases i <;> rfl
  unfold upperBound
  rw [hhead]
  dsimp only
  rw [hread 0 (by omega), hread 1 (by omega), hread 2 (by omega)]
  change (if op = js "~" then _ else if 0 < (readVersion floor).major then _
    else if 0 < (readVersion floor).minor then _ else _) = _
  unfold Version.tilde Version.caret
  split_ifs with hop hmajor hminor
  · simp [releaseText, join, hzero, js, codeUnits]
  · simp [releaseText, join, hzero, js, codeUnits]
  · simp [releaseText, join, hzero, js, codeUnits]
  · simp [releaseText, join, hzero, js, codeUnits]

/-! ## The ranges -/

theorem readOp_cases (range : Text) :
    rangeOp range = [] ∧ readOp (rangeOp range) = .exact ∨
      rangeOp range = js ">=" ∧ readOp (rangeOp range) = .atLeast ∨
      rangeOp range = js "^" ∧ readOp (rangeOp range) = .caret ∨
      rangeOp range = js "~" ∧ readOp (rangeOp range) = .tilde := by
  unfold rangeOp
  split_ifs
  · exact .inr (.inl ⟨rfl, rfl⟩)
  · exact .inr (.inr (.inl ⟨rfl, rfl⟩))
  · exact .inr (.inr (.inr ⟨rfl, rfl⟩))
  · exact .inl ⟨rfl, rfl⟩

theorem core_text_eq {a b : Text} (ha : isSemVer a = true) (hb : isSemVer b = true) :
    (splitVersion a).1 = (splitVersion b).1 ↔ (readVersion a).core = (readVersion b).core := by
  obtain ⟨majorA, minorA, patchA, preA, hA⟩ := isSemVer_spelled ha
  obtain ⟨majorB, minorB, patchB, preB, hB⟩ := isSemVer_spelled hb
  rw [hA.split, hB.split, hA.read, hB.read, Version.core_eq]
  dsimp only
  constructor
  · intro h
    have hparts := congrArg (Lib.split dot) h
    rw [hA.parts, hB.parts, List.cons.injEq, List.cons.injEq, List.cons.injEq] at hparts
    exact ⟨congrArg _ hparts.1, congrArg _ hparts.2.1, congrArg _ hparts.2.2.1⟩
  · intro h
    rw [numericId_injective hA.major hB.major h.1, numericId_injective hA.minor hB.minor h.2.1,
      numericId_injective hA.patch hB.patch h.2.2]

theorem contains_hyphen_read {t : Text} (ht : isSemVer t = true) :
    t.contains hyphen = true ↔ (readVersion t).pre ≠ [] := by
  obtain ⟨major, minor, patch, pre, h⟩ := isSemVer_spelled ht
  rw [contains_hyphen, h.split, ne_eq, ne_eq, h.pre_eq_nil]

theorem guard_iff {version floor : Text} (op : Operator) (hv : isSemVer version = true)
    (hf : isSemVer floor = true) :
    (version.contains hyphen &&
        (!floor.contains hyphen || (split hyphen version).head? != (split hyphen floor).head?)) = true ↔
      ¬ (⟨op, readVersion floor⟩ : Range Text).OptsIn (readVersion version) := by
  unfold Range.OptsIn
  rw [split_hyphen, split_hyphen, Bool.and_eq_true, Bool.or_eq_true, Bool.not_eq_true', bne_iff_ne, ne_eq,
    Option.some.injEq, core_text_eq hv hf, ← Bool.not_eq_true, contains_hyphen_read hv,
    contains_hyphen_read hf, not_or, not_and_or, eq_comm (a := (readVersion version).core)]

theorem compareSemver_upper {version floor : Text} {op : Operator} {c : ℕ × ℕ × ℕ} (hv : isSemVer version = true)
    (hopt : (⟨op, readVersion floor⟩ : Range Text).OptsIn (readVersion version))
    (hc : (readVersion floor).core < (Version.first c : Version Text).core) :
    compareSemver version (releaseText c) = .lt ↔ readVersion version < .first c := by
  rw [(compareSemver_compares hv (isSemVer_releaseText c)).eq_lt, readVersion_releaseText, Version.lt_release,
    Version.lt_first]
  constructor
  · intro h
    cases h with
    | inl hlt => exact hlt
    | inr heq =>
      -- A pre-release of the bound's core would have the floor's core, which lies below it.
      cases hopt with
      | inl hrelease => exact absurd hrelease heq.2
      | inr hown => exact absurd (hown.2.trans heq.1) hc.ne
  · intro h
    exact .inl h

theorem satisfiesRuntime_operator {version range floor : Text} (op : Operator)
    (hfloor : range.drop (rangeOp range).length = floor) (hop : rangeOp range ≠ [])
    (hv : isSemVer version = true) (hf : isSemVer floor = true) :
    satisfiesRuntime version range = true ↔
      (readVersion floor ≤ readVersion version ∧ (rangeOp range = js ">=" ∨
        readVersion version < .first (if rangeOp range = js "~" then (readVersion floor).tilde
          else (readVersion floor).caret))) ∧
        (⟨op, readVersion floor⟩ : Range Text).OptsIn (readVersion version) := by
  have hcmp := compareSemver_compares hv hf
  unfold satisfiesRuntime
  dsimp only
  rw [hfloor, if_neg hop]
  by_cases hopt : (⟨op, readVersion floor⟩ : Range Text).OptsIn (readVersion version)
  · rw [if_neg (fun hguard => (guard_iff op hv hf).mp hguard hopt)]
    by_cases hlow : readVersion version < readVersion floor
    · rw [if_pos (beq_iff_eq.mpr (hcmp.eq_lt.mpr hlow))]
      simp [not_le.mpr hlow]
    · have hc : (readVersion floor).core < (Version.first (if rangeOp range = js "~" then
          (readVersion floor).tilde else (readVersion floor).caret) : Version Text).core := by
        split_ifs
        · exact Version.core_lt_tilde _
        · exact Version.core_lt_caret _
      rw [if_neg (fun hlt => hlow (hcmp.eq_lt.mp (beq_iff_eq.mp hlt))), upperBound_eq]
      by_cases hge : rangeOp range = js ">="
      · simp [hge, hopt, not_lt.mp hlow]
      · rw [if_neg hge, beq_iff_eq, compareSemver_upper hv hopt hc]
        simp [hge, hopt, not_lt.mp hlow]
  · rw [if_pos ((guard_iff op hv hf).mpr hopt)]
    simp [hopt]

/-- **Runtime ranges mean semantic version ranges.** -/
theorem satisfiesRuntime_iff {version range : Text} (hv : isSemVer version = true)
    (hr : isSemVerRange range = true) :
    satisfiesRuntime version range = true ↔ readVersion version ∈ (readRange range).versions := by
  unfold isSemVerRange at hr
  rw [Range.mem_versions]
  unfold readRange
  rcases readOp_cases range with ⟨hop, hread⟩ | ⟨hop, hread⟩ | ⟨hop, hread⟩ | ⟨hop, hread⟩
  · -- An exact range opts in to the version it names.
    have hcmp := compareSemver_compares hv hr
    unfold satisfiesRuntime
    dsimp only
    rw [hread, if_pos hop, beq_iff_eq, hcmp.eq_eq]
    dsimp only
    constructor
    · intro heq
      refine ⟨heq, ?_⟩
      unfold Range.OptsIn
      rw [heq]
      by_cases hpre : (readVersion (range.drop (rangeOp range).length)).pre = []
      · exact .inl hpre
      · exact .inr ⟨hpre, rfl⟩
    · intro h
      exact h.1
  · rw [satisfiesRuntime_operator .atLeast rfl (by rw [hop]; decide) hv hr, hread, hop]
    simp
  · have hne : js "^" ≠ js ">=" ∧ js "^" ≠ js "~" := by decide
    rw [satisfiesRuntime_operator .caret rfl (by rw [hop]; decide) hv hr, hread, hop]
    simp [hne]
  · have hne : js "~" ≠ js ">=" := by decide
    rw [satisfiesRuntime_operator .tilde rfl (by rw [hop]; decide) hv hr, hread, hop]
    simp [hne]

/-- A caret below 1.0.0 keeps the minor, and a pre-release opts in to its own core only. -/
theorem satisfiesRuntime_carets :
    (satisfiesRuntime (js "0.2.4-rc.1") (js "^0.2.3-beta") = true ↔
      readVersion (js "0.2.4-rc.1") ∈ (readRange (js "^0.2.3-beta")).versions) ∧
    satisfiesRuntime (js "0.2.4-rc.1") (js "^0.2.3-beta") = false ∧
    satisfiesRuntime (js "0.2.3-beta.2") (js "^0.2.3-beta") = true :=
  ⟨satisfiesRuntime_iff (by decide +kernel) (by decide +kernel), by decide +kernel, by decide +kernel⟩

end Albusforge.Matcher
