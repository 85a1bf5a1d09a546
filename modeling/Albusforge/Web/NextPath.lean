import Mathlib
import Albusforge.Lib.Url

/-!
# Where to go after signing in

`apps/web/src/lib/next-path.ts`: `safeNextPath` checks a string that anyone may have made up, parses it against
a base of its own, and gives back what was parsed, put together again. What it gives back has no spaces,
backslashes or control characters, is no sign-in page, and is parsed to itself.

Two things are checked before parsing only. The dots that are taken out of a path may leave an empty segment
at its front, and **a path with two slashes at its front is a host** (`/.//evil.com`); and escapes make a path
longer, so that **one which was short enough is too long afterwards**. What stays on the site is exactly the rest
(`on_site_iff`).
-/

namespace Albusforge.Web

open Lib Lib.Json Lib.Url

section

variable (elsewhere : Origin → List ℕ → Option Record)

def base : Origin := ⟨js "http", js "albusforge.invalid", none⟩

def authPages : List Text := [js "/signin", js "/signup"]

/-- `page` or something below it. -/
def isAuthPage (pathname : Text) : Bool :=
  authPages.any fun page => pathname = page || (page ++ [slash]).isPrefixOf pathname

/-- `safeNextPath`, of a string. A control character is a code point of one unit. -/
def safeNextPath (raw : Text) : Option Text :=
  if raw.length = 0 || raw.length > 1000 then none
  else if !(js "/").isPrefixOf raw || (js "//").isPrefixOf raw then none
  else if raw.contains backslash || raw.any fun u => u ≤ 0x20 || u = 0x7F then none
  else match newUrl elsewhere base raw with
    | none => none
    | some url =>
      if url.origin.text ≠ base.text then none
      else if isAuthPage url.parts.pathname then none
      else some url.parts.text

/-! ## What is promised of a path -/

def isControl (u : ℕ) : Bool := u < 0x20 || (0x7F ≤ u && u ≤ 0x9F)

def pathOf (p : Text) : Text := p.takeWhile isPathPoint

structure OnSite (p : Text) : Prop where
  oneSlash : p.head? = some slash ∧ p.tail.head? ≠ some slash
  plain : ∀ u ∈ p, u ≠ backslash ∧ u ≠ 0x20 ∧ isControl u = false
  origin : ∀ origin : Origin, origin.scheme = js "http" ∨ origin.scheme = js "https" →
    ∃ url, newUrl elsewhere origin p = some url ∧ url.origin = origin
  auth : isAuthPage (pathOf p) = false
  again : safeNextPath elsewhere p = some p

end

/-! ## When it is kept -/

def keptSegments (raw : Text) : List (List ℕ) := resolve [] (split slash (pathPart (points raw.tail)))

def width (set : ℕ → Bool) (c : ℕ) : ℕ := if set c then 3 * (utf8 c).length else 1

def widthOf (set : ℕ → Bool) (cs : List ℕ) : ℕ := (cs.map (width set)).sum

def markedWidth (set : ℕ → Bool) : Option (List ℕ) → ℕ
  | none => 0
  | some cs => if cs = [] then 0 else 1 + widthOf set cs

def escapedLength (raw : Text) : ℕ :=
  ((keptSegments raw).map fun s => 1 + widthOf pathSet s).sum +
    markedWidth specialQuerySet (queryPart (points raw.tail)) + markedWidth fragmentSet (fragmentPart (points raw.tail))

def BeginsEmpty (raw : Text) : Prop := ∃ next rest, keptSegments raw = [] :: next :: rest

/-! ## What is given back -/

section

variable {elsewhere : Origin → List ℕ → Option Record}

structure Checked (raw : Text) : Prop where
  length : raw.length ≤ 1000
  first : raw.head? = some slash
  single : raw.tail.head? ≠ some slash
  plain : ∀ u ∈ raw, 0x20 < u ∧ u ≠ 0x7F ∧ u ≠ backslash

def partsBehind (raw : Text) : Parts := pathState (points raw.tail) [] []

theorem newUrl_checked {raw : Text} (h : Checked raw) (origin : Origin) :
    newUrl elsewhere origin raw = some ⟨origin, partsBehind raw⟩ := by
  obtain ⟨rest, rfl⟩ : ∃ rest, raw = slash :: rest := by
    cases raw with
    | nil => cases h.first
    | cons u rest =>
      obtain rfl : u = slash := Option.some.inj h.first
      exact ⟨rest, rfl⟩
  exact newUrl_eq elsewhere origin (fun u hu => (h.plain u (.tail _ hu)).1) (fun hmem => (h.plain _ (.tail _ hmem)).2.2 rfl)
    h.single

theorem checked_iff {raw : Text} : Checked raw ↔ (raw.length = 0 || raw.length > 1000) = false ∧
    (!(js "/").isPrefixOf raw || (js "//").isPrefixOf raw) = false ∧
    (raw.contains backslash || raw.any fun u => u ≤ 0x20 || u = 0x7F) = false := by
  have hplain : (raw.contains backslash || raw.any fun u => u ≤ 0x20 || u = 0x7F) = false ↔
      ∀ u ∈ raw, 0x20 < u ∧ u ≠ 0x7F ∧ u ≠ backslash := by
    simp only [Bool.or_eq_false_iff, List.any_eq_false, List.contains_eq_mem, decide_eq_false_iff_not,
      Bool.or_eq_true, decide_eq_true_eq, not_or, not_le]
    constructor
    · intro h u hu
      exact ⟨(h.2 u hu).1, (h.2 u hu).2, fun heq => h.1 (heq ▸ hu)⟩
    · intro h
      exact ⟨fun hmem => (h _ hmem).2.2 rfl, fun u hu => ⟨(h u hu).1, (h u hu).2.1⟩⟩
  have hslash : raw.length ≠ 0 → ((!(js "/").isPrefixOf raw || (js "//").isPrefixOf raw) = false ↔
      raw.head? = some slash ∧ raw.tail.head? ≠ some slash) := by
    have hone : js "/" = [47] ∧ js "//" = [47, 47] := by decide
    intro hlength
    rw [hone.1, hone.2]
    match raw, hlength with
    | [u], _ =>
      simp only [List.isPrefixOf, Bool.or_eq_false_iff, Bool.and_true, Bool.not_eq_false', beq_iff_eq, Bool.and_false,
        List.head?_cons, List.tail_cons, List.head?_nil, Option.some.injEq, ne_eq]
      exact ⟨fun h => ⟨h.1.symm, nofun⟩, fun h => ⟨h.1.symm, trivial⟩⟩
    | u :: v :: rest, _ =>
      simp only [List.isPrefixOf, Bool.or_eq_false_iff, Bool.and_true, Bool.not_eq_false', beq_iff_eq,
        Bool.and_eq_false_iff, beq_eq_false_iff_ne, List.head?_cons, List.tail_cons, Option.some.injEq, ne_eq]
      constructor
      · intro h
        exact ⟨h.1.symm, fun heq => h.2.elim (fun hne => hne h.1) fun hne => hne heq.symm⟩
      · intro h
        exact ⟨h.1.symm, .inr fun heq => h.2 heq.symm⟩
  have hlength : (raw.length = 0 || raw.length > 1000) = false ↔ raw.length ≠ 0 ∧ raw.length ≤ 1000 := by
    simp
  constructor
  · intro h
    have hne : raw.length ≠ 0 := by
      intro hzero
      rw [List.length_eq_zero_iff.mp hzero] at h
      cases h.first
    exact ⟨hlength.mpr ⟨hne, h.length⟩, (hslash hne).mpr ⟨h.first, h.single⟩, hplain.mpr h.plain⟩
  · intro ⟨hlen, hslashes, hunits⟩
    obtain ⟨hne, hle⟩ := hlength.mp hlen
    obtain ⟨hfirst, hsecond⟩ := (hslash hne).mp hslashes
    exact ⟨hle, hfirst, hsecond, hplain.mp hunits⟩

theorem safeNextPath_eq_some {raw p : Text} : safeNextPath elsewhere raw = some p ↔
    Checked raw ∧ isAuthPage (partsBehind raw).pathname = false ∧ p = (partsBehind raw).text := by
  unfold safeNextPath
  by_cases hchecked : Checked raw
  · obtain ⟨hlength, hslash, hunits⟩ := checked_iff.mp hchecked
    rw [hlength, hslash, hunits, if_neg Bool.false_ne_true, if_neg Bool.false_ne_true, if_neg Bool.false_ne_true,
      newUrl_checked hchecked]
    dsimp only
    rw [if_neg (not_not.mpr rfl)]
    cases hauth : isAuthPage (partsBehind raw).pathname with
    | true =>
      rw [if_pos rfl]
      exact ⟨nofun, fun h => absurd h.2.1 (by decide)⟩
    | false =>
      rw [if_neg Bool.false_ne_true]
      exact ⟨fun h => ⟨hchecked, rfl, (Option.some.inj h).symm⟩, fun h => congrArg some h.2.2.symm⟩
  · refine ⟨?_, fun h => absurd h.1 hchecked⟩
    intro h
    split at h
    · cases h
    · rename_i hlength
      split at h
      · cases h
      · rename_i hslash
        split at h
        · cases h
        · rename_i hunits
          exact absurd (checked_iff.mpr ⟨Bool.eq_false_iff.mpr hlength, Bool.eq_false_iff.mpr hslash,
            Bool.eq_false_iff.mpr hunits⟩) hchecked

theorem Checked.written {raw : Text} (h : Checked raw) : (partsBehind raw).Written := by
  refine written_pathState ?_
  intro hmem
  rcases mem_points _ hmem with hmem | hmem
  · exact (h.plain _ (List.mem_of_mem_tail hmem)).2.2 rfl
  · exact absurd hmem (by decide)

theorem Checked.parts_eq {raw : Text} (h : Checked raw) : partsBehind raw =
    ⟨(keptSegments raw).map (escape pathSet), (queryPart (points raw.tail)).map (escape specialQuerySet),
      (fragmentPart (points raw.tail)).map (escape fragmentSet)⟩ := by
  have hback : backslash ∉ points raw.tail := by
    intro hmem
    rcases mem_points _ hmem with hmem | hmem
    · exact (h.plain _ (List.mem_of_mem_tail hmem)).2.2 rfl
    · exact absurd hmem (by decide)
  exact pathState_eq (points raw.tail) [] [] hback List.not_mem_nil

theorem length_percentEncode (set : ℕ → Bool) (c : ℕ) : (percentEncode set c).length = width set c := by
  have hbytes : ∀ bs : List ℕ, (bs.flatMap percentByte).length = 3 * bs.length := by
    intro bs
    induction bs with
    | nil => rfl
    | cons b bs ih =>
      rw [List.flatMap_cons, List.length_append, ih, List.length_cons]
      simp only [percentByte, List.length_cons, List.length_nil]
      omega
  unfold percentEncode width
  split
  · exact hbytes _
  · rfl

theorem length_escape (set : ℕ → Bool) (cs : List ℕ) : (escape set cs).length = widthOf set cs := by
  induction cs with
  | nil => rfl
  | cons c cs ih => rw [escape_cons, List.length_append, ih, length_percentEncode, widthOf, widthOf, List.map_cons, List.sum_cons]

theorem length_marked (mark : ℕ) (set : ℕ → Bool) (part : Option (List ℕ)) :
    (marked mark (part.map (escape set))).length = markedWidth set part := by
  cases part with
  | none => rfl
  | some cs =>
    cases cs with
    | nil => rfl
    | cons c cs =>
      have hne : escape set (c :: cs) ≠ [] := fun h => absurd (escape_eq_nil h) (List.cons_ne_nil _ _)
      rw [Option.map_some, marked, if_neg hne, List.length_cons, length_escape, markedWidth,
        if_neg (List.cons_ne_nil c cs), Nat.add_comm]

theorem Checked.length_text {raw : Text} (h : Checked raw) : (partsBehind raw).text.length = escapedLength raw := by
  have hpath : ∀ path : List (List ℕ), ((path.map (escape pathSet)).flatMap (slash :: ·)).length =
      (path.map fun s => 1 + widthOf pathSet s).sum := by
    intro path
    induction path with
    | nil => rfl
    | cons s path ih =>
      rw [List.map_cons, List.flatMap_cons, List.length_append, ih, List.length_cons, length_escape, List.map_cons,
        List.sum_cons, Nat.add_comm 1]
  rw [h.parts_eq, Parts.text, Parts.pathname, Parts.search, Parts.hash, List.length_append, List.length_append,
    length_marked, length_marked, hpath, escapedLength]

/-- **A second slash comes from an empty segment in front of others.** -/
theorem Checked.second_slash {raw : Text} (h : Checked raw) :
    (partsBehind raw).rest.head? = some slash ↔ BeginsEmpty raw := by
  have hwritten := h.written
  have hpath : (partsBehind raw).path = (keptSegments raw).map (escape pathSet) := by rw [h.parts_eq]
  have hmarks : ((partsBehind raw).search ++ (partsBehind raw).hash).head? ≠ some slash := by
    unfold Parts.search Parts.hash
    rcases marked_cases question (partsBehind raw).query with ⟨hq, _⟩ | ⟨q, hq, _⟩
    · rcases marked_cases numberSign (partsBehind raw).fragment with ⟨hf, _⟩ | ⟨f, hf, _⟩
      · rw [hq, hf]
        exact nofun
      · rw [hq, hf]
        exact fun heq => absurd (Option.some.inj heq) (by decide)
    · rw [hq]
      exact fun heq => absurd (Option.some.inj heq) (by decide)
  have hslash : ∀ s ∈ (partsBehind raw).path, ∀ u ∈ s, u ≠ slash := fun s hs u hu => (hwritten.segments s hs u hu).2.1
  rw [Parts.rest]
  unfold BeginsEmpty
  rw [hpath] at hslash ⊢
  cases hkept : keptSegments raw with
  | nil =>
    rw [hkept] at hpath
    exact absurd hpath hwritten.nonempty
  | cons s segments =>
    rw [hkept] at hslash
    cases s with
    | cons c s =>
      -- the first segment has a character, which is no slash
      have hne : escape pathSet (c :: s) ≠ [] := fun heq => absurd (escape_eq_nil heq) (List.cons_ne_nil _ _)
      obtain ⟨u, t, hu⟩ := List.exists_cons_of_ne_nil hne
      have hfirst : u ≠ slash := hslash _ (.head _) u (hu ▸ .head _)
      refine ⟨?_, fun hempty => ?_⟩
      · intro hhead
        rw [List.map_cons, hu] at hhead
        cases segments with
        | nil => exact absurd (Option.some.inj hhead) hfirst
        | cons next rest => exact absurd (Option.some.inj hhead) hfirst
      · obtain ⟨_, _, heq⟩ := hempty
        exact absurd (List.cons.inj heq).1 (List.cons_ne_nil _ _)
    | nil =>
      cases segments with
      | nil =>
        refine ⟨fun hhead => absurd hhead hmarks, fun hempty => ?_⟩
        obtain ⟨_, _, heq⟩ := hempty
        exact absurd (List.cons.inj heq).2.symm (List.cons_ne_nil _ _)
      | cons next rest => exact ⟨fun _ => ⟨next, rest, rfl⟩, fun _ => rfl⟩

theorem Checked.text_checked {raw : Text} (h : Checked raw) :
    Checked (partsBehind raw).text ↔ ¬ BeginsEmpty raw ∧ escapedLength raw ≤ 1000 := by
  have htext := h.written.text_eq
  rw [← h.second_slash, ← h.length_text]
  constructor
  · intro hchecked
    have hsingle := hchecked.single
    rw [htext] at hsingle
    exact ⟨hsingle, hchecked.length⟩
  · intro ⟨hsingle, hlength⟩
    refine ⟨hlength, by rw [htext]; rfl, by rw [htext]; exact hsingle, ?_⟩
    intro u hu
    rw [htext] at hu
    rcases List.mem_cons.mp hu with rfl | hu
    · decide
    · obtain ⟨hlow, hhigh, hback⟩ := h.written.visible hu
      exact ⟨hlow, by omega, hback⟩

theorem Checked.parts_again {raw : Text} (h : Checked raw) :
    partsBehind (partsBehind raw).text = (partsBehind raw).trimmed := by
  have hvisible : ∀ u ∈ (partsBehind raw).rest, Visible u := fun u hu => h.written.visible hu
  rw [partsBehind, h.written.text_eq, List.tail_cons, points_of_visible hvisible, h.written.parse_rest]

/--
**What is given back stays on the site exactly when the string, with the dots of its path taken out, does not
begin with an empty segment in front of others, and is no longer than 1000 characters when it is escaped.**
-/
theorem on_site_iff (elsewhere : Origin → List ℕ → Option Record) {raw p : Text} (hp : safeNextPath elsewhere raw = some p) :
    OnSite elsewhere p ↔ ¬ BeginsEmpty raw ∧ escapedLength raw ≤ 1000 := by
  obtain ⟨hchecked, hauth, rfl⟩ := safeNextPath_eq_some.mp hp
  rw [← hchecked.text_checked]
  constructor
  · intro hsite
    exact (safeNextPath_eq_some.mp hsite.again).1
  · intro hagain
    have htext := hchecked.written.text_eq
    have hpathname : (partsBehind raw).pathname = slash :: join slash (partsBehind raw).path :=
      pathname_eq hchecked.written.nonempty
    refine ⟨⟨hagain.first, hagain.single⟩, ?_, ?_, ?_, ?_⟩
    · intro u hu
      rw [htext] at hu
      rcases List.mem_cons.mp hu with rfl | hu
      · decide
      · obtain ⟨hlow, hhigh, hback⟩ := hchecked.written.visible hu
        refine ⟨hback, by omega, ?_⟩
        simp only [isControl, Bool.or_eq_false_iff, decide_eq_false_iff_not, Bool.and_eq_false_iff]
        omega
    · intro origin _
      exact ⟨_, newUrl_checked hagain origin, rfl⟩
    · have hcut : pathOf (partsBehind raw).text = (partsBehind raw).pathname := by
        rw [pathOf, htext, List.takeWhile_cons_of_pos (by decide), hpathname]
        exact congrArg (slash :: ·) hchecked.written.cut.1
      rw [hcut]
      exact hauth
    · refine safeNextPath_eq_some.mpr ⟨hagain, ?_, ?_⟩
      · rw [hchecked.parts_again]
        exact hauth
      · rw [hchecked.parts_again, trimmed_text]

end

namespace Bench

def elsewhere (base : Origin) (cs : List ℕ) : Option Record :=
  match cs with
  | 47 :: 47 :: rest =>
    let host := rest.takeWhile fun c => c ≠ slash && isPathPoint c
    some ⟨⟨base.scheme, host, none⟩, pathState ((rest.dropWhile fun c => c ≠ slash && isPathPoint c).drop 1) [] []⟩
  | _ => none

def site : Origin := ⟨js "https", js "albusforge.example", none⟩

end Bench

/-- **A path that leads to another host**: the dot and its slash are taken out between two slashes. -/
theorem other_host_returned : safeNextPath Bench.elsewhere (js "/.//evil.com") = some (js "//evil.com") ∧
    (newUrl Bench.elsewhere Bench.site (js "//evil.com")).map (fun url => url.origin.host) = some (js "evil.com") ∧
    ¬ OnSite Bench.elsewhere (js "//evil.com") := by
  refine ⟨by decide, by decide, ?_⟩
  intro hsite
  exact hsite.oneSlash.2 (by decide)

/-- An ordinary path stays on the site. -/
theorem on_site_bench : safeNextPath Bench.elsewhere (js "/live/bed-a?range=24h") = some (js "/live/bed-a?range=24h") ∧
    OnSite Bench.elsewhere (js "/live/bed-a?range=24h") := by
  have hsome : safeNextPath Bench.elsewhere (js "/live/bed-a?range=24h") = some (js "/live/bed-a?range=24h") := by decide
  refine ⟨hsome, (on_site_iff Bench.elsewhere hsome).mpr ⟨?_, by decide⟩⟩
  intro hempty
  obtain ⟨next, rest, hkept⟩ := hempty
  have hhead : (keptSegments (js "/live/bed-a?range=24h")).head? = some (js "live") := by decide
  rw [hkept] at hhead
  exact absurd (Option.some.inj hhead) (by decide)

end Albusforge.Web
