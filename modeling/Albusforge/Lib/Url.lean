import Albusforge.Lib.Json

/-!
# URLs

What the WHATWG standard makes of a reference that begins with one slash, against a base that is `http` or
`https`: the path, query and fragment states, code point by code point, and what is put together from them.

The states escape as they read and take the dots out of the escaped segments. **It is the same to cut a
reference into its parts first, to take the dots out, and to escape what is left** (`pathState_eq`): escaping
makes no dots and hides none (`stripDot_escape`). What is put together is escaped already, so parsing it
again gives the same (`Parts.Written.parse_rest`).
-/

namespace Albusforge.Lib.Url

open Json

abbrev slash : ℕ := 47
abbrev question : ℕ := 63
abbrev numberSign : ℕ := 35
abbrev percent : ℕ := 37

/-! ## Code points -/

def scalar (u : ℕ) : ℕ := if isHighSurrogate u || isLowSurrogate u then 0xFFFD else u

def points : Text → List ℕ
  | [] => []
  | [u] => [scalar u]
  | u :: v :: rest =>
    if isHighSurrogate u && isLowSurrogate v then (0x10000 + (u - 0xD800) * 0x400 + (v - 0xDC00)) :: points rest
    else scalar u :: points (v :: rest)

def utf8 (c : ℕ) : List ℕ :=
  if c < 0x80 then [c]
  else if c < 0x800 then [0xC0 + c / 64, 0x80 + c % 64]
  else if c < 0x10000 then [0xE0 + c / 4096, 0x80 + c / 64 % 64, 0x80 + c % 64]
  else [0xF0 + c / 262144 % 8, 0x80 + c / 4096 % 64, 0x80 + c / 64 % 64, 0x80 + c % 64]

def upperHex (d : ℕ) : ℕ := if d < 10 then 48 + d else 55 + d

/-- `%XX` -/
def percentByte (b : ℕ) : Text := [percent, upperHex (b / 16 % 16), upperHex (b % 16)]

def percentEncode (set : ℕ → Bool) (c : ℕ) : Text := if set c then (utf8 c).flatMap percentByte else [c]

def escape (set : ℕ → Bool) (cs : List ℕ) : Text := cs.flatMap (percentEncode set)

def controlSet (c : ℕ) : Bool := c < 0x20 || 0x7E < c

/-- Space, `"`, `<`, `>` and the backtick. -/
def fragmentSet (c : ℕ) : Bool := controlSet c || [0x20, 0x22, 0x3C, 0x3E, 0x60].contains c

/-- Space, `"`, `#`, `<`, `>`. -/
def querySet (c : ℕ) : Bool := controlSet c || [0x20, 0x22, 0x23, 0x3C, 0x3E].contains c

def specialQuerySet (c : ℕ) : Bool := querySet c || c = 0x27

/-- `?`, `^`, the backtick and the braces besides. -/
def pathSet (c : ℕ) : Bool := querySet c || [0x3F, 0x5E, 0x60, 0x7B, 0x7D].contains c

/-! ## The states -/

/-- `2e`, in either case. -/
def stripEscaped : Text → Option Text
  | d :: e :: rest => if d = 50 ∧ (e = 69 ∨ e = 101) then some rest else none
  | _ => none

/-- A dot at the beginning, itself or as `%2e`. -/
def stripDot : Text → Option Text
  | [] => none
  | c :: rest => if c = dot then some rest else if c = percent then stripEscaped rest else none

def isSingleDot (segment : Text) : Bool := stripDot segment = some []
def isDoubleDot (segment : Text) : Bool := (stripDot segment).bind stripDot = some []

def endSegment (path : List Text) (segment : Text) (slashed : Bool) : List Text :=
  if isDoubleDot segment then path.dropLast ++ (if slashed then [] else [[]])
  else if isSingleDot segment then path ++ (if slashed then [] else [[]])
  else path ++ [segment]

structure Parts where
  path : List Text
  query : Option Text
  fragment : Option Text
  deriving DecidableEq

def fragmentState : List ℕ → Text → Text
  | [], fragment => fragment
  | c :: rest, fragment => fragmentState rest (fragment ++ percentEncode fragmentSet c)

def queryState (path : List Text) : List ℕ → List ℕ → Parts
  | [], buffer => ⟨path, some (escape specialQuerySet buffer), none⟩
  | c :: rest, buffer =>
    if c = numberSign then ⟨path, some (escape specialQuerySet buffer), some (fragmentState rest [])⟩
    else queryState path rest (buffer ++ [c])

def pathState : List ℕ → List Text → Text → Parts
  | [], path, buffer => ⟨endSegment path buffer false, none, none⟩
  | c :: rest, path, buffer =>
    if c = slash || c = backslash then pathState rest (endSegment path buffer true) []
    else if c = question then queryState (endSegment path buffer false) rest []
    else if c = numberSign then ⟨endSegment path buffer false, none, some (fragmentState rest [])⟩
    else pathState rest path (buffer ++ percentEncode pathSet c)

/-! ## URLs of a site -/

structure Origin where
  scheme : Text
  host : Text
  port : Option ℕ
  deriving DecidableEq

/-- A URL record that is `http` or `https`. -/
structure Record where
  origin : Origin
  parts : Parts

/-- `protocol//host` -/
def Origin.text (origin : Origin) : Text :=
  origin.scheme ++ js "://" ++ origin.host ++ origin.port.elim [] fun port => colon :: decimal port

def Parts.pathname (parts : Parts) : Text := parts.path.flatMap (slash :: ·)

/-- `search` and `hash`: the mark and what follows it, if anything does. -/
def marked (mark : ℕ) (part : Option Text) : Text :=
  match part with
  | none => []
  | some text => if text = [] then [] else mark :: text

def Parts.search (parts : Parts) : Text := marked question parts.query

def Parts.hash (parts : Parts) : Text := marked numberSign parts.fragment

/-- `pathname`, `search` and `hash`, one behind the other. -/
def Parts.text (parts : Parts) : Text := parts.pathname ++ parts.search ++ parts.hash

def isOuter (c : ℕ) : Bool := c ≤ 0x20
def isInner (c : ℕ) : Bool := c = 9 || c = 10 || c = 13

def cleaned (input : List ℕ) : List ℕ :=
  ((input.dropWhile isOuter).reverse.dropWhile isOuter).reverse.filter fun c => !isInner c

/-- `new URL(input, base)`. The parameter has what does not begin with one slash: another scheme, an
authority, a path that goes on from the base's. -/
def newUrl (elsewhere : Origin → List ℕ → Option Record) (base : Origin) (input : Text) : Option Record :=
  match cleaned (points input) with
  | [] => elsewhere base []
  | c :: rest =>
    if c ≠ slash || [some slash, some backslash].contains rest.head? then elsewhere base (c :: rest)
    else some ⟨base, pathState rest [] []⟩

/-! ## The parts of a reference -/

def resolve : List Text → List Text → List Text
  | path, [] => path
  | path, [segment] => endSegment path segment false
  | path, segment :: next :: rest => resolve (endSegment path segment true) (next :: rest)

def isPathPoint (c : ℕ) : Bool := c ≠ question && c ≠ numberSign

def pathPart (cs : List ℕ) : List ℕ := cs.takeWhile isPathPoint

/-- What stands behind the first `#`. -/
def fragmentPart (cs : List ℕ) : Option (List ℕ) :=
  match cs.dropWhile (· ≠ numberSign) with
  | [] => none
  | _ :: fragment => some fragment

/-- What stands behind the first `?` that no `#` is before. -/
def queryPart (cs : List ℕ) : Option (List ℕ) :=
  match cs.dropWhile isPathPoint with
  | [] => none
  | c :: rest => if c = question then some (rest.takeWhile (· ≠ numberSign)) else none

/-! ## Escaping -/

section Escaping

variable {set : ℕ → Bool}

theorem escape_append (cs ds : List ℕ) : escape set (cs ++ ds) = escape set cs ++ escape set ds :=
  List.flatMap_append

theorem escape_of_plain : ∀ {cs : List ℕ}, (∀ c ∈ cs, set c = false) → escape set cs = cs
  | [], _ => rfl
  | c :: cs, h => by
      have hrest : escape set cs = cs := escape_of_plain fun d hd => h d (.tail _ hd)
      rw [escape, List.flatMap_cons, percentEncode, h c (.head _), if_neg Bool.false_ne_true]
      exact congrArg (c :: ·) hrest

theorem utf8_cons (c : ℕ) : ∃ b bs, utf8 c = b :: bs ∧ b < 256 ∧ (b < 0x80 → c = b) := by
  unfold utf8
  split_ifs
  · exact ⟨_, _, rfl, by omega, fun _ => rfl⟩
  · exact ⟨_, _, rfl, by omega, fun h => by omega⟩
  · exact ⟨_, _, rfl, by omega, fun h => by omega⟩
  · exact ⟨_, _, rfl, by omega, fun h => by omega⟩

theorem percentEncode_escaped {c : ℕ} (h : set c = true) (hdot : set dot = false) :
    ∃ d e rest, percentEncode set c = percent :: d :: e :: rest ∧ ¬ (d = 50 ∧ (e = 69 ∨ e = 101)) := by
  obtain ⟨b, bs, hb, hlt, hascii⟩ := utf8_cons c
  refine ⟨upperHex (b / 16 % 16), upperHex (b % 16), bs.flatMap percentByte, ?_, ?_⟩
  · rw [percentEncode, if_pos h, hb, List.flatMap_cons]
    rfl
  · intro hdigits
    have hb46 : b = 46 := by
      unfold upperHex at hdigits
      split_ifs at hdigits <;> omega
    rw [hascii (by omega), hb46, hdot] at h
    cases h

theorem escape_cons (c : ℕ) (cs : List ℕ) : escape set (c :: cs) = percentEncode set c ++ escape set cs :=
  List.flatMap_cons

theorem escape_cons_plain {c : ℕ} (h : set c = false) (cs : List ℕ) : escape set (c :: cs) = c :: escape set cs := by
  rw [escape_cons, percentEncode, h, if_neg Bool.false_ne_true]
  rfl

theorem escape_eq_nil {cs : List ℕ} (h : escape set cs = []) : cs = [] := by
  cases cs with
  | nil => rfl
  | cons c cs =>
    rw [escape_cons, List.append_eq_nil_iff] at h
    exfalso
    unfold percentEncode at h
    split at h
    · obtain ⟨b, bs, hb, _⟩ := utf8_cons c
      rw [hb, List.flatMap_cons] at h
      exact absurd h.1 (List.cons_ne_nil _ _)
    · exact absurd h.1 (List.cons_ne_nil _ _)

theorem stripEscaped_escape (hdot : set dot = false) (htwo : set 50 = false) (he : set 69 = false ∧ set 101 = false)
    (cs : List ℕ) : stripEscaped (escape set cs) = (stripEscaped cs).map (escape set) := by
  cases cs with
  | nil => rfl
  | cons d cs =>
    cases hd : set d with
    | true =>
      have hne : d ≠ 50 := by
        intro heq
        rw [heq, htwo] at hd
        cases hd
      obtain ⟨x, y, rest, henc, _⟩ := percentEncode_escaped hd hdot
      rw [escape_cons, henc]
      cases cs with
      | nil => simp [stripEscaped, percent]
      | cons e cs => simp [stripEscaped, percent, hne]
    | false =>
      rw [escape_cons_plain hd]
      cases cs with
      | nil => rfl
      | cons e cs =>
        cases hset : set e with
        | true =>
          have hne : ¬ (e = 69 ∨ e = 101) := by
            intro heq
            rcases heq with rfl | rfl
            · rw [he.1] at hset
              cases hset
            · rw [he.2] at hset
              cases hset
          obtain ⟨x, y, rest, henc, _⟩ := percentEncode_escaped hset hdot
          rw [escape_cons, henc]
          simp [stripEscaped, percent, hne]
        | false =>
          rw [escape_cons_plain hset, stripEscaped, stripEscaped]
          split <;> rfl

theorem stripDot_escape (hdot : set dot = false) (hpercent : set percent = false) (htwo : set 50 = false)
    (he : set 69 = false ∧ set 101 = false) (cs : List ℕ) :
    stripDot (escape set cs) = (stripDot cs).map (escape set) := by
  cases cs with
  | nil => rfl
  | cons c cs =>
    cases hc : set c with
    | true =>
      have hne : c ≠ dot ∧ c ≠ percent := by
        refine ⟨?_, ?_⟩
        · intro heq
          rw [heq, hdot] at hc
          cases hc
        · intro heq
          rw [heq, hpercent] at hc
          cases hc
      obtain ⟨d, e, rest, henc, hdigits⟩ := percentEncode_escaped hc hdot
      rw [escape_cons, henc, stripDot, if_neg hne.1, if_neg hne.2]
      simp [stripDot, stripEscaped, hdigits, show percent ≠ dot by decide]
    | false =>
      rw [escape_cons_plain hc, stripDot, stripDot]
      split
      · rfl
      · split
        · exact stripEscaped_escape hdot htwo he cs
        · rfl

end Escaping

/-! ## Cutting first -/

theorem pathSet_dots : pathSet dot = false ∧ pathSet percent = false ∧ pathSet 50 = false ∧
    pathSet 69 = false ∧ pathSet 101 = false := by decide

theorem stripDot_escapePath (cs : List ℕ) :
    stripDot (escape pathSet cs) = (stripDot cs).map (escape pathSet) := by
  obtain ⟨hdot, hpercent, htwo, he⟩ := pathSet_dots
  exact stripDot_escape hdot hpercent htwo he cs

theorem isSingleDot_escape (cs : List ℕ) : isSingleDot (escape pathSet cs) = isSingleDot cs := by
  unfold isSingleDot
  rw [stripDot_escapePath]
  cases stripDot cs with
  | none => rfl
  | some rest =>
    have hnil : escape pathSet rest = [] ↔ rest = [] := ⟨escape_eq_nil, fun h => by rw [h]; rfl⟩
    simp [hnil]

theorem isDoubleDot_escape (cs : List ℕ) : isDoubleDot (escape pathSet cs) = isDoubleDot cs := by
  have hsingle : ∀ rest, isSingleDot (escape pathSet rest) = isSingleDot rest := isSingleDot_escape
  unfold isDoubleDot
  rw [stripDot_escapePath]
  cases stripDot cs with
  | none => rfl
  | some rest => exact hsingle rest

theorem endSegment_escape (path : List (List ℕ)) (segment : List ℕ) (slashed : Bool) :
    endSegment (path.map (escape pathSet)) (escape pathSet segment) slashed =
      (endSegment path segment slashed).map (escape pathSet) := by
  unfold endSegment
  rw [isDoubleDot_escape, isSingleDot_escape]
  split_ifs <;> simp [escape]

theorem fragmentState_eq : ∀ (cs : List ℕ) (fragment : Text),
    fragmentState cs fragment = fragment ++ escape fragmentSet cs
  | [], fragment => (List.append_nil _).symm
  | c :: rest, fragment => by
      rw [fragmentState, fragmentState_eq rest, escape_cons, List.append_assoc]

theorem queryState_eq (path : List Text) : ∀ (cs buffer : List ℕ),
    queryState path cs buffer = ⟨path, some (escape specialQuerySet (buffer ++ cs.takeWhile (· ≠ numberSign))),
      (fragmentPart cs).map (escape fragmentSet)⟩
  | [], buffer => by
      rw [queryState, List.takeWhile_nil, List.append_nil]
      rfl
  | c :: rest, buffer => by
      unfold queryState
      by_cases hc : c = numberSign
      · rw [if_pos hc, List.takeWhile_cons_of_neg (by simp [hc]), List.append_nil, fragmentState_eq, List.nil_append,
          fragmentPart, List.dropWhile_cons_of_neg (by simp [hc])]
        rfl
      · rw [if_neg hc, queryState_eq path rest, List.takeWhile_cons_of_pos (by simp [hc]), List.append_assoc,
          fragmentPart, fragmentPart, List.dropWhile_cons_of_pos (by simp [hc])]
        rfl

def partsOf (cs : List ℕ) (path : List (List ℕ)) (segments : List (List ℕ)) : Parts :=
  ⟨(resolve path segments).map (escape pathSet), (queryPart cs).map (escape specialQuerySet),
    (fragmentPart cs).map (escape fragmentSet)⟩

theorem resolve_cons (path : List Text) (segment : Text) {rest : List Text} (h : rest ≠ []) :
    resolve path (segment :: rest) = resolve (endSegment path segment true) rest := by
  cases rest with
  | nil => exact absurd rfl h
  | cons next rest => rfl

theorem partsOf_cons {c : ℕ} (hc : isPathPoint c = true) (cs : List ℕ) (path segments : List (List ℕ)) :
    partsOf (c :: cs) path segments = partsOf cs path segments := by
  have hhash : c ≠ numberSign := by
    intro heq
    rw [heq] at hc
    cases hc
  rw [partsOf, partsOf, queryPart, queryPart, fragmentPart, fragmentPart, List.dropWhile_cons_of_pos hc,
    List.dropWhile_cons_of_pos (by simp [hhash])]

/-- **The states do what cutting first does.** What has been read of a segment holds no slash. -/
theorem pathState_eq : ∀ (cs : List ℕ) (path : List (List ℕ)) (segment : List ℕ),
    backslash ∉ cs → slash ∉ segment →
    pathState cs (path.map (escape pathSet)) (escape pathSet segment) =
      partsOf cs path (split slash (segment ++ pathPart cs))
  | [], path, segment, _, hsegment => by
      have hone : split slash (segment ++ pathPart []) = [segment] := by
        rw [pathPart, List.takeWhile_nil, List.append_nil]
        exact split_of_notMem hsegment
      rw [pathState, endSegment_escape, hone]
      rfl
  | c :: rest, path, segment, hback, hsegment => by
      have hrest : backslash ∉ rest := fun h => hback (.tail _ h)
      have hc : c ≠ backslash := fun h => hback (h ▸ .head _)
      unfold pathState
      by_cases hslash : c = slash
      · -- the segment ends
        subst hslash
        have hread := pathState_eq rest (endSegment path segment true) [] hrest List.not_mem_nil
        have hpart : pathPart (slash :: rest) = slash :: pathPart rest := List.takeWhile_cons_of_pos (by decide)
        rw [if_pos (by simp), endSegment_escape, hpart, split_append hsegment, partsOf_cons (by decide)]
        refine hread.trans ?_
        rw [partsOf, partsOf, resolve_cons _ _ (split_ne_nil _), List.nil_append]
      by_cases hquestion : c = question
      · subst hquestion
        have hpart : pathPart (question :: rest) = [] := List.takeWhile_cons_of_neg (by decide)
        rw [if_neg (by decide), if_pos rfl, endSegment_escape, queryState_eq, hpart, List.append_nil,
          split_of_notMem hsegment, partsOf, queryPart, fragmentPart, fragmentPart,
          List.dropWhile_cons_of_neg (by decide), List.dropWhile_cons_of_pos (by decide)]
        rfl
      by_cases hhash : c = numberSign
      · subst hhash
        have hpart : pathPart (numberSign :: rest) = [] := List.takeWhile_cons_of_neg (by decide)
        rw [if_neg (by decide), if_neg (by decide), if_pos rfl, endSegment_escape, fragmentState_eq, hpart,
          List.append_nil, split_of_notMem hsegment, partsOf, queryPart, fragmentPart,
          List.dropWhile_cons_of_neg (by decide), List.dropWhile_cons_of_neg (by decide)]
        rfl
      · -- the segment goes on
        have hpoint : isPathPoint c = true := by simp [isPathPoint, hquestion, hhash]
        have hnext : slash ∉ segment ++ [c] := by
          intro h
          rcases List.mem_append.mp h with h | h
          · exact hsegment h
          · exact hslash (List.mem_singleton.mp h).symm
        have hread := pathState_eq rest path (segment ++ [c]) hrest hnext
        have hpart : pathPart (c :: rest) = c :: pathPart rest := List.takeWhile_cons_of_pos hpoint
        rw [if_neg (by simp [hslash, hc]), if_neg hquestion, if_neg hhash, hpart, partsOf_cons hpoint]
        rw [escape_append, List.append_assoc] at hread
        rw [show percentEncode pathSet c = escape pathSet [c] by rw [escape_cons]; exact (List.append_nil _).symm]
        exact hread

/-! ## What is put together -/

def isEscapeUnit (u : ℕ) : Bool := u = percent || isDigit u || (65 ≤ u && u ≤ 70)

def Harmless (set : ℕ → Bool) : Prop := ∀ u, isEscapeUnit u = true → set u = false

theorem percentByte_units {b u : ℕ} (h : u ∈ percentByte b) : isEscapeUnit u = true := by
  have hhex : ∀ d, d < 16 → isEscapeUnit (upperHex d) = true := by decide
  rcases List.mem_cons.mp h with rfl | h
  · rfl
  rcases List.mem_cons.mp h with rfl | h
  · exact hhex _ (Nat.mod_lt _ (by decide))
  · rw [List.mem_singleton.mp h]
    exact hhex _ (Nat.mod_lt _ (by decide))

theorem mem_escape {set : ℕ → Bool} (hset : Harmless set) {cs : List ℕ} {u : ℕ} (h : u ∈ escape set cs) :
    set u = false ∧ (u ∈ cs ∨ isEscapeUnit u = true) := by
  obtain ⟨c, hc, hu⟩ := List.mem_flatMap.mp h
  unfold percentEncode at hu
  split at hu
  · obtain ⟨b, _, hb⟩ := List.mem_flatMap.mp hu
    exact ⟨hset u (percentByte_units hb), .inr (percentByte_units hb)⟩
  · rename_i hplain
    obtain rfl := List.mem_singleton.mp hu
    exact ⟨by simpa using hplain, .inl hc⟩

structure Parts.Written (parts : Parts) : Prop where
  nonempty : parts.path ≠ []
  segments : ∀ s ∈ parts.path, ∀ u ∈ s, pathSet u = false ∧ u ≠ slash ∧ u ≠ backslash
  undotted : ∀ s ∈ parts.path, isSingleDot s = false ∧ isDoubleDot s = false
  query : ∀ q ∈ parts.query, ∀ u ∈ q, specialQuerySet u = false ∧ u ≠ backslash
  fragment : ∀ f ∈ parts.fragment, ∀ u ∈ f, fragmentSet u = false ∧ u ≠ backslash

theorem endSegment_ne_nil (path : List Text) (segment : Text) : endSegment path segment false ≠ [] := by
  have hlast : ∀ l : List Text, ∀ s : Text, l ++ [s] ≠ [] := fun l s => List.append_ne_nil_of_right_ne_nil l (by simp)
  unfold endSegment
  split
  · exact hlast _ _
  · split
    · exact hlast _ _
    · exact hlast _ _

theorem mem_endSegment {path : List Text} {segment s : Text} {slashed : Bool} (h : s ∈ endSegment path segment slashed) :
    s ∈ path ∨ ((s = [] ∨ s = segment) ∧ isSingleDot s = false ∧ isDoubleDot s = false) := by
  have hend : s ∈ (if slashed then [] else [[]] : List Text) →
      (s = [] ∨ s = segment) ∧ isSingleDot s = false ∧ isDoubleDot s = false := by
    intro hs
    cases slashed with
    | true => cases hs
    | false =>
      obtain rfl := List.mem_singleton.mp hs
      exact ⟨.inl rfl, rfl, rfl⟩
  unfold endSegment at h
  split at h
  · rcases List.mem_append.mp h with h | h
    · exact .inl (List.dropLast_subset _ h)
    · exact .inr (hend h)
  · rename_i hdouble
    split at h
    · rcases List.mem_append.mp h with h | h
      · exact .inl h
      · exact .inr (hend h)
    · rename_i hsingle
      rcases List.mem_append.mp h with h | h
      · exact .inl h
      · obtain rfl := List.mem_singleton.mp h
        exact .inr ⟨.inr rfl, by simpa using hsingle, by simpa using hdouble⟩

theorem resolve_ne_nil : ∀ (segments path : List Text), segments ≠ [] → resolve path segments ≠ []
  | [], _, h => absurd rfl h
  | [segment], path, _ => endSegment_ne_nil path segment
  | _ :: next :: rest, _, _ => resolve_ne_nil (next :: rest) _ (List.cons_ne_nil next rest)

theorem mem_resolve : ∀ (segments path : List Text) {s : Text}, s ∈ resolve path segments →
    s ∈ path ∨ ((s = [] ∨ s ∈ segments) ∧ isSingleDot s = false ∧ isDoubleDot s = false)
  | [], _, _, h => .inl h
  | [segment], path, s, h => by
      rcases mem_endSegment h with h | ⟨h, hdots⟩
      · exact .inl h
      · exact .inr ⟨h.imp_right List.mem_singleton.mpr, hdots⟩
  | segment :: next :: rest, path, s, h => by
      rw [resolve] at h
      rcases mem_resolve (next :: rest) _ h with h | ⟨h, hdots⟩
      · rcases mem_endSegment h with h | ⟨h, hdots⟩
        · exact .inl h
        · refine .inr ⟨h.imp_right ?_, hdots⟩
          intro heq
          rw [heq]
          exact .head _
      · exact .inr ⟨h.imp_right (.tail _), hdots⟩

theorem resolve_undotted : ∀ {segments path : List Text},
    (∀ s ∈ segments, isSingleDot s = false ∧ isDoubleDot s = false) → resolve path segments = path ++ segments
  | [], path, _ => (List.append_nil path).symm
  | [segment], path, h => by
      obtain ⟨hsingle, hdouble⟩ := h segment (.head _)
      rw [resolve, endSegment, hsingle, hdouble, if_neg Bool.false_ne_true, if_neg Bool.false_ne_true]
  | segment :: next :: rest, path, h => by
      obtain ⟨hsingle, hdouble⟩ := h segment (.head _)
      rw [resolve, resolve_undotted fun s hs => h s (.tail _ hs), endSegment, hsingle, hdouble,
        if_neg Bool.false_ne_true, if_neg Bool.false_ne_true, List.append_assoc]
      rfl

theorem mem_piece {sep : ℕ} : ∀ {t s : Text} {u : ℕ}, s ∈ split sep t → u ∈ s → u ∈ t ∧ u ≠ sep
  | [], s, u, hs, hu => by
      obtain rfl := List.mem_singleton.mp hs
      cases hu
  | c :: t, s, u, hs, hu => by
      have hlater : s ∈ split sep t → u ∈ c :: t ∧ u ≠ sep := by
        intro hs
        obtain ⟨hmem, hne⟩ := mem_piece hs hu
        exact ⟨.tail _ hmem, hne⟩
      unfold split at hs
      split at hs
      · rcases List.mem_cons.mp hs with rfl | hs
        · cases hu
        · exact hlater hs
      · rename_i hc
        cases hsplit : split sep t with
        | nil => exact absurd hsplit (split_ne_nil t)
        | cons head tail =>
          rw [hsplit] at hs hlater
          rcases List.mem_cons.mp hs with rfl | hs
          · rcases List.mem_cons.mp hu with rfl | hu
            · exact ⟨.head _, hc⟩
            · obtain ⟨hmem, hne⟩ := mem_piece (hsplit ▸ List.mem_cons_self) hu
              exact ⟨.tail _ hmem, hne⟩
          · exact hlater (.tail _ hs)

theorem harmless_of {set : ℕ → Bool} (h : ∀ u, u < 128 → isEscapeUnit u = true → set u = false) : Harmless set := by
  intro u hu
  refine h u ?_ hu
  simp only [isEscapeUnit, isDigit, Bool.or_eq_true, Bool.and_eq_true, decide_eq_true_eq, percent] at hu
  omega

theorem harmless_path : Harmless pathSet := harmless_of (by decide)

theorem harmless_query : Harmless specialQuerySet := harmless_of (by decide)

theorem harmless_fragment : Harmless fragmentSet := harmless_of (by decide)

theorem notMem_escape {set : ℕ → Bool} (hset : Harmless set) {cs : List ℕ} {u : ℕ} (hu : isEscapeUnit u = false)
    (h : u ∉ cs) : u ∉ escape set cs := by
  intro hmem
  rcases (mem_escape hset hmem).2 with hin | hescape
  · exact h hin
  · rw [hu] at hescape
    cases hescape

theorem mem_fragmentPart {cs f : List ℕ} (h : fragmentPart cs = some f) {u : ℕ} (hu : u ∈ f) : u ∈ cs := by
  unfold fragmentPart at h
  split at h
  · cases h
  · rename_i hdrop
    obtain rfl := Option.some.inj h
    have hrest : u ∈ cs.dropWhile (· ≠ numberSign) := by
      rw [hdrop]
      exact .tail _ hu
    exact List.dropWhile_subset _ hrest

theorem mem_queryPart {cs q : List ℕ} (h : queryPart cs = some q) {u : ℕ} (hu : u ∈ q) : u ∈ cs := by
  unfold queryPart at h
  split at h
  · cases h
  · rename_i hdrop
    split at h
    · obtain rfl := Option.some.inj h
      have hrest : u ∈ cs.dropWhile isPathPoint := by
        rw [hdrop]
        exact .tail _ (List.takeWhile_subset _ hu)
      exact List.dropWhile_subset _ hrest
    · cases h

theorem written_pathState {cs : List ℕ} (hback : backslash ∉ cs) : (pathState cs [] []).Written := by
  have hread := pathState_eq cs [] [] hback List.not_mem_nil
  rw [List.map_nil, show escape pathSet [] = [] from rfl, List.nil_append] at hread
  rw [hread]
  have hback' : isEscapeUnit backslash = false := rfl
  refine ⟨?_, ?_, ?_, ?_, ?_⟩
  · intro hnil
    exact resolve_ne_nil _ [] (split_ne_nil _) (List.map_eq_nil_iff.mp hnil)
  · intro s hs u hu
    obtain ⟨t, ht, rfl⟩ := List.mem_map.mp hs
    have hunits : slash ∉ t ∧ backslash ∉ t := by
      rcases mem_resolve _ _ ht with ht | ⟨rfl | ht, _⟩
      · cases ht
      · exact ⟨List.not_mem_nil, List.not_mem_nil⟩
      · exact ⟨fun h => (mem_piece ht h).2 rfl, fun h => hback (List.takeWhile_subset _ (mem_piece ht h).1)⟩
    refine ⟨(mem_escape harmless_path hu).1, ?_, ?_⟩
    · intro heq
      exact notMem_escape harmless_path rfl hunits.1 (heq ▸ hu)
    · intro heq
      exact notMem_escape harmless_path hback' hunits.2 (heq ▸ hu)
  · intro s hs
    obtain ⟨t, ht, rfl⟩ := List.mem_map.mp hs
    rcases mem_resolve _ _ ht with ht | ⟨_, hsingle, hdouble⟩
    · cases ht
    · exact ⟨(isSingleDot_escape t).trans hsingle, (isDoubleDot_escape t).trans hdouble⟩
  · intro q hq u hu
    obtain ⟨t, ht, rfl⟩ := Option.map_eq_some_iff.mp hq
    refine ⟨(mem_escape harmless_query hu).1, ?_⟩
    intro heq
    exact notMem_escape harmless_query hback' (fun h => hback (mem_queryPart ht h)) (heq ▸ hu)
  · intro f hf u hu
    obtain ⟨t, ht, rfl⟩ := Option.map_eq_some_iff.mp hf
    refine ⟨(mem_escape harmless_fragment hu).1, ?_⟩
    intro heq
    exact notMem_escape harmless_fragment hback' (fun h => hback (mem_fragmentPart ht h)) (heq ▸ hu)

/-! ## Parsing it again -/

theorem pathname_eq : ∀ {path : List Text}, path ≠ [] → path.flatMap (slash :: ·) = slash :: join slash path
  | [], h => absurd rfl h
  | [s], _ => List.append_nil _
  | s :: t :: rest, _ => by
      rw [List.flatMap_cons, pathname_eq (List.cons_ne_nil t rest), join]
      rfl

def unlessEmpty : Option Text → Option Text
  | none => none
  | some text => if text = [] then none else some text

def Parts.trimmed (parts : Parts) : Parts := ⟨parts.path, unlessEmpty parts.query, unlessEmpty parts.fragment⟩

theorem marked_unlessEmpty (mark : ℕ) (part : Option Text) : marked mark (unlessEmpty part) = marked mark part := by
  cases part with
  | none => rfl
  | some text =>
    by_cases h : text = []
    · simp [unlessEmpty, marked, h]
    · simp [unlessEmpty, marked, h]

theorem trimmed_text (parts : Parts) : parts.trimmed.text = parts.text := by
  unfold Parts.text Parts.search Parts.hash Parts.pathname Parts.trimmed
  rw [marked_unlessEmpty, marked_unlessEmpty]

theorem marked_cases (mark : ℕ) (part : Option Text) :
    (marked mark part = [] ∧ unlessEmpty part = none) ∨
      ∃ text, marked mark part = mark :: text ∧ unlessEmpty part = some text ∧ part = some text := by
  cases part with
  | none => exact .inl ⟨rfl, rfl⟩
  | some text =>
    by_cases h : text = []
    · exact .inl (by simp [marked, unlessEmpty, h])
    · exact .inr ⟨text, by simp [marked, unlessEmpty, h]⟩

def Parts.rest (parts : Parts) : Text := join slash parts.path ++ (parts.search ++ parts.hash)

theorem Parts.Written.text_eq {parts : Parts} (h : parts.Written) : parts.text = slash :: parts.rest := by
  rw [Parts.text, Parts.pathname, pathname_eq h.nonempty, Parts.rest, List.append_assoc]
  rfl

theorem mem_join_sep {sep u : ℕ} : ∀ {l : List Text}, u ∈ join sep l → u = sep ∨ ∃ s ∈ l, u ∈ s
  | [s], h => .inr ⟨s, .head _, h⟩
  | s :: t :: rest, h => by
      rcases List.mem_append.mp h with h | h
      · exact .inr ⟨s, .head _, h⟩
      rcases List.mem_cons.mp h with rfl | h
      · exact .inl rfl
      rcases mem_join_sep h with rfl | ⟨v, hv, hu⟩
      · exact .inl rfl
      · exact .inr ⟨v, .tail _ hv, hu⟩

theorem mem_marked {mark u : ℕ} {part : Option Text} (h : u ∈ marked mark part) :
    u = mark ∨ ∃ text, part = some text ∧ u ∈ text := by
  cases part with
  | none => cases h
  | some text =>
    unfold marked at h
    dsimp only at h
    split at h
    · cases h
    · exact (List.mem_cons.mp h).imp_right fun hu => ⟨text, rfl, hu⟩

def Visible (u : ℕ) : Prop := 0x20 < u ∧ u < 0x7F ∧ u ≠ backslash

theorem visible_of {u : ℕ} (hcontrol : controlSet u = false) (hspace : u ≠ 0x20) (hback : u ≠ backslash) : Visible u := by
  simp only [controlSet, Bool.or_eq_false_iff, decide_eq_false_iff_not] at hcontrol
  exact ⟨by omega, by omega, hback⟩

section Written

variable {parts : Parts} (h : parts.Written)

include h

theorem Parts.Written.visible {u : ℕ} (hu : u ∈ parts.rest) : Visible u := by
  have hmarks : Visible slash ∧ Visible question ∧ Visible numberSign := by
    refine ⟨⟨?_, ?_, ?_⟩, ⟨?_, ?_, ?_⟩, ⟨?_, ?_, ?_⟩⟩ <;> decide
  rcases List.mem_append.mp hu with hu | hu
  · rcases mem_join_sep hu with rfl | ⟨s, hs, hu⟩
    · exact hmarks.1
    · obtain ⟨hplain, _, hback⟩ := h.segments s hs u hu
      simp only [pathSet, querySet, Bool.or_eq_false_iff] at hplain
      refine visible_of hplain.1.1 ?_ hback
      intro heq
      rw [heq] at hplain
      exact absurd hplain.1.2 (by decide)
  rcases List.mem_append.mp hu with hu | hu
  · rcases mem_marked hu with rfl | ⟨q, hq, hu⟩
    · exact hmarks.2.1
    · obtain ⟨hplain, hback⟩ := h.query q hq u hu
      simp only [specialQuerySet, querySet, Bool.or_eq_false_iff] at hplain
      refine visible_of hplain.1.1 ?_ hback
      intro heq
      rw [heq] at hplain
      exact absurd hplain.1.2 (by decide)
  · rcases mem_marked hu with rfl | ⟨f, hf, hu⟩
    · exact hmarks.2.2
    · obtain ⟨hplain, hback⟩ := h.fragment f hf u hu
      simp only [fragmentSet, Bool.or_eq_false_iff] at hplain
      refine visible_of hplain.1 ?_ hback
      intro heq
      rw [heq] at hplain
      exact absurd hplain.2 (by decide)

theorem Parts.Written.join_point {u : ℕ} (hu : u ∈ join slash parts.path) : isPathPoint u = true := by
  rcases mem_join_sep hu with rfl | ⟨s, hs, hu⟩
  · rfl
  · have hplain := (h.segments s hs u hu).1
    simp only [isPathPoint, Bool.and_eq_true, decide_eq_true_eq, ne_eq]
    refine ⟨?_, ?_⟩
    · intro heq
      rw [heq] at hplain
      cases hplain
    · intro heq
      rw [heq] at hplain
      cases hplain

theorem Parts.Written.cut : pathPart parts.rest = join slash parts.path ∧
    parts.rest.dropWhile isPathPoint = parts.search ++ parts.hash := by
  have hmarks : (parts.search ++ parts.hash).takeWhile isPathPoint = [] ∧
      (parts.search ++ parts.hash).dropWhile isPathPoint = parts.search ++ parts.hash := by
    unfold Parts.search Parts.hash
    rcases marked_cases question parts.query with ⟨hq, _⟩ | ⟨q, hq, _⟩
    · rcases marked_cases numberSign parts.fragment with ⟨hf, _⟩ | ⟨f, hf, _⟩
      · rw [hq, hf]
        exact ⟨rfl, rfl⟩
      · rw [hq, hf]
        exact ⟨rfl, rfl⟩
    · rw [hq]
      exact ⟨rfl, rfl⟩
  have hpoints : ∀ u ∈ join slash parts.path, isPathPoint u = true := fun u hu => h.join_point hu
  refine ⟨?_, ?_⟩
  · rw [pathPart, Parts.rest, List.takeWhile_append_of_pos hpoints, hmarks.1, List.append_nil]
  · rw [Parts.rest, List.dropWhile_append_of_pos hpoints, hmarks.2]

theorem Parts.Written.query_hash {q : Text} (hq : parts.query = some q) {u : ℕ} (hu : u ∈ q) : u ≠ numberSign := by
  intro heq
  have hplain := (h.query q hq u hu).1
  rw [heq] at hplain
  cases hplain

theorem Parts.Written.queryPart_eq : queryPart parts.rest = unlessEmpty parts.query := by
  rw [queryPart, h.cut.2, Parts.search, Parts.hash]
  rcases marked_cases question parts.query with ⟨hq, hnone⟩ | ⟨q, hq, hsome, hpart⟩
  · rw [hq, hnone]
    rcases marked_cases numberSign parts.fragment with ⟨hf, _⟩ | ⟨f, hf, _⟩
    · rw [hf]
      rfl
    · rw [hf]
      rfl
  · have hpoints : ∀ u ∈ q, decide (u ≠ numberSign) = true := fun u hu => by simpa using h.query_hash hpart hu
    rw [hq, hsome]
    dsimp only [List.cons_append]
    rw [if_pos rfl, List.takeWhile_append_of_pos hpoints]
    rcases marked_cases numberSign parts.fragment with ⟨hf, _⟩ | ⟨f, hf, _⟩
    · rw [hf]
      simp
    · rw [hf]
      simp

theorem Parts.Written.fragmentPart_eq : fragmentPart parts.rest = unlessEmpty parts.fragment := by
  have hjoin : ∀ u ∈ join slash parts.path, decide (u ≠ numberSign) = true := by
    intro u hu
    have hpoint := h.join_point hu
    simp only [isPathPoint, Bool.and_eq_true, decide_eq_true_eq] at hpoint
    simpa using hpoint.2
  have hsearch : ∀ u ∈ parts.search, decide (u ≠ numberSign) = true := by
    unfold Parts.search
    rcases marked_cases question parts.query with ⟨hq, _⟩ | ⟨q, hq, _, hpart⟩
    · rw [hq]
      nofun
    · rw [hq]
      intro u hu
      rcases List.mem_cons.mp hu with rfl | hu
      · rfl
      · simpa using h.query_hash hpart hu
  rw [fragmentPart, Parts.rest, List.dropWhile_append_of_pos hjoin, List.dropWhile_append_of_pos hsearch, Parts.hash]
  rcases marked_cases numberSign parts.fragment with ⟨hf, hnone⟩ | ⟨f, hf, hsome, _⟩
  · rw [hf, hnone]
    rfl
  · rw [hf, hsome]
    rfl

theorem Parts.Written.parse_rest : pathState parts.rest [] [] = parts.trimmed := by
  have hback : backslash ∉ parts.rest := fun hmem => (h.visible hmem).2.2 rfl
  have hread := pathState_eq parts.rest [] [] hback List.not_mem_nil
  have hslash : ∀ s ∈ parts.path, slash ∉ s := fun s hs hmem => (h.segments s hs slash hmem).2.1 rfl
  have hescape : parts.path.map (escape pathSet) = parts.path := by
    conv_rhs => rw [← List.map_id parts.path]
    refine List.map_congr_left ?_
    intro s hs
    exact escape_of_plain fun u hu => (h.segments s hs u hu).1
  have hquery : (unlessEmpty parts.query).map (escape specialQuerySet) = unlessEmpty parts.query := by
    rcases marked_cases question parts.query with ⟨_, hnone⟩ | ⟨q, _, hsome, hpart⟩
    · rw [hnone]
      rfl
    · rw [hsome, Option.map_some, escape_of_plain fun u hu => (h.query q hpart u hu).1]
  have hfragment : (unlessEmpty parts.fragment).map (escape fragmentSet) = unlessEmpty parts.fragment := by
    rcases marked_cases numberSign parts.fragment with ⟨_, hnone⟩ | ⟨f, _, hsome, hpart⟩
    · rw [hnone]
      rfl
    · rw [hsome, Option.map_some, escape_of_plain fun u hu => (h.fragment f hpart u hu).1]
  rw [List.map_nil, show escape pathSet [] = [] from rfl, List.nil_append, h.cut.1, split_join h.nonempty hslash,
    partsOf, resolve_undotted h.undotted, List.nil_append, hescape, h.queryPart_eq, h.fragmentPart_eq, hquery,
    hfragment] at hread
  exact hread

end Written

/-! ## A reference of visible characters -/

theorem points_cons {u : ℕ} (hu : isHighSurrogate u = false) (rest : Text) : points (u :: rest) = scalar u :: points rest := by
  cases rest with
  | nil => rfl
  | cons v rest =>
    rw [points, hu, Bool.false_and, if_neg Bool.false_ne_true]

theorem mem_points : ∀ (t : Text) {c : ℕ}, c ∈ points t → c ∈ t ∨ 0xFFFD ≤ c
  | [], _, h => .inl h
  | [u], c, h => by
      obtain rfl := List.mem_singleton.mp h
      unfold scalar
      split
      · exact .inr (le_refl _)
      · exact .inl (.head _)
  | u :: v :: rest, c, h => by
      unfold points at h
      split at h
      · rcases List.mem_cons.mp h with hc | h
        · refine .inr ?_
          omega
        · exact (mem_points rest h).imp_left fun h => .tail _ (.tail _ h)
      · rcases List.mem_cons.mp h with rfl | h
        · unfold scalar
          split
          · exact .inr (le_refl _)
          · exact .inl (.head _)
        · exact (mem_points (v :: rest) h).imp_left (.tail _)

theorem head_points : ∀ {t : Text} {c : ℕ}, (points t).head? = some c → c < 0xFFFD → t.head? = some c
  | [], _, h, _ => h
  | [u], c, h, hc => by
      have hu : scalar u = c := Option.some.inj h
      unfold scalar at hu
      split at hu
      · omega
      · rw [hu]
        rfl
  | u :: v :: rest, c, h, hc => by
      unfold points at h
      split at h
      · have hu := Option.some.inj h
        omega
      · have hu : scalar u = c := Option.some.inj h
        unfold scalar at hu
        split at hu
        · omega
        · rw [hu]
          rfl

theorem points_of_visible : ∀ {t : Text}, (∀ u ∈ t, Visible u) → points t = t
  | [], _ => rfl
  | u :: rest, h => by
      have hu := (h u (.head _)).2.1
      have hhigh : isHighSurrogate u = false := by
        simp only [isHighSurrogate, Bool.and_eq_false_iff, decide_eq_false_iff_not]
        omega
      have hlow : isLowSurrogate u = false := by
        simp only [isLowSurrogate, Bool.and_eq_false_iff, decide_eq_false_iff_not]
        omega
      rw [points_cons hhigh, points_of_visible fun v hv => h v (.tail _ hv), scalar, hhigh, hlow]
      rfl

theorem dropWhile_of_none {p : ℕ → Bool} {cs : List ℕ} (h : ∀ c ∈ cs, p c = false) : cs.dropWhile p = cs := by
  cases cs with
  | nil => rfl
  | cons c cs => exact List.dropWhile_cons_of_neg (by simp [h c (.head _)])

theorem cleaned_eq {cs : List ℕ} (h : ∀ c ∈ cs, 0x20 < c) : cleaned cs = cs := by
  have houter : ∀ c ∈ cs, isOuter c = false := by
    intro c hc
    have hlt := h c hc
    simp only [isOuter, decide_eq_false_iff_not]
    omega
  have hback : cs.reverse.dropWhile isOuter = cs.reverse :=
    dropWhile_of_none fun c hc => houter c (List.mem_reverse.mp hc)
  rw [cleaned, dropWhile_of_none houter, hback, List.reverse_reverse]
  refine List.filter_eq_self.mpr ?_
  intro c hc
  have hlt := h c hc
  simp only [isInner, Bool.not_eq_true', Bool.or_eq_false_iff, decide_eq_false_iff_not]
  omega

theorem newUrl_eq (elsewhere : Origin → List ℕ → Option Record) (base : Origin) {rest : Text}
    (hspace : ∀ u ∈ rest, 0x20 < u) (hback : backslash ∉ rest) (hslash : rest.head? ≠ some slash) :
    newUrl elsewhere base (slash :: rest) = some ⟨base, pathState (points rest) [] []⟩ := by
  have hpoints : points (slash :: rest) = slash :: points rest := points_cons (by decide) rest
  have hclean : ∀ c ∈ slash :: points rest, 0x20 < c := by
    intro c hc
    rcases List.mem_cons.mp hc with rfl | hc
    · decide
    · rcases mem_points rest hc with hc | hc
      · exact hspace c hc
      · omega
  have hhead : [some slash, some backslash].contains (points rest).head? = false := by
    have hfirst : (points rest).head? ≠ some slash := fun h => hslash (head_points h (by decide))
    have hsecond : (points rest).head? ≠ some backslash := fun h =>
      hback (List.mem_of_mem_head? (head_points h (by decide)))
    simp [hfirst, hsecond]
  rw [newUrl, hpoints, cleaned_eq hclean]
  dsimp only
  rw [hhead]
  rfl

end Albusforge.Lib.Url
