import Albusforge.Lib.Json
import Albusforge.Lib.Sorting

/-!
# JSON without the order of names

Two values are the same when they differ at most in the order in which their objects list
their members: `Same` says so position by position and name by name. Rewriting every object
in one order of its members decides it, whichever order that is (`arranged_eq_iff`); so **two
values have one canonical text exactly when they are the same** (`canonicalJson_eq_iff`), as long
as no object has a name twice.

An object does not keep the order in which its members were added. Names that are array
indices come first, by value, and only then the others as they were added, so the rewritten
object is still not in the order of its names; but it is in one order.
-/

namespace Albusforge.Lib.Json

variable {ν : Type}

/-! ## The same value -/

inductive Same : Json ν → Json ν → Prop where
  | null : Same null null
  | bool (b : Bool) : Same (bool b) (bool b)
  | num (n : ν) : Same (num n) (num n)
  | str (s : Text) : Same (str s) (str s)
  | arr {l l' : List (Json ν)} : l.length = l'.length →
      (∀ (i : ℕ) (j j' : Json ν), l[i]? = some j → l'[i]? = some j' → Same j j') → Same (arr l) (arr l')
  | obj {m m' : List (Text × Json ν)} : (∀ k, k ∈ m.map Prod.fst ↔ k ∈ m'.map Prod.fst) →
      (∀ k j j', (k, j) ∈ m → (k, j') ∈ m' → Same j j') → Same (obj m) (obj m')

mutual

def Distinct : Json ν → Prop
  | null | bool _ | num _ | str _ => True
  | arr items => AllDistinct items
  | obj members => (members.map Prod.fst).Nodup ∧ MembersDistinct members

def AllDistinct : List (Json ν) → Prop
  | [] => True
  | j :: items => Distinct j ∧ AllDistinct items

def MembersDistinct : List (Text × Json ν) → Prop
  | [] => True
  | (_, j) :: members => Distinct j ∧ MembersDistinct members
end

theorem allDistinct_iff : ∀ {l : List (Json ν)}, AllDistinct l ↔ ∀ j ∈ l, Distinct j
  | [] => by simp [AllDistinct]
  | j :: l => by rw [AllDistinct, allDistinct_iff, List.forall_mem_cons]

theorem membersDistinct_iff : ∀ {m : List (Text × Json ν)}, MembersDistinct m ↔ ∀ x ∈ m, Distinct x.2
  | [] => by simp [MembersDistinct]
  | (k, j) :: m => by rw [MembersDistinct, membersDistinct_iff, List.forall_mem_cons]

/-! ## Members in one order -/

structure Arranges (arrange : List (Text × Json ν) → List (Text × Json ν)) : Prop where
  perm : ∀ m, (arrange m).Perm m
  congr : ∀ m m' : List (Text × Json ν), (m.map Prod.fst).Nodup → m.Perm m' → arrange m = arrange m'

section Arranged

variable (arrange : List (Text × Json ν) → List (Text × Json ν))

mutual

/-- Every object with its members arranged. Members are arranged by name alone, so it is all the same
whether their values are rewritten before or after. -/
def arranged : Json ν → Json ν
  | null => null
  | bool b => bool b
  | num n => num n
  | str s => str s
  | arr items => arr (arrangedItems items)
  | obj members => obj (arrange (arrangedMembers members))

def arrangedItems : List (Json ν) → List (Json ν)
  | [] => []
  | j :: items => arranged j :: arrangedItems items

def arrangedMembers : List (Text × Json ν) → List (Text × Json ν)
  | [] => []
  | (k, j) :: members => (k, arranged j) :: arrangedMembers members
end

theorem arrangedItems_eq : ∀ l : List (Json ν), arrangedItems arrange l = l.map (arranged arrange)
  | [] => rfl
  | j :: l => by rw [arrangedItems, arrangedItems_eq l, List.map_cons]

theorem arrangedMembers_eq : ∀ m : List (Text × Json ν),
    arrangedMembers arrange m = m.map fun x => (x.1, arranged arrange x.2)
  | [] => rfl
  | (k, j) :: m => by rw [arrangedMembers, arrangedMembers_eq m, List.map_cons]

theorem arrangedMembers_names (m : List (Text × Json ν)) :
    (arrangedMembers arrange m).map Prod.fst = m.map Prod.fst := by
  rw [arrangedMembers_eq, List.map_map]
  rfl

end Arranged

theorem eq_of_name {m : List (Text × Json ν)} (hnd : (m.map Prod.fst).Nodup) {k : Text} {j j' : Json ν}
    (h : (k, j) ∈ m) (h' : (k, j') ∈ m) : j = j' :=
  congrArg Prod.snd (List.inj_on_of_nodup_map hnd h h' rfl)

section

variable {arrange : List (Text × Json ν) → List (Text × Json ν)}

/-- **Values that are the same are rewritten alike.** -/
theorem Same.arranged_eq (harrange : Arranges arrange) {a b : Json ν} (h : Same a b) (ha : Distinct a)
    (hb : Distinct b) : arranged arrange a = arranged arrange b := by
  induction h with
  | null => rfl
  | bool b => rfl
  | num n => rfl
  | str s => rfl
  | @arr l l' hlen _ ih =>
    rw [arranged, arranged, arrangedItems_eq, arrangedItems_eq]
    congr 1
    rw [Distinct, allDistinct_iff] at ha hb
    apply List.ext_getElem?
    intro i
    rw [List.getElem?_map, List.getElem?_map]
    cases hi : l[i]? with
    | none =>
      have hnone : l'[i]? = none := by
        rw [List.getElem?_eq_none_iff] at hi ⊢
        omega
      rw [hnone]
    | some j =>
      have hlt : i < l'.length := by
        have := (List.getElem?_eq_some_iff.mp hi).1
        omega
      have hi' : l'[i]? = some l'[i] := List.getElem?_eq_getElem hlt
      rw [hi', Option.map_some, Option.map_some,
        ih i j _ hi hi' (ha j (List.mem_of_getElem? hi)) (hb _ (List.getElem_mem hlt))]
  | @obj m m' hnames _ ih =>
    rw [Distinct, membersDistinct_iff] at ha hb
    rw [arranged, arranged]
    congr 1
    have hnd : ((arrangedMembers arrange m).map Prod.fst).Nodup := by rw [arrangedMembers_names]; exact ha.1
    have hnd' : ((arrangedMembers arrange m').map Prod.fst).Nodup := by rw [arrangedMembers_names]; exact hb.1
    refine harrange.congr _ _ hnd ?_
    rw [List.perm_ext_iff_of_nodup (List.Nodup.of_map _ hnd) (List.Nodup.of_map _ hnd')]
    intro x
    rw [arrangedMembers_eq, arrangedMembers_eq, List.mem_map, List.mem_map]
    constructor
    · intro h
      obtain ⟨⟨k, j⟩, hj, rfl⟩ := h
      obtain ⟨⟨k', j'⟩, hj', rfl⟩ := List.mem_map.mp ((hnames k).mp (List.mem_map_of_mem hj))
      exact ⟨(k', j'), hj', by rw [ih k' j j' hj hj' (ha.2 _ hj) (hb.2 _ hj')]⟩
    · intro h
      obtain ⟨⟨k, j'⟩, hj', rfl⟩ := h
      obtain ⟨⟨k', j⟩, hj, rfl⟩ := List.mem_map.mp ((hnames k).mpr (List.mem_map_of_mem hj'))
      exact ⟨(k', j), hj, by rw [ih k' j j' hj hj' (ha.2 _ hj) (hb.2 _ hj')]⟩

theorem members_alike (harrange : Arranges arrange) {m m' : List (Text × Json ν)}
    (hnd : (m'.map Prod.fst).Nodup)
    (h : arrange (arrangedMembers arrange m) = arrange (arrangedMembers arrange m')) :
    (∀ k, k ∈ m.map Prod.fst ↔ k ∈ m'.map Prod.fst) ∧
      ∀ k j j', (k, j) ∈ m → (k, j') ∈ m' → arranged arrange j = arranged arrange j' := by
  have hp : (arrangedMembers arrange m).Perm (arrangedMembers arrange m') :=
    (harrange.perm _).symm.trans (h ▸ harrange.perm _)
  constructor
  · intro k
    rw [← arrangedMembers_names arrange m, ← arrangedMembers_names arrange m']
    exact (hp.map Prod.fst).mem_iff
  · intro k j j' hj hj'
    have hmem : (k, arranged arrange j) ∈ arrangedMembers arrange m' := by
      rw [← hp.mem_iff, arrangedMembers_eq]
      exact List.mem_map.mpr ⟨(k, j), hj, rfl⟩
    rw [arrangedMembers_eq] at hmem
    obtain ⟨⟨k', j''⟩, hj'', heq⟩ := List.mem_map.mp hmem
    obtain ⟨rfl, harranged⟩ := Prod.mk.inj heq
    rw [← harranged, eq_of_name hnd hj'' hj']

mutual

theorem same_of_arranged (harrange : Arranges arrange) : ∀ {a b : Json ν}, Distinct b →
    arranged arrange a = arranged arrange b → Same a b
  | null, b, _, h => by
      cases b with
      | null => exact .null
      | _ => simp [arranged] at h
  | bool c, b, _, h => by
      cases b with
      | bool d =>
        obtain rfl : c = d := by simpa [arranged] using h
        exact .bool c
      | _ => simp [arranged] at h
  | num n, b, _, h => by
      cases b with
      | num n' =>
        obtain rfl : n = n' := by simpa [arranged] using h
        exact .num n
      | _ => simp [arranged] at h
  | str s, b, _, h => by
      cases b with
      | str s' =>
        obtain rfl : s = s' := by simpa [arranged] using h
        exact .str s
      | _ => simp [arranged] at h
  | arr items, b, hb, h => by
      cases b with
      | arr items' =>
        rw [arranged, arranged, arr.injEq] at h
        obtain ⟨hlen, hitems⟩ := same_items harrange hb h
        exact .arr hlen hitems
      | _ => simp [arranged] at h
  | obj members, b, hb, h => by
      cases b with
      | obj members' =>
        rw [arranged, arranged, obj.injEq] at h
        obtain ⟨hnd, hdistinct⟩ := hb
        obtain ⟨hnames, halike⟩ := members_alike harrange hnd h
        refine .obj hnames ?_
        intro k j j' hj hj'
        exact same_members harrange (k, j) hj (membersDistinct_iff.mp hdistinct _ hj') (halike k j j' hj hj')
      | _ => simp [arranged] at h

theorem same_items (harrange : Arranges arrange) : ∀ {l l' : List (Json ν)}, AllDistinct l' →
    arrangedItems arrange l = arrangedItems arrange l' →
    l.length = l'.length ∧ ∀ (i : ℕ) (j j' : Json ν), l[i]? = some j → l'[i]? = some j' → Same j j'
  | [], [], _, _ => by simp
  | [], j' :: l', _, h => by simp [arrangedItems] at h
  | j :: l, [], _, h => by simp [arrangedItems] at h
  | j :: l, j' :: l', hd, h => by
      rw [arrangedItems, arrangedItems, List.cons.injEq] at h
      obtain ⟨hlen, hrest⟩ := same_items harrange hd.2 h.2
      refine ⟨by rw [List.length_cons, List.length_cons, hlen], ?_⟩
      intro i a a' ha ha'
      cases i with
      | zero =>
        obtain rfl : j = a := by simpa using ha
        obtain rfl : j' = a' := by simpa using ha'
        exact same_of_arranged harrange hd.1 h.1
      | succ i => exact hrest i a a' (by simpa using ha) (by simpa using ha')

theorem same_members (harrange : Arranges arrange) : ∀ {m : List (Text × Json ν)} (x : Text × Json ν), x ∈ m →
    ∀ {b : Json ν}, Distinct b → arranged arrange x.2 = arranged arrange b → Same x.2 b
  | (k, j) :: m, x, hx, b, hb, h => by
      cases hx with
      | head => exact same_of_arranged harrange hb h
      | tail _ hx => exact same_members harrange x hx hb h
end

theorem arranged_eq_iff (harrange : Arranges arrange) {a b : Json ν} (ha : Distinct a) (hb : Distinct b) :
    arranged arrange a = arranged arrange b ↔ Same a b :=
  ⟨same_of_arranged harrange hb, fun h => h.arranged_eq harrange ha hb⟩

theorem stringify_arranged_eq_iff [NumberText ν] [LawfulText ν] (harrange : Arranges arrange) {a b : Json ν}
    (ha : Distinct a) (hb : Distinct b) :
    stringify (arranged arrange a) = stringify (arranged arrange b) ↔ Same a b := by
  rw [← arranged_eq_iff harrange ha hb]
  exact ⟨stringify_injective, congrArg stringify⟩

end

/-! ## The order of an object -/

/-- A name that is an array index: a decimal below `2 ** 32 - 1`. -/
def isIndex (k : Text) : Bool := k == decimal (parseDecimal k) && parseDecimal k < 4294967295

def ownOrder (members : List (Text × Json ν)) : List (Text × Json ν) :=
  sortBy (fun a b => compare (parseDecimal a.1) (parseDecimal b.1)) (members.filter fun m => isIndex m.1) ++
    members.filter fun m => !isIndex m.1

/-- `([a], [b]) => (a < b ? -1 : a > b ? 1 : 0)` -/
def byName (a b : Text × Json ν) : Ordering := compareText a.1 b.1

/-- `Object.fromEntries(Object.entries(current).sort(...))` -/
def reordered (members : List (Text × Json ν)) : List (Text × Json ν) := ownOrder (sortBy byName members)

mutual

/-- Every object with its members in one order. Entries are sorted by name alone, so it is all the
same whether their values are rewritten before or after. -/
def canonical : Json ν → Json ν
  | null => null
  | bool b => bool b
  | num n => num n
  | str s => str s
  | arr items => arr (canonicalItems items)
  | obj members => obj (reordered (canonicalMembers members))

def canonicalItems : List (Json ν) → List (Json ν)
  | [] => []
  | j :: items => canonical j :: canonicalItems items

def canonicalMembers : List (Text × Json ν) → List (Text × Json ν)
  | [] => []
  | (k, j) :: members => (k, canonical j) :: canonicalMembers members
end

/-- `canonicalJson(value)` -/
def canonicalJson [NumberText ν] (value : Json ν) : Text := stringify (canonical value)

theorem reordered_perm (m : List (Text × Json ν)) : (reordered m).Perm m := by
  unfold reordered ownOrder
  refine ((sortBy_perm _ _).append_right _).trans ?_
  exact (List.filter_append_perm _ _).trans (sortBy_perm _ _)

theorem reordered_congr {m m' : List (Text × Json ν)} (hnd : (m.map Prod.fst).Nodup) (hp : m.Perm m') :
    reordered m = reordered m' := by
  unfold reordered
  rw [show sortBy byName m = sortBy byName m' from
    sortBy_congr (compareText_on fun x : Text × Json ν => x.1) (Separates.of_nodup hnd) hp]

theorem reordered_arranges : Arranges (reordered (ν := ν)) := ⟨reordered_perm, fun _ _ => reordered_congr⟩

theorem byName_arranges : Arranges (sortBy (byName (ν := ν))) :=
  ⟨sortBy_perm _, fun _ _ hnd hp =>
    sortBy_congr (compareText_on fun x : Text × Json ν => x.1) (Separates.of_nodup hnd) hp⟩

mutual

theorem canonical_eq_arranged : ∀ j : Json ν, canonical j = arranged reordered j
  | null => rfl
  | bool _ => rfl
  | num _ => rfl
  | str _ => rfl
  | arr items => by rw [canonical, arranged, canonicalItems_eq_arranged items]
  | obj members => by rw [canonical, arranged, canonicalMembers_eq_arranged members]

theorem canonicalItems_eq_arranged : ∀ l : List (Json ν), canonicalItems l = arrangedItems reordered l
  | [] => rfl
  | j :: l => by rw [canonicalItems, arrangedItems, canonical_eq_arranged j, canonicalItems_eq_arranged l]

theorem canonicalMembers_eq_arranged : ∀ m : List (Text × Json ν),
    canonicalMembers m = arrangedMembers reordered m
  | [] => rfl
  | (k, j) :: m => by rw [canonicalMembers, arrangedMembers, canonical_eq_arranged j, canonicalMembers_eq_arranged m]
end

theorem canonical_eq_iff {a b : Json ν} (ha : Distinct a) (hb : Distinct b) :
    canonical a = canonical b ↔ Same a b := by
  rw [canonical_eq_arranged, canonical_eq_arranged, arranged_eq_iff reordered_arranges ha hb]

theorem canonicalJson_eq_iff [NumberText ν] [LawfulText ν] {a b : Json ν} (ha : Distinct a) (hb : Distinct b) :
    canonicalJson a = canonicalJson b ↔ Same a b := by
  rw [← canonical_eq_iff ha hb]
  exact ⟨stringify_injective, congrArg stringify⟩

theorem Same.refl {a : Json ν} (ha : Distinct a) : Same a a := (canonical_eq_iff ha ha).mp rfl

theorem Same.symm {a b : Json ν} (ha : Distinct a) (hb : Distinct b) (h : Same a b) : Same b a :=
  (canonical_eq_iff hb ha).mp ((canonical_eq_iff ha hb).mpr h).symm

theorem Same.trans {a b c : Json ν} (ha : Distinct a) (hb : Distinct b) (hc : Distinct c) (h : Same a b)
    (h' : Same b c) : Same a c :=
  (canonical_eq_iff ha hc).mp (((canonical_eq_iff ha hb).mpr h).trans ((canonical_eq_iff hb hc).mpr h'))

end Albusforge.Lib.Json
