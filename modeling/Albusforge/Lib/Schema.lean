import Albusforge.Lib.JsonCanonical

/-!
# Schemas and the order of names

A schema reads the members of an object by their names. So **it reads the same out of values that are the
same**, whatever order their members come in: each check does (`Blind`), and so does what is put together of
checks that do. Only a record has names of its own, and it keeps the order in which it finds them.
-/

namespace Albusforge.Lib.Json

variable {ν α β : Type}

/-- `z.boolean()` -/
def boolean : Json ν → Option Bool
  | bool b => some b
  | _ => none

def nullable (check : Json ν → Option α) : Json ν → Option (Option α)
  | null => some none
  | j => (check j).map some

/-- `z.record(z.string().regex(…), item)` -/
def record (name : Text → Bool) (item : Json ν → Option α) : Json ν → Option (List (Text × α))
  | obj members => members.mapM fun m => if name m.1 then (item m.2).map (Prod.mk m.1) else none
  | _ => none

/-- The member by which a `z.discriminatedUnion` chooses. -/
def discriminator (name : Text) : Json ν → Option Text
  | obj members => member members name (string fun _ => true)
  | _ => none

/-! ## Results that are related -/

section Related

variable {R : α → α → Prop} {S : β → β → Prop}

theorem rel_eq (x : Option α) : Option.Rel Eq x x := by
  cases x with
  | none => exact .none
  | some a => exact .some rfl

theorem eq_of_rel {x y : Option α} (h : Option.Rel Eq x y) : x = y := by
  cases h with
  | none => rfl
  | some h => rw [h]

theorem rel_bind {x y : Option α} {f g : α → Option β} (h : Option.Rel R x y)
    (hfg : ∀ a b, R a b → Option.Rel S (f a) (g b)) : Option.Rel S (x.bind f) (y.bind g) := by
  cases h with
  | none => exact .none
  | some hab => exact hfg _ _ hab

theorem rel_bind_eq {x y : Option α} {f g : α → Option β} (h : Option.Rel Eq x y)
    (hfg : ∀ a, Option.Rel S (f a) (g a)) : Option.Rel S (x.bind f) (y.bind g) := by
  rw [eq_of_rel h]
  cases y with
  | none => exact .none
  | some a => exact hfg a

theorem rel_imp {S : α → α → Prop} {x y : Option α} (h : Option.Rel R x y) (hRS : ∀ a b, R a b → S a b) :
    Option.Rel S x y := by
  cases h with
  | none => exact .none
  | some hab => exact .some (hRS _ _ hab)

theorem rel_map {x y : Option α} {f g : α → β} (h : Option.Rel R x y) (hfg : ∀ a b, R a b → S (f a) (g b)) :
    Option.Rel S (x.map f) (y.map g) := by
  cases h with
  | none => exact .none
  | some hab => exact .some (hfg _ _ hab)

theorem rel_filter {x y : Option α} {p : α → Bool} (h : Option.Rel R x y) (hp : ∀ a b, R a b → p a = p b) :
    Option.Rel R (x.filter p) (y.filter p) := by
  cases h with
  | none => exact .none
  | @some a b hab =>
    rw [Option.filter_some, Option.filter_some, hp a b hab]
    split
    · exact .some hab
    · exact .none

theorem rel_trans (htrans : ∀ a b c, R a b → R b c → R a c) {x y z : Option α} (h : Option.Rel R x y)
    (h' : Option.Rel R y z) : Option.Rel R x z := by
  cases h with
  | none => exact h'
  | some hab =>
    cases h' with
    | some hbc => exact .some (htrans _ _ _ hab hbc)

theorem rel_mapM {γ : Type} {f : γ → Option α} {l l' : List γ}
    (h : List.Forall₂ (fun a b => Option.Rel R (f a) (f b)) l l') :
    Option.Rel (List.Forall₂ R) (l.mapM f) (l'.mapM f) := by
  induction h with
  | nil => exact .some .nil
  | cons hhead _ ih =>
    rw [List.mapM_cons, List.mapM_cons]
    refine rel_bind hhead fun a b hab => rel_bind ih fun as bs habs => ?_
    exact .some (.cons hab habs)

theorem perm_mapM {γ : Type} {f : γ → Option α} {l l' : List γ} (h : (l.map f).Perm (l'.map f)) :
    Option.Rel List.Perm (l.mapM f) (l'.mapM f) := by
  have hid : ∀ {xs ys : List (Option α)}, xs.Perm ys → Option.Rel List.Perm (xs.mapM id) (ys.mapM id) := by
    intro xs ys hperm
    induction hperm with
    | nil => exact .some (List.Perm.refl [])
    | @cons x _ _ _ ih =>
      rw [List.mapM_cons, List.mapM_cons]
      refine rel_bind (rel_eq (id x)) fun a b hab => rel_bind ih fun as bs habs => ?_
      exact .some (hab ▸ habs.cons a)
    | swap x y l =>
      simp only [List.mapM_cons]
      cases x with
      | none =>
        cases y with
        | none => exact .none
        | some b => exact .none
      | some a =>
        cases y with
        | none => exact .none
        | some b =>
          cases hrest : l.mapM id with
          | none => exact .none
          | some as => exact .some (List.Perm.swap a b as)
    | trans _ _ ih ih' => exact rel_trans (fun _ _ _ h h' => h.trans h') ih ih'
  have hmap : ∀ m : List γ, m.mapM f = (m.map f).mapM id := by
    intro m
    rw [List.mapM_map]
    rfl
  rw [hmap, hmap]
  exact hid h

end Related

/-! ## Checks that do not see the order -/

structure SameMembers (m m' : List (Text × Json ν)) : Prop where
  same : Same (obj m) (obj m')
  left : Distinct (obj m)
  right : Distinct (obj m')

def Blind (R : α → α → Prop) (check : Json ν → Option α) : Prop :=
  ∀ j j', Distinct j → Distinct j' → Same j j' → Option.Rel R (check j) (check j')

theorem mem_of_lookup {m : List (Text × α)} {k : Text} {a : α} (h : m.lookup k = some a) : (k, a) ∈ m := by
  obtain ⟨l, l', rfl, -⟩ := List.lookup_eq_some_iff.mp h
  exact List.mem_append_right l (List.mem_cons_self ..)

theorem lookup_of_mem {m : List (Text × α)} (hnd : (m.map Prod.fst).Nodup) {k : Text} {a : α} (h : (k, a) ∈ m) :
    m.lookup k = some a := by
  cases hk : m.lookup k with
  | none => exact absurd rfl (bne_iff_ne.mp (List.lookup_eq_none_iff.mp hk _ h))
  | some b =>
    have hsame : (k, b) = (k, a) := List.inj_on_of_nodup_map hnd (mem_of_lookup hk) h rfl
    rw [(Prod.mk.inj hsame).2]

theorem SameMembers.lookup {m m' : List (Text × Json ν)} (h : SameMembers m m') (k : Text) :
    Option.Rel (fun j j' => Distinct j ∧ Distinct j' ∧ Same j j') (m.lookup k) (m'.lookup k) := by
  obtain ⟨hsame, hleft, hright⟩ := h
  have hnames : ∀ {n : List (Text × Json ν)}, n.lookup k = none ↔ k ∉ n.map Prod.fst := by
    intro n
    rw [List.lookup_eq_none_iff, List.mem_map]
    constructor
    · intro hno ⟨x, hx, hk⟩
      have hne := hno x hx
      rw [hk] at hne
      exact absurd hne (by simp)
    · intro hno x hx
      simp only [bne_iff_ne]
      exact fun hk => hno ⟨x, hx, hk.symm⟩
  cases hsame with
  | obj hsame hvalues =>
    cases hm : m.lookup k with
    | none =>
      rw [hnames.mpr fun hk => hnames.mp hm ((hsame k).mpr hk)]
      exact .none
    | some j =>
      cases hm' : m'.lookup k with
      | none =>
        have hk : k ∈ m.map Prod.fst := List.mem_map_of_mem (mem_of_lookup hm)
        exact absurd ((hsame k).mp hk) (hnames.mp hm')
      | some j' =>
        have hj := mem_of_lookup hm
        have hj' := mem_of_lookup hm'
        exact .some ⟨membersDistinct_iff.mp hleft.2 _ hj, membersDistinct_iff.mp hright.2 _ hj', hvalues k j j' hj hj'⟩

theorem SameMembers.member {R : α → α → Prop} {m m' : List (Text × Json ν)} (h : SameMembers m m') (k : Text)
    {check : Json ν → Option α} (hcheck : Blind R check) :
    Option.Rel R (member m k check) (member m' k check) :=
  rel_bind (h.lookup k) fun j j' hj => hcheck j j' hj.1 hj.2.1 hj.2.2

theorem SameMembers.optionalMember {R : α → α → Prop} {m m' : List (Text × Json ν)} (h : SameMembers m m') (k : Text)
    {check : Json ν → Option α} (hcheck : Blind R check) :
    Option.Rel (Option.Rel R) (optionalMember m k check) (optionalMember m' k check) := by
  have hlookup := h.lookup k
  unfold Json.optionalMember
  generalize m.lookup k = x at hlookup
  generalize m'.lookup k = y at hlookup
  cases hlookup with
  | none => exact .some .none
  | @some j j' hj => exact rel_map (hcheck j j' hj.1 hj.2.1 hj.2.2) fun _ _ hab => .some hab

theorem SameMembers.optional_eq {m m' : List (Text × Json ν)} (h : SameMembers m m') (k : Text)
    {check : Json ν → Option α} (hcheck : Blind Eq check) :
    Option.Rel Eq (Json.optionalMember m k check) (Json.optionalMember m' k check) :=
  rel_imp (h.optionalMember k hcheck) fun _ _ => eq_of_rel

theorem Blind.filter {R : α → α → Prop} {check : Json ν → Option α} (h : Blind R check) {p : α → Bool}
    (hp : ∀ a b, R a b → p a = p b) : Blind R fun j => (check j).filter p := by
  intro j j' hj hj' hsame
  exact rel_filter (h j j' hj hj' hsame) hp

theorem blind_scalar {check : Json ν → Option α} (harr : ∀ l, check (arr l) = none)
    (hobj : ∀ m, check (obj m) = none) : Blind Eq check := by
  intro j j' _ _ h
  cases h with
  | null => exact rel_eq _
  | bool b => exact rel_eq _
  | num n => exact rel_eq _
  | str s => exact rel_eq _
  | arr => rw [harr, harr]; exact .none
  | obj => rw [hobj, hobj]; exact .none

theorem blind_string (check : Text → Bool) : Blind Eq (string check : Json ν → Option Text) :=
  blind_scalar (fun _ => rfl) fun _ => rfl

theorem blind_boolean : Blind Eq (boolean : Json ν → Option Bool) := blind_scalar (fun _ => rfl) fun _ => rfl

theorem blind_integer [JsonNumber ν] (lo hi : ℤ) : Blind Eq (integer lo hi : Json ν → Option ℤ) :=
  blind_scalar (fun _ => rfl) fun _ => rfl

theorem blind_finite [JsonNumber ν] : Blind Eq (finite : Json ν → Option ν) :=
  blind_scalar (fun _ => rfl) fun _ => rfl

theorem Blind.nullable {check : Json ν → Option α} (h : Blind Eq check) : Blind Eq (nullable check) := by
  intro j j' hj hj' hsame
  have hcheck := h j j' hj hj' hsame
  cases hsame with
  | null => exact .some rfl
  | bool | num | str | arr | obj => exact rel_map hcheck fun _ _ hab => congrArg some hab

theorem Blind.array {R : α → α → Prop} {item : Json ν → Option α} (h : Blind R item) (lo hi : ℕ) :
    Blind (List.Forall₂ R) (array item lo hi) := by
  intro j j' hj hj' hsame
  cases hsame with
  | @arr l l' hlen hitems =>
    have hrel : List.Forall₂ (fun a b => Option.Rel R (item a) (item b)) l l' := by
      rw [List.forall₂_iff_get]
      refine ⟨hlen, fun i hi hi' => ?_⟩
      have hleft := allDistinct_iff.mp hj _ (List.get_mem l ⟨i, hi⟩)
      have hright := allDistinct_iff.mp hj' _ (List.get_mem l' ⟨i, hi'⟩)
      refine h _ _ hleft hright (hitems i _ _ ?_ ?_)
      · exact List.getElem?_eq_getElem hi
      · exact List.getElem?_eq_getElem hi'
    unfold Json.array
    dsimp only
    rw [hlen]
    split
    · exact rel_mapM hrel
    · exact .none
  | null | bool | num | str | obj => exact .none

theorem Blind.array_eq {item : Json ν → Option α} (h : Blind Eq item) (lo hi : ℕ) : Blind Eq (Json.array item lo hi) := by
  intro j j' hj hj' hsame
  refine rel_imp (h.array lo hi j j' hj hj' hsame) fun l l' hl => ?_
  rwa [List.forall₂_eq_eq_eq] at hl

theorem blind_strictObject (known : List Text) {j j' : Json ν} (hj : Distinct j) (hj' : Distinct j') (h : Same j j') :
    Option.Rel SameMembers (strictObject known j) (strictObject known j') := by
  have hcopy := h
  cases h with
  | @obj m m' hnames _ =>
    have hall : ∀ {n : List (Text × Json ν)}, (n.all fun x => known.contains x.1) = true ↔
        ∀ k ∈ n.map Prod.fst, known.contains k = true := by
      intro n
      rw [List.all_eq_true, List.forall_mem_map]
    have hsame : (m.all fun x => known.contains x.1) = m'.all fun x => known.contains x.1 := by
      rw [Bool.eq_iff_iff, hall, hall]
      constructor
      · exact fun hk k hm => hk k ((hnames k).mpr hm)
      · exact fun hk k hm => hk k ((hnames k).mp hm)
    unfold strictObject
    dsimp only
    rw [hsame]
    split
    · exact .some ⟨hcopy, hj, hj'⟩
    · exact .none
  | null | bool | num | str | arr => exact .none

theorem blind_object {R : α → α → Prop} (known : List Text) {read : List (Text × Json ν) → Option α}
    (h : ∀ m m', SameMembers m m' → Option.Rel R (read m) (read m')) :
    Blind R fun j => (strictObject known j).bind read := by
  intro j j' hj hj' hsame
  exact rel_bind (blind_strictObject known hj hj' hsame) h

theorem blind_discriminator (name : Text) : Blind Eq (discriminator name : Json ν → Option Text) := by
  intro j j' hj hj' h
  have hcopy := h
  cases h with
  | obj => exact SameMembers.member ⟨hcopy, hj, hj'⟩ name (blind_string _)
  | null | bool | num | str | arr => exact .none

theorem Blind.record {item : Json ν → Option α} (h : Blind Eq item) (name : Text → Bool) :
    Blind List.Perm (record name item) := by
  intro j j' hj hj' hsame
  have hcopy := hsame
  cases hsame with
  | null | bool | num | str | arr => exact .none
  | @obj m m' hnames hvalues =>
    refine perm_mapM ?_
    have hmembers : SameMembers m m' := ⟨hcopy, hj, hj'⟩
    -- what is read for a name, out of either object
    have hread : ∀ {n : List (Text × Json ν)}, Distinct (obj n) → SameMembers n m' →
        (n.map fun x => if name x.1 then (item x.2).map (Prod.mk x.1) else none) =
          (n.map Prod.fst).map fun k => if name k then ((m'.lookup k).bind item).map (Prod.mk k) else none := by
      intro n hn hsame
      rw [List.map_map]
      refine List.map_congr_left fun x hx => ?_
      obtain ⟨k, a⟩ := x
      have hitem := hsame.member k h
      rw [Json.member, lookup_of_mem hn.1 hx] at hitem
      have heq : item a = (m'.lookup k).bind item := eq_of_rel hitem
      simp only [Function.comp_apply, heq]
    have hsame' : SameMembers m' m' := ⟨Same.refl hj', hj', hj'⟩
    rw [hread hj hmembers, hread hj' hsame']
    exact List.Perm.map _ ((List.perm_ext_iff_of_nodup hj.1 hj'.1).mpr hnames)

end Albusforge.Lib.Json
