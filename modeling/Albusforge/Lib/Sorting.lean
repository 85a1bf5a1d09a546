import Mathlib.Data.List.Sort
import Mathlib.Data.List.TakeWhile
import Mathlib.Order.Compare
import Mathlib.Data.Prod.Lex

/-!
# Sorting by a comparator

A stable sort driven by a three-way comparator, and the facts a program that
sorts usually rests on.

**Sorting forgets the order of its input** as soon as the comparator separates
the elements: two permutations of one list, with a key that is injective on it,
sort to the same list (`sortBy_congr`).

**Sort, push, pop keeps the best `k`.** A loop that pushes every candidate, sorts
and drops the overflow ends with the first `k` elements of the sorted list of all
candidates (`foldl_keep`).

**The sort is stable**, and that determines it: a sorted list which has of each key what
the input has, in the same order, is the sorted input (`sortBy_eq_of_filters`).
-/

namespace Albusforge.Lib

universe u v

variable {α : Type u} {κ : Type v}

/-- `a` may stand before `b`: the comparator does not order them the other way. -/
def NotAfter (cmp : α → α → Ordering) (a b : α) : Prop := cmp a b ≠ .gt

instance (cmp : α → α → Ordering) (a b : α) : Decidable (NotAfter cmp a b) :=
  inferInstanceAs (Decidable (cmp a b ≠ .gt))

def sortBy (cmp : α → α → Ordering) (l : List α) : List α := l.insertionSort (NotAfter cmp)

theorem sortBy_perm (cmp : α → α → Ordering) (l : List α) : (sortBy cmp l).Perm l :=
  List.perm_insertionSort _ l

@[simp] theorem mem_sortBy {cmp : α → α → Ordering} {l : List α} {a : α} :
    a ∈ sortBy cmp l ↔ a ∈ l := (sortBy_perm cmp l).mem_iff

@[simp] theorem length_sortBy (cmp : α → α → Ordering) (l : List α) :
    (sortBy cmp l).length = l.length := (sortBy_perm cmp l).length_eq

@[simp] theorem sortBy_nil (cmp : α → α → Ordering) : sortBy cmp [] = [] := rfl

def ByKey [LinearOrder κ] (cmp : α → α → Ordering) (key : α → κ) : Prop :=
  ∀ a b, NotAfter cmp a b ↔ key a ≤ key b

def Separates (key : α → κ) (l : List α) : Prop :=
  ∀ a ∈ l, ∀ b ∈ l, key a = key b → a = b

theorem Separates.of_nodup {key : α → κ} {l : List α} (h : (l.map key).Nodup) :
    Separates key l := fun _ ha _ hb he => List.inj_on_of_nodup_map h ha hb he

theorem Separates.perm {key : α → κ} {l l' : List α} (h : Separates key l) (hp : l.Perm l') :
    Separates key l' :=
  fun a ha b hb => h a (hp.mem_iff.mpr ha) b (hp.mem_iff.mpr hb)

theorem Separates.sublist {key : α → κ} {l l' : List α} (h : Separates key l)
    (hs : l' ⊆ l) : Separates key l' :=
  fun a ha b hb => h a (hs ha) b (hs hb)

theorem exists_graph {β : Type*} [Nonempty β] : ∀ {l : List (α × β)}, (l.map Prod.fst).Nodup →
    ∃ f : α → β, l = (l.map Prod.fst).map fun a => (a, f a)
  | [], _ => ⟨fun _ => Classical.arbitrary β, rfl⟩
  | (a, b) :: l, h => by
      classical
      obtain ⟨hnot, hrest⟩ := List.nodup_cons.mp h
      obtain ⟨f, hf⟩ := exists_graph hrest
      refine ⟨Function.update f a b, ?_⟩
      rw [List.map_cons, List.map_cons, Function.update_self]
      congr 1
      refine hf.trans (List.map_congr_left ?_)
      intro c hc
      have hne : c ≠ a := fun heq => hnot (heq ▸ hc)
      rw [Function.update_of_ne hne]

section Keyed

variable [LinearOrder κ] {cmp : α → α → Ordering} {key : α → κ}

theorem ByKey.total (h : ByKey cmp key) : Std.Total (NotAfter cmp) where
  total a b := by rw [h, h]; exact le_total _ _

theorem ByKey.isTrans (h : ByKey cmp key) : IsTrans α (NotAfter cmp) where
  trans a b c := by rw [h, h, h]; exact le_trans

theorem sortBy_pairwise (h : ByKey cmp key) (l : List α) :
    (sortBy cmp l).Pairwise (fun a b => key a ≤ key b) := by
  have := h.total
  have := h.isTrans
  exact (List.pairwise_insertionSort (NotAfter cmp) l).imp fun {a b} => (h a b).mp

theorem eq_of_sorted {l l' : List α} (hsep : Separates key l) (hp : l.Perm l')
    (hl : l.Pairwise (fun a b => key a ≤ key b))
    (hl' : l'.Pairwise (fun a b => key a ≤ key b)) : l = l' := by
  refine List.Perm.eq_of_pairwise ?_ hl hl' hp
  intro a b ha hb hab hba
  exact hsep a ha b (hp.mem_iff.mpr hb) (le_antisymm hab hba)

theorem sortBy_congr (h : ByKey cmp key) {l l' : List α} (hsep : Separates key l)
    (hp : l.Perm l') : sortBy cmp l = sortBy cmp l' := by
  have hperm : (sortBy cmp l).Perm (sortBy cmp l') :=
    (sortBy_perm cmp l).trans (hp.trans (sortBy_perm cmp l').symm)
  exact eq_of_sorted (hsep.perm (sortBy_perm cmp l).symm) hperm
    (sortBy_pairwise h l) (sortBy_pairwise h l')

theorem sortBy_snoc (h : ByKey cmp key) {l : List α} {x : α} (hsep : Separates key (l ++ [x])) :
    sortBy cmp (l ++ [x]) = (sortBy cmp l).orderedInsert (NotAfter cmp) x := by
  have hcons : sortBy cmp (x :: l) = (sortBy cmp l).orderedInsert (NotAfter cmp) x := rfl
  rw [← hcons]
  exact sortBy_congr h hsep (List.perm_append_comm)

/-- **The sort is stable**: elements of one key stay as they came. -/
theorem filter_sortBy (h : ByKey cmp key) (l : List α) (k : κ) :
    (sortBy cmp l).filter (fun a => key a = k) = l.filter fun a => key a = k := by
  induction l with
  | nil => rfl
  | cons a l ih =>
    have hcons : sortBy cmp (a :: l) = (sortBy cmp l).orderedInsert (NotAfter cmp) a := rfl
    have hsplit := List.takeWhile_append_dropWhile (p := fun b => decide (¬ NotAfter cmp a b)) (l := sortBy cmp l)
    rw [hcons, List.orderedInsert_eq_take_drop, List.filter_append]
    rw [← hsplit, List.filter_append] at ih
    by_cases ha : key a = k
    · -- what `a` is put behind has smaller keys
      have hnone : ((sortBy cmp l).takeWhile fun b => decide (¬ NotAfter cmp a b)).filter (fun b => key b = k) = [] := by
        refine List.filter_eq_nil_iff.mpr ?_
        intro b hb hk
        have hnot := List.mem_takeWhile_imp hb
        rw [decide_eq_true_iff, h a b, not_le] at hnot
        rw [decide_eq_true_iff] at hk
        exact absurd (hk.trans ha.symm) hnot.ne
      rw [hnone, List.nil_append] at ih ⊢
      rw [List.filter_cons_of_pos (by simpa using ha), List.filter_cons_of_pos (by simpa using ha), ih]
    · rw [List.filter_cons_of_neg (by simpa using ha), List.filter_cons_of_neg (by simpa using ha), ih]

theorem eq_of_filters : ∀ {l l' : List α}, l.Pairwise (fun a b => key a ≤ key b) →
    l'.Pairwise (fun a b => key a ≤ key b) →
    (∀ k, l.filter (fun a => key a = k) = l'.filter fun a => key a = k) → l = l'
  | [], [], _, _, _ => rfl
  | [], b :: l', _, _, hf => by
      have := hf (key b)
      simp at this
  | a :: l, [], _, _, hf => by
      have := hf (key a)
      simp at this
  | a :: l, b :: l', hl, hl', hf => by
      have hle : ∀ {a b : α} {l l' : List α}, (a :: l).Pairwise (fun a b => key a ≤ key b) →
          (b :: l').filter (fun c => key c = key b) = (a :: l).filter (fun c => key c = key b) → key a ≤ key b := by
        intro a b l l' hl heq
        have hmem : b ∈ (a :: l).filter fun c => key c = key b := heq ▸ by simp
        rcases List.mem_cons.mp (List.mem_filter.mp hmem).1 with rfl | hb
        · exact le_rfl
        · exact (List.pairwise_cons.mp hl).1 b hb
      have hkey : key a = key b := le_antisymm (hle hl (hf _).symm) (hle hl' (hf _))
      have hhead := hf (key a)
      rw [List.filter_cons_of_pos (by simp), List.filter_cons_of_pos (by simp [hkey])] at hhead
      obtain ⟨rfl, -⟩ := List.cons.inj hhead
      have hrest : l = l' := by
        refine eq_of_filters (List.pairwise_cons.mp hl).2 (List.pairwise_cons.mp hl').2 ?_
        intro k
        have hk := hf k
        by_cases ha : key a = k
        · rw [List.filter_cons_of_pos (by simpa using ha), List.filter_cons_of_pos (by simpa using ha)] at hk
          exact (List.cons.inj hk).2
        · rwa [List.filter_cons_of_neg (by simpa using ha), List.filter_cons_of_neg (by simpa using ha)] at hk
      rw [hrest]

theorem sortBy_eq_of_filters (h : ByKey cmp key) {l s : List α} (hs : s.Pairwise fun a b => key a ≤ key b)
    (hf : ∀ k, l.filter (fun a => key a = k) = s.filter fun a => key a = k) : sortBy cmp l = s :=
  eq_of_filters (sortBy_pairwise h l) hs fun k => (filter_sortBy h l k).trans (hf k)
end Keyed

theorem sortBy_forall₂ {β : Type*} {R : α → β → Prop} {cmp : α → α → Ordering}
    {cmp' : β → β → Ordering} (hcmp : ∀ a a' b b', R a b → R a' b' → cmp a a' = cmp' b b') :
    ∀ {l : List α} {l' : List β}, List.Forall₂ R l l' →
      List.Forall₂ R (sortBy cmp l) (sortBy cmp' l') := by
  have hinsert : ∀ {a : α} {b : β} {l : List α} {l' : List β}, R a b → List.Forall₂ R l l' →
      List.Forall₂ R (l.orderedInsert (NotAfter cmp) a) (l'.orderedInsert (NotAfter cmp') b) := by
    intro a b l l' hab hl
    induction hl with
    | nil => exact List.Forall₂.cons hab List.Forall₂.nil
    | @cons c d l l' hcd hl ih =>
        have hiff : NotAfter cmp a c ↔ NotAfter cmp' b d := by
          unfold NotAfter
          rw [hcmp a c b d hab hcd]
        by_cases h : NotAfter cmp a c
        · rw [List.orderedInsert_cons_of_le _ _ h, List.orderedInsert_cons_of_le _ _ (hiff.mp h)]
          exact List.Forall₂.cons hab (List.Forall₂.cons hcd hl)
        · rw [List.orderedInsert_of_not_le _ _ h,
            List.orderedInsert_of_not_le _ _ (fun h' => h (hiff.mpr h'))]
          exact List.Forall₂.cons hcd ih
  intro l l' h
  induction h with
  | nil => exact List.Forall₂.nil
  | cons hab _ ih => exact hinsert hab ih

theorem sortBy_map {β : Type*} {cmp : α → α → Ordering} {cmp' : β → β → Ordering} {f : α → β}
    (h : ∀ a b, cmp' (f a) (f b) = cmp a b) (l : List α) : sortBy cmp' (l.map f) = (sortBy cmp l).map f := by
  refine (List.map_insertionSort (NotAfter cmp) (NotAfter cmp') f l ?_).symm
  intro a _ b _
  unfold NotAfter
  rw [h]

/-! ## Comparators made of comparators -/

def Compares [LinearOrder κ] (cmp : α → α → Ordering) (key : α → κ) : Prop :=
  ∀ a b, cmp a b = compare (key a) (key b)

theorem Compares.byKey [LinearOrder κ] {cmp : α → α → Ordering} {key : α → κ}
    (h : Compares cmp key) : ByKey cmp key := by
  intro a b
  unfold NotAfter
  rw [h a b, ne_eq, compare_gt_iff_gt, not_lt]

theorem Compares.then {κ' : Type*} [LinearOrder κ] [LinearOrder κ'] {cmp cmp' : α → α → Ordering}
    {key : α → κ} {key' : α → κ'} (h : Compares cmp key) (h' : Compares cmp' key') :
    Compares (fun a b => (cmp a b).then (cmp' a b)) (fun a => toLex (key a, key' a)) := by
  intro a b
  dsimp only
  rw [h a b, h' a b, Prod.Lex.compare_def]
  rfl

/-! ## Looking an element up -/

theorem findSome?_least [LinearOrder κ] {β : Type*} {key : α → κ} {f : α → Option β} {l : List α} {b : β}
    (hl : l.Pairwise fun a a' => key a ≤ key a') (h : l.findSome? f = some b) :
    ∃ a ∈ l, f a = some b ∧ ∀ a' ∈ l, f a' ≠ none → key a ≤ key a' := by
  obtain ⟨before, a, after, rfl, ha, hbefore⟩ := List.findSome?_eq_some_iff.mp h
  rw [List.pairwise_append, List.pairwise_cons] at hl
  refine ⟨a, by simp, ha, ?_⟩
  intro a' ha' hsome
  rw [List.mem_append, List.mem_cons] at ha'
  rcases ha' with hmem | rfl | hmem
  · exact absurd (hbefore a' hmem) hsome
  · exact le_rfl
  · exact hl.2.1.1 a' hmem

theorem strict_of_nodup [LinearOrder κ] {key : α → κ} {l : List α} (hl : l.Pairwise fun a a' => key a ≤ key a')
    (hnd : (l.map key).Nodup) : l.Pairwise fun a a' => key a < key a' :=
  (hl.and (List.pairwise_map.mp hnd)).imp fun h => lt_of_le_of_ne h.1 h.2

theorem pairs_pairwise [LinearOrder κ] {β κ' : Type*} [LinearOrder κ'] {key : α → κ} {key' : β → κ'} {l : List α}
    {m : List β} (hl : l.Pairwise fun a a' => key a < key a') (hm : m.Pairwise fun b b' => key' b ≤ key' b') :
    (l.flatMap fun a => m.map (a, ·)).Pairwise fun x y =>
      toLex (key x.1, key' x.2) ≤ toLex (key y.1, key' y.2) := by
  rw [List.pairwise_flatMap]
  constructor
  · intro a _
    rw [List.pairwise_map]
    refine hm.imp ?_
    intro b b' hle
    exact Prod.Lex.le_iff.mpr (.inr ⟨rfl, hle⟩)
  · refine hl.imp ?_
    intro a a' hlt x hx y hy
    obtain ⟨b, _, rfl⟩ := List.mem_map.mp hx
    obtain ⟨b', _, rfl⟩ := List.mem_map.mp hy
    exact Prod.Lex.le_iff.mpr (.inl hlt)

theorem find?_eq_some_of_unique {p : α → Bool} {l : List α} {a : α} (ha : a ∈ l)
    (hpa : p a = true) (huniq : ∀ b ∈ l, p b = true → b = a) : l.find? p = some a := by
  cases h : l.find? p with
  | none => exact absurd hpa (by simpa using List.find?_eq_none.mp h a ha)
  | some b => rw [huniq b (List.mem_of_find?_eq_some h) (List.find?_some h)]

theorem find?_perm [BEq κ] [LawfulBEq κ] {key : α → κ} {k : κ} {l l' : List α} (hsep : Separates key l)
    (hp : l.Perm l') : l.find? (fun a => key a == k) = l'.find? (fun a => key a == k) := by
  cases h : l.find? (fun a => key a == k) with
  | none =>
      symm
      rw [List.find?_eq_none] at h ⊢
      exact fun a ha => h a (hp.mem_iff.mpr ha)
  | some b =>
      have hb := List.mem_of_find?_eq_some h
      have hkb := List.find?_some h
      symm
      refine find?_eq_some_of_unique (hp.mem_iff.mp hb) hkb ?_
      intro c hc hkc
      refine hsep c (hp.mem_iff.mpr hc) b hb ?_
      rw [eq_of_beq hkc, eq_of_beq hkb]

theorem sublist_of_sorted [LinearOrder κ] (key : α → κ) {l l' : List α}
    (hl : l.Pairwise (fun a b => key a < key b)) (hl' : l'.Pairwise (fun a b => key a < key b))
    (hsub : l ⊆ l') : l.Sublist l' := by
  have hanti : Std.Antisymm (fun a b : α => key a < key b) :=
    ⟨fun a b hab hba => absurd (hab.trans hba) (lt_irrefl _)⟩
  have hnd : l.Nodup := hl.imp (fun {a b} hab heq => absurd hab (by rw [heq]; exact lt_irrefl _))
  exact List.sublist_of_subperm_of_pairwise (List.subperm_of_subset hnd hsub) hl hl'

theorem adjacent_of_sorted [LinearOrder κ] {key : α → κ} {l : List α}
    (hl : l.Pairwise (fun a b => key a < key b)) {a b : α} (ha : a ∈ l) (hb : b ∈ l)
    (hab : key a < key b) (hnone : ∀ c ∈ l, key a < key c → ¬ key c < key b) :
    ∃ front back, l = front ++ a :: b :: back := by
  obtain ⟨front, rest, rfl⟩ := List.append_of_mem ha
  obtain ⟨-, hrest, hacross⟩ := List.pairwise_append.mp hl
  rw [List.pairwise_cons] at hrest
  have hbrest : b ∈ rest := by
    rcases List.mem_append.mp hb with hb | hb
    · exact absurd (hacross b hb a (by simp)) (not_lt_of_gt hab)
    · rcases List.mem_cons.mp hb with rfl | hb
      · exact absurd hab (lt_irrefl _)
      · exact hb
  cases rest with
  | nil => exact absurd hbrest (by simp)
  | cons c back =>
      have hcb : c = b := by
        rcases List.mem_cons.mp hbrest with rfl | hb
        · rfl
        · have hbefore : key c < key b := (List.pairwise_cons.mp hrest.2).1 b hb
          exact absurd hbefore (hnone c (by simp) (hrest.1 c (by simp)))
      exact ⟨front, back, by rw [hcb]⟩

/-! ## Keeping the best `k` -/

theorem take_orderedInsert (r : α → α → Prop) [DecidableRel r] (x : α) :
    ∀ (k : Nat) (l : List α),
      ((l.take k).orderedInsert r x).take k = (l.orderedInsert r x).take k
  | 0, l => by simp
  | k + 1, [] => by simp
  | k + 1, b :: l => by
      rw [List.take_succ_cons]
      by_cases hr : r x b
      · rw [List.orderedInsert_cons_of_le r _ hr, List.orderedInsert_cons_of_le r _ hr]
        rw [List.take_succ_cons, List.take_succ_cons]
        congr 1
        cases k with
        | zero => rfl
        | succ k => simp [List.take_succ_cons, List.take_take]
      · rw [List.orderedInsert_of_not_le r _ hr, List.orderedInsert_of_not_le r _ hr]
        rw [List.take_succ_cons, List.take_succ_cons, take_orderedInsert r x k l]

/-- Push a candidate, sort, and drop what overflows `k`. -/
def keep (cmp : α → α → Ordering) (k : Nat) (kept : List α) (x : α) : List α :=
  let sorted := sortBy cmp (kept ++ [x])
  if sorted.length > k then sorted.dropLast else sorted

theorem keep_eq_take (cmp : α → α → Ordering) {k : Nat} {kept : List α} (x : α)
    (hk : kept.length ≤ k) : keep cmp k kept x = (sortBy cmp (kept ++ [x])).take k := by
  have hlen : (sortBy cmp (kept ++ [x])).length = kept.length + 1 := by simp
  unfold keep
  dsimp only
  split
  · rename_i hgt
    rw [List.dropLast_eq_take, show (sortBy cmp (kept ++ [x])).length - 1 = k by omega]
  · rename_i hle
    rw [List.take_of_length_le (by omega)]

/--
**Sort, push, pop keeps the best `k`.**

After any number of candidates the kept list is the head of the sorted list of
all of them. The invariant holds after every push, so nothing that belongs to the
final answer is ever popped.
-/
theorem foldl_keep [LinearOrder κ] {cmp : α → α → Ordering} {key : α → κ} (h : ByKey cmp key) (k : Nat)
    (l : List α) : ∀ (done : List α), Separates key (done ++ l) →
      l.foldl (keep cmp k) ((sortBy cmp done).take k) = (sortBy cmp (done ++ l)).take k := by
  induction l with
  | nil => intro done _; simp
  | cons x l ih =>
    intro done hsep
    have hsepx : Separates key (done ++ [x]) :=
      hsep.sublist (by intro a ha; simp only [List.mem_append, List.mem_singleton] at ha ⊢
                       rcases ha with h | h <;> simp [h])
    have hsepk : Separates key ((sortBy cmp done).take k ++ [x]) :=
      hsepx.sublist (by
        intro a ha
        rcases List.mem_append.mp ha with h' | h'
        · exact List.mem_append_left _ (mem_sortBy.mp (List.mem_of_mem_take h'))
        · exact List.mem_append_right _ h')
    have hsorted : sortBy cmp ((sortBy cmp done).take k) = (sortBy cmp done).take k := by
      refine eq_of_sorted (hsepk.sublist ?_) (sortBy_perm _ _) (sortBy_pairwise h _) ?_
      · intro a ha
        exact List.mem_append_left _ (mem_sortBy.mp ha)
      · exact (sortBy_pairwise h done).sublist (List.take_sublist _ _)
    have hstep : keep cmp k ((sortBy cmp done).take k) x = (sortBy cmp (done ++ [x])).take k := by
      rw [keep_eq_take _ _ (List.length_take_le _ _), sortBy_snoc h hsepk, hsorted,
        take_orderedInsert, sortBy_snoc h hsepx]
    have hsep' : Separates key (done ++ [x] ++ l) := by simpa using hsep
    rw [List.foldl_cons, hstep, ih (done ++ [x]) hsep']
    simp

end Albusforge.Lib
