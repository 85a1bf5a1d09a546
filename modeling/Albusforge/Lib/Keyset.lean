import Mathlib.Algebra.BigOperators.Group.List.Basic
import Albusforge.Lib.Sorting

/-!
# Reading rows page by page

`SELECT ... WHERE key > cursor ORDER BY key LIMIT n`: a reader that remembers the key of the last row it was given.
As long as no two rows share a key, **what lies beyond the key of a row is what stands behind that row**
(`beyond_last`), so pages of any sizes are consecutive pieces of the rows in order.
-/

namespace Albusforge.Lib.Keyset

variable {α κ : Type*} [LinearOrder κ]

section

variable (key : α → κ)

def ordered (rows : List α) : List α := sortBy (fun a b => compare (key a) (key b)) rows

def isBeyond (cursor : Option κ) (a : α) : Bool := cursor.all fun c => c < key a

def beyond (rows : List α) (cursor : Option κ) : List α := ordered key (rows.filter (isBeyond key cursor))

def cursorOf (given : List α) : Option κ := given.getLast?.map key

end

variable {key : α → κ}

theorem byKey_compare : ByKey (fun a b => compare (key a) (key b)) key := by
  have hcompares : Compares (fun a b => compare (key a) (key b)) key := fun _ _ => rfl
  exact hcompares.byKey

@[simp] theorem mem_ordered {rows : List α} {a : α} : a ∈ ordered key rows ↔ a ∈ rows := mem_sortBy

theorem ordered_strict {rows : List α} (h : (rows.map key).Nodup) :
    (ordered key rows).Pairwise fun a b => key a < key b := by
  refine strict_of_nodup (sortBy_pairwise byKey_compare rows) ?_
  exact ((sortBy_perm _ rows).map key).nodup_iff.mpr h

theorem ordered_filter (p : α → Bool) (rows : List α) : ordered key (rows.filter p) = (ordered key rows).filter p := by
  refine sortBy_eq_of_filters byKey_compare ((sortBy_pairwise byKey_compare rows).filter p) ?_
  intro k
  have hcomm : ∀ l : List α, (l.filter p).filter (fun a => key a = k) = (l.filter fun a => key a = k).filter p :=
    fun l => List.filter_comm _ _ l
  have hstable : (ordered key rows).filter (fun a => key a = k) = rows.filter fun a => key a = k :=
    filter_sortBy byKey_compare rows k
  rw [hcomm, ← hstable, ← hcomm]

@[simp] theorem beyond_none (rows : List α) : beyond key rows none = ordered key rows := by
  rw [beyond, ordered_filter]
  exact List.filter_eq_self.mpr fun _ _ => rfl

/-- **Beyond the last row that was given is what was not given yet.** -/
theorem beyond_last {rows given rest : List α} (hkeys : (rows.map key).Nodup) (hsplit : ordered key rows = given ++ rest) :
    beyond key rows (cursorOf key given) = rest := by
  rcases List.eq_nil_or_concat given with rfl | ⟨front, last, rfl⟩
  · exact (beyond_none rows).trans hsplit
  · have hstrict := ordered_strict hkeys
    rw [hsplit, List.concat_eq_append] at hstrict
    obtain ⟨hfront, -, hcross⟩ := List.pairwise_append.mp hstrict
    obtain ⟨-, -, hlast⟩ := List.pairwise_append.mp hfront
    have hcursor : cursorOf key (front.concat last) = some (key last) := by simp [cursorOf]
    rw [hcursor, beyond, ordered_filter, hsplit, List.concat_eq_append, List.filter_append]
    have hnone : (front ++ [last]).filter (isBeyond key (some (key last))) = [] := by
      refine List.filter_eq_nil_iff.mpr ?_
      intro a ha
      rcases List.mem_append.mp ha with ha | ha
      · simp [isBeyond, (hlast a ha last (by simp)).le]
      · simp [isBeyond, List.mem_singleton.mp ha]
    rw [hnone, List.nil_append]
    refine List.filter_eq_self.mpr ?_
    intro a ha
    simpa [isBeyond] using hcross last (by simp) a ha

end Albusforge.Lib.Keyset
