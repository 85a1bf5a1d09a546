import Mathlib

/-!
# Tables with a primary key

A table is the list of its rows, in no order that means anything, and no two rows have one key. A row
is found under its key, and put there in place of what stood there. **A sum over the rows is the sum
over the others and what the row under a key adds to it** (`Table.sum_split`, `Table.sum_put`), which
is what a counter kept beside a table is checked with.
-/

namespace Albusforge.Lib

structure Table {κ ρ : Type} (key : ρ → κ) where
  rows : List ρ
  nodup : (rows.map key).Nodup

namespace Table

variable {κ ρ : Type} [DecidableEq κ] {key : ρ → κ}

def empty : Table key := ⟨[], List.nodup_nil⟩

def find (t : Table key) (k : κ) : Option ρ := t.rows.find? fun r => key r = k

def others (t : Table key) (k : κ) : List ρ := t.rows.filter fun r => key r ≠ k

/-- `SELECT sum(f)` -/
def sum (t : Table key) (f : ρ → ℕ) : ℕ := (t.rows.map f).sum

/-- `SELECT sum(f) ... WHERE key <> k` -/
def sumOthers (t : Table key) (k : κ) (f : ρ → ℕ) : ℕ := ((t.others k).map f).sum

theorem others_key {t : Table key} {k : κ} {r : ρ} (h : r ∈ t.others k) : key r ≠ k := by
  simpa using (List.mem_filter.mp h).2

def put (t : Table key) (r : ρ) : Table key where
  rows := t.others (key r) ++ [r]
  nodup := by
    rw [List.map_append, List.nodup_append]
    refine ⟨?_, by simp, ?_⟩
    · exact (List.Sublist.map key List.filter_sublist).nodup t.nodup
    · intro k hk k' hk' heq
      obtain ⟨r', hr', rfl⟩ := List.mem_map.mp hk
      obtain rfl : k' = key r := by simpa using hk'
      exact others_key hr' heq

variable {t : Table key} {k : κ} {r : ρ} {f : ρ → ℕ}

theorem find_key (h : t.find k = some r) : key r = k := by
  simpa using List.find?_some h

theorem find_mem (h : t.find k = some r) : r ∈ t.rows := List.mem_of_find?_eq_some h

theorem mem_find (h : r ∈ t.rows) : t.find (key r) = some r := by
  unfold find
  cases hfind : t.rows.find? fun r' => key r' = key r with
  | none =>
      have hno := List.find?_eq_none.mp hfind r h
      exact absurd hno (by simp)
  | some r' =>
      have hkey : key r' = key r := by simpa using List.find?_some hfind
      rw [List.inj_on_of_nodup_map t.nodup (List.mem_of_find?_eq_some hfind) h hkey]

@[simp] theorem find_empty : (empty : Table key).find k = none := rfl

@[simp] theorem find_put_self : (t.put r).find (key r) = some r :=
  mem_find (List.mem_append_right _ (List.mem_singleton_self r))

theorem find_put_key (h : key r = k) : (t.put r).find k = some r := h ▸ find_put_self

theorem find_put_of_ne (h : k ≠ key r) : (t.put r).find k = t.find k := by
  have hfilter : (t.others (key r)).find? (fun r' => key r' = k) = t.rows.find? fun r' => key r' = k := by
    rw [others, List.find?_filter]
    congr 1
    funext r'
    by_cases hr' : key r' = k
    · simp [hr', h]
    · simp [hr']
  rw [find, put, List.find?_append, hfilter]
  simp [find, Ne.symm h]

theorem find_put {r' : ρ} (h : (t.put r).find k = some r') :
    k = key r ∧ r' = r ∨ k ≠ key r ∧ t.find k = some r' := by
  by_cases hk : k = key r
  · subst hk
    rw [find_put_self] at h
    exact Or.inl ⟨rfl, (Option.some.inj h).symm⟩
  · rw [find_put_of_ne hk] at h
    exact Or.inr ⟨hk, h⟩

theorem sum_put : (t.put r).sum f = t.sumOthers (key r) f + f r := by
  simp [sum, put, sumOthers]

/-- **A sum is the sum over the others, and what the row under the key adds.** -/
theorem sum_split (t : Table key) (k : κ) (f : ρ → ℕ) :
    t.sum f = t.sumOthers k f + (t.find k).elim 0 f := by
  obtain ⟨rows, hnodup⟩ := t
  unfold sum sumOthers others find
  dsimp only
  induction rows with
  | nil => rfl
  | cons r rows ih =>
      rw [List.map_cons, List.nodup_cons] at hnodup
      have hrest := ih hnodup.2
      by_cases hk : key r = k
      · -- no row after the first has its key
        have hgone : ∀ r' ∈ rows, key r' ≠ k := by
          intro r' hr' heq
          exact hnodup.1 (List.mem_map.mpr ⟨r', hr', heq.trans hk.symm⟩)
        have hall : rows.filter (fun r' => key r' ≠ k) = rows :=
          List.filter_eq_self.mpr fun r' hr' => by simpa using hgone r' hr'
        rw [List.filter_cons_of_neg (by simp [hk]), List.find?_cons_of_pos (by simp [hk]), hall]
        simp [Nat.add_comm]
      · rw [List.filter_cons_of_pos (by simp [hk]), List.find?_cons_of_neg (by simp [hk])]
        simp only [List.map_cons, List.sum_cons]
        rw [hrest, Nat.add_assoc]

theorem sum_found (h : t.find k = some r) : t.sum f = t.sumOthers k f + f r := by
  rw [sum_split t k f, h, Option.elim_some]

theorem sumOthers_le : t.sumOthers k f ≤ t.sum f := by
  rw [sum_split t k f]
  exact Nat.le_add_right _ _

end Table

end Albusforge.Lib
