import Mathlib

/-!
# Maps in the order of insertion

A `Map` of the host language: entries in the order in which their keys came in, where a key that
is set again keeps its place. **A loop that updates one key at a time leaves under each key what the
updates of that key alone would have left** (`get_foldl`), whatever stands between them.
-/

namespace Albusforge.Lib

variable {α κ β : Type*} [DecidableEq κ]

abbrev Entries (κ β : Type*) : Type _ := List (κ × β)

namespace Entries

def keys (m : Entries κ β) : List κ := m.map Prod.fst

def values (m : Entries κ β) : List β := m.map Prod.snd

/-- `map.get(k)` -/
def get : Entries κ β → κ → Option β
  | [], _ => none
  | (k', v) :: m, k => if k' = k then some v else get m k

/-- `map.set(k, v)` -/
def set : Entries κ β → κ → β → Entries κ β
  | [], k, v => [(k, v)]
  | (k', v') :: m, k, v => if k' = k then (k, v) :: m else (k', v') :: set m k v

/-- `map.delete(k)` -/
def delete (m : Entries κ β) (k : κ) : Entries κ β := m.filter fun e => e.1 ≠ k

@[simp] theorem get_nil (k : κ) : get ([] : Entries κ β) k = none := rfl

theorem get_set (m : Entries κ β) (k k' : κ) (v : β) :
    (m.set k v).get k' = if k = k' then some v else m.get k' := by
  induction m with
  | nil => rfl
  | cons e m ih =>
    obtain ⟨c, w⟩ := e
    unfold set
    split
    · rename_i hc
      subst hc
      by_cases h : c = k'
      · simp [get, h]
      · simp [get, h]
    · rename_i hc
      unfold get
      rw [ih]
      by_cases h : c = k'
      · subst h
        simp [Ne.symm hc]
      · simp [h]

theorem mem_keys_set {m : Entries κ β} {k k' : κ} {v : β} :
    k' ∈ (m.set k v).keys ↔ k' = k ∨ k' ∈ m.keys := by
  induction m with
  | nil => simp [set, keys]
  | cons e m ih =>
    obtain ⟨c, w⟩ := e
    unfold set
    split
    · rename_i hc
      simp [keys, hc]
    · simp only [keys, List.map_cons, List.mem_cons] at ih ⊢
      rw [ih]
      exact or_left_comm

theorem nodup_set {m : Entries κ β} (k : κ) (v : β) (h : m.keys.Nodup) : (m.set k v).keys.Nodup := by
  induction m with
  | nil => simp [set, keys]
  | cons e m ih =>
    obtain ⟨c, w⟩ := e
    obtain ⟨hnot, hrest⟩ := List.nodup_cons.mp h
    unfold set
    split
    · rename_i hc
      exact List.nodup_cons.mpr ⟨hc ▸ hnot, hrest⟩
    · rename_i hc
      refine List.nodup_cons.mpr ⟨?_, ih hrest⟩
      intro hmem
      rcases mem_keys_set.mp hmem with heq | hin
      · exact hc heq
      · exact hnot hin

theorem get_isSome {m : Entries κ β} {k : κ} : (m.get k).isSome = true ↔ k ∈ m.keys := by
  induction m with
  | nil => simp [keys]
  | cons e m ih =>
    obtain ⟨c, w⟩ := e
    unfold get
    by_cases h : c = k
    · simp [h, keys]
    · simp only [keys, List.map_cons, List.mem_cons] at ih ⊢
      rw [if_neg h, ih]
      simp [Ne.symm h]

theorem mem_iff_get {m : Entries κ β} (h : m.keys.Nodup) {k : κ} {v : β} : (k, v) ∈ m ↔ m.get k = some v := by
  induction m with
  | nil => simp
  | cons e m ih =>
    obtain ⟨c, w⟩ := e
    obtain ⟨hnot, hrest⟩ := List.nodup_cons.mp h
    unfold get
    by_cases hc : c = k
    · subst hc
      have hout : (c, v) ∉ m := fun hmem => hnot (List.mem_map.mpr ⟨(c, v), hmem, rfl⟩)
      simp [hout, eq_comm]
    · rw [if_neg hc, List.mem_cons, ← ih hrest]
      simp [Ne.symm hc]

theorem mem_values {m : Entries κ β} (h : m.keys.Nodup) {v : β} : v ∈ m.values ↔ ∃ k, m.get k = some v := by
  unfold values
  rw [List.mem_map]
  constructor
  · intro hmem
    obtain ⟨⟨k, w⟩, hkw, rfl⟩ := hmem
    exact ⟨k, (mem_iff_get h).mp hkw⟩
  · intro hget
    obtain ⟨k, hk⟩ := hget
    exact ⟨(k, v), (mem_iff_get h).mpr hk, rfl⟩

theorem set_of_not_mem {m : Entries κ β} {k : κ} {v : β} (h : k ∉ m.keys) : m.set k v = m ++ [(k, v)] := by
  induction m with
  | nil => rfl
  | cons e m ih =>
    obtain ⟨c, w⟩ := e
    simp only [keys, List.map_cons, List.mem_cons, not_or] at h
    unfold set
    rw [if_neg (Ne.symm h.1), ih h.2, List.cons_append]

theorem set_of_get {m : Entries κ β} {k : κ} {v : β} (h : m.get k = some v) : m.set k v = m := by
  induction m with
  | nil => cases h
  | cons e m ih =>
    obtain ⟨c, w⟩ := e
    unfold get at h
    unfold set
    by_cases hc : c = k
    · rw [if_pos hc] at h ⊢
      rw [hc, Option.some.inj h]
    · rw [if_neg hc] at h ⊢
      rw [ih h]

theorem nodup_delete {m : Entries κ β} (k : κ) (h : m.keys.Nodup) : (m.delete k).keys.Nodup :=
  h.sublist (List.filter_sublist.map Prod.fst)

theorem get_delete (m : Entries κ β) (k k' : κ) : (m.delete k).get k' = if k = k' then none else m.get k' := by
  induction m with
  | nil => simp [delete]
  | cons e m ih =>
    obtain ⟨c, w⟩ := e
    unfold delete at ih ⊢
    by_cases hc : c = k
    · rw [List.filter_cons_of_neg (by simp [hc]), ih]
      by_cases h : k = k'
      · simp [h]
      · have hne : c ≠ k' := fun heq => h (hc ▸ heq)
        simp [h, get, hne]
    · rw [List.filter_cons_of_pos (by simp [hc])]
      unfold get
      rw [ih]
      by_cases h : c = k'
      · have hne : k ≠ k' := fun heq => hc (h.trans heq.symm)
        simp [h, hne]
      · simp [h]

theorem set_set (m : Entries κ β) (k : κ) (v w : β) : (m.set k v).set k w = m.set k w := by
  induction m with
  | nil => simp [set]
  | cons e m ih =>
    obtain ⟨c, u⟩ := e
    by_cases hc : c = k
    · simp [set, hc]
    · simp [set, hc, ih]

theorem delete_set {m : Entries κ β} {k : κ} {v : β} (h : k ∉ m.keys) : (m.set k v).delete k = m := by
  rw [set_of_not_mem h, delete, List.filter_append, List.filter_eq_self.mpr]
  · simp
  · intro e he
    have hne : e.1 ≠ k := fun heq => h (heq ▸ List.mem_map_of_mem he)
    simpa using hne

theorem get_cons (e : κ × β) (m : Entries κ β) (k : κ) :
    get (e :: m) k = if e.1 = k then some e.2 else get m k := rfl

theorem set_cons (e : κ × β) (m : Entries κ β) (k : κ) (v : β) :
    set (e :: m) k v = if e.1 = k then (k, v) :: m else e :: set m k v := rfl

omit [DecidableEq κ] in
theorem values_cons (e : κ × β) (m : Entries κ β) : values (e :: m) = e.2 :: values m := rfl

theorem mem_set_self (m : Entries κ β) (k : κ) (v : β) : (k, v) ∈ m.set k v := by
  induction m with
  | nil => exact List.mem_cons_self
  | cons e m ih =>
    rw [set_cons]
    split
    · exact List.mem_cons_self
    · exact List.mem_cons_of_mem _ ih

theorem mem_set_of_ne {m : Entries κ β} {e : κ × β} {k : κ} (v : β) (h : e ∈ m) (hne : e.1 ≠ k) : e ∈ m.set k v := by
  induction m with
  | nil => cases h
  | cons e' m ih =>
    rw [set_cons]
    rcases List.mem_cons.mp h with rfl | hrest
    · rw [if_neg hne]
      exact List.mem_cons_self
    · split
      · exact List.mem_cons_of_mem _ hrest
      · exact List.mem_cons_of_mem _ (ih hrest)

theorem sum_set (m : Entries κ β) (k : κ) (v : β) (f : β → ℕ) :
    ((m.set k v).values.map f).sum + ((m.get k).map f).getD 0 = (m.values.map f).sum + f v := by
  induction m with
  | nil => simp [set, values]
  | cons e m ih =>
    by_cases hc : e.1 = k
    · rw [set_cons, get_cons, if_pos hc, if_pos hc]
      simp only [values_cons, List.map_cons, List.sum_cons, Option.map_some, Option.getD_some]
      omega
    · rw [set_cons, get_cons, if_neg hc, if_neg hc]
      simp only [values_cons, List.map_cons, List.sum_cons]
      omega

theorem sum_delete {m : Entries κ β} (hm : m.keys.Nodup) (k : κ) (f : β → ℕ) :
    ((m.delete k).values.map f).sum + ((m.get k).map f).getD 0 = (m.values.map f).sum := by
  induction m with
  | nil => simp [delete, values]
  | cons e m ih =>
    obtain ⟨hnot, hrest⟩ := List.nodup_cons.mp hm
    have hnext := ih hrest
    by_cases hc : e.1 = k
    · -- no other entry has the key, so that the rest stays whole
      have hnone : get m k = none := by
        rw [← Option.not_isSome_iff_eq_none, get_isSome]
        exact hc ▸ hnot
      have hdelete : delete (e :: m) k = delete m k := List.filter_cons_of_neg (by simp [hc])
      rw [hdelete, get_cons, if_pos hc]
      simp only [hnone, values_cons, Option.map_none, Option.getD_none, Option.map_some, Option.getD_some,
        List.map_cons, List.sum_cons] at hnext ⊢
      omega
    · have hdelete : delete (e :: m) k = e :: delete m k := List.filter_cons_of_pos (by simp [hc])
      rw [hdelete, get_cons, if_neg hc]
      simp only [values_cons, List.map_cons, List.sum_cons]
      omega

/-- **Each key sees its own updates only.** -/
theorem get_foldl {step : Entries κ β → α → Entries κ β} (key : α → κ) (f : Option β → α → Option β)
    (hstep : ∀ m a k, (step m a).get k = if key a = k then f (m.get k) a else m.get k) (as : List α)
    (m : Entries κ β) (k : κ) :
    (as.foldl step m).get k = (as.filter fun a => key a = k).foldl f (m.get k) := by
  induction as generalizing m with
  | nil => rfl
  | cons a as ih =>
    rw [List.foldl_cons, ih, hstep]
    by_cases h : key a = k
    · simp [h]
    · simp [h]

omit [DecidableEq κ] in
theorem nodup_foldl {step : Entries κ β → α → Entries κ β}
    (hstep : ∀ m a, m.keys.Nodup → (step m a).keys.Nodup) {as : List α} {m : Entries κ β}
    (h : m.keys.Nodup) : (as.foldl step m).keys.Nodup := by
  induction as generalizing m with
  | nil => exact h
  | cons a as ih => exact ih (hstep m a h)

end Entries

end Albusforge.Lib
