import Mathlib.Data.List.Flatten
import Mathlib.Data.List.Perm.Basic

/-!
# Partitioned tables

A table whose rows are in the partition of their key, if there is one, and else in a default one. Partitions are
attached, which takes their rows out of the default one, and dropped with what is in them.

**Attaching a partition neither loses nor duplicates a row** (`all_attach`). A reader that has a snapshot of the rows
but goes through the partitions of another moment may miss rows; **under the layout of its snapshot it sees them all**
(`Laid.through_self`).
-/

namespace Albusforge.Lib

structure Partitioned (κ α : Type) where
  rest : List α
  parts : List (κ × List α)

namespace Partitioned

variable {κ α : Type}

def keys (t : Partitioned κ α) : List κ := t.parts.map Prod.fst

/-- Every row, wherever it is. -/
def all (t : Partitioned κ α) : List α := t.rest ++ t.parts.flatMap Prod.snd

/-- Without the partitions of some keys. -/
def drop (t : Partitioned κ α) (gone : κ → Bool) : Partitioned κ α :=
  { t with parts := t.parts.filter fun p => !gone p.1 }

/-- Without some rows of the default partition. -/
def purge (t : Partitioned κ α) (gone : α → Bool) : Partitioned κ α := { t with rest := t.rest.filter fun a => !gone a }

section Keyed

variable [DecidableEq κ] (key : α → κ)

/-- Each row goes where it belongs. -/
def insert (t : Partitioned κ α) (rows : List α) : Partitioned κ α where
  rest := t.rest ++ rows.filter fun a => key a ∉ t.keys
  parts := t.parts.map fun p => (p.1, p.2 ++ rows.filter fun a => key a = p.1)

/-- A partition for a key, if there is none, with what the default partition has of it. -/
def attach (t : Partitioned κ α) (k : κ) : Partitioned κ α :=
  if k ∈ t.keys then t
  else
    { rest := t.rest.filter fun a => key a ≠ k
      parts := t.parts ++ [(k, t.rest.filter fun a => key a = k)] }

/-- The rows that are found by a reader who goes through the default partition and the partitions of `layout`, each
for the keys it is for. -/
def through (t : Partitioned κ α) (layout : List κ) : List α :=
  (t.rest.filter fun a => key a ∉ layout) ++ layout.flatMap fun k => (t.parts.filter fun p => p.1 = k).flatMap Prod.snd

/-- Every row is where it belongs, and no key has two partitions. -/
structure Laid (t : Partitioned κ α) : Prop where
  keys : t.keys.Nodup
  rest : ∀ a ∈ t.rest, key a ∉ t.keys
  parts : ∀ p ∈ t.parts, ∀ a ∈ p.2, key a = p.1

variable {key} {t : Partitioned κ α} {a : α} {k : κ}

omit [DecidableEq κ] in
theorem mem_all : a ∈ t.all ↔ a ∈ t.rest ∨ ∃ p ∈ t.parts, a ∈ p.2 := by
  simp [all, List.mem_flatMap]

omit [DecidableEq κ] in
theorem mem_keys {p : κ × List α} (h : p ∈ t.parts) : p.1 ∈ t.keys := List.mem_map_of_mem h

/-- Rows cut into those of some keys, and the others. -/
theorem cut_perm (key : α → κ) (rows : List α) : ∀ {ks : List κ}, ks.Nodup →
    ((rows.filter fun a => key a ∉ ks) ++ ks.flatMap fun k => rows.filter fun a => key a = k).Perm rows
  | [], _ => by simp
  | k :: ks, hnodup => by
      obtain ⟨hk, hks⟩ := List.nodup_cons.mp hnodup
      have hrest := cut_perm key (rows.filter fun a => key a ≠ k) hks
      have hother : (rows.filter fun a => key a ≠ k).filter (fun a => key a ∉ ks) =
          rows.filter fun a => key a ∉ k :: ks := by
        rw [List.filter_filter]
        congr 1
        funext a
        by_cases ha : key a = k <;> simp [ha]
      have hgroups : (ks.flatMap fun k' => (rows.filter fun a => key a ≠ k).filter fun a => key a = k') =
          ks.flatMap fun k' => rows.filter fun a => key a = k' := by
        refine List.flatMap_congr ?_
        intro k' hk'
        rw [List.filter_filter]
        congr 1
        funext a
        by_cases ha : key a = k'
        · have hne : k' ≠ k := fun heq => hk (heq ▸ hk')
          simp [ha, hne]
        · simp [ha]
      rw [hother, hgroups] at hrest
      have hcut := List.filter_append_perm (fun a => decide (key a = k)) rows
      -- the rows of `k` come in between
      rw [List.flatMap_cons]
      refine (List.perm_append_comm_assoc _ _ _).trans ((hrest.append_left _).trans ?_)
      simpa using hcut

/-- **What is inserted is there, and nothing else is new.** -/
theorem all_insert (h : t.keys.Nodup) (rows : List α) : (t.insert key rows).all.Perm (t.all ++ rows) := by
  have hsplit : ((t.insert key rows).parts.flatMap Prod.snd).Perm
      (t.parts.flatMap Prod.snd ++ t.keys.flatMap fun k => rows.filter fun a => key a = k) := by
    rw [insert, List.flatMap_map, keys, List.flatMap_map]
    exact (List.flatMap_append_perm t.parts Prod.snd fun p => rows.filter fun a => key a = p.1).symm
  have hcut := cut_perm key rows h
  unfold all
  refine (hsplit.append_left _).trans ?_
  rw [insert, List.append_assoc, List.append_assoc]
  refine List.Perm.append_left _ ?_
  refine (List.perm_append_comm_assoc _ _ _).trans ?_
  exact hcut.append_left _

@[simp] theorem keys_insert (rows : List α) : (t.insert key rows).keys = t.keys := by
  simp [insert, keys, Function.comp_def]

theorem Laid.insert (h : t.Laid key) (rows : List α) : (t.insert key rows).Laid key where
  keys := by rw [keys_insert]; exact h.keys
  rest := by
    intro a ha
    rw [keys_insert]
    rcases List.mem_append.mp ha with ha | ha
    · exact h.rest a ha
    · simpa using (List.mem_filter.mp ha).2
  parts := by
    intro p hp a ha
    obtain ⟨q, hq, rfl⟩ := List.mem_map.mp hp
    rcases List.mem_append.mp ha with ha | ha
    · exact h.parts q hq a ha
    · simpa using (List.mem_filter.mp ha).2

/-- **Attaching a partition neither loses nor duplicates a row.** -/
theorem all_attach (t : Partitioned κ α) (k : κ) : (t.attach key k).all.Perm t.all := by
  unfold attach
  split
  · exact List.Perm.refl _
  · have hcut := List.filter_append_perm (fun a => decide (key a ≠ k)) t.rest
    unfold all
    dsimp only
    rw [List.flatMap_append, List.flatMap_singleton]
    -- what was taken out of the default partition stands at the end
    refine (List.Perm.append_left _ List.perm_append_comm).trans ?_
    rw [← List.append_assoc]
    refine List.Perm.append_right _ ?_
    simpa using hcut

theorem keys_attach (t : Partitioned κ α) (k : κ) :
    (t.attach key k).keys = if k ∈ t.keys then t.keys else t.keys ++ [k] := by
  unfold attach
  split
  · rfl
  · simp [keys]

theorem Laid.attach (h : t.Laid key) (k : κ) : (t.attach key k).Laid key := by
  by_cases hk : k ∈ t.keys
  · rw [Partitioned.attach, if_pos hk]
    exact h
  · have hkeys : (t.attach key k).keys = t.keys ++ [k] := by rw [keys_attach, if_neg hk]
    refine ⟨?_, ?_, ?_⟩
    · rw [hkeys]
      rw [List.nodup_append]
      refine ⟨h.keys, by simp, ?_⟩
      rintro k₁ hk₁ k₂ hk₂ rfl
      exact hk (List.mem_singleton.mp hk₂ ▸ hk₁)
    · intro a ha
      rw [Partitioned.attach, if_neg hk] at ha
      obtain ⟨ha, hne⟩ := List.mem_filter.mp ha
      rw [hkeys, List.mem_append]
      rintro (hin | hin)
      · exact h.rest a ha hin
      · exact absurd (List.mem_singleton.mp hin) (by simpa using hne)
    · intro p hp a ha
      rw [Partitioned.attach, if_neg hk] at hp
      rcases List.mem_append.mp hp with hp | hp
      · exact h.parts p hp a ha
      · obtain rfl := List.mem_singleton.mp hp
        simpa using (List.mem_filter.mp ha).2

omit [DecidableEq κ] in
theorem all_drop_sublist (t : Partitioned κ α) (gone : κ → Bool) : (t.drop gone).all.Sublist t.all :=
  List.Sublist.append_left (List.filter_sublist.flatMap Prod.snd) _

omit [DecidableEq κ] in
theorem all_purge_sublist (t : Partitioned κ α) (gone : α → Bool) : (t.purge gone).all.Sublist t.all :=
  List.Sublist.append_right List.filter_sublist _

omit [DecidableEq κ] in
theorem Laid.drop (h : t.Laid key) (gone : κ → Bool) : (t.drop gone).Laid key := by
  have hsub : (t.drop gone).keys.Sublist t.keys := List.filter_sublist.map Prod.fst
  refine ⟨hsub.nodup h.keys, ?_, ?_⟩
  · intro a ha hin
    exact h.rest a ha (hsub.subset hin)
  · intro p hp
    exact h.parts p (List.mem_of_mem_filter hp)

omit [DecidableEq κ] in
theorem Laid.purge (h : t.Laid key) (gone : α → Bool) : (t.purge gone).Laid key :=
  ⟨h.keys, fun a ha => h.rest a (List.mem_of_mem_filter ha), h.parts⟩

omit [DecidableEq κ] in
/-- **A row that is dropped was in a partition that is.** -/
theorem Laid.mem_drop (h : t.Laid key) {gone : κ → Bool} (ha : a ∈ t.all) (hkeep : gone (key a) = false) :
    a ∈ (t.drop gone).all := by
  rw [mem_all] at ha ⊢
  rcases ha with ha | ⟨p, hp, ha⟩
  · exact Or.inl ha
  · refine Or.inr ⟨p, List.mem_filter.mpr ⟨hp, ?_⟩, ha⟩
    rw [← h.parts p hp a ha, hkeep]
    rfl

omit [DecidableEq κ] in
theorem mem_purge {gone : α → Bool} (ha : a ∈ t.all) (hkeep : gone a = false) : a ∈ (t.purge gone).all := by
  rw [mem_all] at ha ⊢
  rcases ha with ha | hin
  · exact Or.inl (List.mem_filter.mpr ⟨ha, by rw [hkeep]; rfl⟩)
  · exact Or.inr hin

/-- The partitions, gone through by their keys. -/
theorem flatMap_keys : ∀ {parts : List (κ × List α)}, (parts.map Prod.fst).Nodup →
    ((parts.map Prod.fst).flatMap fun k => (parts.filter fun p => p.1 = k).flatMap Prod.snd) = parts.flatMap Prod.snd
  | [], _ => rfl
  | p :: parts, hnodup => by
      obtain ⟨hp, hparts⟩ := List.nodup_cons.mp hnodup
      have hnone : ∀ q ∈ parts, q.1 ≠ p.1 := fun q hq heq => hp (List.mem_map.mpr ⟨q, hq, heq⟩)
      have hfirst : ((p :: parts).filter fun q => q.1 = p.1) = [p] := by
        rw [List.filter_cons_of_pos (by simp), List.filter_eq_nil_iff.mpr]
        intro q hq
        simpa using hnone q hq
      have hothers : ((parts.map Prod.fst).flatMap fun k => ((p :: parts).filter fun q => q.1 = k).flatMap Prod.snd) =
          (parts.map Prod.fst).flatMap fun k => (parts.filter fun q => q.1 = k).flatMap Prod.snd := by
        refine List.flatMap_congr ?_
        intro k hk
        obtain ⟨q, hq, rfl⟩ := List.mem_map.mp hk
        rw [List.filter_cons_of_neg (by simpa using (hnone q hq).symm)]
      rw [List.map_cons, List.flatMap_cons, hfirst, hothers, flatMap_keys hparts, List.flatMap_singleton, List.flatMap_cons]

/-- **Under its own layout a table is seen whole.** -/
theorem Laid.through_self (h : t.Laid key) : t.through key t.keys = t.all := by
  have hrest : (t.rest.filter fun a => decide (key a ∉ t.keys)) = t.rest :=
    List.filter_eq_self.mpr fun a ha => by simpa using h.rest a ha
  have hparts := flatMap_keys h.keys
  rw [through, hrest, Partitioned.keys, hparts, all]

end Keyed

end Partitioned

end Albusforge.Lib
