import Mathlib.Data.List.Basic
import Mathlib.Data.Nat.Notation

/-!
# Holders of locks

A list of parties, each of which holds at most one lock. **No two hold the same one**, if a
party only takes a lock that nobody holds.
-/

namespace Albusforge.Lib

variable {α κ : Type} {holds : α → Option κ} {l : List α}

def Exclusive (holds : α → Option κ) (l : List α) : Prop :=
  ∀ (i j : ℕ) a b k, l[i]? = some a → l[j]? = some b → holds a = some k → holds b = some k → i = j

theorem exclusive_nil : Exclusive holds ([] : List α) := by
  intro i j a b k ha
  simp at ha

theorem Exclusive.append (h : Exclusive holds l) {c : α} (hc : holds c = none) :
    Exclusive holds (l ++ [c]) := by
  have hold : ∀ {i : ℕ} {a : α} {k : κ}, (l ++ [c])[i]? = some a → holds a = some k → l[i]? = some a := by
    intro i a k ha hk
    rcases Nat.lt_or_ge i l.length with hi | hi
    · rwa [List.getElem?_append_left hi] at ha
    · rw [List.getElem?_append_right hi] at ha
      obtain rfl : a = c := by
        have hmem := List.mem_of_getElem? ha
        simpa using hmem
      exact absurd (hc.symm.trans hk) (by simp)
  intro i j a b k ha hb hak hbk
  exact h i j a b k (hold ha hak) (hold hb hbk) hak hbk

/-- **A party keeps its lock, or takes one that nobody holds.** -/
theorem Exclusive.set (h : Exclusive holds l) {i : ℕ} {a a' : α} (ha : l[i]? = some a)
    (htake : ∀ k, holds a' = some k → holds a = some k ∨ ∀ b ∈ l, holds b ≠ some k) :
    Exclusive holds (l.set i a') := by
  have hold : ∀ {j : ℕ} {b : α}, j ≠ i → (l.set i a')[j]? = some b → l[j]? = some b := by
    intro j b hj hb
    rwa [List.getElem?_set_ne (Ne.symm hj)] at hb
  have hself : ∀ {b : α}, (l.set i a')[i]? = some b → b = a' := by
    intro b hb
    obtain ⟨hlt, -⟩ := List.getElem?_eq_some_iff.mp ha
    rw [List.getElem?_set_self hlt] at hb
    exact (Option.some.inj hb).symm
  -- another party has another lock than the one at `i`
  have hother : ∀ {j : ℕ} {b : α} {k : κ}, j ≠ i → (l.set i a')[j]? = some b → holds b = some k →
      holds a' ≠ some k := by
    intro j b k hj hb hbk hk
    rcases htake k hk with hsame | hfree
    · exact hj (h j i b a k (hold hj hb) ha hbk hsame)
    · exact hfree b (List.mem_of_getElem? (hold hj hb)) hbk
  intro j j' b b' k hb hb' hbk hbk'
  by_cases hj : j = i
  · by_cases hj' : j' = i
    · exact hj.trans hj'.symm
    · subst hj
      rw [hself hb] at hbk
      exact absurd hbk (hother hj' hb' hbk')
  · by_cases hj' : j' = i
    · subst hj'
      rw [hself hb'] at hbk'
      exact absurd hbk' (hother hj hb hbk)
    · exact h j j' b b' k (hold hj hb) (hold hj' hb') hbk hbk'

theorem Exclusive.map (h : Exclusive holds l) {f : α → α}
    (hf : ∀ a k, holds (f a) = some k → holds a = some k) : Exclusive holds (l.map f) := by
  intro i j b b' k hb hb' hbk hbk'
  rw [List.getElem?_map] at hb hb'
  obtain ⟨a, ha, rfl⟩ := Option.map_eq_some_iff.mp hb
  obtain ⟨a', ha', rfl⟩ := Option.map_eq_some_iff.mp hb'
  exact h i j a a' k ha ha' (hf a k hbk) (hf a' k hbk')

theorem mem_set_cases {i : ℕ} {a b : α} (h : b ∈ l.set i a) :
    b = a ∨ ∃ j : ℕ, j ≠ i ∧ l[j]? = some b := by
  obtain ⟨j, hj⟩ := List.getElem?_of_mem h
  by_cases hji : j = i
  · subst hji
    obtain ⟨hlt, -⟩ := List.getElem?_eq_some_iff.mp hj
    rw [List.length_set] at hlt
    rw [List.getElem?_set_self hlt] at hj
    exact Or.inl (Option.some.inj hj).symm
  · rw [List.getElem?_set_ne (Ne.symm hji)] at hj
    exact Or.inr ⟨j, hji, hj⟩

end Albusforge.Lib
