import Mathlib.Data.List.Perm.Basic
import Mathlib.Order.Lattice
import Mathlib.Order.Defs.LinearOrder

/-!
# Rows that only a greater key replaces

`INSERT ... ON CONFLICT DO UPDATE ... WHERE EXCLUDED.key > row.key`: a register that
keeps the greatest of everything written to it. `GREATEST` is the case in which the
value is its own key. **A register does not depend on the order of its writes when
no two of them share a key** (`foldl_raise_perm`), and what it ends with is the
greatest of them and of what it began with (`foldl_raise_greatest`).
-/

namespace Albusforge.Lib

variable {α κ : Type*} [LinearOrder κ]

def raise (key : α → κ) (old : Option α) (new : α) : Option α :=
  match old with
  | none => some new
  | some a => if key a < key new then some new else some a

/-- The greatest of a list by `key`. -/
structure Greatest (key : α → κ) (as : List α) (m : α) : Prop where
  mem : m ∈ as
  le : ∀ a ∈ as, key a ≤ key m

variable {key : α → κ}

@[simp] theorem raise_none (a : α) : raise key none a = some a := rfl

theorem raise_ne_none (old : Option α) (a : α) : raise key old a ≠ none := by
  cases old with
  | none => simp
  | some b => unfold raise; dsimp only; split <;> simp

theorem raise_above (old : Option α) (a : α) : ∃ b, raise key old a = some b ∧ key a ≤ key b ∧
    ∀ c, old = some c → key c ≤ key b := by
  cases old with
  | none => exact ⟨a, rfl, le_rfl, fun c hc => absurd hc (by simp)⟩
  | some b =>
      by_cases h : key b < key a
      · refine ⟨a, if_pos h, le_rfl, ?_⟩
        intro c hc
        exact Option.some.inj hc ▸ h.le
      · refine ⟨b, if_neg h, not_lt.mp h, ?_⟩
        intro c hc
        exact Option.some.inj hc ▸ le_rfl

theorem raise_right_comm (old : Option α) {a b : α} (hab : key a = key b → a = b) :
    raise key (raise key old a) b = raise key (raise key old b) a := by
  have hpair : raise key (some a) b = raise key (some b) a := by
    unfold raise
    dsimp only
    rcases lt_trichotomy (key a) (key b) with h | h | h
    · rw [if_pos h, if_neg (not_lt_of_gt h)]
    · rw [hab h]
    · rw [if_neg (not_lt_of_gt h), if_pos h]
  cases old with
  | none => exact hpair
  | some c =>
      unfold raise at hpair ⊢
      dsimp only at hpair ⊢
      by_cases ha : key c < key a
      · by_cases hb : key c < key b
        · simpa only [if_pos ha, if_pos hb] using hpair
        · -- `b` is no greater than what is there, so it is no greater than `a` either
          have hba : ¬ key a < key b := fun h => hb (ha.trans h)
          simp only [if_pos ha, if_neg hb, if_neg hba]
      · by_cases hb : key c < key b
        · have hab' : ¬ key b < key a := fun h => ha (hb.trans h)
          simp only [if_neg ha, if_pos hb, if_neg hab']
        · simp only [if_neg ha, if_neg hb]

theorem foldl_raise_perm {as bs : List α} (h : as.Perm bs)
    (hinj : ∀ a ∈ as, ∀ b ∈ as, key a = key b → a = b) (old : Option α) :
    as.foldl (raise key) old = bs.foldl (raise key) old :=
  h.foldl_eq' (fun a ha b hb old => raise_right_comm old (hinj a ha b hb)) old

theorem foldl_raise_eq_none {as : List α} {old : Option α}
    (h : as.foldl (raise key) old = none) : old = none ∧ as = [] := by
  induction as generalizing old with
  | nil => exact ⟨h, rfl⟩
  | cons a as ih => exact absurd (ih h).1 (raise_ne_none old a)

/-- **What a register ends with is the greatest of what it began with and of the writes.** -/
theorem foldl_raise_greatest {as : List α} {old : Option α} {m : α}
    (h : as.foldl (raise key) old = some m) : Greatest key (old.toList ++ as) m := by
  induction as generalizing old with
  | nil =>
      obtain rfl : old = some m := h
      exact ⟨by simp, by simp⟩
  | cons a as ih =>
      have hrest := ih h
      cases old with
      | none => exact hrest
      | some b =>
          unfold raise at hrest
          dsimp only at hrest
          split at hrest
          · rename_i hlt
            refine ⟨by have := hrest.mem; simp_all, ?_⟩
            intro c hc
            rcases List.mem_cons.mp hc with rfl | hc
            · exact hlt.le.trans (hrest.le a (by simp))
            · exact hrest.le c (by simpa using hc)
          · rename_i hge
            refine ⟨?_, ?_⟩
            · rcases List.mem_cons.mp hrest.mem with hm | hm
              · simp [hm]
              · simp [show m ∈ as from hm]
            · intro c hc
              rcases List.mem_cons.mp hc with rfl | hc
              · exact hrest.le c (by simp)
              rcases List.mem_cons.mp hc with rfl | hc
              · exact (le_of_not_gt hge).trans (hrest.le b (by simp))
              · exact hrest.le c (by simp [show c ∈ as from hc])

/-- A register holds the greatest of `as`, or nothing if there is none. -/
def Holds (key : α → κ) (as : List α) : Option α → Prop
  | none => as = []
  | some m => Greatest key as m

theorem foldl_raise_holds (as : List α) (old : Option α) :
    Holds key (old.toList ++ as) (as.foldl (raise key) old) := by
  rcases h : as.foldl (raise key) old with _ | m
  · obtain ⟨rfl, rfl⟩ := foldl_raise_eq_none h
    rfl
  · exact foldl_raise_greatest h

def upsert (key : α → κ) (old : Option α) (batch : Option α) : Option α :=
  match batch with
  | none => old
  | some a => raise key old a

theorem raise_upsert (old batch : Option α) (a : α) :
    raise key (upsert key old batch) a = upsert key old (raise key batch a) := by
  cases batch with
  | none => rfl
  | some b =>
      cases old with
      | none =>
          unfold upsert raise
          dsimp only
          split <;> rfl
      | some c =>
          unfold upsert raise
          dsimp only
          rcases lt_or_ge (key c) (key b) with hcb | hcb
          · rw [if_pos hcb]
            by_cases hba : key b < key a
            · simp only [if_pos hba, if_pos (hcb.trans hba)]
            · simp only [if_neg hba, if_pos hcb]
          · rw [if_neg (not_lt_of_ge hcb)]
            by_cases hba : key b < key a
            · simp only [if_pos hba]
            · have hca : ¬ key c < key a := not_lt_of_ge ((le_of_not_gt hba).trans hcb)
              simp only [if_neg hba, if_neg hca, if_neg (not_lt_of_ge hcb)]

theorem upsert_foldl (as : List α) (old batch : Option α) :
    upsert key old (as.foldl (raise key) batch) = as.foldl (raise key) (upsert key old batch) := by
  induction as generalizing batch with
  | nil => rfl
  | cons a as ih =>
      rw [List.foldl_cons, List.foldl_cons, ih, raise_upsert]

theorem foldl_raise_congr {κ' : Type*} [LinearOrder κ'] {key' : α → κ'} {as : List α}
    {old : Option α} (h : ∀ a ∈ old.toList ++ as, ∀ b ∈ as, key a < key b ↔ key' a < key' b) :
    as.foldl (raise key) old = as.foldl (raise key') old := by
  induction as generalizing old with
  | nil => rfl
  | cons a as ih =>
      have hone : raise key old a = raise key' old a := by
        cases old with
        | none => rfl
        | some b =>
            unfold raise
            simp only [h b (by simp) a (by simp)]
      rw [List.foldl_cons, List.foldl_cons, ← hone]
      apply ih
      intro b hb c hc
      refine h b ?_ c (List.mem_cons_of_mem _ hc)
      have hsub : ∀ d ∈ (raise key old a).toList, d ∈ old.toList ++ [a] := by
        intro d hd
        cases old with
        | none => simpa using hd
        | some e =>
            unfold raise at hd
            dsimp only at hd
            split at hd <;> simp_all
      rcases List.mem_append.mp hb with hb | hb
      · rcases List.mem_append.mp (hsub b hb) with hb | hb
        · simp [List.mem_append.mpr (Or.inl hb)]
        · simp_all
      · simp [List.mem_append, hb]

end Albusforge.Lib
