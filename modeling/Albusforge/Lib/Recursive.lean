import Mathlib.Data.List.Dedup
import Mathlib.Data.List.Perm.Subperm
import Mathlib.Data.Nat.Notation
import Mathlib.Order.Basic
import Mathlib.Logic.Relation

/-!
# Recursive queries

`WITH RECURSIVE`: the rows that a query has found are joined with the table again, until nothing new is
found. With `UNION` a row is kept once, with `UNION ALL` as often as it is found. The rounds are bounded by
the size of the table, and that is enough: **what a query returns is what is reached from its first rows**
(`mem_union`, `mem_unionAll`), with `UNION ALL` where no chain comes back to itself.
-/

namespace Albusforge.Lib.Recursive

open Relation

variable {ρ : Type} [DecidableEq ρ]

def Leads (step : ρ → List ρ) (a b : ρ) : Prop := b ∈ step a

/-- The rounds of a `UNION`: what the working rows lead to that is not there yet. -/
def rounds (step : ρ → List ρ) : ℕ → List ρ → List ρ → List ρ
  | 0, result, _ => result
  | n + 1, result, working =>
      let next := (working.flatMap step).dedup.filter fun r => r ∉ result
      if next = [] then result else rounds step n (result ++ next) next

/-- `start UNION step` over a table of `n` rows. -/
def union (step : ρ → List ρ) (n : ℕ) (start : List ρ) : List ρ := rounds step n start.dedup start.dedup

/-- `start UNION ALL step` over a table of `n` rows. -/
def unionAll (step : ρ → List ρ) : ℕ → List ρ → List ρ
  | 0, _ => []
  | n + 1, working => working ++ unionAll step n (working.flatMap step)

/-- What holds between two rounds over the rows `table`. -/
structure Rounds (step : ρ → List ρ) (table start result working : List ρ) : Prop where
  nodup : result.Nodup
  within : ∀ r ∈ result, r ∈ table
  first : ∀ r ∈ start, r ∈ result
  reached : ∀ r ∈ result, ∃ a ∈ start, ReflTransGen (Leads step) a r
  found : ∀ r ∈ working, r ∈ result
  closed : ∀ r ∈ result, r ∉ working → ∀ q ∈ step r, q ∈ result

variable {step : ρ → List ρ} {table start result working : List ρ}

theorem Rounds.next (h : Rounds step table start result working)
    (htable : ∀ r ∈ table, ∀ q ∈ step r, q ∈ table) :
    Rounds step table start (result ++ (working.flatMap step).dedup.filter fun r => r ∉ result)
      ((working.flatMap step).dedup.filter fun r => r ∉ result) := by
  have hnext : ∀ q, q ∈ (working.flatMap step).dedup.filter (fun r => r ∉ result) ↔
      (∃ r ∈ working, q ∈ step r) ∧ q ∉ result := by
    intro q
    simp [List.mem_filter]
  refine ⟨?_, ?_, ?_, ?_, ?_, ?_⟩
  · rw [List.nodup_append]
    refine ⟨h.nodup, (List.nodup_dedup _).filter _, ?_⟩
    intro r hr q hq heq
    exact ((hnext q).mp hq).2 (heq ▸ hr)
  · intro q hq
    rcases List.mem_append.mp hq with hold | hnew
    · exact h.within q hold
    · obtain ⟨⟨r, hr, hstep⟩, -⟩ := (hnext q).mp hnew
      exact htable r (h.within r (h.found r hr)) q hstep
  · intro r hr
    exact List.mem_append_left _ (h.first r hr)
  · intro q hq
    rcases List.mem_append.mp hq with hold | hnew
    · exact h.reached q hold
    · obtain ⟨⟨r, hr, hstep⟩, -⟩ := (hnext q).mp hnew
      obtain ⟨a, ha, hreach⟩ := h.reached r (h.found r hr)
      exact ⟨a, ha, hreach.tail hstep⟩
  · intro q hq
    exact List.mem_append_right _ hq
  · intro r hr hnot q hq
    have hold : r ∈ result := (List.mem_append.mp hr).resolve_right hnot
    by_cases hworking : r ∈ working
    · by_cases hfound : q ∈ result
      · exact List.mem_append_left _ hfound
      · exact List.mem_append_right _ ((hnext q).mpr ⟨⟨r, hworking, hq⟩, hfound⟩)
    · exact List.mem_append_left _ (h.closed r hold hworking q hq)

omit [DecidableEq ρ] in
theorem mem_of_closed (hfirst : ∀ r ∈ start, r ∈ result)
    (hclosed : ∀ r ∈ result, ∀ q ∈ step r, q ∈ result) {a r : ρ} (ha : a ∈ start)
    (h : ReflTransGen (Leads step) a r) : r ∈ result := by
  induction h with
  | refl => exact hfirst a ha
  | tail _ hstep ih => exact hclosed _ ih _ hstep

theorem mem_rounds (htable : ∀ r ∈ table, ∀ q ∈ step r, q ∈ table) {n : ℕ} :
    ∀ {result working : List ρ}, Rounds step table start result working → table.length ≤ result.length + n →
      ∀ r, r ∈ rounds step n result working ↔ ∃ a ∈ start, ReflTransGen (Leads step) a r := by
  induction n with
  | zero =>
      intro result working h hlength r
      refine ⟨h.reached r, ?_⟩
      intro ⟨a, ha, hreach⟩
      -- the whole table has been found
      have hperm := (List.subperm_of_subset h.nodup h.within).perm_of_length_le (by simpa using hlength)
      refine mem_of_closed h.first ?_ ha hreach
      intro q hq p hp
      exact hperm.mem_iff.mpr (htable q (h.within q hq) p hp)
  | succ n ih =>
      intro result working h hlength r
      rw [rounds]
      by_cases hnext : (working.flatMap step).dedup.filter (fun r => r ∉ result) = []
      · rw [if_pos hnext]
        refine ⟨h.reached r, ?_⟩
        intro ⟨a, ha, hreach⟩
        refine mem_of_closed h.first ?_ ha hreach
        intro q hq p hp
        by_cases hworking : q ∈ working
        · by_contra hmissing
          have hmem : p ∈ (working.flatMap step).dedup.filter (fun r => r ∉ result) := by
            simp only [List.mem_filter, List.mem_dedup, List.mem_flatMap, decide_not, Bool.not_eq_true',
              decide_eq_false_iff_not]
            exact ⟨⟨q, hworking, hp⟩, hmissing⟩
          rw [hnext] at hmem
          exact absurd hmem (by simp)
        · exact h.closed q hq hworking p hp
      · rw [if_neg hnext]
        have hpos := List.length_pos_iff.mpr hnext
        refine ih (h.next htable) ?_ r
        rw [List.length_append]
        omega

/-- **A `UNION` returns what is reached.** -/
theorem mem_union (table : List ρ) (htable : ∀ r ∈ table, ∀ q ∈ step r, q ∈ table) (hstart : ∀ r ∈ start, r ∈ table) (r : ρ) :
    r ∈ union step table.length start ↔ ∃ a ∈ start, ReflTransGen (Leads step) a r := by
  have hfirst : Rounds step table start start.dedup start.dedup := by
    refine ⟨List.nodup_dedup _, ?_, ?_, ?_, fun _ hr => hr, fun r hr hnot => absurd hr hnot⟩
    · intro r hr
      exact hstart r (List.mem_dedup.mp hr)
    · intro r hr
      exact List.mem_dedup.mpr hr
    · intro r hr
      exact ⟨r, List.mem_dedup.mp hr, .refl⟩
  exact mem_rounds htable hfirst (by omega) r

/-! ## Chains -/

def Chain (step : ρ → List ρ) : ℕ → ρ → ρ → Prop
  | 0, a, b => a = b
  | n + 1, a, b => ∃ c ∈ step a, Chain step n c b

omit [DecidableEq ρ] in
theorem mem_unionAll_chain {n : ℕ} : ∀ {working : List ρ} {r : ρ},
    r ∈ unionAll step n working ↔ ∃ a ∈ working, ∃ k < n, Chain step k a r := by
  induction n with
  | zero =>
      intro working r
      simp [unionAll]
  | succ n ih =>
      intro working r
      rw [unionAll, List.mem_append, ih]
      refine ⟨?_, ?_⟩
      · intro h
        rcases h with hr | ⟨c, hc, k, hk, hchain⟩
        · exact ⟨r, hr, 0, by omega, rfl⟩
        · obtain ⟨a, ha, hstep⟩ := List.mem_flatMap.mp hc
          exact ⟨a, ha, k + 1, by omega, c, hstep, hchain⟩
      · intro ⟨a, ha, k, hk, hchain⟩
        cases k with
        | zero => exact Or.inl (hchain ▸ ha)
        | succ k =>
            obtain ⟨c, hstep, hchain⟩ := hchain
            exact Or.inr ⟨c, List.mem_flatMap.mpr ⟨a, ha, hstep⟩, k, by omega, hchain⟩

omit [DecidableEq ρ] in
theorem Chain.reaches {k : ℕ} : ∀ {a r : ρ}, Chain step k a r → ReflTransGen (Leads step) a r := by
  induction k with
  | zero =>
      intro a r h
      exact h ▸ .refl
  | succ k ih =>
      intro a r ⟨c, hstep, h⟩
      exact .head hstep (ih h)

omit [DecidableEq ρ] in
theorem reaches_chain {α : Type} [Preorder α] {rank : ρ → α} (htable : ∀ r ∈ table, ∀ q ∈ step r, q ∈ table)
    (hrank : ∀ r ∈ table, ∀ q ∈ step r, rank r < rank q) {a r : ρ} (ha : a ∈ table)
    (h : ReflTransGen (Leads step) a r) : ∃ k < table.length, Chain step k a r := by
  -- the rows of the chain, all of a rank of their own
  have hrows : ∃ rows : List ρ, (rows.map rank).Nodup ∧ (∀ q ∈ rows, q ∈ table ∧ rank a < rank q) ∧
      Chain step rows.length a r := by
    induction h using ReflTransGen.head_induction_on with
    | refl => exact ⟨[], by simp, by simp, rfl⟩
    | @head a c hstep _ ih =>
        have hc := htable a ha c hstep
        obtain ⟨rows, hnodup, hrows, hchain⟩ := ih hc
        have hless := hrank a ha c hstep
        refine ⟨c :: rows, ?_, ?_, c, hstep, hchain⟩
        · rw [List.map_cons, List.nodup_cons]
          refine ⟨?_, hnodup⟩
          intro hmem
          obtain ⟨q, hq, heq⟩ := List.mem_map.mp hmem
          exact absurd (heq ▸ (hrows q hq).2) (lt_irrefl _)
        · intro q hq
          rcases List.mem_cons.mp hq with rfl | hq
          · exact ⟨hc, hless⟩
          · exact ⟨(hrows q hq).1, lt_trans hless (hrows q hq).2⟩
  obtain ⟨rows, hnodup, hrows, hchain⟩ := hrows
  have hall : (a :: rows).Nodup := by
    refine List.nodup_cons.mpr ⟨?_, hnodup.of_map rank⟩
    intro hmem
    exact absurd (hrows a hmem).2 (lt_irrefl _)
  have hwithin : ∀ q ∈ a :: rows, q ∈ table := by
    intro q hq
    rcases List.mem_cons.mp hq with rfl | hq
    · exact ha
    · exact (hrows q hq).1
  have hlength := (List.subperm_of_subset hall hwithin).length_le
  exact ⟨rows.length, hlength, hchain⟩

omit [DecidableEq ρ] in
theorem mem_unionAll {α : Type} [Preorder α] (table : List ρ) (rank : ρ → α)
    (htable : ∀ r ∈ table, ∀ q ∈ step r, q ∈ table)
    (hrank : ∀ r ∈ table, ∀ q ∈ step r, rank r < rank q) (hstart : ∀ r ∈ start, r ∈ table) (r : ρ) :
    r ∈ unionAll step table.length start ↔ ∃ a ∈ start, ReflTransGen (Leads step) a r := by
  rw [mem_unionAll_chain]
  refine ⟨?_, ?_⟩
  · intro ⟨a, ha, k, _, hchain⟩
    exact ⟨a, ha, hchain.reaches⟩
  · intro ⟨a, ha, hreach⟩
    obtain ⟨k, hk, hchain⟩ := reaches_chain htable hrank (hstart a ha) hreach
    exact ⟨a, ha, k, hk, hchain⟩

end Albusforge.Lib.Recursive
