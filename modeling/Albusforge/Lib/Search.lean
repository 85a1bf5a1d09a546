import Mathlib.Data.List.Sublists
import Mathlib.Algebra.Order.Ring.Rat

/-!
# Bounded backtracking

Seven things a search by backtracking is made of, each with the fact that lets a
proof about the search forget how it ran.

**A computation that may be aborted.** `Yields π x a g` says that whenever `x`
finishes it returns `a` and moves the part `π` of the state by `g`. Everything
outside `π` (counters, diagnostics) and every aborted run is out of the picture.

**A computation that is never aborted.** `Returns x a` says that from every state `x` finishes
and returns `a`. A step that never raises makes a search of such computations.

**A budget that only cuts.** `Budgeted` says that for every budget there is the same run,
broken off at the first step the budget does not cover. What is built from such
computations is one (`Budgeted.bind`, `Budgeted.foldlM`), and then the budget decides
whether there is an answer but never which.

**A run of a known price.** `Costs` says what a computation spends when that depends on neither the
state nor what it returns; it finishes exactly when the budget covers the price.

**Choosing a subset by exclusion and inclusion.** `pick` lists the leaves of the
recursion; `mem_pick` says they are the sublists with distinct keys.

**Keeping the best leaf seen so far.** `foldl_better_le` says that a strict
improvement test keeps a least one.

**Deleting what is not needed.** One pass over a list, dropping every element the
property survives without, leaves nothing that could still be dropped
(`deletePass_irredundant`), as long as the property only ever grows.
-/

namespace Albusforge.Lib

universe u v

/-! ## Computations that may be aborted -/

section Yields

variable {ε σ τ α β : Type}

/-- Whenever `x` finishes it returns `a`, and `π` of the state moves by `g`. -/
def Yields (π : σ → τ) (x : EStateM ε σ α) (a : α) (g : τ → τ) : Prop :=
  ∀ s b s', x s = .ok b s' → b = a ∧ π s' = g (π s)

variable {π : σ → τ} {x : EStateM ε σ α} {f : α → EStateM ε σ β} {a : α} {b : β} {g h : τ → τ}

theorem EStateM_bind_ok {s s'' : σ} (hx : (x >>= f) s = .ok b s'') :
    ∃ a s', x s = .ok a s' ∧ f a s' = .ok b s'' := by
  have hx' : EStateM.bind x f s = .ok b s'' := hx
  unfold EStateM.bind at hx'
  split at hx'
  · rename_i a s' heq
    exact ⟨a, s', heq, hx'⟩
  · exact absurd hx' (by simp)

theorem Yields.pure (a : α) : Yields π (Pure.pure a : EStateM ε σ α) a id := by
  intro s b s' h
  obtain ⟨rfl, rfl⟩ := EStateM.Result.ok.inj h
  exact ⟨rfl, rfl⟩

theorem Yields.bind (hx : Yields π x a g) (hf : Yields π (f a) b h) :
    Yields π (x >>= f) b (h ∘ g) := by
  intro s c s'' hr
  obtain ⟨a', s', h1, h2⟩ := EStateM_bind_ok hr
  obtain ⟨rfl, hg⟩ := hx _ _ _ h1
  obtain ⟨rfl, hh⟩ := hf _ _ _ h2
  exact ⟨rfl, by rw [hh, hg]; rfl⟩

theorem Yields.after (hx : Yields π x a id) (hf : Yields π (f a) b h) :
    Yields π (x >>= f) b h := Yields.bind hx hf

theorem Yields.before (hx : Yields π x a g) (hf : Yields π (f a) b id) :
    Yields π (x >>= f) b g := Yields.bind (h := id) hx hf

theorem Yields.modify {t : σ → σ} (ht : ∀ s, π (t s) = g (π s)) :
    Yields π (modify t : EStateM ε σ PUnit) () g := by
  intro s b s' h
  obtain ⟨rfl, rfl⟩ := EStateM.Result.ok.inj h
  exact ⟨rfl, ht s⟩

theorem Yields.forM {γ : Type} {body : γ → EStateM ε σ PUnit}
    (hb : ∀ c, Yields π (body c) () id) : ∀ l : List γ, Yields π (l.forM body) () id
  | [] => Yields.pure ()
  | c :: l => Yields.after (hb c) (Yields.forM hb l)

theorem Yields.foldlM {γ : Type} {body : α → γ → EStateM ε σ α} {pureBody : α → γ → α}
    (hb : ∀ a c, Yields π (body a c) (pureBody a c) id) :
    ∀ (l : List γ) (a : α), Yields π (l.foldlM body a) (l.foldl pureBody a) id
  | [], a => Yields.pure a
  | c :: l, a => Yields.after (hb a c) (Yields.foldlM hb l (pureBody a c))

end Yields

/-! ## Computations that are never aborted -/

section Returns

variable {ε σ α β γ : Type} {x : EStateM ε σ α} {f : α → EStateM ε σ β} {a : α} {b : β}

/-- From every state `x` finishes and returns `a`. -/
def Returns (x : EStateM ε σ α) (a : α) : Prop := ∀ s, ∃ s', x s = .ok a s'

theorem Returns.pure (a : α) : Returns (Pure.pure a : EStateM ε σ α) a := fun s => ⟨s, rfl⟩

theorem Returns.bind (hx : Returns x a) (hf : Returns (f a) b) : Returns (x >>= f) b := by
  intro s
  obtain ⟨s', hs'⟩ := hx s
  obtain ⟨s'', hs''⟩ := hf s'
  refine ⟨s'', ?_⟩
  show EStateM.bind x f s = _
  unfold EStateM.bind
  rw [hs']
  exact hs''

theorem Returns.foldlM {body : α → γ → EStateM ε σ α} {pureBody : α → γ → α}
    (hb : ∀ a c, Returns (body a c) (pureBody a c)) :
    ∀ (l : List γ) (a : α), Returns (l.foldlM body a) (l.foldl pureBody a)
  | [], a => Returns.pure a
  | c :: l, a => Returns.bind (hb a c) (Returns.foldlM hb l (pureBody a c))

end Returns

/-! ## A budget that only cuts -/

section Budget

variable {ε σ α β γ : Type} {spent : σ → ℕ}

/-- Whatever the budget, `x` is the same run, broken off when it would spend more. -/
def Budgeted (spent : σ → ℕ) (x : ℕ → EStateM ε σ α) : Prop :=
  ∃ run : σ → α × σ, ∀ s, spent s ≤ spent (run s).2 ∧ ∀ n, spent s ≤ n →
    (spent (run s).2 ≤ n → x n s = .ok (run s).1 (run s).2) ∧
    (n < spent (run s).2 → ∃ e s', x n s = .error e s' ∧ spent s' = n)

variable {x : ℕ → EStateM ε σ α} {f : α → ℕ → EStateM ε σ β}

theorem Budgeted.pure (a : α) : Budgeted spent fun _ => (Pure.pure a : EStateM ε σ α) := by
  refine ⟨fun s => (a, s), fun s => ⟨le_rfl, fun n hn => ⟨fun _ => rfl, ?_⟩⟩⟩
  intro hlt
  dsimp only at hlt
  omega

theorem Budgeted.modify {t : σ → σ} (ht : ∀ s, spent (t s) = spent s) :
    Budgeted spent fun _ => (modify t : EStateM ε σ PUnit) := by
  refine ⟨fun s => ((), t s), fun s => ⟨(ht s).ge, fun n hn => ⟨fun _ => rfl, ?_⟩⟩⟩
  intro hlt
  dsimp only at hlt
  rw [ht s] at hlt
  omega

theorem Budgeted.get : Budgeted spent fun _ => (get : EStateM ε σ σ) := by
  refine ⟨fun s => (s, s), fun s => ⟨le_rfl, fun n hn => ⟨fun _ => rfl, ?_⟩⟩⟩
  intro hlt
  dsimp only at hlt
  omega

theorem Budgeted.bind (hx : Budgeted spent x) (hf : ∀ a, Budgeted spent (f a)) :
    Budgeted spent fun n => x n >>= fun a => f a n := by
  obtain ⟨run, hrun⟩ := hx
  choose rest hrest using hf
  refine ⟨fun s => rest (run s).1 (run s).2, fun s => ?_⟩
  obtain ⟨hle, hfirst⟩ := hrun s
  obtain ⟨hle', hsecond⟩ := hrest (run s).1 (run s).2
  refine ⟨hle.trans hle', fun n hn => ?_⟩
  obtain ⟨hok, hcut⟩ := hfirst n hn
  dsimp only
  by_cases hmid : spent (run s).2 ≤ n
  · -- the first run is covered, and the second decides
    have hbind : (x n >>= fun a => f a n) s = f (run s).1 n (run s).2 := by
      change EStateM.bind (x n) (fun a => f a n) s = _
      unfold EStateM.bind
      rw [hok hmid]
    rw [hbind]
    exact hsecond n hmid
  · -- the first run is broken off, and its end is beyond the budget as well
    obtain ⟨e, s', herror, hs'⟩ := hcut (by omega)
    have hbind : (x n >>= fun a => f a n) s = .error e s' := by
      change EStateM.bind (x n) (fun a => f a n) s = _
      unfold EStateM.bind
      rw [herror]
    rw [hbind]
    exact ⟨fun hall => by omega, fun _ => ⟨e, s', rfl, hs'⟩⟩

theorem Budgeted.ite {c : Prop} [Decidable c] {y : ℕ → EStateM ε σ α} (hx : Budgeted spent x)
    (hy : Budgeted spent y) : Budgeted spent fun n => if c then x n else y n := by
  by_cases hc : c
  · simpa only [if_pos hc] using hx
  · simpa only [if_neg hc] using hy

theorem Budgeted.foldlM {body : α → γ → ℕ → EStateM ε σ α} (hb : ∀ a c, Budgeted spent (body a c)) :
    ∀ (l : List γ) (a : α), Budgeted spent fun n => l.foldlM (fun a c => body a c n) a
  | [], a => Budgeted.pure a
  | c :: l, a => Budgeted.bind (hb a c) fun a' => Budgeted.foldlM hb l a'

theorem Budgeted.forM {body : γ → ℕ → EStateM ε σ PUnit} (hb : ∀ c, Budgeted spent (body c)) :
    ∀ l : List γ, Budgeted spent fun n => l.forM fun c => body c n
  | [] => Budgeted.pure ()
  | c :: l => Budgeted.bind (hb c) fun _ => Budgeted.forM hb l

theorem Budgeted.cut (hx : Budgeted spent x) {n : ℕ} {s s' : σ} {a : α} (hn : spent s ≤ n)
    (h : x n s = .ok a s') :
    spent s' ≤ n ∧ (∀ m, n ≤ m → x m s = .ok a s') ∧
      ∀ m, spent s ≤ m → m < spent s' → ∃ e s'', x m s = .error e s'' ∧ spent s'' = m := by
  obtain ⟨run, hrun⟩ := hx
  obtain ⟨-, hall⟩ := hrun s
  have hle : spent (run s).2 ≤ n := by
    by_contra hlt
    obtain ⟨e, t, herror, -⟩ := (hall n hn).2 (by omega)
    rw [herror] at h
    exact absurd h (by simp)
  rw [(hall n hn).1 hle] at h
  obtain ⟨rfl, rfl⟩ := EStateM.Result.ok.inj h
  refine ⟨hle, ?_, ?_⟩
  · intro m hm
    exact (hall m (by omega)).1 (by omega)
  · intro m hm hlt
    exact (hall m hm).2 hlt

theorem Budgeted.spent_all (hx : Budgeted spent x) {n : ℕ} {s s' : σ} {e : ε} (hn : spent s ≤ n)
    (h : x n s = .error e s') : spent s' = n := by
  obtain ⟨run, hrun⟩ := hx
  obtain ⟨-, hall⟩ := hrun s
  by_cases hle : spent (run s).2 ≤ n
  · rw [(hall n hn).1 hle] at h
    exact absurd h (by simp)
  · obtain ⟨e', t, herror, ht⟩ := (hall n hn).2 (by omega)
    rw [herror] at h
    obtain ⟨-, rfl⟩ := EStateM.Result.error.inj h
    exact ht

end Budget

/-! ## Choosing a subset -/

section Pick

variable {α : Type u} {κ : Type v} [DecidableEq κ]

def pick (key : α → κ) : List α → List α → List (List α)
  | chosen, [] => [chosen]
  | chosen, c :: rest =>
      pick key chosen rest ++
        if key c ∈ chosen.map key then [] else pick key (chosen ++ [c]) rest

variable {key : α → κ}

theorem pick_extends : ∀ (rest chosen : List α), ∀ l ∈ pick key chosen rest,
    ∃ t, t.Sublist rest ∧ l = chosen ++ t
  | [], chosen, l, h => ⟨[], List.Sublist.refl _, by simpa [pick] using h⟩
  | c :: rest, chosen, l, h => by
      rw [pick, List.mem_append] at h
      rcases h with h | h
      · obtain ⟨t, ht, rfl⟩ := pick_extends rest chosen l h
        exact ⟨t, ht.cons c, rfl⟩
      · split at h
        · exact absurd h (by simp)
        · obtain ⟨t, ht, rfl⟩ := pick_extends rest _ l h
          exact ⟨c :: t, ht.cons_cons c, by simp⟩

/-- **The leaves are the selections with distinct keys, every one of them.** -/
theorem mem_pick : ∀ (rest chosen : List α) {l : List α}, (chosen.map key).Nodup →
    (l ∈ pick key chosen rest ↔
      ∃ t, t.Sublist rest ∧ l = chosen ++ t ∧ (l.map key).Nodup)
  | [], chosen, l, hnd => by
      simp only [pick, List.mem_singleton, List.sublist_nil]
      constructor
      · rintro rfl
        exact ⟨[], rfl, by simp, hnd⟩
      · rintro ⟨t, rfl, rfl, _⟩
        simp
  | c :: rest, chosen, l, hnd => by
      rw [pick, List.mem_append, mem_pick rest chosen hnd]
      constructor
      · rintro (⟨t, ht, hl, hk⟩ | h)
        · exact ⟨t, ht.cons c, hl, hk⟩
        · split at h
          · exact absurd h (by simp)
          · rename_i hc
            have hnd' : ((chosen ++ [c]).map key).Nodup := by
              rw [List.map_append, List.nodup_append]
              refine ⟨hnd, by simp, ?_⟩
              intro a ha b hb hab
              simp only [List.map_cons, List.map_nil, List.mem_singleton] at hb
              exact hc (by rw [← hb, ← hab]; exact ha)
            obtain ⟨t, ht, rfl, hk⟩ := (mem_pick rest (chosen ++ [c]) hnd').mp h
            exact ⟨c :: t, ht.cons_cons c, by simp, hk⟩
      · rintro ⟨t, ht, rfl, hk⟩
        cases ht with
        | cons _ ht => exact Or.inl ⟨t, ht, rfl, hk⟩
        | @cons_cons t _ _ ht =>
            refine Or.inr ?_
            have hk' : ((chosen ++ [c] ++ t).map key).Nodup := by simpa using hk
            have hnd' : ((chosen ++ [c]).map key).Nodup :=
              hk'.sublist ((List.sublist_append_left _ _).map key)
            have hc : key c ∉ chosen.map key := by
              intro hmem
              rw [List.map_append, List.nodup_append] at hnd'
              exact hnd'.2.2 _ hmem _ (by simp) rfl
            rw [if_neg hc]
            exact (mem_pick rest (chosen ++ [c]) hnd').mpr ⟨t, ht, by simp, by simpa using hk⟩

theorem pick_nodup : ∀ (rest chosen : List α), rest.Nodup → (pick key chosen rest).Nodup
  | [], _, _ => by simp [pick]
  | c :: rest, chosen, hnd => by
      have hc : c ∉ rest := (List.nodup_cons.mp hnd).1
      have hrest : rest.Nodup := (List.nodup_cons.mp hnd).2
      rw [pick, List.nodup_append]
      refine ⟨pick_nodup rest chosen hrest, ?_, ?_⟩
      · split
        · exact List.nodup_nil
        · exact pick_nodup rest _ hrest
      · intro a ha b hb hab
        split at hb
        · exact absurd hb (by simp)
        · obtain ⟨t, ht, rfl⟩ := pick_extends rest _ a ha
          obtain ⟨t', _, rfl⟩ := pick_extends rest _ b hb
          have : t = c :: t' := by simpa using hab
          exact hc (ht.subset (by simp [this]))

end Pick

/-! ## The best leaf so far -/

section Best

variable {α : Type u}

def better (lt : α → α → Bool) (best : Option α) (a : α) : Option α :=
  if best.all (lt a) then some a else best

theorem foldl_better_isSome (lt : α → α → Bool) : ∀ (l : List α) (best : Option α),
    (l.foldl (better lt) best).isSome = true ↔ best.isSome = true ∨ l ≠ []
  | [], best => by simp
  | a :: l, best => by
      rw [List.foldl_cons, foldl_better_isSome lt l]
      cases best with
      | none => simp [better]
      | some b =>
          by_cases h : lt a b = true <;> simp [better, h]

theorem foldl_better_mem {lt : α → α → Bool} : ∀ (l : List α) (best : Option α) {b : α},
    l.foldl (better lt) best = some b → best = some b ∨ b ∈ l
  | [], best, b, h => Or.inl h
  | a :: l, best, b, h => by
      rcases foldl_better_mem l _ h with h' | h'
      · unfold better at h'
        split at h'
        · exact Or.inr (by simp [Option.some.inj h'])
        · exact Or.inl h'
      · exact Or.inr (List.mem_cons_of_mem _ h')

theorem foldl_better_le (cost : α → ℚ) : ∀ (l : List α) (best : Option α) {b : α},
    l.foldl (better (fun x y => decide (cost x < cost y))) best = some b →
    (∀ c, best = some c → cost b ≤ cost c) ∧ ∀ a ∈ l, cost b ≤ cost a
  | [], best, b, h => ⟨by rintro c rfl; simp_all, by simp⟩
  | a :: l, best, b, h => by
      obtain ⟨h1, h2⟩ := foldl_better_le cost l _ h
      cases best with
      | none => exact ⟨by simp, by simpa using ⟨h1 a (by simp [better]), h2⟩⟩
      | some c =>
          by_cases hac : cost a < cost c
          · have hba : cost b ≤ cost a := h1 a (by simp [better, hac])
            refine ⟨?_, by simpa using ⟨hba, h2⟩⟩
            rintro d hd
            rw [← Option.some.inj hd]
            exact le_trans hba hac.le
          · have hbc : cost b ≤ cost c := h1 c (by simp [better, hac])
            refine ⟨by rintro d hd; rw [← Option.some.inj hd]; exact hbc, ?_⟩
            simpa using ⟨le_trans hbc (not_lt.mp hac), h2⟩

end Best

/-! ## Deletion -/

section Delete

variable {α : Type u} [BEq α] [LawfulBEq α]

/-- One pass over `rest`, dropping from `kept` every element that `bad` survives without. -/
def deletePass (bad : List α → Bool) : List α → List α → List α
  | [], kept => kept
  | a :: rest, kept =>
      deletePass bad rest
        (if bad (kept.filter (· != a)) then kept.filter (· != a) else kept)

variable {bad : List α → Bool}

omit [LawfulBEq α] in
theorem deletePass_sublist (bad : List α → Bool) : ∀ (rest kept : List α), (deletePass bad rest kept).Sublist kept
  | [], kept => List.Sublist.refl kept
  | a :: rest, kept => by
      rw [deletePass]
      split
      · exact (deletePass_sublist bad rest _).trans List.filter_sublist
      · exact deletePass_sublist bad rest kept

omit [LawfulBEq α] in
theorem deletePass_bad : ∀ (rest kept : List α), bad kept = true →
    bad (deletePass bad rest kept) = true
  | [], _, h => h
  | a :: rest, kept, h => by
      rw [deletePass]
      split
      · rename_i hbad
        exact deletePass_bad rest _ hbad
      · exact deletePass_bad rest kept h

/--
**One pass is enough.**

An element that is kept was needed when it was tried, and everything dropped later
only makes it more needed: `bad` grows with the list.
-/
theorem deletePass_irredundant (hmono : ∀ l l' : List α, l ⊆ l' → bad l = true → bad l' = true) :
    ∀ (rest kept : List α), ∀ a ∈ rest, a ∈ deletePass bad rest kept →
      bad ((deletePass bad rest kept).filter (· != a)) = false
  | b :: rest, kept, a, ha, hmem => by
      rw [deletePass] at hmem ⊢
      by_cases hb : bad (kept.filter (· != b)) = true
      · rw [if_pos hb] at hmem ⊢
        have hne : a ≠ b := by
          have := (deletePass_sublist bad rest _).subset hmem
          simpa using (List.mem_filter.mp this).2
        have harest : a ∈ rest := (List.mem_cons.mp ha).resolve_left hne
        exact deletePass_irredundant hmono rest _ a harest hmem
      · rw [if_neg hb] at hmem ⊢
        rcases List.mem_cons.mp ha with rfl | harest
        · -- `a` was kept when it was tried
          by_contra hcon
          refine hb (hmono _ _ ?_ (by simpa using hcon))
          intro c hc
          obtain ⟨hc1, hc2⟩ := List.mem_filter.mp hc
          exact List.mem_filter.mpr ⟨(deletePass_sublist bad rest _).subset hc1, hc2⟩
        · exact deletePass_irredundant hmono rest _ a harest hmem

end Delete

end Albusforge.Lib
