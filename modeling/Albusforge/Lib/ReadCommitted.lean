import Mathlib.Logic.Function.Basic

/-!
# Rows under read committed

A row has a committed version, and at most one transaction that has it locked, with the version that it
would leave. A transaction sees its own version of a row it has locked and the committed version of every
other. A statement that changes rows takes the rows it finds when it begins, and goes through them one by
one: where a row is locked it waits, and then looks at it again.
-/

namespace Albusforge.Lib.ReadCommitted

variable {τ ρ κ : Type} [DecidableEq τ]

structure Slot (τ ρ : Type) where
  committed : Option ρ
  held : Option (τ × ρ)

namespace Slot

def empty : Slot τ ρ := ⟨none, none⟩

def seen (t : τ) (x : Slot τ ρ) : Option ρ :=
  match x.held with
  | some (u, r) => if u = t then some r else x.committed
  | none => x.committed

def Free (t : τ) (x : Slot τ ρ) : Prop := ∀ u r, x.held = some (u, r) → u = t

/-- `t` has it locked. -/
def HeldBy (t : τ) (x : Slot τ ρ) : Prop := ∃ r, x.held = some (t, r)

def hold (t : τ) (r : ρ) (x : Slot τ ρ) : Slot τ ρ := { x with held := some (t, r) }

def commit (t : τ) (x : Slot τ ρ) : Slot τ ρ :=
  match x.held with
  | some (u, r) => if u = t then ⟨some r, none⟩ else x
  | none => x

def abort (t : τ) (x : Slot τ ρ) : Slot τ ρ :=
  match x.held with
  | some (u, _) => if u = t then ⟨x.committed, none⟩ else x
  | none => x

variable {t u : τ} {r : ρ} {x : Slot τ ρ}

omit [DecidableEq τ] in
@[simp] theorem hold_committed : (x.hold t r).committed = x.committed := rfl

omit [DecidableEq τ] in
@[simp] theorem hold_held : (x.hold t r).held = some (t, r) := rfl

theorem seen_of_held (h : x.held = some (t, r)) : x.seen t = some r := by
  simp [seen, h]

theorem seen_of_not_held (h : ¬ x.HeldBy t) : x.seen t = x.committed := by
  unfold seen
  split
  · rename_i u r hheld
    rw [if_neg]
    intro heq
    exact h ⟨r, heq ▸ hheld⟩
  · rfl

theorem commit_of_held (h : x.held = some (t, r)) : x.commit t = ⟨some r, none⟩ := by
  simp [commit, h]

theorem commit_of_not_held (h : ¬ x.HeldBy t) : x.commit t = x := by
  unfold commit
  split
  · rename_i u r hheld
    rw [if_neg]
    intro heq
    exact h ⟨r, heq ▸ hheld⟩
  · rfl

theorem commit_committed {r : ρ} (h : (x.commit t).committed = some r) :
    x.held = some (t, r) ∨ (¬ x.HeldBy t ∧ x.committed = some r) := by
  by_cases hheld : x.HeldBy t
  · obtain ⟨q, hq⟩ := hheld
    rw [commit_of_held hq] at h
    exact Or.inl (Option.some.inj h ▸ hq)
  · rw [commit_of_not_held hheld] at h
    exact Or.inr ⟨hheld, h⟩

theorem commit_held (h : (x.commit t).held = some (u, r)) : x.held = some (u, r) ∧ u ≠ t := by
  by_cases hheld : x.HeldBy t
  · obtain ⟨q, hq⟩ := hheld
    rw [commit_of_held hq] at h
    exact absurd h (by simp)
  · rw [commit_of_not_held hheld] at h
    refine ⟨h, ?_⟩
    intro heq
    exact hheld ⟨r, heq ▸ h⟩

@[simp] theorem abort_committed : (x.abort t).committed = x.committed := by
  unfold abort
  split
  · split
    · rfl
    · rfl
  · rfl

theorem abort_held (h : (x.abort t).held = some (u, r)) : x.held = some (u, r) ∧ u ≠ t := by
  unfold abort at h
  split at h
  · rename_i v q hheld
    split at h
    · exact absurd h (by simp)
    · rename_i hne
      refine ⟨h, ?_⟩
      rw [hheld] at h
      obtain ⟨rfl, -⟩ := Prod.mk.inj (Option.some.inj h)
      exact hne
  · rename_i hheld
    exact absurd (hheld.symm.trans h) (by simp)

theorem abort_of_not_held (h : ¬ x.HeldBy t) : x.abort t = x := by
  unfold abort
  split
  · rename_i u r hheld
    rw [if_neg]
    intro heq
    exact h ⟨r, heq ▸ hheld⟩
  · rfl

omit [DecidableEq τ] in
theorem held_unique (h : x.held = some (t, r)) (hu : x.HeldBy u) : u = t := by
  obtain ⟨q, hq⟩ := hu
  exact (Prod.mk.inj (Option.some.inj (hq.symm.trans h))).1

omit [DecidableEq τ] in
theorem free_of_heldBy (h : x.HeldBy t) : x.Free t := fun _ _ hheld => (held_unique hheld h).symm

omit [DecidableEq τ] in
theorem free_empty : (empty : Slot τ ρ).Free t := fun _ _ hheld => absurd hheld (by simp [empty])

theorem commit_of_other (h : x.HeldBy u) (hu : u ≠ t) : x.commit t = x := by
  refine commit_of_not_held ?_
  intro ⟨r, hr⟩
  exact hu (held_unique hr h)

end Slot

abbrev Heap (κ τ ρ : Type) := κ → Slot τ ρ

/-- `UPDATE`: which rows, and to what. -/
structure Update (ρ : Type) where
  matching : ρ → Bool
  change : ρ → ρ

namespace Update

variable [DecidableEq κ] (u : Update ρ) (t : τ)

omit [DecidableEq κ] in
def targets (h : Heap κ τ ρ) (k : κ) : Bool := ((h k).seen t).any u.matching

omit [DecidableEq κ] in
def apply (x : Slot τ ρ) : Slot τ ρ :=
  match (x.seen t).filter u.matching with
  | some r => x.hold t (u.change r)
  | none => x

def visit (k : κ) (h : Heap κ τ ρ) : Heap κ τ ρ := Function.update h k (u.apply t (h k))

variable {u : Update ρ} {t : τ} {k k' : κ} {h : Heap κ τ ρ} {x : Slot τ ρ}

omit [DecidableEq κ] in
theorem targets_iff : u.targets t h k = true ↔ ∃ r, (h k).seen t = some r ∧ u.matching r = true := by
  rw [targets]
  cases (h k).seen t with
  | none => simp
  | some r => simp

omit [DecidableEq κ] in
@[simp] theorem apply_committed : (u.apply t x).committed = x.committed := by
  unfold apply
  split
  · rfl
  · rfl

omit [DecidableEq κ] in
theorem apply_of_seen {r : ρ} (hseen : x.seen t = some r) (hmatch : u.matching r = true) :
    u.apply t x = x.hold t (u.change r) := by
  rw [apply, hseen, Option.filter_some, if_pos hmatch]

omit [DecidableEq κ] in
theorem apply_of_not_seen {r : ρ} (hseen : x.seen t = some r) (hmatch : u.matching r = false) :
    u.apply t x = x := by
  rw [apply, hseen, Option.filter_some, if_neg (by simp [hmatch])]

omit [DecidableEq κ] in
theorem apply_held {v : τ} {r : ρ} (hheld : (u.apply t x).held = some (v, r)) :
    x.held = some (v, r) ∨ (v = t ∧ ∃ q, x.seen t = some q ∧ u.matching q = true ∧ r = u.change q) := by
  unfold apply at hheld
  split at hheld
  · rename_i q hq
    rw [Slot.hold_held] at hheld
    obtain ⟨rfl, rfl⟩ := Prod.mk.inj (Option.some.inj hheld)
    obtain ⟨hseen, hmatch⟩ := Option.filter_eq_some_iff.mp hq
    exact Or.inr ⟨rfl, q, hseen, hmatch, rfl⟩
  · exact Or.inl hheld

omit [DecidableEq κ] in
theorem apply_heldBy (hheld : x.HeldBy t) : (u.apply t x).HeldBy t := by
  unfold apply
  split
  · exact ⟨_, rfl⟩
  · exact hheld

theorem visit_of_ne (hne : k' ≠ k) : u.visit t k h k' = h k' := Function.update_of_ne hne _ _

theorem visit_self : u.visit t k h k = u.apply t (h k) := Function.update_self ..

theorem visit_committed : (u.visit t k h k').committed = (h k').committed := by
  by_cases hk : k' = k
  · rw [hk, visit_self, apply_committed]
  · rw [visit_of_ne hk]

theorem visit_heldBy (hheld : (h k').HeldBy t) : (u.visit t k h k').HeldBy t := by
  by_cases hk : k' = k
  · subst hk
    rw [visit_self]
    exact apply_heldBy hheld
  · rw [visit_of_ne hk]
    exact hheld

end Update

/-! ## What a transaction does before it commits -/

structure Within (t : τ) (h h' : Heap κ τ ρ) : Prop where
  committed : ∀ k, (h' k).committed = (h k).committed
  held : ∀ k v r, v ≠ t → ((h' k).held = some (v, r) ↔ (h k).held = some (v, r))

section

variable {t v : τ} {k : κ} {h h' : Heap κ τ ρ}

omit [DecidableEq τ] in
theorem Within.refl : Within t h h := ⟨fun _ => rfl, fun _ _ _ _ => Iff.rfl⟩

omit [DecidableEq τ] in
theorem Within.heldBy (hw : Within t h h') (hv : v ≠ t) : (h' k).HeldBy v ↔ (h k).HeldBy v := by
  refine ⟨?_, ?_⟩
  · intro ⟨r, hr⟩
    exact ⟨r, (hw.held k v r hv).mp hr⟩
  · intro ⟨r, hr⟩
    exact ⟨r, (hw.held k v r hv).mpr hr⟩

theorem abort_within : Within t h fun k => (h k).abort t := by
  refine ⟨fun k => Slot.abort_committed, ?_⟩
  intro k v r hv
  refine ⟨fun hheld => (Slot.abort_held hheld).1, ?_⟩
  intro hheld
  rw [Slot.abort_of_not_held]
  · exact hheld
  · intro hheldBy
    exact hv (Slot.held_unique hheld hheldBy).symm

variable [DecidableEq κ]

omit [DecidableEq τ] in
theorem hold_within (hfree : (h k).Free t) {r : ρ} : Within t h (Function.update h k ((h k).hold t r)) := by
  refine ⟨?_, ?_⟩
  · intro k'
    by_cases hk : k' = k
    · rw [hk, Function.update_self, Slot.hold_committed]
    · rw [Function.update_of_ne hk]
  · intro k' v q hv
    by_cases hk : k' = k
    · rw [hk, Function.update_self, Slot.hold_held]
      refine ⟨fun hheld => absurd (Prod.mk.inj (Option.some.inj hheld)).1.symm hv, ?_⟩
      intro hheld
      exact absurd (hfree v q hheld) hv
    · rw [Function.update_of_ne hk]

theorem visit_within (u : Update ρ) (hfree : (h k).Free t) : Within t h (u.visit t k h) := by
  refine ⟨fun _ => Update.visit_committed, ?_⟩
  intro k' v r hv
  by_cases hk : k' = k
  · subst hk
    rw [Update.visit_self]
    refine ⟨?_, fun hheld => absurd (hfree v r hheld) hv⟩
    intro hheld
    rcases Update.apply_held hheld with hold | ⟨hvt, -⟩
    · exact hold
    · exact absurd hvt hv
  · rw [Update.visit_of_ne hk]

end

/-! ## A row that a statement has found -/

/-- The statement `u` of `t` has still to go to the row `k`, which was `r`, or has changed it. -/
structure Due (u : Update ρ) (t : τ) (k : κ) (r : ρ) (rest : κ → Bool) (h : Heap κ τ ρ) : Prop where
  committed : (h k).committed = some r
  due : (rest k = true ∧ ¬ (h k).HeldBy t) ∨ (h k).held = some (t, u.change r)

section

variable {u : Update ρ} {t v : τ} {k k' : κ} {r : ρ} {rest : κ → Bool} {h h' : Heap κ τ ρ}

theorem due_targets (hmatch : u.matching r = true) (hnot : ¬ (h k).HeldBy t)
    (hc : (h k).committed = some r) : Due u t k r (u.targets t h) h := by
  refine ⟨hc, Or.inl ⟨?_, hnot⟩⟩
  rw [Update.targets_iff, Slot.seen_of_not_held hnot]
  exact ⟨r, hc, hmatch⟩

omit [DecidableEq τ] in
theorem Due.done (hd : Due u t k r rest h) (hrest : rest k = false) : (h k).held = some (t, u.change r) := by
  rcases hd.due with ⟨hleft, -⟩ | hheld
  · exact absurd (hrest.symm.trans hleft) (by simp)
  · exact hheld

omit [DecidableEq τ] in
theorem Due.frame (hd : Due u t k r rest h) (ht : t ≠ v) (hw : Within v h h') : Due u t k r rest h' := by
  refine ⟨(hw.committed k).trans hd.committed, ?_⟩
  rcases hd.due with ⟨hleft, hnot⟩ | hheld
  · exact Or.inl ⟨hleft, fun h => hnot ((hw.heldBy ht).mp h)⟩
  · exact Or.inr ((hw.held k t _ ht).mpr hheld)

/-- **The statement goes on to a row**, and finds a row that it has changed no more. -/
theorem Due.visit [DecidableEq κ] (hd : Due u t k r rest h) (hmatch : u.matching r = true)
    (hdone : u.matching (u.change r) = false) :
    Due u t k r (Function.update rest k' false) (u.visit t k' h) := by
  refine ⟨Update.visit_committed.trans hd.committed, ?_⟩
  by_cases hk : k = k'
  · subst hk
    rw [Update.visit_self]
    refine Or.inr ?_
    rcases hd.due with ⟨-, hnot⟩ | hheld
    · have hseen : (h k).seen t = some r := (Slot.seen_of_not_held hnot).trans hd.committed
      rw [Update.apply_of_seen hseen hmatch]
      rfl
    · rw [Update.apply_of_not_seen (Slot.seen_of_held hheld) hdone]
      exact hheld
  · rw [Function.update_of_ne hk, Update.visit_of_ne hk]
    exact hd.due

end

/-! ## What a transaction has locked -/

/-- Whatever `t` has locked is as `W` says of the row, of what is committed and of what it would leave, and it
has locked all of `T`. -/
structure Owns (t : τ) (W : κ → Option ρ → ρ → Prop) (T : κ → Prop) (h : Heap κ τ ρ) : Prop where
  writes : ∀ k r, (h k).held = some (t, r) → W k (h k).committed r
  holds : ∀ k, T k → (h k).HeldBy t

section

variable {t v : τ} {k : κ} {r : ρ} {h h' : Heap κ τ ρ} {W W' : κ → Option ρ → ρ → Prop} {T T' : κ → Prop}

omit [DecidableEq τ] in
theorem Owns.frame (ho : Owns t W T h) (ht : t ≠ v) (hw : Within v h h') : Owns t W T h' := by
  refine ⟨?_, fun k hk => (hw.heldBy ht).mpr (ho.holds k hk)⟩
  intro k r hheld
  rw [hw.committed k]
  exact ho.writes k r ((hw.held k t r ht).mp hheld)

theorem Owns.commit_other (ho : Owns t W T h) (ht : t ≠ v) : Owns t W T fun k => (h k).commit v := by
  refine ⟨?_, ?_⟩
  · intro k r hheld
    have hbefore := (Slot.commit_held hheld).1
    rw [Slot.commit_of_other ⟨r, hbefore⟩ ht]
    exact ho.writes k r hbefore
  · intro k hk
    rw [Slot.commit_of_other (ho.holds k hk) ht]
    exact ho.holds k hk

theorem owns_committed : Owns t W (fun _ => False) fun k => (h k).commit t :=
  ⟨fun _ _ hheld => absurd rfl (Slot.commit_held hheld).2, fun _ hfalse => hfalse.elim⟩

theorem owns_aborted : Owns t W (fun _ => False) fun k => (h k).abort t :=
  ⟨fun _ _ hheld => absurd rfl (Slot.abort_held hheld).2, fun _ hfalse => hfalse.elim⟩

omit [DecidableEq τ] in
theorem Owns.mono (ho : Owns t W T h) (hW : ∀ k c r, W k c r → W' k c r) (hT : ∀ k, T' k → T k) :
    Owns t W' T' h :=
  ⟨fun k r hheld => hW k _ r (ho.writes k r hheld), fun k hk => ho.holds k (hT k hk)⟩

omit [DecidableEq τ] in
theorem Owns.hold [DecidableEq κ] (ho : Owns t W T h) (hW : ∀ k' c q, k' ≠ k → W k' c q → W' k' c q)
    (hT : ∀ k', T' k' → k' = k ∨ T k') (hr : W' k (h k).committed r) :
    Owns t W' T' (Function.update h k ((h k).hold t r)) := by
  refine ⟨?_, ?_⟩
  · intro k' q hheld
    by_cases hk : k' = k
    · subst hk
      rw [Function.update_self, Slot.hold_held] at hheld
      obtain ⟨-, rfl⟩ := Prod.mk.inj (Option.some.inj hheld)
      rw [Function.update_self, Slot.hold_committed]
      exact hr
    · rw [Function.update_of_ne hk] at hheld ⊢
      exact hW k' _ q hk (ho.writes k' q hheld)
  · intro k' hk'
    by_cases hk : k' = k
    · subst hk
      rw [Function.update_self]
      exact ⟨r, rfl⟩
    · rw [Function.update_of_ne hk]
      exact ho.holds k' ((hT k' hk').resolve_left hk)

theorem Owns.committed (ho : Owns t W T h) (k : κ) :
    (∃ r, W k (h k).committed r ∧ ((h k).commit t).committed = some r) ∨
      (¬ T k ∧ ((h k).commit t).committed = (h k).committed) := by
  by_cases hheld : (h k).HeldBy t
  · obtain ⟨r, hr⟩ := hheld
    exact Or.inl ⟨r, ho.writes k r hr, by rw [Slot.commit_of_held hr]⟩
  · exact Or.inr ⟨fun hk => hheld (ho.holds k hk), by rw [Slot.commit_of_not_held hheld]⟩

inductive Onward (t : τ) (h : Heap κ τ ρ) : Heap κ τ ρ → Prop
  | within {h' : Heap κ τ ρ} : Within t h h' → Onward t h h'
  | commit : Onward t h fun k => (h k).commit t

theorem Owns.onward (ho : Owns t W T h) (ht : t ≠ v) (hh : Onward v h h') : Owns t W T h' := by
  cases hh with
  | within hw => exact ho.frame ht hw
  | commit => exact ho.commit_other ht

theorem Due.onward {u : Update ρ} {rest : κ → Bool} (hd : Due u t k r rest h) (ht : t ≠ v)
    (hh : Onward v h h') (hsame : (h' k).committed = some r) : Due u t k r rest h' := by
  cases hh with
  | within hw => exact hd.frame ht hw
  | commit =>
    refine ⟨hsame, ?_⟩
    rcases hd.due with ⟨hleft, hnot⟩ | hheld
    · exact Or.inl ⟨hleft, fun ⟨q, hq⟩ => hnot ⟨q, (Slot.commit_held hq).1⟩⟩
    · refine Or.inr ?_
      rw [Slot.commit_of_other ⟨_, hheld⟩ ht]
      exact hheld

theorem Owns.commit_one [DecidableEq κ] (ho : Owns t W T h) (hone : ∀ k' c q, W k' c q → k' = k)
    (hheld : (h k).held = some (t, r)) :
    (fun k' => ((h k').commit t).committed) = Function.update (fun k' => (h k').committed) k (some r) := by
  funext k'
  by_cases hk : k' = k
  · subst hk
    rw [Function.update_self, Slot.commit_of_held hheld]
  · rw [Function.update_of_ne hk, Slot.commit_of_not_held]
    intro ⟨q, hq⟩
    exact hk (hone k' _ q (ho.writes k' q hq))

end

end Albusforge.Lib.ReadCommitted
