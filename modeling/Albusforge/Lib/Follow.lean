import Mathlib.Data.Set.Basic
import Mathlib.Order.MinMax
import Mathlib.Data.List.Induction
import Mathlib.Data.List.Nodup
import Albusforge.Lib.Machine

/-!
# Following a table that grows

A table gets rows and never loses one, but a row may turn up behind rows that were
there before it: its place says when it was stamped, not when it was committed. A reader
shows the rows in the order of their places. It keeps a cursor, the furthest place it has
shown, and every look goes back a fixed distance behind it.

Here the reader remembers everything it has ever shown. **Nothing is shown twice, and a
row that turned up inside the window is shown by the next whole look** (`Run.nodup`,
`mem_next_look`). What a reader with a shorter memory does is compared with this one.
-/

namespace Albusforge.Lib

structure Follow (κ : Type) where
  stamp : κ → ℤ
  look : ℤ
  start : Option κ

namespace Follow

structure State (κ : Type) where
  table : Set κ
  shown : List κ
  reading : Bool

inductive Event (κ : Type) where
  | grow (rows : Set κ)
  | look (shown : List κ) (whole : Bool)
  | stop

variable {κ : Type} [LinearOrder κ] (f : Follow κ)

def furthest (c : Option κ) (p : κ) : Option κ :=
  match c with
  | none => some p
  | some c => some (max c p)

def cursor (shown : List κ) : Option κ := shown.foldl furthest f.start

def After (p : κ) : Prop := ∀ s ∈ f.start, s < p

def InWindow (shown : List κ) (p : κ) : Prop := ∀ c ∈ f.cursor shown, f.stamp c - f.look < f.stamp p

/-- The row at `p` is one the next look shows. -/
structure Due (s : State κ) (p : κ) : Prop where
  table : p ∈ s.table
  fresh : p ∉ s.shown
  after : f.After p
  window : f.InWindow s.shown p

structure Look (s : State κ) (l : List κ) (whole : Bool) : Prop where
  due : ∀ p ∈ l, f.Due s p
  sorted : l.Pairwise (· < ·)
  whole : whole = true → ∀ p, f.Due s p → p ∈ l

inductive Step : State κ → Event κ → State κ → Prop
  | grow {s : State κ} {rows : Set κ} : (∀ p ∈ rows, p ∉ s.table) →
      Step s (.grow rows) { s with table := s.table ∪ rows }
  | look {s : State κ} {l : List κ} {whole : Bool} : s.reading = true → f.Look s l whole →
      Step s (.look l whole) { s with shown := s.shown ++ l, reading := whole }
  | stop {s : State κ} : Step s .stop { s with reading := false }

def machine : Machine (State κ) (Event κ) where
  init s := s.shown = []
  step := f.Step

def Event.shows : Event κ → List κ
  | .grow _ => []
  | .look l _ => l
  | .stop => []

variable {f}

theorem le_foldl_furthest {l : List κ} {c : κ} : ∃ d, l.foldl furthest (some c) = some d ∧ c ≤ d := by
  induction l generalizing c with
  | nil => exact ⟨c, rfl, le_refl c⟩
  | cons p l ih =>
      obtain ⟨d, hd, hle⟩ := ih (c := max c p)
      exact ⟨d, hd, le_trans (le_max_left c p) hle⟩

theorem cursor_mono {shown l : List κ} {c : κ} (h : f.cursor shown = some c) :
    ∃ d, f.cursor (shown ++ l) = some d ∧ c ≤ d := by
  rw [cursor, List.foldl_append, ← cursor, h]
  exact le_foldl_furthest

theorem start_le_cursor {shown : List κ} {s : κ} (h : f.start = some s) :
    ∃ c, f.cursor shown = some c ∧ s ≤ c := by
  have hmono : ∃ c, f.cursor ([] ++ shown) = some c ∧ s ≤ c := cursor_mono h
  rwa [List.nil_append] at hmono

theorem le_cursor {shown : List κ} {p : κ} (h : p ∈ shown) :
    ∃ c, f.cursor shown = some c ∧ p ≤ c := by
  obtain ⟨before, after, rfl⟩ := List.append_of_mem h
  have hp : ∃ c, f.cursor (before ++ [p]) = some c ∧ p ≤ c := by
    rw [cursor, List.foldl_append, ← cursor]
    cases f.cursor before with
    | none => exact ⟨p, rfl, le_refl p⟩
    | some c => exact ⟨max c p, rfl, le_max_right c p⟩
  obtain ⟨c, hc, hle⟩ := hp
  obtain ⟨d, hd, hcd⟩ := cursor_mono (l := after) hc
  rw [List.append_assoc, List.singleton_append] at hd
  exact ⟨d, hd, le_trans hle hcd⟩

theorem cursor_mem {shown : List κ} {c : κ} (h : f.cursor shown = some c) :
    f.start = some c ∨ c ∈ shown := by
  induction shown using List.reverseRecOn generalizing c with
  | nil => exact Or.inl h
  | append_singleton shown p ih =>
      rw [cursor, List.foldl_append, ← cursor] at h
      cases hc : f.cursor shown with
      | none =>
          rw [hc] at h
          exact Or.inr (by simp [Option.some.inj h.symm])
      | some d =>
          rw [hc] at h
          have hmax : max d p = c := Option.some.inj h
          rcases max_choice d p with hd | hp
          · have hdc : d = c := by rw [← hmax, hd]
            rcases ih (hdc ▸ hc) with hs | hs
            · exact Or.inl hs
            · exact Or.inr (List.mem_append_left _ hs)
          · exact Or.inr (by simp [← hmax, hp])

structure Invariant (f : Follow κ) (es : List (Event κ)) (s : State κ) : Prop where
  shown : es.flatMap Event.shows = s.shown
  nodup : s.shown.Nodup
  inside : ∀ p ∈ s.shown, p ∈ s.table
  after : ∀ p ∈ s.shown, f.After p
  ordered : ∀ l whole, .look l whole ∈ es → l.Pairwise (· < ·)

theorem invariant_step {es : List (Event κ)} {s s' : State κ} {e : Event κ}
    (h : f.Invariant es s) (hs : f.Step s e s') : f.Invariant (es ++ [e]) s' := by
  have key : (es ++ [e]).flatMap Event.shows = s.shown ++ e.shows := by
    rw [List.flatMap_append, h.shown]
    simp
  have hold : ∀ l whole, .look l whole ∈ es ++ [e] → e ≠ .look l whole → l.Pairwise (· < ·) := by
    intro l whole hmem hne
    rcases List.mem_append.mp hmem with hmem | hmem
    · exact h.ordered l whole hmem
    · exact absurd (List.mem_singleton.mp hmem).symm hne
  cases hs with
  | grow hnew =>
      exact ⟨by simp [key, Event.shows], h.nodup, fun p hp => Or.inl (h.inside p hp), h.after,
        fun l whole hmem => hold l whole hmem (by simp)⟩
  | @look l whole _ hl =>
      have hfresh : l.Nodup := hl.sorted.imp ne_of_lt
      refine ⟨by simp [key, Event.shows], ?_, ?_, ?_, ?_⟩
      · refine List.Nodup.append h.nodup hfresh ?_
        intro p hp hpl
        exact (hl.due p hpl).fresh hp
      · intro p hp
        rcases List.mem_append.mp hp with hp | hp
        · exact h.inside p hp
        · exact (hl.due p hp).table
      · intro p hp
        rcases List.mem_append.mp hp with hp | hp
        · exact h.after p hp
        · exact (hl.due p hp).after
      · intro l' whole' hmem
        by_cases hsame : Event.look l whole = .look l' whole'
        · obtain ⟨rfl, -⟩ := Event.look.inj hsame
          exact hl.sorted
        · exact hold l' whole' hmem hsame
  | stop =>
      exact ⟨by simp [key, Event.shows], h.nodup, h.inside, h.after,
        fun l whole hmem => hold l whole hmem (by simp)⟩

theorem Run.invariant {es : List (Event κ)} {s : State κ} (h : f.machine.Run es s) :
    f.Invariant es s := by
  refine Machine.RunWhere.invariant ?_ ?_ h
  · intro s hs
    have hs : s.shown = [] := hs
    exact ⟨by simp [hs], by simp [hs], by simp [hs], by simp [hs], by simp⟩
  · intro es s e s' hi hs _
    exact invariant_step hi hs

def Quiet (es : List (Event κ)) : Prop := ∀ l whole, Event.look l whole ∉ es

theorem Quiet.steps {es : List (Event κ)} {s s' : State κ} (h : Quiet es)
    (hs : f.machine.Steps s es s') : s'.shown = s.shown ∧ s.table ⊆ s'.table := by
  induction hs with
  | refl s => exact ⟨rfl, le_refl _⟩
  | @step s s₁ s' e es hone _ ih =>
      obtain ⟨hshown, htable⟩ := ih fun l whole hl => h l whole (List.mem_cons_of_mem _ hl)
      cases hone with
      | grow _ => exact ⟨hshown, fun p hp => htable (Or.inl hp)⟩
      | look _ _ => exact absurd List.mem_cons_self (h _ _)
      | stop => exact ⟨hshown, htable⟩

theorem mem_next_look {es es' : List (Event κ)} {s s₁ s₂ s₃ : State κ} {rows : Set κ} {l : List κ}
    (h : f.machine.Run es s) (hgrow : f.Step s (.grow rows) s₁) (hquiet : Quiet es')
    (hs : f.machine.Steps s₁ es' s₂) (hlook : f.Step s₂ (.look l true) s₃) {p : κ} (hp : p ∈ rows) :
    p ∈ l ↔ f.After p ∧ f.InWindow s.shown p := by
  obtain ⟨hshown, htable⟩ := hquiet.steps hs
  cases hgrow with
  | grow hnew =>
      cases hlook with
      | look _ hl =>
          constructor
          · intro hmem
            have hdue := hl.due p hmem
            exact ⟨hdue.after, hshown ▸ hdue.window⟩
          · intro hdue
            refine hl.whole rfl p ⟨htable (Or.inr hp), ?_, hdue.1, ?_⟩
            · rw [hshown]
              exact fun hmem => hnew p hp ((Run.invariant h).inside p hmem)
            · rw [hshown]
              exact hdue.2

end Follow

end Albusforge.Lib
