import Albusforge.Lib.Disk

/-!
# Buffers, as C indexes them

A buffer is its bytes, and what runs off its end is an access that has no value (`Access`): a function
that has one has stayed within its buffers. A C string is what stands before the first NUL; the
functions of `string.h` read it up to that, so a buffer without one is run off.
-/

namespace Albusforge.Lib.CMemory

open Lib

/-- The value of a computation that stays within its buffers; `none` is an access out of bounds. -/
abbrev Access (α : Type) : Type := Option α

def load (buffer : Bytes) (i : ℕ) : Access UInt8 := buffer[i]?

def store (buffer : Bytes) (i : ℕ) (c : UInt8) : Access Bytes :=
  if i < buffer.length then some (buffer.set i c) else none

def stringAt (buffer : Bytes) (p : ℕ) : Access Bytes :=
  if 0 ∈ buffer.drop p then some ((buffer.drop p).takeWhile (· ≠ 0)) else none

def strlen (buffer : Bytes) (p : ℕ) : Access ℕ := (stringAt buffer p).map List.length

def strchr (buffer : Bytes) (p : ℕ) (c : UInt8) : Access (Option ℕ) :=
  (stringAt buffer p).map fun s => if c ∈ s then some (p + (s.takeWhile (· ≠ c)).length) else none

/-- `!strcmp` of two buffers -/
def sameString (buffer buffer' : Bytes) : Access Bool := do
  return (← stringAt buffer 0) = (← stringAt buffer' 0)

/-- `!memcmp` -/
def sameBytes (buffer : Bytes) (p : ℕ) (buffer' : Bytes) (n : ℕ) : Access Bool :=
  if p + n ≤ buffer.length ∧ n ≤ buffer'.length then some ((buffer.drop p).take n = buffer'.take n) else none

section

variable {front rest s : Bytes} {c : UInt8} {p : ℕ}

theorem load_append (h : front.length = p) : load (front ++ c :: rest) p = some c := by
  subst h
  simp [load]

theorem store_append {old : UInt8} (h : front.length = p) :
    store (front ++ old :: rest) p c = some (front ++ c :: rest) := by
  subst h
  rw [store, if_pos (by simp), List.set_append_right _ _ (Nat.le_refl _), Nat.sub_self, List.set_cons_zero]

theorem stringAt_append (h : front.length = p) (hs : 0 ∉ s) :
    stringAt (front ++ (s ++ 0 :: rest)) p = some s := by
  subst h
  rw [stringAt, List.drop_left, if_pos (by simp), List.takeWhile_append_of_pos, List.takeWhile_cons_of_neg (by simp),
    List.append_nil]
  intro c hc
  simp only [decide_eq_true_eq]
  intro hzero
  exact hs (hzero ▸ hc)

theorem stringAt_zero (hs : 0 ∉ s) : stringAt (s ++ 0 :: rest) 0 = some s :=
  stringAt_append (show ([] : Bytes).length = 0 from rfl) hs

theorem exists_string {buffer : Bytes} (h : 0 ∈ buffer) :
    ∃ rest, buffer = buffer.takeWhile (· ≠ 0) ++ 0 :: rest ∧ 0 ∉ buffer.takeWhile (· ≠ 0) := by
  obtain ⟨s, rest, rfl, hs⟩ := List.eq_append_cons_of_mem h
  have hstring : stringAt (s ++ 0 :: rest) 0 = some s := stringAt_zero hs
  rw [stringAt, if_pos (by simp), List.drop_zero, Option.some.injEq] at hstring
  rw [hstring]
  exact ⟨rest, rfl, hs⟩

theorem stringAt_zero_inv {buffer : Bytes} (h : stringAt buffer 0 = some s) : ∃ rest, buffer = s ++ 0 :: rest ∧ 0 ∉ s := by
  rw [stringAt, List.drop_zero] at h
  split at h
  · rename_i hzero
    obtain rfl := Option.some.inj h
    exact exists_string hzero
  · exact absurd h (by simp)

theorem strlen_zero (hs : 0 ∉ s) : strlen (s ++ 0 :: rest) 0 = some s.length := by
  rw [strlen, stringAt_zero hs, Option.map_some]

theorem sameBytes_append {buffer : Bytes} {n : ℕ} (h : front.length = p) (hn : n ≤ rest.length) (hn' : n ≤ buffer.length) :
    sameBytes (front ++ rest) p buffer n = some (decide (rest.take n = buffer.take n)) := by
  subst h
  rw [sameBytes, if_pos ⟨by rw [List.length_append]; omega, hn'⟩, List.drop_left]

end

end Albusforge.Lib.CMemory
