import Mathlib.Data.Nat.Notation

/-!
# Reading a list at a cursor

Code that goes through a buffer by an index sees what stands from there on. These lemmas lead between
the two: an element at the cursor is the head of the rest, and what is passed over is dropped.
-/

namespace Albusforge.Lib

variable {α : Type} {bytes front rest : List α} {offset : ℕ} {b : α}

theorem lt_of_getElem? (h : bytes[offset]? = some b) : offset < bytes.length :=
  (List.getElem?_eq_some_iff.mp h).1

theorem getElem?_of_drop (h : bytes.drop offset = b :: rest) : bytes[offset]? = some b := by
  rw [← List.head?_drop, h, List.head?_cons]

theorem drop_of_getElem? (h : bytes[offset]? = some b) : bytes.drop offset = b :: bytes.drop (offset + 1) := by
  rw [List.drop_eq_getElem_cons (lt_of_getElem? h), (List.getElem?_eq_some_iff.mp h).2]

theorem drop_succ (h : bytes.drop offset = b :: rest) : bytes.drop (offset + 1) = rest := by
  rw [← List.tail_drop, h, List.tail_cons]

theorem drop_add (h : bytes.drop offset = front ++ rest) : bytes.drop (offset + front.length) = rest := by
  rw [← List.drop_drop, h, List.drop_left]

end Albusforge.Lib
