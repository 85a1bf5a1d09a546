import Mathlib.Data.Option.Basic

/-!
# Checks, one after the other

A handler that refuses a request at the first check that fails: `require` a condition, take what is
`present`, and go on. **When the whole went through, each check has** (`bind_ok`, `require_ok`,
`present_ok`), so that a proof takes a handler apart without its cases.
-/

namespace Albusforge.Lib

variable {α β ε : Type}

def require (c : Prop) [Decidable c] (e : ε) : Except ε Unit := if c then .ok () else .error e

def present (x : Option α) (e : ε) : Except ε α := x.elim (.error e) .ok

theorem bind_ok {x : Except ε α} {f : α → Except ε β} {b : β} :
    (x >>= f) = .ok b ↔ ∃ a, x = .ok a ∧ f a = .ok b := by
  cases x with
  | error e => simp [bind, Except.bind]
  | ok a => simp [bind, Except.bind]

theorem pure_ok {a b : α} : (pure a : Except ε α) = .ok b ↔ a = b := by
  simp [pure, Except.pure]

theorem require_ok {c : Prop} [Decidable c] {e : ε} {u : Unit} : require c e = .ok u ↔ c := by
  unfold require
  by_cases h : c
  · simp [h]
  · simp [h]

theorem present_ok {x : Option α} {e : ε} {a : α} : present x e = .ok a ↔ x = some a := by
  cases x with
  | none => simp [present]
  | some b => simp [present]

end Albusforge.Lib
