import Albusforge.Lib.Json

/-!
# Numbers as they are printed

A number on the wire is a text, and what the text says is a decimal. `Numeral` is the
two together: what `printf` writes and what a JSON parser reads.
-/

namespace Albusforge.Lib

structure Numeral where
  text : Text
  value : ℚ
  deriving DecidableEq

instance : Json.NumberText Numeral := ⟨Numeral.text⟩

/-- `%lld` -/
def Numeral.ofInt (z : ℤ) : Numeral :=
  ⟨(if z < 0 then [hyphen] else []) ++ decimal z.natAbs, z⟩

end Albusforge.Lib
