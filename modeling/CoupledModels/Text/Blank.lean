/-!
# Blank characters

The characters with the Unicode property White_Space.
-/

namespace CoupledModels.Text

/-- A space of any width, a tab, or a line or paragraph break. -/
def isBlank (c : Char) : Bool :=
  let n := c.toNat
  decide (0x09 ≤ n ∧ n ≤ 0x0D) || n == 0x20 || n == 0x85 || n == 0xA0 || n == 0x1680 ||
    decide (0x2000 ≤ n ∧ n ≤ 0x200A) || n == 0x2028 || n == 0x2029 || n == 0x202F ||
    n == 0x205F || n == 0x3000

/-- Holds nothing but blank characters. -/
def allBlank (s : String) : Bool :=
  s.toList.all isBlank

end CoupledModels.Text
