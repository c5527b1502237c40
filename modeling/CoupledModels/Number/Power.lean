/-!
# Powers of two and of ten

The two bases that numbers are stored and written in, as whole powers with a whole exponent.
-/

namespace CoupledModels

/-- The power `2 ^ n`: the number of bit patterns of `n` bits. -/
def pow2 (n : Nat) : Nat :=
  Nat.pow 2 n

/-- The power `10 ^ n`: the unit of a digit `n` places before the decimal point. -/
def pow10 (n : Nat) : Nat :=
  Nat.pow 10 n

end CoupledModels
