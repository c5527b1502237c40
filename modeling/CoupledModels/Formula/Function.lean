/-!
# The functions of formulas

The closed vocabulary of function names, with the number of arguments that each one takes.
-/

namespace CoupledModels

/-- A function that a formula may call. -/
inductive Function where
  | transpose
  | diagonal
  | sum
  | multiply
  | shift
  | power
  | inverse
  | weibull
  | minimize
  | maximize
deriving DecidableEq, Repr

namespace Function

/-- The function of a name; some functions have two names. -/
def ofName? (name : String) : Option Function :=
  match name with
  | "tran" | "transpose" => some transpose
  | "diag" => some diagonal
  | "sum" => some sum
  | "mult" | "multiply" => some multiply
  | "shift" => some shift
  | "pow" => some power
  | "minv" => some inverse
  | "weib" => some weibull
  | "Minimize" | "minimize" => some minimize
  | "Maximize" | "maximize" => some maximize
  | _ => none

/-- The least and the greatest number of arguments. -/
def arity : Function → Nat × Nat
  | transpose | diagonal | inverse | minimize | maximize => (1, 1)
  | sum => (1, 2)
  | multiply | shift | power => (2, 2)
  | weibull => (4, 4)

/-- True if the function may be called with that many arguments. -/
def allows (f : Function) (count : Nat) : Bool :=
  decide (f.arity.1 ≤ count ∧ count ≤ f.arity.2)

/-- The name that messages use. -/
def name : Function → String
  | transpose => "tran"
  | diagonal => "diag"
  | sum => "sum"
  | multiply => "mult"
  | shift => "shift"
  | power => "pow"
  | inverse => "minv"
  | weibull => "weib"
  | minimize => "Minimize"
  | maximize => "Maximize"

end Function

end CoupledModels
