import CoupledModels.Formula.Typed
import CoupledModels.Affine.Arithmetic
import CoupledModels.Arrays.Inverse
import CoupledModels.Arrays.Weibull
import CoupledModels.Catalog.Basic

/-!
# Lowering

A typed formula is evaluated to an affine expression, with the data that the catalog holds at the
time.  Of a product the side without decision variables is evaluated to a matrix of numbers.
-/

namespace CoupledModels.Typed

variable {K : Type} [Scalar K] [Transcendental K]

/-- An operation on arrays as part of a formula. -/
def lift {α : Type} (r : Except ArrayError α) : Except ModelError α :=
  r.mapError fun e => .expression (.array e)

/-- The numbers of an expression without decision variables. -/
def numbers (e : Affine K) : Except ModelError (Matrix K) :=
  match e.constantValue? with
  | some m => .ok m
  | none => .error (.expression .notData)

/-- The expression of a binding. -/
def lowerBinding (c : Catalog K) (id : Nat) : Except ModelError (Affine K) :=
  match c.bindings[id]? with
  | none => .error (.missing (.undefinedVariable ""))
  | some b =>
      match b.value with
      | .slice _ columns => lift (Affine.ofVariables b.shape columns)
      | .parameter p => (c.parameterValue p).map Affine.ofMatrix
      | .constant i =>
          match c.constants[i]? with
          | some m => .ok (Affine.ofMatrix m)
          | none => .error (.missing (.undefinedVariable b.symbol))

/-- The affine expression of a formula. -/
def lower (c : Catalog K) : Typed K → Except ModelError (Affine K)
  | .number v => .ok (.scalar v)
  | .data m => .ok (.ofMatrix m)
  | .binding _ id => lowerBinding c id
  | .negate _ e => do return (← e.lower c).negate
  | .add _ l r => do
      let l ← l.lower c
      let r ← r.lower c
      lift (l.add r)
  | .sub _ l r => do
      let l ← l.lower c
      let r ← r.lower c
      lift (l.sub r)
  | .scale _ l r | .elementwise _ l r =>
      if l.linear then do
        let e ← l.lower c
        let a ← r.lower c >>= numbers
        lift (e.mulElementwise a)
      else do
        let e ← r.lower c
        let a ← l.lower c >>= numbers
        lift (e.mulElementwise a)
  | .matmul _ l r =>
      if l.linear then do
        let e ← l.lower c
        let a ← r.lower c >>= numbers
        lift (e.mulRight a)
      else do
        let e ← r.lower c
        let a ← l.lower c >>= numbers
        lift (e.mulLeft a)
  | .transpose _ e => do return (← e.lower c).transpose
  | .diagonal _ e => do lift (← e.lower c).diagonal
  | .sum _ e none => do return (← e.lower c).total
  | .sum _ e (some axis) => do lift ((← e.lower c).sumAxis axis)
  | .shift _ e k => do return (← e.lower c).shift k
  | .power _ e p => do
      let a ← e.lower c >>= numbers
      return .ofMatrix (a.map fun v => Transcendental.pow v p)
  | .inverse _ e => do
      let a ← e.lower c >>= numbers
      return .ofMatrix (← lift (Matrix.inverse a))
  | .weibull _ e k n dims => do
      let a ← e.lower c >>= numbers
      let b ← k.lower c >>= numbers
      match Weibull.distribution (Matrix.get a 0 0) (Matrix.get b 0 0) n dims with
      | .ok m => return .ofMatrix m
      | .error cause => throw (.expression (.weibull cause))

/-- Scaling is lowered as the element-wise product. -/
theorem lower_scale (c : Catalog K) (t t' : FormulaType) (l r : Typed K) :
    lower c (.scale t l r) = lower c (.elementwise t' l r) := by
  rw [lower, lower]

/-- The numbers of a formula without decision variables. -/
def value (c : Catalog K) (e : Typed K) : Except ModelError (Matrix K) :=
  e.lower c >>= numbers

end CoupledModels.Typed
