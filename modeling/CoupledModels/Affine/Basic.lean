import CoupledModels.Arrays.Matrix

/-!
# Affine expressions

Matrices whose elements are affine forms over numbered decision variables.  All terms are stored one
after the other, and a list of pointers says where the terms of each element start.  Subscript zero
is reserved: it marks the constant term.

`Affine.elements` is the view of this form as one list of terms per element; `Affine.ofElements` goes
back.
-/

namespace CoupledModels

/-- The parts of a list that lie between consecutive pointers. -/
def chunks {α : Type} (xs : List α) (ptr : List Nat) : List (List α) :=
  let xs := xs.toArray
  (ptr.zip ptr.tail).map fun (p, q) => (xs.extract p q).toList

/-- A matrix of affine forms: the terms of element `i` are those from `ptr[i]` to `ptr[i + 1]`. -/
structure Affine (K : Type) where
  shape : Shape
  ptr : List Nat
  subj : List Nat
  cof : List K
deriving DecidableEq, Repr

/-- A subscript with its coefficient. -/
abbrev Term (K : Type) := Entry K

namespace Affine

variable {K : Type}

/-- The subscript of constant terms. -/
def constantTerm : Nat :=
  0

/-- True if no number is larger than the one after it. -/
def ascending : List Nat → Bool
  | [] => true
  | [_] => true
  | a :: b :: rest => decide (a ≤ b) && ascending (b :: rest)

/-- The expression of stored terms, if pointers, terms and shape fit together. -/
def ofStored (shape : Shape) (ptr subj : List Nat) (cof : List K) :
    Except ArrayError (Affine K) :=
  match ptr.getLast? with
  | none => .error .noPointers
  | some last =>
      if !ascending ptr then .error .unsortedPointers
      else if last ≠ subj.length ∨ last ≠ cof.length then
        .error (.pointerLength last subj.length cof.length)
      else if shape.rows * shape.cols ≠ ptr.length - 1 then .error .elementCount
      else .ok ⟨shape, ptr, subj, cof⟩

/-- Number of elements. -/
def count (e : Affine K) : Nat :=
  e.ptr.length - 1

/-- The stored terms, across all elements. -/
def terms (e : Affine K) : List (Term K) :=
  e.subj.zip e.cof

/-- The terms of each element. -/
def elements (e : Affine K) : List (List (Term K)) :=
  chunks e.terms e.ptr

/-- The positions at which lists of the given lengths start when they are put one after the other
from position `p` on, and the position after the last. -/
def starts (p : Nat) : List Nat → List Nat
  | [] => [p]
  | n :: ns => p :: starts (p + n) ns

/-- The expression with the given terms in each element. -/
def ofElements (shape : Shape) (els : List (List (Term K))) : Affine K where
  shape := shape
  ptr := starts 0 (els.map List.length)
  subj := els.flatten.map (·.1)
  cof := els.flatten.map (·.2)

/-- True for a single affine form. -/
def isScalar (e : Affine K) : Bool :=
  e.shape.isScalar

/-- True if no stored term has a variable. -/
def isConstant (e : Affine K) : Bool :=
  e.subj.all (· == constantTerm)

/-- Drops repetitions from an ascending list. -/
def dropRepeats : List Nat → List Nat
  | [] => []
  | [a] => [a]
  | a :: b :: rest => if a = b then dropRepeats (b :: rest) else a :: dropRepeats (b :: rest)

/-- Ascending and without repetitions. -/
def sortedDistinct (ns : List Nat) : List Nat :=
  dropRepeats (ns.mergeSort fun a b => decide (a ≤ b))

/-- The variables of the stored terms, ascending. -/
def support (e : Affine K) : List Nat :=
  sortedDistinct (e.subj.filter (· ≠ constantTerm))

variable [Scalar K]

/-- The constant expression of a matrix. -/
def ofMatrix (a : Matrix K) : Affine K :=
  let xs := a.elements.toList
  { shape := a.shape
    ptr := List.range (xs.length + 1)
    subj := List.replicate xs.length constantTerm
    cof := xs }

/-- The expression whose elements are single variables. -/
def ofVariables (shape : Shape) (idxs : List Nat) : Except ArrayError (Affine K) :=
  if shape.rows * shape.cols ≠ idxs.length then .error (.variableCount shape idxs.length)
  else if idxs.contains constantTerm then .error .reservedVariable
  else
    .ok
      { shape := shape
        ptr := List.range (idxs.length + 1)
        subj := idxs
        cof := List.replicate idxs.length 1 }

/-- The expression of one number. -/
def scalar (v : K) : Affine K :=
  ⟨.scalar, [0, 1], [constantTerm], [v]⟩

/-- The matrix of a constant expression. -/
def constantValue? (e : Affine K) : Option (Matrix K) :=
  if e.isConstant then
    (Tensor.ofPrefix e.shape (e.elements.map fun ts => Scalar.sum (ts.map (·.2)))).toOption
  else none

/-- One element in normal form: ascending subscripts, each with the sum of its coefficients, and no
term whose coefficient is zero. -/
def normalizeTerms (ts : List (Term K)) : List (Term K) :=
  Entry.dropZeros (Entry.collect ts)

/-- Every element in normal form. -/
def normalize (e : Affine K) : Affine K :=
  ofElements e.shape (e.elements.map normalizeTerms)

/-- The expression whose elements are linear combinations of this one's: each is a list of element
numbers with factors. -/
def combine (e : Affine K) (shape : Shape) (recipe : List (List (Nat × K))) : Affine K :=
  let els := e.elements.toArray
  ofElements shape <| recipe.map fun parts =>
    normalizeTerms <| parts.flatMap fun (src, f) =>
      (els.getD src []).map fun (j, c) => (j, c * f)

/-- A single form repeated to fill a shape; any other expression only fills its own. -/
def broadcast (e : Affine K) (shape : Shape) : Except ArrayError (Affine K) :=
  if e.shape = shape then .ok e
  else if e.isScalar then
    .ok (e.combine shape (List.replicate (shape.rows * shape.cols) [(0, 1)]))
  else .error (.broadcast e.shape shape)

end Affine

end CoupledModels
