import CoupledModels.Arrays.Inverse

/-!
# Arrays in words of 64 bits

The sizes, strides and positions of an array are words of 64 bits, and shapes are not bounded.  A
product or a sum that does not fit ends a program that is built with overflow checks; without them
the program goes on with the number modulo `2 ^ 64`.  The functions here compute in words, with
`none` for the end of the program; `Tensor` and `Matrix` have what they give with unbounded numbers.
-/

namespace CoupledModels

/-- What becomes of a number that does not fit into a word. -/
inductive Overflow
  | ends
  | wraps
deriving DecidableEq, Repr

namespace Word

/-- The word of a number. -/
def ofNat? (o : Overflow) (n : Nat) : Option Nat :=
  if n < UInt64.size then some n
  else
    match o with
    | .ends => none
    | .wraps => some (n % UInt64.size)

/-- The sum of two words. -/
def add? (o : Overflow) (a b : Nat) : Option Nat :=
  ofNat? o (a + b)

/-- The product of two words. -/
def mul? (o : Overflow) (a b : Nat) : Option Nat :=
  ofNat? o (a * b)

end Word

/-- Number of elements of an array, multiplied up from the outermost dimension. -/
def Extent.size? {S : Type} [Extent S] (o : Overflow) (s : S) : Option Nat :=
  (dims s).foldlM (Word.mul? o) 1

namespace Tensor

variable {S K : Type} [Extent S]

/-! ## Constructors -/

/-- The check of stored coefficients.  Without positions to compare it with, the size of a sparse
array is not computed. -/
def check? (o : Overflow) (shape : S) (pattern : Option (List Nat)) (count : Nat) :
    Option (Except ArrayError Unit) :=
  match pattern with
  | some ps =>
      if !strictlyAscending ps then some (.error .unsortedPattern)
      else if ps.length ≠ count then some (.error .patternLength)
      else
        match ps.getLast? with
        | some p =>
            (Extent.size? o shape).map fun n => if n ≤ p then .error .patternRange else .ok ()
        | none => some (.ok ())
  | none => (Extent.size? o shape).map fun n => if n ≠ count then .error .dataLength else .ok ()

/-- The array of stored coefficients, if they are meaningful. -/
def ofStored? (o : Overflow) (shape : S) (pattern : Option (List Nat)) (data : List K) :
    Option (Except ArrayError (Tensor S K)) :=
  (check? o shape pattern data.length).map fun r => r.map fun _ => ⟨shape, pattern, data⟩

/-- The dense array of the first elements of a list that is long enough. -/
def ofPrefix? (o : Overflow) (shape : S) (xs : List K) :
    Option (Except ArrayError (Tensor S K)) := do
  let n ← Extent.size? o shape
  let data := xs.take n
  if data.length < n then some (.error .insufficientData) else ofStored? o shape none data

/-- Nothing but ones. -/
def ones? [Scalar K] (o : Overflow) (shape : S) : Option (Tensor S K) :=
  (Extent.size? o shape).map fun n => dense shape (List.replicate n 1)

/-- The same elements in another shape of equal size. -/
def reshape? {T : Type} [Extent T] (o : Overflow) (t : Tensor S K) (shape : T) :
    Option (Except ArrayError (Tensor T K)) := do
  let n ← Extent.size? o shape
  let m ← Extent.size? o t.shape
  return if n ≠ m then .error (.reshape (Extent.dims t.shape) (Extent.dims shape))
    else .ok ⟨shape, t.pattern, t.data⟩

/-- How far apart the elements are that are next to each other in a dimension, for every dimension.
The second number is the product of all sizes, which comes out last and is not used. -/
def strides? (o : Overflow) : List Nat → Option (List Nat × Nat)
  | [] => some ([], 1)
  | d :: ds => do
      let (strides, size) ← strides? o ds
      return (size :: strides, ← Word.mul? o size d)

/-- The position of an index. -/
def position? (o : Overflow) (strides index : List Nat) : Option Nat :=
  (index.zip strides).foldlM (fun p (i, stride) => do Word.add? o p (← Word.mul? o i stride)) 0

variable [Scalar K]

/-- The sparse array of indexed coefficients; coefficients of equal positions are added up. -/
def ofEntries? (o : Overflow) (shape : S) (indexes : List (List Nat)) (data : List K) :
    Option (Except ArrayError (Tensor S K)) :=
  let dims := Extent.dims shape
  if data.length ≠ indexes.length then some (.error .indexLength)
  else if indexes.any fun i => !inBounds dims i then some (.error .indexRange)
  else do
    let (strides, _) ← strides? o dims
    let positions ← indexes.mapM (position? o strides)
    let entries := Entry.collect (positions.zip data)
    return .ok ⟨shape, some (entries.map (·.1)), entries.map (·.2)⟩

/-! ## Elements -/

/-- Every element, in order.  A stored position beyond the size ends the program. -/
def elements? (o : Overflow) (t : Tensor S K) : Option (Array K) :=
  match t.pattern with
  | none => some t.data.toArray
  | some ps => do
      let n ← Extent.size? o t.shape
      (ps.zip t.data).foldlM
        (fun a e => if e.1 < a.size then some (a.setIfInBounds e.1 e.2) else none)
        (Array.replicate n 0)

/-- The same array with every element stored. -/
def toDense? (o : Overflow) (t : Tensor S K) : Option (Tensor S K) :=
  match t.pattern with
  | none => some t
  | some _ => (t.elements? o).map fun xs => dense t.shape xs.toList

/-- A function of every element, zeros included. -/
def map? (o : Overflow) (f : K → K) (t : Tensor S K) : Option (Tensor S K) :=
  (t.elements? o).map fun xs => dense t.shape (xs.toList.map f)

end Tensor

/-! ## Matrices

With overflow checks every array has the coefficients that its shape asks for, so that products and
inverses read no element that is not there. -/

namespace Matrix

variable {K : Type} [Scalar K]

/-- The position of a row and a column. -/
def position? (o : Overflow) (cols i j : Nat) : Option Nat := do
  Word.add? o (← Word.mul? o i cols) j

/-- The element in a row and a column.  One outside of the shape ends the program. -/
def get? (o : Overflow) (a : Matrix K) (i j : Nat) : Option K :=
  if i < a.shape.rows ∧ j < a.shape.cols then do
    let p ← position? o a.shape.cols i j
    match a.pattern with
    | none => a.data[p]?
    | some ps =>
        match ps.idxOf? p with
        | some q => a.data[q]?
        | none => some 0
  else none

/-- Rows and columns exchanged. -/
def transpose? (a : Matrix K) : Option (Matrix K) :=
  (a.toDense? .ends).map transpose

/-- The matrix product. -/
def product? (a b : Matrix K) : Option (Except ArrayError (Matrix K)) :=
  if a.shape.cols ≠ b.shape.rows then some (.error (.product a.shape b.shape))
  else do
    let a : Matrix K ← a.toDense? .ends
    let b : Matrix K ← b.toDense? .ends
    let _ ← Word.mul? .ends a.shape.rows b.shape.cols
    return a.product b

/-- The product element by element. -/
def elementwise? (a b : Matrix K) : Option (Except ArrayError (Matrix K)) :=
  if a.shape ≠ b.shape then some (.error (.elementwise a.shape b.shape))
  else do
    let xs ← a.elements? .ends
    let ys ← b.elements? .ends
    Tensor.ofStored? .ends a.shape none ((xs.toList.zip ys.toList).map fun (x, y) => x * y)

/-- The identity, with only its diagonal stored. -/
def sparseIdentity? (n : Nat) : Option (Matrix K) := do
  let ps ← (List.range n).mapM fun i => do Word.mul? .ends i (← Word.add? .ends n 1)
  return ⟨⟨n, n⟩, some ps, List.replicate n 1⟩

/-- The identity. -/
def identity? (n : Nat) : Option (Matrix K) :=
  (sparseIdentity? n).bind (Tensor.toDense? .ends)

/-- Ones on and below the diagonal. -/
def lowerOnes? (n : Nat) : Option (Matrix K) := do
  let cells := (List.range n).flatMap fun i => (List.range (i + 1)).map fun j => (i, j)
  let ps ← cells.mapM fun (i, j) => position? .ends n i j
  return ⟨⟨n, n⟩, some ps, List.replicate ps.length 1⟩

/-- The inverse of a square matrix, which is carried along from the identity. -/
def inverse? (a : Matrix K) : Option (Except ArrayError (Matrix K)) :=
  if !a.shape.isSquare then some (.error (.invertShape a.shape))
  else do
    let a : Matrix K ← a.toDense? .ends
    let _ ← (identity? a.shape.rows : Option (Matrix K))
    return a.inverse

end Matrix

end CoupledModels
