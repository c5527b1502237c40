import CoupledModels.Error
import CoupledModels.Arrays.Entries

/-!
# Arrays

Arrays of any number of dimensions, dense or sparse.  Elements are in row-major order: the last
dimension varies fastest.  A sparse array stores the positions of its coefficients in ascending
order; everything else is zero.
-/

namespace CoupledModels

/-- An array whose shape is of type `S` and whose elements are of type `K`. -/
structure Tensor (S K : Type) where
  shape : S
  /-- Positions of the stored coefficients; `none` if every element is stored. -/
  pattern : Option (List Nat)
  data : List K
deriving DecidableEq, Repr

/-- A two-dimensional array. -/
abbrev Matrix (K : Type) := Tensor Shape K

/-- True if every number is smaller than the one after it. -/
def strictlyAscending : List Nat → Bool
  | [] => true
  | [_] => true
  | a :: b :: rest => decide (a < b) && strictlyAscending (b :: rest)

namespace Tensor

variable {S K : Type} [Extent S]

/-- Number of elements, zeros included. -/
def size (t : Tensor S K) : Nat :=
  Extent.size t.shape

/-- Number of stored coefficients. -/
def stored (t : Tensor S K) : Nat :=
  t.data.length

/-- What makes an array of stored coefficients meaningful: one coefficient per stored position, and
positions that ascend and lie within the shape. -/
def check (shape : S) (pattern : Option (List Nat)) (count : Nat) : Except ArrayError Unit :=
  match pattern with
  | some ps =>
      if !strictlyAscending ps then .error .unsortedPattern
      else if ps.length ≠ count then .error .patternLength
      else if (ps.getLast?.map fun p => decide (Extent.size shape ≤ p)).getD false then
        .error .patternRange
      else .ok ()
  | none => if Extent.size shape ≠ count then .error .dataLength else .ok ()

/-- The array of stored coefficients, if they are meaningful. -/
def ofStored (shape : S) (pattern : Option (List Nat)) (data : List K) :
    Except ArrayError (Tensor S K) := do
  check shape pattern data.length
  return ⟨shape, pattern, data⟩

/-- The dense array of the first elements of a list that is long enough. -/
def ofPrefix (shape : S) (xs : List K) : Except ArrayError (Tensor S K) :=
  let data := xs.take (Extent.size shape)
  if data.length < Extent.size shape then .error .insufficientData else ofStored shape none data

/-- The dense array of a list of elements, one for each position. -/
def dense (shape : S) (data : List K) : Tensor S K :=
  ⟨shape, none, data⟩

/-- The position of an index in an array of the given sizes, as an unbounded number; `position?` and
`strides?` compute it in words. -/
def position : List Nat → List Nat → Nat
  | _ :: ds, i :: is => i * ds.foldl (· * ·) 1 + position ds is
  | _, _ => 0

/-- True if every part of an index is within its dimension. -/
def inBounds (dims index : List Nat) : Bool :=
  (index.zip dims).all fun (i, d) => decide (i < d)

/-- The same elements in another shape of equal size. -/
def reshape {T : Type} [Extent T] (t : Tensor S K) (shape : T) : Except ArrayError (Tensor T K) :=
  if Extent.size shape ≠ t.size then
    .error (.reshape (Extent.dims t.shape) (Extent.dims shape))
  else .ok ⟨shape, t.pattern, t.data⟩

variable [Scalar K]

/-- The sparse array of indexed coefficients; coefficients of equal indexes are added up. -/
def ofEntries (shape : S) (indexes : List (List Nat)) (data : List K) :
    Except ArrayError (Tensor S K) :=
  let dims := Extent.dims shape
  if data.length ≠ indexes.length then .error .indexLength
  else if indexes.any fun i => !inBounds dims i then .error .indexRange
  else
    let entries := Entry.collect ((indexes.map (position dims)).zip data)
    .ok ⟨shape, some (entries.map (·.1)), entries.map (·.2)⟩

/-- Every element, in order. -/
def elements (t : Tensor S K) : Array K :=
  match t.pattern with
  | none => t.data.toArray
  | some ps =>
      (ps.zip t.data).foldl (fun a e => a.setIfInBounds e.1 e.2) (Array.replicate t.size 0)

/-- The same array with every element stored. -/
def toDense (t : Tensor S K) : Tensor S K :=
  match t.pattern with
  | none => t
  | some _ => dense t.shape t.elements.toList

/-- A function of every element, zeros included. -/
def map (f : K → K) (t : Tensor S K) : Tensor S K :=
  dense t.shape (t.elements.toList.map f)

/-- Every stored coefficient times a number. -/
def scale (t : Tensor S K) (s : K) : Tensor S K :=
  { t with data := t.data.map (· * s) }

/-- Nothing but zeros, none of them stored. -/
def zeros (shape : S) : Tensor S K :=
  ⟨shape, some [], []⟩

/-- Nothing but ones. -/
def ones (shape : S) : Tensor S K :=
  dense shape (List.replicate (Extent.size shape) 1)

/-- Equality of shape, stored positions and stored values. -/
def eqv [BEq S] (a b : Tensor S K) : Bool :=
  a.shape == b.shape && a.pattern == b.pattern && a.data.length == b.data.length &&
    (a.data.zip b.data).all fun (x, y) => Scalar.eqv x y

end Tensor

end CoupledModels
