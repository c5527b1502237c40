import CoupledModels.Text.Quoted

/-!
# Problem keys

A model falls into sub-problems, one for each combination of items of its splitting dimensions.  A
key names one sub-problem by these items.  A model without splitting dimensions is one sub-problem,
named by the key without coordinates.
-/

namespace CoupledModels

/-- A dimension name with one of its items. -/
abbrev Coordinate := String × String

/-- One item for each splitting dimension, in registry order. -/
structure ProblemKey where
  coords : List Coordinate
deriving DecidableEq, Repr, Inhabited

namespace ProblemKey

/-- The key of a model that is not split. -/
def default : ProblemKey :=
  ⟨[]⟩

/-- True for the key without coordinates. -/
def isDefault (k : ProblemKey) : Bool :=
  k.coords.isEmpty

/-- The item that the key selects for a dimension, if the dimension is one of the key's. -/
def item? (k : ProblemKey) (dim : String) : Option String :=
  (k.coords.find? fun c => c.1 == dim).map (·.2)

/-- The items alone, separated by commas. -/
def label (k : ProblemKey) : String :=
  if k.isDefault then "default" else ",".intercalate (k.coords.map (·.2))

/-- Every dimension with its item, in brackets. -/
def display (k : ProblemKey) : String :=
  if k.isDefault then "[default]"
  else "[" ++ ",".intercalate (k.coords.map fun c => c.1 ++ "=" ++ c.2) ++ "]"

/-- True if no coordinate of the list contradicts the key: each one names a dimension that the key
lacks, or the item that the key selects. -/
def agreesWith (k : ProblemKey) (coords : List Coordinate) : Bool :=
  coords.all fun c => match k.item? c.1 with
    | some i => i == c.2
    | none => true

/-- Lexicographic order of coordinate lists: dimension first, then item. -/
def compareCoords : List Coordinate → List Coordinate → Ordering
  | [], [] => .eq
  | [], _ :: _ => .lt
  | _ :: _, [] => .gt
  | a :: as, b :: bs =>
      ((compare a.1 b.1).then (compare a.2 b.2)).then (compareCoords as bs)

instance : Ord ProblemKey where
  compare a b := compareCoords a.coords b.coords

end ProblemKey

end CoupledModels
