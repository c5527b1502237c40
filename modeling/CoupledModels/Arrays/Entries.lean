import CoupledModels.Number.Scalar
import CoupledModels.Arrays.Shape

/-!
# Entries with positions

Lists of numbers that carry a position.  `collect` brings such a list into ascending order and adds
up the numbers of equal positions, in the order in which the list gives them.
-/

namespace CoupledModels

/-- A number with its position. -/
abbrev Entry (K : Type) := Nat × K

namespace Entry

variable {K : Type} [Scalar K]

/-- Adds up runs of equal positions; `acc` is the sum of the run at `p` so far. -/
def mergeFrom (p : Nat) (acc : K) : List (Entry K) → List (Entry K)
  | [] => [(p, acc)]
  | (q, v) :: rest =>
      if q = p then mergeFrom p (acc + v) rest else (p, acc) :: mergeFrom q v rest

/-- Adds up runs of equal positions. -/
def merge : List (Entry K) → List (Entry K)
  | [] => []
  | (p, v) :: rest => mergeFrom p v rest

/-- Ascending positions, each with the sum of its numbers.  The sort keeps the order of entries
with equal positions, so that the order of additions is that of the list. -/
def collect (es : List (Entry K)) : List (Entry K) :=
  merge (es.mergeSort fun a b => decide (a.1 ≤ b.1))

/-- Drops entries whose number is zero. -/
def dropZeros (es : List (Entry K)) : List (Entry K) :=
  es.filter fun e => !Scalar.isZero e.2

end Entry

/-- The entries of a table of values, row by row. -/
def tabulate {α : Type} (s : Shape) (f : Nat → Nat → α) : List α :=
  (List.range s.rows).flatMap fun i => (List.range s.cols).map fun j => f i j

end CoupledModels
