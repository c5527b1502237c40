import CoupledModels.Proofs.Arrays.Elements
import Mathlib.Algebra.BigOperators.Group.List.Basic
import Mathlib.Data.List.Forall2

/-!
# Positions of indexes

An index has one part for each dimension.  The parts are the digits of a number whose base changes
from dimension to dimension, the last one lowest, and this number is the position.  So positions
stay below the product of the sizes, and no two indexes share one.
-/

namespace CoupledModels

/-- An index has one part for each dimension, below its size. -/
def InRange (index dims : List Nat) : Prop :=
  List.Forall₂ (· < ·) index dims

theorem InRange.pos {index dims : List Nat} (h : InRange index dims) : ∀ d ∈ dims, 0 < d := by
  induction h with
  | nil => simp
  | cons hi _ ih => simpa using ⟨Nat.zero_lt_of_lt hi, ih⟩

namespace Tensor

theorem inRange_iff {index dims : List Nat} :
    InRange index dims ↔ index.length = dims.length ∧ inBounds dims index = true := by
  unfold InRange inBounds
  rw [List.forall₂_iff_zip, List.all_eq_true]
  simp

theorem position_cons (d : Nat) (ds : List Nat) (i : Nat) (is : List Nat) :
    position (d :: ds) (i :: is) = i * ds.prod + position ds is := by
  rw [position, List.prod_eq_foldl]

theorem position_lt_prod {index dims : List Nat} (h : InRange index dims) :
    position dims index < dims.prod := by
  induction h with
  | nil => simp [position]
  | @cons i d is ds hi _ ih =>
      rw [position_cons, List.prod_cons]
      calc i * ds.prod + position ds is < i * ds.prod + ds.prod := Nat.add_lt_add_left ih _
        _ = (i + 1) * ds.prod := (Nat.succ_mul i _).symm
        _ ≤ d * ds.prod := Nat.mul_le_mul_right _ hi

theorem position_lt {S : Type} [Extent S] {s : S} {index : List Nat}
    (h : InRange index (Extent.dims s)) : position (Extent.dims s) index < Extent.size s := by
  rw [Extent.size, ← List.prod_eq_foldl]
  exact position_lt_prod h

/-- The quotient and the remainder by the size of the inner dimensions give back the parts. -/
theorem position_injective {index index' dims : List Nat} (h : InRange index dims)
    (h' : InRange index' dims) (heq : position dims index = position dims index') :
    index = index' := by
  induction h generalizing index' with
  | nil =>
      cases h'
      rfl
  | @cons i d is ds hi his ih =>
      cases h' with
      | @cons j _ js _ hj hjs =>
          rw [position_cons, position_cons] at heq
          have hlt := position_lt_prod his
          have hlt' := position_lt_prod hjs
          -- The inner dimensions are not empty, since the rest of the index lies within them.
          have hpos : 0 < ds.prod := by omega
          have hfirst : i = j := by
            have hquotient := congrArg (· / ds.prod) heq
            simpa [Nat.mul_comm _ ds.prod, Nat.mul_add_div hpos, Nat.div_eq_of_lt hlt,
              Nat.div_eq_of_lt hlt'] using hquotient
          subst hfirst
          rw [ih hjs (Nat.add_left_cancel heq)]

end Tensor

end CoupledModels
