import CoupledModels.Variables.Constant
import CoupledModels.Proofs.Arrays.Sparse

/-!
# Shapes of constants

Every literal constant has the shape of its variable but one: the number of items of a vector is a
single number, whatever the shape of the vector.
-/

namespace CoupledModels

variable {K : Type} [Scalar K]

namespace ConstantKind

/-- The shape of the matrix that a constant of a variable of some shape stands for. -/
def shapeFor (kind : ConstantKind) (s : Shape) : Shape :=
  if kind = .setLength then .scalar else s

/-- Each related pair of items has a row and a column. -/
theorem mem_indexes {a : Assignment} {i : List Nat} (h : i ∈ a.indexes) :
    ∃ row col, i = [row, col] := by
  obtain ⟨⟨r, c⟩, -, hi⟩ := List.mem_filterMap.mp h
  simp only at hi
  split at hi
  · cases hi
    exact ⟨_, _, rfl⟩
  · cases hi

theorem outcome_build (kind : ConstantKind) (s : Shape) (assigned : Option Assignment) :
    Outcome (fun m : Matrix K => m.HasShape (kind.shapeFor s)) AnyError
      (kind.build s assigned) := by
  -- the square kinds are built from the number of rows alone
  have hsquare : s.isSquare = true → (⟨s.rows, s.rows⟩ : Shape) = s := fun h => by
    obtain ⟨rows, cols⟩ := s
    obtain rfl : rows = cols := by simpa [Shape.isSquare] using h
    rfl
  unfold build
  cases kind with
  | identity =>
      dsimp only
      split
      · exact hsquare ‹_› ▸ Tensor.HasShape.sparseIdentity s.rows
      · trivial
  | lowerTriangular =>
      dsimp only
      split
      · exact hsquare ‹_› ▸ Tensor.HasShape.lowerOnes s.rows
      · trivial
  | sumVector =>
      dsimp only
      split
      · exact Tensor.HasShape.ones s
      · trivial
  | setLength =>
      dsimp only
      split
      · exact Tensor.HasShape.dense rfl
      · trivial
  | arangeZero => exact Tensor.HasShape.ofFn s _
  | arangeOne => exact Tensor.HasShape.ofFn s _
  | assignment =>
      cases assigned with
      | none => trivial
      | some a =>
          exact (Tensor.outcome_ofEntries s _ fun _ hi => mem_indexes hi).mapError fun _ _ => trivial

end ConstantKind

namespace Variable

/-- The shape of the value of a constant variable. -/
def constantShape (v : Variable) : Shape :=
  match v.value with
  | some kind => kind.shapeFor v.shape
  | none => v.shape

/-- A constant has the shape of its variable unless it is the number of items of a longer vector. -/
theorem constantShape_eq_iff {v : Variable} :
    v.constantShape = v.shape ↔ v.value = some .setLength → v.shape = .scalar := by
  unfold constantShape
  cases v.value with
  | none => simp
  | some kind => cases kind <;> simp [ConstantKind.shapeFor, eq_comm]

theorem outcome_constantValue (v : Variable) :
    Outcome (fun m : Matrix K => m.HasShape v.constantShape) AnyError v.constantValue := by
  unfold constantValue constantShape
  cases v.value with
  | none => trivial
  | some kind => exact (kind.outcome_build v.shape v.assignment?).mapError fun _ _ => trivial

end Variable

end CoupledModels
