/-!
# Texts of a model

The objectives and the constraints of a symbolic model, as they are written.
-/

namespace CoupledModels

/-- The texts of a model. -/
structure ModelText where
  objective : List String
  expressions : List String
deriving DecidableEq, Repr, Inhabited

namespace ModelText

/-- No objective and no constraint. -/
def empty : ModelText :=
  ⟨[], []⟩

end ModelText

end CoupledModels
