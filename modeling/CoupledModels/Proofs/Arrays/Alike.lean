import CoupledModels.Arrays.Inverse
import CoupledModels.Proofs.Arrays.Elements
import Mathlib.Algebra.Order.Ring.Rat

/-!
# Arrays with the same elements

An array stores all of its elements or only some of them.  `Tensor.Alike` relates arrays that have the
same elements, whichever of them each one stores.  The operations on matrices read nothing but the
shape and the elements, so they give one result for arrays that are alike; only multiplying the stored
coefficients by a number gives arrays that are alike again.
-/

namespace CoupledModels

namespace Tensor

variable {S K : Type} [Extent S] [Scalar K] {t u : Tensor S K}

/-- Two arrays have the same elements. -/
structure Alike (t u : Tensor S K) : Prop where
  shape : t.shape = u.shape
  elements : t.elements = u.elements

theorem toDense_eq (t : Tensor S K) : t.toDense = dense t.shape t.elements.toList := by
  obtain ⟨s, pattern, data⟩ := t
  cases pattern with
  | none => simp [toDense, dense, elements]
  | some ps => rfl

/-- Storing every element changes none. -/
theorem alike_toDense (t : Tensor S K) : t.toDense.Alike t := by
  rw [toDense_eq]
  exact ⟨rfl, by rw [elements_dense, Array.toArray_toList]⟩

namespace Alike

theorem refl (t : Tensor S K) : t.Alike t :=
  ⟨rfl, rfl⟩

theorem toDense_eq (h : t.Alike u) : t.toDense = u.toDense := by
  rw [Tensor.toDense_eq, Tensor.toDense_eq, h.shape, h.elements]

end Alike

/-! ## Multiples -/

omit [Scalar K] in
/-- Storing changed coefficients in a changed array is changing what is stored. -/
theorem foldl_set_map (f : K → K) (ps : List Nat) (data : List K) (a : Array K) :
    (ps.zip (data.map f)).foldl (fun a e => a.setIfInBounds e.1 e.2) (a.map f) =
      ((ps.zip data).foldl (fun a e => a.setIfInBounds e.1 e.2) a).map f := by
  induction ps generalizing data a with
  | nil => rfl
  | cons p ps ih =>
      cases data with
      | nil => rfl
      | cons v data => simpa using ih data (a.setIfInBounds p v)

/-- Multiplying what is stored multiplies every element, because a multiple of zero is zero. -/
theorem elements_scale (t : Tensor S Rat) (s : Rat) :
    (t.scale s).elements = t.elements.map (· * s) := by
  obtain ⟨shape, pattern, data⟩ := t
  cases pattern with
  | none => simp [scale, elements]
  | some ps =>
      have hzeros : Array.replicate (Extent.size shape) (0 : Rat) =
          (Array.replicate (Extent.size shape) 0).map (· * s) := by
        rw [Array.map_replicate, zero_mul]
      simp only [scale, elements, Tensor.size]
      rw [hzeros, foldl_set_map, ← hzeros]

theorem Alike.scale {t u : Tensor S Rat} (h : t.Alike u) (s : Rat) :
    (t.scale s).Alike (u.scale s) :=
  ⟨h.shape, by rw [elements_scale, elements_scale, h.elements]⟩

end Tensor

namespace Matrix

variable {K : Type} [Scalar K] {a a' b b' : Matrix K}

theorem transpose_congr (h : a.Alike a') : a.transpose = a'.transpose := by
  unfold transpose
  rw [h.shape, h.elements]

theorem product_congr (ha : a.Alike a') (hb : b.Alike b') : a.product b = a'.product b' := by
  unfold product
  rw [ha.shape, ha.elements, hb.shape, hb.elements]

theorem elementwise_congr (ha : a.Alike a') (hb : b.Alike b') :
    a.elementwise b = a'.elementwise b' := by
  unfold elementwise
  rw [ha.shape, ha.elements, hb.shape, hb.elements]

theorem inverse_congr (h : a.Alike a') : a.inverse = a'.inverse := by
  unfold inverse
  rw [h.shape, h.elements]

end Matrix

end CoupledModels
