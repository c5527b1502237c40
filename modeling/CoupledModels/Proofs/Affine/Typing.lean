import CoupledModels.Formula.Typed
import CoupledModels.Proofs.Affine.Elements
import CoupledModels.Proofs.Arrays.Entries
import Mathlib.Tactic.SplitIfs

/-!
# Types of affine expressions

A formula type promises a shape and whether decision variables may occur.  `Affine.HasType` says
that an expression keeps such a promise, and there is one lemma for each operation on expressions:
operands whose types fit give a result, and the result has the type that the typing of formulas
computes.
-/

namespace CoupledModels

namespace Shape

theorem isScalar_iff {s : Shape} : s.isScalar = true ↔ s = .scalar := by
  simp [isScalar]

/-- How operations on expressions choose the shape of their result. -/
theorem broadcast?_eq_ite (a b : Shape) :
    Shape.broadcast? a b =
      if a = b ∨ b.isScalar then some a else if a.isScalar then some b else none := by
  simp [broadcast?]

/-- Either operand has the shape of the result or is a single number. -/
theorem broadcast?_fits {a b s : Shape} (h : broadcast? a b = some s) :
    (a = s ∨ a = .scalar) ∧ (b = s ∨ b = .scalar) := by
  rw [broadcast?_eq_ite] at h
  split_ifs at h with hfirst hsecond
  · obtain rfl : a = s := by simpa using h
    rcases hfirst with rfl | hb
    · exact ⟨.inl rfl, .inl rfl⟩
    · exact ⟨.inl rfl, .inr (isScalar_iff.mp hb)⟩
  · obtain rfl : b = s := by simpa using h
    exact ⟨.inr (isScalar_iff.mp hsecond), .inl rfl⟩

/-- The order of the operands does not matter. -/
theorem broadcast?_comm {a b s : Shape} (h : broadcast? a b = some s) : broadcast? b a = some s := by
  simp only [broadcast?_eq_ite, isScalar_iff] at h ⊢
  split_ifs at h ⊢ <;> grind

/-- A single number stretches to any shape. -/
theorem broadcast?_of_isScalar {a b : Shape} (h : a.isScalar = true ∨ b.isScalar = true) :
    broadcast? a b = some (if a.isScalar then b else a) := by
  simp only [broadcast?_eq_ite, isScalar_iff] at h ⊢
  split_ifs <;> grind

end Shape

namespace Affine

variable {K : Type} [Scalar K]

/-! ## Constant terms -/

theorem ConstantTerms.normalizeTerms {ts : List (Term K)} (h : ConstantTerms ts) :
    ConstantTerms (normalizeTerms ts) := by
  intro t ht
  obtain ⟨ht, -⟩ := Entry.mem_dropZeros_iff.mp ht
  obtain ⟨t', ht', heq⟩ := Entry.mem_collect ht
  exact heq ▸ h t' ht'

omit [Scalar K] in
theorem ConstantTerms.append {ts us : List (Term K)} (ht : ConstantTerms ts)
    (hu : ConstantTerms us) : ConstantTerms (ts ++ us) := by
  intro t h
  rcases List.mem_append.mp h with h | h
  · exact ht t h
  · exact hu t h

theorem ConstantTerms.scaled {ts : List (Term K)} (h : ConstantTerms ts) (f : K) :
    ConstantTerms (ts.map fun (j, c) => (j, c * f)) := by
  intro t ht
  obtain ⟨u, hu, rfl⟩ := List.mem_map.mp ht
  exact h u hu

/-- An expression of the shape that a type promises, without variables if it promises that too. -/
structure HasType (e : Affine K) (t : FormulaType) : Prop where
  wellFormed : e.WellFormed
  shape : e.shape = t.shape
  constant : t.linear = false → ∀ ts ∈ e.elements, ConstantTerms ts

namespace HasType

variable {e a b : Affine K} {s t : FormulaType}

omit [Scalar K] in
theorem ofElements {t : FormulaType} {els : List (List (Term K))}
    (hlen : els.length = t.shape.rows * t.shape.cols)
    (hconst : t.linear = false → ∀ ts ∈ els, ConstantTerms ts) :
    (ofElements t.shape els).HasType t where
  wellFormed := wellFormed_ofElements hlen
  shape := rfl
  constant := by simpa using hconst

omit [Scalar K] in
theorem isConstant (h : e.HasType t) (ht : t.linear = false) : e.isConstant = true :=
  h.wellFormed.isConstant_iff.mpr (h.constant ht)

omit [Scalar K] in
theorem isScalar_iff (h : e.HasType t) : e.isScalar = true ↔ t.shape = .scalar := by
  rw [Affine.isScalar, Shape.isScalar_iff, h.shape]

omit [Scalar K] in
theorem scalar (v : K) : (Affine.scalar v).HasType ⟨.scalar, false⟩ := by
  rw [scalar_eq]
  refine ofElements (t := ⟨.scalar, false⟩) rfl fun _ ts hts => ?_
  simp only [List.mem_singleton] at hts
  subst hts
  simp [ConstantTerms]

theorem ofMatrix {a : Matrix K} (h : a.Valid) : (ofMatrix a).HasType ⟨a.shape, false⟩ := by
  have hsize := h.size_elements
  rw [ofMatrix_eq]
  refine ofElements (t := ⟨a.shape, false⟩) (by simpa using hsize) fun _ ts hts => ?_
  obtain ⟨v, -, rfl⟩ := List.mem_map.mp hts
  simp [ConstantTerms]

theorem ofVariables {s : Shape} {columns : List Nat} (hlen : columns.length = s.rows * s.cols)
    (hzero : constantTerm ∉ columns) :
    ∃ e : Affine K, ofVariables s columns = .ok e ∧ e.HasType ⟨s, true⟩ := by
  cases h : Affine.ofVariables (K := K) s columns with
  | error err => simp [Affine.ofVariables, hlen, hzero] at h
  | ok e =>
      obtain ⟨rfl, -, -⟩ := ofVariables_ok h
      exact ⟨_, rfl, ofElements (t := ⟨s, true⟩) (by simpa using hlen) (by simp)⟩

/-! ## Combinations of elements -/

/-- A recipe for every position of a shape gives an expression of that shape. -/
theorem combine (h : e.HasType t) {shape : Shape} {recipe : List (List (Nat × K))}
    (hlen : recipe.length = shape.rows * shape.cols) :
    (e.combine shape recipe).HasType ⟨shape, t.linear⟩ := by
  refine ofElements (t := ⟨shape, t.linear⟩) (by simpa using hlen) fun hlin ts hts => ?_
  obtain ⟨parts, -, rfl⟩ := List.mem_map.mp hts
  refine ConstantTerms.normalizeTerms fun u hu => ?_
  obtain ⟨⟨src, f⟩, -, hu⟩ := List.mem_flatMap.mp hu
  -- A source behind the last element has no terms, so nothing is asked of recipes.
  have hsrc : ConstantTerms (e.elements.toArray.getD src []) := by
    rw [Array.getD_eq_getD_getElem?, List.getElem?_toArray]
    cases hget : e.elements[src]? with
    | none => simp [ConstantTerms]
    | some ts => exact h.constant hlin ts (List.mem_of_getElem? hget)
  exact hsrc.scaled f u hu

theorem broadcast (h : e.HasType t) {s : Shape} (hs : t.shape = s ∨ t.shape = .scalar) :
    ∃ r, e.broadcast s = .ok r ∧ r.HasType ⟨s, t.linear⟩ := by
  unfold Affine.broadcast
  split
  · rename_i heq
    exact ⟨e, rfl, h.wellFormed, heq, h.constant⟩
  · rename_i hne
    have hscalar : t.shape = .scalar := hs.resolve_left (h.shape ▸ hne)
    rw [if_pos (h.isScalar_iff.mpr hscalar)]
    exact ⟨_, rfl, h.combine (by simp)⟩

end HasType

/-! ## Sums and differences -/

/-- A sum is formed element by element once both operands have been stretched. -/
theorem addScaled_eq {a b a' b' : Affine K} {s : Shape} (f : K)
    (hs : Shape.broadcast? a.shape b.shape = some s) (ha : a.broadcast s = .ok a')
    (hb : b.broadcast s = .ok b') :
    a.addScaled b f =
      .ok (ofElements s ((a'.elements.zip b'.elements).map fun (l, r) =>
        normalizeTerms (l ++ r.map fun (j, c) => (j, c * f)))) := by
  rw [Shape.broadcast?_eq_ite] at hs
  unfold addScaled isScalar
  rw [hs]
  simp only [ha, hb, bind, Except.bind, pure, Except.pure]

namespace HasType

variable {e a b : Affine K} {s t : FormulaType}

theorem addScaled (ha : a.HasType s) (hb : b.HasType t) {u : Shape}
    (hu : Shape.broadcast? s.shape t.shape = some u) (f : K) :
    ∃ r, a.addScaled b f = .ok r ∧ r.HasType ⟨u, s.linear || t.linear⟩ := by
  obtain ⟨hsu, htu⟩ := Shape.broadcast?_fits hu
  obtain ⟨a', ha', hatype⟩ := ha.broadcast hsu
  obtain ⟨b', hb', hbtype⟩ := hb.broadcast htu
  rw [← ha.shape, ← hb.shape] at hu
  -- The result has variables only if an operand has.
  refine ⟨_, addScaled_eq f hu ha' hb', ofElements (t := ⟨u, s.linear || t.linear⟩) ?_ ?_⟩
  · have hlena := hatype.wellFormed.length_elements
    have hlenb := hbtype.wellFormed.length_elements
    rw [hatype.shape] at hlena
    rw [hbtype.shape] at hlenb
    simp [hlena, hlenb]
  · intro hlin ts hts
    simp only [Bool.or_eq_false_iff] at hlin
    obtain ⟨⟨l, r⟩, hmem, rfl⟩ := List.mem_map.mp hts
    obtain ⟨hl, hr⟩ := List.of_mem_zip hmem
    exact ((hatype.constant hlin.1 l hl).append ((hbtype.constant hlin.2 r hr).scaled f)).normalizeTerms

theorem add (ha : a.HasType s) (hb : b.HasType t) {u : Shape}
    (hu : Shape.broadcast? s.shape t.shape = some u) :
    ∃ r, a.add b = .ok r ∧ r.HasType ⟨u, s.linear || t.linear⟩ :=
  ha.addScaled hb hu 1

theorem sub (ha : a.HasType s) (hb : b.HasType t) {u : Shape}
    (hu : Shape.broadcast? s.shape t.shape = some u) :
    ∃ r, a.sub b = .ok r ∧ r.HasType ⟨u, s.linear || t.linear⟩ :=
  ha.addScaled hb hu (-1)

end HasType

/-! ## Products with numbers -/

/-- The elements of a scaled expression. -/
theorem elements_withScaled (e : Affine K) (f : K) :
    ({ e with cof := e.cof.map (· * f) } : Affine K).elements =
      e.elements.map fun ts => ts.map fun (j, c) => (j, c * f) := by
  have hterms : ({ e with cof := e.cof.map (· * f) } : Affine K).terms =
      e.terms.map fun (j, c) => (j, c * f) := by
    simp only [terms]
    rw [List.zip_map_right]
    rfl
  simp only [elements_eq_slices, hterms, slices, List.map_map, Function.comp_def, List.map_take,
    List.map_drop]

namespace HasType

variable {e a b : Affine K} {s t : FormulaType}

theorem scale (h : e.HasType t) (f : K) : (e.scale f).HasType t := by
  have hels := elements_withScaled e f
  have hlen := h.wellFormed.length_elements
  rw [h.shape] at hlen
  rw [Affine.scale, normalize, hels, h.shape]
  refine ofElements (by simpa using hlen) fun hlin ts hts => ?_
  simp only [List.mem_map] at hts
  obtain ⟨_, ⟨us, hus, rfl⟩, rfl⟩ := hts
  exact ((h.constant hlin us hus).scaled f).normalizeTerms

theorem negate (h : e.HasType t) : e.negate.HasType t :=
  h.scale (-1)

theorem mulLeft (h : e.HasType t) {m : Matrix K} (hm : m.shape.cols = t.shape.rows) :
    ∃ r, e.mulLeft m = .ok r ∧ r.HasType ⟨⟨m.shape.rows, t.shape.cols⟩, t.linear⟩ := by
  rw [← h.shape] at hm
  rw [Affine.mulLeft, if_neg (by simpa using hm), ← h.shape]
  exact ⟨_, rfl, h.combine (length_tabulate _ _)⟩

theorem mulRight (h : e.HasType t) {m : Matrix K} (hm : t.shape.cols = m.shape.rows) :
    ∃ r, e.mulRight m = .ok r ∧ r.HasType ⟨⟨t.shape.rows, m.shape.cols⟩, t.linear⟩ := by
  rw [← h.shape] at hm
  rw [Affine.mulRight, if_neg (by simpa using hm), ← h.shape]
  exact ⟨_, rfl, h.combine (length_tabulate _ _)⟩

end HasType

/-- An element-wise product combines the elements of the stretched operand, each with its factor. -/
theorem mulElementwise_eq {e e' : Affine K} {m : Matrix K} {s : Shape}
    (hs : Shape.broadcast? e.shape m.shape = some s) (he : e.broadcast s = .ok e') :
    e.mulElementwise m =
      .ok (e'.combine s ((List.range (s.rows * s.cols)).map fun i =>
        [(i, m.elements.getD (if m.elements.size = 1 then 0 else i) 0)])) := by
  rw [Shape.broadcast?_eq_ite] at hs
  unfold mulElementwise isScalar
  rw [hs]
  simp only [he, bind, Except.bind, pure, Except.pure]

namespace HasType

variable {e a b : Affine K} {s t : FormulaType}

theorem mulElementwise (h : e.HasType t) {m : Matrix K} {u : Shape}
    (hu : Shape.broadcast? t.shape m.shape = some u) :
    ∃ r, e.mulElementwise m = .ok r ∧ r.HasType ⟨u, t.linear⟩ := by
  obtain ⟨htu, -⟩ := Shape.broadcast?_fits hu
  obtain ⟨e', he', htype⟩ := h.broadcast htu
  rw [← h.shape] at hu
  exact ⟨_, mulElementwise_eq hu he', htype.combine (by simp)⟩

/-! ## Rearrangements -/

theorem transpose (h : e.HasType t) : e.transpose.HasType ⟨t.shape.flip, t.linear⟩ := by
  rw [Affine.transpose, h.shape]
  exact h.combine (length_tabulate _ _)

/-- The shape of a diagonal: a vector spreads to a square matrix, a square matrix shrinks to a
column. -/
theorem diagonal_vector (h : e.HasType t) (hv : t.shape.isVector = true) :
    ∃ r, e.diagonal = .ok r ∧
      r.HasType ⟨⟨t.shape.rows * t.shape.cols, t.shape.rows * t.shape.cols⟩, t.linear⟩ := by
  rw [Affine.diagonal, h.shape, if_pos hv]
  exact ⟨_, rfl, h.combine (length_tabulate _ _)⟩

theorem diagonal_square (h : e.HasType t) (hv : t.shape.isVector = false)
    (hs : t.shape.isSquare = true) :
    ∃ r, e.diagonal = .ok r ∧ r.HasType ⟨⟨t.shape.cols, 1⟩, t.linear⟩ := by
  rw [Affine.diagonal, h.shape, if_neg (by simp [hv]), if_pos hs]
  exact ⟨_, rfl, h.combine (by simp)⟩

theorem total (h : e.HasType t) : e.total.HasType ⟨.scalar, t.linear⟩ :=
  h.combine rfl

theorem sumAxis_zero (h : e.HasType t) :
    ∃ r, e.sumAxis 0 = .ok r ∧ r.HasType ⟨⟨1, t.shape.cols⟩, t.linear⟩ := by
  simp only [Affine.sumAxis, h.shape]
  exact ⟨_, rfl, h.combine (by simp)⟩

theorem sumAxis_one (h : e.HasType t) :
    ∃ r, e.sumAxis 1 = .ok r ∧ r.HasType ⟨⟨t.shape.rows, 1⟩, t.linear⟩ := by
  simp only [Affine.sumAxis, h.shape]
  exact ⟨_, rfl, h.combine (by simp)⟩

theorem shift (h : e.HasType t) (k : Int64) : (e.shift k).HasType t := by
  rw [Affine.shift, h.shape]
  exact h.combine (length_tabulate _ _)

end HasType

end Affine

end CoupledModels
