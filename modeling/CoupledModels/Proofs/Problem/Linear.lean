import Mathlib.Algebra.Order.Ring.Rat
import Mathlib.Data.List.Forall2
import Mathlib.Tactic.Linarith
import CoupledModels.Problem.Linear
import CoupledModels.Proofs.Affine.Support
import CoupledModels.Proofs.Affine.Value
import CoupledModels.Proofs.Number.Exact

/-!
# Linear problems represent their expressions

`LinearProblem.Represents` says what the flat problem owes to the objective and to the constraints
that it is made of: its columns are the variables that occur, it has one row for each element of a
constraint, its objective has the value of the objective expression, and a point lies within the
bounds of a row if and only if the element of the row is related to zero as the constraint demands.
All numbers are exact rationals.
-/

namespace CoupledModels

/-- The relation of a number to zero. -/
def Relation.Holds : Relation → Rat → Prop
  | .eq, v => v = 0
  | .ge, v => 0 ≤ v
  | .le, v => v ≤ 0

/-- The value of renumbered terms at values of the local columns. -/
def localValue (xs : List Rat) (ts : List (Term Rat)) : Rat :=
  (ts.map fun t => t.2 * xs.getD t.1 0).sum

@[simp] theorem localValue_cons (xs : List Rat) (t : Term Rat) (ts : List (Term Rat)) :
    localValue xs (t :: ts) = t.2 * xs.getD t.1 0 + localValue xs ts := by
  simp [localValue]

namespace LinearRow

/-- The value of the row lies within its bounds. -/
structure Within (r : LinearRow Rat) (xs : List Rat) : Prop where
  lower : ∀ l, r.lb = some l → l ≤ localValue xs r.terms
  upper : ∀ u, r.ub = some u → localValue xs r.terms ≤ u

theorem within_iff {r : LinearRow Rat} {xs : List Rat} :
    r.Within xs ↔ (∀ l, r.lb = some l → l ≤ localValue xs r.terms) ∧
      ∀ u, r.ub = some u → localValue xs r.terms ≤ u :=
  ⟨fun h => ⟨h.lower, h.upper⟩, fun h => ⟨h.1, h.2⟩⟩

end LinearRow

/-- An affine form with its relation to zero. -/
abbrev RelatedForm := List (Term Rat) × Relation

/-- The forms of constraints, element by element. -/
def constraintForms (constraints : List (Affine Rat × Relation)) : List RelatedForm :=
  constraints.flatMap fun (e, rel) => e.elements.map fun ts => (ts, rel)

/-- What a linear problem owes to the expressions that it is made of. -/
structure LinearProblem.Represents (p : LinearProblem Rat) (objective : Affine Rat)
    (constraints : List (Affine Rat × Relation)) : Prop where
  columns_ascending : p.columns.Pairwise (· < ·)
  constantTerm_not_mem : Affine.constantTerm ∉ p.columns
  mem_columns : ∀ j, j ≠ Affine.constantTerm →
    (j ∈ p.columns ↔ ∃ ts ∈ objective.elements ++ (constraintForms constraints).map (·.1),
      ∃ t ∈ ts, t.1 = j)
  lower_bounds : p.lb.length = (constraintForms constraints).length
  upper_bounds : p.ub.length = (constraintForms constraints).length
  pointers : p.ptr.length = p.rowCount + 1
  pointers_ascending : p.ptr.Pairwise (· ≤ ·)
  first_pointer : p.ptr.head? = some 0
  last_pointer : p.ptr.getLast? = some p.subj.length
  coefficients : p.cof.length = p.subj.length
  subscripts : ∀ k ∈ p.subj, k < p.columnCount
  objective_value : ∀ x : Nat → Rat,
    p.objectiveValue (p.columns.map x) = objective.entry x 0 0
  rows : ∀ x : Nat → Rat, List.Forall₂
    (fun r form => r.Within (p.columns.map x) ↔ form.2.Holds (Affine.value x form.1))
    p.rows (constraintForms constraints)
  violation : ∀ x : Nat → Rat, p.maxViolation (p.columns.map x) = 0 ↔
    ∀ form ∈ constraintForms constraints, form.2.Holds (Affine.value x form.1)

namespace LinearProblem

/-! ## Local columns -/

section Columns

variable {columns : List Nat} {ts : List (Term Rat)}

theorem constantPart_cons (t : Term Rat) (ts : List (Term Rat)) :
    constantPart (t :: ts) = (if t.1 = Affine.constantTerm then t.2 else 0) + constantPart ts := by
  have hfold : ∀ (ts : List (Term Rat)) (k : Rat),
      ts.foldl (fun k t => if t.1 = Affine.constantTerm then k + t.2 else k) k =
        k + constantPart ts := by
    intro ts
    induction ts with
    | nil => exact fun k => (add_zero k).symm
    | cons t ts ih =>
        intro k
        rw [constantPart, List.foldl_cons, List.foldl_cons, ih, ih]
        split
        · rw [zero_add, add_assoc]
        · rw [zero_add]
  rw [constantPart, List.foldl_cons, hfold]
  split
  · rw [zero_add]
  · rfl

theorem variablePart_cons_constant {t : Term Rat} (ht : t.1 = Affine.constantTerm) :
    variablePart columns (t :: ts) = variablePart columns ts :=
  List.filterMap_cons_none (by rw [if_pos ht])

/-- A column that occurs is renumbered to its place among the columns. -/
theorem variablePart_cons_column {t : Term Rat} (ht : t.1 ≠ Affine.constantTerm)
    (hmem : t.1 ∈ columns) :
    ∃ k, columns[k]? = some t.1 ∧
      variablePart columns (t :: ts) = (k, t.2) :: variablePart columns ts := by
  cases hidx : columns.idxOf? t.1 with
  | none => exact absurd hmem (List.idxOf?_eq_none_iff.mp hidx)
  | some k =>
      obtain ⟨hk, hget, -⟩ := List.idxOf?_eq_some_iff.mp hidx
      refine ⟨k, List.getElem?_eq_some_iff.mpr ⟨hk, hget⟩, ?_⟩
      exact List.filterMap_cons_some (by rw [if_neg ht, hidx, Option.map_some])

/-- Local columns are numbered below the number of columns. -/
theorem lt_of_mem_variablePart {t : Term Rat} (h : t ∈ variablePart columns ts) :
    t.1 < columns.length := by
  obtain ⟨u, -, hu⟩ := List.mem_filterMap.mp h
  split at hu
  · cases hu
  · obtain ⟨k, hk, rfl⟩ := Option.map_eq_some_iff.mp hu
    exact (List.idxOf?_eq_some_iff.mp hk).1

/-- The constant part and the variable part of a form make up its value. -/
theorem value_eq_parts (hcolumns : ∀ t ∈ ts, t.1 ≠ Affine.constantTerm → t.1 ∈ columns)
    (x : Nat → Rat) :
    Affine.value x ts =
      constantPart ts + localValue (columns.map x) (variablePart columns ts) := by
  induction ts with
  | nil => exact (add_zero 0).symm
  | cons t ts ih =>
      have hrest := ih fun u hu => hcolumns u (List.mem_cons_of_mem _ hu)
      rw [Affine.value_cons, constantPart_cons, hrest, Affine.columnValue]
      by_cases ht : t.1 = Affine.constantTerm
      · rw [if_pos ht, if_pos ht, mul_one, variablePart_cons_constant ht, add_assoc]
      · obtain ⟨k, hk, hparts⟩ := variablePart_cons_column ht (hcolumns t List.mem_cons_self ht)
        have hlocal : (columns.map x).getD k 0 = x t.1 := by
          simp [List.getD_eq_getElem?_getD, hk]
        rw [if_neg ht, if_neg ht, hparts, localValue_cons, hlocal]
        ring

end Columns

/-! ## The objective -/

section Objective

/-- Adding to one coefficient adds a multiple of its column's value. -/
theorem sum_zipWith_set (c xs : List Rat) {k : Nat} (hk : k < c.length) (hlen : c.length = xs.length)
    (v : Rat) :
    (List.zipWith (· * ·) (c.set k (c.getD k 0 + v)) xs).sum =
      (List.zipWith (· * ·) c xs).sum + v * xs.getD k 0 := by
  induction c generalizing xs k with
  | nil => simp at hk
  | cons b c ih =>
      cases xs with
      | nil => simp at hlen
      | cons a xs =>
          cases k with
          | zero =>
              simp only [List.set_cons_zero, List.getD_cons_zero, List.zipWith_cons_cons,
                List.sum_cons]
              ring
          | succ k =>
              have hstep := @ih xs k (by simpa using hk) (by simpa using hlen)
              simp only [List.set_cons_succ, List.getD_cons_succ, List.zipWith_cons_cons,
                List.sum_cons, hstep]
              ring

/-- Coefficients are added up column by column, so repeated columns count with their sum. -/
theorem sum_zipWith_foldl (ts : List (Term Rat)) (c : Array Rat) (xs : List Rat)
    (hts : ∀ t ∈ ts, t.1 < c.size) (hlen : c.size = xs.length) :
    (List.zipWith (· * ·) (ts.foldl
      (fun (c : Array Rat) t => c.setIfInBounds t.1 (c.getD t.1 0 + t.2)) c).toList xs).sum =
      (List.zipWith (· * ·) c.toList xs).sum + localValue xs ts := by
  induction ts generalizing c with
  | nil => exact (add_zero _).symm
  | cons t ts ih =>
      have ht : t.1 < c.toList.length := by simpa using hts t List.mem_cons_self
      have hset := sum_zipWith_set c.toList xs ht (by simpa using hlen) t.2
      rw [List.foldl_cons, ih _ (fun u hu => by simpa using hts u (List.mem_cons_of_mem _ hu))
        (by simpa using hlen), localValue_cons, ← add_assoc, ← hset]
      simp

theorem sum_coefficients (columns : List Nat) (ts : List (Term Rat)) (xs : List Rat)
    (hlen : xs.length = columns.length) :
    (List.zipWith (· * ·) (coefficients columns ts) xs).sum =
      localValue xs (variablePart columns ts) := by
  have hzeros : ∀ (n : Nat) (xs : List Rat),
      (List.zipWith (· * ·) (List.replicate n (0 : Rat)) xs).sum = 0 := by
    intro n
    induction n with
    | zero => exact fun xs => by simp
    | succ n ih =>
        intro xs
        cases xs with
        | nil => rfl
        | cons v xs => simp [List.replicate_succ, ih]
  have hsum := sum_zipWith_foldl (variablePart columns ts) (Array.replicate columns.length 0) xs
    (fun t ht => by simpa using lt_of_mem_variablePart ht) (by simpa using hlen.symm)
  rw [Array.toList_replicate, hzeros, zero_add] at hsum
  exact hsum

end Objective

/-! ## Rows -/

section Rows

/-- Joined rows are cut apart again where the pointers say. -/
theorem rows_joined (p : LinearProblem Rat) (rs : List (LinearRow Rat))
    (hptr : p.ptr = Affine.starts 0 (rs.map fun r => r.terms.length))
    (hsubj : p.subj = rs.flatMap fun r => r.terms.map (·.1))
    (hcof : p.cof = rs.flatMap fun r => r.terms.map (·.2))
    (hlb : p.lb = rs.map (·.lb)) (hub : p.ub = rs.map (·.ub)) : p.rows = rs := by
  have hterms : p.subj.zip p.cof = (rs.map (·.terms)).flatten := by
    rw [hsubj, hcof, ← List.flatMap_def, ← List.map_flatMap, ← List.map_flatMap]
    exact (List.zip_of_prod rfl rfl).symm
  have hslices : Affine.slices (rs.map (·.terms)).flatten p.ptr = rs.map (·.terms) := by
    have h := Affine.slices_starts [] (rs.map (·.terms))
    rw [List.map_map] at h
    rw [hptr]
    exact h
  have hbounds : p.lb.zip p.ub = rs.map fun r => (r.lb, r.ub) := by
    rw [hlb, hub, List.zip_map']
  have hrows : p.rows = ((Affine.slices (p.subj.zip p.cof) p.ptr).zip (p.lb.zip p.ub)).map
      fun (ts, l, u) => ⟨ts, l, u⟩ := by
    simp [rows, Affine.slices, List.zip_map_left, Function.comp_def]
  rw [hrows, hterms, hslices, hbounds, List.zip_map', List.map_map]
  exact List.map_id rs

theorem pairwise_starts (p : Nat) (ns : List Nat) :
    (Affine.starts p ns).Pairwise (· ≤ ·) ∧ ∀ q ∈ Affine.starts p ns, p ≤ q := by
  induction ns generalizing p with
  | nil => simp [Affine.starts]
  | cons n ns ih =>
      obtain ⟨hpairwise, hle⟩ := ih (p + n)
      have hfirst : ∀ q ∈ Affine.starts (p + n) ns, p ≤ q := fun q hq =>
        Nat.le_trans (Nat.le_add_right p n) (hle q hq)
      refine ⟨List.pairwise_cons.mpr ⟨hfirst, hpairwise⟩, fun q hq => ?_⟩
      rcases List.mem_cons.mp hq with rfl | hq
      · exact Nat.le_refl q
      · exact hfirst q hq

/-- A point lies within the bounds of a form's row if and only if the form is related to zero. -/
theorem within_rowOf {columns : List Nat} {ts : List (Term Rat)}
    (hcolumns : ∀ t ∈ ts, t.1 ≠ Affine.constantTerm → t.1 ∈ columns) (rel : Relation)
    (x : Nat → Rat) :
    (rowOf columns rel ts).Within (columns.map x) ↔ rel.Holds (Affine.value x ts) := by
  rw [value_eq_parts hcolumns, LinearRow.within_iff]
  cases rel with
  | eq =>
      simp only [rowOf, Relation.Holds, reduceCtorEq, if_false, Option.some.injEq, forall_eq']
      constructor
      · rintro ⟨hlower, hupper⟩
        linarith
      · intro h
        constructor <;> linarith
  | ge =>
      simp only [rowOf, Relation.Holds, reduceCtorEq, if_false, if_true, Option.some.injEq,
        forall_eq', false_implies, implies_true, and_true]
      constructor <;> intro h <;> linarith
  | le =>
      simp only [rowOf, Relation.Holds, reduceCtorEq, if_false, if_true, Option.some.injEq,
        forall_eq', false_implies, implies_true, true_and]
      constructor <;> intro h <;> linarith

/-! ## Violations -/

theorem scalar_max_eq (a b : Rat) : Scalar.max a b = max a b := by
  simp only [Scalar.max, Scalar.isNaN, Scalar.lt]
  grind

theorem violation_nonneg (r : LinearRow Rat) (xs : Array Rat) : 0 ≤ violation r xs := by
  unfold violation
  dsimp only
  split
  · rw [scalar_max_eq]
    exact le_max_right _ _
  · rw [scalar_max_eq]
    exact le_max_right _ _
  · rw [scalar_max_eq]
    exact le_max_right _ _
  · exact le_refl 0

/-- A row is not violated where its value lies within the bounds. -/
theorem violation_le_zero_iff (r : LinearRow Rat) (xs : List Rat) :
    violation r xs.toArray ≤ 0 ↔ r.Within xs := by
  have hvalue : Scalar.sum (r.terms.map fun t => t.2 * xs.toArray.getD t.1 0) =
      localValue xs r.terms := by
    rw [Scalar.sum_rat]
    simp [localValue]
  obtain ⟨ts, lb, ub⟩ := r
  rw [LinearRow.within_iff]
  unfold violation
  dsimp only at hvalue ⊢
  rw [hvalue]
  cases lb with
  | none =>
      cases ub with
      | none => simp
      | some u => simp [scalar_max_eq]
  | some l =>
      cases ub with
      | none => simp [scalar_max_eq]
      | some u => simp [scalar_max_eq]

/-- No row is violated if and only if the largest violation is zero. -/
theorem maxViolation_eq_zero_iff (p : LinearProblem Rat) (xs : List Rat) :
    p.maxViolation xs = 0 ↔ ∀ r ∈ p.rows, r.Within xs := by
  have hfold : ∀ (rs : List (LinearRow Rat)) (m : Rat), 0 ≤ m →
      (rs.foldl (fun m r => Scalar.max m (violation r xs.toArray)) m = 0 ↔
        m = 0 ∧ ∀ r ∈ rs, r.Within xs) := by
    intro rs
    induction rs with
    | nil => simp
    | cons r rs ih =>
        intro m hm
        have hnonneg := violation_nonneg r xs.toArray
        have hwithin := violation_le_zero_iff r xs
        rw [List.foldl_cons, ih _ (by rw [scalar_max_eq]; exact le_max_of_le_left hm),
          scalar_max_eq, List.forall_mem_cons, ← hwithin, ← and_assoc]
        refine and_congr_left fun _ => ?_
        constructor
        · intro h
          exact ⟨le_antisymm (h ▸ le_max_left _ _) hm, h ▸ le_max_right _ _⟩
        · rintro ⟨rfl, hv⟩
          exact max_eq_left hv
  rw [maxViolation, hfold _ 0 (le_refl 0)]
  simp

end Rows

/-! ## The problem of an objective and constraints -/

section Parts

variable {objective : Affine Rat} {constraints : List (Affine Rat × Relation)}

/-- The variables of all expressions, each once and in ascending order. -/
def columnsOf (objective : Affine Rat) (constraints : List (Affine Rat × Relation)) : List Nat :=
  Affine.sortedDistinct (objective.support ++ constraints.flatMap fun (e, _) => e.support)

/-- The forms of all expressions. -/
def formsOf (objective : Affine Rat) (constraints : List (Affine Rat × Relation)) :
    List (List (Term Rat)) :=
  objective.elements ++ (constraintForms constraints).map (·.1)

theorem mem_columnsOf (hobjective : objective.WellFormed)
    (hconstraints : ∀ c ∈ constraints, c.1.WellFormed) {j : Nat} :
    j ∈ columnsOf objective constraints ↔
      j ≠ Affine.constantTerm ∧ ∃ ts ∈ formsOf objective constraints, ∃ t ∈ ts, t.1 = j := by
  simp only [columnsOf, formsOf, constraintForms, Affine.mem_sortedDistinct, List.mem_append,
    List.mem_flatMap, List.mem_map, hobjective.mem_support]
  constructor
  · rintro (⟨hj, ts, hts, hmem⟩ | ⟨c, hc, hj⟩)
    · exact ⟨hj, ts, .inl hts, hmem⟩
    · obtain ⟨hj, ts, hts, hmem⟩ := (hconstraints c hc).mem_support.mp hj
      exact ⟨hj, ts, .inr ⟨(ts, c.2), ⟨c, hc, ts, hts, rfl⟩, rfl⟩, hmem⟩
  · rintro ⟨hj, ts, hts | ⟨_, ⟨c, hc, us, hus, rfl⟩, rfl⟩, hmem⟩
    · exact .inl ⟨hj, ts, hts, hmem⟩
    · exact .inr ⟨c, hc, (hconstraints c hc).mem_support.mpr ⟨hj, us, hus, hmem⟩⟩

/-- The rows of constraints are those of their forms. -/
theorem rows_eq_map_forms (columns : List Nat) :
    (constraints.flatMap fun (e, rel) => e.elements.map (rowOf columns rel)) =
      (constraintForms constraints).map fun form => rowOf columns form.2 form.1 := by
  simp [constraintForms, List.map_flatMap, Function.comp_def]

theorem rows_of_ofParts {name : String} {sense : Sense} {catalog : Catalog Rat}
    {p : LinearProblem Rat} (h : ofParts name sense objective constraints catalog = .ok p) :
    p.rows = (constraintForms constraints).map fun form =>
      rowOf (columnsOf objective constraints) form.2 form.1 := by
  unfold ofParts at h
  split at h
  · cases h
  · simp only [rows_eq_map_forms, ← columnsOf.eq_def] at h
    cases h
    exact rows_joined _ _ rfl rfl rfl rfl rfl

/-- A single form is its expression's only element. -/
theorem value_headD (hobjective : objective.WellFormed) (hscalar : objective.isScalar = true)
    (x : Nat → Rat) :
    objective.entry x 0 0 = Affine.value x (objective.elements.headD []) ∧
      objective.elements = [objective.elements.headD []] := by
  have hshape : objective.shape = .scalar := Shape.isScalar_iff.mp hscalar
  have hlen := hobjective.length_elements
  rw [hshape] at hlen
  obtain ⟨ts, hts⟩ := List.length_eq_one_iff.mp hlen
  simp [Affine.entry, Affine.valueAt, hts]

/-- The flat problem of a single form and of constraints represents them. -/
theorem represents_of_ofParts {name : String} {sense : Sense} {catalog : Catalog Rat}
    {p : LinearProblem Rat} (hobjective : objective.WellFormed)
    (hscalar : objective.isScalar = true) (hconstraints : ∀ c ∈ constraints, c.1.WellFormed)
    (h : ofParts name sense objective constraints catalog = .ok p) :
    p.Represents objective constraints := by
  have hrows := rows_of_ofParts h
  rw [ofParts, if_neg (by simp [hscalar])] at h
  simp only [rows_eq_map_forms, ← columnsOf.eq_def] at h
  -- Every subscript in use has a local number, so renumbering drops no term.
  have hcolumns : ∀ ts ∈ formsOf objective constraints, ∀ t ∈ ts,
      t.1 ≠ Affine.constantTerm → t.1 ∈ columnsOf objective constraints := fun ts hts t ht hne =>
    (mem_columnsOf hobjective hconstraints).mpr ⟨hne, ts, hts, t, ht, rfl⟩
  have hlast := Affine.getLast?_starts 0 (((constraintForms constraints).map fun form =>
    rowOf (columnsOf objective constraints) form.2 form.1).map fun r => r.terms.length)
  have hwithin : ∀ (x : Nat → Rat), ∀ form ∈ constraintForms constraints,
      ((rowOf (columnsOf objective constraints) form.2 form.1).Within
        ((columnsOf objective constraints).map x) ↔ form.2.Holds (Affine.value x form.1)) :=
    fun x form hform => within_rowOf (hcolumns form.1
      (List.mem_append_right _ (List.mem_map_of_mem hform))) form.2 x
  obtain ⟨-, hsingle⟩ := value_headD hobjective hscalar fun _ => 0
  cases h
  exact
    { columns_ascending := Affine.pairwise_sortedDistinct _
      constantTerm_not_mem := fun hmem => ((mem_columnsOf hobjective hconstraints).mp hmem).1 rfl
      mem_columns := fun j hj => (mem_columnsOf hobjective hconstraints).trans (and_iff_right hj)
      lower_bounds := by simp
      upper_bounds := by simp
      pointers := by simp [rowCount]
      pointers_ascending := (pairwise_starts _ _).1
      first_pointer := by rw [Affine.starts_eq_cons]; rfl
      last_pointer := by
        rw [hlast]
        simp [List.length_flatMap, Function.comp_def]
      coefficients := by simp [List.length_flatMap]
      subscripts := by
        intro k hk
        obtain ⟨r, hr, hk⟩ := List.mem_flatMap.mp hk
        obtain ⟨form, -, rfl⟩ := List.mem_map.mp hr
        obtain ⟨t, ht, rfl⟩ := List.mem_map.mp hk
        exact lt_of_mem_variablePart ht
      objective_value := by
        intro x
        have hmem : objective.elements.headD [] ∈ formsOf objective constraints :=
          List.mem_append_left _ (hsingle ▸ List.mem_singleton_self _)
        rw [(value_headD hobjective hscalar x).1, value_eq_parts (hcolumns _ hmem) x,
          objectiveValue, Scalar.sum_rat, sum_coefficients _ _ _ (by simp)]
      rows := by
        intro x
        rw [hrows, List.forall₂_map_left_iff, List.forall₂_same]
        exact hwithin x
      violation := by
        intro x
        rw [maxViolation_eq_zero_iff, hrows, List.forall_mem_map]
        exact forall₂_congr (hwithin x) }

/-- Expressions whose stored form is meaningful always have a flat problem, if the objective is a
single form. -/
theorem exists_ofParts (name : String) (sense : Sense) (catalog : Catalog Rat)
    (hscalar : objective.isScalar = true) :
    ∃ p, ofParts name sense objective constraints catalog = .ok p := by
  rw [ofParts, if_neg (by simp [hscalar])]
  exact ⟨_, rfl⟩

end Parts

/-! ## Normal rows -/

/-- A row has each local column once, in ascending order and with a coefficient that is not zero. -/
structure NormalRow (r : LinearRow Rat) : Prop where
  ascending : (r.terms.map (·.1)).Pairwise (· < ·)
  nonzero : ∀ t ∈ r.terms, t.2 ≠ 0

/-- Renumbering keeps the order of columns. -/
theorem lt_of_columns_lt {columns : List Nat} (h : columns.Pairwise (· < ·)) {j k a b : Nat}
    (ha : columns[a]? = some j) (hb : columns[b]? = some k) (hjk : j < k) : a < b := by
  obtain ⟨halt, rfl⟩ := List.getElem?_eq_some_iff.mp ha
  obtain ⟨hblt, rfl⟩ := List.getElem?_eq_some_iff.mp hb
  rcases Nat.lt_trichotomy a b with hab | rfl | hba
  · exact hab
  · exact absurd hjk (Nat.lt_irrefl _)
  · exact absurd (List.pairwise_iff_getElem.mp h b a hblt halt hba) (Nat.lt_asymm hjk)

theorem normalRow_rowOf {columns : List Nat} (hcolumns : columns.Pairwise (· < ·)) (rel : Relation)
    {ts : List (Term Rat)} (h : Affine.NormalTerms ts) : NormalRow (rowOf columns rel ts) where
  ascending := by
    rw [List.pairwise_map]
    refine List.Pairwise.filterMap _ (fun t u htu a ha b hb => ?_) h.ascending
    split at ha
    · cases ha
    split at hb
    · cases hb
    obtain ⟨i, hi, rfl⟩ := Option.map_eq_some_iff.mp ha
    obtain ⟨k, hk, rfl⟩ := Option.map_eq_some_iff.mp hb
    obtain ⟨hilt, higet, -⟩ := List.idxOf?_eq_some_iff.mp hi
    obtain ⟨hklt, hkget, -⟩ := List.idxOf?_eq_some_iff.mp hk
    -- Local numbers are places in an ascending list, so they have the order of the columns.
    exact lt_of_columns_lt hcolumns (List.getElem?_eq_some_iff.mpr ⟨hilt, higet⟩)
      (List.getElem?_eq_some_iff.mpr ⟨hklt, hkget⟩) htu
  nonzero := by
    intro t ht
    obtain ⟨u, hu, hut⟩ := List.mem_filterMap.mp ht
    split at hut
    · cases hut
    · obtain ⟨k, -, rfl⟩ := Option.map_eq_some_iff.mp hut
      exact fun hzero => by simpa [Affine.isZero_iff.mpr hzero] using h.nonzero u hu

end LinearProblem

end CoupledModels
