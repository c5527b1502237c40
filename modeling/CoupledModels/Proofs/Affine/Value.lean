import Mathlib.Algebra.BigOperators.Group.List.Basic
import Mathlib.Algebra.BigOperators.Ring.List
import Mathlib.Algebra.Order.Ring.Rat
import Mathlib.Tactic.Ring
import CoupledModels.Proofs.Affine.Typing

/-!
# Values of affine expressions

Over exact rationals an affine form has a value for every assignment of numbers to the decision
columns.  The normal form of an element has the value of the element, so the elements of a combined
expression are the linear combinations that its recipe says.
-/

namespace CoupledModels.Affine

/-- What a subscript stands for: the number of its column, and one for the constant term. -/
def columnValue (x : Nat → Rat) (j : Nat) : Rat :=
  if j = constantTerm then 1 else x j

/-- The value of an affine form: its constant terms plus each coefficient times its column. -/
def value (x : Nat → Rat) (ts : List (Term Rat)) : Rat :=
  (ts.map fun t => t.2 * columnValue x t.1).sum

/-- The value of the element at a position; there is nothing behind the last element. -/
def valueAt (e : Affine Rat) (x : Nat → Rat) (p : Nat) : Rat :=
  value x (e.elements.getD p [])

/-- The value of the element in a row and a column. -/
def entry (e : Affine Rat) (x : Nat → Rat) (i j : Nat) : Rat :=
  e.valueAt x (i * e.shape.cols + j)

variable {x : Nat → Rat}

/-! ## Forms -/

@[simp] theorem value_nil : value x [] = 0 := rfl

@[simp] theorem value_cons (t : Term Rat) (ts : List (Term Rat)) :
    value x (t :: ts) = t.2 * columnValue x t.1 + value x ts := by
  simp [value]

@[simp] theorem value_append (ts us : List (Term Rat)) :
    value x (ts ++ us) = value x ts + value x us := by
  simp [value]

theorem value_scaled (ts : List (Term Rat)) (f : Rat) :
    value x (ts.map fun (j, c) => (j, c * f)) = value x ts * f := by
  induction ts with
  | nil => simp
  | cons t ts ih =>
      simp only [List.map_cons, value_cons, ih]
      ring

theorem value_perm {ts us : List (Term Rat)} (h : ts.Perm us) : value x ts = value x us :=
  (h.map _).sum_eq

theorem value_flatMap {α : Type} (as : List α) (f : α → List (Term Rat)) :
    value x (as.flatMap f) = (as.map fun a => value x (f a)).sum := by
  induction as with
  | nil => rfl
  | cons a as ih => rw [List.flatMap_cons, value_append, ih, List.map_cons, List.sum_cons]

/-- Adding up a run of equal subscripts adds up what they contribute. -/
theorem value_mergeFrom (p : Nat) (acc : Rat) (ts : List (Term Rat)) :
    value x (Entry.mergeFrom p acc ts) = acc * columnValue x p + value x ts := by
  induction ts generalizing p acc with
  | nil => simp [Entry.mergeFrom]
  | cons t ts ih =>
      obtain ⟨q, v⟩ := t
      rw [Entry.mergeFrom]
      split
      · rename_i hq
        subst hq
        rw [ih, value_cons]
        ring
      · rw [value_cons, ih, value_cons]

theorem value_collect (ts : List (Term Rat)) : value x (Entry.collect ts) = value x ts := by
  rw [Entry.collect, ← value_perm (List.mergeSort_perm ts fun a b => decide (a.1 ≤ b.1))]
  -- Sorting only permutes the terms; how it sorts does not matter here.
  cases ts.mergeSort fun a b => decide (a.1 ≤ b.1) with
  | nil => rfl
  | cons t us =>
      obtain ⟨p, v⟩ := t
      rw [Entry.merge, value_mergeFrom, value_cons]

theorem isZero_iff {a : Rat} : Scalar.isZero a = true ↔ a = 0 := by
  simp [Scalar.isZero, Scalar.eqv]

theorem value_dropZeros (ts : List (Term Rat)) : value x (Entry.dropZeros ts) = value x ts := by
  induction ts with
  | nil => rfl
  | cons t ts ih =>
      rw [Entry.dropZeros] at ih ⊢
      by_cases hzero : Scalar.isZero t.2 = true
      · have hcoefficient : t.2 = 0 := isZero_iff.mp hzero
        rw [List.filter_cons_of_neg (by simp [hzero]), ih, value_cons, hcoefficient, zero_mul,
          zero_add]
      · rw [List.filter_cons_of_pos (by simp [hzero]), value_cons, ih, value_cons]

/-- The normal form of a form has the value of the form. -/
@[simp] theorem value_normalizeTerms (ts : List (Term Rat)) :
    value x (normalizeTerms ts) = value x ts := by
  rw [normalizeTerms, value_dropZeros, value_collect]

theorem foldl_add_constant {ts : List (Term Rat)} (h : ConstantTerms ts) (acc : Rat) :
    (ts.map (·.2)).foldl (· + ·) acc = acc + value x ts := by
  induction ts generalizing acc with
  | nil => exact (add_zero acc).symm
  | cons t ts ih =>
      have hcolumn : columnValue x t.1 = 1 := if_pos (h t List.mem_cons_self)
      rw [List.map_cons, List.foldl_cons, ih fun u hu => h u (List.mem_cons_of_mem _ hu),
        value_cons, hcolumn, mul_one, add_assoc]

/-- Without variables the value is the sum of the coefficients. -/
theorem value_constant {ts : List (Term Rat)} (h : ConstantTerms ts) :
    value x ts = Scalar.sum (ts.map (·.2)) :=
  ((foldl_add_constant h 0).trans (zero_add _)).symm

/-! ## Expressions -/

theorem valueAt_ofElements (s : Shape) (els : List (List (Term Rat))) (p : Nat) :
    (ofElements s els).valueAt x p = value x (els.getD p []) := by
  rw [valueAt, elements_ofElements]

/-- The elements of a combined expression are the linear combinations of its recipe. -/
theorem valueAt_combine (e : Affine Rat) (s : Shape) (recipe : List (List (Nat × Rat))) (p : Nat) :
    (e.combine s recipe).valueAt x p =
      ((recipe.getD p []).map fun part => e.valueAt x part.1 * part.2).sum := by
  rw [combine, valueAt_ofElements]
  simp only [List.getD_eq_getElem?_getD, List.getElem?_map]
  cases recipe[p]? with
  | none => rfl
  | some parts =>
      simp only [Option.map_some, Option.getD_some, value_normalizeTerms, value_flatMap]
      refine congrArg List.sum (List.map_congr_left fun part _ => ?_)
      obtain ⟨src, f⟩ := part
      rw [value_scaled, valueAt, Array.getD_eq_getD_getElem?, List.getElem?_toArray,
        List.getD_eq_getElem?_getD]

/-- A single form repeats its value. -/
theorem entry_broadcast {e r : Affine Rat} {s : Shape} (h : e.broadcast s = .ok r) {i j : Nat}
    (hi : i < s.rows) (hj : j < s.cols) :
    r.entry x i j = if e.shape = s then e.entry x i j else e.entry x 0 0 := by
  unfold broadcast at h
  split_ifs at h ⊢ with hs hscalar
  · cases h
    rfl
  · cases h
    have hpos : i * s.cols + j < s.rows * s.cols := cell_lt hi hj
    rw [entry, valueAt_combine]
    simp [combine, List.getD_eq_getElem?_getD, hpos, entry]

end CoupledModels.Affine
