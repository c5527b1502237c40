import CoupledModels.Affine.Arithmetic
import CoupledModels.Proofs.Arrays.Elements
import Mathlib.Algebra.GroupWithZero.Nat

/-!
# Elements of affine expressions

The stored form of an expression is one list of terms with pointers into it; the view is a list of
terms for each element.  This module ties the two together:

* `elements_ofElements`: storing lists of terms and viewing them again changes nothing;
* `WellFormed.ofElements_elements`: on stored forms that pass the check and start at the first term,
  viewing and storing again changes nothing either.

Everything that asks for the stored terms directly, such as `isConstant` and `support`, is therefore
a question about the elements.
-/

namespace CoupledModels.Affine

variable {K : Type}

/-- The elements that pointers cut out of a list of terms. -/
def slices (ts : List (Term K)) (ptr : List Nat) : List (List (Term K)) :=
  (ptr.zip ptr.tail).map fun (p, q) => (ts.drop p).take (q - p)

theorem elements_eq_slices (e : Affine K) : e.elements = slices e.terms e.ptr := by
  simp [elements, chunks, slices]

theorem length_elements_eq_count (e : Affine K) : e.elements.length = e.count := by
  simp [elements_eq_slices, slices, count]

@[simp] theorem slices_singleton (ts : List (Term K)) (p : Nat) : slices ts [p] = [] := rfl

theorem slices_cons_cons (ts : List (Term K)) (p q : Nat) (ptr : List Nat) :
    slices ts (p :: q :: ptr) = (ts.drop p).take (q - p) :: slices ts (q :: ptr) := rfl

/-! ## From elements to the stored form and back -/

theorem starts_eq_cons (p : Nat) (ns : List Nat) : starts p ns = p :: (starts p ns).tail := by
  cases ns <;> rfl

@[simp] theorem length_starts (p : Nat) (ns : List Nat) : (starts p ns).length = ns.length + 1 := by
  induction ns generalizing p with
  | nil => rfl
  | cons n ns ih => simp [starts, ih]

theorem getLast?_starts (p : Nat) (ns : List Nat) : (starts p ns).getLast? = some (p + ns.sum) := by
  induction ns generalizing p with
  | nil => simp [starts]
  | cons n ns ih =>
      rw [starts, starts_eq_cons, List.getLast?_cons_cons, ← starts_eq_cons, ih, List.sum_cons,
        Nat.add_assoc]

theorem ascending_starts (p : Nat) (ns : List Nat) : ascending (starts p ns) = true := by
  induction ns generalizing p with
  | nil => rfl
  | cons n ns ih =>
      have htail := ih (p + n)
      rw [starts_eq_cons] at htail
      rw [starts, starts_eq_cons, ascending, htail]
      simp

/-- Pointers to where lists start cut these lists out of what they are joined to. -/
theorem slices_starts (before : List (Term K)) (els : List (List (Term K))) :
    slices (before ++ els.flatten) (starts before.length (els.map List.length)) = els := by
  induction els generalizing before with
  | nil => rfl
  | cons ts els ih =>
      -- The list that has been cut out joins what stands before the rest.
      have htail := ih (before ++ ts)
      rw [List.length_append, List.append_assoc, starts_eq_cons] at htail
      rw [List.map_cons, starts, starts_eq_cons, slices_cons_cons, List.flatten_cons, htail]
      simp

theorem terms_ofElements (s : Shape) (els : List (List (Term K))) :
    (ofElements s els).terms = els.flatten :=
  (List.zip_of_prod rfl rfl).symm

@[simp] theorem elements_ofElements (s : Shape) (els : List (List (Term K))) :
    (ofElements s els).elements = els := by
  rw [elements_eq_slices, terms_ofElements]
  exact slices_starts [] els

@[simp] theorem shape_ofElements (s : Shape) (els : List (List (Term K))) :
    (ofElements s els).shape = s := rfl

/-- The stored form is meaningful: pointers ascend from the first term to behind the last one, and
there is one element for each position of the shape. -/
structure WellFormed (e : Affine K) : Prop where
  ascending : ascending e.ptr = true
  first : e.ptr.head? = some 0
  last : e.ptr.getLast? = some e.subj.length
  cof_length : e.cof.length = e.subj.length
  ptr_length : e.ptr.length = e.shape.rows * e.shape.cols + 1

/-- What the check of a stored form establishes. -/
theorem ofStored_eq_ok_iff {s : Shape} {ptr subj : List Nat} {cof : List K} {e : Affine K} :
    ofStored s ptr subj cof = .ok e ↔
      e = ⟨s, ptr, subj, cof⟩ ∧ Affine.ascending ptr = true ∧ ptr.getLast? = some subj.length ∧
        cof.length = subj.length ∧ ptr.length = s.rows * s.cols + 1 := by
  have hpos : ∀ last, ptr.getLast? = some last → 0 < ptr.length := by
    intro last hlast
    exact List.length_pos_of_mem (List.mem_of_getLast? hlast)
  unfold ofStored
  split
  · rename_i hnone
    simp [hnone]
  · rename_i last hlast
    specialize hpos last hlast
    simp only [hlast, Option.some.injEq]
    -- each check that fails contradicts one part of the condition
    split_ifs with hascending hlength hcount
    · simp [show Affine.ascending ptr = false by simpa using hascending]
    · simp only [false_iff, not_and]
      omega
    · simp only [false_iff, not_and]
      omega
    · simp only [Except.ok.injEq, eq_comm (a := e), iff_self_and]
      exact fun _ => ⟨by simpa using hascending, by omega, by omega, by omega⟩

/-- A stored form that passes the check of its constructor and starts at the first term. -/
theorem wellFormed_of_ofStored {s : Shape} {ptr subj : List Nat} {cof : List K} {e : Affine K}
    (h : ofStored s ptr subj cof = .ok e) (hfirst : e.ptr.head? = some 0) : e.WellFormed := by
  obtain ⟨rfl, hascending, hlast, hcof, hptr⟩ := ofStored_eq_ok_iff.mp h
  exact ⟨hascending, hfirst, hlast, hcof, hptr⟩

/-- The constructor accepts the stored form, and the pointers start at the first term. -/
def Accepted (e : Affine K) : Prop :=
  ofStored e.shape e.ptr e.subj e.cof = .ok e ∧ e.ptr.head? = some 0

theorem accepted_iff {e : Affine K} : e.Accepted ↔ e.WellFormed :=
  ⟨fun h => wellFormed_of_ofStored h.1 h.2, fun h =>
    ⟨ofStored_eq_ok_iff.mpr ⟨rfl, h.ascending, h.last, h.cof_length, h.ptr_length⟩, h.first⟩⟩

theorem wellFormed_ofElements {s : Shape} {els : List (List (Term K))}
    (h : els.length = s.rows * s.cols) : (ofElements s els).WellFormed where
  ascending := ascending_starts _ _
  first := by rw [ofElements, starts_eq_cons]; rfl
  last := by simp [ofElements, getLast?_starts, List.length_flatten, Function.comp_def]
  cof_length := by simp only [ofElements, List.length_map]
  ptr_length := by simp [ofElements, h]

theorem pairwise_of_ascending {ns : List Nat} (h : Affine.ascending ns = true) :
    ns.Pairwise (· ≤ ·) := by
  have hchain : ns.IsChain (· ≤ ·) := by
    induction ns using Affine.ascending.induct with
    | case1 => exact .nil
    | case2 a => exact .singleton a
    | case3 a b rest ih =>
        simp only [Affine.ascending, Bool.and_eq_true, decide_eq_true_eq] at h
        exact .cons_cons h.1 (ih h.2)
  exact hchain.pairwise

/-- Ascending pointers that end behind the last term lose no term, and they are where the elements
that they cut out start. -/
theorem starts_slices {ts : List (Term K)} {p : Nat} {ptr : List Nat}
    (hascending : Affine.ascending (p :: ptr) = true)
    (hlast : (p :: ptr).getLast? = some ts.length) :
    starts p ((slices ts (p :: ptr)).map List.length) = p :: ptr ∧
      (slices ts (p :: ptr)).flatten = ts.drop p := by
  induction ptr generalizing p with
  | nil =>
      obtain rfl : p = ts.length := by simpa using hlast
      simp [starts]
  | cons q ptr ih =>
      simp only [Affine.ascending, Bool.and_eq_true, decide_eq_true_eq] at hascending
      obtain ⟨hpq, hrest⟩ := hascending
      -- The next pointer may not lie behind the last term, or the cut would be too short.
      have hlast' : (q :: ptr).getLast? = some ts.length := by simpa using hlast
      obtain ⟨hstarts, hflatten⟩ := ih hrest hlast'
      have hq : q ≤ ts.length :=
        le_getLast_of_pairwise (pairwise_of_ascending hrest) hlast' q List.mem_cons_self
      have hlen : ((ts.drop p).take (q - p)).length = q - p := by
        simp only [List.length_take, List.length_drop]
        omega
      have hdrop : ts.drop q = (ts.drop p).drop (q - p) := by
        rw [List.drop_drop, Nat.add_sub_of_le hpq]
      constructor
      · rw [slices_cons_cons, List.map_cons, starts, hlen, Nat.add_sub_of_le hpq, hstarts]
      · rw [slices_cons_cons, List.flatten_cons, hflatten, hdrop, List.take_append_drop]

namespace WellFormed

variable {e : Affine K}

theorem ofElements_elements (h : e.WellFormed) : ofElements e.shape e.elements = e := by
  obtain ⟨s, ptr, subj, cof⟩ := e
  obtain ⟨hascending, hfirst, hlast, hcof, hptr⟩ := h
  simp only at hascending hfirst hlast hcof
  cases ptr with
  | nil => simp at hfirst
  | cons p ptr =>
      obtain rfl : p = 0 := by simpa using hfirst
      have hlen : (subj.zip cof).length = subj.length := by simp [hcof]
      obtain ⟨hstarts, hflatten⟩ :=
        @starts_slices _ (subj.zip cof) _ _ hascending (by rw [hlen]; exact hlast)
      rw [List.drop_zero] at hflatten
      rw [elements_eq_slices, terms, ofElements, hstarts, hflatten, List.map_fst_zip (by omega),
        List.map_snd_zip (by omega)]

/-- There is one element for each position of the shape. -/
theorem length_elements (h : e.WellFormed) : e.elements.length = e.shape.rows * e.shape.cols := by
  rw [length_elements_eq_count, count, h.ptr_length, Nat.add_sub_cancel]

theorem count_eq (h : e.WellFormed) : e.count = e.shape.rows * e.shape.cols := by
  simp [count, h.ptr_length]

theorem subj_eq (h : e.WellFormed) : e.subj = e.elements.flatten.map (·.1) := by
  -- Only the left side is stored again: the right side is about the view already.
  conv_lhs => rw [← h.ofElements_elements]
  rfl

end WellFormed

/-! ## Constant expressions -/

/-- No term of the list has a variable. -/
def ConstantTerms (ts : List (Term K)) : Prop :=
  ∀ t ∈ ts, t.1 = constantTerm

theorem isConstant_ofElements_iff {s : Shape} {els : List (List (Term K))} :
    (ofElements s els).isConstant = true ↔ ∀ ts ∈ els, ConstantTerms ts := by
  simp only [isConstant, ofElements, List.all_eq_true, List.mem_map, List.mem_flatten, beq_iff_eq,
    ConstantTerms]
  constructor
  · rintro h ts hts t ht
    exact h t.1 ⟨t, ⟨ts, hts, ht⟩, rfl⟩
  · rintro h _ ⟨t, ⟨ts, hts, ht⟩, rfl⟩
    exact h ts hts t ht

theorem WellFormed.isConstant_iff {e : Affine K} (h : e.WellFormed) :
    e.isConstant = true ↔ ∀ ts ∈ e.elements, ConstantTerms ts := by
  conv_lhs => rw [← h.ofElements_elements]
  exact isConstant_ofElements_iff

/-! ## Expressions that are not computed from others -/

theorem starts_replicate_one (p n : Nat) :
    starts p (List.replicate n 1) = List.range' p (n + 1) := by
  induction n generalizing p with
  | zero => rfl
  | succ n ih => rw [List.replicate_succ, starts, ih, List.range'_succ (n := n + 1)]

/-- One term in each element. -/
theorem ofElements_singletons (s : Shape) (ts : List (Term K)) :
    ofElements s (ts.map fun t => [t]) =
      ⟨s, List.range (ts.length + 1), ts.map (·.1), ts.map (·.2)⟩ := by
  have hlengths : (ts.map fun t => [t]).map List.length = List.replicate ts.length 1 := by
    simp [List.map_map, Function.comp_def, List.map_const']
  have hflatten : (ts.map fun t => [t]).flatten = ts := by
    rw [← List.flatMap_def, List.flatMap_singleton']
  simp only [ofElements, hlengths, hflatten, starts_replicate_one, List.range_eq_range']

theorem ofVariables_ok [Scalar K] {s : Shape} {columns : List Nat} {e : Affine K}
    (h : ofVariables s columns = .ok e) :
    e = ofElements s (columns.map fun j => [(j, 1)]) ∧ columns.length = s.rows * s.cols ∧
      constantTerm ∉ columns := by
  unfold ofVariables at h
  split at h
  · cases h
  split at h
  · cases h
  rename_i hlen hzero
  cases h
  refine ⟨?_, by omega, by simpa using hzero⟩
  have hsingle := ofElements_singletons s (columns.map fun j => ((j, 1) : Term K))
  rw [List.map_map] at hsingle
  simpa [Function.comp_def, List.map_const'] using hsingle.symm

theorem ofMatrix_eq [Scalar K] (a : Matrix K) :
    ofMatrix a = ofElements a.shape (a.elements.toList.map fun v => [(constantTerm, v)]) := by
  have hsingle := ofElements_singletons a.shape
    (a.elements.toList.map fun v => ((constantTerm, v) : Term K))
  rw [List.map_map] at hsingle
  simpa [ofMatrix, Function.comp_def, List.map_const'] using hsingle.symm

theorem scalar_eq (v : K) : scalar v = ofElements .scalar [[(constantTerm, v)]] := rfl

/-! ## The matrix of a constant expression -/

/-- A constant expression has a matrix if it has an element for each position: the elements of the
matrix are the sums of the coefficients. -/
theorem constantValue?_of_count [Scalar K] {e : Affine K}
    (hcount : e.count = e.shape.rows * e.shape.cols) (hconst : e.isConstant = true) :
    e.constantValue? =
      some (Tensor.dense e.shape (e.elements.map fun ts => Scalar.sum (ts.map (·.2)))) := by
  have hlen : e.elements.length = e.shape.rows * e.shape.cols :=
    e.length_elements_eq_count.trans hcount
  have htake : (e.elements.map fun ts => Scalar.sum (ts.map (·.2))).take
      (e.shape.rows * e.shape.cols) = e.elements.map fun ts => Scalar.sum (ts.map (·.2)) :=
    List.take_of_length_le (by simp [hlen])
  simp [htake, constantValue?, hconst, Tensor.ofPrefix, Tensor.ofStored, Tensor.check, hlen, Tensor.dense,
    Except.toOption, bind, Except.bind, pure, Except.pure]

theorem WellFormed.constantValue?_eq [Scalar K] {e : Affine K} (h : e.WellFormed)
    (hconst : e.isConstant = true) :
    e.constantValue? =
      some (Tensor.dense e.shape (e.elements.map fun ts => Scalar.sum (ts.map (·.2)))) :=
  constantValue?_of_count h.count_eq hconst

end CoupledModels.Affine
