import CoupledModels.Arrays.Matrix
import Mathlib.Data.List.Basic
import Mathlib.Data.List.Pairwise
import Mathlib.Tactic.SplitIfs

/-!
# Elements of arrays

What the element list of an array says about the array.  A table of values lists them row by row, so
the value in row `i` and column `j` stands at `i * cols + j`.  An array whose stored form passes its
own check has one element for each position of its shape, and reading a single element agrees with
reading it off the list of all of them.
-/

namespace CoupledModels

@[simp] theorem Extent.size_shape (s : Shape) : Extent.size s = s.rows * s.cols := by
  simp [Extent.size, Extent.dims]

/-! ## Tables of values -/

section Tabulate

variable {α β : Type}

@[simp] theorem length_tabulate (s : Shape) (f : Nat → Nat → α) :
    (tabulate s f).length = s.rows * s.cols := by
  simp [tabulate, List.length_flatMap]

/-- One more row goes to the end of the table. -/
theorem tabulate_succ_rows (m n : Nat) (f : Nat → Nat → α) :
    tabulate ⟨m + 1, n⟩ f = tabulate ⟨m, n⟩ f ++ (List.range n).map (f m) := by
  simp [tabulate, List.range_succ]

/-- A row and a column lead to a position of the table. -/
theorem cell_lt {s : Shape} {i j : Nat} (hi : i < s.rows) (hj : j < s.cols) :
    i * s.cols + j < s.rows * s.cols := by
  calc i * s.cols + j < i * s.cols + s.cols := by omega
    _ = (i + 1) * s.cols := by rw [Nat.succ_mul]
    _ ≤ s.rows * s.cols := Nat.mul_le_mul_right _ hi

theorem getElem?_tabulate {s : Shape} (f : Nat → Nat → α) {i j : Nat} (hi : i < s.rows)
    (hj : j < s.cols) : (tabulate s f)[i * s.cols + j]? = some (f i j) := by
  obtain ⟨m, n⟩ := s
  simp only at hi hj ⊢
  induction m with
  | zero => omega
  | succ m ih =>
      rw [tabulate_succ_rows]
      have hlen : (tabulate ⟨m, n⟩ f).length = m * n := length_tabulate _ f
      rcases Nat.lt_succ_iff_lt_or_eq.mp hi with hlt | rfl
      · have hpos : i * n + j < m * n := cell_lt (s := ⟨m, n⟩) hlt hj
        rw [List.getElem?_append_left (by omega)]
        exact ih hlt
      · rw [List.getElem?_append_right (by omega), hlen, Nat.add_sub_cancel_left]
        simp [hj]

theorem mem_tabulate {s : Shape} {f : Nat → Nat → α} {v : α} :
    v ∈ tabulate s f ↔ ∃ i < s.rows, ∃ j < s.cols, f i j = v := by
  simp [tabulate]

theorem map_tabulate (s : Shape) (f : Nat → Nat → α) (g : α → β) :
    (tabulate s f).map g = tabulate s fun i j => g (f i j) := by
  simp [tabulate, List.map_flatMap, Function.comp_def]

/-- A position of a table is that of some row and some column. -/
theorem exists_cell {s : Shape} {k : Nat} (hk : k < s.rows * s.cols) :
    ∃ i j, i < s.rows ∧ j < s.cols ∧ k = i * s.cols + j := by
  have hcols : 0 < s.cols := Nat.pos_of_mul_pos_left (Nat.zero_lt_of_lt hk)
  refine ⟨k / s.cols, k % s.cols, Nat.div_lt_of_lt_mul ?_, Nat.mod_lt _ hcols, ?_⟩
  · rwa [Nat.mul_comm]
  · rw [Nat.mul_comm, Nat.div_add_mod]

/-- A list as long as the table is the table of its own elements. -/
theorem eq_tabulate {s : Shape} {xs : List α} {f : Nat → Nat → α}
    (hlen : xs.length = s.rows * s.cols)
    (h : ∀ i < s.rows, ∀ j < s.cols, xs[i * s.cols + j]? = some (f i j)) : xs = tabulate s f := by
  apply List.ext_getElem?
  intro k
  by_cases hk : k < s.rows * s.cols
  · obtain ⟨i, j, hi, hj, rfl⟩ := exists_cell hk
    rw [h i hi j hj, getElem?_tabulate f hi hj]
  · rw [List.getElem?_eq_none (by omega), List.getElem?_eq_none (by simp; omega)]

end Tabulate

/-! ## Stored arrays -/

namespace Tensor

variable {S K : Type} [Extent S]

/-- The stored form of the array passes the check that every constructor makes. -/
def Valid (t : Tensor S K) : Prop :=
  check t.shape t.pattern t.data.length = .ok ()

theorem valid_dense_iff {s : S} {data : List K} :
    (dense s data).Valid ↔ data.length = Extent.size s := by
  unfold Valid check dense
  simp only
  split
  · simp only [reduceCtorEq, false_iff]
    omega
  · simp only [true_iff]
    omega

theorem ofStored_ok {s : S} {pattern : Option (List Nat)} {data : List K} {t : Tensor S K}
    (h : ofStored s pattern data = .ok t) : t = ⟨s, pattern, data⟩ ∧ t.Valid := by
  unfold ofStored at h
  cases hc : check s pattern data.length with
  | error e => simp [hc, bind, Except.bind] at h
  | ok u =>
      simp only [hc, bind, Except.bind, pure, Except.pure, Except.ok.injEq] at h
      subst h
      exact ⟨rfl, hc⟩

end Tensor

/-- Every position is smaller than all positions after it. -/
theorem pairwise_of_strictlyAscending {ps : List Nat} (h : strictlyAscending ps = true) :
    ps.Pairwise (· < ·) := by
  have hchain : ps.IsChain (· < ·) := by
    induction ps using strictlyAscending.induct with
    | case1 => exact .nil
    | case2 a => exact .singleton a
    | case3 a b rest ih =>
        simp only [strictlyAscending, Bool.and_eq_true, decide_eq_true_eq] at h
        exact .cons_cons h.1 (ih h.2)
  exact hchain.pairwise

/-- The last of ascending numbers is the largest. -/
theorem le_getLast_of_pairwise {ns : List Nat} {last : Nat} (h : ns.Pairwise (· ≤ ·))
    (hlast : ns.getLast? = some last) : ∀ n ∈ ns, n ≤ last := by
  obtain ⟨front, rfl⟩ := List.getLast?_eq_some_iff.mp hlast
  intro n hn
  rcases List.mem_append.mp hn with hn | hn
  · exact (List.pairwise_append.mp h).2.2 n hn last (List.mem_singleton_self last)
  · exact Nat.le_of_eq (List.mem_singleton.mp hn)

namespace Tensor

variable {S K : Type} [Extent S]

/-- What the check of a sparse array establishes. -/
theorem Valid.sparse {s : S} {ps : List Nat} {data : List K}
    (h : (⟨s, some ps, data⟩ : Tensor S K).Valid) :
    ps.Pairwise (· < ·) ∧ ps.length = data.length ∧ ∀ p ∈ ps, p < Extent.size s := by
  unfold Valid check at h
  simp only at h
  split at h
  · cases h
  split at h
  · cases h
  split at h
  · cases h
  rename_i hsorted hlen hrange
  have hascending : strictlyAscending ps = true := by simpa using hsorted
  have hpairwise := pairwise_of_strictlyAscending hascending
  refine ⟨hpairwise, by omega, fun p hp => ?_⟩
  have hlast := List.getLast?_eq_some_getLast (List.ne_nil_of_mem hp)
  -- only the last position is compared with the size, and it is the greatest
  have hbound : ps.getLast (List.ne_nil_of_mem hp) < Extent.size s := by simpa [hlast] using hrange
  exact Nat.lt_of_le_of_lt
    (le_getLast_of_pairwise (hpairwise.imp Nat.le_of_lt) hlast p hp) hbound

variable [Scalar K]

/-- Storing values one after the other keeps the size of an array. -/
theorem size_foldl_set {α β : Type} (f : Nat × β → α) (es : List (Nat × β)) (a : Array α) :
    (es.foldl (fun a e => a.setIfInBounds e.1 (f e)) a).size = a.size := by
  induction es generalizing a with
  | nil => rfl
  | cons e es ih => simp [ih]

/-- There is one element for each position of the shape. -/
theorem Valid.size_elements {t : Tensor S K} (h : t.Valid) :
    t.elements.size = Extent.size t.shape := by
  obtain ⟨s, pattern, data⟩ := t
  cases pattern with
  | none => simpa [elements] using valid_dense_iff.mp h
  | some ps => simp [elements, size_foldl_set, Tensor.size]

@[simp] theorem elements_dense (s : S) (data : List K) :
    (dense s data).elements = data.toArray := rfl

/-- Storing coefficients at distinct positions: each position reads the coefficient given for it, and
what it held before if there is none. -/
theorem getD_foldl_set {ps : List Nat} {data : List K} {a : Array K} (hnodup : ps.Nodup)
    (hlen : ps.length = data.length) (hrange : ∀ p ∈ ps, p < a.size) (p : Nat) :
    ((ps.zip data).foldl (fun a e => a.setIfInBounds e.1 e.2) a).getD p 0 =
      match ps.idxOf? p with
      | some q => data.getD q 0
      | none => a.getD p 0 := by
  induction ps generalizing data a with
  | nil => simp
  | cons b ps ih =>
      cases data with
      | nil => simp at hlen
      | cons v data =>
          rw [List.nodup_cons] at hnodup
          have hb : b < a.size := hrange b List.mem_cons_self
          have hstep := @ih data (a.setIfInBounds b v) hnodup.2 (by simpa using hlen)
            (fun p hp => by simpa using hrange p (List.mem_cons_of_mem _ hp))
          rw [List.zip_cons_cons, List.foldl_cons, hstep, List.idxOf?_cons]
          -- the first position is not stored to again, as it does not occur among the others
          by_cases hbp : b = p
          · subst hbp
            have hnone : ps.idxOf? b = none := by simpa using hnodup.1
            simp [hnone, hb]
          · cases hidx : ps.idxOf? p with
            | none => simp [hbp, Array.getElem?_setIfInBounds_ne hbp]
            | some q => simp [hbp]

end Tensor

namespace Matrix

variable {K : Type} [Scalar K]

/-- The element in a row and a column, read off the list of all elements. -/
theorem get_eq_elements {a : Matrix K} (h : a.Valid) (i j : Nat) :
    a.get i j = a.elements.getD (i * a.shape.cols + j) 0 := by
  obtain ⟨s, pattern, data⟩ := a
  cases pattern with
  | none => simp [get, Tensor.elements]
  | some ps =>
      obtain ⟨hascending, hlen, hrange⟩ := Tensor.Valid.sparse h
      have hnodup : ps.Nodup := hascending.imp Nat.ne_of_lt
      rw [Tensor.elements, Tensor.getD_foldl_set hnodup hlen (by simpa [Tensor.size] using hrange)]
      simp only [get]
      cases hidx : ps.idxOf? (i * s.cols + j) with
      | none =>
          simp only [Array.getD_eq_getD_getElem?, Array.getElem?_replicate]
          split_ifs <;> rfl
      | some q => rfl

omit [Scalar K] in
theorem valid_ofFn (s : Shape) (f : Nat → Nat → K) : (ofFn s f).Valid :=
  Tensor.valid_dense_iff.mpr (by simp)

omit [Scalar K] in
@[simp] theorem shape_ofFn (s : Shape) (f : Nat → Nat → K) : (ofFn s f).shape = s := rfl

theorem get_ofFn {s : Shape} (f : Nat → Nat → K) {i j : Nat} (hi : i < s.rows) (hj : j < s.cols) :
    (ofFn s f).get i j = f i j := by
  simp [ofFn, get, Tensor.dense, getElem?_tabulate f hi hj]

end Matrix

end CoupledModels
