import CoupledModels.Arrays.Overflow
import CoupledModels.Proofs.Arrays.Alike
import CoupledModels.Proofs.Arrays.Sparse
import CoupledModels.Proofs.Outcome
import Mathlib.Data.List.Infix

/-!
# Which arrays overflow

What the functions on words compute is known under two conditions: a program with overflow checks
ends or gives what it would give with unbounded numbers, and any program gives that if the numbers
fit.  `Computes` states both and is closed under the steps of a computation, so that there is one
lemma for each operation.  Sizes multiply up from the outermost dimension, strides from the
innermost one; where no dimension is empty, both fit if and only if the number of elements does.
-/

namespace CoupledModels

/-! ## Computations on words -/

/-- The result is the given one if the numbers fit; with overflow checks there is no other one. -/
structure Computes {α : Type} (o : Overflow) (fits : Prop) (x : Option α) (a : α) : Prop where
  of_fits : fits → x = some a
  of_ends : o = .ends → ∀ b, x = some b → b = a

namespace Computes

variable {α β : Type} {o : Overflow} {P Q : Prop} {x : Option α} {a : α}

theorem some (a : α) : Computes o P (some a) a :=
  ⟨fun _ => rfl, fun _ _ h => (Option.some.inj h).symm⟩

theorem eq (h : Computes .ends P x a) {b : α} (hb : x = Option.some b) : b = a :=
  h.of_ends rfl b hb

theorem mono (h : Computes o P x a) (hQ : Q → P) : Computes o Q x a :=
  ⟨fun hq => h.of_fits (hQ hq), h.of_ends⟩

theorem map (h : Computes o P x a) (f : α → β) : Computes o P (x.map f) (f a) := by
  refine ⟨fun hP => by rw [h.of_fits hP, Option.map_some], fun ho b hb => ?_⟩
  obtain ⟨a', ha', rfl⟩ := Option.map_eq_some_iff.mp hb
  rw [h.of_ends ho a' ha']

theorem bind {f : α → Option β} {b : β} (h : Computes o P x a) (hf : Computes o P (f a) b) :
    Computes o P (x >>= f) b := by
  refine ⟨fun hP => by rw [h.of_fits hP]; exact hf.of_fits hP, fun ho c hc => ?_⟩
  obtain ⟨a', ha', hc⟩ := Option.bind_eq_some_iff.mp hc
  exact hf.of_ends ho c (h.of_ends ho a' ha' ▸ hc)

theorem mapM {f : α → Option β} {g : α → β} {xs : List α}
    (h : ∀ a ∈ xs, Computes o P (f a) (g a)) : Computes o P (xs.mapM f) (xs.map g) := by
  induction xs with
  | nil => exact .some []
  | cons a xs ih =>
      rw [List.mapM_cons, List.map_cons]
      have hrest := ih fun b hb => h b (List.mem_cons_of_mem _ hb)
      exact (h a List.mem_cons_self).bind (hrest.bind (.some _))

end Computes

namespace Word

theorem size_eq : UInt64.size = 2 ^ 64 := rfl

theorem ofNat?_of_lt (o : Overflow) {n : Nat} (h : n < 2 ^ 64) : ofNat? o n = some n :=
  if_pos (size_eq ▸ h)

theorem ofNat?_ends_of_le {n : Nat} (h : 2 ^ 64 ≤ n) : ofNat? .ends n = none :=
  if_neg (Nat.not_lt.mpr (size_eq ▸ h))

theorem computes_ofNat (o : Overflow) (n : Nat) : Computes o (n < 2 ^ 64) (ofNat? o n) n := by
  refine ⟨ofNat?_of_lt o, ?_⟩
  rintro rfl m hm
  by_cases h : n < 2 ^ 64
  · rw [ofNat?_of_lt _ h] at hm
    exact (Option.some.inj hm).symm
  · rw [ofNat?_ends_of_le (Nat.not_lt.mp h)] at hm
    cases hm

theorem computes_add (o : Overflow) (a b : Nat) :
    Computes o (a + b < 2 ^ 64) (add? o a b) (a + b) :=
  computes_ofNat o (a + b)

theorem computes_mul (o : Overflow) (a b : Nat) :
    Computes o (a * b < 2 ^ 64) (mul? o a b) (a * b) :=
  computes_ofNat o (a * b)

theorem lt_of_mul? {a b n : Nat} (h : mul? .ends a b = some n) : a * b < 2 ^ 64 := by
  by_contra hle
  rw [mul?, ofNat?_ends_of_le (Nat.not_lt.mp hle)] at h
  cases h

/-- Multiplying up a list computes its product if no product on the way is too large. -/
theorem computes_product (o : Overflow) (ds : List Nat) (c : Nat) :
    Computes o (∀ p ∈ ds.inits, c * p.prod < 2 ^ 64) (ds.foldlM (mul? o) c) (c * ds.prod) := by
  induction ds generalizing c with
  | nil =>
      rw [List.prod_nil, Nat.mul_one]
      exact .some c
  | cons d ds ih =>
      rw [List.foldlM_cons, List.prod_cons, ← Nat.mul_assoc]
      refine ((computes_mul o c d).mono fun h => ?_).bind ((ih (c * d)).mono fun h p hp => ?_)
      · simpa using h [d] (by simp)
      · simpa [Nat.mul_assoc] using h (d :: p) (by simpa using hp)

/-- With overflow checks, one product that is too large ends the program. -/
theorem foldlM_mul_ends {ds : List Nat} {c : Nat} (hc : c < 2 ^ 64)
    (h : ¬ ∀ p ∈ ds.inits, c * p.prod < 2 ^ 64) : ds.foldlM (mul? .ends) c = none := by
  induction ds generalizing c with
  | nil => exact absurd (by simpa using hc) h
  | cons d ds ih =>
      rw [List.foldlM_cons]
      by_cases hd : c * d < 2 ^ 64
      · rw [mul?, ofNat?_of_lt .ends hd]
        refine ih hd fun hfits => h fun p hp => ?_
        rw [List.inits_cons, List.mem_cons, List.mem_map] at hp
        rcases hp with rfl | ⟨q, hq, rfl⟩
        · rwa [List.prod_nil, Nat.mul_one]
        · rw [List.prod_cons, ← Nat.mul_assoc]
          exact hfits q hq
      · rw [mul?, ofNat?_ends_of_le (Nat.not_lt.mp hd)]
        rfl

end Word

/-! ## Sizes -/

namespace Extent

variable {S : Type} [Extent S] {s : S}

/-- Multiplying up the sizes from the outermost one, every product on the way is a word. -/
def LeadingFit (s : S) : Prop :=
  ∀ ds ∈ (dims s).inits, ds.prod < 2 ^ 64

/-- Multiplying up the sizes from the innermost one, every product on the way is a word. -/
def TrailingFit (s : S) : Prop :=
  ∀ ds ∈ (dims s).tails, ds.prod < 2 ^ 64

instance : Decidable (LeadingFit s) := inferInstanceAs (Decidable (∀ ds ∈ (dims s).inits, _))

instance : Decidable (TrailingFit s) := inferInstanceAs (Decidable (∀ ds ∈ (dims s).tails, _))

theorem size_eq_prod (s : S) : size s = (dims s).prod := by
  rw [size, ← List.prod_eq_foldl]

theorem computes_size (o : Overflow) (s : S) : Computes o (LeadingFit s) (size? o s) (size s) := by
  have hproduct := Word.computes_product o (dims s) 1
  rw [Nat.one_mul, ← size_eq_prod] at hproduct
  exact hproduct.mono fun h p hp => by simpa using h p hp

theorem size?_eq_none (h : ¬ LeadingFit s) : size? .ends s = none := by
  refine Word.foldlM_mul_ends (by decide) fun hfits => h fun p hp => ?_
  simpa using hfits p hp

theorem size_lt_of_fit (h : LeadingFit s) : size s < 2 ^ 64 := by
  rw [size_eq_prod]
  exact h _ (by simp)

theorem leadingFit_of_size? {n : Nat} (h : size? .ends s = some n) : LeadingFit s := by
  by_contra hfit
  rw [size?_eq_none hfit] at h
  cases h

/-- A part of a list of positive sizes has no larger product than the whole. -/
theorem prod_le_of_sublist {ds es : List Nat} (h : ds.Sublist es) (hpos : ∀ d ∈ es, 0 < d) :
    ds.prod ≤ es.prod := by
  induction h with
  | slnil => exact Nat.le_refl _
  | cons e _ ih =>
      rw [List.prod_cons]
      have hle := ih fun d hd => hpos d (List.mem_cons_of_mem _ hd)
      exact hle.trans (Nat.le_mul_of_pos_left _ (hpos e List.mem_cons_self))
  | cons_cons e _ ih =>
      rw [List.prod_cons, List.prod_cons]
      exact Nat.mul_le_mul_left _ (ih fun d hd => hpos d (List.mem_cons_of_mem _ hd))

/-- Without empty dimensions nothing but the number of elements has to fit. -/
theorem leadingFit_iff (hpos : ∀ d ∈ dims s, 0 < d) : LeadingFit s ↔ size s < 2 ^ 64 := by
  rw [size_eq_prod]
  refine ⟨fun h => h _ (by simp), fun h ds hds => Nat.lt_of_le_of_lt ?_ h⟩
  exact prod_le_of_sublist ((List.mem_inits _ _).mp hds).sublist hpos

theorem trailingFit_iff (hpos : ∀ d ∈ dims s, 0 < d) : TrailingFit s ↔ size s < 2 ^ 64 := by
  rw [size_eq_prod]
  refine ⟨fun h => h _ (by simp), fun h ds hds => Nat.lt_of_le_of_lt ?_ h⟩
  exact prod_le_of_sublist ((List.mem_tails _ _).mp hds).sublist hpos

end Extent

namespace Tensor

/-! ## Strides and positions -/

/-- The distance of neighbours in each dimension: the product of the sizes further in. -/
def strides : List Nat → List Nat
  | [] => []
  | _ :: ds => ds.prod :: strides ds

theorem computes_strides (o : Overflow) (ds : List Nat) :
    Computes o (∀ p ∈ ds.tails, p.prod < 2 ^ 64) (strides? o ds) (strides ds, ds.prod) := by
  induction ds with
  | nil => exact .some _
  | cons d ds ih =>
      rw [strides?, List.prod_cons, Nat.mul_comm]
      have hrest := ih.mono (Q := ∀ p ∈ (d :: ds).tails, p.prod < 2 ^ 64) fun h p hp =>
        h p (List.tails_cons d ds ▸ List.mem_cons_of_mem _ hp)
      refine hrest.bind (((Word.computes_mul o ds.prod d).mono fun h => ?_).bind (.some _))
      simpa [Nat.mul_comm] using h (d :: ds) (by simp)

theorem strides?_eq_none {ds : List Nat} (h : ¬ ∀ p ∈ ds.tails, p.prod < 2 ^ 64) :
    strides? .ends ds = none := by
  induction ds with
  | nil => exact absurd (by simp) h
  | cons d ds ih =>
      rw [strides?]
      by_cases hfits : ∀ p ∈ ds.tails, p.prod < 2 ^ 64
      · -- Everything further in fits, so it is the product of all sizes that does not.
        have hle : 2 ^ 64 ≤ ds.prod * d := by
          by_contra hlt
          refine h fun p hp => ?_
          rw [List.tails_cons, List.mem_cons] at hp
          rcases hp with rfl | hp
          · rw [List.prod_cons, Nat.mul_comm]
            exact Nat.lt_of_not_le hlt
          · exact hfits p hp
        simp [(computes_strides .ends ds).of_fits hfits, Word.mul?, Word.ofNat?_ends_of_le hle]
      · rw [ih hfits]
        rfl

/-- The sum over the dimensions is the position. -/
theorem computes_sum (o : Overflow) (dims index : List Nat) (n : Nat) :
    Computes o (n + position dims index < 2 ^ 64)
      ((index.zip (strides dims)).foldlM
        (fun p (i, stride) => do Word.add? o p (← Word.mul? o i stride)) n)
      (n + position dims index) := by
  induction dims generalizing index n with
  | nil => simpa [strides, position] using .some n
  | cons d ds ih =>
      cases index with
      | nil => simpa [position] using .some n
      | cons i is =>
          rw [position_cons, ← Nat.add_assoc, strides, List.zip_cons_cons, List.foldlM_cons]
          have hmul := (Word.computes_mul o i ds.prod).mono
            (Q := n + i * ds.prod + position ds is < 2 ^ 64) fun h => by omega
          have hadd := (Word.computes_add o n (i * ds.prod)).mono
            (Q := n + i * ds.prod + position ds is < 2 ^ 64) fun h => by omega
          exact (hmul.bind hadd).bind (ih is _)

theorem computes_position (o : Overflow) (dims index : List Nat) :
    Computes o (position dims index < 2 ^ 64) (position? o (strides dims) index)
      (position dims index) := by
  have hsum := computes_sum o dims index 0
  rwa [Nat.zero_add] at hsum

/-! ## Constructors -/

section Constructors

variable {S T K : Type} [Extent S] [Extent T] (o : Overflow)

theorem computes_check (s : S) (pattern : Option (List Nat)) (count : Nat) :
    Computes o (Extent.LeadingFit s) (check? o s pattern count) (check s pattern count) := by
  unfold check? check
  cases pattern with
  | none => exact (Extent.computes_size o s).map _
  | some ps =>
      dsimp only
      by_cases hsorted : strictlyAscending ps = true
      · by_cases hlength : ps.length = count
        · simp only [hsorted, hlength, Bool.not_true, ne_eq, not_true_eq_false, if_false]
          cases ps.getLast? with
          | none => exact .some _
          | some p =>
              simp only [Option.map_some, Option.getD_some, decide_eq_true_eq]
              exact (Extent.computes_size o s).map _
        · simpa [hsorted, hlength] using .some _
      · simpa [hsorted] using .some _

theorem ofStored_eq_map (s : S) (pattern : Option (List Nat)) (data : List K) :
    ofStored s pattern data =
      (check s pattern data.length).map fun _ => (⟨s, pattern, data⟩ : Tensor S K) := by
  unfold ofStored
  cases check s pattern data.length <;> rfl

theorem ofStored_of_valid {t : Tensor S K} (h : t.Valid) :
    ofStored t.shape t.pattern t.data = .ok t := by
  rw [ofStored_eq_map, show check t.shape t.pattern t.data.length = .ok () from h]
  rfl

theorem computes_ofStored (s : S) (pattern : Option (List Nat)) (data : List K) :
    Computes o (Extent.LeadingFit s) (ofStored? o s pattern data) (ofStored s pattern data) := by
  rw [ofStored_eq_map]
  exact (computes_check o s pattern data.length).map _

theorem computes_ofPrefix (s : S) (xs : List K) :
    Computes o (Extent.LeadingFit s) (ofPrefix? o s xs) (ofPrefix s xs) := by
  refine (Extent.computes_size o s).bind ?_
  unfold ofPrefix
  dsimp only
  split
  · exact .some _
  · exact computes_ofStored o s none _

theorem computes_reshape (t : Tensor S K) (s : T) :
    Computes o (Extent.LeadingFit s ∧ Extent.LeadingFit t.shape) (t.reshape? o s) (t.reshape s) :=
  ((Extent.computes_size o s).mono And.left).bind
    (((Extent.computes_size o t.shape).mono And.right).bind (.some _))

variable [Scalar K]

theorem computes_ones (s : S) :
    Computes o (Extent.LeadingFit s) (ones? o s : Option (Tensor S K)) (ones s) :=
  (Extent.computes_size o s).map _

/-- The positions of indexes within the sizes are words, because the product of all sizes is one. -/
theorem computes_ofEntries (s : S) (indexes : List (List Nat)) (data : List K) :
    Computes o
      (Extent.TrailingFit s ∧ ∀ i ∈ indexes, i.length = (Extent.dims s).length)
      (ofEntries? o s indexes data) (ofEntries s indexes data) := by
  unfold ofEntries? ofEntries
  dsimp only
  split_ifs with hlength hbounds
  · exact .some _
  · exact .some _
  · refine ((computes_strides o _).mono And.left).bind ?_
    refine (Computes.mapM fun i hi => ?_).bind (.some _)
    refine (computes_position o _ i).mono fun ⟨hfit, hlengths⟩ => ?_
    have hbound : inBounds (Extent.dims s) i = true := by
      by_contra hnot
      exact hbounds (List.any_eq_true.mpr ⟨i, hi, by simpa using hnot⟩)
    have hlt := position_lt_prod (inRange_iff.mpr ⟨hlengths i hi, hbound⟩)
    exact hlt.trans (hfit _ (by simp))

/-! ## Elements -/

omit [Scalar K] in
/-- Stored positions within the list are written one after another, and none ends the program. -/
theorem computes_store (es : List (Entry K)) (xs : Array K) :
    Computes o (∀ e ∈ es, e.1 < xs.size)
      (es.foldlM (fun a e => if e.1 < a.size then some (a.setIfInBounds e.1 e.2) else none) xs)
      (es.foldl (fun a e => a.setIfInBounds e.1 e.2) xs) := by
  induction es generalizing xs with
  | nil => exact .some xs
  | cons e es ih =>
      rw [List.foldlM_cons, List.foldl_cons]
      have hrest := (ih (xs.setIfInBounds e.1 e.2)).mono (Q := ∀ b ∈ e :: es, b.1 < xs.size)
        fun h b hb => by simpa using h b (List.mem_cons_of_mem _ hb)
      refine Computes.bind ⟨fun h => if_pos (h e List.mem_cons_self), fun _ a ha => ?_⟩ hrest
      split at ha
      · exact (Option.some.inj ha).symm
      · cases ha

/-- Listing the elements computes no size that is too large: a dense array stores the list. -/
def Listable (t : Tensor S K) : Prop :=
  t.pattern = none ∨ Extent.LeadingFit t.shape

theorem computes_elements {t : Tensor S K} (h : t.Valid) :
    Computes o t.Listable (t.elements? o) t.elements := by
  obtain ⟨s, pattern, data⟩ := t
  cases pattern with
  | none => exact .some _
  | some ps =>
      have hsize := (Extent.computes_size o s).mono
        (Q := (⟨s, some ps, data⟩ : Tensor S K).Listable) fun h => h.resolve_left (by simp)
      refine hsize.bind ((computes_store o _ _).mono fun _ e he => ?_)
      rw [Array.size_replicate]
      exact (Valid.sparse h).2.2 e.1 (List.of_mem_zip he).1

theorem computes_toDense {t : Tensor S K} (h : t.Valid) :
    Computes o t.Listable (t.toDense? o) t.toDense := by
  have helements := computes_elements o h
  obtain ⟨s, pattern, data⟩ := t
  cases pattern with
  | none => exact .some _
  | some ps => exact helements.map _

theorem computes_map (f : K → K) {t : Tensor S K} (h : t.Valid) :
    Computes o t.Listable (t.map? o f) (t.map f) :=
  (computes_elements o h).map _

/-- With overflow checks the elements of a sparse array that is too large are not listed. -/
theorem toDense?_eq_none {t : Tensor S K} (hlist : ¬ t.Listable) : t.toDense? .ends = none := by
  obtain ⟨hsparse, h⟩ := not_or.mp hlist
  obtain ⟨s, pattern, data⟩ := t
  cases pattern with
  | none => exact absurd rfl hsparse
  | some ps =>
      unfold toDense? elements?
      simp only [Extent.size?_eq_none h]
      rfl

end Constructors

end Tensor

/-! ## Matrices -/

namespace Matrix

variable {K : Type} [Scalar K] {a b : Matrix K}

theorem computes_position (o : Overflow) (cols i j : Nat) :
    Computes o (i * cols + j < 2 ^ 64) (position? o cols i j) (i * cols + j) :=
  ((Word.computes_mul o i cols).mono fun h => by omega).bind (Word.computes_add o _ j)

/-- A single element is read in either build if its position is a word. -/
theorem computes_get (o : Overflow) (h : a.Valid) {i j : Nat} (hi : i < a.shape.rows)
    (hj : j < a.shape.cols) :
    Computes o (i * a.shape.cols + j < 2 ^ 64) (a.get? o i j) (a.get i j) := by
  unfold get? get
  rw [if_pos ⟨hi, hj⟩]
  refine (computes_position o a.shape.cols i j).bind ?_
  obtain ⟨s, pattern, data⟩ := a
  cases pattern with
  | none =>
      have hlt : i * s.cols + j < data.length := by
        have hcell := cell_lt hi hj
        have hlength := Tensor.valid_dense_iff.mp h
        rw [Extent.size_shape] at hlength
        exact hlength ▸ hcell
      simpa [hlt] using .some _
  | some ps =>
      dsimp only
      cases hidx : ps.idxOf? (i * s.cols + j) with
      | none => exact .some _
      | some q =>
          obtain ⟨hq, -, -⟩ := List.idxOf?_eq_some_iff.mp hidx
          have hlt : q < data.length := (Tensor.Valid.sparse h).2.1 ▸ hq
          simpa [hlt] using .some _

theorem computes_transpose (h : a.Valid) :
    Computes .ends a.Listable a.transpose? a.transpose := by
  rw [← transpose_congr (Tensor.alike_toDense a)]
  exact (Tensor.computes_toDense .ends h).map transpose

theorem computes_product (ha : a.Valid) (hb : b.Valid) :
    Computes .ends (a.Listable ∧ b.Listable ∧ a.shape.rows * b.shape.cols < 2 ^ 64) (a.product? b)
      (a.product b) := by
  unfold product?
  split
  · rename_i hshape
    rw [product, if_pos hshape]
    exact .some _
  · rw [← product_congr (Tensor.alike_toDense a) (Tensor.alike_toDense b)]
    refine ((Tensor.computes_toDense .ends ha).mono And.left).bind ?_
    refine ((Tensor.computes_toDense .ends hb).mono fun h => h.2.1).bind ?_
    refine ((Word.computes_mul .ends _ _).mono fun h => ?_).bind (.some _)
    rw [(Tensor.alike_toDense a).shape, (Tensor.alike_toDense b).shape]
    exact h.2.2

theorem valid_elementwise (ha : a.Valid) (hb : b.Valid) {c : Matrix K}
    (h : a.elementwise b = .ok c) : c.Valid := by
  unfold elementwise at h
  split at h
  · cases h
  · rename_i hshape
    cases h
    have hlength := ha.size_elements
    have hlength' := hb.size_elements
    rw [← not_not.mp hshape] at hlength'
    exact Tensor.valid_dense_iff.mpr (by simp [hlength, hlength'])

/-- There is a product for every position, so the check of the constructor passes. -/
theorem computes_elementwise (ha : a.Valid) (hb : b.Valid) :
    Computes .ends (a.Listable ∧ b.Listable ∧ Extent.LeadingFit a.shape) (a.elementwise? b)
      (a.elementwise b) := by
  unfold elementwise?
  split
  · rename_i hshape
    rw [elementwise, if_pos hshape]
    exact .some _
  · rename_i hshape
    have hvalid := valid_elementwise ha hb (show a.elementwise b = .ok _ from if_neg hshape)
    rw [elementwise, if_neg hshape, ← Tensor.ofStored_of_valid hvalid]
    refine ((Tensor.computes_elements .ends ha).mono And.left).bind ?_
    refine ((Tensor.computes_elements .ends hb).mono fun h => h.2.1).bind ?_
    exact (Tensor.computes_ofStored .ends _ _ _).mono fun h => h.2.2

theorem computes_sparseIdentity (n : Nat) :
    Computes .ends (n * n < 2 ^ 64) (sparseIdentity? n : Option (Matrix K)) (sparseIdentity n) := by
  refine Computes.bind (Computes.mapM fun i hi => ?_) (.some _)
  have hi := List.mem_range.mp hi
  have hcell : i * (n + 1) < n * n := cell_lt (s := ⟨n, n⟩) hi hi
  refine ((Word.computes_add .ends n 1).mono fun h => ?_).bind
    ((Word.computes_mul .ends i (n + 1)).mono hcell.trans)
  -- The distance on the diagonal is no position if there is only one row.
  have hrow : n ≤ 1 ∨ 2 * n ≤ n * n := by
    rcases Nat.lt_or_ge n 2 with hlt | hge
    · exact .inl (Nat.le_of_lt_succ hlt)
    · exact .inr (Nat.mul_le_mul_right n hge)
  omega

theorem computes_identity (n : Nat) :
    Computes .ends (Extent.LeadingFit (⟨n, n⟩ : Shape)) (identity? n : Option (Matrix K))
      (identity n) := by
  have hvalid := (Tensor.HasShape.sparseIdentity (K := K) n).valid
  refine ((computes_sparseIdentity n).mono fun h => ?_).bind
    ((Tensor.computes_toDense .ends hvalid).mono .inr)
  simpa using h [n, n] (by simp [Extent.dims])

theorem computes_lowerOnes (n : Nat) :
    Computes .ends (n * n < 2 ^ 64) (lowerOnes? n : Option (Matrix K)) (lowerOnes n) := by
  have hcells : Computes .ends (n * n < 2 ^ 64)
      (((List.range n).flatMap fun i => (List.range (i + 1)).map fun j => (i, j)).mapM
        fun c => position? .ends n c.1 c.2) _ :=
    Computes.mapM (g := fun c => c.1 * n + c.2) fun c hc => by
      refine (computes_position .ends n c.1 c.2).mono fun h => ?_
      simp only [List.mem_flatMap, List.mem_range, List.mem_map] at hc
      obtain ⟨i, hi, j, hj, rfl⟩ := hc
      have hjn : j < n := Nat.lt_of_le_of_lt (Nat.le_of_lt_succ hj) hi
      exact (cell_lt (s := ⟨n, n⟩) hi hjn).trans h
  rw [List.map_flatMap] at hcells
  simp only [List.map_map, Function.comp_def] at hcells
  exact hcells.bind (.some _)

theorem computes_inverse (ha : a.Valid) :
    Computes .ends (a.Listable ∧ Extent.LeadingFit (⟨a.shape.rows, a.shape.rows⟩ : Shape))
      a.inverse? a.inverse := by
  unfold inverse?
  split
  · rename_i hshape
    rw [inverse, if_pos hshape]
    exact .some _
  · rw [← inverse_congr (Tensor.alike_toDense a)]
    refine ((Tensor.computes_toDense .ends ha).mono And.left).bind ?_
    rw [(Tensor.alike_toDense a).shape]
    exact ((computes_identity a.shape.rows).mono And.right).bind (.some _)

end Matrix

end CoupledModels
