import Mathlib.Algebra.BigOperators.Ring.List
import Mathlib.Algebra.Order.BigOperators.Group.List
import CoupledModels.Proofs.Arrays.Computed
import CoupledModels.Proofs.Number.Exact
import CoupledModels.Proofs.Number.RoundedDoubles

/-!
# Lifetime distributions

A distribution is made of the shares that the densities of all ages have in their sum.  No entry of it
is ever negative.  If every density is finite then no entry is undefined either, and with exact
division and summation the shares add up to one.  A sum that is undefined or infinite is not refused,
though: a zero factor that meets an infinite one at any age makes every entry undefined.

`distribution_proper_iff` says all of this of powers and exponentials that are not negative, whatever
else they are.
-/

namespace CoupledModels.Weibull

open Scalar

/-! ## Shares -/

section

variable {K : Type} [Scalar K]

/-- Numbers divided by their sum. -/
def shares (xs : List K) : List K :=
  xs.map (· / sum xs)

end

/-- Exact shares add up to one, unless there is nothing to share. -/
theorem sum_shares {qs : List Rat} (h : qs.sum ≠ 0) : (shares qs).sum = 1 := by
  unfold shares
  rw [sum_rat]
  simp only [div_eq_mul_inv]
  rw [List.sum_map_mul_right, List.map_id', mul_inv_cancel₀ h]

/-- The exact values of the numbers, divided by their exact sum, add up to one. -/
def SumsToOne (xs : List Float) : Prop :=
  ∃ qs : List Rat, xs.map rational? = qs.map some ∧ (∀ q ∈ shares qs, 0 ≤ q) ∧ (shares qs).sum = 1

/-- Numbers that are undefined or not negative, and whose sum is not at most zero. -/
structure Weighs (xs : List Float) : Prop where
  entries : ∀ x ∈ xs, isNaN x = true ∨ le 0 x = true
  total : le (sum xs) 0 = false

namespace Weighs

open Double

variable {xs : List Float} {x : Float}

theorem nonneg (h : Weighs xs) (hdefined : ∀ x ∈ xs, isNaN x = false) :
    ∀ x ∈ xs, le 0 x = true := by
  intro x hx
  refine (h.entries x hx).resolve_left ?_
  rw [hdefined x hx]
  exact Bool.false_ne_true

/-- The sum of defined numbers is greater than zero, and it may be infinite. -/
theorem pos_sum (h : Weighs xs) (hdefined : ∀ x ∈ xs, isNaN x = false) : lt 0 (sum xs) = true :=
  pos_of_not_le (isNaN_of_nonneg (nonneg_sum (h.nonneg hdefined))) h.total

/-- A share is undefined if any of the numbers is, and if the number itself is infinite. -/
theorem isNaN_share_iff (h : Weighs xs) (hx : x ∈ xs) :
    isNaN (x / sum xs) = true ↔ (∃ y ∈ xs, isNaN y = true) ∨ isInfinite x = true := by
  rw [isNaN_div]
  by_cases hnan : ∃ y ∈ xs, isNaN y = true
  · simp [isNaN_sum hnan, hnan]
  have hdefined : ∀ y ∈ xs, isNaN y = false := by simpa using hnan
  have hpos := h.pos_sum hdefined
  -- an infinite number meets itself in the sum
  have hsum : isInfinite x = true → isInfinite (sum xs) = true := fun hinfinite =>
    isInfinite_sum (h.nonneg hdefined) ⟨x, hx, hinfinite⟩
  simp only [hnan, hdefined x hx, isNaN_of_nonneg (Scalar.le_of_lt hpos), ((pos_iff _).mp hpos).2,
    Bool.or_false, Bool.and_false, Bool.false_or, Bool.and_eq_true, false_or]
  exact and_iff_left_of_imp hsum

/-- No share is negative. -/
theorem nonneg_share (h : Weighs xs) (hx : x ∈ xs) (hdefined : isNaN (x / sum xs) = false) :
    le 0 (x / sum xs) = true := by
  have hnone : ∀ y ∈ xs, isNaN y = false := by
    intro y hy
    by_contra hnan
    have hshare := (h.isNaN_share_iff hx).mpr (.inl ⟨y, hy, Bool.eq_true_of_not_eq_false hnan⟩)
    rw [hdefined] at hshare
    cases hshare
  exact nonneg_div (h.nonneg hnone x hx) (h.pos_sum hnone) hdefined

/-- A sum that is not at most zero has a term that is not zero. -/
theorem exists_nonzero (h : Weighs xs) : ∃ x ∈ xs, isZero x = false := by
  by_contra hnone
  have hzero : isZero (sum xs) = true := isZero_sum (by simpa using hnone)
  have hle : le (sum xs) 0 = true := by
    rw [le, Bool.or_eq_true]
    exact .inr hzero
  rw [h.total] at hle
  cases hle

/-- The exact shares add up to one if there are exact values. -/
theorem sumsToOne_iff (h : Weighs xs) : SumsToOne xs ↔ ∀ x ∈ xs, isFinite x = true := by
  constructor
  · rintro ⟨qs, hqs, -⟩ x hx
    have hmem : rational? x ∈ qs.map some := hqs ▸ List.mem_map_of_mem hx
    obtain ⟨q, -, hq⟩ := List.mem_map.mp hmem
    rw [isFinite, ← hq]
    rfl
  intro hfinite
  have hexact : ∀ x ∈ xs, rational? x = some ((rational? x).getD 0) := by
    intro x hx
    obtain ⟨q, hq⟩ := Option.isSome_iff_exists.mp (hfinite x hx)
    rw [hq]
    rfl
  have hdefined : ∀ x ∈ xs, isNaN x = false := fun x hx => isNaN_of_isFinite (hfinite x hx)
  have hnonneg : ∀ q ∈ xs.map fun x => (rational? x).getD 0, 0 ≤ q :=
    List.forall_mem_map.mpr fun x hx =>
      exactValue?_nonneg (h.nonneg hdefined x hx) (hexact x hx)
  -- the exact sum has a positive term, also where the rounded one has become infinite
  have hsum : 0 < (xs.map fun x => (rational? x).getD 0).sum := by
    obtain ⟨x, hx, hnonzero⟩ := h.exists_nonzero
    have hmem := List.mem_map_of_mem (f := fun x => (rational? x).getD 0) hx
    have hne : (rational? x).getD 0 ≠ 0 := by
      rw [Ne, exactValue?_eq_zero_iff (hexact x hx), hnonzero]
      exact Bool.false_ne_true
    exact ((hnonneg _ hmem).lt_of_ne' hne).trans_le (List.single_le_sum hnonneg _ hmem)
  refine ⟨_, ?_, ?_, sum_shares hsum.ne'⟩
  · rw [List.map_map]
    exact List.map_congr_left hexact
  · refine List.forall_mem_map.mpr fun q hq => ?_
    rw [sum_rat]
    exact div_nonneg (hnonneg q hq) hsum.le

end Weighs

/-! ## Arrangements -/

section

variable {K : Type} [Scalar K] {column : List K} {n dims : Nat} {m : Matrix K}

/-- In one dimension the list is a column. -/
theorem arrange_one : arrange column n 1 = .ok (Tensor.dense ⟨n, 1⟩ column) := rfl

/-- In two dimensions every column is the list, moved down to the diagonal. -/
theorem arrange_two : arrange column n 2 = .ok (Matrix.ofFn ⟨n, n⟩ fun i j =>
    if j ≤ i then column.toArray.getD (i - j) 0 else 0) := rfl

theorem dims_of_arrange (h : arrange column n dims = .ok m) : dims = 1 ∨ dims = 2 := by
  unfold arrange at h
  split at h
  · exact .inl rfl
  · exact .inr rfl
  · cases h

theorem get_column (column : List K) (n i : Nat) :
    Matrix.get (Tensor.dense ⟨n, 1⟩ column) i 0 = column.getD i 0 := by
  simp [Matrix.get, Tensor.dense]

/-- The elements are those of the list and, in two dimensions, zero. -/
theorem mem_or_zero_of_arrange (hlength : column.length = n) (h : arrange column n dims = .ok m)
    {v : K} (hv : v ∈ m.elements) : v ∈ column ∨ v = 0 := by
  rcases dims_of_arrange h with rfl | rfl
  · rw [arrange_one] at h
    cases h
    exact .inl (by simpa using hv)
  rw [arrange_two] at h
  cases h
  rw [Matrix.ofFn, Tensor.elements_dense, List.mem_toArray, mem_tabulate] at hv
  obtain ⟨i, hi, j, -, rfl⟩ := hv
  split
  · have hlt : i - j < column.length := by
      dsimp only at hi
      omega
    left
    simp [hlt]
  · exact .inr rfl

theorem mem_elements_of_arrange (hlength : column.length = n) (h : arrange column n dims = .ok m)
    {v : K} (hv : v ∈ column) : v ∈ m.elements := by
  rcases dims_of_arrange h with rfl | rfl
  · rw [arrange_one] at h
    cases h
    simpa using hv
  rw [arrange_two] at h
  cases h
  rw [Matrix.ofFn, Tensor.elements_dense, List.mem_toArray, mem_tabulate]
  -- the first column of the square is the list
  obtain ⟨i, hi, rfl⟩ := List.mem_iff_getElem.mp hv
  refine ⟨i, by simpa [hlength] using hi, 0, by simp; omega, ?_⟩
  simp [hi]

end

/-! ## Parameters -/

section

variable {K : Type} [Scalar K]

/-- The last age at which a density is evaluated. -/
def oldest (scale : K) (n : Nat) : Nat :=
  max (toCount (ofNat 2 * scale)) n

variable [Transcendental K]

/-- The densities of all ages. -/
def lifetime (scale shape : K) (n : Nat) : List K :=
  densities scale shape (oldest scale n)

/-- What a distribution asks of its parameters. -/
structure Admits (scale shape : K) (n : Nat) : Prop where
  positive_scale : isFinite scale = true ∧ le scale 0 = false
  positive_shape : isFinite shape = true ∧ le shape 0 = false
  length : n ≠ 0 ∧ n ≤ limit
  range : lt (ofNat limit) (ofNat 2 * scale) = false
  total : le (sum (lifetime scale shape n)) 0 = false

variable {scale shape : K} {n dims : Nat} {m : Matrix K}

/-- A distribution of admitted parameters arranges the first shares. -/
theorem distribution_eq_ok_iff :
    distribution scale shape n dims = .ok m ↔
      Admits scale shape n ∧
        arrange ((shares (lifetime scale shape n)).take n) n dims = .ok m := by
  have hshares : (shares (lifetime scale shape n)).take n =
      ((lifetime scale shape n).take n).map (· / sum (lifetime scale shape n)) :=
    List.map_take.symm
  rw [hshares]
  unfold distribution
  dsimp only
  -- the four guards together say that the parameters are admitted
  constructor
  · intro h
    split at h
    · cases h
    split at h
    · cases h
    split at h
    · cases h
    split at h
    · cases h
    rename_i hpositive hlength hrange htotal
    refine ⟨?_, h⟩
    simp at hpositive hrange
    exact ⟨hpositive.1, hpositive.2, ⟨hlength, hrange.2⟩, hrange.1, Bool.eq_false_iff.mpr htotal⟩
  · rintro ⟨h, harranged⟩
    have htotal : ¬ le (sum (densities scale shape (max (toCount (ofNat 2 * scale)) n))) 0 = true :=
      Bool.eq_false_iff.mp h.total
    rw [if_neg (by simp [h.positive_scale, h.positive_shape]), if_neg h.length.1,
      if_neg (by simp [h.range, h.length.2]), if_neg htotal]
    exact harranged

theorem mem_densities_iff {range : Nat} {p : K} : p ∈ densities scale shape range ↔
    ∃ age, 1 ≤ age ∧ age ≤ range ∧ density scale shape age = p := by
  unfold densities
  rw [List.mem_map]
  constructor
  · rintro ⟨x, hx, rfl⟩
    exact ⟨x + 1, by omega, List.mem_range.mp hx, rfl⟩
  · rintro ⟨age, hage, hle, rfl⟩
    refine ⟨age - 1, List.mem_range.mpr (by omega), ?_⟩
    rw [Nat.sub_add_cancel hage]

theorem length_lifetime (scale shape : K) (n : Nat) :
    (lifetime scale shape n).length = oldest scale n := by
  simp [lifetime, densities]

/-- The first densities do not depend on how many there are. -/
theorem take_lifetime (scale shape : K) (n : Nat) :
    (lifetime scale shape n).take n = densities scale shape n := by
  have hle : n ≤ oldest scale n := le_max_right _ _
  rw [lifetime, densities, ← List.map_take, List.take_range, min_eq_left hle]
  rfl

/-- The factor of a density that is a power of the age. -/
def growth (scale shape : K) (age : Nat) : K :=
  Transcendental.pow (ofNat age / scale) (shape - 1)

/-- The factor of a density that is an exponential. -/
def decay (scale shape : K) (age : Nat) : K :=
  Transcendental.exp (-(Transcendental.pow (ofNat age / scale) shape))

theorem density_eq (scale shape : K) (age : Nat) : density scale shape age =
    roundTo 2 (shape / scale * growth scale shape age * decay scale shape age) := rfl

/-- Among the factors of a density a zero meets an infinite one. -/
def clashes (scale shape : K) (age : Nat) : Bool :=
  clash (shape / scale) (growth scale shape age) ||
    clash (shape / scale * growth scale shape age) (decay scale shape age)

end

/-! ## Densities of doubles -/

/-- Powers of numbers without a sign bit and exponentials are not negative.  They may be zero or
infinite. -/
structure NonnegativeFunctions [Transcendental Float] : Prop where
  pow {a b : Float} (ha : isNaN a = false) (hsign : Decimal.signBit a = false)
    (hb : isNaN b = false) : le 0 (Transcendental.pow a b) = true
  exp {a : Float} (ha : isNaN a = false) : le 0 (Transcendental.exp a) = true

section Doubles

open Double

variable [Transcendental Float] {scale shape : Float}

/-- No factor of a density is negative or undefined. -/
theorem nonneg_factors (hT : NonnegativeFunctions) (hscale : Positive scale)
    (hshape : Positive shape) (age : Nat) :
    le 0 (shape / scale) = true ∧ le 0 (growth scale shape age) = true ∧
      le 0 (decay scale shape age) = true := by
  have hdefined : isNaN (ofNat age / scale) = false :=
    (hscale.isNaN_div _).trans (isNaN_of_nonneg (nonneg_ofNat age))
  -- with a sign bit a zero base would have negative infinite powers
  have hsign : Decimal.signBit (ofNat age / scale) = false := by
    have hne := sign_ne_none hdefined
    rw [unpack_div, unpackedSign?_stored] at hne
    refine signBit_of_positive ?_
    rw [unpack_div, unpackedSign?_stored]
    exact unpackedSign?_div (unpackedSign?_ofNat age) ((pos_iff scale).mp hscale.pos).1 hne
  have hpred : isNaN (shape - 1) = false := isNaN_sub_of_finite hshape.isNaN_eq_false rfl rfl
  refine ⟨nonneg_div hshape.nonneg hscale.pos ((hscale.isNaN_div _).trans hshape.isNaN_eq_false),
    hT.pow hdefined hsign hpred, hT.exp ?_⟩
  exact (isNaN_neg _).trans (isNaN_of_nonneg (hT.pow hdefined hsign hshape.isNaN_eq_false))

/-- A density is undefined if and only if a zero meets an infinite factor. -/
theorem isNaN_density (hT : NonnegativeFunctions) (hscale : Positive scale)
    (hshape : Positive shape) (age : Nat) :
    isNaN (density scale shape age) = clashes scale shape age := by
  obtain ⟨hrate, hgrowth, hdecay⟩ := nonneg_factors hT hscale hshape age
  rw [density_eq, isNaN_roundTo positive_hundred, isNaN_mul, isNaN_mul, isNaN_of_nonneg hrate,
    isNaN_of_nonneg hgrowth, isNaN_of_nonneg hdecay, clashes]
  simp

theorem nonneg_density (hT : NonnegativeFunctions) (hscale : Positive scale)
    (hshape : Positive shape) {age : Nat} (h : isNaN (density scale shape age) = false) :
    le 0 (density scale shape age) = true := by
  obtain ⟨hrate, hgrowth, hdecay⟩ := nonneg_factors hT hscale hshape age
  rw [density_eq, isNaN_roundTo positive_hundred] at h
  have hfirst : isNaN (shape / scale * growth scale shape age) = false := by
    rw [isNaN_mul] at h
    simp only [Bool.or_eq_false_iff] at h
    exact h.1.1
  rw [density_eq]
  exact nonneg_roundTo positive_hundred (nonneg_mul (nonneg_mul hrate hgrowth hfirst) hdecay h)

theorem Admits.positive {n : Nat} (h : Admits scale shape n) : Positive scale ∧ Positive shape :=
  ⟨.of_not_le h.positive_scale.1 h.positive_scale.2,
    .of_not_le h.positive_shape.1 h.positive_shape.2⟩

/-- The densities of admitted parameters have shares. -/
theorem weighs_lifetime (hT : NonnegativeFunctions) {n : Nat} (h : Admits scale shape n) :
    Weighs (lifetime scale shape n) := by
  obtain ⟨hscale, hshape⟩ := h.positive
  refine ⟨fun p hp => ?_, h.total⟩
  obtain ⟨age, -, -, rfl⟩ := mem_densities_iff.mp hp
  cases hnan : isNaN (density scale shape age) with
  | false => exact .inr (nonneg_density hT hscale hshape hnan)
  | true => exact .inl rfl

/-! ## Entries of a distribution -/

variable {n dims : Nat} {m : Matrix Float}

omit [Transcendental Float] in
theorem nonneg_zero : le 0 (0 : Float) = true := rfl

theorem mem_column_iff {v : Float} : v ∈ (shares (lifetime scale shape n)).take n ↔
    ∃ age, 1 ≤ age ∧ age ≤ n ∧ density scale shape age / sum (lifetime scale shape n) = v := by
  rw [shares, ← List.map_take, take_lifetime, List.mem_map]
  simp only [mem_densities_iff]
  constructor
  · rintro ⟨_, ⟨age, hage, hle, rfl⟩, rfl⟩
    exact ⟨age, hage, hle, rfl⟩
  · rintro ⟨age, hage, hle, rfl⟩
    exact ⟨_, ⟨age, hage, hle, rfl⟩, rfl⟩

theorem length_column (scale shape : Float) (n : Nat) :
    ((shares (lifetime scale shape n)).take n).length = n := by
  rw [List.length_take, shares, List.length_map, length_lifetime]
  exact min_eq_left (le_max_right _ _)

/-- An entry is undefined if factors clash at any age, and if its own density is infinite. -/
theorem isNaN_entry_iff (hT : NonnegativeFunctions) (h : Admits scale shape n) {age : Nat}
    (hage : 1 ≤ age) (hle : age ≤ n) :
    isNaN (density scale shape age / sum (lifetime scale shape n)) = true ↔
      (∃ age, 1 ≤ age ∧ age ≤ oldest scale n ∧ clashes scale shape age = true) ∨
        isInfinite (density scale shape age) = true := by
  obtain ⟨hscale, hshape⟩ := h.positive
  have hmem : density scale shape age ∈ lifetime scale shape n :=
    mem_densities_iff.mpr ⟨age, hage, hle.trans (le_max_right _ _), rfl⟩
  rw [(weighs_lifetime hT h).isNaN_share_iff hmem]
  refine or_congr_left ?_
  constructor
  · rintro ⟨_, hy, hnan⟩
    obtain ⟨age', hage', hle', rfl⟩ := mem_densities_iff.mp hy
    exact ⟨age', hage', hle', isNaN_density hT hscale hshape age' ▸ hnan⟩
  · rintro ⟨age', hage', hle', hclash⟩
    exact ⟨_, mem_densities_iff.mpr ⟨age', hage', hle', rfl⟩,
      (isNaN_density hT hscale hshape age').trans hclash⟩

/-- No element of a distribution is negative. -/
theorem undefined_or_nonneg (hT : NonnegativeFunctions)
    (h : distribution scale shape n dims = .ok m) :
    ∀ v ∈ m.elements, isNaN v = true ∨ le 0 v = true := by
  obtain ⟨hadmits, harranged⟩ := distribution_eq_ok_iff.mp h
  intro v hv
  rcases mem_or_zero_of_arrange (length_column scale shape n) harranged hv with hv | rfl
  · obtain ⟨p, hp, rfl⟩ := List.mem_map.mp (List.mem_of_mem_take hv)
    cases hnan : isNaN (p / sum (lifetime scale shape n)) with
    | false => exact .inr ((weighs_lifetime hT hadmits).nonneg_share hp hnan)
    | true => exact .inl rfl
  · exact .inr nonneg_zero

theorem exists_undefined_iff (hT : NonnegativeFunctions)
    (h : distribution scale shape n dims = .ok m) :
    (∃ v ∈ m.elements, isNaN v = true) ↔
      (∃ age, 1 ≤ age ∧ age ≤ oldest scale n ∧ clashes scale shape age = true) ∨
      ∃ age, 1 ≤ age ∧ age ≤ n ∧ isInfinite (density scale shape age) = true := by
  obtain ⟨hadmits, harranged⟩ := distribution_eq_ok_iff.mp h
  have hlength := length_column scale shape n
  have hentry {age : Nat} (hage : 1 ≤ age) (hle : age ≤ n) :
      density scale shape age / sum (lifetime scale shape n) ∈ m.elements :=
    mem_elements_of_arrange hlength harranged (mem_column_iff.mpr ⟨age, hage, hle, rfl⟩)
  constructor
  · rintro ⟨v, hv, hnan⟩
    rcases mem_or_zero_of_arrange hlength harranged hv with hv | rfl
    · obtain ⟨age, hage, hle, rfl⟩ := mem_column_iff.mp hv
      exact ((isNaN_entry_iff hT hadmits hage hle).mp hnan).imp_right fun hinfinite =>
        ⟨age, hage, hle, hinfinite⟩
    · cases (isNaN_of_nonneg nonneg_zero).symm.trans hnan
  · -- a clash at any age undefines the sum, and with it the first entry, which is always there
    have hone : 1 ≤ n := Nat.one_le_iff_ne_zero.mpr hadmits.length.1
    rintro (hclash | ⟨age, hage, hle, hinfinite⟩)
    · exact ⟨_, hentry le_rfl hone, (isNaN_entry_iff hT hadmits le_rfl hone).mpr (.inl hclash)⟩
    · exact ⟨_, hentry hage hle, (isNaN_entry_iff hT hadmits hage hle).mpr (.inr hinfinite)⟩

/-- If all densities are finite, all elements are defined. -/
theorem nonneg_of_finite (hT : NonnegativeFunctions)
    (h : distribution scale shape n dims = .ok m)
    (hfinite : ∀ p ∈ lifetime scale shape n, isFinite p = true) :
    ∀ v ∈ m.elements, le 0 v = true := by
  obtain ⟨hadmits, -⟩ := distribution_eq_ok_iff.mp h
  obtain ⟨hscale, hshape⟩ := hadmits.positive
  have hfinite {age : Nat} (hage : 1 ≤ age) (hle : age ≤ oldest scale n) :
      isFinite (density scale shape age) = true :=
    hfinite _ (mem_densities_iff.mpr ⟨age, hage, hle, rfl⟩)
  intro v hv
  refine (undefined_or_nonneg hT h v hv).resolve_left fun hnan => ?_
  -- both ways in which an element can be undefined need a density that is not finite
  rcases (exists_undefined_iff hT h).mp ⟨v, hv, hnan⟩ with
    ⟨age, hage, hle, hclash⟩ | ⟨age, hage, hle, hinfinite⟩
  · rw [← isNaN_density hT hscale hshape, isNaN_of_isFinite (hfinite hage hle)] at hclash
    cases hclash
  · rw [isInfinite, hfinite hage (hle.trans (le_max_right _ _)), Bool.not_true, Bool.and_false]
      at hinfinite
    cases hinfinite

/-- No element is undefined or negative, and the shares of all ages add up to one. -/
structure Proper (scale shape : Float) (n : Nat) (m : Matrix Float) : Prop where
  nonneg : ∀ v ∈ m.elements, le 0 v = true
  total : SumsToOne (lifetime scale shape n)

theorem proper_iff (hT : NonnegativeFunctions) (h : distribution scale shape n dims = .ok m) :
    Proper scale shape n m ↔ ∀ p ∈ lifetime scale shape n, isFinite p = true := by
  have hsum := (weighs_lifetime hT (distribution_eq_ok_iff.mp h).1).sumsToOne_iff
  exact ⟨fun hproper => hsum.mp hproper.total,
    fun hfinite => ⟨nonneg_of_finite hT h hfinite, hsum.mpr hfinite⟩⟩

/-- A distribution that is returned has the shape that was asked for.  In one dimension it is the
first shares of all ages up to twice the scale, and in two dimensions each column is the
one-dimensional distribution, moved down to the diagonal.  It is a proper distribution if and only if
every density is finite.  Its elements are never negative, but they can be undefined, and are so in
exactly two ways: a zero meets an infinite factor at some age, or the density of a returned age is
infinite itself. -/
theorem distribution_proper_iff (hT : NonnegativeFunctions)
    (h : distribution scale shape n dims = .ok m) :
    m.HasShape (shapeOf n dims) ∧
    (∃ column : Matrix Float, distribution scale shape n 1 = .ok column ∧
      column.elements.toList = (shares (lifetime scale shape n)).take n ∧
      (dims = 1 ∧ m = column ∨ dims = 2 ∧ ∀ i < n, ∀ j < n,
        m.get i j = if j ≤ i then column.get (i - j) 0 else 0)) ∧
    (lifetime scale shape n).length = max (toCount (ofNat 2 * scale)) n ∧
    (Proper scale shape n m ↔ ∀ p ∈ lifetime scale shape n, isFinite p = true) ∧
    (∀ v ∈ m.elements, isNaN v = true ∨ le 0 v = true) ∧
    ((∃ v ∈ m.elements, isNaN v = true) ↔
      (∃ age, 1 ≤ age ∧ age ≤ oldest scale n ∧ clashes scale shape age = true) ∨
      ∃ age, 1 ≤ age ∧ age ≤ n ∧ isInfinite (density scale shape age) = true) := by
  obtain ⟨hadmits, harranged⟩ := distribution_eq_ok_iff.mp h
  have hdims := dims_of_arrange harranged
  have hshape : m.HasShape (shapeOf n dims) := (outcome_distribution scale shape hdims).value h
  refine ⟨hshape, ⟨_, distribution_eq_ok_iff.mpr ⟨hadmits, arrange_one⟩, by simp, ?_⟩,
    length_lifetime scale shape n, proper_iff hT h, undefined_or_nonneg hT h,
    exists_undefined_iff hT h⟩
  -- one dimension is the column itself, two dimensions shift it along the diagonal
  rcases hdims with rfl | rfl
  · rw [arrange_one] at harranged
    cases harranged
    exact .inl ⟨rfl, rfl⟩
  · rw [arrange_two] at harranged
    cases harranged
    refine .inr ⟨rfl, fun i hi j hj => ?_⟩
    rw [Matrix.get_ofFn _ hi hj, get_column]
    simp
    rfl

end Doubles

namespace Sampled

open Double

/-- Powers of one and two, and exponentials of their negatives. -/
scoped instance sampled : Transcendental Float where
  pow a b :=
    if eqv a 2 then if eqv b 0 then 1 else if eqv b 1 then 2 else 1 / 0
    else 1
  exp a :=
    if eqv a (-1) then 0.36787944117144233
    else if eqv a (-2) then 0.1353352832366127
    else if isInfinite a then 0
    else 1

theorem nonnegativeFunctions : NonnegativeFunctions where
  pow _ _ _ := by
    unfold Transcendental.pow sampled
    dsimp only
    split_ifs <;> decide +kernel
  exp _ := by
    unfold Transcendental.exp sampled
    dsimp only
    split_ifs <;> decide +kernel

/-- An exponential lifetime has the densities `0.37` and `0.14`. -/
theorem distribution_proper_exponential :
    ∃ m : Matrix Float, distribution (1 : Float) 1 2 2 = .ok m ∧
      m.elements.toList = [0.37 / 0.51, 0, 0.14 / 0.51, 0.37 / 0.51] ∧ Proper 1 1 2 m := by
  have hreturned : distribution (1 : Float) 1 2 2 =
      .ok (Tensor.dense ⟨2, 2⟩ [0.37 / 0.51, 0, 0.14 / 0.51, 0.37 / 0.51]) := by
    decide +kernel
  obtain ⟨-, -, -, hproper, -⟩ := distribution_proper_iff nonnegativeFunctions hreturned
  exact ⟨_, hreturned, by simp, hproper.mpr (by decide +kernel)⟩

/-- At the age of two the steep power `2 ^ 1999` is infinite and its exponential is zero, so both
entries are undefined. -/
theorem steep_distribution_undefined :
    NonnegativeFunctions ∧ ∃ m : Matrix Float, distribution (1 : Float) 2000 2 1 = .ok m ∧
      m.elements.size = 2 ∧ (∀ v ∈ m.elements, isNaN v = true) ∧ ¬ Proper 1 2000 2 m := by
  have hreturned : distribution (1 : Float) 2000 2 1 =
      .ok (Tensor.dense ⟨2, 1⟩ [0 / 0, 0 / 0]) := by
    decide +kernel
  have hundefined : isNaN (0 / 0 : Float) = true := by decide +kernel
  refine ⟨nonnegativeFunctions, _, hreturned, by simp, by simpa using hundefined, fun hproper => ?_⟩
  have hnonneg := hproper.nonneg (0 / 0) (by simp)
  cases hundefined.symm.trans (isNaN_of_nonneg hnonneg)

end Sampled

end CoupledModels.Weibull
