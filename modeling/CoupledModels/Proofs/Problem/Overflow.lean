import Mathlib.Algebra.Order.Ring.Int
import CoupledModels.Problem.Overflow
import CoupledModels.Proofs.Affine.Checked
import CoupledModels.Proofs.Problem.Typing

/-!
# Which shifts overflow

A row number is never negative, so its difference from the amount of a shift can only be too large.
-/

namespace CoupledModels

/-- Every element of the shape has a number of 63 bits. -/
def Shape.Addressable (s : Shape) : Prop :=
  s.rows * s.cols < 2 ^ 63

namespace Affine

/-! ## Rows -/

/-- A difference fits unless it is too large, and then it is exact. -/
theorem shiftSource?_cases {i : Nat} (hi : i < 2 ^ 63) (k : Int64) :
    (shiftSource? i k = none ∧ k.toInt + 2 ^ 63 ≤ i) ∨
      ∃ src, shiftSource? i k = some src ∧ (i : Int) < k.toInt + 2 ^ 63 ∧
        src.toInt = shiftSource i k := by
  have hnat : (Int64.ofNat i).toInt = i := Int64.toInt_ofNat_of_lt hi
  have hlt := k.toInt_lt
  have hfits : BitVec.ssubOverflow (Int64.ofNat i).toBitVec k.toBitVec = true ↔
      k.toInt + 2 ^ 63 ≤ i := by
    rw [BitVec.ssubOverflow, Int64.toInt_toBitVec, Int64.toInt_toBitVec, hnat]
    simp
    omega
  unfold shiftSource?
  split
  · rename_i hoverflow
    exact .inl ⟨rfl, hfits.mp hoverflow⟩
  · rename_i hoverflow
    refine .inr ⟨_, rfl, by have := mt hfits.mpr hoverflow; omega, ?_⟩
    have hsub := BitVec.toInt_sub_of_not_ssubOverflow hoverflow
    rw [Int64.toInt_toBitVec, Int64.toInt_toBitVec, hnat] at hsub
    exact hsub

/-- No row of the shape is too far from the amount, or there are no elements to be moved. -/
def ShiftFits (s : Shape) (k : Int64) : Prop :=
  s.cols = 0 ∨ (s.rows : Int) ≤ k.toInt + 2 ^ 63

variable {K : Type} [Scalar K]

/-- What is put at an element, if the difference fits. -/
theorem shiftPart?_cases {s : Shape} (hs : s.Addressable) (k : Int64) {i j : Nat} (hi : i < s.rows)
    (hj : j < s.cols) :
    (shiftPart? s k i j = (none : Option (List (Nat × K))) ∧ k.toInt + 2 ^ 63 ≤ i) ∨
      ((i : Int) < k.toInt + 2 ^ 63 ∧ shiftPart? s k i j = some (
        if 0 ≤ shiftSource i k ∧ shiftSource i k < s.rows then
          [((shiftSource i k).toNat * s.cols + j, (1 : K))]
        else [])) := by
  have hlt : i < 2 ^ 63 := calc
    i < s.rows := hi
    _ ≤ s.rows * s.cols := Nat.le_mul_of_pos_right _ (Nat.zero_lt_of_lt hj)
    _ < 2 ^ 63 := hs
  rcases shiftSource?_cases hlt k with ⟨hnone, hle⟩ | ⟨src, hsrc, hle, hvalue⟩
  · exact .inl ⟨by rw [shiftPart?, hnone]; rfl, hle⟩
  · refine .inr ⟨hle, ?_⟩
    have hnat : src.toNatClampNeg = (shiftSource i k).toNat := by
      rw [← Int64.toNat_toInt, hvalue]
    have hcond : (0 ≤ src ∧ (shiftSource i k).toNat < s.rows) ↔
        (0 ≤ shiftSource i k ∧ shiftSource i k < s.rows) := by
      rw [Int64.le_iff_toInt_le, Int64.toInt_zero, hvalue]
      omega
    rw [shiftPart?, hsrc, Option.map_some, hnat]
    exact congrArg some (if_congr hcond rfl rfl)

/-- A shift gives what it gives with unbounded numbers if it fits, and overflows if it does not. -/
theorem shift?_eq {e : Affine K} (hs : e.shape.Addressable) (k : Int64) :
    (ShiftFits e.shape k → e.shift? k = some (e.shift k)) ∧
      (¬ ShiftFits e.shape k → e.shift? k = none) := by
  constructor
  · intro hfits
    have hparts : ∀ p ∈ tabulate e.shape fun i j => (i, j),
        shiftPart? e.shape k p.1 p.2 = some (
          if 0 ≤ shiftSource p.1 k ∧ shiftSource p.1 k < e.shape.rows then
            [((shiftSource p.1 k).toNat * e.shape.cols + p.2, (1 : K))]
          else []) := by
      intro p hp
      obtain ⟨i, hi, j, hj, rfl⟩ := mem_tabulate.mp hp
      rcases shiftPart?_cases (K := K) hs k hi hj with ⟨-, hle⟩ | ⟨-, hpart⟩
      · rcases hfits with hcols | hrows
        · omega
        · omega
      · exact hpart
    rw [shift?, mapM_eq_some_map hparts, Option.map_some, map_tabulate]
    rfl
  · intro hnot
    -- the last row is moved from furthest out, so it is the one that overflows
    obtain ⟨hcols, hrows⟩ := not_or.mp hnot
    have hlast : e.shape.rows - 1 < e.shape.rows := by
      have := k.le_toInt
      omega
    have hmem : (e.shape.rows - 1, 0) ∈ tabulate e.shape fun i j => (i, j) :=
      List.mem_of_getElem? (getElem?_tabulate (fun i j => (i, j)) hlast (Nat.pos_of_ne_zero hcols))
    have hnone : shiftPart? e.shape k (e.shape.rows - 1) 0 = (none : Option (List (Nat × K))) := by
      rcases shiftPart?_cases (K := K) hs k hlast (Nat.pos_of_ne_zero hcols) with
        ⟨hnone, -⟩ | ⟨hle, -⟩
      · exact hnone
      · omega
    rw [shift?, mapM_eq_none hmem hnone]
    rfl

/-- The terms of the elements of a row. -/
def rowTerms (e : Affine K) (i : Nat) : List (List (Term K)) :=
  (e.elements.drop (i * e.shape.cols)).take e.shape.cols

omit [Scalar K] in
theorem getElem?_rowTerms {e : Affine K} {i j : Nat} (hj : j < e.shape.cols) :
    (e.rowTerms i)[j]? = e.elements[i * e.shape.cols + j]? := by
  rw [rowTerms, List.getElem?_take_of_lt hj, List.getElem?_drop]

omit [Scalar K] in
theorem length_rowTerms {e : Affine K} (he : e.WellFormed) {i : Nat} (hi : i < e.shape.rows) :
    (e.rowTerms i).length = e.shape.cols := by
  have hlen : e.elements.length = e.shape.rows * e.shape.cols := he.length_elements
  have hrow : i * e.shape.cols + e.shape.cols ≤ e.shape.rows * e.shape.cols := by
    rw [← Nat.succ_mul]
    exact Nat.mul_le_mul_right _ hi
  rw [rowTerms, List.length_take, List.length_drop, hlen]
  omega

theorem getElem?_shift (hone : ∀ c : K, c * 1 = c) (e : Affine K) (k : Int64) {i j : Nat}
    (hi : i < e.shape.rows) (hj : j < e.shape.cols) :
    (e.shift k).elements[i * e.shape.cols + j]? = some (
      if 0 ≤ shiftSource i k ∧ shiftSource i k < e.shape.rows then
        normalizeTerms (e.elements[(shiftSource i k).toNat * e.shape.cols + j]?.getD [])
      else []) := by
  rw [shift, combine, elements_ofElements, List.getElem?_map, getElem?_tabulate _ hi hj,
    Option.map_some]
  by_cases hsource : 0 ≤ shiftSource i k ∧ shiftSource i k < e.shape.rows
  · simp [hsource, hone]
  · simp [hsource, normalizeTerms, Entry.collect, Entry.merge, Entry.dropZeros]

/-- With unbounded numbers each row of a shift is that of the operand from which it is moved, in
normal form, and has no terms if there is no such row. -/
theorem rowTerms_shift (hone : ∀ c : K, c * 1 = c) {e : Affine K} (he : e.WellFormed) (k : Int64)
    {i : Nat} (hi : i < e.shape.rows) :
    (e.shift k).rowTerms i =
      if 0 ≤ shiftSource i k ∧ shiftSource i k < e.shape.rows then
        (e.rowTerms (shiftSource i k).toNat).map normalizeTerms
      else List.replicate e.shape.cols [] := by
  have hwell : (e.shift k).WellFormed := wellFormed_ofElements (by simp)
  have hlength : ((e.shift k).rowTerms i).length = e.shape.cols := length_rowTerms hwell hi
  -- an element of the row is that of the operand, or the row has no terms anywhere
  split_ifs with hsource
  · have hrow : (shiftSource i k).toNat < e.shape.rows := by omega
    refine List.ext_getElem? fun j => ?_
    rw [List.getElem?_map]
    rcases Nat.lt_or_ge j e.shape.cols with hj | hj
    · have hcell : (shiftSource i k).toNat * e.shape.cols + j < e.elements.length := by
        rw [he.length_elements]
        exact cell_lt hrow hj
      have hterms := (getElem?_rowTerms (e := e.shift k) hj).trans (getElem?_shift hone e k hi hj)
      rw [if_pos hsource] at hterms
      rw [hterms, getElem?_rowTerms hj, List.getElem?_eq_getElem hcell]
      rfl
    · have hoperand := length_rowTerms he hrow
      rw [List.getElem?_eq_none (by omega), List.getElem?_eq_none (by omega)]
      rfl
  · refine List.eq_replicate_iff.mpr ⟨hlength, fun ts hts => ?_⟩
    obtain ⟨j, hj, rfl⟩ := List.getElem_of_mem hts
    have hcell := getElem?_rowTerms (e := e.shift k) (i := i) (hlength ▸ hj)
    have hterms := hcell.trans (getElem?_shift hone e k hi (hlength ▸ hj))
    rw [if_neg hsource, List.getElem?_eq_getElem hj] at hterms
    exact Option.some.inj hterms

end Affine

/-! ## Amounts -/

section Amounts

variable {K : Type} [Scalar K]

/-- An amount is an integer that has been clamped into signed 64-bit numbers. -/
theorem Formula.Call.integer_ok {c : Formula.Call K} {i : Nat} {k : Int64}
    (h : c.integer i = .ok k) :
    ∃ v q, c.literal? i = some v ∧ Scalar.rational? v = some q ∧ q.den = 1 ∧
      k.toInt = Scalar.clamp (-2 ^ 63) (2 ^ 63 - 1) q.num := by
  unfold Formula.Call.integer at h
  obtain ⟨v, hv, h⟩ := exists_of_bind_eq_ok h
  have hliteral : c.literal? i = some v := by
    unfold Formula.Call.literal at hv
    split at hv
    · cases hv
      assumption
    · cases hv
  split at h
  swap
  · cases h
  rename_i hinteger
  cases hq : Scalar.rational? v with
  | none =>
      rw [Scalar.isInteger, hq] at hinteger
      cases hinteger
  | some q =>
      have hden : q.den = 1 := by
        rw [Scalar.isInteger, hq] at hinteger
        exact beq_iff_eq.mp hinteger
      have hamount :
          Scalar.toAmount v = Int64.ofInt (Scalar.clamp (-2 ^ 63) (2 ^ 63 - 1) q.num) := by
        rw [Scalar.toAmount, Scalar.truncateInto, hq]
        simp [Scalar.truncate, hden, pow2]
      refine ⟨v, q, hliteral, hq, hden, ?_⟩
      cases h
      rw [hamount]
      refine Int64.toInt_ofInt_of_le ?_ ?_ <;> unfold Scalar.clamp <;> split_ifs <;> omega

end Amounts

/-! ## Trees -/

namespace Typed

section Trees

variable {K : Type}

def isShift : Typed K → Bool
  | .shift .. => true
  | _ => false

/-- No shift of the tree overflows. -/
def ShiftsFit (e : Typed K) : Prop :=
  ∀ t e' k, Typed.shift t e' k ∈ e.nodes → Affine.ShiftFits t.shape k

/-- Every element that a shift of the tree moves has a number of 63 bits. -/
def ShiftsAddressable (e : Typed K) : Prop :=
  ∀ t e' k, Typed.shift t e' k ∈ e.nodes → t.shape.Addressable

variable [Scalar K] [Transcendental K] {d : Catalog K}

/-- Lowering overflows only where a shift does not fit, and not there only if it fails before. -/
structure OverflowsAtShifts (d : Catalog K) (e : Typed K) : Prop where
  safe : e.ShiftsFit → e.overflows d = false
  exact : ∀ a, e.lower d = .ok a → e.overflows d = false → e.ShiftsFit

omit [Scalar K] [Transcendental K] in
/-- The shifts of a tree that is not a shift itself are those of its operands. -/
theorem shiftsFit_iff {e : Typed K} (operands : List (Typed K))
    (hself : e.isShift = false) (hnodes : e.nodes = e :: operands.flatMap nodes) :
    e.ShiftsFit ↔ ∀ o ∈ operands, o.ShiftsFit := by
  unfold ShiftsFit
  rw [hnodes]
  constructor
  · intro h o ho t e' k hmem
    exact h t e' k (List.mem_cons_of_mem _ (List.mem_flatMap.mpr ⟨o, ho, hmem⟩))
  · intro h t e' k hmem
    rcases List.mem_cons.mp hmem with heq | hmem
    · rw [← heq] at hself
      cases hself
    · obtain ⟨o, ho, hmem⟩ := List.mem_flatMap.mp hmem
      exact h o ho t e' k hmem

namespace OverflowsAtShifts

variable {e p l r : Typed K}

/-- A tree without operands. -/
theorem leaf (hself : p.isShift = false) (hnodes : p.nodes = [p])
    (hoverflows : p.overflows d = false) : OverflowsAtShifts d p where
  safe _ := hoverflows
  exact _ _ _ := (shiftsFit_iff [] hself hnodes).mpr (by simp)

/-- A tree that does nothing but lower its operand before it goes on. -/
theorem unary (h : OverflowsAtShifts d e) (hself : p.isShift = false)
    (hnodes : p.nodes = p :: e.nodes) (hoverflows : p.overflows d = e.overflows d)
    (hlower : ∀ a, p.lower d = .ok a → ∃ b, e.lower d = .ok b) : OverflowsAtShifts d p := by
  have hfits := shiftsFit_iff [e] hself (by simpa using hnodes)
  simp only [List.mem_singleton, forall_eq] at hfits
  refine ⟨fun hp => hoverflows.trans (h.safe (hfits.mp hp)), fun a ha hp => ?_⟩
  obtain ⟨b, hb⟩ := hlower a ha
  exact hfits.mpr (h.exact b hb (hoverflows ▸ hp))

/-- A tree that lowers two operands, the second one only if the first one gives something. -/
theorem binary {first : Bool} (hl : OverflowsAtShifts d l) (hr : OverflowsAtShifts d r)
    (hfits : p.ShiftsFit ↔ l.ShiftsFit ∧ r.ShiftsFit)
    (hoverflows : p.overflows d = (l.overflows d || (first && r.overflows d)))
    (hlower : ∀ a, p.lower d = .ok a →
      first = true ∧ (∃ b, l.lower d = .ok b) ∧ ∃ b, r.lower d = .ok b) :
    OverflowsAtShifts d p := by
  refine ⟨fun hp => ?_, fun a ha hp => ?_⟩
  · obtain ⟨hfitsl, hfitsr⟩ := hfits.mp hp
    rw [hoverflows, hl.safe hfitsl, hr.safe hfitsr, Bool.and_false, Bool.false_or]
  · obtain ⟨hfirst, ⟨b, hb⟩, b', hb'⟩ := hlower a ha
    rw [hoverflows, hfirst, Bool.true_and, Bool.or_eq_false_iff] at hp
    exact hfits.mpr ⟨hl.exact b hb hp.1, hr.exact b' hb' hp.2⟩

/-- A product, which lowers the operand with decision variables first. -/
theorem product (hl : OverflowsAtShifts d l) (hr : OverflowsAtShifts d r)
    (hfits : p.ShiftsFit ↔ l.ShiftsFit ∧ r.ShiftsFit)
    (hoverflows : p.overflows d =
      if l.linear then l.overflows d || ((l.lower d).isOk && r.overflows d)
      else r.overflows d || ((r.lower d).isOk && l.overflows d))
    (hlower : ∀ a, p.lower d = .ok a → (∃ b, l.lower d = .ok b) ∧ ∃ b, r.lower d = .ok b) :
    OverflowsAtShifts d p := by
  cases hlinear : l.linear with
  | true =>
      rw [hlinear, if_pos rfl] at hoverflows
      refine hl.binary hr hfits hoverflows fun a ha => ?_
      obtain ⟨⟨b, hb⟩, hrest⟩ := hlower a ha
      exact ⟨by rw [hb]; rfl, ⟨b, hb⟩, hrest⟩
  | false =>
      rw [hlinear, if_neg Bool.false_ne_true] at hoverflows
      refine hr.binary hl (hfits.trans and_comm) hoverflows fun a ha => ?_
      obtain ⟨hrest, b, hb⟩ := hlower a ha
      exact ⟨by rw [hb]; rfl, ⟨b, hb⟩, hrest⟩

/-- A shift, of an operand with its shape. -/
theorem shift {t : FormulaType} {k : Int64} (h : OverflowsAtShifts d e)
    (hshape : ∀ a, e.lower d = .ok a → a.shape = t.shape) (ht : t.shape.Addressable) :
    OverflowsAtShifts d (.shift t e k) := by
  -- the shifts of the tree are this one and those of its operand
  have hfits : (Typed.shift t e k).ShiftsFit ↔ Affine.ShiftFits t.shape k ∧ e.ShiftsFit := by
    simp only [ShiftsFit, nodes, List.mem_cons, Typed.shift.injEq]
    constructor
    · exact fun h => ⟨h t e k (.inl ⟨rfl, rfl, rfl⟩), fun t' e' k' hmem => h t' e' k' (.inr hmem)⟩
    · rintro ⟨hself, hoperand⟩ t' e' k' (⟨rfl, rfl, rfl⟩ | hmem)
      · exact hself
      · exact hoperand t' e' k' hmem
  -- an operand has the shape of the tree, which decides whether the shift fits
  have hshift : ∀ a, e.lower d = .ok a →
      ((a.shift? k).isNone = false ↔ Affine.ShiftFits t.shape k) := by
    intro a ha
    have haddressable : a.shape.Addressable := by rwa [hshape a ha]
    obtain ⟨hsome, hnone⟩ := Affine.shift?_eq haddressable k
    rw [← hshape a ha]
    by_cases hfits : Affine.ShiftFits a.shape k
    · simp [hsome hfits, hfits]
    · simp [hnone hfits, hfits]
  refine ⟨fun hp => ?_, fun b hb hp => ?_⟩
  · obtain ⟨hself, hoperand⟩ := hfits.mp hp
    rw [overflows, h.safe hoperand, Bool.false_or]
    cases ha : e.lower d with
    | error err => rfl
    | ok a => exact (hshift a ha).mpr hself
  · rw [lower] at hb
    obtain ⟨a, ha, -⟩ := exists_of_bind_eq_ok hb
    rw [overflows, ha, Bool.or_eq_false_iff] at hp
    exact hfits.mpr ⟨(hshift a ha).mp hp.2, h.exact a ha hp.1⟩

end OverflowsAtShifts

omit [Scalar K] [Transcendental K] in
theorem shiftsFit_binary {p l r : Typed K} (hself : p.isShift = false)
    (hnodes : p.nodes = p :: (l.nodes ++ r.nodes)) :
    p.ShiftsFit ↔ l.ShiftsFit ∧ r.ShiftsFit := by
  rw [shiftsFit_iff [l, r] hself (by simpa using hnodes)]
  simp

omit [Scalar K] [Transcendental K] in
theorem ShiftsAddressable.operand {p e : Typed K} (h : p.ShiftsAddressable)
    (hnodes : p.nodes = p :: e.nodes) : e.ShiftsAddressable :=
  fun t e' k hmem => h t e' k (hnodes ▸ List.mem_cons_of_mem _ hmem)

omit [Scalar K] [Transcendental K] in
theorem ShiftsAddressable.operands {p l r : Typed K} (h : p.ShiftsAddressable)
    (hnodes : p.nodes = p :: (l.nodes ++ r.nodes)) :
    l.ShiftsAddressable ∧ r.ShiftsAddressable := by
  constructor
  · intro t e' k hmem
    exact h t e' k (hnodes ▸ List.mem_cons_of_mem _ (List.mem_append_left _ hmem))
  · intro t e' k hmem
    exact h t e' k (hnodes ▸ List.mem_cons_of_mem _ (List.mem_append_right _ hmem))

/-- A product has lowered the one operand, and then the other one to numbers. -/
theorem operands_ok {l r : Typed K} {f : Affine K → Matrix K → Except ModelError (Affine K)}
    {a : Affine K}
    (h : (do
      let e ← l.lower d
      let m ← r.lower d >>= numbers
      f e m) = .ok a) :
    (∃ b, l.lower d = .ok b) ∧ ∃ b, r.lower d = .ok b := by
  obtain ⟨b, hb, h⟩ := exists_of_bind_eq_ok h
  obtain ⟨m, hm, -⟩ := exists_of_bind_eq_ok h
  obtain ⟨b', hb', -⟩ := exists_of_bind_eq_ok hm
  exact ⟨⟨b, hb⟩, b', hb'⟩

theorem lower_elementwise_ok {t : FormulaType} {l r : Typed K} {a : Affine K}
    (h : (Typed.elementwise t l r).lower d = .ok a) :
    (∃ b, l.lower d = .ok b) ∧ ∃ b, r.lower d = .ok b := by
  rw [lower] at h
  split at h
  · exact operands_ok h
  · exact (operands_ok h).symm

theorem lower_matmul_ok {t : FormulaType} {l r : Typed K} {a : Affine K}
    (h : (Typed.matmul t l r).lower d = .ok a) :
    (∃ b, l.lower d = .ok b) ∧ ∃ b, r.lower d = .ok b := by
  rw [lower] at h
  split at h
  · exact operands_ok h
  · exact (operands_ok h).symm

/-- Lowering a well-typed tree overflows at its shifts. -/
theorem WellTyped.overflowsAtShifts (hd : d.Sound) {e : Typed K} (h : e.WellTyped d.bindings)
    (haddressable : e.ShiftsAddressable) : OverflowsAtShifts d e := by
  induction h with
  | number | binding | data => exact .leaf rfl rfl rfl
  | negate _ ih | transpose _ ih | diagonalMatrix _ _ ih | diagonalColumn _ _ _ ih | total _ ih
  | columnSums _ ih | rowSums _ ih =>
      refine (ih (haddressable.operand rfl)).unary rfl rfl rfl fun a ha => ?_
      rw [lower] at ha
      obtain ⟨b, hb, -⟩ := exists_of_bind_eq_ok ha
      exact ⟨b, hb⟩
  | power _ _ _ ih | inverse _ _ _ ih =>
      refine (ih (haddressable.operand rfl)).unary rfl rfl rfl fun a ha => ?_
      rw [lower] at ha
      obtain ⟨m, hm, -⟩ := exists_of_bind_eq_ok ha
      obtain ⟨b, hb, -⟩ := exists_of_bind_eq_ok hm
      exact ⟨b, hb⟩
  | add _ _ _ ihl ihr | sub _ _ _ ihl ihr =>
      obtain ⟨hl, hr⟩ := haddressable.operands rfl
      refine (ihl hl).binary (ihr hr) (shiftsFit_binary rfl rfl) rfl fun a ha => ?_
      rw [lower] at ha
      obtain ⟨b, hb, ha⟩ := exists_of_bind_eq_ok ha
      obtain ⟨b', hb', -⟩ := exists_of_bind_eq_ok ha
      exact ⟨by rw [hb]; rfl, ⟨b, hb⟩, b', hb'⟩
  | scale _ _ _ _ ihl ihr =>
      obtain ⟨hl, hr⟩ := haddressable.operands rfl
      refine (ihl hl).product (ihr hr) (shiftsFit_binary rfl rfl) rfl fun a ha => ?_
      rw [lower_scale d _ default] at ha
      exact lower_elementwise_ok ha
  | elementwise _ _ _ _ ihl ihr =>
      obtain ⟨hl, hr⟩ := haddressable.operands rfl
      exact (ihl hl).product (ihr hr) (shiftsFit_binary rfl rfl) rfl fun a ha =>
        lower_elementwise_ok ha
  | matmul _ _ _ _ ihl ihr =>
      obtain ⟨hl, hr⟩ := haddressable.operands rfl
      exact (ihl hl).product (ihr hr) (shiftsFit_binary rfl rfl) rfl fun a ha => lower_matmul_ok ha
  | shift he k ih =>
      refine (ih (haddressable.operand rfl)).shift (fun a ha => ?_)
        (haddressable _ _ _ List.mem_cons_self)
      exact (Outcome.value (he.lowers hd) ha).shape
  | weibull _ _ _ _ _ _ _ ihl ihr =>
      obtain ⟨hl, hr⟩ := haddressable.operands rfl
      refine (ihl hl).binary (ihr hr) (shiftsFit_binary rfl rfl) rfl fun a ha => ?_
      rw [lower] at ha
      obtain ⟨m, hm, ha⟩ := exists_of_bind_eq_ok ha
      obtain ⟨m', hm', -⟩ := exists_of_bind_eq_ok ha
      obtain ⟨b, hb, -⟩ := exists_of_bind_eq_ok hm
      obtain ⟨b', hb', -⟩ := exists_of_bind_eq_ok hm'
      exact ⟨by rw [value, hm]; rfl, ⟨b, hb⟩, b', hb'⟩

/-- Formulas that are lowered one after the other overflow only where a shift does not fit, and not
there only if one of them fails. -/
theorem OverflowsAtShifts.some {es : List (Typed K)} (h : ∀ e ∈ es, OverflowsAtShifts d e) :
    ((∀ e ∈ es, e.ShiftsFit) → someOverflows d es = false) ∧
      ((∀ e ∈ es, ∃ a, e.lower d = .ok a) → someOverflows d es = false →
        ∀ e ∈ es, e.ShiftsFit) := by
  induction es with
  | nil => simp [someOverflows]
  | cons e es ih =>
      obtain ⟨hself, hrest⟩ := List.forall_mem_cons.mp h
      obtain ⟨hsafe, hexact⟩ := ih hrest
      constructor
      · intro hfits
        obtain ⟨hfitself, hfitrest⟩ := List.forall_mem_cons.mp hfits
        rw [someOverflows, hself.safe hfitself, hsafe hfitrest, Bool.and_false, Bool.false_or]
      · intro hlowers hno
        obtain ⟨⟨a, ha⟩, hlowers⟩ := List.forall_mem_cons.mp hlowers
        rw [someOverflows, ha, Bool.or_eq_false_iff] at hno
        exact List.forall_mem_cons.mpr ⟨hself.exact a ha hno.1, hexact hlowers hno.2⟩

end Trees

end Typed

/-! ## Sub-problems -/

namespace SubProblem

variable {K : Type} [Scalar K] [Transcendental K] {p : SubProblem K} {d : Catalog K}

theorem lower_term_ok {objective : Affine K} (h : p.lowerObjective d = .ok objective) :
    ∀ e ∈ p.terms, ∃ a, e.lower d = .ok a := by
  refine Outcome.value (E := AnyError) (P := fun _ => ∀ e ∈ p.terms, ∃ a, e.lower d = .ok a) ?_ h
  unfold lowerObjective
  refine Outcome.foldlM_prefix (I := fun (done : List (Typed K)) _ =>
    ∀ e ∈ done, ∃ a, e.lower d = .ok a) (by simp)
    fun done e rest sum _ hdone => ?_
  refine Outcome.bind_ok fun a ha => Outcome.of_forall fun _ _ e' he' => ?_
  rcases List.mem_append.mp he' with he' | he'
  · exact hdone e' he'
  · obtain rfl := List.mem_singleton.mp he'
    exact ⟨a, ha⟩

theorem lower_sides_ok {k : Constraint K} {r : Affine K × Relation}
    (h : lowerConstraint d k = .ok r) : ∀ e ∈ [k.left, k.right], ∃ a, e.lower d = .ok a := by
  unfold lowerConstraint at h
  obtain ⟨a, ha, h⟩ := exists_of_bind_eq_ok h
  obtain ⟨a', ha', -⟩ := exists_of_bind_eq_ok h
  simp [ha, ha']

/-- If a sub-problem has been lowered then so have all its trees. -/
theorem lower_trees_ok {l : LinearProblem K} (h : p.lower d = .ok l) :
    ∀ e ∈ p.trees, ∃ a, e.lower d = .ok a := by
  unfold lower at h
  obtain ⟨objective, hobjective, h⟩ := exists_of_bind_eq_ok h
  obtain ⟨constraints, hconstraints, -⟩ := exists_of_bind_eq_ok h
  intro e he
  rcases List.mem_append.mp he with he | he
  · exact lower_term_ok hobjective e he
  · obtain ⟨k, hk, he⟩ := List.mem_flatMap.mp he
    obtain ⟨r, -, hr⟩ := exists_right_of_forall₂ (forall₂_of_mapM hconstraints) hk
    exact lower_sides_ok hr e he

end SubProblem

/-- A shift moves each row from where it is found with unbounded numbers, and overflows exactly if
there are elements to be moved and the shape has more rows than the amount, an integer that has been
clamped into signed 64-bit numbers, is above the least such number.  A formula or a sub-problem that
has been compiled is lowered without an overflow if all its shifts fit, and overflows if all of it
can be lowered but not all its shifts fit. -/
theorem shift_exact_or_overflows {K : Type} [Scalar K] [Transcendental K]
    (hone : ∀ v : K, v * 1 = v) {tables : List TableDeclaration} {sets : Registry}
    {b c d : Catalog K} (hbuild : Catalog.build tables sets = .ok b) (hshapes : b.WellShaped)
    (hcompiled : b.Later c) (hlater : c.Later d) :
    (∀ (e : Affine K) (k : Int64), e.WellFormed → e.shape.rows * e.shape.cols < 2 ^ 63 →
      (e.shift? k = if e.shape.cols = 0 ∨ (e.shape.rows : Int) ≤ k.toInt + 2 ^ 63 then
        some (e.shift k) else none) ∧
      ∀ i < e.shape.rows, (e.shift k).rowTerms i =
        if 0 ≤ (i : Int) - k.toInt ∧ (i : Int) - k.toInt < e.shape.rows then
          (e.rowTerms ((i : Int) - k.toInt).toNat).map Affine.normalizeTerms
        else List.replicate e.shape.cols []) ∧
    (∀ (call : Formula.Call K) (i : Nat) (k : Int64), call.integer i = .ok k →
      ∃ v q, call.literal? i = some v ∧ Scalar.rational? v = some q ∧ q.den = 1 ∧
        k.toInt = Scalar.clamp (-2 ^ 63) (2 ^ 63 - 1) q.num) ∧
    (∀ (text : String) (key : ProblemKey) (instances : List (Instance K)),
      Formula.compile c text key = .ok instances →
        ∀ i ∈ instances, ∀ e ∈ i.form.nodes, e.ShiftsAddressable →
          (e.ShiftsFit → e.overflows d = false) ∧
          (∀ a, e.lower d = .ok a → e.overflows d = false → e.ShiftsFit)) ∧
    (∀ (sets : Registry) (name : String) (m : ModelText) (ps : SubProblems K),
      SubProblems.build c sets name m = .ok ps →
        ∀ p ∈ ps.values, (∀ e ∈ p.trees, e.ShiftsAddressable) →
          ((∀ e ∈ p.trees, e.ShiftsFit) → p.overflows d = false) ∧
          (∀ l, p.lower d = .ok l → p.overflows d = false → ∀ e ∈ p.trees, e.ShiftsFit)) := by
  obtain ⟨hc, -⟩ := hcompiled.sound ⟨Catalog.build_addressed hbuild, hshapes⟩
  obtain ⟨hd, hbindings⟩ := hlater.sound hc
  refine ⟨fun e k he haddressable => ⟨?_, fun i hi => Affine.rowTerms_shift hone he k hi⟩,
    fun call i k h => call.integer_ok h, ?_, ?_⟩
  · obtain ⟨hfits, hoverflows⟩ := Affine.shift?_eq haddressable k
    split_ifs with h
    · exact hfits h
    · exact hoverflows h
  · intro text key instances hcompile i hi e he haddressable
    have htyped := (Formula.wellTyped_of_compile hc.addressed hcompile i hi).of_mem_nodes he
    rw [← hbindings] at htyped
    obtain ⟨hsafe, hexact⟩ := htyped.overflowsAtShifts hd haddressable
    exact ⟨hsafe, hexact⟩
  · intro sets name m ps hps p hp haddressable
    have htyped := SubProblems.wellTyped_of_build hc.addressed hps p hp
    rw [← hbindings] at htyped
    obtain ⟨hsafe, hexact⟩ := Typed.OverflowsAtShifts.some fun e he =>
      (htyped.of_mem_trees he).overflowsAtShifts hd (haddressable e he)
    exact ⟨hsafe, fun l hl => hexact (SubProblem.lower_trees_ok hl)⟩

namespace Catalog.Purchases

/-- The purchases moved by an amount that is written as a literal. -/
def moved (k : Int64) : Typed Rat :=
  .shift ⟨⟨2, 1⟩, true⟩ (.binding ⟨⟨2, 1⟩, true⟩ 1) k

/-- Of the first item at least three are bought. -/
def second : Instance Rat :=
  ⟨"shift(x, 1) >= 3", none, .constraint (moved 1) .ge (.number 3)⟩

theorem shift_exact_or_overflows_second :
    (moved 1).overflows priced = false ∧
    ∀ a, (moved 1).lower priced = .ok a → (moved 1).overflows priced = false →
      (moved 1).ShiftsFit := by
  obtain ⟨-, -, hforms, -⟩ :=
    shift_exact_or_overflows Rat.mul_one build_tables wellShaped_catalog .refl later_priced
  have hcompile : Formula.compile catalog second.text ⟨[]⟩ = .ok [second] := by decide +kernel
  have hshifts : ∀ t e' k, Typed.shift t e' k ∈ (moved 1).nodes → t = ⟨⟨2, 1⟩, true⟩ ∧ k = 1 := by
    intro t e' k hmem
    obtain ⟨rfl, -, rfl⟩ : t = _ ∧ e' = _ ∧ k = _ := by simpa [moved, Typed.nodes] using hmem
    exact ⟨rfl, rfl⟩
  obtain ⟨hsafe, hexact⟩ := hforms _ _ _ hcompile second (List.mem_singleton_self second) (moved 1)
    (by simp [second, moved, Form.nodes, Typed.nodes]) fun t e' k hmem => by
      obtain ⟨rfl, -⟩ := hshifts t e' k hmem
      simp [Shape.Addressable]
  refine ⟨hsafe fun t e' k hmem => ?_, hexact⟩
  obtain ⟨rfl, rfl⟩ := hshifts t e' k hmem
  exact .inr (by decide)

/-- A text with an amount below the least signed 64-bit number compiles, and lowering what it
compiles to overflows. -/
theorem shift_overflows_far_back :
    Formula.compile catalog "shift(x, -1e19) >= 3" ⟨[]⟩ =
      .ok [⟨"shift(x, -1e19) >= 3", none,
        .constraint (moved (Int64.ofInt (-2 ^ 63))) .ge (.number 3)⟩] ∧
    (moved (Int64.ofInt (-2 ^ 63))).overflows priced = true := by
  decide +kernel

end Catalog.Purchases

end CoupledModels
