import CoupledModels.Proofs.Affine.Compaction
import CoupledModels.Proofs.Affine.Queries

/-!
# Arithmetic with checked indexes

The operations on expressions read elements by number, and give an element that is not there no
terms.  Here they are run with every such access checked: `none` stands for the number of an element
that does not exist, for pointers that lead outside of the stored terms, and for a recipe that does
not have one list of parts for each position of its target.  The terms of a result are stored as they
come before its normal form is written in place.

`arithmetic_normalizes` says that on accepted operands no check ever fails, so that the unchecked
operations do what the checked ones do, and that every result is accepted again and in normal form.
-/

namespace CoupledModels

namespace Affine

variable {K : Type}

/-! ## Reading elements -/

/-- The terms of an element; `none` if a pointer is missing or leads outside of the terms. -/
def element? (e : Affine K) (i : Nat) : Option (List (Term K)) := do
  let p ← e.ptr[i]?
  let q ← e.ptr[i + 1]?
  if p ≤ q ∧ q ≤ e.subj.length ∧ q ≤ e.cof.length then some ((e.terms.drop p).take (q - p))
  else none

/-- The terms of all elements, one after the other. -/
def elements? (e : Affine K) : Option (List (List (Term K))) :=
  (List.range e.count).mapM e.element?

/-- The pointers of a well-formed expression lead to every element. -/
theorem WellFormed.element?_eq {e : Affine K} (h : e.WellFormed) {i : Nat} (hi : i < e.count) :
    e.element? i = some (e.elements.toArray.getD i []) := by
  have hlen : i + 1 < e.ptr.length := by
    rw [count] at hi
    omega
  have hpairwise := pairwise_of_ascending h.ascending
  -- the two pointers are in order and stay within the terms, so the checked slice is the plain one
  have hpq : e.ptr[i] ≤ e.ptr[i + 1] :=
    List.pairwise_iff_getElem.mp hpairwise i (i + 1) (by omega) hlen (Nat.lt_succ_self i)
  have hq : e.ptr[i + 1] ≤ e.subj.length :=
    le_getLast_of_pairwise hpairwise h.last _ (List.getElem_mem hlen)
  have hget : e.elements[i]? = some ((e.terms.drop e.ptr[i]).take (e.ptr[i + 1] - e.ptr[i])) := by
    have hzip : (e.ptr.zip e.ptr.tail)[i]? = some (e.ptr[i], e.ptr[i + 1]) := by
      rw [List.getElem?_zip_eq_some]
      exact ⟨List.getElem?_eq_getElem _, by simp [hlen]⟩
    rw [elements_eq_slices, slices, List.getElem?_map, hzip]
    rfl
  rw [Array.getD_eq_getD_getElem?, List.getElem?_toArray, hget, element?,
    List.getElem?_eq_getElem (by omega), List.getElem?_eq_getElem hlen]
  simp [hpq, hq, h.cof_length]

theorem WellFormed.elements?_eq {e : Affine K} (h : e.WellFormed) :
    e.elements? = some e.elements := by
  have hels : (List.range e.count).map (fun i => e.elements.toArray.getD i []) = e.elements := by
    refine List.ext_getElem (by simp [length_elements_eq_count]) fun i hi hi' => ?_
    simp [hi']
  rw [elements?, mapM_eq_some_map fun i hi => h.element?_eq (List.mem_range.mp hi), hels]

variable [Scalar K]

/-! ## Combining elements -/

/-- For each element of a result the numbers of the elements it combines, with their factors. -/
abbrev Recipe (K : Type) := List (List (Nat × K))

/-- The normal form, written in place, if all elements are there. -/
def normalizeChecked (e : Affine K) : Option (Affine K) :=
  e.elements?.map (writeAll e.shape)

/-- The combination of elements that a recipe says: first its terms as they come, then their normal
form. -/
def combineChecked (e : Affine K) (s : Shape) (recipe : Recipe K) : Option (Affine K) := do
  if s.rows * s.cols ≠ recipe.length then none
  else
    let els ← recipe.mapM fun parts => do
      let scaled ← parts.mapM fun part =>
        (e.element? part.1).map fun ts => ts.map fun (j, c) => (j, c * part.2)
      return scaled.flatten
    (ofElements s els).normalizeChecked

/-- One list of parts for each position of the target, and only elements that are there. -/
structure Recipe.Fits (recipe : Recipe K) (e : Affine K) (s : Shape) : Prop where
  length : recipe.length = s.rows * s.cols
  sources : ∀ parts ∈ recipe, ∀ part ∈ parts, part.1 < e.count

theorem WellFormed.normalizeChecked_eq {e : Affine K} (h : e.WellFormed) :
    e.normalizeChecked = some e.normalize := by
  rw [normalizeChecked, h.elements?_eq, Option.map_some, writeAll_eq, Affine.normalize]

/-- The terms of a combination are stored before their normal form is taken. -/
theorem normalizeChecked_ofElements {s : Shape} {els : List (List (Term K))}
    (h : els.length = s.rows * s.cols) :
    (ofElements s els).normalizeChecked = some (ofElements s (els.map normalizeTerms)) := by
  rw [(wellFormed_ofElements h).normalizeChecked_eq, normalize, elements_ofElements, shape_ofElements]

theorem WellFormed.combineChecked_eq {e : Affine K} (h : e.WellFormed) {s : Shape}
    {recipe : Recipe K} (hfits : recipe.Fits e s) :
    e.combineChecked s recipe = some (e.combine s recipe) := by
  have hparts : ∀ parts ∈ recipe,
      (parts.mapM fun part =>
        (e.element? part.1).map fun ts => ts.map fun ((j, c) : Term K) => (j, c * part.2)) =
      some (parts.map fun part =>
        (e.elements.toArray.getD part.1 []).map fun (j, c) => (j, c * part.2)) :=
    fun parts hp => mapM_eq_some_map fun part hpart => by
      rw [h.element?_eq (hfits.sources parts hp part hpart), Option.map_some]
  rw [combineChecked, if_neg (by simp [hfits.length]),
    mapM_eq_some_map fun parts hp => by rw [hparts parts hp]; rfl]
  refine (normalizeChecked_ofElements (by simp [hfits.length])).trans ?_
  rw [List.map_map]
  rfl

/-- The result of an operation that has been checked. -/
structure Passes (checked : Option (Except ArrayError (Affine K)))
    (unchecked : Except ArrayError (Affine K)) : Prop where
  agrees : checked = some unchecked
  result : ∀ r, unchecked = .ok r → r.WellFormed ∧ r.Normal

theorem passes_error (err : ArrayError) :
    Passes (some (.error err)) (.error err : Except ArrayError (Affine K)) :=
  ⟨rfl, by simp⟩

theorem passes_combine {e : Affine K} (h : e.WellFormed) {s : Shape} {recipe : Recipe K}
    (hfits : recipe.Fits e s) :
    Passes ((e.combineChecked s recipe).map .ok) (.ok (e.combine s recipe)) where
  agrees := by rw [h.combineChecked_eq hfits, Option.map_some]
  result := by
    rintro r hr
    cases hr
    exact ⟨wellFormed_ofElements (by simpa using hfits.length), normal_combine _ _ _⟩

omit [Scalar K] in
theorem fits_tabulate {e : Affine K} {s : Shape} {f : Nat → Nat → List (Nat × K)}
    (h : ∀ i < s.rows, ∀ j < s.cols, ∀ part ∈ f i j, part.1 < e.count) :
    Recipe.Fits (tabulate s f) e s := by
  refine ⟨length_tabulate s f, fun parts hp part hpart => ?_⟩
  obtain ⟨i, hi, j, hj, rfl⟩ := mem_tabulate.mp hp
  exact h i hi j hj part hpart

/-! ## The recipes of the operations -/

namespace Recipe

/-- The first element everywhere. -/
def fill (s : Shape) : Recipe K :=
  List.replicate (s.rows * s.cols) [(0, 1)]

def leftProduct (e : Affine K) (a : Matrix K) : Recipe K :=
  tabulate ⟨a.shape.rows, e.shape.cols⟩ fun i j =>
    (List.range a.shape.cols).filterMap fun p =>
      let x := a.elements.getD (i * a.shape.cols + p) 0
      if Scalar.isZero x then none else some (p * e.shape.cols + j, x)

def rightProduct (e : Affine K) (a : Matrix K) : Recipe K :=
  tabulate ⟨e.shape.rows, a.shape.cols⟩ fun i j =>
    (List.range e.shape.cols).filterMap fun p =>
      let x := a.elements.getD (p * a.shape.cols + j) 0
      if Scalar.isZero x then none else some (i * e.shape.cols + p, x)

def elementwise (s : Shape) (a : Matrix K) : Recipe K :=
  (List.range (s.rows * s.cols)).map fun i =>
    [(i, a.elements.getD (if a.elements.size = 1 then 0 else i) 0)]

def transpose (s : Shape) : Recipe K :=
  tabulate s.flip fun i j => [(j * s.cols + i, 1)]

/-- A vector on the diagonal of a square matrix. -/
def spread (k : Nat) : Recipe K :=
  tabulate ⟨k, k⟩ fun i j => if i = j then [(i, 1)] else []

/-- The diagonal of a square matrix. -/
def diagonal (n : Nat) : Recipe K :=
  (List.range n).map fun i => [(i * n + i, 1)]

def total (count : Nat) : Recipe K :=
  [(List.range count).map fun i => (i, 1)]

def columnSums (s : Shape) : Recipe K :=
  (List.range s.cols).map fun j => (List.range s.rows).map fun i => (i * s.cols + j, 1)

def rowSums (s : Shape) : Recipe K :=
  (List.range s.rows).map fun i => (List.range s.cols).map fun j => (i * s.cols + j, 1)

def shift (s : Shape) (k : Int64) : Recipe K :=
  tabulate s fun i j =>
    if 0 ≤ shiftSource i k ∧ shiftSource i k < s.rows then
      [((shiftSource i k).toNat * s.cols + j, 1)]
    else []

end Recipe

/-! ## The operations -/

/-- `broadcast` with checked indexes. -/
def broadcastChecked (e : Affine K) (s : Shape) : Option (Except ArrayError (Affine K)) :=
  if e.shape = s then some (.ok e)
  else if e.isScalar then (e.combineChecked s (Recipe.fill s)).map .ok
  else some (.error (.broadcast e.shape s))

/-- `addScaled` with checked indexes. -/
def addScaledChecked (a b : Affine K) (f : K) : Option (Except ArrayError (Affine K)) :=
  match Shape.broadcast? a.shape b.shape with
  | none => some (.error (.addition a.shape b.shape))
  | some s => do
      match ← a.broadcastChecked s, ← b.broadcastChecked s with
      | .ok a, .ok b =>
          let ls ← a.elements?
          let rs ← b.elements?
          let els := (ls.zip rs).map fun (l, r) => l ++ r.map fun (j, c) => (j, c * f)
          (ofElements s els).normalizeChecked.map .ok
      | .error err, _ => return .error err
      | .ok _, .error err => return .error err

/-- `mulElementwise` with checked indexes. -/
def mulElementwiseChecked (e : Affine K) (a : Matrix K) : Option (Except ArrayError (Affine K)) :=
  match Shape.broadcast? e.shape a.shape with
  | none => some (.error (.elementwise e.shape a.shape))
  | some s => do
      match ← e.broadcastChecked s with
      | .ok e => (e.combineChecked s (Recipe.elementwise s a)).map .ok
      | .error err => return .error err

/-- `scale` with checked indexes. -/
def scaleChecked (e : Affine K) (f : K) : Option (Affine K) :=
  ({ e with cof := e.cof.map (· * f) } : Affine K).normalizeChecked

/-- The operations on an expression, with their other operands. -/
inductive Operation (K : Type) where
  | addScaled (b : Affine K) (f : K)
  | scale (f : K)
  | mulLeft (a : Matrix K)
  | mulRight (a : Matrix K)
  | mulElementwise (a : Matrix K)
  | transpose
  | diagonal
  | total
  | sumAxis (axis : Nat)
  | shift (k : Int64)

namespace Operation

/-- The result of an operation. -/
def apply (e : Affine K) : Operation K → Except ArrayError (Affine K)
  | addScaled b f => e.addScaled b f
  | scale f => .ok (e.scale f)
  | mulLeft a => e.mulLeft a
  | mulRight a => e.mulRight a
  | mulElementwise a => e.mulElementwise a
  | transpose => .ok e.transpose
  | diagonal => e.diagonal
  | total => .ok e.total
  | sumAxis axis => e.sumAxis axis
  | shift k => .ok (e.shift k)

/-- The result of an operation with checked indexes. -/
def run (e : Affine K) : Operation K → Option (Except ArrayError (Affine K))
  | addScaled b f => e.addScaledChecked b f
  | scale f => (e.scaleChecked f).map .ok
  | mulLeft a =>
      if a.shape.cols ≠ e.shape.rows then some (.error (.product a.shape e.shape))
      else (e.combineChecked ⟨a.shape.rows, e.shape.cols⟩ (Recipe.leftProduct e a)).map .ok
  | mulRight a =>
      if e.shape.cols ≠ a.shape.rows then some (.error (.product e.shape a.shape))
      else (e.combineChecked ⟨e.shape.rows, a.shape.cols⟩ (Recipe.rightProduct e a)).map .ok
  | mulElementwise a => e.mulElementwiseChecked a
  | transpose => (e.combineChecked e.shape.flip (Recipe.transpose e.shape)).map .ok
  | diagonal =>
      let k := e.shape.rows * e.shape.cols
      if e.shape.isVector then (e.combineChecked ⟨k, k⟩ (Recipe.spread k)).map .ok
      else if e.shape.isSquare then
        (e.combineChecked ⟨e.shape.cols, 1⟩ (Recipe.diagonal e.shape.cols)).map .ok
      else some (.error (.diagonal e.shape))
  | total => (e.combineChecked .scalar (Recipe.total e.count)).map .ok
  | sumAxis 0 => (e.combineChecked ⟨1, e.shape.cols⟩ (Recipe.columnSums e.shape)).map .ok
  | sumAxis 1 => (e.combineChecked ⟨e.shape.rows, 1⟩ (Recipe.rowSums e.shape)).map .ok
  | sumAxis axis => some (.error (.axis axis))
  | shift k => (e.combineChecked e.shape (Recipe.shift e.shape k)).map .ok

/-- A second operand that is an expression is accepted as well. -/
def OperandAccepted : Operation K → Prop
  | addScaled b _ => b.Accepted
  | _ => True

end Operation

/-! ## No check fails -/

section Passing

variable {e a b : Affine K}

omit [Scalar K] in
theorem WellFormed.count_pos (h : e.WellFormed) (hscalar : e.isScalar = true) : 0 < e.count := by
  rw [h.count_eq, Shape.isScalar_iff.mp hscalar]
  exact Nat.one_pos

theorem passes_broadcast (h : e.WellFormed) (s : Shape) :
    e.broadcastChecked s = some (e.broadcast s) ∧
      ∀ r, e.broadcast s = .ok r → r.WellFormed ∧ r.shape = s := by
  unfold broadcastChecked broadcast
  split_ifs with hs hscalar
  · exact ⟨rfl, by rintro r ⟨⟩; exact ⟨h, hs⟩⟩
  · have hfits : (Recipe.fill s).Fits e s := by
      refine ⟨by simp [Recipe.fill], fun parts hp part hpart => ?_⟩
      obtain rfl := (List.mem_replicate.mp hp).2
      obtain rfl := List.mem_singleton.mp hpart
      exact h.count_pos hscalar
    have hpasses := passes_combine h hfits
    exact ⟨hpasses.agrees, fun r hr => ⟨(hpasses.result r hr).1, by cases hr; rfl⟩⟩
  · exact ⟨rfl, by simp⟩

theorem passes_addScaled (ha : a.WellFormed) (hb : b.WellFormed) (f : K) :
    Passes (a.addScaledChecked b f) (a.addScaled b f) := by
  unfold addScaledChecked addScaled isScalar
  rw [← Shape.broadcast?_eq_ite]
  cases Shape.broadcast? a.shape b.shape with
  | none => exact passes_error _
  | some s =>
      obtain ⟨hca, hra⟩ := passes_broadcast ha s
      obtain ⟨hcb, hrb⟩ := passes_broadcast hb s
      -- Once both operands are stretched, the two runs read the same elements.
      cases hba : a.broadcast s with
      | error err =>
          simp only [hca, hcb, hba]
          exact passes_error err
      | ok a' =>
          cases hbb : b.broadcast s with
          | error err =>
              simp only [hca, hcb, hba, hbb]
              exact passes_error err
          | ok b' =>
              obtain ⟨hwa, hsa⟩ := hra a' hba
              obtain ⟨hwb, hsb⟩ := hrb b' hbb
              simp only [hca, hcb, hba, hbb]
              refine ⟨?_, fun r hr => ?_⟩
              · change (a'.elements?.bind fun ls => b'.elements?.bind fun rs =>
                  (normalizeChecked _).map Except.ok) = _
                rw [hwa.elements?_eq, hwb.elements?_eq]
                simp only [Option.bind_some]
                rw [normalizeChecked_ofElements
                  (by simp [hwa.length_elements, hwb.length_elements, hsa, hsb]), List.map_map]
                rfl
              · cases hr
                refine ⟨wellFormed_ofElements ?_, fun ts hts => ?_⟩
                · simp [hwa.length_elements, hwb.length_elements, hsa, hsb]
                · rw [elements_ofElements] at hts
                  obtain ⟨_, -, rfl⟩ := List.mem_map.mp hts
                  exact normalTerms_normalizeTerms _

theorem passes_scale (h : e.WellFormed) (f : K) :
    Passes ((e.scaleChecked f).map .ok) (.ok (e.scale f)) := by
  have hscaled : ({ e with cof := e.cof.map (· * f) } : Affine K).WellFormed :=
    ⟨h.ascending, h.first, h.last, by simp [h.cof_length], h.ptr_length⟩
  refine ⟨?_, fun r hr => ?_⟩
  · rw [scaleChecked, hscaled.normalizeChecked_eq, Option.map_some, scale]
  · cases hr
    exact ⟨hscaled.normalize, normal_normalize _⟩

theorem passes_mulLeft (h : e.WellFormed) (a : Matrix K) :
    Passes ((Operation.mulLeft a).run e) (e.mulLeft a) := by
  unfold Operation.run mulLeft
  dsimp only
  split_ifs with hinner
  · exact passes_error _
  · refine passes_combine h (fits_tabulate fun i hi j hj part hpart => ?_)
    obtain ⟨p, hp, hx⟩ := List.mem_filterMap.mp hpart
    have hrow : p < e.shape.rows := by
      have := List.mem_range.mp hp
      omega
    dsimp only at hx
    split_ifs at hx
    cases hx
    exact h.count_eq ▸ cell_lt hrow hj

theorem passes_mulRight (h : e.WellFormed) (a : Matrix K) :
    Passes ((Operation.mulRight a).run e) (e.mulRight a) := by
  unfold Operation.run mulRight
  dsimp only
  split_ifs with hinner
  · exact passes_error _
  · refine passes_combine h (fits_tabulate fun i hi j hj part hpart => ?_)
    obtain ⟨p, hp, hx⟩ := List.mem_filterMap.mp hpart
    dsimp only at hx
    split_ifs at hx
    cases hx
    exact h.count_eq ▸ cell_lt hi (List.mem_range.mp hp)

theorem passes_mulElementwise (h : e.WellFormed) (a : Matrix K) :
    Passes (e.mulElementwiseChecked a) (e.mulElementwise a) := by
  unfold mulElementwiseChecked mulElementwise isScalar
  rw [← Shape.broadcast?_eq_ite]
  cases Shape.broadcast? e.shape a.shape with
  | none => exact passes_error _
  | some s =>
      obtain ⟨hchecked, hresult⟩ := passes_broadcast h s
      -- only the broadcast can fail: what it gives has every element that the product asks for
      cases hbroadcast : e.broadcast s with
      | error err =>
          simp only [hchecked, hbroadcast]
          exact passes_error err
      | ok e' =>
          obtain ⟨hwell, hshape⟩ := hresult e' hbroadcast
          simp only [hchecked, hbroadcast]
          refine passes_combine hwell ⟨by simp [Recipe.elementwise], fun parts hp part hpart => ?_⟩
          obtain ⟨i, hi, rfl⟩ := List.mem_map.mp hp
          obtain rfl := List.mem_singleton.mp hpart
          rw [hwell.count_eq, hshape]
          exact List.mem_range.mp hi

theorem passes_transpose (h : e.WellFormed) :
    Passes (Operation.transpose.run e) (.ok e.transpose) := by
  refine passes_combine h (fits_tabulate fun i hi j hj part hpart => ?_)
  obtain rfl := List.mem_singleton.mp hpart
  exact h.count_eq ▸ cell_lt hj hi

theorem passes_diagonal (h : e.WellFormed) : Passes (Operation.diagonal.run e) e.diagonal := by
  unfold Operation.run diagonal
  dsimp only
  split_ifs with hvector hsquare
  · refine passes_combine h (fits_tabulate fun i hi j hj part hpart => ?_)
    split_ifs at hpart
    · obtain rfl := List.mem_singleton.mp hpart
      exact h.count_eq ▸ hi
    · cases hpart
  · refine passes_combine h ⟨by simp [Recipe.diagonal], fun parts hp part hpart => ?_⟩
    obtain ⟨i, hi, rfl⟩ := List.mem_map.mp hp
    obtain rfl := List.mem_singleton.mp hpart
    have hrows : e.shape.rows = e.shape.cols := by simpa [Shape.isSquare] using hsquare
    have hi : i < e.shape.cols := List.mem_range.mp hi
    exact h.count_eq ▸ cell_lt (hrows ▸ hi) hi
  · exact passes_error _

theorem passes_total (h : e.WellFormed) : Passes (Operation.total.run e) (.ok e.total) := by
  refine passes_combine h ⟨rfl, fun parts hp part hpart => ?_⟩
  obtain rfl := List.mem_singleton.mp hp
  obtain ⟨i, hi, rfl⟩ := List.mem_map.mp hpart
  exact List.mem_range.mp hi

theorem passes_sumAxis (h : e.WellFormed) (axis : Nat) :
    Passes ((Operation.sumAxis axis).run e) (e.sumAxis axis) := by
  unfold sumAxis
  dsimp only
  split
  · refine passes_combine h ⟨by simp [Recipe.columnSums], fun parts hp part hpart => ?_⟩
    obtain ⟨j, hj, rfl⟩ := List.mem_map.mp hp
    obtain ⟨i, hi, rfl⟩ := List.mem_map.mp hpart
    exact h.count_eq ▸ cell_lt (List.mem_range.mp hi) (List.mem_range.mp hj)
  · refine passes_combine h ⟨by simp [Recipe.rowSums], fun parts hp part hpart => ?_⟩
    obtain ⟨i, hi, rfl⟩ := List.mem_map.mp hp
    obtain ⟨j, hj, rfl⟩ := List.mem_map.mp hpart
    exact h.count_eq ▸ cell_lt (List.mem_range.mp hi) (List.mem_range.mp hj)
  · rename_i hzero hone
    rw [Operation.run]
    · exact passes_error _
    · exact hzero
    · exact hone

theorem passes_shift (h : e.WellFormed) (k : Int64) :
    Passes ((Operation.shift k).run e) (.ok (e.shift k)) := by
  refine passes_combine h (fits_tabulate fun i hi j hj part hpart => ?_)
  split_ifs at hpart with hsource
  · obtain rfl := List.mem_singleton.mp hpart
    exact h.count_eq ▸ cell_lt (by omega) hj
  · cases hpart

theorem passes_run (h : e.WellFormed) (op : Operation K) (hop : op.OperandAccepted) :
    Passes (op.run e) (op.apply e) := by
  cases op with
  | addScaled b f => exact passes_addScaled h (accepted_iff.mp hop) f
  | scale f => exact passes_scale h f
  | mulLeft a => exact passes_mulLeft h a
  | mulRight a => exact passes_mulRight h a
  | mulElementwise a => exact passes_mulElementwise h a
  | transpose => exact passes_transpose h
  | diagonal => exact passes_diagonal h
  | total => exact passes_total h
  | sumAxis axis => exact passes_sumAxis h axis
  | shift k => exact passes_shift h k

end Passing

/-- The normal form of an accepted expression, which can be written in place, has its shape and its
elements, each with the sums of its coefficients, and is its own normal form.  Operations on accepted
expressions never reach beyond their elements, and every result is accepted and in normal form. -/
theorem arithmetic_normalizes {e : Affine K} (h : e.Accepted) :
    (e.normalizeChecked = some e.normalize ∧
      e.normalize.Accepted ∧ e.normalize.shape = e.shape ∧ e.normalize.count = e.count ∧
      List.Forall₂ Normalizes e.elements e.normalize.elements ∧
      e.normalize.normalize = e.normalize) ∧
    ∀ op : Operation K, op.OperandAccepted →
      op.run e = some (op.apply e) ∧ ∀ r, op.apply e = .ok r → r.Accepted ∧ r.Normal := by
  have hwell := accepted_iff.mp h
  refine ⟨⟨hwell.normalizeChecked_eq, accepted_iff.mpr hwell.normalize, rfl, count_normalize e,
    forall₂_normalize e, (normal_normalize e).normalize_eq hwell.normalize⟩, fun op hop => ?_⟩
  have hpasses := passes_run hwell op hop
  exact ⟨hpasses.agrees, fun r hr => (hpasses.result r hr).imp_left accepted_iff.mpr⟩

namespace Stored

/-- A pair of elements added to itself by half. -/
theorem arithmetic_normalizes_pair :
    pair.Accepted ∧ pair.normalize.normalize = pair.normalize ∧
      (Operation.addScaled pair (1 / 2)).run pair = some (pair.addScaled pair (1 / 2)) :=
  have haccepted : pair.Accepted := ⟨rfl, rfl⟩
  have h := arithmetic_normalizes haccepted
  ⟨haccepted, h.1.2.2.2.2.2, (h.2 (.addScaled pair (1 / 2)) haccepted).1⟩

end Stored

end Affine

end CoupledModels
