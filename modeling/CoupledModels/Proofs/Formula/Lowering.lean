import CoupledModels.Formula.Lowering
import CoupledModels.Proofs.Affine.Typing
import CoupledModels.Proofs.Catalog.Contents
import CoupledModels.Proofs.Formula.Typing

/-!
# Lowering keeps types

A well-typed tree is lowered to an expression of its type, or one of its nodes fails for a reason
that lies in the data: `Typed.FailsAt` says which nodes can fail, and on what.  There is one step
for each kind of node, and the induction is over the typing rules.
-/

namespace CoupledModels

variable {K : Type} [Scalar K] [Transcendental K]

namespace Typed

/-! ## Numbers -/

omit [Transcendental K] in
/-- An expression without variables has a matrix of its shape. -/
theorem numbers_ok {a : Affine K} {t : FormulaType} (h : a.HasType t) (hdata : t.linear = false) :
    ∃ m, numbers a = .ok m ∧ m.HasShape t.shape := by
  have hconst : a.isConstant = true := h.isConstant hdata
  have hlen := h.wellFormed.length_elements
  rw [numbers, h.wellFormed.constantValue?_eq hconst, ← h.shape]
  exact ⟨_, rfl, Tensor.HasShape.dense (by simpa using hlen)⟩

variable {d : Catalog K}

/-! ## Failures of the data -/

/-- The node itself fails, with the data of a catalog: it is a parameter that has not been filled,
the inverse of an argument that is singular, or a lifetime distribution whose arguments are
rejected.  No other node fails by itself. -/
inductive FailsAt (d : Catalog K) : Typed K → ModelError → Prop
  | missing {t : FormulaType} {id p : Nat} {b : Binding} {q : Parameter K}
      (hb : d.bindings[id]? = some b) (hparameter : b.value = .parameter p)
      (hq : d.parameters[p]? = some q) (hvalue : q.value = none) :
      FailsAt d (.binding t id) (.missing (.parameter (d.symbolOf q.binding) q.table))
  | singular {t : FormulaType} {e : Typed K} {m : Matrix K} (hvalue : e.value d = .ok m)
      (hinverse : Matrix.inverse m = .error .singular) :
      FailsAt d (.inverse t e) (.expression (.array .singular))
  | weibull {t : FormulaType} {l r : Typed K} {n dims : Nat} {a b : Matrix K} {cause : WeibullError}
      (hl : l.value d = .ok a) (hr : r.value d = .ok b)
      (hrejected : Weibull.distribution (a.get 0 0) (b.get 0 0) n dims = .error cause) :
      FailsAt d (.weibull t l r n dims) (.expression (.weibull cause))

/-- One of the nodes of a tree fails. -/
def DataFailure (d : Catalog K) (e : Typed K) (err : ModelError) : Prop :=
  ∃ n ∈ e.nodes, n.FailsAt d err

/-- The failures of the nodes of a tree are among those of `E`. -/
def FailsWithin (d : Catalog K) (E : ModelError → Prop) (e : Typed K) : Prop :=
  ∀ n ∈ e.nodes, ∀ err, n.FailsAt d err → E err

namespace FailsWithin

variable {d : Catalog K} {E : ModelError → Prop} {p e l r : Typed K}

theorem self (h : p.FailsWithin d E) {err : ModelError} (hfails : p.FailsAt d err) : E err :=
  h p (by unfold nodes; exact List.mem_cons_self) err hfails

theorem operand (h : p.FailsWithin d E) (hnodes : p.nodes = p :: e.nodes) : e.FailsWithin d E :=
  fun n hn => h n (hnodes ▸ List.mem_cons_of_mem _ hn)

theorem left (h : p.FailsWithin d E) (hnodes : p.nodes = p :: (l.nodes ++ r.nodes)) :
    l.FailsWithin d E :=
  fun n hn => h n (hnodes ▸ List.mem_cons_of_mem _ (List.mem_append_left _ hn))

theorem right (h : p.FailsWithin d E) (hnodes : p.nodes = p :: (l.nodes ++ r.nodes)) :
    r.FailsWithin d E :=
  fun n hn => h n (hnodes ▸ List.mem_cons_of_mem _ (List.mem_append_right _ hn))

end FailsWithin

/-! ## Outcomes -/

/-- Lowering a tree gives an expression of its type, or a failure among those of `E`. -/
def Lowers (d : Catalog K) (E : ModelError → Prop) (e : Typed K) : Prop :=
  Outcome (fun a => Affine.HasType a e.type) E (e.lower d)

variable {E : ModelError → Prop}

omit [Transcendental K] in
theorem outcome_lift {α : Type} {P : α → Prop} {r : Except ArrayError α}
    (h : ∃ a, r = .ok a ∧ P a) : Outcome P E (lift r) := by
  obtain ⟨a, rfl, ha⟩ := h
  exact ha

/-- The numbers of a tree without decision variables. -/
theorem Lowers.value {e : Typed K} (h : e.Lowers d E) (hdata : e.linear = false) :
    Outcome (fun m => Tensor.HasShape m e.shape) E (e.value d) :=
  h.bind fun a ha => by
    obtain ⟨m, hm, hshape⟩ := numbers_ok ha hdata
    exact Outcome.of_ok hm hshape

/-! ## Bindings -/

omit [Scalar K] [Transcendental K] in
/-- The value of a parameter, or what it means that there is none. -/
theorem outcome_parameterValue {p : Nat} {q : Parameter K} (hd : d.WellShaped)
    (hq : d.parameters[p]? = some q)
    (hmissing : q.value = none → E (.missing (.parameter (d.symbolOf q.binding) q.table))) :
    Outcome (fun m => Tensor.HasShape m q.shape) E (d.parameterValue p) := by
  have hmem : q ∈ d.parameters := Array.mem_of_getElem? hq
  unfold Catalog.parameterValue
  rw [hq]
  dsimp only
  split
  · exact hd.parameter q hmem _ ‹_›
  · exact hmissing ‹_›

omit [Transcendental K] in
theorem hasType_ofMatrix {m : Matrix K} {s : Shape} (h : m.HasShape s) :
    (Affine.ofMatrix m).HasType ⟨s, false⟩ := by
  obtain ⟨hvalid, rfl⟩ := h
  exact Affine.HasType.ofMatrix hvalid

theorem lowers_binding (hd : d.Sound) {b : Binding} (hb : d.bindings[b.id]? = some b)
    (hE : (Typed.binding ⟨b.shape, b.isDecision⟩ b.id).FailsWithin d E) :
    (Typed.binding ⟨b.shape, b.isDecision⟩ b.id).Lowers d E := by
  have hadmits := hd.addressed.admits b.id b hb
  have hmem : b ∈ d.bindings := Array.mem_of_getElem? hb
  unfold Lowers
  simp only [lower, lowerBinding, hb, type, Binding.isDecision]
  cases hvalue : b.value with
  | slice block columns =>
      rw [hvalue] at hadmits
      have hlen := hd.wellShaped.slice b hmem block columns hvalue
      exact outcome_lift (Affine.HasType.ofVariables hlen hadmits)
  | parameter p =>
      rw [hvalue] at hadmits
      obtain ⟨q, hq, hs⟩ := hadmits
      have hmissing hnone := hE.self (.missing hb hvalue hq hnone)
      exact (outcome_parameterValue hd.wellShaped hq hmissing).map fun m hm =>
        hasType_ofMatrix (hs ▸ hm)
  | constant i =>
      rw [hvalue] at hadmits
      have hget := Array.getElem?_eq_getElem hadmits
      have hshape := hd.wellShaped.constant b hmem i _ hvalue hget
      simp only [hget]
      exact hasType_ofMatrix hshape

/-! ## Products -/

variable {l r : Typed K}

/-- A product element by element.  The operand that may have variables is the one that is kept as an
expression. -/
theorem outcome_elementwise (hl : l.Lowers d E) (hr : r.Lowers d E)
    (hdata : l.linear = false ∨ r.linear = false) {s : Shape}
    (hs : Shape.broadcast? l.shape r.shape = some s) (t : FormulaType) :
    Outcome (fun a => Affine.HasType a ⟨s, l.linear || r.linear⟩) E
      ((Typed.elementwise t l r).lower d) := by
  rw [lower]
  split
  · rename_i hlinear
    have hrdata : r.linear = false := hdata.resolve_left (by simp [hlinear])
    refine hl.bind fun e he => (hr.value hrdata).bind fun m hm => outcome_lift ?_
    rw [← hm.shape] at hs
    rw [hrdata, Bool.or_false]
    exact he.mulElementwise hs
  · rename_i hlinear
    have hldata : l.linear = false := by simpa using hlinear
    refine hr.bind fun e he => (hl.value hldata).bind fun m hm => outcome_lift ?_
    rw [← hm.shape] at hs
    rw [hldata, Bool.false_or]
    exact he.mulElementwise (Shape.broadcast?_comm hs)

theorem outcome_matmul (hl : l.Lowers d E) (hr : r.Lowers d E)
    (hdata : l.linear = false ∨ r.linear = false) (hs : l.shape.cols = r.shape.rows)
    (t : FormulaType) :
    Outcome (fun a => Affine.HasType a ⟨⟨l.shape.rows, r.shape.cols⟩, l.linear || r.linear⟩)
      E ((Typed.matmul t l r).lower d) := by
  rw [lower]
  split
  · rename_i hlinear
    have hrdata : r.linear = false := hdata.resolve_left (by simp [hlinear])
    refine hl.bind fun e he => (hr.value hrdata).bind fun m hm => outcome_lift ?_
    rw [← hm.shape] at hs ⊢
    rw [hrdata, Bool.or_false]
    exact he.mulRight hs
  · rename_i hlinear
    have hldata : l.linear = false := by simpa using hlinear
    refine hr.bind fun e he => (hl.value hldata).bind fun m hm => outcome_lift ?_
    rw [← hm.shape] at hs ⊢
    rw [hldata, Bool.false_or]
    exact he.mulLeft hs

/-! ## Trees -/

/-- Well-typed trees are lowered to expressions of their types, unless one of their nodes fails.
The failures are left open, so that an operand may be lowered with those of the tree around it. -/
theorem WellTyped.lowers_of (hd : d.Sound) {e : Typed K} (h : e.WellTyped d.bindings)
    (hE : e.FailsWithin d E) : e.Lowers d E := by
  induction h with
  | number v => exact Affine.HasType.scalar v
  | binding hb => exact lowers_binding hd hb hE
  | data valid => exact Affine.HasType.ofMatrix valid
  | negate _ ih => exact (ih (hE.operand rfl)).bind fun a ha => ha.negate
  | add _ _ hs ihl ihr =>
      exact (ihl (hE.left rfl)).bind fun a ha => (ihr (hE.right rfl)).bind fun b hb =>
        outcome_lift (ha.add hb hs)
  | sub _ _ hs ihl ihr =>
      exact (ihl (hE.left rfl)).bind fun a ha => (ihr (hE.right rfl)).bind fun b hb =>
        outcome_lift (ha.sub hb hs)
  | scale _ _ hdata hs ihl ihr =>
      have hs := Shape.broadcast?_of_isScalar hs
      exact outcome_elementwise (ihl (hE.left rfl)) (ihr (hE.right rfl)) hdata hs default
  | matmul _ _ hdata hs ihl ihr =>
      exact outcome_matmul (ihl (hE.left rfl)) (ihr (hE.right rfl)) hdata hs _
  | elementwise _ _ hdata hs ihl ihr =>
      exact outcome_elementwise (ihl (hE.left rfl)) (ihr (hE.right rfl)) hdata hs _
  | transpose _ ih => exact (ih (hE.operand rfl)).bind fun a ha => ha.transpose
  | diagonalMatrix _ hv ih =>
      exact (ih (hE.operand rfl)).bind fun a ha => outcome_lift (ha.diagonal_vector hv)
  | diagonalColumn _ hv hs ih =>
      exact (ih (hE.operand rfl)).bind fun a ha => outcome_lift (ha.diagonal_square hv hs)
  | total _ ih => exact (ih (hE.operand rfl)).bind fun a ha => ha.total
  | columnSums _ ih => exact (ih (hE.operand rfl)).bind fun a ha => outcome_lift ha.sumAxis_zero
  | rowSums _ ih => exact (ih (hE.operand rfl)).bind fun a ha => outcome_lift ha.sumAxis_one
  | shift _ k ih => exact (ih (hE.operand rfl)).bind fun a ha => ha.shift k
  | power _ hdata p ih =>
      refine ((ih (hE.operand rfl)).value hdata).bind fun m hm => hasType_ofMatrix ?_
      have hsize := hm.valid.size_elements
      exact ⟨Tensor.valid_dense_iff.mpr (by simpa using hsize), hm.shape⟩
  | inverse _ hdata hs ih =>
      refine ((ih (hE.operand rfl)).value hdata).bind_of_eq fun m hvalue hm => ?_
      -- A square matrix fails to have an inverse only if it is singular.
      rw [← hm.shape] at hs
      rcases (Matrix.outcome_inverse hs).cases with ⟨inv, hinv, hshape⟩ | ⟨err, herr, rfl⟩
      · simp only [hinv, lift]
        exact hasType_ofMatrix (hm.shape ▸ hshape)
      · simp only [herr, lift]
        exact hE.self (.singular hvalue herr)
  | weibull _ _ hldata hrdata _ _ hdims ihl ihr =>
      refine ((ihl (hE.left rfl)).value hldata).bind_of_eq fun a hl _ => ?_
      refine ((ihr (hE.right rfl)).value hrdata).bind_of_eq fun b hr _ => ?_
      split
      · exact hasType_ofMatrix ((Weibull.outcome_distribution _ _ hdims).value ‹_›)
      · exact hE.self (.weibull hl hr ‹_›)

/-- Well-typed trees are lowered to expressions of their types, unless the data fails. -/
theorem WellTyped.lowers (hd : d.Sound) {e : Typed K} (h : e.WellTyped d.bindings) :
    e.Lowers d (e.DataFailure d) :=
  h.lowers_of hd fun n hn _ hfails => ⟨n, hn, hfails⟩

end Typed

end CoupledModels
