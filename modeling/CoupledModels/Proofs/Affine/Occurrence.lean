import CoupledModels.Proofs.Affine.Support
import CoupledModels.Proofs.Outcome

/-!
# Variables that occur in affine expressions

Arithmetic invents no variables: those of a result are variables of its operands.  This holds of the
stored terms themselves, so nothing is asked about shapes.
-/

namespace CoupledModels

namespace Affine

variable {K : Type} {S : Nat → Prop}

/-- Every variable among some terms has a property. -/
def TermsIn (S : Nat → Prop) (ts : List (Term K)) : Prop :=
  ∀ t ∈ ts, t.1 ≠ constantTerm → S t.1

/-- Every variable of an expression has a property. -/
def VariablesIn (S : Nat → Prop) (e : Affine K) : Prop :=
  ∀ j ∈ e.subj, j ≠ constantTerm → S j

theorem VariablesIn.mem_support {e : Affine K} (h : e.VariablesIn S) {j : Nat}
    (hj : j ∈ e.support) : S j := by
  rw [support, mem_sortedDistinct, List.mem_filter] at hj
  exact h j hj.1 (by simpa using hj.2)

/-- The terms of an element are stored terms. -/
theorem VariablesIn.elements {e : Affine K} (h : e.VariablesIn S) :
    ∀ ts ∈ e.elements, TermsIn S ts := by
  intro ts hts t ht
  rw [elements_eq_slices] at hts
  obtain ⟨⟨p, q⟩, -, rfl⟩ := List.mem_map.mp hts
  have hterm : t ∈ e.subj.zip e.cof := List.mem_of_mem_drop (List.mem_of_mem_take ht)
  exact h t.1 (List.of_mem_zip hterm).1

theorem variablesIn_ofElements {s : Shape} {els : List (List (Term K))}
    (h : ∀ ts ∈ els, TermsIn S ts) : (ofElements s els).VariablesIn S := by
  intro j hj
  obtain ⟨t, ht, rfl⟩ := List.mem_map.mp hj
  obtain ⟨ts, hts, ht⟩ := List.mem_flatten.mp ht
  exact h ts hts t ht

theorem TermsIn.append {ts us : List (Term K)} (ht : TermsIn S ts) (hu : TermsIn S us) :
    TermsIn S (ts ++ us) :=
  List.forall_mem_append.mpr ⟨ht, hu⟩

variable [Scalar K]

theorem TermsIn.scaled {ts : List (Term K)} (h : TermsIn S ts) (f : K) :
    TermsIn S (ts.map fun (j, c) => (j, c * f)) := by
  intro t ht
  obtain ⟨u, hu, rfl⟩ := List.mem_map.mp ht
  exact h u hu

theorem TermsIn.normalizeTerms {ts : List (Term K)} (h : TermsIn S ts) :
    TermsIn S (normalizeTerms ts) := by
  intro t ht
  obtain ⟨ht, -⟩ := Entry.mem_dropZeros_iff.mp ht
  obtain ⟨u, hu, heq⟩ := Entry.mem_collect ht
  exact heq ▸ h u hu

/-! ## Expressions without operands -/

omit [Scalar K] in
theorem variablesIn_scalar (v : K) : (scalar v).VariablesIn S := by
  simp [VariablesIn, scalar]

theorem variablesIn_ofMatrix (m : Matrix K) : (ofMatrix m).VariablesIn S := by
  intro j hj hne
  exact absurd (List.mem_replicate.mp hj).2 hne

theorem variablesIn_ofVariables {s : Shape} {columns : List Nat}
    (h : ∀ column ∈ columns, S column) :
    Outcome (VariablesIn S) AnyError (ofVariables (K := K) s columns) := by
  unfold ofVariables
  split
  · trivial
  split
  · trivial
  · exact fun j hj _ => h j hj

/-! ## Arithmetic -/

namespace VariablesIn

variable {e a b : Affine K}

/-- Whatever a recipe combines, it combines elements. -/
theorem combine (h : e.VariablesIn S) (s : Shape) (recipe : List (List (Nat × K))) :
    (e.combine s recipe).VariablesIn S := by
  refine variablesIn_ofElements fun ts hts => ?_
  obtain ⟨parts, -, rfl⟩ := List.mem_map.mp hts
  refine TermsIn.normalizeTerms fun u hu => ?_
  obtain ⟨⟨src, f⟩, -, hu⟩ := List.mem_flatMap.mp hu
  have hsrc : TermsIn S (e.elements.toArray.getD src []) := by
    rw [Array.getD_eq_getD_getElem?, List.getElem?_toArray]
    cases hget : e.elements[src]? with
    | none => simp [TermsIn]
    | some ts => exact h.elements ts (List.mem_of_getElem? hget)
  exact hsrc.scaled f u hu

theorem broadcast (h : e.VariablesIn S) (s : Shape) :
    Outcome (VariablesIn S) AnyError (e.broadcast s) := by
  unfold Affine.broadcast
  split
  · exact h
  split
  · exact h.combine _ _
  · trivial

theorem addScaled (ha : a.VariablesIn S) (hb : b.VariablesIn S) (f : K) :
    Outcome (VariablesIn S) AnyError (a.addScaled b f) := by
  unfold Affine.addScaled
  split
  · trivial
  rename_i s _
  refine (ha.broadcast s).bind fun a ha => (hb.broadcast s).bind fun b hb => ?_
  refine variablesIn_ofElements fun ts hts => ?_
  obtain ⟨⟨l, r⟩, hmem, rfl⟩ := List.mem_map.mp hts
  obtain ⟨hl, hr⟩ := List.of_mem_zip hmem
  exact ((ha.elements l hl).append ((hb.elements r hr).scaled f)).normalizeTerms

theorem normalize (h : e.VariablesIn S) : e.normalize.VariablesIn S := by
  refine variablesIn_ofElements fun ts hts => ?_
  obtain ⟨us, hus, rfl⟩ := List.mem_map.mp hts
  exact (h.elements us hus).normalizeTerms

theorem scale (h : e.VariablesIn S) (f : K) : (e.scale f).VariablesIn S := by
  have hscaled : ({ e with cof := e.cof.map (· * f) } : Affine K).VariablesIn S := h
  exact hscaled.normalize

theorem mulLeft (h : e.VariablesIn S) (m : Matrix K) :
    Outcome (VariablesIn S) AnyError (e.mulLeft m) := by
  unfold Affine.mulLeft
  dsimp only
  split
  · trivial
  · exact h.combine _ _

theorem mulRight (h : e.VariablesIn S) (m : Matrix K) :
    Outcome (VariablesIn S) AnyError (e.mulRight m) := by
  unfold Affine.mulRight
  dsimp only
  split
  · trivial
  · exact h.combine _ _

theorem mulElementwise (h : e.VariablesIn S) (m : Matrix K) :
    Outcome (VariablesIn S) AnyError (e.mulElementwise m) := by
  unfold Affine.mulElementwise
  split
  · trivial
  · exact (h.broadcast _).bind fun e he => he.combine _ _

theorem diagonal (h : e.VariablesIn S) : Outcome (VariablesIn S) AnyError e.diagonal := by
  unfold Affine.diagonal
  split
  · exact h.combine _ _
  split
  · exact h.combine _ _
  · trivial

theorem sumAxis (h : e.VariablesIn S) (axis : Nat) :
    Outcome (VariablesIn S) AnyError (e.sumAxis axis) := by
  unfold Affine.sumAxis
  dsimp only
  split
  · exact h.combine _ _
  · exact h.combine _ _
  · trivial

end VariablesIn

end Affine

end CoupledModels
