import CoupledModels.Formula.Lowering
import CoupledModels.Proofs.Affine.Occurrence
import CoupledModels.Proofs.Formula.Typing

/-!
# Bindings that formulas name

A compiled formula names bindings by their numbers.  Each of them is one that the catalog selects for
the sub-problem that the formula has been compiled for, and the formula is lowered to an expression
in the columns of these bindings alone.
-/

namespace CoupledModels

variable {K : Type}

namespace Typed

/-- The numbers of the bindings in a tree. -/
def names : Typed K → List Nat
  | number _ | data _ => []
  | binding _ id => [id]
  | negate _ e | transpose _ e | diagonal _ e | sum _ e _ | shift _ e _ | power _ e _
  | inverse _ e => e.names
  | add _ l r | sub _ l r | scale _ l r | matmul _ l r | elementwise _ l r
  | weibull _ l r _ _ => l.names ++ r.names

/-- A well-typed tree names bindings that have their own numbers. -/
theorem WellTyped.binding_of_mem_names {bs : Array Binding} {e : Typed K} (h : e.WellTyped bs)
    {id : Nat} (hid : id ∈ e.names) : ∃ b, bs[id]? = some b ∧ b.id = id := by
  induction h with
  | number | data => simp [names] at hid
  | binding hb =>
      obtain rfl := List.mem_singleton.mp hid
      exact ⟨_, hb, rfl⟩
  | negate _ ih | transpose _ ih | diagonalMatrix _ _ ih | diagonalColumn _ _ _ ih | total _ ih
  | columnSums _ ih | rowSums _ ih | shift _ _ ih | power _ _ _ ih | inverse _ _ _ ih =>
      exact ih hid
  | add _ _ _ ihl ihr | sub _ _ _ ihl ihr | scale _ _ _ _ ihl ihr | matmul _ _ _ _ ihl ihr
  | elementwise _ _ _ _ ihl ihr | weibull _ _ _ _ _ _ _ ihl ihr =>
      rcases List.mem_append.mp hid with hid | hid
      · exact ihl hid
      · exact ihr hid

/-! ## Lowering -/

section Lowering

variable [Scalar K] [Transcendental K] {c : Catalog K} {S : Nat → Prop}

omit [Transcendental K] in
theorem outcome_lift_any {α : Type} {P : α → Prop} {r : Except ArrayError α}
    (h : Outcome P AnyError r) : Outcome P AnyError (lift r) :=
  h.mapError fun _ _ => trivial

omit [Transcendental K] in
theorem outcome_lowerBinding {id : Nat}
    (h : ∀ b, c.bindings[id]? = some b → ∀ i columns, b.value = .slice i columns →
      ∀ column ∈ columns, S column) :
    Outcome (Affine.VariablesIn S) AnyError (lowerBinding c id) := by
  unfold lowerBinding
  split
  · trivial
  rename_i b hb
  split
  · rename_i i columns hvalue
    exact outcome_lift_any (Affine.variablesIn_ofVariables (h b hb i columns hvalue))
  · exact (Outcome.of_forall (P := fun _ => True) fun _ _ => trivial).map fun m _ =>
      Affine.variablesIn_ofMatrix m
  · split
    · exact Affine.variablesIn_ofMatrix _
    · trivial

/-- A tree is lowered to an expression in the columns of the bindings that it names. -/
theorem outcome_lower_names (e : Typed K)
    (h : ∀ id ∈ e.names, ∀ b, c.bindings[id]? = some b → ∀ i columns,
      b.value = .slice i columns → ∀ column ∈ columns, S column) :
    Outcome (Affine.VariablesIn S) AnyError (e.lower c) := by
  -- an operation has the columns of its operands; what is evaluated to data has none left
  induction e with
  | number v => exact Affine.variablesIn_scalar v
  | data m => exact Affine.variablesIn_ofMatrix m
  | binding type id => exact outcome_lowerBinding (h id (List.mem_singleton_self id))
  | negate type e ih => exact (ih h).bind fun a ha => ha.scale _
  | transpose type e ih => exact (ih h).bind fun a ha => ha.combine _ _
  | shift type e k ih => exact (ih h).bind fun a ha => ha.combine _ _
  | diagonal type e ih => exact (ih h).bind fun a ha => outcome_lift_any ha.diagonal
  | sum type e axis ih =>
      cases axis with
      | none => exact (ih h).bind fun a ha => ha.combine _ _
      | some axis => exact (ih h).bind fun a ha => outcome_lift_any (ha.sumAxis axis)
  | power type e p ih => exact Outcome.bind_any fun a => Affine.variablesIn_ofMatrix _
  | inverse type e ih =>
      exact Outcome.bind_any fun a => Outcome.bind_any fun m => Affine.variablesIn_ofMatrix m
  | weibull type l r n dims ihl ihr =>
      refine Outcome.bind_any fun a => Outcome.bind_any fun b => ?_
      split
      · exact Affine.variablesIn_ofMatrix _
      · trivial
  | add type l r ihl ihr =>
      obtain ⟨hl, hr⟩ := List.forall_mem_append.mp h
      exact (ihl hl).bind fun a ha => (ihr hr).bind fun b hb => outcome_lift_any (ha.addScaled hb _)
  | sub type l r ihl ihr =>
      obtain ⟨hl, hr⟩ := List.forall_mem_append.mp h
      exact (ihl hl).bind fun a ha => (ihr hr).bind fun b hb => outcome_lift_any (ha.addScaled hb _)
  | scale type l r ihl ihr | elementwise type l r ihl ihr =>
      obtain ⟨hl, hr⟩ := List.forall_mem_append.mp h
      rw [lower]
      split
      · exact (ihl hl).bind fun a ha => Outcome.bind_any fun m =>
          outcome_lift_any (ha.mulElementwise m)
      · exact (ihr hr).bind fun a ha => Outcome.bind_any fun m =>
          outcome_lift_any (ha.mulElementwise m)
  | matmul type l r ihl ihr =>
      obtain ⟨hl, hr⟩ := List.forall_mem_append.mp h
      rw [lower]
      split
      · exact (ihl hl).bind fun a ha => Outcome.bind_any fun m => outcome_lift_any (ha.mulRight m)
      · exact (ihr hr).bind fun a ha => Outcome.bind_any fun m => outcome_lift_any (ha.mulLeft m)

end Lowering

end Typed

namespace Form

/-- The trees of a form. -/
def trees : Form K → List (Typed K)
  | constraint l _ r => [l, r]
  | objective _ e | value e => [e]

theorem WellTyped.of_mem_trees {bs : Array Binding} {f : Form K} (h : f.WellTyped bs)
    {e : Typed K} (he : e ∈ f.trees) : e.WellTyped bs := by
  cases h with
  | constraint rel hl hr hs =>
      rcases List.mem_pair.mp he with rfl | rfl
      · exact hl
      · exact hr
  | objective sense htyped hs => exact List.mem_singleton.mp he ▸ htyped
  | value htyped => exact List.mem_singleton.mp he ▸ htyped

end Form

namespace Formula

/-! ## Typing -/

/-- Bindings outside a scope under wrong numbers, so that no well-typed tree can name them. -/
def Scope.only (s : Scope) (bs : Array Binding) : Array Binding :=
  bs.map fun b => if b ∈ s.bindings.map Prod.snd then b else { b with id := b.id + 1 }

/-- What a statement is typed to names bindings of the scope. -/
theorem names_of_typeStatement [Scalar K] [Transcendental K] {s : Scope} {bs : Array Binding}
    (hs : s.In bs) (hids : ∀ (i : Nat) (b : Binding), bs[i]? = some b → b.id = i)
    {st : Statement K} {f : Form K} (h : typeStatement s st = .ok f) {e : Typed K}
    (he : e ∈ f.trees) {id : Nat} (hid : id ∈ e.names) : ∃ entry ∈ s.bindings, entry.2.id = id := by
  have hin : s.In (s.only bs) := by
    intro entry hentry
    have hmem : entry.2 ∈ s.bindings.map Prod.snd := List.mem_map_of_mem hentry
    rw [Scope.only, Array.getElem?_map, hs entry hentry, Option.map_some, if_pos hmem]
  -- the form is well typed over the scope alone, where the numbers of all other bindings are wrong
  have htyped : f.WellTyped (s.only bs) := (outcome_typeStatement hin st).value h
  obtain ⟨b, hb, hbid⟩ := (htyped.of_mem_trees he).binding_of_mem_names hid
  rw [Scope.only, Array.getElem?_map, Option.map_eq_some_iff] at hb
  obtain ⟨b', hb', heq⟩ := hb
  have hown : b'.id = id := hids id b' hb'
  by_cases hmem : b' ∈ s.bindings.map Prod.snd
  · obtain ⟨entry, hentry, rfl⟩ := List.mem_map.mp hmem
    exact ⟨entry, hentry, hown⟩
  · rw [if_neg hmem] at heq
    subst heq
    simp only at hbid
    omega

/-! ## Compiling -/

variable {c : Catalog K} {text : String} {key : ProblemKey}

/-- Names are tied to candidates for the sub-problem, and each of them is the only one. -/
theorem bindNames_ok {item : Option String} {names : List String}
    {entries : List (String × Binding)}
    (h : bindNames c text key item names = .ok (some entries)) :
    ∀ entry ∈ entries, ∃ restrict, c.candidates entry.1 key restrict = [entry.2] := by
  -- each name is tied on its own: it is found and has one candidate, or all fail
  induction names generalizing entries with
  | nil =>
      cases h
      exact nofun
  | cons symbol rest ih =>
      unfold bindNames at h
      split at h
      · cases h
      dsimp only at h
      split at h
      · cases h
      · rename_i b hcandidates
        obtain ⟨found, hfound, heq⟩ := exists_of_bind_eq_ok h
        obtain ⟨known, rfl, rfl⟩ := Option.map_eq_some_iff.mp (Except.ok.inj heq)
        intro entry hentry
        rcases List.mem_cons.mp hentry with rfl | hentry
        · exact ⟨_, hcandidates⟩
        · exact ih hfound entry hentry
      · cases h

theorem mem_candidates_iff {symbol : String} {intra : Option String} {b : Binding} :
    b ∈ c.candidates symbol key intra ↔ b ∈ c.bindings ∧ b.symbol = symbol ∧
      b.appliesTo key = true ∧ (intra = none ∨ b.intra = intra) := by
  simp only [Catalog.candidates, Catalog.bindingsOf, List.mem_filter, Array.mem_toList_iff,
    beq_iff_eq, Bool.and_eq_true, Bool.or_eq_true, Option.isNone_iff_eq_none, and_assoc]

variable [Scalar K] [Transcendental K]

/-- An instance of a text has been typed with bindings that the text's names are tied to. -/
theorem compile_ok {instances : List (Instance K)} (h : compile c text key = .ok instances) :
    ∃ statement, parse (K := K) text = .ok statement ∧ ∀ i ∈ instances, ∃ entries,
      bindNames c text key i.intra statement.names = .ok (some entries) ∧
      typeStatement ⟨text, entries⟩ statement = .ok i.form := by
  unfold compile at h
  obtain ⟨statement, hparse, h⟩ := exists_of_bind_eq_ok h
  obtain ⟨intra, -, h⟩ := exists_of_bind_eq_ok h
  obtain ⟨found, hfound, heq⟩ := exists_of_bind_eq_ok h
  cases heq
  refine ⟨statement, ok_of_mapError hparse, fun i hi => ?_⟩
  obtain ⟨r, hr, rfl⟩ := List.mem_filterMap.mp hi
  obtain ⟨item, -, hitem⟩ := exists_left_of_forall₂ (forall₂_of_mapM hfound) hr
  obtain ⟨bound, hbound, hitem⟩ := exists_of_bind_eq_ok hitem
  cases bound with
  | none => cases hitem
  | some entries =>
      obtain ⟨form, hform, heq⟩ := exists_of_bind_eq_ok hitem
      cases heq
      exact ⟨entries, hbound, ok_of_mapError hform⟩

/-- Every binding that a compiled text names is one for the sub-problem. -/
theorem names_of_compile (hc : c.Addressed) {instances : List (Instance K)}
    (h : compile c text key = .ok instances) {i : Instance K} (hi : i ∈ instances) {e : Typed K}
    (he : e ∈ i.form.trees) {id : Nat} (hid : id ∈ e.names) :
    ∃ b, c.bindings[id]? = some b ∧ b.appliesTo key = true := by
  obtain ⟨statement, -, hinstances⟩ := compile_ok h
  obtain ⟨entries, hentries, htyped⟩ := hinstances i hi
  have hin : (Scope.mk text entries).In c.bindings :=
    (outcome_bindNames hc text key i.intra statement.names).value hentries entries rfl
  obtain ⟨entry, hentry, rfl⟩ := names_of_typeStatement hin hc.binding_id htyped he hid
  obtain ⟨restrict, hcandidates⟩ := bindNames_ok hentries entry hentry
  have hmem : entry.2 ∈ c.candidates entry.1 key restrict := by
    rw [hcandidates]
    exact List.mem_singleton_self _
  exact ⟨entry.2, hin entry hentry, (mem_candidates_iff.mp hmem).2.2.1⟩

end Formula

end CoupledModels
