import CoupledModels.Proofs.Catalog.Blocks

/-!
# Catalogs and their tables

A catalog that has been built stays consistent with the tables that it was built of, whatever data it
is given afterwards: its variables are those of the tables, its bindings are made of them, and its
blocks hold the rows of the tables.
-/

namespace CoupledModels.Catalog

variable {K : Type} [Scalar K] {tables : List TableDeclaration} {sets : Registry} {c d : Catalog K}

/-- A catalog says of its tables what a build makes of them. -/
structure Consistent (tables : List TableDeclaration) (sets : Registry) (c : Catalog K) : Prop where
  names : (tables.map TableDeclaration.name).Nodup
  addressed : c.Addressed
  declares : c.Declares tables sets
  bound : c.Bound
  divides : c.Divides tables sets

omit [Scalar K] in
/-- A table name leads to the coordinates of the table. -/
theorem Declares.coordinatesOf? (h : c.Declares tables sets)
    (hnames : (tables.map TableDeclaration.name).Nodup) {t : TableDeclaration} (ht : t ∈ tables) :
    c.coordinatesOf? t.name = some t.coordinates := by
  rw [Catalog.coordinatesOf?, h.coordinates]
  cases hlookup : (tables.map fun t => (t.name, t.coordinates)).lookup t.name with
  | none =>
      have hne := List.lookup_eq_none_iff.mp hlookup _ (List.mem_map_of_mem ht)
      simp at hne
  | some coordinates =>
      obtain ⟨t', ht', heq⟩ :=
        List.mem_map.mp (SortedMap.mem_entries_of_get? (m := ⟨_⟩) hlookup)
      obtain ⟨hname, rfl⟩ := Prod.mk.inj heq
      rw [List.inj_on_of_nodup_map hnames ht' ht hname]

/-- Whatever becomes of a catalog that has been built is consistent. -/
theorem consistent_of_build (h : build tables sets = .ok c) (hlater : c.Later d) :
    d.Consistent tables sets := by
  have hc := built_of_build h
  obtain ⟨hrefills, -⟩ := hlater.refills hc.addressed
  refine ⟨hc.names, hrefills.addressed hc.addressed, ⟨?_, ?_, ?_⟩, fun b hb => ?_,
    (divides_of_build h).congr hrefills.blocks⟩
  · rw [hrefills.coordinates, hc.declares.coordinates]
  · rw [hrefills.members]
    exact hc.declares.members
  · rw [hrefills.members]
    exact hc.declares.symbols
  · obtain ⟨v, hv, hbinds⟩ := hc.bound b (hrefills.bindings ▸ hb)
    refine ⟨v, hrefills.members ▸ hv, hbinds.symbol, hbinds.shape, hbinds.filter, ?_, hbinds.site⟩
    refine hbinds.refers.mono hrefills.blocks hrefills.coordinates (fun p q hq => ?_)
      fun i m hm => hrefills.constants ▸ hm
    exact hrefills.parameter hq

/-- Whatever a parameter of a catalog that has been built is given has its shape. -/
theorem fitting_of_build (h : build tables sets = .ok c) (hlater : c.Later d) : d.Fitting := by
  have hc := built_of_build h
  refine (hlater.refills hc.addressed).2 fun q hq m hm => ?_
  rw [hc.unfilled q hq] at hm
  cases hm

/-! ## Parameters and bindings -/

/-- A parameter and its binding lead to each other. -/
def Linked (c : Catalog K) : Prop :=
  ∀ (p : Nat) (q : Parameter K), c.parameters[p]? = some q →
    ∃ b : Binding, c.bindings[q.binding]? = some b ∧ b.value = .parameter p

omit [Scalar K] in
theorem Linked.push (h : c.Linked) (hparameters : d.parameters = c.parameters) {b : Binding}
    (hbindings : d.bindings = c.bindings.push b) : d.Linked := by
  intro p q hq
  obtain ⟨b', hb', hvalue⟩ := h p q (hparameters ▸ hq)
  exact ⟨b', hbindings ▸ getElem?_push_of_some hb', hvalue⟩

omit [Scalar K] in
theorem Linked.addSite (h : c.Linked) (v : Variable) (s : Site) :
    Outcome Linked AnyError (addSite v c s) := by
  unfold Catalog.addSite
  split
  · intro p q hq
    rw [pushBinding] at hq ⊢
    simp only [Array.getElem?_push] at hq
    split at hq
    · rename_i hp
      cases hq
      subst hp
      exact ⟨_, Array.getElem?_push_size, rfl⟩
    · obtain ⟨b, hb, hvalue⟩ := h p q hq
      exact ⟨b, getElem?_push_of_some hb, hvalue⟩
  · exact Outcome.bind_any fun value => h.push rfl rfl
  · trivial

/-- Every parameter is added with the binding that refers to it. -/
theorem Linked.addBindings (h : c.Linked) (keys : List ProblemKey) (v : Variable) :
    Outcome Linked AnyError (addBindings keys c v) := by
  unfold Catalog.addBindings
  split
  · exact Outcome.bind_any fun m => h.push rfl rfl
  · exact Outcome.bind_any fun ss => Outcome.foldlM h fun d hd s _ => hd.addSite v s

/-- Whatever becomes of a catalog that has been built, its parameters and their bindings are linked. -/
theorem linked_of_build (h : build tables sets = .ok c) (hlater : c.Later d) : d.Linked := by
  obtain ⟨-, c₁, htables, hbindings⟩ := build_ok h
  obtain ⟨-, -, hempty⟩ := declares_of_addTables htables
  have hlinked : c.Linked := (Outcome.foldlM (E := AnyError) (I := Linked)
    (fun p q hq => by simp [hempty] at hq) fun e he v _ =>
      he.addBindings sets.problemKeys v).value hbindings
  obtain ⟨hrefills, -⟩ := hlater.refills (build_addressed h)
  intro p q hq
  obtain ⟨q', hq', hbinding, -⟩ := hrefills.symm.parameter hq
  obtain ⟨b, hb, hvalue⟩ := hlinked p q' hq'
  exact ⟨b, by rw [hrefills.bindings, ← hbinding, hb], hvalue⟩

/-! ## Bindings and variables -/

namespace Consistent

variable (h : c.Consistent tables sets) {b : Binding}
include h

/-- Every binding is one of a variable that its symbol leads to. -/
theorem exists_variable (hb : b ∈ c.bindings) :
    ∃ v, c.variableNamed? b.symbol = some v ∧ c.Binds v b ∧
      ∃ t ∈ tables, ∃ declaration, Variable.Resolves declaration t sets v := by
  obtain ⟨v, hv, hbinds⟩ := h.bound b hb
  obtain ⟨t, ht, declaration, -, hresolves⟩ := h.declares.members v hv
  refine ⟨v, ?_, hbinds, t, ht, declaration, hresolves⟩
  rw [hbinds.symbol]
  exact h.declares.variableNamed? hv

theorem binding_id (hb : b ∈ c.bindings) : c.bindings[b.id]? = some b := by
  obtain ⟨k, hk⟩ := Array.mem_iff_getElem?.mp hb
  rwa [h.addressed.binding_id k b hk]

theorem coordinatesOf? {t : TableDeclaration} (ht : t ∈ tables) :
    c.coordinatesOf? t.name = some t.coordinates :=
  h.declares.coordinatesOf? h.names ht

end Consistent

end CoupledModels.Catalog
