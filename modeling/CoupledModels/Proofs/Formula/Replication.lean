import CoupledModels.Proofs.Formula.Ambiguity
import CoupledModels.Proofs.Formula.Renaming
import CoupledModels.Proofs.Formula.Replicas

/-!
# Replicated texts

There are instances of a text for all items that it is replicated over, or there is none.  The
bindings that a name stands for in two instances are bindings of one variable for one sub-problem, so
they have the same shape and the same kind, and the instances differ in the numbers of bindings only.
-/

namespace CoupledModels.Formula

variable {K : Type} {c d : Catalog K} {names : List String} {text : String} {key : ProblemKey}

/-! ## Renaming between instances -/

/-- The numbers that the bindings of names have in another instance. -/
def renumber (c : Catalog K) (bindings : List (String × Binding)) (id : Nat) : Nat :=
  match bindings.lookup (c.symbolOf id) with
  | some b => b.id
  | none => id

/-- What names are bound to in an instance. -/
structure Ties (c : Catalog K) (names : List String) (key : ProblemKey) (item : Option String)
    (bindings : List (String × Binding)) : Prop where
  listed : bindings.map Prod.fst = names
  bound : ∀ e ∈ bindings, BoundTo c names key item e.1 e.2

namespace Ties

variable {x y : Option String} {bs bs' : List (String × Binding)} {n : String}

/-- A name of the text is found, and no other one. -/
theorem lookup (h : Ties c names key x bs) (n : String) :
    n ∉ names ∧ bs.lookup n = none ∨
      ∃ b, n ∈ names ∧ bs.lookup n = some b ∧ BoundTo c names key x n b := by
  cases hlookup : bs.lookup n with
  | none =>
      refine .inl ⟨fun hn => ?_, rfl⟩
      rw [← h.listed] at hn
      obtain ⟨e, he, rfl⟩ := List.mem_map.mp hn
      simpa using List.lookup_eq_none_iff.mp hlookup e he
  | some b =>
      have hmem : (n, b) ∈ bs := SortedMap.mem_entries_of_get? (m := ⟨bs⟩) hlookup
      exact .inr ⟨b, h.listed ▸ List.mem_map_of_mem hmem, rfl, h.bound _ hmem⟩

section Renumber

variable [Scalar K] {tables : List TableDeclaration} {sets : Registry}
  (hc : c.Consistent tables sets)
include hc

theorem renumber_eq (h : Ties c names key y bs) {b b' : Binding} (hn : n ∈ names)
    (hb : BoundTo c names key x n b) (hb' : BoundTo c names key y n b') :
    renumber c bs b.id = b'.id := by
  have hsymbol : c.symbolOf b.id = n := by
    rw [Catalog.symbolOf, hc.binding_id hb.mem]
    exact hb.symbol
  rw [renumber, hsymbol]
  rcases h.lookup n with ⟨hnot, -⟩ | ⟨b₁, -, hlookup, hb₁⟩
  · exact absurd hn hnot
  · rw [hlookup, hb'.only b₁ hb₁.mem hb₁.symbol hb₁.applies hb₁.intra]

/-- The scopes of two instances differ in the numbers of bindings only. -/
theorem renamed (hplaced : ∀ v ∈ c.members, c.Placed sets.problemKeys v)
    (h : Ties c names key x bs) (h' : Ties c names key y bs') (text : String) :
    Scope.Renamed (renumber c bs') ⟨text, bs⟩ ⟨text, bs'⟩ := by
  refine ⟨rfl, fun n => ?_⟩
  rcases h.lookup n with ⟨hnot, hnone⟩ | ⟨b, hn, hlookup, hb⟩
  · refine .inl ⟨hnone, ?_⟩
    exact (h'.lookup n).elim (·.2) fun ⟨_, hn, _⟩ => absurd hn hnot
  · obtain ⟨b', -, hlookup', hb'⟩ := (h'.lookup n).resolve_left fun hnot => hnot.1 hn
    -- both are bindings of one variable, which gives them their shape and their kind
    obtain ⟨v, hv, hbinds, -⟩ := hc.exists_variable hb.mem
    obtain ⟨v', hv', hbinds', -⟩ := hc.exists_variable hb'.mem
    obtain rfl : v = v' :=
      Option.some.inj (hv.symm.trans ((hb.symbol.trans hb'.symbol.symm) ▸ hv'))
    have hmem : ∀ {a : Binding}, a ∈ c.bindings → a.symbol = v.symbol →
        a ∈ c.bindingsOf v.symbol := fun ha hs =>
      List.mem_filter.mpr ⟨Array.mem_toList_iff.mpr ha, beq_iff_eq.mpr hs⟩
    have hplacedV := hplaced v (List.mem_of_find?_eq_some hv)
    have hdecision := hplacedV.isDecision_iff (hmem hb.mem hbinds.symbol) hb.applies
    have hdecision' := hplacedV.isDecision_iff (hmem hb'.mem hbinds'.symbol) hb'.applies
    exact .inr ⟨b, b', hlookup, hlookup', hbinds'.shape.trans hbinds.shape.symm,
      Bool.eq_iff_iff.mpr (hdecision'.trans hdecision.symm), (h'.renumber_eq hc hn hb hb').symm⟩

end Renumber

end Ties

/-! ## Instances -/

section Instances

variable [Scalar K] [Transcendental K] {st : Statement K}

/-- The instance of a statement for an item, if its names are tied to bindings there. -/
def instanceAt (c : Catalog K) (text : String) (key : ProblemKey) (st : Statement K)
    (item : Option String) : Except ModelError (Option (Instance K)) := do
  match ← bindNames c text key item st.names with
  | none => return none
  | some bindings =>
      let form ← (typeStatement ⟨text, bindings⟩ st).mapError ModelError.expression
      return some (Instance.mk text item form)

theorem compile_eq (hparse : parse text = .ok st) :
    compile c text key = (do
      let found ← st.names.foldlM (joinIntra c text) none
      let instances ← (replicas found).mapM (instanceAt c text key st)
      return instances.filterMap id) := by
  unfold compile
  rw [hparse]
  rfl

/-- Once the intra dimension is known, no error is one of the model. -/
theorem outcome_instanceAt (item : Option String) :
    Outcome (fun _ => True) (fun e => ∃ cause, e = .expression cause)
      (instanceAt c text key st item) := by
  unfold instanceAt
  refine (outcome_bindNames_expression item st.names).bind fun bound _ => ?_
  split
  · trivial
  · refine Outcome.bind (P := fun _ => True) ?_ fun form _ => trivial
    exact Outcome.mapError (Outcome.of_forall (P := fun _ => True) fun _ _ => trivial)
      fun e _ => ⟨e, rfl⟩

theorem instanceAt_ok {item : Option String} {r : Option (Instance K)}
    (h : instanceAt c text key st item = .ok r) :
    ∃ bound, bindNames c text key item st.names = .ok bound ∧ r.isSome = bound.isSome ∧
      ∀ i, r = some i → i.text = text ∧ i.intra = item ∧ ∃ entries, bound = some entries ∧
        typeStatement ⟨text, entries⟩ st = .ok i.form := by
  obtain ⟨bound, hbound, h⟩ := exists_of_bind_eq_ok h
  refine ⟨bound, hbound, ?_⟩
  cases bound with
  | none =>
      cases h
      exact ⟨rfl, nofun⟩
  | some entries =>
      obtain ⟨form, hform, heq⟩ := exists_of_bind_eq_ok h
      cases heq
      refine ⟨rfl, ?_⟩
      rintro i ⟨⟩
      exact ⟨rfl, rfl, entries, rfl, ok_of_mapError hform⟩

omit [Scalar K] [Transcendental K] in
/-- If there are instances for all items or for none, they are the instances of these items. -/
theorem map_intra_of_all {items : List (Option String)} {rs : List (Option (Instance K))}
    (h : List.Forall₂ (fun item (r : Option (Instance K)) => ∀ i, r = some i → i.intra = item)
      items rs) (hall : ∀ r ∈ rs, ∀ r' ∈ rs, r.isSome = r'.isSome) :
    rs.filterMap id = [] ∨ (rs.filterMap id).map Instance.intra = items := by
  by_cases hnone : ∀ r ∈ rs, r = none
  · exact .inl (List.filterMap_eq_nil_iff.mpr hnone)
  refine .inr ?_
  -- one instance there is, so there are all of them
  have hsome : ∀ r ∈ rs, r.isSome = true := by
    push Not at hnone
    obtain ⟨r', hr', hne⟩ := hnone
    intro r hr
    rw [hall r hr r' hr']
    exact Option.isSome_iff_ne_none.mpr hne
  clear hall hnone
  induction h with
  | nil => rfl
  | @cons item r items rs hhead _ ih =>
      obtain ⟨hr, hrs⟩ := List.forall_mem_cons.mp hsome
      obtain ⟨i, rfl⟩ := Option.isSome_iff_exists.mp hr
      exact congrArg₂ List.cons (hhead i rfl) (ih hrs)

section Declared

variable {tables : List TableDeclaration} {sets : Registry}

/-- Compiling declared names reports an error of the model if and only if two variables clash. -/
theorem conceptual_iff_clashes (hdeclares : c.Declares tables sets) (hparse : parse text = .ok st)
    (hdeclared : ∀ n ∈ st.names, (c.variableNamed? n).isSome = true) :
    (∃ e, compile c text key = .error (.conceptual e)) ↔
      Clashes c st.names := by
  rw [compile_eq hparse]
  rcases (outcome_foldlM_joinIntra (fun v hv => hdeclares.variableNamed? hv)
    (fun v hv dim hintra => (intraItems_of_declares hdeclares hv hintra).1) text hdeclared).cases
    with ⟨found, hfound, hcommon⟩ | ⟨e, hfound, ⟨cause, rfl⟩, hclashes⟩
  · rw [hfound]
    refine iff_of_false ?_ hcommon.not_clashes
    rintro ⟨e, herror⟩
    have hlater : Outcome (fun _ => True) (fun e => ∃ cause, e = ModelError.expression cause)
        (do let instances ← (replicas found).mapM (instanceAt c text key st)
            return instances.filterMap id) :=
      (Outcome.mapM_forall fun item _ => outcome_instanceAt item).bind fun _ _ => trivial
    obtain ⟨cause, hcause⟩ := herror ▸ hlater
    cases hcause
  · rw [hfound]
    exact iff_of_true ⟨cause, rfl⟩ hclashes

/-- The instances of a text are those of its items, or there is none, and each one is typed with
what its names are bound to for the item. -/
theorem instances_of_compile (hdeclares : c.Declares tables sets)
    (hplaced : ∀ v ∈ c.members, c.Placed sets.problemKeys v)
    (hitems : ∀ dim ∈ sets.dims, dim.items.Nodup) (hparse : parse text = .ok st)
    (hdeclared : ∀ n ∈ st.names, (c.variableNamed? n).isSome = true) {instances : List (Instance K)}
    (h : compile c text key = .ok instances) :
    ∃ items, Replicas sets c st.names items ∧
      (instances = [] ∨ instances.map Instance.intra = items) ∧
      ∀ i ∈ instances, i.text = text ∧ ∃ bindings, Ties c st.names key i.intra bindings ∧
        typeStatement ⟨text, bindings⟩ st = .ok i.form := by
  rw [compile_eq hparse] at h
  obtain ⟨found, hfound, h⟩ := exists_of_bind_eq_ok h
  obtain ⟨rs, hrs, heq⟩ := exists_of_bind_eq_ok h
  cases heq
  have hcommon := (outcome_foldlM_joinIntra (fun v hv => hdeclares.variableNamed? hv)
    (fun v hv dim hintra => (intraItems_of_declares hdeclares hv hintra).1) text hdeclared).value
    hfound
  have hreplicas := hcommon.replicas hdeclares
  have hall := forall₂_of_mapM hrs
  refine ⟨replicas found, hreplicas, map_intra_of_all (hall.imp fun item r hr i hi => ?_) ?_, ?_⟩
  · obtain ⟨bound, -, -, hinstance⟩ := instanceAt_ok hr
    exact (hinstance i hi).2.1
  · intro r hr r' hr'
    obtain ⟨x, hx, hrx⟩ := exists_left_of_forall₂ hall hr
    obtain ⟨y, hy, hry⟩ := exists_left_of_forall₂ hall hr'
    obtain ⟨bound, hbound, hsome, -⟩ := instanceAt_ok hrx
    obtain ⟨bound', hbound', hsome', -⟩ := instanceAt_ok hry
    -- whether a name is bound depends on how many candidates it has, which is the same for all
    -- items
    have hlengths : ∀ n ∈ st.names, (c.candidates n key (selector c x n)).length =
        (c.candidates n key (selector c y n)).length := fun n hn =>
      length_candidates_of_replicas hdeclares hplaced hitems hreplicas hx hy hn (hdeclared n hn)
    have hsame := isSome_bindNames_congr text hdeclared hlengths
    rw [hbound, hbound'] at hsame
    rw [hsome, hsome']
    exact Except.ok.inj hsame
  · intro i hi
    obtain ⟨r, hr, rfl⟩ := List.mem_filterMap.mp hi
    obtain ⟨x, hx, hrx⟩ := exists_left_of_forall₂ hall hr
    obtain ⟨bound, hbound, -, hinstance⟩ := instanceAt_ok hrx
    obtain ⟨htext, rfl, entries, rfl, hform⟩ := hinstance i rfl
    obtain ⟨hlisted, hcandidates⟩ := bindNames_only hdeclared hbound
    refine ⟨htext, entries, ⟨hlisted, fun e he => ?_⟩, hform⟩
    have hn : e.1 ∈ st.names := hlisted ▸ List.mem_map_of_mem he
    exact boundTo_of_candidates hdeclares hreplicas hx hn (hdeclared _ hn) (hcandidates e he)

/-- Declared names are replicated exactly.  A text is refused for the sake of the model if and only if
two of its variables clash.  Otherwise there are no instances at all, or one for each intra item that
the variables have in common, in the order of the dimension.  A name stands for one and the same
binding in all instances, or for the binding of the instance's own item if the text is replicated over
its variable, and apart from the numbers of these bindings all instances have the same form. -/
theorem compile_replicates (hbuild : Catalog.build tables sets = .ok c) (hlater : c.Later d)
    (hitems : ∀ dim ∈ sets.dims, dim.items.Nodup) (key : ProblemKey) (hparse : parse text = .ok st)
    (hdeclared : ∀ n ∈ st.names, (d.variableNamed? n).isSome = true) :
    ((∃ e, compile d text key = .error (.conceptual e)) ↔
      Clashes d st.names) ∧
    ∀ instances : List (Instance K), compile d text key = .ok instances →
      ∃ items, Replicas sets d st.names items ∧
        (instances = [] ∨ instances.map Instance.intra = items) ∧
        (∀ i ∈ instances, i.text = text ∧ ∃ bindings, Ties d st.names key i.intra bindings ∧
          typeStatement ⟨text, bindings⟩ st = .ok i.form) ∧
        ∀ i ∈ instances, ∀ j ∈ instances, ∃ ρ : Nat → Nat, j.form = i.form.rename ρ ∧
          ∀ n ∈ st.names, ∀ b b', BoundTo d st.names key i.intra n b →
            BoundTo d st.names key j.intra n b' → ρ b.id = b'.id ∧
              ((∀ v dim, v.symbol = n → ¬ Replicates d st.names v dim) → b' = b) := by
  have hc := Catalog.consistent_of_build hbuild hlater
  have hplaced := Catalog.placed_of_build hbuild hlater
  refine ⟨conceptual_iff_clashes hc.declares hparse hdeclared, fun instances h => ?_⟩
  obtain ⟨items, hreplicas, hintra, htyped⟩ :=
    instances_of_compile hc.declares hplaced hitems hparse hdeclared h
  refine ⟨items, hreplicas, hintra, htyped, fun i hi j hj => ?_⟩
  obtain ⟨-, bindings, hties, hform⟩ := htyped i hi
  obtain ⟨-, bindings', hties', hform'⟩ := htyped j hj
  refine ⟨renumber d bindings', ?_, fun n hn b b' hb hb' =>
    ⟨hties'.renumber_eq hc hn hb hb', fun hnone => ?_⟩⟩
  · have hrenamed := typeStatement_renamed (hties.renamed hc hplaced hties' text) st
    rw [hform, hform'] at hrenamed
    exact Except.ok.inj hrenamed
  · exact hb.only b' hb'.mem hb'.symbol hb'.applies fun v dim hsymbol hv =>
      (hnone v dim hsymbol hv).elim

end Declared

end Instances

end CoupledModels.Formula

/-! ## Demand in two seasons -/

namespace CoupledModels.Catalog.Demands

open Purchases Formula

/-- Demand is at least that of fish. -/
def statement : Statement Rat :=
  .relation (.name "d") .ge (.name "f")

/-- What is said of the north in a season. -/
def inSeason (season : String) (d f : Nat) : Instance Rat :=
  ⟨"d >= f", some season,
    .constraint (.binding ⟨.scalar, false⟩ d) .ge (.binding ⟨.scalar, false⟩ f)⟩

/-- There is an instance for each season, and they differ in the numbers of their bindings only. -/
theorem compile_replicates_demands : build tables sets = .ok catalog ∧
    (∀ dim ∈ sets.dims, dim.items.Nodup) ∧ Formula.parse "d >= f" = .ok statement ∧
    (∀ n ∈ statement.names, (catalog.variableNamed? n).isSome = true) ∧
    Formula.compile catalog "d >= f" ⟨[("region", "north")]⟩ =
      .ok [inSeason "summer" 0 4, inSeason "winter" 1 5] ∧
    ¬ Clashes catalog statement.names ∧
    ∃ ρ : Nat → Nat, ρ 0 = 1 ∧ ρ 4 = 5 ∧
      (inSeason "winter" 1 5).form = (inSeason "summer" 0 4).form.rename ρ := by
  have hbuild : build tables sets = .ok catalog := by decide +kernel
  have hitems : ∀ dim ∈ sets.dims, dim.items.Nodup := by decide
  have hparse : Formula.parse "d >= f" = .ok statement := rfl
  have hdeclared : ∀ n ∈ statement.names, (catalog.variableNamed? n).isSome = true := by
    decide +kernel
  have hcompile : Formula.compile catalog "d >= f" ⟨[("region", "north")]⟩ =
      .ok [inSeason "summer" 0 4, inSeason "winter" 1 5] := by decide +kernel
  obtain ⟨hclashes, hinstances⟩ := compile_replicates hbuild .refl hitems ⟨[("region", "north")]⟩
    hparse hdeclared
  refine ⟨hbuild, hitems, hparse, hdeclared, hcompile, fun hclash => ?_, ?_⟩
  · obtain ⟨e, he⟩ := hclashes.mpr hclash
    rw [hcompile] at he
    cases he
  · obtain ⟨items, -, -, -, hpairs⟩ := hinstances _ hcompile
    obtain ⟨ρ, hform, -⟩ := hpairs (inSeason "summer" 0 4) List.mem_cons_self
      (inSeason "winter" 1 5) (List.mem_cons_of_mem _ List.mem_cons_self)
    have hform' := hform
    unfold inSeason at hform'
    obtain ⟨hd, -, hf⟩ := Form.constraint.inj hform'
    exact ⟨ρ, (Typed.binding.inj hd).2.symm, (Typed.binding.inj hf).2.symm, hform⟩

end CoupledModels.Catalog.Demands
