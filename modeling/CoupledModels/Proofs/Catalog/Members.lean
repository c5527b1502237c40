import CoupledModels.Proofs.Variables.Resolution
import Mathlib.Data.List.Nodup

/-!
# Variables of a catalog

A catalog is built in two phases: tables are taken in, with their blocks and their variables, and
then each variable gets its bindings.  After the first phase every variable is a resolved declaration
of its table, and no two variables share a symbol.
-/

namespace CoupledModels.Catalog

variable {K : Type} [Scalar K] {tables : List TableDeclaration} {sets : Registry} {c : Catalog K}

/-! ## The two phases -/

theorem nodup_of_firstRepeat? {seen names : List String} (h : firstRepeat? seen names = none) :
    names.Nodup ∧ ∀ name ∈ names, name ∉ seen := by
  induction names generalizing seen with
  | nil => simp
  | cons name names ih =>
      unfold firstRepeat? at h
      split at h
      · cases h
      rename_i hname
      obtain ⟨hnodup, hseen⟩ := ih h
      refine ⟨List.nodup_cons.mpr ⟨fun hmem => hseen name hmem List.mem_cons_self, hnodup⟩, ?_⟩
      refine List.forall_mem_cons.mpr ⟨by simpa using hname, fun other hother hmem => ?_⟩
      exact hseen other hother (List.mem_cons_of_mem _ hmem)

/-- A build that succeeds has taken in tables with distinct names, and then bound every variable. -/
theorem build_ok (h : build tables sets = .ok c) :
    (tables.map TableDeclaration.name).Nodup ∧ ∃ c₁ : Catalog K,
      tables.foldlM (addTable sets sets.problemKeys) (start tables) = .ok c₁ ∧
      c₁.members.foldlM (addBindings sets.problemKeys) c₁ = .ok c := by
  unfold build at h
  dsimp only at h
  split at h
  · cases h
  rename_i hrepeat
  obtain ⟨c₁, htables, hbindings⟩ := exists_of_bind_eq_ok h
  exact ⟨(nodup_of_firstRepeat? hrepeat).1, c₁, htables, hbindings⟩

/-! ## Variables -/

/-- The variables of a catalog are resolved declarations of its tables, with symbols of their own. -/
structure Declares (tables : List TableDeclaration) (sets : Registry) (c : Catalog K) : Prop where
  coordinates : c.tableCoordinates = tables.map fun t => (t.name, t.coordinates)
  members : ∀ v ∈ c.members, ∃ t ∈ tables, ∃ d ∈ t.members, Variable.Resolves d t sets v
  symbols : (c.members.map Variable.symbol).Nodup

namespace Declares

theorem start : (start (K := K) tables).Declares tables sets where
  coordinates := rfl
  members := by simp [Catalog.start]
  symbols := by simp [Catalog.start]

omit [Scalar K]

theorem addBlocks (h : c.Declares tables sets) (t : TableDeclaration) (bs : List RowBlock) :
    (bs.foldl (addBlock t) c).Declares tables sets := by
  induction bs generalizing c with
  | nil => exact h
  | cons b bs ih => exact ih ⟨h.coordinates, h.members, h.symbols⟩

/-- A variable that is added is resolved, and its symbol is new. -/
theorem addVariable (h : c.Declares tables sets) {t : TableDeclaration} (ht : t ∈ tables)
    {d : VariableDeclaration} (hd : d ∈ t.members) :
    Outcome (Declares tables sets) AnyError (addVariable t sets c d) := by
  unfold Catalog.addVariable
  dsimp only
  split
  · trivial
  rename_i hnew
  refine (Outcome.of_forall fun r hr => Variable.resolves_of_resolve hr).bind fun r hr => ?_
  -- a symbol that is in use already has been refused
  have hfresh : ∀ v ∈ c.members, v.symbol ≠ r.symbol := by
    intro v hv heq
    have hnone : c.members.find? (fun v => v.symbol == d.symbol) = none := by
      simpa [variableNamed?] using hnew
    have hne := List.find?_eq_none.mp hnone v hv
    rw [heq, hr.symbol] at hne
    simp at hne
  refine ⟨h.coordinates, fun v hv => ?_, ?_⟩
  · rcases List.mem_append.mp hv with hv | hv
    · exact h.members v hv
    · obtain rfl := List.mem_singleton.mp hv
      exact ⟨t, ht, d, hd, hr⟩
  · rw [List.map_append, List.map_singleton, List.nodup_append]
    refine ⟨h.symbols, List.nodup_singleton _, fun a ha b hb => ?_⟩
    obtain ⟨v, hv, rfl⟩ := List.mem_map.mp ha
    rw [List.mem_singleton.mp hb]
    exact hfresh v hv

theorem addTable (h : c.Declares tables sets) {keys : List ProblemKey} {t : TableDeclaration}
    (ht : t ∈ tables) : Outcome (Declares tables sets) AnyError (addTable sets keys c t) := by
  unfold Catalog.addTable
  refine Outcome.bind_any fun _ => ?_
  have hmembers : ∀ c : Catalog K, c.Declares tables sets →
      Outcome (Declares tables sets) AnyError (t.members.foldlM (Catalog.addVariable t sets) c) :=
    fun c hc => Outcome.foldlM hc fun c hc d hd => hc.addVariable ht hd
  dsimp only
  split
  · exact Outcome.bind_any fun bs => hmembers _ (h.addBlocks t bs)
  · exact hmembers c h

/-- A symbol leads to the variable that has it. -/
theorem variableNamed? (h : c.Declares tables sets) {v : Variable} (hv : v ∈ c.members) :
    c.variableNamed? v.symbol = some v := by
  unfold Catalog.variableNamed?
  cases hfind : c.members.find? fun w => w.symbol == v.symbol with
  | none => simpa using List.find?_eq_none.mp hfind v hv
  | some w =>
      have hsymbol : w.symbol = v.symbol := by simpa using List.find?_some hfind
      rw [List.inj_on_of_nodup_map h.symbols (List.mem_of_find?_eq_some hfind) hv hsymbol]

end Declares

omit [Scalar K] in
/-- Taking in a table makes no binding and no parameter. -/
theorem outcome_addTable_bindings (c : Catalog K) (keys : List ProblemKey) (t : TableDeclaration) :
    Outcome (fun d => d.bindings = c.bindings ∧ d.parameters = c.parameters) AnyError
      (addTable sets keys c t) := by
  have hblocks : ∀ (bs : List RowBlock) (c : Catalog K),
      (bs.foldl (addBlock t) c).bindings = c.bindings ∧
        (bs.foldl (addBlock t) c).parameters = c.parameters := by
    intro bs
    induction bs with
    | nil => exact fun c => ⟨rfl, rfl⟩
    | cons b bs ih => exact fun c => ih _
  have hmembers : ∀ d : Catalog K, d.bindings = c.bindings ∧ d.parameters = c.parameters →
      Outcome (fun d => d.bindings = c.bindings ∧ d.parameters = c.parameters) AnyError
        (t.members.foldlM (addVariable t sets) d) := by
    refine fun d hd => Outcome.foldlM hd fun d hd v _ => ?_
    unfold addVariable
    dsimp only
    split
    · trivial
    · exact Outcome.bind_any fun r => hd
  unfold addTable
  refine Outcome.bind_any fun _ => ?_
  dsimp only
  split
  · exact Outcome.bind_any fun bs => hmembers _ (hblocks bs c)
  · exact hmembers c ⟨rfl, rfl⟩

/-- After the first phase the variables are those of the tables, and nothing is bound yet. -/
theorem declares_of_addTables
    (h : tables.foldlM (addTable sets sets.problemKeys) (start tables) = .ok c) :
    c.Declares tables sets ∧ c.bindings = #[] ∧ c.parameters = #[] := by
  constructor
  · exact (Outcome.foldlM (E := AnyError) Declares.start fun _ hc _ ht => hc.addTable ht).value h
  · refine (Outcome.foldlM (E := AnyError)
      (I := fun c : Catalog K => c.bindings = #[] ∧ c.parameters = #[]) ⟨rfl, rfl⟩
      fun c hc t _ => ?_).value h
    exact (outcome_addTable_bindings c _ t).imp
      fun d hd => ⟨hd.1.trans hc.1, hd.2.trans hc.2⟩

end CoupledModels.Catalog
