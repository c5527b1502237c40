import CoupledModels.Formula.Compile
import CoupledModels.Proofs.Outcome

/-!
# Faults of formulas

What can be wrong with a text, by the phase that finds it.  Reading reports that it expected
something else, typing reports a mistake in the text or a lifetime distribution that does not exist,
and tying names to bindings reports unknown and ambiguous names.  A name is ambiguous only if there
are several candidates for it.
-/

namespace CoupledModels

variable {K : Type}

namespace Formula

/-- What typing reports: a mistake in the text, or a lifetime distribution that does not exist. -/
def Scope.Faults (s : Scope) (e : ExpressionError) : Prop :=
  (∃ cause, e = .typing s.text cause) ∨ ∃ cause, e = .weibull cause

/-- Every error is one that typing reports. -/
abbrev Scope.Types {α : Type} (s : Scope) (r : Except ExpressionError α) : Prop :=
  Outcome (fun _ => True) s.Faults r

variable {s : Scope}

namespace Scope.Types

variable {α β : Type} {r : Except ExpressionError α}

theorem ok (s : Scope) (a : α) : s.Types (.ok a : Except ExpressionError α) :=
  trivial

theorem mistake (s : Scope) (e : TypingError) : s.Types (s.mistake e : Except ExpressionError α) :=
  .inl ⟨e, rfl⟩

theorem bind {f : α → Except ExpressionError β} (h : s.Types r) (hf : ∀ a, s.Types (f a)) :
    s.Types (r >>= f) :=
  Outcome.bind h fun a _ => hf a

end Scope.Types

/-! ## Names and operators -/

theorem types_typeName (s : Scope) (n : String) : s.Types (typeName (K := K) s n) := by
  unfold typeName
  split
  · exact .ok s _
  · exact .mistake s _

theorem types_typeAdditive (s : Scope) (node : FormulaType → Typed K → Typed K → Typed K)
    (l r : Typed K) : s.Types (typeAdditive s node l r) := by
  unfold typeAdditive
  split
  · exact .ok s _
  · exact .mistake s _

theorem types_typeProduct (s : Scope) (scales : Bool) (l r : Typed K) :
    s.Types (typeProduct s scales l r) := by
  unfold typeProduct
  dsimp only
  split
  · exact .mistake s _
  split
  · exact .ok s _
  split
  · exact .ok s _
  · exact .mistake s _

theorem types_typeBinary (s : Scope) (op : Operator) (l r : Typed K) :
    s.Types (typeBinary s op l r) := by
  cases op with
  | add | sub => exact types_typeAdditive s _ l r
  | mul | matmul => exact types_typeProduct s _ l r

/-! ## Calls -/

namespace Call

variable {c : Call K} (hargs : ∀ r ∈ c.typedArgs, c.scope.Types r)
include hargs

theorem types_node (i : Nat) : c.scope.Types (c.node i) := by
  unfold node
  split
  · exact hargs _ (List.mem_of_getElem? ‹_›)
  · exact .mistake c.scope _

omit hargs in
theorem types_literal [Scalar K] (c : Call K) (i : Nat) : c.scope.Types (c.literal i) := by
  unfold literal
  split
  · exact .ok c.scope _
  · exact .mistake c.scope _

omit hargs in
theorem types_integer [Scalar K] (c : Call K) (i : Nat) : c.scope.Types (c.integer i) := by
  unfold integer
  refine (types_literal c i).bind fun v => ?_
  split
  · exact .ok c.scope _
  · exact .mistake c.scope _

theorem types_weibullLength [Scalar K] : c.scope.Types c.weibullLength := by
  unfold weibullLength
  split
  · refine (types_integer c 2).bind fun n => ?_
    split
    · exact .mistake c.scope _
    · exact .ok c.scope _
  · refine (types_node hargs 2).bind fun r => ?_
    split
    · exact .mistake c.scope _
    · exact .ok c.scope _

theorem types_weibullFactor (i : Nat) : c.scope.Types (c.weibullFactor i) := by
  unfold weibullFactor
  refine (types_node hargs i).bind fun e => ?_
  split
  · exact .mistake c.scope _
  · exact .ok c.scope _

theorem types_weibull [Scalar K] [Transcendental K] : c.scope.Types c.weibull := by
  unfold weibull
  refine (types_integer c 3).bind fun dims => ?_
  split
  · exact .mistake c.scope _
  refine (types_weibullLength hargs).bind fun n => ?_
  split
  · exact .mistake c.scope _
  split
  · split
    · exact .ok c.scope _
    · exact .inr ⟨_, rfl⟩
  · exact (types_weibullFactor hargs 0).bind fun scale =>
      (types_weibullFactor hargs 1).bind fun shape => .ok c.scope _

theorem types_diagonal : c.scope.Types c.diagonal := by
  unfold diagonal
  refine (types_node hargs 0).bind fun e => ?_
  dsimp only
  split
  · exact .ok c.scope _
  split
  · exact .ok c.scope _
  · exact .mistake c.scope _

theorem types_sum [Scalar K] : c.scope.Types c.sum := by
  unfold sum
  refine (types_node hargs 0).bind fun e => ?_
  split
  · exact .ok c.scope _
  refine (types_integer c 1).bind fun axis => ?_
  split
  · exact .ok c.scope _
  split
  · exact .ok c.scope _
  · exact .mistake c.scope _

theorem types_multiply : c.scope.Types c.multiply := by
  unfold multiply
  refine (types_node hargs 0).bind fun l => (types_node hargs 1).bind fun r => ?_
  split
  · exact .mistake c.scope _
  split
  · exact .ok c.scope _
  · exact .mistake c.scope _

theorem types_typed [Scalar K] [Transcendental K] : c.scope.Types c.typed := by
  unfold typed
  split
  · exact .mistake c.scope _
  · exact .mistake c.scope _
  · exact types_weibull hargs
  · exact types_diagonal hargs
  · exact types_sum hargs
  · exact types_multiply hargs
  · exact (types_node hargs 0).bind fun e => .ok c.scope _
  · exact (types_node hargs 0).bind fun e => (types_integer c 1).bind fun k => .ok c.scope _
  · refine (types_node hargs 0).bind fun e => ?_
    split
    · exact .mistake c.scope _
    · exact (types_literal c 1).bind fun p => .ok c.scope _
  · refine (types_node hargs 0).bind fun e => ?_
    split
    · exact .mistake c.scope _
    split
    · exact .mistake c.scope _
    · exact .ok c.scope _

end Call

/-! ## Formulas and statements -/

variable [Scalar K] [Transcendental K]

mutual

theorem types_typed (s : Scope) : ∀ e : Formula K, s.Types (e.typed s)
  | .number _ => .ok s _
  | .name n => types_typeName s n
  | .negate e => by
      rw [typed]
      exact (types_typed s e).bind fun e => .ok s _
  | .binary op l r => by
      rw [typed]
      exact (types_typed s l).bind fun l => (types_typed s r).bind fun r => types_typeBinary s op l r
  | .call f args => by
      rw [typed]
      exact Call.types_typed (types_typedAll s args)

theorem types_typedAll (s : Scope) : ∀ es : List (Formula K), ∀ r ∈ typedAll s es, s.Types r
  | [] => by simp [typedAll]
  | e :: es => by
      rw [typedAll]
      intro r hr
      rcases List.mem_cons.mp hr with rfl | hr
      · exact types_typed s e
      · exact types_typedAll s es r hr

end

theorem types_typeObjective (s : Scope) (sense : Sense) (e : Formula K) :
    s.Types (typeObjective s sense e) := by
  unfold typeObjective
  refine (types_typed s e).bind fun e => ?_
  split
  · exact .ok s _
  · exact .mistake s _

theorem types_typeValue (s : Scope) (e : Formula K) : s.Types (typeValue s e) := by
  have hvalue : ∀ e : Formula K, s.Types ((e.typed s).map Form.value) :=
    fun e => (types_typed s e).map fun _ _ => trivial
  unfold typeValue
  split
  · split
    · exact types_typeObjective s _ _
    · exact hvalue _
  · exact hvalue _

theorem types_typeStatement (s : Scope) (st : Statement K) : s.Types (typeStatement s st) := by
  cases st with
  | value e => exact types_typeValue s e
  | relation l rel r =>
      unfold typeStatement
      refine (types_typed s l).bind fun l => (types_typed s r).bind fun r => ?_
      split
      · exact .ok s _
      · exact .mistake s _

/-! ## Reading -/

omit [Transcendental K] in
/-- Reading reports that a text is empty, or what was expected in it. -/
theorem outcome_parse (text : String) :
    Outcome (fun _ => True) (fun e => e = .empty ∨ ∃ what offset, e = .expected what offset text)
      (parse (K := K) text) := by
  unfold parse
  split
  · exact .inl rfl
  dsimp only
  split
  · trivial
  all_goals exact .inr ⟨_, _, rfl⟩

/-! ## Ambiguous names -/

/-- If an error says that a name is ambiguous, the catalog has several candidates for it. -/
def Justified (c : Catalog K) (key : ProblemKey) (e : ModelError) : Prop :=
  ∀ symbol n key' text, e = .expression (.ambiguous symbol n key' text) → key' = key ∧
    ∃ v restrict, c.variableNamed? symbol = some v ∧
      (v.isConstant = false → restrict = none → v.intraItems? = none) ∧
      n = (c.candidates symbol key restrict).length ∧ 1 < n

/-- No variable of some names has intra items that would have to be gone through. -/
def Unreplicated (c : Catalog K) (names : List String) : Prop :=
  ∀ symbol ∈ names, ∀ v, c.variableNamed? symbol = some v → v.isConstant = false →
    v.intraItems? = none

variable {c : Catalog K} {key : ProblemKey}

omit [Scalar K] [Transcendental K]

theorem outcome_joinIntra (c : Catalog K) (key : ProblemKey) (text : String)
    (names : List String) :
    Outcome (fun intra => intra = none → Unreplicated c names) (Justified c key)
      (names.foldlM (joinIntra c text) none) := by
  refine Outcome.foldlM_prefix
    (I := fun done found => found = none → Unreplicated c done) nofun
    fun done symbol rest found _ hdone => ?_
  -- one more name leaves the names unreplicated if its variable has no intra items
  have hmore : ∀ v, c.variableNamed? symbol = some v →
      (v.isConstant = false → v.intraItems? = none) → found = none →
        Unreplicated c (done ++ [symbol]) := by
    intro v hv hnone hfound symbol' hmem v' hv' hconstant
    rcases List.mem_append.mp hmem with hmem | hmem
    · exact hdone hfound symbol' hmem v' hv' hconstant
    · obtain rfl := List.mem_singleton.mp hmem
      obtain rfl : v = v' := Option.some.inj (hv.symm.trans hv')
      exact hnone hconstant
  unfold joinIntra
  split
  · exact nofun
  rename_i v hv
  split
  · rename_i hconstant
    exact hmore v hv fun h => by rw [h] at hconstant; cases hconstant
  split
  · exact nofun
  · split
    · exact nofun
    split
    · exact nofun
    · exact nofun
  · rename_i hfirst hsecond
    refine fun hfound => hmore v hv (fun _ => ?_) hfound
    cases hitems : v.intraItems? with
    | none => rfl
    | some items =>
        obtain ⟨d, hd, -⟩ := Option.bind_eq_some_iff.mp hitems
        exact (hfirst d items hd hitems hfound).elim

theorem outcome_bindNames_justified {item : Option String} {names : List String} (text : String)
    (hitem : item = none → Unreplicated c names) :
    Outcome (fun _ => True) (Justified c key) (bindNames c text key item names) := by
  induction names with
  | nil => trivial
  | cons symbol rest ih =>
      unfold bindNames
      split
      · exact nofun
      rename_i v hv
      dsimp only
      split
      · trivial
      · refine (ih fun h symbol hmem => ?_).bind fun found _ => trivial
        exact hitem h symbol (List.mem_cons_of_mem _ hmem)
      -- the error counts the candidates, and neither none nor one of them remains here
      · rename_i hnone hone
        intro symbol' n key' text' heq
        cases heq
        refine ⟨rfl, v, _, hv, ?_, rfl, ?_⟩
        · intro hconstant hrestrict
          cases hintra : v.roles.intra with
          | none => rw [Variable.intraItems?, hintra, Option.bind_none]
          | some d =>
              have hnone : item = none := by simpa [hconstant, hintra] using hrestrict
              exact hitem hnone symbol List.mem_cons_self v hv hconstant
        · generalize c.candidates symbol key _ = bs at hnone hone
          match bs with
          | [] => exact (hnone rfl).elim
          | [b] => exact (hone b rfl).elim
          | _ :: _ :: _ => simp

theorem outcome_compile_justified [Scalar K] [Transcendental K] (c : Catalog K) (text : String)
    (key : ProblemKey) :
    Outcome (fun _ => True) (Justified c key) (compile c text key) := by
  unfold compile
  refine Outcome.bind (P := fun _ => True) ?_ fun statement _ => ?_
  · refine (outcome_parse text).mapError fun e he => ?_
    rcases he with rfl | ⟨what, offset, rfl⟩
    · exact nofun
    · exact nofun
  refine (outcome_joinIntra c key text statement.names).bind fun intra hintra => ?_
  refine Outcome.bind (P := fun _ => True) ?_ fun found _ => trivial
  refine (Outcome.mapM_forall (Q := fun _ => True) fun item hmem => ?_).imp fun _ _ => trivial
  have hitem : item = none → Unreplicated c statement.names := by
    rintro rfl
    refine hintra ?_
    cases intra with
    | none => rfl
    | some i => simp at hmem
  refine (outcome_bindNames_justified text hitem).bind fun bound _ => ?_
  split
  · trivial
  · refine Outcome.bind (P := fun _ => True) ?_ fun form _ => trivial
    refine (types_typeStatement _ statement).mapError fun e he => ?_
    rcases he with ⟨cause, rfl⟩ | ⟨cause, rfl⟩
    · exact nofun
    · exact nofun

end Formula

end CoupledModels
