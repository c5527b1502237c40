import CoupledModels.Formula.Compile
import CoupledModels.Proofs.Arrays.Computed
import CoupledModels.Proofs.Catalog.Contents

/-!
# Typing rules

`Typed.WellTyped` states the rules by which the types of nodes fit together, one rule for each kind
of node.  The typing of formulas only makes nodes that obey them, whatever the formula is, as long
as the bindings that its names stand for are those of the catalog.  Compiling a text looks names up
in the catalog, so `wellTyped_of_compile` has no condition but that the catalog is addressed.
-/

namespace CoupledModels

namespace Typed

variable {K : Type}

/-- The nodes of a tree, the tree itself first. -/
def nodes (e : Typed K) : List (Typed K) :=
  e :: match e with
    | number _ | binding _ _ | data _ => []
    | negate _ e | transpose _ e | diagonal _ e | sum _ e _ | shift _ e _ | power _ e _
    | inverse _ e => e.nodes
    | add _ l r | sub _ l r | scale _ l r | matmul _ l r | elementwise _ l r
    | weibull _ l r _ _ => l.nodes ++ r.nodes

/-- The types of nodes fit together, and binding nodes are those of the bindings that they name. -/
inductive WellTyped (bs : Array Binding) : Typed K → Prop
  | number (v : K) : WellTyped bs (.number v)
  | binding {b : Binding} (hb : bs[b.id]? = some b) :
      WellTyped bs (.binding ⟨b.shape, b.isDecision⟩ b.id)
  | data {m : Matrix K} (valid : m.Valid) : WellTyped bs (.data m)
  | negate {e : Typed K} (he : WellTyped bs e) : WellTyped bs (.negate e.type e)
  | add {l r : Typed K} {s : Shape} (hl : WellTyped bs l) (hr : WellTyped bs r)
      (hs : Shape.broadcast? l.shape r.shape = some s) :
      WellTyped bs (.add ⟨s, l.linear || r.linear⟩ l r)
  | sub {l r : Typed K} {s : Shape} (hl : WellTyped bs l) (hr : WellTyped bs r)
      (hs : Shape.broadcast? l.shape r.shape = some s) :
      WellTyped bs (.sub ⟨s, l.linear || r.linear⟩ l r)
  | scale {l r : Typed K} (hl : WellTyped bs l) (hr : WellTyped bs r)
      (hdata : l.linear = false ∨ r.linear = false)
      (hs : l.shape.isScalar = true ∨ r.shape.isScalar = true) :
      WellTyped bs
        (.scale ⟨if l.shape.isScalar then r.shape else l.shape, l.linear || r.linear⟩ l r)
  | matmul {l r : Typed K} (hl : WellTyped bs l) (hr : WellTyped bs r)
      (hdata : l.linear = false ∨ r.linear = false) (hs : l.shape.cols = r.shape.rows) :
      WellTyped bs (.matmul ⟨⟨l.shape.rows, r.shape.cols⟩, l.linear || r.linear⟩ l r)
  | elementwise {l r : Typed K} {s : Shape} (hl : WellTyped bs l) (hr : WellTyped bs r)
      (hdata : l.linear = false ∨ r.linear = false)
      (hs : Shape.broadcast? l.shape r.shape = some s) :
      WellTyped bs (.elementwise ⟨s, l.linear || r.linear⟩ l r)
  | transpose {e : Typed K} (he : WellTyped bs e) :
      WellTyped bs (.transpose ⟨e.shape.flip, e.linear⟩ e)
  | diagonalMatrix {e : Typed K} (he : WellTyped bs e) (hv : e.shape.isVector = true) :
      WellTyped bs (.diagonal
        ⟨⟨e.shape.rows * e.shape.cols, e.shape.rows * e.shape.cols⟩, e.linear⟩ e)
  | diagonalColumn {e : Typed K} (he : WellTyped bs e) (hv : e.shape.isVector = false)
      (hs : e.shape.isSquare = true) :
      WellTyped bs (.diagonal ⟨⟨e.shape.cols, 1⟩, e.linear⟩ e)
  | total {e : Typed K} (he : WellTyped bs e) : WellTyped bs (.sum ⟨.scalar, e.linear⟩ e none)
  | columnSums {e : Typed K} (he : WellTyped bs e) :
      WellTyped bs (.sum ⟨⟨1, e.shape.cols⟩, e.linear⟩ e (some 0))
  | rowSums {e : Typed K} (he : WellTyped bs e) :
      WellTyped bs (.sum ⟨⟨e.shape.rows, 1⟩, e.linear⟩ e (some 1))
  | shift {e : Typed K} (he : WellTyped bs e) (k : Int64) : WellTyped bs (.shift e.type e k)
  | power {e : Typed K} (he : WellTyped bs e) (hdata : e.linear = false) (p : K) :
      WellTyped bs (.power ⟨e.shape, false⟩ e p)
  | inverse {e : Typed K} (he : WellTyped bs e) (hdata : e.linear = false)
      (hs : e.shape.isSquare = true) : WellTyped bs (.inverse ⟨e.shape, false⟩ e)
  | weibull {l r : Typed K} {n dims : Nat} (hl : WellTyped bs l) (hr : WellTyped bs r)
      (hldata : l.linear = false) (hrdata : r.linear = false) (hls : l.shape.isScalar = true)
      (hrs : r.shape.isScalar = true) (hdims : dims = 1 ∨ dims = 2) :
      WellTyped bs (.weibull ⟨Weibull.shapeOf n dims, false⟩ l r n dims)

/-- Every node of a well-typed tree is well typed. -/
theorem WellTyped.of_mem_nodes {bs : Array Binding} {e n : Typed K} (h : WellTyped bs e)
    (hn : n ∈ e.nodes) : WellTyped bs n := by
  -- The tree itself is one of its nodes, which the induction would lose sight of.
  have hself : n = e → WellTyped bs n := fun heq => heq ▸ h
  induction h with
  | number | binding | data =>
      exact hself (by simpa [nodes] using hn)
  | negate _ ih | transpose _ ih | diagonalMatrix _ _ ih | diagonalColumn _ _ _ ih | total _ ih
  | columnSums _ ih | rowSums _ ih | shift _ _ ih | power _ _ _ ih | inverse _ _ _ ih =>
      rw [nodes, List.mem_cons] at hn
      rcases hn with heq | hn
      · exact hself heq
      · exact ih hn fun heq => heq ▸ ‹WellTyped bs _›
  | add _ _ _ ihl ihr | sub _ _ _ ihl ihr | scale _ _ _ _ ihl ihr | matmul _ _ _ _ ihl ihr
  | elementwise _ _ _ _ ihl ihr | weibull _ _ _ _ _ _ _ ihl ihr =>
      rw [nodes, List.mem_cons, List.mem_append] at hn
      rcases hn with heq | hn | hn
      · exact hself heq
      · exact ihl hn fun heq => heq ▸ ‹WellTyped bs _›
      · exact ihr hn fun heq => heq ▸ ‹WellTyped bs _›

end Typed

namespace Formula

variable {K : Type}

open Typed (WellTyped)

/-- The bindings of a scope are those of the catalog under their own numbers. -/
def Scope.In (s : Scope) (bs : Array Binding) : Prop :=
  ∀ entry ∈ s.bindings, bs[entry.2.id]? = some entry.2

theorem outcome_mistake {α : Type} {P : α → Prop} (s : Scope) (e : TypingError) :
    Outcome P AnyError (s.mistake e) :=
  trivial

theorem mem_of_lookup {α : Type} {entries : List (String × α)} {n : String} {a : α}
    (h : entries.lookup n = some a) : ∃ m, (m, a) ∈ entries := by
  induction entries with
  | nil => simp at h
  | cons entry entries ih =>
      obtain ⟨m, b⟩ := entry
      rw [List.lookup_cons] at h
      split at h
      · cases h
        exact ⟨m, List.mem_cons_self⟩
      · obtain ⟨m', hm'⟩ := ih h
        exact ⟨m', List.mem_cons_of_mem _ hm'⟩

variable {s : Scope} {bs : Array Binding}

/-! ## Names and operators -/

theorem outcome_typeName (hs : s.In bs) (n : String) :
    Outcome (WellTyped bs) AnyError (typeName (K := K) s n) := by
  unfold typeName
  split
  · rename_i b hb
    obtain ⟨m, hm⟩ := mem_of_lookup hb
    exact .binding (hs _ hm)
  · exact outcome_mistake _ _

theorem outcome_typeAdditive {node : FormulaType → Typed K → Typed K → Typed K} {l r : Typed K}
    (hnode : ∀ shape : Shape, Shape.broadcast? l.shape r.shape = some shape →
      WellTyped bs (node ⟨shape, l.linear || r.linear⟩ l r)) :
    Outcome (WellTyped bs) AnyError (typeAdditive s node l r) := by
  unfold typeAdditive
  split
  · exact hnode _ ‹_›
  · exact outcome_mistake _ _

theorem outcome_typeProduct (scales : Bool) {l r : Typed K} (hl : WellTyped bs l)
    (hr : WellTyped bs r) : Outcome (WellTyped bs) AnyError (typeProduct s scales l r) := by
  unfold typeProduct
  dsimp only
  split
  · exact outcome_mistake _ _
  rename_i hlinear
  have hdata : l.linear = false ∨ r.linear = false := by
    simpa only [Bool.and_eq_true, not_and_or, Bool.not_eq_true] using hlinear
  split
  · rename_i hscalar
    simp only [Bool.and_eq_true, Bool.or_eq_true] at hscalar
    exact .scale hl hr hdata hscalar.2
  split
  · exact .matmul hl hr hdata ‹_›
  · exact outcome_mistake _ _

theorem outcome_typeBinary (op : Operator) {l r : Typed K} (hl : WellTyped bs l)
    (hr : WellTyped bs r) : Outcome (WellTyped bs) AnyError (typeBinary s op l r) := by
  cases op with
  | add => exact outcome_typeAdditive fun _ h => .add hl hr h
  | sub => exact outcome_typeAdditive fun _ h => .sub hl hr h
  | mul => exact outcome_typeProduct true hl hr
  | matmul => exact outcome_typeProduct false hl hr

/-! ## Calls -/

namespace Call

/-- The nodes of the arguments are well typed. -/
def In (c : Call K) (bs : Array Binding) : Prop :=
  ∀ r ∈ c.typedArgs, Outcome (WellTyped bs) AnyError r

variable {c : Call K}

theorem outcome_node (hc : c.In bs) (i : Nat) :
    Outcome (WellTyped bs) AnyError (c.node i) := by
  unfold node
  split
  · exact hc _ (List.mem_of_getElem? ‹_›)
  · exact outcome_mistake _ _

theorem outcome_weibullFactor (hc : c.In bs) (i : Nat) :
    Outcome (fun e => WellTyped bs e ∧ e.linear = false ∧ e.shape.isScalar = true) AnyError
      (c.weibullFactor i) := by
  unfold weibullFactor
  refine (outcome_node hc i).bind fun e he => ?_
  split
  · exact outcome_mistake _ _
  · rename_i hdata
    simp only [Bool.or_eq_true, not_or, Bool.not_eq_true, Bool.not_eq_false'] at hdata
    exact ⟨he, hdata⟩

/-- The number of dimensions is one or two wherever a lifetime distribution is made. -/
theorem outcome_weibull [Scalar K] [Transcendental K] (hc : c.In bs) :
    Outcome (WellTyped bs) AnyError c.weibull := by
  unfold weibull
  refine Outcome.bind_any fun dims => ?_
  split
  · exact outcome_mistake _ _
  rename_i hdims
  -- The check is on the number as written, the node holds the count that it stands for.
  have hcount : dims.toNatClampNeg = 1 ∨ dims.toNatClampNeg = 2 := by
    rcases Decidable.not_and_iff_not_or_not.mp hdims with h | h
    · rw [Decidable.not_not.mp h]
      exact .inl rfl
    · rw [Decidable.not_not.mp h]
      exact .inr rfl
  generalize dims.toNatClampNeg = count at hcount
  refine Outcome.bind_any fun n => ?_
  split
  · exact outcome_mistake _ _
  split
  · rename_i scale shape _ _
    have hdist := Weibull.outcome_distribution scale shape (n := n) hcount
    split
    · exact .data (hdist.value ‹_›).valid
    · trivial
  · refine (outcome_weibullFactor hc 0).bind fun scale hscale => ?_
    refine (outcome_weibullFactor hc 1).bind fun shape hshape => ?_
    exact .weibull hscale.1 hshape.1 hscale.2.1 hshape.2.1 hscale.2.2 hshape.2.2 hcount

theorem outcome_diagonal (hc : c.In bs) : Outcome (WellTyped bs) AnyError c.diagonal := by
  unfold diagonal
  refine (outcome_node hc 0).bind fun e he => ?_
  dsimp only
  split
  · exact .diagonalMatrix he ‹_›
  rename_i hv
  split
  · exact .diagonalColumn he (by simpa using hv) ‹_›
  · exact outcome_mistake _ _

theorem outcome_sum [Scalar K] (hc : c.In bs) :
    Outcome (WellTyped bs) AnyError c.sum := by
  unfold sum
  refine (outcome_node hc 0).bind fun e he => ?_
  split
  · exact .total he
  refine Outcome.bind_any fun axis => ?_
  split
  · exact .columnSums he
  split
  · exact .rowSums he
  · exact outcome_mistake _ _

theorem outcome_multiply (hc : c.In bs) : Outcome (WellTyped bs) AnyError c.multiply := by
  unfold multiply
  refine (outcome_node hc 0).bind fun l hl => (outcome_node hc 1).bind fun r hr => ?_
  split
  · exact outcome_mistake _ _
  rename_i hlinear
  split
  · refine .elementwise hl hr ?_ ‹_›
    simpa only [Bool.and_eq_true, not_and_or, Bool.not_eq_true] using hlinear
  · exact outcome_mistake _ _

/-- Whatever a call is typed to is well typed. -/
theorem outcome_typed [Scalar K] [Transcendental K] (hc : c.In bs) :
    Outcome (WellTyped bs) AnyError c.typed := by
  unfold typed
  split
  · exact outcome_mistake _ _
  · exact outcome_mistake _ _
  · exact outcome_weibull hc
  · exact outcome_diagonal hc
  · exact outcome_sum hc
  · exact outcome_multiply hc
  · exact (outcome_node hc 0).bind fun e he => .transpose he
  · exact (outcome_node hc 0).bind fun e he => Outcome.bind_any fun k => .shift he k
  · refine (outcome_node hc 0).bind fun e he => ?_
    split
    · exact outcome_mistake _ _
    · exact Outcome.bind_any fun p => .power he (by simpa using ‹¬e.linear = true›) p
  · refine (outcome_node hc 0).bind fun e he => ?_
    split
    · exact outcome_mistake _ _
    split
    · exact outcome_mistake _ _
    · exact .inverse he (by simpa using ‹¬e.linear = true›)
        (by simpa using ‹¬(!e.shape.isSquare) = true›)

end Call

/-! ## Formulas -/

variable [Scalar K] [Transcendental K]

mutual

/-- Whatever a formula is typed to is well typed. -/
theorem outcome_typed (hs : s.In bs) :
    ∀ e : Formula K, Outcome (WellTyped bs) AnyError (e.typed s)
  | .number v => .number v
  | .name n => outcome_typeName hs n
  | .negate e => by
      rw [typed]
      exact (outcome_typed hs e).bind fun e he => .negate he
  | .binary op l r => by
      rw [typed]
      exact (outcome_typed hs l).bind fun l hl =>
        (outcome_typed hs r).bind fun r hr => outcome_typeBinary op hl hr
  | .call f args => by
      rw [typed]
      exact Call.outcome_typed (outcome_typedAll hs args)

theorem outcome_typedAll (hs : s.In bs) :
    ∀ (es : List (Formula K)), ∀ r ∈ typedAll s es, Outcome (WellTyped bs) AnyError r
  | [] => by simp [typedAll]
  | e :: es => by
      rw [typedAll]
      intro r hr
      rcases List.mem_cons.mp hr with rfl | hr
      · exact outcome_typed hs e
      · exact outcome_typedAll hs es r hr

end

end Formula

/-! ## Statements -/

namespace Form

variable {K : Type}

/-- The nodes of the trees of a form. -/
def nodes : Form K → List (Typed K)
  | constraint l _ r => l.nodes ++ r.nodes
  | objective _ e | value e => e.nodes

/-- The trees are well typed, the sides of a constraint fit together, and an objective is a single
form. -/
inductive WellTyped (bs : Array Binding) : Form K → Prop
  | constraint {l r : Typed K} (rel : Relation) (hl : l.WellTyped bs) (hr : r.WellTyped bs)
      (hs : ∃ s, Shape.broadcast? l.shape r.shape = some s) : WellTyped bs (.constraint l rel r)
  | objective {e : Typed K} (sense : Sense) (he : e.WellTyped bs)
      (hs : e.shape.isScalar = true) : WellTyped bs (.objective sense e)
  | value {e : Typed K} (he : e.WellTyped bs) : WellTyped bs (.value e)

theorem WellTyped.of_mem_nodes {bs : Array Binding} {f : Form K} {n : Typed K}
    (h : f.WellTyped bs) (hn : n ∈ f.nodes) : n.WellTyped bs := by
  cases h with
  | constraint rel hl hr hs =>
      rcases List.mem_append.mp hn with hn | hn
      · exact hl.of_mem_nodes hn
      · exact hr.of_mem_nodes hn
  | objective sense he hs => exact he.of_mem_nodes hn
  | value he => exact he.of_mem_nodes hn

end Form

namespace Formula

variable {K : Type} {s : Scope} {bs : Array Binding} [Scalar K] [Transcendental K]

theorem outcome_typeObjective (hs : s.In bs) (sense : Sense) (e : Formula K) :
    Outcome (Form.WellTyped bs) AnyError (typeObjective s sense e) := by
  unfold typeObjective
  refine (outcome_typed hs e).bind fun e he => ?_
  split
  · exact .objective sense he ‹_›
  · exact outcome_mistake _ _

theorem outcome_typeValue (hs : s.In bs) (e : Formula K) :
    Outcome (Form.WellTyped bs) AnyError (typeValue s e) := by
  unfold typeValue
  split
  · split
    · exact outcome_typeObjective hs _ _
    · exact (outcome_typed hs _).map fun _ he => .value he
  · exact (outcome_typed hs _).map fun _ he => .value he

theorem outcome_typeStatement (hs : s.In bs) (st : Statement K) :
    Outcome (Form.WellTyped bs) AnyError (typeStatement s st) := by
  cases st with
  | value e => exact outcome_typeValue hs e
  | relation l rel r =>
      unfold typeStatement
      refine (outcome_typed hs l).bind fun l hl => (outcome_typed hs r).bind fun r hr => ?_
      split
      · rename_i hshapes
        refine .constraint rel hl hr ?_
        simp only [Shape.broadcast?, Bool.or_eq_true, beq_iff_eq]
        split
        · exact ⟨_, rfl⟩
        · rename_i hfirst
          rw [if_pos (by tauto)]
          exact ⟨_, rfl⟩
      · exact outcome_mistake _ _

/-! ## Texts -/

omit [Scalar K] [Transcendental K] in
/-- The bindings that names are tied to are those of the catalog. -/
theorem outcome_bindNames {c : Catalog K} (hc : c.Addressed) (text : String) (key : ProblemKey)
    (item : Option String) (names : List String) :
    Outcome (fun r => ∀ entries, r = some entries → (Scope.mk text entries).In c.bindings) AnyError
      (bindNames c text key item names) := by
  induction names with
  | nil =>
      intro entries hentries
      cases hentries
      simp [Scope.In]
  | cons symbol rest ih =>
      unfold bindNames
      split
      · trivial
      dsimp only
      split
      · simp [Outcome]
      · rename_i b hcandidates
        -- The only candidate that is left over by both filters is one of the bindings.
        have hb : b ∈ c.bindings := by
          have hmem : b ∈ c.candidates symbol key _ := hcandidates ▸ List.mem_singleton_self b
          exact Array.mem_toList_iff.mp (List.mem_of_mem_filter (List.mem_of_mem_filter hmem))
        obtain ⟨i, hi⟩ := Array.getElem?_of_mem hb
        refine ih.bind fun found hfound entries hentries => ?_
        obtain ⟨known, rfl, rfl⟩ := Option.map_eq_some_iff.mp hentries
        intro entry hentry
        rcases List.mem_cons.mp hentry with rfl | hentry
        · rw [hc.binding_id i b hi]
          exact hi
        · exact hfound known rfl entry hentry
      · trivial

/-- Every form of a compiled text is well typed. -/
theorem wellTyped_of_compile {c : Catalog K} (hc : c.Addressed) {text : String} {key : ProblemKey}
    {instances : List (Instance K)} (h : compile c text key = .ok instances) :
    ∀ i ∈ instances, i.form.WellTyped c.bindings := by
  refine Outcome.value (E := AnyError)
    (P := fun is : List (Instance K) => ∀ i ∈ is, i.form.WellTyped c.bindings) ?_ h
  unfold compile
  refine Outcome.bind_any fun statement => Outcome.bind_any fun intra => ?_
  refine (Outcome.mapM_forall
    (Q := fun r => ∀ i : Instance K, r = some i → i.form.WellTyped c.bindings)
    fun item _ => ?_).bind fun found hfound => ?_
  · refine (outcome_bindNames hc text key item _).bind fun r hr => ?_
    split
    · simp [Outcome, pure, Except.pure]
    · refine ((outcome_typeStatement (hr _ rfl) statement).mapError (f := ModelError.expression)
        fun _ _ => trivial).bind fun form hform => ?_
      intro i hi
      cases hi
      exact hform
  · intro i hi
    obtain ⟨r, hr, rfl⟩ := List.mem_filterMap.mp hi
    exact hfound _ hr i rfl

end Formula

/-! ## A small catalog -/

namespace Catalog.Purchases

/-- What the purchases cost. -/
def cost : Typed Rat :=
  .matmul ⟨⟨1, 1⟩, true⟩ (.transpose ⟨⟨1, 2⟩, false⟩ (.binding ⟨⟨2, 1⟩, false⟩ 0))
    (.binding ⟨⟨2, 1⟩, true⟩ 1)

/-- At least three must be spent. -/
def least : Instance Rat :=
  ⟨"tran(p) @ x >= 3", none, .constraint cost .ge (.number 3)⟩

theorem compile_least : Formula.compile catalog least.text ⟨[]⟩ = .ok [least] := by
  decide +kernel

end Catalog.Purchases

end CoupledModels
