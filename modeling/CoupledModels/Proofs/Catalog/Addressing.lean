import CoupledModels.Affine.Basic
import CoupledModels.Catalog.Build
import CoupledModels.Proofs.Outcome

/-!
# Addressing in a catalog

Bindings are numbered, and what a binding refers to is numbered as well.  `Catalog.Addressed` says
that all these numbers lead somewhere: a binding has its own number, its parameter or constant
exists, and its decision columns are numbered from one, because number zero is that of the constant
term.  A parameter leads back to a binding of its own shape.  Every step of building a catalog keeps
this, so `build_addressed` has it for every catalog that has been built.
-/

namespace CoupledModels.Catalog

variable {K : Type}

/-- What a binding of a given shape may refer to. -/
def Admits (c : Catalog K) (s : Shape) : BindingValue → Prop
  | .slice _ columns => Affine.constantTerm ∉ columns
  | .parameter p => ∃ q : Parameter K, c.parameters[p]? = some q ∧ q.shape = s
  | .constant i => i < c.constants.size

/-- Numbers lead to what they were given for. -/
structure Addressed (c : Catalog K) : Prop where
  binding_id : ∀ (i : Nat) (b : Binding), c.bindings[i]? = some b → b.id = i
  admits : ∀ (i : Nat) (b : Binding), c.bindings[i]? = some b → c.Admits b.shape b.value
  owner : ∀ q ∈ c.parameters, ∃ b : Binding, c.bindings[q.binding]? = some b ∧ b.shape = q.shape
  block_first : ∀ b ∈ c.blocks, 0 < b.first
  values_pos : 0 < c.values.size

/-- A reference stays good when parameters keep their shapes and nothing is taken away. -/
theorem Admits.mono {c d : Catalog K} {s : Shape} {v : BindingValue} (h : c.Admits s v)
    (hparameters : ∀ (p : Nat) (q : Parameter K), c.parameters[p]? = some q →
      ∃ q' : Parameter K, d.parameters[p]? = some q' ∧ q'.shape = q.shape)
    (hconstants : c.constants.size ≤ d.constants.size) : d.Admits s v := by
  cases v with
  | slice k columns => exact h
  | parameter p =>
      obtain ⟨q, hq, rfl⟩ := h
      exact hparameters p q hq
  | constant i => exact Nat.lt_of_lt_of_le h hconstants

theorem getElem?_push_of_some {α : Type} {xs : Array α} {a b : α} {i : Nat}
    (h : xs[i]? = some b) : (xs.push a)[i]? = some b := by
  have hi : i < xs.size := (Array.getElem?_eq_some_iff.mp h).1
  rw [Array.getElem?_push_lt hi, ← Array.getElem?_eq_getElem hi, h]

namespace Addressed

theorem start [Scalar K] (tables : List TableDeclaration) : (start (K := K) tables).Addressed where
  binding_id := by simp [Catalog.start]
  admits := by simp [Catalog.start]
  owner := by simp [Catalog.start]
  block_first := by simp [Catalog.start]
  values_pos := by simp [Catalog.start]

variable {c : Catalog K}

/-! ## Blocks and variables -/

/-- A block that is added starts behind the constant term. -/
theorem addBlock (h : c.Addressed) (t : TableDeclaration) (b : RowBlock) :
    (addBlock t c b).Addressed where
  binding_id := h.binding_id
  admits := fun i b hb => (h.admits i b hb).mono (fun _ q hq => ⟨q, hq, rfl⟩) (Nat.le_refl _)
  owner := h.owner
  block_first := by
    intro b' hb'
    rcases Array.mem_push.mp hb' with hb' | rfl
    · exact h.block_first b' hb'
    · exact h.values_pos
  values_pos := by
    have hpos := h.values_pos
    simp only [Catalog.addBlock, Array.size_append]
    omega

theorem addBlocks (h : c.Addressed) (t : TableDeclaration) (bs : List RowBlock) :
    (bs.foldl (Catalog.addBlock t) c).Addressed := by
  induction bs generalizing c with
  | nil => exact h
  | cons b bs ih => exact ih (h.addBlock t b)

theorem withMembers (h : c.Addressed) (vs : List Variable) :
    ({ c with members := vs } : Catalog K).Addressed where
  binding_id := h.binding_id
  admits := fun i b hb => (h.admits i b hb).mono (fun _ q hq => ⟨q, hq, rfl⟩) (Nat.le_refl _)
  owner := h.owner
  block_first := h.block_first
  values_pos := h.values_pos

theorem addVariable (h : c.Addressed) (t : TableDeclaration) (sets : Registry)
    (v : VariableDeclaration) : Outcome Addressed AnyError (addVariable t sets c v) := by
  unfold Catalog.addVariable
  dsimp only
  split
  · trivial
  · exact Outcome.bind_any fun r => h.withMembers _

theorem addTable (h : c.Addressed) (sets : Registry) (keys : List ProblemKey)
    (t : TableDeclaration) : Outcome Addressed AnyError (addTable sets keys c t) := by
  unfold Catalog.addTable
  refine Outcome.bind_any fun _ => ?_
  have hmembers : ∀ d : Catalog K, d.Addressed →
      Outcome Addressed AnyError (t.members.foldlM (Catalog.addVariable t sets) d) :=
    fun d hd => Outcome.foldlM hd fun d hd v _ => hd.addVariable t sets v
  dsimp only
  split
  · exact Outcome.bind_any fun bs => hmembers _ (h.addBlocks t bs)
  · exact hmembers c h

/-! ## Bindings -/

/-- A binding that is added gets its own number.  Parameters that are added with it are its own. -/
theorem pushBinding (h : c.Addressed) {parameters : Array (Parameter K)} (v : Variable)
    (scope : Option ProblemKey) (inter : List Coordinate) (intra : Option String)
    {value : BindingValue}
    (hkept : ∀ (p : Nat) (q : Parameter K), c.parameters[p]? = some q → parameters[p]? = some q)
    (hadded : ∀ q ∈ parameters,
      q ∈ c.parameters ∨ q.binding = c.bindings.size ∧ q.shape = v.shape)
    (hvalue : ({ c with parameters := parameters } : Catalog K).Admits v.shape value) :
    (({ c with parameters := parameters } : Catalog K).pushBinding v scope inter intra
      value).Addressed where
  binding_id := by
    intro i b hb
    rw [Catalog.pushBinding] at hb
    simp only [Array.getElem?_push] at hb
    split at hb
    · cases hb
      rename_i hi
      exact hi.symm
    · exact h.binding_id i b hb
  admits := by
    intro i b hb
    rw [Catalog.pushBinding] at hb
    simp only [Array.getElem?_push] at hb
    split at hb
    · cases hb
      exact hvalue.mono (fun _ q hq => ⟨q, hq, rfl⟩) (Nat.le_refl _)
    · exact (h.admits i b hb).mono (fun p q hq => ⟨q, hkept p q hq, rfl⟩) (Nat.le_refl _)
  owner := by
    intro q hq
    rw [Catalog.pushBinding]
    rcases hadded q hq with hold | ⟨hbinding, hshape⟩
    · obtain ⟨b, hb, hs⟩ := h.owner q hold
      exact ⟨b, getElem?_push_of_some hb, hs⟩
    -- A parameter of this binding leads back to the one that is being added.
    · simp only [hbinding, Array.getElem?_push_size, Option.some.injEq]
      exact ⟨_, rfl, hshape.symm⟩
  block_first := h.block_first
  values_pos := h.values_pos

theorem pushConstant (h : c.Addressed) (m : Matrix K) :
    ({ c with constants := c.constants.push m } : Catalog K).Addressed where
  binding_id := h.binding_id
  admits := fun i b hb => (h.admits i b hb).mono (fun _ q hq => ⟨q, hq, rfl⟩) (by simp)
  owner := h.owner
  block_first := h.block_first
  values_pos := h.values_pos

/-- The columns of a slice are those of a block, none of which is the constant term. -/
theorem slice (h : c.Addressed) (v : Variable) (intra : Option String) (inter : List Coordinate) :
    Outcome (c.Admits v.shape) AnyError (c.slice v intra inter) := by
  unfold Catalog.slice
  dsimp only
  split
  · trivial
  split
  · trivial
  rename_i i _ block hblock
  have hfirst : 0 < block.first := h.block_first block (Array.mem_of_getElem? hblock)
  -- Columns count from the first of the block, which is never zero.
  refine (Outcome.mapM_forall (Q := fun column => 0 < column) fun cell _ => ?_).bind
    fun columns hcolumns => ?_
  · split
    · rename_i column hcolumn
      simp only [Block.column?, Option.map_eq_some_iff] at hcolumn
      obtain ⟨offset, -, rfl⟩ := hcolumn
      exact Nat.lt_of_lt_of_le hfirst (Nat.le_add_right _ _)
    · trivial
  · exact fun hzero => Nat.lt_irrefl 0 (hcolumns _ hzero)

theorem addSite (h : c.Addressed) (v : Variable) (s : Site) :
    Outcome Addressed AnyError (addSite v c s) := by
  unfold Catalog.addSite
  split
  · refine h.pushBinding v s.scope s.inter s.intra (fun _ _ hq => getElem?_push_of_some hq)
      (fun q hq => ?_) ⟨_, Array.getElem?_push_size, rfl⟩
    rcases Array.mem_push.mp hq with hold | rfl
    · exact .inl hold
    · exact .inr ⟨rfl, rfl⟩
  · exact (h.slice v s.intra s.inter).bind fun value hvalue =>
      h.pushBinding v s.scope s.inter s.intra (fun _ _ hq => hq) (fun _ hq => .inl hq) hvalue
  · trivial

theorem addBindings [Scalar K] (h : c.Addressed) (keys : List ProblemKey) (v : Variable) :
    Outcome Addressed AnyError (addBindings keys c v) := by
  unfold Catalog.addBindings
  split
  · refine Outcome.bind_any fun m => ?_
    exact (h.pushConstant m).pushBinding v none [] none (fun _ _ hq => hq) (fun _ hq => .inl hq)
      (by simp only [Admits, Array.size_push]; omega)
  · exact Outcome.bind_any fun ss => Outcome.foldlM h fun c hc s _ => hc.addSite v s

end Addressed

/-- Every catalog that has been built is addressed. -/
theorem build_addressed [Scalar K] {tables : List TableDeclaration} {sets : Registry} {c : Catalog K}
    (h : build tables sets = .ok c) : c.Addressed := by
  refine Outcome.value (E := AnyError) ?_ h
  unfold build
  dsimp only
  split
  · trivial
  · refine (Outcome.foldlM (Addressed.start tables) fun c hc t _ =>
      hc.addTable sets sets.problemKeys t).bind fun c hc => ?_
    exact Outcome.foldlM hc fun c hc v _ => hc.addBindings sets.problemKeys v

end CoupledModels.Catalog
