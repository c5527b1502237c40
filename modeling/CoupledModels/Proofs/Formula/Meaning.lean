import CoupledModels.Proofs.Affine.Denotation
import CoupledModels.Proofs.Formula.Lowering

/-!
# Lowering preserves meaning

The expression that a well-typed tree is lowered to denotes the matrix that the tree means, whatever
numbers the decision columns have.  The induction is over the typing rules; each step carries the
type of the expression along, because a product needs to know which of its operands is a matrix of
numbers.
-/

namespace CoupledModels

/-! ## Matrices -/

namespace Grid

variable {g h : Grid} {s : Shape}

theorem zipWith?_comm {f : Rat → Rat → Rat} (hf : ∀ v w, f v w = f w v)
    (hs : Shape.broadcast? g.shape h.shape = some s) : g.zipWith? f h = h.zipWith? f g := by
  rw [zipWith?, zipWith?, hs, Shape.broadcast?_comm hs]
  simp only [Option.map_some, hf]

/-- Stretching a single number to a shape gives that number everywhere. -/
theorem entry_stretch_of_isScalar (hg : g.shape = .scalar) {i j : Nat} (hi : i < s.rows)
    (hj : j < s.cols) : (g.stretch s).entry i j = g.entry 0 0 := by
  rw [stretch]
  split
  · rename_i heq
    rw [hg] at heq
    subst heq
    obtain rfl : i = 0 := by simpa [Shape.scalar] using hi
    obtain rfl : j = 0 := by simpa [Shape.scalar] using hj
    rfl
  · rfl

theorem stretch_self : (g.stretch g.shape).entry = g.entry := by
  rw [stretch, if_pos rfl]

end Grid

namespace Affine.Denotes

variable {x : Nat → Rat} {e : Affine Rat} {g h k : Grid}

theorem congr (hg : e.Denotes x g) (hs : h.shape = g.shape)
    (hentry : ∀ i < g.shape.rows, ∀ j < g.shape.cols, g.entry i j = h.entry i j) :
    e.Denotes x h where
  shape := hs.trans hg.shape
  entry := by
    intro i hi j hj
    rw [hg.entry i hi j hj]
    exact hentry i (by rwa [hg.shape]) j (by rwa [hg.shape])

/-- Scaling by a single number is an element-wise product. -/
theorem scale? (hs : g.shape.isScalar = true ∨ h.shape.isScalar = true)
    (hk : g.zipWith? (· * ·) h = some k) (he : e.Denotes x k) :
    ∃ k', g.scale? h = some k' ∧ e.Denotes x k' := by
  rw [Grid.zipWith?, Shape.broadcast?_of_isScalar hs, Option.map_some, Option.some_inj] at hk
  subst hk
  by_cases hgs : g.shape.isScalar = true
  · rw [if_pos hgs] at he
    refine ⟨h.map fun v => g.entry 0 0 * v, if_pos hgs, he.congr rfl fun i hi j hj => ?_⟩
    simp only [Grid.map, Grid.stretch_self]
    rw [Grid.entry_stretch_of_isScalar (Shape.isScalar_iff.mp hgs) hi hj]
  · have hhs : h.shape.isScalar = true := hs.resolve_left hgs
    rw [if_neg hgs] at he
    refine ⟨g.map fun v => v * h.entry 0 0, by rw [Grid.scale?, if_neg hgs, if_pos hhs],
      he.congr rfl fun i hi j hj => ?_⟩
    simp only [Grid.map, Grid.stretch_self]
    rw [Grid.entry_stretch_of_isScalar (Shape.isScalar_iff.mp hhs) hi hj]

end Affine.Denotes

namespace Typed

variable {d : Catalog Rat} {x : Nat → Rat}

theorem outcome_lift_of {α : Type} {P Q : α → Prop} {r : Except ArrayError α}
    (h : ∃ a, r = .ok a ∧ P a) (hQ : ∀ a, r = .ok a → Q a) :
    Outcome (fun a => P a ∧ Q a) AnyError (lift r) := by
  obtain ⟨a, ha, hP⟩ := h
  exact outcome_lift ⟨a, ha, hP, hQ a ha⟩

/-- The expression of a data matrix denotes the matrix. -/
theorem denotes_hasShape {m : Matrix Rat} {s : Shape} (h : m.HasShape s) :
    (Affine.ofMatrix m).HasType ⟨s, false⟩ ∧ (Affine.ofMatrix m).Denotes x (Grid.ofMatrix m) :=
  ⟨hasType_ofMatrix h, Affine.denotes_ofMatrix h.valid⟩

/-- The expression of the array of a matrix denotes the matrix. -/
theorem denotes_dense (g : Grid) :
    (Affine.ofMatrix g.dense).HasType ⟨g.shape, false⟩ ∧
      (Affine.ofMatrix g.dense).Denotes x g := by
  obtain ⟨htype, hdenotes⟩ := denotes_hasShape (x := x) (Tensor.HasShape.ofFn g.shape g.entry)
  refine ⟨htype, hdenotes.congr rfl fun i hi j hj => ?_⟩
  exact Matrix.get_ofFn g.entry hi hj

theorem map_dense (g : Grid) (f : Rat → Rat) : g.dense.map f = (g.map f).dense := by
  simp only [Grid.dense, Grid.map, Matrix.ofFn, Tensor.map, Tensor.elements_dense, map_tabulate]
  rfl

theorem get_dense_of_isScalar {g : Grid} (h : g.shape.isScalar = true) :
    g.dense.get 0 0 = g.entry 0 0 := by
  have hs : g.shape = .scalar := Shape.isScalar_iff.mp h
  exact Matrix.get_ofFn g.entry (by simp [hs, Shape.scalar]) (by simp [hs, Shape.scalar])

/-! ## Nodes -/

variable [Transcendental Rat]

/-- If a tree is lowered, the expression has the tree's type and denotes what the tree means. -/
def Means (d : Catalog Rat) (x : Nat → Rat) (e : Typed Rat) : Prop :=
  Outcome (fun a => Affine.HasType a e.type ∧ ∃ g, e.eval d x = some g ∧ a.Denotes x g) AnyError
    (e.lower d)

/-- The numbers of a tree without decision variables are what the tree means. -/
theorem Means.value {e : Typed Rat} (h : e.Means d x) (hdata : e.linear = false) :
    Outcome (fun m => ∃ g, e.eval d x = some g ∧ g.shape = e.shape ∧ m = g.dense) AnyError
      (e.lower d >>= numbers) := by
  refine Outcome.bind h fun a ⟨ha, g, hg, hag⟩ => ?_
  have hvalue := hag.constantValue?_eq ha hdata
  rw [numbers, hvalue]
  exact ⟨g, hg, hag.shape.trans ha.shape, rfl⟩

/-- A node that changes its operand's expression without fail. -/
theorem Means.map {e n : Typed Rat} (h : e.Means d x) {f : Affine Rat → Affine Rat} {g : Grid → Grid}
    (hlower : n.lower d = e.lower d >>= fun a => pure (f a))
    (heval : n.eval d x = (e.eval d x).map g)
    (htype : ∀ {a}, Affine.HasType a e.type → (f a).HasType n.type)
    (hdenotes : ∀ {a m}, Affine.HasType a e.type → a.Denotes x m → (f a).Denotes x (g m)) :
    n.Means d x := by
  unfold Means
  rw [hlower, heval]
  refine Outcome.bind h ?_
  rintro a ⟨ha, m, hm, ham⟩
  exact ⟨htype ha, g m, by rw [hm, Option.map_some], hdenotes ha ham⟩

/-- A node that changes its operand's expression if the shape fits. -/
theorem Means.lift {e n : Typed Rat} (h : e.Means d x)
    {f : Affine Rat → Except ArrayError (Affine Rat)} {g : Grid → Option Grid}
    (hlower : n.lower d = e.lower d >>= fun a => Typed.lift (f a))
    (heval : n.eval d x = (e.eval d x).bind g)
    (htype : ∀ {a}, Affine.HasType a e.type → ∃ r, f a = .ok r ∧ r.HasType n.type)
    (hdenotes : ∀ {a m r}, a.Denotes x m → f a = .ok r → ∃ k, g m = some k ∧ r.Denotes x k) :
    n.Means d x := by
  unfold Means
  rw [hlower, heval]
  refine Outcome.bind h ?_
  rintro a ⟨ha, m, hm, ham⟩
  refine outcome_lift_of (htype ha) fun r hr => ?_
  obtain ⟨k, hk, hrk⟩ := hdenotes ham hr
  exact ⟨k, by rw [hm, Option.bind_some, hk], hrk⟩

/-- A node that joins the expressions of its operands if their shapes fit. -/
theorem Means.join {l r n : Typed Rat} (hl : l.Means d x) (hr : r.Means d x)
    {f : Affine Rat → Affine Rat → Except ArrayError (Affine Rat)} {g : Grid → Grid → Option Grid}
    (hlower : n.lower d = l.lower d >>= fun a => r.lower d >>= fun b => Typed.lift (f a b))
    (heval : n.eval d x = (l.eval d x).bind fun m => (r.eval d x).bind (g m))
    (htype : ∀ {a b}, Affine.HasType a l.type → Affine.HasType b r.type →
      ∃ e, f a b = .ok e ∧ e.HasType n.type)
    (hdenotes : ∀ {a b m m' e}, Affine.HasType a l.type → Affine.HasType b r.type →
      a.Denotes x m → b.Denotes x m' → f a b = .ok e → ∃ k, g m m' = some k ∧ e.Denotes x k) :
    n.Means d x := by
  unfold Means
  rw [hlower, heval]
  refine Outcome.bind hl ?_
  rintro a ⟨ha, m, hm, ham⟩
  refine Outcome.bind hr ?_
  rintro b ⟨hb, m', hm', hbm⟩
  refine outcome_lift_of (htype ha hb) fun e he => ?_
  obtain ⟨k, hk, hek⟩ := hdenotes ha hb ham hbm he
  exact ⟨k, by rw [hm, hm', Option.bind_some, Option.bind_some, hk], hek⟩

theorem means_binding (hd : d.Sound) {b : Binding} (hb : d.bindings[b.id]? = some b) :
    (Typed.binding ⟨b.shape, b.isDecision⟩ b.id).Means d x := by
  have htype := lowers_binding (E := AnyError) hd hb fun _ _ _ _ => trivial
  have hmem : b ∈ d.bindings := Array.mem_of_getElem? hb
  unfold Lowers at htype
  refine Outcome.of_forall fun a ha => ⟨htype.value ha, ?_⟩
  simp only [lower, lowerBinding, hb] at ha
  simp only [eval, evalBinding, hb, bind, Option.bind_some, pure]
  -- lowering and evaluating look up what the binding refers to in the same place
  cases hvalue : b.value with
  | slice block columns =>
      rw [hvalue] at ha
      cases hr : Affine.ofVariables (K := Rat) b.shape columns with
      | error err => simp [hr, lift, Except.mapError] at ha
      | ok r =>
          obtain rfl : r = a := by simpa [hr, lift, Except.mapError] using ha
          exact ⟨_, rfl, Affine.denotes_ofVariables hr⟩
  | parameter p =>
      rw [hvalue] at ha
      simp only [Catalog.parameterValue] at ha
      cases hq : d.parameters[p]? with
      | none => simp [hq, Except.map] at ha
      | some q =>
          cases hm : q.value with
          | none => simp [hq, hm, Except.map] at ha
          | some m =>
              obtain rfl : Affine.ofMatrix m = a := by simpa [hq, hm, Except.map] using ha
              have hshape := hd.wellShaped.parameter q (Array.mem_of_getElem? hq) m hm
              exact ⟨Grid.ofMatrix m, by simp [hq, hm], Affine.denotes_ofMatrix hshape.valid⟩
  | constant i =>
      rw [hvalue] at ha
      cases hm : d.constants[i]? with
      | none => simp [hm] at ha
      | some m =>
          obtain rfl : Affine.ofMatrix m = a := by simpa [hm] using ha
          have hshape := hd.wellShaped.constant b hmem i m hvalue hm
          exact ⟨Grid.ofMatrix m, by simp [hm], Affine.denotes_ofMatrix hshape.valid⟩

variable {l r : Typed Rat}

/-- A product element by element, with either operand as the matrix of numbers. -/
theorem means_elementwise (hl : l.Means d x) (hr : r.Means d x)
    (hdata : l.linear = false ∨ r.linear = false) {s : Shape}
    (hs : Shape.broadcast? l.shape r.shape = some s) (t : FormulaType) :
    Outcome (fun a => Affine.HasType a ⟨s, l.linear || r.linear⟩ ∧
        ∃ g h k, l.eval d x = some g ∧ r.eval d x = some h ∧ g.shape = l.shape ∧ h.shape = r.shape ∧
          g.zipWith? (· * ·) h = some k ∧ a.Denotes x k) AnyError
      ((Typed.elementwise t l r).lower d) := by
  rw [lower]
  split
  · rename_i hlinear
    have hrdata : r.linear = false := hdata.resolve_left (by simp [hlinear])
    rw [hrdata, Bool.or_false]
    refine Outcome.bind hl ?_
    rintro a ⟨ha, g, hg, hag⟩
    refine (hr.value hrdata).bind ?_
    rintro m ⟨h, hh, hshape, rfl⟩
    rw [← hshape] at hs
    refine outcome_lift_of (ha.mulElementwise hs) fun e he => ?_
    obtain ⟨k, hk, hek⟩ := hag.mulElementwise ha hs he
    exact ⟨g, h, k, hg, hh, hag.shape.trans ha.shape, hshape, hk, hek⟩
  · rename_i hlinear
    have hldata : l.linear = false := by simpa using hlinear
    rw [hldata, Bool.false_or]
    refine Outcome.bind hr ?_
    rintro a ⟨ha, h, hh, hah⟩
    refine (hl.value hldata).bind ?_
    rintro m ⟨g, hg, hshape, rfl⟩
    have hhshape : h.shape = r.shape := hah.shape.trans ha.shape
    rw [← hshape] at hs
    refine outcome_lift_of (ha.mulElementwise (Shape.broadcast?_comm hs)) fun e he => ?_
    obtain ⟨k, hk, hek⟩ := hah.mulElementwise ha (Shape.broadcast?_comm hs) he
    rw [← hhshape] at hs
    -- The factors have changed places, which products of numbers do not notice.
    rw [← Grid.zipWith?_comm mul_comm hs] at hk
    exact ⟨g, h, k, hg, hh, hshape, hhshape, hk, hek⟩

theorem means_matmul (hl : l.Means d x) (hr : r.Means d x)
    (hdata : l.linear = false ∨ r.linear = false) (hs : l.shape.cols = r.shape.rows) :
    (Typed.matmul ⟨⟨l.shape.rows, r.shape.cols⟩, l.linear || r.linear⟩ l r).Means d x := by
  unfold Means
  rw [lower, type]
  -- the factor without decisions is evaluated to a matrix, the other one stays an expression
  split
  · rename_i hlinear
    have hrdata : r.linear = false := hdata.resolve_left (by simp [hlinear])
    rw [hrdata, Bool.or_false]
    refine Outcome.bind hl ?_
    rintro a ⟨ha, g, hg, hag⟩
    refine (hr.value hrdata).bind ?_
    rintro m ⟨h, hh, hshape, rfl⟩
    rw [← hshape] at hs ⊢
    refine outcome_lift_of (ha.mulRight hs) fun e he => ?_
    obtain ⟨k, hk, hek⟩ := hag.mulRight he
    exact ⟨k, by simp [eval, hg, hh, hk], hek⟩
  · rename_i hlinear
    have hldata : l.linear = false := by simpa using hlinear
    rw [hldata, Bool.false_or]
    refine Outcome.bind hr ?_
    rintro a ⟨ha, h, hh, hah⟩
    refine (hl.value hldata).bind ?_
    rintro m ⟨g, hg, hshape, rfl⟩
    rw [← hshape] at hs ⊢
    refine outcome_lift_of (ha.mulLeft hs) fun e he => ?_
    obtain ⟨k, hk, hek⟩ := hah.mulLeft he
    exact ⟨k, by simp [eval, hg, hh, hk], hek⟩

/-! ## Trees -/

/-- Well-typed trees are lowered to expressions that denote what the trees mean. -/
theorem WellTyped.means (hd : d.Sound) {e : Typed Rat} (h : e.WellTyped d.bindings) :
    e.Means d x := by
  induction h with
  | number v => exact ⟨Affine.HasType.scalar v, _, rfl, Affine.denotes_number v⟩
  | binding hb => exact means_binding hd hb
  | data valid => exact ⟨Affine.HasType.ofMatrix valid, _, rfl, Affine.denotes_ofMatrix valid⟩
  | negate _ ih =>
      refine ih.map rfl rfl (fun ha => ha.negate) fun ha ham => ?_
      simpa [Affine.negate] using ham.scale ha (-1)
  | add _ _ hs ihl ihr =>
      exact ihl.join ihr rfl rfl (fun ha hb => ha.add hb hs)
        fun ha hb ham hbm he => ham.add ha hb hbm hs he
  | sub _ _ hs ihl ihr =>
      exact ihl.join ihr rfl rfl (fun ha hb => ha.sub hb hs)
        fun ha hb ham hbm he => ham.sub ha hb hbm hs he
  -- Lowering knows scaling only as the element-wise product of a single number.
  | scale _ _ hdata hs ihl ihr =>
      have hproduct := means_elementwise ihl ihr hdata (Shape.broadcast?_of_isScalar hs) default
      unfold Means
      rw [lower_scale d _ default]
      refine hproduct.imp ?_
      rintro a ⟨ha, g, h, k, hg, hh, hgs, hhs, hk, hak⟩
      refine ⟨ha, ?_⟩
      rw [← hgs, ← hhs] at hs
      obtain ⟨k', hk', hak'⟩ := hak.scale? hs hk
      exact ⟨k', by rw [eval_scale, hg, hh, Option.bind_some, Option.bind_some, hk'], hak'⟩
  | matmul _ _ hdata hs ihl ihr => exact means_matmul ihl ihr hdata hs
  | elementwise _ _ hdata hs ihl ihr =>
      have hproduct := means_elementwise ihl ihr hdata hs default
      refine hproduct.imp ?_
      rintro a ⟨ha, g, h, k, hg, hh, -, -, hk, hak⟩
      exact ⟨ha, k, by simp [eval, hg, hh, hk], hak⟩
  | transpose _ ih => exact ih.map rfl rfl (fun ha => ha.transpose) fun _ ham => ham.transpose
  | diagonalMatrix _ hv ih =>
      exact ih.lift rfl rfl (fun ha => ha.diagonal_vector hv) fun ham he => ham.diagonal he
  | diagonalColumn _ hv hs ih =>
      exact ih.lift rfl rfl (fun ha => ha.diagonal_square hv hs) fun ham he => ham.diagonal he
  | total _ ih => exact ih.map rfl rfl (fun ha => ha.total) fun ha ham => ham.total ha
  | columnSums _ ih =>
      exact ih.lift rfl rfl (fun ha => ha.sumAxis_zero) fun ham he => ham.sumAxis he
  | rowSums _ ih => exact ih.lift rfl rfl (fun ha => ha.sumAxis_one) fun ham he => ham.sumAxis he
  | shift _ k ih => exact ih.map rfl rfl (fun ha => ha.shift k) fun _ ham => ham.shift k
  | power _ hdata p ih =>
      refine (ih.value hdata).bind ?_
      rintro m ⟨g, hg, hshape, rfl⟩
      rw [map_dense]
      obtain ⟨htype, hdenotes⟩ := denotes_dense (x := x) (g.map fun v => Transcendental.pow v p)
      exact ⟨hshape ▸ htype, _, by rw [eval, hg]; rfl, hdenotes⟩
  | inverse _ hdata hs ih =>
      refine (ih.value hdata).bind ?_
      rintro m ⟨g, hg, hshape, rfl⟩
      have hsquare : g.dense.shape.isSquare = true := by
        rw [← hshape] at hs
        exact hs
      rcases (Matrix.outcome_inverse hsquare).cases with ⟨inv, hinv, hinvshape⟩ | ⟨err, herr, -⟩
      · obtain ⟨htype, hdenotes⟩ := denotes_hasShape (x := x) hinvshape
        simp only [hinv, lift]
        exact ⟨hshape ▸ htype, _, by rw [eval, hg]; simp [hinv, Except.toOption], hdenotes⟩
      · simp only [herr, lift]
        trivial
  | weibull _ _ hldata hrdata hls hrs hdims ihl ihr =>
      refine (ihl.value hldata).bind ?_
      rintro a ⟨g, hg, hgs, rfl⟩
      refine (ihr.value hrdata).bind ?_
      rintro b ⟨h, hh, hhs, rfl⟩
      rw [← hgs] at hls
      rw [← hhs] at hrs
      rw [get_dense_of_isScalar hls, get_dense_of_isScalar hrs]
      split
      · rename_i m hm
        obtain ⟨htype, hdenotes⟩ :=
          denotes_hasShape (x := x) ((Weibull.outcome_distribution _ _ hdims).value hm)
        exact ⟨htype, _, by rw [eval, hg]; simp [hh, hm, Except.toOption], hdenotes⟩
      · trivial

end Typed

/-- Whenever a node of a compiled text is lowered, with whatever data the catalog holds by then, the
elements of the expression have the values of the matrix that the tree means, for all numbers of the
decision columns. -/
theorem lower_denotes_eval [Transcendental Rat] {tables : List TableDeclaration} {sets : Registry}
    {b c d : Catalog Rat} (hbuild : Catalog.build tables sets = .ok b) (hshapes : b.WellShaped)
    (hcompiled : b.Later c) (hlater : c.Later d) {text : String} {key : ProblemKey}
    {instances : List (Instance Rat)} (hcompile : Formula.compile c text key = .ok instances)
    {i : Instance Rat} (hi : i ∈ instances) {e : Typed Rat} (he : e ∈ i.form.nodes)
    {a : Affine Rat} (hlower : e.lower d = .ok a) (x : Nat → Rat) :
    ∃ g, e.eval d x = some g ∧ g.shape = a.shape ∧
      ∀ row < a.shape.rows, ∀ col < a.shape.cols, a.entry x row col = g.entry row col := by
  obtain ⟨hc, -⟩ := hcompiled.sound ⟨Catalog.build_addressed hbuild, hshapes⟩
  obtain ⟨hd, hbindings⟩ := hlater.sound hc
  have htyped := (Formula.wellTyped_of_compile hc.addressed hcompile i hi).of_mem_nodes he
  rw [← hbindings] at htyped
  obtain ⟨-, g, hg, hag⟩ := Outcome.value (htyped.means hd (x := x)) hlower
  exact ⟨g, hg, hag.shape, hag.entry⟩

namespace Catalog.Purchases

theorem isSome_lower_cost : (cost.lower priced).toOption.isSome = true := by
  decide +kernel

theorem lower_denotes_eval_cost :
    ∃ a, cost.lower priced = .ok a ∧ ∀ x : Nat → Rat,
      ∃ g, cost.eval priced x = some g ∧ g.shape = a.shape ∧
        ∀ row < a.shape.rows, ∀ col < a.shape.cols, a.entry x row col = g.entry row col := by
  have hsome := isSome_lower_cost
  cases hlower : cost.lower priced with
  | error e => simp [hlower, Except.toOption] at hsome
  | ok a =>
      have hnode : cost ∈ least.form.nodes := by simp [least, cost, Form.nodes, Typed.nodes]
      exact ⟨a, rfl, lower_denotes_eval build_tables wellShaped_catalog .refl later_priced
        compile_least (List.mem_singleton_self least) hnode hlower⟩

end Catalog.Purchases

end CoupledModels
