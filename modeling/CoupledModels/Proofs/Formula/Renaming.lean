import CoupledModels.Formula.Compile
import CoupledModels.Proofs.Outcome

/-!
# Renaming bindings

Typing looks at the shape of a binding and at whether it has decision variables in it, and writes
down its number.  It never looks at the number itself.  So if two scopes tie the same names to bindings
that differ in their numbers only, a statement is typed to the same form in both of them, up to these
numbers, or it has the same mistake.
-/

namespace CoupledModels

variable {K : Type}

namespace Typed

/-- The tree with other numbers for its bindings. -/
def rename (ρ : Nat → Nat) : Typed K → Typed K
  | number v => .number v
  | binding t id => .binding t (ρ id)
  | data m => .data m
  | negate t e => .negate t (e.rename ρ)
  | add t l r => .add t (l.rename ρ) (r.rename ρ)
  | sub t l r => .sub t (l.rename ρ) (r.rename ρ)
  | scale t l r => .scale t (l.rename ρ) (r.rename ρ)
  | matmul t l r => .matmul t (l.rename ρ) (r.rename ρ)
  | elementwise t l r => .elementwise t (l.rename ρ) (r.rename ρ)
  | transpose t e => .transpose t (e.rename ρ)
  | diagonal t e => .diagonal t (e.rename ρ)
  | sum t e axis => .sum t (e.rename ρ) axis
  | shift t e amount => .shift t (e.rename ρ) amount
  | power t e exponent => .power t (e.rename ρ) exponent
  | inverse t e => .inverse t (e.rename ρ)
  | weibull t l r n dims => .weibull t (l.rename ρ) (r.rename ρ) n dims

@[simp] theorem type_rename (ρ : Nat → Nat) (e : Typed K) : (e.rename ρ).type = e.type := by
  cases e <;> rfl

@[simp] theorem shape_rename (ρ : Nat → Nat) (e : Typed K) : (e.rename ρ).shape = e.shape :=
  congrArg FormulaType.shape (type_rename ρ e)

@[simp] theorem linear_rename (ρ : Nat → Nat) (e : Typed K) : (e.rename ρ).linear = e.linear :=
  congrArg FormulaType.linear (type_rename ρ e)

end Typed

/-- The form with other numbers for its bindings. -/
def Form.rename (ρ : Nat → Nat) : Form K → Form K
  | constraint l rel r => .constraint (l.rename ρ) rel (r.rename ρ)
  | objective sense e => .objective sense (e.rename ρ)
  | value e => .value (e.rename ρ)

/-- Steps that carry a function along: first on what is bound, then on what is made of it. -/
theorem map_bind_of {ε α β γ δ : Type} {g : α → β} {k : γ → δ} {x : Except ε α} {x' : Except ε β}
    {f : α → Except ε γ} {f' : β → Except ε δ} (hx : x' = x.map g)
    (hf : ∀ a, f' (g a) = (f a).map k) : x' >>= f' = (x >>= f).map k := by
  subst hx
  cases x with
  | error e => rfl
  | ok a => exact hf a

/-- Binding the same thing on both sides. -/
theorem map_bind_of_eq {ε α γ δ : Type} {k : γ → δ} {x x' : Except ε α} {f : α → Except ε γ}
    {f' : α → Except ε δ} (hx : x' = x) (hf : ∀ a, f' a = (f a).map k) :
    x' >>= f' = (x >>= f).map k := by
  subst hx
  cases x' with
  | error e => rfl
  | ok a => exact hf a

namespace Formula

/-- The names of two scopes stand for bindings that differ in their numbers only. -/
structure Scope.Renamed (ρ : Nat → Nat) (s s' : Scope) : Prop where
  text : s'.text = s.text
  lookup : ∀ n, (s.bindings.lookup n = none ∧ s'.bindings.lookup n = none) ∨
    ∃ b b', s.bindings.lookup n = some b ∧ s'.bindings.lookup n = some b' ∧
      b'.shape = b.shape ∧ b'.isDecision = b.isDecision ∧ b'.id = ρ b.id

variable {ρ : Nat → Nat} {s s' : Scope}

/-- The same mistake in the same text. -/
theorem mistake_of_text {α β : Type} (h : s'.text = s.text) (k : α → β) (e : TypingError) :
    s'.mistake e = (s.mistake e : Except ExpressionError α).map k := by
  unfold Scope.mistake
  rw [h]
  rfl

/-! ## Names and operators -/

theorem typeName_renamed (h : s.Renamed ρ s') (n : String) :
    typeName s' n = (typeName (K := K) s n).map (Typed.rename ρ) := by
  unfold typeName
  rcases h.lookup n with ⟨hnone, hnone'⟩ | ⟨b, b', hsome, hsome', hshape, hdecision, hid⟩
  · rw [hnone, hnone']
    exact mistake_of_text h.text _ _
  · rw [hsome, hsome']
    dsimp only
    rw [hshape, hdecision, hid]
    rfl

/-- A node that is made of two nodes keeps their new numbers. -/
theorem typeAdditive_renamed (h : s'.text = s.text)
    (node : FormulaType → Typed K → Typed K → Typed K)
    (hnode : ∀ t l r, (node t l r).rename ρ = node t (l.rename ρ) (r.rename ρ)) (l r : Typed K) :
    typeAdditive s' node (l.rename ρ) (r.rename ρ) =
      (typeAdditive s node l r).map (Typed.rename ρ) := by
  unfold typeAdditive
  simp only [Typed.shape_rename, Typed.linear_rename]
  cases Shape.broadcast? l.shape r.shape with
  | none => exact mistake_of_text h _ _
  | some shape => exact congrArg Except.ok (hnode _ l r).symm

theorem typeProduct_renamed (h : s'.text = s.text) (scales : Bool) (l r : Typed K) :
    typeProduct s' scales (l.rename ρ) (r.rename ρ) =
      (typeProduct s scales l r).map (Typed.rename ρ) := by
  unfold typeProduct
  simp only [Typed.shape_rename, Typed.linear_rename]
  split
  · exact mistake_of_text h _ _
  split
  · rfl
  split
  · rfl
  · exact mistake_of_text h _ _

theorem typeBinary_renamed (h : s'.text = s.text) (op : Operator) (l r : Typed K) :
    typeBinary s' op (l.rename ρ) (r.rename ρ) = (typeBinary s op l r).map (Typed.rename ρ) := by
  cases op with
  | add => exact typeAdditive_renamed h .add (fun _ _ _ => rfl) l r
  | sub => exact typeAdditive_renamed h .sub (fun _ _ _ => rfl) l r
  | mul | matmul => exact typeProduct_renamed h _ l r

/-! ## Calls -/

namespace Call

/-- Two calls whose arguments have been typed in scopes that differ in numbers only. -/
structure Renamed (ρ : Nat → Nat) (c c' : Call K) : Prop where
  text : c'.scope.text = c.scope.text
  function : c'.function = c.function
  args : c'.args = c.args
  typedArgs : c'.typedArgs = c.typedArgs.map (Except.map (Typed.rename ρ))

namespace Renamed

variable {c c' : Call K} (h : c.Renamed ρ c')
include h

theorem mistake {α β : Type} (k : α → β) (e : TypingError) :
    c'.scope.mistake e = (c.scope.mistake e : Except ExpressionError α).map k :=
  mistake_of_text h.text k e

theorem node (i : Nat) : c'.node i = (c.node i).map (Typed.rename ρ) := by
  unfold Call.node
  rw [h.typedArgs, List.getElem?_map, h.function]
  cases c.typedArgs[i]? with
  | none => exact h.mistake _ _
  | some r => rfl

section Literals

variable [Scalar K]

theorem literal? (i : Nat) : c'.literal? i = c.literal? i := by
  unfold Call.literal?
  rw [h.args]

theorem literal (i : Nat) : c'.literal i = c.literal i := by
  unfold Call.literal
  rw [h.literal?, h.function]
  unfold Scope.mistake
  rw [h.text]

theorem integer (i : Nat) : c'.integer i = c.integer i := by
  unfold Call.integer
  rw [h.literal, h.function]
  unfold Scope.mistake
  rw [h.text]

theorem weibullLength : c'.weibullLength = c.weibullLength.map id := by
  unfold Call.weibullLength
  rw [h.literal?]
  split
  · refine map_bind_of_eq (h.integer 2) fun n => ?_
    split
    · exact h.mistake _ _
    · rfl
  · refine map_bind_of (h.node 2) fun r => ?_
    simp only [Typed.shape_rename, Typed.linear_rename]
    split
    · exact h.mistake _ _
    · rfl

omit [Scalar K] in
theorem weibullFactor (i : Nat) : c'.weibullFactor i = (c.weibullFactor i).map (Typed.rename ρ) := by
  unfold Call.weibullFactor
  refine map_bind_of (h.node i) fun e => ?_
  simp only [Typed.shape_rename, Typed.linear_rename]
  split
  · exact h.mistake _ _
  · rfl

theorem weibull [Transcendental K] : c'.weibull = c.weibull.map (Typed.rename ρ) := by
  unfold Call.weibull
  refine map_bind_of_eq (h.integer 3) fun dims => ?_
  split
  · exact h.mistake _ _
  refine map_bind_of h.weibullLength fun n => ?_
  simp only [id_eq, h.literal?]
  split
  · exact h.mistake _ _
  split
  · split <;> rfl
  · exact map_bind_of (h.weibullFactor 0) fun scale =>
      map_bind_of (h.weibullFactor 1) fun shape => rfl

omit [Scalar K] in
theorem diagonal : c'.diagonal = c.diagonal.map (Typed.rename ρ) := by
  unfold Call.diagonal
  refine map_bind_of (h.node 0) fun e => ?_
  simp only [Typed.shape_rename, Typed.linear_rename]
  split
  · rfl
  split
  · rfl
  · exact h.mistake _ _

theorem sum : c'.sum = c.sum.map (Typed.rename ρ) := by
  unfold Call.sum
  refine map_bind_of (h.node 0) fun e => ?_
  simp only [Typed.shape_rename, Typed.linear_rename, h.args]
  split
  · rfl
  refine map_bind_of_eq (h.integer 1) fun axis => ?_
  split
  · rfl
  split
  · rfl
  · exact h.mistake _ _

omit [Scalar K] in
theorem multiply : c'.multiply = c.multiply.map (Typed.rename ρ) := by
  unfold Call.multiply
  refine map_bind_of (h.node 0) fun l => map_bind_of (h.node 1) fun r => ?_
  simp only [Typed.shape_rename, Typed.linear_rename]
  split
  · exact h.mistake _ _
  cases Shape.broadcast? l.shape r.shape with
  | none => exact h.mistake _ _
  | some shape => rfl

theorem typed [Transcendental K] : c'.typed = c.typed.map (Typed.rename ρ) := by
  unfold Call.typed
  rw [h.function]
  -- types do not mention bindings, so every check of a call decides alike on both sides
  cases c.function with
  | minimize | maximize => exact h.mistake _ _
  | weibull => exact h.weibull
  | diagonal => exact h.diagonal
  | sum => exact h.sum
  | multiply => exact h.multiply
  | transpose =>
      refine map_bind_of (h.node 0) fun e => ?_
      simp only [Typed.shape_rename, Typed.linear_rename]
      rfl
  | shift =>
      refine map_bind_of (h.node 0) fun e => map_bind_of_eq (h.integer 1) fun k => ?_
      rw [Typed.type_rename]
      rfl
  | power =>
      refine map_bind_of (h.node 0) fun e => ?_
      simp only [Typed.shape_rename, Typed.linear_rename]
      split
      · exact h.mistake _ _
      · exact map_bind_of_eq (h.literal 1) fun p => rfl
  | inverse =>
      refine map_bind_of (h.node 0) fun e => ?_
      simp only [Typed.shape_rename, Typed.linear_rename]
      split
      · exact h.mistake _ _
      split
      · exact h.mistake _ _
      · rfl

end Literals

end Renamed

end Call

/-! ## Formulas and statements -/

variable [Scalar K] [Transcendental K]

mutual

theorem typed_renamed (h : s.Renamed ρ s') :
    ∀ e : Formula K, e.typed s' = (e.typed s).map (Typed.rename ρ)
  | .number _ => rfl
  | .name n => typeName_renamed h n
  | .negate e => by
      rw [typed, typed]
      refine map_bind_of (typed_renamed h e) fun e => ?_
      rw [Typed.type_rename]
      rfl
  | .binary op l r => by
      rw [typed, typed]
      exact map_bind_of (typed_renamed h l) fun l => map_bind_of (typed_renamed h r) fun r =>
        typeBinary_renamed h.text op l r
  | .call f args => by
      rw [typed, typed]
      have hcall : Call.Renamed ρ ⟨s, f, args, typedAll s args⟩ ⟨s', f, args, typedAll s' args⟩ :=
        ⟨h.text, rfl, rfl, typedAll_renamed h args⟩
      exact hcall.typed

theorem typedAll_renamed (h : s.Renamed ρ s') : ∀ es : List (Formula K),
    typedAll s' es = (typedAll s es).map (Except.map (Typed.rename ρ))
  | [] => by simp [typedAll]
  | e :: es => by
      rw [typedAll, typedAll, typed_renamed h e, typedAll_renamed h es, List.map_cons]

end

variable (h : s.Renamed ρ s')
include h

theorem typeObjective_renamed (sense : Sense) (e : Formula K) :
    typeObjective s' sense e = (typeObjective s sense e).map (Form.rename ρ) := by
  unfold typeObjective
  refine map_bind_of (typed_renamed h e) fun e => ?_
  rw [Typed.shape_rename]
  split
  · rfl
  · exact mistake_of_text h.text _ _

theorem typeValue_renamed (e : Formula K) :
    typeValue s' e = (typeValue s e).map (Form.rename ρ) := by
  have hvalue : ∀ e : Formula K,
      (e.typed s').map Form.value = ((e.typed s).map Form.value).map (Form.rename ρ) := by
    intro e
    rw [typed_renamed h e]
    cases e.typed s <;> rfl
  unfold typeValue
  split
  · split
    · exact typeObjective_renamed h _ _
    · exact hvalue _
  · exact hvalue _

/-- A statement is typed to the same form with other numbers, or it has the same mistake. -/
theorem typeStatement_renamed (st : Statement K) :
    typeStatement s' st = (typeStatement s st).map (Form.rename ρ) := by
  cases st with
  | value e => exact typeValue_renamed h e
  | relation l rel r =>
      unfold typeStatement
      refine map_bind_of (typed_renamed h l) fun l => map_bind_of (typed_renamed h r) fun r => ?_
      simp only [Typed.shape_rename]
      split
      · rfl
      · exact mistake_of_text h.text _ _

end Formula

end CoupledModels
