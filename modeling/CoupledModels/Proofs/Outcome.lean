import CoupledModels.Error
import Mathlib.Data.List.Forall2

/-!
# Outcomes of computations that can fail

`Outcome P E x` says that `x` gives a value with the property `P` or an error with the property `E`.
Outcomes compose along the steps of a computation, so a function is described once, by what it gives
and by how it can fail, and its callers use nothing else.  Where only the value matters, `E` is
`AnyError`.
-/

namespace CoupledModels

variable {ε ε' α β : Type}

/-- The value has the property `P`, or the error has the property `E`. -/
def Outcome (P : α → Prop) (E : ε → Prop) : Except ε α → Prop
  | .ok a => P a
  | .error e => E e

/-- Says nothing about an error. -/
def AnyError (_ : ε) : Prop :=
  True

namespace Outcome

variable {P : α → Prop} {Q : β → Prop} {E : ε → Prop} {E' : ε' → Prop} {x : Except ε α}

theorem value (h : Outcome P E x) {a : α} (hx : x = .ok a) : P a := by
  subst hx
  exact h

theorem cases (h : Outcome P E x) : (∃ a, x = .ok a ∧ P a) ∨ ∃ e, x = .error e ∧ E e := by
  cases x with
  | ok a => exact .inl ⟨a, rfl, h⟩
  | error e => exact .inr ⟨e, rfl, h⟩

theorem of_ok {a : α} (hx : x = .ok a) (ha : P a) : Outcome P E x := by
  subst hx
  exact ha

/-- Knowing a property of every possible value is an outcome without a promise about errors. -/
theorem of_forall (h : ∀ a, x = .ok a → P a) : Outcome P AnyError x := by
  cases x with
  | ok a => exact h a rfl
  | error e => trivial

theorem mono {P' : α → Prop} {F : ε → Prop} (h : Outcome P E x) (hP : ∀ a, P a → P' a)
    (hE : ∀ e, E e → F e) : Outcome P' F x := by
  cases x with
  | ok a => exact hP a h
  | error e => exact hE e h

theorem imp {P' : α → Prop} (h : Outcome P E x) (hP : ∀ a, P a → P' a) : Outcome P' E x :=
  h.mono hP fun _ he => he

theorem bind {f : α → Except ε β} (h : Outcome P E x) (hf : ∀ a, P a → Outcome Q E (f a)) :
    Outcome Q E (x >>= f) := by
  cases x with
  | ok a => exact hf a h
  | error e => exact h

/-- A step of which more is wanted than the property of its value. -/
theorem bind_of_eq {f : α → Except ε β} (h : Outcome P E x)
    (hf : ∀ a, x = .ok a → P a → Outcome Q E (f a)) : Outcome Q E (x >>= f) := by
  cases x with
  | ok a => exact hf a rfl h
  | error e => exact h

/-- A step of which nothing is known but what it gives. -/
theorem bind_ok {f : α → Except ε β} (hf : ∀ a, x = .ok a → Outcome Q AnyError (f a)) :
    Outcome Q AnyError (x >>= f) := by
  cases x with
  | ok a => exact hf a rfl
  | error e => trivial

/-- A step of which nothing is known. -/
theorem bind_any {f : α → Except ε β} (hf : ∀ a, Outcome Q AnyError (f a)) :
    Outcome Q AnyError (x >>= f) :=
  bind_ok fun a _ => hf a

theorem pure {a : α} (h : P a) : Outcome P E (Pure.pure a : Except ε α) :=
  h

theorem map {f : α → β} (h : Outcome P E x) (hf : ∀ a, P a → Q (f a)) :
    Outcome Q E (x.map f) := by
  cases x with
  | ok a => exact hf a h
  | error e => exact h

theorem mapError {f : ε → ε'} (h : Outcome P E x) (hf : ∀ e, E e → E' (f e)) :
    Outcome P E' (x.mapError f) := by
  cases x with
  | ok a => exact h
  | error e => exact hf e h

/-- An invariant of every step is an invariant of the whole loop. -/
theorem foldlM {I : β → Prop} {f : β → α → Except ε β} {xs : List α} {b : β} (hb : I b)
    (hf : ∀ b, I b → ∀ a ∈ xs, Outcome I E (f b a)) : Outcome I E (xs.foldlM f b) := by
  induction xs generalizing b with
  | nil => exact hb
  | cons a xs ih =>
      rw [List.foldlM_cons]
      refine (hf b hb a List.mem_cons_self).bind fun b' hb' => ?_
      exact ih hb' fun b hb c hc => hf b hb c (List.mem_cons_of_mem _ hc)

/-- An invariant that speaks about the elements that a loop has been through. -/
theorem foldlM_prefix {I : List α → β → Prop} {f : β → α → Except ε β} {xs : List α} {b : β}
    (hb : I [] b) (hf : ∀ done a rest b, done ++ a :: rest = xs → I done b →
      Outcome (I (done ++ [a])) E (f b a)) : Outcome (I xs) E (xs.foldlM f b) := by
  have hrest : ∀ done rest b, done ++ rest = xs → I done b →
      Outcome (I xs) E (rest.foldlM f b) := by
    intro done rest
    induction rest generalizing done with
    | nil =>
        intro b hxs hb
        rw [List.append_nil] at hxs
        exact hxs ▸ hb
    | cons a rest ih =>
        intro b hxs hb
        rw [List.foldlM_cons]
        exact (hf done a rest b hxs hb).bind fun b' hb' => ih (done ++ [a]) b' (by simpa using hxs) hb'
  exact hrest [] xs b rfl hb

theorem mapM {R : α → β → Prop} {f : α → Except ε β} {xs : List α}
    (hf : ∀ a ∈ xs, Outcome (R a) E (f a)) : Outcome (List.Forall₂ R xs) E (xs.mapM f) := by
  induction xs with
  | nil =>
      rw [List.mapM_nil]
      exact List.Forall₂.nil
  | cons a xs ih =>
      rw [List.mapM_cons]
      refine (hf a List.mem_cons_self).bind fun b hb => ?_
      refine (ih fun c hc => hf c (List.mem_cons_of_mem _ hc)).bind fun bs hbs => ?_
      exact List.Forall₂.cons hb hbs

/-- Every element of a mapped list has a property that every single result has. -/
theorem mapM_forall {f : α → Except ε β} {xs : List α} (hf : ∀ a ∈ xs, Outcome Q E (f a)) :
    Outcome (fun bs => ∀ b ∈ bs, Q b) E (xs.mapM f) := by
  refine (mapM (R := fun _ b => Q b) hf).imp fun bs hbs => ?_
  clear hf
  induction hbs with
  | nil => simp
  | cons hb _ ih => simpa using ⟨hb, ih⟩

end Outcome

/-! ## Computations that have succeeded or failed -/

theorem exists_of_bind_eq_ok {x : Except ε α} {f : α → Except ε β} {b : β}
    (h : x >>= f = .ok b) : ∃ a, x = .ok a ∧ f a = .ok b := by
  cases x with
  | error e => cases h
  | ok a => exact ⟨a, rfl, h⟩

theorem bind_eq_error_iff {x : Except ε α} {f : α → Except ε β} {e : ε} :
    x >>= f = .error e ↔ x = .error e ∨ ∃ a, x = .ok a ∧ f a = .error e := by
  cases x <;> simp [bind, Except.bind]

theorem exists_of_map_eq_ok {x : Except ε α} {f : α → β} {b : β} (h : x.map f = .ok b) :
    ∃ a, x = .ok a ∧ f a = b := by
  cases x with
  | error e => cases h
  | ok a => exact ⟨a, rfl, Except.ok.inj h⟩

theorem ok_of_mapError {x : Except ε α} {f : ε → ε'} {a : α} (h : x.mapError f = .ok a) :
    x = .ok a := by
  cases x with
  | error e => cases h
  | ok b => exact congrArg Except.ok (Except.ok.inj h)

/-! ## Computations that may give nothing -/

/-- Looking up each element of a list succeeds if it does for every one. -/
theorem mapM_eq_some_map {f : α → Option β} {g : α → β} {xs : List α}
    (h : ∀ a ∈ xs, f a = some (g a)) : xs.mapM f = some (xs.map g) := by
  induction xs with
  | nil => rfl
  | cons a xs ih =>
      rw [List.mapM_cons, h a List.mem_cons_self, ih fun b hb => h b (List.mem_cons_of_mem _ hb)]
      rfl

/-- An element that is not there is not looked up. -/
theorem mapM_eq_none {f : α → Option β} {xs : List α} {a : α} (ha : a ∈ xs)
    (h : f a = none) : xs.mapM f = none := by
  induction xs with
  | nil => cases ha
  | cons b xs ih =>
      rw [List.mapM_cons]
      rcases List.mem_cons.mp ha with rfl | ha
      · rw [h]
        rfl
      · rw [ih ha]
        cases f b <;> rfl

section Forall₂

variable {R : α → β → Prop} {as : List α} {bs : List β}

theorem getElem?_of_forall₂ (h : List.Forall₂ R as bs) {k : Nat} {a : α} (ha : as[k]? = some a) :
    ∃ b, bs[k]? = some b ∧ R a b := by
  induction h generalizing k with
  | nil => cases ha
  | @cons a' b' as bs hab _ ih =>
      cases k with
      | zero =>
          obtain rfl : a' = a := by simpa using ha
          exact ⟨b', rfl, hab⟩
      | succ k => exact ih (by simpa using ha)

theorem exists_right_of_forall₂ (h : List.Forall₂ R as bs) {a : α} (ha : a ∈ as) :
    ∃ b ∈ bs, R a b := by
  obtain ⟨k, hk⟩ := List.mem_iff_getElem?.mp ha
  obtain ⟨b, hb, hab⟩ := getElem?_of_forall₂ h hk
  exact ⟨b, List.mem_of_getElem? hb, hab⟩

theorem exists_left_of_forall₂ (h : List.Forall₂ R as bs) {b : β} (hb : b ∈ bs) :
    ∃ a ∈ as, R a b :=
  exists_right_of_forall₂ h.flip hb

/-- Choices for the elements make a choice for the list. -/
theorem exists_forall₂ (h : ∀ a ∈ as, ∃ b, R a b) : ∃ bs, List.Forall₂ R as bs := by
  induction as with
  | nil => exact ⟨[], .nil⟩
  | cons a as ih =>
      obtain ⟨b, hb⟩ := h a List.mem_cons_self
      obtain ⟨bs, hbs⟩ := ih fun a' ha' => h a' (List.mem_cons_of_mem _ ha')
      exact ⟨b :: bs, .cons hb hbs⟩

/-- Each result of a loop is that of the element in its place. -/
theorem forall₂_of_mapM {f : α → Except ε β} (h : as.mapM f = .ok bs) :
    List.Forall₂ (fun a b => f a = .ok b) as bs :=
  (Outcome.mapM (E := AnyError) fun _ _ => Outcome.of_forall fun _ hb => hb).value h

end Forall₂

end CoupledModels
