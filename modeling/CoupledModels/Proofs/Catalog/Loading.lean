import CoupledModels.Catalog.Data
import CoupledModels.Proofs.Outcome

/-!
# Loading from storage

What storage has for a binding depends on the variables of the catalog only, neither on what its
parameters hold nor on the solution values.  So after a load that has succeeded every parameter holds
what the store has for it, and loading again from the same store changes nothing.
-/

namespace CoupledModels.Catalog

variable {K : Type}

/-- The catalog with other solution values. -/
def withValues (c : Catalog K) (values : Array (Option K)) : Catalog K :=
  { c with values := values }

@[simp] theorem values_withValues (c : Catalog K) (vs : Array (Option K)) :
    (c.withValues vs).values = vs := rfl

@[simp] theorem withValues_withValues (c : Catalog K) (vs ws : Array (Option K)) :
    (c.withValues vs).withValues ws = c.withValues ws := rfl

/-- The catalog with other parameters. -/
def withParameters (c : Catalog K) (parameters : Array (Parameter K)) : Catalog K :=
  { c with parameters := parameters }

@[simp] theorem parameters_withParameters (c : Catalog K) (ps : Array (Parameter K)) :
    (c.withParameters ps).parameters = ps := rfl

variable [Scalar K] {c d : Catalog K} {store : Store K}

/-- A parameter holds what the store has for its binding. -/
def Filled (c : Catalog K) (store : Store K) (index : Nat) : Prop :=
  ∀ (p : Parameter K) (b : Binding), c.parameters[index]? = some p →
    c.bindings[p.binding]? = some b → ∃ m, c.loadBinding store b = .ok m ∧ p.value = some m

/-- Every parameter holds what the store has for its binding. -/
def Loaded (c : Catalog K) (store : Store K) : Prop :=
  ∀ index : Nat, c.Filled store index

theorem filled_withValues {vs : Array (Option K)} {index : Nat} :
    (c.withValues vs).Filled store index ↔ c.Filled store index :=
  Iff.rfl

theorem Loaded.withValues (h : c.Loaded store) (vs : Array (Option K)) :
    (c.withValues vs).Loaded store :=
  fun index => filled_withValues.mpr (h index)

/-- Filling a parameter makes it filled and leaves the other ones alone. -/
theorem Filled.fill {index : Nat} {p : Parameter K} {b : Binding} {m : Matrix K}
    (hp : c.parameters[index]? = some p) (hb : c.bindings[p.binding]? = some b)
    (hm : c.loadBinding store b = .ok m) {i : Nat} (h : i = index ∨ c.Filled store i) :
    (c.withParameters (c.parameters.setIfInBounds index { p with value := some m })).Filled
      store i := by
  intro q b' hq hb'
  rw [parameters_withParameters, Array.getElem?_setIfInBounds] at hq
  by_cases hi : index = i
  · subst hi
    have hlt : index < c.parameters.size := (Array.getElem?_eq_some_iff.mp hp).1
    rw [if_pos rfl, if_pos hlt, Option.some.injEq] at hq
    subst hq
    obtain rfl : b = b' := Option.some.inj (hb.symm.trans hb')
    exact ⟨m, hm, rfl⟩
  · rw [if_neg hi] at hq
    exact (h.resolve_left (Ne.symm hi)) q b' hq hb'

/-- A load that succeeds changes parameters only, and fills those that it is for. -/
theorem loadParameters_ok {indexes : List Nat}
    (h : loadParameters store indexes c = (.ok (), d)) :
    d = c.withParameters d.parameters ∧
      ∀ i : Nat, i ∈ indexes ∨ c.Filled store i → d.Filled store i := by
  induction indexes generalizing c with
  | nil =>
      cases h
      exact ⟨rfl, fun i hi => hi.resolve_left List.not_mem_nil⟩
  | cons index rest ih =>
      unfold loadParameters at h
      -- A number that leads to no parameter, or to one without a binding, is filled as it stands.
      have hskip : c.Filled store index → loadParameters store rest c = (.ok (), d) →
          d = c.withParameters d.parameters ∧
            ∀ i : Nat, i ∈ index :: rest ∨ c.Filled store i → d.Filled store i := by
        intro hindex hrest
        refine ⟨(ih hrest).1, fun i hi => (ih hrest).2 i ?_⟩
        rcases hi with hi | hi
        · rcases List.mem_cons.mp hi with rfl | hi
          · exact .inr hindex
          · exact .inl hi
        · exact .inr hi
      split at h
      · rename_i hnone
        exact hskip (fun p b hp => by simp [hnone] at hp) h
      rename_i p hp
      split at h
      · rename_i hnone
        refine hskip (fun q b hq hb => ?_) h
        obtain rfl : p = q := Option.some.inj (hp.symm.trans hq)
        simp [hnone] at hb
      rename_i b hb
      split at h
      · cases h
      rename_i m hm
      obtain ⟨hd, hfilled⟩ := ih h
      refine ⟨hd, fun i hi => hfilled i ?_⟩
      have hfill : i = index ∨ c.Filled store i → _ := Filled.fill hp hb hm
      rcases hi with hi | hi
      · rcases List.mem_cons.mp hi with rfl | hi
        · exact .inr (hfill (.inl rfl))
        · exact .inl hi
      · exact .inr (hfill (.inr hi))

/-- Parameters that are filled stay as they are when they are loaded again. -/
theorem loadParameters_of_filled {indexes : List Nat} (h : ∀ i ∈ indexes, c.Filled store i) :
    loadParameters store indexes c = (.ok (), c) := by
  induction indexes with
  | nil => rfl
  | cons index rest ih =>
      obtain ⟨hindex, hrest⟩ := List.forall_mem_cons.mp h
      unfold loadParameters
      split
      · exact ih hrest
      rename_i p hp
      split
      · exact ih hrest
      rename_i b hb
      obtain ⟨m, hm, hvalue⟩ := hindex p b hp hb
      rw [hm]
      -- the matrix is stored where it stands already
      have hsame : c.parameters.setIfInBounds index { p with value := some m } = c.parameters := by
        refine Array.ext_getElem? fun j => ?_
        rw [← hvalue, Array.getElem?_setIfInBounds]
        split
        · rename_i hj
          rw [← hj, hp, if_pos (Array.getElem?_eq_some_iff.mp hp).1]
        · rfl
      simp only [hsame]
      exact ih hrest

omit [Scalar K] in
/-- A property of every binding that a parameter is for does not depend on what parameters hold. -/
theorem forall_owner_of_fill {P : Binding → Prop}
    (h : ∀ q ∈ c.parameters, ∀ b, c.bindings[q.binding]? = some b → P b) {index : Nat}
    {p : Parameter K} (hp : c.parameters[index]? = some p) (value : Option (Matrix K)) :
    ∀ q ∈ c.parameters.setIfInBounds index { p with value := value }, ∀ b,
      c.bindings[q.binding]? = some b → P b := by
  intro q hq b hb
  rcases Array.mem_or_eq_of_mem_setIfInBounds hq with hq | rfl
  · exact h q hq b hb
  · exact h p (Array.mem_of_getElem? hp) b hb

/-- A load fails as that of one of the bindings does. -/
theorem loadParameters_error {E : ModelError → Prop}
    (h : ∀ q ∈ c.parameters, ∀ b, c.bindings[q.binding]? = some b →
      ∀ e, c.loadBinding store b = .error e → E e) (indexes : List Nat) {e : ModelError}
    (hload : (loadParameters store indexes c).1 = .error e) : E e := by
  induction indexes generalizing c with
  | nil => cases hload
  | cons index rest ih =>
      unfold loadParameters at hload
      -- the load stops at the first binding that fails
      split at hload
      · exact ih h hload
      rename_i p hp
      split at hload
      · exact ih h hload
      rename_i b hb
      split at hload
      · rename_i e' he
        cases hload
        exact h p (Array.mem_of_getElem? hp) b hb e he
      · exact ih (c := c.withParameters _) (forall_owner_of_fill h hp _) hload

/-- Stores that have the same for every binding are loaded alike. -/
theorem loadParameters_congr {store' : Store K}
    (h : ∀ q ∈ c.parameters, ∀ b, c.bindings[q.binding]? = some b →
      c.loadBinding store' b = c.loadBinding store b) (indexes : List Nat) :
    loadParameters store' indexes c = loadParameters store indexes c := by
  induction indexes generalizing c with
  | nil => rfl
  | cons index rest ih =>
      unfold loadParameters
      split
      · exact ih h
      rename_i p hp
      split
      · exact ih h
      rename_i b hb
      rw [h p (Array.mem_of_getElem? hp) b hb]
      split
      · rfl
      · exact ih (c := c.withParameters _) (forall_owner_of_fill h hp _)

/-- After a load that has succeeded every parameter holds what the store has for its binding. -/
theorem loaded_of_loadExogenous (h : c.loadExogenous store = (.ok (), d)) :
    d = c.withParameters d.parameters ∧ d.Loaded store := by
  obtain ⟨hd, hfilled⟩ := loadParameters_ok h
  refine ⟨hd, fun i => ?_⟩
  by_cases hi : i < c.parameters.size
  · exact hfilled i (.inl (List.mem_range.mpr hi))
  · refine hfilled i (.inr fun p b hp => ?_)
    simp [Array.getElem?_eq_none (Nat.not_lt.mp hi)] at hp

/-- A catalog that holds what the store has stays as it is when it is loaded from the store. -/
theorem Loaded.loadExogenous (h : c.Loaded store) : c.loadExogenous store = (.ok (), c) :=
  loadParameters_of_filled fun i _ => h i

end CoupledModels.Catalog
