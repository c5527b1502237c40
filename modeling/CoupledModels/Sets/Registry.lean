import CoupledModels.Sets.Dimension

/-!
# The registry of dimensions

Dimensions with pairwise distinct names, in the order of their registration, and the keys of the
sub-problems that the splitting ones among them divide a model into.
-/

namespace CoupledModels

/-- Dimensions in registration order, addressed by name. -/
structure Registry where
  dims : List Dimension
  /-- No two dimensions share a name. -/
  ids_nodup : (dims.map Dimension.id).Nodup

namespace Registry

/-- The registry without dimensions. -/
def empty : Registry :=
  ⟨[], List.nodup_nil⟩

instance : Inhabited Registry := ⟨empty⟩

/-- The dimension of a name. -/
def find? (r : Registry) (id : String) : Option Dimension :=
  r.dims.find? fun d => d.id == id

/-- The dimension of a name, or the error that there is none. -/
def get (r : Registry) (id : String) : Except ModelError Dimension :=
  match r.find? id with
  | some d => .ok d
  | none => .error (.missing (.dimension id))

/-- True if a dimension has the name. -/
def contains (r : Registry) (id : String) : Bool :=
  (r.find? id).isSome

/-- Registers a dimension after all others. -/
def insert (r : Registry) (d : Dimension) : Except ModelError Registry :=
  if h : d.id ∈ r.dims.map Dimension.id then .error (.configuration (.duplicateDimension d.id))
  else
    .ok ⟨r.dims ++ [d], by
      rw [List.map_append, List.map_singleton, List.nodup_append]
      exact ⟨r.ids_nodup, by simp, by simpa using fun a ha e => h (by simpa [e] using ⟨a, ha, e⟩)⟩⟩

/-- Gives a dimension of one name new items and leaves any other as it is. -/
def withItems (id : String) (items : List String) (d : Dimension) : Dimension :=
  if d.id == id then { d with items := items } else d

theorem withItems_id (id : String) (items : List String) (d : Dimension) :
    (withItems id items d).id = d.id := by
  unfold withItems
  split <;> rfl

/-- Replaces the items of a registered dimension. -/
def setItems (r : Registry) (id : String) (items : List String) : Except ModelError Registry :=
  if r.contains id then
    .ok ⟨r.dims.map (withItems id items), by
      have h : Dimension.id ∘ withItems id items = Dimension.id :=
        funext (withItems_id id items)
      rw [List.map_map, h]
      exact r.ids_nodup⟩
  else .error (.missing (.dimension id))

/-- The dimensions that divide the model. -/
def splitting (r : Registry) : List Dimension :=
  r.dims.filter Dimension.splits

/-- True if the name is that of a splitting dimension. -/
def isSplitting (r : Registry) (id : String) : Bool :=
  match r.find? id with
  | some d => d.splits
  | none => false

/-- Every way to pick one element from each list; the last list varies fastest. -/
def product {α : Type} : List (List α) → List (List α)
  | [] => [[]]
  | xs :: rest => xs.flatMap fun x => (product rest).map (x :: ·)

/-- The keys of all sub-problems, in registry and item order. -/
def problemKeys (r : Registry) : List ProblemKey :=
  (product (r.splitting.map fun d => d.items.map fun i => (d.id, i))).map ProblemKey.mk

end Registry

end CoupledModels
