import CoupledModels.Proofs.SortedMap
import CoupledModels.Sets.Registry

/-!
# Items that pass a filter

A filter keeps the items that it accepts, in the order of the dimension.  It is refused if it accepts
none; a category that no item has and a filter that the dimension does not know are special cases of
this, as neither can accept an item.
-/

namespace CoupledModels

/-- An error that the declarations of a model contain. -/
def ModelError.IsConfiguration (e : ModelError) : Prop :=
  ∃ cause, e = .configuration cause

namespace Dimension

variable {dim : Dimension} {f : ItemFilter} {item : String}

/-- An item has the category that a filter asks for, and an accepted value under every name that it
lists.  Without a filter every item is accepted. -/
def Accepts (dim : Dimension) (f : Option ItemFilter) (item : String) : Prop :=
  ∀ g ∈ f, (∀ c, g.category = some c → dim.categories.get? item = some c) ∧
    ∀ e ∈ g.values.entries, ∃ value ∈ e.2,
      (dim.filters.get? e.1).bind (·.get? item) = some value

theorem hasCategory_iff {category : Option String} : dim.hasCategory category item = true ↔
    ∀ c, category = some c → dim.categories.get? item = some c := by
  cases category <;> simp [hasCategory]

theorem accepts_iff {name : String} {accepted : List String} :
    dim.accepts name accepted item = true ↔
      ∃ value ∈ accepted, (dim.filters.get? name).bind (·.get? item) = some value := by
  unfold accepts
  cases (dim.filters.get? name).bind (·.get? item) <;> simp

theorem passes_iff : dim.passes f item = true ↔ dim.Accepts (some f) item := by
  simp [passes, Accepts, hasCategory_iff, accepts_iff]

theorem all_passes_iff {f : Option ItemFilter} :
    f.all (fun g => dim.passes g item) = true ↔ dim.Accepts f item := by
  cases f with
  | none => simp [Accepts]
  | some g => exact passes_iff

instance {f : Option ItemFilter} : Decidable (dim.Accepts f item) :=
  decidable_of_iff _ all_passes_iff

/-- The items that are accepted, in the order of the dimension. -/
def accepted (dim : Dimension) (f : Option ItemFilter) : List String :=
  dim.items.filter fun item => dim.Accepts f item

theorem accepted_none (dim : Dimension) : dim.accepted none = dim.items := by
  refine List.filter_eq_self.mpr fun item _ => decide_eq_true fun g hg => ?_
  cases hg

theorem accepted_some (dim : Dimension) (f : ItemFilter) :
    dim.accepted (some f) = dim.items.filter (dim.passes f) := by
  refine List.filter_congr fun item _ => ?_
  rw [Bool.eq_iff_iff, decide_eq_true_iff, passes_iff]

/-- A filter that asks for nothing accepts every item. -/
theorem accepted_of_isEmpty (h : f.isEmpty = true) : dim.accepted (some f) = dim.items := by
  obtain ⟨hcategory, hvalues⟩ := Bool.and_eq_true_iff.mp h
  refine List.filter_eq_self.mpr fun item _ => decide_eq_true fun g hg => ?_
  obtain rfl : f = g := Option.some.inj hg
  constructor
  · intro c hc
    rw [hc] at hcategory
    cases hcategory
  · intro e he
    rw [List.isEmpty_iff.mp hvalues] at he
    cases he

/-- The accepted items are given, or there are none and an error says so. -/
def GivesAccepted (dim : Dimension) (f : Option ItemFilter) (E : ModelError → Prop)
    (x : Except ModelError (List String)) : Prop :=
  Outcome (fun is => is = dim.accepted f ∧ is ≠ []) (fun e => E e ∧ dim.accepted f = []) x

theorem givesAccepted_refused (cause : ConfigurationError)
    (h : ∀ item, ¬ dim.Accepts (some f) item) :
    dim.GivesAccepted (some f) ModelError.IsConfiguration (.error (.configuration cause)) := by
  refine ⟨⟨cause, rfl⟩, List.filter_eq_nil_iff.mpr fun item _ => ?_⟩
  simpa using h item

/-- An accepted item has a value under every name of the filter, so the names are known. -/
theorem not_accepts_of_unknown {name : String}
    (h : f.values.keys.find? (fun n => !dim.filters.contains n) = some name) (item : String) :
    ¬ dim.Accepts (some f) item := by
  intro haccepted
  obtain ⟨e, he, rfl⟩ := List.mem_map.mp (List.mem_of_find?_eq_some h)
  obtain ⟨value, -, hvalue⟩ := (haccepted f rfl).2 e he
  obtain ⟨values, hvalues, -⟩ := Option.bind_eq_some_iff.mp hvalue
  have hmissing := List.find?_some h
  simp [SortedMap.contains, hvalues] at hmissing

theorem not_accepts_of_category {category : String} (h : f.category = some category)
    (hmissing : ¬ dim.categories.values.contains category = true) (item : String) :
    ¬ dim.Accepts (some f) item := by
  refine fun haccepted => hmissing ?_
  have hmem := SortedMap.mem_entries_of_get? ((haccepted f rfl).1 category h)
  exact List.contains_iff_mem.mpr (List.mem_map_of_mem hmem)

/-- Filtering gives the accepted items, or an error of the declarations. -/
theorem givesAccepted_filteredItems (dim : Dimension) (f : ItemFilter) :
    dim.GivesAccepted (some f) ModelError.IsConfiguration (dim.filteredItems f) := by
  -- where nothing is refused by name, the items that pass are the accepted ones
  have hleft : dim.GivesAccepted (some f) ModelError.IsConfiguration (do
      let items := dim.items.filter (dim.passes f)
      if items.isEmpty then throw (.configuration (.nothingLeft dim.id))
      return items) := by
    unfold GivesAccepted
    rw [accepted_some]
    dsimp only
    split
    · rename_i hempty
      exact ⟨⟨_, rfl⟩, List.isEmpty_iff.mp hempty⟩
    · rename_i hleft
      exact ⟨rfl, fun hnil => hleft (List.isEmpty_iff.mpr hnil)⟩
  unfold filteredItems
  dsimp only
  split
  · rename_i c hc
    split
    · split
      · rename_i hname
        exact givesAccepted_refused _ (not_accepts_of_unknown hname)
      · exact hleft
    · rename_i hmissing
      exact givesAccepted_refused _ (not_accepts_of_category hc hmissing)
  · split
    · rename_i hname
      exact givesAccepted_refused _ (not_accepts_of_unknown hname)
    · exact hleft

end Dimension

end CoupledModels
