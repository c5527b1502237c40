import CoupledModels.Error
import CoupledModels.SortedMap

/-!
# Dimensions

A dimension is a named, ordered list of items.  Items may have a category, a parent in another
dimension, and values under named filters.
-/

namespace CoupledModels

/-- A restriction of a dimension to some of its items. -/
structure ItemFilter where
  /-- Keeps the items of one category. -/
  category : Option String
  /-- Filter name to accepted values. -/
  values : SortedMap String (List String)
deriving DecidableEq, Repr, Inhabited

namespace ItemFilter

/-- True if the filter keeps every item without looking at it. -/
def isEmpty (f : ItemFilter) : Bool :=
  f.category.isNone && f.values.isEmpty

end ItemFilter

/-- A named, ordered list of items. -/
structure Dimension where
  id : String
  /-- Name under which the items are stored. -/
  tableName : String
  items : List String
  /-- The dimension divides the model into sub-problems. -/
  splits : Bool
  /-- Item to category. -/
  categories : SortedMap String String
  /-- Item to parent item in another dimension. -/
  aggregation : SortedMap String String
  /-- Filter name to the value of each item. -/
  filters : SortedMap String (SortedMap String String)
deriving DecidableEq, Repr, Inhabited

namespace Dimension

/-- The name under which items are stored unless another one is given. -/
def defaultTableName (id : String) : String :=
  "_set_" ++ id

/-- A dimension that has nothing but items. -/
def ofItems (id : String) (items : List String) : Dimension where
  id := id
  tableName := defaultTableName id
  items := items
  splits := false
  categories := .empty
  aggregation := .empty
  filters := .empty

/-- Position of the first occurrence of an item. -/
def position? (d : Dimension) (item : String) : Option Nat :=
  d.items.idxOf? item

/-- True if an item has the category that a filter asks for. -/
def hasCategory (d : Dimension) (category : Option String) (item : String) : Bool :=
  match category with
  | some c => d.categories.get? item == some c
  | none => true

/-- True if the item's value under a named filter is accepted. -/
def accepts (d : Dimension) (name : String) (accepted : List String) (item : String) : Bool :=
  match (d.filters.get? name).bind (·.get? item) with
  | some v => accepted.contains v
  | none => false

/-- True if an item passes a filter. -/
def passes (d : Dimension) (f : ItemFilter) (item : String) : Bool :=
  d.hasCategory f.category item && f.values.entries.all fun (name, accepted) =>
    d.accepts name accepted item

/-- The items that pass a filter, in dimension order.  The filter must name a category that some
item has and filters that the dimension knows, and some item must pass. -/
def filteredItems (d : Dimension) (f : ItemFilter) : Except ModelError (List String) := do
  if let some c := f.category then
    unless d.categories.values.contains c do
      throw (.configuration (.noCategory d.id c))
  if let some name := f.values.keys.find? fun n => !d.filters.contains n then
    throw (.configuration (.noFilter d.id name))
  let items := d.items.filter (d.passes f)
  if items.isEmpty then throw (.configuration (.nothingLeft d.id))
  return items

end Dimension

end CoupledModels
