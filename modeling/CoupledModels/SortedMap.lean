/-!
# Sorted maps

Finite maps kept as association lists in ascending key order.  The order of the entries is part of
the value: it is the order in which every map of this library is walked and written.
-/

namespace CoupledModels

/-- A finite map from keys to values, in ascending key order. -/
structure SortedMap (κ α : Type) where
  entries : List (κ × α)
deriving DecidableEq, Repr

namespace SortedMap

variable {κ α β : Type}

/-- The map without entries. -/
def empty : SortedMap κ α :=
  ⟨[]⟩

instance : Inhabited (SortedMap κ α) := ⟨empty⟩

/-- Enters a value into an ascending list, in place of an earlier value of the same key. -/
def insertEntry [Ord κ] (k : κ) (a : α) : List (κ × α) → List (κ × α)
  | [] => [(k, a)]
  | (k', a') :: rest =>
      match compare k k' with
      | .lt => (k, a) :: (k', a') :: rest
      | .eq => (k, a) :: rest
      | .gt => (k', a') :: insertEntry k a rest

/-- Sets the value of a key. -/
def insert [Ord κ] (m : SortedMap κ α) (k : κ) (a : α) : SortedMap κ α :=
  ⟨insertEntry k a m.entries⟩

/-- The map of a list of entries; of several entries with one key the last one counts. -/
def ofList [Ord κ] (es : List (κ × α)) : SortedMap κ α :=
  es.foldl (fun m e => m.insert e.1 e.2) empty

/-- The value of a key. -/
def get? [BEq κ] (m : SortedMap κ α) (k : κ) : Option α :=
  m.entries.lookup k

/-- True if the key has a value. -/
def contains [BEq κ] (m : SortedMap κ α) (k : κ) : Bool :=
  (m.get? k).isSome

/-- The keys, ascending. -/
def keys (m : SortedMap κ α) : List κ :=
  m.entries.map (·.1)

/-- The values, in key order. -/
def values (m : SortedMap κ α) : List α :=
  m.entries.map (·.2)

/-- True if there is no entry. -/
def isEmpty (m : SortedMap κ α) : Bool :=
  m.entries.isEmpty

/-- Replaces every value by a function of its key and itself. -/
def mapEntries (f : κ → α → β) (m : SortedMap κ α) : SortedMap κ β :=
  ⟨m.entries.map fun (k, a) => (k, f k a)⟩

end SortedMap

end CoupledModels
