import CoupledModels.Model.Storage
import CoupledModels.Proofs.Store.Tables

/-!
# Tables that nobody has written to

The storage layout gives each table its declared coordinates and rows without values.  So until
something is written into a table, it has no value in it, whatever is written into other tables.
-/

namespace CoupledModels

variable {K : Type} {store : Store K} {name : String} {coordinates : List String}

/-- The store has no value under a name. -/
def Store.Blank (s : Store K) (name : String) (coordinates : List String) : Prop :=
  s.Confines name coordinates fun r => r.value = none

/-! ## Rows put by hand -/

/-- Rows that are put into a table. -/
structure RowEdit (K : Type) where
  table : String
  rows : List (Row K)
  mode : WriteMode

/-- The store after rows have been put, as far as they are not refused. -/
def Store.edited (s : Store K) (edits : List (RowEdit K)) : Store K :=
  edits.foldl (fun s e => (s.putRows e.table e.rows e.mode).2) s

theorem Store.Blank.edited (h : store.Blank name coordinates) {edits : List (RowEdit K)}
    (hedits : ∀ e ∈ edits, e.table ≠ name) : (store.edited edits).Blank name coordinates := by
  induction edits generalizing store with
  | nil => exact h
  | cons e edits ih =>
      obtain ⟨he, hedits⟩ := List.forall_mem_cons.mp hedits
      exact ih (Store.Confines.putRows h fun hname => absurd hname he) hedits

/-! ## The layout -/

namespace Model

variable {sets : Registry} {t : TableDeclaration}

theorem blank_addMissingRows (h : store.Blank name coordinates) :
    (addMissingRows sets t store).2.Blank name coordinates := by
  unfold addMissingRows
  split
  on_goal 2 => exact h
  rename_i rows hrows
  refine Store.Confines.putRows h fun _ r hr => ?_
  obtain ⟨_, -, hmissing⟩ := exists_of_bind_eq_ok hrows
  obtain ⟨_, -, heq⟩ := exists_of_bind_eq_ok hmissing
  cases heq
  obtain ⟨_, -, rfl⟩ := List.mem_map.mp hr
  rfl

theorem blank_initializeTable (ht : t.name = name → t.coordinates = coordinates)
    (h : store.Blank name coordinates) :
    (initializeTable sets t store).2.Blank name coordinates := by
  unfold initializeTable
  split
  on_goal 2 => exact h
  rename_i created hcreate
  -- a table that is created has no rows, and one that exists is left as it is
  have hcreated : created.Blank name coordinates := by
    unfold Store.createTable at hcreate
    split at hcreate
    · split at hcreate
      · cases hcreate
        exact h
      · cases hcreate
    · cases hcreate
      intro stored hstored
      rw [SortedMap.get?_insert] at hstored
      split at hstored
      · rename_i hname
        cases hstored
        exact ⟨ht (eq_of_beq hname).symm, fun r hr => by cases hr⟩
      · exact h stored hstored
  split
  · exact blank_addMissingRows hcreated
  · exact hcreated

theorem blank_initializeTables {ts : List TableDeclaration}
    (hts : ∀ t ∈ ts, t.name = name → t.coordinates = coordinates)
    (h : store.Blank name coordinates) :
    (initializeTables sets ts store).2.Blank name coordinates := by
  induction ts generalizing store with
  | nil => exact h
  | cons t rest ih =>
      obtain ⟨ht, hrest⟩ := List.forall_mem_cons.mp hts
      have hstep : (initializeTable sets t store).2.Blank name coordinates :=
        blank_initializeTable ht h
      unfold initializeTables
      split
      · rename_i hinit
        rw [hinit] at hstep
        exact ih hrest hstep
      · rename_i hinit
        rw [hinit] at hstep
        exact hstep

theorem tables_storeItems (sets : Registry) (store : Store K) :
    (storeItems sets store).tables = store.tables :=
  List.foldlRecOn (motive := fun s : Store K => s.tables = store.tables) sets.dims _ rfl
    fun _ hs _ _ => hs

/-- An empty store with the storage layout of a model has no value in it. -/
theorem blank_initializeStorage {m : Model K}
    (hcoordinates : ∀ t ∈ m.tables, t.name = name → t.coordinates = coordinates) :
    (m.initializeStorage .empty).2.Blank name coordinates := by
  refine blank_initializeTables hcoordinates fun t ht => ?_
  rw [tables_storeItems] at ht
  cases ht

end Model

end CoupledModels
