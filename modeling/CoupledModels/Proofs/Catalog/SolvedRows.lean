import CoupledModels.Catalog.Data
import CoupledModels.Proofs.SortedMap

/-!
# Rows of solved columns

What a catalog hands to the store: for each table with decision columns the rows whose columns have a
solution, block by block.
-/

namespace CoupledModels.Catalog

variable {K : Type} {c : Catalog K} {table : String}

/-- The decision blocks of a table, in order. -/
def blocksOf (c : Catalog K) (table : String) : List Block :=
  c.blocks.toList.filter fun b => b.table == table

theorem mem_endogenousTables : table ∈ c.endogenousTables ↔ c.blocksOf table ≠ [] := by
  simp [endogenousTables, blocksOf, List.mem_eraseDups, List.filter_eq_nil_iff]

variable [Scalar K] {digits : UInt32}

/-- A row that is written is the row of a column with a solution, with the rounded value. -/
theorem mem_solvedRows {b : Block} {r : Row K} (h : r ∈ c.solvedRows digits b) :
    ∃ column v, (r.coords, column) ∈ b.coords.zip b.columns ∧ c.value? column = some v ∧
      r.value = some (Scalar.roundTo digits v) := by
  obtain ⟨⟨coords, column⟩, hmem, hrow⟩ := List.mem_filterMap.mp h
  obtain ⟨v, hv, rfl⟩ := Option.map_eq_some_iff.mp hrow
  exact ⟨column, v, hmem, hv, rfl⟩

/-- The fold over the blocks collects for each table the rows of its blocks. -/
theorem get?_foldl_blocks {ρ : Type} (rowsOf : Block → List ρ) (bs : List Block) (table : String) :
    (bs.foldl (fun m b => m.insert b.table ((m.get? b.table).getD [] ++ rowsOf b))
        (SortedMap.empty : SortedMap String (List ρ))).get? table =
      if bs.filter (fun b => b.table == table) = [] then none
      else some ((bs.filter fun b => b.table == table).flatMap rowsOf) := by
  induction bs using List.reverseRecOn with
  | nil => rfl
  | append_singleton bs b ih =>
      rw [List.foldl_append, List.foldl_cons, List.foldl_nil, SortedMap.get?_insert,
        List.filter_append]
      by_cases hb : b.table = table
      · subst hb
        rw [beq_self_eq_true, if_pos rfl, ih]
        by_cases hbs : bs.filter (fun b' => b'.table == b.table) = [] <;> simp [hbs]
      · have hb' : (b.table == table) = false := beq_false_of_ne hb
        rw [beq_false_of_ne (Ne.symm hb), ih]
        simp [hb']

/-- The rows that are written to a table are those of its blocks, in order. -/
theorem get?_endogenousRows (c : Catalog K) (digits : UInt32) (table : String) :
    (c.endogenousRows digits).get? table =
      if c.blocksOf table = [] then none
      else some ((c.blocksOf table).flatMap (c.solvedRows digits)) := by
  rw [endogenousRows, ← Array.foldl_toList]
  exact get?_foldl_blocks _ _ table

theorem ascending_endogenousRows (c : Catalog K) (digits : UInt32) :
    (c.endogenousRows digits).Ascending := by
  rw [endogenousRows]
  refine Array.foldl_induction (fun _ m => SortedMap.Ascending m) SortedMap.ascending_empty
    fun i m hm => ?_
  exact hm.insert _ _

/-- The rows for a table, if any; a table without decision columns has none. -/
theorem getD_get?_endogenousRows (c : Catalog K) (digits : UInt32) (table : String) :
    ((c.endogenousRows digits).get? table).getD [] =
      (c.blocksOf table).flatMap (c.solvedRows digits) := by
  rw [get?_endogenousRows]
  split
  · rename_i hnone
    rw [hnone]
    rfl
  · rfl

theorem mem_endogenousRows {rows : List (Row K)}
    (h : (table, rows) ∈ (c.endogenousRows digits).entries) :
    c.blocksOf table ≠ [] ∧ rows = (c.blocksOf table).flatMap (c.solvedRows digits) := by
  have hget := (ascending_endogenousRows c digits).get?_of_mem h
  rw [get?_endogenousRows] at hget
  split at hget
  · cases hget
  · exact ⟨‹_›, (Option.some.inj hget).symm⟩

/-- Every written row has a value. -/
theorem isSome_of_mem_endogenousRows {rows : List (Row K)}
    (h : (table, rows) ∈ (c.endogenousRows digits).entries) : ∀ r ∈ rows, r.value.isSome = true := by
  intro r hr
  obtain ⟨-, rfl⟩ := mem_endogenousRows h
  obtain ⟨b, -, hr⟩ := List.mem_flatMap.mp hr
  obtain ⟨column, v, -, -, hvalue⟩ := mem_solvedRows hr
  rw [hvalue]
  rfl

end CoupledModels.Catalog
