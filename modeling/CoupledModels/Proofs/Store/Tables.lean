import CoupledModels.Proofs.Store.Rows

/-!
# Stored tables

A write touches the rows of one table and nothing else of a store.  `Store.WellFormed` says that a
store is kept as it should be: tables in ascending order, and in each table rows with distinct
coordinates.  Every write keeps this.  `Store.Confines` says which rows a table may have; it is kept by
writes of such rows.
-/

namespace CoupledModels.Store

variable {K : Type} {s s' : Store K} {name : String} {rows : List (Row K)} {mode : WriteMode}

/-! ## Reading -/

theorem table_eq_ok {t : StoredTable K} : s.table name = .ok t ↔ s.tables.get? name = some t := by
  unfold table
  cases s.tables.get? name <;> simp

/-- Without a filter every row passes. -/
theorem getRows_empty (s : Store K) (name : String) :
    s.getRows name .empty = (s.table name).map (·.rows) := by
  unfold getRows
  cases s.table name with
  | error e => rfl
  | ok t =>
      have hall : t.rows.filter (StoredTable.passes []) = t.rows :=
        List.filter_eq_self.mpr fun r _ => rfl
      exact congrArg Except.ok hall

theorem getRows_empty_eq_ok :
    s.getRows name .empty = .ok rows ↔ ∃ t, s.tables.get? name = some t ∧ t.rows = rows := by
  rw [getRows_empty]
  unfold table
  cases s.tables.get? name with
  | none => simp [Except.map]
  | some t => simp [Except.map]

/-- A snapshot holds the rows of every table that it was taken of. -/
theorem get?_snapshot {names : List String} {before : Snapshot K}
    (h : s.snapshot names = .ok before) (hname : name ∈ names) :
    ∃ rows, s.getRows name .empty = .ok rows ∧ before.get? name = some rows := by
  obtain ⟨es, hes, heq⟩ := exists_of_bind_eq_ok h
  cases heq
  exact SortedMap.get?_ofList_of_mapM hes hname

/-! ## Writing -/

/-- The store with other rows in a table. -/
def withRows (s : Store K) (name : String) (t : StoredTable K) (rows : List (Row K)) : Store K :=
  { s with tables := s.tables.insert name { t with rows := rows } }

@[simp] theorem dimensions_withRows (s : Store K) (name : String) (t : StoredTable K)
    (rows : List (Row K)) : (s.withRows name t rows).dimensions = s.dimensions := rfl

theorem get?_withRows (s : Store K) (name : String) (t : StoredTable K) (rows : List (Row K))
    (other : String) : (s.withRows name t rows).tables.get? other =
      if other = name then some { t with rows := rows } else s.tables.get? other := by
  simp [withRows, SortedMap.get?_insert]

/-- A write leaves the store as it is, or it writes into a table that exists. -/
theorem putRows_cases (s : Store K) (name : String) (rows : List (Row K)) (mode : WriteMode) :
    (s.putRows name rows mode).2 = s ∨
      ∃ t, s.tables.get? name = some t ∧
        (s.putRows name rows mode).2 =
          s.withRows name t (StoredTable.writeRows name mode t.rows rows).1 := by
  unfold putRows
  cases ht : s.table name with
  | error e => exact .inl rfl
  | ok t =>
      dsimp only
      split
      · exact .inl rfl
      · refine .inr ⟨t, table_eq_ok.mp ht, ?_⟩
        split <;> rfl

/-- A table that can be created exists already, or it is new and has no rows. -/
theorem createTable_cases {coordinates : List String}
    (h : s.createTable name coordinates = .ok s') :
    s' = s ∨ s' = { s with tables := s.tables.insert name ⟨coordinates, []⟩ } := by
  unfold createTable at h
  cases hget : s.tables.get? name with
  | some t =>
      simp only [hget] at h
      split at h
      · cases h
        exact .inl rfl
      · cases h
  | none =>
      simp only [hget] at h
      cases h
      exact .inr rfl

theorem dimensions_putRows : (s.putRows name rows mode).2.dimensions = s.dimensions := by
  rcases putRows_cases s name rows mode with heq | ⟨t, -, heq⟩
  · rw [heq]
  · rw [heq, dimensions_withRows]

/-- Replacing rows succeeds if and only if the table exists and every row has one item for each of
its coordinates. -/
theorem putRows_replace_iff :
    s.putRows name rows .replace = (.ok (), s') ↔
      ∃ t, s.tables.get? name = some t ∧
        (∀ r ∈ rows, r.coords.length = t.coordinates.length) ∧
        s' = s.withRows name t (StoredTable.writeRows name .replace t.rows rows).1 := by
  unfold putRows
  cases ht : s.table name with
  | error e =>
      have hnone : ∀ t, s.tables.get? name ≠ some t := by
        intro t hsome
        rw [table_eq_ok.mpr hsome] at ht
        cases ht
      simp [hnone]
  | ok t =>
      have hsome := table_eq_ok.mp ht
      have hwritten := StoredTable.writeRows_replace name t.rows rows
      cases hfind : rows.find? fun r => r.coords.length ≠ t.coordinates.length with
      | some r =>
          have hlen : r.coords.length ≠ t.coordinates.length := by
            simpa using List.find?_some hfind
          simp only [hsome, hfind, Prod.mk.injEq, reduceCtorEq, false_and, Option.some.injEq,
            exists_eq_left', false_iff, not_and]
          exact fun hall => absurd (hall r (List.mem_of_find?_eq_some hfind)) hlen
      | none =>
          have hall : ∀ r ∈ rows, r.coords.length = t.coordinates.length := by
            simpa using hfind
          simp only [hsome, hfind, hwritten, Option.some.injEq, exists_eq_left', true_and,
            Prod.mk.injEq]
          exact ⟨fun heq => ⟨hall, heq.symm⟩, fun heq => heq.2.symm⟩

/-- A write touches no other table. -/
theorem get?_putRows_of_ne {other : String} (h : other ≠ name) :
    (s.putRows name rows mode).2.tables.get? other = s.tables.get? other := by
  rcases putRows_cases s name rows mode with heq | ⟨t, -, heq⟩
  · rw [heq]
  · rw [heq, get?_withRows, if_neg h]

/-! ## Confined tables -/

/-- Whatever the store has under a name has some coordinates, and rows of one kind only. -/
def Confines (s : Store K) (name : String) (coordinates : List String) (R : Row K → Prop) : Prop :=
  ∀ t, s.tables.get? name = some t → t.coordinates = coordinates ∧ ∀ r ∈ t.rows, R r

namespace Confines

variable {coordinates : List String} {R R' : Row K → Prop}

theorem mono (h : s.Confines name coordinates R) (hR : ∀ r, R r → R' r) :
    s.Confines name coordinates R' :=
  fun t ht => ⟨(h t ht).1, fun r hr => hR r ((h t ht).2 r hr)⟩

/-- A write of rows of the kind, or into another table. -/
theorem putRows (h : s.Confines name coordinates R) {other : String}
    (hrows : other = name → ∀ r ∈ rows, R r) :
    (s.putRows other rows mode).2.Confines name coordinates R := by
  rcases putRows_cases s other rows mode with heq | ⟨t, ht, heq⟩
  · rw [heq]
    exact h
  rw [heq]
  intro t' ht'
  rw [get?_withRows] at ht'
  split at ht'
  · rename_i hname
    subst hname
    cases ht'
    obtain ⟨hcoordinates, hold⟩ := h t ht
    refine ⟨hcoordinates, fun r hr => ?_⟩
    exact ((StoredTable.writes_writeRows name mode t.rows rows).mem hr).elim (hold r)
      (hrows rfl r)
  · exact h t' ht'

end Confines

/-! ## Well-formed stores -/

/-- Tables are in ascending order, and the rows of each one have distinct coordinates. -/
structure WellFormed (s : Store K) : Prop where
  ascending : s.tables.Ascending
  distinct : ∀ (name : String) (t : StoredTable K), s.tables.get? name = some t →
    DistinctRows t.rows

namespace WellFormed

theorem withRows (h : s.WellFormed) {t : StoredTable K} (hrows : DistinctRows rows) :
    (s.withRows name t rows).WellFormed where
  ascending := h.ascending.insert _ _
  distinct := by
    intro other t' ht'
    rw [get?_withRows] at ht'
    split at ht'
    · cases ht'
      exact hrows
    · exact h.distinct other t' ht'

theorem putRows (h : s.WellFormed) : (s.putRows name rows mode).2.WellFormed := by
  rcases putRows_cases s name rows mode with heq | ⟨t, ht, heq⟩
  · rw [heq]
    exact h
  · rw [heq]
    exact h.withRows (StoredTable.distinctRows_writeRows name mode (h.distinct name t ht))

end WellFormed

end CoupledModels.Store
