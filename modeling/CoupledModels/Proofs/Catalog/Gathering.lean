import CoupledModels.Catalog.Data
import CoupledModels.Proofs.Arrays.Computed
import CoupledModels.Proofs.Store.Tables

/-!
# Where loaded entries come from

A matrix that is loaded from storage is gathered from the rows that pass the filter of its binding.
Each entry is the value of one of these rows, of one whose items are those of the entry.
-/

namespace CoupledModels

namespace StoredTable

variable {K : Type} {t : StoredTable K} {name : String} {filter : RowFilter}
  {rs : List (Nat × List String)} {r : Row K}

/-- A row that passes has an accepted item at each coordinate that the filter names. -/
theorem mem_of_passes (h : t.restrictions name filter = .ok rs) (hpasses : passes rs r = true)
    {d : String} {items : List String} (hfilter : filter.get? d = some items) :
    ∃ k item, t.coordinates.idxOf? d = some k ∧ r.coords[k]? = some item ∧ item ∈ items := by
  obtain ⟨⟨k, accepted⟩, hmem, hstep⟩ :=
    exists_right_of_forall₂ (forall₂_of_mapM h) (SortedMap.mem_entries_of_get? hfilter)
  simp only at hstep
  split at hstep
  on_goal 2 => cases hstep
  rename_i hindex
  cases hstep
  have hitem := List.all_eq_true.mp hpasses _ hmem
  simp only at hitem
  split at hitem
  · rename_i item hitem'
    exact ⟨k, item, hindex, hitem', List.contains_iff_mem.mp hitem⟩
  · cases hitem

end StoredTable

namespace Catalog

variable {K : Type} [Scalar K] {v : Variable} {coordinates : List String} {s : Shape}

theorem definedValue_eq_some_iff {value : Option K} {x : K} :
    definedValue value = some x ↔ value = some x ∧ Scalar.isNaN x = false := by
  rw [definedValue, Option.filter_eq_some_iff, Bool.not_eq_true']

/-- A row belongs to a position of the matrix. -/
def Positioned (v : Variable) (coordinates : List String) (s : Shape) (coords : List String)
    (p : Nat) : Prop :=
  ∃ i j, sideIndex? coordinates v.roles.rows v.rowItems? coords = some i ∧
    sideIndex? coordinates v.roles.cols v.colItems? coords = some j ∧ i * s.cols + j = p

theorem gather_append_singleton (v : Variable) (coordinates : List String) (s : Shape)
    (rows : List (Row K)) (r : Row K) :
    gather v coordinates s (rows ++ [r]) =
      match sideIndex? coordinates v.roles.rows v.rowItems? r.coords,
        sideIndex? coordinates v.roles.cols v.colItems? r.coords with
      | some i, some j =>
          (gather v coordinates s rows).setIfInBounds (i * s.cols + j) (definedValue r.value)
      | _, _ => gather v coordinates s rows := by
  rw [gather, List.foldl_append, List.foldl_cons, List.foldl_nil]
  rfl

theorem size_gather (v : Variable) (coordinates : List String) (s : Shape) (rows : List (Row K)) :
    (gather v coordinates s rows).size = s.rows * s.cols := by
  induction rows using List.reverseRecOn with
  | nil => exact Array.size_replicate
  | append_singleton rows r ih =>
      rw [gather_append_singleton]
      split
      · rw [Array.size_setIfInBounds, ih]
      · exact ih

/-- A value that has been gathered is that of a row at its position. -/
theorem exists_of_gather {rows : List (Row K)} {p : Nat} {x : K}
    (h : (gather v coordinates s rows)[p]? = some (some x)) :
    ∃ r ∈ rows, Positioned v coordinates s r.coords p ∧ definedValue r.value = some x := by
  induction rows using List.reverseRecOn with
  | nil =>
      simp only [gather, List.foldl_nil, Array.getElem?_replicate] at h
      split at h <;> cases h
  | append_singleton rows r ih =>
      have hearlier : (gather v coordinates s rows)[p]? = some (some x) →
          ∃ r' ∈ rows ++ [r], Positioned v coordinates s r'.coords p ∧
            definedValue r'.value = some x := by
        intro hrows
        obtain ⟨r', hr', hfound⟩ := ih hrows
        exact ⟨r', List.mem_append_left _ hr', hfound⟩
      -- the last row has been stored at the position, or the value was there before
      rw [gather_append_singleton] at h
      split at h
      · rename_i i j hi hj
        rw [Array.getElem?_setIfInBounds] at h
        split at h
        · rename_i hp
          split at h
          · exact ⟨r, List.mem_append_right _ List.mem_cons_self, ⟨i, j, hi, hj, hp⟩,
              Option.some.inj h⟩
          · cases h
        · exact hearlier h
      · exact hearlier h

/-- The value of a row is gathered at its position if no other row stands there. -/
theorem getElem?_gather_of_unique {rows : List (Row K)} {r : Row K} (hr : r ∈ rows) {p : Nat}
    (hp : p < s.rows * s.cols) (hposition : Positioned v coordinates s r.coords p)
    (hunique : ∀ r' ∈ rows, Positioned v coordinates s r'.coords p → r' = r) :
    (gather v coordinates s rows)[p]? = some (definedValue r.value) := by
  induction rows using List.reverseRecOn with
  | nil => exact absurd hr List.not_mem_nil
  | append_singleton rows r' ih =>
      have hearlier : r' ≠ r → (gather v coordinates s rows)[p]? = some (definedValue r.value) := by
        intro hne
        have hmem := (List.mem_append.mp hr).resolve_right fun h => hne (List.mem_singleton.mp h).symm
        exact ih hmem fun r'' hr'' => hunique r'' (List.mem_append_left _ hr'')
      -- another row that is stored later stands elsewhere
      rw [gather_append_singleton]
      split
      · rename_i i j hi hj
        rw [Array.getElem?_setIfInBounds]
        split
        · rename_i hsame
          obtain rfl := hunique r' (List.mem_append_right _ List.mem_cons_self) ⟨i, j, hi, hj, hsame⟩
          rw [if_pos (by rwa [size_gather, hsame])]
        · rename_i hother
          refine hearlier fun heq => ?_
          obtain ⟨i', j', hi', hj', hsame⟩ := heq ▸ hposition
          obtain rfl := Option.some.inj (hi.symm.trans hi')
          obtain rfl := Option.some.inj (hj.symm.trans hj')
          exact hother hsame
      · rename_i hnone
        refine hearlier fun heq => ?_
        obtain ⟨i, j, hi, hj, -⟩ := heq ▸ hposition
        exact hnone i j hi hj

/-- If all values are defined, nothing is lost when they are taken out. -/
theorem map_some_filterMap_id {α : Type} {xs : List (Option α)} (h : ∀ x ∈ xs, x.isNone = false) :
    (xs.filterMap id).map some = xs := by
  induction xs with
  | nil => rfl
  | cons x xs ih =>
      obtain ⟨hx, hxs⟩ := List.forall_mem_cons.mp h
      cases x with
      | none => cases hx
      | some a =>
          have hcons : (some a :: xs).filterMap id = a :: xs.filterMap id := rfl
          rw [hcons, List.map_cons, ih hxs]

/-- The entries of a matrix whose values are all defined. -/
theorem getElem?_of_defined {data : List (Option K)} (hdefined : ∀ x ∈ data, x.isNone = false)
    (hvalid : Tensor.Valid (⟨s, none, data.filterMap id⟩ : Matrix K)) {i j : Nat} (hi : i < s.rows)
    (hj : j < s.cols) :
    data[i * s.cols + j]? = some (some (Matrix.get ⟨s, none, data.filterMap id⟩ i j)) := by
  have hlength : (data.filterMap id).length = s.rows * s.cols := by
    simpa using Tensor.valid_dense_iff.mp hvalid
  have hlt : i * s.cols + j < (data.filterMap id).length := hlength ▸ cell_lt hi hj
  conv_lhs => rw [← map_some_filterMap_id hdefined]
  have hget : Matrix.get ⟨s, none, data.filterMap id⟩ i j =
      (data.filterMap id)[i * s.cols + j] := (List.getElem_eq_getD 0).symm
  rw [hget, List.getElem?_map, List.getElem?_eq_getElem hlt]
  rfl

/-- The matrix of the values that have been gathered for a binding, all of which must be defined. -/
def assemble (v : Variable) (b : Binding) (data : List (Option K)) : Except ModelError (Matrix K) :=
  match data.findIdx? Option.isNone with
  | some k =>
      .error (.missing (.entry b.symbol v.table (k / b.shape.cols) (k % b.shape.cols)
        b.filter.entries))
  | none =>
      (Tensor.ofStored b.shape none (data.filterMap id)).mapError fun e => .missing (.array e)

/-- A matrix has the gathered values as its entries.  It is the first entry without a value that is
missing. -/
theorem outcome_assemble (v : Variable) {b : Binding} {data : List (Option K)}
    (hlength : data.length = b.shape.rows * b.shape.cols) :
    Outcome (fun m => Tensor.HasShape m b.shape ∧ ∀ i < b.shape.rows, ∀ j < b.shape.cols,
        data[i * b.shape.cols + j]? = some (some (m.get i j)))
      (fun e => ∃ i < b.shape.rows, ∃ j < b.shape.cols, data[i * b.shape.cols + j]? = some none ∧
        e = .missing (.entry b.symbol v.table i j b.filter.entries))
      (assemble v b data) := by
  unfold assemble
  split
  · rename_i k hk
    obtain ⟨hlt, hnone, -⟩ := List.findIdx?_eq_some_iff_getElem.mp hk
    have hvalue : data[k]? = some none := by
      rw [List.getElem?_eq_getElem hlt, Option.isNone_iff_eq_none.mp hnone]
    rw [hlength] at hlt
    have hcols : 0 < b.shape.cols := Nat.pos_of_mul_pos_left (Nat.zero_lt_of_lt hlt)
    -- the place of the first missing value is that of an entry
    refine ⟨k / b.shape.cols, (Nat.div_lt_iff_lt_mul hcols).mpr hlt, k % b.shape.cols,
      Nat.mod_lt k hcols, ?_, rfl⟩
    rwa [Nat.div_add_mod']
  · rename_i hdefined
    have hnone := List.findIdx?_eq_none_iff.mp hdefined
    have hvalid : Tensor.Valid (⟨b.shape, none, data.filterMap id⟩ : Matrix K) := by
      refine Tensor.valid_dense_iff.mpr ?_
      rw [Extent.size_shape, ← hlength, ← List.length_map, map_some_filterMap_id hnone]
    have hstored : Tensor.ofStored b.shape none (data.filterMap id) =
        .ok (⟨b.shape, none, data.filterMap id⟩ : Matrix K) := by
      rw [Tensor.ofStored, hvalid]
      rfl
    rw [hstored]
    exact ⟨⟨hvalid, rfl⟩, fun i hi j hj => getElem?_of_defined hnone hvalid hi hj⟩

/-- A binding is loaded by gathering the rows that pass its filter. -/
theorem loadBinding_eq {c : Catalog K} {store : Store K} {b : Binding} {t : StoredTable K}
    {rs : List (Nat × List String)} (hv : c.variableNamed? b.symbol = some v)
    (ht : store.tables.get? v.table = some t) (hrs : t.restrictions v.table b.filter = .ok rs) :
    c.loadBinding store b = assemble v b
      (gather v t.coordinates b.shape (t.rows.filter (StoredTable.passes rs))).toList := by
  have htable := Store.table_eq_ok.mpr ht
  have hrows : store.getRows v.table b.filter = .ok (t.rows.filter (StoredTable.passes rs)) := by
    unfold Store.getRows
    rw [htable]
    change (t.restrictions v.table b.filter >>= _) = _
    rw [hrs]
    rfl
  have hcoordinates : store.coordinates v.table = .ok t.coordinates := by
    rw [Store.coordinates, htable]
    rfl
  unfold loadBinding
  rw [hv]
  dsimp only
  rw [hrows, hcoordinates]
  rfl

/-- The entries of a matrix that has been loaded. -/
theorem loadBinding_ok {c : Catalog K} {store : Store K} {b : Binding} {m : Matrix K}
    (h : c.loadBinding store b = .ok m) :
    ∃ v t rs, c.variableNamed? b.symbol = some v ∧ store.tables.get? v.table = some t ∧
      t.restrictions v.table b.filter = .ok rs ∧ m.HasShape b.shape ∧
      ∀ i < b.shape.rows, ∀ j < b.shape.cols, ∃ r ∈ t.rows, StoredTable.passes rs r = true ∧
        Positioned v t.coordinates b.shape r.coords (i * b.shape.cols + j) ∧
        r.value = some (m.get i j) := by
  have hfound : ∃ v t rs, c.variableNamed? b.symbol = some v ∧
      store.tables.get? v.table = some t ∧ t.restrictions v.table b.filter = .ok rs := by
    unfold loadBinding at h
    split at h
    · cases h
    rename_i v hv
    obtain ⟨rows, hrows, -⟩ := exists_of_bind_eq_ok h
    obtain ⟨t, ht, hrows⟩ := exists_of_bind_eq_ok hrows
    obtain ⟨rs, hrs, -⟩ := exists_of_bind_eq_ok hrows
    exact ⟨v, t, rs, hv, Store.table_eq_ok.mp ht, hrs⟩
  obtain ⟨v, t, rs, hv, ht, hrs⟩ := hfound
  -- every entry has been gathered, and what has been gathered is the number of a row
  rw [loadBinding_eq hv ht hrs] at h
  obtain ⟨hshape, hentries⟩ := (outcome_assemble v (size_gather v _ _ _)).value h
  refine ⟨v, t, rs, hv, ht, hrs, hshape, fun i hi j hj => ?_⟩
  have hgathered := hentries i hi j hj
  rw [Array.getElem?_toList] at hgathered
  obtain ⟨r, hr, hposition, hvalue⟩ := exists_of_gather hgathered
  obtain ⟨hmem, hpasses⟩ := List.mem_filter.mp hr
  exact ⟨r, hmem, hpasses, hposition, (definedValue_eq_some_iff.mp hvalue).1⟩

end Catalog

end CoupledModels
