import CoupledModels.Proofs.Catalog.Blocks
import CoupledModels.Proofs.Catalog.Gathering

/-!
# Rows of entries

An entry of a binding stands for one row of the table: at each coordinate the row has the item that
the part of the coordinate asks for.  `Carries` says so without saying how the row is found.  A slice
writes these rows down, and a filter with the items of rows and columns recognises them.
-/

namespace CoupledModels.Catalog

/-- A row has the items of one entry of a binding. -/
structure Carries (coordinates : List String) (v : Variable) (b : Binding) (i j : Nat)
    (row : List String) : Prop where
  length : row.length = coordinates.length
  rows : ∀ d item, (d, item) ∈ coordinates.zip row → v.roles.rows = some d →
    (v.itemsOf d)[i]? = some item
  cols : ∀ d item, (d, item) ∈ coordinates.zip row → v.roles.cols = some d →
    (v.itemsOf d)[j]? = some item
  intra : ∀ d item, (d, item) ∈ coordinates.zip row → v.roles.intra = some d →
    b.intra = some item
  inter : ∀ d item, (d, item) ∈ coordinates.zip row → d ∈ v.roles.inter → (d, item) ∈ b.inter

/-! ## Lists -/

section Lists

variable {α β γ : Type}

/-- Of distinct keys each one stands at one place. -/
theorem getElem?_of_mem_zip [BEq α] [LawfulBEq α] {xs : List α} {ys : List β} (hxs : xs.Nodup)
    {x : α} {y : β} (hzip : (x, y) ∈ xs.zip ys) {k : Nat} (hk : xs.idxOf? x = some k) :
    ys[k]? = some y := by
  obtain ⟨hlt, hx, -⟩ := List.idxOf?_eq_some_iff.mp hk
  obtain ⟨l, hl⟩ := List.mem_iff_getElem?.mp hzip
  obtain ⟨hxl, hyl⟩ := List.getElem?_zip_eq_some.mp hl
  have hxk : xs[k]? = some x := by rw [List.getElem?_eq_getElem hlt, hx]
  rw [(List.getElem?_inj hlt hxs).mp (hxk.trans hxl.symm)]
  exact hyl

/-- The element of a table that is written down row by row. -/
theorem getElem?_flatMap_map {xs : List α} {ys : List β} {f : α → β → γ} {i j : Nat} {x : α} {y : β}
    (hx : xs[i]? = some x) (hy : ys[j]? = some y) :
    (xs.flatMap fun x => ys.map (f x))[i * ys.length + j]? = some (f x y) := by
  have hj : j < ys.length := (List.getElem?_eq_some_iff.mp hy).1
  induction xs generalizing i with
  | nil => simp at hx
  | cons z xs ih =>
      rw [List.flatMap_cons]
      cases i with
      | zero =>
          obtain rfl : z = x := by simpa using hx
          rw [Nat.zero_mul, Nat.zero_add, List.getElem?_append_left (by simpa using hj),
            List.getElem?_map, hy]
          rfl
      | succ i =>
          -- the first row is passed over, and the rest of the way is that of the induction
          have hpos : (i + 1) * ys.length + j = ys.length + (i * ys.length + j) := by
            rw [Nat.succ_mul, Nat.add_comm (i * ys.length), Nat.add_assoc]
          rw [hpos, List.getElem?_append_right (by simp), List.length_map, Nat.add_sub_cancel_left]
          exact ih (by simpa using hx)

end Lists

/-! ## A binding at its site -/

theorem map_fst_of_mem_interItems {v : Variable} {inter : List Coordinate}
    (h : inter ∈ interItems v) : inter.map Prod.fst = v.roles.inter := by
  have hfst : inter.map Prod.fst = v.roles.inter.map id := Registry.map_fst_of_mem_product h
  rwa [List.map_id] at hfst

/-- A binding takes its items from those of a variable, on a table with distinct coordinates that is
not constant. -/
structure Situated (declaration : VariableDeclaration) (t : TableDeclaration) (sets : Registry)
    (v : Variable) (b : Binding) : Prop where
  resolves : Variable.Resolves declaration t sets v
  distinct : t.coordinates.Nodup
  varies : t.kind.isConstant = false
  intra : b.intra ∈ sideItems v.intraItems?
  inter : b.inter ∈ interItems v

/-- The items that a binding accepts at a coordinate. -/
def Accepts (v : Variable) (b : Binding) (d : String) (items : List String) : Prop :=
  ((v.roles.rows = some d ∨ v.roles.cols = some d) ∧ items = v.itemsOf d) ∨
    (∃ i, v.roles.intra = some d ∧ b.intra = some i ∧ items = [i]) ∨
    ∃ i, (d, i) ∈ b.inter ∧ items = [i]

namespace Situated

variable {declaration : VariableDeclaration} {t : TableDeclaration} {sets : Registry}
  {v : Variable} {b : Binding} (hs : Situated declaration t sets v b)
include hs

/-- There is one item for each inter dimension. -/
theorem inter_unique {d i i' : String} (h : (d, i) ∈ b.inter) (h' : (d, i') ∈ b.inter) : i = i' := by
  have hnodup : (b.inter.map Prod.fst).Nodup := by
    rw [map_fst_of_mem_interItems hs.inter, hs.resolves.inter]
    exact hs.distinct.filter _
  exact (Prod.mk.inj (List.inj_on_of_nodup_map hnodup h h' rfl)).2

theorem mem_roles_inter {d i : String} (h : (d, i) ∈ b.inter) : d ∈ v.roles.inter := by
  rw [← map_fst_of_mem_interItems hs.inter]
  exact List.mem_map_of_mem h

/-- There is an item of the intra dimension, if the variable has one. -/
theorem exists_intra {d : String} (hd : v.roles.intra = some d) : ∃ i, b.intra = some i := by
  have hintra := hs.intra
  rw [Variable.intraItems?, hd, Option.bind_some,
    hs.resolves.get?_items (hs.resolves.of_intra hd).1] at hintra
  obtain ⟨i, -, hi⟩ := List.mem_map.mp hintra
  exact ⟨i, hi.symm⟩

/-- An entry stands for one row. -/
theorem carries_unique {coordinates : List String} (hperm : coordinates.Perm t.coordinates)
    {i j : Nat} {row row' : List String} (h : Carries coordinates v b i j row)
    (h' : Carries coordinates v b i j row') : row = row' := by
  refine List.ext_getElem (h.length.trans h'.length.symm) fun k hk hk' => ?_
  have hlt : k < coordinates.length := h.length ▸ hk
  have hzip : ∀ (row : List String) (hk : k < row.length),
      (coordinates[k], row[k]) ∈ coordinates.zip row := by
    intro row hk
    refine List.mem_iff_getElem?.mpr ⟨k, List.getElem?_zip_eq_some.mpr ?_⟩
    exact ⟨List.getElem?_eq_getElem hlt, List.getElem?_eq_getElem hk⟩
  have hmem := hzip row hk
  have hmem' := hzip row' hk'
  rcases hs.resolves.part_cases (hperm.subset (List.getElem_mem hlt)) with (hd | hd) | hd | hd
  · exact Option.some.inj ((h.rows _ _ hmem hd).symm.trans (h'.rows _ _ hmem' hd))
  · exact Option.some.inj ((h.cols _ _ hmem hd).symm.trans (h'.cols _ _ hmem' hd))
  · exact Option.some.inj ((h.intra _ _ hmem hd).symm.trans (h'.intra _ _ hmem' hd))
  · exact hs.inter_unique (h.inter _ _ hmem hd) (h'.inter _ _ hmem' hd)

/-! ## Rows that a slice writes down -/

theorem getElem?_itemsOf_of_sideItems {side : Option String} {d : String} (hside : side = some d)
    (hd : d ∈ t.coordinates) {i : Nat} {r : Option String}
    (hr : (sideItems (side.bind v.items.get?))[i]? = some r) :
    ∃ item, r = some item ∧ (v.itemsOf d)[i]? = some item := by
  rw [hside, Option.bind_some, hs.resolves.get?_items hd, sideItems, List.getElem?_map] at hr
  obtain ⟨item, hitem, rfl⟩ := Option.map_eq_some_iff.mp hr
  exact ⟨item, rfl, hitem⟩

/-- The row that is written down for an entry carries its items. -/
theorem carries_tableRow {i j : Nat} {r k : Option String}
    (hr : (sideItems v.rowItems?)[i]? = some r) (hk : (sideItems v.colItems?)[j]? = some k) :
    Carries t.coordinates v b i j (tableRow t.coordinates v r k b.intra b.inter) := by
  have hzip : ∀ d item, (d, item) ∈ t.coordinates.zip (tableRow t.coordinates v r k b.intra b.inter) →
      d ∈ t.coordinates ∧ item =
        if v.roles.rows = some d then r.getD ""
        else if v.roles.cols = some d then k.getD ""
        else if v.roles.intra = some d then b.intra.getD ""
        else (b.inter.lookup d).getD "" := by
    intro d item h
    rw [tableRow, ← List.map_prod_left_eq_zip] at h
    obtain ⟨_, hd, heq⟩ := List.mem_map.mp h
    cases heq
    exact ⟨hd, rfl⟩
  -- the part that a coordinate plays decides which item is written down for it
  refine ⟨List.length_map _, fun d item h hd => ?_, fun d item h hd => ?_, fun d item h hd => ?_,
    fun d item h hd => ?_⟩
  all_goals obtain ⟨hmem, rfl⟩ := hzip d item h
  · obtain ⟨item, rfl, hitem⟩ := hs.getElem?_itemsOf_of_sideItems hd hmem hr
    rw [if_pos hd, hitem]
    rfl
  · obtain ⟨item, rfl, hitem⟩ := hs.getElem?_itemsOf_of_sideItems hd hmem hk
    rw [if_neg fun hrow => hs.resolves.distinct hs.varies d hrow hd, if_pos hd, hitem]
    rfl
  · obtain ⟨hrow, hcol⟩ := not_or.mp (hs.resolves.not_side_of_intra hd)
    obtain ⟨item, hitem⟩ := hs.exists_intra hd
    rw [if_neg hrow, if_neg hcol, if_pos hd, hitem]
    rfl
  · obtain ⟨hrow, hcol⟩ := not_or.mp (hs.resolves.not_side_of_inter hd)
    rw [if_neg hrow, if_neg hcol, if_neg (hs.resolves.intra_ne_of_inter hd)]
    cases hlookup : b.inter.lookup d with
    | none =>
        rw [← map_fst_of_mem_interItems hs.inter] at hd
        obtain ⟨c, hc, rfl⟩ := List.mem_map.mp hd
        simpa using List.lookup_eq_none_iff.mp hlookup c hc
    | some item => exact SortedMap.mem_entries_of_get? (m := ⟨b.inter⟩) hlookup

/-! ## Rows that a filter lets pass -/

/-- The parts of coordinates exclude each other, so one list of items is accepted at each. -/
theorem accepts_unique {d : String} {items items' : List String} (h : Accepts v b d items)
    (h' : Accepts v b d items') : items = items' := by
  have hv := hs.resolves
  rcases h with ⟨hside, rfl⟩ | ⟨i, hsingle, hi, rfl⟩ | ⟨i, hi, rfl⟩
  · rcases h' with ⟨-, rfl⟩ | ⟨i', hsingle, -⟩ | ⟨i', hi', -⟩
    · rfl
    · exact absurd hside (hv.not_side_of_intra hsingle)
    · exact absurd hside (hv.not_side_of_inter (hs.mem_roles_inter hi'))
  · rcases h' with ⟨hside, -⟩ | ⟨i', -, hi', rfl⟩ | ⟨i', hi', -⟩
    · exact absurd hside (hv.not_side_of_intra hsingle)
    · rw [Option.some.inj (hi.symm.trans hi')]
    · exact absurd hsingle (hv.intra_ne_of_inter (hs.mem_roles_inter hi'))
  · rcases h' with ⟨hside, -⟩ | ⟨i', hsingle, -⟩ | ⟨i', hi', rfl⟩
    · exact absurd hside (hv.not_side_of_inter (hs.mem_roles_inter hi))
    · exact absurd hsingle (hv.intra_ne_of_inter (hs.mem_roles_inter hi))
    · rw [hs.inter_unique hi hi']

omit hs in
/-- The entries that a filter is made of are what is accepted. -/
theorem exists_filterEntries (v : Variable) (b : Binding) :
    ∃ es, bindingFilter v b.intra b.inter = SortedMap.ofList es ∧
      ∀ d items, (d, items) ∈ es ↔ Accepts v b d items := by
  refine ⟨_, rfl, fun d items => ?_⟩
  rw [List.mem_append, List.mem_append, or_assoc]
  refine or_congr ?_ (or_congr ?_ ?_)
  · simp only [List.mem_map, List.mem_append, Option.mem_toList, Prod.mk.injEq]
    constructor
    · rintro ⟨_, hd, rfl, rfl⟩
      exact ⟨hd, rfl⟩
    · rintro ⟨hd, rfl⟩
      exact ⟨d, hd, rfl, rfl⟩
  · cases v.roles.intra <;> cases b.intra <;> simp [eq_comm]
  · simp only [List.mem_map, Prod.mk.injEq]
    constructor
    · rintro ⟨⟨_, i⟩, hi, rfl, rfl⟩
      exact ⟨i, hi, rfl⟩
    · rintro ⟨i, hi, rfl⟩
      exact ⟨(d, i), hi, rfl, rfl⟩

/-- The filter of a binding has the items that are accepted. -/
theorem get?_bindingFilter {d : String} {items : List String} (h : Accepts v b d items) :
    (bindingFilter v b.intra b.inter).get? d = some items := by
  obtain ⟨es, hes, hmem⟩ := exists_filterEntries v b
  rw [hes]
  exact SortedMap.get?_ofList_of_mem ((hmem d items).mpr h) fun items' h' =>
    hs.accepts_unique ((hmem d items').mp h') h

section Positions

variable {coordinates : List String} (hperm : coordinates.Perm t.coordinates)
include hperm

/-- The position of a row along a side that ranges over a dimension is that of its item. -/
theorem sideIndex?_eq {side : Option String} {d : String} (hside : side = some d)
    (hd : d ∈ t.coordinates) (row : List String) :
    ∃ k, coordinates.idxOf? d = some k ∧
      sideIndex? coordinates side (side.bind v.items.get?) row =
        (v.itemsOf d).idxOf? (row.getD k "") := by
  cases hk : coordinates.idxOf? d with
  | none => simp [hperm.mem_iff, hd] at hk
  | some k =>
      refine ⟨k, rfl, ?_⟩
      subst hside
      simp only [sideIndex?, Option.bind_some, hk, hs.resolves.get?_items hd]

theorem lt_of_sideIndex? {side : Option String} (hside : ∀ d, side = some d → d ∈ t.coordinates)
    {row : List String} {i : Nat}
    (h : sideIndex? coordinates side (side.bind v.items.get?) row = some i) :
    i < (sideItems (side.bind v.items.get?)).length := by
  cases hd : side with
  | none =>
      rw [hd] at h
      cases h
      exact Nat.zero_lt_one
  | some d =>
      obtain ⟨k, -, heq⟩ := hs.sideIndex?_eq hperm hd (hside d hd) row
      rw [heq] at h
      rw [Option.bind_some, hs.resolves.get?_items (hside d hd), sideItems, List.length_map]
      exact (List.idxOf?_eq_some_iff.mp h).1

theorem getElem?_itemsOf_of_sideIndex? {side : Option String} {d item : String}
    (hside : side = some d) {row : List String} {i : Nat}
    (h : sideIndex? coordinates side (side.bind v.items.get?) row = some i)
    (hzip : (d, item) ∈ coordinates.zip row) : (v.itemsOf d)[i]? = some item := by
  have hd : d ∈ t.coordinates := hperm.subset (List.of_mem_zip hzip).1
  obtain ⟨k, hk, heq⟩ := hs.sideIndex?_eq hperm hside hd row
  rw [heq] at h
  obtain ⟨hlt, hitem, -⟩ := List.idxOf?_eq_some_iff.mp h
  rw [List.getElem?_eq_getElem hlt, hitem, List.getD_eq_getElem?_getD,
    getElem?_of_mem_zip (hperm.nodup_iff.mpr hs.distinct) hzip hk]
  rfl

/-- A row that stands at the position of an entry stands in its row and its column. -/
theorem sideIndex?_of_positioned {row : List String} {i j : Nat} (hj : j < v.shape.cols)
    (h : Positioned v coordinates v.shape row (i * v.shape.cols + j)) :
    sideIndex? coordinates v.roles.rows v.rowItems? row = some i ∧
      sideIndex? coordinates v.roles.cols v.colItems? row = some j := by
  obtain ⟨i', j', hi', hj', heq⟩ := h
  have hlt : j' < v.shape.cols := by
    rw [hs.resolves.shape]
    exact hs.lt_of_sideIndex? hperm (fun d hd => hs.resolves.sides d (.inr hd)) hj'
  have hcols : 0 < v.shape.cols := Nat.zero_lt_of_lt hj
  obtain rfl : j' = j := by
    simpa only [Nat.mul_add_mod_of_lt, hlt, hj] using congrArg (· % v.shape.cols) heq
  obtain rfl : i' = i := Nat.eq_of_mul_eq_mul_right hcols (Nat.add_right_cancel heq)
  exact ⟨hi', hj'⟩

end Positions

/-- A row that the filter of a binding lets pass carries the items of the entry at its position. -/
theorem carries_of_passes {K : Type} {st : StoredTable K} (hperm : st.coordinates.Perm t.coordinates)
    {name : String} {rs : List (Nat × List String)} {r : Row K}
    (hlength : r.coords.length = st.coordinates.length)
    (hrs : st.restrictions name (bindingFilter v b.intra b.inter) = .ok rs)
    (hpasses : StoredTable.passes rs r = true) {i j : Nat} (hj : j < v.shape.cols)
    (hposition : Positioned v st.coordinates v.shape r.coords (i * v.shape.cols + j)) :
    Carries st.coordinates v b i j r.coords := by
  obtain ⟨hrow, hcol⟩ := hs.sideIndex?_of_positioned hperm hj hposition
  have hsingle : ∀ d item i, (d, item) ∈ st.coordinates.zip r.coords → Accepts v b d [i] →
      i = item := by
    intro d item i hzip haccepts
    obtain ⟨k, item', hk, hitem, hmem⟩ :=
      StoredTable.mem_of_passes hrs hpasses (hs.get?_bindingFilter haccepts)
    rw [getElem?_of_mem_zip (hperm.nodup_iff.mpr hs.distinct) hzip hk] at hitem
    rw [Option.some.inj hitem]
    exact (List.mem_singleton.mp hmem).symm
  -- the sides are known from the position, the intra and inter items from the filter
  refine ⟨hlength, fun d item hzip hd => ?_, fun d item hzip hd => ?_, fun d item hzip hd => ?_,
    fun d item hzip hd => ?_⟩
  · exact hs.getElem?_itemsOf_of_sideIndex? hperm hd hrow hzip
  · exact hs.getElem?_itemsOf_of_sideIndex? hperm hd hcol hzip
  · obtain ⟨i, hitem⟩ := hs.exists_intra hd
    rw [hitem, hsingle d item i hzip (.inr (.inl ⟨i, hd, hitem, rfl⟩))]
  · rw [← map_fst_of_mem_interItems hs.inter] at hd
    obtain ⟨⟨_, i⟩, hmem, rfl⟩ := List.mem_map.mp hd
    rw [← hsingle _ item i hzip (.inr (.inr ⟨i, hmem, rfl⟩))]
    exact hmem

end Situated

end CoupledModels.Catalog
