import CoupledModels.Proofs.Outcome
import CoupledModels.Sets.Registry
import Mathlib.Data.List.Nodup

/-!
# Products of lists

The picks of one element from each of several lists: which they are, that distinct elements give
distinct picks, and that picks are listed in lexicographic order.  The lists that are multiplied are
those of the items of dimensions, where the position of an item in its dimension gives the order.
-/

namespace CoupledModels

/-- In a list of distinct elements the position of an element grows along the list. -/
theorem pairwise_idxOf {α : Type} [BEq α] [LawfulBEq α] {xs : List α} (h : xs.Nodup) :
    xs.Pairwise fun a b => xs.idxOf a < xs.idxOf b := by
  rw [List.pairwise_iff_getElem]
  intro i j hi hj hij
  rwa [h.idxOf_getElem i hi, h.idxOf_getElem j hj]

namespace Registry

variable {α : Type}

/-! ## Picks -/

/-- A pick takes one element from each list. -/
theorem forall₂_of_mem_product {xss : List (List α)} {row : List α} (h : row ∈ product xss) :
    List.Forall₂ (fun x xs => x ∈ xs) row xss := by
  induction xss generalizing row with
  | nil =>
      obtain rfl := List.mem_singleton.mp h
      exact .nil
  | cons xs rest ih =>
      obtain ⟨x, hx, h⟩ := List.mem_flatMap.mp h
      obtain ⟨row, hrow, rfl⟩ := List.mem_map.mp h
      exact .cons hx (ih hrow)

/-- The picks are the lists that have one element of each list. -/
theorem mem_product_iff {xss : List (List α)} {row : List α} :
    row ∈ product xss ↔ List.Forall₂ (fun x xs => x ∈ xs) row xss := by
  refine ⟨forall₂_of_mem_product, fun h => ?_⟩
  induction h with
  | nil => exact List.mem_singleton_self _
  | cons hx _ ih => exact List.mem_flatMap.mpr ⟨_, hx, List.mem_map_of_mem ih⟩

/-- A pick from lists of coordinates, one list for each dimension, names the dimensions in order. -/
theorem map_fst_of_mem_product {dims : List α} {name : α → String}
    {items : α → List String} {picked : List Coordinate}
    (h : picked ∈ product (dims.map fun d => (items d).map fun i => (name d, i))) :
    picked.map Prod.fst = dims.map name := by
  have hall := forall₂_of_mem_product h
  rw [List.forall₂_map_right_iff] at hall
  clear h
  induction hall with
  | nil => rfl
  | @cons c d cs ds hc _ ih =>
      obtain ⟨_, -, rfl⟩ := List.mem_map.mp hc
      rw [List.map_cons, List.map_cons, ih]

/-- No pick is listed twice. -/
theorem nodup_product {xss : List (List α)} (h : ∀ xs ∈ xss, xs.Nodup) : (product xss).Nodup := by
  induction xss with
  | nil => exact List.nodup_singleton _
  | cons xs rest ih =>
      obtain ⟨hxs, hrest⟩ := List.forall_mem_cons.mp h
      refine List.nodup_flatMap.mpr ⟨fun x _ => (ih hrest).map (List.cons_injective), ?_⟩
      refine List.Pairwise.imp (fun {x y} hne => List.disjoint_left.mpr fun row hx hy => ?_) hxs
      obtain ⟨_, -, rfl⟩ := List.mem_map.mp hx
      obtain ⟨_, -, heq⟩ := List.mem_map.mp hy
      exact hne (List.cons.inj heq).1.symm

/-- If each list is in ascending order of a rank, picks are in lexicographic order of the ranks. -/
theorem pairwise_product {ι : Type} {rank : ι → α → Nat} {ds : List ι} {xss : List (List α)}
    (h : List.Forall₂ (fun d xs => xs.Pairwise fun a b => rank d a < rank d b) ds xss) :
    (product xss).Pairwise fun row row' =>
      ((ds.zip row).map fun p => rank p.1 p.2) < (ds.zip row').map fun p => rank p.1 p.2 := by
  induction h with
  | nil => exact List.pairwise_singleton _ _
  | cons hxs _ ih =>
      refine List.pairwise_flatMap.mpr ⟨fun x _ => List.pairwise_map.mpr (ih.imp fun hlt => ?_),
        hxs.imp fun hlt row hrow row' hrow' => ?_⟩
      · exact List.cons_lt_cons_iff.mpr (.inr ⟨rfl, hlt⟩)
      · obtain ⟨_, -, rfl⟩ := List.mem_map.mp hrow
        obtain ⟨_, -, rfl⟩ := List.mem_map.mp hrow'
        exact List.cons_lt_cons_iff.mpr (.inl hlt)

/-! ## Dimensions of a registry -/

variable {sets : Registry} {dim : Dimension} {d : String}

theorem find?_of_get (h : sets.get d = .ok dim) : sets.find? d = some dim := by
  unfold get at h
  split at h
  · cases h
    assumption
  · cases h

theorem find?_of_mem (h : dim ∈ sets.dims) : sets.find? dim.id = some dim := by
  cases hfind : sets.find? dim.id with
  | none => simpa using List.find?_eq_none.mp hfind dim h
  | some found =>
      have hid : found.id = dim.id := by simpa using List.find?_some hfind
      rw [List.inj_on_of_nodup_map sets.ids_nodup (List.mem_of_find?_eq_some hfind) h hid]

theorem get_of_setItems {sets' : Registry} {id : String} {items : List String}
    (h : sets.setItems id items = .ok sets') : ∃ dim, sets'.get id = .ok dim := by
  unfold setItems at h
  split at h
  · rename_i hcontains
    cases h
    -- New items leave the names of the dimensions as they are.
    have hids : (fun d : Dimension => d.id == id) ∘ withItems id items = fun d => d.id == id :=
      funext fun d => by rw [Function.comp_apply, withItems_id]
    obtain ⟨dim, hdim⟩ := Option.isSome_iff_exists.mp hcontains
    refine ⟨withItems id items dim, ?_⟩
    rw [find?] at hdim
    simp only [get, find?, List.find?_map, hids, hdim, Option.map_some]
  · cases h

theorem get_of_mem (h : dim ∈ sets.dims) : sets.get dim.id = .ok dim := by
  rw [get, find?_of_mem h]

/-- The position of an item in its dimension. -/
def rank (sets : Registry) (c : Coordinate) : Nat :=
  match sets.find? c.1 with
  | some dim => dim.items.idxOf c.2
  | none => 0

theorem rank_eq (h : sets.find? d = some dim) (item : String) :
    sets.rank (d, item) = dim.items.idxOf item := by
  rw [rank, h]

/-- Distinct items are in ascending order of their ranks. -/
theorem pairwise_rank (h : sets.find? d = some dim) (hitems : dim.items.Nodup) :
    dim.items.Pairwise fun a b => sets.rank (d, a) < sets.rank (d, b) := by
  simp only [rank_eq h]
  exact pairwise_idxOf hitems

end Registry

end CoupledModels
