import CoupledModels.Proofs.Catalog.Blocks

/-!
# Keys of sub-problems

The keys of a registry pick one item for each splitting dimension, and they are listed in
lexicographic order.  A key agrees with a list of splitting coordinates if and only if it selects the
item of each of them.
-/

namespace CoupledModels

namespace Registry

variable {sets : Registry}

/-- The keys are the lists with one item of each splitting dimension, in registry order. -/
theorem mem_problemKeys_iff {key : ProblemKey} : key ∈ sets.problemKeys ↔
    List.Forall₂ (fun (c : Coordinate) dim => c.1 = dim.id ∧ c.2 ∈ dim.items) key.coords
      sets.splitting := by
  have hcoords : key ∈ sets.problemKeys ↔
      key.coords ∈ product (sets.splitting.map fun d => d.items.map fun i => (d.id, i)) :=
    ⟨fun h => by obtain ⟨_, hmem, rfl⟩ := List.mem_map.mp h; exact hmem,
      fun h => List.mem_map.mpr ⟨_, h, rfl⟩⟩
  have hpick : ∀ (c : Coordinate) (dim : Dimension),
      c ∈ dim.items.map (fun i => (dim.id, i)) ↔ c.1 = dim.id ∧ c.2 ∈ dim.items := by
    intro c dim
    constructor
    · intro h
      obtain ⟨_, hitem, rfl⟩ := List.mem_map.mp h
      exact ⟨rfl, hitem⟩
    · intro h
      exact List.mem_map.mpr ⟨c.2, h.2, Prod.ext h.1.symm rfl⟩
  rw [hcoords, mem_product_iff, List.forall₂_map_right_iff]
  simp only [hpick]

/-- With distinct items no key is listed twice. -/
theorem nodup_problemKeys (h : ∀ dim ∈ sets.dims, dim.items.Nodup) : sets.problemKeys.Nodup := by
  refine List.Nodup.map (fun a b hab => congrArg ProblemKey.coords hab) ?_
  refine nodup_product fun items hmem => ?_
  obtain ⟨dim, hdim, rfl⟩ := List.mem_map.mp hmem
  exact (h dim (List.mem_filter.mp hdim).1).map fun a b hab => (Prod.mk.inj hab).2

/-- Keys are listed in lexicographic order of their items. -/
theorem pairwise_problemKeys (h : ∀ dim ∈ sets.dims, dim.items.Nodup) :
    sets.problemKeys.Pairwise fun key key' =>
      key.coords.map sets.rank < key'.coords.map sets.rank := by
  have hranks : List.Forall₂ (fun _ (cs : List Coordinate) =>
      cs.Pairwise fun a b => sets.rank a < sets.rank b) sets.splitting
        (sets.splitting.map fun d => d.items.map fun i => (d.id, i)) := by
    rw [List.forall₂_map_right_iff, List.forall₂_same]
    intro dim hdim
    have hmem := (List.mem_filter.mp hdim).1
    exact List.pairwise_map.mpr (pairwise_rank (find?_of_mem hmem) (h dim hmem))
  have hzip : ∀ cs ∈ product (sets.splitting.map fun d => d.items.map fun i => (d.id, i)),
      ((sets.splitting.zip cs).map fun p => sets.rank p.2) = cs.map sets.rank := by
    intro cs hcs
    have hlength := congrArg List.length (map_fst_of_mem_product hcs)
    rw [List.length_map, List.length_map] at hlength
    calc ((sets.splitting.zip cs).map fun p => sets.rank p.2)
        = ((sets.splitting.zip cs).map Prod.snd).map sets.rank := by rw [List.map_map]; rfl
      _ = cs.map sets.rank := by rw [List.map_snd_zip (Nat.le_of_eq hlength)]
  refine List.pairwise_map.mpr ((pairwise_product hranks).imp_of_mem fun hcs hcs' hlt => ?_)
  rw [hzip _ hcs, hzip _ hcs'] at hlt
  exact hlt

end Registry

namespace ProblemKey

variable {key : ProblemKey} {sets : Registry} {dim : String}

/-- A key selects an item for each of its dimensions. -/
theorem exists_item? (h : dim ∈ key.coords.map Prod.fst) : ∃ item, key.item? dim = some item := by
  obtain ⟨c, hc, rfl⟩ := List.mem_map.mp h
  cases hfind : key.coords.find? fun c' => c'.1 == c.1 with
  | none => simpa using List.find?_eq_none.mp hfind c hc
  | some c' => exact ⟨c'.2, by rw [item?, hfind, Option.map_some]⟩

/-- A key of a registry selects items of its dimensions. -/
theorem mem_items_of_item? {item : String} (h : key ∈ sets.problemKeys)
    (hitem : key.item? dim = some item) : ∃ d, sets.find? dim = some d ∧ item ∈ d.items := by
  obtain ⟨c, hc, rfl⟩ := Option.map_eq_some_iff.mp hitem
  obtain ⟨d, hd, hid, hmem⟩ :=
    exists_right_of_forall₂ (Registry.mem_problemKeys_iff.mp h) (List.mem_of_find?_eq_some hc)
  have hdim : c.1 = dim := by simpa using List.find?_some hc
  refine ⟨d, ?_, hmem⟩
  rw [← hdim, hid]
  exact Registry.find?_of_mem (List.mem_filter.mp hd).1

/-- A key of a registry selects an item for each splitting dimension. -/
theorem exists_item?_of_isSplitting (h : key ∈ sets.problemKeys)
    (hdim : sets.isSplitting dim = true) : ∃ item, key.item? dim = some item := by
  refine exists_item? ?_
  obtain ⟨coords, hcoords, rfl⟩ := List.mem_map.mp h
  have hdims : coords.map Prod.fst = sets.splitting.map Dimension.id :=
    Registry.map_fst_of_mem_product hcoords
  rw [hdims]
  unfold Registry.isSplitting at hdim
  split at hdim
  · rename_i d hd
    have hid : d.id = dim := by simpa using List.find?_some hd
    refine List.mem_map.mpr ⟨d, List.mem_filter.mpr ⟨List.mem_of_find?_eq_some hd, hdim⟩, hid⟩
  · cases hdim

/-- Keys agree with splitting coordinates by selecting their items. -/
theorem agreesWith_iff (h : key ∈ sets.problemKeys) {coords : List Coordinate}
    (hcoords : ∀ c ∈ coords, sets.isSplitting c.1 = true) :
    key.agreesWith coords = true ↔ ∀ c ∈ coords, key.item? c.1 = some c.2 := by
  rw [agreesWith, List.all_eq_true]
  refine forall₂_congr fun c hc => ?_
  obtain ⟨item, hitem⟩ := exists_item?_of_isSplitting h (hcoords c hc)
  rw [hitem]
  simp

/-- Coordinates that have the items of a key are determined by their dimensions. -/
theorem eq_of_agreement {coords coords' : List Coordinate}
    (h : ∀ c ∈ coords, key.item? c.1 = some c.2) (h' : ∀ c ∈ coords', key.item? c.1 = some c.2)
    (hdims : coords.map Prod.fst = coords'.map Prod.fst) : coords = coords' := by
  have hitems : ∀ cs : List Coordinate, (∀ c ∈ cs, key.item? c.1 = some c.2) →
      (cs.map Prod.fst).map (fun d => (d, (key.item? d).getD "")) = cs := by
    intro cs hcs
    rw [List.map_map]
    refine (List.map_congr_left fun c hc => ?_).trans (List.map_id cs)
    simp [hcs c hc]
  rw [← hitems coords h, hdims, hitems coords' h']

end ProblemKey

end CoupledModels
