import CoupledModels.Catalog.Basic
import CoupledModels.Proofs.Catalog.Blocks

/-!
# Labels

A label joins items with commas, whatever the items are.  A comma of an item is not told from one
that joins two items, so two combinations of items have one label if and only if they have the same
pieces between commas.  Labels tell combinations apart if at most one of the dimensions that are
picked from has items with commas.
-/

namespace CoupledModels

/-- The items that name a sub-problem. -/
def ProblemKey.items (k : ProblemKey) : List String :=
  k.coords.map (·.2)

/-- The inter items and the intra item of a binding. -/
def Binding.items (b : Binding) : List String :=
  b.inter.map (·.2) ++ b.intra.toList

namespace Label

/-- The label of a list of items. -/
def ofItems (items : List String) : String :=
  if items.isEmpty then "default" else ",".intercalate items

/-- The texts between the commas of a list of items, those within items included. -/
def pieces (items : List String) : List (List Char) :=
  items.flatMap fun i => i.toList.splitOn ','

/-- No item has a comma. -/
def Plain (items : List String) : Prop :=
  ∀ i ∈ items, ',' ∉ i.toList

instance (items : List String) : Decidable (Plain items) :=
  inferInstanceAs (Decidable (∀ i ∈ items, _))

/-- At most one of the lists has items with commas. -/
def Separable (choices : List (List String)) : Prop :=
  choices.Pairwise fun xs ys => Plain xs ∨ Plain ys

instance (choices : List (List String)) : Decidable (Separable choices) :=
  inferInstanceAs (Decidable (List.Pairwise _ _))

theorem eq_of_splitOn {cs ds : List Char} (h : cs.splitOn ',' = ds.splitOn ',') : cs = ds := by
  have hjoined := congrArg [','].intercalate h
  rwa [List.intercalate_splitOn, List.intercalate_splitOn] at hjoined

theorem pieces_cons (i : String) (items : List String) :
    pieces (i :: items) = i.toList.splitOn ',' ++ pieces items :=
  List.flatMap_cons

theorem pieces_of_plain {items : List String} (h : Plain items) :
    pieces items = items.map String.toList := by
  induction items with
  | nil => rfl
  | cons i items ih =>
      obtain ⟨hi, hitems⟩ := List.forall_mem_cons.mp h
      rw [pieces_cons, List.splitOn_eq_singleton hi, ih hitems]
      rfl

/-- Splitting a label gives the pieces of its items. -/
theorem splitOn_intercalate {items : List String} (h : items ≠ []) :
    (",".intercalate items).toList.splitOn ',' = pieces items := by
  induction items with
  | nil => exact absurd rfl h
  | cons i items ih =>
      cases items with
      | nil => simp [pieces]
      | cons j items =>
          have hcomma : (",".intercalate (i :: j :: items)).toList =
              i.toList ++ ',' :: (",".intercalate (j :: items)).toList := by
            simp [String.intercalate_cons_cons]
          rw [hcomma, List.splitOn_append_cons_self, ih (List.cons_ne_nil _ _)]
          exact (pieces_cons i (j :: items)).symm

theorem intercalate_eq_iff {as bs : List String} (has : as ≠ []) (hbs : bs ≠ []) :
    ",".intercalate as = ",".intercalate bs ↔ pieces as = pieces bs := by
  rw [← splitOn_intercalate has, ← splitOn_intercalate hbs, ← String.toList_inj]
  exact ⟨fun h => by rw [h], eq_of_splitOn⟩

/-- Combinations of equally many items have one label if and only if they have the same pieces. -/
theorem ofItems_eq_iff {as bs : List String} (hlength : as.length = bs.length) :
    ofItems as = ofItems bs ↔ pieces as = pieces bs := by
  cases as with
  | nil =>
      obtain rfl := List.length_eq_zero_iff.mp hlength.symm
      exact iff_of_true rfl rfl
  | cons a as =>
      cases bs with
      | nil => cases hlength
      | cons b bs => exact intercalate_eq_iff (List.cons_ne_nil _ _) (List.cons_ne_nil _ _)

/-- Pieces tell combinations apart if at most one of the choices has commas. -/
theorem eq_of_pieces {choices : List (List String)} (h : Separable choices) {as bs : List String}
    (has : List.Forall₂ (· ∈ ·) as choices) (hbs : List.Forall₂ (· ∈ ·) bs choices)
    (heq : pieces as = pieces bs) : as = bs := by
  induction choices generalizing as bs with
  | nil => rw [List.forall₂_nil_right_iff.mp has, List.forall₂_nil_right_iff.mp hbs]
  | cons xs choices ih =>
      obtain ⟨hxs, hchoices⟩ := List.pairwise_cons.mp h
      obtain ⟨a, as, ha, has', rfl⟩ := List.forall₂_cons_right_iff.mp has
      obtain ⟨b, bs, hb, hbs', rfl⟩ := List.forall₂_cons_right_iff.mp hbs
      rw [pieces_cons, pieces_cons] at heq
      by_cases hplain : Plain xs
      · rw [List.splitOn_eq_singleton (hplain a ha), List.splitOn_eq_singleton (hplain b hb)] at heq
        obtain ⟨hhead, htail⟩ := List.cons.inj heq
        rw [String.toList_inj.mp hhead, ih hchoices has' hbs' htail]
      · -- The other items have no commas, so there are as many of their pieces on both sides.
        have hrest : ∀ {cs : List String}, List.Forall₂ (· ∈ ·) cs choices → Plain cs := by
          intro cs hcs c hc
          obtain ⟨ys, hys, hmem⟩ := exists_right_of_forall₂ hcs hc
          exact (hxs ys hys).resolve_left hplain c hmem
        have hpieces := pieces_of_plain (hrest has')
        rw [hpieces, pieces_of_plain (hrest hbs')] at heq
        obtain ⟨hhead, htail⟩ := List.append_inj' heq (by
          simp [has'.length_eq, hbs'.length_eq])
        have hinjective : Function.Injective String.toList := fun _ _ => String.toList_inj.mp
        rw [hinjective (eq_of_splitOn hhead), List.map_injective_iff.mpr hinjective htail]

/-- Labels tell combinations apart if at most one of the choices has commas. -/
theorem eq_of_ofItems {choices : List (List String)} (h : Separable choices) {as bs : List String}
    (has : List.Forall₂ (· ∈ ·) as choices) (hbs : List.Forall₂ (· ∈ ·) bs choices)
    (heq : ofItems as = ofItems bs) : as = bs :=
  eq_of_pieces h has hbs
    ((ofItems_eq_iff (has.length_eq.trans hbs.length_eq.symm)).mp heq)

end Label

/-! ## Sub-problems -/

/-- The coordinates that are picked name all dimensions, so the items determine them. -/
theorem Registry.eq_of_map_snd {α : Type} {dims : List α} {name : α → String}
    {items : α → List String} {picked picked' : List Coordinate}
    (h : picked ∈ product (dims.map fun d => (items d).map fun i => (name d, i)))
    (h' : picked' ∈ product (dims.map fun d => (items d).map fun i => (name d, i)))
    (hitems : picked.map Prod.snd = picked'.map Prod.snd) : picked = picked' :=
  calc picked = (dims.map name).zip (picked.map Prod.snd) :=
        List.zip_of_prod (map_fst_of_mem_product h) rfl
    _ = (dims.map name).zip (picked'.map Prod.snd) := by rw [hitems]
    _ = picked' := (List.zip_of_prod (map_fst_of_mem_product h') rfl).symm

/-- The items that are picked are items of the dimensions. -/
theorem Registry.items_of_mem_product {α : Type} {dims : List α} {name : α → String}
    {items : α → List String} {picked : List Coordinate}
    (h : picked ∈ product (dims.map fun d => (items d).map fun i => (name d, i))) :
    List.Forall₂ (· ∈ ·) (picked.map Prod.snd) (dims.map items) := by
  have hall := forall₂_of_mem_product h
  rw [List.forall₂_map_right_iff] at hall ⊢
  rw [List.forall₂_map_left_iff]
  refine hall.imp fun c d hc => ?_
  obtain ⟨i, hi, rfl⟩ := List.mem_map.mp hc
  exact hi

namespace ProblemKey

variable {sets : Registry} {k k' : ProblemKey}

theorem label_eq (k : ProblemKey) : k.label = Label.ofItems k.items := by
  unfold label Label.ofItems items isDefault
  rw [List.isEmpty_map]

/-- The items of a key are picked from the splitting dimensions. -/
theorem items_of_mem (h : k ∈ sets.problemKeys) :
    List.Forall₂ (· ∈ ·) k.items (sets.splitting.map Dimension.items) := by
  obtain ⟨coords, hcoords, rfl⟩ := List.mem_map.mp h
  exact Registry.items_of_mem_product hcoords

/-- A key of a registry is determined by its items. -/
theorem eq_of_items (h : k ∈ sets.problemKeys) (h' : k' ∈ sets.problemKeys)
    (hitems : k.items = k'.items) : k = k' := by
  obtain ⟨coords, hcoords, rfl⟩ := List.mem_map.mp h
  obtain ⟨coords', hcoords', rfl⟩ := List.mem_map.mp h'
  exact congrArg ProblemKey.mk (Registry.eq_of_map_snd hcoords hcoords' hitems)

/-- Keys of a registry have one label if and only if their items have the same pieces. -/
theorem label_eq_iff (h : k ∈ sets.problemKeys) (h' : k' ∈ sets.problemKeys) :
    k.label = k'.label ↔ Label.pieces k.items = Label.pieces k'.items := by
  rw [label_eq, label_eq]
  exact Label.ofItems_eq_iff ((items_of_mem h).length_eq.trans (items_of_mem h').length_eq.symm)

/-- Labels tell keys apart if at most one splitting dimension has items with commas. -/
theorem eq_of_label (hsets : Label.Separable (sets.splitting.map Dimension.items))
    (h : k ∈ sets.problemKeys) (h' : k' ∈ sets.problemKeys) (hlabel : k.label = k'.label) :
    k = k' := by
  rw [label_eq, label_eq] at hlabel
  exact eq_of_items h h' (Label.eq_of_ofItems hsets (items_of_mem h) (items_of_mem h') hlabel)

end ProblemKey

end CoupledModels
