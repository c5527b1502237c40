import CoupledModels.Proofs.Catalog.Columns

/-!
# Fresh catalogs

A catalog that has just been built has no solution value but that of the constant term.  It says of
each column whether it is integral, and each row of a table stands in a block with the row's own
items of the splitting coordinates; both stay so when the catalog is given data.
-/

namespace CoupledModels

namespace TableDeclaration

variable {t : TableDeclaration} {sets : Registry}

/-- Every row of a block has the key of the block. -/
def KeepsKeys (t : TableDeclaration) (sets : Registry) (bs : List RowBlock) : Prop :=
  ∀ b ∈ bs, ∀ row ∈ b.rows, t.blockKey sets row = b.key

theorem KeepsKeys.addToBlock {bs : List RowBlock} (h : t.KeepsKeys sets bs) (row : List String) :
    t.KeepsKeys sets (addToBlock (t.blockKey sets row) row bs) := by
  induction bs with
  | nil => simp [KeepsKeys, TableDeclaration.addToBlock]
  | cons b bs ih =>
      obtain ⟨hb, hbs⟩ := List.forall_mem_cons.mp h
      unfold TableDeclaration.addToBlock
      split
      · rename_i hkey
        refine List.forall_mem_cons.mpr ⟨fun r hr => ?_, hbs⟩
        rcases List.mem_append.mp hr with hr | hr
        · exact hb r hr
        · rw [List.mem_singleton.mp hr, hkey]
      · exact List.forall_mem_cons.mpr ⟨hb, ih hbs⟩

theorem keepsKeys_of_enumerateBlocks {bs : List RowBlock} (h : t.enumerateBlocks sets = .ok bs) :
    t.KeepsKeys sets bs := by
  obtain ⟨rows, -, heq⟩ := exists_of_bind_eq_ok h
  cases heq
  exact List.foldlRecOn rows _ (List.forall_mem_nil _) fun bs hbs row _ => hbs.addToBlock row

end TableDeclaration

namespace Catalog

variable {K : Type} {tables : List TableDeclaration} {sets : Registry} {c d : Catalog K}

/-- Every row of a block has the items of the block's key in the splitting coordinates. -/
def Keyed (tables : List TableDeclaration) (sets : Registry) (c : Catalog K) : Prop :=
  ∀ b ∈ c.blocks, ∃ t ∈ tables, t.name = b.table ∧ ∀ row ∈ b.coords, t.blockKey sets row = b.key

/-- What a catalog is like before any solution value has been recorded. -/
structure Fresh (tables : List TableDeclaration) (sets : Registry) (c : Catalog K) : Prop where
  unsolved : ∀ column, 0 < column → c.value? column = none
  integer : c.integer.size = c.values.size
  keyed : c.Keyed tables sets

namespace Fresh

theorem start [Scalar K] (tables : List TableDeclaration) (sets : Registry) :
    (start (K := K) tables).Fresh tables sets where
  unsolved := by
    intro column hcolumn
    have hnone : (#[some 1] : Array (Option K))[column]? = none := Array.getElem?_eq_none hcolumn
    rw [value?, Catalog.start, hnone]
    rfl
  integer := rfl
  keyed := fun b hb => absurd hb (Array.not_mem_empty b)

/-- The columns of a block that is added have no values. -/
theorem addBlock (h : c.Fresh tables sets) {t : TableDeclaration} (ht : t ∈ tables) {b : RowBlock}
    (hb : ∀ row ∈ b.rows, t.blockKey sets row = b.key) : (addBlock t c b).Fresh tables sets where
  unsolved := by
    intro column hcolumn
    have hold := h.unsolved column hcolumn
    simp only [value?, Catalog.addBlock, Array.getElem?_append, Array.getElem?_replicate] at hold ⊢
    split
    · exact hold
    · split <;> rfl
  integer := by simp [Catalog.addBlock, h.integer]
  keyed := by
    intro block hblock
    rcases Array.mem_push.mp hblock with hblock | rfl
    · exact h.keyed block hblock
    · exact ⟨t, ht, rfl, hb⟩

theorem congr (h : c.Fresh tables sets) (hblocks : d.blocks = c.blocks)
    (hvalues : d.values = c.values) (hinteger : d.integer = c.integer) : d.Fresh tables sets where
  unsolved := by
    unfold value?
    rw [hvalues]
    exact h.unsolved
  integer := by rw [hinteger, hvalues, h.integer]
  keyed := by
    unfold Keyed
    rw [hblocks]
    exact h.keyed

end Fresh

variable [Scalar K]

theorem fresh_of_build (h : build tables sets = .ok c) : c.Fresh tables sets :=
  build_induction (Fresh.start tables sets)
    (fun _ hc _ ht _ _ hbs b hb =>
      hc.addBlock ht (TableDeclaration.keepsKeys_of_enumerateBlocks hbs b hb))
    (fun _ _ hsame hc => hc.congr hsame.blocks hsame.values hsame.integer) h

theorem keyed_of_build (h : build tables sets = .ok c) (hlater : c.Later d) :
    d.Keyed tables sets := by
  have hblocks := (hlater.refills (built_of_build h).addressed).1.blocks
  unfold Keyed
  rw [hblocks]
  exact (fresh_of_build h).keyed

/-- Every column of a catalog that has been built is known to be integral or not. -/
theorem size_integer_of_build (h : build tables sets = .ok c) (hlater : c.Later d) :
    d.integer.size = d.values.size := by
  have hrefills := (hlater.refills (built_of_build h).addressed).1
  have hinteger : d.integer = c.integer := by
    rw [hrefills.rest]
    rfl
  rw [hinteger, hrefills.columns, (fresh_of_build h).integer]

end Catalog

end CoupledModels
