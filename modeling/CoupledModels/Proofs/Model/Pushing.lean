import CoupledModels.Model.Basic
import CoupledModels.Proofs.Catalog.SolvedRows
import CoupledModels.Proofs.Solve.Difference
import CoupledModels.Proofs.Store.Tables

/-!
# Writing results to the store

Results are written table by table.  A write touches the tables that it has rows for and no other
one, and keeps the store well formed.  If it makes no difference in any of these tables it has
changed nothing at all.
-/

namespace CoupledModels.Model

variable {K : Type} {store store' : Store K} {entries : List (String × List (Row K))}
  {name : String}

/-- What every single write keeps is kept, also by a sequence of writes that stops in the middle. -/
theorem pushTables_induction {P : Store K → Prop}
    (hstep : ∀ e ∈ entries, ∀ s, P s → P (s.putRows e.1 e.2 .replace).2) (h : P store) :
    P (pushTables entries store).2 := by
  induction entries generalizing store with
  | nil => exact h
  | cons entry entries ih =>
      obtain ⟨table, rows⟩ := entry
      obtain ⟨hhead, hrest⟩ := List.forall_mem_cons.mp hstep
      unfold pushTables
      split
      · exact ih hrest h
      have hwrite : P (store.putRows table rows .replace).2 := hhead store h
      split
      · rename_i hput
        rw [hput] at hwrite
        exact ih hrest hwrite
      · rename_i hput
        rw [hput] at hwrite
        exact hwrite

theorem get?_pushTables_of_not_mem (store : Store K) (h : name ∉ entries.map Prod.fst) :
    (pushTables entries store).2.tables.get? name = store.tables.get? name := by
  refine pushTables_induction (P := fun s => s.tables.get? name = store.tables.get? name)
    (fun e he s hs => ?_) rfl
  rw [Store.get?_putRows_of_ne, hs]
  rintro rfl
  exact h (List.mem_map_of_mem he)

theorem wellFormed_pushTables (h : store.WellFormed) :
    (pushTables entries store).2.WellFormed :=
  pushTables_induction (fun _ _ _ hs => hs.putRows) h

theorem dimensions_pushTables (entries : List (String × List (Row K))) (store : Store K) :
    (pushTables entries store).2.dimensions = store.dimensions :=
  pushTables_induction (P := fun s => s.dimensions = store.dimensions)
    (fun _ _ _ hs => Store.dimensions_putRows.trans hs) rfl

/-- Every table afterwards: the one before, with the rows that are for it written into it. -/
theorem get?_pushTables (h : pushTables entries store = (.ok (), store'))
    (hnames : (entries.map Prod.fst).Nodup) (name : String) :
    store'.tables.get? name = (store.tables.get? name).map fun t =>
      { t with rows :=
        (StoredTable.writeRows name .replace t.rows ((entries.lookup name).getD [])).1 } := by
  induction entries generalizing store with
  | nil =>
      obtain rfl : store = store' := (Prod.mk.inj h).2
      exact Option.map_id'.symm
  | cons entry entries ih =>
      obtain ⟨table, rows⟩ := entry
      obtain ⟨hnew, hrest⟩ := List.nodup_cons.mp hnames
      have hlater : entries.lookup table = none := by
        refine List.lookup_eq_none_iff.mpr fun e he => ?_
        simpa using fun heq => hnew (List.mem_map.mpr ⟨e, he, heq.symm⟩)
      unfold pushTables at h
      rw [List.lookup_cons]
      split at h
      · rename_i hempty
        obtain rfl : rows = [] := List.isEmpty_iff.mp hempty
        rw [ih h hrest]
        by_cases hname : name = table
        · rw [hname, hlater, beq_self_eq_true]
          rfl
        · rw [beq_false_of_ne hname]
      split at h
      · rename_i store₁ hput
        obtain ⟨t, ht, -, rfl⟩ := Store.putRows_replace_iff.mp hput
        rw [ih h hrest, Store.get?_withRows]
        by_cases hname : name = table
        · -- The tables that are written later are other ones.
          rw [hname, hlater, ht, if_pos rfl, beq_self_eq_true]
          rfl
        · rw [if_neg hname, beq_false_of_ne hname]
      · cases h

/-- A write of defined values that makes no difference leaves the store as it was. -/
theorem eq_of_pushTables {store store' : Store Rat} {entries : List (String × List (Row Rat))}
    (h : pushTables entries store = (.ok (), store')) (hstore : store.WellFormed)
    (hnames : (entries.map Prod.fst).Nodup)
    (hdefined : ∀ e ∈ entries, ∀ r ∈ e.2, r.value.isSome = true)
    (hsame : ∀ e ∈ entries, ∀ old new, store.getRows e.1 .empty = .ok old →
      store'.getRows e.1 .empty = .ok new → (Difference.ofRows old new).within 0 = true) :
    store' = store := by
  induction entries with
  | nil => exact (Prod.mk.inj h).2.symm
  | cons entry entries ih =>
      obtain ⟨name, rows⟩ := entry
      obtain ⟨hhead, hdefined⟩ := List.forall_mem_cons.mp hdefined
      obtain ⟨hheadSame, hsame⟩ := List.forall_mem_cons.mp hsame
      obtain ⟨hnew, hnames⟩ := List.nodup_cons.mp hnames
      unfold pushTables at h
      split at h
      · exact ih h hnames hdefined hsame
      split at h
      swap
      · cases h
      rename_i store₁ hput
      obtain ⟨t, ht, -, rfl⟩ := Store.putRows_replace_iff.mp hput
      have ht' := get?_pushTables_of_not_mem
        (store.withRows name t (StoredTable.writeRows name .replace t.rows rows).1) hnew
      rw [h, Store.get?_withRows, if_pos rfl] at ht'
      -- The first table is left as it was, so the others are written into the same store.
      have hwrites := StoredTable.writes_writeRows name .replace t.rows rows
      have hkept : (StoredTable.writeRows name .replace t.rows rows).1 = t.rows := by
        refine hwrites.eq_of_ofRows (hstore.distinct name t ht) hhead (hheadSame _ _ ?_ ?_)
        · exact Store.getRows_empty_eq_ok.mpr ⟨t, ht, rfl⟩
        · exact Store.getRows_empty_eq_ok.mpr ⟨_, ht', rfl⟩
      have hstay : store.withRows name t (StoredTable.writeRows name .replace t.rows rows).1 =
          store := by
        rw [hkept]
        exact congrArg (fun ts => { store with tables := ts })
          (hstore.ascending.insert_of_get? ht)
      rw [hstay] at h
      exact ih h hnames hdefined hsame

/-- A table whose rows are of one kind, and into which rows of the kind are written. -/
theorem confines_pushEndogenous [Scalar K] {m : Model K} {digits : UInt32}
    {coordinates : List String} {R : Row K → Prop} (h : store.Confines name coordinates R)
    (hsolved : ∀ b ∈ m.catalog.blocksOf name, ∀ r ∈ m.catalog.solvedRows digits b, R r) :
    (m.pushEndogenous digits store).2.Confines name coordinates R := by
  refine pushTables_induction (P := fun s => s.Confines name coordinates R)
    (fun e he s hs => hs.putRows fun hname r hr => ?_) h
  obtain ⟨-, hrows⟩ := Catalog.mem_endogenousRows he
  rw [hrows] at hr
  obtain ⟨b, hb, hr⟩ := List.mem_flatMap.mp hr
  exact hsolved b (hname ▸ hb) r hr

/-- Every table after results have been written: the one before, with the solved rows of its blocks
written into it. -/
theorem get?_pushEndogenous [Scalar K] {m : Model K} {digits : UInt32}
    (h : m.pushEndogenous digits store = (.ok (), store')) (name : String) :
    store'.tables.get? name = (store.tables.get? name).map fun t =>
      { t with rows := (StoredTable.writeRows name .replace t.rows
        ((m.catalog.blocksOf name).flatMap (m.catalog.solvedRows digits))).1 } := by
  rw [get?_pushTables h (Catalog.ascending_endogenousRows _ _).nodup_keys name,
    ← Catalog.getD_get?_endogenousRows]
  rfl

end CoupledModels.Model
