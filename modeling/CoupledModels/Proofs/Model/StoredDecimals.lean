import CoupledModels.Proofs.Model.FixedPoint
import CoupledModels.Proofs.Model.Solutions
import CoupledModels.Proofs.Number.Rounding
import CoupledModels.Proofs.Store.Upserts

/-!
# Decimals of stored solutions

Solved values are rounded when they are written.  A value that has been stored is not changed by
rounding it once more, so a model that writes its values again, or that writes what it reads back
from the store, writes the same rows, and these leave the store as it is.
-/

namespace CoupledModels

variable {K : Type}

/-! ## Writing rows again -/

namespace StoredTable

variable {rows batch : List (Row K)} {r : Row K}

theorem lastValue?_of_mem (h : DistinctRows rows) (hr : r ∈ rows) :
    lastValue? rows r.coords = some r.value := by
  unfold lastValue?
  cases hfind : rows.reverse.find? fun s => decide (s.coords = r.coords) with
  | none => simpa using List.find?_eq_none.mp hfind r (List.mem_reverse.mpr hr)
  | some s =>
      have hs : s ∈ rows := List.mem_reverse.mp (List.mem_of_find?_eq_some hfind)
      have hcoords : s.coords = r.coords := by simpa using List.find?_some hfind
      rw [h.eq_of_coords hs hr hcoords]
      rfl

/-- A row that has the value that was written last for its coordinates is not changed. -/
theorem lastWritten_of_value (h : (lastValue? batch r.coords).or (some r.value) = some r.value) :
    lastWritten batch r = r := by
  unfold lastWritten
  unfold lastValue? at h
  cases hfind : batch.reverse.find? fun b => decide (b.coords = r.coords) with
  | none => rfl
  | some b =>
      have hcoords : b.coords = r.coords := by simpa using List.find?_some hfind
      rw [hfind] at h
      have hvalue : b.value = r.value := by simpa using h
      cases b
      cases r
      simp_all

/-- Rows that have been written make no difference when they are written again. -/
theorem writeRows_again (name : String) (batch : List (Row K)) (h : DistinctRows rows) :
    (writeRows name .replace (writeRows name .replace rows batch).1 batch).1 =
      (writeRows name .replace rows batch).1 := by
  have hupserted := upserted_writeRows name batch h
  set written := (writeRows name .replace rows batch).1
  have hnone :
      (batch.map Row.coords).filter (fun coords => coords ∉ written.map Row.coords) = [] := by
    refine List.filter_eq_nil_iff.mpr fun coords hcoords => ?_
    have hmem : coords ∈ written.map Row.coords := by
      rw [hupserted.places, List.mem_append, List.mem_eraseDups, List.mem_filter, decide_eq_true_eq]
      by_cases hold : coords ∈ rows.map Row.coords
      · exact .inl hold
      · exact .inr ⟨hcoords, hold⟩
    exact fun hnew => of_decide_eq_true hnew hmem
  have hlength : (writeRows name .replace written batch).1.length = written.length := by
    have hcoords := map_coords_writeRows_replace name written batch
    rw [hnone, List.eraseDups_nil, List.append_nil] at hcoords
    simpa using congrArg List.length hcoords
  refine List.ext_getElem hlength fun k hk hk' => ?_
  have hr : written[k] ∈ written := List.getElem_mem hk'
  have hkeeps : lastWritten batch written[k] = written[k] := by
    refine lastWritten_of_value ?_
    have hvalue := hupserted.values written[k].coords
    rw [lastValue?_of_mem hupserted.distinct hr] at hvalue
    cases hbatch : lastValue? batch written[k].coords with
    | none => rfl
    | some v =>
        rw [hbatch] at hvalue
        exact hvalue.symm
  have hget := getElem?_writeRows_replace name batch hupserted.distinct
    (List.getElem?_eq_getElem hk')
  rw [hkeeps] at hget
  exact (List.getElem?_eq_some_iff.mp hget).2

end StoredTable

/-! ## Pushing again -/

namespace Model

variable {entries : List (String × List (Row K))} {store store' : Store K} {digits : UInt32}

/-- Rows can only be written into tables that have them as coordinates. -/
theorem fits_of_pushTables (h : pushTables entries store = (.ok (), store')) :
    ∀ e ∈ entries, e.2 ≠ [] → ∃ t, store.tables.get? e.1 = some t ∧
      ∀ r ∈ e.2, r.coords.length = t.coordinates.length := by
  induction entries generalizing store with
  | nil => simp
  | cons entry entries ih =>
      obtain ⟨name, rows⟩ := entry
      unfold pushTables at h
      split at h
      · rename_i hempty
        refine List.forall_mem_cons.mpr ⟨fun hne => ?_, ih h⟩
        exact absurd (List.isEmpty_iff.mp hempty) hne
      split at h
      · rename_i store₁ hput
        obtain ⟨t, ht, hfits, rfl⟩ := Store.putRows_replace_iff.mp hput
        refine List.forall_mem_cons.mpr ⟨fun _ => ⟨t, ht, hfits⟩, fun e he hne => ?_⟩
        obtain ⟨t', ht', hfits'⟩ := ih h e he hne
        rw [Store.get?_withRows] at ht'
        split at ht'
        · rename_i hname
          cases ht'
          exact ⟨t, hname ▸ ht, hfits'⟩
        · exact ⟨t', ht', hfits'⟩
      · cases h

/-- Rows that change none of their tables leave the store as it is. -/
theorem pushTables_of_kept (hstore : store.tables.Ascending)
    (h : ∀ e ∈ entries, e.2 ≠ [] → ∃ t, store.tables.get? e.1 = some t ∧
      (∀ r ∈ e.2, r.coords.length = t.coordinates.length) ∧
      (StoredTable.writeRows e.1 .replace t.rows e.2).1 = t.rows) :
    pushTables entries store = (.ok (), store) := by
  induction entries with
  | nil => rfl
  | cons entry entries ih =>
      obtain ⟨name, rows⟩ := entry
      obtain ⟨hhead, hrest⟩ := List.forall_mem_cons.mp h
      unfold pushTables
      split
      · exact ih hrest
      rename_i hne
      obtain ⟨t, ht, hfits, hkept⟩ := hhead fun hnil => hne (List.isEmpty_iff.mpr hnil)
      have hput : store.putRows name rows .replace = (.ok (), store) := by
        refine Store.putRows_replace_iff.mpr ⟨t, ht, hfits, ?_⟩
        dsimp only at hkept
        rw [hkept]
        exact congrArg (fun ts => { store with tables := ts }) (hstore.insert_of_get? ht).symm
      rw [hput]
      exact ih hrest

/-- A model that writes the same rows as another one leaves the store as that one has left it. -/
theorem pushEndogenous_again [Scalar K] {m m' : Model K} (hstore : store.WellFormed)
    (h : m.pushEndogenous digits store = (.ok (), store'))
    (hrows : m'.catalog.endogenousRows digits = m.catalog.endogenousRows digits) :
    m'.pushEndogenous digits store' = (.ok (), store') := by
  have hwellFormed : store'.WellFormed := by
    have hpushed : (m.pushEndogenous digits store).2.WellFormed := wellFormed_pushTables hstore
    rwa [h] at hpushed
  rw [pushEndogenous, hrows]
  refine pushTables_of_kept hwellFormed.ascending fun e he hne => ?_
  obtain ⟨t, ht, hfits⟩ := fits_of_pushTables h e he hne
  obtain ⟨-, hwritten⟩ := Catalog.mem_endogenousRows he
  have ht' : store'.tables.get? e.1 =
      some { t with rows := (StoredTable.writeRows e.1 .replace t.rows e.2).1 } := by
    rw [get?_pushEndogenous h, ht, ← hwritten]
    rfl
  exact ⟨_, ht', hfits, StoredTable.writeRows_again e.1 e.2 (hstore.distinct e.1 t ht)⟩

end Model

/-! ## Values that are kept -/

/-- Both catalogs have the same columns, with the same values or with those that are stored for
them. -/
structure Catalog.Keeps (digits : UInt32) (c c' : Catalog Rat) : Prop where
  blocks : c'.blocks = c.blocks
  values : ∀ column, c'.value? column = c.value? column ∨
    c'.value? column = (c.value? column).map (Scalar.roundTo digits)

namespace Catalog.Keeps

variable {digits : UInt32} {c c' : Catalog Rat}

theorem endogenousRows_eq (h : Keeps digits c c') :
    c'.endogenousRows digits = c.endogenousRows digits := by
  have hsolved : c'.solvedRows digits = c.solvedRows digits := by
    funext b
    refine List.filterMap_congr fun (coords, column) _ => ?_
    rcases h.values column with hvalue | hvalue
    · simp only [hvalue]
    · simp only [hvalue, Option.map_map, Function.comp_def, Scalar.roundTo_roundTo]
  rw [endogenousRows, endogenousRows, h.blocks, hsolved]

end Catalog.Keeps

/-! ## Decimals that are kept -/

namespace Model

open Scalar

/-- Rounding keeps the decimals that the exponent stands for, which are those that are asked for if
and only if these are fewer than `2 ^ 31`.  A rounded value always has the decimals that are asked
for and is not changed by rounding it again, so writing unchanged values again writes the same
rows. -/
theorem roundTo_keeps_decimals (digits : UInt32) :
    (decimalsExponent digits =
      if digits.toNat < 2 ^ 31 then (digits.toNat : Int) else (digits.toNat : Int) - 2 ^ 32) ∧
    (∀ v : Rat,
      RoundsAt (decimalsExponent digits) v (roundTo digits v) ∧
      (∃ z : Int, roundTo digits v * 10 ^ digits.toNat = z) ∧
      roundTo digits (roundTo digits v) = roundTo digits v) ∧
    ((∀ v : Rat, |roundTo digits v - v| ≤ 1 / 2 * 10 ^ (-(digits.toNat : Int))) ↔
      digits.toNat < 2 ^ 31) ∧
    ∀ (m m' : Model Rat) (store store' : Store Rat), store.WellFormed →
      m.catalog.Keeps digits m'.catalog → m.pushEndogenous digits store = (.ok (), store') →
        m'.catalog.endogenousRows digits = m.catalog.endogenousRows digits ∧
        m'.pushEndogenous digits store' = (.ok (), store') := by
  have he := decimalsExponent_eq digits
  have hle : decimalsExponent digits ≤ digits.toNat := by
    rw [he]
    split <;> omega
  refine ⟨he, fun v => ⟨roundsAt_roundTo digits v, ?_, roundTo_roundTo digits v⟩, near_iff digits,
    fun m m' store store' hstore hkeeps hpush => ?_⟩
  · obtain ⟨z, hz⟩ := integral_of_le hle (roundsAt_roundTo digits v).integral
    exact ⟨z, by rw [← hz, zpow_natCast]⟩
  · exact ⟨hkeeps.endogenousRows_eq, pushEndogenous_again hstore hpush hkeeps.endogenousRows_eq⟩

/-- With more than four thousand million decimals one is rounded to zero: the exponent is minus
one. -/
theorem roundTo_one_loses_decimals :
    roundTo 4294967295 (1 : Rat) = 0 ∧
      ¬ |roundTo 4294967295 (1 : Rat) - 1| ≤
        1 / 2 * 10 ^ (-((4294967295 : UInt32).toNat : Int)) := by
  have hzero : roundTo 4294967295 (1 : Rat) = 0 := roundTo_one (by decide)
  have hunit : (10 : Rat) ^ (-((4294967295 : UInt32).toNat : Int)) ≤ 1 :=
    zpow_le_one_of_nonpos₀ (by norm_num) (by decide)
  refine ⟨hzero, ?_⟩
  rw [hzero, zero_sub, abs_neg, abs_one, not_le]
  linarith

end Model

namespace Catalog.Purchases

open Scalar

/-- A shop that buys an amount of the first item. -/
def buying (amount : Rat) : Model Rat :=
  { opened with catalog := priced.withValues #[some 1, some amount, some 0] }

/-- Eight thirds are stored with two decimals, and read back these are written again. -/
theorem roundTo_keeps_decimals_purchases :
    stock.WellFormed ∧ (buying (8 / 3)).catalog.Keeps 2 (buying (267 / 100)).catalog ∧
      (buying (8 / 3)).pushEndogenous 2 stock = (.ok (), stockWith (267 / 100)) ∧
      (buying (267 / 100)).pushEndogenous 2 (stockWith (267 / 100)) =
        (.ok (), stockWith (267 / 100)) := by
  have hkeeps : (buying (8 / 3)).catalog.Keeps 2 (buying (267 / 100)).catalog := by
    have hrounded : (roundTo 2 (8 / 3) : Rat) = 267 / 100 := by cbv
    refine ⟨rfl, fun column => ?_⟩
    rcases column with _ | _ | _ | column
    · exact .inl rfl
    · exact .inr (congrArg some hrounded.symm)
    · exact .inl rfl
    · exact .inl rfl
  have hpush : (buying (8 / 3)).pushEndogenous 2 stock = (.ok (), stockWith (267 / 100)) := by
    cbv
  exact ⟨wellFormed_stock, hkeeps, hpush,
    ((Model.roundTo_keeps_decimals 2).2.2.2 _ _ _ _ wellFormed_stock hkeeps hpush).2⟩

end Catalog.Purchases

end CoupledModels
