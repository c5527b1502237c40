import CoupledModels.Store.Basic
import CoupledModels.Proofs.SortedMap
import Mathlib.Data.List.Nodup

/-!
# Rows of stored tables

What writing rows does to the rows of a table.  Rows that are replaced stay in their places and keep
their coordinates; rows with new coordinates come after all others.  If the coordinates of the table
and those of the written rows are distinct, the written rows are what the table holds afterwards at
their coordinates.
-/

namespace CoupledModels

/-- No two rows have the same coordinates. -/
def DistinctRows {K : Type} (rows : List (Row K)) : Prop :=
  (rows.map Row.coords).Nodup

namespace DistinctRows

variable {K : Type} {rows : List (Row K)}

/-- Coordinates lead to one row. -/
theorem eq_of_coords (h : DistinctRows rows) {r s : Row K} (hr : r ∈ rows) (hs : s ∈ rows)
    (heq : r.coords = s.coords) : r = s :=
  List.inj_on_of_nodup_map h hr hs heq

end DistinctRows

namespace StoredTable

variable {K : Type} {rows rows' batch : List (Row K)} {coords : List String} {value : Option K}

/-- What a write of some rows leaves of a row: the row itself, or a written one with its
coordinates. -/
def Rewritten (batch : List (Row K)) (r r' : Row K) : Prop :=
  r'.coords = r.coords ∧ (r' = r ∨ r' ∈ batch)

/-- What a write of some rows makes of the rows of a table. -/
structure Writes (batch rows rows' : List (Row K)) : Prop where
  kept : ∀ (k : Nat) (r : Row K), rows[k]? = some r →
    ∃ r', rows'[k]? = some r' ∧ Rewritten batch r r'
  added : ∀ (k : Nat) (r' : Row K), rows[k]? = none → rows'[k]? = some r' →
    r' ∈ batch ∧ r'.coords ∉ rows.map Row.coords

namespace Writes

theorem refl (rows : List (Row K)) : Writes batch rows rows where
  kept := fun _ r hr => ⟨r, hr, rfl, .inl rfl⟩
  added := fun _ _ hnone hsome => by simp [hnone] at hsome

theorem coords_subset (h : Writes batch rows rows') :
    rows.map Row.coords ⊆ rows'.map Row.coords := by
  intro coords hcoords
  obtain ⟨r, hr, rfl⟩ := List.mem_map.mp hcoords
  obtain ⟨k, hk⟩ := List.mem_iff_getElem?.mp hr
  obtain ⟨r', hr', hcoords', -⟩ := h.kept k r hk
  exact List.mem_map.mpr ⟨r', List.mem_of_getElem? hr', hcoords'⟩

/-- A row of the table afterwards was there before or has been written. -/
theorem mem (h : Writes batch rows rows') {r : Row K} (hr : r ∈ rows') : r ∈ rows ∨ r ∈ batch := by
  obtain ⟨k, hk⟩ := List.mem_iff_getElem?.mp hr
  cases hrows : rows[k]? with
  | none => exact .inr (h.added k r hrows hk).1
  | some r₀ =>
      obtain ⟨r', hr', -, hcase⟩ := h.kept k r₀ hrows
      obtain rfl : r' = r := by simpa [hk] using hr'.symm
      rcases hcase with rfl | hmem
      · exact .inl (List.mem_of_getElem? hrows)
      · exact .inr hmem

/-- One write after the other. -/
theorem trans {first rows₁ : List (Row K)} (h : Writes first rows rows₁)
    (h' : Writes batch rows₁ rows') : Writes (first ++ batch) rows rows' where
  kept := by
    intro k r hr
    obtain ⟨r₁, hr₁, hcoords₁, hcase₁⟩ := h.kept k r hr
    obtain ⟨r', hr', hcoords, hcase⟩ := h'.kept k r₁ hr₁
    refine ⟨r', hr', hcoords.trans hcoords₁, ?_⟩
    rcases hcase with rfl | hmem
    · exact hcase₁.imp_right (List.mem_append_left _)
    · exact .inr (List.mem_append_right _ hmem)
  added := by
    intro k r' hnone hr'
    cases hr₁ : rows₁[k]? with
    | none =>
        obtain ⟨hmem, hnew⟩ := h'.added k r' hr₁ hr'
        exact ⟨List.mem_append_right _ hmem, fun hold => hnew (h.coords_subset hold)⟩
    | some r₁ =>
        obtain ⟨hmem₁, hnew₁⟩ := h.added k r₁ hnone hr₁
        obtain ⟨r'', hr'', hcoords, hcase⟩ := h'.kept k r₁ hr₁
        obtain rfl : r'' = r' := by simpa [hr'] using hr''.symm
        refine ⟨?_, hcoords ▸ hnew₁⟩
        rcases hcase with rfl | hmem
        · exact List.mem_append_left _ hmem₁
        · exact List.mem_append_right _ hmem

/-- A row with new coordinates goes to the end. -/
theorem append {b : Row K} (hnew : b.coords ∉ rows.map Row.coords) :
    Writes [b] rows (rows ++ [b]) where
  kept := by
    intro k r hr
    have hlt : k < rows.length := (List.getElem?_eq_some_iff.mp hr).1
    exact ⟨r, by rw [List.getElem?_append_left hlt, hr], rfl, .inl rfl⟩
  added := by
    intro k r' hnone hr'
    rw [List.getElem?_append_right (List.getElem?_eq_none_iff.mp hnone)] at hr'
    obtain rfl := List.mem_singleton.mp (List.mem_of_getElem? hr')
    exact ⟨List.mem_cons_self, hnew⟩

end Writes

/-! ## One row -/

/-- A row is set only where its coordinates are found. -/
theorem setLast?_eq_none_iff :
    setLast? coords value rows = none ↔ coords ∉ rows.map Row.coords := by
  induction rows with
  | nil => simp [setLast?]
  | cons r rows ih =>
      cases hrest : setLast? coords value rows with
      | some rest =>
          have hmem : coords ∈ rows.map Row.coords := by
            by_contra hcoords
            rw [ih.mpr hcoords] at hrest
            cases hrest
          simp [setLast?, hrest, hmem]
      | none =>
          have hmem : coords ∉ rows.map Row.coords := ih.mp hrest
          by_cases hr : r.coords = coords
          · simp [setLast?, hrest, hr]
          · simp [setLast?, hrest, hr, Ne.symm hr, hmem]

theorem map_coords_of_setLast? (h : setLast? coords value rows = some rows') :
    rows'.map Row.coords = rows.map Row.coords := by
  induction rows generalizing rows' with
  | nil => simp [setLast?] at h
  | cons r rows ih =>
      cases hrest : setLast? coords value rows with
      | some rest =>
          simp only [setLast?, hrest, Option.some.injEq] at h
          subst h
          rw [List.map_cons, List.map_cons, ih hrest]
      | none =>
          simp only [setLast?, hrest, Option.ite_none_right_eq_some, Option.some.injEq] at h
          obtain ⟨rfl, rfl⟩ := h
          rfl

theorem mem_of_setLast? (h : setLast? coords value rows = some rows') :
    (⟨coords, value⟩ : Row K) ∈ rows' := by
  induction rows generalizing rows' with
  | nil => simp [setLast?] at h
  | cons r rows ih =>
      cases hrest : setLast? coords value rows with
      | some rest =>
          simp only [setLast?, hrest, Option.some.injEq] at h
          subst h
          exact List.mem_cons_of_mem _ (ih hrest)
      | none =>
          simp only [setLast?, hrest, Option.ite_none_right_eq_some, Option.some.injEq] at h
          obtain ⟨-, rfl⟩ := h
          exact List.mem_cons_self

/-- Setting a row leaves every other one alone. -/
theorem rewritten_of_setLast? (h : setLast? coords value rows = some rows') {k : Nat} {r : Row K}
    (hr : rows[k]? = some r) :
    ∃ r', rows'[k]? = some r' ∧ Rewritten [⟨coords, value⟩] r r' := by
  induction rows generalizing rows' k with
  | nil => simp at hr
  | cons b rows ih =>
      cases hrest : setLast? coords value rows with
      | some rest =>
          simp only [setLast?, hrest, Option.some.injEq] at h
          subst h
          cases k with
          | zero =>
              obtain rfl : b = r := by simpa using hr
              exact ⟨b, rfl, rfl, .inl rfl⟩
          | succ k => exact ih hrest (by simpa using hr)
      | none =>
          simp only [setLast?, hrest, Option.ite_none_right_eq_some, Option.some.injEq] at h
          obtain ⟨hcoords, rfl⟩ := h
          cases k with
          | zero =>
              obtain rfl : b = r := by simpa using hr
              exact ⟨_, rfl, hcoords.symm, .inr List.mem_cons_self⟩
          | succ k => exact ⟨r, by simpa using hr, rfl, .inl rfl⟩

theorem Writes.of_setLast? {b : Row K} (h : setLast? b.coords b.value rows = some rows') :
    Writes [b] rows rows' where
  kept := fun _ _ hr => rewritten_of_setLast? h hr
  added := by
    intro k r' hnone hr'
    have hlen : rows'.length = rows.length := by
      simpa using congrArg List.length (map_coords_of_setLast? h)
    rw [List.getElem?_eq_none_iff, ← hlen, ← List.getElem?_eq_none_iff, hr'] at hnone
    cases hnone

/-! ## Several rows -/

/-- Rows are written one after the other, up to the first one that is refused. -/
theorem writes_writeRows (name : String) (mode : WriteMode) (rows batch : List (Row K)) :
    Writes batch rows (writeRows name mode rows batch).1 := by
  induction batch generalizing rows with
  | nil => exact .refl rows
  | cons b batch ih =>
      unfold writeRows
      cases hset : setLast? b.coords b.value rows with
      | some rows₁ =>
          cases mode with
          | insert => exact .refl rows
          | replace => exact (Writes.of_setLast? hset).trans (ih rows₁)
      | none => exact (Writes.append (setLast?_eq_none_iff.mp hset)).trans (ih _)

/-- Replacing is never refused. -/
theorem writeRows_replace (name : String) (rows batch : List (Row K)) :
    (writeRows name .replace rows batch).2 = none := by
  induction batch generalizing rows with
  | nil => rfl
  | cons b batch ih =>
      unfold writeRows
      cases setLast? b.coords b.value rows with
      | some rows₁ => exact ih rows₁
      | none => exact ih _

/-- Rows whose coordinates are distinct and new go to the end, in either mode. -/
theorem writeRows_new (name : String) (mode : WriteMode) (hbatch : DistinctRows batch)
    (hnew : ∀ r ∈ batch, r.coords ∉ rows.map Row.coords) :
    writeRows name mode rows batch = (rows ++ batch, none) := by
  induction batch generalizing rows with
  | nil => simp [writeRows]
  | cons b batch ih =>
      obtain ⟨hb, hbatch⟩ := List.nodup_cons.mp hbatch
      have hset : setLast? b.coords b.value rows = none :=
        setLast?_eq_none_iff.mpr (hnew b List.mem_cons_self)
      unfold writeRows
      simp only [hset]
      rw [ih hbatch fun r hr => ?_, List.append_assoc, List.singleton_append]
      rw [List.map_append, List.mem_append, not_or]
      refine ⟨hnew r (List.mem_cons_of_mem _ hr), fun hmem => ?_⟩
      obtain heq : r.coords = b.coords := by simpa using hmem
      exact hb (heq ▸ List.mem_map_of_mem hr)

/-- Writing keeps the rows of a table distinct. -/
theorem distinctRows_writeRows (name : String) (mode : WriteMode) (h : DistinctRows rows) :
    DistinctRows (writeRows name mode rows batch).1 := by
  induction batch generalizing rows with
  | nil => exact h
  | cons b batch ih =>
      unfold writeRows
      cases hset : setLast? b.coords b.value rows with
      | some rows₁ =>
          cases mode with
          | insert => exact h
          | replace => exact ih (by rwa [DistinctRows, map_coords_of_setLast? hset])
      | none =>
          refine ih ?_
          have hnew := setLast?_eq_none_iff.mp hset
          unfold DistinctRows
          rw [List.map_append, List.nodup_append]
          refine ⟨h, List.nodup_singleton _, fun a ha c hc => ?_⟩
          rw [List.map_singleton, List.mem_singleton] at hc
          rintro rfl
          exact hnew (hc ▸ ha)

end StoredTable

end CoupledModels
