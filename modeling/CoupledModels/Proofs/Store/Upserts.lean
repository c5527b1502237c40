import CoupledModels.Proofs.Store.Validity

/-!
# Writing rows as an upsert

A table is a map from coordinates to values, and writing rows is an upsert of it.  Replacing leaves
at all coordinates the value that was written there last, or else the old one; rows that exist keep
their places, and new ones follow in the order in which they are first written.  Inserting takes the
rows up to the first one whose coordinates exist already, in the table or among the rows before it.

The main statement is about every store that is built up from nothing, so it holds after any history
of writes, refused ones included.
-/

namespace CoupledModels

variable {K : Type}

namespace StoredTable

variable {rows rows' batch taken : List (Row K)} {b : Row K} {coords : List String}

/-! ## Values -/

/-- The value of the last row with some coordinates. -/
def lastValue? (rows : List (Row K)) (coords : List String) : Option (Option K) :=
  (rows.reverse.find? fun r => decide (r.coords = coords)).map Row.value

theorem lastValue?_append (rows batch : List (Row K)) (coords : List String) :
    lastValue? (rows ++ batch) coords = (lastValue? batch coords).or (lastValue? rows coords) := by
  simp only [lastValue?, List.reverse_append, List.find?_append]
  cases batch.reverse.find? fun r => decide (r.coords = coords) <;> rfl

theorem lastValue?_cons (r : Row K) (rows : List (Row K)) (coords : List String) :
    lastValue? (r :: rows) coords = (lastValue? rows coords).or (lastValue? [r] coords) :=
  lastValue?_append [r] rows coords

theorem lastValue?_singleton (r : Row K) (coords : List String) :
    lastValue? [r] coords = if r.coords = coords then some r.value else none := by
  unfold lastValue?
  split <;> simp_all

/-- Coordinates without a row have no value. -/
theorem lastValue?_eq_none (h : coords ∉ rows.map Row.coords) : lastValue? rows coords = none := by
  have hfind : rows.reverse.find? (fun r => decide (r.coords = coords)) = none := by
    rw [List.find?_eq_none]
    intro r hr heq
    exact h (List.mem_map.mpr ⟨r, List.mem_reverse.mp hr, of_decide_eq_true heq⟩)
  simp [lastValue?, hfind]

/-- The row that is set is the one that is read. -/
theorem lastValue?_of_setLast? (h : setLast? b.coords b.value rows = some rows') :
    lastValue? rows' coords = (lastValue? [b] coords).or (lastValue? rows coords) := by
  induction rows generalizing rows' with
  | nil => simp [setLast?] at h
  | cons r rows ih =>
      cases hrest : setLast? b.coords b.value rows with
      | some rest =>
          simp only [setLast?, hrest, Option.some.injEq] at h
          subst h
          rw [lastValue?_cons, ih hrest, Option.or_assoc, ← lastValue?_cons]
      | none =>
          simp only [setLast?, hrest, Option.ite_none_right_eq_some, Option.some.injEq] at h
          obtain ⟨hcoords, rfl⟩ := h
          simp only [lastValue?_cons _ rows, lastValue?_singleton]
          by_cases heq : b.coords = coords
          · have hnone : lastValue? rows coords = none :=
              lastValue?_eq_none (heq ▸ setLast?_eq_none_iff.mp hrest)
            simp [heq, hnone]
          · simp [heq, hcoords]

/-! ## Replacing -/

/-- What replacing rows leaves of the rows of a table. -/
structure Upserted (batch rows rows' : List (Row K)) : Prop where
  /-- Rows keep their places, and new ones follow in the order in which they are first written. -/
  places : rows'.map Row.coords = rows.map Row.coords ++
    ((batch.map Row.coords).filter fun coords => coords ∉ rows.map Row.coords).eraseDups
  distinct : DistinctRows rows'
  /-- The last value that is written counts, and the old one where none is written. -/
  values : ∀ coords, lastValue? rows' coords = (lastValue? batch coords).or (lastValue? rows coords)

theorem map_coords_writeRows_replace (name : String) (rows batch : List (Row K)) :
    (writeRows name .replace rows batch).1.map Row.coords = rows.map Row.coords ++
      ((batch.map Row.coords).filter fun coords => coords ∉ rows.map Row.coords).eraseDups := by
  induction batch generalizing rows with
  | nil => simp [writeRows]
  | cons b batch ih =>
      unfold writeRows
      cases hset : setLast? b.coords b.value rows with
      | some rows₁ =>
          have hold : b.coords ∈ rows.map Row.coords := by
            by_contra hnew
            rw [setLast?_eq_none_iff.mpr hnew] at hset
            cases hset
          rw [ih, map_coords_of_setLast? hset, List.map_cons, List.filter_cons_of_neg]
          simpa using hold
      | none =>
          have hnew : b.coords ∉ rows.map Row.coords := setLast?_eq_none_iff.mp hset
          -- later rows with these coordinates are no longer new
          have hlater : ((batch.map Row.coords).filter fun coords =>
                coords ∉ (rows ++ [b]).map Row.coords) =
              ((batch.map Row.coords).filter fun coords => coords ∉ rows.map Row.coords).filter
                fun coords => !coords == b.coords := by
            rw [List.filter_filter]
            refine List.filter_congr fun coords _ => ?_
            by_cases heq : coords = b.coords <;> simp [heq]
          rw [ih, hlater, List.map_append, List.map_singleton, List.append_assoc,
            List.singleton_append, ← List.eraseDups_cons, List.map_cons, List.filter_cons_of_pos]
          simpa using hnew

theorem lastValue?_writeRows_replace (name : String) (rows batch : List (Row K))
    (coords : List String) :
    lastValue? (writeRows name .replace rows batch).1 coords =
      (lastValue? batch coords).or (lastValue? rows coords) := by
  induction batch generalizing rows with
  | nil => rfl
  | cons b batch ih =>
      unfold writeRows
      cases hset : setLast? b.coords b.value rows with
      | some rows₁ =>
          rw [lastValue?_cons, Option.or_assoc, ← lastValue?_of_setLast? hset]
          exact ih rows₁
      | none =>
          rw [lastValue?_cons, Option.or_assoc, ← lastValue?_append]
          exact ih _

theorem upserted_writeRows (name : String) (batch : List (Row K)) (h : DistinctRows rows) :
    Upserted batch rows (writeRows name .replace rows batch).1 where
  places := map_coords_writeRows_replace name rows batch
  distinct := distinctRows_writeRows name .replace h
  values := lastValue?_writeRows_replace name rows batch

/-! ## Inserting -/

/-- Rows with coordinates that are distinct, and none of them among those of the rows of a table. -/
structure Insertable (rows batch : List (Row K)) : Prop where
  distinct : DistinctRows batch
  new : ∀ r ∈ batch, r.coords ∉ rows.map Row.coords

/-- A row can be inserted after others if its coordinates are neither in the table nor theirs. -/
theorem insertable_append_singleton :
    Insertable rows (taken ++ [b]) ↔
      Insertable rows taken ∧ b.coords ∉ (rows ++ taken).map Row.coords := by
  have hdistinct : DistinctRows (taken ++ [b]) ↔
      DistinctRows taken ∧ b.coords ∉ taken.map Row.coords := by
    unfold DistinctRows
    rw [List.map_append, List.map_singleton, ← List.concat_eq_append, List.nodup_concat]
    exact and_comm
  constructor
  · intro h
    obtain ⟨htaken, hb⟩ := hdistinct.mp h.distinct
    obtain ⟨hold, hnew⟩ := List.forall_mem_append.mp h.new
    refine ⟨⟨htaken, hold⟩, ?_⟩
    rw [List.map_append, List.mem_append, not_or]
    exact ⟨hnew b (List.mem_singleton_self b), hb⟩
  · rintro ⟨h, hb⟩
    rw [List.map_append, List.mem_append, not_or] at hb
    refine ⟨hdistinct.mpr ⟨h.distinct, hb.2⟩, List.forall_mem_append.mpr ⟨h.new, fun r hr => ?_⟩⟩
    rw [List.mem_singleton.mp hr]
    exact hb.1

/-- Of rows that cannot all be inserted one is the first. -/
theorem exists_first_refused (h : ¬ Insertable rows batch) :
    ∃ taken b rest, batch = taken ++ b :: rest ∧ Insertable rows taken ∧
      b.coords ∈ (rows ++ taken).map Row.coords := by
  induction batch using List.reverseRecOn with
  | nil => exact absurd ⟨List.nodup_nil, fun r hr => absurd hr List.not_mem_nil⟩ h
  | append_singleton batch b ih =>
      by_cases hbatch : Insertable rows batch
      · have hb : b.coords ∈ (rows ++ batch).map Row.coords := by
          by_contra hnew
          exact h (insertable_append_singleton.mpr ⟨hbatch, hnew⟩)
        exact ⟨batch, b, [], rfl, hbatch, hb⟩
      · obtain ⟨taken, b', rest, rfl, htaken, hb'⟩ := ih hbatch
        exact ⟨taken, b', rest ++ [b], by simp, htaken, hb'⟩

/-- Where no row is refused, writing goes on with the rows that follow. -/
theorem writeRows_append (name : String) (mode : WriteMode) (rest : List (Row K))
    (h : writeRows name mode rows taken = (rows', none)) :
    writeRows name mode rows (taken ++ rest) = writeRows name mode rows' rest := by
  induction taken generalizing rows with
  | nil =>
      cases h
      rfl
  | cons r taken ih =>
      rw [List.cons_append]
      cases hset : setLast? r.coords r.value rows with
      | none =>
          simp only [writeRows, hset] at h ⊢
          exact ih h
      | some rows₁ =>
          cases mode with
          | insert => simp [writeRows, hset] at h
          | replace =>
              simp only [writeRows, hset] at h ⊢
              exact ih h

/-- Rows are inserted up to the first one whose coordinates exist. -/
theorem writeRows_refused (name : String) (htaken : Insertable rows taken)
    (hb : b.coords ∈ (rows ++ taken).map Row.coords) (rest : List (Row K)) :
    writeRows name .insert rows (taken ++ b :: rest) =
      (rows ++ taken, some (.rowExists b.coords name)) := by
  rw [writeRows_append name .insert _ (writeRows_new name .insert htaken.distinct htaken.new)]
  cases hset : setLast? b.coords b.value (rows ++ taken) with
  | some rows₁ => simp [writeRows, hset]
  | none => exact absurd hb (setLast?_eq_none_iff.mp hset)

/-- Every row has one item for each coordinate of the table. -/
def Fits (t : StoredTable K) (batch : List (Row K)) : Prop :=
  ∀ r ∈ batch, r.coords.length = t.coordinates.length

end StoredTable

namespace Store

variable {s : Store K} {name : String} {t : StoredTable K} {batch : List (Row K)} {mode : WriteMode}

/-- Rows that fit are written one after the other. -/
theorem putRows_of_fits (ht : s.tables.get? name = some t) (h : t.Fits batch)
    {rows : List (Row K)} {refused : Option StorageError}
    (hrows : StoredTable.writeRows name mode t.rows batch = (rows, refused)) :
    s.putRows name batch mode =
      (refused.elim (.ok ()) fun e => .error (.storage e), s.withRows name t rows) := by
  have hfind : batch.find? (fun r => decide (r.coords.length ≠ t.coordinates.length)) = none := by
    simpa [StoredTable.Fits] using h
  unfold putRows
  simp only [table_eq_ok.mpr ht, hfind, hrows]
  cases refused <;> rfl

/-- If a row does not fit, nothing is written. -/
theorem putRows_of_not_fits (ht : s.tables.get? name = some t) (h : ¬ t.Fits batch) :
    ∃ r ∈ batch, r.coords.length ≠ t.coordinates.length ∧
      ∀ mode, s.putRows name batch mode =
        (.error (.storage (.rowLength r.coords t.coordinates name)), s) := by
  cases hfind : batch.find? fun r => decide (r.coords.length ≠ t.coordinates.length) with
  | none => exact absurd (by simpa [StoredTable.Fits] using hfind) h
  | some r =>
      refine ⟨r, List.mem_of_find?_eq_some hfind, by simpa using List.find?_some hfind,
        fun mode => ?_⟩
      unfold putRows
      simp only [table_eq_ok.mpr ht, hfind]

/-- Nothing is written into a table that does not exist. -/
theorem putRows_of_missing (h : s.tables.get? name = none) (batch : List (Row K))
    (mode : WriteMode) :
    s.putRows name batch mode = (.error (.missing (.storedTable name)), s) := by
  unfold putRows table
  simp only [h]

/-- Rows can be inserted if and only if they fit the table and none of their coordinates exist. -/
theorem putRows_insert_iff (ht : s.tables.get? name = some t) {s' : Store K} :
    s.putRows name batch .insert = (.ok (), s') ↔
      t.Fits batch ∧ StoredTable.Insertable t.rows batch ∧
        s' = s.withRows name t (t.rows ++ batch) := by
  constructor
  · intro hput
    have hfits : t.Fits batch := by
      by_contra hfits
      obtain ⟨r, -, -, hrefuses⟩ := putRows_of_not_fits ht hfits
      rw [hrefuses .insert] at hput
      cases hput
    have hinsertable : StoredTable.Insertable t.rows batch := by
      by_contra hrefused
      obtain ⟨taken, b, rest, rfl, htaken, hb⟩ := StoredTable.exists_first_refused hrefused
      rw [putRows_of_fits ht hfits (StoredTable.writeRows_refused name htaken hb rest)] at hput
      cases hput
    rw [putRows_of_fits ht hfits
      (StoredTable.writeRows_new name .insert hinsertable.distinct hinsertable.new)] at hput
    cases hput
    exact ⟨hfits, hinsertable, rfl⟩
  · rintro ⟨hfits, hinsertable, rfl⟩
    exact putRows_of_fits ht hfits
      (StoredTable.writeRows_new name .insert hinsertable.distinct hinsertable.new)

/-- What writing rows does to a table, and to the rest of the store. -/
structure Upserts (s : Store K) (name : String) (t : StoredTable K) (batch : List (Row K)) :
    Prop where
  replaces : t.Fits batch → ∃ rows, StoredTable.Upserted batch t.rows rows ∧
    s.putRows name batch .replace = (.ok (), s.withRows name t rows)
  inserts_iff : (s.putRows name batch .insert).1 = .ok () ↔
    t.Fits batch ∧ StoredTable.Insertable t.rows batch
  inserts : t.Fits batch → StoredTable.Insertable t.rows batch →
    s.putRows name batch .insert = (.ok (), s.withRows name t (t.rows ++ batch))
  /-- Rows stay written up to the first one whose coordinates exist. -/
  stops : t.Fits batch → ¬ StoredTable.Insertable t.rows batch →
    ∃ taken b rest, batch = taken ++ b :: rest ∧ StoredTable.Insertable t.rows taken ∧
      b.coords ∈ (t.rows ++ taken).map Row.coords ∧
      s.putRows name batch .insert =
        (.error (.storage (.rowExists b.coords name)), s.withRows name t (t.rows ++ taken))
  refuses : ¬ t.Fits batch → ∃ r ∈ batch, r.coords.length ≠ t.coordinates.length ∧
    ∀ mode, s.putRows name batch mode =
      (.error (.storage (.rowLength r.coords t.coordinates name)), s)
  apart : ∀ mode, (s.putRows name batch mode).2.dimensions = s.dimensions ∧
    ∀ other, other ≠ name → (s.putRows name batch mode).2.tables.get? other = s.tables.get? other

theorem Valid.upserts (h : s.Valid) (ht : s.tables.get? name = some t) (batch : List (Row K)) :
    s.Upserts name t batch := by
  refine ⟨fun hfits => ?_, ⟨fun hok => ?_, fun hbatch => ?_⟩, fun hfits hinsertable => ?_,
    fun hfits hrefused => ?_, putRows_of_not_fits ht,
    fun mode => ⟨dimensions_putRows, fun other => get?_putRows_of_ne⟩⟩
  · have hupserted := StoredTable.upserted_writeRows name batch (h name t ht).distinct
    exact ⟨_, hupserted, putRows_replace_iff.mpr ⟨t, ht, hfits, rfl⟩⟩
  · obtain ⟨hfits, hinsertable, -⟩ := (putRows_insert_iff ht).mp (Prod.ext hok rfl)
    exact ⟨hfits, hinsertable⟩
  · rw [(putRows_insert_iff ht).mpr ⟨hbatch.1, hbatch.2, rfl⟩]
  · exact (putRows_insert_iff ht).mpr ⟨hfits, hinsertable, rfl⟩
  · obtain ⟨taken, b, rest, rfl, htaken, hb⟩ := StoredTable.exists_first_refused hrefused
    exact ⟨taken, b, rest, rfl, htaken, hb,
      putRows_of_fits ht hfits (StoredTable.writeRows_refused name htaken hb rest)⟩

/-- After any history of writes to an empty store each table is a map from coordinates to values, and
every further write of rows is an upsert of it that touches nothing else. -/
theorem upserts_of_writes {writes : List (Write K)} (hs : empty.writeAll writes = s) :
    s.Valid ∧
      (∀ name t, s.tables.get? name = some t → ∀ batch, s.Upserts name t batch) ∧
      ∀ name, s.tables.get? name = none → ∀ batch mode,
        s.putRows name batch mode = (.error (.missing (.storedTable name)), s) := by
  have hvalid : s.Valid := hs ▸ valid_writeAll_empty writes
  exact ⟨hvalid, fun name t ht => hvalid.upserts ht, fun name hnone => putRows_of_missing hnone⟩

namespace Ports

/-- Two ports enter their catches, and one of them tries to do so again. -/
def entries : List (Write Float) :=
  [.createTable "catch" ["port"],
    .putRows "catch" [⟨["cork"], none⟩] .insert,
    .putRows "catch" [⟨["vigo"], none⟩, ⟨["cork"], some 3⟩] .insert]

/-- The entries of the two ports, and a write that names a third port twice. -/
theorem upserts_of_writes_ports :
    empty.writeAll entries = store ∧ store.Valid ∧
      store.Upserts "catch" catches [⟨["faro"], some 1⟩, ⟨["vigo"], some 2⟩, ⟨["faro"], some 4⟩] :=
  have hentries : empty.writeAll entries = store := rfl
  have h := upserts_of_writes hentries
  ⟨hentries, h.1, h.2.1 "catch" catches rfl _⟩

end Ports

end Store

end CoupledModels
