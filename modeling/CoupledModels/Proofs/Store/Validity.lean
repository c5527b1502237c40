import CoupledModels.Proofs.Store.Tables
import CoupledModels.Store.Document
import Mathlib.Data.List.Permutation

/-!
# Valid stores

In a valid store every row has one item for each coordinate of its table, and no two rows of a table
have the same items.  Reading through a filter and replacing rows depend on this: a filter looks at
positions of the table's coordinates, and a row that is replaced is found by its items.

Every write keeps a store valid, so a store that is built up from nothing is valid.  A document that
is loaded is not checked: the rows of its tables are taken as they are, and the store is valid if and
only if they are.
-/

namespace CoupledModels

variable {K : Type}

namespace StoredTable

variable {t : StoredTable K} {rows rows' batch : List (Row K)} {r b : Row K} {k : Nat}

/-- Every row has one item for each coordinate, and no two rows have the same items. -/
structure Valid (t : StoredTable K) : Prop where
  lengths : ∀ r ∈ t.rows, r.coords.length = t.coordinates.length
  distinct : DistinctRows t.rows

/-! ## Reading -/

/-- A filter restricts columns of the table if it names coordinates only. -/
theorem restrictions_ok (name : String) {filter : RowFilter}
    (h : ∀ d ∈ filter.keys, d ∈ t.coordinates) :
    ∃ restrictions, t.restrictions name filter = .ok restrictions ∧
      ∀ p ∈ restrictions, p.1 < t.coordinates.length := by
  have hcolumns : ∀ es : List (String × List String), (∀ e ∈ es, e.1 ∈ t.coordinates) →
      ∃ restrictions, t.restrictions name ⟨es⟩ = .ok restrictions ∧
        ∀ p ∈ restrictions, p.1 < t.coordinates.length := by
    intro es hes
    induction es with
    | nil => exact ⟨[], rfl, nofun⟩
    | cons e es ih =>
        obtain ⟨rest, hrest, hlt⟩ := ih fun e' he' => hes e' (List.mem_cons_of_mem _ he')
        obtain ⟨i, hi⟩ := Option.isSome_iff_exists.mp
          (List.isSome_idxOf?.mpr (hes e List.mem_cons_self))
        refine ⟨(i, e.2) :: rest, ?_, ?_⟩
        · unfold restrictions at hrest ⊢
          simp only [List.mapM_cons, hi, hrest]
          rfl
        · intro p hp
          rcases List.mem_cons.mp hp with rfl | hp
          · exact (List.idxOf?_eq_some_iff.mp hi).1
          · exact hlt p hp
  exact hcolumns filter.entries fun e he => h e.1 (List.mem_map_of_mem he)

/-! ## Writing -/

/-- What rows that are written make of a row of the table: the last of them with its coordinates
takes its place. -/
def lastWritten (batch : List (Row K)) (r : Row K) : Row K :=
  (batch.reverse.find? fun b => decide (b.coords = r.coords)).getD r

theorem coords_lastWritten (batch : List (Row K)) (r : Row K) :
    (lastWritten batch r).coords = r.coords := by
  unfold lastWritten
  cases hfind : batch.reverse.find? fun b => decide (b.coords = r.coords) with
  | none => rfl
  | some b => simpa using List.find?_some hfind

/-- Of two writes the later one counts. -/
theorem lastWritten_cons (b : Row K) (batch : List (Row K)) (r : Row K) :
    lastWritten (b :: batch) r = lastWritten batch (if b.coords = r.coords then b else r) := by
  have hcoords : (if b.coords = r.coords then b else r).coords = r.coords := by
    split
    · assumption
    · rfl
  unfold lastWritten
  rw [hcoords, List.reverse_cons, List.find?_append]
  cases batch.reverse.find? fun b => decide (b.coords = r.coords) with
  | some b' => rfl
  | none => by_cases hb : b.coords = r.coords <;> simp [hb]

/-- If coordinates are distinct, setting a row sets the one with its coordinates. -/
theorem getElem?_of_setLast? (h : DistinctRows rows)
    (hset : setLast? b.coords b.value rows = some rows') (hr : rows[k]? = some r) :
    rows'[k]? = some (if b.coords = r.coords then b else r) := by
  obtain ⟨r', hr', hcoords, hcase⟩ := rewritten_of_setLast? hset hr
  split
  · rename_i heq
    have hdistinct : DistinctRows rows' := by rwa [DistinctRows, map_coords_of_setLast? hset]
    rw [hr', hdistinct.eq_of_coords (List.mem_of_getElem? hr') (mem_of_setLast? hset)
      (hcoords.trans heq.symm)]
  · rename_i hne
    rcases hcase with rfl | hmem
    · exact hr'
    · rw [List.mem_singleton.mp hmem] at hcoords
      exact absurd hcoords hne

/-- If coordinates are distinct, a row in the table afterwards is the last one written with its
coordinates. -/
theorem getElem?_writeRows_replace (name : String) (batch : List (Row K)) (h : DistinctRows rows)
    (hr : rows[k]? = some r) :
    (writeRows name .replace rows batch).1[k]? = some (lastWritten batch r) := by
  induction batch generalizing rows r with
  | nil => exact hr
  | cons b batch ih =>
      rw [lastWritten_cons]
      unfold writeRows
      cases hset : setLast? b.coords b.value rows with
      | some rows₁ =>
          exact ih (by rwa [DistinctRows, map_coords_of_setLast? hset])
            (getElem?_of_setLast? h hset hr)
      | none =>
          -- the written row goes to the end, past the place of `r`
          have hnew := setLast?_eq_none_iff.mp hset
          have hne : b.coords ≠ r.coords := fun heq =>
            hnew (List.mem_map.mpr ⟨r, List.mem_of_getElem? hr, heq.symm⟩)
          have hdistinct : DistinctRows (rows ++ [b]) := by
            have hwritten : DistinctRows (writeRows name .replace rows [b]).1 :=
              distinctRows_writeRows name .replace h
            simpa only [writeRows, hset] using hwritten
          rw [if_neg hne]
          refine ih hdistinct ?_
          rw [List.getElem?_append_left (List.getElem?_eq_some_iff.mp hr).1, hr]

/-- Coordinates lead to one place. -/
theorem eq_index_of_coords (h : DistinctRows rows) {j : Nat} {r' : Row K} (hr : rows[k]? = some r)
    (hr' : rows[j]? = some r') (hcoords : r'.coords = r.coords) : j = k := by
  have hcoordsAt : ∀ {i : Nat} {b : Row K}, rows[i]? = some b →
      (rows.map Row.coords)[i]? = some b.coords := by
    intro i b hb
    rw [List.getElem?_map, hb, Option.map_some]
  obtain ⟨hj, -⟩ := List.getElem?_eq_some_iff.mp (hcoordsAt hr')
  refine (List.getElem?_inj hj h).mp ?_
  rw [hcoordsAt hr', hcoordsAt hr, hcoords]

/-- Rows of the table's length keep it valid. -/
theorem Valid.withRows (h : t.Valid) (name : String) (mode : WriteMode)
    (hbatch : ∀ r ∈ batch, r.coords.length = t.coordinates.length) :
    Valid { t with rows := (writeRows name mode t.rows batch).1 } where
  lengths := fun r hr =>
    ((writes_writeRows name mode t.rows batch).mem hr).elim (h.lengths r) (hbatch r)
  distinct := distinctRows_writeRows name mode h.distinct

end StoredTable

namespace Store

variable {s s' : Store K}

/-- Every table is valid. -/
def Valid (s : Store K) : Prop :=
  ∀ (name : String) (t : StoredTable K), s.tables.get? name = some t → t.Valid

/-- Reading through a filter that names coordinates of a table succeeds, and it looks at items that
every row has. -/
def ReadsInside (s : Store K) : Prop :=
  ∀ (name : String) (t : StoredTable K) (filter : RowFilter), s.tables.get? name = some t →
    (∀ d ∈ filter.keys, d ∈ t.coordinates) →
    ∃ restrictions, t.restrictions name filter = .ok restrictions ∧
      (∀ r ∈ t.rows, ∀ p ∈ restrictions, p.1 < r.coords.length) ∧
      s.getRows name filter = .ok (t.rows.filter (StoredTable.passes restrictions))

/-- Replacing rows of a table's length succeeds.  A row of the table is then what has been written
at its coordinates last, and it is the only one with its coordinates. -/
def ReplacesOnly (s : Store K) : Prop :=
  ∀ (name : String) (t : StoredTable K) (batch : List (Row K)), s.tables.get? name = some t →
    (∀ r ∈ batch, r.coords.length = t.coordinates.length) →
    ∃ rows, s.putRows name batch .replace = (.ok (), s.withRows name t rows) ∧
      ∀ (k : Nat) (r : Row K), t.rows[k]? = some r →
        rows[k]? = some (StoredTable.lastWritten batch r) ∧
        ∀ (j : Nat) (r' : Row K), rows[j]? = some r' → r'.coords = r.coords → j = k

theorem Valid.readsInside (h : s.Valid) : s.ReadsInside := by
  intro name t filter ht hfilter
  obtain ⟨restrictions, hrestrictions, hlt⟩ := StoredTable.restrictions_ok name hfilter
  refine ⟨restrictions, hrestrictions, fun r hr p hp => ?_, ?_⟩
  · rw [(h name t ht).lengths r hr]
    exact hlt p hp
  · unfold getRows
    rw [table_eq_ok.mpr ht]
    exact congrArg (Except.map fun rs => t.rows.filter (StoredTable.passes rs)) hrestrictions

theorem Valid.replacesOnly (h : s.Valid) : s.ReplacesOnly := by
  intro name t batch ht hlengths
  have hdistinct := (h name t ht).distinct
  refine ⟨_, putRows_replace_iff.mpr ⟨t, ht, hlengths, rfl⟩, fun k r hr => ?_⟩
  have hwritten := StoredTable.getElem?_writeRows_replace name batch hdistinct hr
  refine ⟨hwritten, fun j r' hr' hcoords => ?_⟩
  exact StoredTable.eq_index_of_coords (StoredTable.distinctRows_writeRows name .replace hdistinct)
    hwritten hr' (hcoords.trans (StoredTable.coords_lastWritten batch r).symm)

/-! ## Writes keep a store valid -/

/-- A write to a store. -/
inductive Write (K : Type) where
  | createTable (name : String) (coordinates : List String)
  | putRows (name : String) (rows : List (Row K)) (mode : WriteMode)
  | putItems (dimension : String) (items : List String)

/-- The store after a write, which may be refused. -/
def write (s : Store K) : Write K → Store K
  | .createTable name coordinates =>
      match s.createTable name coordinates with
      | .ok s' => s'
      | .error _ => s
  | .putRows name rows mode => (s.putRows name rows mode).2
  | .putItems dimension items => s.putItems dimension items

/-- The store after several writes. -/
def writeAll (s : Store K) (writes : List (Write K)) : Store K :=
  writes.foldl write s

theorem valid_empty : (empty : Store K).Valid :=
  nofun

namespace Valid

theorem createTable (h : s.Valid) {name : String} {coordinates : List String}
    (hcreate : s.createTable name coordinates = .ok s') : s'.Valid := by
  rcases createTable_cases hcreate with rfl | rfl
  · exact h
  · intro other t ht
    rw [SortedMap.get?_insert] at ht
    split at ht
    · cases ht
      exact ⟨nofun, List.nodup_nil⟩
    · exact h other t ht

theorem putRows (h : s.Valid) (name : String) (rows : List (Row K)) (mode : WriteMode) :
    (s.putRows name rows mode).2.Valid := by
  unfold Store.putRows
  cases ht : s.table name with
  | error e => exact h
  | ok t =>
      dsimp only
      split
      · exact h
      · rename_i hfind
        have hlengths : ∀ r ∈ rows, r.coords.length = t.coordinates.length := by
          simpa using hfind
        have hvalid : (s.withRows name t (StoredTable.writeRows name mode t.rows rows).1).Valid := by
          intro other t' ht'
          rw [get?_withRows] at ht'
          split at ht'
          · cases ht'
            exact (h name t (table_eq_ok.mp ht)).withRows name mode hlengths
          · exact h other t' ht'
        split <;> exact hvalid

theorem write (h : s.Valid) (w : Write K) : (s.write w).Valid := by
  cases w with
  | createTable name coordinates =>
      unfold Store.write
      dsimp only
      split
      · rename_i s' hcreate
        exact h.createTable hcreate
      · exact h
  | putRows name rows mode => exact h.putRows name rows mode
  | putItems dimension items => exact h

theorem writeAll (h : s.Valid) (writes : List (Write K)) : (s.writeAll writes).Valid := by
  induction writes generalizing s with
  | nil => exact h
  | cons w writes ih => exact ih (h.write w)

end Valid

/-- Only loading can make a store that is not valid. -/
theorem valid_writeAll_empty (writes : List (Write K)) : ((empty : Store K).writeAll writes).Valid :=
  valid_empty.writeAll writes

/-! ## Loading -/

variable [StoredNumber K]

/-- The members under `tables` in the text of a document. -/
def DocumentTables (text : String) (members : List (String × Json)) : Prop :=
  ∃ v dimensions, Json.parse? text = some v ∧
    bothOf? "tables" "dimensions" v = some (.object members, dimensions)

/-- The tables of a document are valid.  Of several with one name the last one counts. -/
def ValidDocument (K : Type) [StoredNumber K] (text : String) : Prop :=
  ∃ members, DocumentTables text members ∧ ∀ (name : String) (v : Json) (t : StoredTable K),
    members.reverse.lookup name = some v → table? v = some t → t.Valid

/-- What a member is read as. -/
def ReadAs {α : Type} (item? : Json → Option α) (m : String × Json) (e : String × α) : Prop :=
  e.1 = m.1 ∧ item? m.2 = some e.2

/-- Members and what they are read as are found under the same names. -/
theorem lookup_readAs {α : Type} {item? : Json → Option α} {members : List (String × Json)}
    {es : List (String × α)} (h : List.Forall₂ (ReadAs item?) members es) (name : String) :
    es.lookup name = (members.lookup name).bind item? := by
  induction h with
  | nil => rfl
  | @cons m e members es hhead _ ih =>
      obtain ⟨key, v⟩ := m
      obtain ⟨key', a⟩ := e
      obtain ⟨hkey, ha⟩ := hhead
      obtain rfl : key' = key := hkey
      rw [List.lookup_cons, List.lookup_cons]
      cases name == key' with
      | true => exact ha.symm
      | false => exact ih

/-- An object is read member by member; of several members with one name the last one counts. -/
theorem get?_of_map? {α : Type} {item? : Json → Option α} {members : List (String × Json)}
    {m : SortedMap String α} (h : map? item? (.object members) = some m) (name : String) :
    m.get? name = (members.reverse.lookup name).bind item? := by
  obtain ⟨es, hes, rfl⟩ := Option.map_eq_some_iff.mp h
  have hread : List.Forall₂ (ReadAs item?) members es := by
    clear h
    induction members generalizing es with
    | nil =>
        obtain rfl : es = [] := by simpa using hes.symm
        exact .nil
    | cons v members ih =>
        rw [List.mapM_cons] at hes
        obtain ⟨e, he, hes⟩ := Option.bind_eq_some_iff.mp hes
        obtain ⟨es', hes', heq⟩ := Option.bind_eq_some_iff.mp hes
        cases heq
        obtain ⟨a, ha, rfl⟩ := Option.map_eq_some_iff.mp he
        exact .cons ⟨rfl, ha⟩ (ih es' hes')
  rw [SortedMap.get?_ofList]
  exact lookup_readAs (List.forall₂_reverse_iff.mpr hread) name

/-- A loaded store has the tables of the document, with their rows as they are. -/
theorem get?_of_load {text : String} {s : Store K} (h : load text = .ok s) :
    ∃ members, DocumentTables text members ∧
      ∀ name, s.tables.get? name =
        (members.reverse.lookup name).bind (table? : Json → Option (StoredTable K)) := by
  unfold load at h
  cases hs : (Json.parse? text).bind (ofDocument? : Json → Option (Store K)) with
  | none => simp [hs] at h
  | some s' =>
      obtain rfl : s' = s := by simpa [hs] using h
      obtain ⟨v, hv, hdocument⟩ := Option.bind_eq_some_iff.mp hs
      obtain ⟨⟨tables, dimensions⟩, hboth, hdocument⟩ := Option.bind_eq_some_iff.mp hdocument
      obtain ⟨ts, hts, hdocument⟩ := Option.bind_eq_some_iff.mp hdocument
      obtain ⟨ds, -, heq⟩ := Option.bind_eq_some_iff.mp hdocument
      cases heq
      cases tables with
      | object members => exact ⟨members, ⟨v, dimensions, hv, hboth⟩, get?_of_map? hts⟩
      | _ => cases hts

theorem DocumentTables.unique {text : String} {members members' : List (String × Json)}
    (h : DocumentTables text members) (h' : DocumentTables text members') : members = members' := by
  obtain ⟨v, dimensions, hv, hboth⟩ := h
  obtain ⟨v', dimensions', hv', hboth'⟩ := h'
  obtain rfl : v = v' := Option.some.inj (hv.symm.trans hv')
  cases Option.some.inj (hboth.symm.trans hboth')
  rfl

/-- A loaded store is valid if and only if the tables of its document are.  It then stays valid
whatever is written to it, so that filters read inside its rows and only the rows with the given
coordinates are replaced. -/
theorem load_valid_iff {text : String} {s : Store K} (h : load text = .ok s) :
    (s.Valid ↔ ValidDocument K text) ∧
    (ValidDocument K text → ∀ writes : List (Write K),
      (s.writeAll writes).Valid ∧ (s.writeAll writes).ReadsInside ∧
        (s.writeAll writes).ReplacesOnly) := by
  obtain ⟨members, hmembers, hget⟩ := get?_of_load h
  have hiff : s.Valid ↔ ValidDocument K text := by
    constructor
    · intro hvalid
      refine ⟨members, hmembers, fun name v t hv ht => hvalid name t ?_⟩
      rw [hget, hv]
      exact ht
    · rintro ⟨members', hmembers', hvalid⟩ name t ht
      obtain rfl := hmembers.unique hmembers'
      rw [hget] at ht
      obtain ⟨v, hv, ht⟩ := Option.bind_eq_some_iff.mp ht
      exact hvalid name v t hv ht
  refine ⟨hiff, fun hdocument writes => ?_⟩
  have hvalid := (hiff.mpr hdocument).writeAll writes
  exact ⟨hvalid, hvalid.readsInside, hvalid.replacesOnly⟩

namespace Ports

/-- What two ports have caught. -/
def text : String :=
  "\x7b\"tables\":\x7b\"catch\":\x7b\"coordinates\":[\"port\"],\"rows\":" ++
  "[\x7b\"coords\":[\"cork\"]\x7d,\x7b\"coords\":[\"vigo\"]\x7d]\x7d\x7d," ++
  "\"dimensions\":\x7b\x7d\x7d"

def catches : StoredTable Float :=
  ⟨["port"], [⟨["cork"], none⟩, ⟨["vigo"], none⟩]⟩

def store : Store Float :=
  ⟨⟨[("catch", catches)]⟩, .empty⟩

theorem load_text : load text = .ok store := by
  cbv

theorem valid_store : store.Valid := by
  intro name t ht
  have hmem := SortedMap.mem_entries_of_get? ht
  obtain ⟨-, rfl⟩ := Prod.mk.inj (List.mem_singleton.mp hmem)
  refine ⟨by decide, ?_⟩
  unfold DistinctRows
  decide

/-- The document of the two ports is valid, and so is the store that is loaded from it. -/
theorem load_valid_iff_ports :
    load text = .ok store ∧ ValidDocument Float text ∧
      ∀ writes : List (Write Float), (store.writeAll writes).ReplacesOnly :=
  have h := load_valid_iff load_text
  ⟨load_text, h.1.mp valid_store, fun writes => (h.2 (h.1.mp valid_store) writes).2.2⟩

/-- A port that is listed twice, and a row without a port. -/
def unchecked : String :=
  "\x7b\"tables\":\x7b\"catch\":\x7b\"coordinates\":[\"port\"],\"rows\":" ++
  "[\x7b\"coords\":[\"cork\"]\x7d,\x7b\"coords\":[\"cork\"]\x7d,\x7b\"coords\":[]\x7d]\x7d\x7d," ++
  "\"dimensions\":\x7b\x7d\x7d"

def unsound : Store Float :=
  ⟨⟨[("catch", ⟨["port"], [⟨["cork"], none⟩, ⟨["cork"], none⟩, ⟨[], none⟩]⟩)]⟩, .empty⟩

/-- The loader takes a row that is too short and one that is repeated.  The filter that names the
port looks past the end of the short row, and a new value of `cork` reaches only one of two rows. -/
theorem load_takes_rows_unchecked :
    load unchecked = .ok unsound ∧ ¬ unsound.Valid ∧ ¬ unsound.ReadsInside ∧
      ¬ unsound.ReplacesOnly := by
  refine ⟨by cbv, fun hvalid => ?_, fun hreads => ?_, fun hreplaces => ?_⟩
  · exact absurd ((hvalid "catch" _ rfl).lengths ⟨[], none⟩ (by simp)) (by decide)
  · obtain ⟨restrictions, hrestrictions, hinside, -⟩ :=
      hreads "catch" _ ⟨[("port", ["cork"])]⟩ rfl (by decide)
    cases hrestrictions
    exact absurd (hinside ⟨[], none⟩ (by simp) (0, ["cork"]) (by simp)) (by decide)
  · obtain ⟨rows, hput, hrows⟩ := hreplaces "catch" _ [⟨["cork"], some 5⟩] rfl (by simp)
    have hsame := (hrows 0 ⟨["cork"], none⟩ rfl).2 1 _ (hrows 1 ⟨["cork"], none⟩ rfl).1
      (StoredTable.coords_lastWritten _ _)
    exact absurd hsame (by decide)

end Ports

end Store

end CoupledModels
