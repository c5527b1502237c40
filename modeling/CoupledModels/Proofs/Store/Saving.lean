import CoupledModels.Proofs.Number.Compact
import CoupledModels.Proofs.Store.Validity

/-!
# Saving and loading

A store that has been saved is loaded as it was, up to values that are not finite: these are written
as undefined ones.  Names and items are texts like any other, so they may hold quotes, backslashes
and control characters.

The text of a store is taken apart in two steps.  The reader gives back the document that was
written (`Json.parse?_pretty`), and from a document of a store come its tables and dimensions.
-/

namespace CoupledModels

/-! ## Values that are kept -/

section Finite

variable {K : Type} [Scalar K]

/-- The row with its value if that is finite, and an undefined one otherwise. -/
def Row.finite (r : Row K) : Row K :=
  ⟨r.coords, r.value.filter Scalar.isFinite⟩

/-- The table with finite values only. -/
def StoredTable.finite (t : StoredTable K) : StoredTable K :=
  ⟨t.coordinates, t.rows.map Row.finite⟩

/-- The store with finite values only. -/
def Store.finite (s : Store K) : Store K :=
  ⟨s.tables.mapEntries fun _ t => t.finite, s.dimensions⟩

end Finite

namespace Store

/-! ## Sorted stores -/

section Sorted

variable {K : Type} {s s' : Store K}

/-- Tables and dimensions are in the order of their names. -/
structure Sorted (s : Store K) : Prop where
  tables : s.tables.Ascending
  dimensions : s.dimensions.Ascending

theorem sorted_empty : (empty : Store K).Sorted :=
  ⟨SortedMap.ascending_empty, SortedMap.ascending_empty⟩

namespace Sorted

theorem createTable (h : s.Sorted) {name : String} {coordinates : List String}
    (hcreate : s.createTable name coordinates = .ok s') : s'.Sorted := by
  rcases createTable_cases hcreate with rfl | rfl
  · exact h
  · exact ⟨h.tables.insert _ _, h.dimensions⟩

theorem putRows (h : s.Sorted) (name : String) (rows : List (Row K)) (mode : WriteMode) :
    (s.putRows name rows mode).2.Sorted := by
  rcases putRows_cases s name rows mode with heq | ⟨t, -, heq⟩
  · rwa [heq]
  · rw [heq]
    exact ⟨h.tables.insert _ _, h.dimensions⟩

theorem write (h : s.Sorted) (w : Write K) : (s.write w).Sorted := by
  cases w with
  | createTable name coordinates =>
      unfold Store.write
      dsimp only
      split
      · rename_i s' hcreate
        exact h.createTable hcreate
      · exact h
  | putRows name rows mode => exact h.putRows name rows mode
  | putItems dimension items => exact ⟨h.tables, h.dimensions.insert dimension items⟩

theorem writeAll (h : s.Sorted) (writes : List (Write K)) : (s.writeAll writes).Sorted := by
  induction writes generalizing s with
  | nil => exact h
  | cons w writes ih => exact ih (h.write w)

end Sorted

theorem ascending_of_map? {α : Type} {item? : Json → Option α} {v : Json} {m : SortedMap String α}
    (h : map? item? v = some m) : m.Ascending := by
  cases v with
  | object members =>
      obtain ⟨es, -, rfl⟩ := Option.map_eq_some_iff.mp h
      exact SortedMap.ascending_ofList es
  | _ => cases h

/-- A loaded store is sorted, in whatever order the members of the document stand. -/
theorem sorted_of_load [StoredNumber K] {text : String} (h : load text = .ok s) : s.Sorted := by
  unfold load at h
  cases hs : (Json.parse? text).bind (ofDocument? : Json → Option (Store K)) with
  | none => simp [hs] at h
  | some s' =>
      obtain rfl : s' = s := by simpa [hs] using h
      obtain ⟨v, -, hdocument⟩ := Option.bind_eq_some_iff.mp hs
      obtain ⟨⟨tables, dimensions⟩, -, hdocument⟩ := Option.bind_eq_some_iff.mp hdocument
      obtain ⟨ts, hts, hdocument⟩ := Option.bind_eq_some_iff.mp hdocument
      obtain ⟨ds, hds, heq⟩ := Option.bind_eq_some_iff.mp hdocument
      cases heq
      exact ⟨ascending_of_map? hts, ascending_of_map? hds⟩

/-- Every store is sorted that is built up from nothing. -/
theorem sorted_writeAll_empty (writes : List (Write K)) :
    ((empty : Store K).writeAll writes).Sorted :=
  sorted_empty.writeAll writes

end Sorted

/-! ## The document of a store has a text -/

theorem written_texts (ss : List String) : Json.Written (Json.texts ss) := by
  refine .array fun v hv => ?_
  obtain ⟨s, -, rfl⟩ := List.mem_map.mp hv
  exact .text s

theorem written_valueDocument (v : Option Float) : Json.Written (valueDocument v) := by
  unfold valueDocument
  cases hn : v.bind StoredNumber.write? with
  | none => exact .null
  | some n =>
      obtain ⟨x, -, hx⟩ := Option.bind_eq_some_iff.mp hn
      exact .number (isNumeral_of_write? hx)

theorem written_rowDocument (r : Row Float) : Json.Written (rowDocument r) := by
  refine .object fun m hm => ?_
  simp only [List.mem_cons, List.not_mem_nil, or_false] at hm
  rcases hm with rfl | rfl
  · exact written_texts r.coords
  · exact written_valueDocument r.value

theorem written_tableDocument (t : StoredTable Float) : Json.Written (tableDocument t) := by
  refine .object fun m hm => ?_
  simp only [List.mem_cons, List.not_mem_nil, or_false] at hm
  rcases hm with rfl | rfl
  · exact written_texts t.coordinates
  · refine .array fun v hv => ?_
    obtain ⟨r, -, rfl⟩ := List.mem_map.mp hv
    exact written_rowDocument r

theorem written_document (s : Store Float) : Json.Written s.document := by
  refine .object fun m hm => ?_
  simp only [List.mem_cons, List.not_mem_nil, or_false] at hm
  rcases hm with rfl | rfl
  · refine .object fun m hm => ?_
    obtain ⟨⟨name, t⟩, -, rfl⟩ := List.mem_map.mp hm
    exact written_tableDocument t
  · refine .object fun m hm => ?_
    obtain ⟨⟨name, items⟩, -, rfl⟩ := List.mem_map.mp hm
    exact written_texts items

/-! ## Taking the document apart -/

section Reading

variable {α β : Type} {item? : Json → Option α} {write : β → Json} {read : β → α}

theorem mapM_eq_map {γ : Type} {f : γ → Option α} {g : γ → α} {cs : List γ}
    (h : ∀ c ∈ cs, f c = some (g c)) : cs.mapM f = some (cs.map g) := by
  induction cs with
  | nil => rfl
  | cons c cs ih =>
      obtain ⟨hc, hcs⟩ := List.forall_mem_cons.mp h
      simp [hc, ih hcs]

/-- An array of documents is read item by item. -/
theorem list?_array {bs : List β} (h : ∀ b ∈ bs, item? (write b) = some (read b)) :
    list? item? (.array (bs.map write)) = some (bs.map read) := by
  rw [list?, List.mapM_map]
  exact mapM_eq_map h

theorem list?_texts (ss : List String) : list? text? (Json.texts ss) = some ss := by
  have h : list? text? (.array (ss.map Json.text)) = some (ss.map id) :=
    list?_array fun _ _ => rfl
  rwa [List.map_id] at h

/-- The object of a map, with one member for each key. -/
def objectOf (write : β → Json) (m : SortedMap String β) : Json :=
  .object (m.entries.map fun e => (e.1, write e.2))

/-- An object of documents is read member by member, and its names are in order already. -/
theorem map?_object {m : SortedMap String β} (hm : m.Ascending)
    (h : ∀ b ∈ m.values, item? (write b) = some (read b)) :
    map? item? (objectOf write m) = some (m.mapEntries fun _ b => read b) := by
  have hmembers : (m.entries.map fun e => (e.1, write e.2)).mapM
      (fun e : String × Json => (item? e.2).map fun a => (e.1, a)) =
        some (m.mapEntries fun _ b => read b).entries := by
    rw [List.mapM_map]
    refine mapM_eq_map fun e he => ?_
    simp only [Function.comp_apply, h e.2 (List.mem_map_of_mem he), Option.map_some]
  rw [objectOf, map?]
  simp only [hmembers, Option.map_some, SortedMap.ofList_entries (hm.mapEntries _)]

end Reading

/-- The numbers of a row read back as they were written. -/
def RowReadsBack (r : Row Float) : Prop :=
  ∀ x ∈ r.value, ∀ n ∈ StoredNumber.write? x, StoredNumber.read? n = some x

/-- The numbers of a store read back as they were written. -/
def NumbersReadBack (s : Store Float) : Prop :=
  ∀ t ∈ s.tables.values, ∀ r ∈ t.rows, RowReadsBack r

theorem value?_valueDocument {r : Row Float} (h : RowReadsBack r) :
    value? (some (valueDocument r.value)) = some r.finite.value := by
  obtain ⟨coords, v⟩ := r
  cases v with
  | none => rfl
  | some x =>
      have hfinite : (Row.finite ⟨coords, some x⟩).value =
          if Scalar.isFinite x then some x else none := rfl
      rw [hfinite, ← isSome_write?, valueDocument, Option.bind_some]
      cases hn : StoredNumber.write? x with
      | none => rfl
      | some n =>
          have hread := h x rfl n hn
          simp [value?, hread]

theorem row?_rowDocument {r : Row Float} (h : RowReadsBack r) :
    row? (rowDocument r) = some r.finite := by
  have hpair : pair? "coords" "value" (rowDocument r) =
      some (Json.texts r.coords, some (valueDocument r.value)) := rfl
  simp only [row?, hpair, list?_texts, value?_valueDocument h, Option.bind_eq_bind,
    Option.bind_some, pure]
  rfl

theorem table?_tableDocument {t : StoredTable Float} (h : ∀ r ∈ t.rows, RowReadsBack r) :
    table? (tableDocument t) = some t.finite := by
  have hboth : bothOf? "coordinates" "rows" (tableDocument t) =
      some (Json.texts t.coordinates, .array (t.rows.map rowDocument)) := rfl
  have hrows : list? row? (.array (t.rows.map rowDocument)) = some (t.rows.map Row.finite) :=
    list?_array fun r hr => row?_rowDocument (h r hr)
  simp only [table?, hboth, list?_texts, hrows, Option.bind_eq_bind, Option.bind_some, pure]
  rfl

/-- From the document of a store come its tables and dimensions. -/
theorem ofDocument?_document {s : Store Float} (hsorted : s.Sorted)
    (hnumbers : s.NumbersReadBack) : ofDocument? s.document = some s.finite := by
  have hboth : bothOf? "tables" "dimensions" s.document =
      some (objectOf tableDocument s.tables, objectOf Json.texts s.dimensions) := rfl
  have hts := map?_object hsorted.tables fun t ht => table?_tableDocument (hnumbers t ht)
  have hds := map?_object hsorted.dimensions fun items _ => list?_texts items
  simp only [ofDocument?, hboth, hts, hds, Option.bind_eq_bind, Option.bind_some, pure,
    SortedMap.mapEntries_id]
  rfl

/-- A saved store is loaded as it was, but for values that are not finite. -/
theorem load_save {s : Store Float} (hsorted : s.Sorted) (hnumbers : s.NumbersReadBack) :
    load s.save = .ok s.finite := by
  rw [load, save, Json.parse?_pretty (written_document s), Option.bind_some,
    ofDocument?_document hsorted hnumbers]

namespace Soundings

/-- Depths along a shore.  A sounding that failed has no finite value. -/
def depths : StoredTable Float :=
  ⟨["pier \"north\"", "c:\\tide"],
    [⟨["\x00", "漢"], some 1.5⟩, ⟨["\t", ""], some (0.0 / 0.0)⟩, ⟨["\x7b", "\r\n"], some (-1.0 / 0.0)⟩,
      ⟨["\x7f", "😀"], some 0.1⟩, ⟨["\x1b", "/"], some (-0.0)⟩, ⟨["null", "1"], some 1e-7⟩,
      ⟨["null", "2"], none⟩]⟩

def store : Store Float :=
  ⟨⟨[("\"", ⟨[], []⟩), ("depth", depths)]⟩, ⟨[("", []), ("été", ["\\", "\\\\", "\x08"])]⟩⟩

/-- The depths without the soundings that failed. -/
def kept : StoredTable Float :=
  ⟨depths.coordinates,
    [⟨["\x00", "漢"], some 1.5⟩, ⟨["\t", ""], none⟩, ⟨["\x7b", "\r\n"], none⟩,
      ⟨["\x7f", "😀"], some 0.1⟩, ⟨["\x1b", "/"], some (-0.0)⟩, ⟨["null", "1"], some 1e-7⟩,
      ⟨["null", "2"], none⟩]⟩

theorem sorted_store : store.Sorted :=
  ⟨by decide, by decide⟩

theorem numbersReadBack_store : store.NumbersReadBack := by
  have hdepths : ∀ r ∈ depths.rows, ∀ x ∈ r.value, ∀ n ∈ StoredNumber.write? x,
      StoredNumber.read? n = some x := by
    decide +kernel
  intro t ht
  have htables : t = ⟨[], []⟩ ∨ t = depths := by simpa [store, SortedMap.values] using ht
  rcases htables with rfl | rfl
  · exact nofun
  · exact hdepths

/-- Names with quotes and control characters come back, and failed soundings are undefined. -/
theorem load_save_soundings :
    store.Sorted ∧ store.NumbersReadBack ∧
      load store.save =
        .ok ⟨⟨[("\"", ⟨[], []⟩), ("depth", kept)]⟩, store.dimensions⟩ :=
  ⟨sorted_store, numbersReadBack_store, load_save sorted_store numbersReadBack_store⟩

end Soundings

end Store

end CoupledModels
