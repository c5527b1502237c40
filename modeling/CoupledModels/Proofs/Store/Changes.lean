import CoupledModels.Proofs.Store.Tables

/-!
# Changes of a store

What a store has become if nothing has been written to it but values, and these to some rows only.
Tables, their coordinates and dimensions stay, and so does every row in its place; rows that are new
come after all others.  Such changes compose, and every write of values is one.
-/

namespace CoupledModels

variable {K : Type}

/-! ## One table -/

namespace StoredTable

variable {W W' : List String → Prop} {t t' t'' : StoredTable K}

/-- The rows of a table keep their places.  Those that are changed or new have values, and
coordinates that may be written to. -/
structure ChangesOnly (W : List String → Prop) (t t' : StoredTable K) : Prop where
  coordinates : t'.coordinates = t.coordinates
  kept : ∀ (k : Nat) (r : Row K), t.rows[k]? = some r →
    ∃ r', t'.rows[k]? = some r' ∧ r'.coords = r.coords ∧
      (r' = r ∨ r'.value.isSome = true ∧ W r.coords)
  added : ∀ (k : Nat) (r' : Row K), t.rows[k]? = none → t'.rows[k]? = some r' →
    r'.value.isSome = true ∧ W r'.coords

namespace ChangesOnly

theorem refl (W : List String → Prop) (t : StoredTable K) : t.ChangesOnly W t where
  coordinates := rfl
  kept := fun _ r hr => ⟨r, hr, rfl, .inl rfl⟩
  added := fun _ _ hnone hsome => by simp [hnone] at hsome

theorem mono (h : t.ChangesOnly W t') (hW : ∀ coords, W coords → W' coords) :
    t.ChangesOnly W' t' where
  coordinates := h.coordinates
  kept := by
    intro k r hr
    obtain ⟨r', hr', hcoords, hcase⟩ := h.kept k r hr
    exact ⟨r', hr', hcoords, hcase.imp_right fun hwritten => ⟨hwritten.1, hW _ hwritten.2⟩⟩
  added := fun k r' hnone hr' => (h.added k r' hnone hr').imp_right (hW _)

theorem trans (h : t.ChangesOnly W t') (h' : t'.ChangesOnly W t'') : t.ChangesOnly W t'' where
  coordinates := h'.coordinates.trans h.coordinates
  kept := by
    intro k r hr
    obtain ⟨r', hr', hcoords', hcase'⟩ := h.kept k r hr
    obtain ⟨r'', hr'', hcoords'', hcase''⟩ := h'.kept k r' hr'
    refine ⟨r'', hr'', hcoords''.trans hcoords', ?_⟩
    rcases hcase'' with rfl | ⟨hvalue, hwritten⟩
    · exact hcase'
    · exact .inr ⟨hvalue, hcoords' ▸ hwritten⟩
  added := by
    intro k r'' hnone hr''
    cases hr' : t'.rows[k]? with
    | none => exact h'.added k r'' hr' hr''
    | some r' =>
        obtain ⟨hvalue', hwritten'⟩ := h.added k r' hnone hr'
        obtain ⟨r, hr, hcoords, hcase⟩ := h'.kept k r' hr'
        obtain rfl : r'' = r := Option.some.inj (hr''.symm.trans hr)
        rcases hcase with rfl | ⟨hvalue, -⟩
        · exact ⟨hvalue', hwritten'⟩
        · exact ⟨hvalue, hcoords ▸ hwritten'⟩

/-- Values are written to rows that may be written to. -/
theorem of_writes {batch rows : List (Row K)} (h : Writes batch t.rows rows)
    (hbatch : ∀ r ∈ batch, r.value.isSome = true ∧ W r.coords) :
    t.ChangesOnly W { t with rows := rows } where
  coordinates := rfl
  kept := by
    intro k r hr
    obtain ⟨r', hr', hcoords, hcase⟩ := h.kept k r hr
    refine ⟨r', hr', hcoords, hcase.imp_right fun hmem => ?_⟩
    rw [← hcoords]
    exact hbatch r' hmem
  added := fun k r' hnone hr' => hbatch r' (h.added k r' hnone hr').1

/-- A row that may not be written to stays, and none with its coordinates is added. -/
theorem getElem?_iff (h : t.ChangesOnly W t') {r : Row K} (hr : ¬ W r.coords) (k : Nat) :
    t'.rows[k]? = some r ↔ t.rows[k]? = some r := by
  constructor
  · intro hr'
    cases hk : t.rows[k]? with
    | none => exact absurd (h.added k r hk hr').2 hr
    | some r₀ =>
        obtain ⟨r₁, hr₁, hcoords, hcase⟩ := h.kept k r₀ hk
        obtain rfl : r = r₁ := Option.some.inj (hr'.symm.trans hr₁)
        rcases hcase with rfl | ⟨-, hwritten⟩
        · rfl
        · exact absurd (hcoords ▸ hwritten) hr
  · intro hk
    obtain ⟨r₁, hr₁, -, rfl | ⟨-, hwritten⟩⟩ := h.kept k r hk
    · exact hr₁
    · exact absurd hwritten hr

end ChangesOnly

end StoredTable

/-! ## A store -/

/-- Writing under a key that there is adds no key. -/
theorem SortedMap.keys_insert_of_get? {κ α : Type} [Ord κ] [BEq κ] [LawfulBEq κ] [Std.TransOrd κ]
    [Std.LawfulEqOrd κ] {m : SortedMap κ α} (h : m.Ascending) {k : κ} {a : α}
    (hget : m.get? k = some a) (b : α) : (m.insert k b).keys = m.keys := by
  have hvalue : ∀ (es : List (κ × α)) (a b : α),
      (insertEntry k a es).map Prod.fst = (insertEntry k b es).map Prod.fst := by
    intro es a b
    induction es with
    | nil => rfl
    | cons e es ih =>
        unfold insertEntry
        split
        · rfl
        · rfl
        · rw [List.map_cons, List.map_cons, ih]
  calc (m.insert k b).keys = (m.insert k a).keys := hvalue m.entries b a
    _ = m.keys := by rw [h.insert_of_get? hget]

namespace Store

variable {W W' : String → List String → Prop} {s s' s'' : Store K}

/-- Tables and dimensions stay, and in each table nothing is changed or added but rows that may be
written to. -/
structure ChangesOnly (W : String → List String → Prop) (s s' : Store K) : Prop where
  names : s'.tableNames = s.tableNames
  dimensions : s'.dimensions = s.dimensions
  tables : ∀ (name : String) (t : StoredTable K), s.tables.get? name = some t →
    ∃ t', s'.tables.get? name = some t' ∧ t.ChangesOnly (W name) t'

namespace ChangesOnly

theorem refl (W : String → List String → Prop) (s : Store K) : s.ChangesOnly W s :=
  ⟨rfl, rfl, fun name t ht => ⟨t, ht, .refl (W name) t⟩⟩

theorem mono (h : s.ChangesOnly W s') (hW : ∀ name coords, W name coords → W' name coords) :
    s.ChangesOnly W' s' := by
  refine ⟨h.names, h.dimensions, fun name t ht => ?_⟩
  obtain ⟨t', ht', hchanges⟩ := h.tables name t ht
  exact ⟨t', ht', hchanges.mono (hW name)⟩

theorem trans (h : s.ChangesOnly W s') (h' : s'.ChangesOnly W s'') : s.ChangesOnly W s'' := by
  refine ⟨h'.names.trans h.names, h'.dimensions.trans h.dimensions, fun name t ht => ?_⟩
  obtain ⟨t', ht', hchanges⟩ := h.tables name t ht
  obtain ⟨t'', ht'', hchanges'⟩ := h'.tables name t' ht'
  exact ⟨t'', ht'', hchanges.trans hchanges'⟩

/-- A write of values to rows that may be written to, whether it is refused or not. -/
theorem putRows (hs : s.WellFormed) {name : String} {rows : List (Row K)} {mode : WriteMode}
    (hrows : ∀ r ∈ rows, r.value.isSome = true ∧ W name r.coords) :
    s.ChangesOnly W (s.putRows name rows mode).2 := by
  rcases putRows_cases s name rows mode with heq | ⟨t, ht, heq⟩
  · rw [heq]
    exact refl W s
  rw [heq]
  refine ⟨SortedMap.keys_insert_of_get? hs.ascending ht _, dimensions_withRows s name t _,
    fun other t' ht' => ?_⟩
  rw [get?_withRows]
  split
  · rename_i hname
    subst hname
    obtain rfl : t = t' := Option.some.inj (ht.symm.trans ht')
    exact ⟨_, rfl, .of_writes (StoredTable.writes_writeRows other mode t.rows rows) hrows⟩
  · exact ⟨t', ht', .refl (W other) t'⟩

end ChangesOnly

end Store

end CoupledModels
