import CoupledModels.Catalog.Build
import CoupledModels.Proofs.Sets.Filtering

/-!
# Resolved variables

What is known of a variable once it has been resolved against its table.  Every coordinate of the
table plays one part: the sides are those that the declaration names, inter coordinates split the
model, and the intra coordinate, if there is one, is all that remains.  The shape counts the items
of the sides.
-/

namespace CoupledModels

/-- The declaration uses a dimension for its rows or its columns. -/
def VariableDeclaration.isSide (v : VariableDeclaration) (d : String) : Bool :=
  decide (v.rows.dim? = some d ∨ v.cols.dim? = some d)

/-- An error that a model makes no sense, however it is written down. -/
def ModelError.IsConceptual (e : ModelError) : Prop :=
  ∃ cause, e = .conceptual cause

namespace Variable

variable {v : VariableDeclaration} {t : TableDeclaration} {sets : Registry} {r : Variable}

/-- What resolution makes of a declaration. -/
structure Resolves (v : VariableDeclaration) (t : TableDeclaration) (sets : Registry)
    (r : Variable) : Prop where
  symbol : r.symbol = v.symbol
  table : r.table = t.name
  kind : r.kind = t.kind
  value : r.value = v.value
  rows : r.roles.rows = v.rows.dim?
  cols : r.roles.cols = v.cols.dim?
  intra : r.roles.intra.toList = t.coordinates.filter fun d => !v.isSide d && !sets.isSplitting d
  inter : r.roles.inter = t.coordinates.filter fun d => !v.isSide d && sets.isSplitting d
  sides : ∀ d, r.roles.rows = some d ∨ r.roles.cols = some d → d ∈ t.coordinates
  distinct : t.kind.isConstant = false → ∀ d, r.roles.rows = some d → r.roles.cols ≠ some d
  unsplit : t.kind.has .endogenous = true →
    ∀ d, r.roles.rows = some d ∨ r.roles.cols = some d → sets.isSplitting d = false
  items : ∀ d ∈ t.coordinates, ∃ dim is, sets.find? d = some dim ∧ r.items.get? d = some is ∧
    is.Sublist dim.items
  nonempty : ∀ d ∈ t.coordinates, r.itemsOf d ≠ []
  shape : r.shape = ⟨(Catalog.sideItems r.rowItems?).length, (Catalog.sideItems r.colItems?).length⟩

/-! ## Parts of coordinates -/

/-- What the part of one more coordinate adds. -/
theorem assignRole_ok {d : String} {r r' : Roles} (h : assignRole v t sets r d = .ok r') :
    r'.rows = (if v.rows.dim? = some d then some d else r.rows) ∧
    r'.cols = (if v.cols.dim? = some d then some d else r.cols) ∧
    r'.intra.toList =
      r.intra.toList ++ [d].filter (fun d => !v.isSide d && !sets.isSplitting d) ∧
    r'.inter = r.inter ++ [d].filter fun d => !v.isSide d && sets.isSplitting d := by
  unfold assignRole at h
  split at h
  · cases h
  rename_i dim hdim
  have hsplits : sets.isSplitting d = dim.splits := by rw [Registry.isSplitting, hdim]
  simp only at h
  split at h
  · rename_i hside
    cases h
    have hd : v.isSide d = true := decide_eq_true hside
    simp [hd]
  rename_i hside
  have hd : v.isSide d = false := decide_eq_false hside
  obtain ⟨hrows, hcols⟩ := not_or.mp hside
  rw [if_neg hrows, if_neg hcols]
  split at h
  · rename_i hdim
    cases h
    simp [hd, hsplits, hdim]
  rename_i hdim
  split at h
  · cases h
  · rename_i hnone
    cases h
    simp [hd, hsplits, hdim, hnone]

/-- What the parts of some more coordinates add. -/
theorem assignRoles_ok {ds : List String} {r r' : Roles}
    (h : ds.foldlM (assignRole v t sets) r = .ok r') :
    r'.rows = (if v.rows.dim?.any ds.contains then v.rows.dim? else r.rows) ∧
    r'.cols = (if v.cols.dim?.any ds.contains then v.cols.dim? else r.cols) ∧
    r'.intra.toList =
      r.intra.toList ++ ds.filter (fun d => !v.isSide d && !sets.isSplitting d) ∧
    r'.inter = r.inter ++ ds.filter fun d => !v.isSide d && sets.isSplitting d := by
  have hside : ∀ (side old : Option String) (d : String) (ds : List String),
      (if side.any ds.contains then side else if side = some d then some d else old) =
        if side.any (d :: ds).contains then side else old := by
    intro side old d ds
    cases side with
    | none => simp
    | some x =>
        by_cases hx : x = d
        · simp [hx]
        · simp [hx]
  have hnil : ∀ side old : Option String,
      (if side.any ([] : List String).contains then side else old) = old := by
    intro side old
    cases side <;> rfl
  induction ds generalizing r with
  | nil =>
      cases h
      simp [hnil]
  | cons d ds ih =>
      rw [List.foldlM_cons] at h
      obtain ⟨r₁, hstep, hrest⟩ := exists_of_bind_eq_ok h
      obtain ⟨hrows, hcols, hintra, hinter⟩ := assignRole_ok hstep
      obtain ⟨hrows', hcols', hintra', hinter'⟩ := ih hrest
      refine ⟨?_, ?_, ?_, ?_⟩
      · rw [hrows', hrows, hside]
      · rw [hcols', hcols, hside]
      · rw [hintra', hintra, List.append_assoc, ← List.filter_append, List.singleton_append]
      · rw [hinter', hinter, List.append_assoc, ← List.filter_append, List.singleton_append]

/-- The sides that are found are those of the declaration if these are coordinates. -/
theorem sides_of_assignRoles {roles : Roles}
    (hsides : ∀ d, v.rows.dim? = some d ∨ v.cols.dim? = some d → d ∈ t.coordinates)
    (h : t.coordinates.foldlM (assignRole v t sets) Roles.empty = .ok roles) :
    roles.rows = v.rows.dim? ∧ roles.cols = v.cols.dim? := by
  have hside : ∀ side : Side, (∀ d, side.dim? = some d → d ∈ t.coordinates) →
      (if side.dim?.any t.coordinates.contains then side.dim? else none) = side.dim? := by
    intro side hmem
    cases hd : side.dim? with
    | none => rfl
    | some d => simp [hmem d hd]
  obtain ⟨hrows, hcols, -, -⟩ := assignRoles_ok h
  exact ⟨hrows.trans (hside v.rows fun d hd => hsides d (.inl hd)),
    hcols.trans (hside v.cols fun d hd => hsides d (.inr hd))⟩

/-! ## Resolution -/

/-- A declaration that passes its check names coordinates of the table, and two different ones unless
the table is constant. -/
theorem checkDeclaration_ok (h : checkDeclaration v t sets = .ok ()) :
    (∀ d, v.rows.dim? = some d ∨ v.cols.dim? = some d → d ∈ t.coordinates) ∧
    (t.kind.isConstant = false → ∀ d, v.rows.dim? = some d → v.cols.dim? ≠ some d) := by
  have hside : ∀ side, checkSide side v t sets = .ok () →
      ∀ d, side.dim? = some d → d ∈ t.coordinates := by
    intro side hcheck d hd
    unfold checkSide at hcheck
    rw [hd] at hcheck
    simp only at hcheck
    split at hcheck
    · cases hcheck
    split at hcheck
    · cases hcheck
    · rename_i hcontains
      simpa using hcontains
  unfold checkDeclaration at h
  obtain ⟨_, hrows, h⟩ := exists_of_bind_eq_ok h
  obtain ⟨_, hcols, h⟩ := exists_of_bind_eq_ok h
  refine ⟨fun d hd => ?_, fun hkind d hd heq => ?_⟩
  · rcases hd with hd | hd
    · exact hside v.rows hrows d hd
    · exact hside v.cols hcols d hd
  · have hsame : v.rows = v.cols := by
      cases hr : v.rows with
      | one => rw [hr] at hd; cases hd
      | dim x =>
          cases hc : v.cols with
          | one => rw [hc] at heq; cases heq
          | dim y =>
              rw [hr] at hd
              rw [hc] at heq
              exact congrArg Side.dim (Option.some.inj (hd.trans heq.symm))
    have hthrow : v.rows.dim?.isSome = true ∧ v.rows = v.cols ∧ (!t.kind.isConstant) = true :=
      ⟨by rw [hd]; rfl, hsame, by rw [hkind]; rfl⟩
    rw [if_pos hthrow] at h
    cases h

/-- A coordinate has the items that its filter accepts, unless there are none. -/
theorem givesAccepted_coordinateItems {d : String} {dim : Dimension}
    (hdim : sets.find? d = some dim) :
    dim.GivesAccepted (v.filters.get? d) (fun e => ¬ e.IsConceptual) (coordinateItems v sets d) := by
  have hget : sets.get d = .ok dim := by rw [Registry.get, hdim]
  unfold coordinateItems
  rw [hget]
  change dim.GivesAccepted _ _ (if dim.items.isEmpty = true then _ else _)
  split
  · rename_i hempty
    have hnone : dim.accepted (v.filters.get? d) = [] := by
      simp [Dimension.accepted, List.isEmpty_iff.mp hempty]
    refine ⟨?_, hnone⟩
    rintro ⟨cause, ⟨⟩⟩
  · rename_i hitems
    have hne : dim.items ≠ [] := fun hnil => hitems (List.isEmpty_iff.mpr hnil)
    cases hfilter : v.filters.get? d with
    | none => exact ⟨dim.accepted_none.symm, hne⟩
    | some f =>
        dsimp only
        split
        · rename_i hall
          exact ⟨(Dimension.accepted_of_isEmpty hall).symm, hne⟩
        · refine (dim.givesAccepted_filteredItems f).mono (fun _ his => his) fun e he => ⟨?_, he.2⟩
          obtain ⟨cause, rfl⟩ := he.1
          rintro ⟨cause', ⟨⟩⟩

/-- The items of a coordinate are those that its filter accepts, and there are some. -/
theorem coordinateItems_ok {d : String} {is : List String}
    (h : coordinateItems v sets d = .ok is) :
    ∃ dim, sets.find? d = some dim ∧ is = dim.accepted (v.filters.get? d) ∧ is ≠ [] := by
  cases hdim : sets.find? d with
  | none =>
      unfold coordinateItems Registry.get at h
      rw [hdim] at h
      cases h
  | some dim => exact ⟨dim, rfl, (givesAccepted_coordinateItems hdim).value h⟩

/-- The number of rows or columns that a side gives to the shape. -/
def extent (items : SortedMap String (List String)) (side : Option String) : Nat :=
  match side with
  | some d => ((items.get? d).getD []).length
  | none => 1

/-- The shape counts the items of a side, and a side without items as one. -/
theorem length_sideItems {items : SortedMap String (List String)} {side : Option String}
    (h : ∀ d, side = some d → ∃ is, items.get? d = some is) :
    (Catalog.sideItems (side.bind items.get?)).length = extent items side := by
  cases side with
  | none => rfl
  | some d =>
      obtain ⟨is, his⟩ := h d rfl
      simp [Catalog.sideItems, extent, his]

/-- The last steps of a resolution put its parts together. -/
theorem resolve_ok (h : resolve v t sets = .ok r) :
    ∃ roles entries aggregation,
      checkDeclaration v t sets = .ok () ∧
      t.coordinates.foldlM (assignRole v t sets) Roles.empty = .ok roles ∧
      (t.kind.has .endogenous = true →
        (roles.rows.toList ++ roles.cols.toList).find? sets.isSplitting = none) ∧
      t.coordinates.mapM (fun d => do return (d, ← coordinateItems v sets d)) = .ok entries ∧
      (∀ d d', roles.rows = some d → roles.cols = some d' →
        aggregationMap d (((SortedMap.ofList entries).get? d).getD []) d'
          (((SortedMap.ofList entries).get? d').getD []) sets = .ok aggregation) ∧
      r = ⟨v.symbol, t.name, t.kind, t.integer, v.value, roles, SortedMap.ofList entries,
        ⟨extent (SortedMap.ofList entries) roles.rows, extent (SortedMap.ofList entries) roles.cols⟩,
        aggregation⟩ := by
  unfold resolve at h
  obtain ⟨_, hcheck, h⟩ := exists_of_bind_eq_ok h
  obtain ⟨roles, hroles, h⟩ := exists_of_bind_eq_ok h
  have hunsplit : t.kind.has .endogenous = true →
      (roles.rows.toList ++ roles.cols.toList).find? sets.isSplitting = none := by
    intro hkind
    cases hfind : (roles.rows.toList ++ roles.cols.toList).find? sets.isSplitting with
    | none => rfl
    | some d =>
        rw [if_pos hkind, hfind] at h
        cases h
  dsimp only at h
  by_cases hkind : t.kind.has .endogenous = true
  on_goal 1 => rw [if_pos hkind, hunsplit hkind] at h
  on_goal 2 => rw [if_neg hkind] at h
  all_goals
    obtain ⟨entries, hentries, h⟩ := exists_of_bind_eq_ok h
    split at h
    all_goals
      obtain ⟨aggregation, haggregation, h⟩ := exists_of_bind_eq_ok h
      refine ⟨roles, entries, aggregation, ok_of_mapError hcheck, hroles, hunsplit, hentries, ?_,
        (Except.ok.inj h).symm⟩
      intro d d' hd hd'
      simp_all

/-- What a declaration is resolved to. -/
theorem resolves_of_resolve (h : resolve v t sets = .ok r) : Resolves v t sets r := by
  obtain ⟨roles, entries, aggregation, hcheck, hroles, hunsplit, hentries, -, rfl⟩ := resolve_ok h
  obtain ⟨hcoordinates, hdistinct⟩ := checkDeclaration_ok hcheck
  obtain ⟨-, -, hintra, hinter⟩ := assignRoles_ok hroles
  obtain ⟨hrows, hcols⟩ := sides_of_assignRoles hcoordinates hroles
  have hsides : ∀ d, roles.rows = some d ∨ roles.cols = some d → d ∈ t.coordinates := by
    rw [hrows, hcols]
    exact hcoordinates
  have hitems : ∀ d ∈ t.coordinates, ∃ dim is, sets.find? d = some dim ∧
      (SortedMap.ofList entries).get? d = some is ∧ is.Sublist dim.items ∧ is ≠ [] := by
    intro d hd
    obtain ⟨is, his, hget⟩ := SortedMap.get?_ofList_of_mapM hentries hd
    obtain ⟨dim, hdim, haccepted, hne⟩ := coordinateItems_ok his
    exact ⟨dim, is, hdim, hget, haccepted ▸ List.filter_sublist, hne⟩
  have hlength : ∀ side : Option String, (∀ d, side = some d → d ∈ t.coordinates) →
      extent (SortedMap.ofList entries) side =
        (Catalog.sideItems (side.bind (SortedMap.ofList entries).get?)).length := by
    intro side hmem
    refine (length_sideItems fun d hd => ?_).symm
    obtain ⟨dim, is, -, his, -⟩ := hitems d (hmem d hd)
    exact ⟨is, his⟩
  exact {
    symbol := rfl
    table := rfl
    kind := rfl
    value := rfl
    rows := hrows
    cols := hcols
    intra := hintra
    inter := hinter
    sides := hsides
    distinct := fun hkind d hd heq => hdistinct hkind d (hrows ▸ hd) (hcols ▸ heq)
    unsplit := fun hkind d hd => by
      have hside : roles.rows = some d ∨ roles.cols = some d := hd
      have hmem : d ∈ roles.rows.toList ++ roles.cols.toList := by
        rcases hside with hd | hd <;> simp [hd]
      simpa using List.find?_eq_none.mp (hunsplit hkind) d hmem
    items := fun d hd => by
      obtain ⟨dim, is, hdim, his, hsublist, -⟩ := hitems d hd
      exact ⟨dim, is, hdim, his, hsublist⟩
    nonempty := fun d hd => by
      obtain ⟨_, is, -, his, -, hne⟩ := hitems d hd
      rw [itemsOf, his]
      exact hne
    shape := congrArg₂ Shape.mk (hlength _ fun d hd => hsides d (.inl hd))
      (hlength _ fun d hd => hsides d (.inr hd)) }

/-! ## Coordinates of a resolved variable -/

namespace Resolves

variable (h : Resolves v t sets r) {d : String}
include h

theorem isSide (hd : r.roles.rows = some d ∨ r.roles.cols = some d) : v.isSide d = true := by
  rw [h.rows, h.cols] at hd
  exact decide_eq_true hd

theorem of_intra (hd : r.roles.intra = some d) :
    d ∈ t.coordinates ∧ v.isSide d = false ∧ sets.isSplitting d = false := by
  have hmem : d ∈ r.roles.intra.toList := by simp [hd]
  rw [h.intra, List.mem_filter] at hmem
  simpa using hmem

theorem of_inter (hd : d ∈ r.roles.inter) :
    d ∈ t.coordinates ∧ v.isSide d = false ∧ sets.isSplitting d = true := by
  rw [h.inter, List.mem_filter] at hd
  simpa using hd

theorem not_side_of_intra (hd : r.roles.intra = some d) :
    ¬(r.roles.rows = some d ∨ r.roles.cols = some d) := by
  intro hside
  simpa [h.isSide hside] using (h.of_intra hd).2.1

theorem not_side_of_inter (hd : d ∈ r.roles.inter) :
    ¬(r.roles.rows = some d ∨ r.roles.cols = some d) := by
  intro hside
  simpa [h.isSide hside] using (h.of_inter hd).2.1

theorem intra_ne_of_inter (hd : d ∈ r.roles.inter) : r.roles.intra ≠ some d := by
  intro hintra
  simpa [(h.of_inter hd).2.2] using (h.of_intra hintra).2.2

/-- Every coordinate plays a part. -/
theorem part_cases (hd : d ∈ t.coordinates) :
    (r.roles.rows = some d ∨ r.roles.cols = some d) ∨ r.roles.intra = some d ∨
      d ∈ r.roles.inter := by
  cases hside : v.isSide d with
  | true =>
      rw [h.rows, h.cols]
      exact .inl (of_decide_eq_true hside)
  | false =>
      cases hsplit : sets.isSplitting d with
      | true =>
          rw [h.inter]
          exact .inr (.inr (List.mem_filter.mpr ⟨hd, by simp [hside, hsplit]⟩))
      | false =>
          have hmem : d ∈ r.roles.intra.toList := by
            rw [h.intra]
            exact List.mem_filter.mpr ⟨hd, by simp [hside, hsplit]⟩
          exact .inr (.inl (Option.mem_toList.mp hmem))

/-- The parts are played by the coordinates, and by nothing else. -/
theorem mem_dims_iff : d ∈ r.roles.dims ↔ d ∈ t.coordinates := by
  have hparts : d ∈ r.roles.dims ↔
      (r.roles.rows = some d ∨ r.roles.cols = some d) ∨ r.roles.intra = some d ∨
        d ∈ r.roles.inter := by
    simp only [Roles.dims, List.mem_append, Option.mem_toList, or_assoc]
  rw [hparts]
  constructor
  · rintro (hside | hintra | hinter)
    · exact h.sides d hside
    · exact (h.of_intra hintra).1
    · exact (h.of_inter hinter).1
  · exact h.part_cases

theorem get?_items (hd : d ∈ t.coordinates) : r.items.get? d = some (r.itemsOf d) := by
  obtain ⟨_, is, -, his, -⟩ := h.items d hd
  rw [itemsOf, his]
  rfl

/-- Distinct items stay distinct if some of them are filtered out. -/
theorem nodup_itemsOf (hitems : ∀ dim ∈ sets.dims, dim.items.Nodup) (hd : d ∈ t.coordinates) :
    (r.itemsOf d).Nodup := by
  obtain ⟨dim, is, hfind, his, hsublist⟩ := h.items d hd
  rw [itemsOf, his, Option.getD_some]
  exact hsublist.nodup (hitems dim (List.mem_of_find?_eq_some hfind))

/-- The inter dimensions of a variable whose table is decided are all splitting coordinates. -/
theorem inter_eq_splitDims (hkind : t.kind.has .endogenous = true) :
    r.roles.inter = t.splitDims sets := by
  rw [h.inter, TableDeclaration.splitDims]
  refine List.filter_congr fun d _ => ?_
  cases hside : v.isSide d with
  | false => rw [Bool.not_false, Bool.true_and]
  | true =>
      have hsides : r.roles.rows = some d ∨ r.roles.cols = some d := by
        rw [h.rows, h.cols]
        exact of_decide_eq_true hside
      rw [h.unsplit hkind d hsides]
      rfl

end Resolves

end Variable

end CoupledModels
