import CoupledModels.Proofs.Variables.Resolution

/-!
# Resolution as a partition of the coordinates

A declaration that passes its checks fixes the sides of a variable.  All other coordinates of the
table are then inter or intra dimensions, by whether they split the model, and it remains to see that
there is at most one of the latter and that no decided table is split along a side.  A resolution that
fails for another reason has found a coordinate without items.
-/

namespace CoupledModels

/-! ## Checks in sequence -/

section Checks

variable {ε α : Type} {a : α}

theorem check_bind_eq_ok_iff {x : Except ε Unit} {f : Unit → Except ε α} :
    x >>= f = .ok a ↔ x = .ok () ∧ f () = .ok a := by
  cases x with
  | error e => simp [bind, Except.bind]
  | ok u => simp [bind, Except.bind]

theorem check_ite_eq_ok_iff {p : Prop} [Decidable p] {e : ε} {f : Unit → Except ε α} :
    (if p then throw e >>= f else f ()) = .ok a ↔ ¬ p ∧ f () = .ok a := by
  by_cases hp : p
  · simp [hp, bind, Except.bind, throw, throwThe, MonadExceptOf.throw]
  · simp [hp]

end Checks

namespace Variable

variable {v : VariableDeclaration} {t : TableDeclaration} {sets : Registry} {r : Variable}

/-- A declaration that fits its table: sides and filters are coordinates, the sides differ unless the
table is constant, only variables of constant tables have a literal, and coordinates are dimensions. -/
structure FitsTable (v : VariableDeclaration) (t : TableDeclaration) (sets : Registry) : Prop where
  sides : ∀ d, v.rows.dim? = some d ∨ v.cols.dim? = some d → d ∈ t.coordinates
  distinct : t.kind.isConstant = false → ∀ d, v.rows.dim? = some d → v.cols.dim? ≠ some d
  value : v.value.isSome = t.kind.isConstant
  filters : ∀ d ∈ v.filters.keys, d ∈ t.coordinates
  defined : ∀ d ∈ t.coordinates, ∃ dim, sets.find? d = some dim

theorem checkSide_ok_iff {side : Side} : checkSide side v t sets = .ok () ↔
    ∀ d, side.dim? = some d → sets.contains d = true ∧ d ∈ t.coordinates := by
  unfold checkSide
  cases side.dim? with
  | none => simp
  | some d => by_cases hdefined : sets.contains d = true <;> simp [hdefined]

theorem checkDeclaration_ok_iff : checkDeclaration v t sets = .ok () ↔
    checkSide v.rows v t sets = .ok () ∧ checkSide v.cols v t sets = .ok () ∧
      ¬(v.rows.dim?.isSome ∧ v.rows = v.cols ∧ !t.kind.isConstant) ∧
      ¬(t.kind.isConstant && v.value.isNone) ∧ ¬(!t.kind.isConstant && v.value.isSome) ∧
      ∀ d ∈ v.filters.keys, d ∈ t.coordinates := by
  unfold checkDeclaration
  refine check_bind_eq_ok_iff.trans (and_congr_right fun _ => ?_)
  refine check_bind_eq_ok_iff.trans (and_congr_right fun _ => ?_)
  refine check_ite_eq_ok_iff.trans (and_congr_right fun _ => ?_)
  refine check_ite_eq_ok_iff.trans (and_congr_right fun _ => ?_)
  refine check_ite_eq_ok_iff.trans (and_congr_right fun _ => ?_)
  have hfilters : v.filters.keys.find? (fun d => !t.coordinates.contains d) = none ↔
      ∀ d ∈ v.filters.keys, d ∈ t.coordinates := by simp
  rw [← hfilters]
  cases v.filters.keys.find? fun d => !t.coordinates.contains d with
  | none => exact iff_of_true rfl rfl
  | some d => exact iff_of_false (by rintro ⟨⟩) (by rintro ⟨⟩)

/-- The declarations that fit are those that pass their check on a table of known dimensions. -/
theorem fitsTable_iff : FitsTable v t sets ↔
    checkDeclaration v t sets = .ok () ∧ ∀ d ∈ t.coordinates, ∃ dim, sets.find? d = some dim := by
  have hcontains : ∀ d, sets.contains d = true ↔ ∃ dim, sets.find? d = some dim :=
    fun d => Option.isSome_iff_exists
  constructor
  · intro h
    -- the check looks for a side among the dimensions first, but coordinates are dimensions
    have hside : ∀ side : Side, (∀ d, side.dim? = some d → d ∈ t.coordinates) →
        checkSide side v t sets = .ok () := fun side hmem =>
      checkSide_ok_iff.mpr fun d hd => ⟨(hcontains d).mpr (h.defined d (hmem d hd)), hmem d hd⟩
    refine ⟨checkDeclaration_ok_iff.mpr ⟨hside v.rows fun d hd => h.sides d (.inl hd),
      hside v.cols fun d hd => h.sides d (.inr hd), ?_, ?_, ?_, h.filters⟩, h.defined⟩
    · rintro ⟨hrows, hsame, hkind⟩
      obtain ⟨d, hd⟩ := Option.isSome_iff_exists.mp hrows
      exact h.distinct (by simpa using hkind) d hd (hsame ▸ hd)
    · rw [← h.value]
      cases v.value <;> simp
    · rw [← h.value]
      cases v.value <;> simp
  · rintro ⟨hcheck, hdefined⟩
    obtain ⟨hsides, hdistinct⟩ := checkDeclaration_ok hcheck
    obtain ⟨-, -, -, hmissing, huseless, hfilters⟩ := checkDeclaration_ok_iff.mp hcheck
    refine ⟨hsides, hdistinct, ?_, hfilters, hdefined⟩
    cases hconstant : t.kind.isConstant <;> cases hvalue : v.value <;>
      simp [hconstant, hvalue] at hmissing huseless ⊢

/-! ## Conflicts -/

/-- More than one coordinate is neither a side nor splitting. -/
def Crowded (v : VariableDeclaration) (t : TableDeclaration) (sets : Registry) : Prop :=
  1 < (t.coordinates.filter fun d => !v.isSide d && !sets.isSplitting d).length

/-- A side of a table that is decided splits the model. -/
def SplitsSide (v : VariableDeclaration) (t : TableDeclaration) (sets : Registry) : Prop :=
  t.kind.has .endogenous = true ∧ ∃ d, v.isSide d = true ∧ sets.isSplitting d = true

/-- The coordinates cannot be given their parts. -/
def Conflicts (v : VariableDeclaration) (t : TableDeclaration) (sets : Registry) : Prop :=
  Crowded v t sets ∨ SplitsSide v t sets

/-- Every coordinate has an item that its filter accepts. -/
def Supplied (v : VariableDeclaration) (t : TableDeclaration) (sets : Registry) : Prop :=
  ∀ d ∈ t.coordinates, ∃ dim, sets.find? d = some dim ∧
    ∃ item ∈ dim.items, dim.Accepts (v.filters.get? d) item

/-- Only a second intra dimension is refused. -/
theorem assignRole_error {d : String} {dim : Dimension} {roles : Roles} {e : ModelError}
    (hdim : sets.find? d = some dim) (h : assignRole v t sets roles d = .error e) :
    e.IsConceptual ∧ roles.intra ≠ none ∧ (!v.isSide d && !sets.isSplitting d) = true := by
  have hsplits : sets.isSplitting d = dim.splits := by rw [Registry.isSplitting, hdim]
  unfold assignRole at h
  rw [hdim] at h
  dsimp only at h
  split at h
  · cases h
  rename_i hside
  have hd : v.isSide d = false := decide_eq_false hside
  split at h
  · cases h
  rename_i hsplit
  split at h
  · rename_i other hother
    cases h
    exact ⟨⟨_, rfl⟩, by simp [hother], by simpa [hd, hsplits] using hsplit⟩
  · cases h

/-- Coordinates are given their parts unless there are too many intra dimensions. -/
theorem outcome_assignRoles (h : FitsTable v t sets) :
    Outcome (fun _ => ¬ Crowded v t sets) (fun e => e.IsConceptual ∧ Crowded v t sets)
      (t.coordinates.foldlM (assignRole v t sets) Roles.empty) := by
  have hstep : ∀ done d rest (roles : Roles), done ++ d :: rest = t.coordinates →
      roles.intra.toList = done.filter (fun d => !v.isSide d && !sets.isSplitting d) →
      Outcome (fun roles : Roles => roles.intra.toList =
          (done ++ [d]).filter fun d => !v.isSide d && !sets.isSplitting d)
        (fun e => e.IsConceptual ∧ Crowded v t sets) (assignRole v t sets roles d) := by
    intro done d rest roles hdone hintra
    cases hrole : assignRole v t sets roles d with
    | ok roles' =>
        have hadded := (assignRole_ok hrole).2.2.1
        rw [hintra, ← List.filter_append] at hadded
        exact hadded
    | error e =>
        have hmem : d ∈ t.coordinates := hdone ▸ List.mem_append_right _ List.mem_cons_self
        obtain ⟨dim, hdim⟩ := h.defined d hmem
        obtain ⟨hconceptual, hother, hd⟩ := assignRole_error hdim hrole
        refine ⟨hconceptual, ?_⟩
        -- the intra dimension that has been found before is another candidate
        obtain ⟨other, hother⟩ := Option.ne_none_iff_exists'.mp hother
        have hcandidates := List.filter_cons_of_pos
          (p := fun d => !v.isSide d && !sets.isSplitting d) (l := rest) hd
        unfold Crowded
        rw [← hdone, List.filter_append, ← hintra, hother, hcandidates]
        simp
  have hloop := Outcome.foldlM_prefix (I := fun done (roles : Roles) =>
    roles.intra.toList = done.filter fun d => !v.isSide d && !sets.isSplitting d)
    (b := Roles.empty) rfl hstep
  refine hloop.imp fun roles hintra hcrowded => ?_
  have hlength : roles.intra.toList.length ≤ 1 := by cases roles.intra <;> simp
  rw [hintra] at hlength
  exact absurd hlength (Nat.not_le.mpr hcrowded)

/-! ## Items -/

/-- Items are found unless a coordinate has none. -/
theorem outcome_entries (h : FitsTable v t sets) :
    Outcome (fun _ => Supplied v t sets) (fun e => ¬ e.IsConceptual ∧ ¬ Supplied v t sets)
      (t.coordinates.mapM fun d => do return (d, ← coordinateItems v sets d)) := by
  have hentry : ∀ d ∈ t.coordinates,
      Outcome (fun _ => ∃ dim, sets.find? d = some dim ∧
          ∃ item ∈ dim.items, dim.Accepts (v.filters.get? d) item)
        (fun e => ¬ ModelError.IsConceptual e ∧ ¬ Supplied v t sets)
        (do return (d, ← coordinateItems v sets d)) := by
    intro d hd
    obtain ⟨dim, hdim⟩ := h.defined d hd
    have hitems : dim.accepted (v.filters.get? d) ≠ [] ↔
        ∃ item ∈ dim.items, dim.Accepts (v.filters.get? d) item := by
      simp [Dimension.accepted]
    refine Outcome.bind (P := fun _ => dim.accepted (v.filters.get? d) ≠ []) ?_ fun is hne =>
      ⟨dim, hdim, hitems.mp hne⟩
    refine (givesAccepted_coordinateItems hdim).mono (fun is his => his.1 ▸ his.2) fun e he => ?_
    refine ⟨he.1, fun hsupplied => ?_⟩
    obtain ⟨dim', hdim', hitem⟩ := hsupplied d hd
    obtain rfl : dim = dim' := Option.some.inj (hdim.symm.trans hdim')
    exact hitems.mpr hitem he.2
  refine (Outcome.mapM hentry).imp fun entries hentries d hd => ?_
  obtain ⟨_, -, hsupplied⟩ := exists_right_of_forall₂ hentries hd
  exact hsupplied

/-- Known dimensions can be looked at for a relation between them. -/
theorem exists_aggregationMap {d d' : String} {dim dim' : Dimension}
    (hd : sets.find? d = some dim) (hd' : sets.find? d' = some dim') (rows cols : List String) :
    ∃ aggregation, aggregationMap d rows d' cols sets = .ok aggregation := by
  have hget : sets.get d = .ok dim := by rw [Registry.get, hd]
  have hget' : sets.get d' = .ok dim' := by rw [Registry.get, hd']
  unfold aggregationMap
  split
  · exact ⟨_, rfl⟩
  · rw [hget, hget']
    change ∃ aggregation, (if covers dim' dim = true then _ else _) = _
    split
    · exact ⟨_, rfl⟩
    · split <;> exact ⟨_, rfl⟩

/-! ## Resolution -/

/-- Why a resolution fails: a conflict is a conceptual error, and without one a coordinate has no
items. -/
def Refuses (v : VariableDeclaration) (t : TableDeclaration) (sets : Registry) (e : ModelError) :
    Prop :=
  e.IsConceptual ∧ Conflicts v t sets ∨
    ¬ e.IsConceptual ∧ ¬ Conflicts v t sets ∧ ¬ Supplied v t sets

/-- Coordinates are given their parts, the sides among them, unless they conflict. -/
theorem outcome_roles (h : FitsTable v t sets) :
    Outcome (fun roles => ¬ Crowded v t sets ∧ roles.rows = v.rows.dim? ∧
        roles.cols = v.cols.dim?) (Refuses v t sets)
      (t.coordinates.foldlM (assignRole v t sets) Roles.empty) := by
  rcases (outcome_assignRoles h).cases with ⟨roles, hroles, hfree⟩ | ⟨e, he, hcrowded⟩
  · exact .of_ok hroles ⟨hfree, sides_of_assignRoles h.sides hroles⟩
  · rw [he]
    exact .inl ⟨hcrowded.1, .inl hcrowded.2⟩

/-- Coordinates that do not conflict are given their items unless one of them has none. -/
theorem outcome_supplied (h : FitsTable v t sets) (hnone : ¬ Conflicts v t sets) :
    Outcome (fun _ => ¬ Conflicts v t sets ∧ Supplied v t sets) (Refuses v t sets)
      (t.coordinates.mapM fun d => do return (d, ← coordinateItems v sets d)) :=
  (outcome_entries h).mono (fun _ hsupplied => ⟨hnone, hsupplied⟩)
    fun _ he => .inr ⟨he.1, hnone, he.2⟩

theorem outcome_resolve (h : FitsTable v t sets) :
    Outcome (fun _ => ¬ Conflicts v t sets ∧ Supplied v t sets) (Refuses v t sets)
      (resolve v t sets) := by
  have hcheck : Outcome (fun _ => True) (Refuses v t sets)
      ((checkDeclaration v t sets).mapError ModelError.configuration) := by
    rw [(fitsTable_iff.mp h).1]
    trivial
  unfold resolve
  refine hcheck.bind fun _ _ => (outcome_roles h).bind fun roles hparts => ?_
  obtain ⟨hfree, hrows, hcols⟩ := hparts
  have hside : ∀ d, d ∈ roles.rows.toList ++ roles.cols.toList ↔ v.isSide d = true := by
    intro d
    simp [hrows, hcols, VariableDeclaration.isSide]
  have hrelated : ∀ d d' rows cols, roles.rows = some d → roles.cols = some d' →
      ∃ aggregation, aggregationMap d rows d' cols sets = .ok aggregation := by
    intro d d' rows cols hd hd'
    obtain ⟨dim, hdim⟩ := h.defined d (h.sides d (.inl (hrows ▸ hd)))
    obtain ⟨dim', hdim'⟩ := h.defined d' (h.sides d' (.inr (hcols ▸ hd')))
    exact exists_aggregationMap hdim hdim' rows cols
  dsimp only
  -- only the tables that are decided are searched for a side that splits the model
  split
  on_goal 1 => rename_i hkind; split
  · rename_i d hd
    have hmem := (hside d).mp (List.mem_of_find?_eq_some hd)
    exact .inl ⟨⟨_, rfl⟩, .inr ⟨hkind, d, hmem, List.find?_some hd⟩⟩
  on_goal 1 =>
    rename_i hnone
    have hunsplit : ¬ SplitsSide v t sets := by
      rintro ⟨-, d, hd, hsplit⟩
      exact List.find?_eq_none.mp hnone d ((hside d).mpr hd) hsplit
  on_goal 2 =>
    rename_i hkind
    have hunsplit : ¬ SplitsSide v t sets := fun hsplits => hkind hsplits.1
  all_goals
    refine (outcome_supplied h (not_or.mpr ⟨hfree, hunsplit⟩)).bind fun entries hresolved => ?_
    split
    · rename_i d d' hd hd'
      obtain ⟨aggregation, haggregation⟩ := hrelated d d' _ _ hd hd'
      exact (Outcome.of_ok haggregation trivial).bind fun _ (_ : True) => hresolved
    · exact hresolved

/-! ## The partition -/

/-- Every coordinate plays one part, and has the items that its filter accepts. -/
structure Partitions (v : VariableDeclaration) (t : TableDeclaration) (sets : Registry)
    (r : Variable) : Prop where
  rows : r.roles.rows = v.rows.dim?
  cols : r.roles.cols = v.cols.dim?
  /-- At most one coordinate is left that does not split the model. -/
  intra : r.roles.intra.toList = t.coordinates.filter fun d => !v.isSide d && !sets.isSplitting d
  inter : r.roles.inter = t.coordinates.filter fun d => !v.isSide d && sets.isSplitting d
  /-- The parts that a name plays are counted; a coordinate plays one, and nothing else plays any. -/
  once : ∀ d, (if r.roles.rows = some d ∨ r.roles.cols = some d then 1 else 0) +
    r.roles.intra.toList.count d + r.roles.inter.count d = if d ∈ t.coordinates then 1 else 0
  items : ∀ d ∈ t.coordinates, ∃ dim, sets.find? d = some dim ∧
    r.itemsOf d = dim.accepted (v.filters.get? d) ∧ r.itemsOf d ≠ []
  shape : r.shape = ⟨r.roles.rows.elim 1 fun d => (r.itemsOf d).length,
    r.roles.cols.elim 1 fun d => (r.itemsOf d).length⟩

/-- A resolved variable has the accepted items of its coordinates, and a shape that counts them. -/
theorem items_of_resolve (h : resolve v t sets = .ok r) :
    (∀ d ∈ t.coordinates, ∃ dim, sets.find? d = some dim ∧
      r.itemsOf d = dim.accepted (v.filters.get? d) ∧ r.itemsOf d ≠ []) ∧
    r.shape = ⟨r.roles.rows.elim 1 fun d => (r.itemsOf d).length,
      r.roles.cols.elim 1 fun d => (r.itemsOf d).length⟩ := by
  obtain ⟨roles, entries, aggregation, -, -, -, hentries, -, rfl⟩ := resolve_ok h
  have hextent : ∀ side : Option String, extent (SortedMap.ofList entries) side =
      side.elim 1 fun d => (((SortedMap.ofList entries).get? d).getD []).length := by
    intro side
    cases side <;> rfl
  refine ⟨fun d hd => ?_, congrArg₂ Shape.mk (hextent _) (hextent _)⟩
  obtain ⟨is, his, hget⟩ := SortedMap.get?_ofList_of_mapM hentries hd
  obtain ⟨dim, hdim, haccepted, hne⟩ := coordinateItems_ok his
  unfold itemsOf
  rw [hget]
  exact ⟨dim, hdim, haccepted, hne⟩

/-- Distinct coordinates play one part each. -/
theorem Resolves.once (h : Resolves v t sets r) (hcoordinates : t.coordinates.Nodup) (d : String) :
    (if r.roles.rows = some d ∨ r.roles.cols = some d then 1 else 0) +
      r.roles.intra.toList.count d + r.roles.inter.count d =
        if d ∈ t.coordinates then 1 else 0 := by
  have hside : (r.roles.rows = some d ∨ r.roles.cols = some d) ↔ v.isSide d = true := by
    rw [h.rows, h.cols, VariableDeclaration.isSide, decide_eq_true_iff]
  have hmem : v.isSide d = true → d ∈ t.coordinates := fun hd => h.sides d (hside.mpr hd)
  have hcount : ∀ p : String → Bool, (t.coordinates.filter p).count d =
      if p d = true ∧ d ∈ t.coordinates then 1 else 0 := by
    intro p
    rw [List.Nodup.count (hcoordinates.filter p)]
    simp only [List.mem_filter, and_comm]
  rw [h.intra, h.inter, hcount, hcount]
  cases hs : v.isSide d with
  | true => simp [hside, hs, hmem hs]
  | false => cases sets.isSplitting d <;> simp [hside, hs]

/-- A declaration that fits its table is resolved unless more than one coordinate is left for the
intra dimension, or a side of a decided table splits the model, or a coordinate has no items.  Of
these only the first two are conceptual errors.  A variable that is resolved partitions the
coordinates, which have the items that their filters accept. -/
theorem resolve_partitions (hcoordinates : t.coordinates.Nodup) (h : FitsTable v t sets) :
    ((∃ cause, resolve v t sets = .error (.conceptual cause)) ↔
      1 < (t.coordinates.filter fun d => !v.isSide d && !sets.isSplitting d).length ∨
        t.kind.has .endogenous = true ∧ ∃ d, v.isSide d = true ∧ sets.isSplitting d = true) ∧
    ((∃ r, resolve v t sets = .ok r) ↔ ¬ Conflicts v t sets ∧ Supplied v t sets) ∧
    ∀ r, resolve v t sets = .ok r → Partitions v t sets r := by
  have houtcome := outcome_resolve h
  cases hresolve : resolve v t sets with
  | ok r =>
      rw [hresolve] at houtcome
      refine ⟨iff_of_false (by rintro ⟨cause, ⟨⟩⟩) houtcome.1, iff_of_true ⟨r, rfl⟩ houtcome, ?_⟩
      rintro _ ⟨⟩
      have hresolves := resolves_of_resolve hresolve
      obtain ⟨hitems, hshape⟩ := items_of_resolve hresolve
      exact ⟨hresolves.rows, hresolves.cols, hresolves.intra, hresolves.inter,
        hresolves.once hcoordinates, hitems, hshape⟩
  | error e =>
      rw [hresolve] at houtcome
      rcases houtcome with ⟨⟨cause, rfl⟩, hconflicts⟩ | ⟨hother, hnone, hmissing⟩
      · exact ⟨iff_of_true ⟨cause, rfl⟩ hconflicts,
          iff_of_false (by rintro ⟨r, ⟨⟩⟩) fun hresolved => hresolved.1 hconflicts,
          by rintro r ⟨⟩⟩
      · exact ⟨iff_of_false (fun hconceptual => hother (hconceptual.imp fun _ => Except.error.inj))
            hnone,
          iff_of_false (by rintro ⟨r, ⟨⟩⟩) fun hresolved => hmissing hresolved.2,
          by rintro r ⟨⟩⟩

end Variable

/-! ## Landings -/

namespace Variable.Landings

/-- Two coasts, which divide the model, with three ports and two kinds of gear. -/
def sets : Registry :=
  ⟨[{ Dimension.ofItems "coast" ["east", "west"] with splits := true },
    { Dimension.ofItems "port" ["cork", "vigo", "faro"] with
      categories := ⟨[("cork", "north"), ("faro", "south"), ("vigo", "south")]⟩ },
    .ofItems "gear" ["net", "line"]], by decide⟩

/-- What is landed in the ports. -/
def landing : TableDeclaration :=
  ⟨"landing", .fixed .exogenous, ["gear", "coast", "port"], false, []⟩

/-- A vector over the southern ports. -/
def southern : VariableDeclaration :=
  ⟨"y", .dim "port", .one, none, ⟨[("port", ⟨some "south", .empty⟩)]⟩⟩

/-- A number for each port and gear. -/
def single : VariableDeclaration :=
  ⟨"z", .one, .one, none, .empty⟩

/-- The vector has the southern ports as rows, and gear is left for its intra dimension. -/
def resolved : Variable where
  symbol := "y"
  table := "landing"
  kind := .fixed .exogenous
  integer := false
  value := none
  roles := ⟨some "port", none, some "gear", ["coast"]⟩
  items := ⟨[("coast", ["east", "west"]), ("gear", ["net", "line"]), ("port", ["vigo", "faro"])]⟩
  shape := ⟨2, 1⟩
  aggregation := none

/-- The vector partitions the coordinates of its table, but a number would leave two of them for its
intra dimension. -/
theorem resolve_partitions_landings :
    landing.coordinates.Nodup ∧ FitsTable southern landing sets ∧ FitsTable single landing sets ∧
      resolve southern landing sets = .ok resolved ∧ Partitions southern landing sets resolved ∧
      ∃ cause, resolve single landing sets = .error (.conceptual cause) := by
  have hcoordinates : landing.coordinates.Nodup := by decide
  have hdefined : ∀ d ∈ landing.coordinates, ∃ dim, sets.find? d = some dim := fun d hd =>
    Option.isSome_iff_exists.mp (List.all_eq_true.mp (by decide : landing.coordinates.all
      (fun d => (sets.find? d).isSome) = true) d hd)
  have hsouthern : FitsTable southern landing sets := fitsTable_iff.mpr ⟨by decide, hdefined⟩
  have hsingle : FitsTable single landing sets := fitsTable_iff.mpr ⟨by decide, hdefined⟩
  have hresolve : resolve southern landing sets = .ok resolved := by decide +kernel
  exact ⟨hcoordinates, hsouthern, hsingle, hresolve,
    (resolve_partitions hcoordinates hsouthern).2.2 _ hresolve,
    (resolve_partitions hcoordinates hsingle).1.mpr (.inl (by decide))⟩

end Variable.Landings

end CoupledModels
