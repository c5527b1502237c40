import CoupledModels.Model.Run
import CoupledModels.Proofs.Formula.Faults
import CoupledModels.Proofs.Number.Doubles

/-!
# Limits of a run

Settings that have passed their check may still have a limit that is too long to be a duration.  That
is found when the limit is converted, after the sub-problems have been built and the data has been
loaded, and it ends the run on the spot.  Nothing else in a run ends that way, since building,
loading, solving and writing never report an error of the configuration.
-/

namespace CoupledModels

/-! ## Limits that are durations -/

namespace Settings

section

variable {K : Type} [Scalar K] {s : Settings K} {limit : Option K}

/-- The limit, if one is given, is shorter than `2 ^ 64` seconds. -/
def Fits (limit : Option K) : Prop :=
  ∀ v q, limit = some v → Scalar.rational? v = some q → q < 2 ^ 64

/-- A limit that passes its check is positive and has an exact value. -/
theorem checkLimit_ok {name : String} (h : checkLimit name limit = .ok ()) {v : K}
    (hv : limit = some v) : Scalar.lt 0 v = true ∧ ∃ q, Scalar.rational? v = some q := by
  subst hv
  unfold checkLimit at h
  dsimp only at h
  split at h
  · rename_i hcheck
    rw [Bool.and_eq_true] at hcheck
    exact ⟨hcheck.1, Option.isSome_iff_exists.mp hcheck.2⟩
  · cases h

theorem validate_ok (h : s.validate = .ok ()) :
    checkLimit "solve_deadline_secs" s.solveDeadline = .ok () ∧
      checkLimit "iteration_timeout_secs" s.iterationTimeout = .ok () := by
  unfold validate at h
  dsimp only at h
  split at h
  · cases h
  split at h
  · cases h
  obtain ⟨_, hdeadline, htimeout⟩ := exists_of_bind_eq_ok h
  exact ⟨hdeadline, htimeout⟩

end

/-- A limit in doubles that passes its check is a duration if and only if it is short enough. -/
theorem isSome_duration?_iff {limit : Option Float} {name : String}
    (h : checkLimit name limit = .ok ()) : (duration? limit).isSome = true ↔ Fits limit := by
  cases limit with
  | none => simp [duration?, Fits]
  | some v =>
      obtain ⟨hpos, q, hq⟩ := checkLimit_ok h rfl
      have hnonneg : ¬ q < 0 := not_lt.mpr (nonneg_of_pos hpos hq)
      have hlong : ((pow2 64 : Nat) : Rat) = 2 ^ 64 := by norm_num [pow2]
      have hfits : Fits (some v) ↔ q < 2 ^ 64 := by
        refine ⟨fun h => h v q rfl hq, fun h v' q' hv' hq' => ?_⟩
        cases hv'
        rw [hq] at hq'
        cases hq'
        exact h
      rw [hfits, duration?, Duration.ofSeconds?, hq]
      simp [hnonneg, hlong]

end Settings

/-! ## Errors of a run -/

/-- Errors other than those of declarations and settings. -/
def ModelError.IsOperational (e : ModelError) : Prop :=
  ∀ cause, e ≠ .configuration cause

/-- Something that is done with what has been declared, and does not find fault with it. -/
abbrev Operates {α : Type} (r : Except ModelError α) : Prop :=
  Outcome (fun _ => True) ModelError.IsOperational r

namespace Operates

variable {α β : Type} {r : Except ModelError α}

theorem ok (a : α) : Operates (.ok a : Except ModelError α) :=
  trivial

theorem bind {f : α → Except ModelError β} (h : Operates r) (hf : ∀ a, Operates (f a)) :
    Operates (r >>= f) :=
  Outcome.bind h fun a _ => hf a

theorem map {f : α → β} (h : Operates r) : Operates (r.map f) :=
  Outcome.map h fun _ _ => trivial

theorem mapM {f : α → Except ModelError β} {xs : List α} (hf : ∀ a, Operates (f a)) :
    Operates (xs.mapM f) :=
  (Outcome.mapM_forall fun a _ => hf a).imp fun _ _ => trivial

theorem foldlM {f : β → α → Except ModelError β} {xs : List α} {b : β}
    (hf : ∀ b a, Operates (f b a)) : Operates (xs.foldlM f b) :=
  Outcome.foldlM (I := fun _ => True) trivial fun b _ a _ => hf b a

/-- The error of a part, told as one that is not about the configuration. -/
theorem mapError {ε : Type} {r : Except ε α} {f : ε → ModelError} (hf : ∀ e, (f e).IsOperational) :
    Operates (r.mapError f) := by
  cases r with
  | ok a => trivial
  | error e => exact hf e

theorem expression (r : Except ExpressionError α) : Operates (r.mapError ModelError.expression) :=
  mapError fun _ => nofun

end Operates

/-! ### Building -/

section Building

variable {K : Type} (c : Catalog K)

namespace Formula

theorem operates_joinIntra (text : String) (found : Option IntraDimension) (symbol : String) :
    Operates (joinIntra c text found symbol) := by
  unfold joinIntra
  split
  · exact nofun
  split
  · trivial
  split
  · trivial
  · split
    · exact nofun
    split
    · exact nofun
    · trivial
  · trivial

theorem operates_bindNames (text : String) (key : ProblemKey) (item : Option String)
    (names : List String) : Operates (bindNames c text key item names) := by
  induction names with
  | nil => exact .ok _
  | cons symbol rest ih =>
      unfold bindNames
      split
      · rintro _ ⟨⟩
      dsimp only
      split
      · trivial
      · exact ih.bind fun _ => .ok _
      · rintro _ ⟨⟩

variable [Scalar K] [Transcendental K]

theorem operates_compile (text : String) (key : ProblemKey) : Operates (compile c text key) := by
  unfold compile
  refine (Operates.expression _).bind fun statement => ?_
  refine (Operates.foldlM fun found symbol => operates_joinIntra c text found symbol).bind
    fun intra => ?_
  refine (Operates.mapM fun item => ?_).bind fun instances => .ok _
  refine (operates_bindNames c text key item statement.names).bind fun bindings => ?_
  split
  · exact .ok _
  · exact (Operates.expression _).bind fun form => .ok _

end Formula

namespace SubProblems

variable [Scalar K] [Transcendental K]

theorem operates_buildOne (name : String) (m : ModelText) (key : ProblemKey) :
    Operates (buildOne c name m key) := by
  unfold buildOne
  refine (Operates.mapM fun text => ?_).bind fun constraints => ?_
  · refine (Formula.operates_compile c text key).bind fun instances => Operates.mapM fun i => ?_
    split
    · trivial
    · exact nofun
  refine (Operates.foldlM fun o text => ?_).bind fun objective => .ok _
  refine (Formula.operates_compile c text key).bind fun instances => Operates.foldlM fun o i => ?_
  unfold addInstance
  split
  · split
    · trivial
    · exact nofun
  · exact nofun

theorem operates_buildAll (sets : Registry) (texts : SortedMap String ModelText) :
    Operates (buildAll c sets texts) := by
  refine (Operates.mapM fun (name, m) => ?_).bind fun entries => .ok _
  refine Operates.bind ?_ fun ps => .ok _
  exact (Operates.mapM fun key => operates_buildOne c name m key).bind fun ps => .ok _

end SubProblems

end Building

/-! ### Loading and writing -/

namespace Store

variable {K : Type} (store : Store K)

theorem operates_table (name : String) : Operates (store.table name) := by
  unfold table
  split
  · trivial
  · exact nofun

theorem operates_getRows (name : String) (filter : RowFilter) :
    Operates (store.getRows name filter) := by
  refine (store.operates_table name).bind fun t => Operates.bind ?_ fun restrictions => .ok _
  refine Operates.mapM fun (d, items) => ?_
  dsimp only
  split
  · trivial
  · exact nofun

theorem operates_putRows (name : String) (rows : List (Row K)) (mode : WriteMode) :
    Operates (store.putRows name rows mode).1 := by
  have htable := store.operates_table name
  unfold putRows
  split
  · rename_i e he
    rw [he] at htable
    exact htable
  split
  · exact nofun
  dsimp only
  split
  · exact nofun
  · trivial

end Store

namespace Catalog

variable {K : Type} [Scalar K]

theorem operates_loadBinding (c : Catalog K) (store : Store K) (b : Binding) :
    Operates (c.loadBinding store b) := by
  unfold loadBinding
  split
  · exact nofun
  rename_i v _
  refine (store.operates_getRows v.table b.filter).bind fun rows => ?_
  refine (store.operates_table v.table).map.bind fun coordinates => ?_
  dsimp only
  split
  · exact nofun
  · exact Operates.mapError fun _ => nofun

theorem operates_loadParameters (store : Store K) :
    ∀ (indexes : List Nat) (c : Catalog K), Operates (loadParameters store indexes c).1
  | [], _ => .ok _
  | index :: rest, c => by
      unfold loadParameters
      split
      · exact operates_loadParameters store rest c
      split
      · exact operates_loadParameters store rest c
      rename_i b _
      have hload := c.operates_loadBinding store b
      split
      · rename_i e he
        rw [he] at hload
        exact hload
      · exact operates_loadParameters store rest _

end Catalog

/-! ### Iterating -/

namespace ConvergenceLoop

variable {σ K : Type} {sys : CoupledSystem σ K}

/-- No step of the system finds fault with the configuration. -/
structure SystemOperates (sys : CoupledSystem σ K) : Prop where
  refresh : ∀ store t, Operates (sys.refresh store t).1
  solveAll : ∀ t, Operates (sys.solveAll t).1
  push : ∀ store t, Operates (sys.push store t).1

theorem operates_andThen {α β γ : Type} {r : Except ModelError α × β}
    {next : α → β → Except ModelError γ × β} (h : Operates r.1)
    (hnext : ∀ a b, Operates (next a b).1) : Operates (andThen r next).1 := by
  obtain ⟨_ | a, b⟩ := r
  · exact h
  · exact hnext a b

theorem operates_renew (h : SystemOperates sys) (iteration : Nat) (s : σ × Store K) :
    Operates (renew sys iteration s).1 := by
  have hrefresh := h.refresh s.2 s.1
  unfold renew
  split
  · trivial
  split
  · trivial
  · rename_i he
    rw [he] at hrefresh
    exact hrefresh

variable [Scalar K]

theorem operates_solveAndCompare (h : SystemOperates sys) (tables : List String) (s : σ × Store K) :
    Operates (solveAndCompare sys tables s).1 := by
  have hsnapshot : Operates (s.2.snapshot tables) :=
    (Operates.mapM fun name => (s.2.operates_getRows name .empty).bind fun rows => .ok _).bind
      fun entries => .ok _
  have hsolve := h.solveAll s.1
  unfold solveAndCompare
  split
  · rename_i he
    rw [he] at hsnapshot
    exact hsnapshot
  split
  · rename_i he
    rw [he] at hsolve
    exact hsolve
  rename_i t _
  have hpush := h.push s.2 t
  split
  · rename_i he
    rw [he] at hpush
    exact hpush
  rename_i store t' _
  exact (Operates.mapM fun name => (store.operates_getRows name .empty).bind fun rows => .ok _).map

theorem operates_runFrom (h : SystemOperates sys) (l : ConvergenceLoop K) (clock : Nat → Duration)
    (tables : List String) (left : Nat) :
    ∀ iteration history s, Operates (runFrom l sys clock tables left iteration history s).1 := by
  induction left with
  | zero => exact fun _ _ _ => .ok _
  | succ left ih =>
      intro iteration history s
      refine operates_andThen (operates_renew h iteration s) fun _ s => ?_
      refine operates_andThen (operates_solveAndCompare h tables s) fun differences s => ?_
      dsimp only
      split
      · trivial
      split
      · trivial
      · exact ih _ _ _

end ConvergenceLoop

/-! ## Runs -/

namespace Model

section

variable {σ K : Type}

theorem operates_pushTables (entries : List (String × List (Row K))) (store : Store K) :
    Operates (pushTables entries store).1 := by
  induction entries generalizing store with
  | nil => exact .ok _
  | cons entry entries ih =>
      obtain ⟨table, rows⟩ := entry
      have hput := store.operates_putRows table rows .replace
      unfold pushTables
      split
      · exact ih store
      split
      · exact ih _
      · rename_i he
        rw [he] at hput
        exact hput

variable [Scalar K]

theorem operates_loadExogenous (m : Model K) (store : Store K) :
    Operates (m.loadExogenous store).1 :=
  Catalog.operates_loadParameters store _ m.catalog

variable [Transcendental K]

theorem operates_build (m : Model K) (policy : BuildPolicy) : Operates (m.build policy).1 := by
  have hbuild := SubProblems.operates_buildAll m.catalog m.sets m.texts
  unfold build
  split
  · trivial
  split
  · trivial
  · rename_i he
    rw [he] at hbuild
    exact hbuild

theorem systemOperates_coupled (b : Backend σ K) (o : SolveOptions) (digits : UInt32) :
    ConvergenceLoop.SystemOperates (coupled b o digits) where
  refresh store t := t.1.operates_loadExogenous store
  solveAll _ := .ok _
  push _ _ := operates_pushTables _ _

/-- A run that has ended because a limit is not a duration. -/
def Aborts {α : Type} (r : Except ModelError α) : Prop :=
  ∃ setting, r = .error (limitError setting)

theorem not_aborts_of_operates {α : Type} {r : Except ModelError α} (h : Operates r) :
    ¬ Aborts r := by
  rintro ⟨setting, rfl⟩
  exact h _ rfl

/-- The sub-problems can be built and their data can be loaded. -/
def Prepares (m : Model K) (policy : BuildPolicy) (store : Store K) : Prop :=
  ∃ outcome built loaded, m.build policy = (.ok outcome, built) ∧
    built.loadExogenous store = (.ok (), loaded)

/-- Once everything is ready a run ends at a limit if and only if it needs one that is no
duration. -/
theorem aborts_runBuilt_iff (b : Backend σ K) (settings : Settings K) (clock : Nat → Duration)
    (s : RunState σ K) :
    Aborts (runBuilt b settings clock s).1 ↔
      settings.solveOptions? = none ∨
        settings.integrated = true ∧ settings.convergenceLoop? = none := by
  unfold runBuilt
  split
  · rename_i hdeadline
    exact iff_of_true ⟨_, rfl⟩ (.inl hdeadline)
  rename_i o hdeadline
  simp only [hdeadline, reduceCtorEq, false_or]
  split
  · rename_i hintegrated
    unfold runIntegrated
    split
    · rename_i htimeout
      exact iff_of_true ⟨_, rfl⟩ ⟨hintegrated, htimeout⟩
    · rename_i l htimeout
      refine iff_of_false (not_aborts_of_operates ?_) (by simp [htimeout])
      exact (ConvergenceLoop.operates_runFrom (systemOperates_coupled b o _) l clock _ _ _ _ _).map
  · rename_i hintegrated
    refine iff_of_false (not_aborts_of_operates ?_) (by simp [hintegrated])
    exact (operates_pushTables _ _).map

/-- A run of settings that pass their check ends at a limit if and only if it comes to need one that
is no duration. -/
theorem aborts_solve_iff (b : Backend σ K) {settings : Settings K}
    (hvalid : settings.validate = .ok ()) (policy : BuildPolicy) (clock : Nat → Duration)
    (s : RunState σ K) :
    Aborts (solve b settings policy clock s).1 ↔
      s.model.Prepares policy s.store ∧ (settings.solveOptions? = none ∨
        settings.integrated = true ∧ settings.convergenceLoop? = none) := by
  have hbuild := s.model.operates_build policy
  unfold solve
  rw [hvalid]
  dsimp only
  -- building and loading end at no limit, and where one of them fails nothing has been prepared
  split
  · rename_i he
    rw [he] at hbuild
    refine iff_of_false (not_aborts_of_operates hbuild) ?_
    rintro ⟨⟨_, _, _, hbuilt, -⟩, -⟩
    rw [he] at hbuilt
    cases hbuilt
  rename_i m hm
  have hload := m.operates_loadExogenous s.store
  split
  · rename_i he
    rw [he] at hload
    refine iff_of_false (not_aborts_of_operates hload) ?_
    rintro ⟨⟨_, _, _, hbuilt, hloaded⟩, -⟩
    rw [hm] at hbuilt
    cases hbuilt
    rw [he] at hloaded
    cases hloaded
  · rename_i loaded hloaded
    rw [aborts_runBuilt_iff]
    exact (and_iff_right ⟨_, m, loaded, hm, hloaded⟩).symm

end

/-- Settings in doubles that pass their check give options and a loop if and only if the limits are
shorter than `2 ^ 64` seconds, and a run of them ends at a limit if and only if it is ready to solve
and one that it needs is longer. -/
theorem limits_of_validate {σ : Type} {settings : Settings Float}
    (hvalid : settings.validate = .ok ()) :
    (settings.solveOptions?.isSome = true ↔ Settings.Fits settings.solveDeadline) ∧
    (settings.convergenceLoop?.isSome = true ↔ Settings.Fits settings.iterationTimeout) ∧
    ∀ (b : Backend σ Float) (policy : BuildPolicy) (clock : Nat → Duration)
      (s : RunState σ Float), Aborts (solve b settings policy clock s).1 ↔
        s.model.Prepares policy s.store ∧ (¬ Settings.Fits settings.solveDeadline ∨
          settings.integrated = true ∧ ¬ Settings.Fits settings.iterationTimeout) := by
  obtain ⟨hdeadline, htimeout⟩ := Settings.validate_ok hvalid
  have hoptions : settings.solveOptions?.isSome = true ↔ Settings.Fits settings.solveDeadline := by
    rw [Settings.solveOptions?, Option.isSome_map]
    exact Settings.isSome_duration?_iff hdeadline
  have hloop : settings.convergenceLoop?.isSome = true ↔
      Settings.Fits settings.iterationTimeout := by
    rw [Settings.convergenceLoop?, Option.isSome_map]
    exact Settings.isSome_duration?_iff htimeout
  refine ⟨hoptions, hloop, fun b policy clock s => ?_⟩
  rw [aborts_solve_iff b hvalid, ← hoptions, ← hloop]
  simp

/-- An hour for every call of the backend, and no end of time for an iteration that is not asked
for. -/
def hourly : Settings Float :=
  { Settings.default with solveDeadline := some 3600.0, iterationTimeout := some 1e300 }

/-- The time of an iteration does not matter if there is none. -/
theorem limits_of_validate_hourly :
    hourly.validate = .ok () ∧ Settings.Fits hourly.solveDeadline ∧
      ¬ Settings.Fits hourly.iterationTimeout ∧
      ∀ (b : Backend Unit Float) (policy : BuildPolicy) (clock : Nat → Duration)
        (s : RunState Unit Float), ¬ Aborts (solve b hourly policy clock s).1 := by
  have hvalid : hourly.validate = .ok () := by decide +kernel
  have hoptions : hourly.solveOptions?.isSome = true := by decide +kernel
  have hloop : ¬ hourly.convergenceLoop?.isSome = true := by decide +kernel
  obtain ⟨hdeadline, htimeout, haborts⟩ := limits_of_validate (σ := Unit) hvalid
  have hfits := hdeadline.mp hoptions
  refine ⟨hvalid, hfits, mt htimeout.mpr hloop, fun b policy clock s => ?_⟩
  rw [haborts]
  rintro ⟨-, hlong | ⟨hintegrated, -⟩⟩
  · exact hlong hfits
  · cases hintegrated

/-- A deadline of `2 ^ 64` seconds, which is positive and finite. -/
def endless : Settings Float :=
  { Settings.default with solveDeadline := some 18446744073709551616.0 }

/-- The model without dimensions, tables and texts. -/
def nothing : Model Float where
  sets := .empty
  tables := []
  texts := .empty
  catalog := ⟨[], [], #[], #[], #[], #[], #[some 1], #[false]⟩
  problems := .empty

/-- Settings can pass their check and give no options, and then any run that comes to need them ends
there, as does that of the model that is made of nothing. -/
theorem validate_passes_endless :
    endless.validate = .ok () ∧ endless.solveOptions? = none ∧
      ofParts .empty [] .empty = .ok nothing ∧
      ∀ (b : Backend Unit Float) (clock : Nat → Duration),
        Aborts (solve b endless .overwrite clock ⟨nothing, .empty, ()⟩).1 := by
  have hvalid : endless.validate = .ok () := by decide +kernel
  have hoptions : endless.solveOptions? = none := by decide +kernel
  refine ⟨hvalid, hoptions, rfl, fun b clock => (aborts_solve_iff b hvalid _ clock _).mpr
    ⟨⟨.built, nothing, nothing, rfl, rfl⟩, .inl hoptions⟩⟩

end Model

end CoupledModels
