import CoupledModels.Configuration.Declarations
import CoupledModels.Proofs.SortedMap
import CoupledModels.Proofs.Sets.Labels

/-!
# Kinds that are written by label

A configuration writes the kind of a table for each label of a sub-problem.  A label leads to the
first sub-problem that has it.  So if each label has an entry, this sub-problem gets the kind that is
written for it, and every later one with the same label gets no kind.
-/

namespace CoupledModels

/-! ## The order of keys -/

theorem ProblemKey.compareCoords_eq_iff {as bs : List Coordinate} :
    compareCoords as bs = .eq ↔ as = bs := by
  induction as generalizing bs with
  | nil => cases bs <;> simp [compareCoords]
  | cons a as ih =>
      cases bs with
      | nil => simp [compareCoords]
      | cons b bs =>
          obtain ⟨dim, item⟩ := a
          obtain ⟨dim', item'⟩ := b
          simp [compareCoords, Ordering.then_eq_eq, ih, and_assoc]

instance : Std.LawfulEqOrd ProblemKey where
  compare_self := ProblemKey.compareCoords_eq_iff.mpr rfl
  eq_of_compare h := congrArg ProblemKey.mk (ProblemKey.compareCoords_eq_iff.mp h)

namespace Configuration

variable {keys : List ProblemKey} {table : String}

/-- The first sub-problem with a label. -/
def firstLabelled? (keys : List ProblemKey) (label : String) : Option ProblemKey :=
  keys.find? fun k => k.label == label

theorem keyOf_ok {label : String} {key : ProblemKey} :
    keyOf keys table label = .ok key ↔ firstLabelled? keys label = some key := by
  unfold keyOf firstLabelled?
  split
  · rename_i k hk
    rw [hk, Except.ok.injEq, Option.some.injEq]
  · rename_i hnone
    simp [hnone]

theorem label_of_firstLabelled? {label : String} {key : ProblemKey}
    (h : firstLabelled? keys label = some key) : key.label = label := by
  simpa using List.find?_some h

/-- Each key is the first one with its label if labels tell keys apart. -/
theorem firstLabelled?_of_separable {sets : Registry} {key : ProblemKey}
    (hsets : Label.Separable (sets.splitting.map Dimension.items)) (hkey : key ∈ sets.problemKeys) :
    firstLabelled? sets.problemKeys key.label = some key := by
  have hsome : (firstLabelled? sets.problemKeys key.label).isSome = true :=
    List.find?_isSome.mpr ⟨key, hkey, beq_self_eq_true _⟩
  obtain ⟨first, hfirst⟩ := Option.isSome_iff_exists.mp hsome
  rw [hfirst, ProblemKey.eq_of_label hsets (List.mem_of_find?_eq_some hfirst) hkey
    (label_of_firstLabelled? hfirst)]

/-- A kind is written for each label, and for nothing else. -/
def WritesLabels (keys : List ProblemKey) : KindConfiguration → Prop
  | .fixed _ => True
  | .perLabel kinds => kinds.Ascending ∧ (∀ label ∈ kinds.keys, label ∈ keys.map (·.label)) ∧
      ∀ key ∈ keys, key.label ∈ kinds.keys

/-- A rule gives the first sub-problem with a label the kind that is written for the label, and no
kind to the others. -/
def Follows (keys : List ProblemKey) (rule : KindRule) : KindConfiguration → Prop
  | .fixed kind => rule = .fixed kind
  | .perLabel kinds => ∀ key ∈ keys, ∃ kind, kinds.get? key.label = some kind ∧
      rule.kindFor key = if firstLabelled? keys key.label = some key then .ok kind
        else .error (.configuration (.noKindFor key))

/-- Errors of a table that have nothing to do with its kind. -/
def OffKind : ConfigurationError → Prop
  | .unknownCoordinate _ _ => True
  | .size _ _ => True
  | _ => False

/-- Each entry goes to the first sub-problem with its label. -/
theorem follows_ofList {kinds : SortedMap String TableKind}
    (hkinds : WritesLabels keys (.perLabel kinds)) {es : List (ProblemKey × TableKind)}
    (hes : List.Forall₂ (fun (written : String × TableKind) e =>
      firstLabelled? keys written.1 = some e.1 ∧ e.2 = written.2) kinds.entries es) :
    Follows keys (.perProblem (SortedMap.ofList es)) (.perLabel kinds) := by
  obtain ⟨hascending, -, hlabels⟩ := hkinds
  intro key hkey
  obtain ⟨⟨label, kind⟩, hmem, hlabel⟩ := List.mem_map.mp (hlabels key hkey)
  obtain rfl : label = key.label := hlabel
  refine ⟨kind, hascending.get?_of_mem hmem, ?_⟩
  -- whatever has been entered for the key was written for its label
  have hwritten : ∀ other, (key, other) ∈ es →
      firstLabelled? keys key.label = some key ∧ (key.label, other) ∈ kinds.entries := by
    intro other hother
    obtain ⟨⟨label', kind'⟩, hmem', hfirst, rfl⟩ := exists_left_of_forall₂ hes hother
    obtain rfl := label_of_firstLabelled? hfirst
    exact ⟨hfirst, hmem'⟩
  unfold KindRule.kindFor
  by_cases hfirst : firstLabelled? keys key.label = some key
  · obtain ⟨⟨key', kind'⟩, hentry, hfirst', hkind⟩ := exists_right_of_forall₂ hes hmem
    obtain rfl : key = key' := Option.some.inj (hfirst.symm.trans hfirst')
    obtain rfl : kind' = kind := hkind
    have hget : (SortedMap.ofList es).get? key = some kind' := by
      refine SortedMap.get?_ofList_of_mem hentry fun other hother => ?_
      have hother' := hascending.get?_of_mem (hwritten other hother).2
      exact Option.some.inj (hother'.symm.trans (hascending.get?_of_mem hmem))
    simp [hget, hfirst]
  · have hget : (SortedMap.ofList es).get? key = none := by
      cases hget : (SortedMap.ofList es).get? key with
      | none => rfl
      | some other =>
          have hother := SortedMap.mem_entries_ofList (SortedMap.mem_entries_of_get? hget)
          exact absurd (hwritten other hother).1 hfirst
    simp [hget, hfirst]

/-- If each label has an entry, there is a rule, and it follows the entries. -/
theorem outcome_kindOf {written : KindConfiguration} (h : WritesLabels keys written) :
    Outcome (Follows keys · written) OffKind (kindOf keys table written) := by
  cases written with
  | fixed kind => exact rfl
  | perLabel kinds =>
      have hkeys : ∀ e ∈ kinds.entries, ∃ key, firstLabelled? keys e.1 = some key := by
        intro e he
        obtain ⟨k, hk, hlabel⟩ := List.mem_map.mp (h.2.1 e.1 (List.mem_map_of_mem he))
        exact Option.isSome_iff_exists.mp (List.find?_isSome.mpr ⟨k, hk, beq_iff_eq.mpr hlabel⟩)
      refine (Outcome.mapM (R := fun (written : String × TableKind) (e : ProblemKey × TableKind) =>
        firstLabelled? keys written.1 = some e.1 ∧ e.2 = written.2) fun e he => ?_).bind
        fun es hes => follows_ofList h hes
      obtain ⟨label, kind⟩ := e
      obtain ⟨key, hkey⟩ := hkeys _ he
      -- the key of every label is found, so no entry is refused
      have hentry : (do return (← keyOf keys table label, kind)) =
          (.ok (key, kind) : Except ConfigurationError _) := by
        rw [keyOf_ok.mpr hkey]
        rfl
      exact .of_ok hentry ⟨hkey, rfl⟩

theorem outcome_sideOf (symbol : String) (side : Option SideConfiguration) :
    Outcome (fun _ => True) OffKind (sideOf symbol side) := by
  unfold sideOf
  split <;> trivial

theorem outcome_variableOf (v : VariableConfiguration) :
    Outcome (fun _ => True) OffKind (variableOf v) :=
  (outcome_sideOf _ _).bind fun _ _ => (outcome_sideOf _ _).bind fun _ _ => trivial

theorem outcome_tableOf {sets : Registry} {t : TableConfiguration} (h : WritesLabels keys t.kind) :
    Outcome (fun d => Follows keys d.kind t.kind) OffKind (tableOf sets keys t) := by
  unfold tableOf
  cases t.coordinates.find? fun d => !sets.contains d with
  | some d => trivial
  | none =>
      refine (outcome_kindOf h).bind fun rule hrule => ?_
      exact (Outcome.mapM_forall fun v _ => outcome_variableOf v).bind fun _ _ => hrule

/-- The tables of a configuration that writes a kind for each label get rules that follow it, and
their kinds are no reason to refuse them. -/
theorem outcome_declaredTables {c : Configuration} {sets : Registry}
    (h : ∀ t ∈ c.tables, WritesLabels sets.problemKeys t.kind) :
    Outcome (List.Forall₂ (fun t d => Follows sets.problemKeys d.kind t.kind) c.tables)
      (fun e => ∃ reason, e = .configuration reason ∧ OffKind reason) (c.declaredTables sets) :=
  (Outcome.mapM fun t ht => outcome_tableOf (h t ht)).mapError fun e he => ⟨e, rfl, he⟩

end Configuration

end CoupledModels
