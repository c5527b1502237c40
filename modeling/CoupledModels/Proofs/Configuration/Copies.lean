import CoupledModels.Configuration.Declarations
import CoupledModels.Proofs.Outcome
import Mathlib.Data.List.Duplicate
import Mathlib.Data.List.Perm.Subperm
import Mathlib.Logic.Relation

/-!
# Sets that copy from other sets

A set may take its items from another set, which may take them from a third one.  Following these
references ends at a set with items of its own, at a name that no set has, or never.  The search
counts its steps and gives up when there were more of them than sets.  So many steps pass through
one set twice, so giving up means a cycle, which may lie behind the set that the search starts at.
Where no two sets share a symbol each set has at most one next set, and no chain ends in two ways.

* `outcome_followCopies`, `outcome_dimensionOf`: what a search ends with;
* `followCopies_eq_ok_iff`, `followCopies_of_le`: a greater count changes nothing;
* `registry_resolves_copies`: the registry of all sets.
-/

section

open Relation

namespace CoupledModels.Configuration

variable {sets : List SetConfiguration} {us : List SetConfiguration}
  {s t u source : SetConfiguration} {symbol : String}

/-! ## References between sets -/

/-- The first set takes its items from the second one. -/
def Copies (sets : List SetConfiguration) (s t : SetConfiguration) : Prop :=
  t ∈ sets ∧ s.copyFrom = some t.symbol

/-- The references from a set lead to one that has its own items. -/
def HasSource (sets : List SetConfiguration) (s source : SetConfiguration) : Prop :=
  ReflTransGen (Copies sets) s source ∧ source.copyFrom = none

/-- The references from a set lead to a name that no set has. -/
def Dangles (sets : List SetConfiguration) (s : SetConfiguration) (name : String) : Prop :=
  ∃ t, ReflTransGen (Copies sets) s t ∧ t.copyFrom = some name ∧ name ∉ sets.map (·.symbol)

/-- The references from a set lead to one that they lead back to. -/
def Circles (sets : List SetConfiguration) (s : SetConfiguration) : Prop :=
  ∃ t, ReflTransGen (Copies sets) s t ∧ TransGen (Copies sets) t t

theorem hasSource_of_copies (h : Copies sets s t) (ht : HasSource sets t source) :
    HasSource sets s source :=
  ⟨ht.1.head h, ht.2⟩

theorem dangles_of_copies {name : String} (h : Copies sets s t) (ht : Dangles sets t name) :
    Dangles sets s name := by
  obtain ⟨u, htu, hu⟩ := ht
  exact ⟨u, htu.head h, hu⟩

/-- From a set that runs into a cycle there is always a next one. -/
theorem exists_copies_of_circles (h : Circles sets s) : ∃ t, Copies sets s t ∧ Circles sets t := by
  obtain ⟨u, hsu, huu⟩ := h
  rcases hsu.cases_head with rfl | ⟨t, hst, htu⟩
  · -- The set lies on the cycle itself.
    obtain ⟨t, hst, hts⟩ := TransGen.head'_iff.mp huu
    exact ⟨t, hst, s, hts, huu⟩
  · exact ⟨t, hst, u, htu, huu⟩

/-- A chain of more references than there are sets passes through one of them twice. -/
theorem circles_of_isChain {path : List SetConfiguration}
    (hpath : (s :: path).IsChain (Copies sets)) (hlong : sets.length < path.length) :
    Circles sets s := by
  have hpairs : (s :: path).Pairwise (TransGen (Copies sets)) :=
    (hpath.imp fun _ _ h => TransGen.single h).pairwise
  obtain ⟨hfirst, hrest⟩ := List.pairwise_cons.mp hpairs
  have hmem : path ⊆ sets := by
    intro t ht
    obtain ⟨u, -, hut⟩ := TransGen.tail'_iff.mp (hfirst t ht)
    exact hut.1
  -- A path without repetitions is no longer than the list of sets.
  have hrepeats : ¬ path.Nodup := by
    intro hnodup
    have hle : path.length ≤ sets.length := (List.subperm_of_subset hnodup hmem).length_le
    omega
  -- The two occurrences of a repeated set stand in the order of the path.
  obtain ⟨t, ht⟩ := List.exists_duplicate_iff_not_nodup.mpr hrepeats
  have htt : TransGen (Copies sets) t t := by
    simpa using hrest.sublist (List.duplicate_iff_sublist.mp ht)
  exact ⟨t, (hfirst t ht.mem).to_reflTransGen, htt⟩

/-! ## Ends of chains -/

theorem not_copies_of_source (h : s.copyFrom = none) : ¬ Copies sets s t := by
  rintro ⟨-, hst⟩
  rw [h] at hst
  cases hst

theorem not_copies_of_unknown {name : String} (h : s.copyFrom = some name)
    (hunknown : name ∉ sets.map (·.symbol)) : ¬ Copies sets s t := by
  rintro ⟨ht, hst⟩
  obtain rfl : name = t.symbol := Option.some.inj (h.symm.trans hst)
  exact hunknown (List.mem_map_of_mem ht)

section Distinct

variable (hdistinct : (sets.map (·.symbol)).Nodup)

include hdistinct

/-- A set copies from at most one set. -/
theorem copies_rightUnique : Relator.RightUnique (Copies sets) := by
  intro s t u hst hsu
  have hsymbol : t.symbol = u.symbol := Option.some.inj (hst.2.symm.trans hsu.2)
  exact List.inj_on_of_nodup_map hdistinct hst.1 hsu.1 hsymbol

/-- The references from a set do not end at two sets. -/
theorem eq_of_ends (hst : ReflTransGen (Copies sets) s t) (hsu : ReflTransGen (Copies sets) s u)
    (ht : ∀ v, ¬ Copies sets t v) (hu : ∀ v, ¬ Copies sets u v) : t = u := by
  -- One of the two sets is reached from the other one, and no reference leads away from it.
  rcases ReflTransGen.total_of_right_unique (copies_rightUnique hdistinct) hst hsu with htu | hut
  · rcases htu.cases_head with rfl | ⟨v, htv, -⟩
    · rfl
    · exact absurd htv (ht v)
  · rcases hut.cases_head with rfl | ⟨v, huv, -⟩
    · rfl
    · exact absurd huv (hu v)

/-- A chain that ends does not run into a cycle. -/
theorem not_circles_of_end (hst : ReflTransGen (Copies sets) s t)
    (ht : ∀ v, ¬ Copies sets t v) : ¬ Circles sets s := by
  induction hst using ReflTransGen.head_induction_on with
  | refl =>
      intro hcircles
      obtain ⟨v, hv, -⟩ := exists_copies_of_circles hcircles
      exact ht v hv
  | head hsu _ ih =>
      intro hcircles
      obtain ⟨v, hsv, hv⟩ := exists_copies_of_circles hcircles
      rw [copies_rightUnique hdistinct hsu hsv] at ih
      exact ih hv

theorem hasSource_unique {source' : SetConfiguration} (h : HasSource sets s source)
    (h' : HasSource sets s source') : source = source' :=
  eq_of_ends hdistinct h.1 h'.1 (fun _ => not_copies_of_source h.2)
    (fun _ => not_copies_of_source h'.2)

theorem not_dangles_of_hasSource (h : HasSource sets s source) {name : String} :
    ¬ Dangles sets s name := by
  rintro ⟨t, hst, hname, hunknown⟩
  obtain rfl : source = t :=
    eq_of_ends hdistinct h.1 hst (fun _ => not_copies_of_source h.2)
      (fun _ => not_copies_of_unknown hname hunknown)
  rw [h.2] at hname
  cases hname

theorem not_circles_of_hasSource (h : HasSource sets s source) : ¬ Circles sets s :=
  not_circles_of_end hdistinct h.1 fun _ => not_copies_of_source h.2

theorem dangles_unique {name name' : String} (h : Dangles sets s name)
    (h' : Dangles sets s name') : name = name' := by
  obtain ⟨t, hst, hname, hunknown⟩ := h
  obtain ⟨u, hsu, hname', hunknown'⟩ := h'
  obtain rfl : t = u :=
    eq_of_ends hdistinct hst hsu (fun _ => not_copies_of_unknown hname hunknown)
      (fun _ => not_copies_of_unknown hname' hunknown')
  exact Option.some.inj (hname.symm.trans hname')

theorem not_circles_of_dangles {name : String} (h : Dangles sets s name) : ¬ Circles sets s := by
  obtain ⟨t, hst, hname, hunknown⟩ := h
  exact not_circles_of_end hdistinct hst fun _ => not_copies_of_unknown hname hunknown

end Distinct

/-! ## The search -/

theorem setNamed?_some {name : String} (h : setNamed? sets name = some t) :
    t ∈ sets ∧ t.symbol = name := by
  unfold setNamed? at h
  constructor
  · exact List.mem_reverse.mp (List.mem_of_find?_eq_some h)
  · simpa using List.find?_some h

theorem setNamed?_none {name : String} (h : setNamed? sets name = none) :
    name ∉ sets.map (·.symbol) := by
  unfold setNamed? at h
  simpa using h

/-- Why a search fails. -/
inductive Fails (sets : List SetConfiguration) (symbol : String) (s : SetConfiguration) :
    ConfigurationError → Prop
  | unknown {name : String} (h : Dangles sets s name) :
      Fails sets symbol s (.copyOfUnknown symbol name)
  | cyclic (h : Circles sets s) : Fails sets symbol s (.cyclicCopy symbol)

/-- What a search ends with.  Where it gives up it has seen one more set than it had steps. -/
theorem outcome_followCopies_chain {fuel : Nat} :
    Outcome (HasSource sets s)
      (fun e => (∃ name, e = .copyOfUnknown symbol name ∧ Dangles sets s name) ∨
        e = .cyclicCopy symbol ∧
          ∃ path, (s :: path).IsChain (Copies sets) ∧ path.length = fuel + 1)
      (followCopies sets symbol fuel s) := by
  -- Induction on the count; the chain of the rest is one set shorter.
  fun_induction followCopies sets symbol fuel s with
  | case1 fuel s hown => exact ⟨.refl, hown⟩
  | case2 fuel s name hname hnone =>
      exact .inl ⟨name, rfl, s, .refl, hname, setNamed?_none hnone⟩
  | case3 s name hname next hnext =>
      obtain ⟨hmem, rfl⟩ := setNamed?_some hnext
      exact .inr ⟨rfl, [next], (List.IsChain.singleton next).cons_cons ⟨hmem, hname⟩, rfl⟩
  | case4 s name hname next hnext fuel ih =>
      obtain ⟨hmem, rfl⟩ := setNamed?_some hnext
      have hcopies : Copies sets s next := ⟨hmem, hname⟩
      refine ih.mono (fun _ h => hasSource_of_copies hcopies h) ?_
      rintro _ (⟨name, rfl, h⟩ | ⟨rfl, path, hpath, hlength⟩)
      · exact .inl ⟨name, rfl, dangles_of_copies hcopies h⟩
      · exact .inr ⟨rfl, next :: path, hpath.cons_cons hcopies, by simpa using hlength⟩

/-- What a search with a step for each set ends with. -/
theorem outcome_followCopies (symbol : String) (s : SetConfiguration) {fuel : Nat}
    (hfuel : sets.length ≤ fuel) :
    Outcome (HasSource sets s) (Fails sets symbol s) (followCopies sets symbol fuel s) := by
  refine outcome_followCopies_chain.mono (fun _ h => h) ?_
  rintro _ (⟨name, rfl, h⟩ | ⟨rfl, path, hpath, hlength⟩)
  · exact .unknown h
  · exact .cyclic (circles_of_isChain hpath (by omega))

/-- Where no two sets share a symbol there is one reason to fail. -/
theorem fails_unique (hdistinct : (sets.map (·.symbol)).Nodup) {e e' : ConfigurationError}
    (h : Fails sets symbol s e) (h' : Fails sets symbol s e') : e = e' := by
  cases h with
  | unknown hdangles =>
      cases h' with
      | unknown hdangles' => rw [dangles_unique hdistinct hdangles hdangles']
      | cyclic hcircles => exact absurd hcircles (not_circles_of_dangles hdistinct hdangles)
  | cyclic hcircles =>
      cases h' with
      | unknown hdangles' => exact absurd hcircles (not_circles_of_dangles hdistinct hdangles')
      | cyclic _ => rfl

theorem not_fails_of_hasSource (hdistinct : (sets.map (·.symbol)).Nodup)
    (hsource : HasSource sets s source) {e : ConfigurationError} : ¬ Fails sets symbol s e := by
  intro hfails
  cases hfails with
  | unknown hdangles => exact not_dangles_of_hasSource hdistinct hsource hdangles
  | cyclic hcircles => exact not_circles_of_hasSource hdistinct hsource hcircles

theorem followCopies_eq_ok_iff (hdistinct : (sets.map (·.symbol)).Nodup) {fuel : Nat}
    (hfuel : sets.length ≤ fuel) :
    followCopies sets symbol fuel s = .ok source ↔ HasSource sets s source := by
  constructor
  · exact fun h => (outcome_followCopies symbol s hfuel).value h
  · intro hsource
    rcases (outcome_followCopies symbol s hfuel).cases with
      ⟨found, h, hfound⟩ | ⟨e, -, he⟩
    · rw [h, hasSource_unique hdistinct hfound hsource]
    · exact absurd he (not_fails_of_hasSource hdistinct hsource)

/-- More steps than there are sets find nothing else. -/
theorem followCopies_of_le (hdistinct : (sets.map (·.symbol)).Nodup) {fuel : Nat}
    (hfuel : sets.length ≤ fuel) :
    followCopies sets symbol fuel s = followCopies sets symbol sets.length s := by
  rcases (outcome_followCopies symbol s hfuel).cases with
    ⟨found, h, hfound⟩ | ⟨e, h, he⟩
  · rw [h, (followCopies_eq_ok_iff hdistinct (Nat.le_refl _)).mpr hfound]
  · rcases (outcome_followCopies symbol s (Nat.le_refl _)).cases with
      ⟨found, -, hfound⟩ | ⟨e', h', he'⟩
    · rw [(followCopies_eq_ok_iff hdistinct hfuel).mpr hfound] at h
      cases h
    · rw [h, h', fails_unique hdistinct he he']

/-! ## The registry -/

/-- A dimension has everything that is described for a set, and the items at the end of the set's
references. -/
def Describes (sets : List SetConfiguration) (s : SetConfiguration) (d : Dimension) : Prop :=
  ∃ source, HasSource sets s source ∧ d = {
    id := s.symbol
    tableName := s.tableName.getD (Dimension.defaultTableName s.symbol)
    items := source.items
    splits := s.splits
    categories := s.categories
    aggregation := s.aggregation
    filters := s.filters }

theorem id_of_describes {d : Dimension} (h : Describes sets s d) : d.id = s.symbol := by
  obtain ⟨source, -, rfl⟩ := h
  rfl

theorem ids_of_describes {ds : List Dimension} (h : List.Forall₂ (Describes sets) us ds) :
    ds.map Dimension.id = us.map (·.symbol) := by
  induction h with
  | nil => rfl
  | cons hd _ ih => rw [List.map_cons, List.map_cons, id_of_describes hd, ih]

theorem outcome_dimensionOf :
    Outcome (Describes sets s) (Fails sets s.symbol s) (dimensionOf sets s) :=
  (outcome_followCopies s.symbol s (Nat.le_refl _)).bind fun source hsource => ⟨source, hsource, rfl⟩

/-- Why a list of sets is refused. -/
inductive Refused (sets : List SetConfiguration) : ModelError → Prop
  | repeated {before after : List SetConfiguration} {s : SetConfiguration}
      (hsets : before ++ s :: after = sets) (h : s.symbol ∈ before.map (·.symbol)) :
      Refused sets (.configuration (.duplicateDimension s.symbol))
  | fails {s : SetConfiguration} {e : ConfigurationError} (hs : s ∈ sets)
      (h : Fails sets s.symbol s e) : Refused sets (.configuration e)

theorem outcome_insert {r : Registry} {d : Dimension} :
    Outcome (fun r' : Registry => r'.dims = r.dims ++ [d])
      (fun e => d.id ∈ r.dims.map Dimension.id ∧ e = .configuration (.duplicateDimension d.id))
      (r.insert d) := by
  unfold Registry.insert
  split
  · exact ⟨‹_›, rfl⟩
  · rfl

theorem outcome_registry (c : Configuration) :
    Outcome (fun r : Registry => List.Forall₂ (Describes c.sets) c.sets r.dims) (Refused c.sets)
      c.registry := by
  refine Outcome.foldlM_prefix
    (I := fun before (r : Registry) => List.Forall₂ (Describes c.sets) before r.dims) .nil ?_
  intro before s after r hsets hr
  have hs : s ∈ c.sets := by simp [← hsets]
  have hdimension : Outcome (Describes c.sets s) (Refused c.sets)
      ((dimensionOf c.sets s).mapError ModelError.configuration) :=
    outcome_dimensionOf.mapError fun e he => .fails hs he
  -- the sets before this one have their dimensions; its own fails, repeats a symbol or is appended
  refine hdimension.bind fun d hd => ?_
  refine outcome_insert.mono ?_ ?_
  · intro r' hr'
    rw [hr']
    exact List.rel_append hr (.cons hd .nil)
  · rintro _ ⟨hmem, rfl⟩
    rw [ids_of_describes hr, id_of_describes hd] at hmem
    rw [id_of_describes hd]
    exact .repeated hsets hmem

theorem not_refused {e : ModelError} (hdistinct : (sets.map (·.symbol)).Nodup)
    (hsources : ∀ s ∈ sets, ∃ source, HasSource sets s source) : ¬ Refused sets e := by
  intro hrefused
  cases hrefused with
  | repeated hsets hmem =>
      rw [← hsets, List.map_append, List.map_cons, List.nodup_append] at hdistinct
      exact hdistinct.2.2 _ hmem _ List.mem_cons_self rfl
  | fails hs hfails =>
      obtain ⟨source, hsource⟩ := hsources _ hs
      exact not_fails_of_hasSource hdistinct hsource hfails

theorem registry_ok_iff (c : Configuration) : (∃ r, c.registry = .ok r) ↔
    (c.sets.map (·.symbol)).Nodup ∧ ∀ s ∈ c.sets, ∃ source, HasSource c.sets s source := by
  constructor
  · rintro ⟨r, hr⟩
    have hdims : List.Forall₂ (Describes c.sets) c.sets r.dims := (outcome_registry c).value hr
    constructor
    · rw [← ids_of_describes hdims]
      exact r.ids_nodup
    · intro s hs
      obtain ⟨d, -, source, hsource, -⟩ := exists_right_of_forall₂ hdims hs
      exact ⟨source, hsource⟩
  · rintro ⟨hdistinct, hsources⟩
    rcases (outcome_registry c).cases with ⟨r, hr, -⟩ | ⟨e, -, he⟩
    · exact ⟨r, hr⟩
    · exact absurd he (not_refused hdistinct hsources)

theorem exists_hasSource_iff (hdistinct : (sets.map (·.symbol)).Nodup) :
    (∃ source, HasSource sets s source) ↔ (∀ name, ¬ Dangles sets s name) ∧ ¬ Circles sets s := by
  constructor
  · rintro ⟨source, hsource⟩
    exact ⟨fun _ => not_dangles_of_hasSource hdistinct hsource,
      not_circles_of_hasSource hdistinct hsource⟩
  · rintro ⟨hdangles, hcircles⟩
    rcases (outcome_followCopies s.symbol s (Nat.le_refl sets.length)).cases with
      ⟨source, -, hsource⟩ | ⟨e, -, he⟩
    · exact ⟨source, hsource⟩
    · cases he with
      | unknown h => exact absurd h (hdangles _)
      | cyclic h => exact absurd h hcircles

/-- The registry of described sets exists exactly if no two of them share a symbol and the
references from each one end at a set with items of its own.  Its dimensions have the order of the
sets, and each has the items at the end of its references.  With distinct symbols the references
from a set end so exactly if they neither lead to an unknown name nor run into a cycle, and a search
that gives up later finds nothing else. -/
theorem registry_resolves_copies (c : Configuration) :
    ((∃ r, c.registry = .ok r) ↔
      (c.sets.map (·.symbol)).Nodup ∧ ∀ s ∈ c.sets, ∃ source, HasSource c.sets s source) ∧
    (∀ r, c.registry = .ok r → List.Forall₂ (Describes c.sets) c.sets r.dims) ∧
    (∀ e, c.registry = .error e → Refused c.sets e) ∧
    ((c.sets.map (·.symbol)).Nodup → ∀ s ∈ c.sets,
      ((∃ source, HasSource c.sets s source) ↔
        (∀ name, ¬ Dangles c.sets s name) ∧ ¬ Circles c.sets s) ∧
      ∀ symbol fuel, c.sets.length ≤ fuel →
        followCopies c.sets symbol fuel s = followCopies c.sets symbol c.sets.length s) := by
  refine ⟨registry_ok_iff c, ?_, ?_, ?_⟩
  · intro r hr
    exact (outcome_registry c).value hr
  · intro e he
    rcases (outcome_registry c).cases with ⟨r, hr, -⟩ | ⟨e', he', hrefused⟩
    · rw [he] at hr
      cases hr
    · obtain rfl : e = e' := Except.error.inj (he.symm.trans he')
      exact hrefused
  · intro hdistinct s _
    exact ⟨exists_hasSource_iff hdistinct, fun symbol fuel hfuel => followCopies_of_le hdistinct hfuel⟩

/-- A described set that has nothing but its items, or those of another set. -/
def plainSet (symbol : String) (items : List String) (copyFrom : Option String) :
    SetConfiguration where
  symbol := symbol
  tableName := none
  splits := false
  items := items
  categories := .empty
  aggregation := .empty
  filters := .empty
  copyFrom := copyFrom

/-- Three sets, each of which is described before the one that it copies from. -/
def backwards : Configuration :=
  { Configuration.empty with sets := [
    plainSet "routes" [] (some "lines"), plainSet "lines" [] (some "trains"),
    plainSet "trains" ["regional", "express"] none] }

theorem registry_resolves_copies_backwards :
    (∃ r, backwards.registry = .ok r ∧ List.Forall₂ (Describes backwards.sets) backwards.sets r.dims)
      ∧ followCopies backwards.sets "routes" 100 (plainSet "routes" [] (some "lines")) =
        followCopies backwards.sets "routes" 3 (plainSet "routes" [] (some "lines")) := by
  obtain ⟨hiff, hdims, -, hdistinct⟩ := registry_resolves_copies backwards
  have hnodup : (backwards.sets.map (·.symbol)).Nodup := by decide
  have htrains : HasSource backwards.sets (plainSet "trains" ["regional", "express"] none)
      (plainSet "trains" ["regional", "express"] none) := ⟨.refl, rfl⟩
  have hlines := hasSource_of_copies (s := plainSet "lines" [] (some "trains"))
    ⟨by simp [backwards], rfl⟩ htrains
  have hroutes := hasSource_of_copies (s := plainSet "routes" [] (some "lines"))
    ⟨by simp [backwards], rfl⟩ hlines
  obtain ⟨r, hr⟩ := hiff.mpr ⟨hnodup, by
    intro s hs
    simp only [backwards, List.mem_cons, List.not_mem_nil, or_false] at hs
    rcases hs with rfl | rfl | rfl
    · exact ⟨_, hroutes⟩
    · exact ⟨_, hlines⟩
    · exact ⟨_, htrains⟩⟩
  exact ⟨⟨r, hr, hdims r hr⟩, (hdistinct hnodup _ List.mem_cons_self).2 "routes" 100 (by decide)⟩

-- A set that runs into a cycle of which it is no part.
example : dimensionOf
    [plainSet "routes" [] (some "lines"), plainSet "lines" [] (some "lines")]
    (plainSet "routes" [] (some "lines")) = .error (.cyclicCopy "routes") := by
  rfl

end CoupledModels.Configuration

end
