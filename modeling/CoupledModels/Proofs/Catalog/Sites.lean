import CoupledModels.Proofs.Catalog.Consistency

/-!
# Sites of bindings

A build lists the sites of every variable, and each site gets one binding.  So after a build the
bindings of a variable are those of its sites, one for each and in the same order, and a binding
tells from its value whether the table is decided by a solver at its site.
-/

namespace CoupledModels

/-- A binding is for every sub-problem that it agrees with, or for this one alone. -/
theorem Binding.scope_of_appliesTo {b : Binding} {key : ProblemKey} (h : b.appliesTo key = true) :
    b.scope = none ∨ b.scope = some key := by
  obtain ⟨hscope, -⟩ := Bool.and_eq_true_iff.mp h
  cases hs : b.scope with
  | none => exact .inl rfl
  | some s =>
      rw [hs] at hscope
      exact .inr (congrArg some (beq_iff_eq.mp hscope))

/-- A rule has the kind that it gives to a sub-problem. -/
theorem KindRule.has_of_kindFor {r : KindRule} {key : ProblemKey} {kind : TableKind}
    (h : r.kindFor key = .ok kind) : r.has kind = true := by
  cases r with
  | fixed k =>
      cases h
      exact beq_self_eq_true kind
  | perProblem kinds =>
      unfold kindFor at h
      dsimp only at h
      cases hget : kinds.get? key with
      | none =>
          rw [hget] at h
          cases h
      | some k =>
          rw [hget] at h
          cases h
          rw [has, List.contains_iff_mem]
          exact List.mem_map.mpr ⟨_, SortedMap.mem_entries_of_get? hget, rfl⟩

namespace Catalog

variable {K : Type} {c d : Catalog K} {v : Variable} {b : Binding} {keys : List ProblemKey}

/-- Every site at which a variable gets a binding; a constant has one site for all sub-problems. -/
def placesOf (v : Variable) (keys : List ProblemKey) : Except ModelError (List Site) :=
  if v.isConstant then .ok [⟨none, .constant, [], none⟩]
  else (scopes v keys).map (sites v)

/-- A binding has been made for a site of a variable. -/
structure Stands (v : Variable) (b : Binding) (s : Site) : Prop where
  symbol : b.symbol = v.symbol
  scope : b.scope = s.scope
  inter : b.inter = s.inter
  intra : b.intra = s.intra
  decision : b.isDecision = true ↔ s.kind = .endogenous

/-- The bindings of a variable are those of its sites. -/
def Placed (keys : List ProblemKey) (c : Catalog K) (v : Variable) : Prop :=
  ∃ ss, placesOf v keys = .ok ss ∧ List.Forall₂ (Stands v) (c.bindingsOf v.symbol) ss

/-! ## One variable -/

/-- Bindings that are added count for their own symbol only. -/
theorem bindingsOf_append {bs : List Binding} (h : d.bindings.toList = c.bindings.toList ++ bs)
    (hbs : ∀ b ∈ bs, b.symbol = v.symbol) (symbol : String) :
    d.bindingsOf symbol = c.bindingsOf symbol ++ if v.symbol = symbol then bs else [] := by
  rw [bindingsOf, bindingsOf, h, List.filter_append]
  congr 1
  by_cases hsymbol : v.symbol = symbol
  · rw [if_pos hsymbol, List.filter_eq_self]
    intro b hb
    exact beq_iff_eq.mpr ((hbs b hb).trans hsymbol)
  · rw [if_neg hsymbol, List.filter_eq_nil_iff]
    intro b hb hmatch
    exact hsymbol ((hbs b hb).symm.trans (beq_iff_eq.mp hmatch))

/-- A catalog has been given one binding for each of some sites of a variable. -/
def Places (v : Variable) (ss : List Site) (c d : Catalog K) : Prop :=
  ∃ bs, d.bindings.toList = c.bindings.toList ++ bs ∧ List.Forall₂ (Stands v) bs ss

theorem Places.refl (v : Variable) (c : Catalog K) : Places v [] c c :=
  ⟨[], (List.append_nil _).symm, .nil⟩

theorem Places.trans {e : Catalog K} {ss ts : List Site} (h : Places v ss c d)
    (h' : Places v ts d e) : Places v (ss ++ ts) c e := by
  obtain ⟨bs, hd, hbs⟩ := h
  obtain ⟨bs', he, hbs'⟩ := h'
  exact ⟨bs ++ bs', by rw [he, hd, List.append_assoc], List.rel_append hbs hbs'⟩

/-- A binding that is pushed is one for its site. -/
theorem places_pushBinding {s : Site} {value : BindingValue} (hbindings : d.bindings = c.bindings)
    (hvalue : (∃ i columns, value = .slice i columns) ↔ s.kind = .endogenous) :
    Places v [s] c (d.pushBinding v s.scope s.inter s.intra value) := by
  refine ⟨[⟨d.bindings.size, v.symbol, s.scope, s.inter, s.intra, bindingFilter v s.intra s.inter,
    v.shape, value⟩], by simp [pushBinding, hbindings], .cons ⟨rfl, rfl, rfl, rfl, ?_⟩ .nil⟩
  rw [← hvalue]
  cases value <;> simp [Binding.isDecision]

theorem outcome_addSite_places (v : Variable) (c : Catalog K) (s : Site) :
    Outcome (Places v [s] c) AnyError (addSite v c s) := by
  unfold addSite
  cases hkind : s.kind with
  | constant => trivial
  | exogenous =>
      refine places_pushBinding (s := s) rfl ?_
      simp [hkind]
  | endogenous =>
      refine Outcome.bind_ok fun value hslice => ?_
      obtain ⟨i, -, columns, rfl, -⟩ := slice_ok hslice
      refine places_pushBinding (s := s) rfl ?_
      simp [hkind]

/-- A variable gets a binding at each of its sites. -/
theorem outcome_addBindings_places [Scalar K] (keys : List ProblemKey) (c : Catalog K)
    (v : Variable) :
    Outcome (fun d => ∃ ss, placesOf v keys = .ok ss ∧ Places v ss c d) AnyError
      (addBindings keys c v) := by
  unfold addBindings placesOf
  by_cases hconstant : v.isConstant = true
  · rw [if_pos hconstant, if_pos hconstant]
    refine Outcome.bind_any fun m => ?_
    exact ⟨_, rfl, places_pushBinding (s := ⟨none, .constant, [], none⟩) rfl (by simp)⟩
  · rw [if_neg hconstant, if_neg hconstant]
    refine Outcome.bind_ok fun scopes hscopes => ?_
    have hsites : Outcome (Places v (sites v scopes) c) AnyError
        ((sites v scopes).foldlM (addSite v) c) :=
      Outcome.foldlM_prefix (I := fun done d => Places v done c d) (Places.refl v c)
        fun done s _ e _ he => (outcome_addSite_places v e s).imp fun _ h => he.trans h
    exact hsites.imp fun d hd => ⟨_, by rw [hscopes]; rfl, hd⟩

/-! ## All variables -/

theorem symbol_of_stands {ss : List Site} {bs : List Binding} (h : List.Forall₂ (Stands v) bs ss) :
    ∀ b ∈ bs, b.symbol = v.symbol := by
  intro b hb
  obtain ⟨s, -, hs⟩ := exists_right_of_forall₂ h hb
  exact hs.symbol

/-- Some variables have been bound at their sites, and no other symbol has a binding yet. -/
structure Reached (keys : List ProblemKey) (done : List Variable) (c : Catalog K) : Prop where
  placed : ∀ v ∈ done, c.Placed keys v
  unbound : ∀ symbol ∉ done.map Variable.symbol, c.bindingsOf symbol = []

/-- One more variable gets its bindings, and those of the others stay what they were. -/
theorem Reached.append {done : List Variable} (h : c.Reached keys done)
    (hnew : v.symbol ∉ done.map Variable.symbol) {ss : List Site} (hss : placesOf v keys = .ok ss)
    (hplaces : Places v ss c d) : d.Reached keys (done ++ [v]) := by
  obtain ⟨bs, hbindings, hbs⟩ := hplaces
  have hbindingsOf := bindingsOf_append hbindings (symbol_of_stands hbs)
  -- the new bindings have the symbol of this variable, which no variable before it has
  constructor
  · intro w hw
    rcases List.mem_append.mp hw with hw | hw
    · have hne : v.symbol ≠ w.symbol := fun heq => hnew (heq ▸ List.mem_map_of_mem hw)
      obtain ⟨ss, hss, hbs⟩ := h.placed w hw
      refine ⟨ss, hss, ?_⟩
      rwa [hbindingsOf, if_neg hne, List.append_nil]
    · obtain rfl := List.mem_singleton.mp hw
      refine ⟨ss, hss, ?_⟩
      rwa [hbindingsOf, if_pos rfl, h.unbound _ hnew, List.nil_append]
  · intro symbol hsymbol
    rw [List.map_append, List.mem_append, not_or, List.map_singleton, List.mem_singleton] at hsymbol
    rw [hbindingsOf, if_neg (Ne.symm hsymbol.2), List.append_nil]
    exact h.unbound symbol hsymbol.1

/-- Variables that are bound one after the other get the bindings of their own sites. -/
theorem placed_of_addBindings [Scalar K] {vs : List Variable}
    (hsymbols : (vs.map Variable.symbol).Nodup) (hunbound : c.bindings = #[])
    (h : vs.foldlM (addBindings keys) c = .ok d) : ∀ v ∈ vs, d.Placed keys v := by
  have hreached : Outcome (Reached keys vs) AnyError (vs.foldlM (addBindings keys) c) := by
    refine Outcome.foldlM_prefix (I := fun done d => Reached keys done d)
      ⟨List.forall_mem_nil _, fun _ _ => by rw [bindingsOf, hunbound, List.filter_nil]⟩
      fun done v rest e hdone he => ?_
    have hnew : v.symbol ∉ done.map Variable.symbol := by
      rw [← hdone, List.map_append, List.nodup_append] at hsymbols
      intro hmem
      exact hsymbols.2.2 _ hmem _ List.mem_cons_self rfl
    refine (outcome_addBindings_places keys e v).imp fun d hd => ?_
    obtain ⟨ss, hss, hplaces⟩ := hd
    exact he.append hnew hss hplaces
  exact (hreached.value h).placed

/-- After a build, and whatever becomes of the catalog, every variable is bound at its sites. -/
theorem placed_of_build [Scalar K] {tables : List TableDeclaration} {sets : Registry}
    (h : build tables sets = .ok c) (hlater : c.Later d) :
    ∀ v ∈ d.members, d.Placed sets.problemKeys v := by
  obtain ⟨-, c₁, htables, hbindings⟩ := build_ok h
  obtain ⟨hdeclares, hunbound, -⟩ := declares_of_addTables htables
  have hmembers := (grows_of_addBindings hbindings).extension.members
  obtain ⟨hrefills, -⟩ := hlater.refills (built_of_build h).addressed
  intro v hv
  rw [hrefills.members, hmembers] at hv
  obtain ⟨ss, hss, hbs⟩ := placed_of_addBindings hdeclares.symbols hunbound hbindings v hv
  refine ⟨ss, hss, ?_⟩
  rwa [bindingsOf, hrefills.bindings]

/-! ## Kinds of sites -/

/-- The kind of a site is that of the table in every sub-problem that the site is for. -/
theorem kindFor_of_mem_placesOf {ss : List Site} (hss : placesOf v keys = .ok ss) {s : Site}
    (hs : s ∈ ss) {key : ProblemKey} (hscope : s.scope = none ∨ s.scope = some key) :
    v.kind.kindFor key = .ok s.kind := by
  unfold placesOf at hss
  by_cases hconstant : v.isConstant = true
  · rw [if_pos hconstant] at hss
    cases hss
    have hkind : v.kind = .fixed .constant := beq_iff_eq.mp hconstant
    rw [hkind, List.mem_singleton.mp hs]
    rfl
  rw [if_neg hconstant] at hss
  obtain ⟨scopes, hscopes, rfl⟩ := exists_of_map_eq_ok hss
  unfold sites at hs
  obtain ⟨⟨scope, kind⟩, hmem, hs⟩ := List.mem_flatMap.mp hs
  obtain ⟨inter, -, hs⟩ := List.mem_flatMap.mp hs
  obtain ⟨intra, -, rfl⟩ := List.mem_map.mp hs
  unfold Catalog.scopes at hscopes
  cases hkind : v.kind with
  | fixed k =>
      rw [hkind] at hscopes
      cases hscopes
      obtain ⟨-, rfl⟩ := Prod.mk.inj (List.mem_singleton.mp hmem)
      rfl
  | perProblem kinds =>
      rw [hkind] at hscopes
      obtain ⟨key', -, hkey'⟩ := exists_left_of_forall₂ (forall₂_of_mapM hscopes) hmem
      obtain ⟨kind', hkind', heq⟩ := exists_of_bind_eq_ok hkey'
      cases heq
      rcases hscope with hnone | hsome
      · cases hnone
      · cases hsome
        exact hkind'

/-- In a sub-problem that a binding is for, it tells from its value whether its table is decided by the
solver. -/
theorem Placed.isDecision_iff (h : c.Placed keys v) (hb : b ∈ c.bindingsOf v.symbol)
    {key : ProblemKey} (happlies : b.appliesTo key = true) :
    b.isDecision = true ↔ v.kind.kindFor key = .ok .endogenous := by
  obtain ⟨ss, hss, hbs⟩ := h
  obtain ⟨s, hs, hstands⟩ := exists_right_of_forall₂ hbs hb
  have hkind := kindFor_of_mem_placesOf hss hs (hstands.scope ▸ b.scope_of_appliesTo happlies)
  rw [hstands.decision, hkind, Except.ok.injEq]

/-- In a sub-problem that a decision binding is for, its table is decided by the solver. -/
theorem Placed.kindFor (h : c.Placed keys v) (hb : b ∈ c.bindingsOf v.symbol) {key : ProblemKey}
    (happlies : b.appliesTo key = true) (hdecision : b.isDecision = true) :
    v.kind.kindFor key = .ok .endogenous :=
  (h.isDecision_iff hb happlies).mp hdecision

end Catalog

end CoupledModels
