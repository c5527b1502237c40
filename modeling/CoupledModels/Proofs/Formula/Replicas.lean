import CoupledModels.Proofs.Catalog.Selection
import CoupledModels.Proofs.Formula.Names

/-!
# The items that a text is replicated over

A text is replicated over the intra items that its variables have in common, and it is refused if two
of them clash.  Whether its names are tied to bindings is decided for each item on its own, by
counting the candidates of each name.  The count does not depend on the item, because the bindings of
a variable are made for all of its intra items alike; so the names are tied to bindings for all items
or for none.
-/

namespace CoupledModels.Formula

variable {K : Type} {c d : Catalog K} {names : List String} {text : String} {key : ProblemKey}
  {v w : Variable} {dim : String}

/-- A text with some names is replicated over the intra items of a variable. -/
structure Replicates (c : Catalog K) (names : List String) (v : Variable) (dim : String) : Prop where
  member : v ∈ c.members
  named : v.symbol ∈ names
  varies : v.isConstant = false
  intra : v.roles.intra = some dim

/-- Two variables of a text differ in their intra dimensions, or in the items that they have there. -/
def Clashes (c : Catalog K) (names : List String) : Prop :=
  ∃ v dim w dim', Replicates c names v dim ∧ Replicates c names w dim' ∧
    (dim ≠ dim' ∨ v.itemsOf dim ≠ w.itemsOf dim')

/-- What a text is replicated over: nothing, or the items that all of its variables with an intra
dimension have there, in the order of the dimension. -/
inductive Replicas (sets : Registry) (c : Catalog K) (names : List String) :
    List (Option String) → Prop
  | once (hnone : ∀ v dim, ¬ Replicates c names v dim) : Replicas sets c names [none]
  | each {dim : Dimension} {items : List String} (hdim : sets.find? dim.id = some dim)
      (horder : items.Sublist dim.items) (hsome : ∃ v, Replicates c names v dim.id)
      (hall : ∀ v d, Replicates c names v d → d = dim.id ∧ v.itemsOf d = items) :
      Replicas sets c names (items.map some)

/-- The only binding of a name for a sub-problem, and for the intra item of an instance if the text is
replicated over its variable. -/
structure BoundTo (c : Catalog K) (names : List String) (key : ProblemKey) (item : Option String)
    (n : String) (b : Binding) : Prop where
  mem : b ∈ c.bindings
  symbol : b.symbol = n
  applies : b.appliesTo key = true
  intra : ∀ v dim, v.symbol = n → Replicates c names v dim → b.intra = item
  only : ∀ b' ∈ c.bindings, b'.symbol = n → b'.appliesTo key = true →
    (∀ v dim, v.symbol = n → Replicates c names v dim → b'.intra = item) → b' = b

/-! ## The intra dimension of a text -/

/-- The intra dimension that some names have in common. -/
def Common (c : Catalog K) (names : List String) : Option IntraDimension → Prop
  | none => ∀ v dim, ¬ Replicates c names v dim
  | some i => (∃ v, Replicates c names v i.dim) ∧
      ∀ v dim, Replicates c names v dim → dim = i.dim ∧ v.itemsOf dim = i.items

namespace Replicates

theorem mono {names' : List String} (h : Replicates c names v dim) (hnames : names ⊆ names') :
    Replicates c names' v dim :=
  ⟨h.member, hnames h.named, h.varies, h.intra⟩

/-- With one more name a text is replicated over the variable of this name as well. -/
theorem of_append {symbol : String} (hv : ∀ w ∈ c.members, w.symbol = symbol → w = v)
    (h : Replicates c (names ++ [symbol]) w dim) :
    Replicates c names w dim ∨ w = v ∧ v.isConstant = false ∧ v.roles.intra = some dim := by
  rcases List.mem_append.mp h.named with hmem | hmem
  · exact .inl ⟨h.member, hmem, h.varies, h.intra⟩
  · obtain rfl := hv w h.member (List.mem_singleton.mp hmem)
    exact .inr ⟨rfl, h.varies, h.intra⟩

/-- What all variables have in common stays so if it is that of one more variable. -/
theorem forall_append {symbol : String} (hv : ∀ w ∈ c.members, w.symbol = symbol → w = v)
    (hintra : v.roles.intra = some dim)
    (hall : ∀ w d, Replicates c names w d → d = dim ∧ w.itemsOf d = v.itemsOf dim) :
    ∀ w d, Replicates c (names ++ [symbol]) w d → d = dim ∧ w.itemsOf d = v.itemsOf dim := by
  intro w d hw
  rcases hw.of_append hv with hw | ⟨rfl, -, hintra'⟩
  · exact hall w d hw
  · obtain rfl := Option.some.inj (hintra.symm.trans hintra')
    exact ⟨rfl, rfl⟩

end Replicates

theorem Clashes.mono {names' : List String} (h : Clashes c names) (hnames : names ⊆ names') :
    Clashes c names' := by
  obtain ⟨v, dim, w, dim', hv, hw, hne⟩ := h
  exact ⟨v, dim, w, dim', hv.mono hnames, hw.mono hnames, hne⟩

/-- Nothing clashes if there is an intra dimension in common. -/
theorem Common.not_clashes {found : Option IntraDimension} (h : Common c names found) :
    ¬ Clashes c names := by
  rintro ⟨v, dim, w, dim', hv, hw, hne⟩
  cases found with
  | none => exact h v dim hv
  | some i =>
      obtain ⟨hdim, hitems⟩ := h.2 v dim hv
      obtain ⟨hdim', hitems'⟩ := h.2 w dim' hw
      rcases hne with hne | hne
      · exact hne (hdim.trans hdim'.symm)
      · exact hne (hitems.trans hitems'.symm)

/-- A name whose variable has no intra dimension leaves the one that the names before it have in
common. -/
theorem Common.append {found : Option IntraDimension} (h : Common c names found) {symbol : String}
    (hv : ∀ w ∈ c.members, w.symbol = symbol → w = v)
    (hnone : ∀ dim, v.isConstant = false → v.roles.intra ≠ some dim) :
    Common c (names ++ [symbol]) found := by
  have hsymbol : ∀ w dim, Replicates c (names ++ [symbol]) w dim → Replicates c names w dim :=
    fun w dim hw => (hw.of_append hv).resolve_right fun ⟨_, hvaries, hintra⟩ =>
      hnone dim hvaries hintra
  cases found with
  | none => exact fun w dim hw => h w dim (hsymbol w dim hw)
  | some i =>
      obtain ⟨⟨v, hv⟩, hall⟩ := h
      exact ⟨⟨v, hv.mono (List.subset_append_left _ _)⟩,
        fun w dim hw => hall w dim (hsymbol w dim hw)⟩

/-- A name whose variable has another intra dimension than the names before it clashes with them. -/
theorem Common.clashes {i : IntraDimension} (h : Common c names (some i)) {symbol : String}
    (hself : Replicates c (names ++ [symbol]) v dim)
    (hne : i.dim ≠ dim ∨ i.items ≠ v.itemsOf dim) : Clashes c (names ++ [symbol]) := by
  obtain ⟨⟨u, hu⟩, hall⟩ := h
  exact ⟨u, i.dim, v, dim, hu.mono (List.subset_append_left names [symbol]), hself,
    by rwa [(hall u i.dim hu).2]⟩

/-- A name whose variable has the intra dimension of the names before it has it in common with
them. -/
theorem Common.same {i : IntraDimension} (h : Common c names (some i)) {symbol : String}
    (hv : ∀ w ∈ c.members, w.symbol = symbol → w = v) (hintra : v.roles.intra = some i.dim)
    (hitems : i.items = v.itemsOf i.dim) : Common c (names ++ [symbol]) (some i) := by
  obtain ⟨⟨u, hu⟩, hall⟩ := h
  refine ⟨⟨u, hu.mono (List.subset_append_left names [symbol])⟩, ?_⟩
  rw [hitems] at hall ⊢
  exact Replicates.forall_append hv hintra hall

section Catalogs

variable (hsymbols : ∀ v ∈ c.members, c.variableNamed? v.symbol = some v)
  (hitems : ∀ v ∈ c.members, ∀ dim, v.roles.intra = some dim →
    v.intraItems? = some (v.itemsOf dim))
include hsymbols hitems

/-- One more name has the intra dimension of the names before it, or its variable clashes with one of
theirs. -/
theorem outcome_joinIntra_common (text : String) {found : Option IntraDimension}
    (hfound : Common c names found) {symbol : String}
    (hdeclared : (c.variableNamed? symbol).isSome = true) :
    Outcome (Common c (names ++ [symbol]))
      (fun e => (∃ cause, e = .conceptual cause) ∧ Clashes c (names ++ [symbol]))
      (joinIntra c text found symbol) := by
  obtain ⟨v, hv⟩ := Option.isSome_iff_exists.mp hdeclared
  have hmem : v ∈ c.members := List.mem_of_find?_eq_some hv
  have hsymbol : v.symbol = symbol := by simpa using List.find?_some hv
  have hown : ∀ w ∈ c.members, w.symbol = symbol → w = v := fun w hw hws =>
    Option.some.inj ((hsymbols w hw).symm.trans (hws ▸ hv))
  unfold joinIntra
  rw [hv]
  dsimp only
  split
  · rename_i hconstant
    exact hfound.append hown fun dim hvaries => by simp [hvaries] at hconstant
  rename_i hvaries
  rw [Bool.not_eq_true] at hvaries
  cases hintra : v.roles.intra with
  | none => exact hfound.append hown fun dim _ => by simp [hintra]
  | some dim =>
      rw [hitems v hmem dim hintra]
      -- the first variable with an intra dimension says which it is, and later ones are compared
      have hself : Replicates c (names ++ [symbol]) v dim :=
        ⟨hmem, List.mem_append_right _ (List.mem_singleton.mpr hsymbol), hvaries, hintra⟩
      cases found with
      | none =>
          exact ⟨⟨v, hself⟩,
            Replicates.forall_append hown hintra fun w d hw => (hfound w d hw).elim⟩
      | some i =>
          dsimp only
          split
          · rename_i hne
            exact ⟨⟨_, rfl⟩, hfound.clashes hself (.inl hne)⟩
          rename_i hdim
          split
          · rename_i hne
            exact ⟨⟨_, rfl⟩, hfound.clashes hself (.inr hne)⟩
          rename_i hsame
          rw [Decidable.not_not] at hdim hsame
          subst hdim
          exact hfound.same hown hintra hsame

/-- Looking for the intra dimension of declared names finds the one that they have in common, or two
variables that clash. -/
theorem outcome_foldlM_joinIntra (text : String)
    (hdeclared : ∀ n ∈ names, (c.variableNamed? n).isSome = true) :
    Outcome (Common c names) (fun e => (∃ cause, e = .conceptual cause) ∧ Clashes c names)
      (names.foldlM (joinIntra c text) none) := by
  refine Outcome.foldlM_prefix (I := Common c) (fun v dim h => nomatch h.named)
    fun done symbol rest found hnames hfound => ?_
  have hprefix : done ++ [symbol] ⊆ names := by
    rw [← hnames, List.append_cons done symbol rest]
    exact List.subset_append_left _ _
  have hsymbol : symbol ∈ names := hprefix (List.mem_append_right _ (List.mem_singleton_self _))
  exact (outcome_joinIntra_common hsymbols hitems text hfound (hdeclared symbol hsymbol)).mono
    (fun _ => id) fun _ he => ⟨he.1, he.2.mono hprefix⟩

end Catalogs

/-! ## Tying names to bindings -/

/-- The intra item that selects a binding of a name. -/
def selector (c : Catalog K) (item : Option String) (n : String) : Option String :=
  match c.variableNamed? n with
  | some v => if v.isConstant || v.roles.intra.isNone then none else item
  | none => none

section Cons

variable {item : Option String} {symbol : String} {rest : List String}
  (hdeclared : (c.variableNamed? symbol).isSome = true)
include hdeclared

/-- A name without a binding leaves the whole text without one. -/
theorem bindNames_cons_nil (h : c.candidates symbol key (selector c item symbol) = []) :
    bindNames c text key item (symbol :: rest) = .ok none := by
  obtain ⟨v, hv⟩ := Option.isSome_iff_exists.mp hdeclared
  rw [selector, hv] at h
  rw [bindNames, hv]
  dsimp only at h ⊢
  rw [h]

theorem bindNames_cons_singleton {b : Binding}
    (h : c.candidates symbol key (selector c item symbol) = [b]) :
    bindNames c text key item (symbol :: rest) =
      (bindNames c text key item rest).map (Option.map ((symbol, b) :: ·)) := by
  obtain ⟨v, hv⟩ := Option.isSome_iff_exists.mp hdeclared
  rw [selector, hv] at h
  rw [bindNames, hv]
  dsimp only at h ⊢
  rw [h]
  cases bindNames c text key item rest <;> rfl

theorem bindNames_cons_several
    (h : 1 < (c.candidates symbol key (selector c item symbol)).length) :
    bindNames c text key item (symbol :: rest) = .error (.expression (.ambiguous symbol
      (c.candidates symbol key (selector c item symbol)).length key text)) := by
  obtain ⟨v, hv⟩ := Option.isSome_iff_exists.mp hdeclared
  rw [selector, hv] at h ⊢
  rw [bindNames, hv]
  dsimp only at h ⊢
  split
  · rename_i heq
    rw [heq] at h
    cases h
  · rename_i heq
    rw [heq] at h
    exact absurd h (by simp)
  · rfl

end Cons

/-- Each name is tied to its only candidate. -/
theorem bindNames_only {item : Option String} {entries : List (String × Binding)}
    (hdeclared : ∀ n ∈ names, (c.variableNamed? n).isSome = true)
    (h : bindNames c text key item names = .ok (some entries)) :
    entries.map Prod.fst = names ∧
      ∀ e ∈ entries, c.candidates e.1 key (selector c item e.1) = [e.2] := by
  induction names generalizing entries with
  | nil =>
      cases h
      exact ⟨rfl, nofun⟩
  | cons symbol rest ih =>
      obtain ⟨hsymbol, hrest⟩ := List.forall_mem_cons.mp hdeclared
      cases hcandidates : c.candidates symbol key (selector c item symbol) with
      | nil =>
          rw [bindNames_cons_nil hsymbol hcandidates] at h
          cases h
      | cons b others =>
          cases others with
          | nil =>
              rw [bindNames_cons_singleton hsymbol hcandidates] at h
              obtain ⟨found, hfound, heq⟩ := exists_of_map_eq_ok h
              obtain ⟨known, rfl, rfl⟩ := Option.map_eq_some_iff.mp heq
              obtain ⟨hlisted, hall⟩ := ih hrest hfound
              exact ⟨by rw [List.map_cons, hlisted], List.forall_mem_cons.mpr ⟨hcandidates, hall⟩⟩
          | cons b' others =>
              rw [bindNames_cons_several hsymbol (by simp [hcandidates])] at h
              cases h

/-- If the candidates of the names are equally many for two items, the names are tied to bindings for
both of them or for none. -/
theorem isSome_bindNames_congr {x y : Option String} (text : String)
    (hdeclared : ∀ n ∈ names, (c.variableNamed? n).isSome = true)
    (h : ∀ n ∈ names, (c.candidates n key (selector c x n)).length =
      (c.candidates n key (selector c y n)).length) :
    (bindNames c text key x names).map Option.isSome =
      (bindNames c text key y names).map Option.isSome := by
  have hmap : ∀ (r : Except ModelError (Option (List (String × Binding)))) (e : String × Binding),
      (r.map (Option.map (e :: ·))).map Option.isSome = r.map Option.isSome := by
    intro r e
    cases r with
    | error _ => rfl
    | ok found => exact congrArg Except.ok (Option.isSome_map ..)
  induction names with
  | nil => rfl
  | cons symbol rest ih =>
      obtain ⟨hsymbol, hrest⟩ := List.forall_mem_cons.mp hdeclared
      obtain ⟨hlength, hlengths⟩ := List.forall_mem_cons.mp h
      -- the first name without exactly one candidate ends the search, for both items alike
      rcases Nat.lt_trichotomy (c.candidates symbol key (selector c x symbol)).length 1
        with hlt | hone | hgt
      · have hx := List.eq_nil_of_length_eq_zero (Nat.lt_one_iff.mp hlt)
        have hy := List.eq_nil_of_length_eq_zero (Nat.lt_one_iff.mp (hlength ▸ hlt))
        rw [bindNames_cons_nil hsymbol hx, bindNames_cons_nil hsymbol hy]
      · obtain ⟨b, hb⟩ := List.length_eq_one_iff.mp hone
        obtain ⟨b', hb'⟩ := List.length_eq_one_iff.mp (hlength ▸ hone)
        rw [bindNames_cons_singleton hsymbol hb, bindNames_cons_singleton hsymbol hb', hmap, hmap]
        exact ih hrest hlengths
      · rw [bindNames_cons_several hsymbol hgt, bindNames_cons_several hsymbol (hlength ▸ hgt),
          hlength]

/-- Tying names to bindings reports mistakes in the text, never ones of the model. -/
theorem outcome_bindNames_expression (item : Option String) (names : List String) :
    Outcome (fun _ => True) (fun e => ∃ cause, e = .expression cause)
      (bindNames c text key item names) := by
  induction names with
  | nil => trivial
  | cons symbol rest ih =>
      unfold bindNames
      split
      · exact ⟨_, rfl⟩
      dsimp only
      split
      · trivial
      · exact ih.bind fun _ _ => trivial
      · exact ⟨_, rfl⟩

/-! ## Replicas -/

/-- The items that a text with an intra dimension is replicated over. -/
def replicas (found : Option IntraDimension) : List (Option String) :=
  match found with
  | some i => i.items.map some
  | none => [none]

section Declared

variable {tables : List TableDeclaration} {sets : Registry} (hdeclares : c.Declares tables sets)
include hdeclares

/-- A variable with an intra dimension has items there, in the order of the dimension. -/
theorem intraItems_of_declares (hv : v ∈ c.members) (hintra : v.roles.intra = some dim) :
    v.intraItems? = some (v.itemsOf dim) ∧
      ∃ d, sets.find? dim = some d ∧ (v.itemsOf dim).Sublist d.items := by
  obtain ⟨t, -, declaration, -, hresolves⟩ := hdeclares.members v hv
  have hdim := (hresolves.of_intra hintra).1
  obtain ⟨d, items, hd, hget, hsublist⟩ := hresolves.items dim hdim
  refine ⟨by rw [Variable.intraItems?, hintra, Option.bind_some, hresolves.get?_items hdim], d, hd, ?_⟩
  rwa [Variable.itemsOf, hget]

theorem Common.replicas {found : Option IntraDimension} (h : Common c names found) :
    Replicas sets c names (replicas found) := by
  cases found with
  | none => exact .once h
  | some i =>
      obtain ⟨⟨v, hv⟩, hall⟩ := h
      obtain ⟨-, d, hd, hsublist⟩ := intraItems_of_declares hdeclares hv.member hv.intra
      have hid : d.id = i.dim := by simpa using List.find?_some hd
      rw [(hall v i.dim hv).2] at hsublist
      rw [← hid] at hd hall
      exact .each hd hsublist ⟨v, hid ▸ hv⟩ hall

omit hdeclares in
/-- An instance is for one of the items of each variable that its text is replicated over. -/
theorem Replicas.exists_item {items : List (Option String)} (h : Replicas sets c names items)
    {item : Option String} (hitem : item ∈ items) (hv : Replicates c names v dim) :
    ∃ a ∈ v.itemsOf dim, item = some a := by
  cases h with
  | once hnone => exact (hnone v dim hv).elim
  | each hdim horder hsome hall =>
      obtain ⟨a, ha, rfl⟩ := List.mem_map.mp hitem
      exact ⟨a, (hall v dim hv).2 ▸ ha, rfl⟩

/-- The bindings of a variable that a text is replicated over are selected by the item. -/
theorem selector_of_replicates (item : Option String) (hv : Replicates c names v dim) :
    selector c item v.symbol = item := by
  rw [selector, hdeclares.variableNamed? hv.member]
  simp [hv.varies, hv.intra]

omit hdeclares in
/-- Those of other variables are the same for all items. -/
theorem selector_of_not (item : Option String) {n : String} (hn : n ∈ names)
    (hdeclared : (c.variableNamed? n).isSome = true)
    (hnone : ∀ v dim, v.symbol = n → ¬ Replicates c names v dim) : selector c item n = none := by
  obtain ⟨v, hv⟩ := Option.isSome_iff_exists.mp hdeclared
  have hmem : v ∈ c.members := List.mem_of_find?_eq_some hv
  obtain rfl : v.symbol = n := by simpa using List.find?_some hv
  rw [selector, hv]
  cases hconstant : v.isConstant with
  | true => simp [hconstant]
  | false =>
      cases hintra : v.roles.intra with
      | none => simp [hintra]
      | some dim => exact (hnone v dim rfl ⟨hmem, hn, hconstant, hintra⟩).elim

/-- The only candidate of a name is what it is bound to in an instance. -/
theorem boundTo_of_candidates {items : List (Option String)} (hreplicas : Replicas sets c names items)
    {item : Option String} (hitem : item ∈ items) {n : String} (hn : n ∈ names)
    (hdeclared : (c.variableNamed? n).isSome = true) {b : Binding}
    (h : c.candidates n key (selector c item n) = [b]) : BoundTo c names key item n b := by
  -- the selector asks for the intra item of the instance where the variable is replicated, and for
  -- nothing elsewhere
  have hselects : ∀ b' : Binding, (selector c item n = none ∨ b'.intra = selector c item n) ↔
      ∀ v dim, v.symbol = n → Replicates c names v dim → b'.intra = item := by
    intro b'
    by_cases hreplicated : ∃ v dim, v.symbol = n ∧ Replicates c names v dim
    · obtain ⟨v, dim, rfl, hv⟩ := hreplicated
      obtain ⟨a, -, rfl⟩ := hreplicas.exists_item hitem hv
      rw [selector_of_replicates hdeclares _ hv]
      exact ⟨fun hor _ _ _ _ => hor.resolve_left nofun, fun hall => .inr (hall v dim rfl hv)⟩
    · have hnone : ∀ v dim, v.symbol = n → ¬ Replicates c names v dim :=
        fun v dim hsymbol hv => hreplicated ⟨v, dim, hsymbol, hv⟩
      exact ⟨fun _ v dim hsymbol hv => (hnone v dim hsymbol hv).elim,
        fun _ => .inl (selector_of_not item hn hdeclared hnone)⟩
  have honly : ∀ b', b' ∈ c.candidates n key (selector c item n) ↔ b' = b := by
    intro b'
    rw [h, List.mem_singleton]
  obtain ⟨hmem, hsymbol, happlies, hsel⟩ := mem_candidates_iff.mp ((honly b).mpr rfl)
  exact ⟨hmem, hsymbol, happlies, (hselects b).mp hsel, fun b' hmem' hsymbol' happlies' hintra' =>
    (honly b').mp (mem_candidates_iff.mpr ⟨hmem', hsymbol', happlies', (hselects b').mpr hintra'⟩)⟩

/-- The number of candidates of a name is the same for all items. -/
theorem length_candidates_of_replicas (hplaced : ∀ v ∈ c.members, c.Placed sets.problemKeys v)
    (hitems : ∀ dim ∈ sets.dims, dim.items.Nodup) {items : List (Option String)}
    (hreplicas : Replicas sets c names items) {x y : Option String} (hx : x ∈ items) (hy : y ∈ items)
    {n : String} (hn : n ∈ names) (hdeclared : (c.variableNamed? n).isSome = true) :
    (c.candidates n key (selector c x n)).length = (c.candidates n key (selector c y n)).length := by
  by_cases hreplicated : ∃ v dim, v.symbol = n ∧ Replicates c names v dim
  · obtain ⟨v, dim, rfl, hv⟩ := hreplicated
    obtain ⟨t, -, declaration, -, hresolves⟩ := hdeclares.members v hv.member
    have hintra := (intraItems_of_declares hdeclares hv.member hv.intra).1
    -- each item of the variable is one of the sites that its bindings are made for, exactly once
    have hcount : ∀ item ∈ items, (c.candidates v.symbol key item).length =
        Catalog.scopeCount sets.problemKeys v key * ((v.roles.inter.map fun d =>
          (v.itemsOf d).countP fun i => key.agreesWith [(d, i)]).prod * 1) := by
      intro item hitem
      obtain ⟨a, ha, rfl⟩ := hreplicas.exists_item hitem hv
      have hone : (Catalog.sideItems v.intraItems?).count (some a) = 1 := by
        refine List.count_eq_one_of_mem (Catalog.nodup_sideItems_intra hresolves hitems) ?_
        rw [hintra]
        exact List.mem_map_of_mem ha
      have hvaries : some a = none → v.intraItems? = none := fun heq => nomatch heq
      rw [(hplaced v hv.member).length_candidates hv.varies key hvaries, hone]
    rw [selector_of_replicates hdeclares x hv, selector_of_replicates hdeclares y hv, hcount x hx,
      hcount y hy]
  · have hnone : ∀ v dim, v.symbol = n → ¬ Replicates c names v dim :=
      fun v dim hsymbol hv => hreplicated ⟨v, dim, hsymbol, hv⟩
    rw [selector_of_not x hn hdeclared hnone, selector_of_not y hn hdeclared hnone]

end Declared

end CoupledModels.Formula
