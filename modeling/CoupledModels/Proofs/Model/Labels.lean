import CoupledModels.Proofs.Catalog.Sites
import CoupledModels.Proofs.Configuration.Kinds
import CoupledModels.Proofs.Model.Operations

/-!
# What labels identify

Labels are keys of two maps: the kinds of a table are written by the labels of sub-problems, and the
solved values of a variable are handed out by the labels of its bindings.  What has the same label
has one entry: of several sub-problems the first one gets the kind that is written, and of several
bindings the last one hands out its values.  If at most one of the dimensions that items are picked
from has items with commas, labels are distinct, and nothing is lost.
-/

namespace CoupledModels

/-- The lists that the items of the bindings of a variable are picked from. -/
def Variable.choices (v : Variable) : List (List String) :=
  if v.isConstant then [] else v.roles.inter.map v.itemsOf ++ v.intraItems?.toList

namespace Catalog

variable {K : Type} {tables : List TableDeclaration} {sets : Registry} {c d : Catalog K}
  {v : Variable} {b b' : Binding} {keys : List ProblemKey}

/-- The bindings of a symbol that refer to decision columns. -/
def decisionsOf (c : Catalog K) (symbol : String) : List Binding :=
  (c.bindingsOf symbol).filter Binding.isDecision

/-- The last decision binding of a symbol with a label. -/
def lastLabelled? (c : Catalog K) (symbol label : String) : Option Binding :=
  (c.decisionsOf symbol).reverse.find? fun b => b.label == label

theorem mem_bindingsOf {symbol : String} :
    b ∈ c.bindingsOf symbol ↔ b ∈ c.bindings ∧ b.symbol = symbol := by
  rw [bindingsOf, List.mem_filter, Array.mem_toList_iff, beq_iff_eq]

/-! ## Items of bindings -/

/-- A constant is bound to no item, and any other variable at one of its sites. -/
theorem Placed.site (h : c.Placed keys v) (hb : b ∈ c.bindingsOf v.symbol) :
    (v.isConstant = true ∧ b.inter = [] ∧ b.intra = none) ∨
      (v.isConstant = false ∧ b.inter ∈ interItems v ∧ b.intra ∈ sideItems v.intraItems?) := by
  obtain ⟨ss, hss, hbs⟩ := h
  obtain ⟨s, hs, hstands⟩ := exists_right_of_forall₂ hbs hb
  rw [hstands.inter, hstands.intra]
  unfold placesOf at hss
  by_cases hconstant : v.isConstant = true
  · rw [if_pos hconstant] at hss
    cases hss
    obtain rfl := List.mem_singleton.mp hs
    exact .inl ⟨hconstant, rfl, rfl⟩
  · rw [if_neg hconstant] at hss
    obtain ⟨scopes, -, rfl⟩ := exists_of_map_eq_ok hss
    obtain ⟨hintra, hinter⟩ := mem_sites hs
    exact .inr ⟨by simpa using hconstant, hinter, hintra⟩

/-- The items of a binding are picked from the items of its variable. -/
theorem Placed.items_mem (h : c.Placed keys v) (hb : b ∈ c.bindingsOf v.symbol) :
    List.Forall₂ (· ∈ ·) b.items v.choices := by
  unfold Binding.items Variable.choices
  rcases h.site hb with ⟨hconstant, hinter, hintra⟩ | ⟨hconstant, hinter, hintra⟩
  · rw [hinter, hintra, if_pos hconstant]
    exact .nil
  · rw [hconstant, if_neg Bool.false_ne_true]
    refine List.rel_append (Registry.items_of_mem_product hinter) ?_
    unfold sideItems at hintra
    cases hitems : v.intraItems? with
    | none =>
        rw [hitems] at hintra
        rw [List.mem_singleton.mp hintra]
        exact .nil
    | some items =>
        rw [hitems] at hintra
        obtain ⟨i, hi, heq⟩ := List.mem_map.mp hintra
        rw [← heq]
        exact .cons hi .nil

/-- The items of a binding determine its inter items and its intra item. -/
theorem Placed.eq_of_items (h : c.Placed keys v) (hb : b ∈ c.bindingsOf v.symbol)
    (hb' : b' ∈ c.bindingsOf v.symbol) (hitems : b.items = b'.items) :
    b.inter = b'.inter ∧ b.intra = b'.intra := by
  rcases h.site hb with ⟨hconstant, hinter, hintra⟩ | ⟨hconstant, hinter, -⟩
  · rcases h.site hb' with ⟨-, hinter', hintra'⟩ | ⟨hconstant', -⟩
    · rw [hinter, hintra, hinter', hintra']
      exact ⟨rfl, rfl⟩
    · exact absurd (hconstant.symm.trans hconstant') (by decide)
  · rcases h.site hb' with ⟨hconstant', -⟩ | ⟨-, hinter', -⟩
    · exact absurd (hconstant'.symm.trans hconstant) (by decide)
    · have hlength : (b.inter.map Prod.snd).length = (b'.inter.map Prod.snd).length :=
        (Registry.items_of_mem_product hinter).length_eq.trans
          (Registry.items_of_mem_product hinter').length_eq.symm
      obtain ⟨hinters, hintras⟩ := List.append_inj hitems hlength
      exact ⟨Registry.eq_of_map_snd hinter hinter' hinters, by
        simpa using congrArg List.head? hintras⟩

/-- Bindings of a variable have one label if and only if their items have the same pieces. -/
theorem Placed.label_eq_iff (h : c.Placed keys v) (hb : b ∈ c.bindingsOf v.symbol)
    (hb' : b' ∈ c.bindingsOf v.symbol) :
    b.label = b'.label ↔ Label.pieces b.items = Label.pieces b'.items :=
  Label.ofItems_eq_iff ((h.items_mem hb).length_eq.trans (h.items_mem hb').length_eq.symm)

/-- Labels tell the items of bindings apart if at most one of the lists that they are picked from
has items with commas. -/
theorem Placed.eq_of_label (h : c.Placed keys v) (hv : Label.Separable v.choices)
    (hb : b ∈ c.bindingsOf v.symbol) (hb' : b' ∈ c.bindingsOf v.symbol)
    (hlabel : b.label = b'.label) : b.inter = b'.inter ∧ b.intra = b'.intra :=
  h.eq_of_items hb hb' (Label.eq_of_ofItems hv (h.items_mem hb) (h.items_mem hb') hlabel)

/-! ## Values of bindings -/

/-- The inter items and the intra item of a decision binding determine the columns it refers to. -/
theorem Consistent.value_of_items [Scalar K] (hc : c.Consistent tables sets) {symbol : String}
    (hb : b ∈ c.bindings ∧ b.symbol = symbol) (hb' : b' ∈ c.bindings ∧ b'.symbol = symbol)
    (hinter : b.inter = b'.inter) (hintra : b.intra = b'.intra) (hdecision : b.isDecision = true)
    (hdecision' : b'.isDecision = true) : b.value = b'.value := by
  obtain ⟨v, hv, hbinds, -⟩ := hc.exists_variable hb.1
  obtain ⟨v', hv', hbinds', -⟩ := hc.exists_variable hb'.1
  rw [hb.2] at hv
  rw [hb'.2] at hv'
  obtain rfl : v = v' := Option.some.inj (hv.symm.trans hv')
  -- what a decision refers to is the slice that is taken for its items
  have hslice : ∀ {b : Binding}, c.Refers v b → b.isDecision = true →
      c.slice v b.intra b.inter = .ok b.value := by
    intro b hrefers hdecision
    unfold Refers at hrefers
    unfold Binding.isDecision at hdecision
    cases hvalue : b.value with
    | slice block columns =>
        rw [hvalue] at hrefers
        exact hrefers
    | parameter p =>
        rw [hvalue] at hdecision
        cases hdecision
    | constant i =>
        rw [hvalue] at hdecision
        cases hdecision
  have hvalue := hslice hbinds.refers hdecision
  rw [hinter, hintra, hslice hbinds'.refers hdecision'] at hvalue
  exact (Except.ok.inj hvalue).symm

/-- A decision binding has values, be they undefined. -/
theorem exists_bindingValues [Scalar K] (c : Catalog K) (h : b.isDecision = true) :
    ∃ values, c.bindingValues b = .ok values := by
  unfold Binding.isDecision at h
  unfold bindingValues
  cases hvalue : b.value with
  | slice block columns => exact ⟨_, rfl⟩
  | parameter p =>
      rw [hvalue] at h
      cases h
  | constant i =>
      rw [hvalue] at h
      cases h

end Catalog

namespace Model

variable {K : Type} [Scalar K] {m : Model K}

/-- The values of a variable are handed out for each label: those of the last binding with it. -/
theorem variableValues_ok {symbol : String} {v : Variable}
    (hv : m.catalog.variableNamed? symbol = some v) :
    ∃ values, m.variableValues symbol = .ok values ∧
      ∀ b ∈ m.catalog.decisionsOf symbol, ∃ last xs,
        m.catalog.lastLabelled? symbol b.label = some last ∧
        m.catalog.bindingValues last = .ok xs ∧ values.get? b.label = some xs := by
  have hentries : Outcome (fun _ => True) (fun _ : ModelError => False)
      ((m.catalog.decisionsOf symbol).mapM fun b => do
        return (b.label, ← m.catalog.bindingValues b)) := by
    refine (Outcome.mapM_forall (Q := fun _ => True) fun b hb => ?_).imp fun _ _ => trivial
    obtain ⟨xs, hxs⟩ := m.catalog.exists_bindingValues (List.mem_filter.mp hb).2
    rw [hxs]
    trivial
  obtain ⟨es, hes, -⟩ | ⟨_, -, hfalse⟩ := hentries.cases
  on_goal 2 => exact hfalse.elim
  have hvalues : m.variableValues symbol = .ok (SortedMap.ofList es) := by
    unfold variableValues
    rw [hv]
    simp only [Option.isNone_some]
    exact congrArg (· >>= fun es => .ok (SortedMap.ofList es)) hes
  refine ⟨_, hvalues, fun b hb => ?_⟩
  have hsome : (m.catalog.lastLabelled? symbol b.label).isSome = true :=
    List.find?_isSome.mpr ⟨b, List.mem_reverse.mpr hb, beq_self_eq_true _⟩
  obtain ⟨last, hlast⟩ := Option.isSome_iff_exists.mp hsome
  obtain ⟨xs, hxs, hget⟩ := SortedMap.get?_ofList_of_find? hes hlast
  exact ⟨last, xs, hlast, hxs, hget⟩

/-- Items with the same texts between commas share a label, and no others do.

For any registry, keys of sub-problems have one label if and only if their items have the same
pieces.  The tables of a configuration that writes a kind for each label are not refused for it, and
the kind is that of the first key with the label.  Bindings of a variable have one label if and only
if their items have the same pieces, whatever has been done to the model.  The values of a variable
are handed out without an error, and those under a label are those of the last decision binding with
this label.

If at most one of the dimensions that items are picked from has items with commas, each key is the
first with its label, bindings with one label have the same items, and each decision binding finds
its own values under its label. -/
theorem labels_identify {sets : Registry} {c : Configuration} (hm : m.Coherent)
    (hkinds : ∀ t ∈ c.tables, Configuration.WritesLabels sets.problemKeys t.kind) :
    (∀ k ∈ sets.problemKeys, ∀ k' ∈ sets.problemKeys,
      (k.label = k'.label ↔ Label.pieces k.items = Label.pieces k'.items)) ∧
    Outcome
      (List.Forall₂ (fun t d => Configuration.Follows sets.problemKeys d.kind t.kind) c.tables)
      (fun e => ∃ reason, e = .configuration reason ∧ Configuration.OffKind reason)
      (c.declaredTables sets) ∧
    (Label.Separable (sets.splitting.map Dimension.items) → ∀ k ∈ sets.problemKeys,
      Configuration.firstLabelled? sets.problemKeys k.label = some k) ∧
    ∀ symbol v, m.catalog.variableNamed? symbol = some v →
      (∀ b ∈ m.catalog.bindingsOf symbol, ∀ b' ∈ m.catalog.bindingsOf symbol,
        (b.label = b'.label ↔ Label.pieces b.items = Label.pieces b'.items) ∧
        (Label.Separable v.choices → b.label = b'.label →
          b.inter = b'.inter ∧ b.intra = b'.intra)) ∧
      ∃ values, m.variableValues symbol = .ok values ∧
        ∀ b ∈ m.catalog.decisionsOf symbol, ∃ last xs,
          m.catalog.lastLabelled? symbol b.label = some last ∧
          m.catalog.bindingValues last = .ok xs ∧ values.get? b.label = some xs ∧
          (Label.Separable v.choices → m.catalog.bindingValues b = .ok xs) := by
  refine ⟨fun k hk k' hk' => ProblemKey.label_eq_iff hk hk',
    Configuration.outcome_declaredTables hkinds, fun hsets k hk => ?_, fun symbol v hv => ?_⟩
  · exact Configuration.firstLabelled?_of_separable hsets hk
  obtain ⟨catalog, hbuild, hlater⟩ := hm.built
  have hmem : v ∈ m.catalog.members := List.mem_of_find?_eq_some hv
  obtain rfl : v.symbol = symbol := by simpa using List.find?_some hv
  have hplaced := Catalog.placed_of_build hbuild hlater v hmem
  refine ⟨fun b hb b' hb' => ⟨hplaced.label_eq_iff hb hb',
    fun hchoices => hplaced.eq_of_label hchoices hb hb'⟩, ?_⟩
  obtain ⟨values, hvalues, hall⟩ := variableValues_ok hv
  refine ⟨values, hvalues, fun b hb => ?_⟩
  obtain ⟨last, xs, hlast, hxs, hget⟩ := hall b hb
  refine ⟨last, xs, hlast, hxs, hget, fun hchoices => ?_⟩
  obtain ⟨hof, hdecision⟩ := List.mem_filter.mp hb
  obtain ⟨hof', hdecision'⟩ :=
    List.mem_filter.mp (List.mem_reverse.mp (List.mem_of_find?_eq_some hlast))
  have hlabel : last.label = b.label := by simpa using List.find?_some hlast
  obtain ⟨hinter, hintra⟩ := hplaced.eq_of_label hchoices hof hof' hlabel.symm
  have hvalue : b.value = last.value :=
    hm.consistent.value_of_items (Catalog.mem_bindingsOf.mp hof) (Catalog.mem_bindingsOf.mp hof')
      hinter hintra hdecision hdecision'
  rwa [Catalog.bindingValues, hvalue]

end Model

/-! ## Ports and ships -/

namespace Catalog.Voyages

/-- Ports and ships divide the model. -/
def sets (ports ships : List String) : Registry :=
  ⟨[{ Dimension.ofItems "port" ports with splits := true },
    { Dimension.ofItems "ship" ships with splits := true }, .ofItems "good" ["cod"]],
    by simp [Dimension.ofItems]⟩

/-- Catches are decided for each good, port and ship. -/
def tables : List TableDeclaration :=
  [⟨"catch", .fixed .endogenous, ["port", "ship", "good"], false,
    [⟨"x", .one, .one, none, .empty⟩]⟩]

/-- Quotas are decided or read, as it is written for the labels of the sub-problems. -/
def configuration (kinds : SortedMap String TableKind) : Configuration where
  sets := []
  tables :=
    [⟨"quota", .perLabel kinds, ["good"], false, [⟨"q", some (.name "good"), none, none, .empty⟩]⟩]
  problem := none
  problems := .empty

/-- One ship has a comma in its name, and no port has one. -/
def named : Registry :=
  sets ["cork", "vigo"] ["lee, north", "swift"]

/-- A kind for each label of these. -/
def namedKinds : SortedMap String TableKind :=
  ⟨[("cork,lee, north", .endogenous), ("cork,swift", .exogenous),
    ("vigo,lee, north", .exogenous), ("vigo,swift", .endogenous)]⟩

/-- A ship whose name has a comma is told from the other one by every label. -/
theorem labels_identify_named :
    (∃ d, (configuration namedKinds).declaredTables named = .ok [d] ∧
      ∀ k ∈ named.problemKeys, ∃ kind, namedKinds.get? k.label = some kind ∧
        d.kind.kindFor k = .ok kind) ∧
    ∃ m : Model Rat, Model.ofParts named tables .empty = .ok m ∧
      (m.catalog.decisionsOf "x").length = 4 ∧
      ∃ values, m.variableValues "x" = .ok values ∧ ∀ b ∈ m.catalog.decisionsOf "x",
        ∃ xs, m.catalog.bindingValues b = .ok xs ∧ values.get? b.label = some xs := by
  have hmodel : (Model.ofParts named tables .empty : Except ModelError (Model Rat)).map
      (fun m => ((m.catalog.variableNamed? "x").map Variable.choices,
        (m.catalog.decisionsOf "x").length)) =
        .ok (some [["cork", "vigo"], ["lee, north", "swift"], ["cod"]], 4) := by decide +kernel
  obtain ⟨m, hm, hshown⟩ := exists_of_map_eq_ok hmodel
  obtain ⟨hchoices, hcount⟩ := Prod.mk.inj hshown
  obtain ⟨v, hv, hitems⟩ := Option.map_eq_some_iff.mp hchoices
  have hkinds : ∀ t ∈ (configuration namedKinds).tables,
      Configuration.WritesLabels named.problemKeys t.kind := by
    intro t ht
    obtain rfl := List.mem_singleton.mp ht
    exact ⟨by decide +kernel, by decide, by decide⟩
  obtain ⟨-, htables, hfirst, hvariables⟩ := Model.labels_identify (.of_ofParts hm) hkinds
  obtain ⟨-, values, hvalues, hown⟩ := hvariables "x" v hv
  refine ⟨⟨_, rfl, fun k hk => ?_⟩, m, hm, hcount, values, hvalues, fun b hb => ?_⟩
  · obtain ⟨hfollows, -⟩ := List.forall₂_cons.mp (htables.value rfl)
    obtain ⟨kind, hwritten, hkind⟩ := hfollows k hk
    rw [if_pos (hfirst (by decide) k hk)] at hkind
    exact ⟨kind, hwritten, hkind⟩
  · obtain ⟨_, xs, -, -, hget, hsame⟩ := hown b hb
    exact ⟨xs, hsame (hitems ▸ by decide), hget⟩

/-- Ports and ships that differ by where a comma stands. -/
def joined : Registry :=
  sets ["cork", "cork,vigo"] ["swift", "vigo,swift"]

/-- A kind for each label of these. -/
def joinedKinds : SortedMap String TableKind :=
  ⟨[("cork,swift", .exogenous), ("cork,vigo,swift", .endogenous),
    ("cork,vigo,vigo,swift", .exogenous)]⟩

/-- A solution of the four decisions about them. -/
def solved (c : Catalog Rat) : Model Rat :=
  ⟨joined, tables, .empty, c.setValues [1, 2, 3, 4] [1, 2, 3, 4], .empty⟩

/-- The sub-problems that share a label. -/
def first : ProblemKey :=
  ⟨[("port", "cork"), ("ship", "vigo,swift")]⟩

def second : ProblemKey :=
  ⟨[("port", "cork,vigo"), ("ship", "swift")]⟩

/-- The decisions of both have one label, and the value handed out for it is that of the second. -/
def Collide (m : Model Rat) : Prop :=
  (∃ b ∈ m.catalog.decisionsOf "x", b.inter = first.coords ∧ b.label = "cork,vigo,swift,cod" ∧
    m.catalog.bindingValues b = .ok [some 2]) ∧
  (∃ b ∈ m.catalog.decisionsOf "x", b.inter = second.coords ∧ b.label = "cork,vigo,swift,cod" ∧
    m.catalog.bindingValues b = .ok [some 3]) ∧
  m.variableValues "x" =
    .ok ⟨[("cork,swift,cod", [some 1]), ("cork,vigo,swift,cod", [some 3]),
      ("cork,vigo,vigo,swift,cod", [some 4])]⟩

instance (m : Model Rat) : Decidable (Collide m) :=
  inferInstanceAs (Decidable (_ ∧ _))

/-- Two sub-problems have one label.  The second one gets no kind, and the value that was decided in
the first one is handed out under no label. -/
theorem labels_collide_joined :
    (∀ dim ∈ joined.dims, dim.items.Nodup) ∧
    first ∈ joined.problemKeys ∧ second ∈ joined.problemKeys ∧ first ≠ second ∧
    first.label = second.label ∧
    Configuration.WritesLabels joined.problemKeys (.perLabel joinedKinds) ∧
    joinedKinds.get? second.label = some .endogenous ∧
    (∃ d, (configuration joinedKinds).declaredTables joined = .ok [d] ∧
      d.kind.kindFor first = .ok .endogenous ∧
      d.kind.kindFor second = .error (.configuration (.noKindFor second))) ∧
    ∃ c : Catalog Rat, build tables joined = .ok c ∧ Collide (solved c) := by
  refine ⟨by decide, by decide, by decide, by decide, by decide,
    ⟨by decide +kernel, by decide, by decide⟩, by decide,
    ⟨_, rfl, by decide +kernel, by decide +kernel⟩, ?_⟩
  have hbuild : (build tables joined : Except ModelError (Catalog Rat)).map
      (fun c => decide (Collide (solved c))) = .ok true := by decide +kernel
  obtain ⟨c, hc, hcollide⟩ := exists_of_map_eq_ok hbuild
  exact ⟨c, hc, of_decide_eq_true hcollide⟩

end Catalog.Voyages

end CoupledModels
