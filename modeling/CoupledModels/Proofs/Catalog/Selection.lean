import CoupledModels.Proofs.Catalog.Sites
import CoupledModels.Proofs.Sets.Keys
import Mathlib.Algebra.BigOperators.Group.List.Basic

/-!
# Selection of bindings

How many bindings of a variable a sub-problem selects is counted along the sites of the variable:
over the sub-problems that bindings are made for, over the inter items that agree with the key, and
over the intra items.  With distinct items each of these contributes one at most, so no two bindings
of a variable are made for the same site.
-/

namespace CoupledModels

section Counting

variable {α β : Type}

/-- Counting in a list that is laid end to end, if parts with hits have equally many. -/
theorem countP_flatMap_of {f : α → List β} {p : β → Bool} {q : α → Bool} {n : Nat} {xs : List α}
    (h : ∀ x ∈ xs, (f x).countP p = if q x = true then n else 0) :
    (xs.flatMap f).countP p = xs.countP q * n := by
  induction xs with
  | nil => simp
  | cons x xs ih =>
      obtain ⟨hx, hxs⟩ := List.forall_mem_cons.mp h
      rw [List.flatMap_cons, List.countP_append, hx, ih hxs, List.countP_cons, Nat.add_mul,
        Nat.add_comm]
      split <;> simp

/-- Counting elements that have a property on one condition. -/
theorem countP_map_of_and {g : α → β} {p : β → Bool} {b : Bool} {q : α → Bool} {xs : List α}
    (h : ∀ x ∈ xs, p (g x) = (b && q x)) :
    (xs.map g).countP p = if b = true then xs.countP q else 0 := by
  rw [List.countP_map, List.countP_congr fun x hx => by rw [Function.comp_apply, h x hx]]
  cases b <;> simp

/-- Lists that correspond to each other have equally many elements with corresponding properties. -/
theorem countP_of_forall₂ {R : α → β → Prop} {xs : List α} {ys : List β}
    (h : List.Forall₂ R xs ys) {p : α → Bool} {q : β → Bool}
    (hpq : ∀ x, ∀ y ∈ ys, R x y → p x = q y) : xs.countP p = ys.countP q := by
  induction h with
  | nil => rfl
  | @cons x y xs ys hxy _ ih =>
      rw [List.countP_cons, List.countP_cons, hpq x y List.mem_cons_self hxy,
        ih fun x y hy => hpq x y (List.mem_cons_of_mem _ hy)]

/-- A product of numbers below two is one if none of them vanishes, and zero otherwise. -/
theorem prod_of_le_one {f : α → Nat} {xs : List α} (h : ∀ x ∈ xs, f x ≤ 1) :
    (xs.map f).prod = if ∀ x ∈ xs, 0 < f x then 1 else 0 := by
  induction xs with
  | nil => rfl
  | cons x xs ih =>
      obtain ⟨hx, hxs⟩ := List.forall_mem_cons.mp h
      rw [List.map_cons, List.prod_cons, ih hxs]
      simp only [List.forall_mem_cons]
      by_cases hzero : f x = 0
      · simp [hzero]
      · have hone : f x = 1 := by omega
        simp [hone]

end Counting

/-- What sets the bindings of a variable apart. -/
def Binding.address (b : Binding) : Option ProblemKey × List Coordinate × Option String :=
  (b.scope, b.inter, b.intra)

namespace ProblemKey

theorem agreesWith_cons (key : ProblemKey) (c : Coordinate) (coords : List Coordinate) :
    key.agreesWith (c :: coords) = (key.agreesWith [c] && key.agreesWith coords) := by
  simp [agreesWith]

/-- A key agrees with some of the picks of inter items: in each dimension the item is its own. -/
theorem countP_agreesWith (key : ProblemKey) (dims : List String)
    (items : String → List String) :
    (Registry.product (dims.map fun d => (items d).map fun i => (d, i))).countP key.agreesWith =
      (dims.map fun d => (items d).countP fun i => key.agreesWith [(d, i)]).prod := by
  induction dims with
  | nil => rfl
  | cons d dims ih =>
      have hpicks : ∀ c ∈ (items d).map fun i => (d, i),
          ((Registry.product (dims.map fun d => (items d).map fun i => (d, i))).map (c :: ·)).countP
            key.agreesWith =
              if key.agreesWith [c] = true then
                (dims.map fun d => (items d).countP fun i => key.agreesWith [(d, i)]).prod
              else 0 := by
        intro c _
        rw [← ih]
        exact countP_map_of_and fun picked _ => agreesWith_cons key c picked
      rw [List.map_cons, List.map_cons, List.prod_cons, Registry.product, countP_flatMap_of hpicks,
        List.countP_map]
      rfl

end ProblemKey

namespace Catalog

variable {K : Type} {c : Catalog K} {v : Variable} {keys : List ProblemKey} {key : ProblemKey}

/-- The combinations of inter items for which bindings are made in a scope. -/
def agreeing (v : Variable) (scope : Option ProblemKey) : List (List Coordinate) :=
  (interItems v).filter fun inter => match scope with
    | some key => key.agreesWith inter
    | none => true

theorem sites_eq (v : Variable) (scopes : List (Option ProblemKey × TableKind)) :
    sites v scopes = scopes.flatMap fun s => (agreeing v s.1).flatMap fun inter =>
      (sideItems v.intraItems?).map fun intra => ⟨s.1, s.2, inter, intra⟩ := by
  refine congrArg (List.flatMap · scopes) (funext fun ⟨scope, kind⟩ => ?_)
  cases scope <;> rfl

/-- Sites are counted part by part. -/
theorem countP_sites (v : Variable) (scopes : List (Option ProblemKey × TableKind))
    {p : Option ProblemKey → Bool} {q : List Coordinate → Bool} {r : Option String → Bool} {n : Nat}
    (hn : ∀ s ∈ scopes, p s.1 = true → (agreeing v s.1).countP q = n) :
    (sites v scopes).countP (fun s => p s.scope && q s.inter && r s.intra) =
      scopes.countP (fun s => p s.1) * (n * (sideItems v.intraItems?).countP r) := by
  rw [sites_eq]
  refine countP_flatMap_of fun s hs => ?_
  refine (countP_flatMap_of (q := fun inter => p s.1 && q inter) fun inter _ =>
    countP_map_of_and fun intra _ => rfl).trans ?_
  cases hp : p s.1 with
  | false => simp
  | true => simp [hn s hs hp]

/-- The sub-problems that a scope is for. -/
def isFor (key : ProblemKey) (scope : Option ProblemKey) : Bool :=
  match scope with
  | some s => s == key
  | none => true

/-- The sub-problems that bindings are made for; none stands for all of them at once. -/
def scopeKeys (keys : List ProblemKey) (v : Variable) : List (Option ProblemKey) :=
  match v.kind with
  | .fixed _ => [none]
  | .perProblem _ => keys.map some

/-- The number of times that bindings are made for a sub-problem. -/
def scopeCount (keys : List ProblemKey) (v : Variable) (key : ProblemKey) : Nat :=
  match v.kind with
  | .fixed _ => 1
  | .perProblem _ => keys.count key

theorem map_fst_of_scopes {ss : List (Option ProblemKey × TableKind)}
    (h : scopes v keys = .ok ss) : ss.map Prod.fst = scopeKeys keys v := by
  unfold scopes at h
  unfold scopeKeys
  cases hkind : v.kind with
  | fixed k =>
      rw [hkind] at h
      cases h
      rfl
  | perProblem kinds =>
      rw [hkind] at h
      have hall := forall₂_of_mapM h
      clear h
      induction hall with
      | nil => rfl
      | cons hkey _ ih =>
          obtain ⟨kind, -, heq⟩ := exists_of_bind_eq_ok hkey
          cases heq
          rw [List.map_cons, List.map_cons, ih]

theorem countP_scopeKeys (keys : List ProblemKey) (v : Variable) (key : ProblemKey) :
    (scopeKeys keys v).countP (isFor key) = scopeCount keys v key := by
  unfold scopeKeys scopeCount
  cases v.kind with
  | fixed k => rfl
  | perProblem kinds =>
      rw [List.countP_map]
      rfl

/-- Without an intra item there is no intra dimension. -/
theorem intraItems?_of_mem_sideItems {intra : Option String}
    (h : intra ∈ sideItems v.intraItems?) : intra = none → v.intraItems? = none := by
  rintro rfl
  cases hitems : v.intraItems? with
  | none => rfl
  | some items =>
      rw [hitems] at h
      simp [sideItems] at h

/-- A constant has one binding. -/
theorem Placed.length_bindingsOf (h : c.Placed keys v) (hconstant : v.isConstant = true) :
    (c.bindingsOf v.symbol).length = 1 := by
  obtain ⟨ss, hss, hbs⟩ := h
  rw [placesOf, if_pos hconstant] at hss
  cases hss
  exact hbs.length_eq

/-- What sub-problems select, for each intra item. -/
theorem Placed.length_candidates (h : c.Placed keys v) (hconstant : v.isConstant = false)
    (key : ProblemKey) {intra : Option String} (hintra : intra = none → v.intraItems? = none) :
    (c.candidates v.symbol key intra).length = scopeCount keys v key *
      ((v.roles.inter.map fun d => (v.itemsOf d).countP fun i => key.agreesWith [(d, i)]).prod *
        (sideItems v.intraItems?).count intra) := by
  obtain ⟨ss, hss, hbs⟩ := h
  rw [placesOf, if_neg (by simp [hconstant])] at hss
  obtain ⟨scopes, hscopes, rfl⟩ := exists_of_map_eq_ok hss
  have hselects : ∀ b, ∀ s ∈ sites v scopes, Stands v b s →
      (b.appliesTo key && (intra.isNone || b.intra == intra)) =
        (isFor key s.scope && key.agreesWith s.inter && s.intra == intra) := by
    intro b s hs hstands
    rw [Binding.appliesTo, hstands.scope, hstands.inter, hstands.intra]
    refine congrArg₂ _ rfl ?_
    cases intra with
    | some i => rfl
    | none =>
        -- without an intra dimension there is nothing to restrict
        obtain ⟨hmem, -⟩ := mem_sites hs
        rw [hintra rfl] at hmem
        rw [List.mem_singleton.mp hmem]
        rfl
  have hagreeing : ∀ s ∈ scopes, isFor key s.1 = true →
      (agreeing v s.1).countP key.agreesWith = (interItems v).countP key.agreesWith := by
    intro s _ hs
    unfold agreeing
    rw [List.countP_filter]
    refine List.countP_congr fun inter _ => ?_
    cases hscope : s.1 with
    | none => simp
    | some k =>
        rw [hscope] at hs
        obtain rfl : k = key := beq_iff_eq.mp hs
        simp
  have hscopeCount : scopes.countP (fun s => isFor key s.1) = scopeCount keys v key := by
    rw [← countP_scopeKeys, ← map_fst_of_scopes hscopes, List.countP_map]
    rfl
  rw [candidates, ← List.countP_eq_length_filter, countP_of_forall₂ hbs hselects,
    countP_sites (p := isFor key) (q := key.agreesWith) (r := (· == intra)) v scopes hagreeing,
    hscopeCount, interItems, ProblemKey.countP_agreesWith]
  rfl

/-- If no scope, no pick of inter items and no intra item is listed twice, addresses differ. -/
theorem Placed.nodup_address (h : c.Placed keys v) (hscopes : (scopeKeys keys v).Nodup)
    (hinter : (interItems v).Nodup) (hintra : (sideItems v.intraItems?).Nodup) :
    ((c.bindingsOf v.symbol).map Binding.address).Nodup := by
  by_cases hconstant : v.isConstant = true
  · obtain ⟨b, hb⟩ := List.length_eq_one_iff.mp (h.length_bindingsOf hconstant)
    rw [hb]
    exact List.nodup_singleton _
  obtain ⟨ss, hss, hbs⟩ := h
  rw [placesOf, if_neg hconstant] at hss
  obtain ⟨scopes, hscopesOf, rfl⟩ := exists_of_map_eq_ok hss
  -- bindings stand for scopes, picks and intra items independently, so an address occurs as often
  -- as the product of how often its three parts do
  rw [List.nodup_iff_count_le_one]
  rintro ⟨scope, inter, intra⟩
  have haddress : ∀ b, ∀ s ∈ sites v scopes, Stands v b s →
      ((· == (scope, inter, intra)) ∘ Binding.address) b =
        (s.scope == scope && s.inter == inter && s.intra == intra) := by
    intro b s _ hstands
    rw [Function.comp_apply, Binding.address, hstands.scope, hstands.inter, hstands.intra, Bool.and_assoc]
    rfl
  have hscopeCount : scopes.countP (fun s => s.1 == scope) = (scopeKeys keys v).count scope := by
    rw [← map_fst_of_scopes hscopesOf, List.count, List.countP_map]
    rfl
  have hagreeing : ∀ s ∈ scopes, (s.1 == scope) = true →
      (agreeing v s.1).countP (· == inter) = (agreeing v scope).count inter := by
    intro s _ hs
    rw [beq_iff_eq.mp hs]
    rfl
  have hcount : ((c.bindingsOf v.symbol).map Binding.address).count (scope, inter, intra) =
      (scopeKeys keys v).count scope *
        ((agreeing v scope).count inter * (sideItems v.intraItems?).count intra) := by
    rw [List.count, List.countP_map, countP_of_forall₂ hbs haddress,
      countP_sites (p := (· == scope)) (q := (· == inter)) (r := (· == intra)) v scopes hagreeing,
      hscopeCount]
    rfl
  rw [hcount]
  exact Nat.mul_le_mul (List.nodup_iff_count_le_one.mp hscopes scope)
    (Nat.mul_le_mul (List.nodup_iff_count_le_one.mp (hinter.filter _) inter)
      (List.nodup_iff_count_le_one.mp hintra intra))

/-! ## Distinct items -/

section Distinct

variable {declaration : VariableDeclaration} {t : TableDeclaration} {sets : Registry}
  (hresolves : Variable.Resolves declaration t sets v)
include hresolves

/-- In an inter dimension a key of the registry agrees with the item that it selects. -/
theorem agreesWith_of_inter (hkey : key ∈ sets.problemKeys) {dim : String}
    (hdim : dim ∈ v.roles.inter) (item : String) :
    key.agreesWith [(dim, item)] = (key.item? dim == some item) := by
  have hsplits : sets.isSplitting dim = true := (hresolves.of_inter hdim).2.2
  rw [Bool.eq_iff_iff, ProblemKey.agreesWith_iff hkey (by simpa using hsplits)]
  simp

/-- What a key of the registry selects: the inter items are those of the key. -/
theorem Placed.length_candidates_of_key (h : c.Placed sets.problemKeys v)
    (hconstant : v.isConstant = false) (hkey : key ∈ sets.problemKeys) {intra : Option String}
    (hintra : intra = none → v.intraItems? = none) :
    (c.candidates v.symbol key intra).length = scopeCount sets.problemKeys v key *
      ((v.roles.inter.map fun dim => (v.itemsOf dim).countP fun item =>
        key.item? dim == some item).prod * (sideItems v.intraItems?).count intra) := by
  rw [h.length_candidates hconstant key hintra]
  refine congrArg (fun ns => _ * (List.prod ns * _)) (List.map_congr_left fun dim hdim => ?_)
  exact congrArg (List.countP · _) (funext (agreesWith_of_inter hresolves hkey hdim))

variable (hitems : ∀ dim ∈ sets.dims, dim.items.Nodup)
include hitems

theorem nodup_interItems : (interItems v).Nodup := by
  refine Registry.nodup_product fun items hmem => ?_
  obtain ⟨dim, hdim, rfl⟩ := List.mem_map.mp hmem
  exact (hresolves.nodup_itemsOf hitems (hresolves.of_inter hdim).1).map
    fun a b hab => (Prod.mk.inj hab).2

theorem nodup_sideItems_intra : (sideItems v.intraItems?).Nodup := by
  unfold Variable.intraItems?
  cases hintra : v.roles.intra with
  | none => exact List.nodup_singleton _
  | some dim =>
      have hdim := (hresolves.of_intra hintra).1
      rw [Option.bind_some, hresolves.get?_items hdim]
      exact (hresolves.nodup_itemsOf hitems hdim).map fun a b hab => Option.some.inj hab

omit hresolves in
theorem nodup_scopeKeys (v : Variable) : (scopeKeys sets.problemKeys v).Nodup := by
  unfold scopeKeys
  cases v.kind with
  | fixed k => exact List.nodup_singleton _
  | perProblem kinds =>
      exact (Registry.nodup_problemKeys hitems).map fun a b hab => Option.some.inj hab

omit hresolves in
theorem scopeCount_of_mem (v : Variable) (hkey : key ∈ sets.problemKeys) :
    scopeCount sets.problemKeys v key = 1 := by
  unfold scopeCount
  cases v.kind with
  | fixed k => rfl
  | perProblem kinds => exact List.count_eq_one_of_mem (Registry.nodup_problemKeys hitems) hkey

/-- The item of a key is listed once at most. -/
theorem countP_item?_le_one (key : ProblemKey) {dim : String} (hdim : dim ∈ v.roles.inter) :
    (v.itemsOf dim).countP (fun item => key.item? dim == some item) ≤ 1 := by
  have hnodup := hresolves.nodup_itemsOf hitems (hresolves.of_inter hdim).1
  cases hitem : key.item? dim with
  | none => simp
  | some own =>
      have hown : (fun item => some own == some item) = (· == own) := by
        funext item
        rw [Bool.eq_iff_iff, beq_iff_eq, beq_iff_eq, Option.some.injEq, eq_comm]
      rw [hown]
      exact List.nodup_iff_count_le_one.mp hnodup own

/-- Selection is a matter of the inter items: with distinct items there is one binding, or none if
the variable lacks the item of the key in some inter dimension. -/
theorem Placed.length_candidates_of_distinct (h : c.Placed sets.problemKeys v)
    (hconstant : v.isConstant = false) (hkey : key ∈ sets.problemKeys) {intra : Option String}
    (hintra : intra = none → v.intraItems? = none) :
    (c.candidates v.symbol key intra).length =
      (if ∀ dim ∈ v.roles.inter, ∃ item ∈ v.itemsOf dim, key.item? dim = some item then 1 else 0) *
        (sideItems v.intraItems?).count intra := by
  have hfound : (∀ dim ∈ v.roles.inter, 0 < (v.itemsOf dim).countP fun item =>
      key.item? dim == some item) ↔
        ∀ dim ∈ v.roles.inter, ∃ item ∈ v.itemsOf dim, key.item? dim = some item := by
    simp only [List.countP_pos_iff, beq_iff_eq]
  rw [h.length_candidates_of_key hresolves hconstant hkey hintra,
    scopeCount_of_mem hitems v hkey, Nat.one_mul,
    prod_of_le_one fun dim hdim => countP_item?_le_one hresolves hitems key hdim]
  simp only [hfound]

/-- With distinct items no sub-problem selects two bindings. -/
theorem Placed.length_candidates_le_one (h : c.Placed sets.problemKeys v)
    (hkey : key ∈ sets.problemKeys) {intra : Option String}
    (hintra : v.isConstant = false → intra = none → v.intraItems? = none) :
    (c.candidates v.symbol key intra).length ≤ 1 := by
  cases hconstant : v.isConstant with
  | true =>
      rw [← h.length_bindingsOf hconstant]
      exact List.length_filter_le _ _
  | false =>
      rw [h.length_candidates_of_distinct hresolves hitems hconstant hkey (hintra hconstant)]
      have hcount := List.nodup_iff_count_le_one.mp (nodup_sideItems_intra hresolves hitems) intra
      split <;> omega

end Distinct

end Catalog

end CoupledModels
