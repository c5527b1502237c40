import CoupledModels.Proofs.Arrays.Algebra
import CoupledModels.Proofs.Arrays.Collecting
import CoupledModels.Proofs.Arrays.Overflow

/-!
# Stored forms of arrays

Every array that is made by the constructors and the operations has a meaningful stored form: a
sparse one has ascending positions within its shape, and one coefficient for each, and a dense one
has a coefficient for each position.  `Tensor.Made` lists the ways to make an array, so that this is
one induction.  What reads an array relies on it: a single element agrees with the list of all,
another shape keeps the elements, and indexed coefficients add up where their indexes say.

All of this is computed on words, so it depends on the shape how far a program gets: with overflow
checks it ends where a product of sizes is too large, and without them the stored form need not be
meaningful any more.
-/

namespace CoupledModels

namespace Tensor

variable {S T K : Type} [Extent S] [Extent T]

/-- The stored form says what every element is. -/
def Meaningful (t : Tensor S K) : Prop :=
  match t.pattern with
  | some ps => ps.Pairwise (· < ·) ∧ (∀ p ∈ ps, p < t.size) ∧ ps.length = t.data.length
  | none => t.data.length = t.size

theorem meaningful_iff_valid {t : Tensor S K} : t.Meaningful ↔ t.Valid := by
  obtain ⟨s, pattern, data⟩ := t
  cases pattern with
  | none => exact valid_dense_iff.symm
  | some ps =>
      rw [valid_sparse_iff]
      exact ⟨fun h => ⟨h.1, h.2.2, h.2.1⟩, fun h => ⟨h.1, h.2.2, h.2.1⟩⟩

/-! ## Operations on the stored form -/

theorem valid_ofPrefix {s : S} {xs : List K} {t : Tensor S K} (h : ofPrefix s xs = .ok t) :
    t.Valid := by
  unfold ofPrefix at h
  dsimp only at h
  split at h
  · cases h
  · exact (ofStored_ok h).2

theorem reshape_ok {t : Tensor S K} {s : T} {u : Tensor T K} (h : t.reshape s = .ok u) :
    Extent.size s = t.size ∧ u = ⟨s, t.pattern, t.data⟩ := by
  unfold reshape at h
  split at h
  · cases h
  · rename_i hsize
    cases h
    exact ⟨not_not.mp hsize, rfl⟩

/-- The form depends on the number of elements, not on how they are arranged. -/
theorem valid_reshape {t : Tensor S K} {s : T} {u : Tensor T K} (ht : t.Valid)
    (h : t.reshape s = .ok u) : u.Valid := by
  obtain ⟨hsize, rfl⟩ := reshape_ok h
  rw [← meaningful_iff_valid] at ht ⊢
  unfold Meaningful at ht ⊢
  simpa only [Tensor.size, hsize] using ht

variable [Scalar K]

theorem elements_reshape {t : Tensor S K} {s : T} {u : Tensor T K} (h : t.reshape s = .ok u) :
    u.elements = t.elements := by
  obtain ⟨hsize, rfl⟩ := reshape_ok h
  unfold elements
  simp only [Tensor.size] at hsize ⊢
  rw [hsize]

theorem valid_toDense {t : Tensor S K} (h : t.Valid) : t.toDense.Valid := by
  rw [toDense_eq]
  exact valid_dense_iff.mpr (by simpa using h.size_elements)

theorem valid_map {t : Tensor S K} (h : t.Valid) (f : K → K) : (t.map f).Valid :=
  valid_dense_iff.mpr (by simpa using h.size_elements)

theorem valid_scale {t : Tensor S K} (h : t.Valid) (x : K) : (t.scale x).Valid := by
  unfold Valid scale at *
  simpa using h

omit [Scalar K] in
theorem valid_zeros (s : S) : (zeros s : Tensor S K).Valid :=
  valid_sparse_iff.mpr (by simp)

theorem valid_ones (s : S) : (ones s : Tensor S K).Valid :=
  valid_dense_iff.mpr (by simp)

end Tensor

namespace Matrix

variable {K : Type} [Scalar K] {a b c : Matrix K}

theorem valid_product (h : a.product b = .ok c) : c.Valid := by
  unfold product at h
  split at h
  · cases h
  · cases h
    exact valid_ofFn _ _

theorem shape_product (h : a.product b = .ok c) : c.shape = ⟨a.shape.rows, b.shape.cols⟩ := by
  unfold product at h
  split at h
  · cases h
  · cases h
    rfl

theorem valid_inverse (h : a.inverse = .ok b) : b.Valid := by
  by_cases hsquare : a.shape.isSquare = true
  · exact ((outcome_inverse hsquare).value h).valid
  · unfold inverse at h
    simp [hsquare] at h

end Matrix

namespace Tensor

variable {S T K : Type} [Extent S] [Extent T] [Scalar K]

/-- The arrays that the constructors and the operations give with overflow checks. -/
inductive Made : {S : Type} → [Extent S] → Tensor S K → Prop
  | ofStored {S : Type} [Extent S] {s : S} {pattern : Option (List Nat)} {data : List K}
      {t : Tensor S K} (h : ofStored? .ends s pattern data = some (.ok t)) : Made t
  | ofPrefix {S : Type} [Extent S] {s : S} {xs : List K} {t : Tensor S K}
      (h : ofPrefix? .ends s xs = some (.ok t)) : Made t
  | ofEntries {S : Type} [Extent S] {s : S} {indexes : List (List Nat)} {data : List K}
      {t : Tensor S K} (hlengths : ∀ i ∈ indexes, i.length = (Extent.dims s).length)
      (h : ofEntries? .ends s indexes data = some (.ok t)) : Made t
  | reshape {S T : Type} [Extent S] [Extent T] {t : Tensor S K} {s : T} {u : Tensor T K}
      (ht : Made t) (h : t.reshape? .ends s = some (.ok u)) : Made u
  | toDense {S : Type} [Extent S] {t u : Tensor S K} (ht : Made t)
      (h : t.toDense? .ends = some u) : Made u
  | map {S : Type} [Extent S] {t u : Tensor S K} (f : K → K) (ht : Made t)
      (h : t.map? .ends f = some u) : Made u
  | scale {S : Type} [Extent S] {t : Tensor S K} (x : K) (ht : Made t) : Made (t.scale x)
  | transpose {a b : Matrix K} (ha : Made a) (h : a.transpose? = some b) : Made b
  | product {a b c : Matrix K} (ha : Made a) (hb : Made b)
      (h : a.product? b = some (.ok c)) : Made c
  | elementwise {a b c : Matrix K} (ha : Made a) (hb : Made b)
      (h : a.elementwise? b = some (.ok c)) : Made c
  | inverse {a b : Matrix K} (ha : Made a) (h : a.inverse? = some (.ok b)) : Made b
  | zeros {S : Type} [Extent S] (s : S) : Made (Tensor.zeros s)
  | ones {S : Type} [Extent S] {s : S} {t : Tensor S K} (h : ones? .ends s = some t) : Made t
  | sparseIdentity {n : Nat} {a : Matrix K} (h : Matrix.sparseIdentity? n = some a) : Made a
  | identity {n : Nat} {a : Matrix K} (h : Matrix.identity? n = some a) : Made a
  | lowerOnes {n : Nat} {a : Matrix K} (h : Matrix.lowerOnes? n = some a) : Made a

theorem valid_of_made {t : Tensor S K} (h : Made t) : t.Valid := by
  -- Only what multiplies, maps or rearranges stored coefficients needs the form of its operands.
  induction h with
  | ofStored h => exact (ofStored_ok ((computes_ofStored _ _ _ _).eq h).symm).2
  | ofPrefix h => exact valid_ofPrefix ((computes_ofPrefix _ _ _).eq h).symm
  | ofEntries hlengths h =>
      exact (valid_ofEntries hlengths ((computes_ofEntries _ _ _ _).eq h).symm).1
  | reshape _ h ih => exact valid_reshape ih ((computes_reshape _ _ _).eq h).symm
  | toDense _ h ih => exact (computes_toDense _ ih).eq h ▸ valid_toDense ih
  | map f _ h ih => exact (computes_map _ f ih).eq h ▸ valid_map ih f
  | scale x _ ih => exact valid_scale ih x
  | transpose _ h ih => exact (Matrix.computes_transpose ih).eq h ▸ Matrix.valid_ofFn _ _
  | product _ _ h iha ihb =>
      exact Matrix.valid_product ((Matrix.computes_product iha ihb).eq h).symm
  | elementwise _ _ h iha ihb =>
      exact Matrix.valid_elementwise iha ihb ((Matrix.computes_elementwise iha ihb).eq h).symm
  | inverse _ h ih => exact Matrix.valid_inverse ((Matrix.computes_inverse ih).eq h).symm
  | zeros s => exact valid_zeros s
  | ones h => exact (computes_ones _ _).eq h ▸ valid_ones _
  | sparseIdentity h =>
      exact (Matrix.computes_sparseIdentity _).eq h ▸ (HasShape.sparseIdentity _).valid
  | identity h =>
      exact (Matrix.computes_identity _).eq h ▸ valid_toDense (HasShape.sparseIdentity _).valid
  | lowerOnes h => exact (Matrix.computes_lowerOnes _).eq h ▸ (HasShape.lowerOnes _).valid

/-! ## Sizes of dense arrays -/

/-- The number of elements is a word where there is a coefficient for each. -/
def Bounded {S : Type} [Extent S] (t : Tensor S K) : Prop :=
  t.pattern = none → Extent.size t.shape < 2 ^ 64

omit [Scalar K] in
theorem bounded_of_size? {S : Type} [Extent S] {t : Tensor S K} {n : Nat}
    (h : Extent.size? .ends t.shape = some n) : Bounded t :=
  fun _ => Extent.size_lt_of_fit (Extent.leadingFit_of_size? h)

theorem size_lt_of_elements? {S : Type} [Extent S] {t : Tensor S K} {xs : Array K} (ht : Bounded t)
    (h : t.elements? .ends = some xs) : Extent.size t.shape < 2 ^ 64 := by
  obtain ⟨s, pattern, data⟩ := t
  cases pattern with
  | none => exact ht rfl
  | some ps =>
      obtain ⟨n, hn, -⟩ := Option.bind_eq_some_iff.mp h
      exact Extent.size_lt_of_fit (Extent.leadingFit_of_size? hn)

theorem size_lt_of_toDense? {S : Type} [Extent S] {t u : Tensor S K} (ht : Bounded t)
    (h : t.toDense? .ends = some u) : Extent.size t.shape < 2 ^ 64 ∧ u.shape = t.shape := by
  obtain ⟨s, pattern, data⟩ := t
  cases pattern with
  | none =>
      obtain rfl := Option.some.inj h
      exact ⟨ht rfl, rfl⟩
  | some ps =>
      obtain ⟨xs, hxs, rfl⟩ := Option.map_eq_some_iff.mp h
      exact ⟨size_lt_of_elements? ht hxs, rfl⟩

omit [Scalar K] in
theorem bounded_ofStored {S : Type} [Extent S] {s : S} {pattern : Option (List Nat)} {data : List K}
    {t : Tensor S K} (h : ofStored? .ends s pattern data = some (.ok t)) : Bounded t := by
  obtain ⟨rfl, -⟩ := ofStored_ok ((computes_ofStored _ _ _ _).eq h).symm
  rintro rfl
  obtain ⟨r, hr, -⟩ := Option.map_eq_some_iff.mp h
  obtain ⟨n, hn, -⟩ := Option.map_eq_some_iff.mp hr
  exact Extent.size_lt_of_fit (Extent.leadingFit_of_size? hn)

omit [Scalar K] in
theorem bounded_ofPrefix {S : Type} [Extent S] {s : S} {xs : List K} {t : Tensor S K}
    (h : ofPrefix? .ends s xs = some (.ok t)) : Bounded t := by
  obtain ⟨n, -, h⟩ := Option.bind_eq_some_iff.mp h
  dsimp only at h
  split at h
  · cases h
  · exact bounded_ofStored h

omit [Scalar K] in
theorem bounded_reshape {S T : Type} [Extent S] [Extent T] {t : Tensor S K} {s : T} {u : Tensor T K}
    (h : t.reshape? .ends s = some (.ok u)) : Bounded u := by
  obtain ⟨-, rfl⟩ := reshape_ok ((computes_reshape _ _ _).eq h).symm
  obtain ⟨n, hn, -⟩ := Option.bind_eq_some_iff.mp h
  exact bounded_of_size? hn

theorem bounded_toDense {S : Type} [Extent S] {t u : Tensor S K} (ht : Bounded t)
    (h : t.toDense? .ends = some u) : Bounded u := by
  obtain ⟨hlt, hshape⟩ := size_lt_of_toDense? ht h
  exact fun _ => hshape ▸ hlt

theorem bounded_map {S : Type} [Extent S] {t u : Tensor S K} {f : K → K} (ht : Bounded t)
    (h : t.map? .ends f = some u) : Bounded u := by
  obtain ⟨xs, hxs, rfl⟩ := Option.map_eq_some_iff.mp h
  have hlt := size_lt_of_elements? ht hxs
  exact fun _ => hlt

theorem bounded_transpose {a b : Matrix K} (ha : Bounded a) (h : a.transpose? = some b) :
    Bounded b := by
  obtain ⟨d, hd, rfl⟩ := Option.map_eq_some_iff.mp h
  obtain ⟨hlt, hshape⟩ := size_lt_of_toDense? ha hd
  intro _
  simpa [Matrix.transpose, Shape.flip, hshape, Nat.mul_comm] using hlt

theorem bounded_product {a b c : Matrix K} (h : a.product? b = some (.ok c)) : Bounded c := by
  unfold Matrix.product? at h
  split at h
  · cases h
  · obtain ⟨a, -, h⟩ := Option.bind_eq_some_iff.mp h
    obtain ⟨b, -, h⟩ := Option.bind_eq_some_iff.mp h
    obtain ⟨n, hn, h⟩ := Option.bind_eq_some_iff.mp h
    intro _
    rw [Matrix.shape_product (Option.some.inj h), Extent.size_shape]
    exact Word.lt_of_mul? hn

theorem bounded_elementwise {a b c : Matrix K} (h : a.elementwise? b = some (.ok c)) :
    Bounded c := by
  unfold Matrix.elementwise? at h
  split at h
  · cases h
  · obtain ⟨xs, -, h⟩ := Option.bind_eq_some_iff.mp h
    obtain ⟨ys, -, h⟩ := Option.bind_eq_some_iff.mp h
    exact bounded_ofStored h

theorem bounded_inverse {a b : Matrix K} (ha : Bounded a) (h : a.inverse? = some (.ok b)) :
    Bounded b := by
  unfold Matrix.inverse? at h
  split at h
  · cases h
  · rename_i hsquare
    obtain ⟨d, hd, h⟩ := Option.bind_eq_some_iff.mp h
    obtain ⟨n, -, h⟩ := Option.bind_eq_some_iff.mp h
    obtain ⟨hlt, hshape⟩ := size_lt_of_toDense? ha hd
    have hsquare : d.shape.isSquare = true := by simpa [hshape] using hsquare
    have hresult := (Matrix.outcome_inverse hsquare).value (Option.some.inj h)
    exact fun _ => hresult.shape ▸ hshape ▸ hlt

theorem bounded_sparseIdentity {n : Nat} {a : Matrix K} (h : Matrix.sparseIdentity? n = some a) :
    Bounded a := by
  obtain ⟨ps, -, h⟩ := Option.bind_eq_some_iff.mp h
  obtain rfl := Option.some.inj h
  exact nofun

theorem bounded_of_made {t : Tensor S K} (h : Made t) : Bounded t := by
  induction h with
  | ofStored h => exact bounded_ofStored h
  | ofPrefix h => exact bounded_ofPrefix h
  | ofEntries hlengths h =>
      obtain ⟨-, -, rfl⟩ := ofEntries_eq_ok_iff.mp ((computes_ofEntries _ _ _ _).eq h).symm
      exact nofun
  | reshape _ h _ => exact bounded_reshape h
  | toDense _ h ih => exact bounded_toDense ih h
  | map f _ h ih => exact bounded_map ih h
  | scale x _ ih => exact ih
  | transpose _ h ih => exact bounded_transpose ih h
  | product _ _ h _ _ => exact bounded_product h
  | elementwise _ _ h _ _ => exact bounded_elementwise h
  | inverse _ h ih => exact bounded_inverse ih h
  | zeros s => exact nofun
  | ones h =>
      obtain ⟨n, hn, rfl⟩ := Option.map_eq_some_iff.mp h
      exact bounded_of_size? hn
  | sparseIdentity h => exact bounded_sparseIdentity h
  | identity h =>
      obtain ⟨a, ha, h⟩ := Option.bind_eq_some_iff.mp h
      exact bounded_toDense (bounded_sparseIdentity ha) h
  | lowerOnes h =>
      obtain ⟨ps, -, h⟩ := Option.bind_eq_some_iff.mp h
      obtain rfl := Option.some.inj h
      exact nofun

/-- Every position of the shape has an element. -/
theorem getElem?_toDense {t : Tensor S K} (h : t.Valid) {p : Nat} (hp : p < Extent.size t.shape) :
    t.toDense.data[p]? = some (t.elements.getD p 0) := by
  have hlt : p < t.elements.size := by rwa [h.size_elements]
  rw [toDense_eq]
  simp [dense, hlt]

/-! ## Indexed coefficients -/

/-- The values given for an index added up in their order, zero if there are none. -/
def sumGiven (index : List Nat) (indexes : List (List Nat)) (values : List K) : K :=
  match ((indexes.zip values).filter fun e => e.1 = index).map (·.2) with
  | [] => 0
  | v :: vs => vs.foldl (· + ·) v

/-- Equal positions are equal indexes, so the values of a position are those of its index. -/
theorem sumAt?_positions {dims index : List Nat} {indexes : List (List Nat)} {values : List K}
    (hindexes : ∀ i ∈ indexes, InRange i dims) (hindex : InRange index dims) :
    (Entry.sumAt? (position dims index) ((indexes.map (position dims)).zip values)).getD 0 =
      sumGiven index indexes values := by
  have hnumbers : Entry.numbersAt (position dims index) ((indexes.map (position dims)).zip values) =
      ((indexes.zip values).filter fun e => e.1 = index).map (·.2) := by
    rw [Entry.numbersAt, List.zip_map_left, List.filter_map, List.map_map]
    refine congrArg (List.map _) (List.filter_congr fun e he => ?_)
    have hin : InRange e.1 dims := hindexes e.1 (List.of_mem_zip he).1
    refine decide_eq_decide.mpr ⟨position_injective hin hindex, ?_⟩
    rintro rfl
    rfl
  rw [Entry.sumAt?, hnumbers, sumGiven]
  cases ((indexes.zip values).filter fun e => e.1 = index).map (·.2) <;> rfl

/-- What a sparse array of collected entries reads at a position. -/
theorem getD_elements_collect {s : S} {es : List (Entry K)} {t : Tensor S K} (hvalid : t.Valid)
    (ht : t = ⟨s, some ((Entry.collect es).map (·.1)), (Entry.collect es).map (·.2)⟩) (p : Nat) :
    t.elements.getD p 0 = (Entry.sumAt? p es).getD 0 := by
  subst ht
  obtain ⟨hascending, hlength, hrange⟩ := Valid.sparse hvalid
  rw [elements, getD_foldl_set (hascending.imp Nat.ne_of_lt) hlength
    (by simpa [Tensor.size] using hrange)]
  cases hidx : ((Entry.collect es).map (·.1)).idxOf? p with
  | none =>
      -- A sum at this position would be an entry, and its position would be found.
      have hnone : Entry.sumAt? p es = none := by
        by_contra hsome
        obtain ⟨v, hv⟩ := Option.ne_none_iff_exists'.mp hsome
        exact List.idxOf?_eq_none_iff.mp hidx
          (List.mem_map_of_mem (f := (·.1)) (Entry.mem_collect_iff.mpr hv))
      rw [hnone, Array.getD_eq_getD_getElem?, Array.getElem?_replicate]
      split_ifs <;> rfl
  | some q =>
      obtain ⟨hq, hposition, -⟩ := List.idxOf?_eq_some_iff.mp hidx
      have hq : q < (Entry.collect es).length := by simpa using hq
      have hmem : (p, (Entry.collect es)[q].2) ∈ Entry.collect es := by
        have hp : (Entry.collect es)[q].1 = p := by simpa using hposition
        rw [← hp]
        exact List.getElem_mem hq
      rw [Entry.mem_collect_iff.mp hmem]
      simp [hq]

/-- Indexes within the dimensions make an array whose elements are the sums of the values given for
them. -/
theorem ofEntries_sums {s : S} {indexes : List (List Nat)} {values : List K}
    (hlength : indexes.length = values.length)
    (hindexes : ∀ i ∈ indexes, InRange i (Extent.dims s)) :
    ∃ t, ofEntries s indexes values = .ok t ∧ ∀ index, InRange index (Extent.dims s) →
      t.toDense.data[position (Extent.dims s) index]? = some (sumGiven index indexes values) := by
  have hlengths : ∀ i ∈ indexes, i.length = (Extent.dims s).length := fun i hi =>
    (inRange_iff.mp (hindexes i hi)).1
  have hbounds : ∀ i ∈ indexes, inBounds (Extent.dims s) i = true := fun i hi =>
    (inRange_iff.mp (hindexes i hi)).2
  have hok := ofEntries_eq_ok_iff.mpr ⟨hlength.symm, hbounds, rfl⟩
  have hvalid := (valid_ofEntries hlengths hok).1
  refine ⟨_, hok, fun index hindex => ?_⟩
  rw [getElem?_toDense hvalid (position_lt hindex), ← sumAt?_positions hindexes hindex]
  exact congrArg some (getD_elements_collect hvalid rfl _)

omit [Scalar K] in
/-- With an index within them no dimension is empty, so that it is enough if the strides fit. -/
theorem leadingFit_of_inRange {s : S} {index : List Nat} (hindex : InRange index (Extent.dims s))
    (hfit : Extent.TrailingFit s) : Extent.LeadingFit s := by
  have hpos := hindex.pos
  exact (Extent.leadingFit_iff hpos).mpr ((Extent.trailingFit_iff hpos).mp hfit)

/-- Whether indexed coefficients make an array depends on the strides alone. -/
theorem ofEntries?_sums {s : S} {indexes : List (List Nat)} {values : List K}
    (hlength : indexes.length = values.length)
    (hindexes : ∀ i ∈ indexes, InRange i (Extent.dims s)) :
    (Extent.TrailingFit s → ∀ o, ∃ t, ofEntries? o s indexes values = some (.ok t) ∧
      ∀ index, InRange index (Extent.dims s) → ∃ d, t.toDense? o = some d ∧
        d.data[position (Extent.dims s) index]? = some (sumGiven index indexes values)) ∧
    (¬ Extent.TrailingFit s → ofEntries? .ends s indexes values = none) := by
  constructor
  · intro hfit o
    obtain ⟨t, ht, hsums⟩ := ofEntries_sums hlength hindexes
    have hlengths : ∀ i ∈ indexes, i.length = (Extent.dims s).length := fun i hi =>
      (inRange_iff.mp (hindexes i hi)).1
    obtain ⟨hvalid, hshape⟩ := valid_ofEntries hlengths ht
    have hok := (computes_ofEntries o s indexes values).of_fits ⟨hfit, hlengths⟩
    refine ⟨t, hok.trans (congrArg some ht), fun index hindex => ?_⟩
    refine ⟨t.toDense, ?_, hsums index hindex⟩
    have hleading := leadingFit_of_inRange hindex hfit
    exact (computes_toDense o hvalid).of_fits (.inr (hshape ▸ hleading))
  · intro hfit
    have hbounds : (indexes.any fun i => !inBounds (Extent.dims s) i) = false := by
      simpa using fun i hi => (inRange_iff.mp (hindexes i hi)).2
    unfold ofEntries?
    rw [if_neg (by simp [hlength]), if_neg (by simp [hbounds]), strides?_eq_none hfit]
    rfl

end Tensor

namespace Matrix

variable {K : Type} [Scalar K] {a : Matrix K}

/-- A single element is the one that the list of all elements has in its row and column. -/
theorem getElem?_toDense_get (h : a.Valid) {i j : Nat} (hi : i < a.shape.rows)
    (hj : j < a.shape.cols) : a.toDense.data[i * a.shape.cols + j]? = some (a.get i j) := by
  rw [Tensor.getElem?_toDense h (by simpa using cell_lt hi hj), get_eq_elements h]

/-- Every element of an array whose elements can be listed is at a position that is a word. -/
theorem get?_eq (o : Overflow) (ha : a.Made) (hlist : a.Listable) {i j : Nat}
    (hi : i < a.shape.rows) (hj : j < a.shape.cols) : a.get? o i j = some (a.get i j) := by
  refine (computes_get o (Tensor.valid_of_made ha) hi hj).of_fits ?_
  have hsize : Extent.size a.shape < 2 ^ 64 := hlist.elim (Tensor.bounded_of_made ha)
    Extent.size_lt_of_fit
  rw [Extent.size_shape] at hsize
  exact (cell_lt hi hj).trans hsize

theorem transpose_transpose (h : a.Valid) : a.transpose.transpose = a.toDense := by
  rw [toDense_eq_ofFn h]
  refine ofFn_congr fun i hi j hj => ?_
  exact cell_ofFn (s := a.shape.flip) _ hj hi

theorem transpose?_transpose? (h : a.Valid) (hlist : a.Listable) :
    a.transpose?.bind transpose? = some a.toDense := by
  have hfirst := (computes_transpose h).of_fits hlist
  have hvalid : a.transpose.Valid := valid_ofFn _ _
  have hsecond := (computes_transpose hvalid).of_fits (.inl rfl)
  rw [hfirst, Option.bind_some, hsecond, transpose_transpose h]

end Matrix

namespace Tensor

variable {K : Type} [Scalar K]

/-- Another shape has the same elements, and both sizes have been computed for it. -/
theorem reshape?_toDense? {S T : Type} [Extent S] [Extent T] {t : Tensor S K} {s : T}
    {u : Tensor T K} (ht : t.Valid) (h : t.reshape? .ends s = some (.ok u)) :
    t.toDense? .ends = some t.toDense ∧ u.toDense? .ends = some u.toDense ∧
      u.toDense.data = t.toDense.data := by
  have hreshape := ((computes_reshape .ends t s).eq h).symm
  have hvalid := valid_reshape ht hreshape
  obtain ⟨n, hn, hrest⟩ := Option.bind_eq_some_iff.mp h
  obtain ⟨m, hm, -⟩ := Option.bind_eq_some_iff.mp hrest
  have helements : u.toDense.data = t.toDense.data := by
    rw [toDense_eq, toDense_eq, elements_reshape hreshape]
    rfl
  obtain ⟨-, rfl⟩ := reshape_ok hreshape
  exact ⟨(computes_toDense .ends ht).of_fits (.inr (Extent.leadingFit_of_size? hm)),
    (computes_toDense .ends hvalid).of_fits (.inr (Extent.leadingFit_of_size? hn)), helements⟩

/-- With overflow checks every array that can be made has a meaningful stored form, in any number of
dimensions, and its elements can be listed, in either build, if it is dense or the product of its
leading sizes never leaves the words.  Then an element of a matrix is the one at its place in the
list, and transposing twice stores every element and changes none; another shape keeps the list.
Indexed coefficients make an array that has at each index the sum of the values given for it if the
product of the trailing sizes never leaves the words, in either build, and end the program with
overflow checks if it does.  The constructors of shapes that fit are the same in either build. -/
theorem stored_forms_meaningful :
    (∀ {S : Type} [Extent S] (t : Tensor S K), Made t → t.Meaningful ∧
      (t.Listable → ∀ o, t.toDense? o = some t.toDense) ∧
      (¬ t.Listable → t.toDense? .ends = none)) ∧
    (∀ a : Matrix K, Made a → a.Listable →
      (∀ o, ∀ i < a.shape.rows, ∀ j < a.shape.cols, ∃ v, a.get? o i j = some v ∧
        a.toDense.data[i * a.shape.cols + j]? = some v) ∧
      a.transpose?.bind Matrix.transpose? = some a.toDense) ∧
    (∀ {S T : Type} [Extent S] [Extent T] (t : Tensor S K) (s : T) (u : Tensor T K), Made t →
      t.reshape? .ends s = some (.ok u) → t.toDense? .ends = some t.toDense ∧
        u.toDense? .ends = some u.toDense ∧ u.toDense.data = t.toDense.data) ∧
    (∀ {S : Type} [Extent S] (s : S) (indexes : List (List Nat)) (values : List K),
      indexes.length = values.length → (∀ i ∈ indexes, InRange i (Extent.dims s)) →
      (Extent.TrailingFit s → ∀ o, ∃ t, ofEntries? o s indexes values = some (.ok t) ∧
        ∀ index, InRange index (Extent.dims s) → ∃ d, t.toDense? o = some d ∧
          d.data[position (Extent.dims s) index]? = some (sumGiven index indexes values)) ∧
      (¬ Extent.TrailingFit s → ofEntries? .ends s indexes values = none)) ∧
    (∀ {S : Type} [Extent S] (s : S), Extent.LeadingFit s → ∀ o,
      (∀ pattern, ∀ data : List K, ofStored? o s pattern data = ofStored? .ends s pattern data) ∧
      (∀ xs : List K, ofPrefix? o s xs = ofPrefix? .ends s xs) ∧
      (ones? o s : Option (Tensor S K)) = ones? .ends s) := by
  refine ⟨?_, ?_, ?_, ?_, ?_⟩
  · intro S _ t ht
    have hvalid := valid_of_made ht
    refine ⟨meaningful_iff_valid.mpr hvalid, fun hlist o => ?_, toDense?_eq_none⟩
    exact (computes_toDense o hvalid).of_fits hlist
  · intro a ha hlist
    have hvalid := valid_of_made ha
    refine ⟨fun o i hi j hj => ⟨a.get i j, ?_, ?_⟩, ?_⟩
    · exact Matrix.get?_eq o ha hlist hi hj
    · exact Matrix.getElem?_toDense_get hvalid hi hj
    · exact Matrix.transpose?_transpose? hvalid hlist
  · intro S T _ _ t s u ht h
    exact reshape?_toDense? (valid_of_made ht) h
  · intro S _ s indexes values hlength hindexes
    exact ofEntries?_sums hlength hindexes
  · intro S _ s hfit o
    refine ⟨fun pattern data => ?_, fun xs => ?_, ?_⟩
    · rw [(computes_ofStored o s pattern data).of_fits hfit,
        (computes_ofStored .ends s pattern data).of_fits hfit]
    · rw [(computes_ofPrefix o s xs).of_fits hfit, (computes_ofPrefix .ends s xs).of_fits hfit]
    · rw [(computes_ones o s).of_fits hfit, (computes_ones .ends s).of_fits hfit]

/-- Three values for two indexes of a cube, seen as a matrix of four rows. -/
theorem stored_forms_meaningful_cube :
    ∃ (t d : Tensor (List Nat) Rat) (u : Matrix Rat),
      ofEntries? .ends [2, 2, 2] [[1, 0, 1], [0, 0, 0], [1, 0, 1]] [1, 2, 3] = some (.ok t) ∧
      t.toDense? .ends = some d ∧ d.data[5]? = some 4 ∧
      t.reshape? .ends (⟨4, 2⟩ : Shape) = some (.ok u) ∧ u.Meaningful ∧
      u.toDense.data = d.data ∧
      (∃ v, u.get? .wraps 2 1 = some v ∧ u.toDense.data[2 * 2 + 1]? = some v) ∧
      u.transpose?.bind Matrix.transpose? = some u.toDense := by
  obtain ⟨hforms, hmatrices, hreshape, hentries, -⟩ := stored_forms_meaningful (K := Rat)
  have hindexes : ∀ i ∈ [[1, 0, 1], [0, 0, 0], [1, 0, 1]], InRange i (Extent.dims [2, 2, 2]) := by
    intro i hi
    simp only [List.mem_cons, List.not_mem_nil, or_false] at hi
    rcases hi with rfl | rfl | rfl <;> simp [InRange, Extent.dims]
  obtain ⟨t, ht, hsums⟩ := (hentries [2, 2, 2] _ [1, 2, 3] rfl hindexes).1 (by decide) .ends
  obtain ⟨d, hd, hsum⟩ := hsums [1, 0, 1] (hindexes _ List.mem_cons_self)
  have hmade : Made t := .ofEntries (fun i hi => (inRange_iff.mp (hindexes i hi)).1) ht
  obtain ⟨-, -, hlist⟩ := ofEntries_eq_ok_iff.mp ((computes_ofEntries _ _ _ _).eq ht).symm
  have hfits : Extent.LeadingFit t.shape := by
    rw [hlist]
    decide
  have hu : t.reshape? .ends (⟨4, 2⟩ : Shape) = some (.ok ⟨⟨4, 2⟩, t.pattern, t.data⟩) := by
    have hreshape := (computes_reshape .ends t (⟨4, 2⟩ : Shape)).of_fits ⟨by decide, hfits⟩
    rw [hreshape, hlist]
    rfl
  obtain ⟨hlisted, -, hdata⟩ := hreshape t _ _ hmade hu
  have hmatrix : Made (⟨⟨4, 2⟩, t.pattern, t.data⟩ : Matrix Rat) := .reshape hmade hu
  have hmatrixFits : Extent.LeadingFit (⟨4, 2⟩ : Shape) := by decide
  obtain ⟨hcells, htranspose⟩ := hmatrices _ hmatrix (.inr hmatrixFits)
  obtain rfl := Option.some.inj (hd.symm.trans hlisted)
  have hcell := hcells .wraps 2 (by simp) 1 (by simp)
  refine ⟨t, _, _, ht, hd, ?_, hu, (hforms _ hmatrix).1, hdata, hcell, htranspose⟩
  exact hsum.trans (by decide +kernel)

/-- Two indexes whose positions are words make no array with overflow checks, because the number of
all elements is no word.  Without them two different indexes get one position, and a dense matrix of
`2 ^ 64` elements needs no coefficient. -/
theorem large_shapes_overflow :
    (∀ i ∈ [[0, 0], [1, 0]], InRange i [2 ^ 32, 2 ^ 32] ∧ position [2 ^ 32, 2 ^ 32] i < 2 ^ 64) ∧
    ofEntries? .ends [2 ^ 32, 2 ^ 32] [[0, 0], [1, 0]] ([1, 2] : List Rat) = none ∧
    (∀ i ∈ [[0, 0], [2 ^ 31, 0]], InRange i [2 ^ 33, 2 ^ 33]) ∧
    ofEntries? .wraps [2 ^ 33, 2 ^ 33] [[0, 0], [2 ^ 31, 0]] ([1, 2] : List Rat) =
      some (.ok ⟨[2 ^ 33, 2 ^ 33], some [0], [3]⟩) ∧
    ∃ t, ofStored? .wraps [2 ^ 32, 2 ^ 32] none ([] : List Rat) = some (.ok t) ∧
      ¬ t.Meaningful := by
  refine ⟨?_, by decide +kernel, ?_, ?_, ⟨_, rfl, ?_⟩⟩
  · simp [InRange, position]
  · simp [InRange]
  · cbv
  · simp [Meaningful, Tensor.size, Extent.size, Extent.dims]

end Tensor

end CoupledModels
