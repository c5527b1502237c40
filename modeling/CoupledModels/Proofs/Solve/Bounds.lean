import CoupledModels.Proofs.Solve.Difference

/-!
# What a relative difference bounds

Over exact numbers that may be undefined, a difference within a tolerance is a bound on every row:
each number of the new version has one in the old version to be compared with, and is no further
from it than the tolerance allows.  This is all that a difference says.  A difference is infinite or
a nonnegative rational and so fixed by the tolerances it is within, and since the bound speaks of the
rows and not of their order, neither version's order matters.
-/

namespace CoupledModels

namespace Difference

variable {old new : List (Row Exact)} {d e : Difference Exact} {tolerance q : Rat}

/-- The differences that come of comparing numbers: neither negative nor undefined. -/
inductive Proper : Difference Exact → Prop where
  | infinite : Proper infinite
  | finite {q : Rat} (hq : 0 ≤ q) : Proper (finite (.rational q))

/-- Every number among the new rows has one among the old rows at its coordinates, and is no further
from it than the tolerance times its magnitude. -/
def Bounded (tolerance : Rat) (old new : List (Row Exact)) : Prop :=
  ∀ r ∈ new, ∀ v, r.value = some (.rational v) →
    ∃ s ∈ old, s.coords = r.coords ∧ ∃ o, s.value = some (.rational o) ∧ |v - o| ≤ tolerance * |o|

@[simp] theorem within_rational :
    (finite (Exact.rational q)).within (.rational tolerance) = true ↔ q ≤ tolerance := by
  simp [within]

@[simp] theorem not_within_rational :
    (infinite : Difference Exact).within (.rational tolerance) = false := by
  simp [within]

@[simp] theorem number?_rational : number? (some (Exact.rational q)) = some (.rational q) := rfl

@[simp] theorem number?_eq_some_iff {v : Option Exact} {n : Exact} :
    number? v = some n ↔ ∃ q, n = .rational q ∧ v = some (.rational q) := by
  cases v with
  | none => simp [number?]
  | some a => cases a <;> simp [number?, Option.filter, eq_comm]

@[simp] theorem number?_eq_none_iff {v : Option Exact} :
    number? v = .none ↔ ∀ q, v ≠ some (.rational q) := by
  cases v with
  | none => simp [number?]
  | some a => cases a <;> simp [number?, Option.filter]

/-! ### The largest of several differences -/

theorem max_rational {p q : Rat} :
    (finite (Exact.rational p)).max (finite (.rational q)) = finite (.rational (p ⊔ q)) := by
  simp only [max, Scalar.max, Exact.isNaN_rational, Exact.lt_rational, decide_eq_true_eq,
    Bool.false_eq_true, if_false, max_def_lt]
  split <;> rfl

theorem Proper.max (hd : d.Proper) (he : e.Proper) : (d.max e).Proper := by
  cases hd with
  | infinite => exact .infinite
  | finite hp =>
      cases he with
      | infinite => exact .infinite
      | finite hq => exact max_rational ▸ .finite (hp.trans (le_max_left _ _))

theorem Proper.within_max_iff (hd : d.Proper) (he : e.Proper) :
    (d.max e).within (.rational tolerance) = true ↔
      d.within (.rational tolerance) = true ∧ e.within (.rational tolerance) = true := by
  cases hd with
  | infinite => simp [Difference.max]
  | finite hp =>
      cases he with
      | infinite => simp [Difference.max]
      | finite hq => simp [max_rational]

theorem proper_foldl_max {ds : List (Difference Exact)} (hds : ∀ d ∈ ds, d.Proper)
    (he : e.Proper) : (ds.foldl max e).Proper := by
  induction ds generalizing e with
  | nil => exact he
  | cons d ds ih =>
      obtain ⟨hd, hds⟩ := List.forall_mem_cons.mp hds
      exact ih hds (he.max hd)

/-- Taking the larger difference again and again leaves one that is within a tolerance exactly if all
of them are. -/
theorem within_foldl_max_iff {ds : List (Difference Exact)} (hds : ∀ d ∈ ds, d.Proper)
    (he : e.Proper) :
    (ds.foldl max e).within (.rational tolerance) = true ↔
      e.within (.rational tolerance) = true ∧ ∀ d ∈ ds, d.within (.rational tolerance) = true := by
  induction ds generalizing e with
  | nil => simp
  | cons d ds ih =>
      obtain ⟨hd, hds⟩ := List.forall_mem_cons.mp hds
      rw [List.foldl_cons, ih hds (he.max hd), he.within_max_iff hd, List.forall_mem_cons, and_assoc]

theorem proper_largest {ds : List (Difference Exact)} (hds : ∀ d ∈ ds, d.Proper) :
    (largest ds).Proper :=
  proper_foldl_max hds (.finite le_rfl)

theorem within_largest_iff {ds : List (Difference Exact)} (hds : ∀ d ∈ ds, d.Proper)
    (htolerance : 0 ≤ tolerance) :
    (largest ds).within (.rational tolerance) = true ↔
      ∀ d ∈ ds, d.within (.rational tolerance) = true := by
  refine (within_foldl_max_iff hds (.finite le_rfl)).trans (and_iff_right ?_)
  exact within_rational.mpr htolerance

/-- No tolerance tells two equal differences apart, and any two others are told apart by one of
them, which is a tolerance the other exceeds. -/
theorem Proper.eq_of_within (hd : d.Proper) (he : e.Proper)
    (h : ∀ tolerance, 0 ≤ tolerance →
      (d.within (.rational tolerance) = true ↔ e.within (.rational tolerance) = true)) : d = e := by
  cases hd with
  | infinite =>
      cases he with
      | infinite => rfl
      | @finite q hq => simpa using h q hq
  | @finite p hp =>
      cases he with
      | infinite => simpa using h p hp
      | @finite q hq =>
          have hpq : q ≤ p := within_rational.mp ((h p hp).mp (within_rational.mpr le_rfl))
          have hqp : p ≤ q := within_rational.mp ((h q hq).mpr (within_rational.mpr le_rfl))
          rw [le_antisymm hqp hpq]

/-! ### The difference of a row -/

section Between

variable {stored : Option Exact} {v o : Rat}

theorem between_eq_infinite (h : ∀ o, stored ≠ some (.rational o)) :
    between stored (.rational v) = infinite := by
  simp [between, number?_eq_none_iff.mpr h]

theorem between_zero :
    between (some (Exact.rational 0)) (.rational v) = if v = 0 then none else infinite := by
  simp [between]

theorem between_rational (ho : o ≠ 0) :
    between (some (Exact.rational o)) (.rational v) = finite (.rational (|v - o| / |o|)) := by
  simp [between, ho, Exact.div_rational (abs_ne_zero.mpr ho)]

theorem proper_between : (between stored (.rational v)).Proper := by
  by_cases h : ∃ o, stored = some (.rational o)
  · obtain ⟨o, rfl⟩ := h
    by_cases ho : o = 0
    · rw [ho, between_zero]
      split
      · exact .finite le_rfl
      · exact .infinite
    · rw [between_rational ho]
      exact .finite (div_nonneg (abs_nonneg _) (abs_nonneg _))
  · rw [between_eq_infinite (not_exists.mp h)]
    exact .infinite

/-- The three cases of a stored value, none, zero and another number, come to one inequality. -/
theorem within_between_iff (htolerance : 0 ≤ tolerance) :
    (between stored (.rational v)).within (.rational tolerance) = true ↔
      ∃ o, stored = some (.rational o) ∧ |v - o| ≤ tolerance * |o| := by
  by_cases h : ∃ o, stored = some (.rational o)
  · obtain ⟨o, rfl⟩ := h
    have hvalue : (∃ o', some (Exact.rational o) = some (.rational o') ∧
        |v - o'| ≤ tolerance * |o'|) ↔ |v - o| ≤ tolerance * |o| := by simp
    rw [hvalue]
    by_cases ho : o = 0
    · rw [ho, between_zero]
      by_cases hv : v = 0
      · simpa [hv, none] using htolerance
      · simp [hv]
    · rw [between_rational ho, within_rational, div_le_iff₀ (abs_pos.mpr ho)]
  · rw [between_eq_infinite (not_exists.mp h)]
    have hnone : ¬ ∃ o, stored = some (.rational o) ∧ |v - o| ≤ tolerance * |o| :=
      fun ⟨o, ho, _⟩ => h ⟨o, ho⟩
    simp [hnone]

end Between

/-! ### The difference of a table -/

theorem lastValue_eq_some_iff {K : Type} {rows : List (Row K)} (h : DistinctRows rows)
    {coords : List String} {o : K} :
    lastValue rows coords = some o ↔ ∃ s ∈ rows, s.coords = coords ∧ s.value = some o := by
  constructor
  · intro hlast
    by_cases hmem : coords ∈ rows.map Row.coords
    · obtain ⟨s, hs, rfl⟩ := List.mem_map.mp hmem
      exact ⟨s, hs, rfl, by rw [← lastValue_eq h hs, hlast]⟩
    · rw [lastValue_eq_none hmem] at hlast
      cases hlast
  · rintro ⟨s, hs, rfl, hvalue⟩
    rw [lastValue_eq h hs, hvalue]

theorem mem_rowDifferences_iff :
    d ∈ (new.filterMap fun r =>
        (number? r.value).map fun v => between (lastValue old r.coords) v) ↔
      ∃ r ∈ new, ∃ v, r.value = some (.rational v) ∧
        between (lastValue old r.coords) (.rational v) = d := by
  simp only [List.mem_filterMap, Option.map_eq_some_iff, number?_eq_some_iff]
  constructor
  · rintro ⟨r, hr, _, ⟨v, rfl, hv⟩, hd⟩
    exact ⟨r, hr, v, hv, hd⟩
  · rintro ⟨r, hr, v, hv, hd⟩
    exact ⟨r, hr, _, ⟨v, rfl, hv⟩, hd⟩

theorem proper_of_mem_rowDifferences
    (hd : d ∈ new.filterMap fun r =>
      (number? r.value).map fun v => between (lastValue old r.coords) v) : d.Proper := by
  obtain ⟨r, -, v, -, rfl⟩ := mem_rowDifferences_iff.mp hd
  exact proper_between

theorem within_ofRows_iff (hold : DistinctRows old) (htolerance : 0 ≤ tolerance) :
    (ofRows old new).within (.rational tolerance) = true ↔ Bounded tolerance old new := by
  rw [ofRows, within_largest_iff (fun d hd => proper_of_mem_rowDifferences hd) htolerance]
  constructor
  · intro h r hr v hv
    have hbetween := h _ (mem_rowDifferences_iff.mpr ⟨r, hr, v, hv, rfl⟩)
    obtain ⟨o, ho, hle⟩ := (within_between_iff htolerance).mp hbetween
    obtain ⟨s, hs, hcoords, hvalue⟩ := (lastValue_eq_some_iff hold).mp ho
    exact ⟨s, hs, hcoords, o, hvalue, hle⟩
  · intro h d hd
    obtain ⟨r, hr, v, hv, rfl⟩ := mem_rowDifferences_iff.mp hd
    obtain ⟨s, hs, hcoords, o, hvalue, hle⟩ := h r hr v hv
    have ho := (lastValue_eq_some_iff hold).mpr ⟨s, hs, hcoords, hvalue⟩
    exact (within_between_iff htolerance).mpr ⟨o, ho, hle⟩

theorem bounded_perm {old' new' : List (Row Exact)} (hold : old'.Perm old) (hnew : new'.Perm new) :
    Bounded tolerance old' new' ↔ Bounded tolerance old new := by
  simp only [Bounded, hold.mem_iff, hnew.mem_iff]

/-- A difference is within a tolerance exactly if the tolerance bounds every row.  It is infinite or a
nonnegative rational, and does not depend on the order of the rows. -/
theorem bounds_every_row (hold : DistinctRows old) :
    (∀ tolerance, 0 ≤ tolerance →
      ((ofRows old new).within (.rational tolerance) = true ↔ Bounded tolerance old new)) ∧
    (ofRows old new).Proper ∧
    ∀ old' new', old'.Perm old → new'.Perm new → ofRows old' new' = ofRows old new := by
  have hproper : ∀ old new, (ofRows old new).Proper := fun old new =>
    proper_largest fun d hd => proper_of_mem_rowDifferences hd
  refine ⟨fun tolerance ht => within_ofRows_iff hold ht, hproper old new, ?_⟩
  intro old' new' hperm hperm'
  have hold' : DistinctRows old' := (hperm.map Row.coords).nodup_iff.mpr hold
  refine (hproper old' new').eq_of_within (hproper old new) fun tolerance ht => ?_
  rw [within_ofRows_iff hold' ht, within_ofRows_iff hold ht, bounded_perm hperm hperm']

/-- Rows with a number, a zero, a value that is not defined and one that is not a number. -/
def lastCatch : List (Row Exact) :=
  [⟨["cork"], some (.rational 2)⟩, ⟨["vigo"], some (.rational 0)⟩, ⟨["brest"], .none⟩,
    ⟨["gijon"], some .undefined⟩]

/-- The same rows after the number has grown by a tenth. -/
def nextCatch : List (Row Exact) :=
  [⟨["gijon"], some .undefined⟩, ⟨["cork"], some (.rational (11 / 5))⟩, ⟨["brest"], .none⟩,
    ⟨["vigo"], some (.rational 0)⟩]

theorem bounds_every_row_catch :
    DistinctRows lastCatch ∧
      (ofRows lastCatch nextCatch).within (.rational (1 / 10)) = true ∧
      Bounded (1 / 10) lastCatch nextCatch ∧ ¬ Bounded (1 / 20) lastCatch nextCatch ∧
      ofRows lastCatch.reverse nextCatch.reverse = ofRows lastCatch nextCatch := by
  have hdistinct : DistinctRows lastCatch := by unfold DistinctRows; decide
  have hwithin : (ofRows lastCatch nextCatch).within (.rational (1 / 10)) = true := by decide +kernel
  have hexceeds : (ofRows lastCatch nextCatch).within (.rational (1 / 20)) = false := by
    decide +kernel
  obtain ⟨hbounds, -, hperm⟩ := @bounds_every_row lastCatch nextCatch hdistinct
  refine ⟨hdistinct, hwithin, (hbounds (1 / 10) (by norm_num)).mp hwithin, fun h => ?_,
    hperm _ _ (List.reverse_perm _) (List.reverse_perm _)⟩
  rw [(hbounds (1 / 20) (by norm_num)).mpr h] at hexceeds
  cases hexceeds

end Difference

end CoupledModels
