import CoupledModels.Proofs.Formula.Completeness
import CoupledModels.Proofs.Formula.Soundness
import CoupledModels.Proofs.Number.Literals

/-!
# Printing formulas

Formulas are printed with parentheses only where an operand would otherwise be torn apart: around an
operand whose level is looser than its place allows.  What is printed is derived by the grammar, so
reading it gives back the formula.
-/

namespace CoupledModels.Formula

/-! ## Numerals of literals -/

theorem ofDigits_append_singleton (ds : List Char) (d : Char) :
    Decimal.ofDigits (ds ++ [d]) = 10 * Decimal.ofDigits ds + (d.toNat - '0'.toNat) := by
  simp [Decimal.ofDigits, List.foldl_append]

/-- The digit of a number below ten. -/
def digitOf (n : Nat) : Char :=
  Char.ofNat ('0'.toNat + n)

theorem isDigit_digitOf {n : Nat} (h : n < 10) : isDigit (digitOf n) = true := by
  revert n
  decide

theorem toNat_digitOf {n : Nat} (h : n < 10) : (digitOf n).toNat - '0'.toNat = n := by
  revert n
  decide

theorem exists_digits (n : Nat) :
    ∃ ds, ds ≠ [] ∧ (∀ c ∈ ds, isDigit c = true) ∧ Decimal.ofDigits ds = n := by
  -- The last digit is split off, since numerals are read from the left.
  induction n using Nat.strongRecOn with
  | ind n ih =>
      by_cases hn : n < 10
      · refine ⟨[digitOf n], List.cons_ne_nil _ _, by simpa using isDigit_digitOf hn, ?_⟩
        rw [← List.nil_append [digitOf n], ofDigits_append_singleton, toNat_digitOf hn]
        exact Nat.zero_add n
      · have hlast : n % 10 < 10 := Nat.mod_lt n (by decide)
        obtain ⟨ds, hne, hds, hvalue⟩ := ih (n / 10) (by omega)
        refine ⟨ds ++ [digitOf (n % 10)], by simp, ?_, ?_⟩
        · intro c hc
          rcases List.mem_append.1 hc with hmem | hmem
          · exact hds c hmem
          · rw [List.mem_singleton.1 hmem]
            exact isDigit_digitOf hlast
        · rw [ofDigits_append_singleton, toNat_digitOf hlast, hvalue]
          omega

theorem exists_exponentText (e : Int) : ∃ exponent : ExponentText, exponent.value = e := by
  obtain ⟨ds, hne, hds, hvalue⟩ := exists_digits e.natAbs
  refine ⟨⟨'e', if e < 0 then some true else none, ds, .inl rfl, hne, hds⟩, ?_⟩
  by_cases he : e < 0
  · simp only [ExponentText.value, he, if_true, hvalue]
    omega
  · simp only [ExponentText.value, he, if_false, hvalue, reduceCtorEq]
    omega

/-- Every decimal number without a sign has a numeral. -/
theorem exists_numberText {d : Decimal} (h : d.negative = false) : ∃ n : NumberText, n.value = d := by
  obtain ⟨negative, mantissa, exponent⟩ := d
  obtain ⟨ds, hne, hds, rfl⟩ := exists_digits mantissa
  obtain ⟨x, rfl⟩ := exists_exponentText exponent
  cases h
  refine ⟨⟨false, ds, none, some x, hds, by simp, by simpa using hne⟩, ?_⟩
  simp [NumberText.value, NumberText.exponentValue]

variable {K : Type} [Scalar K]

/-- A number that some numeral stands for. -/
def IsLiteral (v : K) : Prop :=
  ∃ d : Decimal, d.negative = false ∧ Scalar.ofDecimal d = v

/-- The literals among the doubles are those that are neither undefined nor negative: all finite ones
without a sign, and the infinite one, which is what a numeral beyond their range is read as. -/
theorem isLiteral_iff (x : Float) :
    IsLiteral x ↔ Scalar.isNaN x = false ∧ Decimal.signBit x = false :=
  Decimal.exists_toFloat_eq_iff x

variable (K) in
/-- A choice of numerals and of names for functions that have several. -/
structure Spelling where
  numeral : K → NumberText
  word : Function → String
  value_numeral : ∀ v, IsLiteral v → Scalar.ofDecimal (numeral v).value = v
  ofName_word : ∀ f, Function.ofName? (word f) = some f

theorem nonempty_spelling : Nonempty (Spelling K) := by
  have hnumeral : ∀ v : K, ∃ n : NumberText, IsLiteral v → Scalar.ofDecimal n.value = v := by
    intro v
    by_cases hv : IsLiteral v
    · obtain ⟨d, hd, hvalue⟩ := hv
      obtain ⟨n, rfl⟩ := exists_numberText hd
      exact ⟨n, fun _ => hvalue⟩
    · obtain ⟨n, -⟩ := exists_numberText (d := ⟨false, 0, 0⟩) rfl
      exact ⟨n, fun h => absurd h hv⟩
  exact ⟨⟨fun v => (hnumeral v).choose, Function.name, fun v => (hnumeral v).choose_spec,
    fun f => by cases f <;> rfl⟩⟩

/-! ## Levels -/

/-- How loosely a level holds its operands together. -/
def Level.rank : Level → Nat
  | primary => 0
  | unary => 1
  | product => 2
  | sum => 3

theorem Level.rank_le_sum (level : Level) : level.rank ≤ sum.rank := by
  cases level <;> decide

/-- The level of a chain of an operator. -/
def chainLevel : Operator → Level
  | .add | .sub => .sum
  | .mul | .matmul => .product

/-- The level of the right operands of an operator. -/
def operandLevel : Operator → Level
  | .add | .sub => .product
  | .mul | .matmul => .unary

/-- The tightest level that a tree can be derived from without parentheses. -/
def levelOf : Formula K → Level
  | .number _ | .name _ | .call .. => .primary
  | .negate _ => .unary
  | .binary op .. => chainLevel op

theorem Derives.of_rank_le {inner outer : Level} {ts : List Token} {e : Formula K}
    (h : Derives inner ts e) (hle : inner.rank ≤ outer.rank) : Derives outer ts e := by
  cases inner with
  | primary =>
      cases outer with
      | primary => exact h
      | unary => exact .primary h
      | product => exact .unary (.primary h)
      | sum => exact .product (.unary (.primary h))
  | unary =>
      cases outer with
      | primary => exact absurd hle (by decide)
      | unary => exact h
      | product => exact .unary h
      | sum => exact .product (.unary h)
  | product =>
      cases outer with
      | primary | unary => exact absurd hle (by decide)
      | product => exact h
      | sum => exact .product h
  | sum =>
      cases outer with
      | primary | unary | product => exact absurd hle (by decide)
      | sum => exact h

/-- Parentheses around the tokens of a formula whose level is too loose for its place. -/
def enclose (outer inner : Level) (ts : List Token) : List Token :=
  if inner.rank ≤ outer.rank then ts else .openParen :: (ts ++ [.closeParen])

mutual

/-- The tokens of a formula, with as few parentheses as possible. -/
def tokens (spelling : Spelling K) : Formula K → List Token
  | .number v => [.number (spelling.numeral v)]
  | .name id => [.name id]
  | .negate e => .operator .sub :: enclose .unary (levelOf e) (tokens spelling e)
  | .binary op l r =>
      enclose (chainLevel op) (levelOf l) (tokens spelling l) ++
        .operator op :: enclose (operandLevel op) (levelOf r) (tokens spelling r)
  | .call f args =>
      .name (spelling.word f) :: .openParen ::
        (separated (tokensOfList spelling args) ++ [.closeParen])

/-- The tokens of several formulas. -/
def tokensOfList (spelling : Spelling K) : List (Formula K) → List (List Token)
  | [] => []
  | e :: rest => tokens spelling e :: tokensOfList spelling rest

end

/-- The tokens of a statement. -/
def statementTokens (spelling : Spelling K) : Statement K → List Token
  | .value e => tokens spelling e
  | .relation l rel r => tokens spelling l ++ .relation rel :: tokens spelling r

/-- Literals can be written, names are names, and calls have as many arguments as their functions
take. -/
inductive Printable : Formula K → Prop
  | number {v : K} (h : IsLiteral v) : Printable (.number v)
  | name {id : String} (valid : isName id = true) : Printable (.name id)
  | negate {e : Formula K} (h : Printable e) : Printable (.negate e)
  | binary (op : Operator) {l r : Formula K} (hl : Printable l) (hr : Printable r) :
      Printable (.binary op l r)
  | call {f : Function} {args : List (Formula K)} (allowed : f.allows args.length = true)
      (h : ∀ arg ∈ args, Printable arg) : Printable (.call f args)

/-- Both sides of a relation are printable. -/
def PrintableStatement : Statement K → Prop
  | .value e => Printable e
  | .relation l _ r => Printable l ∧ Printable r

/-! ## What is printed is derived -/

theorem Derives.enclose {inner : Level} (outer : Level) {ts : List Token} {e : Formula K}
    (h : Derives inner ts e) : Derives outer (enclose outer inner ts) e := by
  unfold Formula.enclose
  split
  · rename_i hle
    exact h.of_rank_le hle
  -- Parentheses turn any formula into a primary, which fits everywhere.
  · exact (Derives.group (h.of_rank_le inner.rank_le_sum)).of_rank_le (Nat.zero_le _)

theorem isName_of_ofName {id : String} {f : Function} (h : Function.ofName? id = some f) :
    isName id = true := by
  unfold Function.ofName? at h
  split at h
  case h_15 => cases h
  all_goals decide

theorem derives_binary {op : Operator} {ts us : List Token} {l r : Formula K}
    (hl : Derives (chainLevel op) ts l) (hr : Derives (operandLevel op) us r) :
    Derives (chainLevel op) (ts ++ .operator op :: us) (.binary op l r) := by
  cases op with
  | add | sub => exact .plus hl (by decide) hr
  | mul | matmul => exact .times hl (by decide) hr

theorem tokensOfList_eq (spelling : Spelling K) (args : List (Formula K)) :
    tokensOfList spelling args = args.map (tokens spelling) := by
  induction args with
  | nil => rfl
  | cons e rest ih => rw [tokensOfList, ih, List.map_cons]

theorem Printable.derives (spelling : Spelling K) {e : Formula K} (h : Printable e) :
    Derives (levelOf e) (tokens spelling e) e := by
  induction h with
  | @number v hv =>
      have hnumber := Derives.number (K := K) (spelling.numeral v)
      rw [spelling.value_numeral v hv] at hnumber
      exact hnumber
  | name valid => exact .name valid
  | negate h ih => exact .negate (ih.enclose .unary)
  | binary op hl hr ihl ihr => exact derives_binary (ihl.enclose _) (ihr.enclose _)
  | @call f args allowed h ih =>
      have hword := spelling.ofName_word f
      have hparts : ∀ part ∈ args.map (fun arg => (tokens spelling arg, arg)),
          Derives .sum part.1 part.2 := by
        intro part hpart
        obtain ⟨arg, harg, rfl⟩ := List.mem_map.1 hpart
        exact (ih arg harg).of_rank_le (levelOf arg).rank_le_sum
      have hcall := Derives.call _ (isName_of_ofName hword) hword (by simpa using allowed) hparts
      simpa [levelOf, tokens, tokensOfList_eq, Function.comp_def] using hcall

theorem PrintableStatement.derives (spelling : Spelling K) {s : Statement K}
    (h : PrintableStatement s) : DerivesStatement (statementTokens spelling s) s := by
  cases s with
  | value e =>
      have he : Printable e := h
      exact .value ((he.derives spelling).of_rank_le (levelOf e).rank_le_sum)
  | relation l rel r =>
      obtain ⟨hl, hr⟩ : Printable l ∧ Printable r := h
      exact .relation rel ((hl.derives spelling).of_rank_le (levelOf l).rank_le_sum)
        ((hr.derives spelling).of_rank_le (levelOf r).rank_le_sum)

/-- No text is derived in two ways to different statements. -/
theorem DerivesStatement.unique {text : String} {ts us : List Token} {s t : Statement K}
    (hts : Writes ts text) (hus : Writes us text) (hs : DerivesStatement ts s)
    (ht : DerivesStatement us t) : s = t := by
  have hparse := (parse_of_writes hts hs).symm.trans (parse_of_writes hus ht)
  exact Except.ok.inj hparse

/-- The texts that are accepted are exactly those of the grammar, with the statement that they are
derived to, and reading what has been printed gives back what was printed. -/
theorem parse_accepts_grammar (K : Type) [Scalar K] :
    (∀ (text : String) (s : Statement K),
      parse text = .ok s ↔ ∃ ts, Writes ts text ∧ DerivesStatement ts s) ∧
    (∀ (spelling : Spelling K) (s : Statement K) (text : String), PrintableStatement s →
      Writes (statementTokens spelling s) text → parse text = .ok s) := by
  refine ⟨fun text s => ⟨exists_writes_of_parse, ?_⟩, ?_⟩
  · rintro ⟨ts, hts, hs⟩
    exact parse_of_writes hts hs
  · intro spelling s text hs htext
    exact parse_of_writes htext (hs.derives spelling)

/-- The numeral of the number two. -/
def NumberText.two : NumberText where
  plus := false
  whole := ['2']
  fraction := none
  exponent := none
  isDigit_whole := by simp [isDigit]
  isDigit_fraction := by simp
  digits_ne := by decide

theorem parse_accepts_grammar_difference :
    parse (K := Rat) " a*(b - 2 )" =
      .ok (.value (.binary .mul (.name "a") (.binary .sub (.name "b") (.number 2)))) := by
  have htwo : Scalar.ofDecimal NumberText.two.value = (2 : Rat) := by decide +kernel
  obtain ⟨chosen⟩ := nonempty_spelling (K := Rat)
  -- Any spelling will do for the other numbers.
  let spelling : Spelling Rat :=
    { chosen with
      numeral := fun v => if v = 2 then .two else chosen.numeral v
      value_numeral := fun v hv => by
        by_cases h : v = 2
        · simp only [h, if_true, htwo]
        · simpa only [h, if_false] using chosen.value_numeral v hv }
  have hprintable : PrintableStatement
      (.value (.binary .mul (.name "a") (.binary .sub (.name "b") (.number (2 : Rat))))) :=
    Printable.binary .mul (.name (by decide))
      (.binary .sub (.name (by decide)) (.number ⟨NumberText.two.value, rfl, htwo⟩))
  have hnone : Blank [] := by simp [Blank]
  have hone : Blank [' '] := by simp [Blank, isSpace]
  have htokens : statementTokens spelling
      (.value (.binary .mul (.name "a") (.binary .sub (.name "b") (.number 2)))) =
      [.name "a", .operator .mul, .openParen, .name "b", .operator .sub, .number .two,
        .closeParen] := by
    simp [statementTokens, tokens, enclose, levelOf, chainLevel, operandLevel, Level.rank, spelling]
  have htext : Writes [.name "a", .operator .mul, .openParen, .name "b", .operator .sub,
      .number .two, .closeParen] " a*(b - 2 )" :=
    ⟨[' '], _, hone, .cons (.name "a") hnone (.cons (.operator .mul) hnone (.cons .openParen hnone
      (.cons (.name "b") hone (.cons (.operator .sub) hone (.cons (.number .two) hone
        (.cons .closeParen hnone .nil)))))), by decide⟩
  exact (parse_accepts_grammar Rat).2 spelling _ _ hprintable (htokens ▸ htext)

end CoupledModels.Formula
