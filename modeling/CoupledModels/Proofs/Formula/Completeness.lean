import CoupledModels.Proofs.Formula.Lexical

/-!
# Everything derived is read

A reader with enough fuel takes exactly the text that is derived from its nonterminal, as long as
what stands behind that text cannot continue it.  The tails of sums and of products are what makes
this an equation between two readers instead of a result: what has been derived so far becomes the
left operand of the tail.
-/

namespace CoupledModels.Formula

/-! ## What stands in front and behind -/

/-- A character that a primary may start with. -/
def opensPrimary (c : Char) : Bool :=
  startsName c || continuesMantissa c || c == '+' || c == '('

/-- The characters that may stand behind a formula of a level: what ends it, or the operators of the
levels around it. -/
def followers : Level → List Char
  | .sum => [')', ',', '=', '<', '>']
  | .product => [')', ',', '=', '<', '>', '+', '-']
  | _ => [')', ',', '=', '<', '>', '+', '-', '*', '@']

/-- Nothing stands behind a formula, or a character that may. -/
def Follows (level : Level) (cs : List Char) : Prop :=
  ∀ c rest, cs = c :: rest → c ∈ followers level

theorem follows_nil (level : Level) : Follows level [] := by
  intro c rest h
  cases h

theorem follows_cons {level : Level} {c : Char} (rest : List Char) (h : c ∈ followers level) :
    Follows level (c :: rest) := by
  intro d tail hd
  cases hd
  exact h

theorem Follows.product {cs : List Char} (h : Follows .sum cs) : Follows .product cs :=
  fun c rest hcs => List.mem_append_left ['+', '-'] (h c rest hcs)

theorem Follows.unary {cs : List Char} (h : Follows .product cs) : Follows .unary cs :=
  fun c rest hcs => List.mem_append_left ['*', '@'] (h c rest hcs)

theorem Follows.stops {level : Level} {cs : List Char} {p : Char → Bool} (h : Follows level cs)
    (hp : (followers level).all (!p ·) = true) : Stops p cs := by
  intro c rest hcs
  have hc := List.all_eq_true.1 hp c (h c rest hcs)
  simpa using hc

/-- The characters that stand between tokens. -/
def spaces : List Char :=
  [' ', '\t', '\n', '\r']

theorem mem_spaces {c : Char} (h : isSpace c = true) : c ∈ spaces := by
  simpa [isSpace, spaces, or_assoc] using h

theorem isSpace_toNat {c : Char} (h : isSpace c = true) : c.toNat ≤ 32 := by
  have hlow : spaces.all (·.toNat ≤ 32) = true := by decide
  simpa using List.all_eq_true.1 hlow c (mem_spaces h)

theorem Blank.stops_append {p : Char → Bool} {blanks rest : List Char} (h : Blank blanks)
    (hp : spaces.all (!p ·) = true) (hrest : Stops p rest) : Stops p (blanks ++ rest) := by
  cases blanks with
  | nil => exact hrest
  | cons c blanks =>
      have hc := List.all_eq_true.1 hp c (mem_spaces (h c List.mem_cons_self))
      exact stops_cons (by simpa using hc)

theorem startsName_toNat {c : Char} (h : startsName c = true) : 65 ≤ c.toNat ∧ c.toNat ≤ 122 := by
  have hc : ('a' ≤ c ∧ c ≤ 'z') ∨ ('A' ≤ c ∧ c ≤ 'Z') ∨ c = '_' := by
    simpa [startsName, or_assoc] using h
  rcases hc with ⟨hlo, hhi⟩ | ⟨hlo, hhi⟩ | rfl
  · have hlo : 97 ≤ c.toNat := hlo
    have hhi : c.toNat ≤ 122 := hhi
    omega
  · have hlo : 65 ≤ c.toNat := hlo
    have hhi : c.toNat ≤ 90 := hhi
    omega
  · decide

theorem continuesMantissa_toNat {c : Char} (h : continuesMantissa c = true) :
    46 ≤ c.toNat ∧ c.toNat ≤ 57 := by
  have hc : ('0' ≤ c ∧ c ≤ '9') ∨ c = '.' := by
    simpa [continuesMantissa, isDigit] using h
  rcases hc with ⟨hlo, hhi⟩ | rfl
  · have hlo : 48 ≤ c.toNat := hlo
    have hhi : c.toNat ≤ 57 := hhi
    omega
  · decide

theorem opensPrimary_toNat {c : Char} (h : opensPrimary c = true) :
    40 ≤ c.toNat ∧ c.toNat ≤ 122 := by
  have hc : startsName c = true ∨ continuesMantissa c = true ∨ c = '+' ∨ c = '(' := by
    simpa [opensPrimary, or_assoc] using h
  rcases hc with hname | hmantissa | rfl | rfl
  · have := startsName_toNat hname
    omega
  · have := continuesMantissa_toNat hmantissa
    omega
  · decide
  · decide

/-! ## Texts of token lists -/

theorem Spells.exists_cons {t : Token} {ts : List Token} {cs : List Char}
    (h : Spells (t :: ts) cs) :
    ∃ blanks us, Blank blanks ∧ Spells ts us ∧ cs = t.text ++ (blanks ++ us) := by
  cases h with
  | cons _ hblanks h => exact ⟨_, _, hblanks, h, rfl⟩

theorem Spells.exists_append {ts us : List Token} {cs : List Char} (h : Spells (ts ++ us) cs) :
    ∃ vs ws, Spells ts vs ∧ Spells us ws ∧ cs = vs ++ ws := by
  induction ts generalizing cs with
  | nil => exact ⟨[], cs, Spells.nil, h, rfl⟩
  | cons t ts ih =>
      obtain ⟨blanks, rest, hblanks, hrest, rfl⟩ := h.exists_cons
      obtain ⟨vs, ws, hvs, hws, rfl⟩ := ih hrest
      exact ⟨t.text ++ (blanks ++ vs), ws, Spells.cons t hblanks hvs, hws, by simp⟩

theorem Spells.exists_blanks {t : Token} {cs : List Char} (h : Spells [t] cs) :
    ∃ blanks, Blank blanks ∧ cs = t.text ++ blanks := by
  obtain ⟨blanks, us, hblanks, hus, rfl⟩ := h.exists_cons
  cases hus
  exact ⟨blanks, hblanks, by rw [List.append_nil]⟩

/-! ## How formulas start -/

/-- A character that a formula of a level may start with. -/
def Opens (level : Level) (c : Char) : Prop :=
  opensPrimary c = true ∨ level ≠ .primary ∧ c = '-'

theorem Opens.toNat {level : Level} {c : Char} (h : Opens level c) :
    40 ≤ c.toNat ∧ c.toNat ≤ 122 := by
  rcases h with hprimary | ⟨-, rfl⟩
  · exact opensPrimary_toNat hprimary
  · decide

theorem Opens.isSpace {level : Level} {c : Char} (h : Opens level c) : isSpace c = false := by
  cases hspace : Formula.isSpace c with
  | false => rfl
  | true =>
      have hlow := isSpace_toNat hspace
      have hhigh := h.toNat
      omega

theorem exists_head_number (n : NumberText) :
    ∃ c cs, n.text = c :: cs ∧ (continuesMantissa c = true ∨ c = '+') := by
  obtain ⟨plus, whole, fraction, exponent, hwhole, hfraction, hne⟩ := n
  cases plus with
  | true => exact ⟨'+', _, rfl, .inr rfl⟩
  | false =>
      cases whole with
      | cons d ds =>
          have hd : isDigit d = true := hwhole d List.mem_cons_self
          exact ⟨d, _, rfl, .inl (by simp [continuesMantissa, hd])⟩
      | nil =>
          cases fraction with
          | some fs => exact ⟨'.', _, rfl, .inl (by decide)⟩
          | none => exact absurd rfl hne

variable {K : Type} [Scalar K]

theorem Derives.exists_opens {level : Level} {ts : List Token} {e : Formula K} {us : List Char}
    (h : Derives level ts e) (hus : Spells ts us) : ∃ c cs, us = c :: cs ∧ Opens level c := by
  -- only the first token counts: it is that of the first operand, down to a primary or a sign
  induction h generalizing us with
  | number n =>
      obtain ⟨blanks, rest, -, -, rfl⟩ := hus.exists_cons
      obtain ⟨c, cs, hcs, hc⟩ := exists_head_number n
      refine ⟨c, cs ++ (blanks ++ rest), by rw [Token.text, hcs, List.cons_append], .inl ?_⟩
      rcases hc with hmantissa | rfl
      · simp [opensPrimary, hmantissa]
      · decide
  | name valid =>
      obtain ⟨blanks, rest, -, -, rfl⟩ := hus.exists_cons
      obtain ⟨c, cs, hcs, hc⟩ := exists_startsName valid
      exact ⟨c, cs ++ (blanks ++ rest), by rw [Token.text, hcs, List.cons_append],
        .inl (by simp [opensPrimary, hc])⟩
  | group h =>
      obtain ⟨blanks, rest, -, -, rfl⟩ := hus.exists_cons
      exact ⟨'(', _, rfl, .inl (by decide)⟩
  | call parts valid known allowed h =>
      obtain ⟨blanks, rest, -, -, rfl⟩ := hus.exists_cons
      obtain ⟨c, cs, hcs, hc⟩ := exists_startsName valid
      exact ⟨c, cs ++ (blanks ++ rest), by rw [Token.text, hcs, List.cons_append],
        .inl (by simp [opensPrimary, hc])⟩
  | negate h ih =>
      obtain ⟨blanks, rest, -, -, rfl⟩ := hus.exists_cons
      exact ⟨'-', _, rfl, .inr ⟨by decide, rfl⟩⟩
  | primary h ih | unary h ih | product h ih =>
      obtain ⟨c, cs, hcs, hc⟩ := ih hus
      exact ⟨c, cs, hcs, hc.imp_right fun hminus => ⟨by decide, hminus.2⟩⟩
  | times hl hop hr ihl ihr | plus hl hop hr ihl ihr =>
      obtain ⟨vs, ws, hvs, -, rfl⟩ := hus.exists_append
      obtain ⟨c, cs, rfl, hc⟩ := ihl hvs
      exact ⟨c, cs ++ ws, rfl, hc⟩

theorem Derives.stops_isSpace {level : Level} {ts : List Token} {e : Formula K} {us : List Char}
    (h : Derives level ts e) (hus : Spells ts us) (rest : List Char) :
    Stops isSpace (us ++ rest) := by
  obtain ⟨c, cs, rfl, hc⟩ := h.exists_opens hus
  exact stops_cons hc.isSpace

/-! ## Single tokens -/

theorem stops_number (n : NumberText) (rest : List Char) : Stops (· == '(') (n.text ++ rest) := by
  obtain ⟨c, cs, hcs, hc⟩ := exists_head_number n
  rw [hcs]
  rcases hc with hmantissa | rfl
  · refine stops_cons (beq_eq_false_iff_ne.2 ?_)
    rintro rfl
    exact absurd hmantissa (by decide)
  · exact stops_cons (by decide)

/-- A name cannot be taken for anything else. -/
theorem stops_name {id : String} (valid : isName id = true) (rest : List Char) {p : Char → Bool}
    (hp : ∀ c, p c = true → c.toNat < 65) : Stops p (id.toList ++ rest) := by
  obtain ⟨c, cs, hcs, hc⟩ := exists_startsName valid
  rw [hcs]
  refine stops_cons ?_
  cases hpc : p c with
  | false => rfl
  | true =>
      have hlow := hp c hpc
      have hhigh := startsName_toNat hc
      omega

theorem readPrimary_number {n : Nat} {blanks rest : List Char} (num : NumberText)
    (hblanks : Blank blanks) (hrest : Follows .unary rest) :
    readPrimary (n + 1) (num.text ++ (blanks ++ rest)) =
      .done (.number (Scalar.ofDecimal (K := K) num.value)) rest := by
  have hstop : Stops continuesNumber (blanks ++ rest) :=
    hblanks.stops_append (by decide) (hrest.stops (by decide))
  have hskip : skipSpace (blanks ++ rest) = rest :=
    skipSpace_append hblanks (hrest.stops (by decide))
  have hopen := stops_number num (blanks ++ rest)
  have hread := readNumeral_append num hstop
  unfold readPrimary
  split
  · rename_i heq
    exact absurd (hopen _ _ heq) (by decide)
  · simp only [hread, hskip]

theorem readPrimary_name {n : Nat} {id : String} (valid : isName id = true) (cs : List Char) :
    readPrimary (K := K) (n + 1) (id.toList ++ cs) = readName n (id.toList ++ cs) := by
  have hopen : Stops (· == '(') (id.toList ++ cs) := by
    refine stops_name valid cs fun c hc => ?_
    rw [eq_of_beq hc]
    decide
  -- The reader of numerals comes first and would take a sign or a digit, but not a letter.
  have hnumeral : Stops (fun c => isSign c || continuesMantissa c) (id.toList ++ cs) := by
    refine stops_name valid cs fun c hc => ?_
    rcases Bool.or_eq_true_iff.1 hc with hsign | hmantissa
    · have hc : c = '+' ∨ c = '-' := by simpa [isSign] using hsign
      rcases hc with rfl | rfl
      · decide
      · decide
    · have := continuesMantissa_toNat hmantissa
      omega
  have hread := readNumeral_miss hnumeral
  unfold readPrimary
  split
  · rename_i heq
    exact absurd (hopen _ _ heq) (by decide)
  · simp only [hread]

/-- The scanner of names takes the whole of a name. -/
theorem exists_name_parts {id : String} {cs : List Char} (valid : isName id = true)
    (hcs : Stops continuesName cs) :
    ∃ c tail, id.toList ++ cs = c :: tail ∧ startsName c = true ∧
      (c :: tail).takeWhile continuesName = id.toList ∧ (c :: tail).dropWhile continuesName = cs := by
  obtain ⟨c, tail, hid, hc⟩ := exists_startsName valid
  have hcons : id.toList ++ cs = c :: (tail ++ cs) := by rw [hid, List.cons_append]
  refine ⟨c, tail ++ cs, hcons, hc, ?_, ?_⟩
  · rw [← hcons]
    exact takeWhile_append_stops (fun d => continuesName_of_mem valid) hcs
  · rw [← hcons]
    exact dropWhile_append_stops (fun d => continuesName_of_mem valid) hcs

theorem readName_name {n : Nat} {id : String} {blanks rest : List Char} (valid : isName id = true)
    (hblanks : Blank blanks) (hrest : Follows .unary rest) :
    readName (K := K) (n + 1) (id.toList ++ (blanks ++ rest)) = .done (.name id) rest := by
  have hstop : Stops continuesName (blanks ++ rest) :=
    hblanks.stops_append (by decide) (hrest.stops (by decide))
  have hskip : skipSpace (blanks ++ rest) = rest :=
    skipSpace_append hblanks (hrest.stops (by decide))
  obtain ⟨c, tail, hcons, hc, htake, hdrop⟩ := exists_name_parts valid hstop
  rw [hcons]
  simp only [readName, hc, if_true, htake, hdrop, hskip, String.ofList_toList]
  split
  · exact absurd (hrest _ _ rfl) (by decide)
  · rfl

theorem readName_call {n : Nat} {id : String} {f : Function} {args : List (Formula K)}
    {blanks cs blanks' rest : List Char} (valid : isName id = true)
    (known : Function.ofName? id = some f) (allowed : f.allows args.length = true)
    (hblanks : Blank blanks) (hblanks' : Blank blanks') (hrest : Stops isSpace rest)
    (hargs : readArguments n (skipSpace cs) = .done args (')' :: (blanks' ++ rest))) :
    readName (n + 1) (id.toList ++ (blanks ++ '(' :: cs)) = .done (.call f args) rest := by
  have hstop : Stops continuesName (blanks ++ '(' :: cs) :=
    hblanks.stops_append (by decide) (stops_cons (by decide))
  have hskip : skipSpace (blanks ++ '(' :: cs) = '(' :: cs :=
    skipSpace_append hblanks (stops_cons (by decide))
  have hafter : skipSpace (blanks' ++ rest) = rest := skipSpace_append hblanks' hrest
  obtain ⟨c, tail, hcons, hc, htake, hdrop⟩ := exists_name_parts valid hstop
  rw [hcons]
  simp only [readName, hc, if_true, htake, hdrop, hskip, hargs, hafter, makeCall, known, allowed,
    String.ofList_toList]

theorem readPrimary_group {n : Nat} {e : Formula K} {cs blanks rest : List Char}
    (hblanks : Blank blanks) (hrest : Stops isSpace rest)
    (he : readSum n (skipSpace cs) = .done e (')' :: (blanks ++ rest))) :
    readPrimary (n + 1) ('(' :: cs) = .done e rest := by
  rw [readPrimary, he]
  exact congrArg (Reply.done e) (skipSpace_append hblanks hrest)

theorem readUnary_negate {n : Nat} {e : Formula K} {cs rest : List Char}
    (he : readUnary n (skipSpace cs) = .done e rest) :
    readUnary (n + 1) ('-' :: cs) = .done (.negate e) rest := by
  rw [readUnary, he]

theorem readUnary_of_stops {n : Nat} {cs : List Char} (h : Stops (· == '-') cs) :
    readUnary (K := K) (n + 1) cs = readPrimary n cs := by
  unfold readUnary
  split
  · exact absurd h.head (by decide)
  · rfl

/-! ## Tails -/

theorem readOperator_none {op? : Char → Option Operator} {level : Level} {cs : List Char}
    (hop : (followers level).all (fun c => (op? c).isNone) = true) (h : Follows level cs) :
    readOperator op? cs = none := by
  cases cs with
  | nil => rfl
  | cons c rest =>
      have hc := List.all_eq_true.1 hop c (h c rest rfl)
      simpa [readOperator] using hc

theorem readProductTail_of_follows (n : Nat) (e : Formula K) {rest : List Char}
    (h : Follows .product rest) : readProductTail n e rest = .done e rest := by
  cases n with
  | zero => rfl
  | succ n => rw [readProductTail, readOperator_none (by decide) h]

theorem readSumTail_of_follows (n : Nat) (e : Formula K) {rest : List Char}
    (h : Follows .sum rest) : readSumTail n e rest = .done e rest := by
  cases n with
  | zero => rfl
  | succ n => rw [readSumTail, readOperator_none (by decide) h]

theorem readProductTail_operator {n : Nat} {op : Operator} {l r : Formula K}
    {cs rest : List Char} (hop : op ∈ Level.product.operators)
    (hr : readUnary n (skipSpace cs) = .done r rest) :
    readProductTail (n + 1) l (operatorSign op :: cs) = readProductTail n (.binary op l r) rest := by
  have hread : readOperator multiplicative? (operatorSign op :: cs) = some (op, skipSpace cs) := by
    have hop : op = .mul ∨ op = .matmul := by simpa [Level.operators] using hop
    rcases hop with rfl | rfl
    · rfl
    · rfl
  rw [readProductTail, hread]
  simp only [hr]

theorem readSumTail_operator {n : Nat} {op : Operator} {l r : Formula K} {cs rest : List Char}
    (hop : op ∈ Level.sum.operators) (hr : readProduct n (skipSpace cs) = .done r rest) :
    readSumTail (n + 1) l (operatorSign op :: cs) = readSumTail n (.binary op l r) rest := by
  have hread : readOperator additive? (operatorSign op :: cs) = some (op, skipSpace cs) := by
    have hop : op = .add ∨ op = .sub := by simpa [Level.operators] using hop
    rcases hop with rfl | rfl
    · rfl
    · rfl
  rw [readSumTail, hread]
  simp only [hr]

/-! ## Derivations -/

/-- A text is read as a formula of a level, whatever may stand behind it.  Eight calls for each
character are enough; what is left of them is enough for the operands to come. -/
def Complete (level : Level) (us : List Char) (e : Formula K) : Prop :=
  match level with
  | .primary => ∀ n rest, 8 * us.length ≤ n + 6 → Follows .unary rest →
      readPrimary n (us ++ rest) = .done e rest
  | .unary => ∀ n rest, 8 * us.length ≤ n + 5 → Follows .unary rest →
      readUnary n (us ++ rest) = .done e rest
  | .product => ∀ n rest, 8 * us.length ≤ n + 4 → Follows .unary rest →
      ∃ m, n ≤ m + us.length ∧ readProduct n (us ++ rest) = readProductTail m e rest
  | .sum => ∀ n rest, 8 * us.length ≤ n + 3 → Follows .product rest →
      ∃ m, n ≤ m + us.length ∧ readSum n (us ++ rest) = readSumTail m e rest

namespace Complete

variable {us vs : List Char} {e l r : Formula K}

theorem readProduct (h : Complete .product us e) {n : Nat} {rest : List Char}
    (hn : 8 * us.length ≤ n + 4) (hrest : Follows .product rest) :
    readProduct n (us ++ rest) = .done e rest := by
  obtain ⟨m, -, hread⟩ := h n rest hn hrest.unary
  rw [hread, readProductTail_of_follows m e hrest]

theorem readSum (h : Complete .sum us e) {n : Nat} {rest : List Char}
    (hn : 8 * us.length ≤ n + 3) (hrest : Follows .sum rest) :
    readSum n (us ++ rest) = .done e rest := by
  obtain ⟨m, -, hread⟩ := h n rest hn hrest.product
  rw [hread, readSumTail_of_follows m e hrest]

theorem number (n : NumberText) {blanks : List Char} (hblanks : Blank blanks) :
    Complete .primary (n.text ++ blanks) (.number (Scalar.ofDecimal (K := K) n.value)) := by
  intro fuel rest hfuel hrest
  obtain ⟨c, cs, hcs, -⟩ := exists_head_number n
  cases fuel with
  | zero =>
      simp only [hcs, List.cons_append, List.length_cons] at hfuel
      omega
  | succ fuel =>
      rw [List.append_assoc]
      exact readPrimary_number n hblanks hrest

theorem name {id : String} (valid : isName id = true) {blanks : List Char}
    (hblanks : Blank blanks) : Complete .primary (id.toList ++ blanks) (.name (K := K) id) := by
  intro n rest hn hrest
  obtain ⟨c, cs, hcs, -⟩ := exists_startsName valid
  -- One call for the operand and one for the name.
  obtain ⟨m, rfl⟩ : ∃ m, n = m + 2 := by
    refine ⟨n - 2, ?_⟩
    simp only [hcs, List.cons_append, List.length_cons] at hn
    omega
  rw [List.append_assoc, readPrimary_name valid, readName_name valid hblanks hrest]

theorem group {opening closing : List Char} (hopening : Blank opening) (hclosing : Blank closing)
    (hus : ∀ rest, Stops isSpace (us ++ rest)) (h : Complete .sum us e) :
    Complete .primary ('(' :: (opening ++ (us ++ ')' :: closing))) e := by
  intro n rest hn hrest
  obtain ⟨m, rfl⟩ : ∃ m, n = m + 1 := by
    refine ⟨n - 1, ?_⟩
    simp only [List.length_append, List.length_cons] at hn
    omega
  have hskip : skipSpace (opening ++ (us ++ ')' :: (closing ++ rest))) = us ++ ')' :: (closing ++ rest) :=
    skipSpace_append hopening (hus _)
  have hread : Formula.readSum m (us ++ ')' :: (closing ++ rest)) = .done e (')' :: (closing ++ rest)) := by
    refine h.readSum ?_ (follows_cons _ (by decide))
    simp only [List.length_append, List.length_cons] at hn
    omega
  have hgroup := readPrimary_group hclosing (hrest.stops (by decide)) (hskip ▸ hread)
  simpa using hgroup

theorem primary (hus : ∀ rest, Stops (· == '-') (us ++ rest)) (h : Complete .primary us e) :
    Complete .unary us e := by
  intro n rest hn hrest
  cases n with
  | zero =>
      -- Without fuel nothing is read at all, so this cannot happen.
      have hlength : us.length = 0 := by omega
      have hread := h 0 rest (by omega) hrest
      cases hread
  | succ n =>
      rw [readUnary_of_stops (hus rest)]
      exact h n rest (by omega) hrest

theorem negate {blanks : List Char} (hblanks : Blank blanks)
    (hus : ∀ rest, Stops isSpace (us ++ rest)) (h : Complete .unary us e) :
    Complete .unary ('-' :: (blanks ++ us)) (.negate e) := by
  intro n rest hn hrest
  simp only [List.length_append, List.length_cons] at hn
  obtain ⟨m, rfl⟩ : ∃ m, n = m + 1 := ⟨n - 1, by omega⟩
  have hskip : skipSpace (blanks ++ (us ++ rest)) = us ++ rest := skipSpace_append hblanks (hus rest)
  have hread := h m rest (by omega) hrest
  have hnegate := readUnary_negate (hskip ▸ hread)
  simpa using hnegate

theorem unary (hne : us ≠ []) (h : Complete .unary us e) : Complete .product us e := by
  intro n rest hn hrest
  have hlength := List.length_pos_iff.2 hne
  obtain ⟨m, rfl⟩ : ∃ m, n = m + 1 := ⟨n - 1, by omega⟩
  refine ⟨m, by omega, ?_⟩
  rw [Formula.readProduct, h m rest (by omega) hrest]

theorem times {op : Operator} {blanks : List Char} (hl : Complete .product us l)
    (hop : op ∈ Level.product.operators) (hblanks : Blank blanks)
    (hvs : ∀ rest, Stops isSpace (vs ++ rest)) (hr : Complete .unary vs r) :
    Complete .product (us ++ operatorSign op :: (blanks ++ vs)) (.binary op l r) := by
  intro n rest hn hrest
  simp only [List.length_append, List.length_cons] at hn
  -- The left side stops in front of the operator, which its own tail takes up.
  have hsign : Follows .unary (operatorSign op :: (blanks ++ (vs ++ rest))) := by
    refine follows_cons _ ?_
    revert op
    decide
  obtain ⟨m, hm, hread⟩ := hl n _ (by omega) hsign
  obtain ⟨k, rfl⟩ : ∃ k, m = k + 1 := ⟨m - 1, by omega⟩
  have hskip : skipSpace (blanks ++ (vs ++ rest)) = vs ++ rest := skipSpace_append hblanks (hvs rest)
  have hright := hr k rest (by omega) hrest
  refine ⟨k, by simp only [List.length_append, List.length_cons]; omega, ?_⟩
  rw [← readProductTail_operator hop (hskip ▸ hright), ← hread]
  simp

theorem product (hne : us ≠ []) (h : Complete .product us e) : Complete .sum us e := by
  intro n rest hn hrest
  have hlength := List.length_pos_iff.2 hne
  obtain ⟨m, rfl⟩ : ∃ m, n = m + 1 := ⟨n - 1, by omega⟩
  refine ⟨m, by omega, ?_⟩
  rw [Formula.readSum, h.readProduct (by omega) hrest]

theorem plus {op : Operator} {blanks : List Char} (hl : Complete .sum us l)
    (hop : op ∈ Level.sum.operators) (hblanks : Blank blanks)
    (hvs : ∀ rest, Stops isSpace (vs ++ rest)) (hr : Complete .product vs r) :
    Complete .sum (us ++ operatorSign op :: (blanks ++ vs)) (.binary op l r) := by
  intro n rest hn hrest
  simp only [List.length_append, List.length_cons] at hn
  -- As for products, with one more level between the sum and its operands.
  have hsign : Follows .product (operatorSign op :: (blanks ++ (vs ++ rest))) := by
    refine follows_cons _ ?_
    revert op
    decide
  obtain ⟨m, hm, hread⟩ := hl n _ (by omega) hsign
  obtain ⟨k, rfl⟩ : ∃ k, m = k + 1 := ⟨m - 1, by omega⟩
  have hskip : skipSpace (blanks ++ (vs ++ rest)) = vs ++ rest := skipSpace_append hblanks (hvs rest)
  have hright : Formula.readProduct k (vs ++ rest) = .done r rest := hr.readProduct (by omega) hrest
  refine ⟨k, by simp only [List.length_append, List.length_cons]; omega, ?_⟩
  rw [← readSumTail_operator hop (hskip ▸ hright), ← hread]
  simp

end Complete

/-! ## Calls -/

theorem separated_cons (ts : List Token) (parts : List (List Token)) :
    separated (ts :: parts) = ts ++ parts.flatMap (.comma :: ·) := by
  induction parts generalizing ts with
  | nil => rw [separated, List.flatMap_nil, List.append_nil]
  | cons us parts ih => rw [separated, ih, List.flatMap_cons, List.cons_append]

/-- Every text of an argument is read as that argument. -/
def CompletePart (part : List Token × Formula K) : Prop :=
  ∀ us, Spells part.1 us → Complete .sum us part.2 ∧ ∀ rest, Stops isSpace (us ++ rest)

theorem follows_commas {parts : List (List Token)} {cs : List Char} (rest : List Char)
    (h : Spells (parts.flatMap (.comma :: ·)) cs) : Follows .sum (cs ++ ')' :: rest) := by
  cases parts with
  | nil =>
      cases h
      exact follows_cons _ (by decide)
  | cons ts parts =>
      rw [List.flatMap_cons] at h
      obtain ⟨blanks, us, -, -, rfl⟩ := h.exists_cons
      exact follows_cons _ (by decide)

theorem readMoreArguments_append {parts : List (List Token × Formula K)}
    (hparts : ∀ part ∈ parts, CompletePart part) (given : List (Formula K)) {cs : List Char}
    (hcs : Spells ((parts.map (·.1)).flatMap (.comma :: ·)) cs) {n : Nat} (hn : 8 * cs.length ≤ n)
    (rest : List Char) :
    readMoreArguments n given (cs ++ ')' :: rest) =
      .done (given ++ parts.map (·.2)) (')' :: rest) := by
  -- Each comma costs one call and stands for at least one character.
  induction parts generalizing given cs n with
  | nil =>
      cases hcs
      cases n with
      | zero => simp [readMoreArguments]
      | succ n => simp [readMoreArguments]
  | cons part parts ih =>
      rw [List.map_cons, List.flatMap_cons] at hcs
      obtain ⟨blanks, vs, hblanks, hvs, rfl⟩ := hcs.exists_cons
      obtain ⟨us, ws, hus, hws, rfl⟩ := hvs.exists_append
      obtain ⟨hcomplete, hstops⟩ := hparts part List.mem_cons_self us hus
      simp only [Token.text, List.length_append, List.length_cons] at hn
      obtain ⟨m, rfl⟩ : ∃ m, n = m + 1 := ⟨n - 1, by omega⟩
      have hskip : skipSpace (blanks ++ (us ++ (ws ++ ')' :: rest))) = us ++ (ws ++ ')' :: rest) :=
        skipSpace_append hblanks (hstops _)
      have hread : readSum m (us ++ (ws ++ ')' :: rest)) = .done part.2 (ws ++ ')' :: rest) :=
        hcomplete.readSum (by omega) (follows_commas rest hws)
      have hmore := ih (fun other hother => hparts other (List.mem_cons_of_mem _ hother))
        (given ++ [part.2]) hws (n := m) (by omega)
      simp [Token.text, readMoreArguments, hskip, hread, hmore]

theorem readArguments_append {parts : List (List Token × Formula K)} (hne : parts ≠ [])
    (hparts : ∀ part ∈ parts, CompletePart part) {cs : List Char}
    (hcs : Spells (separated (parts.map (·.1))) cs) {n : Nat} (hn : 8 * cs.length < n)
    (rest : List Char) :
    readArguments n (cs ++ ')' :: rest) = .done (parts.map (·.2)) (')' :: rest) := by
  cases parts with
  | nil => exact absurd rfl hne
  | cons part parts =>
      rw [List.map_cons, separated_cons] at hcs
      obtain ⟨us, ws, hus, hws, rfl⟩ := hcs.exists_append
      obtain ⟨hcomplete, -⟩ := hparts part List.mem_cons_self us hus
      rw [List.length_append] at hn
      obtain ⟨m, rfl⟩ : ∃ m, n = m + 1 := ⟨n - 1, by omega⟩
      have hread : readSum m (us ++ (ws ++ ')' :: rest)) = .done part.2 (ws ++ ')' :: rest) :=
        hcomplete.readSum (by omega) (follows_commas rest hws)
      have hmore := readMoreArguments_append
        (fun other hother => hparts other (List.mem_cons_of_mem _ hother)) [part.2] hws
        (n := m) (by omega) rest
      rw [List.append_assoc, readArguments, hread]
      exact hmore

theorem stops_separated {parts : List (List Token × Formula K)} (hne : parts ≠ [])
    (hparts : ∀ part ∈ parts, CompletePart part) {cs : List Char}
    (hcs : Spells (separated (parts.map (·.1))) cs) (rest : List Char) :
    Stops isSpace (cs ++ rest) := by
  cases parts with
  | nil => exact absurd rfl hne
  | cons part parts =>
      rw [List.map_cons, separated_cons] at hcs
      obtain ⟨us, ws, hus, -, rfl⟩ := hcs.exists_append
      obtain ⟨-, hstops⟩ := hparts part List.mem_cons_self us hus
      rw [List.append_assoc]
      exact hstops _

theorem allows_zero (f : Function) : f.allows 0 = false := by
  cases f <;> rfl

theorem Complete.call {id : String} {f : Function} {parts : List (List Token × Formula K)}
    {blanks opening cs closing : List Char} (valid : isName id = true)
    (known : Function.ofName? id = some f) (allowed : f.allows parts.length = true)
    (hparts : ∀ part ∈ parts, CompletePart part) (hblanks : Blank blanks)
    (hopening : Blank opening) (hcs : Spells (separated (parts.map (·.1))) cs)
    (hclosing : Blank closing) :
    Complete .primary (id.toList ++ (blanks ++ '(' :: (opening ++ (cs ++ ')' :: closing))))
      (.call f (parts.map (·.2))) := by
  intro n rest hn hrest
  -- Every function takes at least one argument, so the list is not empty.
  have hne : parts ≠ [] := by
    rintro rfl
    rw [List.length_nil, allows_zero] at allowed
    cases allowed
  simp only [List.length_append, List.length_cons] at hn
  obtain ⟨m, rfl⟩ : ∃ m, n = m + 2 := ⟨n - 2, by omega⟩
  have hskip : skipSpace (opening ++ (cs ++ ')' :: (closing ++ rest))) =
      cs ++ ')' :: (closing ++ rest) :=
    skipSpace_append hopening (stops_separated hne hparts hcs _)
  have hargs := readArguments_append hne hparts hcs (n := m) (by omega) (closing ++ rest)
  have hallowed : f.allows (parts.map (·.2)).length = true := by rwa [List.length_map]
  have hread := readName_call valid known hallowed hblanks hclosing (hrest.stops (by decide))
    (hskip ▸ hargs)
  have htext : id.toList ++ (blanks ++ '(' :: (opening ++ (cs ++ ')' :: closing))) ++ rest =
      id.toList ++ (blanks ++ '(' :: (opening ++ (cs ++ ')' :: (closing ++ rest)))) := by simp
  rw [htext, readPrimary_name valid, hread]

/-! ## Everything derived -/

theorem Derives.stops_minus {ts : List Token} {e : Formula K} {us : List Char}
    (h : Derives .primary ts e) (hus : Spells ts us) (rest : List Char) :
    Stops (· == '-') (us ++ rest) := by
  obtain ⟨c, cs, rfl, hc⟩ := h.exists_opens hus
  refine stops_cons (beq_eq_false_iff_ne.2 ?_)
  rintro rfl
  rcases hc with hprimary | ⟨hlevel, -⟩
  · exact absurd hprimary (by decide)
  · exact hlevel rfl

theorem Derives.ne_nil {level : Level} {ts : List Token} {e : Formula K} {us : List Char}
    (h : Derives level ts e) (hus : Spells ts us) : us ≠ [] := by
  obtain ⟨c, cs, rfl, -⟩ := h.exists_opens hus
  exact List.cons_ne_nil c cs

theorem Derives.complete {level : Level} {ts : List Token} {e : Formula K} {us : List Char}
    (h : Derives level ts e) (hus : Spells ts us) : Complete level us e := by
  induction h generalizing us with
  | number n =>
      obtain ⟨blanks, hblanks, rfl⟩ := hus.exists_blanks
      exact Complete.number n hblanks
  | name valid =>
      obtain ⟨blanks, hblanks, rfl⟩ := hus.exists_blanks
      exact Complete.name valid hblanks
  | group h ih =>
      obtain ⟨opening, vs, hopening, hvs, rfl⟩ := hus.exists_cons
      obtain ⟨ws, closed, hws, hclosed, rfl⟩ := hvs.exists_append
      obtain ⟨closing, hclosing, rfl⟩ := hclosed.exists_blanks
      exact Complete.group hopening hclosing (h.stops_isSpace hws) (ih hws)
  | call parts valid known allowed h ih =>
      obtain ⟨blanks, vs, hblanks, hvs, rfl⟩ := hus.exists_cons
      obtain ⟨opening, ws, hopening, hws, rfl⟩ := hvs.exists_cons
      obtain ⟨cs, closed, hcs, hclosed, rfl⟩ := hws.exists_append
      obtain ⟨closing, hclosing, rfl⟩ := hclosed.exists_blanks
      have hparts : ∀ part ∈ parts, CompletePart part := fun part hpart us hus =>
        ⟨ih part hpart hus, (h part hpart).stops_isSpace hus⟩
      exact Complete.call valid known allowed hparts hblanks hopening hcs hclosing
  | primary h ih => exact (ih hus).primary (h.stops_minus hus)
  | negate h ih =>
      obtain ⟨blanks, vs, hblanks, hvs, rfl⟩ := hus.exists_cons
      have hnegate := (ih hvs).negate hblanks (h.stops_isSpace hvs)
      exact hnegate
  | unary h ih => exact (ih hus).unary (h.ne_nil hus)
  | times hl hop hr ihl ihr =>
      obtain ⟨vs, ws, hvs, hws, rfl⟩ := hus.exists_append
      obtain ⟨blanks, xs, hblanks, hxs, rfl⟩ := hws.exists_cons
      -- The left operand is a whole chain: the derivation is left-recursive, as the tail is.
      have htimes := (ihl hvs).times hop hblanks (hr.stops_isSpace hxs) (ihr hxs)
      exact htimes
  | product h ih => exact (ih hus).product (h.ne_nil hus)
  | plus hl hop hr ihl ihr =>
      obtain ⟨vs, ws, hvs, hws, rfl⟩ := hus.exists_append
      obtain ⟨blanks, xs, hblanks, hxs, rfl⟩ := hws.exists_cons
      have hplus := (ihl hvs).plus hop hblanks (hr.stops_isSpace hxs) (ihr hxs)
      exact hplus

/-! ## Statements -/

theorem readRelation_append (rel : Relation) (rest : List Char) :
    readRelation (relationText rel ++ rest) = some (rel, skipSpace rest) := by
  cases rel <;> rfl

theorem follows_relation (rel : Relation) (rest : List Char) :
    Follows .sum (relationText rel ++ rest) := by
  cases rel with
  | eq | ge | le => exact follows_cons _ (by decide)

theorem readStatement_of_derives {ts : List Token} {s : Statement K} {us : List Char}
    (h : DerivesStatement ts s) (hus : Spells ts us) {n : Nat} (hn : 8 * us.length ≤ n) :
    readStatement n us = .done s [] := by
  cases h with
  | value h =>
      have hread : readSum n (us ++ []) = .done _ [] :=
        (h.complete hus).readSum (by omega) (follows_nil _)
      rw [List.append_nil] at hread
      simp [readStatement, hread, readRelation]
  | relation rel hl hr =>
      obtain ⟨vs, ws, hvs, hws, rfl⟩ := hus.exists_append
      obtain ⟨blanks, xs, hblanks, hxs, rfl⟩ := hws.exists_cons
      simp only [List.length_append] at hn
      -- the relation ends the left side, and the blanks behind it belong to its token
      have hleft : readSum n (vs ++ (relationText rel ++ (blanks ++ xs))) =
          .done _ (relationText rel ++ (blanks ++ xs)) :=
        (hl.complete hvs).readSum (by omega) (follows_relation rel _)
      have hskip : skipSpace (blanks ++ xs) = xs := by
        have hstops := hr.stops_isSpace hxs []
        rw [List.append_nil] at hstops
        exact skipSpace_append hblanks hstops
      have hright : readSum n (xs ++ []) = .done _ [] :=
        (hr.complete hxs).readSum (by omega) (follows_nil _)
      rw [List.append_nil] at hright
      simp [readStatement, Token.text, hleft, readRelation_append, hskip, hright]

theorem isBlank_toNat {c : Char} (h : Text.isBlank c = true) : c.toNat < 40 ∨ 122 < c.toNat := by
  simp only [Text.isBlank, Bool.or_eq_true, decide_eq_true_eq, beq_iff_eq] at h
  omega

theorem DerivesStatement.exists_opens {ts : List Token} {s : Statement K} {us : List Char}
    (h : DerivesStatement ts s) (hus : Spells ts us) : ∃ c cs, us = c :: cs ∧ Opens .sum c := by
  cases h with
  | value h => exact h.exists_opens hus
  | relation rel hl hr =>
      obtain ⟨vs, ws, hvs, -, rfl⟩ := hus.exists_append
      obtain ⟨c, cs, rfl, hc⟩ := hl.exists_opens hvs
      exact ⟨c, cs ++ ws, rfl, hc⟩

/-- A text that is written by the tokens of a statement is accepted as that statement. -/
theorem parse_of_writes {text : String} {ts : List Token} {s : Statement K} (hts : Writes ts text)
    (h : DerivesStatement ts s) : parse text = .ok s := by
  obtain ⟨blanks, us, hblanks, hus, htext⟩ := hts
  obtain ⟨c, cs, hcons, hc⟩ := h.exists_opens hus
  -- the character that opens the statement is not blank, so the text is not empty
  have hblank : Text.allBlank text = false := by
    have hmem : c ∈ text.toList := by simp [htext, hcons]
    have hc' : Text.isBlank c = false := by
      cases hb : Text.isBlank c with
      | false => rfl
      | true =>
          have houter := isBlank_toNat hb
          have hinner := hc.toNat
          omega
    rw [Text.allBlank, List.all_eq_false]
    exact ⟨c, hmem, by simp [hc']⟩
  have hskip : skipSpace text.toList = us := by
    rw [htext]
    refine skipSpace_append hblanks ?_
    rw [hcons]
    exact stops_cons hc.isSpace
  have hread : readStatement (fuelFor text.toList) us = .done s [] := by
    refine readStatement_of_derives h hus ?_
    rw [fuelFor, htext, List.length_append]
    omega
  simp [parse, hblank, hskip, hread]

end CoupledModels.Formula
