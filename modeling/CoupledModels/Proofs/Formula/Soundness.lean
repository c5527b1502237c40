import CoupledModels.Proofs.Formula.Lexical

/-!
# Everything read is derived

Whatever a reader of formulas returns is derived from its nonterminal by the grammar, and the
derivation covers exactly the characters that the reader has taken.
-/

namespace CoupledModels.Formula

/-! ## Texts of token lists -/

theorem Spells.append {ts us : List Token} {cs ds : List Char} (hts : Spells ts cs)
    (hus : Spells us ds) : Spells (ts ++ us) (cs ++ ds) := by
  induction hts with
  | nil => exact hus
  | cons t hblanks h ih =>
      rw [List.append_assoc, List.append_assoc]
      exact Spells.cons t hblanks ih

theorem spells_token (t : Token) {blanks : List Char} (h : Blank blanks) :
    Spells [t] (t.text ++ blanks) := by
  simpa using Spells.cons t h Spells.nil

/-- A token and the blanks that are skipped behind it. -/
theorem exists_spells_token (t : Token) (rest : List Char) :
    ∃ cs, Spells [t] cs ∧ t.text ++ rest = cs ++ skipSpace rest := by
  obtain ⟨blanks, hblanks, hrest⟩ := exists_skipSpace rest
  refine ⟨t.text ++ blanks, spells_token t hblanks, ?_⟩
  rw [List.append_assoc, ← hrest]

/-! ## Signs of operators -/

theorem readOperator_some {op? : Char → Option Operator} {cs rest : List Char} {op : Operator}
    {ops : List Operator} (hop : ∀ c, op? c = some op → c = operatorSign op ∧ op ∈ ops)
    (h : readOperator op? cs = some (op, rest)) :
    ∃ tail, cs = operatorSign op :: tail ∧ rest = skipSpace tail ∧ op ∈ ops := by
  cases cs with
  | nil => cases h
  | cons c tail =>
      obtain ⟨op', hc, heq⟩ := Option.map_eq_some_iff.1 h
      cases heq
      obtain ⟨rfl, hmem⟩ := hop c hc
      exact ⟨tail, rfl, rfl, hmem⟩

theorem additive_some {c : Char} {op : Operator} (h : additive? c = some op) :
    c = operatorSign op ∧ op ∈ Level.sum.operators := by
  unfold additive? at h
  split at h
  · rename_i hc
    cases h
    exact ⟨eq_of_beq hc, by decide⟩
  · split at h
    · rename_i hc
      cases h
      exact ⟨eq_of_beq hc, by decide⟩
    · cases h

theorem multiplicative_some {c : Char} {op : Operator} (h : multiplicative? c = some op) :
    c = operatorSign op ∧ op ∈ Level.product.operators := by
  unfold multiplicative? at h
  split at h
  · rename_i hc
    cases h
    exact ⟨eq_of_beq hc, by decide⟩
  · split at h
    · rename_i hc
      cases h
      exact ⟨eq_of_beq hc, by decide⟩
    · cases h

variable {K : Type}

theorem makeCall_done {start rest tail : List Char} {name : String} {args : List (Formula K)}
    {e : Formula K} (h : makeCall start name args rest = .done e tail) :
    ∃ f, Function.ofName? name = some f ∧ f.allows args.length = true ∧ e = .call f args ∧
      tail = rest := by
  unfold makeCall at h
  split at h
  · cases h
  · rename_i f known
    split at h
    · rename_i allowed
      cases h
      exact ⟨f, known, allowed, rfl, rfl⟩
    · cases h

variable [Scalar K]

/-! ## What has been read -/

/-- From a text to the rest of it stands what is derived from a nonterminal. -/
def Reads (level : Level) (cs : List Char) (e : Formula K) (rest : List Char) : Prop :=
  ∃ ts us, Spells ts us ∧ cs = us ++ rest ∧ Derives level ts e

/-- From a text to the rest of it stand sums with commas between them. -/
def ReadsArguments (cs : List Char) (args : List (Formula K)) (rest : List Char) : Prop :=
  ∃ (parts : List (List Token × Formula K)) (us : List Char),
    Spells (separated (parts.map (·.1))) us ∧ cs = us ++ rest ∧ args = parts.map (·.2) ∧
      ∀ part ∈ parts, Derives .sum part.1 part.2

theorem Reads.token {t : Token} {level : Level} {e : Formula K} (h : Derives level [t] e)
    (rest : List Char) : Reads level (t.text ++ rest) e (skipSpace rest) := by
  obtain ⟨us, hus, hcs⟩ := exists_spells_token t rest
  exact ⟨[t], us, hus, hcs, h⟩

theorem Reads.group {cs rest : List Char} {e : Formula K}
    (h : Reads .sum (skipSpace cs) e (')' :: rest)) :
    Reads .primary ('(' :: cs) e (skipSpace rest) := by
  obtain ⟨ts, us, hus, hcs, he⟩ := h
  obtain ⟨opening, hopening, hcs'⟩ := exists_spells_token .openParen cs
  obtain ⟨closing, hclosing, hrest⟩ := exists_spells_token .closeParen rest
  refine ⟨.openParen :: (ts ++ [.closeParen]), opening ++ (us ++ closing),
    hopening.append (hus.append hclosing), ?_, .group he⟩
  have hcs'' : '(' :: cs = opening ++ skipSpace cs := hcs'
  have hrest' : ')' :: rest = closing ++ skipSpace rest := hrest
  rw [hcs'', hcs, hrest']
  simp

theorem Reads.negate {cs rest : List Char} {e : Formula K} (h : Reads .unary (skipSpace cs) e rest) :
    Reads .unary ('-' :: cs) (.negate e) rest := by
  obtain ⟨ts, us, hus, hcs, he⟩ := h
  obtain ⟨sign, hsign, hcs'⟩ := exists_spells_token (.operator .sub) cs
  refine ⟨.operator .sub :: ts, sign ++ us, hsign.append hus, ?_, .negate he⟩
  have hcs'' : '-' :: cs = sign ++ skipSpace cs := hcs'
  rw [hcs'', hcs, List.append_assoc]

theorem Reads.binary {level inner : Level} {op : Operator} {cs tail rest : List Char}
    {l r : Formula K} (hl : Reads level cs l (operatorSign op :: tail))
    (hr : Reads inner (skipSpace tail) r rest)
    (rule : ∀ {ts us}, Derives level ts l → Derives inner us r →
      Derives level (ts ++ .operator op :: us) (.binary op l r)) :
    Reads level cs (.binary op l r) rest := by
  obtain ⟨ts, us, hus, rfl, hl⟩ := hl
  obtain ⟨ts', us', hus', htail, hr⟩ := hr
  obtain ⟨sign, hsign, hcs⟩ := exists_spells_token (.operator op) tail
  refine ⟨ts ++ .operator op :: ts', us ++ (sign ++ us'), hus.append (hsign.append hus'), ?_,
    rule hl hr⟩
  have hcs' : operatorSign op :: tail = sign ++ skipSpace tail := hcs
  rw [hcs', htail]
  simp

theorem readsArguments_nil (cs : List Char) : ReadsArguments (K := K) cs [] cs :=
  ⟨[], [], Spells.nil, rfl, rfl, by simp⟩

theorem Reads.argument {cs rest : List Char} {e : Formula K} (h : Reads .sum cs e rest) :
    ReadsArguments cs [e] rest := by
  obtain ⟨ts, us, hus, hcs, he⟩ := h
  exact ⟨[(ts, e)], us, hus, hcs, rfl, by simpa using he⟩

theorem separated_append_singleton {parts : List (List Token)} (ts : List Token)
    (h : parts ≠ []) : separated (parts ++ [ts]) = separated parts ++ .comma :: ts := by
  induction parts with
  | nil => exact absurd rfl h
  | cons us parts ih =>
      cases parts with
      | nil => rfl
      | cons vs parts =>
          have hrest := ih (List.cons_ne_nil _ _)
          rw [List.cons_append, List.cons_append, separated, ← List.cons_append, hrest, separated,
            List.append_assoc, List.cons_append]

theorem ReadsArguments.more {cs tail rest : List Char} {args : List (Formula K)} {e : Formula K}
    (h : ReadsArguments cs args (',' :: tail)) (hargs : args ≠ [])
    (he : Reads .sum (skipSpace tail) e rest) : ReadsArguments cs (args ++ [e]) rest := by
  obtain ⟨parts, us, hus, rfl, rfl, hparts⟩ := h
  obtain ⟨ts, vs, hvs, htail, he⟩ := he
  obtain ⟨comma, hcomma, hcs⟩ := exists_spells_token .comma tail
  refine ⟨parts ++ [(ts, e)], us ++ (comma ++ vs), ?_, ?_, by simp, ?_⟩
  · have hne : parts.map (·.1) ≠ [] := by simpa using hargs
    rw [List.map_append, List.map_singleton, separated_append_singleton _ hne]
    exact hus.append (hcomma.append hvs)
  · have hcs' : ',' :: tail = comma ++ skipSpace tail := hcs
    rw [hcs', htail]
    simp
  · intro part hpart
    rcases List.mem_append.1 hpart with hmem | hmem
    · exact hparts part hmem
    · cases List.mem_singleton.1 hmem
      exact he

theorem Reads.call {id : String} {f : Function} {cs tail rest : List Char} {args : List (Formula K)}
    (valid : isName id = true) (known : Function.ofName? id = some f)
    (allowed : f.allows args.length = true) (hcs : skipSpace cs = '(' :: tail)
    (h : ReadsArguments (skipSpace tail) args (')' :: rest)) :
    Reads .primary (id.toList ++ cs) (.call f args) (skipSpace rest) := by
  obtain ⟨parts, us, hus, htail, rfl, hparts⟩ := h
  obtain ⟨name, hname, hid⟩ := exists_spells_token (.name id) cs
  obtain ⟨opening, hopening, hcs'⟩ := exists_spells_token .openParen tail
  obtain ⟨closing, hclosing, hrest⟩ := exists_spells_token .closeParen rest
  refine ⟨.name id :: .openParen :: (separated (parts.map (·.1)) ++ [.closeParen]),
    name ++ (opening ++ (us ++ closing)),
    hname.append (hopening.append (hus.append hclosing)), ?_,
    .call parts valid known (by simpa using allowed) hparts⟩
  have hid' : id.toList ++ cs = name ++ skipSpace cs := hid
  have hcs'' : '(' :: tail = opening ++ skipSpace tail := hcs'
  have hrest' : ')' :: rest = closing ++ skipSpace rest := hrest
  rw [hid', hcs, hcs'', htail, hrest']
  simp

/-! ## One call of a reader -/

/-- All readers are sound as long as they have no more than that much fuel. -/
structure SoundAt (K : Type) [Scalar K] (n : Nat) : Prop where
  sum : ∀ {cs rest} {e : Formula K}, readSum n cs = .done e rest → Reads .sum cs e rest
  sumTail : ∀ {whole cs rest} {l e : Formula K}, readSumTail n l cs = .done e rest →
    Reads .sum whole l cs → Reads .sum whole e rest
  product : ∀ {cs rest} {e : Formula K}, readProduct n cs = .done e rest → Reads .product cs e rest
  productTail : ∀ {whole cs rest} {l e : Formula K}, readProductTail n l cs = .done e rest →
    Reads .product whole l cs → Reads .product whole e rest
  unary : ∀ {cs rest} {e : Formula K}, readUnary n cs = .done e rest → Reads .unary cs e rest
  primary : ∀ {cs rest} {e : Formula K}, Stops (· == '-') cs → readPrimary n cs = .done e rest →
    Reads .primary cs e rest
  name : ∀ {cs rest} {e : Formula K}, readName n cs = .done e rest → Reads .primary cs e rest
  arguments : ∀ {cs rest} {args : List (Formula K)}, readArguments n cs = .done args rest →
    ReadsArguments cs args rest
  moreArguments : ∀ {whole cs rest} {given args : List (Formula K)},
    readMoreArguments n given cs = .done args rest → given ≠ [] → ReadsArguments whole given cs →
      ReadsArguments whole args rest

namespace SoundAt

theorem zero : SoundAt K 0 where
  sum h := by cases h
  sumTail h hl := by
    cases h
    exact hl
  product h := by cases h
  productTail h hl := by
    cases h
    exact hl
  unary h := by cases h
  primary _ h := by cases h
  name h := by cases h
  arguments h := by
    cases h
    exact readsArguments_nil _
  moreArguments h _ hgiven := by
    cases h
    exact hgiven

variable {n : Nat} {cs rest : List Char} {e : Formula K}

theorem sum_succ (ih : SoundAt K n) (h : readSum (n + 1) cs = .done e rest) :
    Reads .sum cs e rest := by
  rw [readSum] at h
  split at h
  · rename_i l tail hl
    obtain ⟨ts, us, hus, hcs, hl⟩ := ih.product hl
    exact ih.sumTail h ⟨ts, us, hus, hcs, .product hl⟩
  · rename_i hne
    exact absurd h (hne _ _)

theorem sumTail_succ {whole : List Char} {l : Formula K} (ih : SoundAt K n)
    (h : readSumTail (n + 1) l cs = .done e rest) (hl : Reads .sum whole l cs) :
    Reads .sum whole e rest := by
  rw [readSumTail] at h
  split at h
  · cases h
    exact hl
  · rename_i op tail hop
    -- What has been read so far becomes the left operand, so chains group from the left.
    obtain ⟨tail, rfl, rfl, hmem⟩ := readOperator_some (fun _ => additive_some) hop
    split at h
    · rename_i r rest hr
      exact ih.sumTail h (hl.binary (ih.product hr) fun hl hr => .plus hl hmem hr)
    · rename_i hne
      exact absurd h (hne _ _)

theorem product_succ (ih : SoundAt K n) (h : readProduct (n + 1) cs = .done e rest) :
    Reads .product cs e rest := by
  rw [readProduct] at h
  split at h
  · rename_i l tail hl
    obtain ⟨ts, us, hus, hcs, hl⟩ := ih.unary hl
    exact ih.productTail h ⟨ts, us, hus, hcs, .unary hl⟩
  · rename_i hne
    exact absurd h (hne _ _)

theorem productTail_succ {whole : List Char} {l : Formula K} (ih : SoundAt K n)
    (h : readProductTail (n + 1) l cs = .done e rest) (hl : Reads .product whole l cs) :
    Reads .product whole e rest := by
  rw [readProductTail] at h
  split at h
  · cases h
    exact hl
  · rename_i op tail hop
    obtain ⟨tail, rfl, rfl, hmem⟩ := readOperator_some (fun _ => multiplicative_some) hop
    split at h
    · rename_i r rest hr
      exact ih.productTail h (hl.binary (ih.unary hr) fun hl hr => .times hl hmem hr)
    · rename_i hne
      exact absurd h (hne _ _)

theorem unary_succ (ih : SoundAt K n) (h : readUnary (n + 1) cs = .done e rest) :
    Reads .unary cs e rest := by
  unfold readUnary at h
  split at h
  · split at h
    · rename_i e rest he
      cases h
      exact (ih.unary he).negate
    · rename_i hne
      exact absurd h (hne _ _)
  · rename_i hminus
    -- The reader of numerals would take a minus sign of its own, so it must not see one.
    have hcs : Stops (· == '-') cs := by
      intro c tail hc
      cases hsign : c == '-' with
      | false => exact hsign
      | true => exact absurd (hc.trans (by rw [eq_of_beq hsign])) (hminus tail)
    obtain ⟨ts, us, hus, hcs, he⟩ := ih.primary hcs h
    exact ⟨ts, us, hus, hcs, .primary he⟩

theorem primary_succ (ih : SoundAt K n) (hcs : Stops (· == '-') cs)
    (h : readPrimary (n + 1) cs = .done e rest) : Reads .primary cs e rest := by
  unfold readPrimary at h
  split at h
  · split at h
    · rename_i e rest he
      cases h
      exact (ih.sum he).group
    · cases h
    · cases h
    · rename_i hne _
      exact absurd h (hne _ _)
  · split at h
    · rename_i d tail hd
      cases h
      obtain ⟨num, rfl, rfl⟩ := readNumeral_done hcs hd
      exact Reads.token (t := .number num) (.number num) tail
    · cases h
    · exact ih.name h

theorem name_succ (ih : SoundAt K n) (h : readName (n + 1) cs = .done e rest) :
    Reads .primary cs e rest := by
  unfold readName at h
  dsimp only at h
  split at h
  · cases h
  · rename_i c tail
    split at h
    · rename_i hstart
      have hvalid : isName (String.ofList ((c :: tail).takeWhile continuesName)) = true :=
        isName_takeWhile hstart
      have hcs : (String.ofList ((c :: tail).takeWhile continuesName)).toList ++
          (c :: tail).dropWhile continuesName = c :: tail := by
        rw [String.toList_ofList, List.takeWhile_append_dropWhile]
      rw [← hcs]
      -- A parenthesis right behind the name makes it a call.
      split at h
      · rename_i inner hopen
        split at h
        · rename_i args after hargs
          obtain ⟨f, known, allowed, rfl, rfl⟩ := makeCall_done h
          exact Reads.call hvalid known allowed hopen (ih.arguments hargs)
        · cases h
        · cases h
        · cases h
      · cases h
        exact Reads.token (t := .name _) (.name hvalid) _
    · cases h

theorem arguments_succ {args : List (Formula K)} (ih : SoundAt K n)
    (h : readArguments (n + 1) cs = .done args rest) : ReadsArguments cs args rest := by
  rw [readArguments] at h
  split at h
  · rename_i e tail he
    exact ih.moreArguments h (List.cons_ne_nil _ _) (ih.sum he).argument
  · cases h
    exact readsArguments_nil _
  · cases h

theorem moreArguments_succ {whole : List Char} {given args : List (Formula K)} (ih : SoundAt K n)
    (h : readMoreArguments (n + 1) given cs = .done args rest) (hne : given ≠ [])
    (hgiven : ReadsArguments whole given cs) : ReadsArguments whole args rest := by
  unfold readMoreArguments at h
  split at h
  · split at h
    · rename_i e tail he
      have hmore : given ++ [e] ≠ [] := by simp
      exact ih.moreArguments h hmore (hgiven.more hne (ih.sum he))
    · cases h
      exact hgiven
    · cases h
  · cases h
    exact hgiven

theorem succ (ih : SoundAt K n) : SoundAt K (n + 1) where
  sum := ih.sum_succ
  sumTail := ih.sumTail_succ
  product := ih.product_succ
  productTail := ih.productTail_succ
  unary := ih.unary_succ
  primary := ih.primary_succ
  name := ih.name_succ
  arguments := ih.arguments_succ
  moreArguments := ih.moreArguments_succ

end SoundAt

theorem soundAt (n : Nat) : SoundAt K n := by
  induction n with
  | zero => exact SoundAt.zero
  | succ n ih => exact ih.succ

/-! ## Statements -/

theorem readRelation_some {cs rest : List Char} {rel : Relation}
    (h : readRelation cs = some (rel, rest)) :
    ∃ tail, cs = relationText rel ++ tail ∧ rest = skipSpace tail := by
  unfold readRelation at h
  split at h
  · cases h
    exact ⟨_, rfl, rfl⟩
  · cases h
    exact ⟨_, rfl, rfl⟩
  · cases h
    exact ⟨_, rfl, rfl⟩
  · cases h

theorem readStatement_done {n : Nat} {cs rest : List Char} {s : Statement K}
    (h : readStatement n cs = .done s rest) :
    ∃ ts us, Spells ts us ∧ cs = us ++ rest ∧ DerivesStatement ts s := by
  unfold readStatement at h
  split at h
  · rename_i l tail hl
    obtain ⟨ts, us, hus, rfl, hleft⟩ := (soundAt n).sum hl
    split at h
    · cases h
      exact ⟨ts, us, hus, rfl, .value hleft⟩
    · rename_i rel right hrel
      obtain ⟨tail', rfl, rfl⟩ := readRelation_some hrel
      split at h
      · rename_i r rest' hr
        cases h
        obtain ⟨ts', us', hus', htail, hright⟩ := (soundAt n).sum hr
        -- the blanks that were skipped behind the relation belong to its token
        obtain ⟨sign, hsign, hcs⟩ := exists_spells_token (.relation rel) tail'
        have hcs' : relationText rel ++ tail' = sign ++ skipSpace tail' := hcs
        refine ⟨ts ++ .relation rel :: ts', us ++ (sign ++ us'), hus.append (hsign.append hus'), ?_,
          .relation rel hleft hright⟩
        rw [hcs', htail]
        simp
      · cases h
      · cases h
  · cases h
  · cases h

/-- A text that is accepted is written by tokens from which its statement is derived. -/
theorem exists_writes_of_parse {text : String} {s : Statement K} (h : parse text = .ok s) :
    ∃ ts, Writes ts text ∧ DerivesStatement ts s := by
  unfold parse at h
  split at h
  · cases h
  · dsimp only at h
    split at h
    · rename_i s' hs
      cases h
      obtain ⟨ts, us, hus, hcs, hs⟩ := readStatement_done hs
      obtain ⟨blanks, hblanks, htext⟩ := exists_skipSpace text.toList
      rw [hcs, List.append_nil] at htext
      exact ⟨ts, ⟨blanks, us, hblanks, hus, htext⟩, hs⟩
    · cases h
    · cases h
    · cases h

end CoupledModels.Formula
