import CoupledModels.Proofs.Text.Runs
import CoupledModels.Text.JsonReader

/-!
# Reading what has been written

A document that is spread over lines is read back as it was: texts are escaped so that their
characters come back, whatever they are, and each value ends where the reader stops.  Only two kinds
of values have no text of their own: a number whose characters are no numeral, and half a surrogate
pair.
-/

namespace CoupledModels.Json

-- The writer and the reader compute where the value, or the fuel, has a constructor.
attribute [simp] prettyChars prettyItems prettyMembers readUnits readValue readItems readMembers

/-! ## Numerals -/

/-- One digit or more. -/
def Digits (ds : List Char) : Prop :=
  ds ≠ [] ∧ ∀ c ∈ ds, c.isDigit = true

theorem digits_singleton {d : Char} (h : d.isDigit = true) : Digits [d] :=
  ⟨List.cons_ne_nil _ _, List.forall_mem_singleton.mpr h⟩

/-- Digits without a leading zero, or the digit zero. -/
def IsWhole (ds : List Char) : Prop :=
  ds = ['0'] ∨ Digits ds ∧ ds.head? ≠ some '0'

/-- Digits after a point, or nothing. -/
def IsFraction (cs : List Char) : Prop :=
  cs = [] ∨ ∃ ds, Digits ds ∧ cs = '.' :: ds

/-- An exponent with its sign, or nothing. -/
def IsExponent (cs : List Char) : Prop :=
  cs = [] ∨ ∃ ds, Digits ds ∧ (cs = 'e' :: '+' :: ds ∨ cs = 'e' :: '-' :: ds)

/-- A numeral without its sign. -/
inductive IsMagnitude : List Char → Prop where
  | parts {whole fraction exponent : List Char} (hwhole : IsWhole whole)
      (hfraction : IsFraction fraction) (hexponent : IsExponent exponent) :
      IsMagnitude (whole ++ fraction ++ exponent)

/-- A numeral, as documents are written with. -/
inductive IsNumeral : List Char → Prop where
  | positive {n : List Char} (h : IsMagnitude n) : IsNumeral n
  | negative {n : List Char} (h : IsMagnitude n) : IsNumeral ('-' :: n)

/-- A character that a numeral may go on with. -/
def continuesNumeral (c : Char) : Bool :=
  c.isDigit || c == '.' || c == 'e' || c == 'E'

theorem takeDigits_append {ds rest : List Char} (hds : ∀ c ∈ ds, c.isDigit = true)
    (hrest : Stops Char.isDigit rest) : takeDigits (ds ++ rest) = (ds, rest) := by
  rw [takeDigits, takeWhile_append_stops hds hrest, dropWhile_append_stops hds hrest]

theorem Digits.exists_cons {ds : List Char} (h : Digits ds) :
    ∃ d rest, ds = d :: rest ∧ d.isDigit = true := by
  obtain ⟨hne, hds⟩ := h
  cases ds with
  | nil => exact absurd rfl hne
  | cons d rest => exact ⟨d, rest, rfl, hds d List.mem_cons_self⟩

theorem IsWhole.digits {ds : List Char} (h : IsWhole ds) : Digits ds := by
  rcases h with rfl | ⟨h, -⟩
  · exact digits_singleton rfl
  · exact h

theorem readWhole_append {ds rest : List Char} (h : IsWhole ds) (hrest : Stops Char.isDigit rest) :
    readWhole (ds ++ rest) = some (ds, rest) := by
  unfold readWhole
  rw [takeDigits_append h.digits.2 hrest]
  rcases h with rfl | ⟨hds, hzero⟩
  · rfl
  · obtain ⟨d, ds, rfl, -⟩ := hds.exists_cons
    have hd : d ≠ '0' := fun heq => hzero (congrArg some heq)
    split <;> simp_all

/-- A fraction ends before an exponent. -/
def continuesFraction (c : Char) : Bool :=
  c.isDigit || c == '.'

theorem readFraction_append {fraction rest : List Char} (h : IsFraction fraction)
    (hrest : Stops continuesFraction rest) :
    readFraction (fraction ++ rest) = some (fraction, rest) := by
  rcases h with rfl | ⟨ds, hds, rfl⟩
  · cases rest with
    | nil => rfl
    | cons c rest =>
        have hc : c ≠ '.' := by simpa using (Bool.or_eq_false_iff.mp hrest.head).2
        simp [readFraction, hc]
  · have hdigits := takeDigits_append hds.2
      (hrest.imp fun c hc => (Bool.or_eq_false_iff.mp hc).1)
    obtain ⟨d, ds, rfl, -⟩ := hds.exists_cons
    rw [List.cons_append] at hdigits
    simp [readFraction, hdigits]

theorem readExponent_append {exponent rest : List Char} (h : IsExponent exponent)
    (hrest : Stops continuesNumeral rest) :
    readExponent (exponent ++ rest) = some (exponent, rest) := by
  rcases h with rfl | ⟨ds, hds, hexponent⟩
  · cases rest with
    | nil => rfl
    | cons c rest =>
        obtain ⟨hc, hupper⟩ := Bool.or_eq_false_iff.mp hrest.head
        obtain ⟨-, hlower⟩ := Bool.or_eq_false_iff.mp hc
        simp [readExponent, hlower, hupper]
  · have hdigits := takeDigits_append hds.2 (hrest.imp fun c hc => by simp_all [continuesNumeral])
    obtain ⟨d, ds, rfl, -⟩ := hds.exists_cons
    rw [List.cons_append] at hdigits
    rcases hexponent with rfl | rfl <;> simp [readExponent, readExponentDigits, hdigits]

theorem IsExponent.stops {exponent rest : List Char} (h : IsExponent exponent)
    (hrest : Stops continuesNumeral rest) : Stops continuesFraction (exponent ++ rest) := by
  rcases h with rfl | ⟨ds, -, rfl | rfl⟩
  · exact hrest.imp fun c hc => by simp_all [continuesNumeral, continuesFraction]
  all_goals exact stops_cons rfl

theorem IsFraction.stops {fraction rest : List Char} (h : IsFraction fraction)
    (hrest : Stops continuesFraction rest) : Stops Char.isDigit (fraction ++ rest) := by
  rcases h with rfl | ⟨ds, -, rfl⟩
  · exact hrest.imp fun c hc => (Bool.or_eq_false_iff.mp hc).1
  · exact stops_cons rfl

theorem IsMagnitude.exists_cons {n : List Char} (h : IsMagnitude n) :
    ∃ d rest, n = d :: rest ∧ d.isDigit = true := by
  cases h with
  | parts hwhole hfraction hexponent =>
      obtain ⟨d, ds, rfl, hd⟩ := hwhole.digits.exists_cons
      exact ⟨d, _, rfl, hd⟩

/-- A numeral starts with a minus or a digit. -/
theorem IsNumeral.exists_cons {n : List Char} (h : IsNumeral n) :
    ∃ c cs, n = c :: cs ∧ (c = '-' ∨ c.isDigit = true) := by
  cases h with
  | negative h => exact ⟨_, _, rfl, .inl rfl⟩
  | positive h =>
      obtain ⟨d, rest, rfl, hd⟩ := h.exists_cons
      exact ⟨d, rest, rfl, .inr hd⟩

/-- Reads what follows the sign of a numeral. -/
def readMagnitude (sign cs : List Char) : Option (List Char × List Char) := do
  let (whole, cs) ← readWhole cs
  let (fraction, cs) ← readFraction cs
  let (exponent, cs) ← readExponent cs
  return (sign ++ whole ++ fraction ++ exponent, cs)

theorem readMagnitude_append (sign : List Char) {n rest : List Char} (h : IsMagnitude n)
    (hrest : Stops continuesNumeral rest) :
    readMagnitude sign (n ++ rest) = some (sign ++ n, rest) := by
  cases h with
  | parts hwhole hfraction hexponent =>
      have hstops := hexponent.stops hrest
      rw [readMagnitude, List.append_assoc, List.append_assoc,
        readWhole_append hwhole (hfraction.stops hstops)]
      simp [readFraction_append hfraction hstops, readExponent_append hexponent hrest]

theorem readNumeral_cons {c : Char} (hc : c ≠ '-') (cs : List Char) :
    readNumeral (c :: cs) = readMagnitude [] (c :: cs) := by
  simp [readNumeral, readMagnitude, hc]

/-- A numeral is read up to its end. -/
theorem readNumeral_append {n rest : List Char} (h : IsNumeral n)
    (hrest : Stops continuesNumeral rest) : readNumeral (n ++ rest) = some (n, rest) := by
  cases h with
  | negative h => exact readMagnitude_append ['-'] h hrest
  | positive h =>
      have hread := readMagnitude_append [] h hrest
      obtain ⟨d, ds, rfl, hd⟩ := h.exists_cons
      rw [List.cons_append, readNumeral_cons (by rintro rfl; exact absurd hd (by decide))]
      exact hread

/-! ## Texts -/

/-- The escape of a control character is read as its number. -/
theorem hexUnit?_control {n : Nat} (h : n < 0x20) :
    hexUnit? '0' '0' (hexDigit (n / 16)) (hexDigit (n % 16)) = some n := by
  have hall : ∀ n < 0x20, hexUnit? '0' '0' (hexDigit (n / 16)) (hexDigit (n % 16)) = some n := by
    decide
  exact hall n h

/-- An escape with a number that is not half of a pair stands for one character, whatever
follows. -/
theorem readUnits_unit {a b c d : Char} {u : Nat} (h : hexUnit? a b c d = some u)
    (hu : isSurrogate u = false) (tail : List Char) :
    readUnits ('\\' :: 'u' :: a :: b :: c :: d :: tail) =
      (readUnits tail).map fun (us, r) => (some (Char.ofNat u) :: us, r) := by
  rw [readUnits.eq_def]
  split <;> simp_all
  · rename_i hnot heq
    obtain ⟨rfl, rfl⟩ := heq
    exact absurd rfl (hnot a b c d tail rfl)
  · rename_i hnot heq
    obtain ⟨rfl, rfl⟩ := heq
    exact absurd rfl (hnot 'u' _ rfl)

/-- An escaped character is read as itself. -/
theorem readUnits_escapedChar (c : Char) (tail : List Char) :
    readUnits (escapedChar c ++ tail) = (readUnits tail).map fun (us, r) => (some c :: us, r) := by
  unfold escapedChar
  split
  all_goals try rfl
  split
  · rename_i hcontrol
    have hu : isSurrogate c.toNat = false := by
      simp [isSurrogate]
      omega
    have hread := readUnits_unit (hexUnit?_control hcontrol) hu tail
    rwa [Char.ofNat_toNat] at hread
  · rename_i hquote hbackslash _ _ _ _ _ hcontrol
    have hplain : ¬(c == '\\' || decide (c.toNat < 0x20)) = true := by simp_all
    rw [List.singleton_append, readUnits.eq_def]
    split
    case h_6 heq =>
      obtain ⟨rfl, rfl⟩ := List.cons.inj heq
      exact if_neg hplain
    all_goals simp_all

/-- A text is read up to its closing quote. -/
theorem readUnits_quoted (cs rest : List Char) :
    readUnits (cs.flatMap escapedChar ++ '"' :: rest) = some (cs.map some, rest) := by
  induction cs with
  | nil => simp
  | cons c cs ih =>
      rw [List.flatMap_cons, List.append_assoc, readUnits_escapedChar, ih]
      rfl

theorem wholeText?_map_some (cs : List Char) :
    wholeText? (cs.map some) = some (String.ofList cs) := by
  have hall : (cs.map some).mapM id = some cs := by
    induction cs with
    | nil => rfl
    | cons c cs ih => simp [ih]
  rw [wholeText?, hall, Option.map_some]

/-! ## Values -/

/-- A value that has a text. -/
inductive Written : Json → Prop where
  | null : Written .null
  | bool (b : Bool) : Written (.bool b)
  | number {n : List Char} (h : IsNumeral n) : Written (.number n)
  | text (s : String) : Written (.text s)
  | array {items : List Json} (h : ∀ v ∈ items, Written v) : Written (.array items)
  | object {members : List (String × Json)} (h : ∀ m ∈ members, Written m.2) :
      Written (.object members)

/-- The text of a value at some depth is read up to its end, unless it is continued as a numeral. -/
def ReadsBack (v : Json) : Prop :=
  ∀ (depth fuel : Nat) (rest : List Char), Stops continuesNumeral rest →
    2 * (prettyChars depth v).length ≤ fuel →
    readValue fuel (prettyChars depth v ++ rest) = some (v, rest)

/-! ### Blanks -/

theorem isSpace_lineBreak {depth : Nat} {c : Char} (h : c ∈ lineBreak depth) :
    isSpace c = true := by
  rcases List.mem_cons.mp h with rfl | h
  · rfl
  · rw [List.eq_of_mem_replicate h]
    rfl

theorem skipSpace_append {blanks : List Char} (h : ∀ c ∈ blanks, isSpace c = true)
    (rest : List Char) : skipSpace (blanks ++ rest) = skipSpace rest :=
  List.dropWhile_append_of_pos h

theorem skipSpace_cons {c : Char} (h : isSpace c = false) (rest : List Char) :
    skipSpace (c :: rest) = c :: rest :=
  List.dropWhile_cons_of_neg (by simp [h])

/-- Blanks before a value are passed over. -/
theorem readValue_blanks {blanks : List Char} (h : ∀ c ∈ blanks, isSpace c = true) (fuel : Nat)
    (rest : List Char) : readValue fuel (blanks ++ rest) = readValue fuel rest := by
  cases fuel with
  | zero => rfl
  | succ fuel => rw [readValue, readValue, skipSpace_append h]

theorem readItems_blanks {blanks : List Char} (h : ∀ c ∈ blanks, isSpace c = true) (fuel : Nat)
    (rest : List Char) : readItems fuel (blanks ++ rest) = readItems fuel rest := by
  cases fuel with
  | zero => rfl
  | succ fuel => rw [readItems, readItems, readValue_blanks h]

theorem readMembers_blanks {blanks : List Char} (h : ∀ c ∈ blanks, isSpace c = true) (fuel : Nat)
    (rest : List Char) : readMembers fuel (blanks ++ rest) = readMembers fuel rest := by
  cases fuel with
  | zero => rfl
  | succ fuel => rw [readMembers, readMembers, skipSpace_append h]

/-! ### Values without parts -/

theorem quoteChars_append (s : String) (rest : List Char) :
    quoteChars s.toList ++ rest = '"' :: (s.toList.flatMap escapedChar ++ '"' :: rest) := by
  simp [quoteChars]

/-- The first character of a numeral starts no other value, and it is neither blank nor a
bracket. -/
theorem IsNumeral.opens {c : Char} (hc : c = '-' ∨ c.isDigit = true) :
    isSpace c = false ∧ c ∉ ['n', 't', 'f', '"', '[', ']', '\x7b'] := by
  have hall : ∀ d ∈ ['n', 't', 'f', '"', '[', ']', '\x7b'], ¬(d = '-' ∨ d.isDigit = true) := by
    simp [Char.isDigit]
  refine ⟨?_, fun hmem => hall c hmem hc⟩
  have hblank : ∀ d ∈ [' ', '\t', '\n', '\r'], ¬(d = '-' ∨ d.isDigit = true) := by
    simp [Char.isDigit]
  cases hspace : isSpace c with
  | false => rfl
  | true => exact absurd hc (hblank c (by simpa [isSpace, or_assoc] using hspace))

theorem exists_fuel {fuel length : Nat} (hfuel : 2 * length ≤ fuel) (hlength : 0 < length) :
    ∃ left, fuel = left + 1 ∧ 2 * length ≤ left + 1 :=
  ⟨fuel - 1, by omega, by omega⟩

theorem readsBack_null : ReadsBack .null := by
  intro depth fuel rest _ hfuel
  obtain ⟨fuel, rfl, -⟩ := exists_fuel hfuel (by simp)
  simp [skipSpace, isSpace]

theorem readsBack_bool (b : Bool) : ReadsBack (.bool b) := by
  intro depth fuel rest _ hfuel
  obtain ⟨fuel, rfl, -⟩ := exists_fuel hfuel (by cases b <;> simp)
  cases b <;> simp [skipSpace, isSpace]

theorem readsBack_number {n : List Char} (h : IsNumeral n) : ReadsBack (.number n) := by
  intro depth fuel rest hrest hfuel
  have hnumeral := readNumeral_append h hrest
  obtain ⟨c, cs, rfl, hc⟩ := h.exists_cons
  obtain ⟨fuel, rfl, -⟩ := exists_fuel hfuel (by simp)
  obtain ⟨hspace, hopens⟩ := IsNumeral.opens hc
  simp only [prettyChars, List.cons_append] at hnumeral ⊢
  rw [readValue, skipSpace_cons hspace]
  split <;> simp_all

theorem readsBack_text (s : String) : ReadsBack (.text s) := by
  intro depth fuel rest _ hfuel
  obtain ⟨fuel, rfl, -⟩ := exists_fuel hfuel (by simp [quoteChars])
  rw [prettyChars, quoteChars_append, readValue, skipSpace_cons rfl]
  simp only [readUnits_quoted, wholeText?_map_some, String.ofList_toList]

/-! ### Items and members -/

/-- The first character of a value is not blank, and it closes no array. -/
theorem Written.opens {v : Json} (h : Written v) (depth : Nat) :
    ∃ c cs, prettyChars depth v = c :: cs ∧ isSpace c = false ∧ c ≠ ']' := by
  cases h with
  | null => exact ⟨'n', _, rfl, rfl, by decide⟩
  | bool b => cases b <;> exact ⟨_, _, rfl, rfl, by decide⟩
  | number h =>
      obtain ⟨c, cs, rfl, hc⟩ := h.exists_cons
      obtain ⟨hspace, hopens⟩ := IsNumeral.opens hc
      exact ⟨c, cs, rfl, hspace, fun heq => hopens (by simp [heq])⟩
  | text s => exact ⟨'"', _, rfl, rfl, by decide⟩
  | @array items h => cases items <;> exact ⟨'[', _, rfl, rfl, by decide⟩
  | @object members h => cases members <;> exact ⟨'\x7b', _, rfl, rfl, by decide⟩

theorem prettyItems_ne_nil {items : List Json} (h : items ≠ []) (depth : Nat) :
    prettyItems depth items ≠ [] := by
  cases items with
  | nil => exact absurd rfl h
  | cons v items => exact List.cons_ne_nil _ _

theorem prettyMembers_ne_nil {members : List (String × Json)} (h : members ≠ []) (depth : Nat) :
    prettyMembers depth members ≠ [] := by
  cases members with
  | nil => exact absurd rfl h
  | cons m members => exact List.cons_ne_nil _ _

theorem separated_cons (separator p : List Char) {ps : List (List Char)} (h : ps ≠ []) :
    separated separator (p :: ps) = p ++ separator ++ separated separator ps := by
  cases ps with
  | nil => exact absurd rfl h
  | cons q ps => rfl

theorem stops_lineBreak (depth : Nat) (rest : List Char) :
    Stops continuesNumeral (lineBreak depth ++ rest) :=
  stops_cons rfl

/-- The items of an array are read up to its closing bracket. -/
theorem readItems_pretty {items : List Json} (hitems : items ≠ [])
    (hread : ∀ v ∈ items, ReadsBack v) {inner outer fuel : Nat} {rest : List Char}
    (hfuel : 2 * (separated (',' :: lineBreak inner) (prettyItems inner items)).length + 1 ≤ fuel) :
    readItems fuel (separated (',' :: lineBreak inner) (prettyItems inner items) ++
      (lineBreak outer ++ ']' :: rest)) = some (items, rest) := by
  induction items generalizing fuel with
  | nil => exact absurd rfl hitems
  | cons v items ih =>
      obtain ⟨hv, hvs⟩ := List.forall_mem_cons.mp hread
      obtain ⟨fuel, rfl⟩ : ∃ left, fuel = left + 1 := ⟨fuel - 1, by omega⟩
      -- the last item stands before the line of the bracket, every other one before a comma
      by_cases hne : items = []
      · subst hne
        simp only [prettyItems, separated] at hfuel
        rw [prettyItems, prettyItems, separated, readItems,
          hv inner fuel _ (stops_lineBreak _ _) (by omega)]
        simp only [skipSpace_append fun _ => isSpace_lineBreak, skipSpace_cons (c := ']') rfl]
      · rw [prettyItems, separated_cons _ _ (prettyItems_ne_nil hne inner)] at hfuel ⊢
        simp only [List.length_append, List.length_cons] at hfuel
        rw [List.append_assoc, List.append_assoc, List.cons_append, readItems,
          hv inner fuel _ (stops_cons (by rfl)) (by omega)]
        simp only [skipSpace_cons (c := ',') rfl, readItems_blanks fun _ => isSpace_lineBreak]
        rw [ih hne hvs (by omega), Option.map_some]

/-- A member is read by its name and its value; the character after it says whether another one
follows. -/
theorem readMembers_member (k : String) {v : Json} (hv : ReadsBack v) {depth fuel : Nat}
    {tail rest : List Char} (htail : Stops continuesNumeral tail)
    (hfuel : 2 * (prettyChars depth v).length ≤ fuel) :
    (skipSpace tail = ',' :: rest →
      readMembers (fuel + 1) (quoteChars k.toList ++ ':' :: ' ' :: prettyChars depth v ++ tail) =
        (readMembers fuel rest).map fun m => ((k, v) :: m.1, m.2)) ∧
    (skipSpace tail = '\x7d' :: rest →
      readMembers (fuel + 1) (quoteChars k.toList ++ ':' :: ' ' :: prettyChars depth v ++ tail) =
        some ([(k, v)], rest)) := by
  have hvalue : readValue fuel (' ' :: (prettyChars depth v ++ tail)) = some (v, tail) := by
    have hblank : ∀ c ∈ [' '], isSpace c = true := List.forall_mem_singleton.mpr rfl
    exact (readValue_blanks hblank fuel _).trans (hv depth fuel tail htail hfuel)
  rw [List.append_assoc, quoteChars_append, readMembers, skipSpace_cons (by rfl)]
  simp only [List.cons_append, readUnits_quoted, wholeText?_map_some, String.ofList_toList,
    skipSpace_cons (c := ':') rfl, hvalue]
  constructor
  · intro hnext
    simp only [hnext]
  · intro hlast
    simp only [hlast]

/-- The members of an object are read up to its closing brace. -/
theorem readMembers_pretty {members : List (String × Json)} (hmembers : members ≠ [])
    (hread : ∀ m ∈ members, ReadsBack m.2) {inner outer fuel : Nat} {rest : List Char}
    (hfuel : 2 * (separated (',' :: lineBreak inner) (prettyMembers inner members)).length + 1 ≤
      fuel) :
    readMembers fuel (separated (',' :: lineBreak inner) (prettyMembers inner members) ++
      (lineBreak outer ++ '\x7d' :: rest)) = some (members, rest) := by
  induction members generalizing fuel with
  | nil => exact absurd rfl hmembers
  | cons m members ih =>
      obtain ⟨k, v⟩ := m
      have hv : ReadsBack v := hread (k, v) List.mem_cons_self
      have hvs := fun m hm => hread m (List.mem_cons_of_mem _ hm)
      obtain ⟨fuel, rfl⟩ : ∃ left, fuel = left + 1 := ⟨fuel - 1, by omega⟩
      -- the last member stands before the line of the brace, every other one before a comma
      by_cases hne : members = []
      · subst hne
        simp only [prettyMembers, separated, List.length_append, List.length_cons] at hfuel
        rw [prettyMembers, prettyMembers, separated]
        refine (readMembers_member k hv (stops_lineBreak _ _) (by omega)).2 ?_
        rw [skipSpace_append fun _ => isSpace_lineBreak, skipSpace_cons (by rfl)]
      · rw [prettyMembers, separated_cons _ _ (prettyMembers_ne_nil hne inner)] at hfuel ⊢
        simp only [List.length_append, List.length_cons] at hfuel
        rw [List.append_assoc, List.append_assoc, List.cons_append,
          (readMembers_member k hv (stops_cons (by rfl)) (by omega)).1 (skipSpace_cons (by rfl) _),
          readMembers_blanks fun _ => isSpace_lineBreak, ih hne hvs (by omega), Option.map_some]

/-! ### Whole documents -/

/-- After an opening bracket that is not closed at once, items are read. -/
theorem readValue_bracket {blanks : List Char} (hblanks : ∀ c ∈ blanks, isSpace c = true) {c : Char}
    (hspace : isSpace c = false) (hclose : c ≠ ']') (fuel : Nat) (cs : List Char) :
    readValue (fuel + 1) ('[' :: (blanks ++ c :: cs)) =
      (readItems fuel (c :: cs)).map fun (vs, r) => (.array vs, r) := by
  rw [readValue, skipSpace_cons (by rfl)]
  simp only [skipSpace_append hblanks, skipSpace_cons hspace]
  split
  · simp_all
  · rfl

/-- After an opening brace that is not closed at once, members are read. -/
theorem readValue_brace {blanks : List Char} (hblanks : ∀ c ∈ blanks, isSpace c = true) (fuel : Nat)
    (cs : List Char) : readValue (fuel + 1) ('\x7b' :: (blanks ++ '"' :: cs)) =
      (readMembers fuel ('"' :: cs)).map fun (ms, r) => (.object ms, r) := by
  rw [readValue, skipSpace_cons (by rfl)]
  simp only [skipSpace_append hblanks, skipSpace_cons (c := '"') rfl]
  rfl

theorem separated_opens (separator : List Char) (c : Char) (cs : List Char)
    (ps : List (List Char)) :
    ∃ tail, separated separator ((c :: cs) :: ps) = c :: tail := by
  cases ps with
  | nil => exact ⟨cs, rfl⟩
  | cons p ps => exact ⟨_, rfl⟩

theorem readsBack_array {items : List Json} (hwritten : ∀ v ∈ items, Written v)
    (hread : ∀ v ∈ items, ReadsBack v) : ReadsBack (.array items) := by
  intro depth fuel rest _ hfuel
  obtain ⟨fuel, rfl, hfuel⟩ := exists_fuel hfuel (by cases items <;> simp)
  cases items with
  | nil => rfl
  | cons v items =>
      rw [prettyChars] at hfuel ⊢
      simp only [List.length_append, List.length_cons, List.length_nil] at hfuel
      have hitems : readItems fuel
          (separated (',' :: lineBreak (depth + 1)) (prettyItems (depth + 1) (v :: items)) ++
            (lineBreak depth ++ ']' :: rest)) = some (v :: items, rest) :=
        readItems_pretty (List.cons_ne_nil v items) hread (by omega)
      -- what follows the bracket is an item, not the closing bracket
      obtain ⟨c, cs, hfirst, hspace, hclose⟩ := (hwritten v List.mem_cons_self).opens (depth + 1)
      rw [prettyItems, hfirst] at hitems ⊢
      obtain ⟨tail, htail⟩ := separated_opens (',' :: lineBreak (depth + 1)) c cs
        (prettyItems (depth + 1) items)
      rw [htail] at hitems ⊢
      simp only [List.cons_append, List.append_assoc, List.nil_append] at hitems ⊢
      rw [readValue_bracket (fun _ => isSpace_lineBreak) hspace hclose, hitems, Option.map_some]

theorem readsBack_object {members : List (String × Json)} (hread : ∀ m ∈ members, ReadsBack m.2) :
    ReadsBack (.object members) := by
  intro depth fuel rest _ hfuel
  obtain ⟨fuel, rfl, hfuel⟩ := exists_fuel hfuel (by cases members <;> simp)
  cases members with
  | nil => rfl
  | cons m members =>
      rw [prettyChars] at hfuel ⊢
      simp only [List.length_append, List.length_cons, List.length_nil] at hfuel
      have hmembers : readMembers fuel
          (separated (',' :: lineBreak (depth + 1)) (prettyMembers (depth + 1) (m :: members)) ++
            (lineBreak depth ++ '\x7d' :: rest)) = some (m :: members, rest) :=
        readMembers_pretty (List.cons_ne_nil m members) hread (by omega)
      obtain ⟨name, hname⟩ : ∃ name, prettyMembers (depth + 1) (m :: members) =
          ('"' :: name) :: prettyMembers (depth + 1) members := ⟨_, rfl⟩
      obtain ⟨tail, htail⟩ := separated_opens (',' :: lineBreak (depth + 1)) '"' name
        (prettyMembers (depth + 1) members)
      rw [hname, htail] at hmembers ⊢
      simp only [List.cons_append, List.append_assoc, List.nil_append] at hmembers ⊢
      rw [readValue_brace fun _ => isSpace_lineBreak, hmembers, Option.map_some]

/-- What is written is read back. -/
theorem Written.readsBack {v : Json} (h : Written v) : ReadsBack v := by
  induction h with
  | null => exact readsBack_null
  | bool b => exact readsBack_bool b
  | number h => exact readsBack_number h
  | text s => exact readsBack_text s
  | array h ih => exact readsBack_array h ih
  | object h ih => exact readsBack_object ih

/-- A document is read back from its text. -/
theorem parse?_pretty {v : Json} (h : Written v) : parse? v.pretty = some v := by
  have hread := h.readsBack 0 (2 * (prettyChars 0 v).length + 2) [] (by intro c rest h; cases h)
    (by omega)
  rw [List.append_nil] at hread
  simp only [parse?, pretty, String.toList_ofList, hread, skipSpace, List.dropWhile_nil,
    List.isEmpty_nil, if_true]

end CoupledModels.Json
