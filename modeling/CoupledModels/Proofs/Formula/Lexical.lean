import CoupledModels.Proofs.Formula.Grammar
import CoupledModels.Proofs.Text.Runs

/-!
# Reading tokens

What the scanners of blanks, names and numerals have read is a text of its token, and they read the
whole text of a token if what follows cannot continue it.
-/

namespace CoupledModels.Formula

/-! ## Blanks -/

theorem skipSpace_append {blanks rest : List Char} (h : Blank blanks) (hrest : Stops isSpace rest) :
    skipSpace (blanks ++ rest) = rest :=
  dropWhile_append_stops h hrest

theorem exists_skipSpace (cs : List Char) : ∃ blanks, Blank blanks ∧ cs = blanks ++ skipSpace cs :=
  ⟨cs.takeWhile isSpace, fun _ hc => mem_takeWhile hc, List.takeWhile_append_dropWhile.symm⟩

/-! ## Digits -/

theorem takeDigits_append {ds rest : List Char} (hds : ∀ c ∈ ds, isDigit c = true)
    (hrest : Stops isDigit rest) : takeDigits (ds ++ rest) = (ds, rest) := by
  rw [takeDigits, takeWhile_append_stops hds hrest, dropWhile_append_stops hds hrest]

theorem takeDigits_eq {cs ds rest : List Char} (h : takeDigits cs = (ds, rest)) :
    (∀ c ∈ ds, isDigit c = true) ∧ cs = ds ++ rest := by
  obtain ⟨rfl, rfl⟩ := Prod.mk.inj h
  exact ⟨fun _ hc => mem_takeWhile hc, List.takeWhile_append_dropWhile.symm⟩

theorem stops_isDigit {ds : List Char} (rest : List Char) {p : Char → Bool} (hne : ds ≠ [])
    (hds : ∀ c ∈ ds, isDigit c = true) (hp : ∀ c, isDigit c = true → p c = false) :
    Stops p (ds ++ rest) := by
  cases ds with
  | nil => exact absurd rfl hne
  | cons d ds => exact stops_cons (hp d (hds d List.mem_cons_self))

/-! ## Signs -/

/-- A character that the digits of a numeral may go on with. -/
def continuesMantissa (c : Char) : Bool :=
  isDigit c || c == '.'

/-- One of the characters that signs are written with. -/
def isSign (c : Char) : Bool :=
  c == '+' || c == '-'

theorem isSign_eq_false_of_continuesMantissa {c : Char} (h : continuesMantissa c = true) :
    isSign c = false := by
  cases hsign : isSign c with
  | false => rfl
  | true =>
      have hc : c = '+' ∨ c = '-' := by simpa [isSign] using hsign
      rcases hc with rfl | rfl
      · exact absurd h (by decide)
      · exact absurd h (by decide)

theorem takeSign_of_stops {cs : List Char} (h : Stops isSign cs) : takeSign cs = (false, cs) := by
  unfold takeSign
  split
  · exact absurd h.head (by decide)
  · exact absurd h.head (by decide)
  · rfl

theorem takeSign_append (sign : Option Bool) {rest : List Char} (h : Stops isSign rest) :
    takeSign (signText sign ++ rest) = (sign == some true, rest) := by
  match sign with
  | some true => rfl
  | some false => rfl
  | none => exact takeSign_of_stops h

theorem takeSign_eq {cs rest : List Char} {negative : Bool} (h : takeSign cs = (negative, rest)) :
    ∃ sign, negative = (sign == some true) ∧ cs = signText sign ++ rest := by
  unfold takeSign at h
  split at h
  · cases h
    exact ⟨some false, rfl, rfl⟩
  · cases h
    exact ⟨some true, rfl, rfl⟩
  · cases h
    exact ⟨none, rfl, rfl⟩

/-! ## Mantissas -/

theorem readMantissa_some {cs ds fs rest : List Char}
    (h : readMantissa cs = some ((ds, fs), rest)) :
    ∃ fraction : Option (List Char), fraction.getD [] = fs ∧ (∀ c ∈ ds, isDigit c = true) ∧
      (∀ c ∈ fs, isDigit c = true) ∧ ds ++ fs ≠ [] ∧
      cs = ds ++ (NumberText.fractionText fraction ++ rest) := by
  unfold readMantissa at h
  -- digits may be missing on one side of the point, but not on both
  split at h
  · rename_i tail hfirst
    obtain ⟨-, rfl⟩ := takeDigits_eq hfirst
    split at h
    · cases h
    · rename_i hne hsecond
      cases h
      obtain ⟨hfs, rfl⟩ := takeDigits_eq hsecond
      exact ⟨some fs, rfl, by simp, hfs, fun hnil => hne hnil, rfl⟩
  · cases h
  · rename_i tail hne hfirst
    cases h
    obtain ⟨hds, rfl⟩ := takeDigits_eq hfirst
    obtain ⟨htail, heq⟩ : (∀ c ∈ (takeDigits tail).1, isDigit c = true) ∧
        tail = (takeDigits tail).1 ++ (takeDigits tail).2 := takeDigits_eq rfl
    refine ⟨some (takeDigits tail).1, rfl, hds, htail, fun hnil => ?_, ?_⟩
    · exact hne (List.append_eq_nil_iff.1 hnil).1
    · exact congrArg (fun tail => ds ++ '.' :: tail) heq
  · rename_i hne hpoint hfirst
    cases h
    obtain ⟨hds, rfl⟩ := takeDigits_eq hfirst
    refine ⟨none, rfl, hds, by simp, ?_, rfl⟩
    simpa using hne

/-- A mantissa starts with a digit or the point. -/
theorem stops_mantissa {whole : List Char} {fraction : Option (List Char)} (rest : List Char)
    {p : Char → Bool} (hwhole : ∀ c ∈ whole, isDigit c = true)
    (hne : whole ++ fraction.getD [] ≠ []) (hp : ∀ c, continuesMantissa c = true → p c = false) :
    Stops p (whole ++ (NumberText.fractionText fraction ++ rest)) := by
  cases whole with
  | cons d ds =>
      have hd : isDigit d = true := hwhole d List.mem_cons_self
      exact stops_cons (hp d (by simp [continuesMantissa, hd]))
  | nil =>
      cases fraction with
      | none => exact absurd rfl hne
      | some fs => exact stops_cons (hp '.' (by decide))

theorem readMantissa_append {whole : List Char} {fraction : Option (List Char)} {rest : List Char}
    (hwhole : ∀ c ∈ whole, isDigit c = true) (hfraction : ∀ c ∈ fraction.getD [], isDigit c = true)
    (hne : whole ++ fraction.getD [] ≠ []) (hrest : Stops continuesMantissa rest) :
    readMantissa (whole ++ (NumberText.fractionText fraction ++ rest)) =
      some ((whole, fraction.getD []), rest) := by
  have hdigit : Stops isDigit rest := hrest.imp (by simp +contextual [continuesMantissa])
  unfold readMantissa
  cases fraction with
  | none =>
      have hwhole_ne : whole ≠ [] := by simpa using hne
      -- Without a point of its own the numeral must not run into one behind it.
      have hpoint : ∀ tail, rest ≠ '.' :: tail := by
        rintro tail rfl
        exact absurd hrest.head (by decide)
      rw [NumberText.fractionText, List.nil_append, takeDigits_append hwhole hdigit]
      split
      · rename_i heq
        exact absurd (Prod.mk.inj heq).1 hwhole_ne
      · rename_i heq
        exact absurd (Prod.mk.inj heq).1 hwhole_ne
      · rename_i heq
        exact absurd (Prod.mk.inj heq).2 (hpoint _)
      · rename_i heq
        obtain ⟨rfl, rfl⟩ := Prod.mk.inj heq
        rfl
  | some fs =>
      have hstop : Stops isDigit ('.' :: (fs ++ rest)) := stops_cons (by decide)
      rw [NumberText.fractionText, List.cons_append, takeDigits_append hwhole hstop]
      have hfs : takeDigits (fs ++ rest) = (fs, rest) := takeDigits_append hfraction hdigit
      cases whole with
      | nil =>
          have hfs_ne : fs ≠ [] := by simpa using hne
          simp [hfs]
      | cons d ds => simp [hfs]

theorem readMantissa_none {cs : List Char} (h : Stops continuesMantissa cs) :
    readMantissa cs = none := by
  have hdigit : Stops isDigit cs := h.imp (by simp +contextual [continuesMantissa])
  have htake : takeDigits ([] ++ cs) = ([], cs) := takeDigits_append (by simp) hdigit
  rw [List.nil_append] at htake
  cases cs with
  | nil => rfl
  | cons c cs =>
      have hc : c ≠ '.' := by
        rintro rfl
        exact absurd h.head (by decide)
      simp [readMantissa, htake, hc]

/-! ## Exponents -/

/-- A character that a numeral may go on with. -/
def continuesNumber (c : Char) : Bool :=
  continuesMantissa c || c == 'e' || c == 'E'

theorem readExponent_done {cs rest : List Char} {e : Int} (h : readExponent cs = .done e rest) :
    ∃ exponent : Option ExponentText, NumberText.exponentValue exponent = e ∧
      cs = NumberText.exponentText exponent ++ rest := by
  unfold readExponent at h
  split at h
  · rename_i letter tail
    split at h
    · rename_i hletter
      split at h
      rename_i negative body hsign
      obtain ⟨sign, rfl, rfl⟩ := takeSign_eq hsign
      split at h
      · cases h
      · rename_i ds tail hne htake
        cases h
        obtain ⟨hds, rfl⟩ := takeDigits_eq htake
        have hds_ne : ds ≠ [] := fun hnil => hne hnil
        refine ⟨some ⟨letter, sign, ds, by simpa using hletter, hds_ne, hds⟩, ?_, ?_⟩
        · simp [NumberText.exponentValue, ExponentText.value]
        · simp [NumberText.exponentText, ExponentText.text]
    · cases h
      exact ⟨none, rfl, rfl⟩
  · cases h
    exact ⟨none, rfl, rfl⟩

theorem readExponent_append (exponent : Option ExponentText) {rest : List Char}
    (hrest : Stops continuesNumber rest) :
    readExponent (NumberText.exponentText exponent ++ rest) =
      .done (NumberText.exponentValue exponent) rest := by
  cases exponent with
  | none =>
      cases rest with
      | nil => rfl
      | cons c rest =>
          have hc : (c == 'e' || c == 'E') = false := by
            have := hrest.head
            simp_all [continuesNumber]
          simp [NumberText.exponentText, NumberText.exponentValue, readExponent, hc]
  | some e =>
      obtain ⟨letter, sign, digits, hletter, hne, hdigits⟩ := e
      have hdigit : Stops isDigit rest :=
        hrest.imp (by simp +contextual [continuesNumber, continuesMantissa])
      have htake : takeDigits (digits ++ rest) = (digits, rest) := takeDigits_append hdigits hdigit
      have hsign : takeSign (signText sign ++ (digits ++ rest)) = (sign == some true, digits ++ rest) :=
        takeSign_append sign (stops_isDigit rest hne hdigits fun _ hc => isSign_eq_false_of_continuesMantissa (by simp [continuesMantissa, hc]))
      have hletter' : (letter == 'e' || letter == 'E') = true := by simpa using hletter
      simp [NumberText.exponentText, NumberText.exponentValue, ExponentText.text, readExponent,
        ExponentText.value, hletter', hsign, htake]

theorem stops_exponentText (exponent : Option ExponentText) {rest : List Char}
    (hrest : Stops continuesNumber rest) :
    Stops continuesMantissa (NumberText.exponentText exponent ++ rest) := by
  cases exponent with
  | none => exact hrest.imp (by simp +contextual [continuesNumber])
  | some e =>
      rcases e.letter_eq with h | h
      · exact stops_cons (by rw [h]; decide)
      · exact stops_cons (by rw [h]; decide)

/-! ## Numerals -/

theorem readNumeral_done {cs rest : List Char} {d : Decimal} (hcs : Stops (· == '-') cs)
    (h : readNumeral cs = .done d rest) : ∃ n : NumberText, n.value = d ∧ cs = n.text ++ rest := by
  unfold readNumeral at h
  split at h
  rename_i negative body hsign
  obtain ⟨sign, rfl, rfl⟩ := takeSign_eq hsign
  split at h
  · cases h
  · rename_i ds fs tail hmantissa
    obtain ⟨fraction, rfl, hds, hfs, hne, rfl⟩ := readMantissa_some hmantissa
    split at h
    · rename_i e tail' hexponent
      obtain ⟨exponent, rfl, rfl⟩ := readExponent_done hexponent
      cases h
      -- A minus sign is an operator and never part of a numeral.
      have hsign : sign = none ∨ sign = some false := by
        match sign with
        | some true => exact absurd hcs.head (by decide)
        | some false => exact .inr rfl
        | none => exact .inl rfl
      refine ⟨⟨sign == some false, ds, fraction, exponent, hds, hfs, hne⟩, ?_, ?_⟩
      · rcases hsign with rfl | rfl <;> rfl
      · rcases hsign with rfl | rfl <;> simp [NumberText.text, signText]
    · cases h
    · cases h

/-- The reader of numerals takes the whole of one if nothing behind it could belong to it. -/
theorem readNumeral_append (n : NumberText) {rest : List Char}
    (hrest : Stops continuesNumber rest) : readNumeral (n.text ++ rest) = .done n.value rest := by
  obtain ⟨plus, whole, fraction, exponent, hwhole, hfraction, hne⟩ := n
  have hexponent := readExponent_append exponent hrest
  have hmantissa := readMantissa_append hwhole hfraction hne (stops_exponentText exponent hrest)
  have hstart := stops_mantissa (NumberText.exponentText exponent ++ rest) hwhole hne
    fun _ => isSign_eq_false_of_continuesMantissa
  -- The sign is taken off first; behind it both kinds of numeral go the same way.
  cases plus with
  | false =>
      have hsign := takeSign_of_stops hstart
      simp [readNumeral, NumberText.text, NumberText.value, hsign, hmantissa, hexponent]
  | true => simp [readNumeral, takeSign, NumberText.text, NumberText.value, hmantissa, hexponent]

/-- No numeral starts with a character that is not a sign, a digit or a point. -/
theorem readNumeral_miss {cs : List Char} (h : Stops (fun c => isSign c || continuesMantissa c) cs) :
    readNumeral cs = .miss cs := by
  have hsign : takeSign cs = (false, cs) := takeSign_of_stops (h.imp (by simp +contextual))
  have hmantissa : readMantissa cs = none := readMantissa_none (h.imp (by simp +contextual))
  simp [readNumeral, hsign, hmantissa]

/-! ## Names -/

theorem isName_takeWhile {c : Char} {cs : List Char} (h : startsName c = true) :
    isName (String.ofList ((c :: cs).takeWhile continuesName)) = true := by
  have hc : continuesName c = true := by simp [continuesName, h]
  rw [isName, String.toList_ofList, List.takeWhile_cons_of_pos hc]
  simp [h]

theorem exists_startsName {id : String} (h : isName id = true) :
    ∃ c cs, id.toList = c :: cs ∧ startsName c = true := by
  rw [isName] at h
  split at h
  · rename_i c cs hid
    simp only [Bool.and_eq_true] at h
    exact ⟨c, cs, hid, h.1⟩
  · cases h

theorem continuesName_of_mem {id : String} {c : Char} (h : isName id = true) (hc : c ∈ id.toList) :
    continuesName c = true := by
  rw [isName] at h
  split at h
  · rename_i d ds hid
    simp only [Bool.and_eq_true, List.all_eq_true] at h
    rw [hid] at hc
    rcases List.mem_cons.1 hc with rfl | hmem
    · simp [continuesName, h.1]
    · exact h.2 c hmem
  · cases h

end CoupledModels.Formula
