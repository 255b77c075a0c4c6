import UtilityClass.Proofs.Text.Cut
import UtilityClass.Proofs.Text.Digit
import UtilityClass.Proofs.Value.Expression
import UtilityClass.Value.Number

/-!
# The numbers that are read

Each reader of a part of a number takes such a part off the front, and takes all of it where what
follows cannot go on with it.

## Key results

- `afterDigits?_append` / `exists_of_afterDigits?`: what the reader of digits takes
- `exists_of_afterNumber?`: what is taken for a number is a numeral without a unit
- `afterNumber?_eq_some_iff`: where a text cannot go on with a number, the number in front of it is
  a numeral without a unit, and every such numeral is read
- `afterNumber?_concat_blank`: a blank behind a text has no part in the number at its front
- `afterNumber?_chomp`: neither has a final line feed in what is left behind the number
-/

namespace UtilityClass.Value

/-- Whether a text does not begin with a decimal digit. -/
def NoDigit (t : Text) : Prop := ∀ c ∈ t.head?, Text.isDecimal c = false

/-- Whether a text goes on with no part of a number: neither with a digit or a point nor with an
    exponent. -/
def EndsNumber (t : Text) : Prop :=
  (∀ c ∈ t.head?, Text.isDecimal c = false ∧ c ≠ '.') ∧ afterExponent t = t

instance (t : Text) : Decidable (EndsNumber t) :=
  decidable_of_iff
    ((t.head?.all fun c => !Text.isDecimal c && c != '.') = true ∧ afterExponent t = t)
    (by simp [EndsNumber, Option.all_eq_true])

variable {t rest : Text}

/-- A text that goes on with no part of a number begins with no digit. -/
theorem EndsNumber.noDigit (h : EndsNumber t) : NoDigit t := fun c hc => (h.1 c hc).1

/-- Where no digit comes first, none is left out. -/
theorem dropWhile_eq_self_of_noDigit (h : NoDigit t) : t.dropWhile Text.isDecimal = t := by
  cases t with
  | nil => rfl
  | cons c more => exact List.dropWhile_cons_of_neg (by rw [h c rfl]; exact Bool.false_ne_true)

/-! ## Digits -/

/-- Digits are left out up to a text that does not begin with one. -/
theorem dropWhile_append_of_decimal {ds : Text} (hdecimal : ∀ c ∈ ds, Text.isDecimal c = true)
    (hrest : NoDigit rest) : (ds ++ rest).dropWhile Text.isDecimal = rest := by
  rw [List.dropWhile_append_of_pos hdecimal, dropWhile_eq_self_of_noDigit hrest]

/-- What is cut off by leaving out digits is digits. -/
theorem exists_eq_append_dropWhile (t : Text) :
    ∃ ds : Text, (∀ c ∈ ds, Text.isDecimal c = true) ∧ t = ds ++ t.dropWhile Text.isDecimal :=
  ⟨t.takeWhile Text.isDecimal, List.all_eq_true.1 List.all_takeWhile,
    List.takeWhile_append_dropWhile.symm⟩

/-- What is taken off by the reader of digits is digits, at least one. -/
theorem exists_of_afterDigits? (h : afterDigits? t = some rest) :
    ∃ ds : Text, ds ≠ [] ∧ (∀ c ∈ ds, Text.isDecimal c = true) ∧ t = ds ++ rest := by
  cases t with
  | nil => exact nomatch h
  | cons c more =>
    rw [afterDigits?] at h
    split at h
    · next hc =>
      obtain ⟨ds, hdecimal, hmore⟩ := exists_eq_append_dropWhile more
      refine ⟨c :: ds, List.cons_ne_nil c ds, List.forall_mem_cons.2 ⟨hc, hdecimal⟩, ?_⟩
      rw [List.cons_append, ← Option.some.inj h, ← hmore]
    · exact nomatch h

/-- Digits are read up to a text that does not begin with one. -/
theorem afterDigits?_append {ds : Text} (hne : ds ≠ [])
    (hdecimal : ∀ c ∈ ds, Text.isDecimal c = true) (hrest : NoDigit rest) :
    afterDigits? (ds ++ rest) = some rest := by
  cases ds with
  | nil => exact absurd rfl hne
  | cons c more =>
    obtain ⟨hc, hmore⟩ := List.forall_mem_cons.1 hdecimal
    rw [List.cons_append, afterDigits?, if_pos hc, dropWhile_append_of_decimal hmore hrest]

/-- Where no digit comes first, the reader of digits takes nothing. -/
theorem afterDigits?_eq_none (h : NoDigit t) : afterDigits? t = none := by
  cases t with
  | nil => rfl
  | cons c more => rw [afterDigits?, h c rfl, if_neg Bool.false_ne_true]

/-! ## Signs -/

/-- What is taken for a sign is one; where there is none, nothing is taken. -/
theorem exists_eq_append_afterSign (t : Text) :
    ∃ sign : Option Sign, t = (sign.map Sign.char).toList ++ afterSign t := by
  cases t with
  | nil => exact ⟨none, rfl⟩
  | cons c more =>
    rw [afterSign]
    split
    · next hc =>
      rcases hc with rfl | rfl
      · exact ⟨some .plus, rfl⟩
      · exact ⟨some .minus, rfl⟩
    · exact ⟨none, rfl⟩

/-- A sign is read, and one only. -/
theorem afterSign_append (sign : Option Sign) (h : ∀ c ∈ t.head?, c ≠ '+' ∧ c ≠ '-') :
    afterSign ((sign.map Sign.char).toList ++ t) = t := by
  cases sign with
  | none =>
    cases t with
    | nil => rfl
    | cons c more =>
      obtain ⟨hplus, hminus⟩ := h c rfl
      exact if_neg (not_or.2 ⟨hplus, hminus⟩)
  | some sign => cases sign <;> rfl

/-! ## Exponents -/

/-- What is taken for an exponent is one; where there is none, nothing is taken. -/
theorem exists_eq_append_afterExponent (t : Text) :
    ∃ exponent : Option Exponent, t = exponent.elim [] (Exponent.text []) ++ afterExponent t := by
  cases t with
  | nil => exact ⟨none, rfl⟩
  | cons c more =>
    rw [afterExponent]
    split
    · next hmark =>
      -- without a digit behind the mark the reader takes nothing back, not even the mark
      cases hdigits : afterDigits? (afterSign more) with
      | none => exact ⟨none, rfl⟩
      | some rest =>
        obtain ⟨sign, hsign⟩ := exists_eq_append_afterSign more
        obtain ⟨ds, hne, hdecimal, hds⟩ := exists_of_afterDigits? hdigits
        refine ⟨some ⟨c, sign, ds, hmark, hne, hdecimal⟩, ?_⟩
        rw [Option.elim_some, Exponent.text, Option.getD_some, hsign, hds]
        cases sign <;> simp
    · exact ⟨none, rfl⟩

/-- An exponent does not go on with the digits or the point in front of it. -/
theorem head?_exponent_append (exponent : Option Exponent) (hrest : EndsNumber rest) :
    ∀ c ∈ (exponent.elim [] (Exponent.text []) ++ rest).head?,
      Text.isDecimal c = false ∧ c ≠ '.' := by
  cases exponent with
  | none => exact hrest.1
  | some x =>
    intro c hc
    obtain rfl : x.mark = c := Option.some.inj hc
    rcases x.mark_eq with hmark | hmark <;> rw [hmark] <;> decide

/-- An exponent is read up to a text that cannot go on with it. -/
theorem afterExponent_append (exponent : Option Exponent) (hrest : EndsNumber rest) :
    afterExponent (exponent.elim [] (Exponent.text []) ++ rest) = rest := by
  cases exponent with
  | none => exact hrest.2
  | some x =>
    -- a mark, an optional sign and digits, in the order in which they are read
    have hsigned : x.text [] ++ rest =
        x.mark :: ((x.sign.map Sign.char).toList ++ (x.digits ++ rest)) := by
      rw [Exponent.text, List.cons_append, List.cons_append, List.append_assoc]
      cases x.sign <;> rfl
    have hunsigned : ∀ c ∈ (x.digits ++ rest).head?, c ≠ '+' ∧ c ≠ '-' := by
      intro c hc
      rw [List.head?_append_of_ne_nil _ x.digits_ne_nil] at hc
      have hdecimal := x.digits_decimal c (List.mem_of_mem_head? hc)
      constructor <;> (rintro rfl; exact absurd hdecimal (by decide))
    rw [Option.elim_some, hsigned, afterExponent, if_pos x.mark_eq, afterSign_append _ hunsigned,
      afterDigits?_append x.digits_ne_nil x.digits_decimal hrest.noDigit, Option.getD_some]

/-! ## Digits with a point -/

/-- What is taken for a point with digits is one; where there is no point, nothing is taken. -/
theorem exists_eq_append_afterFraction (t : Text) :
    ∃ fraction : Option Text, (∀ ds ∈ fraction, ∀ c ∈ ds, Text.isDecimal c = true) ∧
      t = (fraction.elim [] fun ds => '.' :: ds) ++ afterFraction t := by
  cases t with
  | nil => exact ⟨none, by rintro _ ⟨⟩, rfl⟩
  | cons c more =>
    rw [afterFraction]
    split
    · next hpoint =>
      obtain ⟨ds, hdecimal, hmore⟩ := exists_eq_append_dropWhile more
      refine ⟨some ds, ?_, ?_⟩
      · rintro ds' ⟨⟩
        exact hdecimal
      · rw [Option.elim_some, hpoint, List.cons_append, ← hmore]
    · exact ⟨none, by rintro _ ⟨⟩, rfl⟩

/-- What is read as digits with an optional point, or as a point with digits. -/
theorem exists_of_afterUnsigned (h : (afterDecimal? t).or (afterPointDigits? t) = some rest) :
    ∃ (whole : Text) (fraction : Option Text), (∀ c ∈ whole, Text.isDecimal c = true) ∧
      (∀ ds ∈ fraction, ∀ c ∈ ds, Text.isDecimal c = true) ∧
      (whole ≠ [] ∨ ∃ ds ∈ fraction, ds ≠ []) ∧
      t = whole ++ (fraction.elim [] fun ds => '.' :: ds) ++ rest := by
  rw [afterDecimal?] at h
  -- the second reader is asked only where the first finds no digit
  cases hwhole : afterDigits? t with
  | some behind =>
    rw [hwhole] at h
    obtain rfl : afterFraction behind = rest := Option.some.inj h
    obtain ⟨whole, hne, hdecimal, rfl⟩ := exists_of_afterDigits? hwhole
    obtain ⟨fraction, hfraction, hbehind⟩ := exists_eq_append_afterFraction behind
    refine ⟨whole, fraction, hdecimal, hfraction, .inl hne, ?_⟩
    rw [List.append_assoc, ← hbehind]
  | none =>
    rw [hwhole, Option.map_none, Option.none_or] at h
    -- no digit is in front, so there is a point first, and then at least one digit
    cases t with
    | nil => cases h
    | cons c more =>
      rw [afterPointDigits?] at h
      split at h
      · next hpoint =>
        obtain ⟨ds, hne, hdecimal, rfl⟩ := exists_of_afterDigits? h
        refine ⟨[], some ds, List.forall_mem_nil _, ?_, .inr ⟨ds, rfl, hne⟩, by rw [hpoint]; rfl⟩
        rintro ds' ⟨⟩
        exact hdecimal
      · cases h

/-- The digits of a numeral begin with a digit or a point, so with no sign. -/
theorem Numeral.head?_digits_append (n : Numeral) :
    ∀ c ∈ (n.digits ++ rest).head?, c ≠ '+' ∧ c ≠ '-' := by
  have hdecimal : ∀ {c : Char}, Text.isDecimal c = true → c ≠ '+' ∧ c ≠ '-' := by
    intro c hc
    constructor <;> (rintro rfl; exact absurd hc (by decide))
  intro c hc
  rw [digits] at hc
  cases hwhole : n.whole with
  | nil =>
    obtain ⟨ds, hds, -⟩ := n.has_digit.resolve_left (not_not_intro hwhole)
    rw [hwhole, Option.mem_def.1 hds] at hc
    obtain rfl : '.' = c := Option.some.inj hc
    decide
  | cons d more =>
    rw [hwhole] at hc
    obtain rfl : d = c := Option.some.inj hc
    exact hdecimal (n.whole_decimal d (by rw [hwhole]; exact List.mem_cons_self))

/-- The digits of a numeral are read up to a text that cannot go on with them. -/
theorem Numeral.afterUnsigned_digits (n : Numeral)
    (hrest : ∀ c ∈ rest.head?, Text.isDecimal c = false ∧ c ≠ '.') :
    (afterDecimal? (n.digits ++ rest)).or (afterPointDigits? (n.digits ++ rest)) = some rest := by
  have hend : NoDigit rest := fun c hc => (hrest c hc).1
  have hpoint : NoDigit ((n.fraction.elim [] fun ds => '.' :: ds) ++ rest) := by
    cases n.fraction with
    | none => exact hend
    | some ds => rintro c ⟨⟩; decide
  -- behind the point all digits belong to the fraction, and without a point there is none
  have hfraction : afterFraction ((n.fraction.elim [] fun ds => '.' :: ds) ++ rest) = rest := by
    cases hdigits : n.fraction with
    | none =>
      cases rest with
      | nil => rfl
      | cons c more => exact if_neg (hrest c rfl).2
    | some ds =>
      exact dropWhile_append_of_decimal (n.fraction_decimal ds hdigits) hend
  rw [digits, List.append_assoc]
  -- the first reader needs a digit in front of the point; a numeral without one has one behind it
  by_cases hwhole : n.whole = []
  · obtain ⟨ds, hds, hne⟩ := n.has_digit.resolve_left (not_not_intro hwhole)
    have hread := afterDigits?_append hne (n.fraction_decimal ds hds) hend
    rw [hwhole, List.nil_append, afterDecimal?, afterDigits?_eq_none hpoint, Option.map_none,
      Option.none_or, Option.mem_def.1 hds]
    exact hread
  · rw [afterDecimal?, afterDigits?_append hwhole n.whole_decimal hpoint, Option.map_some,
      hfraction, Option.some_or]

/-! ## Numbers -/

/-- What is taken for a number is a numeral without a unit. -/
theorem exists_of_afterNumber? (h : afterNumber? t = some rest) :
    ∃ n : Numeral, n.measure = .plain ∧ t = n.text [] ++ rest := by
  unfold afterNumber? at h
  -- each reader has taken the part that is named for it
  obtain ⟨behind, hbehind, rfl⟩ := Option.map_eq_some_iff.1 h
  obtain ⟨sign, hsign⟩ := exists_eq_append_afterSign t
  obtain ⟨whole, fraction, hwhole, hfraction, hdigit, hdigits⟩ := exists_of_afterUnsigned hbehind
  obtain ⟨exponent, hexponent⟩ := exists_eq_append_afterExponent behind
  refine ⟨⟨sign, whole, fraction, exponent, .plain, hwhole, hfraction, hdigit⟩, rfl, ?_⟩
  conv => lhs; rw [hsign, hdigits, hexponent]
  simp [Numeral.text, Numeral.digits, Measure.text]

/-- A numeral without a unit is read up to a text that cannot go on with it. -/
theorem Numeral.afterNumber?_text_append (n : Numeral) (hplain : n.measure = .plain)
    (hrest : EndsNumber rest) : afterNumber? (n.text [] ++ rest) = some rest := by
  have hsigned : n.text [] ++ rest = (n.sign.map Sign.char).toList ++
      (n.digits ++ (n.exponent.elim [] (Exponent.text []) ++ rest)) := by
    rw [Numeral.text, hplain]
    simp [Measure.text]
  -- each reader stops where the part begins that is not its own
  rw [afterNumber?, hsigned, afterSign_append _ n.head?_digits_append,
    n.afterUnsigned_digits (head?_exponent_append n.exponent hrest), Option.map_some,
    afterExponent_append n.exponent hrest]

/-- In front of a text that cannot go on with a number, the numerals without a unit are read. -/
theorem afterNumber?_eq_some_iff (hrest : EndsNumber rest) :
    afterNumber? t = some rest ↔ ∃ n : Numeral, n.measure = .plain ∧ t = n.text [] ++ rest := by
  constructor
  · exact exists_of_afterNumber?
  · intro h
    obtain ⟨n, hplain, rfl⟩ := h
    exact n.afterNumber?_text_append hplain hrest

/-- No number begins with a letter. -/
theorem afterNumber?_cons_of_letter {c : Char} (hc : Text.isAsciiLetter c = true) (t : Text) :
    afterNumber? (c :: t) = none := by
  -- a letter is none of the characters that a number can begin with
  have hdecimal : Text.isDecimal c = false := by
    rw [← Bool.not_eq_true]
    intro hdecimal
    exact absurd (Text.isLetter_of_isAsciiLetter hc)
      (by rw [Text.isLetter_of_isDecimal hdecimal]; exact Bool.false_ne_true)
  have hsign : ¬ (c = '+' ∨ c = '-') := by
    rintro (rfl | rfl) <;> exact absurd hc (by decide)
  have hpoint : c ≠ '.' := by
    rintro rfl
    exact absurd hc (by decide)
  rw [afterNumber?, afterSign, if_neg hsign, afterDecimal?, afterDigits?, hdecimal,
    afterPointDigits?, if_neg Bool.false_ne_true, if_neg hpoint]
  rfl

/-! ## Blanks -/

variable {b : Char}

/-- A blank goes on with no part of a number. -/
theorem ne_of_isBlank (hb : Text.isBlank b = true) :
    Text.isDecimal b = false ∧ b ≠ '+' ∧ b ≠ '-' ∧ b ≠ '.' ∧ b ≠ 'e' ∧ b ≠ 'E' := by
  refine ⟨?_, ?_, ?_, ?_, ?_, ?_⟩
  · rw [← Bool.not_eq_true]
    intro hdecimal
    rw [Text.isBlank_of_isDecimal hdecimal] at hb
    exact Bool.false_ne_true hb
  all_goals
    rintro rfl
    exact absurd hb (by decide)

/-- A blank at the end is behind all digits at the front. -/
theorem dropWhile_concat_blank (hb : Text.isBlank b = true) (t : Text) :
    (t ++ [b]).dropWhile Text.isDecimal = t.dropWhile Text.isDecimal ++ [b] := by
  rw [List.dropWhile_append]
  -- it makes a difference only where all characters are digits, and then it is what is left
  split
  · next hempty =>
    rw [List.isEmpty_iff.1 hempty, List.dropWhile_cons_of_neg (by simp [(ne_of_isBlank hb).1])]
    rfl
  · rfl

/-- A blank behind a text has no part in the digits at its front. -/
theorem afterDigits?_concat_blank (hb : Text.isBlank b = true) (t : Text) :
    afterDigits? (t ++ [b]) = (afterDigits? t).map (· ++ [b]) := by
  cases t with
  | nil => simp [afterDigits?, (ne_of_isBlank hb).1]
  | cons c more =>
    rw [List.cons_append, afterDigits?, afterDigits?, dropWhile_concat_blank hb]
    split <;> rfl

/-- A blank behind a text has no part in the sign at its front. -/
theorem afterSign_concat_blank (hb : Text.isBlank b = true) (t : Text) :
    afterSign (t ++ [b]) = afterSign t ++ [b] := by
  obtain ⟨-, hplus, hminus, -⟩ := ne_of_isBlank hb
  cases t with
  | nil => simp [afterSign, hplus, hminus]
  | cons c more =>
    rw [List.cons_append, afterSign, afterSign]
    split <;> rfl

/-- A blank behind a text has no part in the point and the digits at its front. -/
theorem afterFraction_concat_blank (hb : Text.isBlank b = true) (t : Text) :
    afterFraction (t ++ [b]) = afterFraction t ++ [b] := by
  obtain ⟨-, -, -, hpoint, -⟩ := ne_of_isBlank hb
  cases t with
  | nil => simp [afterFraction, hpoint]
  | cons c more =>
    rw [List.cons_append, afterFraction, afterFraction, dropWhile_concat_blank hb]
    split <;> rfl

/-- A blank behind a text has no part in the exponent at its front. -/
theorem afterExponent_concat_blank (hb : Text.isBlank b = true) (t : Text) :
    afterExponent (t ++ [b]) = afterExponent t ++ [b] := by
  obtain ⟨-, -, -, -, hlower, hupper⟩ := ne_of_isBlank hb
  cases t with
  | nil => simp [afterExponent, hlower, hupper]
  | cons c more =>
    rw [List.cons_append, afterExponent, afterExponent, afterSign_concat_blank hb,
      afterDigits?_concat_blank hb]
    split
    · cases afterDigits? (afterSign more) <;> rfl
    · rfl

/-- A blank behind a text has no part in the number at its front. -/
theorem afterNumber?_concat_blank (hb : Text.isBlank b = true) (t : Text) :
    afterNumber? (t ++ [b]) = (afterNumber? t).map (· ++ [b]) := by
  have hpoint (u : Text) :
      afterPointDigits? (u ++ [b]) = (afterPointDigits? u).map (· ++ [b]) := by
    cases u with
    | nil => simp [afterPointDigits?, (ne_of_isBlank hb).2.2.2.1]
    | cons c more =>
      rw [List.cons_append, afterPointDigits?, afterPointDigits?, afterDigits?_concat_blank hb]
      split <;> rfl
  -- each reader leaves the blank behind what it takes, so they all do one after the other
  have hdecimal (u : Text) : afterDecimal? (u ++ [b]) = (afterDecimal? u).map (· ++ [b]) := by
    rw [afterDecimal?, afterDecimal?, afterDigits?_concat_blank hb]
    cases afterDigits? u with
    | none => rfl
    | some behind => simp [afterFraction_concat_blank hb]
  rw [afterNumber?, afterNumber?, afterSign_concat_blank hb, hdecimal, hpoint, ← Option.map_or]
  cases (afterDecimal? (afterSign t)).or (afterPointDigits? (afterSign t)) with
  | none => rfl
  | some behind => simp [afterExponent_concat_blank hb]

/-- Whether a final line feed is left off before a number is read or behind it is all the same. -/
theorem afterNumber?_chomp (t : Text) : (afterNumber? t).map Text.chomp = afterNumber? t.chomp := by
  -- a final line feed is a blank, and behind any other text there is none to leave off
  rcases Text.eq_chomp_or t with h | ⟨hlast, h⟩
  · rw [h, afterNumber?_concat_blank (by decide), Option.map_map, Text.chomp_concat]
    have hid : (Text.chomp ∘ fun rest => rest ++ ['\n']) = id := funext Text.chomp_concat
    rw [hid, Option.map_id_fun, id]
  · rw [h]
    cases hrest : afterNumber? t with
    | none => rfl
    | some rest =>
      -- what is left ends as the text does
      obtain ⟨n, -, ht⟩ := exists_of_afterNumber? hrest
      have hend : rest.getLast? ≠ some '\n' := by
        intro hfeed
        obtain ⟨front, rfl⟩ := List.getLast?_eq_some_iff.1 hfeed
        exact hlast (by simp [ht])
      rw [Option.map_some, Text.chomp_of_getLast?_ne hend]

/-- No blank is in a numeral without a unit. -/
theorem Numeral.nonblank (n : Numeral) (hplain : n.measure = .plain) :
    ∀ c ∈ n.text [], Text.isBlank c = false := by
  have hsign (sign : Option Sign) : ∀ c ∈ (sign.map Sign.char).toList, Text.isBlank c = false := by
    cases sign with
    | none => exact List.forall_mem_nil _
    | some s => cases s <;> simp [Sign.char] <;> decide
  have hdecimals {ds : Text} (h : ∀ c ∈ ds, Text.isDecimal c = true) :
      ∀ c ∈ ds, Text.isBlank c = false := fun c hc => Text.isBlank_of_isDecimal (h c hc)
  have hfraction : ∀ c ∈ n.fraction.elim [] (fun ds => '.' :: ds), Text.isBlank c = false := by
    cases hds : n.fraction with
    | none => exact List.forall_mem_nil _
    | some ds =>
      exact List.forall_mem_cons.2 ⟨by decide, hdecimals (n.fraction_decimal ds hds)⟩
  have hexponent : ∀ c ∈ n.exponent.elim [] (Exponent.text []), Text.isBlank c = false := by
    cases n.exponent with
    | none => exact List.forall_mem_nil _
    | some x =>
      have hmark : Text.isBlank x.mark = false := by
        rcases x.mark_eq with hmark | hmark <;> rw [hmark] <;> decide
      have hsigned : ∀ c ∈ x.sign.elim [] (fun sign => [] ++ sign.char :: []),
          Text.isBlank c = false := by
        cases x.sign with
        | none => exact List.forall_mem_nil _
        | some s => cases s <;> simp [Sign.char] <;> decide
      rw [Option.elim_some, Exponent.text]
      exact List.forall_mem_append.2
        ⟨List.forall_mem_cons.2 ⟨hmark, hsigned⟩, hdecimals x.digits_decimal⟩
  -- part by part, as the text of a numeral is put together
  rw [text, digits, hplain]
  simp only [List.forall_mem_append]
  exact ⟨⟨⟨hsign n.sign, hdecimals n.whole_decimal, hfraction⟩, hexponent⟩, List.forall_mem_nil _⟩

end UtilityClass.Value
