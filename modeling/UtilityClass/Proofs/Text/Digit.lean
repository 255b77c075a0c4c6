import UtilityClass.Proofs.Text.Ascii
import UtilityClass.Text.Blank

/-!
# Digits, letters and blanks are apart

Decimal digits are neither letters nor blanks, and letters of ASCII are neither blanks nor digits of
any kind.  The classes are compared by their ranges of codes.
-/

namespace UtilityClass.Text

/-- Whether none of the first ranges meets one of the second ranges. -/
def rangesApart (left right : List (Nat × Nat)) : Bool :=
  left.all fun r => right.all fun s => r.2.blt s.1 || s.2.blt r.1

variable {c : Char}

/-- Ranges that do not meet have no character in common. -/
theorem inRanges_eq_false_of_apart {left right : List (Nat × Nat)}
    (h : rangesApart left right = true) (hc : inRanges left c = true) :
    inRanges right c = false := by
  rw [← Bool.not_eq_true]
  intro hright
  simp only [inRanges, rangesApart, List.any_eq_true, List.all_eq_true, Bool.and_eq_true,
    Bool.or_eq_true, decide_eq_true_eq, Nat.blt_eq] at *
  obtain ⟨r, hr, hlow, hhigh⟩ := hc
  obtain ⟨s, hs, hlow', hhigh'⟩ := hright
  -- a common code would have to be above one of the ranges and not above it
  have hapart := h r hr s hs
  omega

/-! ## The classes as ranges -/

/-- A character is in the first range of a table, or in one of the others. -/
private theorem inRanges_cons (r : Nat × Nat) (ranges : List (Nat × Nat)) :
    inRanges (r :: ranges) c = true ↔
      (r.1 ≤ c.toNat ∧ c.toNat ≤ r.2) ∨ inRanges ranges c = true := by
  simp [inRanges]

/-- The letters of ASCII, as closed ranges of codes. -/
def asciiLetterRanges : List (Nat × Nat) := [(65, 90), (97, 122)]

/-- The letters of ASCII by their ranges. -/
theorem isAsciiLetter_iff_inRanges :
    isAsciiLetter c = true ↔ inRanges asciiLetterRanges c = true := by
  rw [isAsciiLetter_iff, asciiLetterRanges, inRanges_cons, inRanges_cons]
  simp [inRanges]

/-- The decimal digits by their ranges: those of ASCII, and the others. -/
theorem isDecimal_iff_inRanges :
    isDecimal c = true ↔ inRanges ((48, 57) :: decimalRanges) c = true := by
  rw [isDecimal, Bool.or_eq_true, isDigit_iff, inRanges_cons]

/-- The letters by their ranges: those of ASCII, and the others. -/
theorem isLetter_iff_inRanges :
    isLetter c = true ↔ inRanges (asciiLetterRanges ++ letterRanges) c = true := by
  have hascii : c.isAlpha = true ↔ inRanges asciiLetterRanges c = true :=
    isAsciiLetter_iff_inRanges
  rw [isLetter, Bool.or_eq_true, hascii, inRanges, inRanges, inRanges, List.any_append,
    Bool.or_eq_true]

/-! ## Decimal digits -/

/-- A decimal digit is no letter. -/
theorem isLetter_of_isDecimal (h : isDecimal c = true) : isLetter c = false := by
  rw [← Bool.not_eq_true, isLetter_iff_inRanges, Bool.not_eq_true]
  exact inRanges_eq_false_of_apart (by decide +kernel) (isDecimal_iff_inRanges.1 h)

/-- A decimal digit is no blank. -/
theorem isBlank_of_isDecimal (h : isDecimal c = true) : isBlank c = false :=
  inRanges_eq_false_of_apart (by decide +kernel) (isDecimal_iff_inRanges.1 h)

/-- A decimal digit is a letter or a digit. -/
theorem isAlphanumeric_of_isDecimal (h : isDecimal c = true) : isAlphanumeric c = true := by
  rw [isAlphanumeric, isNumeral_of_isDecimal h, Bool.or_true]

/-- A decimal digit is one of the signs of digits. -/
theorem isDigitSign_of_isDecimal (h : isDecimal c = true) : isDigitSign c = true := by
  rw [isDigitSign, h, Bool.true_or]

/-! ## Blanks -/

/-- A letter is no blank. -/
theorem isBlank_of_isLetter (h : isLetter c = true) : isBlank c = false :=
  inRanges_eq_false_of_apart (by decide +kernel) (isLetter_iff_inRanges.1 h)

/-- A numeral is no blank. -/
theorem isBlank_of_isNumeral (h : isNumeral c = true) : isBlank c = false := by
  have hranges : inRanges ((48, 57) :: numeralRanges) c = true := by
    rw [inRanges_cons, ← isDigit_iff, ← Bool.or_eq_true]
    exact h
  exact inRanges_eq_false_of_apart (by decide +kernel) hranges

/-- No blank is a character of a word. -/
theorem isWordChar_of_isBlank (h : isBlank c = true) : isWordChar c = false := by
  rw [← Bool.not_eq_true, isWordChar, isAlphanumeric, Bool.or_eq_true, Bool.or_eq_true,
    beq_iff_eq]
  -- a letter, a numeral or an underscore: the first two by their ranges
  rintro ((hletter | hnumeral) | rfl)
  · rw [isBlank_of_isLetter hletter] at h
    exact Bool.false_ne_true h
  · rw [isBlank_of_isNumeral hnumeral] at h
    exact Bool.false_ne_true h
  · exact absurd h (by decide)

/-! ## Letters of ASCII -/

/-- A letter of ASCII is a letter. -/
theorem isLetter_of_isAsciiLetter (h : isAsciiLetter c = true) : isLetter c = true :=
  isLetter_of_isAlpha h

/-- A letter of ASCII is a character of a word. -/
theorem isWordChar_of_isAsciiLetter (h : isAsciiLetter c = true) : isWordChar c = true := by
  rw [isWordChar, isAlphanumeric, isLetter_of_isAsciiLetter h]
  rfl

/-- A letter of ASCII is no blank. -/
theorem isBlank_of_isAsciiLetter (h : isAsciiLetter c = true) : isBlank c = false :=
  inRanges_eq_false_of_apart (by decide +kernel) (isAsciiLetter_iff_inRanges.1 h)

/-- A letter of ASCII is no sign of a digit. -/
theorem isDigitSign_of_isAsciiLetter (h : isAsciiLetter c = true) : isDigitSign c = false := by
  have hletter := isAsciiLetter_iff_inRanges.1 h
  rw [isDigitSign, Bool.or_eq_false_iff]
  constructor
  · rw [← Bool.not_eq_true, isDecimal_iff_inRanges, Bool.not_eq_true]
    exact inRanges_eq_false_of_apart (by decide +kernel) hletter
  · exact inRanges_eq_false_of_apart (by decide +kernel) hletter

end UtilityClass.Text
