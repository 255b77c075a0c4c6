import UtilityClass.Candidate.Body
import UtilityClass.Property
import UtilityClass.Proofs.Text.Ascii

/-!
# Names that open like a property name

A name of letters, digits, underscores and dashes that opens like a property name is an identifier,
except for a lone dash, two dashes, and a dash in front of a digit.

## Key results

- `isIdentifier_iff_of_opensName`: which of these names are identifiers
- `isDeclaration_iff_of_opensName`: what the full check asks of such a name and a value
-/

namespace UtilityClass.Property

/-- A name with a dash and nothing behind it that could open an identifier. -/
def DashOnly (name : Text) : Prop :=
  name = ['-'] ∨ name = ['-', '-'] ∨
    ∃ digit rest, name = '-' :: digit :: rest ∧ digit.isDigit = true

/-! ## Characters -/

/-- The characters of a name are letters, digits, underscores and dashes. -/
private theorem isNameChar_iff {c : Char} :
    Body.isNameChar c = true ↔
      Text.isAsciiLetter c = true ∨ c.isDigit = true ∨ c = '_' ∨ c = '-' := by
  unfold Body.isNameChar
  rw [Bool.or_eq_true, Bool.or_eq_true, Text.isAsciiAlphanumeric_iff, beq_iff_eq, beq_iff_eq,
    or_assoc, or_assoc]

/-- Each of them may stand in an identifier. -/
theorem isIdentifierChar_of_isNameChar {c : Char} (h : Body.isNameChar c = true) :
    isIdentifierChar c = true := by
  simp only [isIdentifierChar, Text.isWordChar, Text.isAlphanumeric, Bool.or_eq_true, beq_iff_eq]
  rcases isNameChar_iff.1 h with h | h | h | h
  · exact .inl (.inl (.inl (Text.isLetter_of_isAlpha h)))
  · exact .inl (.inl (.inr (Text.isNumeral_of_isDecimal (Text.isDecimal_of_isDigit h))))
  · exact .inl (.inr h)
  · exact .inr h

/-- Of the name characters all but digits and the dash open a plain identifier. -/
private theorem opens_iff_of_isNameChar {c : Char} (h : Body.isNameChar c = true) :
    (Text.isAsciiLetter c || c == '_') = true ↔ c.isDigit = false ∧ c ≠ '-' := by
  rw [Bool.or_eq_true, beq_iff_eq]
  constructor
  · intro hopens
    -- letters and underscores have larger codes than digits and the dash
    have hcode : 65 ≤ c.toNat := by
      rcases hopens with hopens | hopens
      · rw [Text.isAsciiLetter_iff] at hopens
        omega
      · subst hopens
        decide
    refine ⟨?_, ?_⟩
    · rw [Bool.eq_false_iff]
      intro hdigit
      rw [Text.isDigit_iff] at hdigit
      omega
    · intro hdash
      subst hdash
      exact absurd hcode (by decide)
  · intro hc
    obtain ⟨hdigit, hdash⟩ := hc
    rcases isNameChar_iff.1 h with h | h | h | h
    · exact .inl h
    · rw [hdigit] at h
      exact absurd h Bool.false_ne_true
    · exact .inr h
    · exact absurd h hdash

/-! ## Identifiers -/

/-- A name has no line feed at its end. -/
private theorem chomp_of_nameChars {name : Text} (h : ∀ c ∈ name, Body.isNameChar c = true) :
    name.chomp = name := by
  unfold Text.chomp
  rw [if_neg]
  intro hlast
  exact absurd (h '\n' (List.mem_of_getLast? hlast)) (by decide)

/-- All characters of a name may stand in an identifier. -/
private theorem all_isIdentifierChar {name : Text} (h : ∀ c ∈ name, Body.isNameChar c = true) :
    name.all isIdentifierChar = true := by
  rw [List.all_eq_true]
  exact fun c hc => isIdentifierChar_of_isNameChar (h c hc)

/-- A dash alone has no letter behind it: what follows decides. -/
private theorem isIdentifier_dash {rest : Text}
    (h : ∀ c ∈ '-' :: rest, Body.isNameChar c = true) :
    isIdentifier ('-' :: rest) = (isCustomProperty ('-' :: rest) || isPlainIdentifier rest) := by
  have hplain : isPlainIdentifier ('-' :: rest) = false := by
    rw [isPlainIdentifier, show (Text.isAsciiLetter '-' || '-' == '_') = false from by decide,
      Bool.false_and]
  unfold isIdentifier
  rw [chomp_of_nameChars h, hplain, Bool.or_false]
  rfl

/-- Of the names that open like a property name only the dashes without a letter behind them are
    no identifiers. -/
theorem isIdentifier_iff_of_opensName {name : Text} (hopens : opensName name = true)
    (hchars : ∀ c ∈ name, Body.isNameChar c = true) :
    isIdentifier name = true ↔ ¬ DashOnly name := by
  -- by the first character, and behind a dash by the second
  cases name with
  | nil => exact absurd hopens Bool.false_ne_true
  | cons c rest =>
    obtain ⟨hc, hrest⟩ := List.forall_mem_cons.1 hchars
    by_cases hdash : c = '-'
    · subst hdash
      rw [isIdentifier_dash hchars]
      cases rest with
      | nil => exact iff_of_false (by decide) fun h => h (.inl rfl)
      | cons d more =>
        obtain ⟨hd, hmore⟩ := List.forall_mem_cons.1 hrest
        by_cases hdashes : d = '-'
        · -- two dashes open a custom property, which needs one more character
          subst hdashes
          show (!more.isEmpty && more.all isIdentifierChar ||
            ((Text.isAsciiLetter '-' || '-' == '_') && more.all isIdentifierChar)) = true ↔ _
          rw [all_isIdentifierChar hmore]
          simp [DashOnly, show Text.isAsciiLetter '-' = false from by decide]
        · -- one dash: the character behind it opens a plain identifier unless it is a digit
          have hcustom : isCustomProperty ('-' :: d :: more) = false := by
            unfold isCustomProperty
            split
            · next heq =>
              simp only [List.cons.injEq, true_and] at heq
              exact absurd heq.1 hdashes
            · rfl
          rw [hcustom, Bool.false_or]
          show ((Text.isAsciiLetter d || d == '_') && more.all isIdentifierChar) = true ↔ _
          rw [all_isIdentifierChar hmore, Bool.and_true, opens_iff_of_isNameChar hd]
          simp [DashOnly, hdashes]
    · -- a letter or an underscore opens a plain identifier
      have hletter : (Text.isAsciiLetter c || c == '_') = true := by
        simp only [opensName, Bool.or_eq_true, beq_iff_eq] at hopens
        rcases hopens with (h | h) | h
        · have hletter : Text.isAsciiLetter c = true := by
            rw [Text.isAsciiLower_iff] at h
            rw [Text.isAsciiLetter_iff]
            omega
          rw [hletter, Bool.true_or]
        · simp [h]
        · exact absurd h hdash
      have hplain : isPlainIdentifier (c :: rest) = true := by
        rw [isPlainIdentifier, hletter, all_isIdentifierChar hrest, Bool.and_self]
      unfold isIdentifier
      rw [chomp_of_nameChars hchars, hplain, Bool.or_true, Bool.true_or]
      simp [DashOnly, hdash]

/-! ## Declarations -/

/-- The full check asks for an identifier and for a valid value without braces. -/
theorem isDeclaration_iff {name value : Text} :
    isDeclaration name value = true ↔
      isIdentifier name = true ∧ '\x7b' ∉ value ∧ '\x7d' ∉ value ∧ Value.isValid value = true := by
  -- the two braces are the characters that the check looks for
  have hbraces : (!value.any fun c => c == '\x7b' || c == '\x7d') = true ↔
      '\x7b' ∉ value ∧ '\x7d' ∉ value := by
    rw [Bool.not_eq_true', List.any_eq_false]
    constructor
    · intro h
      exact ⟨fun hmem => h _ hmem (by decide), fun hmem => h _ hmem (by decide)⟩
    · intro h c hc hbrace
      simp only [Bool.or_eq_true, beq_iff_eq] at hbrace
      rcases hbrace with hbrace | hbrace
      · exact h.1 (hbrace ▸ hc)
      · exact h.2 (hbrace ▸ hc)
  unfold isDeclaration
  rw [Bool.and_eq_true, Bool.and_eq_true, hbraces, and_assoc, and_assoc]

/-- What the full check asks of a name that opens like a property name, and of its value. -/
theorem isDeclaration_iff_of_opensName {name value : Text} (hopens : opensName name = true)
    (hchars : ∀ c ∈ name, Body.isNameChar c = true) :
    isDeclaration name value = true ↔
      ¬ DashOnly name ∧ '\x7b' ∉ value ∧ '\x7d' ∉ value ∧ Value.isValid value = true := by
  rw [isDeclaration_iff, isIdentifier_iff_of_opensName hopens hchars]

end UtilityClass.Property
