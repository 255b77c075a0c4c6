import UtilityClass.Text.Numeral
import UtilityClass.Text.Word

/-!
# Arithmetic expressions

Expressions as they stand inside a math function: numerals with an optional unit, references to
custom properties, groups in parentheses, and the four operators.  `Expression.text` writes an
expression with the same margin on both sides of every operator, the empty one or a space.

`Expression.spacedText` is what spacing operators makes of an expression.  It has three exceptions:
no operator inside of a group has spaces; neither has a `+` or `-` behind a bare point, or between a
unit and a reference; and behind a bare point the sign of an exponent has them.

## Key results

- `Expression.spacedText_eq_iff`: all operators and nothing else get spaces exactly in expressions
  without these exceptions
-/

namespace UtilityClass.Value

/-! ## Numerals -/

/-- The sign of a numeral. -/
inductive Sign where
  | plus
  | minus
  deriving DecidableEq, Repr

/-- A sign as it is written. -/
def Sign.char : Sign → Char
  | plus => '+'
  | minus => '-'

/-- The exponent of a numeral. -/
structure Exponent where
  mark : Char
  sign : Option Sign
  digits : Text
  mark_eq : mark = 'e' ∨ mark = 'E'
  digits_ne_nil : digits ≠ []
  digits_decimal : ∀ c ∈ digits, Text.isDecimal c = true

/-- An exponent with a margin on both sides of its sign. -/
def Exponent.text (margin : Text) (x : Exponent) : Text :=
  x.mark :: (x.sign.elim [] fun sign => margin ++ sign.char :: margin) ++ x.digits

/-- A unit is named by letters.  A lone `e` would be read as the mark of an exponent. -/
structure UnitName where
  text : Text
  ne_nil : text ≠ []
  letters : ∀ c ∈ text, Text.isAsciiLetter c = true
  ne_mark : text ≠ ['e'] ∧ text ≠ ['E']

/-- What a numeral counts. -/
inductive Measure where
  | plain
  | percent
  | unit (name : UnitName)

/-- A percent sign or a unit as it stands behind the digits. -/
def Measure.text : Measure → Text
  | plain => []
  | percent => ['%']
  | unit name => name.text

/-- A numeral with an optional unit: digits of any script, with a point in front of the last, behind
    the first or anywhere between, or without one. -/
structure Numeral where
  sign : Option Sign
  whole : Text
  /-- The digits behind the point, if there is a point. -/
  fraction : Option Text
  exponent : Option Exponent
  measure : Measure
  whole_decimal : ∀ c ∈ whole, Text.isDecimal c = true
  fraction_decimal : ∀ digits ∈ fraction, ∀ c ∈ digits, Text.isDecimal c = true
  has_digit : whole ≠ [] ∨ ∃ digits ∈ fraction, digits ≠ []

namespace Numeral

/-- The digits of a numeral with its point. -/
def digits (n : Numeral) : Text := n.whole ++ n.fraction.elim [] fun digits => '.' :: digits

/-- A numeral with a margin on both sides of the sign of its exponent. -/
def text (margin : Text) (n : Numeral) : Text :=
  (n.sign.map Sign.char).toList ++ n.digits ++ n.exponent.elim [] (Exponent.text margin) ++
    n.measure.text

/-- Whether there is a point and no digit behind it. -/
def hasBarePoint (n : Numeral) : Bool := n.fraction == some []

/-- Whether the numeral ends in its point. -/
def endsInPoint (n : Numeral) : Bool :=
  match n.exponent, n.measure with
  | none, .plain => n.hasBarePoint
  | _, _ => false

/-- Whether the numeral ends in a letter. -/
def endsInLetter (n : Numeral) : Bool :=
  match n.measure with
  | .unit _ => true
  | .plain | .percent => false

/-- Whether the exponent has a sign that looks like an operator, since no digit stands in front. -/
def hasLooseExponent (n : Numeral) : Bool :=
  n.hasBarePoint && n.exponent.any fun x => x.sign.isSome

/-- The numeral as it comes out of spacing operators. -/
def spacedText (n : Numeral) : Text := n.text (if n.hasBarePoint then [' '] else [])

end Numeral

/-! ## Expressions -/

/-- A reference to a custom property. -/
structure Reference where
  name : Text
  no_parentheses : ∀ c ∈ name, c ≠ '(' ∧ c ≠ ')'

/-- A reference as it is written. -/
def Reference.text (r : Reference) : Text := "var(--".toList ++ r.name ++ [')']

/-- The four operators of arithmetic. -/
inductive Operator where
  | plus
  | minus
  | times
  | divide
  deriving DecidableEq, Repr

/-- An operator as it is written. -/
def Operator.char : Operator → Char
  | plus => '+'
  | minus => '-'
  | times => '*'
  | divide => '/'

/-- Whether the operator could be taken for the sign of a numeral. -/
def Operator.isSign : Operator → Bool
  | plus | minus => true
  | times | divide => false

/-- An arithmetic expression; groups are the ones in parentheses. -/
inductive Expression where
  | numeral (n : Numeral)
  | reference (r : Reference)
  | group (inner : Expression)
  | binary (left : Expression) (op : Operator) (right : Expression)

namespace Expression

/-- The expression with a margin on both sides of every operator. -/
def text (margin : Text) : Expression → Text
  | numeral n => n.text []
  | reference r => r.text
  | group inner => '(' :: (inner.text margin ++ [')'])
  | binary left op right => left.text margin ++ (margin ++ op.char :: margin) ++ right.text margin

/-- Whether the text ends in a bare point. -/
def endsInPoint : Expression → Bool
  | numeral n => n.endsInPoint
  | reference _ | group _ => false
  | binary _ _ right => right.endsInPoint

/-- Whether the text ends in a letter. -/
def endsInLetter : Expression → Bool
  | numeral n => n.endsInLetter
  | reference _ | group _ => false
  | binary _ _ right => right.endsInLetter

/-- Whether the text begins with a letter. -/
def opensInLetter : Expression → Bool
  | numeral _ | group _ => false
  | reference _ => true
  | binary left _ _ => left.opensInLetter

/-- Whether the operator between the two is not seen as one. -/
def isHidden (left : Expression) (op : Operator) (right : Expression) : Bool :=
  op.isSign && (left.endsInPoint || left.endsInLetter && right.opensInLetter)

/-- The expression as it comes out of spacing operators. -/
def spacedText : Expression → Text
  | numeral n => n.spacedText
  | reference r => r.text
  | group inner => '(' :: (inner.text [] ++ [')'])
  | binary left op right =>
    let margin := if left.isHidden op right then [] else [' ']
    left.spacedText ++ (margin ++ op.char :: margin) ++ right.spacedText

/-- Whether there is an operator in the expression. -/
def hasOperator : Expression → Bool
  | numeral _ | reference _ => false
  | group inner => inner.hasOperator
  | binary _ _ _ => true

/-- Whether spacing operators puts spaces around all operators of the expression and nothing else:
    there is none inside of a group, none that is not seen, and no sign that looks like one. -/
def isFullySpaced : Expression → Bool
  | numeral n => !n.hasLooseExponent
  | reference _ => true
  | group inner => !inner.hasOperator
  | binary left op right => !left.isHidden op right && left.isFullySpaced && right.isFullySpaced

end Expression

/-! ## Spaces around operators -/

/-- An operator is told from the space in front of it. -/
theorem Operator.char_ne_space (op : Operator) : op.char ≠ ' ' := by
  cases op <;> decide

/-- So is the sign of an exponent. -/
theorem Sign.char_ne_space (sign : Sign) : sign.char ≠ ' ' := by
  cases sign <;> decide

/-- Spaces around the sign of an exponent are seen in the text. -/
theorem Numeral.text_append_inj {n : Numeral} {k k' : Text}
    (h : n.spacedText ++ k = n.text [] ++ k') : n.hasLooseExponent = false ∧ k = k' := by
  rw [spacedText] at h
  -- the numeral is written with spaces only if its point is bare and its exponent has a sign
  cases hbare : n.hasBarePoint with
  | false =>
    rw [hbare, if_neg Bool.false_ne_true] at h
    exact ⟨by rw [hasLooseExponent, hbare]; rfl, List.append_cancel_left h⟩
  | true =>
    rw [hbare, if_pos rfl] at h
    cases hexponent : n.exponent with
    | none =>
      rw [text, text, hexponent] at h
      exact ⟨by rw [hasLooseExponent, hexponent]; simp, List.append_cancel_left h⟩
    | some x =>
      cases hsign : x.sign with
      | none =>
        simp only [text, hexponent, Option.elim_some, Exponent.text, hsign] at h
        refine ⟨?_, List.append_cancel_left h⟩
        simp [hasLooseExponent, hexponent, hsign]
      | some sign =>
        simp only [text, hexponent, Option.elim_some, Exponent.text, hsign, List.append_assoc,
          List.append_cancel_left_eq, List.cons_append, List.nil_append, List.cons.injEq,
          true_and] at h
        exact absurd h.1.symm sign.char_ne_space

/-- A numeral comes out of spacing as it is unless it has a loose exponent. -/
theorem Numeral.spacedText_of_not_loose {n : Numeral} (h : n.hasLooseExponent = false) :
    n.spacedText = n.text [] := by
  rw [spacedText]
  cases hbare : n.hasBarePoint with
  | false => rw [if_neg Bool.false_ne_true]
  | true =>
    rw [if_pos rfl, text, text]
    cases hexponent : n.exponent with
    | none => rfl
    | some x =>
      have hsign : x.sign = none := by simpa [hasLooseExponent, hbare, hexponent] using h
      simp only [Option.elim_some, Exponent.text, hsign, Option.elim_none]

namespace Expression

/-- Spaces around operators are seen in the text. -/
theorem text_append_inj {e : Expression} {k k' : Text} (h : e.text [] ++ k = e.text [' '] ++ k') :
    e.hasOperator = false ∧ k = k' := by
  -- both texts are read from the left; the first operator with spaces on one side parts them
  induction e generalizing k k' with
  | numeral n => exact ⟨rfl, List.append_cancel_left h⟩
  | reference r => exact ⟨rfl, List.append_cancel_left h⟩
  | group inner ih =>
    simp only [text, List.cons_append, List.append_assoc, List.cons.injEq, true_and] at h
    obtain ⟨hinner, hk⟩ := ih h
    exact ⟨hinner, (List.cons.inj hk).2⟩
  | binary left op right ihl ihr =>
    simp only [text, List.append_assoc, List.cons_append, List.nil_append] at h
    obtain ⟨-, hop⟩ := ihl h
    exact absurd (List.cons.inj hop).1 op.char_ne_space

/-- Without operators the margin makes no difference. -/
theorem text_eq_of_not_hasOperator {e : Expression} (h : e.hasOperator = false)
    (margin margin' : Text) : e.text margin = e.text margin' := by
  induction e with
  | numeral n => rfl
  | reference r => rfl
  | group inner ih => rw [text, text, ih h]
  | binary left op right ihl ihr => exact nomatch h

/-- An expression that comes out of spacing with spaces around all operators and nothing else is
    fully spaced. -/
theorem spacedText_append_inj {e : Expression} {k k' : Text}
    (h : e.spacedText ++ k = e.text [' '] ++ k') : e.isFullySpaced = true ∧ k = k' := by
  -- read from the left, the texts part at the first operator without spaces on one side
  induction e generalizing k k' with
  | numeral n =>
    obtain ⟨hloose, hk⟩ := Numeral.text_append_inj h
    exact ⟨by rw [isFullySpaced, hloose]; rfl, hk⟩
  | reference r => exact ⟨rfl, List.append_cancel_left h⟩
  | group inner ih =>
    simp only [spacedText, text, List.cons_append, List.append_assoc, List.cons.injEq,
      true_and] at h
    obtain ⟨hinner, hk⟩ := text_append_inj h
    exact ⟨by rw [isFullySpaced, hinner]; rfl, (List.cons.inj hk).2⟩
  | binary left op right ihl ihr =>
    rw [spacedText, text] at h
    cases hhidden : left.isHidden op right with
    | true =>
      simp only [hhidden, if_true, List.append_assoc, List.cons_append, List.nil_append] at h
      obtain ⟨-, hop⟩ := ihl h
      exact absurd (List.cons.inj hop).1 op.char_ne_space
    | false =>
      simp only [hhidden, Bool.false_eq_true, if_false, List.append_assoc, List.cons_append,
        List.nil_append] at h
      obtain ⟨hleft, hop⟩ := ihl h
      simp only [List.cons.injEq, true_and] at hop
      obtain ⟨hright, hk⟩ := ihr hop
      exact ⟨by rw [isFullySpaced, hhidden, hleft, hright]; rfl, hk⟩

/-- A fully spaced expression comes out of spacing with spaces around all operators. -/
theorem spacedText_of_isFullySpaced {e : Expression} (h : e.isFullySpaced = true) :
    -- by induction on the expression, without what is inside of groups, where there is no operator
    e.spacedText = e.text [' '] := by
  induction e with
  | numeral n =>
    rw [isFullySpaced, Bool.not_eq_true'] at h
    exact Numeral.spacedText_of_not_loose h
  | reference r => rfl
  | group inner ih =>
    rw [isFullySpaced, Bool.not_eq_true'] at h
    rw [spacedText, text, text_eq_of_not_hasOperator h [] [' ']]
  | binary left op right ihl ihr =>
    rw [isFullySpaced, Bool.and_eq_true, Bool.and_eq_true, Bool.not_eq_true'] at h
    obtain ⟨⟨hhidden, hleft⟩, hright⟩ := h
    rw [spacedText, text, hhidden, ihl hleft, ihr hright]
    rfl

/-- All operators and nothing else come out of spacing with spaces around them exactly if none is
    inside of a group, each is seen, and no exponent is loose. -/
theorem spacedText_eq_iff (e : Expression) :
    e.spacedText = e.text [' '] ↔ e.isFullySpaced = true := by
  constructor
  · intro h
    have hsame : e.spacedText ++ [] = e.text [' '] ++ [] := by rw [h]
    exact (spacedText_append_inj hsame).1
  · exact spacedText_of_isFullySpaced

end Expression

end UtilityClass.Value
