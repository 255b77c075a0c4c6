import UtilityClass.Text.Blank
import UtilityClass.Text.Case
import UtilityClass.Text.Word

/-!
# Arithmetic in values

Inside `calc`, `min`, `max` and `clamp` every arithmetic operator is written between spaces.  The
text is read once.  The spacer remembers for each open parenthesis whether a math function opened
it, the characters since the last break (the name that a parenthesis would follow), all characters
read so far (which decide whether `+` and `-` are operators or signs), and whether a space is due.
Outside of math functions everything is copied.
-/

namespace UtilityClass.Value

/-- The functions whose arguments are arithmetic. -/
def mathFunctions : List Text := ["calc", "min", "max", "clamp"]

/-- Whether the name before an opening parenthesis, in any case, is that of a math function. -/
def isMathName (name : Text) : Bool := mathFunctions.contains (Text.strip name).lower

/-- Whether the text calls a math function by its lower-case name. -/
def callsMath (t : Text) : Bool := mathFunctions.any fun f => Text.occurs (f ++ ['(']) t

/-- Whether the character, met between `before` (nearest character first) and `rest`, is an
operator.  A `+` or `-` has to follow an operand; it is no operator in an exponent or inside a
hyphenated word. -/
def isOperator (before : Text) (c : Char) (rest : Text) : Bool :=
  if c = '*' ∨ c = '/' then true
  else if c = '+' ∨ c = '-' then
    match before.dropWhile Text.isBlank with
    | [] => false
    | operand :: earlier =>
      (Text.isAlphanumeric operand || operand == '%' || operand == ')')
        -- the sign of an exponent
        && !((operand == 'e' || operand == 'E') && earlier.head?.any Text.isDigitSign
          && rest.head?.any Text.isDigitSign)
        -- a hyphen inside of a word
        && !(Text.isLetter operand && rest.head?.any Text.isLetter)
  else false

/-- What has been read of the spaces before the next character. -/
inductive Gap where
  /-- No space stands before. -/
  | none
  /-- A space was read and is still to be written. -/
  | due
  /-- The space behind an operator is already written. -/
  | written
  deriving DecidableEq, Repr

/-- The space that a gap still owes. -/
def Gap.flush : Gap → Text
  | due => [' ']
  | none | written => []

/-- What is remembered of the text read so far. -/
structure Spacer where
  /-- For each open parenthesis, innermost first, whether a math function opened it. -/
  enclosing : List Bool
  /-- The characters since the last break, nearest first. -/
  name : Text
  /-- All characters read, nearest first. -/
  before : Text
  gap : Gap
  deriving DecidableEq, Repr

namespace Spacer

/-- The spacer before the first character. -/
def start : Spacer := ⟨[], [], [], .none⟩

/-- Whether the innermost open parenthesis belongs to a math function. -/
def inMath (s : Spacer) : Bool := s.enclosing.head? == some true

/-- The name of the function that a parenthesis opened now would belong to. -/
def nameWith (s : Spacer) (c : Char) : Text := if c = ' ' ∨ c = ',' then [] else c :: s.name

/-- Reads the character `c` before `rest`: what is written, and what is remembered then. -/
def step (s : Spacer) (c : Char) (rest : Text) : Text × Spacer :=
  if c = '(' then
    (s.gap.flush ++ [c], ⟨isMathName s.name.reverse :: s.enclosing, [], c :: s.before, .none⟩)
  else if c = ')' then
    (s.gap.flush ++ [c], ⟨s.enclosing.tail, [], c :: s.before, .none⟩)
  else if s.inMath then
    -- an operator brings its own spaces in place of those around it
    if isOperator s.before c rest then
      ([' ', c, ' '], ⟨s.enclosing, [], c :: s.before, .written⟩)
    else if c = ' ' then
      ([], ⟨s.enclosing, [], c :: s.before, if s.gap = .none then .due else s.gap⟩)
    else (s.gap.flush ++ [c], ⟨s.enclosing, s.nameWith c, c :: s.before, .none⟩)
  -- outside of math functions no gap is ever kept back
  else ([c], ⟨s.enclosing, s.nameWith c, c :: s.before, .none⟩)

/-- Reads a whole text and writes it with spaced operators. -/
def run (s : Spacer) : Text → Text
  | [] => s.gap.flush
  | c :: rest => (s.step c rest).1 ++ (s.step c rest).2.run rest

end Spacer

/-- The text with a space on each side of every operator inside math functions. -/
def spaceOperators (t : Text) : Text := if callsMath t then Spacer.start.run t else t

end UtilityClass.Value
