import UtilityClass.Text.Basic

/-! # Lines

Two views of line breaks: `unifyBreaks` reads every line end of a file as a line feed, and
`lines` cuts a text at every character or pair that breaks a line. -/

namespace UtilityClass.Text

/-- The text with each carriage return, and a line feed right after it, read as one line feed. -/
def unifyBreaks : Text → Text
  | [] => []
  | '\r' :: '\n' :: rest => '\n' :: unifyBreaks rest
  | c :: rest => (if c = '\r' then '\n' else c) :: unifyBreaks rest

/-- Whether the character ends a line. -/
def breaksLine (c : Char) : Bool :=
  c ∈ ['\n', '\r', '\x0b', '\x0c', '\x1c', '\x1d', '\x1e', '\u0085', '\u2028', '\u2029']

/-- Adds a character to the first of the lines. -/
def consLine (c : Char) : List Text → List Text
  | [] => [[c]]
  | line :: more => (c :: line) :: more

/-- The lines of a text without the characters that end them; no line follows the last break. -/
def lines : Text → List Text
  | [] => []
  | '\r' :: '\n' :: rest => [] :: lines rest
  | c :: rest => if breaksLine c then [] :: lines rest else consLine c (lines rest)

end UtilityClass.Text
