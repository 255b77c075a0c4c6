import UtilityClass.Text.Basic

/-!
# Value syntax

A value is read one character at a time.  The reader keeps the closing brackets that it awaits,
the quote that is open, and whether a backslash escapes the next character; it gives up at a
closing bracket that it does not await and at a semicolon outside of brackets and quotes.  A value
is valid when it is not empty and leaves the reader at rest.

Main statement: `read_append` — reading two parts is reading one after the other.
-/

namespace UtilityClass.Value

/-- What a reader remembers of the text that it has read. -/
structure Reader where
  /-- The closing brackets still awaited, innermost first. -/
  awaited : List Char
  /-- The quote that is open. -/
  quote : Option Char
  /-- Whether the next character is escaped. -/
  escaped : Bool
  deriving DecidableEq, Repr

/-- The bracket that closes an opening bracket. -/
def closer? : Char → Option Char
  | '(' => some ')'
  | '[' => some ']'
  | '{' => some '\x7d'
  | _ => none

/-- Whether the character closes a bracket. -/
def isCloser (c : Char) : Bool := c == ')' || c == ']' || c == '\x7d'

/-- Whether the character opens and closes a quoted string: a double or single quote, or a grave
accent. -/
def isQuote (c : Char) : Bool := c == '"' || c == '\'' || c == '\x60'

namespace Reader

/-- The reader before the first character. -/
def start : Reader := ⟨[], none, false⟩

/-- Reads a character outside of escapes and quotes. -/
def stepPlain (r : Reader) (c : Char) : Option Reader :=
  if isQuote c then some { r with quote := some c }
  else
    match closer? c with
    | some close => some { r with awaited := close :: r.awaited }
    | none =>
      if isCloser c then
        match r.awaited with
        | [] => none
        | close :: outer => if c = close then some { r with awaited := outer } else none
      -- between brackets a semicolon ends nothing
      else if c = ';' ∧ r.awaited = [] then none
      else some r

/-- Reads one character; nothing if the text cannot belong to a valid value. -/
def step (r : Reader) (c : Char) : Option Reader :=
  if r.escaped then some { r with escaped := false }
  else if c = '\\' then some { r with escaped := true }
  else
    match r.quote with
    | some q => some (if c = q then { r with quote := none } else r)
    | none => stepPlain r c

/-- Reads a whole text. -/
def read (r : Reader) (v : Text) : Option Reader := v.foldlM step r

/-- Whether no bracket and no quote is open. -/
def atRest (r : Reader) : Bool := r.awaited.isEmpty && r.quote.isNone

/-- Reading two parts is reading one after the other. -/
theorem read_append (r : Reader) (v w : Text) :
    r.read (v ++ w) = (r.read v).bind fun r' => r'.read w := by
  simp [read, List.foldlM_append]

end Reader

/-- Whether a value is safe to emit: it is not empty, its brackets balance, its quotes close, and
no semicolon ends the declaration. -/
def isValid (v : Text) : Bool := !v.isEmpty && (Reader.start.read v).any Reader.atRest

end UtilityClass.Value
