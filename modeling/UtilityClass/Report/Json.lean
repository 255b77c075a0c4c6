import UtilityClass.Text.Quoted

/-!
# JSON documents

JSON values and their layout: two columns of indentation for each level, one item on a line, and
empty arrays and objects closed at once.  Strings are written in printable ASCII; every other
character is written by the UTF-16 units of its code.
-/

namespace UtilityClass

/-- A JSON value whose numbers are natural. -/
inductive Json where
  | null
  | bool (b : Bool)
  | number (n : Nat)
  | string (t : Text)
  | array (items : List Json)
  | object (fields : List (Text × Json))
  deriving Inhabited

namespace Json

/-- A UTF-16 unit as four hexadecimal digits behind `\u`. -/
def unit (n : Nat) : Text := '\\' :: 'u' :: Text.hexDigits 4 n

/-- A character inside of a string. -/
def escape (c : Char) : Text :=
  if c = '"' ∨ c = '\\' then ['\\', c]
  else if ' ' ≤ c ∧ c ≤ '~' then [c]
  else if c = '\n' then ['\\', 'n']
  else if c = '\r' then ['\\', 'r']
  else if c = '\t' then ['\\', 't']
  else if c = '\x08' then ['\\', 'b']
  else if c = '\x0c' then ['\\', 'f']
  else if c.toNat < 0x10000 then unit c.toNat
  else
    unit (0xD800 + (c.toNat - 0x10000) / 0x400) ++ unit (0xDC00 + (c.toNat - 0x10000) % 0x400)

/-- A string between quotes. -/
def quote (t : Text) : Text := '"' :: t.flatMap escape ++ ['"']

/-- The start of a line, `column` columns in. -/
def newLine (column : Nat) : Text := '\n' :: List.replicate column ' '

/-- Items between two borders, one on a line; the borders alone if there is no item. -/
def block (lead close : Char) (column : Nat) (items : List Text) : Text :=
  if items.isEmpty then [lead, close]
  else
    lead :: newLine (column + 2) ++ List.intercalate (',' :: newLine (column + 2)) items
      ++ newLine column ++ [close]

mutual

/-- The layout of a value whose first line starts `column` columns in. -/
def render (column : Nat) : Json → Text
  | null => "null"
  | bool b => if b then "true" else "false"
  | number n => Text.ofNat n
  | string t => quote t
  | array items => block '[' ']' column (renderItems (column + 2) items)
  | object fields => block '\x7b' '\x7d' column (renderFields (column + 2) fields)

/-- The layouts of the items of an array. -/
def renderItems (column : Nat) : List Json → List Text
  | [] => []
  | item :: more => render column item :: renderItems column more

/-- The layouts of the fields of an object. -/
def renderFields (column : Nat) : List (Text × Json) → List Text
  | [] => []
  | (name, value) :: more =>
    (quote name ++ [':', ' '] ++ render column value) :: renderFields column more

end

end Json

end UtilityClass
