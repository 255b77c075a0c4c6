import UtilityClass.Text.Printable

/-!
# Quoted texts

The form in which messages show a text: between single quotes, or between double quotes when the
text holds a single quote and no double one.  The quote in use and the backslash are written after
a backslash; tab, line feed and carriage return by letter; every other unprintable character by the
hexadecimal digits of its code.
-/

namespace UtilityClass.Text

/-- The code of a character in exactly `width` hexadecimal digits, the lowest ones. -/
def hexDigits : Nat → Nat → Text
  | 0, _ => []
  | width + 1, code => hexDigits width (code / 16) ++ [Nat.digitChar (code % 16)]

/-- The written form of one character between quotes of the kind `quote`. -/
def quotedChar (quote : Char) (c : Char) : Text :=
  if c = quote ∨ c = '\\' then ['\\', c]
  else if c = '\t' then ['\\', 't']
  else if c = '\n' then ['\\', 'n']
  else if c = '\r' then ['\\', 'r']
  else if isPrintable c then [c]
  else if c.toNat < 0x100 then '\\' :: 'x' :: hexDigits 2 c.toNat
  else if c.toNat < 0x10000 then '\\' :: 'u' :: hexDigits 4 c.toNat
  else '\\' :: 'U' :: hexDigits 8 c.toNat

/-- The quote that encloses a text. -/
def quoteOf (t : Text) : Char := if '\'' ∈ t ∧ '"' ∉ t then '"' else '\''

/-- The text as messages show it. -/
def quoted (t : Text) : Text :=
  quoteOf t :: t.flatMap (quotedChar (quoteOf t)) ++ [quoteOf t]

end UtilityClass.Text
