import UtilityClass.Text.Letter
import UtilityClass.Text.Numeral

/-! # Characters of words

An *alphanumeric* character is a letter or a numeral of any script; a *word character* is one of
those or the underscore. -/

namespace UtilityClass.Text

/-- A letter or a numeral. -/
def isAlphanumeric (c : Char) : Bool := isLetter c || isNumeral c

/-- A letter, a numeral or the underscore. -/
def isWordChar (c : Char) : Bool := isAlphanumeric c || c == '_'

/-- A character of ASCII. -/
def isAscii (c : Char) : Bool := c.toNat < 128

/-- A lower-case letter of ASCII. -/
def isAsciiLower (c : Char) : Bool := 'a' ≤ c && c ≤ 'z'

/-- A letter of ASCII. -/
def isAsciiLetter (c : Char) : Bool := c.isAlpha

/-- A letter or a digit of ASCII. -/
def isAsciiAlphanumeric (c : Char) : Bool := c.isAlphanum

/-- A hexadecimal digit of ASCII. -/
def isHexDigit (c : Char) : Bool := c.isDigit || 'a' ≤ c && c ≤ 'f' || 'A' ≤ c && c ≤ 'F'

end UtilityClass.Text
