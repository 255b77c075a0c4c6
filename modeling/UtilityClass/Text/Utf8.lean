import UtilityClass.Text.Lines

/-! # Files of text

A file of text holds UTF-8, read strictly: a byte order mark is a character like any other, and
any ill-formed sequence spoils the whole file. -/

namespace UtilityClass.Text

/-- The text of a file, or nothing if its bytes are not UTF-8. -/
def ofBytes? (bytes : ByteArray) : Option Text :=
  (String.fromUTF8? bytes).map fun s => unifyBreaks s.toList

end UtilityClass.Text
