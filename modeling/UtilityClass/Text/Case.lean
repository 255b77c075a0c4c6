import UtilityClass.Text.Basic

/-!
# Letter case

Texts are compared with ASCII words in lower case, so only the characters that a case mapping
takes to an ASCII letter matter: the letters A to Z and the Kelvin sign, and, where a comparison
ignores case altogether, the long s.  All other characters stay as they are.
-/

namespace UtilityClass.Text

/-- The lower case of A to Z and of the Kelvin sign. -/
def lowerChar (c : Char) : Char := if c = '\u212A' then 'k' else c.toLower

/-- The text in lower case. -/
def lower (t : Text) : Text := t.map lowerChar

/-- The representative of `c` among the characters that differ from it in case only. -/
def foldChar (c : Char) : Char := if c = '\u017F' then 's' else lowerChar c

/-- The text with each character replaced by its representative under case. -/
def foldCase (t : Text) : Text := t.map foldChar

end UtilityClass.Text
