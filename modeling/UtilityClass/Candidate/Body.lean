import UtilityClass.Candidate.Basic
import UtilityClass.Text.Blank
import UtilityClass.Text.Word

/-!
# Bodies

Three readings of a body, tried in this order: a declaration `[name:value]`, a name with a
bracketed value `name-[value]` or `name-[tag:value]`, and a plain name.
-/

namespace UtilityClass

namespace Body

/-- A character of a property name: a letter or digit of ASCII, an underscore or a dash. -/
def isNameChar (c : Char) : Bool := Text.isAsciiAlphanumeric c || c == '_' || c == '-'

/-- The name and the value of a declaration in square brackets.  The value is not empty and holds
no blank; a line feed after the closing bracket is passed over. -/
def declaration? (t : Text) : Option (Text × Text) :=
  match Text.enclosed? ['['] ']' t.chomp with
  | none => none
  | some inner =>
    match Text.cut? [':'] inner with
    | none => none
    | some (name, value) =>
      if name ≠ [] ∧ name.all isNameChar ∧ value ≠ [] ∧ value.all (! Text.isBlank ·) then
        some (name, value)
      else none

/-- Whether a text can tag a value: a letter, then letters, digits and dashes, all of ASCII. -/
def isTag : Text → Bool
  | [] => false
  | c :: rest => Text.isAsciiLetter c && rest.all fun c => Text.isAsciiAlphanumeric c || c == '-'

/-- The tag of a value that carries none. -/
def untagged : Text := "any"

/-- The value between the brackets of a custom body, and its tag. -/
def tagged (inner : Text) : Text × Text :=
  match Text.cut? [':'] inner with
  | some (tag, value) => if isTag tag then (value, tag) else (inner, untagged)
  | none => (inner, untagged)

/-- The name before the leftmost `-[`, and what stands between that and a final `]`. -/
def bracketed? (t : Text) : Option (Text × Text) :=
  match Text.cut? ['-', '['] t with
  | some (name, rest) => if rest.getLast? = some ']' then some (name, rest.dropLast) else none
  | none => none

/-- The body that a text spells. -/
def ofText (t : Text) : Body :=
  match declaration? t with
  | some (name, value) => property name value
  | none =>
    match bracketed? t with
    | some (name, inner) => custom name (tagged inner).1 (tagged inner).2
    | none => utility t

end Body

end UtilityClass
