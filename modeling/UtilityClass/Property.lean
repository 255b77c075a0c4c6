import UtilityClass.Text.Word
import UtilityClass.Value.Syntax

/-! # Property declarations

A property token is let through when its name opens like a property name, or else when its name is
a CSS identifier and its value is valid and free of braces. -/

namespace UtilityClass.Property

/-- Whether a name opens with a lower-case letter of ASCII, an underscore or a dash. -/
def opensName : Text → Bool
  | [] => false
  | c :: _ => Text.isAsciiLower c || c == '_' || c == '-'

/-- A character inside of an identifier. -/
def isIdentifierChar (c : Char) : Bool := Text.isWordChar c || c == '-'

/-- Whether a text is a letter of ASCII or an underscore, and then identifier characters. -/
def isPlainIdentifier : Text → Bool
  | [] => false
  | c :: rest => (Text.isAsciiLetter c || c == '_') && rest.all isIdentifierChar

/-- Whether a text is two dashes and at least one identifier character. -/
def isCustomProperty : Text → Bool
  | '-' :: '-' :: rest => !rest.isEmpty && rest.all isIdentifierChar
  | _ => false

/-- Whether a name is a CSS identifier, up to a final line feed. -/
def isIdentifier (name : Text) : Bool :=
  isCustomProperty name.chomp || isPlainIdentifier name.chomp ||
    match name.chomp with
    | '-' :: rest => isPlainIdentifier rest
    | _ => false

/-- Whether a name and a value make a single declaration in the body of a rule. -/
def isDeclaration (name value : Text) : Bool :=
  isIdentifier name && !value.any (fun c => c == '\x7b' || c == '\x7d') && Value.isValid value

end UtilityClass.Property
