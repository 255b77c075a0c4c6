import UtilityClass.Ledger
import UtilityClass.Text.Blank
import UtilityClass.Text.Lines

/-!
# Environment files

An environment file assigns values to keys, one `KEY=value` on a line.  A key may follow the word
`export`, and a value may stand in quotes.  Blank lines, comments and lines without an equals sign
are passed over.  A key that is assigned twice keeps its place and takes the later value.
-/

namespace UtilityClass

/-- Values by key. -/
abbrev Environment := Ledger Text Text

namespace EnvFile

/-- The word that may stand before a key, and the space behind it. -/
def exportLead : Text := "export "

/-- The key on the left side of an assignment. -/
def keyOf (left : Text) : Text :=
  let t := Text.strip left
  Text.strip ((exportLead.isPrefixOf? t).getD t)

/-- The value on the right side of an assignment: blanks at its ends are taken away, then double
quotes, then single quotes. -/
def valueOf (right : Text) : Text :=
  Text.trim (· == '\'') (Text.trim (· == '"') (Text.strip right))

/-- The assignment on a line, if it holds one. -/
def assignment? (line : Text) : Option (Text × Text) :=
  let t := Text.strip line
  if t.head? = some '#' then none
  else
    match Text.cut? ['='] t with
    | some (left, right) => if keyOf left = [] then none else some (keyOf left, valueOf right)
    | none => none

/-- The assignments of an environment file. -/
def read (t : Text) : Environment := .ofList ((Text.lines t).filterMap assignment?)

end EnvFile

end UtilityClass
