import UtilityClass.Config

/-!
# Flags

The base of a token may open with `!` (important) and `-` (negative).  The dash may also stand
after the class prefix, and the prefix is taken away where the configuration asks for it.
-/

namespace UtilityClass

/-- A base without its flags and its required prefix. -/
structure Flagged where
  important : Bool
  negative : Bool
  text : Text
  deriving DecidableEq, Repr

/-- Takes a mark off the front of a text, and says whether it was there. -/
def takeMark (mark : Char) : Text → Bool × Text
  | [] => (false, [])
  | c :: rest => if c = mark then (true, rest) else (false, c :: rest)

/-- Takes the flags and the required prefix off a base; nothing if the prefix is missing. -/
def Flagged.ofBase? (config : Config) (base : Text) : Option Flagged :=
  let (important, unmarked) := takeMark '!' base
  let (early, unsigned) := takeMark '-' unmarked
  (config.requiredPrefix.isPrefixOf? unsigned).map fun named =>
    let (late, text) := takeMark '-' named
    ⟨important, early || late, text⟩

end UtilityClass
