import UtilityClass.Candidate.Basic

/-!
# Modifiers

A modifier stands at the end of a text behind a slash: a word without brackets and slashes, or a
non-empty text without brackets between `[` and `]`.  The leftmost slash with such a rest counts.
-/

namespace UtilityClass

namespace Modifier

/-- Whether the character is a square bracket. -/
def isBracket (c : Char) : Bool := c == '[' || c == ']'

/-- The text between square brackets, if it is not empty and holds no bracket; a final line feed
after the closing bracket is passed over. -/
def bracketed? (t : Text) : Option Text :=
  match Text.enclosed? ['['] ']' t.chomp with
  | some inner => if inner ≠ [] ∧ ! inner.any isBracket then some inner else none
  | none => none

/-- The modifier that the text after a slash spells. -/
def ofText? (t : Text) : Option Part :=
  match bracketed? t with
  | some inner => some (.bracketed inner)
  | none =>
    if t ≠ [] ∧ ! t.any (fun c => isBracket c || c == '/') then some (.plain t) else none

/-- The modifier behind a slash at the front of the text. -/
def behindSlash? : Text → Option Part
  | [] => none
  | c :: rest => if c = '/' then ofText? rest else none

/-- Splits a text into what stands before its modifier, and the modifier if there is one. -/
def split : Text → Text × List Part
  | [] => ([], [])
  | c :: rest =>
    match behindSlash? (c :: rest) with
    | some part => ([], [part])
    | none =>
      let (front, parts) := split rest
      (c :: front, parts)

/-- A text has at most one modifier. -/
theorem length_split_le (t : Text) : (split t).2.length ≤ 1 := by
  induction t with
  | nil => simp [split]
  | cons c rest ih =>
    simp only [split]
    split
    · simp
    · exact ih

end Modifier

end UtilityClass
