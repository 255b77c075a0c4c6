import UtilityClass.Text.Basic

/-!
# Candidates

A candidate is what a utility-class token stands for: its variants, flags and modifier, and a body
that is a plain utility name, a property with its value, or a name with a bracketed value.
-/

namespace UtilityClass

/-- A variant or a modifier: a plain word, or the text between square brackets. -/
inductive Part where
  | plain (text : Text)
  | bracketed (inner : Text)
  deriving DecidableEq, Repr

/-- The part as it is written in a token. -/
def Part.render : Part → Text
  | plain text => text
  | bracketed inner => '[' :: inner ++ [']']

/-- The part that a segment of a token stands for: a segment enclosed in square brackets is a
bracketed part, any other segment is a plain one. -/
def Part.ofSegment (segment : Text) : Part :=
  match Text.enclosed? ['['] ']' segment with
  | some inner => bracketed inner
  | none => plain segment

/-- What a token says once variants, flags and modifier are taken away. -/
inductive Body where
  /-- A plain utility name. -/
  | utility (name : Text)
  /-- A declaration in square brackets. -/
  | property (name value : Text)
  /-- A name with a value in square brackets, which may carry the tag of a data type. -/
  | custom (name value tag : Text)
  deriving DecidableEq, Repr

/-- The name in any body. -/
def Body.name : Body → Text
  | utility name | property name _ | custom name _ _ => name

/-- The value in a body that has one. -/
def Body.value? : Body → Option Text
  | utility _ => none
  | property _ value | custom _ value _ => some value

/-- The word for the kind of body. -/
def Body.kind : Body → Text
  | utility _ => "utility"
  | property _ _ => "property"
  | custom _ _ _ => "custom"

/-- A recognised token. -/
structure Candidate where
  raw : Text
  classPrefix : Text
  important : Bool
  negative : Bool
  variants : List Part
  modifiers : List Part
  body : Body
  deriving DecidableEq, Repr

end UtilityClass
