import UtilityClass.Value.Address
import UtilityClass.Value.Arithmetic

/-!
# Canonical values

The canonical form of a value as written in a class name: a lone custom property is wrapped in
`var(…)`; addresses stay as they are; elsewhere an underscore stands for a space, an escaped one
for itself, and arithmetic is spaced.  A value with `url(` outside of its addresses has no
canonical form.
-/

namespace UtilityClass.Value

/-- Why a value has no canonical form. -/
inductive Fault where
  /-- A `url(` is never closed. -/
  | unclosedAddress
  deriving DecidableEq, Repr

/-- The text with each underscore read as a space, and each escaped underscore as an underscore. -/
def spaced : Text → Text
  | [] => []
  | '\\' :: '_' :: rest => '_' :: spaced rest
  | c :: rest => (if c = '_' then ' ' else c) :: spaced rest

/-- The canonical form of the text between addresses. -/
def canonicalGap (t : Text) : Except Fault Text :=
  if Text.occurs addressLead t then .error .unclosedAddress else .ok (spaceOperators (spaced t))

/-- The canonical form of a piece of a value. -/
def Piece.canonical : Piece → Except Fault Text
  | .gap t => canonicalGap t
  | .address t => .ok t

/-- The canonical form of pieces in a row. -/
def canonicalPieces : List Piece → Except Fault Text
  | [] => .ok []
  | piece :: more =>
    match piece.canonical, canonicalPieces more with
    | .ok front, .ok rest => .ok (front ++ rest)
    | _, _ => .error .unclosedAddress

/-- The canonical form of a part of a value: blanks at its ends count. -/
def canonicalPart (t : Text) : Except Fault Text :=
  if Text.occurs addressLead t then canonicalPieces (pieces t)
  else .ok (spaceOperators (spaced t))

/-- The canonical form of a whole value. -/
def canonical (t : Text) : Except Fault Text :=
  if ['-', '-'].isPrefixOf t then .ok ("var(".toList ++ t ++ [')'])
  else if Text.occurs addressLead t then canonicalPieces (pieces t)
  else .ok (spaceOperators (Text.strip (spaced t)))

end UtilityClass.Value
