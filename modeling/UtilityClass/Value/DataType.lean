import UtilityClass.Text.Blank
import UtilityClass.Text.Case
import UtilityClass.Value.Number

/-!
# Data types

A custom value may be tagged with the type of its data.  Each type has a guard, `accepts`, which
says whether a value can be of the type; `infer?` gives the first type, in a fixed order, whose
guard accepts an untagged value.  Which texts are colours apart from keywords and functions is left
to a reader of colours.
-/

namespace UtilityClass

/-- The tags that a custom value can carry. -/
inductive DataType where
  | any
  | color
  | url
  | image
  | length
  | percentage
  | position
  | lookup
  | genericName
  | familyName
  | number
  | lineWidth
  | absoluteSize
  | relativeSize
  | shadow
  deriving DecidableEq, Repr

/-- A reader of colours: a text is read as a colour or refused.  Nothing else is asked of it. -/
class ColorReader where
  reads : Text → Bool

namespace Value

/-- Whether the text, up to a final line feed, is one of the functions applied to a text without
line feeds. -/
def isCall (names : List Text) (t : Text) : Bool :=
  names.any fun name => (Text.enclosed? (name ++ ['(']) ')' t.chomp).any fun inner => '\n' ∉ inner

/-- The functions that stand for a number, a length or a percentage. -/
def numericFunctions : List Text := ["calc", "min", "max", "clamp", "var", "env"]

/-- The functions that make an image. -/
def imageFunctions : List Text := [
  "url", "image", "image-set", "cross-fade", "element",
  "linear-gradient", "radial-gradient", "conic-gradient",
  "repeating-linear-gradient", "repeating-radial-gradient", "repeating-conic-gradient"]

/-- The functions that make a colour. -/
def colorFunctions : List Text := [
  "rgb", "rgba", "hsl", "hsla", "hwb", "lab", "lch", "oklab", "oklch", "color"]

/-- The units of length. -/
def lengthUnits : List Text := [
  "cm", "mm", "Q", "in", "pc", "pt", "px",
  "em", "ex", "ch", "rem", "lh", "rlh",
  "vw", "vh", "vmin", "vmax", "vb", "vi",
  "svw", "svh", "lvw", "lvh", "dvw", "dvh",
  "cqw", "cqh", "cqi", "cqb", "cqmin", "cqmax"]

/-- The words that stand for a colour, in lower case. -/
def colorKeywords : List Text :=
  ["transparent", "currentcolor", "inherit", "initial", "unset", "revert"]

def lineWidthKeywords : List Text := ["thin", "medium", "thick"]

def absoluteSizeKeywords : List Text := [
  "xx-small", "x-small", "small", "medium", "large", "x-large", "xx-large", "xxx-large"]

def relativeSizeKeywords : List Text := ["larger", "smaller"]

def positionKeywords : List Text := ["center", "top", "right", "bottom", "left"]

def genericFamilyNames : List Text := [
  "serif", "sans-serif", "monospace", "cursive", "fantasy", "system-ui",
  "ui-serif", "ui-sans-serif", "ui-monospace", "ui-rounded", "math", "emoji", "fangsong"]

/-! ## Guards -/

def isNumericCall (t : Text) : Bool := isCall numericFunctions t

/-- A number or a numeric function. -/
def isNumber (t : Text) : Bool :=
  (afterNumber? t).any (fun rest => rest.chomp = []) || isNumericCall t

/-- A number with a percent sign, or a numeric function. -/
def isPercentage (t : Text) : Bool :=
  (afterNumber? t).any (fun rest => rest.chomp = ['%']) || isNumericCall t

/-- A bare zero, a numeric function, or a number with a unit. -/
def isLength (t : Text) : Bool :=
  t == ['0'] || isNumericCall t || (afterNumber? t).any fun rest => lengthUnits.contains rest.chomp

/-- A colour keyword, a variable, a colour function or what is read as a colour. -/
def isColor [ColorReader] (t : Text) : Bool :=
  colorKeywords.contains t.lower || List.isPrefixOf "var(" t || isCall colorFunctions t.foldCase
    || ColorReader.reads t

/-- An address. -/
def isUrl (t : Text) : Bool := (Text.enclosed? "url(" ')' t).isSome

/-- An image function. -/
def isImage (t : Text) : Bool := isCall imageFunctions t

def isLineWidth (t : Text) : Bool := lineWidthKeywords.contains t || isLength t

def isAbsoluteSize (t : Text) : Bool := absoluteSizeKeywords.contains t

def isRelativeSize (t : Text) : Bool := relativeSizeKeywords.contains t

/-- Words that each are a position keyword, a length or a percentage; at least one. -/
def isPosition (t : Text) : Bool :=
  !(Text.words t).isEmpty &&
    (Text.words t).all fun w => positionKeywords.contains w || isLength w || isPercentage w

def isGenericName (t : Text) : Bool := genericFamilyNames.contains t

/-- A quoted string, or a word that is neither a number nor a length. -/
def isFamilyEntry (entry : Text) : Bool :=
  match entry with
  | [] => false
  | c :: rest =>
    if c = '"' ∨ c = '\'' then rest.getLast? = some c else !(isNumber entry || isLength entry)

/-- Font families between commas. -/
def isFamilyName (t : Text) : Bool :=
  (t.splitOn ',').all fun entry => isFamilyEntry (Text.strip entry)

/-- Shadows between commas, each with at least two lengths among its words. -/
def isShadow (t : Text) : Bool :=
  (t.splitOn ',').all fun shadow =>
    2 ≤ ((Text.words shadow).filter fun w => w != "inset".toList && isLength w).length

end Value

namespace DataType

/-- Whether a value can be of the type.  Every value can be looked up or left untyped. -/
def accepts [ColorReader] : DataType → Text → Bool
  | any, _ | lookup, _ => true
  | color, t => Value.isColor t
  | url, t => Value.isUrl t
  | image, t => Value.isImage t
  | length, t => Value.isLength t
  | percentage, t => Value.isPercentage t
  | position, t => Value.isPosition t
  | genericName, t => Value.isGenericName t
  | familyName, t => Value.isFamilyName t
  | number, t => Value.isNumber t
  | lineWidth, t => Value.isLineWidth t
  | absoluteSize, t => Value.isAbsoluteSize t
  | relativeSize, t => Value.isRelativeSize t
  | shadow, t => Value.isShadow t

/-- The tag that names a type. -/
def name : DataType → Text
  | any => "any"
  | color => "color"
  | url => "url"
  | image => "image"
  | length => "length"
  | percentage => "percentage"
  | position => "position"
  | lookup => "lookup"
  | genericName => "generic-name"
  | familyName => "family-name"
  | number => "number"
  | lineWidth => "line-width"
  | absoluteSize => "absolute-size"
  | relativeSize => "relative-size"
  | shadow => "shadow"

/-- All types. -/
def all : List DataType := [
  any, color, url, image, length, percentage, position, lookup, genericName, familyName, number,
  lineWidth, absoluteSize, relativeSize, shadow]

/-- The type that a tag names. -/
def ofName? (tag : Text) : Option DataType := all.find? fun d => d.name == tag

/-- The order in which types are tried for an untagged value. -/
def inferenceOrder : List DataType := [
  url, image, number, percentage, length, lineWidth, absoluteSize, relativeSize, genericName,
  color, shadow, position, familyName]

/-- The first type that accepts the value. -/
def infer? [ColorReader] (t : Text) : Option DataType := inferenceOrder.find? (·.accepts t)

/-- Whether the tag names a type that accepts the value. -/
def tagAccepts [ColorReader] (tag value : Text) : Bool := (ofName? tag).any (·.accepts value)

/-- Every type is found under its name. -/
theorem ofName?_name (d : DataType) : ofName? d.name = some d := by cases d <;> decide

end DataType

end UtilityClass
