import UtilityClass.Text.Blank
import UtilityClass.Text.Case
import UtilityClass.Text.Word
import UtilityClass.Value.DataType

/-!
# Legacy colours

The colours that are written without colour functions of later levels: the named colours, the
hexadecimal ones, and `rgb`, `rgba`, `hsl`, `hsv` and `hsb` with fields between commas.  All are
read without regard to case, and none is longer than a hundred characters.
-/

namespace UtilityClass.Value

/-- The named colours. -/
def colorNames : List Text := List.map String.toList [
  "aliceblue", "antiquewhite", "aqua", "aquamarine", "azure", "beige", "bisque", "black",
  "blanchedalmond", "blue", "blueviolet", "brown", "burlywood", "cadetblue", "chartreuse",
  "chocolate", "coral", "cornflowerblue", "cornsilk", "crimson", "cyan", "darkblue", "darkcyan",
  "darkgoldenrod", "darkgray", "darkgrey", "darkgreen", "darkkhaki", "darkmagenta",
  "darkolivegreen", "darkorange", "darkorchid", "darkred", "darksalmon", "darkseagreen",
  "darkslateblue", "darkslategray", "darkslategrey", "darkturquoise", "darkviolet", "deeppink",
  "deepskyblue", "dimgray", "dimgrey", "dodgerblue", "firebrick", "floralwhite", "forestgreen",
  "fuchsia", "gainsboro", "ghostwhite", "gold", "goldenrod", "gray", "grey", "green",
  "greenyellow", "honeydew", "hotpink", "indianred", "indigo", "ivory", "khaki", "lavender",
  "lavenderblush", "lawngreen", "lemonchiffon", "lightblue", "lightcoral", "lightcyan",
  "lightgoldenrodyellow", "lightgreen", "lightgray", "lightgrey", "lightpink", "lightsalmon",
  "lightseagreen", "lightskyblue", "lightslategray", "lightslategrey", "lightsteelblue",
  "lightyellow", "lime", "limegreen", "linen", "magenta", "maroon", "mediumaquamarine",
  "mediumblue", "mediumorchid", "mediumpurple", "mediumseagreen", "mediumslateblue",
  "mediumspringgreen", "mediumturquoise", "mediumvioletred", "midnightblue", "mintcream",
  "mistyrose", "moccasin", "navajowhite", "navy", "oldlace", "olive", "olivedrab", "orange",
  "orangered", "orchid", "palegoldenrod", "palegreen", "paleturquoise", "palevioletred",
  "papayawhip", "peachpuff", "peru", "pink", "plum", "powderblue", "purple", "rebeccapurple",
  "red", "rosybrown", "royalblue", "saddlebrown", "salmon", "sandybrown", "seagreen", "seashell",
  "sienna", "silver", "skyblue", "slateblue", "slategray", "slategrey", "snow", "springgreen",
  "steelblue", "tan", "teal", "thistle", "tomato", "turquoise", "violet", "wheat", "white",
  "whitesmoke", "yellow", "yellowgreen"]

/-- A field of a colour function: what follows it, if it stands at the front of the text. -/
abbrev Field := Text → Option Text

/-- What follows a given character at the front of the text. -/
def afterMark? (mark : Char) : Field
  | [] => none
  | c :: rest => if c = mark then some rest else none

/-- A field with a percent sign right behind it. -/
def percent (field : Field) : Field := fun t => (field t).bind (afterMark? '%')

/-- What follows a field with blanks around it. -/
def afterPadded? (field : Field) (t : Text) : Option Text :=
  (field (t.dropWhile Text.isBlank)).map (·.dropWhile Text.isBlank)

/-- What follows padded fields with commas between them. -/
def afterFields? : List Field → Text → Option Text
  | [], t => some t
  | [field], t => afterPadded? field t
  | field :: more, t =>
    ((afterPadded? field t).bind (afterMark? ',')).bind (afterFields? more)

/-- Whether the text is the function `name` applied to the fields, up to a final line feed. -/
def isFieldCall (name : Text) (fields : List Field) (t : Text) : Bool :=
  match (name ++ ['(']).isPrefixOf? t with
  | some rest => ((afterFields? fields rest).bind (afterMark? ')')).any fun rest => rest.chomp = []
  | none => false

/-- Whether the text is a hash sign and three, four, six or eight hexadecimal digits, up to a
final line feed. -/
def isHexColor (t : Text) : Bool :=
  match t.chomp with
  | '#' :: digits => digits.all Text.isHexDigit && [3, 4, 6, 8].contains digits.length
  | _ => false

/-- The colour functions and their fields. -/
def colorForms : List (Text × List Field) := [
  ("rgb", [afterDigits?, afterDigits?, afterDigits?]),
  ("rgb", [percent afterDigits?, percent afterDigits?, percent afterDigits?]),
  ("hsl", [afterDecimal?, percent afterDecimal?, percent afterDecimal?]),
  ("hsb", [afterDecimal?, percent afterDecimal?, percent afterDecimal?]),
  ("hsv", [afterDecimal?, percent afterDecimal?, percent afterDecimal?]),
  ("rgba", [afterDigits?, afterDigits?, afterDigits?, afterDigits?])]

/-- Whether a lower-case text is a legacy colour. -/
def isLowerColor (t : Text) : Bool :=
  colorNames.contains t || isHexColor t || colorForms.any fun form => isFieldCall form.1 form.2 t

/-- Whether the text is a legacy colour. -/
def isLegacyColor (t : Text) : Bool := t.length ≤ 100 && isLowerColor t.lower

/-- The reader of colours that the program comes with. -/
instance legacyColors : ColorReader := ⟨isLegacyColor⟩

end UtilityClass.Value
