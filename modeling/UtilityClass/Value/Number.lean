import UtilityClass.Text.Numeral

/-!
# Numbers

A number is an optional sign, then digits with an optional point and optional further digits, or a
point and digits, then optionally `e` or `E`, an optional sign and digits.  The digits are those of
any script.  Each reader takes the longest such text off the front and gives what follows.
-/

namespace UtilityClass.Value

/-- What follows the digits at the front of a text, if there is at least one. -/
def afterDigits? : Text → Option Text
  | [] => none
  | c :: rest => if Text.isDecimal c then some (rest.dropWhile Text.isDecimal) else none

/-- What follows an optional sign. -/
def afterSign : Text → Text
  | [] => []
  | c :: rest => if c = '+' ∨ c = '-' then rest else c :: rest

/-- What follows a point and the digits behind it, or the text itself. -/
def afterFraction : Text → Text
  | [] => []
  | c :: rest => if c = '.' then rest.dropWhile Text.isDecimal else c :: rest

/-- What follows digits with an optional point and further digits. -/
def afterDecimal? (t : Text) : Option Text := (afterDigits? t).map afterFraction

/-- What follows a point and digits. -/
def afterPointDigits? : Text → Option Text
  | [] => none
  | c :: rest => if c = '.' then afterDigits? rest else none

/-- What follows an exponent, or the text itself. -/
def afterExponent : Text → Text
  | [] => []
  | c :: rest =>
    if c = 'e' ∨ c = 'E' then (afterDigits? (afterSign rest)).getD (c :: rest) else c :: rest

/-- What follows the number at the front of a text. -/
def afterNumber? (t : Text) : Option Text :=
  ((afterDecimal? (afterSign t)).or (afterPointDigits? (afterSign t))).map afterExponent

end UtilityClass.Value
