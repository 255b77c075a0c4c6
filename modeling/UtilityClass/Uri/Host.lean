import UtilityClass.Text.Word

/-!
# Bracketed hosts

The host between the square brackets of an authority: an IPv6 address, perhaps with a scope, or an
address of a future version.
-/

namespace UtilityClass.Uri

/-- A number of one to three digits, at most 255 and without a leading zero. -/
def isOctet (t : Text) : Bool :=
  !t.isEmpty && t.all Char.isDigit && t.length ≤ 3 && (t == ['0'] || t.head? != some '0')
    && Nat.ofDigitChars 10 t 0 ≤ 255

/-- Four octets with points between them. -/
def isIPv4 (t : Text) : Bool := (t.splitOn '.').length == 4 && (t.splitOn '.').all isOctet

/-- One to four hexadecimal digits. -/
def isGroup (t : Text) : Bool := !t.isEmpty && t.length ≤ 4 && t.all Text.isHexDigit

/-- The groups between colons; none in the empty text. -/
def groups (t : Text) : List Text := if t.isEmpty then [] else t.splitOn ':'

/-- How many groups of sixteen bits the texts stand for, if each is a group or the last one is an
IPv4 address, which takes two. -/
def width? : List Text → Option Nat
  | [] => some 0
  | [last] => if isGroup last then some 1 else if isIPv4 last then some 2 else none
  | group :: more => if isGroup group then (width? more).map (· + 1) else none

/-- Whether the text is an IPv6 address without a scope: eight groups, or fewer with one pair of
colons that stands for at least one group of zeros. -/
def isUnscopedIPv6 (t : Text) : Bool :=
  match Text.cut? [':', ':'] t with
  | none => width? (groups t) == some 8
  | some (high, low) =>
    (groups high).all isGroup && (width? (groups low)).any fun n => (groups high).length + n ≤ 7

/-- Whether the text is an IPv6 address.  A scope follows the address behind a percent sign, is not
empty and holds no further percent sign. -/
def isIPv6 (t : Text) : Bool :=
  match Text.cut? ['%'] t with
  | none => isUnscopedIPv6 t
  | some (address, scope) => isUnscopedIPv6 address && !scope.isEmpty && !scope.contains '%'

/-- Whether what follows the letter `v` is a version in hexadecimal digits, a point and an
address. -/
def isFutureAddress (t : Text) : Bool :=
  match t.span Text.isHexDigit with
  | (_ :: _, '.' :: _ :: _) => true
  | _ => false

/-- Whether the text can stand between the square brackets of an authority. -/
def isBracketedHost : Text → Bool
  | 'v' :: rest => isFutureAddress rest
  | t => isIPv6 t

end UtilityClass.Uri
