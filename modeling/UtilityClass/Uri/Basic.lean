import UtilityClass.Uri.Host

/-!
# URIs

A text is split into scheme, authority and path as a URI is.  The split fails where the authority
is malformed: an unpaired square bracket, a bad host between brackets, or a character that stands
for a delimiter under compatibility normalisation.  `Uri.isUriLike` tells absolute URLs from
declarations.
-/

namespace UtilityClass

/-- The parts of a URI that tell whether it is absolute. -/
structure Uri where
  scheme : Text
  authority : Text
  path : Text
  deriving DecidableEq, Repr

namespace Uri

/-- The text without control characters and spaces at its front, and without tabs and line ends
anywhere. -/
def clean (t : Text) : Text :=
  (t.dropWhile fun c => c.toNat ≤ 0x20).filter fun c => c != '\t' && c != '\r' && c != '\n'

/-- A character of a scheme. -/
def isSchemeChar (c : Char) : Bool :=
  Text.isAsciiAlphanumeric c || c == '+' || c == '-' || c == '.'

/-- Whether a text is a letter and then scheme characters. -/
def isScheme : Text → Bool
  | [] => false
  | c :: rest => Text.isAsciiLetter c && rest.all isSchemeChar

/-- The scheme before the first colon, and what follows it; no scheme if none can stand there. -/
def takeScheme (t : Text) : Text × Text :=
  match Text.cut? [':'] t with
  | some (scheme, rest) => if isScheme scheme then (scheme, rest) else ([], t)
  | none => ([], t)

/-- The authority behind two slashes, and what follows it. -/
def takeAuthority : Text → Text × Text
  | '/' :: '/' :: rest => rest.span fun c => c != '/' && c != '?' && c != '#'
  | t => ([], t)

/-- The host in a location, which is an authority without its user information, as far as square
brackets are concerned.  Nothing may stand before a bracketed host, and only a colon right behind
it. -/
def bracketedHost? (location : Text) : Option Text :=
  match Text.cut? ['['] location with
  | none => some (Text.before [':'] location)
  | some (front, inner) =>
    match Text.cut? [']'] inner with
    -- the bracket that closes stands in the user information
    | none => if front.isEmpty then some inner else none
    | some (host, behind) =>
      if front.isEmpty ∧ (behind.isEmpty ∨ behind.head? = some ':') then some host else none

/-- Whether the brackets of an authority are in order. -/
def hasGoodBrackets (authority : Text) : Bool :=
  if authority.contains '[' ∧ authority.contains ']' then
    (bracketedHost? (Text.afterLast '@' authority)).any isBracketedHost
  else !authority.contains '[' && !authority.contains ']'

/-- The characters past ASCII whose compatibility form holds a slash, a question mark, a hash sign,
an at sign or a colon. -/
def delimiterLookalikes : List Char := [
  '\u2047', '\u2048', '\u2049', '\u2100', '\u2101', '\u2105', '\u2106', '\u2A74', '\uFE13',
  '\uFE16', '\uFE55', '\uFE56', '\uFE5F', '\uFE6B', '\uFF03', '\uFF0F', '\uFF1A', '\uFF1F',
  '\uFF20']

/-- Splits a text as a URI; nothing if the authority is malformed. -/
def split? (t : Text) : Option Uri :=
  let (scheme, rest) := takeScheme (clean t)
  let (authority, tail) := takeAuthority rest
  if hasGoodBrackets authority && !authority.any delimiterLookalikes.contains then
    some ⟨scheme, authority, Text.before ['?'] (Text.before ['#'] tail)⟩
  else none

/-- Whether a URI names both a scheme and an authority. -/
def isAbsolute (u : Uri) : Bool := !u.scheme.isEmpty && !u.authority.isEmpty

/-- The mark of a scheme with an authority. -/
def authorityMark : Text := "://"

/-- Whether the path of a URI is itself an absolute URI. -/
def nestsAbsolute (u : Uri) : Bool :=
  !u.scheme.isEmpty && Text.occurs authorityMark u.path && (split? u.path).any isAbsolute

/-- Whether a declaration reads as an absolute URL, directly or behind a first scheme. -/
def isUriLike (t : Text) : Bool :=
  Text.occurs authorityMark t && (split? t).any fun u => u.isAbsolute || u.nestsAbsolute

end Uri

end UtilityClass
