import UtilityClass.Candidate.Segments
import UtilityClass.Candidate.Flagged
import UtilityClass.Candidate.Modifier
import UtilityClass.Candidate.Body

/-!
# Tokens

A token is read from the outside in: variants, flags, modifier, body.  `Candidate.ofToken` gives
the candidate, not yet checked, or the reason why the token is none.
-/

namespace UtilityClass

/-- Why a token is no candidate. -/
inductive Rejection where
  | noText
  | missingPrefix (classPrefix : Text)
  | emptyName
  | invalidProperty (name : Text)
  | looksLikeUri
  | invalidValue (value : Text)
  deriving DecidableEq, Repr

/-- What is noted about a rejected token; the empty token is passed over in silence. -/
def Rejection.message? (raw : Text) : Rejection → Option Text
  | noText => none
  | missingPrefix p => some ("rejected ".toList ++ Text.quoted raw ++ ": missing prefix ".toList
      ++ Text.quoted p)
  | emptyName => some ("rejected ".toList ++ Text.quoted raw ++ ": empty utility name".toList)
  | invalidProperty name => some ("rejected ".toList ++ Text.quoted raw
      ++ ": invalid property name ".toList ++ Text.quoted name)
  | looksLikeUri => some ("rejected ".toList ++ Text.quoted raw ++ ": looks like a URI".toList)
  | invalidValue value => some ("rejected ".toList ++ Text.quoted raw
      ++ ": invalid arbitrary value ".toList ++ Text.quoted value)

/-- The candidate that a token spells, not yet checked. -/
def Candidate.ofToken (config : Config) (raw : Text) : Except Rejection Candidate :=
  if raw = [] then .error .noText
  else
    let segments := Segments.split config.separator raw
    match Flagged.ofBase? config segments.base with
    | none => .error (.missingPrefix config.classPrefix)
    | some flagged =>
      let (text, modifiers) := Modifier.split flagged.text
      if text = [] then .error .emptyName
      else .ok {
        raw := raw
        classPrefix := config.classPrefix
        important := flagged.important
        negative := flagged.negative
        variants := segments.variants.map Part.ofSegment
        modifiers := modifiers
        body := Body.ofText text }

end UtilityClass
