import UtilityClass.Text.Blank
import UtilityClass.Text.Quoted

/-!
# Configurations

A configuration says which text separates the variants of a token, which class prefix the tokens
carry, and whether that prefix is required and removed.  Unusable settings are refused when the
configuration is built (`Config.ofSettings`), so a `Config` carries the proofs that its settings
are usable.
-/

namespace UtilityClass

/-- Whether a text can separate variants: it holds neither a square bracket nor a blank. -/
def isSeparatorText (t : Text) : Bool :=
  t.all fun c => c ≠ '[' && c ≠ ']' && !Text.isBlank c

/-- Whether a text can be a class prefix: it holds no blank. -/
def isPrefixText (t : Text) : Bool := t.all fun c => !Text.isBlank c

/-- Settings as they are given, usable or not. -/
structure Settings where
  separator : Text := ":"
  classPrefix : Text := []
  stripPrefix : Bool := false
  deriving DecidableEq, Repr

/-- How tokens are read. -/
structure Config where
  separator : Text
  classPrefix : Text
  stripPrefix : Bool
  separator_ne_nil : separator ≠ []
  separator_ok : isSeparatorText separator = true
  classPrefix_ok : isPrefixText classPrefix = true
  deriving DecidableEq

namespace Config

/-- Why settings cannot be used. -/
inductive Error where
  | emptySeparator
  | badSeparator (separator : Text)
  | badPrefix (classPrefix : Text)
  deriving DecidableEq

/-- The wording of an unusable setting. -/
def Error.message : Error → Text
  | emptySeparator => "separator must not be empty"
  | badSeparator s =>
    "separator ".toList ++ Text.quoted s ++ " may not contain brackets or whitespace".toList
  | badPrefix p => "prefix ".toList ++ Text.quoted p ++ " may not contain whitespace".toList

/-- The configuration with the given settings.  A bad separator is reported before a bad prefix. -/
def ofSettings (s : Settings) : Except Error Config :=
  if hne : s.separator = [] then .error .emptySeparator
  else if hsep : isSeparatorText s.separator then
    if hpre : isPrefixText s.classPrefix then
      .ok ⟨s.separator, s.classPrefix, s.stripPrefix, hne, hsep, hpre⟩
    else .error (.badPrefix s.classPrefix)
  else .error (.badSeparator s.separator)

/-- Variants are separated by a colon, and there is no class prefix. -/
def default : Config := ⟨":", [], false, by decide, by decide, by decide⟩

/-- The text that every token has to carry after its flags. -/
def requiredPrefix (config : Config) : Text :=
  if config.stripPrefix then config.classPrefix else []

/-- Settings are usable exactly when the separator is a non-empty separator text and the prefix
holds no blank. -/
theorem ofSettings_isOk_iff (s : Settings) :
    (ofSettings s).isOk = true ↔
      s.separator ≠ [] ∧ isSeparatorText s.separator = true ∧
        isPrefixText s.classPrefix = true := by
  simp only [ofSettings]
  split
  · simp_all [Except.isOk, Except.toBool]
  · split
    · split <;> simp_all [Except.isOk, Except.toBool]
    · simp_all [Except.isOk, Except.toBool]

end Config

end UtilityClass
