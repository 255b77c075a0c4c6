import UtilityClass.Config
import UtilityClass.Environment.EnvFile
import UtilityClass.FileTree
import UtilityClass.Text.Case

/-!
# Settings from the environment

Variables that are not set are taken from an environment file: the one that is named, or else the
nearest `.env` on the way out of the working directory, up to the directory that holds `.git`.
Settings come from arguments first, then from the environment, then from defaults.
-/

namespace UtilityClass

/-- Why an environment file cannot be found or loaded. -/
inductive Environment.Fault where
  /-- The file is not text. -/
  | undecodable
  /-- A key, a value or a path holds a NUL character. -/
  | nulCharacter
  /-- A path that had to be looked up is too long, or a name in it. -/
  | longPath (path : Text)
  deriving DecidableEq, Repr

/-- The wording of a fault, if it is put into words. -/
def Environment.Fault.message? : Environment.Fault → Option Text
  | undecodable => none
  | nulCharacter => some "embedded null byte"
  | longPath path => some ("[Errno 36] File name too long: ".toList ++ Text.quoted path)

namespace EnvFile

/-- The name of an environment file. -/
def fileName : Text := ".env"

/-- The entry that marks the directory where the search ends. -/
def boundaryName : Text := ".git"

/-- The nearest environment file from a place outwards. -/
def find? (tree : FileTree) (start : Path) : Option Path :=
  tree.searchOutwards fileName boundaryName start.reverse

/-- The nearest environment file from the place outwards that the text of a path names; nothing
need be at the place. -/
def search (tree : FileTree) (here : Path) (start : Text) :
    Except Environment.Fault (Option Path) :=
  if '\x00' ∈ start then .error .nulCharacter
  else
    let place := Path.resolve here start
    let first := (place ++ [fileName]).text
    if Path.isLongText first ∨ tree.stumbles (place.take 1) (place.drop 1) then
      .error (.longPath first)
    else .ok (find? tree place)

/-- The text of the path that stays where it is. -/
def hereText : Text := ['.']

/-- The environment file to load, as it is shown and with its bytes.  A file that is named is the
only choice; an empty name names none, and nothing is found under a name with a NUL character.  If
none is named, the search starts in the working directory. -/
def select (tree : FileTree) (here : Path) (named : Option Text) :
    Except Environment.Fault (Option (Text × ByteArray)) :=
  match named with
  | some (c :: rest) =>
    let shown := Path.tidy (c :: rest)
    if '\x00' ∈ shown then .ok none
    else if Path.isLongText shown ∨ tree.stumbles (Path.origin here shown) (Path.names shown) then
      .error (.longPath shown)
    else .ok ((tree.fileAt? here shown).map fun bytes => (shown, bytes))
  | _ => (search tree here hereText).map fun found =>
    found.bind fun p => (tree.file? p).map fun bytes => (p.text, bytes)

end EnvFile

namespace Environment

/-- Sets the variables that are not set yet, one by one, up to one that cannot be set. -/
def define (env : Environment) : List (Text × Text) → Environment × Option Fault
  | [] => (env, none)
  | (key, value) :: more =>
    if env.contains key then define env more
    else if '\x00' ∈ key ∨ '\x00' ∈ value then (env, some .nulCharacter)
    else define (env.insert key value) more

/-- An environment after loading, with the file that was loaded. -/
structure Loaded where
  source : Option Text
  environment : Environment
  fault : Option Fault

/-- Loads the selected environment file. -/
def load (env : Environment) (tree : FileTree) (here : Path) (named : Option Text) : Loaded :=
  match EnvFile.select tree here named with
  | .error e => ⟨none, env, some e⟩
  | .ok none => ⟨none, env, none⟩
  | .ok (some (shown, bytes)) =>
    match Text.ofBytes? bytes with
    | none => ⟨some shown, env, some .undecodable⟩
    | some t =>
      let (env', fault) := env.define (EnvFile.read t).entries
      ⟨some shown, env', fault⟩

end Environment

/-- Settings as arguments give them; what is not given is taken from elsewhere. -/
structure GivenSettings where
  separator : Option Text := none
  classPrefix : Option Text := none
  stripPrefix : Option Bool := none
  deriving DecidableEq, Repr

namespace Settings

/-- The variable that sets the separator. -/
def separatorVariable : Text := "TW_SEPARATOR"

/-- The variable that sets the class prefix. -/
def prefixVariable : Text := "TW_PREFIX"

/-- The variable that says whether the class prefix is required and removed. -/
def stripVariable : Text := "TW_STRIP_PREFIX"

/-- Whether the value of a variable means yes. -/
def isYes (value : Text) : Bool :=
  (["1", "true", "yes", "on"] : List Text).contains (Text.strip value).lower

/-- The settings from arguments, then from the environment, then from defaults. -/
def resolve (env : Environment) (given : GivenSettings) : Settings where
  separator := given.separator.getD ((env.find? separatorVariable).getD ":")
  classPrefix := given.classPrefix.getD ((env.find? prefixVariable).getD [])
  stripPrefix := given.stripPrefix.getD ((env.find? stripVariable).any isYes)

end Settings

end UtilityClass
