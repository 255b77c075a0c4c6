import UtilityClass.CommandLine.Arguments
import UtilityClass.CommandLine.Command
import UtilityClass.Report.Results

/-!
# Requests

The command line of the program: global options, a command, and the options and operands of the
command.  `Request.ofArguments` says what is asked for, or why nothing is.
-/

namespace UtilityClass

/-- The options of the program. -/
inductive OptionKey where
  | help
  | envFile
  | verbose
  | json
  | separator
  | classPrefix
  | stripPrefix
  | failOnReject
  deriving DecidableEq, Repr

/-- The options that ask for help. -/
def helpOption : OptionSpec OptionKey := ⟨.help, ["-h", "--help"], false⟩

/-- Global options, then a command. -/
def programGrammar : Grammar OptionKey where
  options := [
    helpOption,
    ⟨.envFile, ["--env-file"], true⟩,
    ⟨.verbose, ["-v", "--verbose"], false⟩]
  help := .help
  operands := .leading

/-- The options and operands of a command that finds tokens. -/
def commandGrammar (c : Command) : Grammar OptionKey where
  options := [
    helpOption,
    ⟨.json, ["-j", "--json"], false⟩,
    ⟨.separator, ["-s", "--separator"], true⟩,
    ⟨.classPrefix, ["--prefix"], true⟩,
    ⟨.stripPrefix, ["--strip-prefix"], false⟩,
    ⟨.failOnReject, ["--fail-on-reject"], false⟩]
  help := .help
  operands := .oneOrMore c.operandLabel

/-- The command that prints documentation takes the name of a command. -/
def helpGrammar : Grammar OptionKey := ⟨[helpOption], .help, .optional⟩

/-- The name of the program. -/
def programName : Text := "tw-candidate"

/-- The name of the command that prints documentation. -/
def helpName : Text := "help"

/-- What a command that finds tokens is asked to do. -/
structure Job where
  command : Command
  operands : List Text
  given : GivenSettings
  json : Bool
  /-- How the JSON report writes an empty class prefix. -/
  emptyPrefix : EmptyPrefix
  failOnReject : Bool

/-- What a command line asks for. -/
inductive Task where
  /-- No command is given. -/
  | none
  /-- Documentation, of one command or of all. -/
  | manual (topic : Option Text)
  | job (job : Job)

/-- A task with the global options. -/
structure Request where
  envFile : Option Text
  verbose : Bool
  task : Task

/-- Why a command line asks for nothing. -/
inductive Refusal where
  /-- The screen that lists the options is asked for. -/
  | helpScreen
  /-- Something is wrong with the arguments of the program or of one of its commands. -/
  | usage (command : Option Text) (e : UsageError)
  deriving DecidableEq, Repr

namespace Grammar

/-- The option as it was given last: nothing if it was not given, and no value inside if it was
given without one. -/
def Reading.given? (r : Reading OptionKey) (key : OptionKey) : Option (Option Text) :=
  r.settings.reverse.lookup key

/-- The text given for an option; an option without a value gives the empty text. -/
def Reading.text? (r : Reading OptionKey) (key : OptionKey) : Option Text :=
  (r.given? key).map (·.getD [])

/-- Whether an option was given. -/
def Reading.has (r : Reading OptionKey) (key : OptionKey) : Bool := (r.given? key).isSome

end Grammar

namespace Request

/-- Reading that ended early, as seen by the caller of the program. -/
def refuse (command : Option Text) : Grammar.Stop → Refusal
  | .help => .helpScreen
  | .error e => .usage command e

/-- The job that the arguments of a command describe. -/
def jobOf (c : Command) (r : Grammar.Reading OptionKey) : Job where
  command := c
  operands := r.operands
  given := {
    separator := r.text? .separator
    classPrefix := r.text? .classPrefix
    stripPrefix := if r.has .stripPrefix then some true else none }
  json := r.has .json
  emptyPrefix := if r.given? .classPrefix = some none then .array else .string
  failOnReject := r.has .failOnReject

/-- The names that can stand for a command. -/
def choices : List Text := Command.allNames ++ [helpName]

/-- The task that a command and its arguments describe, and the arguments left over. -/
def taskOf : List Text → Except Refusal (Task × List Text)
  | [] => .ok (.none, [])
  | name :: arguments =>
    match Command.named? name with
    | some c =>
      match (commandGrammar c).read arguments with
      | .error stop => .error (refuse (some name) stop)
      | .ok r => .ok (.job (jobOf c r), r.leftOver)
    | none =>
      if name = helpName then
        match helpGrammar.read arguments with
        | .error stop => .error (refuse (some name) stop)
        | .ok r => .ok (.manual r.operands.head?, r.leftOver)
      else .error (.usage none (.invalidChoice "command" name choices))

/-- What the arguments of the program ask for. -/
def ofArguments (arguments : List Text) : Except Refusal Request :=
  match programGrammar.read arguments with
  | .error stop => .error (refuse none stop)
  | .ok r =>
    match taskOf r.operands with
    | .error e => .error e
    | .ok (task, leftOver) =>
      match r.leftOver ++ leftOver with
      | [] => .ok ⟨r.text? .envFile, r.has .verbose, task⟩
      | first :: more => .error (.usage none (.unrecognized (first :: more)))

end Request

end UtilityClass
