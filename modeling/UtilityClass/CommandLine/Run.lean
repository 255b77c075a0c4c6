import UtilityClass.CommandLine.Output
import UtilityClass.CommandLine.Request
import UtilityClass.Value.Color

/-!
# Runs

A run of the program reads a request, loads the environment, lets the command find its tokens,
parses them and reports.  `Program.run` gives what is printed and the exit status.

The error stream takes every text: what its encoding lacks is written there by escapes.  Standard
output does not, and a run that prints what its output does not take breaks off.
-/

namespace UtilityClass

/-- What a run leaves behind. -/
structure Outcome where
  exit : Nat
  stdout : Text
  stderr : Text
  /-- Whether the run broke off in printing; then a traceback follows on the error stream. -/
  traceback : Bool
  deriving DecidableEq, Repr

/-- What breaks a run off without any outcome. -/
inductive Fault where
  | value (e : Value.Fault)
  | environment (e : Environment.Fault)
  /-- A command without a way to find tokens, or a file that is not text. -/
  | command (e : CommandError)
  deriving DecidableEq, Repr

/-- The wording of a fault. -/
def Fault.message : Fault → Text
  | value .unclosedAddress => "a value holds an address that is never closed"
  | environment e => e.message?.getD "the environment file is not text"
  | command e => e.message?.getD "a file is not text"

namespace Program

variable (out : Output)

/-- Lines, each with the line feed that ends it. -/
def printed (lines : List Text) : Text := lines.flatMap (· ++ ['\n'])

/-- Prints a text and goes on with what is printed.  If the output does not take the text, nothing
is printed and the run breaks off. -/
def print (t stderr : Text) (next : Text → Outcome) : Outcome :=
  if out.carries t then next t else ⟨1, [], stderr, true⟩

/-! ## Help -/

/-- The screen that lists the options. -/
def helpScreen : Text := printed [
  "usage: tw-candidate [-h] [--env-file PATH] [-v] COMMAND ...",
  "",
  "Parse utility-class tokens into structured candidates."]

/-- A name in a column of ten characters. -/
def padded (name : Text) : Text := name ++ List.replicate (10 - name.length) ' '

/-- The list of commands. -/
def commandList : List Text :=
  ["Available commands:".toList, []]
    ++ Command.all.map (fun c => "  ".toList ++ padded c.name ++ [' '] ++ c.headline)
    ++ [[], "Run: tw-candidate help <command> for full docs."]

/-- The documentation of one command or of all. -/
def manual (stderr : Text) : Option Text → Outcome
  | none => print out (printed commandList) stderr fun stdout => ⟨0, stdout, stderr, false⟩
  | some topic =>
    match Command.named? topic with
    | some c => print out (printed c.manual) stderr fun stdout => ⟨0, stdout, stderr, false⟩
    | none =>
      ⟨1, [], stderr ++ printed [
        "Unknown command: ".toList ++ topic,
        "Available: ".toList ++ List.intercalate [',', ' '] Command.allNames], false⟩

/-! ## Jobs -/

/-- What a note is logged under. -/
def logLead : Text := "tw_candidate.core.candidate_parser: "

/-- The log of a run, if a log is asked for. -/
def logOf (verbose : Bool) (notes : List Note) : Text :=
  if verbose then printed ((notes.filterMap Note.message?).map (logLead ++ ·)) else []

/-- The tokens that were rejected. -/
def rejectedTokens (results : Cache) : List Text :=
  (results.entries.filter fun e => e.2.isNone).map Prod.fst

/-- The list of rejected tokens. -/
def rejectionList (rejected : List Text) : Text := printed (
  [[], "FAIL: ".toList ++ Text.ofNat rejected.length
    ++ " token(s) are not recognisable utilities:".toList]
  ++ rejected.map ("  ".toList ++ ·))

variable [ColorReader]

/-- The report on a job, in the form that the job asks for. -/
def reportOf (job : Job) (results : Cache) : Text :=
  if job.json then Report.json job.emptyPrefix results else Report.text results

/-- The report on a job that is done, and what follows it. -/
def conclude (job : Job) (stderr : Text) (results : Cache) : Outcome :=
  -- the list comes behind the report: without a report there is no list
  print out (printed [reportOf job results]) stderr fun stdout =>
    let rejected := rejectedTokens results
    if job.failOnReject ∧ rejected ≠ [] then
      ⟨1, stdout, stderr ++ rejectionList rejected, false⟩
    else ⟨0, stdout, stderr, false⟩

/-- Parses the tokens of a job under a configuration. -/
def work (job : Job) (verbose : Bool) (stderr : Text) (config : Config) (tokens : List Text) :
    Except Fault Outcome :=
  let traced := (Parser.parseMany ⟨config, .standard⟩ .empty tokens).1
  match traced.answer with
  | .error e => .error (.value e)
  | .ok results => .ok (conclude out job (stderr ++ logOf verbose traced.notes) results)

/-- Does a job. -/
def perform (w : World) (job : Job) (verbose : Bool) (stderr : Text) : Except Fault Outcome :=
  match Config.ofSettings (Settings.resolve w.environment job.given) with
  | .error e => .ok ⟨1, [], stderr ++ printed ["Error: ".toList ++ e.message], false⟩
  | .ok config =>
    match job.command.tokens w job.operands with
    | .ok tokens => work out job verbose stderr config tokens
    | .error (.fileNotFound path) =>
      .ok ⟨1, [], stderr ++ printed [((CommandError.fileNotFound path).message?).getD []], false⟩
    | .error e => .error (.command e)

/-! ## The program -/

/-- The outcome of a command line that asks for nothing. -/
def refused : Refusal → Outcome
  | .helpScreen => print out helpScreen [] fun stdout => ⟨0, stdout, [], false⟩
  | .usage command e =>
    let name := match command with
      | some c => programName ++ [' '] ++ c
      | none => programName
    ⟨2, [], printed [name ++ ": error: ".toList ++ e.message], false⟩

/-- Carries out a request in a world whose environment is loaded. -/
def fulfil (w : World) (request : Request) (stderr : Text) : Except Fault Outcome :=
  match request.task with
  | .none => .ok (print out helpScreen stderr fun stdout => ⟨1, stdout, stderr, false⟩)
  | .manual topic => .ok (manual out stderr topic)
  | .job job => perform out w job request.verbose stderr

/-- Runs the program; where nothing is said of the output, it takes every text. -/
def run (w : World) (arguments : List Text) (out : Output := .unicode) : Except Fault Outcome :=
  match Request.ofArguments arguments with
  | .error e => .ok (refused out e)
  | .ok request =>
    let loaded := Environment.load w.environment w.tree w.here request.envFile
    match loaded.fault with
    | some e => .error (.environment e)
    | none =>
      let stderr := match loaded.source with
        | some path => printed [programName ++ ": loaded ".toList ++ path]
        | none => []
      fulfil out { w with environment := loaded.environment } request stderr

end Program

end UtilityClass
