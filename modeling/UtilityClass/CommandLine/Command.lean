import UtilityClass.FileTree
import UtilityClass.Markup
import UtilityClass.Environment.Load

/-!
# Commands

A command finds tokens: `parse` takes them from its operands or from standard input, `scan` from
the class attributes of files.
-/

namespace UtilityClass

/-- All that a run of the program can read. -/
structure World where
  tree : FileTree
  /-- The working directory. -/
  here : Path
  environment : Environment
  stdin : Text

/-- Why a command finds no tokens. -/
inductive CommandError where
  /-- The command has no way to find tokens. -/
  | inert (name : Text)
  | fileNotFound (path : Text)
  /-- A file is not text. -/
  | undecodable
  deriving DecidableEq, Repr

/-- The wording of an error, if it is put into words. -/
def CommandError.message? : CommandError → Option Text
  | inert name => some ("Command ".toList ++ name ++ " has no run function".toList)
  | fileNotFound path => some ("Error: file not found: ".toList ++ path)
  | undecodable => none

/-- A command of the program. -/
structure Command where
  name : Text
  /-- What the command does, in one sentence. -/
  summary : Text := []
  /-- The full documentation. -/
  manual : List Text := []
  /-- What stands for an operand in messages. -/
  operandLabel : Text := []
  /-- How the command finds tokens. -/
  find? : Option (World → List Text → Except CommandError (List Text)) := none

namespace Command

/-- The tokens that a command finds. -/
def tokens (c : Command) (w : World) (operands : List Text) : Except CommandError (List Text) :=
  match c.find? with
  | some find => find w operands
  | none => .error (.inert c.name)

/-- The first line of the documentation. -/
def headline (c : Command) : Text := c.manual.headD c.summary

/-- The operand that stands for standard input. -/
def stdinOperand : Text := "-"

/-- Operands with the words of standard input in place of the operand that stands for it; standard
input is read once. -/
def expand (stdin : Text) : List Text → List Text
  | [] => []
  | operand :: more =>
    if operand = stdinOperand then Text.words stdin ++ expand [] more
    else operand :: expand stdin more

/-- The class tokens of files, one file after the other. -/
def tokensOfFiles (w : World) : List Text → Except CommandError (List Text)
  | [] => .ok []
  | path :: more =>
    match w.tree.fileAt? w.here path with
    | none => .error (.fileNotFound path)
    | some bytes =>
      match Text.ofBytes? bytes with
      | none => .error .undecodable
      | some t => (tokensOfFiles w more).map (Markup.tokens t ++ ·)

/-- Tokens given as operands. -/
def parse : Command where
  name := "parse"
  summary := "Parse tokens given as arguments (or - for stdin) into candidates."
  manual := [
    "Parse utility-class tokens given on the command line (or `-` for stdin).",
    "",
    "Each token is split into variants, flags, modifier and value, validated,",
    "and printed as a candidate. Rejected tokens are listed as `no candidate`.",
    "",
    "Example:",
    "    tw-candidate parse hover:focus:text-red-500 '!mt-4' 'bg-[length:200px]'",
    "    tw-candidate parse --json 'md:[&:hover]:!bg-[#bada55]/50'",
    "    echo '-mt-4 sm:flex hidden' | tw-candidate parse -",
    "    tw-candidate parse --separator _ hover_underline"]
  operandLabel := "TOKEN"
  find? := some fun w operands => .ok (expand w.stdin operands)

/-- Tokens in the class attributes of files. -/
def scan : Command where
  name := "scan"
  summary := "Extract class tokens from markup files and parse them."
  manual := [
    "Extract class tokens from markup files and parse each one.",
    "",
    "Reads class=\"...\", class='...' and className=\"...\" attributes from every",
    "file given, splits them on whitespace, and parses each distinct token once.",
    "Useful for spotting typos and invalid arbitrary values across templates.",
    "",
    "Example:",
    "    tw-candidate scan templates/index.html templates/base.html",
    "    tw-candidate scan --json --fail-on-reject src/App.jsx"]
  operandLabel := "FILE"
  find? := some tokensOfFiles

/-- All commands in the order of their names. -/
def all : List Command := [parse, scan]

/-- The names of all commands. -/
def allNames : List Text := all.map name

/-- The command with a name. -/
def named? (name : Text) : Option Command := all.find? fun c => c.name == name

/-- The wording of a look-up that finds no command. -/
def unknownMessage (name : Text) : Text :=
  "Unknown command: ".toList ++ name ++ ". Available: ".toList
    ++ List.intercalate [',', ' '] allNames

end Command

end UtilityClass
