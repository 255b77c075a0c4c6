import UtilityClass.CommandLine.Run

/-!
# The program

The outer layer: it takes a picture of the part of the world that a run can read, runs the program
on it, and prints the outcome.
-/

namespace UtilityClass.Main

/-- The variables that settings come from, as far as they are set. -/
def environment : IO Environment := do
  let names := [Settings.separatorVariable, Settings.prefixVariable, Settings.stripVariable]
  let pairs ← names.filterMapM fun name => do
    return (← IO.getEnv (String.ofList name)).map fun value => (name, value.toList)
  return .ofList pairs

/-- What is at a place. -/
def entry? (p : Path) : IO (Option Entry) := do
  let place := (← IO.currentDir) / (if p.text.isEmpty then "/" else String.ofList p.text)
  if ← place.isDir then return some .directory
  try return some (.file (← IO.FS.readBinFile place)) catch _ => return none

/-- The places that a walk along the text of a path passes. -/
def passed (here : Path) (t : Text) : List Path :=
  (List.range ((Path.names t).length + 1)).map fun n =>
    ((Path.names t).take n).foldl Path.enter (Path.origin here t)

/-- The places where the search for an environment file looks. -/
def searched (here : Path) : List Path :=
  (List.range here.length).flatMap fun n =>
    let place := here.take (n + 1)
    [place, place ++ [EnvFile.fileName], place ++ [EnvFile.boundaryName]]

/-- The texts in an argument that may be paths: all of it, and what is behind an equals sign. -/
def pathTexts (argument : Text) : List Text :=
  match Text.cut? ['='] argument with
  | some (_, value) => [argument, value]
  | none => [argument]

/-- The part of the world that a run with these arguments can read. -/
def world (arguments : List Text) : IO World := do
  let here := Path.resolve Path.root (← IO.currentDir).toString.toList
  let places := searched here ++ (arguments.flatMap pathTexts).flatMap (passed here)
  let entries ← places.filterMapM fun p => do return (← entry? p).map fun e => (p, e)
  let readsInput := arguments.contains Command.stdinOperand
  let stdin ← if readsInput then (← IO.getStdin).readToEnd else pure ""
  return ⟨.ofList entries, here, ← environment, stdin.toList⟩

end UtilityClass.Main

/-- Runs the program and prints its outcome; the result is the exit status. -/
def main (arguments : List String) : IO UInt32 := do
  let texts := arguments.map String.toList
  match UtilityClass.Program.run (← UtilityClass.Main.world texts) texts with
  | .ok outcome =>
    (← IO.getStdout).putStr (String.ofList outcome.stdout)
    (← IO.getStderr).putStr (String.ofList outcome.stderr)
    return outcome.exit.toUInt32
  | .error fault =>
    (← IO.getStderr).putStrLn
      (String.ofList (UtilityClass.programName ++ [':', ' '] ++ fault.message))
    return 1
