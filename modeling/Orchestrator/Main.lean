import Orchestrator.Command.Run
/-!
The command line program.
-/

open Orchestrator Orchestrator.Command

def systemMessage : IO.Error → String
  | .noFileOrDirectory .. => "No such file or directory (os error 2)"
  | .inappropriateType .. => "Is a directory (os error 21)"
  | e => toString e

/-- Reads a file, or says why that cannot be. -/
def readContent (path : String) : IO (Except String String) := do
  try
    return .ok (← IO.FS.readFile path)
  catch e =>
    return .error (systemMessage e)

def printLines (lines : List Terminal.Line) : IO Unit :=
  lines.forM fun
    | .out text => IO.println text
    | .err text => IO.eprintln text

def main (args : List String) : IO UInt32 := do
  match readArguments args with
  | .error .information =>
    IO.println "Usage: plugctl [-v] [-q] [-s FILE] (plan | apply | status | validate) [OPTIONS]"
    return 0
  | .error .misuse =>
    IO.eprintln "Usage: plugctl [-v] [-q] [-s FILE] (plan | apply | status | validate) [OPTIONS]"
    return 2
  | .ok invocation =>
    let home := (← IO.getEnv "HOME").getD ""
    let path := scenarioPath home (← IO.getEnv "PLUGCTL_SCENARIO") invocation
    let color := (← IO.getEnv "NO_COLOR").isNone && (← (← IO.getStdout).isTty)
    let result := run color invocation path (← readContent path)
    printLines result.lines
    match result.failure with
    | none => return 0
    | some chain =>
      IO.eprintln ("Error: " ++ ": ".intercalate chain)
      return 1
