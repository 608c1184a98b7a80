import Orchestrator.Command.Path
import Orchestrator.Data.Json.Reader
import Orchestrator.Data.Toml.Reader
import Orchestrator.Encoding.Scenario
/-!
Loading scenarios: the extension of the path decides how the document is read.
-/

namespace Orchestrator.Command

open Data

/-- Reads a scenario from the text of the file at a path. -/
def readScenario (path content : String) : Except (List String) Scenario :=
  match Path.extension? path with
  | some "toml" =>
    match (Toml.read? content).bind Scenario.decode? with
    | some s => .ok s
    | none => .error ["Invalid TOML in " ++ path]
  | some "json" =>
    match (Json.read? content).bind Scenario.decode? with
    | some s => .ok s
    | none => .error ["Invalid JSON in " ++ path]
  | some other => .error ["Unsupported scenario format '." ++ other ++ "' (use .toml or .json)"]
  | none => .error ["Scenario file needs a .toml or .json extension"]

/-- Loads the scenario at a path and rejects one with a reference that leads nowhere. The content of the file is given,
or what the system says instead. -/
def loadScenario (path : String) (content : Except String String) : Except (List String) Scenario := do
  match content with
  | .error message => throw ["Could not read " ++ path, message]
  | .ok content =>
    let s ← readScenario path content
    match s.validate with
    | .ok () => return s
    | .error fault => throw (("Invalid scenario " ++ path) :: fault.chain)

end Orchestrator.Command
