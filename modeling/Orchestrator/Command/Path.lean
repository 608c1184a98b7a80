/-!
Paths of files: their parts, their extension, and the home directory in them.
-/

namespace Orchestrator.Command.Path

/-- The parts between slashes, those that stand for nothing left out. -/
def parts (path : String) : List String := (path.splitOn "/").filter (fun p => p ≠ "" && p ≠ ".")

def fileName? (path : String) : Option String :=
  match (parts path).getLast? with
  | some ".." => none
  | name => name

/-- What stands after the last dot of the file name, unless the name begins with that dot. -/
def extension? (path : String) : Option String :=
  match fileName? path with
  | none => none
  | some name =>
    let back := name.toList.reverse
    match back.dropWhile (· ≠ '.') with
    | _ :: _ :: _ => some (String.ofList (back.takeWhile (· ≠ '.')).reverse)
    | _ => none

/-- A tilde at the beginning, alone or before a slash, stands for the home directory. -/
def expand (home path : String) : String :=
  match path.toList with
  | ['~'] => home
  | '~' :: '/' :: rest => home ++ "/" ++ String.ofList rest
  | _ => path

def standard (home : String) : String := home ++ "/.config/plugctl/scenario.toml"

end Orchestrator.Command.Path
