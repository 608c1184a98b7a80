/-!
A directory in memory: files with relative paths, and the directories on the way to them.
-/

namespace Orchestrator.Command

/-- The files, each with the names that lead to it, and what they hold. -/
structure FileTree where
  files : List (List String × String)

namespace FileTree

/-- A tree of files whose paths are written with slashes. -/
def ofFiles (files : List (String × String)) : FileTree :=
  ⟨files.map (fun f => ((f.1.splitOn "/").filter (fun p => p ≠ "" && p ≠ "."), f.2))⟩

def file? (t : FileTree) (place : List String) : Option String := t.files.lookup place

/-- The place is the tree itself or on the way to a file. -/
def isDirectory (t : FileTree) (place : List String) : Bool :=
  place.isEmpty || t.files.any (fun f => place.length < f.1.length && f.1.take place.length = place)

inductive ReadFault
  | missing
  | notADirectory
  | isADirectory
  | nameTooLong
  /-- No path can hold the character of code zero. -/
  | zeroInPath
  deriving DecidableEq, Repr

def ReadFault.message : ReadFault → String
  | missing => "No such file or directory (os error 2)"
  | notADirectory => "Not a directory (os error 20)"
  | isADirectory => "Is a directory (os error 21)"
  | nameTooLong => "File name too long (os error 36)"
  | zeroInPath => "file name contained an unexpected NUL byte"

def nameLimit : Nat := 255

def pathLimit : Nat := 4096

/-- Follows the parts of a path from a place on, none being a directory outside the tree. Of what is outside only the
directories above are known. -/
def follow (t : FileTree) : (place : Option (List String)) → (parts : List String) → Except ReadFault String
  | none, [] => .error .isADirectory
  | some place, [] =>
    match t.file? place with
    | some content => .ok content
    | none => .error .isADirectory
  | place, part :: rest =>
    if (place.bind t.file?).isSome then .error .notADirectory
    else if part = "" || part = "." then follow t place rest
    else if part = ".." then
      follow t (place.bind fun place => if place.isEmpty then none else some place.dropLast) rest
    else if nameLimit < part.utf8ByteSize then .error .nameTooLong
    else
      match place.map (· ++ [part]) with
      | none => .error .missing
      | some next =>
        if (t.file? next).isSome || t.isDirectory next then follow t (some next) rest else .error .missing

/-- Reads the file that a path leads to; one that begins with a slash begins outside the tree. -/
def read (t : FileTree) (path : String) : Except ReadFault String :=
  if path.toList.contains (Char.ofNat 0) then .error .zeroInPath
  else if path = "" then .error .missing
  else if pathLimit ≤ path.utf8ByteSize then .error .nameTooLong
  else t.follow (if path.toList.head? = some '/' then none else some []) (path.splitOn "/")

end FileTree

end Orchestrator.Command
