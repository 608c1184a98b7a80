import Orchestrator.Data.Value
/-!
Writing JSON, on one line or spread over lines with an indent of two blanks. Only what must be escaped is escaped.
-/

namespace Orchestrator.Data.Json

def hexDigit (n : Nat) : Char := Char.ofNat (if n < 10 then 48 + n else 87 + n)

/-- A character as it stands between quotes. -/
def writeChar (c : Char) : List Char :=
  if c = '"' then ['\\', '"']
  else if c = '\\' then ['\\', '\\']
  else if 0x20 ≤ c.toNat then [c]
  else
    match c.toNat with
    | 0x08 => ['\\', 'b']
    | 0x09 => ['\\', 't']
    | 0x0A => ['\\', 'n']
    | 0x0C => ['\\', 'f']
    | 0x0D => ['\\', 'r']
    | n => ['\\', 'u', '0', '0', hexDigit (n / 16), hexDigit (n % 16)]

def writeText (s : String) : String := "\"" ++ String.ofList (s.toList.flatMap writeChar) ++ "\""

def newline (depth : Nat) : String := "\n" ++ String.ofList (List.replicate (2 * depth) ' ')

mutual

def compact : Value → String
  | .null => "null"
  | .bool b => if b then "true" else "false"
  | .int i => toString i
  | .real => "null"
  | .text s => writeText s
  | .list items | .array items => "[" ++ compactItems items ++ "]"
  | .record members | .table members => "\x7b" ++ compactMembers members ++ "\x7d"
  | .garbled => "null"

def compactItems : List Value → String
  | [] => ""
  | [v] => compact v
  | v :: rest => compact v ++ "," ++ compactItems rest

def compactMembers : List (String × Value) → String
  | [] => ""
  | [(k, v)] => writeText k ++ ":" ++ compact v
  | (k, v) :: rest => writeText k ++ ":" ++ compact v ++ "," ++ compactMembers rest

end

mutual

/-- The value spread over lines, its first line standing at the given depth. -/
def spread (depth : Nat) : Value → String
  | .null => "null"
  | .bool b => if b then "true" else "false"
  | .int i => toString i
  | .real => "null"
  | .text s => writeText s
  | .list [] | .array [] => "[]"
  | .list items | .array items => "[" ++ newline (depth + 1) ++ spreadItems (depth + 1) items ++ newline depth ++ "]"
  | .record [] | .table [] => "\x7b\x7d"
  | .record members | .table members =>
    "\x7b" ++ newline (depth + 1) ++ spreadMembers (depth + 1) members ++ newline depth ++ "\x7d"
  | .garbled => "null"

def spreadItems (depth : Nat) : List Value → String
  | [] => ""
  | [v] => spread depth v
  | v :: rest => spread depth v ++ "," ++ newline depth ++ spreadItems depth rest

def spreadMembers (depth : Nat) : List (String × Value) → String
  | [] => ""
  | [(k, v)] => writeText k ++ ": " ++ spread depth v
  | (k, v) :: rest => writeText k ++ ": " ++ spread depth v ++ "," ++ newline depth ++ spreadMembers depth rest

end

/-- The document that says a value, spread over lines. -/
def pretty (v : Value) : String := spread 0 v

end Orchestrator.Data.Json
