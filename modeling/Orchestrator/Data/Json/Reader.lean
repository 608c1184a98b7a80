import Orchestrator.Data.Value
/-!
Reading JSON. The grammar is that of the standard: nothing may follow the value, nothing may trail in lists and
records, and there are no comments. A text with an unpaired surrogate is garbled and not refused, since only a reader
that wants it as a string has cause for complaint.
-/

namespace Orchestrator.Data.Json

def isBlank (c : Char) : Bool := c = ' ' || c = '\t' || c = '\n' || c = '\r'

def skipBlank (cs : List Char) : List Char := cs.dropWhile isBlank

def hexDigit? (c : Char) : Option Nat :=
  if '0' ≤ c ∧ c ≤ '9' then some (c.toNat - 48)
  else if 'a' ≤ c ∧ c ≤ 'f' then some (c.toNat - 87)
  else if 'A' ≤ c ∧ c ≤ 'F' then some (c.toNat - 55)
  else none

def hex? (digits : List Char) : Option Nat :=
  digits.foldl (fun acc c => acc.bind fun n => (hexDigit? c).map (16 * n + ·)) (some 0)

def isHigh (u : Nat) : Bool := 0xD800 ≤ u && u < 0xDC00

def isLow (u : Nat) : Bool := 0xDC00 ≤ u && u < 0xE000

/-- Joins surrogates that stand side by side, high before low; none if one stands alone. -/
def joinUnits : List Nat → Option (List Char)
  | [] => some []
  | u :: rest =>
    if isHigh u then
      match rest with
      | l :: rest =>
        if isLow l then (joinUnits rest).map (Char.ofNat (0x10000 + (u - 0xD800) * 0x400 + (l - 0xDC00)) :: ·) else none
      | [] => none
    else if isLow u then none
    else (joinUnits rest).map (Char.ofNat u :: ·)

def escaped? (c : Char) : Option Nat :=
  match c with
  | '"' => some 0x22
  | '\\' => some 0x5C
  | '/' => some 0x2F
  | 'b' => some 0x08
  | 'f' => some 0x0C
  | 'n' => some 0x0A
  | 'r' => some 0x0D
  | 't' => some 0x09
  | _ => none

/-- Reads up to the closing quote; the units so far come last first. -/
def readUnits : List Char → List Nat → Option (List Nat × List Char)
  | [], _ => none
  | '"' :: rest, units => some (units.reverse, rest)
  | '\\' :: 'u' :: a :: b :: c :: d :: rest, units =>
    match hex? [a, b, c, d] with
    | some u => readUnits rest (u :: units)
    | none => none
  | '\\' :: c :: rest, units =>
    match escaped? c with
    | some u => readUnits rest (u :: units)
    | none => none
  | c :: rest, units => if c.toNat < 0x20 || c = '\\' then none else readUnits rest (c.toNat :: units)

def readText (cs : List Char) : Option (Option String × List Char) :=
  (readUnits cs []).map fun (units, rest) => ((joinUnits units).map String.ofList, rest)

def decimal (digits : List Char) : Nat := digits.foldl (fun n c => 10 * n + (c.toNat - 48)) 0

def readDigits (cs : List Char) : Option (List Char × List Char) :=
  match cs.takeWhile Char.isDigit with
  | [] => none
  | digits => some (digits, cs.dropWhile Char.isDigit)

/-- An integer part has no leading zero. -/
def readWhole (cs : List Char) : Option (List Char × List Char) :=
  match cs with
  | '0' :: rest => if (rest.head?).any Char.isDigit then none else some (['0'], rest)
  | _ => readDigits cs

/-- Reads a fraction if there is one; the flag says whether there was. -/
def readFraction (cs : List Char) : Option (Bool × List Char) :=
  match cs with
  | '.' :: rest => (readDigits rest).map fun (_, rest) => (true, rest)
  | _ => some (false, cs)

def dropSign (cs : List Char) : List Char :=
  match cs with
  | '+' :: rest => rest
  | '-' :: rest => rest
  | _ => cs

/-- Reads an exponent if there is one; the flag says whether there was. -/
def readExponent (cs : List Char) : Option (Bool × List Char) :=
  match cs with
  | 'e' :: rest => (readDigits (dropSign rest)).map fun (_, rest) => (true, rest)
  | 'E' :: rest => (readDigits (dropSign rest)).map fun (_, rest) => (true, rest)
  | _ => some (false, cs)

/-- Reads a number without its sign. Only one with neither fraction nor exponent is an integer, and minus zero is not. -/
def readNumber (negative : Bool) (cs : List Char) : Option (Value × List Char) := do
  let (whole, cs) ← readWhole cs
  let (hasFraction, cs) ← readFraction cs
  let (hasExponent, cs) ← readExponent cs
  let n := decimal whole
  if hasFraction || hasExponent || (negative && n = 0) then return (.real, cs)
  else return (.int (if negative then -(n : Int) else n), cs)

def afterWord? (word cs : List Char) : Option (List Char) :=
  match word, cs with
  | [], cs => some cs
  | w :: word, c :: cs => if w = c then afterWord? word cs else none
  | _ :: _, [] => none

def readScalar (cs : List Char) : Option (Value × List Char) :=
  match cs with
  | 't' :: rest => (afterWord? ['r', 'u', 'e'] rest).map fun rest => (.bool true, rest)
  | 'f' :: rest => (afterWord? ['a', 'l', 's', 'e'] rest).map fun rest => (.bool false, rest)
  | 'n' :: rest => (afterWord? ['u', 'l', 'l'] rest).map fun rest => (.null, rest)
  | '"' :: rest => (readText rest).map fun (text, rest) => (text.elim .garbled .text, rest)
  | '-' :: rest => readNumber true rest
  | _ => readNumber false cs

/-- The record of members that were read last first; a key that no string can hold garbles it. -/
def close (members : List (Option String × Value)) : Value :=
  match members.reverse.mapM (fun m => m.1.map (fun key => (key, m.2))) with
  | some members => .record members
  | none => .garbled

mutual

/-- Reads a value, blanks before it included. -/
def readValue : (fuel : Nat) → List Char → Option (Value × List Char)
  | 0, _ => none
  | fuel + 1, cs =>
    match skipBlank cs with
    | '[' :: rest =>
      match skipBlank rest with
      | ']' :: rest => some (.list [], rest)
      | rest => readItems fuel rest []
    | '{' :: rest =>
      match skipBlank rest with
      | '}' :: rest => some (.record [], rest)
      | rest => readMembers fuel rest []
    | rest => readScalar rest

/-- Reads the items from the next one to the end of the list; those before it come last first. -/
def readItems : (fuel : Nat) → List Char → List Value → Option (Value × List Char)
  | 0, _, _ => none
  | fuel + 1, cs, items =>
    match readValue fuel cs with
    | none => none
    | some (item, rest) =>
      match skipBlank rest with
      | ',' :: rest => readItems fuel rest (item :: items)
      | ']' :: rest => some (.list (item :: items).reverse, rest)
      | _ => none

/-- Reads the members from the next one to the end of the record; those before it come last first. -/
def readMembers : (fuel : Nat) → List Char → List (Option String × Value) → Option (Value × List Char)
  | 0, _, _ => none
  | fuel + 1, cs, members =>
    match skipBlank cs with
    | '"' :: rest =>
      match readText rest with
      | none => none
      | some (key, rest) =>
        match skipBlank rest with
        | ':' :: rest =>
          match readValue fuel rest with
          | none => none
          | some (value, rest) =>
            match skipBlank rest with
            | ',' :: rest => readMembers fuel rest ((key, value) :: members)
            | '}' :: rest => some (close ((key, value) :: members), rest)
            | _ => none
        | _ => none
    | _ => none

end

/-- Reads a document; no dialogue of the readers is longer than twice the text. -/
def read? (document : String) : Option Value :=
  let cs := document.toList
  match readValue (2 * cs.length + 2) cs with
  | some (value, rest) => if (skipBlank rest).isEmpty then some value else none
  | none => none

end Orchestrator.Data.Json
