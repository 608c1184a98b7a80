import Orchestrator.Data.Toml.Scalar
import Orchestrator.Data.Toml.Table
/-!
Reading TOML 1.1: comments, bare, quoted and dotted keys, tables, arrays of tables, inline tables, arrays over several
lines, the four kinds of text, numbers, dates and times. A key or a table that is defined twice makes the document
unreadable.
-/

namespace Orchestrator.Data.Toml

def isBlank (c : Char) : Bool := c = ' ' || c = '\t'

def skipBlank (cs : List Char) : List Char := cs.dropWhile isBlank

/-- Characters that texts and comments may hold: all but the control characters, of which the tabulator is allowed. -/
def isPlain (c : Char) : Bool := c = '\t' || (0x20 ≤ c.toNat && c.toNat ≠ 0x7F)

def afterBreak? (cs : List Char) : Option (List Char) :=
  match cs with
  | '\n' :: rest => some rest
  | '\r' :: '\n' :: rest => some rest
  | _ => none

/-- Skips a comment after its sign, up to the line break. -/
def skipComment : List Char → Option (List Char)
  | [] => some []
  | c :: rest =>
    if (afterBreak? (c :: rest)).isSome then some (c :: rest)
    else if isPlain c then skipComment rest
    else none

/-- Skips what may stand between a statement and the end of its line. -/
def skipTail (cs : List Char) : Option (List Char) :=
  match skipBlank cs with
  | '#' :: rest => skipComment rest
  | rest => some rest

/-- Skips blanks, line breaks and comments; the flag says whether a comment is being skipped. -/
def skipFiller : (inComment : Bool) → List Char → Option (List Char)
  | _, [] => some []
  | _, '\n' :: rest => skipFiller false rest
  | _, '\r' :: '\n' :: rest => skipFiller false rest
  | false, '#' :: rest => skipFiller true rest
  | false, c :: rest => if isBlank c then skipFiller false rest else some (c :: rest)
  | true, c :: rest => if isPlain c then skipFiller true rest else none

/-! ## Texts -/

/-- The character of a code point, if it is one of a character. -/
def character? (n : Nat) : Option Char := if n < 0xD800 ∨ (0xE000 ≤ n ∧ n < 0x110000) then some (Char.ofNat n) else none

def readHexEscape (count : Nat) (cs : List Char) : Option (Char × List Char) :=
  let digits := cs.take count
  if digits.length = count then ((Json.hex? digits).bind character?).map fun c => (c, cs.drop count) else none

def readEscape (cs : List Char) : Option (Char × List Char) :=
  match cs with
  | 'b' :: rest => some (Char.ofNat 0x08, rest)
  | 't' :: rest => some ('\t', rest)
  | 'n' :: rest => some ('\n', rest)
  | 'f' :: rest => some (Char.ofNat 0x0C, rest)
  | 'r' :: rest => some ('\r', rest)
  | 'e' :: rest => some (Char.ofNat 0x1B, rest)
  | '"' :: rest => some ('"', rest)
  | '\\' :: rest => some ('\\', rest)
  | 'x' :: rest => readHexEscape 2 rest
  | 'u' :: rest => readHexEscape 4 rest
  | 'U' :: rest => readHexEscape 8 rest
  | _ => none

/-- Reads a text in double quotes after the opening one; the characters so far come last first. -/
def readBasic : (fuel : Nat) → List Char → List Char → Option (String × List Char)
  | 0, _, _ => none
  | _, [], _ => none
  | fuel + 1, c :: rest, acc =>
    if c = '"' then some (String.ofList acc.reverse, rest)
    else if c = '\\' then
      match readEscape rest with
      | some (c, rest) => readBasic fuel rest (c :: acc)
      | none => none
    else if isPlain c then readBasic fuel rest (c :: acc)
    else none

/-- Reads a text in single quotes after the opening one. -/
def readLiteral (cs : List Char) : Option (String × List Char) :=
  let text := cs.takeWhile (fun c => c ≠ '\x27' && isPlain c)
  match cs.drop text.length with
  | '\x27' :: rest => some (String.ofList text, rest)
  | _ => none

def skipSpace : List Char → List Char
  | [] => []
  | '\r' :: '\n' :: rest => skipSpace rest
  | c :: rest => if isBlank c || c = '\n' then skipSpace rest else c :: rest

/-- The end of a text of several lines: three quotes, before which two more may belong to the text. Gives the quotes
that belong to the text, and what follows the closing ones if the text ends here. -/
def closing (quote : Char) (cs : List Char) : List Char × Option (List Char) :=
  let run := (cs.takeWhile (· = quote)).take 5
  if run.length < 3 then (run, none) else (run.drop 3, some (cs.drop run.length))

/-- Reads a text of several lines after its opening quotes; backslashes matter where `escapes` says so. Line breaks stay
as they are written. -/
def readLines (quote : Char) (escapes : Bool) : (fuel : Nat) → List Char → List Char → Option (String × List Char)
  | 0, _, _ => none
  | _, [], _ => none
  | fuel + 1, c :: rest, acc =>
    if c = quote then
      match closing quote (c :: rest) with
      | (quotes, some rest) => some (String.ofList (acc.reverse ++ quotes), rest)
      | (quotes, none) => readLines quote escapes fuel ((c :: rest).drop quotes.length) (quotes ++ acc)
    else if escapes && c = '\\' then
      match afterBreak? (skipBlank rest) with
      | some rest => readLines quote escapes fuel (skipSpace rest) acc
      | none =>
        match readEscape rest with
        | some (c, rest) => readLines quote escapes fuel rest (c :: acc)
        | none => none
    else if isPlain c || (afterBreak? (c :: rest)).isSome then readLines quote escapes fuel rest (c :: acc)
    else none

/-- A line break right after the opening quotes does not belong to the text. -/
def dropFirstBreak (cs : List Char) : List Char := (afterBreak? cs).getD cs

/-- Reads a text of any kind from its opening quotes on; none if there is no quote. -/
def readText (cs : List Char) : Option (String × List Char) :=
  match cs with
  | '"' :: '"' :: '"' :: rest => readLines '"' true (rest.length + 1) (dropFirstBreak rest) []
  | '"' :: rest => readBasic (rest.length + 1) rest []
  | '\x27' :: '\x27' :: '\x27' :: rest => readLines '\x27' false (rest.length + 1) (dropFirstBreak rest) []
  | '\x27' :: rest => readLiteral rest
  | _ => none

/-! ## Keys -/

def isBare (c : Char) : Bool := c.isAlphanum || c = '_' || c = '-'

def readKeyPart (cs : List Char) : Option (String × List Char) :=
  match cs with
  | '"' :: rest => readBasic (rest.length + 1) rest []
  | '\x27' :: rest => readLiteral rest
  | _ =>
    match cs.takeWhile isBare with
    | [] => none
    | name => some (String.ofList name, cs.dropWhile isBare)

/-- The most parts that a key may have, and the most arrays and inline tables that may be nested. -/
def limit : Nat := 80

/-- Reads a key with its leading keys, and the blanks after it; so many parts may still come. -/
def readKey : (parts : Nat) → List Char → List String → Option (List String × String × List Char)
  | 0, _, _ => none
  | parts + 1, cs, leading =>
    match readKeyPart (skipBlank cs) with
    | none => none
    | some (part, rest) =>
      match skipBlank rest with
      | '.' :: rest => readKey parts rest (part :: leading)
      | rest => some (leading.reverse, part, rest)

/-! ## Values -/

def isScalar (c : Char) : Bool := c.isAlphanum || c = '+' || c = '-' || c = '_' || c = '.' || c = ':'

/-- Reads a scalar without quotes. A date may be followed by a single blank and a time. -/
def readScalar (cs : List Char) : Option (Value × List Char) :=
  let word := cs.takeWhile isScalar
  let rest := cs.dropWhile isScalar
  match rest with
  | ' ' :: c :: more =>
    if isDate word && c.isDigit then
      let time := (c :: more).takeWhile isScalar
      (scalar? (word ++ ' ' :: time)).map fun v => (v, (c :: more).dropWhile isScalar)
    else (scalar? word).map fun v => (v, rest)
  | _ => (scalar? word).map fun v => (v, rest)

mutual

/-- Reads a value in which arrays and inline tables may nest so deeply. -/
def readValue : (fuel depth : Nat) → List Char → Option (Value × List Char)
  | 0, _, _ => none
  | fuel + 1, depth, cs =>
    match cs, depth with
    | '[' :: _, 0 => none
    | '[' :: rest, depth + 1 => readItems fuel depth rest []
    | '\x7b' :: _, 0 => none
    | '\x7b' :: rest, depth + 1 => readMembers fuel depth rest (.fresh .header)
    | '"' :: _, _ => (readText cs).map fun (text, rest) => (.text text, rest)
    | '\x27' :: _, _ => (readText cs).map fun (text, rest) => (.text text, rest)
    | _, _ => readScalar cs

/-- Reads the items of an array from the next one on; those before it come last first. -/
def readItems : (fuel depth : Nat) → List Char → List Value → Option (Value × List Char)
  | 0, _, _, _ => none
  | fuel + 1, depth, cs, items =>
    match skipFiller false cs with
    | none => none
    | some (']' :: rest) => some (.array items.reverse, rest)
    | some cs =>
      match readValue fuel depth cs with
      | none => none
      | some (item, rest) =>
        match skipFiller false rest with
        | some (',' :: rest) => readItems fuel depth rest (item :: items)
        | some (']' :: rest) => some (.array (item :: items).reverse, rest)
        | _ => none

/-- Reads the members of an inline table from the next one on. Line breaks and comments may stand everywhere but within
a key. -/
def readMembers : (fuel depth : Nat) → List Char → Table → Option (Value × List Char)
  | 0, _, _, _ => none
  | fuel + 1, depth, cs, t =>
    match skipFiller false cs with
    | none => none
    | some ('\x7d' :: rest) => some (t.toValue, rest)
    | some cs =>
      match readKey limit cs [] with
      | none => none
      | some (leading, key, rest) =>
        match skipFiller false rest with
        | some ('=' :: rest) =>
          match (skipFiller false rest).bind (readValue fuel depth) with
          | none => none
          | some (value, rest) =>
            match t.putUnder leading key value, skipFiller false rest with
            | some t, some (',' :: rest) => readMembers fuel depth rest t
            | some t, some ('\x7d' :: rest) => some (t.toValue, rest)
            | _, _ => none
        | _ => none

end

/-! ## Documents -/

structure Progress where
  root : Table
  path : List String

def readHeader (p : Progress) (cs : List Char) : Option (Progress × List Char) :=
  match readKey limit cs [] with
  | some (leading, key, ']' :: rest) =>
    (Table.underHeader (Table.openTable key) leading p.root).map fun root =>
      (⟨root, leading ++ [key]⟩, rest)
  | _ => none

def readArrayHeader (p : Progress) (cs : List Char) : Option (Progress × List Char) :=
  match readKey limit cs [] with
  | some (leading, key, ']' :: ']' :: rest) =>
    (Table.underHeader (Table.pushTable key) leading p.root).map fun root =>
      (⟨root, leading ++ [key]⟩, rest)
  | _ => none

def readPair (p : Progress) (cs : List Char) : Option (Progress × List Char) :=
  match readKey limit cs [] with
  | some (leading, key, '=' :: rest) =>
    match readValue (2 * rest.length + 2) limit (skipBlank rest) with
    | some (value, rest) =>
      (Table.underHeader (Table.putUnder leading key value) p.path p.root).map fun root => ({ p with root }, rest)
    | none => none
  | _ => none

def readStatement (p : Progress) (cs : List Char) : Option (Progress × List Char) :=
  match cs with
  | '[' :: '[' :: rest => readArrayHeader p rest
  | '[' :: rest => readHeader p rest
  | _ => readPair p cs

def readDocument : (fuel : Nat) → Progress → List Char → Option Table
  | 0, _, _ => none
  | fuel + 1, p, cs =>
    match skipFiller false cs with
    | none => none
    | some [] => some p.root
    | some cs =>
      match readStatement p cs with
      | none => none
      | some (p, rest) =>
        match skipTail rest with
        | none => none
        | some [] => some p.root
        | some rest =>
          match afterBreak? rest with
          | some rest => readDocument fuel p rest
          | none => none

/-- A mark of byte order at the beginning does not matter. -/
def dropMark (cs : List Char) : List Char :=
  match cs with
  | c :: rest => if c.toNat = 0xFEFF then rest else cs
  | [] => []

def read? (document : String) : Option Value :=
  let cs := dropMark document.toList
  (readDocument (cs.length + 1) ⟨.fresh .header, []⟩ cs).map Table.toValue

end Orchestrator.Data.Toml
