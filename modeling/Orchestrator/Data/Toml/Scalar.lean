import Orchestrator.Data.Json.Reader
/-!
The scalars of TOML that stand without quotes: truth values, integers, other numbers, dates and times.
-/

namespace Orchestrator.Data.Toml

/-- Digits that may be set apart by single underscores; the digits are returned without them. -/
def ungroup? (isDigit : Char → Bool) : List Char → Option (List Char)
  | [] => none
  | [c] => if isDigit c then some [c] else none
  | c :: '_' :: rest => if isDigit c then (ungroup? isDigit rest).map (c :: ·) else none
  | c :: rest => if isDigit c then (ungroup? isDigit rest).map (c :: ·) else none

def isHexDigit (c : Char) : Bool := (Json.hexDigit? c).isSome

def numeral (base : Nat) (digits : List Char) : Nat :=
  digits.foldl (fun n c => base * n + (Json.hexDigit? c).getD 0) 0

/-- An unsigned decimal integer, without a leading zero. -/
def whole? (cs : List Char) : Option Nat :=
  match ungroup? Char.isDigit cs with
  | some ('0' :: _ :: _) => none
  | some digits => some (numeral 10 digits)
  | none => none

/-- An integer has to fit into 128 bits. -/
def bounded (i : Int) : Option Value :=
  if -Int.ofNat (1 <<< 127) ≤ i ∧ i < Int.ofNat (1 <<< 128) then some (.int i) else none

def integer? (cs : List Char) : Option Value :=
  match cs with
  | '+' :: rest => (whole? rest).bind fun n => bounded n
  | '-' :: rest => (whole? rest).bind fun n => bounded (-(n : Int))
  | '0' :: 'x' :: rest => (ungroup? isHexDigit rest).bind fun ds => bounded (numeral 16 ds)
  | '0' :: 'o' :: rest => (ungroup? (fun c => '0' ≤ c && c ≤ '7') rest).bind fun ds => bounded (numeral 8 ds)
  | '0' :: 'b' :: rest => (ungroup? (fun c => c = '0' || c = '1') rest).bind fun ds => bounded (numeral 2 ds)
  | _ => (whole? cs).bind fun n => bounded n

/-- What is left of the text after its first character that passes a test, and what stands before that. -/
def cut? (p : Char → Bool) (cs : List Char) : Option (List Char × List Char) :=
  match cs.dropWhile (fun c => !p c) with
  | [] => none
  | _ :: rest => some (cs.takeWhile (fun c => !p c), rest)

/-- Numbers from here on round to infinity in binary64. -/
def realBound : Nat := 1 <<< 1024 - 1 <<< 970

/-- Whether `m · 10 ^ e` is below the bound, where `m` has no more than the given number of digits. -/
def isBelowBound (m digits : Nat) (e : Int) : Bool :=
  if m = 0 then true
  else if 0 ≤ e then e ≤ 308 && m * Nat.pow 10 e.toNat < realBound
  else digits ≤ (-e).toNat || m < realBound * Nat.pow 10 (-e).toNat

/-- A mantissa with a fraction: its digits without the point, and how many of them stand behind it. -/
def fractional? (cs : List Char) : Option (Nat × Nat) := do
  let (front, back) ← cut? (· = '.') cs
  let whole ← whole? front
  let fraction ← ungroup? Char.isDigit back
  return (whole * Nat.pow 10 fraction.length + numeral 10 fraction, fraction.length)

def mantissa? (cs : List Char) : Option (Nat × Nat) := (fractional? cs).or ((whole? cs).map fun n => (n, 0))

def power? (cs : List Char) : Option Int :=
  match cs with
  | '-' :: _ => (ungroup? Char.isDigit (Json.dropSign cs)).map fun ds => -(numeral 10 ds : Int)
  | _ => (ungroup? Char.isDigit (Json.dropSign cs)).map fun ds => (numeral 10 ds : Int)

/-- A number with a fraction or an exponent, without its sign; one that is too large cannot be read. -/
def unsignedReal? (cs : List Char) : Option Value := do
  let ((m, places), power) ←
    match cut? (fun c => c = 'e' || c = 'E') cs with
    | some (mantissa, power) => (mantissa? mantissa).bind fun m => (power? power).map fun p => (m, p)
    | none => (fractional? cs).map fun m => (m, 0)
  if isBelowBound m cs.length (power - places) then some .real else none

def real? (cs : List Char) : Option Value :=
  let cs := Json.dropSign cs
  if cs = ['i', 'n', 'f'] || cs = ['n', 'a', 'n'] then some .real else unsignedReal? cs

def digits? (count : Nat) (cs : List Char) : Option Nat :=
  if cs.length = count && cs.all Char.isDigit then some (numeral 10 cs) else none

def daysInMonth (year month : Nat) : Nat :=
  if month = 2 then (if (year % 4 = 0 && year % 100 ≠ 0) || year % 400 = 0 then 29 else 28)
  else if month = 4 || month = 6 || month = 9 || month = 11 then 30
  else 31

def isDate (cs : List Char) : Bool :=
  match digits? 4 (cs.take 4), cs.drop 4 with
  | some year, '-' :: a :: b :: '-' :: day =>
    match digits? 2 [a, b], digits? 2 day with
    | some month, some day => 1 ≤ month && month ≤ 12 && 1 ≤ day && day ≤ daysInMonth year month
    | _, _ => false
  | _, _ => false

/-- Hours and minutes below the given bounds. -/
def isClock (hours minutes : Nat) (cs : List Char) : Bool :=
  match cs with
  | a :: b :: ':' :: rest =>
    match digits? 2 [a, b], digits? 2 rest with
    | some h, some m => h < hours && m < minutes
    | _, _ => false
  | _ => false

def isSeconds (cs : List Char) : Bool :=
  (digits? 2 (cs.take 2)).any (· ≤ 60) &&
    match cs.drop 2 with
    | [] => true
    | '.' :: fraction => !fraction.isEmpty && fraction.all Char.isDigit
    | _ => false

def isTime (cs : List Char) : Bool :=
  isClock 24 60 (cs.take 5) &&
    match cs.drop 5 with
    | [] => true
    | ':' :: seconds => isSeconds seconds
    | _ => false

/-- A time of day with an offset from universal time, or without. -/
def isOffsetTime (cs : List Char) : Bool :=
  match cut? (fun c => c = 'Z' || c = 'z' || c = '+' || c = '-') cs with
  | none => isTime cs
  | some (time, offset) =>
    isTime time &&
      match cs.drop time.length with
      | '+' :: _ => isClock 24 60 offset
      | '-' :: _ => isClock 24 60 offset
      | _ => offset.isEmpty

def isMoment (cs : List Char) : Bool :=
  isTime cs || isDate cs ||
    (isDate (cs.take 10) &&
      match cs.drop 10 with
      | c :: time => (c = 'T' || c = 't' || c = ' ') && isOffsetTime time
      | [] => false)

/-- The field of a date or a time that holds its text; it is a record, and no reader asks for this field. -/
def momentField : String := "datetime"

def scalar? (cs : List Char) : Option Value :=
  if cs = ['t', 'r', 'u', 'e'] then some (.bool true)
  else if cs = ['f', 'a', 'l', 's', 'e'] then some (.bool false)
  else if isMoment cs then some (.table [(momentField, .text (String.ofList cs))])
  else (real? cs).or (integer? cs)

end Orchestrator.Data.Toml
