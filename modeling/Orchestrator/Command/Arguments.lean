/-!
The arguments of the command line: options that are valid before and after the command, the command, and its own
options.
-/

namespace Orchestrator.Command

inductive Task
  | plan (stopsRunning json : Bool)
  | apply (stopsRunning : Bool) (refusing : List String) (retry json : Bool)
  | status (json : Bool)
  | validate
  deriving DecidableEq, Repr

structure Invocation where
  verbosity : Nat
  quiet : Bool
  scenario : Option String
  task : Task
  deriving DecidableEq, Repr

inductive Dismissal
  | information
  | misuse
  deriving DecidableEq, Repr

inductive Switch
  | verbose
  | quiet
  | scenario
  | help
  | version
  | stopRunning
  | json
  | fail
  | retry
  deriving DecidableEq, Repr

namespace Switch

def longName : Switch → String
  | verbose => "verbose"
  | quiet => "quiet"
  | scenario => "scenario"
  | help => "help"
  | version => "version"
  | stopRunning => "stop-eager-running"
  | json => "json"
  | fail => "fail"
  | retry => "retry"

def letter? : Switch → Option Char
  | verbose => some 'v'
  | quiet => some 'q'
  | scenario => some 's'
  | help => some 'h'
  | version => some 'V'
  | _ => none

def takesValue : Switch → Bool
  | scenario | fail => true
  | _ => false

def isRepeatable : Switch → Bool
  | verbose | fail => true
  | _ => false

def general : List Switch := [verbose, quiet, scenario, help, version]

end Switch

/-- The options of a command, by its name; none if there is no such command. -/
def switchesOf? (command : String) : Option (List Switch) :=
  match command with
  | "plan" => some [.stopRunning, .json]
  | "apply" => some [.stopRunning, .fail, .retry, .json]
  | "status" => some [.json]
  | "validate" => some []
  | _ => none

/-- The options that were given, in the order of giving, with their values. -/
abbrev Given := List (Switch × String)

/-- Takes an option in: help ends everything, and only some options may be given twice. -/
def accept (given : Given) (switch : Switch) (value : String) : Except Dismissal Given :=
  if switch = .help || switch = .version then .error .information
  else if !switch.isRepeatable && given.any (fun g => g.1 = switch) then .error .misuse
  else .ok (given ++ [(switch, value)])

/-- An argument that can be the value of the option before it. -/
def isValue (arg : String) : Bool := arg = "-" || !(arg.toList.head? = some '-')

inductive Word
  /-- An option that is complete, or several. -/
  | switches (given : Given)
  /-- An option that still needs its value. -/
  | awaiting (given : Given) (switch : Switch)
  | dashes
  | other

/-- Reads letters after one dash; an option that takes a value takes the rest of them, without an equals sign. -/
def readLetters (known : List Switch) (given : Given) : List Char → Except Dismissal Word
  | [] => .ok (.switches given)
  | c :: rest =>
    match known.find? (fun s => s.letter? = some c) with
    | none => .error .misuse
    | some switch =>
      if switch.takesValue then
        match rest with
        | [] => .ok (.awaiting given switch)
        | '=' :: value => (accept given switch (String.ofList value)).map .switches
        | value => (accept given switch (String.ofList value)).map .switches
      else (accept given switch "").bind fun given => readLetters known given rest

/-- Reads what follows two dashes: a name, and a value after an equals sign. -/
def readLong (known : List Switch) (given : Given) (cs : List Char) : Except Dismissal Word :=
  let name := String.ofList (cs.takeWhile (· ≠ '='))
  match known.find? (fun s => s.longName = name), cs.dropWhile (· ≠ '=') with
  | none, _ => .error .misuse
  | some switch, [] =>
    if switch.takesValue then .ok (.awaiting given switch) else (accept given switch "").map .switches
  | some switch, _ :: value =>
    if switch.takesValue then (accept given switch (String.ofList value)).map .switches else .error .misuse

/-- Takes in an option whose value was an argument of its own. -/
def settle (given : Given) : Option (Switch × String) → Except Dismissal Given
  | none => .ok given
  | some (switch, value) => accept given switch value

/-- Reads one argument; an option settles the one before it. -/
def readWord (known : List Switch) (given : Given) (pending : Option (Switch × String)) (arg : String) :
    Except Dismissal Word :=
  match arg.toList with
  | ['-', '-'] => .ok .dashes
  | '-' :: '-' :: rest => (settle given pending).bind fun given => readLong known given rest
  | ['-'] => .ok .other
  | '-' :: rest => (settle given pending).bind fun given => readLetters known given rest
  | _ => .ok .other

/-- What options were given before the first argument that is none. -/
structure Reading where
  given : Given
  /-- The last option, if its value was an argument of its own. It is taken in after all that follows. -/
  pending : Option (Switch × String)
  isEnded : Bool
  rest : List String

def readSwitches (known : List Switch) :
    Given → Option (Switch × String) → List String → Except Dismissal Reading
  | given, pending, [] => .ok ⟨given, pending, false, []⟩
  | given, pending, arg :: rest =>
    match readWord known given pending arg with
    | .error e => .error e
    | .ok (.switches given) => readSwitches known given none rest
    | .ok (.awaiting given switch) =>
      match rest with
      | value :: rest => if isValue value then readSwitches known given (some (switch, value)) rest else .error .misuse
      | [] => .error .misuse
    | .ok .dashes => .ok ⟨given, pending, true, rest⟩
    | .ok .other => .ok ⟨given, pending, false, arg :: rest⟩

def Given.has (given : Given) (switch : Switch) : Bool := given.any (fun g => g.1 = switch)

def Given.values (given : Given) (switch : Switch) : List String :=
  (given.filter (fun g => g.1 = switch)).map Prod.snd

def taskOf? (command : String) (given : Given) : Option Task :=
  match command with
  | "plan" => some (.plan (given.has .stopRunning) (given.has .json))
  | "apply" =>
    some (.apply (given.has .stopRunning) (given.values .fail) (given.has .retry) (given.has .json))
  | "status" => some (.status (given.has .json))
  | "validate" => some .validate
  | _ => none

/-- Help may be asked for one command. -/
def helpFor (names : List String) : Dismissal :=
  match names with
  | [] => .information
  | [name] => if (switchesOf? name).isSome || name = "help" then .information else .misuse
  | _ => .misuse

def readCommand (command : String) (rest : List String) : Except Dismissal (Given × Task) :=
  match switchesOf? command with
  | none => if command = "help" then .error (helpFor rest) else .error .misuse
  | some own => do
    let reading ← readSwitches (Switch.general ++ own) [] none rest
    let given ← settle reading.given reading.pending
    match reading.rest, taskOf? command given with
    | [], some task => return (given, task)
    | _, _ => throw .misuse

/-- Reads the arguments. An option that is given before and after the command counts as it stands after it. -/
def readArguments (args : List String) : Except Dismissal Invocation := do
  let reading ← readSwitches Switch.general [] none args
  match reading.isEnded, reading.rest with
  | false, command :: rest =>
    let (after, task) ← readCommand command rest
    let before ← settle reading.given reading.pending
    let given := before ++ after
    return {
      verbosity := (given.values .verbose).length
      quiet := given.has .quiet
      scenario := (given.values .scenario).getLast?
      task := task }
  | _, _ => throw .misuse

end Orchestrator.Command
