/-!
Values: the common form of what a JSON or TOML document says, and how fields are read from it. Reading is strict about
types and lenient about additions: fields that nobody asks for do not matter, a field that is given must have the
right type, and one that is not given takes its default if it has one.

Notations differ in how they say nothing. One has a null for it; one has none, and says nothing by an empty array or
table. They also differ in how a list gives the fields of a record: in the first it ends with the last field, in the
second it may go on.
-/

namespace Orchestrator.Data

inductive Value where
  | null
  | bool (b : Bool)
  | int (i : Int)
  /-- A number that is not written as an integer; nothing here reads one. -/
  | real
  | text (s : String)
  | list (items : List Value)
  | record (members : List (String × Value))
  /-- A list in a notation that has no null. -/
  | array (items : List Value)
  /-- A record in a notation that has no null. -/
  | table (members : List (String × Value))
  /-- A text, or a record with a key, that no string can hold; it does no harm where nobody reads it. -/
  | garbled

instance : Inhabited Value := ⟨.null⟩

namespace Value

def text? : Value → Option String
  | text s => some s
  | _ => none

def bool? : Value → Option Bool
  | bool b => some b
  | _ => none

def natBelow? (bound : Nat) : Value → Option Nat
  | int i => if 0 ≤ i ∧ i < bound then some i.toNat else none
  | _ => none

def items? : Value → Option (List Value)
  | list items | array items => some items
  | _ => none

def members? : Value → Option (List (String × Value))
  | record members | table members => some members
  | _ => none

/-- Whether a notation says nothing by this. -/
def isNothing : Value → Bool
  | null | array [] | table [] => true
  | _ => false

/-- A word that stands for itself; a record may give it as its only key, with nothing filed under it. -/
def word? : Value → Option String
  | text s => some s
  | v =>
    match v.members? with
    | some [(key, payload)] => if payload.isNothing then some key else none
    | _ => none

/-- The items of a list, all of which must be readable. -/
def listOf? {α : Type} (read : Value → Option α) (v : Value) : Option (List α) := v.items?.bind (·.mapM read)

/-- The members of a record that serves as a map, in the order of writing. -/
def mapOf? {α : Type} (read : Value → Option α) (v : Value) : Option (List (String × α)) :=
  v.members?.bind (·.mapM (fun m => (read m.2).map (fun a => (m.1, a))))

def nullable? {α : Type} (read : Value → Option α) : Value → Option (Option α)
  | null => some none
  | v => (read v).map some

/-- The fields with the given names. A record may give each of them once; a list gives the first of them in order. -/
def fields? (names : List String) : Value → Option (List (String × Value))
  | record members | table members =>
    let known := members.filter (fun m => names.contains m.1)
    if (known.map Prod.fst).Nodup then some known else none
  | list items => if items.length ≤ names.length then some (names.zip items) else none
  | array items => some (names.zip items)
  | _ => none

def required {α : Type} (fields : List (String × Value)) (name : String) (read : Value → Option α) : Option α :=
  (fields.lookup name).bind read

def optional {α : Type} (fields : List (String × Value)) (name : String) (default : α) (read : Value → Option α) :
    Option α :=
  match fields.lookup name with
  | none => some default
  | some v => read v

end Value

end Orchestrator.Data
