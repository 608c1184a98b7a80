import Orchestrator.Data.Value
/-!
Tables of a TOML document while it is read. A header may define a table that is only on the way to others; then it is
closed to headers and to dotted keys. A table that dotted keys lead through belongs to them, and is closed to headers.
What a value wrote is closed to both.
-/

namespace Orchestrator.Data.Toml

inductive Origin
  | implied
  /-- By its own header, or as the document itself. -/
  | header
  /-- By a dotted key, or on the way to others before a dotted key led through it. -/
  | dotted
  deriving DecidableEq, Repr

mutual

inductive Node where
  | value (v : Value)
  | table (t : Table)
  /-- Tables that each came with a header of their own, the last one and those before it, latest first. -/
  | tables (last : Table) (earlier : List Table)

inductive Table where
  | mk (origin : Origin) (members : List (String × Node))

end

namespace Table

def origin : Table → Origin
  | mk origin _ => origin

def members : Table → List (String × Node)
  | mk _ members => members

def fresh (origin : Origin) : Table := mk origin []

/-- Changes what stands under a key; what is put under a new key comes last. -/
def alterMembers (key : String) (f : Option Node → Option Node) : List (String × Node) → Option (List (String × Node))
  | [] => (f none).map fun node => [(key, node)]
  | m :: rest =>
    if m.1 = key then (f (some m.2)).map fun node => (key, node) :: rest
    else (alterMembers key f rest).map (m :: ·)

def alter (t : Table) (key : String) (f : Option Node → Option Node) : Option Table :=
  (alterMembers key f t.members).map (mk t.origin)

/-- Changes the table that the keys of a header lead to; of several tables under a key the last is meant. -/
def underHeader (f : Table → Option Table) : List String → Table → Option Table
  | [], t => f t
  | key :: path, t =>
    t.alter key fun
      | none => (underHeader f path (fresh .implied)).map .table
      | some (.table t) => (underHeader f path t).map .table
      | some (.tables last earlier) => (underHeader f path last).map (.tables · earlier)
      | some (.value _) => none

/-- Changes the table that the leading keys of a dotted key lead to. A table that a header defined is closed, and one on
the way to a header further down becomes a table of dotted keys. -/
def underDotted (f : Table → Option Table) : List String → Table → Option Table
  | [], t => f t
  | key :: path, t =>
    t.alter key fun
      | none => (underDotted f path (fresh .dotted)).map .table
      | some (.table t) => if t.origin = .header then none else (underDotted f path (mk .dotted t.members)).map .table
      | some (.tables last earlier) => (underDotted f path last).map (.tables · earlier)
      | some (.value _) => none

def put (key : String) (v : Value) (t : Table) : Option Table :=
  t.alter key fun
    | none => some (.value v)
    | some _ => none

/-- Puts a value under a key with leading keys. Only dotted keys add to a table that dotted keys made. -/
def putUnder (leading : List String) (key : String) (v : Value) (t : Table) : Option Table :=
  underDotted (fun t =>
    if (t.origin == .dotted) == leading.isEmpty then none else t.put key v) leading t

def openTable (key : String) (t : Table) : Option Table :=
  t.alter key fun
    | none => some (.table (fresh .header))
    | some (.table t) => if t.origin = .implied then some (.table (mk .header t.members)) else none
    | _ => none

def pushTable (key : String) (t : Table) : Option Table :=
  t.alter key fun
    | none => some (.tables (fresh .header) [])
    | some (.tables last earlier) => some (.tables (fresh .header) (last :: earlier))
    | _ => none

end Table

mutual

def Node.toValue : Node → Value
  | .value v => v
  | .table t => t.toValue
  | .tables last earlier => .array (valuesOf earlier [last.toValue])

def Table.toValue : Table → Value
  | .mk _ members => .table (membersOf members)

/-- The values of tables, latest first, before those that follow them. -/
def valuesOf : List Table → List Value → List Value
  | [], following => following
  | t :: rest, following => valuesOf rest (t.toValue :: following)

def membersOf : List (String × Node) → List (String × Value)
  | [] => []
  | (key, node) :: rest => (key, node.toValue) :: membersOf rest

end

end Orchestrator.Data.Toml
