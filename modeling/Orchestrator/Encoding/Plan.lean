import Orchestrator.Encoding.Catalog
import Orchestrator.Plan
import Orchestrator.Solver
/-!
How plans and the options of the solver are written in documents. A plan says in its field `status` whether it is
impossible or ready; a ready one gives its steps beside that field.
-/

namespace Orchestrator

open Data

namespace Steps

def encodeFields (s : Steps) : List (String × Value) :=
  [("start", s.start.encode), ("stop", s.stop.encode), ("exclude", s.exclude.encode), ("cost", .int s.cost)]

/-- The sets are taken as they are, disjoint or not. -/
def decode? (v : Value) : Option Steps := do
  let fields ← v.fields? ["start", "stop", "exclude", "cost"]
  let start ← Value.required fields "start" IdSet.decode?
  let stop ← Value.required fields "stop" IdSet.decode?
  let exclude ← Value.required fields "exclude" IdSet.decode?
  let cost ← Value.required fields "cost" (Value.natBelow? UInt32.size)
  return ⟨start, stop, exclude, cost⟩

end Steps

namespace Plan

def encode : Plan → Value
  | impossible => .record [("status", .text "impossible")]
  | ready steps => .record (("status", .text "ready") :: steps.encodeFields)

/-- The status of a plan and what is given beside it. -/
def splitStatus? : Value → Option (String × Value)
  | .record members =>
    match members.filter (fun m => m.1 = "status") with
    | [(_, .text status)] => some (status, .record (members.filter (fun m => m.1 ≠ "status")))
    | _ => none
  | .list (.text status :: items) => some (status, .list items)
  | _ => none

def decode? (v : Value) : Option Plan :=
  match splitStatus? v with
  | some ("impossible", .list (_ :: _)) => none
  | some ("impossible", _) => some .impossible
  | some ("ready", rest) => (Steps.decode? rest).map .ready
  | _ => none

end Plan

namespace SolverOptions

def encode (o : SolverOptions) : Value :=
  .record [("max_free_components", .int o.maxFree.toNat), ("parallel_threshold", .int o.splitFrom.toNat)]

def word64? (v : Value) : Option UInt64 := (v.natBelow? UInt64.size).map UInt64.ofNat

def decode? (v : Value) : Option SolverOptions := do
  let fields ← v.fields? ["max_free_components", "parallel_threshold"]
  let maxFree ← Value.optional fields "max_free_components" standard.maxFree word64?
  let splitFrom ← Value.optional fields "parallel_threshold" standard.splitFrom word64?
  return ⟨maxFree, splitFrom⟩

end SolverOptions

end Orchestrator
