import Orchestrator.Solver.Problem
import Orchestrator.Solver.Search
/-!
The solver: of the assignments that meet the hard constraints it takes one of least cost, and of several the one that
comes first when the changes are counted as a binary number.
-/

namespace Orchestrator

structure SolverOptions where
  /-- The most components that may be free. -/
  maxFree : UInt64
  /-- From this many free components on the search is split into chunks. -/
  splitFrom : UInt64
  deriving DecidableEq

namespace SolverOptions

def standard : SolverOptions := ⟨20, 14⟩

instance : Inhabited SolverOptions := ⟨standard⟩

/-- The search never takes on more than 63 free components, whatever the options say. -/
def limit (o : SolverOptions) : Nat := min o.maxFree.toNat 63

end SolverOptions

namespace Solver

def Problem.search (p : Problem) (options : SolverOptions) : Option Candidate :=
  if options.splitFrom.toNat ≤ p.free && chunkBits < p.free then searchChunks p.maskCost? p.free
  else searchRange p.maskCost? 0 (1 <<< p.free)

/-- The feasible plan for a snapshot that is charged the least. -/
def solve (s : Snapshot) (stopsRunning : Bool) (options : SolverOptions) : Except Fault Plan :=
  match Problem.ofSnapshot? s stopsRunning with
  | none => .ok .impossible
  | some p =>
    if options.limit < p.free then .error (.searchTooLarge p.free options.limit)
    else
      match p.search options with
      | none => .ok .impossible
      | some best => .ok (.ready (p.steps (Problem.assign p.nodes best.mask) best.cost))

end Solver

end Orchestrator
