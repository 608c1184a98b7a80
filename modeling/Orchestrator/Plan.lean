import Orchestrator.Fault
import Orchestrator.Id.Set
/-!
Plans: what is to be started, stopped and excluded, or the finding that nothing can be done.
-/

namespace Orchestrator

/-- The steps of a plan and the cost of the assignment that they lead to. -/
structure Steps where
  start : IdSet
  stop : IdSet
  exclude : IdSet
  cost : Nat
  deriving DecidableEq

structure Summary where
  starts : Nat
  stops : Nat
  exclusions : Nat
  cost : Nat
  deriving DecidableEq, Repr

/-- How many components are started or stopped. Those that ran and are excluded are not among them. -/
def Summary.transitions (s : Summary) : Nat := s.starts + s.stops

def Summary.hasChanges (s : Summary) : Bool := 0 < s.transitions

namespace Steps

/-- Makes the three sets disjoint: exclusion wins over starting and stopping, starting over stopping. -/
def ofSets (start stop exclude : IdSet) (cost : Nat) : Steps :=
  { start := start.diff exclude
    stop := (stop.diff exclude).diff (start.diff exclude)
    exclude := exclude
    cost := cost }

def isNoop (s : Steps) : Bool := s.start.isEmpty && s.stop.isEmpty

def runsAfter (s : Steps) (id : String) (running : Bool) : Bool :=
  if s.exclude.contains id || s.stop.contains id then false else running || s.start.contains id

def summary (s : Steps) : Summary := ⟨s.start.size, s.stop.size, s.exclude.size, s.cost⟩

end Steps

inductive Plan
  | impossible
  /-- A feasible assignment of least cost. -/
  | ready (steps : Steps)
  deriving DecidableEq

namespace Plan

def steps? : Plan → Option Steps
  | impossible => none
  | ready steps => some steps

def isImpossible (p : Plan) : Bool := p.steps?.isNone

def cost? (p : Plan) : Option Nat := p.steps?.map Steps.cost

def summary? (p : Plan) : Option Summary := p.steps?.map Steps.summary

/-- The steps, where being impossible is a fault. -/
def demand : Plan → Except Fault Steps
  | impossible => .error .impossible
  | ready steps => .ok steps

end Plan

end Orchestrator
