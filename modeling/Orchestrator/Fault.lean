/-!
What can go wrong when a catalog is put together, a plan is sought or a plan is carried out.
-/

namespace Orchestrator

inductive Fault
  | impossible
  /-- The host could not carry out a step of one component. -/
  | executionFailed (culprit message : String)
  /-- More components are undecided than the search may enumerate. -/
  | searchTooLarge (free limit : Nat)
  | unknownComponent (id : String)
  | unknownService (id : String)
  | duplicateComponent (id : String)
  | duplicateService (id : String)
  deriving DecidableEq, Repr

def Fault.message : Fault → String
  | impossible => "no feasible execution plan exists for the current requirements"
  | executionFailed culprit message => "component " ++ culprit ++ " failed during execution: " ++ message
  | searchTooLarge free limit =>
    toString free ++ " unresolved components exceed the search limit of " ++ toString limit
  | unknownComponent id => "unknown component: " ++ id
  | unknownService id => "unknown service: " ++ id
  | duplicateComponent id => "duplicate component: " ++ id
  | duplicateService id => "duplicate service: " ++ id

end Orchestrator
