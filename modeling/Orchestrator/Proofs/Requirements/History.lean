import Orchestrator.Requirements.Operation
/-!
Histories: all that happens to the requirements, in order. Operations and the three moments of a pass come in any
order whatever, a pass may take over any snapshot and any steps, and what the resolver would answer may change at any
time. So what holds after every history holds whatever hosts, observers and outsiders do and however a pass ends.
-/

namespace Orchestrator

/-- Something that happens to the requirements. -/
inductive Occurrence
  | asked (operation : Operation)
  /-- The resolver would answer otherwise from now on; nobody is told. -/
  | contentChanges (resolver : Resolver)
  | passBegins
  | passCommits (snapshot : Snapshot) (steps : Steps)
  | passEnds

/-- Of what happens to the requirements, the operations are of one kind. -/
def Occurrence.Asks (P : Operation → Prop) : Occurrence → Prop
  | .asked operation => P operation
  | _ => True

theorem Occurrence.Asks.mono {P Q : Operation → Prop} (hPQ : ∀ operation, P operation → Q operation) {e : Occurrence}
    (he : e.Asks P) : e.Asks Q := by
  cases e with
  | asked operation => exact hPQ operation he
  | _ => trivial

namespace Requirements

/-- The requirements after something happened to them. -/
def after (r : Requirements) : Occurrence → Requirements
  | .asked operation => (r.perform operation).1
  | .contentChanges resolver => { r with resolver }
  | .passBegins => r.beginPass
  | .passCommits snapshot steps => r.commit snapshot steps
  | .passEnds => r.endPass.1

def replay (r : Requirements) (history : List Occurrence) : Requirements := history.foldl after r

/-- The requirements after operations that were asked for one after the other. -/
def performAll (r : Requirements) (operations : List Operation) : Requirements :=
  operations.foldl (fun r operation => (r.perform operation).1) r

variable {r : Requirements}

theorem performAll_append (before after : List Operation) :
    r.performAll (before ++ after) = (r.performAll before).performAll after := List.foldl_append

/-- What every operation of one kind keeps, any number of them keep. -/
theorem performAll_preserves {I : Requirements → Prop} {P : Operation → Prop}
    (step : ∀ operation r, P operation → I r → I (r.perform operation).1) {operations : List Operation}
    (hpermitted : ∀ operation ∈ operations, P operation) (h : I r) : I (r.performAll operations) :=
  List.foldlRecOn operations _ h fun r hr operation hoperation => step operation r (hpermitted operation hoperation) hr

/-- What every occurrence keeps, every history keeps. -/
theorem replay_invariant {P : Requirements → Prop} (step : ∀ r e, P r → P (r.after e)) (h : P r)
    (history : List Occurrence) : P (r.replay history) := by
  induction history generalizing r with
  | nil => exact h
  | cons e rest ih => exact ih (step r e h)

end Requirements

end Orchestrator
