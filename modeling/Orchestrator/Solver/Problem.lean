import Orchestrator.Plan
import Orchestrator.Snapshot
/-!
The planning problem that a snapshot poses. Components that are excluded take no part. Of the others, those whose
decision is forced are locked, and the rest are free: an assignment is a number whose binary digits say which free
components change their running state, so that zero means to change nothing.

| subject         | situation                                              | cost       |
|-----------------|--------------------------------------------------------|------------|
| component runs  | was stopped and is lazy                                | 10         |
| component runs  | is independent and lazy and only held running          | 10         |
| component rests | is mandatory                                           | infeasible |
| component rests | was running, and running components are not to stop    | 10         |
| component rests | was running and is eager                               | 10         |
| service         | two implementations run                                | infeasible |
| service or edge | no implementation runs; mandatory or eagerly present   | infeasible |
| service or edge | no implementation runs; eagerly passive                | 10         |

All else costs nothing. External services count as running. Costs are words of 32 bits: a sum that is too large for a
word goes on from zero.
-/

namespace Orchestrator.Solver

/-- The cost of one unwanted change or unmet preference. -/
def penalty : UInt32 := 10

/-- A dependency on a service that is not external. -/
structure Edge where
  /-- The place of the service among the services; none where the catalog lacks it. -/
  target : Option Nat
  level : Severity
  deriving DecidableEq, Repr

structure Node where
  id : String
  severity : Severity
  isRunning : Bool
  service : Option Nat
  edges : List Edge
  /-- Kept running only because running components are not to stop. -/
  isHeld : Bool
  lock : Option Bool
  deriving DecidableEq, Repr

structure Slot where
  severity : Severity
  isExternal : Bool
  deriving DecidableEq, Repr

namespace Slot

def isDemanded (s : Slot) : Bool := !s.isExternal && s.severity == .mandatory

end Slot

/-- Who may run, what the services ask for, and who may not run. -/
structure Problem where
  nodes : List Node
  slots : List Slot
  excluded : IdSet
  /-- Running components may be stopped at no cost unless they are eager. -/
  stopsRunning : Bool
  deriving DecidableEq

/-- The place of the last service of an identifier. -/
def place? (id : String) : List Service → Option Nat
  | [] => none
  | s :: rest =>
    match place? id rest with
    | some i => some (i + 1)
    | none => if s.id = id then some 0 else none

def implemented? (services : List Service) (c : Component) : Option Nat := c.implements.bind (place? · services)

/-- A component is excluded by its own severity or by that of the service that it implements. -/
def isExcluded (s : Snapshot) (services : List Service) (slots : List Slot) (c : Component) : Bool :=
  (s.componentSeverity c.id).isExcluded ||
    ((implemented? services c).bind (slots[·]?)).any (fun slot => slot.severity.isExcluded)

/-- What a dependency asks of the assignment; nothing if the service is external. -/
def edge? (services : List Service) (slots : List Slot) (d : Dependency) : Option Edge :=
  match place? d.service services with
  | none => some ⟨none, d.level⟩
  | some i => if (slots[i]?).any Slot.isExternal then none else some ⟨some i, d.level⟩

/-- Keeps a lazy component that runs and concerns nobody else. -/
def isHeld (s : Snapshot) (stopsRunning : Bool) (c : Component) : Bool :=
  let severity := s.componentSeverity c.id
  severity != .mandatory && c.isIndependent && !severity.isEager && s.isRunning c.id && !stopsRunning

/-- A mandatory component runs; an independent one runs if it is eager or held. -/
def ownLock (s : Snapshot) (stopsRunning : Bool) (c : Component) : Option Bool :=
  let severity := s.componentSeverity c.id
  if severity == .mandatory then some true
  else if c.isIndependent then some (severity.isEager || isHeld s stopsRunning c)
  else none

def node (s : Snapshot) (stopsRunning : Bool) (services : List Service) (slots : List Slot) (c : Component) : Node :=
  { id := c.id
    severity := s.componentSeverity c.id
    isRunning := s.isRunning c.id
    service := implemented? services c
    edges := c.dependencies.filterMap (edge? services slots)
    isHeld := isHeld s stopsRunning c
    lock := ownLock s stopsRunning c }

/-- The nodes that implement the service at a place. -/
def implementers (nodes : List Node) (i : Nat) : List Node := nodes.filter (fun n => n.service == some i)

def demandedPlaces (slots : List Slot) : List Nat :=
  (List.range slots.length).filter (fun i => (slots[i]?).any Slot.isDemanded)

/-- The only implementation of a demanded service runs. -/
def lockSole (nodes : List Node) (slots : List Slot) (n : Node) : Node :=
  if (demandedPlaces slots).any (fun i => n.service == some i && (implementers nodes i).length == 1) then
    { n with lock := some true }
  else n

/-- The problem of a snapshot; none if a demanded service has no implementation left. -/
def Problem.ofSnapshot? (s : Snapshot) (stopsRunning : Bool) : Option Problem :=
  let services := s.catalog.serviceList
  let slots := services.map (fun service => (⟨s.serviceSeverity service.id, service.isExternal⟩ : Slot))
  let excluded := s.catalog.componentList.filter (isExcluded s services slots)
  let admitted := s.catalog.componentList.filter (fun c => !isExcluded s services slots c)
  let nodes := admitted.map (node s stopsRunning services slots)
  if (demandedPlaces slots).any (fun i => (implementers nodes i).isEmpty) then none
  else
    some
      { nodes := nodes.map (lockSole nodes slots)
        slots := slots
        excluded := IdSet.ofList (excluded.map Component.id)
        stopsRunning := stopsRunning }

namespace Problem

def free (p : Problem) : Nat := (p.nodes.filter (fun n => n.lock.isNone)).length

/-- Gives every node its decision; the free ones take the binary digits of the number from the lowest on. -/
def assign : List Node → Nat → List (Node × Bool)
  | [], _ => []
  | n :: rest, mask =>
    match n.lock with
    | some run => (n, run) :: assign rest mask
    | none => (n, n.isRunning != (mask % 2 == 1)) :: assign rest (mask / 2)

/-- The services with a running implementation, as the binary digits of a number; none if a service has two. -/
def occupy : List (Node × Bool) → Nat → Option Nat
  | [], taken => some taken
  | (n, run) :: rest, taken =>
    match run, n.service with
    | true, some i => if taken.testBit i then none else occupy rest (taken ||| 1 <<< i)
    | _, _ => occupy rest taken

/-- Adds costs up; a single infeasible one makes the sum infeasible. -/
def addUp {α : Type} (cost : α → Option UInt32) : List α → UInt32 → Option UInt32
  | [], total => some total
  | x :: rest, total =>
    match cost x with
    | none => none
    | some c => addUp cost rest (total + c)

def unmetCost : Severity → Option UInt32
  | .mandatory | .eagerPresent => none
  | .eagerPassive => some penalty
  | _ => some 0

/-- The cost of a decision to the component itself. -/
def decisionCost (stopsRunning : Bool) : Node × Bool → Option UInt32
  | (n, true) => if n.isHeld || (!n.isRunning && n.severity.isLazy) then some penalty else some 0
  | (n, false) =>
    if n.severity == .mandatory then none
    else if n.isRunning && (!stopsRunning || n.severity.isEager) then some penalty
    else some 0

/-- Adds the costs to the services of who runs; the first of them has the given place. -/
def slotsCost (taken : Nat) : List Slot → Nat → UInt32 → Option UInt32
  | [], _, total => some total
  | slot :: rest, place, total =>
    if slot.isExternal || taken.testBit place then slotsCost taken rest (place + 1) total
    else
      match unmetCost slot.severity with
      | none => none
      | some c => slotsCost taken rest (place + 1) (total + c)

def edgeCost (taken : Nat) (e : Edge) : Option UInt32 :=
  if e.target.any taken.testBit then some 0 else unmetCost e.level

def edgesCost (taken : Nat) : Node × Bool → Option UInt32
  | (n, true) => addUp (edgeCost taken) n.edges 0
  | (_, false) => some 0

/-- The cost of an assignment, none if it is infeasible. It is summed up in one word, whose number this is. -/
def cost? (p : Problem) (assignment : List (Node × Bool)) : Option Nat := do
  let taken ← occupy assignment 0
  let own ← addUp (decisionCost p.stopsRunning) assignment 0
  let services ← slotsCost taken p.slots 0 own
  let total ← addUp (edgesCost taken) assignment services
  return total.toNat

def maskCost? (p : Problem) (mask : Nat) : Option Nat := p.cost? (assign p.nodes mask)

/-- The steps that lead from what runs to what an assignment wants. -/
def steps (p : Problem) (assignment : List (Node × Bool)) (cost : Nat) : Steps :=
  let started := assignment.filter (fun a => !a.1.isRunning && a.2)
  let stopped := assignment.filter (fun a => a.1.isRunning && !a.2)
  Steps.ofSets (IdSet.ofList (started.map (·.1.id))) (IdSet.ofList (stopped.map (·.1.id))) p.excluded cost

end Problem

end Orchestrator.Solver
