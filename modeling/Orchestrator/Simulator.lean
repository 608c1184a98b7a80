import Orchestrator.Reconcile
/-!
A host that pretends to run components. Starting a component adds the layers that its triggers name; stopping or
excluding it takes them away again.
-/

namespace Orchestrator

/-- A layer that a component keeps active while it runs. -/
structure Trigger where
  component : String
  layer : Layer
  deriving DecidableEq

inductive Deed
  | exclude (id : String)
  | stop (id : String)
  | start (id : String)
  deriving DecidableEq, Repr

/-- The triggers, the components that refuse to start, and the deeds so far, each with the number of its pass. -/
structure Simulator where
  triggers : List Trigger
  refusing : IdSet
  deeds : List (Nat × Deed)
  deriving DecidableEq

namespace Simulator

def ofTriggers (triggers : List Trigger) (refusing : List String) : Simulator :=
  ⟨triggers, IdSet.ofList refusing, []⟩

def record (s : Simulator) (pass : Nat) (deed : Deed) : Simulator := { s with deeds := s.deeds ++ [(pass, deed)] }

def layersOf (s : Simulator) (id : String) : List Layer :=
  (s.triggers.filter (fun t => t.component == id)).map Trigger.layer

/-- Adds the layers of a component, also where they are active already. -/
def setUp (s : Simulator) (id : String) : List Operation := (s.layersOf id).map (.addLayer · true)

def tearDown (s : Simulator) (id : String) : List Operation := (s.layersOf id).map (.removeLayer · false)

def refusal : String := "simulated start failure"

/-- Excludes components; the layers of one that runs go away. -/
def excludeAll (pass : Nat) : List String → Simulator → Program Simulator
  | [], s => .done s
  | id :: rest, s =>
    .look fun r =>
      (Program.performAll (if r.running.contains id then s.tearDown id else [])).andThen fun _ =>
        excludeAll pass rest (s.record pass (.exclude id))

def stopAll (pass : Nat) : List String → Simulator → Program Simulator
  | [], s => .done s
  | id :: rest, s =>
    (Program.performAll (s.tearDown id)).andThen fun _ => stopAll pass rest (s.record pass (.stop id))

/-- Starts components until one refuses; then the layers of those that were started go away again. -/
def startAll (pass : Nat) : (pending started : List String) → Simulator → Program (Simulator × Verdict)
  | [], _, s => .done (s, .done)
  | id :: rest, started, s =>
    if s.refusing.contains id then
      (Program.performAll (started.flatMap s.tearDown)).andThen fun _ => .done (s, .failed ⟨id, refusal⟩)
    else
      (Program.performAll (s.setUp id)).andThen fun _ =>
        startAll pass rest (started ++ [id]) (s.record pass (.start id))

/-- Excludes, then stops, then starts. -/
def host : Host Simulator := fun pass steps s =>
  (excludeAll pass steps.exclude.toList s).andThen fun s =>
    (stopAll pass steps.stop.toList s).andThen fun s => startAll pass steps.start.toList [] s

end Simulator

end Orchestrator
