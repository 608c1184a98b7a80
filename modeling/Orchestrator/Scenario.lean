import Orchestrator.Simulator
/-!
Scenarios: a catalog, a configuration, layers and a running set to start from, together with what the simulator needs.
-/

namespace Orchestrator

structure Scenario where
  disabled : Bool
  running : List String
  services : List Service
  components : List Component
  settings : Settings
  layers : List Layer
  triggers : List Trigger
  options : SolverOptions
  deriving DecidableEq

inductive ScenarioFault
  | duplicateService (id : String)
  | duplicateComponent (id : String)
  | unknownRunning (id : String)
  /-- A trigger, known by the name of its layer, belongs to a component that does not exist. -/
  | unknownTrigger (layer id : String)
  | blankLayer (name : String)
  | strayLayer (name : String) (subject : Subject)
  | inconsistentCatalog (fault : Fault)
  deriving DecidableEq, Repr

/-- What is said of a fault, from the general to the particular. -/
def ScenarioFault.chain : ScenarioFault → List String
  | duplicateService id => ["Duplicate service entry", (Fault.duplicateService id).message]
  | duplicateComponent id => ["Duplicate component entry", (Fault.duplicateComponent id).message]
  | unknownRunning id => ["Running set refers to a missing component", (Fault.unknownComponent id).message]
  | unknownTrigger layer id => ["Invalid trigger '" ++ layer ++ "'", (Fault.unknownComponent id).message]
  | blankLayer name => ["Invalid layer '" ++ name ++ "'", "Layer name cannot be empty"]
  | strayLayer name subject => ["Invalid layer '" ++ name ++ "'", "Unknown " ++ subject.text]
  | inconsistentCatalog fault => ["Catalog is inconsistent", fault.message]

namespace Scenario

def declareService (c : Catalog) (service : Service) : Except ScenarioFault Catalog :=
  if c.services.contains service.id then .error (.duplicateService service.id) else .ok (c.insertService service)

/-- Adds the service that a component mentions, unless it is known already. -/
def implyService (c : Catalog) (id : String) : Catalog :=
  if c.services.contains id then c else c.insertService (.bare id)

/-- Adds a declared component and the services that it mentions. -/
def declareComponent (c : Catalog) (component : Component) : Except ScenarioFault Catalog :=
  if c.components.contains component.id then .error (.duplicateComponent component.id)
  else .ok ((component.mentions.foldl implyService c).insertComponent component)

/-- The catalog of the declared services and components, and of the services that components mention. -/
def catalog (s : Scenario) : Except ScenarioFault Catalog :=
  (s.services.foldlM declareService .empty).bind (s.components.foldlM declareComponent)

def ensure (test : Bool) (fault : ScenarioFault) : Except ScenarioFault Unit :=
  if test then .ok () else .error fault

/-- A layer has a name that is not blank and mentions only what exists. -/
def checkLayer (c : Catalog) (l : Layer) : Except ScenarioFault Unit :=
  if (Text.trim l.name).isEmpty then .error (.blankLayer l.name)
  else
    match l.subjects.find? (fun s => !c.contains s) with
    | some s => .error (.strayLayer l.name s)
    | none => .ok ()

/-- Rejects a scenario with a reference that leads nowhere. -/
def validate (s : Scenario) : Except ScenarioFault Unit := do
  let c ← s.catalog
  s.running.forM fun id => ensure (c.components.contains id) (.unknownRunning id)
  s.triggers.forM fun t => ensure (c.components.contains t.component) (.unknownTrigger t.layer.name t.component)
  (s.layers ++ s.triggers.map Trigger.layer).forM (checkLayer c)
  match c.validate with
  | .ok () => return ()
  | .error fault => throw (.inconsistentCatalog fault)

def requirements (s : Scenario) : Except ScenarioFault Requirements := do
  let c ← s.catalog
  let r := (Requirements.initial c .empty (.custom s.settings.baseline)).setDisabled s.disabled
  let r := s.layers.foldl (fun r l => (r.addLayer l true).1) r
  return s.running.foldl (fun r id => r.markRunning id true) r

end Scenario

end Orchestrator
