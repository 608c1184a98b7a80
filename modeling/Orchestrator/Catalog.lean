import Orchestrator.Fault
import Orchestrator.Severity
import Orchestrator.Subject
/-!
The catalog: the components and services that discovery found. It only says what exists; what runs is decided
elsewhere.
-/

namespace Orchestrator

/-- The need of a component for a service, with the strength of that need. -/
structure Dependency where
  service : String
  level : Severity
  deriving DecidableEq, Repr

structure Component where
  id : String
  version : String
  /-- The one service that it implements, if any. -/
  implements : Option String
  dependencies : List Dependency
  error : Option String
  deriving DecidableEq, Repr

structure Service where
  id : String
  /-- Provided by others: it counts as running and nothing here governs it. -/
  isExternal : Bool
  error : Option String
  deriving DecidableEq, Repr

namespace Component

/-- It implements nothing and depends on nothing, so its decision concerns nobody else. -/
def isIndependent (c : Component) : Bool := c.implements.isNone && c.dependencies.isEmpty

def isAvailable (c : Component) : Bool := c.error.isNone

/-- The services that it mentions: the one that it implements, then those that it depends on. -/
def mentions (c : Component) : List String := c.implements.toList ++ c.dependencies.map Dependency.service

end Component

/-- The service of that name which nobody described. -/
def Service.bare (id : String) : Service := ⟨id, false, none⟩

def Service.isAvailable (s : Service) : Bool := s.error.isNone

/-- What discovery found, filed by identifier. -/
structure Catalog where
  components : IdMap Component
  services : IdMap Service
  deriving DecidableEq

namespace Catalog

def empty : Catalog := ⟨.empty, .empty⟩

instance : Inhabited Catalog := ⟨empty⟩

/-- Files a component under its identifier, in place of an earlier one. -/
def insertComponent (c : Catalog) (component : Component) : Catalog :=
  { c with components := c.components.insert component.id component }

def insertService (c : Catalog) (service : Service) : Catalog :=
  { c with services := c.services.insert service.id service }

/-- Files a component that is found for the first time; a second one of its identifier is refused. -/
def addComponent (c : Catalog) (component : Component) : Except Fault Catalog :=
  if c.components.contains component.id then .error (.duplicateComponent component.id)
  else .ok (c.insertComponent component)

def addService (c : Catalog) (service : Service) : Except Fault Catalog :=
  if c.services.contains service.id then .error (.duplicateService service.id) else .ok (c.insertService service)

def component? (c : Catalog) (id : String) : Option Component := c.components.get? id

def service? (c : Catalog) (id : String) : Option Service := c.services.get? id

def requireComponent (c : Catalog) (id : String) : Except Fault Component :=
  match c.component? id with
  | some component => .ok component
  | none => .error (.unknownComponent id)

def componentList (c : Catalog) : List Component := c.components.values

def serviceList (c : Catalog) : List Service := c.services.values

def implementations (c : Catalog) (service : String) : List Component :=
  c.componentList.filter (fun component => component.implements == some service)

/-- Everything that carries a severity. -/
def subjects (c : Catalog) : List Subject :=
  c.components.keys.map .component ++ c.services.keys.map .service

def contains (c : Catalog) : Subject → Bool
  | .component id => c.components.contains id
  | .service id => c.services.contains id

/-- Discovery does not know the subject or found fault with it. -/
def isUnavailable (c : Catalog) : Subject → Bool
  | .component id => (c.component? id).all (fun component => !component.isAvailable)
  | .service id => (c.service? id).all (fun service => !service.isAvailable)

/-- The first service that a component mentions and the catalog lacks, going by the order of the components. -/
def missingService? (c : Catalog) : Option String :=
  (c.componentList.flatMap Component.mentions).find? (fun id => !c.services.contains id)

def validate (c : Catalog) : Except Fault Unit :=
  match c.missingService? with
  | some id => .error (.unknownService id)
  | none => .ok ()

def unimplemented (c : Catalog) : List String :=
  c.services.keys.filter (fun id => (c.implementations id).isEmpty)

def size (c : Catalog) : Nat := c.components.size

def isEmpty (c : Catalog) : Bool := c.components.isEmpty

end Catalog

end Orchestrator
