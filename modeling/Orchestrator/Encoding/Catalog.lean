import Orchestrator.Catalog
import Orchestrator.Data.Value
import Orchestrator.Layer
import Orchestrator.Settings
/-!
How severities, subjects, catalogs, layers and settings are written in documents. Writing always gives every field.
-/

namespace Orchestrator

open Data

namespace Severity

def encode (s : Severity) : Value := .text s.name

def decode? (v : Value) : Option Severity := v.word?.bind ofName?

end Severity

namespace Encoding

def maybeText : Option String → Value
  | none => .null
  | some s => .text s

def texts (l : List String) : Value := .list (l.map .text)

end Encoding

open Encoding

namespace IdSet

def encode (s : IdSet) : Value := texts s.toList

/-- Identifiers that are given several times count once. -/
def decode? (v : Value) : Option IdSet := (v.listOf? Value.text?).map ofList

end IdSet

namespace IdMap

variable {α : Type}

def encode (write : α → Value) (m : IdMap α) : Value := .record (m.entries.map (fun e => (e.1, write e.2)))

/-- Of several entries with one key the last counts. -/
def decode? (read : Value → Option α) (v : Value) : Option (IdMap α) := (v.mapOf? read).map ofList

end IdMap

namespace Subject

def encode : Subject → Value
  | component id => .record [("kind", .text "component"), ("id", .text id)]
  | service id => .record [("kind", .text "service"), ("id", .text id)]

def decode? (v : Value) : Option Subject := do
  let fields ← v.fields? ["kind", "id"]
  let kind ← Value.required fields "kind" Value.word?
  let id ← Value.required fields "id" Value.text?
  if kind = "component" then return .component id
  else if kind = "service" then return .service id
  else none

end Subject

namespace Dependency

def encode (d : Dependency) : Value := .record [("service", .text d.service), ("level", d.level.encode)]

def decode? (v : Value) : Option Dependency := do
  let fields ← v.fields? ["service", "level"]
  let service ← Value.required fields "service" Value.text?
  let level ← Value.optional fields "level" .passive Severity.decode?
  return ⟨service, level⟩

end Dependency

namespace Component

def encode (c : Component) : Value :=
  .record
    [("id", .text c.id), ("version", .text c.version), ("implements", maybeText c.implements),
     ("dependencies", .list (c.dependencies.map Dependency.encode)), ("error", maybeText c.error)]

def decode? (v : Value) : Option Component := do
  let fields ← v.fields? ["id", "version", "implements", "dependencies", "error"]
  let id ← Value.required fields "id" Value.text?
  let version ← Value.optional fields "version" "" Value.text?
  let implements ← Value.optional fields "implements" none (Value.nullable? Value.text?)
  let dependencies ← Value.optional fields "dependencies" [] (Value.listOf? Dependency.decode?)
  let error ← Value.optional fields "error" none (Value.nullable? Value.text?)
  return ⟨id, version, implements, dependencies, error⟩

end Component

namespace Service

def encode (s : Service) : Value :=
  .record [("id", .text s.id), ("external", .bool s.isExternal), ("error", maybeText s.error)]

def decode? (v : Value) : Option Service := do
  let fields ← v.fields? ["id", "external", "error"]
  let id ← Value.required fields "id" Value.text?
  let isExternal ← Value.optional fields "external" false Value.bool?
  let error ← Value.optional fields "error" none (Value.nullable? Value.text?)
  return ⟨id, isExternal, error⟩

end Service

namespace Catalog

def encode (c : Catalog) : Value :=
  .record [("components", c.components.encode Component.encode), ("services", c.services.encode Service.encode)]

/-- The keys of the maps are taken as they are, whatever identifiers stand inside. -/
def decode? (v : Value) : Option Catalog := do
  let fields ← v.fields? ["components", "services"]
  let components ← Value.required fields "components" (IdMap.decode? Component.decode?)
  let services ← Value.required fields "services" (IdMap.decode? Service.decode?)
  return ⟨components, services⟩

end Catalog

namespace Table

/-- The two fields that say which severities a table holds. -/
def encodeFields (t : Table Severity) : List (String × Value) :=
  [("components", t.components.encode Severity.encode), ("services", t.services.encode Severity.encode)]

def encode (t : Table Severity) : Value := .record t.encodeFields

def ofFields? (fields : List (String × Value)) : Option (Table Severity) := do
  let components ← Value.optional fields "components" .empty (IdMap.decode? Severity.decode?)
  let services ← Value.optional fields "services" .empty (IdMap.decode? Severity.decode?)
  return ⟨components, services⟩

def decode? (v : Value) : Option (Table Severity) := (v.fields? ["components", "services"]).bind ofFields?

end Table

namespace Layer

def encode (l : Layer) : Value := .record (("name", .text l.name) :: l.demands.encodeFields)

def decode? (v : Value) : Option Layer := do
  let fields ← v.fields? ["name", "components", "services"]
  let name ← Value.required fields "name" Value.text?
  let demands ← Table.ofFields? fields
  return ⟨name, demands⟩

end Layer

namespace Settings

def encode (s : Settings) : Value :=
  .record [("system", s.system.encode), ("user", s.user.encode), ("session", s.session.encode)]

def decode? (v : Value) : Option Settings := do
  let fields ← v.fields? ["system", "user", "session"]
  let system ← Value.optional fields "system" .empty Table.decode?
  let user ← Value.optional fields "user" .empty Table.decode?
  let session ← Value.optional fields "session" .empty Table.decode?
  return ⟨system, user, session⟩

end Settings

end Orchestrator
