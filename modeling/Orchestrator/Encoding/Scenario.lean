import Orchestrator.Encoding.Plan
import Orchestrator.Scenario
/-!
How scenarios are written in documents.
-/

namespace Orchestrator

open Data Encoding

namespace Trigger

def encode (t : Trigger) : Value := .record [("component", .text t.component), ("layer", t.layer.encode)]

def decode? (v : Value) : Option Trigger := do
  let fields ← v.fields? ["component", "layer"]
  let component ← Value.required fields "component" Value.text?
  let layer ← Value.required fields "layer" Layer.decode?
  return ⟨component, layer⟩

end Trigger

namespace Scenario

def encode (s : Scenario) : Value :=
  .record
    [("disabled", .bool s.disabled), ("running", texts s.running),
     ("services", .list (s.services.map Service.encode)), ("components", .list (s.components.map Component.encode)),
     ("config", s.settings.encode), ("layers", .list (s.layers.map Layer.encode)),
     ("triggers", .list (s.triggers.map Trigger.encode)), ("solver", s.options.encode)]

def decode? (v : Value) : Option Scenario := do
  let fields ← v.fields? ["disabled", "running", "services", "components", "config", "layers", "triggers", "solver"]
  let disabled ← Value.optional fields "disabled" false Value.bool?
  let running ← Value.optional fields "running" [] (Value.listOf? Value.text?)
  let services ← Value.optional fields "services" [] (Value.listOf? Service.decode?)
  let components ← Value.optional fields "components" [] (Value.listOf? Component.decode?)
  let settings ← Value.optional fields "config" .empty Settings.decode?
  let layers ← Value.optional fields "layers" [] (Value.listOf? Layer.decode?)
  let triggers ← Value.optional fields "triggers" [] (Value.listOf? Trigger.decode?)
  let options ← Value.optional fields "solver" .standard SolverOptions.decode?
  return ⟨disabled, running, services, components, settings, layers, triggers, options⟩

end Scenario

end Orchestrator
