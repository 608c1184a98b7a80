import Orchestrator.Requirements
/-!
The operations that hosts, observers and outsiders may ask of the requirements, as data.
-/

namespace Orchestrator

inductive Operation
  | addLayer (layer : Layer) (allowDuplicate : Bool)
  | removeLayer (layer : Layer) (all : Bool)
  | replaceLayer (old new : Layer)
  | editSettings (settings : Settings)
  | configurationChanged (subjects : List Subject)
  | setResolver (resolver : Resolver)
  | refreshCatalog (catalog : Catalog)
  | setDisabled (disabled : Bool)
  | recordFailure (id message : String)
  | clearFailure (id : String)
  | markRunning (id : String) (running : Bool)

/-- Carries out an operation; those that may decline say whether they did something. -/
def Requirements.perform (r : Requirements) : Operation → Requirements × Option Bool
  | .addLayer layer allowDuplicate => (r.addLayer layer allowDuplicate).map id some
  | .removeLayer layer all => (r.removeLayer layer all).map id some
  | .replaceLayer old new => (r.replaceLayer old new).map id some
  | .editSettings settings => (r.editSettings settings, none)
  | .configurationChanged subjects => (r.configurationChanged subjects, none)
  | .setResolver resolver => (r.setResolver resolver, none)
  | .refreshCatalog catalog => (r.refreshCatalog catalog, none)
  | .setDisabled disabled => (r.setDisabled disabled, none)
  | .recordFailure id message => (r.recordFailure id message, none)
  | .clearFailure component => (r.clearFailure component).map id some
  | .markRunning id running => (r.markRunning id running, none)

end Orchestrator
