import Orchestrator.Severity
import Orchestrator.Subject
/-!
Requirement layers: named bundles of severities that are laid over the configuration and taken away again.
-/

namespace Orchestrator

/-- A named table of demands. Layers are the same when their names and their demands are. -/
structure Layer where
  name : String
  demands : Table Severity
  deriving DecidableEq

namespace Layer

def severity? (l : Layer) (s : Subject) : Option Severity := l.demands.get? s

def subjects (l : Layer) : List Subject := l.demands.subjects

def isEmpty (l : Layer) : Bool := l.demands.isEmpty

end Layer

end Orchestrator
