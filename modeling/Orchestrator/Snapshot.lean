import Orchestrator.Catalog
/-!
Snapshots: all that a plan depends on, taken at one moment so that later changes cannot tear the plan.
-/

namespace Orchestrator

/-- What exists, how strongly each subject is wanted, and what runs. -/
structure Snapshot where
  catalog : Catalog
  severities : Table Severity
  running : IdSet
  deriving DecidableEq

namespace Snapshot

/-- A subject without an entry is passive. -/
def severity (s : Snapshot) (subject : Subject) : Severity := (s.severities.get? subject).getD .passive

def componentSeverity (s : Snapshot) (id : String) : Severity := s.severity (.component id)

def serviceSeverity (s : Snapshot) (id : String) : Severity := s.severity (.service id)

def isRunning (s : Snapshot) (id : String) : Bool := s.running.contains id

end Snapshot

end Orchestrator
