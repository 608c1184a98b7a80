import Orchestrator.Severity
import Orchestrator.Subject
/-!
Persistent configuration: severities set for the whole system, for the user and for the session. The baseline of a
subject is what the most specific scope that mentions it says.
-/

namespace Orchestrator

structure Settings where
  system : Table Severity
  user : Table Severity
  session : Table Severity
  deriving DecidableEq

namespace Settings

def empty : Settings := ⟨.empty, .empty, .empty⟩

instance : Inhabited Settings := ⟨empty⟩

/-- The severity of a subject before any layer is consulted: session over user over system, and passive where no scope
mentions it. -/
def baseline (s : Settings) (subject : Subject) : Severity :=
  ((s.session.get? subject).or ((s.user.get? subject).or (s.system.get? subject))).getD .passive

end Settings

end Orchestrator
