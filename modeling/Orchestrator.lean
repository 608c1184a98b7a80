import Orchestrator.Command.FileTree
import Orchestrator.Main
import Orchestrator.Proofs.Command.Retry
import Orchestrator.Proofs.Reconcile.Clean
import Orchestrator.Proofs.Reconcile.Impossible
import Orchestrator.Proofs.Reconcile.Recurrence
import Orchestrator.Proofs.Reconcile.Reports
import Orchestrator.Proofs.Reconcile.Upkeep
import Orchestrator.Proofs.Solver.Schedule
import Orchestrator.Proofs.Solver.Separation
import Orchestrator.Session
import Orchestrator.Proofs.Reconcile.Rivals
import Orchestrator.Proofs.Requirements.Switch
import Orchestrator.Proofs.Simulator.Rollback
import Orchestrator.Proofs.Reconcile.SwitchedOff
import Orchestrator.Proofs.Reconcile.Discretion
import Orchestrator.Proofs.Reconcile.Abandonment
import Orchestrator.Proofs.Requirements.Rediscovery
import Orchestrator.Proofs.Requirements.Multiplicity
import Orchestrator.Proofs.Reconcile.Preview
import Orchestrator.Proofs.Solver.Changes
import Orchestrator.Proofs.Solver.Kinds
import Orchestrator.Proofs.Reconcile.Balance
import Orchestrator.Proofs.Reconcile.LastWord
import Orchestrator.Proofs.Command.Balance
import Orchestrator.Proofs.Scenario.Validation
import Orchestrator.Proofs.Requirements.Reconfiguration
import Orchestrator.Proofs.Encoding.Completion
