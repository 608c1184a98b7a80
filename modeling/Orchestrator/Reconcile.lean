import Orchestrator.Reconcile.Handle
import Orchestrator.Solver
/-!
Reconciliation: passes of solving and executing until a pass ends without the requirements having changed underneath
it. What runs and what was dealt with moves only when a pass succeeds.
-/

namespace Orchestrator

/-- A step that could not be carried out, blamed on one component. -/
structure Failure where
  culprit : String
  message : String
  deriving DecidableEq, Repr

def Failure.text (f : Failure) : String := f.culprit ++ ": " ++ f.message

inductive Verdict
  | done
  | failed (failure : Failure)
  /-- The host gave up in the middle, for instance because it asked for an apply while one was in flight. -/
  | abandoned
  deriving DecidableEq, Repr

/-- The executor of plans: told the number of the pass and the steps, it runs a program and changes its own state. -/
abbrev Host (σ : Type) := (pass : Nat) → Steps → σ → Program (σ × Verdict)

def Host.idle {σ : Type} : Host σ := fun _ _ s => .done (s, .done)

/-- The requirements, the state of the host and the options of the solver. -/
structure Reconciler (ρ σ : Type) where
  handle : Handle ρ
  host : σ
  options : SolverOptions
  inFlight : Bool

inductive Outcome
  | finished (result : Except Fault Report)
  | abandoned
  | busy
  | unfinished

inductive Progress
  /-- The requirements changed in the meantime, so that another pass is due. -/
  | again (report : Report)
  | ended (result : Except Fault Report)
  | abandoned

namespace Reconciler

variable {ρ σ : Type}

def isDirty (r : Reconciler ρ σ) : Bool := r.handle.requirements.isDirty

/-- Solves for the present requirements and carries out nothing. -/
def plan (r : Reconciler ρ σ) (stopsRunning : Bool) : Except Fault Plan :=
  Solver.solve r.handle.requirements.snapshot stopsRunning r.options

/-- One pass: solves for a snapshot, has the host carry the plan out, and takes the outcome over if that succeeds. -/
def pass (host : Host σ) (stopsRunning : Bool) (r : Reconciler ρ σ) (report : Report) : Reconciler ρ σ × Progress :=
  let h := r.handle.change Requirements.beginPass
  let snapshot := h.requirements.snapshot
  match (Solver.solve snapshot stopsRunning r.options).bind Plan.demand with
  | .error fault => ({ r with handle := h.change (fun q => q.endPass.1) }, .ended (.error fault))
  | .ok steps =>
    let (h, state, verdict) := h.run (host (report.passes + 1) steps r.host)
    match verdict with
    | .abandoned => ({ r with handle := h, host := state }, .abandoned)
    | .failed f =>
      let h := h.change (fun q => q.endPass.1.recordFailure f.culprit f.message)
      ({ r with handle := h, host := state }, .ended (.error (.executionFailed f.culprit f.message)))
    | .done =>
      let reapply := h.requirements.wantsReapply
      let h := h.change (fun q => (q.commit snapshot steps).endPass.1)
      let report := report.record steps
      ({ r with handle := h, host := state }, if reapply then .again report else .ended (.ok report))

/-- Passes until one ends the apply, at most `fuel` of them. -/
def converge (host : Host σ) (stopsRunning : Bool) :
    (fuel : Nat) → Reconciler ρ σ → Report → Reconciler ρ σ × Outcome
  | 0, r, _ => (r, .unfinished)
  | fuel + 1, r, report =>
    match r.pass host stopsRunning report with
    | (r, .again report) => converge host stopsRunning fuel r report
    | (r, .ended result) => (r, .finished result)
    | (r, .abandoned) => (r, .abandoned)

def conclude (r : Reconciler ρ σ) : Outcome → Reconciler ρ σ
  | .finished result => { r with handle := r.handle.announceApplied result }
  | _ => r

/-- Brings what runs in line with the requirements. Nothing happens where nothing is dirty, and where another apply is
in flight. -/
def apply (host : Host σ) (fuel : Nat) (stopsRunning : Bool) (r : Reconciler ρ σ) : Reconciler ρ σ × Outcome :=
  if r.inFlight then (r, .busy)
  else if !r.isDirty then (r, .finished (.ok .blank))
  else
    let (r, outcome) := converge host stopsRunning fuel { r with inFlight := true } .blank
    ({ r.conclude outcome with inFlight := false }, outcome)

end Reconciler

end Orchestrator
