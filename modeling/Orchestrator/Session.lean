import Orchestrator.Scenario
/-!
Sessions: a reconciler that is driven step by step, with a host that follows a script and one observer who reacts by a
script. A session tells after every step what was answered, what the requirements are, and what the observer and the
host wrote down in the meantime.
-/

namespace Orchestrator.Session

inductive Refusal
  | malformed
  /-- It is not understood; the text says which part. -/
  | unknown (part : String)
  deriving DecidableEq, Repr

/-- A request that may come from outside, from the host or from the observer. -/
inductive Request
  | operation (operation : Operation)
  /-- Puts settings in the store and takes baselines from it. -/
  | useSettings (settings : Settings)
  | query (subject : Subject)
  | refused (why : Refusal)

structure Glance where
  final : Option Severity
  applied : Option Severity
  snapshot : Severity
  isDirty : Bool
  isRunning : Bool
  isQuarantined : Bool
  deriving DecidableEq, Repr

inductive Answer
  | nothing
  | flag (b : Bool)
  | glance (g : Glance)
  | plan (result : Except Fault Plan)
  | report (result : Except Fault Report)
  | abandoned
  | refused (why : Refusal)

def glance (r : Requirements) (s : Subject) : Glance :=
  { final := r.final? s
    applied := r.applied? s
    snapshot := r.snapshot.severity s
    isDirty := r.isDirty
    isRunning :=
      match s with
      | .component id => r.running.contains id
      | .service _ => false
    isQuarantined := r.isQuarantined s }

def Answer.ofFlag : Option Bool → Answer
  | some b => .flag b
  | none => .nothing

def Request.program : Request → Program Answer
  | .operation op => .perform op fun answer => .done (.ofFlag answer)
  | .useSettings settings =>
    .perform (.editSettings settings) fun _ => .perform (.setResolver .store) fun _ => .done .nothing
  | .query s => .look fun r => .done (.glance (Session.glance r s))
  | .refused why => .done (.refused why)

inductive HostAction
  | request (request : Request)
  | plan (stopsRunning : Bool)
  | fail (failure : Failure)
  /-- Asks for an apply, which cannot be while one is in flight. -/
  | apply

inductive HostNote
  | pass (number : Nat) (steps : Steps)
  | answer (answer : Answer)
  | deeds (deeds : List Deed)
  | failure (failure : Failure)

structure ScriptedHost where
  /-- The actions for each pass of the present apply. -/
  script : List (List HostAction)
  /-- The components that may not start in the present apply. -/
  refusing : List String
  simulator : Option Simulator
  options : SolverOptions
  notes : List HostNote

namespace ScriptedHost

def note (h : ScriptedHost) (n : HostNote) : ScriptedHost := { h with notes := h.notes ++ [n] }

def failWith (h : ScriptedHost) (f : Failure) : ScriptedHost × Verdict := (h.note (.failure f), .failed f)

def lastPass : Nat := 25

/-- Carries out the actions of a pass until one of them ends it, and then goes on. -/
def act (next : ScriptedHost → Program (ScriptedHost × Verdict)) :
    List HostAction → ScriptedHost → Program (ScriptedHost × Verdict)
  | [], h => next h
  | .request request :: rest, h => request.program.andThen fun answer => act next rest (h.note (.answer answer))
  | .plan stopsRunning :: rest, h =>
    .look fun r => act next rest (h.note (.answer (.plan (Solver.solve r.snapshot stopsRunning h.options))))
  | .fail failure :: _, h => .done (h.failWith failure)
  | .apply :: _, h => .done (h, .abandoned)

/-- Hands the steps over to the simulator, if there is one. -/
def simulate (pass : Nat) (steps : Steps) (h : ScriptedHost) : Program (ScriptedHost × Verdict) :=
  match h.simulator with
  | none => .done (h, .done)
  | some s =>
    (Simulator.host pass steps { s with deeds := [] }).andThen fun (s, verdict) =>
      let h := { h with simulator := some s }.note (.deeds (s.deeds.map Prod.snd))
      match verdict with
      | .failed f => .done (h.failWith f)
      | verdict => .done (h, verdict)

/-- Refuses to start certain components before anything is handed over. -/
def checkStart (pass : Nat) (steps : Steps) (h : ScriptedHost) : Program (ScriptedHost × Verdict) :=
  match steps.start.toList.find? h.refusing.contains with
  | some id => .done (h.failWith ⟨id, "refused to start"⟩)
  | none => simulate pass steps h

def host : Host ScriptedHost := fun pass steps h =>
  let h := h.note (.pass pass steps)
  if lastPass < pass then .done (h.failWith ⟨"pass-limit", "too many passes"⟩)
  else act (checkStart pass steps) (h.script.getD (pass - 1) []) h

end ScriptedHost

/-- An apply with what the host is to do meanwhile. -/
structure Run where
  stopsRunning : Bool
  script : List (List HostAction)
  refusing : List String

inductive Step
  | request (request : Request)
  | plan (stopsRunning : Bool)
  | isDirty
  | apply (run : Run)
  /-- An apply of which only the success is asked for. -/
  | applyOk (run : Run)

structure Record where
  answer : Answer
  requirements : Requirements
  events : List (Event Answer)
  notes : List HostNote

abbrev State := Reconciler Answer ScriptedHost

/-- A session at its start; its one observer has the given reactions before it. -/
def start (requirements : Requirements) (options : SolverOptions) (simulator : Option Simulator)
    (reactions : List (Bool × Request)) : State :=
  { handle :=
      { requirements
        observers := [⟨reactions.map (fun r => ⟨r.1, r.2.program⟩), []⟩] }
    host := ⟨[], [], simulator, options, []⟩
    options := options
    inFlight := false }

/-- Runs an apply; the host fails once it is asked for too many passes, so that their number suffices. -/
def apply (s : State) (run : Run) : State × Outcome :=
  Reconciler.apply ScriptedHost.host (ScriptedHost.lastPass + 1) run.stopsRunning
    { s with host := { s.host with script := run.script, refusing := run.refusing } }

def Answer.ofOutcome : Outcome → Answer
  | .finished result => .report result
  | .abandoned => .abandoned
  | .busy => .abandoned
  | .unfinished => .abandoned

/-- The answer to an apply of which only the success is asked for. -/
def Answer.success : Answer → Answer
  | .report result => .flag result.isOk
  | answer => answer

def perform (s : State) : Step → State × Answer
  | .request request =>
    let (handle, answer) := s.handle.run request.program
    ({ s with handle }, answer)
  | .plan stopsRunning => (s, .plan (s.plan stopsRunning))
  | .isDirty => (s, .flag s.isDirty)
  | .apply run => (apply s run).map id Answer.ofOutcome
  | .applyOk run => (apply s run).map id fun outcome => (Answer.ofOutcome outcome).success

/-- Forgets what the observer and the host wrote down. -/
def clear (s : State) : State :=
  { s with
    handle := { s.handle with observers := s.handle.observers.map (fun o => { o with events := [] }) }
    host := { s.host with notes := [] } }

/-- Carries out steps one after the other and tells of each. -/
def run : List Step → State → List Record
  | [], _ => []
  | step :: rest, s =>
    let (s, answer) := perform (clear s) step
    ⟨answer, s.handle.requirements, s.handle.observers.flatMap Observer.events, s.host.notes⟩ :: run rest s

end Orchestrator.Session
