import Orchestrator.Command.Arguments
import Orchestrator.Command.Load
import Orchestrator.Data.Json.Writer
import Orchestrator.Terminal.Style
/-!
The tasks of the command line, as the lines that they print and the chain of causes if they fail.
-/

namespace Orchestrator.Command

open Data Terminal

structure Look where
  color : Bool
  quiet : Bool
  verbose : Bool

/-- What a task printed, and why it failed if it did. -/
structure Result where
  lines : List Line
  failure : Option (List String)

namespace Result

def done (lines : List Line) : Result := ⟨lines, none⟩

def failed (lines : List Line) (chain : List String) : Result := ⟨lines, some chain⟩

def after (lines : List Line) (r : Result) : Result := { r with lines := lines ++ r.lines }

end Result

/-- The requirements of a scenario that was accepted. -/
def withRequirements (s : Scenario) (f : Requirements → Result) : Result :=
  match s.requirements with
  | .ok r => f r
  | .error fault => .failed [] fault.chain

/-! ## Plan -/

/-- How many steps there are, the numbers in the colors of the steps. -/
def counts (color : Bool) (started stopped excluded : Nat) (before between : String) : String :=
  paint color .green (toString started) ++ before ++ paint color .yellow (toString stopped) ++ between ++
    paint color .red (toString excluded) ++ " excluded"

def showPlan (look : Look) : Plan → List Line
  | .impossible => [complaint look.color "No feasible plan: hard constraints conflict"]
  | .ready steps =>
    let head := if look.quiet then [] else header look.color "Execution Plan"
    if steps.isNoop && steps.exclude.isEmpty then head ++ [success look.color "Nothing to do"]
    else
      let mark := fun (style : Style) (sign : String) (ids : IdSet) =>
        ids.toList.map fun id => Line.out ("  " ++ paint look.color style sign ++ " " ++ id)
      let summary := steps.summary
      let tail :=
        if look.quiet then []
        else
          [.out "",
           pair look.color "Summary"
             (counts look.color summary.starts summary.stops summary.exclusions " to start, " " to stop, "),
           pair look.color "Cost" (toString summary.cost)]
      head ++ mark .red "✗" steps.exclude ++ mark .yellow "-" steps.stop ++ mark .green "+" steps.start ++ tail

def runPlan (look : Look) (stopsRunning json : Bool) (s : Scenario) : Result :=
  withRequirements s fun r =>
    let snapshot := r.snapshot
    match Solver.solve snapshot stopsRunning s.options with
    | .error fault => .failed [] ["Solver refused the scenario", fault.message]
    | .ok plan =>
      if json then .done [.out (Json.pretty plan.encode)]
      else
        let before :=
          if look.verbose then
            [pair look.color "Running before" (enumeration look.color snapshot.running.toList)]
          else []
        .done (showPlan look plan ++ before)

/-! ## Apply -/

def passLimit : Nat := 10000

def showDeed (color : Bool) (deed : Nat × Deed) : Line :=
  let (verb, id) :=
    match deed.2 with
    | .exclude id => (paint color .red (pad 8 "exclude"), id)
    | .stop id => (paint color .yellow (pad 8 "stop"), id)
    | .start id => (paint color .green (pad 8 "start"), id)
  .out ("  " ++ paint color .dimmed ("#" ++ toString deed.1) ++ " " ++ verb ++ " " ++ id)

structure Applied where
  report : Report
  attempts : Nat
  deeds : Nat
  requirements : Requirements

/-- An apply in the making, with the deeds of all attempts so far counted. -/
structure Attempt where
  number : Nat
  deeds : Nat
  reconciler : Reconciler Unit Simulator

/-- Applies, and applies again after a failure while attempts are left. Gives the lines that were printed meanwhile. An
apply that needs more passes than are allowed is given up. -/
def attempt (passes : Nat) (look : Look) (stopsRunning json : Bool) :
    (left : Nat) → Attempt → List Line × Except (List String) Applied
  | 0, _ => ([], .error [])
  | left + 1, a =>
    let (r, outcome) := Reconciler.apply Simulator.host passes stopsRunning a.reconciler
    let echo := if json || look.quiet then [] else r.host.deeds.map (showDeed look.color)
    let deeds := a.deeds + r.host.deeds.length
    match outcome with
    | .finished (.ok report) => (echo, .ok ⟨report, a.number + 1, deeds, r.handle.requirements⟩)
    | .finished (.error .impossible) =>
      (echo, .error ["No feasible plan: hard constraints conflict, nothing was changed"])
    | .finished (.error (.executionFailed culprit message)) =>
      if left = 0 then (echo, .error ["Apply failed", (Fault.executionFailed culprit message).message])
      else
        let note :=
          if json then [] else [warning look.color (culprit ++ " failed (" ++ message ++ "), retrying")]
        let r := { r with host := { r.host with deeds := [] } }
        let (lines, result) := attempt passes look stopsRunning json left ⟨a.number + 1, deeds, r⟩
        (echo ++ note ++ lines, result)
    | .finished (.error fault) => (echo, .error ["Apply failed", fault.message])
    | _ => (echo, .error ["Apply failed", "no end after " ++ toString passes ++ " passes"])

def encodeReport (r : Report) : Value :=
  .record
    [("passes", .int r.passes), ("started", .int r.started), ("stopped", .int r.stopped),
     ("excluded", .int r.excluded), ("cost", .int r.cost)]

def encodeApplied (a : Applied) : Value :=
  .record
    [("report", encodeReport a.report), ("attempts", .int a.attempts), ("actions", .int a.deeds),
     ("running", a.requirements.running.encode), ("quarantined", Encoding.texts a.requirements.quarantined.keys)]

def showApplied (color : Bool) (a : Applied) : List Line :=
  let report := a.report
  if report.passes = 0 then [success color "Already up to date"]
  else
    let quarantined := a.requirements.quarantined.keys
    [.out "",
     success color
       ("Converged in " ++ toString report.passes ++ " pass(es): " ++
         counts color report.started report.stopped report.excluded " started, " " stopped, ")] ++
    (if 1 < a.attempts then [pair color "Attempts" (toString a.attempts)] else []) ++
    [pair color "Host actions" (toString a.deeds),
     pair color "Cost" (toString report.cost),
     pair color "Running" (enumeration color a.requirements.running.toList)] ++
    (if quarantined.isEmpty then [] else [pair color "Quarantined" (enumeration color quarantined)])

/-- Every failure takes one component out, so that a retry has as many attempts as there are components, and one. -/
def attemptLimit (retry : Bool) (s : Scenario) : Nat := if retry then s.components.length + 1 else 1

def runApply (passes : Nat) (look : Look) (stopsRunning : Bool) (refusing : List String) (retry json : Bool)
    (s : Scenario) : Result :=
  withRequirements s fun requirements =>
    let reconciler : Reconciler Unit Simulator :=
      { handle := ⟨requirements, []⟩
        host := Simulator.ofTriggers s.triggers refusing
        options := s.options
        inFlight := false }
    let head := if json || look.quiet then [] else header look.color "Applying"
    let (lines, result) := attempt passes look stopsRunning json (attemptLimit retry s) ⟨0, 0, reconciler⟩
    match result with
    | .error chain => .failed (head ++ lines) chain
    | .ok a =>
      .done (head ++ lines ++ if json then [.out (Json.pretty (encodeApplied a))] else showApplied look.color a)

/-! ## Status -/

structure SubjectStatus where
  subject : Subject
  severity : Severity
  isRunning : Bool
  quarantine : Option String

def statusOf (r : Requirements) (s : Subject) : SubjectStatus :=
  { subject := s
    severity := (r.final? s).getD .passive
    isRunning :=
      match s with
      | .component id => r.running.contains id
      | .service _ => false
    quarantine :=
      match s with
      | .component id => r.quarantined.get? id
      | .service _ => none }

def encodeSubjectStatus (s : SubjectStatus) : Value :=
  .record
    ([("subject", s.subject.encode), ("severity", s.severity.encode), ("running", .bool s.isRunning)] ++
      s.quarantine.toList.map (fun reason => ("quarantine", .text reason)))

def encodeStatus (r : Requirements) (subjects : List SubjectStatus) : Value :=
  .record
    [("disabled", .bool r.disabled), ("dirty", .int r.dirtyCount),
     ("layers", .list (r.layers.map fun a => .list [.text a.layer.name, .int a.count])),
     ("subjects", .list (subjects.map encodeSubjectStatus))]

def showLayers (color : Bool) : List Activation → List Line
  | [] => [.out ("  " ++ paint color .dimmed "none")]
  | layers => layers.map fun a =>
    pair color a.layer.name (if 1 < a.count then "x" ++ toString a.count else "active")

def showService (color : Bool) (s : SubjectStatus) : List Line :=
  match s.subject with
  | .service id => [pair color id (severity color s.severity)]
  | .component _ => []

def showComponent (color : Bool) (s : SubjectStatus) : List Line :=
  match s.subject with
  | .service _ => []
  | .component id =>
    let marker := if s.isRunning then paint color .green "●" else paint color .dimmed "○"
    let reason := (s.quarantine.map fun reason => "  " ++ paint color .red ("quarantined: " ++ reason)).getD ""
    [.out ("  " ++ marker ++ " " ++ pad 20 id ++ " " ++ severity color s.severity ++ reason)]

def runStatus (look : Look) (json : Bool) (s : Scenario) : Result :=
  withRequirements s fun r =>
    let color := look.color
    let subjects := r.catalog.subjects.map (statusOf r)
    if json then .done [.out (Json.pretty (encodeStatus r subjects))]
    else
      .done
        (header color "Lifecycle Status" ++
          (if r.disabled then [warning color "Globally disabled: everything is excluded"] else []) ++
          sectionHead color "Layers" ++ showLayers color r.layers ++
          sectionHead color "Services" ++ subjects.flatMap (showService color) ++
          sectionHead color "Components" ++ subjects.flatMap (showComponent color) ++
          [.out "", pair color "Dirty subjects" (toString r.dirtyCount)])

/-! ## Validate -/

/-- What a catalog that was accepted still gives cause to warn of. -/
def showWarnings (color : Bool) (c : Catalog) : List Line :=
  let unserved := c.unimplemented.filter fun id => (c.service? id).any (fun s => !s.isExternal)
  let broken := c.componentList.filterMap fun component => component.error.map (component.id, ·)
  unserved.map (fun id => warning color ("Service '" ++ id ++ "' has no implementation")) ++
    broken.map (fun b => warning color ("Component '" ++ b.1 ++ "' is unavailable: " ++ b.2))

def runValidate (look : Look) (s : Scenario) : Result :=
  match s.catalog with
  | .error fault => .failed [] fault.chain
  | .ok c =>
    .done
      (showWarnings look.color c ++
        [success look.color
          ("Scenario is valid: " ++ toString c.size ++ " components, " ++ toString c.services.size ++ " services, " ++
            toString s.layers.length ++ " layers")])

/-! ## All together -/

/-- The path of the scenario: the one given, or the one of the environment, or else the standard one. -/
def scenarioPath (home : String) (fallback : Option String) (i : Invocation) : String :=
  match i.scenario.or fallback with
  | some path => Path.expand home path
  | none => Path.standard home

/-- Does what the arguments ask for with the scenario that was found at its path. -/
def run (color : Bool) (i : Invocation) (path : String) (content : Except String String) : Result :=
  match loadScenario path content with
  | .error chain => .failed [] chain
  | .ok s =>
    let look : Look := ⟨color, i.quiet, 0 < i.verbosity⟩
    match i.task with
    | .plan stopsRunning json => runPlan look stopsRunning json s
    | .apply stopsRunning refusing retry json => runApply passLimit look stopsRunning refusing retry json s
    | .status json => runStatus look json s
    | .validate => runValidate look s

end Orchestrator.Command
