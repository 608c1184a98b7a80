import Orchestrator.Proofs.Reconcile.Attained
import Orchestrator.Proofs.Reconcile.SwitchedOff
/-!
The plan as a preview of the apply. What the plan says before anything is carried out is what the host is given, once,
and what the report says afterwards; and where the host leaves the requirements alone, the components that the plan says
will run are those that run. Where there are no steps the apply fails in the same way, and all is as it was found.
-/

namespace Orchestrator

namespace Reconciler

variable {ρ σ : Type} {host : Host σ} {stopsRunning : Bool} {r r' : Reconciler ρ σ} {report : Report} {c : Course}
  {progress : Progress}

/-- Without steps a pass only begins and ends, and the host is not asked. -/
theorem Undergoes.of_unplanned {fault : Fault} (hplan : (r.plan stopsRunning).bind Plan.demand = .error fault)
    (h : r.Undergoes host stopsRunning report c (r', progress)) :
    c = .refused fault ∧ progress = .ended (.error fault) ∧ r'.host = r.host ∧
      r'.handle.requirements = { r.handle.requirements with isApplying := false, wantsReapply := false } := by
  cases h with
  | refused unplanned =>
      cases hplan.symm.trans unplanned
      exact ⟨rfl, rfl, rfl, rfl⟩
  | abandoned executes | failed executes | done executes next =>
      rw [executes.planned] at hplan
      cases hplan

/-- Something is left to do, and no apply is in flight. If there is a plan, and the host succeeds with its steps and
leaves the requirements alone while observers only listen, then the host is given just these steps, and that once; the
report says what the plan says; and of all components, known or not, those run that the plan says will run. If nothing
can be done or too much would have to be searched, the apply fails over the same, without asking the host, and apart
from the marks of a pass the requirements are as they were found. -/
theorem apply_as_planned (host : Host σ) (fuel : Nat) (stopsRunning : Bool) (r : Reconciler ρ σ)
    (hdirty : r.isDirty = true) (hflight : r.inFlight = false) :
    let found := r.handle.requirements
    let applied := r.apply host (fuel + 1) stopsRunning
    let courses := r.courses host (fuel + 1) stopsRunning
    (∀ p settings state, found.catalog.Keyed → r.handle.Quiet → r.plan stopsRunning = .ok (.ready p) →
      (host 1 p r.host).runOn found.beginPass = (found.beginPass.editSettings settings, state, .done) →
        courses = [.executed found.snapshot p (found.beginPass.editSettings settings) .done] ∧
        applied.1.host = state ∧
        applied.2 = .finished (.ok ⟨1, p.start.size, p.stop.size, p.exclude.size, p.cost⟩) ∧
        ∀ id, applied.1.handle.requirements.running.contains id = p.runsAfter id (found.running.contains id)) ∧
    ∀ fault, (r.plan stopsRunning = .ok .impossible ∧ fault = .impossible ∨ r.plan stopsRunning = .error fault) →
      courses = [.refused fault] ∧ applied.1.host = r.host ∧ applied.2 = .finished (.error fault) ∧
        applied.1.handle.requirements = { found with isApplying := false, wantsReapply := false } := by
  intro found applied courses
  refine ⟨?_, ?_⟩
  · intro p settings state hkeyed hquiet hplan hran
    obtain ⟨hcourses, hanswer, hhost, -, hleft⟩ := apply_of_untouched hquiet hflight hdirty hplan hran fuel
    have hreport : Report.blank.record p = ⟨1, p.start.size, p.stop.size, p.exclude.size, p.cost⟩ := by
      simp [Report.record, Report.blank]
    refine ⟨hcourses, hhost, hreport ▸ hanswer, ?_⟩
    intro id
    rw [hleft]
    exact Requirements.contains_running_commit
      fun hstarted => (hkeyed.recognizes found.snapshot stopsRunning r.options p rfl hplan id hstarted).symm
  · intro fault hplan
    let start : Reconciler ρ σ := { r with inFlight := true }
    have hunplanned : (start.plan stopsRunning).bind Plan.demand = .error fault := by
      rcases hplan with ⟨himpossible, rfl⟩ | hfault
      · exact congrArg (·.bind Plan.demand) himpossible
      · exact congrArg (·.bind Plan.demand) hfault
    obtain ⟨hcourse, hended, hstate, hleft⟩ :=
      (pass_undergoes host stopsRunning start .blank).of_unplanned hunplanned
    obtain ⟨hcourses, hanswer, hhost, -, hrequirements⟩ := apply_of_ended hflight hdirty (Prod.ext rfl hended) fuel
    exact ⟨hcourses.trans (congrArg ([·]) hcourse), hhost.trans hstate, hanswer, hrequirements.trans hleft⟩

/-- A host that looks at the requirements and writes down what it is given. -/
def Host.scribe : Host (List (Nat × Steps)) :=
  fun number steps written => .look fun _ => .done (written ++ [(number, steps)], .done)

/-- The lamp is to be lit, and a scribe sees to it. -/
def litByScribe : Reconciler Unit (List (Nat × Steps)) :=
  { handle := (Simulator.dusk []).handle, host := [], options := .standard, inFlight := false }

/-- The shop is to open but cannot, whoever sees to it. -/
def shutByScribe : Reconciler Unit (List (Nat × Steps)) :=
  { handle := ⟨openShop, [.listener]⟩, host := [], options := .standard, inFlight := false }

theorem apply_as_planned_scribe :
    let p : Steps := ⟨IdSet.ofList ["lamp"], .empty, .empty, 0⟩
    litByScribe.plan false = .ok (.ready p) ∧ (litByScribe.apply Host.scribe 3 false).1.host = [(1, p)] ∧
      (litByScribe.apply Host.scribe 3 false).2 = .finished (.ok ⟨1, 1, 0, 0, 0⟩) ∧
      (litByScribe.apply Host.scribe 3 false).1.handle.requirements.running.contains "lamp" = true ∧
      shutByScribe.plan false = .ok .impossible ∧ (shutByScribe.apply Host.scribe 3 false).1.host = [] ∧
      (shutByScribe.apply Host.scribe 3 false).2 = .finished (.error .impossible) := by
  intro p
  have hplan : litByScribe.plan false = .ok (.ready p) := by decide +kernel
  have hshut : shutByScribe.plan false = .ok .impossible := by decide +kernel
  have hkeyed : litByScribe.handle.requirements.catalog.Keyed := (Simulator.dusk_reached []).runsKnown.catalog
  obtain ⟨hready, -⟩ := apply_as_planned Host.scribe 2 false litByScribe (by decide +kernel) rfl
  obtain ⟨-, hstate, hanswer, hrunning⟩ :=
    hready p litByScribe.handle.requirements.settings [(1, p)] hkeyed (Simulator.dusk_quiet []) hplan rfl
  obtain ⟨-, hrefused⟩ := apply_as_planned Host.scribe 2 false shutByScribe (by decide +kernel) rfl
  obtain ⟨-, hidle, hfault, -⟩ := hrefused .impossible (.inl ⟨hshut, rfl⟩)
  exact ⟨hplan, hstate, hanswer, (hrunning "lamp").trans (by decide +kernel), hshut, hidle, hfault⟩

end Reconciler

end Orchestrator
