import Orchestrator.Proofs.Reconcile.Dialogue
import Orchestrator.Reconcile
/-!
The course of an apply: its passes in order, each with what the solver gave and what the host made of it. An apply is
a chain of passes in which each one but the last was carried out and saw the requirements change.
-/

namespace Orchestrator

/-- What became of a pass: the solver gave no steps, or the host dealt with the steps for a snapshot, said how that went
and left certain requirements behind. -/
inductive Course
  | refused (fault : Fault)
  | executed (snapshot : Snapshot) (steps : Steps) (left : Requirements) (verdict : Verdict)

/-- The host dealt with the steps and did not fail. -/
def Course.isCarriedOut : Course → Bool
  | .executed _ _ _ .done => true
  | _ => false

/-- More passes were due than could be made. -/
def Outcome.isUnfinished : Outcome → Bool
  | .unfinished => true
  | _ => false

theorem ready_of_demand {answer : Except Fault Plan} {steps : Steps} (h : answer.bind Plan.demand = .ok steps) :
    answer = .ok (.ready steps) := by
  cases answer with
  | error fault => cases h
  | ok plan =>
      cases plan with
      | impossible => cases h
      | ready other =>
          cases h
          rfl

theorem solve_eq_error {s : Snapshot} {stopsRunning : Bool} {options : SolverOptions} {fault : Fault}
    (h : Solver.solve s stopsRunning options = .error fault) : ∃ free limit, fault = .searchTooLarge free limit := by
  unfold Solver.solve at h
  split at h
  next => cases h
  next =>
    split at h
    next =>
      cases h
      exact ⟨_, _, rfl⟩
    next =>
      split at h
      next => cases h
      next => cases h

/-- No steps are given just if nothing can be done or too much would have to be searched. -/
theorem unplanned_cases {s : Snapshot} {stopsRunning : Bool} {options : SolverOptions} {fault : Fault}
    (h : (Solver.solve s stopsRunning options).bind Plan.demand = .error fault) :
    (Solver.solve s stopsRunning options = .ok .impossible ∧ fault = .impossible) ∨
      ∃ free limit, fault = .searchTooLarge free limit := by
  cases hanswer : Solver.solve s stopsRunning options with
  | error other =>
      rw [hanswer] at h
      cases h
      exact .inr (solve_eq_error hanswer)
  | ok plan =>
      rw [hanswer] at h
      cases plan with
      | impossible =>
          cases h
          exact .inl ⟨rfl, rfl⟩
      | ready steps => cases h

namespace Reconciler

variable {ρ σ : Type}

def course (host : Host σ) (stopsRunning : Bool) (r : Reconciler ρ σ) (report : Report) : Course :=
  let h := r.handle.change Requirements.beginPass
  let snapshot := h.requirements.snapshot
  match (Solver.solve snapshot stopsRunning r.options).bind Plan.demand with
  | .error fault => .refused fault
  | .ok steps =>
    let (h, _, verdict) := h.run (host (report.passes + 1) steps r.host)
    .executed snapshot steps h.requirements verdict

def coursesWithin (host : Host σ) (stopsRunning : Bool) : (fuel : Nat) → Reconciler ρ σ → Report → List Course
  | 0, _, _ => []
  | fuel + 1, r, report =>
    r.course host stopsRunning report ::
      match r.pass host stopsRunning report with
      | (r, .again report) => coursesWithin host stopsRunning fuel r report
      | _ => []

/-- The passes that an apply makes. -/
def courses (host : Host σ) (fuel : Nat) (stopsRunning : Bool) (r : Reconciler ρ σ) : List Course :=
  if r.inFlight || !r.isDirty then [] else coursesWithin host stopsRunning fuel { r with inFlight := true } .blank

/-! ## One pass -/

variable {host : Host σ} {stopsRunning : Bool} {r r' : Reconciler ρ σ} {report : Report}

/-- The handle while a pass begins; nobody is told. -/
def begun (r : Reconciler ρ σ) : Handle ρ := { r.handle with requirements := r.handle.requirements.beginPass }

/-- The host deals with the planned steps and leaves a handle, a state of its own and a verdict. -/
structure Executes (host : Host σ) (stopsRunning : Bool) (r : Reconciler ρ σ) (report : Report) (steps : Steps)
    (left : Handle ρ) (state : σ) (verdict : Verdict) : Prop where
  planned : r.plan stopsRunning = .ok (.ready steps)
  ran : r.begun.run (host (report.passes + 1) steps r.host) = (left, state, verdict)

/-- All that a pass can do, whatever observers make of it. -/
inductive Undergoes (host : Host σ) (stopsRunning : Bool) (r : Reconciler ρ σ) (report : Report) :
    Course → Reconciler ρ σ × Progress → Prop
  | refused {fault : Fault} (unplanned : (r.plan stopsRunning).bind Plan.demand = .error fault) :
      Undergoes host stopsRunning r report (.refused fault)
        ({ r with handle := { r.handle with requirements := r.handle.requirements.beginPass.endPass.1 } },
          .ended (.error fault))
  | abandoned {steps : Steps} {left : Handle ρ} {state : σ}
      (executes : r.Executes host stopsRunning report steps left state .abandoned) :
      Undergoes host stopsRunning r report
        (.executed r.handle.requirements.snapshot steps left.requirements .abandoned)
        ({ r with handle := left, host := state }, .abandoned)
  | failed {steps : Steps} {left : Handle ρ} {state : σ} {f : Failure}
      (executes : r.Executes host stopsRunning report steps left state (.failed f)) :
      Undergoes host stopsRunning r report
        (.executed r.handle.requirements.snapshot steps left.requirements (.failed f))
        ({ r with
            handle := left.change (fun q => q.endPass.1.recordFailure f.culprit f.message)
            host := state },
          .ended (.error (.executionFailed f.culprit f.message)))
  | done {steps : Steps} {left : Handle ρ} {state : σ} {progress : Progress}
      (executes : r.Executes host stopsRunning report steps left state .done)
      (next : progress =
        if left.requirements.wantsReapply then .again (report.record steps) else .ended (.ok (report.record steps))) :
      Undergoes host stopsRunning r report
        (.executed r.handle.requirements.snapshot steps left.requirements .done)
        ({ r with
            handle := left.change (fun q => (q.commit r.handle.requirements.snapshot steps).endPass.1)
            host := state },
          progress)

theorem pass_undergoes (host : Host σ) (stopsRunning : Bool) (r : Reconciler ρ σ) (report : Report) :
    r.Undergoes host stopsRunning report (r.course host stopsRunning report) (r.pass host stopsRunning report) := by
  have hbegun : r.handle.change Requirements.beginPass = r.begun := Handle.change_of_isDirty_eq rfl
  have hsnapshot : r.begun.requirements.snapshot = r.handle.requirements.snapshot := rfl
  unfold pass course
  simp only [hbegun, hsnapshot]
  cases hplan : (Solver.solve r.handle.requirements.snapshot stopsRunning r.options).bind Plan.demand with
  | error fault =>
      have hended : r.begun.change (fun q => q.endPass.1) =
          { r.handle with requirements := r.handle.requirements.beginPass.endPass.1 } :=
        Handle.change_of_isDirty_eq rfl
      simp only [hended]
      exact .refused hplan
  | ok steps =>
      have hplanned : r.plan stopsRunning = .ok (.ready steps) := ready_of_demand hplan
      simp only []
      cases hran : r.begun.run (host (report.passes + 1) steps r.host) with
      | mk left outcome =>
          obtain ⟨state, verdict⟩ := outcome
          have hexecutes : r.Executes host stopsRunning report steps left state verdict := ⟨hplanned, hran⟩
          cases verdict with
          | abandoned => exact .abandoned hexecutes
          | failed f => exact .failed hexecutes
          | done => exact .done hexecutes rfl

/-- A pass that ends an apply well was carried out, and nobody took note of a change in the meantime. -/
theorem Undergoes.of_ok {c : Course} {done : Report}
    (h : r.Undergoes host stopsRunning report c (r', .ended (.ok done))) :
    ∃ steps left state, r.Executes host stopsRunning report steps left state .done ∧
      left.requirements.wantsReapply = false ∧
      c = .executed r.handle.requirements.snapshot steps left.requirements .done ∧
      r' =
        { r with
          handle := left.change (fun q => (q.commit r.handle.requirements.snapshot steps).endPass.1)
          host := state } := by
  generalize hresult : Except.ok done = result at h
  cases h with
  | refused unplanned => cases hresult
  | failed executes => cases hresult
  | @done steps left state _ executes next =>
      cases hwants : left.requirements.wantsReapply with
      | true =>
          rw [hwants] at next
          cases next
      | false => exact ⟨steps, left, state, executes, hwants, rfl, rfl⟩

/-- A pass that ends an apply with a failure is one that the host failed to carry out. -/
theorem Undergoes.of_failure {c : Course} {culprit message : String}
    (h : r.Undergoes host stopsRunning report c (r', .ended (.error (.executionFailed culprit message)))) :
    ∃ steps left state, r.Executes host stopsRunning report steps left state (.failed ⟨culprit, message⟩) ∧
      c = .executed r.handle.requirements.snapshot steps left.requirements (.failed ⟨culprit, message⟩) ∧
      r' =
        { r with
          handle := left.change (fun q => q.endPass.1.recordFailure culprit message)
          host := state } := by
  generalize hresult : Except.error (Fault.executionFailed culprit message) = result at h
  cases h with
  | refused unplanned =>
      cases hresult
      rcases unplanned_cases unplanned with ⟨-, himpossible⟩ | ⟨free, limit, hlarge⟩
      · cases himpossible
      · cases hlarge
  | @failed steps left state f executes =>
      cases hresult
      exact ⟨steps, left, state, executes, rfl, rfl⟩
  | done executes next =>
      cases hresult
      split at next
      · cases next
      · cases next

/-! ## The whole apply -/

/-- A chain of passes, in which each but the last calls for another one. -/
inductive Proceeds (host : Host σ) (stopsRunning : Bool) :
    Reconciler ρ σ → Report → List Course → Reconciler ρ σ → Outcome → Prop
  | unfinished {r : Reconciler ρ σ} {report : Report} : Proceeds host stopsRunning r report [] r .unfinished
  | ended {r r' : Reconciler ρ σ} {report : Report} {c : Course} {result : Except Fault Report}
      (undergoes : r.Undergoes host stopsRunning report c (r', .ended result)) :
      Proceeds host stopsRunning r report [c] r' (.finished result)
  | abandoned {r r' : Reconciler ρ σ} {report : Report} {c : Course}
      (undergoes : r.Undergoes host stopsRunning report c (r', .abandoned)) :
      Proceeds host stopsRunning r report [c] r' .abandoned
  | again {r r' q : Reconciler ρ σ} {report report' : Report} {c : Course} {courses : List Course} {outcome : Outcome}
      (undergoes : r.Undergoes host stopsRunning report c (r', .again report'))
      (rest : Proceeds host stopsRunning r' report' courses q outcome) :
      Proceeds host stopsRunning r report (c :: courses) q outcome

theorem converge_proceeds (host : Host σ) (stopsRunning : Bool) (fuel : Nat) (r : Reconciler ρ σ) (report : Report) :
    Proceeds host stopsRunning r report (coursesWithin host stopsRunning fuel r report)
      (converge host stopsRunning fuel r report).1 (converge host stopsRunning fuel r report).2 := by
  induction fuel generalizing r report with
  | zero => exact .unfinished
  | succ fuel ih =>
      have hundergoes := pass_undergoes host stopsRunning r report
      unfold coursesWithin converge
      revert hundergoes
      generalize r.pass host stopsRunning report = passed
      obtain ⟨r', progress⟩ := passed
      intro hundergoes
      cases progress with
      | again report' => exact .again hundergoes (ih r' report')
      | ended result => exact .ended hundergoes
      | abandoned => exact .abandoned hundergoes

/-- Every pass but the last was carried out. -/
theorem Proceeds.carriedOut {courses : List Course} {outcome : Outcome}
    (h : Proceeds host stopsRunning r report courses r' outcome) : ∀ c ∈ courses.dropLast, c.isCarriedOut = true := by
  induction h with
  | unfinished => exact fun _ hother => (List.not_mem_nil hother).elim
  | ended undergoes => exact fun _ hother => (List.not_mem_nil hother).elim
  | abandoned undergoes => exact fun _ hother => (List.not_mem_nil hother).elim
  | @again r r' q report report' c courses outcome undergoes rest ih =>
      intro other hother
      cases courses with
      | nil => cases hother
      | cons next later =>
          rcases List.mem_cons.mp hother with rfl | hlater
          · cases undergoes
            rfl
          · exact ih other hlater

/-- All that an apply can do, whatever observers make of it. -/
inductive Concludes (host : Host σ) (stopsRunning : Bool) (r : Reconciler ρ σ) :
    List Course → Reconciler ρ σ × Outcome → Prop
  | busy (inFlight : r.inFlight = true) : Concludes host stopsRunning r [] (r, .busy)
  | clean (clean : r.isDirty = false) : Concludes host stopsRunning r [] (r, .finished (.ok .blank))
  | proceeds {courses : List Course} {q : Reconciler ρ σ} {outcome : Outcome} (dirty : r.isDirty = true)
      (proceeds : Proceeds host stopsRunning { r with inFlight := true } .blank courses q outcome) :
      Concludes host stopsRunning r courses ({ q.conclude outcome with inFlight := false }, outcome)

/-- To announce how an apply ended changes nothing but what observers wrote down. -/
theorem keeps_conclude {P : Operation → Prop} {I : Requirements → Prop} (h : r.handle.Keeps P I) (outcome : Outcome) :
    (r.conclude outcome).handle.Keeps P I := by
  cases outcome with
  | finished result => exact h.announceApplied result
  | abandoned | busy | unfinished => exact h

theorem requirements_conclude (outcome : Outcome) :
    (r.conclude outcome).handle.requirements = r.handle.requirements := by
  have hsame : r.handle.Keeps (fun _ => True) (· = r.handle.requirements) := ⟨rfl, r.handle.allows_true⟩
  exact (keeps_conclude hsame outcome).requirements

theorem host_conclude (outcome : Outcome) : (r.conclude outcome).host = r.host := by
  cases outcome with
  | finished | abandoned | busy | unfinished => rfl

theorem options_conclude (outcome : Outcome) : (r.conclude outcome).options = r.options := by
  cases outcome with
  | finished | abandoned | busy | unfinished => rfl

theorem Concludes.carriedOut {courses : List Course} {passed : Reconciler ρ σ × Outcome}
    (h : r.Concludes host stopsRunning courses passed) : ∀ c ∈ courses.dropLast, c.isCarriedOut = true := by
  cases h with
  | busy inFlight => exact fun _ hother => (List.not_mem_nil hother).elim
  | clean clean => exact fun _ hother => (List.not_mem_nil hother).elim
  | proceeds dirty proceeds => exact proceeds.carriedOut

/-- An apply whose first pass ends it makes no other, and after that only tells observers how it ended. -/
theorem apply_of_ended (hflight : r.inFlight = false) (hdirty : r.isDirty = true) {q : Reconciler ρ σ}
    {result : Except Fault Report}
    (hended : pass host stopsRunning { r with inFlight := true } .blank = (q, .ended result)) (fuel : Nat) :
    r.courses host (fuel + 1) stopsRunning = [course host stopsRunning { r with inFlight := true } .blank] ∧
      (r.apply host (fuel + 1) stopsRunning).2 = .finished result ∧
      (r.apply host (fuel + 1) stopsRunning).1.host = q.host ∧
      (r.apply host (fuel + 1) stopsRunning).1.options = q.options ∧
      (r.apply host (fuel + 1) stopsRunning).1.handle.requirements = q.handle.requirements := by
  have happlied : r.apply host (fuel + 1) stopsRunning =
      ({ q.conclude (.finished result) with inFlight := false }, .finished result) := by
    rw [Reconciler.apply, hflight, hdirty, converge, hended]
    rfl
  refine ⟨?_, ?_, ?_, ?_, ?_⟩
  · rw [courses, hflight, hdirty, coursesWithin, hended]
    rfl
  · rw [happlied]
  · rw [happlied]
    exact host_conclude _
  · rw [happlied]
    exact options_conclude _
  · rw [happlied]
    exact requirements_conclude _

theorem apply_concludes (host : Host σ) (fuel : Nat) (stopsRunning : Bool) (r : Reconciler ρ σ) :
    r.Concludes host stopsRunning (r.courses host fuel stopsRunning) (r.apply host fuel stopsRunning) := by
  unfold Reconciler.apply courses
  cases hflight : r.inFlight with
  | true => exact .busy hflight
  | false =>
      cases hdirty : r.isDirty with
      | false => exact .clean hdirty
      | true => exact .proceeds hdirty (converge_proceeds host stopsRunning fuel { r with inFlight := true } .blank)

theorem apply_concludes_of_eq {fuel : Nat} {outcome : Outcome} (h : (r.apply host fuel stopsRunning).2 = outcome) :
    r.Concludes host stopsRunning (r.courses host fuel stopsRunning)
      ((r.apply host fuel stopsRunning).1, outcome) := by
  rw [← h]
  exact apply_concludes host fuel stopsRunning r

end Reconciler

end Orchestrator
