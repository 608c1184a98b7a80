import Orchestrator.Proofs.Reconcile.Course
/-!
Observers that only listen. With them every pass is a run of the host on the requirements alone, as if nobody else were
there, and so is every pass of an apply.
-/

namespace Orchestrator

namespace Reconciler

variable {ρ σ : Type}

/-- The reconciler goes over to certain requirements and to a certain state of the host; its observers only listen. -/
structure Becomes (r r' : Reconciler ρ σ) (q : Requirements) (state : σ) : Prop where
  holds : r'.handle.Holds q
  host : r'.host = state
  options : r'.options = r.options

/-- The host carries out the steps that are planned. -/
structure CarriesOut (host : Host σ) (stopsRunning : Bool) (r : Reconciler ρ σ) (report : Report) (steps : Steps)
    (left : Requirements) (state : σ) (verdict : Verdict) : Prop where
  planned : r.plan stopsRunning = .ok (.ready steps)
  ran : (host (report.passes + 1) steps r.host).runOn r.handle.requirements.beginPass = (left, state, verdict)

variable {host : Host σ} {stopsRunning : Bool} {r r' : Reconciler ρ σ} {report : Report}

/-- All that a pass can do while observers only listen. -/
inductive Passes (host : Host σ) (stopsRunning : Bool) (r : Reconciler ρ σ) (report : Report) (r' : Reconciler ρ σ) :
    Course → Progress → Prop
  | refused {fault : Fault} (unplanned : (r.plan stopsRunning).bind Plan.demand = .error fault)
      (becomes : r.Becomes r' r.handle.requirements.beginPass.endPass.1 r.host) :
      Passes host stopsRunning r report r' (.refused fault) (.ended (.error fault))
  | abandoned {steps : Steps} {left : Requirements} {state : σ}
      (carriesOut : r.CarriesOut host stopsRunning report steps left state .abandoned)
      (becomes : r.Becomes r' left state) :
      Passes host stopsRunning r report r' (.executed r.handle.requirements.snapshot steps left .abandoned) .abandoned
  | failed {steps : Steps} {left : Requirements} {state : σ} {f : Failure}
      (carriesOut : r.CarriesOut host stopsRunning report steps left state (.failed f))
      (becomes : r.Becomes r' (left.endPass.1.recordFailure f.culprit f.message) state) :
      Passes host stopsRunning r report r' (.executed r.handle.requirements.snapshot steps left (.failed f))
        (.ended (.error (.executionFailed f.culprit f.message)))
  | repeated {steps : Steps} {left : Requirements} {state : σ}
      (carriesOut : r.CarriesOut host stopsRunning report steps left state .done)
      (changed : left.wantsReapply = true)
      (becomes : r.Becomes r' (left.commit r.handle.requirements.snapshot steps).endPass.1 state) :
      Passes host stopsRunning r report r' (.executed r.handle.requirements.snapshot steps left .done)
        (.again (report.record steps))
  | settled {steps : Steps} {left : Requirements} {state : σ}
      (carriesOut : r.CarriesOut host stopsRunning report steps left state .done)
      (unchanged : left.wantsReapply = false)
      (becomes : r.Becomes r' (left.commit r.handle.requirements.snapshot steps).endPass.1 state) :
      Passes host stopsRunning r report r' (.executed r.handle.requirements.snapshot steps left .done)
        (.ended (.ok (report.record steps)))

theorem Passes.quiet {c : Course} {progress : Progress} (h : r.Passes host stopsRunning report r' c progress) :
    r'.handle.Quiet := by
  cases h with
  | refused unplanned becomes => exact becomes.holds.quiet
  | abandoned carriesOut becomes => exact becomes.holds.quiet
  | failed carriesOut becomes => exact becomes.holds.quiet
  | repeated carriesOut changed becomes => exact becomes.holds.quiet
  | settled carriesOut unchanged becomes => exact becomes.holds.quiet

/-- Since observers only listen, the host leaves the same requirements as it would without them. -/
theorem Executes.carriesOut {steps : Steps} {left : Handle ρ} {state : σ} {verdict : Verdict} (hquiet : r.handle.Quiet)
    (h : r.Executes host stopsRunning report steps left state verdict) :
    r.CarriesOut host stopsRunning report steps left.requirements state verdict ∧ left.Quiet := by
  have hbegun : r.begun.Holds r.handle.requirements.beginPass := ⟨rfl, hquiet⟩
  obtain ⟨hleft, hresult⟩ := hbegun.run (host (report.passes + 1) steps r.host)
  rw [h.ran] at hleft hresult
  exact ⟨⟨h.planned, Prod.ext hleft.requirements.symm hresult.symm⟩, hleft.quiet⟩

theorem Undergoes.passes {c : Course} {progress : Progress} (hquiet : r.handle.Quiet)
    (h : r.Undergoes host stopsRunning report c (r', progress)) : r.Passes host stopsRunning report r' c progress := by
  cases h with
  | refused unplanned => exact .refused unplanned ⟨⟨rfl, hquiet⟩, rfl, rfl⟩
  | abandoned executes =>
      obtain ⟨hcarried, hleft⟩ := executes.carriesOut hquiet
      exact .abandoned hcarried ⟨hleft.holds, rfl, rfl⟩
  | @failed steps left state f executes =>
      obtain ⟨hcarried, hleft⟩ := executes.carriesOut hquiet
      exact .failed hcarried ⟨hleft.holds.change (fun q => q.endPass.1.recordFailure f.culprit f.message), rfl, rfl⟩
  | @done steps left state progress executes next =>
      obtain ⟨hcarried, hleft⟩ := executes.carriesOut hquiet
      have hbecomes := hleft.holds.change (fun q => (q.commit r.handle.requirements.snapshot steps).endPass.1)
      cases hreapply : left.requirements.wantsReapply with
      | true =>
          rw [next, hreapply]
          exact .repeated hcarried hreapply ⟨hbecomes, rfl, rfl⟩
      | false =>
          rw [next, hreapply]
          exact .settled hcarried hreapply ⟨hbecomes, rfl, rfl⟩

theorem pass_passes (host : Host σ) (stopsRunning : Bool) (report : Report) (hquiet : r.handle.Quiet) :
    r.Passes host stopsRunning report (r.pass host stopsRunning report).1 (r.course host stopsRunning report)
      (r.pass host stopsRunning report).2 :=
  (pass_undergoes host stopsRunning r report).passes hquiet

/-- Nothing is noted where only the store of settings was written to, and then the pass ends the apply. -/
theorem Passes.of_untouched {p : Steps} {settings : Settings} {state : σ} {c : Course} {progress : Progress}
    (hplan : r.plan stopsRunning = .ok (.ready p))
    (hran : (host (report.passes + 1) p r.host).runOn r.handle.requirements.beginPass =
      (r.handle.requirements.beginPass.editSettings settings, state, .done))
    (h : r.Passes host stopsRunning report r' c progress) :
    let left := r.handle.requirements.beginPass.editSettings settings
    c = .executed r.handle.requirements.snapshot p left .done ∧ progress = .ended (.ok (report.record p)) ∧
      r.Becomes r' (left.commit r.handle.requirements.snapshot p).endPass.1 state := by
  cases h with
  | refused unplanned becomes =>
      rw [hplan] at unplanned
      cases unplanned
  | abandoned carriesOut becomes =>
      cases hplan.symm.trans carriesOut.planned
      cases hran.symm.trans carriesOut.ran
  | failed carriesOut becomes =>
      cases hplan.symm.trans carriesOut.planned
      cases hran.symm.trans carriesOut.ran
  | repeated carriesOut changed becomes =>
      cases hplan.symm.trans carriesOut.planned
      cases hran.symm.trans carriesOut.ran
      cases changed
  | settled carriesOut unchanged becomes =>
      cases hplan.symm.trans carriesOut.planned
      cases hran.symm.trans carriesOut.ran
      exact ⟨rfl, rfl, becomes⟩

/-- If the host succeeds with the steps that are planned and leaves the requirements alone, the apply ends well after
one pass. -/
theorem apply_of_untouched {p : Steps} {settings : Settings} {state : σ} (hquiet : r.handle.Quiet)
    (hflight : r.inFlight = false) (hdirty : r.isDirty = true) (hplan : r.plan stopsRunning = .ok (.ready p))
    (hran : (host 1 p r.host).runOn r.handle.requirements.beginPass =
      (r.handle.requirements.beginPass.editSettings settings, state, .done)) (fuel : Nat) :
    let left := r.handle.requirements.beginPass.editSettings settings
    let applied := r.apply host (fuel + 1) stopsRunning
    r.courses host (fuel + 1) stopsRunning = [.executed r.handle.requirements.snapshot p left .done] ∧
      applied.2 = .finished (.ok (Report.blank.record p)) ∧ applied.1.host = state ∧ applied.1.options = r.options ∧
      applied.1.handle.requirements = (left.commit r.handle.requirements.snapshot p).endPass.1 := by
  intro left applied
  let start : Reconciler ρ σ := { r with inFlight := true }
  have hpasses := pass_passes (r := start) host stopsRunning .blank hquiet
  obtain ⟨hcourse, hended, hbecomes⟩ := Passes.of_untouched (r := start) hplan hran hpasses
  obtain ⟨hcourses, hanswer, hhost, hoptions, hrequirements⟩ :=
    apply_of_ended hflight hdirty (Prod.ext rfl hended) fuel
  exact ⟨hcourses.trans (congrArg ([·]) hcourse), hanswer, hhost.trans hbecomes.host,
    hoptions.trans hbecomes.options, hrequirements.trans hbecomes.holds.requirements⟩

/-! ## The whole apply -/

/-- A chain of passes from one reconciler to another. -/
inductive Runs (host : Host σ) (stopsRunning : Bool) :
    Reconciler ρ σ → Report → List Course → Reconciler ρ σ → Outcome → Prop
  | unfinished {r : Reconciler ρ σ} {report : Report} : Runs host stopsRunning r report [] r .unfinished
  | ended {r r' : Reconciler ρ σ} {report : Report} {c : Course} {result : Except Fault Report}
      (passes : r.Passes host stopsRunning report r' c (.ended result)) :
      Runs host stopsRunning r report [c] r' (.finished result)
  | abandoned {r r' : Reconciler ρ σ} {report : Report} {c : Course}
      (passes : r.Passes host stopsRunning report r' c .abandoned) :
      Runs host stopsRunning r report [c] r' .abandoned
  | again {r r' q : Reconciler ρ σ} {report report' : Report} {c : Course} {courses : List Course} {outcome : Outcome}
      (passes : r.Passes host stopsRunning report r' c (.again report'))
      (rest : Runs host stopsRunning r' report' courses q outcome) :
      Runs host stopsRunning r report (c :: courses) q outcome

theorem Proceeds.runs {courses : List Course} {outcome : Outcome} (hquiet : r.handle.Quiet)
    (h : Proceeds host stopsRunning r report courses r' outcome) :
    Runs host stopsRunning r report courses r' outcome := by
  induction h with
  | unfinished => exact .unfinished
  | ended undergoes => exact .ended (undergoes.passes hquiet)
  | abandoned undergoes => exact .abandoned (undergoes.passes hquiet)
  | again undergoes rest ih =>
      have hpasses := undergoes.passes hquiet
      exact .again hpasses (ih hpasses.quiet)

/-- All that an apply can do while observers only listen. -/
inductive Applies (host : Host σ) (stopsRunning : Bool) (r r' : Reconciler ρ σ) : List Course → Outcome → Prop
  | busy (inFlight : r.inFlight = true) (same : r' = r) : Applies host stopsRunning r r' [] .busy
  | clean (clean : r.isDirty = false) (same : r' = r) : Applies host stopsRunning r r' [] (.finished (.ok .blank))
  | runs {courses : List Course} {outcome : Outcome} {q : Reconciler ρ σ} (dirty : r.isDirty = true)
      (runs : Runs host stopsRunning { r with inFlight := true } .blank courses q outcome)
      (becomes : q.Becomes r' q.handle.requirements q.host) : Applies host stopsRunning r r' courses outcome

theorem Runs.quiet {courses : List Course} {outcome : Outcome} (hquiet : r.handle.Quiet)
    (h : Runs host stopsRunning r report courses r' outcome) : r'.handle.Quiet := by
  induction h with
  | unfinished => exact hquiet
  | ended passes => exact passes.quiet
  | abandoned passes => exact passes.quiet
  | again passes rest ih => exact ih passes.quiet

theorem conclude_becomes (hquiet : r.handle.Quiet) (outcome : Outcome) (inFlight : Bool) :
    r.Becomes { r.conclude outcome with inFlight } r.handle.requirements r.host := by
  cases outcome with
  | finished result => exact ⟨hquiet.holds.announceApplied result, rfl, rfl⟩
  | abandoned => exact ⟨hquiet.holds, rfl, rfl⟩
  | busy => exact ⟨hquiet.holds, rfl, rfl⟩
  | unfinished => exact ⟨hquiet.holds, rfl, rfl⟩

theorem Concludes.applies {courses : List Course} {outcome : Outcome} (hquiet : r.handle.Quiet)
    (h : r.Concludes host stopsRunning courses (r', outcome)) : r.Applies host stopsRunning r' courses outcome := by
  cases h with
  | busy inFlight => exact .busy inFlight rfl
  | clean clean => exact .clean clean rfl
  | proceeds dirty proceeds =>
      have hstart : ({ r with inFlight := true } : Reconciler ρ σ).handle.Quiet := hquiet
      have hruns := proceeds.runs hstart
      exact .runs dirty hruns (conclude_becomes (hruns.quiet hstart) outcome false)

theorem apply_applies (fuel : Nat) (hquiet : r.handle.Quiet) :
    r.Applies host stopsRunning (r.apply host fuel stopsRunning).1 (r.courses host fuel stopsRunning)
      (r.apply host fuel stopsRunning).2 :=
  (apply_concludes host fuel stopsRunning r).applies hquiet

end Reconciler

end Orchestrator
