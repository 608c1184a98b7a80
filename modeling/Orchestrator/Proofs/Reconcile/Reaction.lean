import Orchestrator.Proofs.Reconcile.Course
import Orchestrator.Proofs.Requirements.Reach
/-!
Observers that answer in the course of an apply. As long as all of them ask for operations of one kind only, and the
host for operations of a wider kind, whatever the latter and the moments of a pass keep is kept by every pass and by
every apply, and each pass finds it.
-/

namespace Orchestrator

namespace Reconciler

variable {ρ σ : Type} {host : Host σ} {stopsRunning : Bool} {r r' : Reconciler ρ σ} {report : Report}
  {P Q : Operation → Prop} {I : Requirements → Prop}

/-- Operations of one kind and the moments of a pass keep the property, and to record a failure is of this kind. -/
structure Lasts (Q : Operation → Prop) (I : Requirements → Prop) : Prop where
  stable : ∀ r e, Occurrence.Asks Q e → I r → I (r.after e)
  failure : ∀ id message, Q (.recordFailure id message)

theorem Lasts.operations (hl : Lasts Q I) : Handle.Stable Q I :=
  fun r operation hpermitted hr => hl.stable r (.asked operation) hpermitted hr

theorem lasts_reachedOver (C : Catalog → Prop) : Lasts (Operation.Installs C) (Requirements.ReachedOver C) where
  stable := fun _ _ he hr => hr.after he.installs
  failure := fun _ _ => trivial

/-- The property lasts while the host asks for operations of one kind and observers for some of them. -/
structure Sustains (P Q : Operation → Prop) (I : Requirements → Prop) (host : Host σ) : Prop extends Lasts Q I where
  host : ∀ number steps state, (host number steps state).AsksOnly Q
  observers : ∀ operation, P operation → Q operation

namespace Sustains

variable (hs : Sustains P Q I host)
include hs

theorem left {steps : Steps} {left : Handle ρ} {state : σ} {verdict : Verdict} (hr : r.handle.Keeps P I)
    (h : r.Executes host stopsRunning report steps left state verdict) : left.Keeps P I := by
  have hbegun : r.begun.Keeps P I := ⟨hs.stable _ .passBegins trivial hr.requirements, hr.allows⟩
  have hleft := hbegun.run hs.toLasts.operations hs.observers (hs.host (report.passes + 1) steps r.host)
  rwa [h.ran] at hleft

theorem committed {snapshot : Snapshot} {steps : Steps} {left : Handle ρ} (hleft : left.Keeps P I) :
    (left.change (fun q => (q.commit snapshot steps).endPass.1)).Keeps P I := by
  have hcommitted := hs.stable _ (.passCommits snapshot steps) trivial hleft.requirements
  have hended := hs.stable _ .passEnds trivial hcommitted
  exact hleft.allows.change (hs.toLasts.operations.mono hs.observers)
    (fun q => (q.commit snapshot steps).endPass.1) hended

theorem undergoes {c : Course} {progress : Progress} (hr : r.handle.Keeps P I)
    (h : r.Undergoes host stopsRunning report c (r', progress)) : r'.handle.Keeps P I := by
  cases h with
  | refused unplanned =>
      have hbegun := hs.stable _ .passBegins trivial hr.requirements
      exact ⟨hs.stable _ .passEnds trivial hbegun, hr.allows⟩
  | abandoned executes => exact hs.left hr executes
  | @failed steps left state f executes =>
      have hleft := hs.left hr executes
      have hended := hs.stable _ .passEnds trivial hleft.requirements
      have hrecorded := hs.stable _ (.asked (.recordFailure f.culprit f.message)) (hs.failure _ _) hended
      exact hleft.allows.change (hs.toLasts.operations.mono hs.observers)
        (fun q => q.endPass.1.recordFailure f.culprit f.message) hrecorded
  | done executes next => exact hs.committed (hs.left hr executes)

theorem proceeds {courses : List Course} {outcome : Outcome} (hr : r.handle.Keeps P I)
    (h : Proceeds host stopsRunning r report courses r' outcome) : r'.handle.Keeps P I := by
  induction h with
  | unfinished => exact hr
  | ended undergoes => exact hs.undergoes hr undergoes
  | abandoned undergoes => exact hs.undergoes hr undergoes
  | again undergoes rest ih => exact ih (hs.undergoes hr undergoes)

/-- Every pass sets out from a state that has the property. -/
theorem eachPass {courses : List Course} {outcome : Outcome} (hr : r.handle.Keeps P I)
    (h : Proceeds host stopsRunning r report courses r' outcome) :
    ∀ c ∈ courses, ∃ (q : Reconciler ρ σ) (report' : Report) (passed : Reconciler ρ σ × Progress),
      q.handle.Keeps P I ∧ q.Undergoes host stopsRunning report' c passed := by
  induction h with
  | unfinished => exact fun _ hc => (List.not_mem_nil hc).elim
  | ended undergoes =>
      intro c hc
      rw [List.mem_singleton.mp hc]
      exact ⟨_, _, _, hr, undergoes⟩
  | abandoned undergoes =>
      intro c hc
      rw [List.mem_singleton.mp hc]
      exact ⟨_, _, _, hr, undergoes⟩
  | again undergoes rest ih =>
      intro c hc
      rcases List.mem_cons.mp hc with rfl | hlater
      · exact ⟨_, _, _, hr, undergoes⟩
      · exact ih (hs.undergoes hr undergoes) c hlater

/-- The result is that of the last pass. -/
theorem lastPass {courses : List Course} {outcome : Outcome} {result : Except Fault Report} (hr : r.handle.Keeps P I)
    (h : Proceeds host stopsRunning r report courses r' outcome) (hfinished : outcome = .finished result) :
    ∃ (q : Reconciler ρ σ) (report' : Report) (c : Course), q.handle.Keeps P I ∧
      courses.getLast? = some c ∧ q.Undergoes host stopsRunning report' c (r', .ended result) := by
  induction h with
  | unfinished => cases hfinished
  | @ended r r' report c result undergoes =>
      cases hfinished
      exact ⟨r, report, c, hr, rfl, undergoes⟩
  | abandoned undergoes => cases hfinished
  | again undergoes rest ih =>
      obtain ⟨q, report', c, hq, hlast, hended⟩ := ih (hs.undergoes hr undergoes) hfinished
      refine ⟨q, report', c, hq, ?_, hended⟩
      rw [List.getLast?_cons, hlast, Option.getD_some]

theorem concludes {courses : List Course} {outcome : Outcome} (hr : r.handle.Keeps P I)
    (h : r.Concludes host stopsRunning courses (r', outcome)) : r'.handle.Keeps P I := by
  cases h with
  | busy inFlight => exact hr
  | clean clean => exact hr
  | proceeds dirty proceeds =>
      have hended := hs.proceeds (r := { r with inFlight := true }) hr proceeds
      exact keeps_conclude hended _

end Sustains

end Reconciler

end Orchestrator
