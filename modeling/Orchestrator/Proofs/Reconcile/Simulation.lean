import Orchestrator.Proofs.Reconcile.Quiet
import Orchestrator.Proofs.Requirements.Lockstep
import Orchestrator.Proofs.Simulator.Upkeep
/-!
Passes of a simulator. All that its orders depend on are the steps, its triggers and what runs, and it never gives up,
so that the outcome of a pass can be said outright: which deeds are done, and how often each layer occurs afterwards.
-/

namespace Orchestrator

namespace Reconciler

open Simulator (redo deedsOf upkeep)

variable {ρ : Type} {r : Reconciler ρ Simulator} {stopsRunning : Bool} {report : Report} {steps : Steps}
  {left : Requirements} {state : Simulator} {verdict : Verdict}

/-- What it comes to that a simulator carries out steps. -/
structure Simulates (r : Reconciler ρ Simulator) (report : Report) (steps : Steps) (left : Requirements)
    (state : Simulator) (verdict : Verdict) : Prop where
  left_eq : left = r.handle.requirements.beginPass.performAll (r.host.orders r.handle.requirements.running steps)
  state_eq : state =
    { r.host with
      deeds :=
        r.host.deeds ++ deedsOf (report.passes + 1) steps.exclude.toList steps.stop.toList
          (r.host.launched steps.start.toList) }
  verdict_eq : verdict = r.host.verdictOn steps.start.toList

theorem CarriesOut.simulates (h : r.CarriesOut Simulator.host stopsRunning report steps left state verdict) :
    r.Simulates report steps left state verdict := by
  have hran := h.ran
  rw [Simulator.host_runOn] at hran
  cases hran
  exact ⟨rfl, rfl, rfl⟩

theorem CarriesOut.fits (h : r.CarriesOut Simulator.host stopsRunning report steps left state verdict)
    (hreached : r.handle.requirements.ReachedOver Catalog.Keyed) :
    steps.Fits r.handle.requirements.running := Snapshot.fits_of_ready hreached.runsKnown.catalog h.planned

/-- All that is to be started is known. -/
theorem CarriesOut.known (h : r.CarriesOut Simulator.host stopsRunning report steps left state verdict)
    (hreached : r.handle.requirements.ReachedOver Catalog.Keyed) :
    ∀ id ∈ steps.start, r.handle.requirements.catalog.components.contains id = true := fun id hid =>
  (hreached.runsKnown.catalog.recognizes r.handle.requirements.snapshot _ _ _ rfl h.planned id hid).symm

namespace Simulates

/-- What operations on layers keep holds of the requirements that are left. -/
theorem preserves {P : Operation → Prop} {I : Requirements → Prop} (h : r.Simulates report steps left state verdict)
    (hlayers : Simulator.LayersAllowed P) (step : ∀ operation q, P operation → I q → I (q.perform operation).1)
    (hbegun : I r.handle.requirements.beginPass) : I left := by
  rw [h.left_eq]
  exact Requirements.performAll_preserves step (hlayers.orders _ _ _) hbegun

theorem sameFooting (h : r.Simulates report steps left state verdict) : r.handle.requirements.SameFooting left :=
  h.preserves (P := Operation.LeavesRunning) ⟨fun _ => trivial, fun _ => trivial⟩
    (fun _ _ hleaves hq => hq.trans (Requirements.sameFooting_perform hleaves)) Requirements.sameFooting_beginPass

theorem reached (h : r.Simulates report steps left state verdict)
    (hreached : r.handle.requirements.ReachedOver Catalog.Keyed) : left.ReachedOver Catalog.Keyed :=
  h.preserves (P := Operation.Installs Catalog.Keyed) ⟨fun _ => trivial, fun _ => trivial⟩
    (fun _ _ hinstalls hq => hq.perform hinstalls) hreached.beginPass

theorem sameGround (h : r.Simulates report steps left state verdict) : r.handle.requirements.SameGround left :=
  h.preserves (P := Operation.StacksLayers) ⟨fun _ => trivial, fun _ => trivial⟩
    (fun _ _ hstacks hq => hq.trans (Requirements.sameGround_stack hstacks)) Requirements.sameGround_beginPass

theorem not_abandoned (h : r.Simulates report steps left state .abandoned) : False := by
  have hverdict := h.verdict_eq
  rw [Simulator.verdictOn] at hverdict
  split at hverdict
  · cases hverdict
  · cases hverdict

theorem triggers_eq (h : r.Simulates report steps left state verdict) : state.triggers = r.host.triggers := by
  rw [h.state_eq]

theorem deeds_of_done (h : r.Simulates report steps left state .done) :
    state.deeds = r.host.deeds ++
      deedsOf (report.passes + 1) steps.exclude.toList steps.stop.toList steps.start.toList := by
  rw [h.state_eq, Simulator.launched_of_done h.verdict_eq.symm]

/-- Once the pass is taken over, what runs is what its deeds lead to. -/
theorem running_taken (h : r.Simulates report steps left state .done) (hfits : steps.Fits r.handle.requirements.running)
    (hknown : ∀ id ∈ steps.start, r.handle.requirements.catalog.components.contains id = true) (snapshot : Snapshot) :
    (left.commit snapshot steps).running =
      redo r.handle.requirements.running
        (deedsOf (report.passes + 1) steps.exclude.toList steps.stop.toList steps.start.toList) := by
  have hfooting := h.sameFooting
  rw [Requirements.running_commit_eq_redo snapshot (report.passes + 1) (hfooting.running ▸ hfits)
    (fun id hid => hfooting.catalog ▸ hknown id hid), hfooting.running]

/-- Once the pass is taken over, each layer lost the occurrences that were kept for those who went, and no more than
that, and gained those for the ones who came. -/
theorem exchange (h : r.Simulates report steps left state .done) (hfits : steps.Fits r.handle.requirements.running)
    (hknown : ∀ id ∈ steps.start, r.handle.requirements.catalog.components.contains id = true) (snapshot : Snapshot)
    (l : Layer) :
    ∃ kept lost gained, upkeep r.host.triggers r.handle.requirements.running.contains l = kept + lost ∧
      upkeep r.host.triggers (left.commit snapshot steps).running.contains l = kept + gained ∧
      (left.commit snapshot steps).occurrences l = r.handle.requirements.occurrences l - lost + gained := by
  obtain ⟨kept, lost, gained, hbefore, hafter, hoccurs⟩ :=
    Simulator.exists_exchange (s := r.host) hfits h.verdict_eq.symm l
  have hruns : (left.commit snapshot steps).running.contains =
      fun id => steps.runsAfter id (r.handle.requirements.running.contains id) := by
    funext id
    rw [Requirements.contains_running_commit fun hid => h.sameFooting.catalog ▸ hknown id hid, h.sameFooting.running]
  refine ⟨kept, lost, gained, hbefore, hruns ▸ hafter, ?_⟩
  rw [Requirements.occurrences_congr (Requirements.layers_commit snapshot steps), h.left_eq, hoccurs]
  rfl

end Simulates

/-- A simulator never gives up, so that an apply is finished once no more passes are due. -/
theorem Runs.finished {r' : Reconciler ρ Simulator} {courses : List Course} {outcome : Outcome}
    (h : Runs Simulator.host stopsRunning r report courses r' outcome) (hends : outcome ≠ .unfinished) :
    ∃ result, outcome = .finished result := by
  induction h with
  | unfinished => exact (hends rfl).elim
  | @ended _ _ _ _ result passes => exact ⟨result, rfl⟩
  | abandoned passes =>
      cases passes with
      | abandoned carriesOut => exact carriesOut.simulates.not_abandoned.elim
  | again passes rest ih => exact ih hends

end Reconciler

end Orchestrator
