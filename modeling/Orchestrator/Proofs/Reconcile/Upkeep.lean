import Orchestrator.Proofs.Reconcile.Quarantine
import Orchestrator.Proofs.Reconcile.Simulation
import Orchestrator.Proofs.Scenario
/-!
A simulator keeps layers and running components in step. As long as every start succeeds, what runs is what its deeds
lead to, and each layer occurs as often as it did in the beginning and once more for every trigger of a component that
runs, however many passes and applies that took and whatever else was changed in between.
-/

namespace Orchestrator

/-- Somebody was to be started and refused. -/
def Outcome.isFailure : Outcome → Bool
  | .finished (.error (.executionFailed _ _)) => true
  | _ => false

namespace Reconciler

open Simulator (redo upkeep)

variable {ρ : Type} {r r' : Reconciler ρ Simulator} {stopsRunning : Bool} {report : Report}
  {triggers : List Trigger} {base : Layer → Nat} {outset : IdSet}

/-- What runs is what the deeds lead to, and the layers are those of the beginning and of what runs. -/
structure InStep (triggers : List Trigger) (base : Layer → Nat) (outset : IdSet) (r : Reconciler ρ Simulator) :
    Prop where
  reached : r.handle.requirements.ReachedOver Catalog.Keyed
  quiet : r.handle.Quiet
  owned : r.host.triggers = triggers
  running : r.handle.requirements.running = redo outset r.host.deeds
  layers : ∀ l, r.handle.requirements.occurrences l =
    base l + upkeep triggers r.handle.requirements.running.contains l

theorem InStep.of_becomes (h : r.InStep triggers base outset) {q : Requirements} (hbecomes : r.Becomes r' q r.host)
    (hreached : q.ReachedOver Catalog.Keyed) (hrunning : q.running = r.handle.requirements.running)
    (hlayers : q.layers = r.handle.requirements.layers) : r'.InStep triggers base outset := by
  have hq := hbecomes.holds.requirements
  constructor
  · rw [hq]
    exact hreached
  · exact hbecomes.holds.quiet
  · rw [hbecomes.host]
    exact h.owned
  · rw [hq, hbecomes.host, hrunning]
    exact h.running
  · intro l
    rw [hq, hrunning, Requirements.occurrences_congr hlayers]
    exact h.layers l

theorem InStep.taken (h : r.InStep triggers base outset) {steps : Steps} {left : Requirements} {state : Simulator}
    (hcarried : r.CarriesOut Simulator.host stopsRunning report steps left state .done)
    (hbecomes : r.Becomes r' (left.commit r.handle.requirements.snapshot steps).endPass.1 state) :
    r'.InStep triggers base outset := by
  have hsimulates := hcarried.simulates
  have hfits := hcarried.fits h.reached
  have hknown := hcarried.known h.reached
  have hq := hbecomes.holds.requirements
  constructor
  · rw [hq]
    exact ((hsimulates.reached h.reached).commit _ _).endPass
  · exact hbecomes.holds.quiet
  · rw [hbecomes.host, hsimulates.triggers_eq, h.owned]
  · rw [hq, hbecomes.host, hsimulates.deeds_of_done, Simulator.redo_append, ← h.running]
    exact hsimulates.running_taken hfits hknown _
  · intro l
    obtain ⟨kept, lost, gained, hbefore, hafter, hoccurs⟩ :=
      hsimulates.exchange hfits hknown r.handle.requirements.snapshot l
    have hlayers := h.layers l
    rw [h.owned] at hbefore hafter
    rw [hq]
    change (left.commit _ steps).occurrences l = base l + upkeep triggers (left.commit _ steps).running.contains l
    omega

/-- A pass that does not end with a failure keeps both in step. -/
theorem Passes.inStep {c : Course} {progress : Progress}
    (hpasses : r.Passes Simulator.host stopsRunning report r' c progress) (h : r.InStep triggers base outset)
    (hsucceeds : ∀ result, progress = .ended result → (Outcome.finished result).isFailure = false) :
    r'.InStep triggers base outset := by
  cases hpasses with
  | refused unplanned becomes => exact h.of_becomes becomes h.reached.beginPass.endPass rfl rfl
  | abandoned carriesOut becomes => exact carriesOut.simulates.not_abandoned.elim
  | failed carriesOut becomes => cases hsucceeds _ rfl
  | repeated carriesOut changed becomes => exact h.taken carriesOut becomes
  | settled carriesOut unchanged becomes => exact h.taken carriesOut becomes

theorem Runs.inStep {courses : List Course} {outcome : Outcome} (h : r.InStep triggers base outset)
    (hsucceeds : outcome.isFailure = false)
    (hruns : Runs Simulator.host stopsRunning r report courses r' outcome) : r'.InStep triggers base outset := by
  induction hruns with
  | unfinished => exact h
  | ended passes =>
      refine passes.inStep h ?_
      intro result hended
      cases hended
      exact hsucceeds
  | abandoned passes => exact passes.inStep h nofun
  | again passes rest ih => exact ih (passes.inStep h nofun) hsucceeds

theorem Applies.inStep {courses : List Course} {outcome : Outcome} (h : r.InStep triggers base outset)
    (hsucceeds : outcome.isFailure = false)
    (happlies : r.Applies Simulator.host stopsRunning r' courses outcome) : r'.InStep triggers base outset := by
  cases happlies with
  | busy inFlight same => exact same ▸ h
  | clean clean same => exact same ▸ h
  | @runs courses outcome q dirty runs becomes =>
      have hq : q.InStep triggers base outset :=
        Runs.inStep (r := { r with inFlight := true }) ⟨h.reached, h.quiet, h.owned, h.running, h.layers⟩ hsucceeds runs
      exact hq.of_becomes becomes hq.reached rfl rfl

/-- What comes about by applies in which every start succeeds, and by operations in between that are neither about
layers nor about what runs or exists. -/
inductive Attends (r : Reconciler ρ Simulator) : Reconciler ρ Simulator → Prop
  | start : Attends r r
  | asked {q : Reconciler ρ Simulator} (attends : Attends r q) (operation : Operation)
      (leaves : operation.LeavesLayers ∧ operation.LeavesRunning) : Attends r (q.act (.asked operation))
  | contentChanges {q : Reconciler ρ Simulator} (attends : Attends r q) (resolver : Resolver) :
      Attends r (q.act (.contentChanges resolver))
  | applies {q : Reconciler ρ Simulator} (attends : Attends r q) (fuel : Nat) (stopsRunning : Bool)
      (succeeds : (q.apply Simulator.host fuel stopsRunning).2.isFailure = false) :
      Attends r (q.act (.applies Simulator.host fuel stopsRunning))

theorem InStep.asked (h : r.InStep triggers base outset) {operation : Operation} (hlayers : operation.LeavesLayers)
    (hrunning : operation.LeavesRunning) : (r.act (.asked operation)).InStep triggers base outset := by
  have hholds := (h.quiet.holds.perform operation).1
  have hbecomes : r.Becomes (r.act (.asked operation)) (r.handle.requirements.perform operation).1 r.host :=
    ⟨hholds, rfl, rfl⟩
  exact h.of_becomes hbecomes (h.reached.perform (hrunning.installs _)) (Requirements.running_perform hrunning)
    (Requirements.layers_perform hlayers)

theorem Attends.inStep (h : r.InStep triggers base outset) (hattends : r.Attends r') :
    r'.InStep triggers base outset := by
  induction hattends with
  | start => exact h
  | asked attends operation leaves ih => exact ih.asked leaves.1 leaves.2
  | contentChanges attends resolver ih =>
      exact ⟨ih.reached.after (e := .contentChanges resolver) trivial, ih.quiet, ih.owned, ih.running, ih.layers⟩
  | applies attends fuel stopsRunning succeeds ih => exact (apply_applies fuel ih.quiet).inStep ih succeeds

/-- Where nothing that runs in the beginning has a trigger, the layers start out in step with what runs. -/
theorem inStep_of_setsOut {s : Scenario} (hr : s.SetsOut r) (hvalid : s.validate = .ok ())
    (hidle : ∀ t ∈ s.triggers, ¬ t.component ∈ s.running) :
    r.InStep s.triggers s.layers.count (IdSet.ofList s.running) := by
  obtain ⟨refusing, hhost⟩ := hr.host
  refine ⟨hr.reached, hr.quiet, hr.triggers, ?_, ?_⟩
  · rw [hr.running hvalid, hhost]
    rfl
  · intro l
    have hnone : upkeep s.triggers r.handle.requirements.running.contains l = 0 := by
      refine List.countP_eq_zero.mpr ?_
      intro t ht hkept
      have hruns := IdSet.contains_iff.mp (Bool.and_eq_true_iff.mp hkept).2
      rw [hr.running hvalid, IdSet.mem_ofList] at hruns
      exact hidle t ht hruns
    rw [hr.occurrences, hnone, Nat.add_zero]

/-- A scenario is accepted, and nothing that runs in the beginning has a trigger. After any sequence of applies in which
every start succeeds, with anything in between that is neither about layers nor about what runs or exists, what runs is
what all deeds of the host lead to from what ran in the beginning. Each layer occurs as often as the scenario lists it,
and once more for every trigger with this layer whose component runs. -/
theorem layers_inStep (s : Scenario) (r r' : Reconciler ρ Simulator) (hvalid : s.validate = .ok ())
    (hidle : ∀ t ∈ s.triggers, ¬ t.component ∈ s.running) (hr : s.SetsOut r) (hattends : r.Attends r') :
    r'.handle.requirements.running = redo (IdSet.ofList s.running) r'.host.deeds ∧
      ∀ l, r'.handle.requirements.occurrences l =
        s.layers.count l +
          s.triggers.countP (fun t => t.layer == l && r'.handle.requirements.running.contains t.component) := by
  have hinStep := hattends.inStep (inStep_of_setsOut hr hvalid hidle)
  exact ⟨hinStep.running, hinStep.layers⟩

open Scenario in
/-- Lamp and radio are lit, and the dusk occurs twice. Then all is switched off, and it occurs once. -/
theorem layers_inStep_evening :
    let lit := (eveningOutset []).act (.applies Simulator.host 5 false)
    let dark := (lit.act (.asked (.setDisabled true))).act (.applies Simulator.host 5 false)
    evening.validate = .ok () ∧ (∀ t ∈ evening.triggers, ¬ t.component ∈ evening.running) ∧
      evening.SetsOut (eveningOutset []) ∧ (eveningOutset []).Attends lit ∧ (eveningOutset []).Attends dark ∧
      lit.handle.requirements.running = IdSet.ofList ["lamp", "radio"] ∧
      lit.handle.requirements.occurrences duskLayer = 2 ∧
      dark.handle.requirements.running = .empty ∧ dark.handle.requirements.occurrences duskLayer = 1 := by
  intro lit dark
  have hidle : ∀ t ∈ evening.triggers, ¬ t.component ∈ evening.running := fun _ _ => List.not_mem_nil
  have hlit : (eveningOutset []).Attends lit := .applies .start 5 false (by decide +kernel)
  have hdark : (eveningOutset []).Attends dark :=
    .applies (.asked hlit (.setDisabled true) ⟨trivial, trivial⟩) 5 false (by decide +kernel)
  obtain ⟨hrunning, hlayers⟩ := layers_inStep evening _ lit evening_valid hidle (evening_setsOut []) hlit
  obtain ⟨hdarkness, hunlayered⟩ := layers_inStep evening _ dark evening_valid hidle (evening_setsOut []) hdark
  refine ⟨evening_valid, hidle, evening_setsOut [], hlit, hdark, ?_, ?_, ?_, ?_⟩
  · rw [hrunning]
    decide +kernel
  · rw [hlayers, hrunning]
    decide +kernel
  · rw [hdarkness]
    decide +kernel
  · rw [hunlayered, hdarkness]
    decide +kernel

end Reconciler

end Orchestrator
