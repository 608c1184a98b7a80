import Orchestrator.Proofs.Reconcile.Upkeep
import Orchestrator.Proofs.Simulator.Rollback
/-!
The balance of layers. What a simulator adds and takes away is settled layer by layer: each is to occur as often as it
did in the beginning and once more for every trigger of a component that runs. There are two ways to fall behind that.
What runs in the beginning was never started, so that nothing was added for it, but layers are taken away for it once it
goes. And a pass that fails takes layers away for components that go on running. Nothing else is ever missing, and there
is never more than that.
-/

namespace Orchestrator

/-- The pass failed, but not before the layers of the component were taken away, which goes on running. -/
def Course.forfeits : Course → String → Bool
  | .executed snapshot steps _ (.failed _), id =>
    (steps.exclude.contains id && snapshot.running.contains id) || steps.stop.contains id
  | _, _ => false

namespace Reconciler

open Simulator (upkeep)

/-- What was taken away in passes that failed. -/
def forfeited (triggers : List Trigger) (courses : List Course) (l : Layer) : Nat :=
  (courses.map (fun c => upkeep triggers c.forfeits l)).sum

theorem forfeited_eq_zero {triggers : List Trigger} {courses : List Course} {l : Layer}
    (h : ∀ t ∈ triggers, t.layer = l → ∀ c ∈ courses, c.forfeits t.component = false) :
    forfeited triggers courses l = 0 := by
  refine List.sum_eq_zero fun n hn => ?_
  obtain ⟨c, hc, rfl⟩ := List.mem_map.mp hn
  exact Simulator.upkeep_eq_zero.mpr fun t ht hl => h t ht hl c hc

variable {ρ : Type} {r r' : Reconciler ρ Simulator} {stopsRunning : Bool} {report : Report} {triggers : List Trigger}
  {base debt debt' : Layer → Nat}

/-- Each layer occurs at most as often as it did in the beginning and for what runs, and what is missing is not more
than a certain debt. -/
structure Owing (triggers : List Trigger) (base debt : Layer → Nat) (r : Reconciler ρ Simulator) : Prop where
  reached : r.handle.requirements.ReachedOver Catalog.Keyed
  quiet : r.handle.Quiet
  owned : r.host.triggers = triggers
  lower : ∀ l, base l + upkeep triggers r.handle.requirements.running.contains l ≤
    r.handle.requirements.occurrences l + debt l
  upper : ∀ l, r.handle.requirements.occurrences l ≤
    base l + upkeep triggers r.handle.requirements.running.contains l

theorem Owing.mono (h : r.Owing triggers base debt) (hdebt : ∀ l, debt l ≤ debt' l) : r.Owing triggers base debt' :=
  ⟨h.reached, h.quiet, h.owned, fun l => (h.lower l).trans (Nat.add_le_add_left (hdebt l) _), h.upper⟩

/-- While what runs stays the same, what is lost adds to the debt. -/
theorem Owing.of_becomes (h : r.Owing triggers base debt) {q : Requirements} {state : Simulator} (lost : Layer → Nat)
    (hbecomes : r.Becomes r' q state) (howned : state.triggers = r.host.triggers) (hreached : q.ReachedOver Catalog.Keyed)
    (hrunning : q.running = r.handle.requirements.running)
    (hlost : ∀ l, q.occurrences l = r.handle.requirements.occurrences l - lost l) :
    r'.Owing triggers base (fun l => debt l + lost l) := by
  have hq := hbecomes.holds.requirements
  refine ⟨by rwa [hq], hbecomes.holds.quiet, by rw [hbecomes.host, howned, h.owned], fun l => ?_, fun l => ?_⟩
  · have hlower := h.lower l
    have hl := hlost l
    rw [hq, hrunning]
    omega
  · have hupper := h.upper l
    have hl := hlost l
    rw [hq, hrunning]
    omega

/-- As long as layers and what runs stay the same, so does the debt. -/
theorem Owing.of_same (h : r.Owing triggers base debt) {q : Requirements} (hbecomes : r.Becomes r' q r.host)
    (hreached : q.ReachedOver Catalog.Keyed) (hrunning : q.running = r.handle.requirements.running)
    (hlayers : q.layers = r.handle.requirements.layers) : r'.Owing triggers base debt :=
  h.of_becomes (fun _ => 0) hbecomes rfl hreached hrunning fun _ => Requirements.occurrences_congr hlayers

/-- A pass that is taken over settles what it changes. -/
theorem Owing.taken (h : r.Owing triggers base debt) {steps : Steps} {left : Requirements} {state : Simulator}
    (hcarried : r.CarriesOut Simulator.host stopsRunning report steps left state .done)
    (hbecomes : r.Becomes r' (left.commit r.handle.requirements.snapshot steps).endPass.1 state) :
    r'.Owing triggers base debt := by
  have hsimulates := hcarried.simulates
  have hfits := hcarried.fits h.reached
  have hknown := hcarried.known h.reached
  have hq := hbecomes.holds.requirements
  have hbalance : ∀ l, base l + upkeep triggers (left.commit r.handle.requirements.snapshot steps).running.contains l ≤
        (left.commit r.handle.requirements.snapshot steps).occurrences l + debt l ∧
      (left.commit r.handle.requirements.snapshot steps).occurrences l ≤
        base l + upkeep triggers (left.commit r.handle.requirements.snapshot steps).running.contains l := by
    intro l
    obtain ⟨kept, lost, gained, hbefore, hafter, hoccurs⟩ :=
      hsimulates.exchange hfits hknown r.handle.requirements.snapshot l
    have hlower := h.lower l
    have hupper := h.upper l
    rw [h.owned] at hbefore hafter
    omega
  refine ⟨?_, hbecomes.holds.quiet, ?_, fun l => ?_, fun l => ?_⟩
  · rw [hq]
    exact ((hsimulates.reached h.reached).commit _ _).endPass
  · rw [hbecomes.host, hsimulates.triggers_eq, h.owned]
  · rw [hq]
    exact (hbalance l).1
  · rw [hq]
    exact (hbalance l).2

/-- What a failed pass leaves missing. -/
theorem Owing.failed (h : r.Owing triggers base debt) {steps : Steps} {left : Requirements} {state : Simulator}
    {f : Failure} (hcarried : r.CarriesOut Simulator.host stopsRunning report steps left state (.failed f))
    (hbecomes : r.Becomes r' (left.endPass.1.recordFailure f.culprit f.message) state) :
    r'.Owing triggers base (fun l => debt l +
      upkeep triggers (Course.executed r.handle.requirements.snapshot steps left (.failed f)).forfeits l) := by
  have hsimulates := hcarried.simulates
  have hleaves : (Operation.recordFailure f.culprit f.message).LeavesLayers ∧
      (Operation.recordFailure f.culprit f.message).LeavesRunning := ⟨trivial, trivial⟩
  have hlayers : (left.endPass.1.recordFailure f.culprit f.message).layers = left.endPass.1.layers :=
    Requirements.layers_perform hleaves.1
  have hrunning : (left.endPass.1.recordFailure f.culprit f.message).running = left.endPass.1.running :=
    Requirements.running_perform hleaves.2
  refine h.of_becomes _ hbecomes hsimulates.triggers_eq
    ((hsimulates.reached h.reached).endPass.recordFailure f.culprit f.message)
    (hrunning.trans hsimulates.sameFooting.running) fun l => ?_
  have hstop := (hcarried.fits h.reached).of_stop
  have hunion : upkeep triggers (Course.executed r.handle.requirements.snapshot steps left (.failed f)).forfeits l =
      upkeep triggers (fun id => steps.exclude.contains id && r.handle.requirements.running.contains id) l +
        upkeep triggers steps.stop.contains l :=
    Simulator.upkeep_union (fun _ => rfl) (by grind)
  rw [Requirements.occurrences_congr hlayers, hunion, ← Nat.sub_sub, ← h.owned]
  change left.occurrences l = _
  rw [hsimulates.left_eq, Simulator.occurrences_orders_of_failed hsimulates.verdict_eq.symm]
  rfl

/-! ## Passes and applies -/

theorem Passes.owing {c : Course} {progress : Progress}
    (hpasses : r.Passes Simulator.host stopsRunning report r' c progress) (h : r.Owing triggers base debt) :
    r'.Owing triggers base (fun l => debt l + upkeep triggers c.forfeits l) := by
  have hmore : ∀ l, debt l ≤ debt l + upkeep triggers c.forfeits l := fun l => Nat.le_add_right _ _
  cases hpasses with
  | refused unplanned becomes => exact (h.of_same becomes h.reached.beginPass.endPass rfl rfl).mono hmore
  | abandoned carriesOut becomes => exact carriesOut.simulates.not_abandoned.elim
  | failed carriesOut becomes => exact h.failed carriesOut becomes
  | repeated carriesOut changed becomes => exact (h.taken carriesOut becomes).mono hmore
  | settled carriesOut unchanged becomes => exact (h.taken carriesOut becomes).mono hmore

theorem Runs.owing {courses : List Course} {outcome : Outcome} (h : r.Owing triggers base debt)
    (hruns : Runs Simulator.host stopsRunning r report courses r' outcome) :
    r'.Owing triggers base (fun l => debt l + forfeited triggers courses l) := by
  induction hruns generalizing debt with
  | unfinished => exact h
  | ended passes => exact (passes.owing h).mono fun l => by rw [forfeited, List.map_singleton, List.sum_singleton]
  | abandoned passes => exact (passes.owing h).mono fun l => by rw [forfeited, List.map_singleton, List.sum_singleton]
  | again passes rest ih =>
      refine (ih (passes.owing h)).mono fun l => ?_
      rw [forfeited, forfeited, List.map_cons, List.sum_cons, Nat.add_assoc]

theorem Applies.owing {courses : List Course} {outcome : Outcome} (h : r.Owing triggers base debt)
    (happlies : r.Applies Simulator.host stopsRunning r' courses outcome) :
    r'.Owing triggers base (fun l => debt l + forfeited triggers courses l) := by
  cases happlies with
  | busy inFlight same => exact same ▸ h
  | clean clean same => exact same ▸ h
  | @runs courses outcome q dirty runs becomes =>
      have hq : q.Owing triggers base (fun l => debt l + forfeited triggers courses l) :=
        Runs.owing (r := { r with inFlight := true }) ⟨h.reached, h.quiet, h.owned, h.lower, h.upper⟩ runs
      exact hq.of_same becomes hq.reached rfl rfl

/-- What comes about by applies, whether they succeed or not, and by operations in between that are neither about layers
nor about what runs or exists; with the passes that were made. The host may forget what it did. -/
inductive Fares (r : Reconciler ρ Simulator) : List Course → Reconciler ρ Simulator → Prop
  | start : Fares r [] r
  | asked {courses : List Course} {q : Reconciler ρ Simulator} (fares : Fares r courses q) (operation : Operation)
      (leaves : operation.LeavesLayers ∧ operation.LeavesRunning) : Fares r courses (q.act (.asked operation))
  | contentChanges {courses : List Course} {q : Reconciler ρ Simulator} (fares : Fares r courses q)
      (resolver : Resolver) : Fares r courses (q.act (.contentChanges resolver))
  | forgets {courses : List Course} {q : Reconciler ρ Simulator} (fares : Fares r courses q) :
      Fares r courses { q with host := { q.host with deeds := [] } }
  | applies {courses : List Course} {q : Reconciler ρ Simulator} (fares : Fares r courses q) (fuel : Nat)
      (stopsRunning : Bool) : Fares r (courses ++ q.courses Simulator.host fuel stopsRunning)
        (q.act (.applies Simulator.host fuel stopsRunning))

theorem Fares.owing {courses : List Course} (h : r.Owing triggers base debt) (hfares : r.Fares courses r') :
    r'.Owing triggers base (fun l => debt l + forfeited triggers courses l) := by
  induction hfares with
  | start => exact h
  | @asked courses q fares operation leaves ih =>
      have hbecomes : q.Becomes (q.act (.asked operation)) (q.handle.requirements.perform operation).1 q.host :=
        ⟨(ih.quiet.holds.perform operation).1, rfl, rfl⟩
      exact ih.of_same hbecomes (ih.reached.perform (leaves.2.installs _)) (Requirements.running_perform leaves.2)
        (Requirements.layers_perform leaves.1)
  | contentChanges fares resolver ih =>
      exact ⟨ih.reached.after (e := .contentChanges resolver) trivial, ih.quiet, ih.owned, ih.lower, ih.upper⟩
  | forgets fares ih => exact ⟨ih.reached, ih.quiet, ih.owned, ih.lower, ih.upper⟩
  | applies fares fuel stopsRunning ih =>
      refine ((apply_applies fuel ih.quiet).owing ih).mono fun l => ?_
      rw [forfeited, forfeited, forfeited, List.map_append, List.sum_append, Nat.add_assoc]

/-- A scenario sets out with what is listed, and owes what belongs to those that run. -/
theorem owing_of_setsOut {s : Scenario} (hr : s.SetsOut r) (hvalid : s.validate = .ok ()) :
    r.Owing s.triggers s.layers.count (upkeep s.triggers (IdSet.ofList s.running).contains) where
  reached := hr.reached
  quiet := hr.quiet
  owned := hr.triggers
  lower := fun l => by rw [hr.occurrences, hr.running hvalid]
  upper := fun l => by
    rw [hr.occurrences]
    exact Nat.le_add_right _ _

end Reconciler

end Orchestrator
