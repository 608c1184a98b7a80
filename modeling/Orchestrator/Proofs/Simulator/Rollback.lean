import Orchestrator.Proofs.Requirements.Lockstep
import Orchestrator.Proofs.Scenario
import Orchestrator.Proofs.Simulator.Upkeep
/-!
What a simulator leaves behind that failed to start somebody. The layers of those that it had started by then are gone
again. The layers of those that it had excluded or stopped before are gone as well, and nobody brings them back,
although the pass is not taken over and these components count as running.
-/

namespace Orchestrator

/-- The steps take a component away that runs. -/
def Steps.TakesAway (p : Steps) (running : IdSet) (id : String) : Prop :=
  (id ∈ p.exclude ∧ id ∈ running) ∨ id ∈ p.stop

namespace Simulator

variable {s : Simulator} {ids : List String} {f : Failure} {running : IdSet} {steps : Steps} {r : Requirements}
  {l : Layer}

theorem startOrders_of_failed (h : s.verdictOn ids = .failed f) :
    s.startOrders [] ids = (s.launched ids).flatMap s.setUp ++ (s.launched ids).flatMap s.tearDown := by
  have hrefused : (s.refused? ids).isSome = true := by
    rw [verdictOn] at h
    split at h
    next => cases h
    next hrefused => rw [hrefused, Option.isSome_some]
  rw [startOrders, if_pos hrefused, List.nil_append]

/-- What was started before somebody refused leaves no layer behind. -/
theorem occurrences_startOrders_of_failed (h : s.verdictOn ids = .failed f) (hids : ids.Nodup) (r : Requirements)
    (l : Layer) : (r.performAll (s.startOrders [] ids)).occurrences l = r.occurrences l := by
  have hlaunched : (s.launched ids).Nodup := hids.sublist (List.takeWhile_sublist _)
  rw [startOrders_of_failed h, Requirements.performAll_append, occurrences_tearDownAll s hlaunched,
    occurrences_setUpAll s hlaunched, Nat.add_sub_cancel]

/-- The orders of a pass in which somebody refuses to start take away what was kept for those who go. -/
theorem occurrences_orders_of_failed (h : s.verdictOn steps.start.toList = .failed f) (r : Requirements) (l : Layer) :
    (r.performAll (s.orders running steps)).occurrences l =
      r.occurrences l - upkeep s.triggers (fun id => steps.exclude.contains id && running.contains id) l -
        upkeep s.triggers steps.stop.contains l := by
  have hexcluded : (steps.exclude.toList.filter running.contains).contains =
      fun id => steps.exclude.contains id && running.contains id := by
    funext id
    refine Bool.eq_iff_iff.mpr ?_
    rw [List.contains_iff_mem, List.mem_filter, Bool.and_eq_true, IdSet.contains_iff (s := steps.exclude)]
    exact Iff.rfl
  rw [orders, Requirements.performAll_append, occurrences_startOrders_of_failed h steps.start.nodup,
    Requirements.performAll_append, occurrences_tearDownAll s steps.stop.nodup,
    occurrences_tearDownAll s (steps.exclude.nodup.filter _), hexcluded]
  rfl

theorem upkeep_eq_zero {triggers : List Trigger} {runs : String → Bool} :
    upkeep triggers runs l = 0 ↔ ∀ t ∈ triggers, t.layer = l → runs t.component = false := by
  rw [upkeep, List.countP_eq_zero]
  simp

/-- Nothing is taken away from any layer just if no trigger of an active layer belongs to somebody who goes. -/
theorem occurrences_kept_iff (hstacked : r.Stacked) (triggers : List Trigger) (steps : Steps) (running : IdSet) :
    (∀ l, r.occurrences l - upkeep triggers (fun id => steps.exclude.contains id && running.contains id) l -
        upkeep triggers steps.stop.contains l = r.occurrences l) ↔
      ∀ t ∈ triggers, r.hasLayer t.layer = true → ¬ steps.TakesAway running t.component := by
  constructor
  · intro hkept t ht hactive htaken
    have hpositive : 0 < r.occurrences t.layer := hstacked.hasLayer_iff.mp hactive
    have hlayer := hkept t.layer
    have hexcluded : upkeep triggers (fun id => steps.exclude.contains id && running.contains id) t.layer = 0 := by
      omega
    have hstopped : upkeep triggers steps.stop.contains t.layer = 0 := by omega
    rcases htaken with ⟨hexclude, hruns⟩ | hstop
    · have hno := upkeep_eq_zero.mp hexcluded t ht rfl
      rw [IdSet.contains_iff.mpr hexclude, IdSet.contains_iff.mpr hruns] at hno
      cases hno
    · have hno := upkeep_eq_zero.mp hstopped t ht rfl
      rw [IdSet.contains_iff.mpr hstop] at hno
      cases hno
  · intro hnobody l
    by_cases hactive : r.hasLayer l = true
    · have hexcluded : upkeep triggers (fun id => steps.exclude.contains id && running.contains id) l = 0 := by
        refine upkeep_eq_zero.mpr ?_
        rintro t ht rfl
        refine eq_false_of_ne_true fun htaken => hnobody t ht hactive (.inl ?_)
        simpa only [Bool.and_eq_true, IdSet.contains_iff] using htaken
      have hstopped : upkeep triggers steps.stop.contains l = 0 := by
        refine upkeep_eq_zero.mpr ?_
        rintro t ht rfl
        exact eq_false_of_ne_true fun htaken => hnobody t ht hactive (.inr (IdSet.contains_iff.mp htaken))
      omega
    · have hnone : r.occurrences l = 0 := Requirements.occurrences_of_inactive (eq_false_of_ne_true hactive)
      omega

/-- Somebody refuses to start while a simulator deals with steps and observers only listen. What runs stays the same.
Each layer lost the occurrences that were kept for those who are excluded and run and for those who are stopped, as far
as it had them; what was started in the meantime left nothing behind. So the layers are as before just if no trigger of
an active layer belongs to somebody who goes, and then every final severity is as before. -/
theorem failure_undoes_starts {ρ : Type} (s state : Simulator) (pass : Nat) (steps : Steps) (h left : Handle ρ)
    (f : Failure) (hreached : h.requirements.ReachedOver fun _ => True) (hquiet : h.Quiet)
    (hfailed : h.run (host pass steps s) = (left, state, .failed f)) :
    left.requirements.running = h.requirements.running ∧
      (∀ l, left.requirements.occurrences l = h.requirements.occurrences l -
        upkeep s.triggers (fun id => steps.exclude.contains id && h.requirements.running.contains id) l -
          upkeep s.triggers steps.stop.contains l) ∧
      ((∀ l, left.requirements.occurrences l = h.requirements.occurrences l) ↔
        ∀ t ∈ s.triggers, h.requirements.hasLayer t.layer = true →
          ¬ steps.TakesAway h.requirements.running t.component) ∧
      ((∀ l, left.requirements.occurrences l = h.requirements.occurrences l) →
        ∀ subject, left.requirements.final? subject = h.requirements.final? subject) := by
  obtain ⟨hholds, hresult⟩ := hquiet.holds.run (host pass steps s)
  rw [hfailed, host_runOn] at hholds hresult
  have hleft : left.requirements = h.requirements.performAll (s.orders h.requirements.running steps) :=
    hholds.requirements
  have hverdict : s.verdictOn steps.start.toList = .failed f := (Prod.ext_iff.mp hresult).2.symm
  have hleaves : ∀ operation ∈ s.orders h.requirements.running steps, operation.LeavesRunning :=
    LayersAllowed.orders ⟨fun _ => trivial, fun _ => trivial⟩ _ _ _
  have hrunning : left.requirements.running = h.requirements.running := by
    rw [hleft]
    exact Requirements.running_performAll hleaves
  have hoccurs : ∀ l, left.requirements.occurrences l = h.requirements.occurrences l -
      upkeep s.triggers (fun id => steps.exclude.contains id && h.requirements.running.contains id) l -
        upkeep s.triggers steps.stop.contains l := by
    intro l
    rw [hleft]
    exact occurrences_orders_of_failed hverdict h.requirements l
  refine ⟨hrunning, hoccurs, ?_, ?_⟩
  · simp only [hoccurs]
    exact occurrences_kept_iff hreached.stacked s.triggers steps h.requirements.running
  · intro hsame subject
    have hreachedLeft : left.requirements.ReachedOver fun _ => True := by
      rw [hleft]
      exact Requirements.performAll_preserves (fun _ _ hleaves hq => hq.perform (hleaves.installs _)) hleaves hreached
    have hground : h.requirements.SameGround left.requirements := by
      rw [hleft]
      exact Requirements.performAll_preserves (P := Operation.StacksLayers)
        (fun _ _ hstacks hq => hq.trans (Requirements.sameGround_stack hstacks))
        (LayersAllowed.orders ⟨fun _ => trivial, fun _ => trivial⟩ _ _ _) (.refl _)
    have hlayers : ∀ l, left.requirements.hasLayer l = h.requirements.hasLayer l := fun l =>
      Requirements.hasLayer_congr hreached.stacked hreachedLeft.stacked (hsame l)
    have hsnapshot := hground.snapshot_eq hreached.upToDate hreachedLeft.upToDate hlayers hrunning
    have hseverity := congrArg (fun snapshot => snapshot.severities.get? subject) hsnapshot
    simp only [Requirements.snapshot, Table.get?_map] at hseverity
    exact hseverity

/-- Lamp and radio are to be switched on. -/
def duskSteps : Steps := ⟨IdSet.ofList ["lamp", "radio"], .empty, .empty, 0⟩

/-- The lamp is lit and brings the news with it. Then the radio refuses, and the news are gone again. -/
theorem failure_undoes_starts_dusk :
    let h := (dusk ["radio"]).handle
    let carried := h.run (host 1 duskSteps (dusk ["radio"]).host)
    (h.requirements.ReachedOver fun _ => True) ∧ h.Quiet ∧
      carried = (carried.1, carried.2.1, .failed ⟨"radio", refusal⟩) ∧
      carried.2.1.deeds = [(1, .start "lamp")] ∧
      (∀ l, carried.1.requirements.occurrences l = h.requirements.occurrences l) ∧
      ∀ subject, carried.1.requirements.final? subject = h.requirements.final? subject := by
  intro h carried
  have hreached : h.requirements.ReachedOver fun _ => True :=
    (Requirements.reachedOver_initial trivial .empty .store).perform trivial
  have hverdict : carried.2.2 = .failed ⟨"radio", refusal⟩ := by decide +kernel
  have hfailed : carried = (carried.1, carried.2.1, .failed ⟨"radio", refusal⟩) :=
    Prod.ext rfl (Prod.ext rfl hverdict)
  have hdeeds : carried.2.1.deeds = [(1, .start "lamp")] := by decide +kernel
  obtain ⟨-, -, hkept, hfinal⟩ := failure_undoes_starts (dusk ["radio"]).host carried.2.1 1 duskSteps h carried.1
    ⟨"radio", refusal⟩ hreached (dusk_quiet ["radio"]) hfailed
  have hsame : ∀ l, carried.1.requirements.occurrences l = h.requirements.occurrences l := by
    refine hkept.mpr ?_
    rintro t - - (⟨hexcluded, -⟩ | hstopped)
    · exact IdSet.not_mem_empty hexcluded
    · exact IdSet.not_mem_empty hstopped
  exact ⟨hreached, dusk_quiet ["radio"], hfailed, hdeeds, hsame, hfinal hsame⟩

/-- The lamp glows, which calls for the clock. -/
def glowLayer : Layer := ⟨"glow", Table.empty.insert (.component "clock") .present⟩

def studioCatalog : Catalog :=
  ((Catalog.empty.insertComponent ⟨"clock", "", none, [], none⟩).insertComponent
    ⟨"lamp", "", none, [], none⟩).insertComponent ⟨"radio", "", none, [], none⟩

/-- The lamp is on and is to go out, and the radio is to be switched on. -/
def studio : Scenario :=
  { disabled := false
    running := ["lamp"]
    services := []
    components := [⟨"clock", "", none, [], none⟩, ⟨"lamp", "", none, [], none⟩, ⟨"radio", "", none, [], none⟩]
    settings :=
      { Settings.empty with
        user := (Table.empty.insert (.component "lamp") .excluded).insert (.component "radio") .mandatory }
    layers := [glowLayer]
    triggers := [⟨"lamp", glowLayer⟩]
    options := .standard }

/-- The lamp goes out, and the radio comes on. -/
def studioSteps : Steps := ⟨IdSet.ofList ["radio"], .empty, IdSet.ofList ["lamp"], 0⟩

/-- The radio refuses, so that the pass comes to nothing and the lamp still counts as running. But its glow is gone, and
nobody calls for the clock any more. -/
theorem failure_drops_layers :
    let r := studio.posed studioCatalog
    let carried := (host 1 studioSteps (.ofTriggers studio.triggers ["radio"])).runOn r
    studio.validate = .ok () ∧ studio.requirements = .ok r ∧
      Solver.solve r.snapshot false studio.options = .ok (.ready studioSteps) ∧
      carried.2.2 = .failed ⟨"radio", refusal⟩ ∧ "lamp" ∈ carried.1.running ∧
      r.occurrences glowLayer = 1 ∧ carried.1.occurrences glowLayer = 0 ∧
      r.final? (.component "clock") = some .present ∧ carried.1.final? (.component "clock") = some .passive := by
  refine ⟨rfl, rfl, by decide +kernel, by decide +kernel, ?_, by decide +kernel, by decide +kernel, by decide +kernel,
    by decide +kernel⟩
  rw [← IdSet.contains_iff]
  decide +kernel

end Simulator

end Orchestrator
