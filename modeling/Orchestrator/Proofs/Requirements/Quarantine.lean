import Orchestrator.Proofs.Requirements.Reach
import Orchestrator.Proofs.Solver.Constraints
/-!
Quarantine. A component that failed stays quarantined and in the catalog until somebody clears the failure or installs
a catalog without the component, and for as long as that lasts its final severity is the veto and every plan excludes
it, whatever else is asked for.
-/

namespace Orchestrator

/-- The operation neither clears a failure of the component nor installs a catalog without the component. -/
def Operation.Retains (id : String) : Operation → Prop
  | .clearFailure other => other ≠ id
  | .refreshCatalog catalog => catalog.components.contains id = true
  | _ => True

namespace Requirements

variable {r : Requirements} {id : String}

/-- The component failed, and nobody has cleared that. -/
def HasFailed (id : String) (r : Requirements) : Prop := r.quarantined.contains id = true

def Knows (id : String) (r : Requirements) : Prop := r.catalog.components.contains id = true

theorem HasFailed.congr {q : Requirements} (hq : q.context = r.context) (h : r.HasFailed id) : q.HasFailed id := by
  rw [HasFailed, quarantined_eq_of_context hq]
  exact h

theorem Knows.congr {q : Requirements} (hq : q.context = r.context) (h : r.Knows id) : q.Knows id := by
  rw [Knows, catalog_eq_of_context hq]
  exact h

theorem HasFailed.perform (h : r.HasFailed id) {operation : Operation} (hretains : operation.Retains id) :
    (r.perform operation).1.HasFailed id := by
  refine perform_context HasFailed.congr operation (fun _ => h) (fun _ => h) (fun _ => h) ?_ (fun _ _ => h) ?_ ?_
    (fun _ _ _ _ => h)
  · rintro catalog rfl
    obtain ⟨message, hmessage⟩ := Option.isSome_iff_exists.mp h
    have hknown : catalog.components.contains id = true := hretains
    rw [HasFailed, IdMap.contains, IdMap.get?_filter, hmessage, Option.filter_some, if_pos hknown, Option.isSome_some]
  · intro other message
    rw [HasFailed, IdMap.contains, IdMap.get?_insert]
    split
    · rfl
    · exact h
  · rintro other rfl
    rw [HasFailed, IdMap.contains, IdMap.get?_erase, if_neg (Ne.symm hretains)]
    exact h

theorem Knows.perform (h : r.Knows id) {operation : Operation} (hretains : operation.Retains id) :
    (r.perform operation).1.Knows id := by
  refine perform_context Knows.congr operation (fun _ => h) (fun _ => h) (fun _ => h) ?_ (fun _ _ => h)
    (fun _ _ => h) (fun _ _ => h) (fun _ _ _ _ => h)
  rintro catalog rfl
  exact hretains

theorem hasFailed_recordFailure (message : String) : (r.recordFailure id message).HasFailed id := by
  refine HasFailed.congr (context_recordFailure id message) ?_
  rw [HasFailed, IdMap.contains, IdMap.get?_insert, if_pos rfl, Option.isSome_some]

theorem HasFailed.after (h : r.HasFailed id) {e : Occurrence} (he : e.Asks (Operation.Retains id)) :
    (r.after e).HasFailed id := by
  cases e with
  | asked operation => exact h.perform he
  | passCommits snapshot steps => exact HasFailed.congr (context_commit snapshot steps) h
  | _ => exact h

theorem Knows.after (h : r.Knows id) {e : Occurrence} (he : e.Asks (Operation.Retains id)) : (r.after e).Knows id := by
  cases e with
  | asked operation => exact h.perform he
  | passCommits snapshot steps => exact Knows.congr (context_commit snapshot steps) h
  | _ => exact h

/-- The component failed and is in the catalog; all else may be anything that can be reached. -/
structure Confines (id : String) (r : Requirements) : Prop where
  reached : r.ReachedOver Catalog.Keyed
  failed : r.HasFailed id
  known : r.Knows id

theorem Confines.final? (h : r.Confines id) : r.final? (.component id) = some .excluded := by
  have htracked : (r.recorded? (.component id)).isSome = true := by
    rw [← contains_eq_recorded?, h.reached.tracks]
    exact h.known
  obtain ⟨baseline, hbaseline⟩ := Option.isSome_iff_exists.mp htracked
  have hvetoed : r.isVetoed (.component id) = true := by
    have hquarantined : r.isQuarantined (.component id) = true := h.failed
    rw [isVetoed, hquarantined, Bool.or_true, Bool.true_or]
  rw [h.reached.upToDate.final?_eq, hbaseline, Option.map_some, resultingSeverity_of_vetoed hvetoed]

theorem Confines.excluded (h : r.Confines id) {stopsRunning : Bool} {options : SolverOptions} {p : Steps}
    (hplan : Solver.solve r.snapshot stopsRunning options = .ok (.ready p)) :
    id ∈ p.exclude ∧ ¬ id ∈ p.start ∧ ¬ id ∈ p.stop := by
  have hk : r.snapshot.catalog.Keyed := h.reached.runsKnown.catalog
  obtain ⟨c, hc⟩ := Option.isSome_iff_exists.mp h.known
  obtain rfl : c.id = id := hk.components id c hc
  have hlisted : c ∈ r.snapshot.catalog.componentList := hk.mem_componentList.mpr hc
  have hbarred : r.snapshot.isBarred c = true := by
    refine Snapshot.isBarred_iff.mpr (.inl ?_)
    have hfinal : r.snapshot.severities.get? (.component c.id) = some .excluded := by
      rw [snapshot, Table.get?_map]
      exact h.final?
    rw [Snapshot.componentSeverity, Snapshot.severity, hfinal, Option.getD_some]
  obtain ⟨runs, rfl, -⟩ := Snapshot.solve_ready hk hplan
  exact (Snapshot.stepsTo_realizes hk).barred_excluded hk hlisted hbarred

/-- Whatever happened in the meantime, it does not run once steps that were planned with it confined are taken over. -/
theorem Confines.not_running_commit (h : r.Confines id) {stopsRunning : Bool} {options : SolverOptions} {p : Steps}
    (hplan : Solver.solve r.snapshot stopsRunning options = .ok (.ready p)) (left : Requirements)
    (snapshot : Snapshot) : ¬ id ∈ (left.commit snapshot p).running := by
  intro hruns
  exact (mem_running_commit.mp hruns).2.2 (h.excluded hplan).1

end Requirements

end Orchestrator
