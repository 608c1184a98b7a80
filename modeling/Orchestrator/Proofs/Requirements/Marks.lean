import Orchestrator.Requirements.Operation
/-!
The marks of a pass: that one is being carried out, and that something changed since it began. Nothing but a pass reads
them. What an operation does to all else, and what it answers, is the same whatever the marks are, and a pass that
begins sets both anew.
-/

namespace Orchestrator

namespace Requirements

variable {r q : Requirements} {s : Subject}

/-- The requirements as they are while no pass is carried out. -/
def unmarked (r : Requirements) : Requirements := { r with isApplying := false, wantsReapply := false }

theorem beginPass_unmarked (r : Requirements) : r.unmarked.beginPass = r.beginPass := rfl

theorem beginPass_congr (h : r.unmarked = q.unmarked) : r.beginPass = q.beginPass := by
  rw [← beginPass_unmarked r, h, beginPass_unmarked]

theorem isDirty_congr (h : r.unmarked = q.unmarked) : r.isDirty = q.isDirty := by
  change r.unmarked.isDirty = q.unmarked.isDirty
  rw [h]

theorem snapshot_congr (h : r.unmarked = q.unmarked) : r.snapshot = q.snapshot := by
  change r.unmarked.snapshot = q.unmarked.snapshot
  rw [h]

/-! ## Steps of operations -/

theorem unmarked_touch (r : Requirements) : r.touch.unmarked = r.unmarked.touch := by
  unfold touch
  split
  · rfl
  · rfl

theorem unmarked_recompute (r : Requirements) (s : Subject) : (r.recompute s).unmarked = r.unmarked.recompute s := by
  have hsame : r.unmarked.standings.get? s = r.standings.get? s := rfl
  unfold recompute
  rw [hsame]
  cases r.standings.get? s with
  | none => rfl
  | some old => rfl

theorem unmarked_foldl {α : Type} {f : Requirements → α → Requirements}
    (step : ∀ r x, (f r x).unmarked = f r.unmarked x) (l : List α) (r : Requirements) :
    (l.foldl f r).unmarked = l.foldl f r.unmarked := by
  induction l generalizing r with
  | nil => rfl
  | cons x rest ih => rw [List.foldl_cons, List.foldl_cons, ih, step]

theorem unmarked_recomputeAll (r : Requirements) (subjects : List Subject) :
    (r.recomputeAll subjects).unmarked = r.unmarked.recomputeAll subjects :=
  unmarked_foldl unmarked_recompute subjects r

/-- Most operations end by working out some subjects anew and noting that something changed. -/
theorem unmarked_recomputeAll_touch (r : Requirements) (subjects : List Subject) :
    (r.recomputeAll subjects).touch.unmarked = (r.unmarked.recomputeAll subjects).touch := by
  rw [unmarked_touch, unmarked_recomputeAll]

theorem unmarked_trackAll (r : Requirements) (subjects : List Subject) :
    (subjects.foldl track r).unmarked = subjects.foldl track r.unmarked :=
  unmarked_foldl (fun _ _ => rfl) subjects r

theorem unmarked_reresolve (acc : Requirements × Bool) (s : Subject) :
    ((reresolve acc s).1.unmarked, (reresolve acc s).2) = reresolve (acc.1.unmarked, acc.2) s := by
  have hsame : acc.1.unmarked.standings.get? s = acc.1.standings.get? s := rfl
  have hbaseline : acc.1.unmarked.baseline s = acc.1.baseline s := rfl
  unfold reresolve
  simp only [hsame, hbaseline]
  cases acc.1.standings.get? s with
  | none => rfl
  | some old =>
      simp only []
      split
      · rfl
      · exact congrArg (·, true) (unmarked_recompute _ s)

theorem unmarked_reresolveAll (subjects : List Subject) (acc : Requirements × Bool) :
    ((subjects.foldl reresolve acc).1.unmarked, (subjects.foldl reresolve acc).2) =
      subjects.foldl reresolve (acc.1.unmarked, acc.2) := by
  induction subjects generalizing acc with
  | nil => rfl
  | cons s rest ih => rw [List.foldl_cons, List.foldl_cons, ih, unmarked_reresolve]

/-! ## Operations -/

theorem addLayer_unmarked (r : Requirements) (l : Layer) (allowDuplicate : Bool) :
    r.unmarked.addLayer l allowDuplicate =
      ((r.addLayer l allowDuplicate).1.unmarked, (r.addLayer l allowDuplicate).2) := by
  have hactive : r.unmarked.hasLayer l = r.hasLayer l := rfl
  unfold addLayer
  rw [hactive]
  split
  · split
    · exact congrArg (·, true) (unmarked_touch { r with layers := recount r.layers l (· + 1) }).symm
    · rfl
  · exact congrArg (·, true)
      (unmarked_recomputeAll_touch { r with layers := r.layers ++ [Activation.mk l 1] } l.subjects).symm

theorem removeLayer_unmarked (r : Requirements) (l : Layer) (all : Bool) :
    r.unmarked.removeLayer l all = ((r.removeLayer l all).1.unmarked, (r.removeLayer l all).2) := by
  have hactive : r.unmarked.hasLayer l = r.hasLayer l := rfl
  have hcount : r.unmarked.occurrences l = r.occurrences l := rfl
  unfold removeLayer
  rw [hactive, hcount]
  split
  · rfl
  · split
    · exact congrArg (·, true) (unmarked_touch { r with layers := recount r.layers l (· - 1) }).symm
    · exact congrArg (·, true)
        (unmarked_recomputeAll_touch { r with layers := withoutLayer r.layers l } l.subjects).symm

theorem replaceLayer_unmarked (r : Requirements) (old new : Layer) :
    r.unmarked.replaceLayer old new = ((r.replaceLayer old new).1.unmarked, (r.replaceLayer old new).2) := by
  have hactive : r.unmarked.hasLayer old = r.hasLayer old := rfl
  unfold replaceLayer
  rw [hactive]
  split
  · rfl
  · split
    · rfl
    · exact congrArg (·, true) (unmarked_recomputeAll_touch { r with layers := _ } (unionSubjects old new)).symm

theorem configurationChanged_unmarked (r : Requirements) (subjects : List Subject) :
    r.unmarked.configurationChanged subjects = (r.configurationChanged subjects).unmarked := by
  unfold configurationChanged
  rw [← unmarked_reresolveAll subjects (r, false)]
  simp only []
  split
  · exact (unmarked_touch _).symm
  · rfl

theorem refreshCatalog_unmarked (r : Requirements) (catalog : Catalog) :
    r.unmarked.refreshCatalog catalog = (r.refreshCatalog catalog).unmarked := by
  unfold refreshCatalog
  simp only []
  rw [unmarked_recomputeAll_touch, unmarked_trackAll]
  rfl

theorem setDisabled_unmarked (r : Requirements) (disabled : Bool) :
    r.unmarked.setDisabled disabled = (r.setDisabled disabled).unmarked := by
  have hswitch : r.unmarked.disabled = r.disabled := rfl
  unfold setDisabled
  rw [hswitch]
  split
  · rfl
  · exact (unmarked_recomputeAll_touch { r with disabled } r.standings.subjects).symm

theorem clearFailure_unmarked (r : Requirements) (id : String) :
    r.unmarked.clearFailure id = ((r.clearFailure id).1.unmarked, (r.clearFailure id).2) := by
  have hquarantined : r.unmarked.quarantined.contains id = r.quarantined.contains id := rfl
  unfold clearFailure
  rw [hquarantined]
  split
  · exact congrArg (·, true)
      (unmarked_recomputeAll_touch { r with quarantined := r.quarantined.erase id } [.component id]).symm
  · rfl

theorem markRunning_unmarked (r : Requirements) (id : String) (running : Bool) :
    r.unmarked.markRunning id running = (r.markRunning id running).unmarked := by
  have hknown : r.unmarked.catalog.components.contains id = r.catalog.components.contains id := rfl
  have hrunning : r.unmarked.running.contains id = r.running.contains id := rfl
  unfold markRunning
  rw [hknown, hrunning]
  split
  · split
    · exact (unmarked_touch { r with running := r.running.insert id }).symm
    · rfl
  · split
    · exact (unmarked_touch { r with running := r.running.erase id }).symm
    · rfl

theorem setResolver_unmarked (r : Requirements) (resolver : Resolver) :
    r.unmarked.setResolver resolver = (r.setResolver resolver).unmarked := by
  unfold setResolver
  simp only []
  rw [unmarked_recomputeAll_touch]
  rfl

/-- The marks have no part in what an operation does and answers. -/
theorem perform_unmarked (r : Requirements) (operation : Operation) :
    r.unmarked.perform operation = ((r.perform operation).1.unmarked, (r.perform operation).2) := by
  cases operation with
  | addLayer layer allowDuplicate => exact congrArg (Prod.map id some) (addLayer_unmarked r layer allowDuplicate)
  | removeLayer layer all => exact congrArg (Prod.map id some) (removeLayer_unmarked r layer all)
  | replaceLayer old new => exact congrArg (Prod.map id some) (replaceLayer_unmarked r old new)
  | editSettings settings => rfl
  | configurationChanged subjects => exact congrArg (·, none) (configurationChanged_unmarked r subjects)
  | setResolver resolver => exact congrArg (·, none) (setResolver_unmarked r resolver)
  | refreshCatalog catalog => exact congrArg (·, none) (refreshCatalog_unmarked r catalog)
  | setDisabled disabled => exact congrArg (·, none) (setDisabled_unmarked r disabled)
  | recordFailure id message =>
      exact congrArg (·, none)
        (unmarked_recomputeAll_touch { r with quarantined := r.quarantined.insert id message } [.component id]).symm
  | clearFailure component => exact congrArg (Prod.map id some) (clearFailure_unmarked r component)
  | markRunning id running => exact congrArg (·, none) (markRunning_unmarked r id running)

/-- Requirements that differ in the marks only still do so after the same operation, and it gives the same answer. -/
theorem perform_congr (h : r.unmarked = q.unmarked) (operation : Operation) :
    (r.perform operation).1.unmarked = (q.perform operation).1.unmarked ∧
      (r.perform operation).2 = (q.perform operation).2 := by
  have hperformed : r.unmarked.perform operation = q.unmarked.perform operation := by rw [h]
  rw [perform_unmarked, perform_unmarked] at hperformed
  exact Prod.ext_iff.mp hperformed

end Requirements

end Orchestrator
