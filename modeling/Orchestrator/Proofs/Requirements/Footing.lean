import Orchestrator.Proofs.Requirements.Adjustment
/-!
The footing of the requirements: what exists, what runs, and which severities the last plan dealt with. Most operations
leave it alone whatever they change in what is wanted; taking over the outcome of a pass moves it.
-/

namespace Orchestrator

/-- The operation neither reports what runs nor exchanges the catalog. -/
def Operation.LeavesRunning : Operation → Prop
  | .markRunning _ _ => False
  | .refreshCatalog _ => False
  | _ => True

namespace Requirements

variable {r q : Requirements} {s k : Subject} {l : List Subject}

/-- The same subjects are tracked, and the same was dealt with in each. -/
def SameDealings (r q : Requirements) : Prop :=
  ∀ s, (q.standings.get? s).map Standing.applied = (r.standings.get? s).map Standing.applied

theorem SameDealings.trans {p : Requirements} (h : r.SameDealings q) (h' : q.SameDealings p) : r.SameDealings p :=
  fun s => (h' s).trans (h s)

/-- The same components exist and run, the same subjects are tracked, and the same was dealt with in each. -/
structure SameFooting (r q : Requirements) : Prop where
  catalog : q.catalog = r.catalog
  running : q.running = r.running
  dealings : r.SameDealings q

theorem SameFooting.trans {p : Requirements} (h : r.SameFooting q) (h' : q.SameFooting p) : r.SameFooting p :=
  ⟨h'.catalog.trans h.catalog, h'.running.trans h.running, h.dealings.trans h'.dealings⟩

theorem applied?_eq_join : r.applied? s = ((r.standings.get? s).map Standing.applied).join := by
  rw [applied?]
  cases r.standings.get? s with
  | none => rfl
  | some standing => rfl

theorem applied?_congr (h : (q.standings.get? s).map Standing.applied = (r.standings.get? s).map Standing.applied) :
    q.applied? s = r.applied? s := by
  rw [applied?_eq_join, applied?_eq_join, h]

theorem SameDealings.applied?_eq (h : r.SameDealings q) (s : Subject) : q.applied? s = r.applied? s :=
  applied?_congr (h s)

theorem SameDealings.contains_eq (h : r.SameDealings q) (s : Subject) :
    q.standings.contains s = r.standings.contains s := by
  have hsome := congrArg Option.isSome (h s)
  rwa [Option.isSome_map, Option.isSome_map] at hsome

theorem SameFooting.applied?_eq (h : r.SameFooting q) (s : Subject) : q.applied? s = r.applied? s :=
  h.dealings.applied?_eq s

theorem sameFooting_endPass : r.SameFooting r.endPass.1 := ⟨rfl, rfl, fun _ => rfl⟩

theorem sameFooting_beginPass : r.SameFooting r.beginPass := ⟨rfl, rfl, fun _ => rfl⟩

/-! ## Operations -/

theorem applied_touch : (r.touch.standings.get? k).map Standing.applied =
    (r.standings.get? k).map Standing.applied := by
  rw [standings_touch]

theorem applied_recomputeAll : ((r.recomputeAll l).standings.get? k).map Standing.applied =
    (r.standings.get? k).map Standing.applied :=
  map_get?_recomputeAll (fun _ _ => rfl)

theorem sameFooting_recomputeAll_touch : r.SameFooting (r.recomputeAll l).touch where
  catalog := catalog_eq_of_context (context_touch.trans context_recomputeAll)
  running := running_eq_of_context (context_touch.trans context_recomputeAll)
  dealings := fun _ => applied_touch.trans applied_recomputeAll

theorem reviewed_applied {old : Standing} : (r.reviewed s old).applied = old.applied := by
  unfold reviewed
  split
  · rfl
  · rfl

theorem applied_reresolveAll {acc : Requirements × Bool} :
    ((l.foldl reresolve acc).1.standings.get? k).map Standing.applied =
      (acc.1.standings.get? k).map Standing.applied := by
  induction l generalizing acc with
  | nil => rfl
  | cons s rest ih =>
      refine ih.trans ?_
      rw [reresolve_eq_amend]
      exact map_get?_amend (fun _ => reviewed_applied)

theorem sameFooting_configurationChanged (subjects : List Subject) :
    r.SameFooting (r.configurationChanged subjects) := by
  have hall : r.SameFooting (subjects.foldl reresolve (r, false)).1 :=
    ⟨catalog_eq_of_context context_reresolveAll, running_eq_of_context context_reresolveAll,
      fun _ => applied_reresolveAll⟩
  unfold configurationChanged
  simp only []
  split
  · exact hall.trans (sameFooting_recomputeAll_touch (l := []))
  · exact hall

theorem sameFooting_setResolver (resolver : Resolver) : r.SameFooting (r.setResolver resolver) := by
  refine SameFooting.trans ?_ sameFooting_recomputeAll_touch
  refine ⟨rfl, rfl, ?_⟩
  intro s
  rw [Table.get?_map, Option.map_map]
  rfl

theorem Adjusts.applied_eq (h : r.Adjusts q) (s : Subject) :
    (q.standings.get? s).map Standing.applied = (r.standings.get? s).map Standing.applied := by
  cases h with
  | idle => rfl
  | recomputes concerned others => exact applied_touch.trans applied_recomputeAll

/-- An adjustment moves the footing at most in what runs. -/
theorem Adjusts.sameFooting (h : r.Adjusts q) (hrunning : q.running = r.running) : r.SameFooting q :=
  ⟨h.catalog_eq, hrunning, h.applied_eq⟩

theorem running_perform {operation : Operation} (h : operation.LeavesRunning) :
    (r.perform operation).1.running = r.running := by
  refine perform_context (I := fun q => q.running = r.running) (fun hq hrunning =>
    (running_eq_of_context hq).trans hrunning) operation (fun _ => rfl) (fun _ => rfl) (fun _ => rfl) ?_
    (fun _ _ => rfl) (fun _ _ => rfl) (fun _ _ => rfl) ?_
  · rintro catalog rfl
    exact h.elim
  · rintro running id isRunning rfl
    exact h.elim

theorem running_performAll {operations : List Operation}
    (hleaves : ∀ operation ∈ operations, operation.LeavesRunning) :
    (r.performAll operations).running = r.running :=
  performAll_preserves (I := fun q => q.running = r.running)
    (fun _ _ hleaves hq => (running_perform hleaves).trans hq) hleaves rfl

theorem sameFooting_perform {operation : Operation} (h : operation.LeavesRunning) :
    r.SameFooting (r.perform operation).1 := by
  have hrunning := running_perform (r := r) h
  cases operation with
  | addLayer layer allowDuplicate => exact (adjusts_addLayer layer allowDuplicate).sameFooting hrunning
  | removeLayer layer all => exact (adjusts_removeLayer layer all).sameFooting hrunning
  | replaceLayer old new => exact (adjusts_replaceLayer old new).sameFooting hrunning
  | editSettings settings => exact ⟨rfl, rfl, fun _ => rfl⟩
  | configurationChanged subjects => exact sameFooting_configurationChanged subjects
  | setResolver resolver => exact sameFooting_setResolver resolver
  | refreshCatalog catalog => exact h.elim
  | setDisabled disabled => exact (adjusts_setDisabled disabled).sameFooting hrunning
  | recordFailure id message => exact (adjusts_recordFailure id message).sameFooting hrunning
  | clearFailure id => exact (adjusts_clearFailure id).sameFooting hrunning
  | markRunning id running => exact h.elim

/-! ## What was dealt with -/

/-- Whatever the second requirements dealt with, the first ones dealt with too, and in the same way. -/
def DealtWithin (r q : Requirements) : Prop := ∀ s severity, q.applied? s = some severity → r.applied? s = some severity

theorem DealtWithin.refl (r : Requirements) : r.DealtWithin r := fun _ _ h => h

theorem DealtWithin.trans {p : Requirements} (h : r.DealtWithin q) (h' : q.DealtWithin p) : r.DealtWithin p :=
  fun s severity hp => h s severity (h' s severity hp)

theorem SameFooting.dealtWithin (h : r.SameFooting q) : r.DealtWithin q :=
  fun s _ hq => (h.applied?_eq s).symm.trans hq

theorem applied?_refreshCatalog (catalog : Catalog) :
    (r.refreshCatalog catalog).applied? s = if catalog.contains s = true then r.applied? s else none := by
  rw [applied?_eq_join, map_get?_refreshCatalog (fun _ _ => rfl), applied?_eq_join]
  split
  · cases r.standings.get? s with
    | none => rfl
    | some standing => rfl
  · rfl

/-- A subject that is tracked for the first time, or once more, was not dealt with. -/
theorem dealtWithin_refreshCatalog (catalog : Catalog) : r.DealtWithin (r.refreshCatalog catalog) := by
  intro s severity hq
  rw [applied?_refreshCatalog] at hq
  split at hq
  · exact hq
  · cases hq

/-- Operations deal with nothing. -/
theorem dealtWithin_perform (operation : Operation) : r.DealtWithin (r.perform operation).1 := by
  refine perform_cases operation ?_ (fun settings => .refl r) ?_ ?_ dealtWithin_refreshCatalog
  · intro q hq s severity happlied
    exact (applied?_congr (hq.applied_eq s)).symm.trans happlied
  · intro subjects
    exact (sameFooting_configurationChanged subjects).dealtWithin
  · intro resolver
    exact (sameFooting_setResolver resolver).dealtWithin

/-! ## Taking over the outcome of a pass -/

/-- Dealing with severities one after the other, each of which agrees with one table, leaves in each standing what the
table says of its subject. -/
theorem get?_settleAll {severities : List (Subject × Severity)} {value : Subject → Option Severity}
    (h : ∀ e ∈ severities, value e.1 = some e.2) :
    (severities.foldl settle r).standings.get? k =
      if k ∈ severities.map Prod.fst then (r.standings.get? k).map (fun old => { old with applied := value k })
      else r.standings.get? k := by
  induction severities generalizing r with
  | nil => rfl
  | cons e rest ih =>
      have hvalue : value e.1 = some e.2 := h e List.mem_cons_self
      have hrest := ih (r := r.settle e) (fun other hother => h other (List.mem_cons_of_mem e hother))
      rw [List.foldl_cons, hrest, settle_eq_amend, get?_amend]
      by_cases hk : k = e.1
      · subst hk
        simp [hvalue, Function.comp_def]
      · simp only [List.map_cons, List.mem_cons, hk, if_false, false_or]

theorem get?_commit (snapshot : Snapshot) (steps : Steps) :
    (r.commit snapshot steps).standings.get? k =
      if snapshot.severities.contains k = true then
        (r.standings.get? k).map (fun old => { old with applied := snapshot.severities.get? k })
      else r.standings.get? k := by
  simp only [← Table.mem_subjects, ← Table.map_fst_entries]
  exact get?_settleAll (fun e he => Table.mem_entries.mp he)

theorem catalog_commit (snapshot : Snapshot) (steps : Steps) : (r.commit snapshot steps).catalog = r.catalog :=
  (catalog_eq_of_context (context_commit snapshot steps)).trans rfl

theorem mem_running_commit {snapshot : Snapshot} {steps : Steps} {id : String} :
    id ∈ (r.commit snapshot steps).running ↔
      ((id ∈ steps.start ∧ r.catalog.components.contains id = true) ∨ id ∈ r.running) ∧
        ¬ id ∈ steps.stop ∧ ¬ id ∈ steps.exclude := by
  have hrunning : (r.commit snapshot steps).running =
      (r.running.insertAll (steps.start.toList.filter r.catalog.components.contains)).eraseAll
        (steps.stop.toList ++ steps.exclude.toList) := running_eq_of_context (context_commit snapshot steps)
  rw [hrunning, IdSet.mem_eraseAll, IdSet.mem_insertAll, List.mem_filter, List.mem_append, not_or]
  rfl

/-- What runs afterwards depends on the steps, on what ran and on who exists. -/
theorem running_commit_congr (hcatalog : q.catalog = r.catalog) (hrunning : q.running = r.running)
    (before after : Snapshot) (steps : Steps) : (q.commit after steps).running = (r.commit before steps).running := by
  refine IdSet.ext fun id => ?_
  rw [mem_running_commit, mem_running_commit, hcatalog, hrunning]

end Requirements

end Orchestrator
