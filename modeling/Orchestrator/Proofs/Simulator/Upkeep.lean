import Mathlib.Data.List.TakeWhile
import Orchestrator.Proofs.Reconcile.Attained
import Orchestrator.Proofs.Requirements.Occurrences
import Orchestrator.Proofs.Simulator.Orders
/-!
Upkeep: the layers that triggers keep active on behalf of the components that run. A pass that is carried out takes
away the layers of those that it excludes or stops and that ran, and adds the layers of those that it starts. The deeds
of the pass, done one after the other, lead to what runs afterwards.
-/

namespace Orchestrator

/-! ## Deeds -/

/-- What runs once a deed is done. -/
def Deed.apply (running : IdSet) : Deed → IdSet
  | .exclude id => running.erase id
  | .stop id => running.erase id
  | .start id => running.insert id

namespace Simulator

/-- What runs once all deeds are done that were written down. -/
def redo (running : IdSet) (deeds : List (Nat × Deed)) : IdSet :=
  deeds.foldl (fun running deed => deed.2.apply running) running

theorem redo_append (running : IdSet) (before after : List (Nat × Deed)) :
    redo running (before ++ after) = redo (redo running before) after := List.foldl_append

theorem redo_deedsOf (running : IdSet) (pass : Nat) (excluded stopped started : List String) :
    redo running (deedsOf pass excluded stopped started) =
      ((running.eraseAll excluded).eraseAll stopped).insertAll started := by
  rw [deedsOf, redo_append, redo_append, redo, redo, redo, List.foldl_map, List.foldl_map, List.foldl_map]
  rfl

end Simulator

/-! ## Steps -/

/-- The steps start only what does not run and stop only what does, and they do neither to what they exclude. -/
structure Steps.Fits (p : Steps) (running : IdSet) : Prop where
  start : ∀ id ∈ p.start, ¬ id ∈ running ∧ ¬ id ∈ p.exclude
  stop : ∀ id ∈ p.stop, id ∈ running ∧ ¬ id ∈ p.exclude

theorem Steps.Fits.of_start {p : Steps} {running : IdSet} (h : p.Fits running) (id : String)
    (hid : p.start.contains id = true) : running.contains id = false ∧ p.exclude.contains id = false := by
  obtain ⟨hrests, hadmitted⟩ := h.start id (IdSet.contains_iff.mp hid)
  exact ⟨eq_false_of_ne_true fun hruns => hrests (IdSet.contains_iff.mp hruns),
    eq_false_of_ne_true fun hexcluded => hadmitted (IdSet.contains_iff.mp hexcluded)⟩

theorem Steps.Fits.of_stop {p : Steps} {running : IdSet} (h : p.Fits running) (id : String)
    (hid : p.stop.contains id = true) : running.contains id = true ∧ p.exclude.contains id = false := by
  obtain ⟨hruns, hadmitted⟩ := h.stop id (IdSet.contains_iff.mp hid)
  exact ⟨IdSet.contains_iff.mpr hruns,
    eq_false_of_ne_true fun hexcluded => hadmitted (IdSet.contains_iff.mp hexcluded)⟩

theorem Snapshot.fits_of_ready {s : Snapshot} {stopsRunning : Bool} {options : SolverOptions} {p : Steps}
    (hk : s.catalog.Keyed) (hplan : Solver.solve s stopsRunning options = .ok (.ready p)) : p.Fits s.running := by
  obtain ⟨runs, rfl, -⟩ := solve_ready hk hplan
  have hrealizes : (s.stepsTo stopsRunning runs).Realizes s runs := stepsTo_realizes hk
  have hexclude : ∀ c ∈ s.admitted, ¬ c.id ∈ (s.stepsTo stopsRunning runs).exclude := fun c hc hexcluded =>
    not_barred hk hc ((hrealizes.exclude c.id).mp hexcluded)
  constructor
  · intro id hstart
    obtain ⟨c, hc, rfl, -, hrests⟩ := (hrealizes.start id).mp hstart
    refine ⟨fun hruns => ?_, hexclude c hc⟩
    rw [isRunning, IdSet.contains_iff.mpr hruns] at hrests
    cases hrests
  · intro id hstop
    obtain ⟨c, hc, rfl, -, hruns⟩ := (hrealizes.stop id).mp hstop
    exact ⟨IdSet.contains_iff.mp hruns, hexclude c hc⟩

/-- The deeds of a pass lead to what the pass is taken over with. -/
theorem Requirements.running_commit_eq_redo {r : Requirements} {steps : Steps} (snapshot : Snapshot) (pass : Nat)
    (hfits : steps.Fits r.running) (hknown : ∀ id ∈ steps.start, r.catalog.components.contains id = true) :
    (r.commit snapshot steps).running =
      Simulator.redo r.running (Simulator.deedsOf pass steps.exclude.toList steps.stop.toList steps.start.toList) := by
  refine IdSet.ext fun id => ?_
  rw [Simulator.redo_deedsOf, mem_running_commit, IdSet.mem_insertAll, IdSet.mem_eraseAll, IdSet.mem_eraseAll]
  simp only [← IdSet.mem_def]
  constructor
  · rintro ⟨⟨hstart, -⟩ | hran, hstop, hexclude⟩
    · exact .inl hstart
    · exact .inr ⟨⟨hran, hexclude⟩, hstop⟩
  · rintro (hstart | ⟨⟨hran, hexclude⟩, hstop⟩)
    · obtain ⟨hrested, hadmitted⟩ := hfits.start id hstart
      exact ⟨.inl ⟨hstart, hknown id hstart⟩, fun hstop => hrested (hfits.stop id hstop).1, hadmitted⟩
    · exact ⟨.inr hran, hstop, hexclude⟩

/-! ## Layers -/

namespace Simulator

variable {s : Simulator} {triggers : List Trigger} {l : Layer} {running : IdSet} {steps : Steps} {r : Requirements}

/-- How many triggers would keep a layer active on behalf of certain components. -/
def upkeep (triggers : List Trigger) (runs : String → Bool) (l : Layer) : Nat :=
  triggers.countP (fun t => t.layer == l && runs t.component)

/-- Upkeep on behalf of two groups that have no member in common adds up. -/
theorem upkeep_union {runs left right : String → Bool} (hunion : ∀ id, runs id = (left id || right id))
    (hdisjoint : ∀ id, left id = true → right id = false) :
    upkeep triggers runs l = upkeep triggers left l + upkeep triggers right l := by
  induction triggers with
  | nil => rfl
  | cons t rest ih =>
      simp only [upkeep, List.countP_cons] at ih ⊢
      rw [ih, hunion]
      cases hleft : left t.component with
      | true =>
          rw [hdisjoint _ hleft]
          simp
          omega
      | false =>
          simp
          omega

theorem count_layersOf (s : Simulator) (id : String) (l : Layer) :
    (s.layersOf id).count l = upkeep s.triggers (· == id) l := by
  rw [layersOf, List.count, List.countP_map, List.countP_filter, upkeep]
  rfl

theorem count_flatMap_layersOf (s : Simulator) {ids : List String} (hids : ids.Nodup) (l : Layer) :
    (ids.flatMap s.layersOf).count l = upkeep s.triggers ids.contains l := by
  induction ids with
  | nil => exact (List.countP_eq_zero.mpr (by simp)).symm
  | cons id rest ih =>
      obtain ⟨hid, hrest⟩ := List.nodup_cons.mp hids
      rw [List.flatMap_cons, List.count_append, ih hrest, count_layersOf]
      refine (upkeep_union (fun other => List.contains_cons) ?_).symm
      intro other hother
      rw [eq_of_beq hother]
      simpa using hid

theorem occurrences_setUpAll (s : Simulator) {ids : List String} (hids : ids.Nodup) (r : Requirements) (l : Layer) :
    (r.performAll (ids.flatMap s.setUp)).occurrences l = r.occurrences l + upkeep s.triggers ids.contains l := by
  rw [← count_flatMap_layersOf s hids, ← Requirements.occurrences_addAll, List.map_flatMap]
  rfl

theorem occurrences_tearDownAll (s : Simulator) {ids : List String} (hids : ids.Nodup) (r : Requirements) (l : Layer) :
    (r.performAll (ids.flatMap s.tearDown)).occurrences l = r.occurrences l - upkeep s.triggers ids.contains l := by
  rw [← count_flatMap_layersOf s hids, ← Requirements.occurrences_removeAll, List.map_flatMap]
  rfl

theorem refused?_of_done {ids : List String} (h : s.verdictOn ids = .done) : s.refused? ids = none := by
  rw [verdictOn] at h
  split at h
  next hnone => exact hnone
  next => cases h

theorem launched_of_done {ids : List String} (h : s.verdictOn ids = .done) : s.launched ids = ids := by
  refine List.takeWhile_eq_self_iff.mpr ?_
  intro id hid
  rw [eq_false_of_ne_true (List.find?_eq_none.mp (refused?_of_done h) id hid)]
  rfl

theorem startOrders_of_done {ids started : List String} (h : s.verdictOn ids = .done) :
    s.startOrders started ids = ids.flatMap s.setUp := by
  rw [startOrders, launched_of_done h, refused?_of_done h, Option.isSome_none, if_neg Bool.false_ne_true,
    List.append_nil]

/-- The orders of a pass in which nobody refuses to start exchange upkeep: they take away what was kept for those who
go, and no more than that, and add what is kept for those who come. -/
theorem exists_exchange (hfits : steps.Fits running) (hdone : s.verdictOn steps.start.toList = .done) (l : Layer) :
    ∃ kept lost gained, upkeep s.triggers running.contains l = kept + lost ∧
      upkeep s.triggers (fun id => steps.runsAfter id (running.contains id)) l = kept + gained ∧
      ∀ r : Requirements, (r.performAll (s.orders running steps)).occurrences l = r.occurrences l - lost + gained := by
  let excluded := steps.exclude.toList.filter running.contains
  let stays := fun id => running.contains id && !steps.stop.contains id && !steps.exclude.contains id
  have hexcluded : ∀ id, excluded.contains id = (steps.exclude.contains id && running.contains id) := by
    intro id
    refine Bool.eq_iff_iff.mpr ?_
    rw [List.contains_iff_mem, List.mem_filter, Bool.and_eq_true, IdSet.contains_iff, IdSet.contains_iff]
    exact Iff.rfl
  have hstart := hfits.of_start
  have hstop := hfits.of_stop
  have hgone : upkeep s.triggers (fun id => excluded.contains id || steps.stop.contains id) l =
      upkeep s.triggers excluded.contains l + upkeep s.triggers steps.stop.contains l :=
    upkeep_union (fun _ => rfl) (by grind)
  refine ⟨upkeep s.triggers stays l, upkeep s.triggers excluded.contains l + upkeep s.triggers steps.stop.contains l,
    upkeep s.triggers steps.start.contains l, ?_, ?_, ?_⟩
  · rw [← hgone]
    exact upkeep_union (by grind) (by grind)
  · refine upkeep_union ?_ (by grind)
    intro id
    have hcame := hstart id
    have hwent := hstop id
    simp only [Steps.runsAfter, stays]
    grind
  · intro r
    rw [orders, startOrders_of_done hdone, Requirements.performAll_append, Requirements.performAll_append,
      occurrences_setUpAll s steps.start.nodup, occurrences_tearDownAll s steps.stop.nodup,
      occurrences_tearDownAll s (steps.exclude.nodup.filter _), Nat.sub_sub]
    rfl

end Simulator

end Orchestrator
