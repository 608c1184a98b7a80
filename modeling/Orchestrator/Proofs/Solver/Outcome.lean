import Orchestrator.Proofs.Solver.Pricing
/-!
The outcome of a plan: who runs once its steps are carried out. The steps that are read off an assignment lead exactly
to the choice that the assignment makes, and whoever may not run is excluded.
-/

namespace Orchestrator

/-- Who runs once the steps are carried out in the state of a snapshot. -/
def Steps.outcome (p : Steps) (s : Snapshot) (id : String) : Bool := p.runsAfter id (s.isRunning id)

theorem Steps.runsAfter_iff {p : Steps} {id : String} {running : Bool} :
    p.runsAfter id running = true ↔ (id ∈ p.start ∨ running = true) ∧ ¬ id ∈ p.stop ∧ ¬ id ∈ p.exclude := by
  rw [← IdSet.contains_iff, ← IdSet.contains_iff, ← IdSet.contains_iff, runsAfter]
  cases p.exclude.contains id <;> cases p.stop.contains id <;> cases running <;> simp

/-- Who runs or rests stays so unless the steps start it, or stop or exclude it. -/
theorem Steps.runsAfter_cases (p : Steps) (id : String) (running : Bool) :
    p.runsAfter id running = running ∨ running = false ∧ id ∈ p.start ∨
      running = true ∧ (id ∈ p.stop ∨ id ∈ p.exclude) := by
  by_cases hstays : p.runsAfter id running = running
  · exact .inl hstays
  · refine .inr ?_
    cases running with
    | false =>
        rw [Bool.not_eq_false] at hstays
        exact .inl ⟨rfl, (runsAfter_iff.mp hstays).1.resolve_right Bool.false_ne_true⟩
    | true =>
        refine .inr ⟨rfl, ?_⟩
        by_contra hneither
        exact hstays (runsAfter_iff.mpr ⟨.inr rfl, not_or.mp hneither⟩)

/-- The steps bring a choice about: they start and stop the admitted components that change and exclude the others. -/
structure Steps.Realizes (p : Steps) (s : Snapshot) (runs : String → Bool) : Prop where
  start : ∀ id, id ∈ p.start ↔ ∃ c ∈ s.admitted, c.id = id ∧ runs id = true ∧ s.isRunning id = false
  stop : ∀ id, id ∈ p.stop ↔ ∃ c ∈ s.admitted, c.id = id ∧ runs id = false ∧ s.isRunning id = true
  exclude : ∀ id, id ∈ p.exclude ↔ ∃ c ∈ s.catalog.componentList, c.id = id ∧ s.isBarred c = true

namespace Steps.Realizes

variable {p : Steps} {s : Snapshot} {runs : String → Bool} {c : Component}

/-- An admitted component is started or stopped exactly if it changes, and never excluded. -/
theorem contains_admitted (h : p.Realizes s runs) (hk : s.catalog.Keyed) (hc : c ∈ s.admitted) :
    p.exclude.contains c.id = false ∧ p.stop.contains c.id = (!runs c.id && s.isRunning c.id) ∧
      p.start.contains c.id = (runs c.id && !s.isRunning c.id) := by
  refine ⟨?_, Bool.eq_iff_iff.mpr ?_, Bool.eq_iff_iff.mpr ?_⟩
  · rw [← Bool.not_eq_true, IdSet.contains_iff, h.exclude]
    exact Snapshot.not_barred hk hc
  · rw [IdSet.contains_iff, h.stop, Bool.and_eq_true, Bool.not_eq_true']
    exact ⟨fun ⟨_, _, _, hchange⟩ => hchange, fun hchange => ⟨c, hc, rfl, hchange⟩⟩
  · rw [IdSet.contains_iff, h.start, Bool.and_eq_true, Bool.not_eq_true']
    exact ⟨fun ⟨_, _, _, hchange⟩ => hchange, fun hchange => ⟨c, hc, rfl, hchange⟩⟩

/-- An admitted component runs afterwards exactly if it is chosen. -/
theorem outcome_admitted (h : p.Realizes s runs) (hk : s.catalog.Keyed) (hc : c ∈ s.admitted) :
    p.outcome s c.id = runs c.id := by
  obtain ⟨hexclude, hstop, hstart⟩ := h.contains_admitted hk hc
  rw [Steps.outcome, Steps.runsAfter, hexclude, hstop, hstart]
  cases runs c.id <;> cases s.isRunning c.id <;> rfl

/-- A component that may not run does not run afterwards, whatever it did before. -/
theorem outcome_barred (h : p.Realizes s runs) (hc : c ∈ s.catalog.componentList) (hbarred : s.isBarred c = true) :
    p.outcome s c.id = false := by
  have hexclude : p.exclude.contains c.id = true :=
    IdSet.contains_iff.mpr ((h.exclude c.id).mpr ⟨c, hc, rfl, hbarred⟩)
  rw [Steps.outcome, Steps.runsAfter, hexclude, Bool.true_or, if_pos rfl]

/-- A component that may not run is excluded, and neither started nor stopped. -/
theorem barred_excluded (h : p.Realizes s runs) (hk : s.catalog.Keyed) (hc : c ∈ s.catalog.componentList)
    (hbarred : s.isBarred c = true) : c.id ∈ p.exclude ∧ ¬ c.id ∈ p.start ∧ ¬ c.id ∈ p.stop := by
  have hnever : ∀ d ∈ s.admitted, d.id ≠ c.id := fun d hd heq =>
    Snapshot.not_barred hk hd ⟨c, hc, heq.symm, hbarred⟩
  refine ⟨(h.exclude c.id).mpr ⟨c, hc, rfl, hbarred⟩, ?_, ?_⟩
  · intro hstarted
    obtain ⟨d, hd, hid, -⟩ := (h.start c.id).mp hstarted
    exact hnever d hd hid
  · intro hstopped
    obtain ⟨d, hd, hid, -⟩ := (h.stop c.id).mp hstopped
    exact hnever d hd hid

end Steps.Realizes

namespace Snapshot

open Solver Solver.Problem

variable {s : Snapshot} {stopsRunning : Bool} {runs : String → Bool}

theorem mem_excluded {id : String} :
    id ∈ (s.problem stopsRunning).excluded ↔ ∃ c ∈ s.catalog.componentList, c.id = id ∧ s.isBarred c = true := by
  simp only [problem, IdSet.mem_ofList, List.mem_map, List.mem_filter]
  exact exists_congr fun c => by tauto

theorem mem_changed {p : Node × Bool → Bool} {id : String} :
    id ∈ IdSet.ofList (((s.decisions stopsRunning runs).filter p).map (·.1.id)) ↔
      ∃ c ∈ s.admitted, c.id = id ∧ p (s.view stopsRunning c, runs c.id) = true := by
  simp only [decisions, IdSet.mem_ofList, List.mem_map, List.mem_filter, List.filter_map, Function.comp_apply]
  constructor
  · rintro ⟨a, ⟨c, ⟨hc, hp⟩, rfl⟩, rfl⟩
    exact ⟨c, hc, rfl, hp⟩
  · rintro ⟨c, hc, rfl, hp⟩
    exact ⟨_, ⟨c, ⟨hc, hp⟩, rfl⟩, rfl⟩

/-- The steps of the decisions of a choice realize it; nothing is both started and stopped, and nothing excluded is
either. -/
theorem steps_realizes (hk : s.catalog.Keyed) (cost : Nat) :
    ((s.problem stopsRunning).steps (s.decisions stopsRunning runs) cost).Realizes s runs := by
  have hbarred : ∀ c ∈ s.admitted, ¬ c.id ∈ (s.problem stopsRunning).excluded := fun c hc =>
    mem_excluded.not.mpr (not_barred hk hc)
  have hrunning : ∀ c, (s.view stopsRunning c).isRunning = s.isRunning c.id := fun c => rfl
  constructor
  · intro id
    simp only [Problem.steps, Steps.ofSets, IdSet.mem_diff, mem_changed, hrunning, Bool.and_eq_true,
      Bool.not_eq_true']
    constructor
    · rintro ⟨⟨c, hc, rfl, hstopped, hrun⟩, -⟩
      exact ⟨c, hc, rfl, hrun, hstopped⟩
    · rintro ⟨c, hc, rfl, hrun, hstopped⟩
      exact ⟨⟨c, hc, rfl, hstopped, hrun⟩, hbarred c hc⟩
  · intro id
    simp only [Problem.steps, Steps.ofSets, IdSet.mem_diff, mem_changed, hrunning, Bool.and_eq_true,
      Bool.not_eq_true']
    constructor
    · rintro ⟨⟨⟨c, hc, rfl, hran, hrest⟩, -⟩, -⟩
      exact ⟨c, hc, rfl, hrest, hran⟩
    · rintro ⟨c, hc, rfl, hrest, hran⟩
      refine ⟨⟨⟨c, hc, rfl, hran, hrest⟩, hbarred c hc⟩, ?_⟩
      rintro ⟨⟨d, -, hid, hstopped, -⟩, -⟩
      rw [hid, hran] at hstopped
      cases hstopped
  · intro id
    exact @mem_excluded s stopsRunning id

end Snapshot

end Orchestrator
