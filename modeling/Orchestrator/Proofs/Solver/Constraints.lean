import Orchestrator.Proofs.Solver.Optimality
/-!
The hard constraints, read off a catalog and who runs. They speak of all components of the catalog, so that they can be
asked of the state that a plan leads to and of any other state; a plan that the solver makes leads to a state in which
all of them hold.
-/

namespace Orchestrator

/-- What must hold of who runs, given the catalog and the severities of a snapshot. -/
structure Snapshot.HardConstraints (s : Snapshot) (runs : String → Bool) : Prop where
  /-- No service has two running implementations. -/
  exclusive : ∀ x ∈ s.catalog.serviceList, ∀ c ∈ s.catalog.componentList, ∀ d ∈ s.catalog.componentList,
    c.implements = some x.id → d.implements = some x.id → runs c.id = true → runs d.id = true → c = d
  /-- A mandatory component runs, unless it implements a service of the catalog that is vetoed. -/
  mandatory : ∀ c ∈ s.catalog.componentList, s.componentSeverity c.id = .mandatory →
    (∀ id, c.implements = some id → s.catalog.services.contains id = true → s.serviceSeverity id ≠ .excluded) →
    runs c.id = true
  served : ∀ x ∈ s.catalog.serviceList, x.isExternal = false → (s.serviceSeverity x.id).isBinding = true →
    ∃ c ∈ s.catalog.componentList, c.implements = some x.id ∧ runs c.id = true
  /-- What a running component needs is in the catalog, and provided by others or by a running implementation. -/
  met : ∀ c ∈ s.catalog.componentList, runs c.id = true → ∀ d ∈ c.dependencies, d.level.isBinding = true →
    ∃ x, s.catalog.service? d.service = some x ∧
      (x.isExternal = true ∨ ∃ e ∈ s.catalog.componentList, e.implements = some x.id ∧ runs e.id = true)
  vetoed : ∀ c ∈ s.catalog.componentList, s.componentSeverity c.id = .excluded → runs c.id = false
  /-- No implementation of a vetoed service runs. -/
  serviceVetoed : ∀ c ∈ s.catalog.componentList, ∀ id, c.implements = some id →
    s.catalog.services.contains id = true → s.serviceSeverity id = .excluded → runs c.id = false

namespace Snapshot

variable {s : Snapshot} {runs : String → Bool}

theorem isBarred_iff {c : Component} :
    s.isBarred c = true ↔ s.componentSeverity c.id = .excluded ∨ ∃ id, c.implements = some id ∧
      s.catalog.services.contains id = true ∧ s.serviceSeverity id = .excluded := by
  rw [isBarred, Bool.or_eq_true, isServiceBarred_iff]
  simp [Severity.isExcluded]

/-- Whoever runs is admitted, where nobody runs who may not. -/
theorem admitted_of_runs (hrest : ∀ c ∈ s.catalog.componentList, s.isBarred c = true → runs c.id = false)
    {c : Component} (hc : c ∈ s.catalog.componentList) (hrun : runs c.id = true) : c ∈ s.admitted := by
  refine mem_admitted.mpr ⟨hc, Bool.not_eq_true _ ▸ fun hbarred => ?_⟩
  rw [hrest c hc hbarred] at hrun
  cases hrun

/-- A feasible choice meets the hard constraints if nobody runs who may not. -/
theorem Feasible.hardConstraints (hk : s.catalog.Keyed) (hf : s.Feasible runs)
    (hrest : ∀ c ∈ s.catalog.componentList, s.isBarred c = true → runs c.id = false) : s.HardConstraints runs where
  exclusive := by
    intro x hx c hc d hd hcx hdx hrc hrd
    have hc' := mem_implementers.mpr ⟨admitted_of_runs hrest hc hrc, hcx⟩
    have hd' := mem_implementers.mpr ⟨admitted_of_runs hrest hd hrd, hdx⟩
    exact hf.exclusive x hx c hc' d hd' hrc hrd
  mandatory := by
    intro c hc hmandatory hservice
    refine hf.mandatory c (mem_admitted.mpr ⟨hc, Bool.not_eq_true _ ▸ fun hbarred => ?_⟩) hmandatory
    rcases isBarred_iff.mp hbarred with hexcluded | ⟨id, himplements, hlisted, hexcluded⟩
    · rw [hmandatory] at hexcluded
      cases hexcluded
    · exact hservice id himplements hlisted hexcluded
  served := by
    intro x hx hexternal hbinding
    obtain ⟨c, hc, hrun⟩ := isServed_iff.mp (hf.served x hx hexternal hbinding)
    obtain ⟨hadmitted, himplements⟩ := mem_implementers.mp hc
    exact ⟨c, (mem_admitted.mp hadmitted).1, himplements, hrun⟩
  met := by
    intro c hc hrun d hd hbinding
    obtain ⟨x, hx, hprovided⟩ := isMet_iff.mp (hf.met c (admitted_of_runs hrest hc hrun) hrun d hd hbinding)
    refine ⟨x, hx, hprovided.imp_right fun hserved => ?_⟩
    obtain ⟨e, he, hrune⟩ := isServed_iff.mp hserved
    obtain ⟨hadmitted, himplements⟩ := mem_implementers.mp he
    rw [← hk.services d.service x hx] at himplements
    exact ⟨e, (mem_admitted.mp hadmitted).1, himplements, hrune⟩
  vetoed := fun c hc hexcluded => hrest c hc (isBarred_iff.mpr (.inl hexcluded))
  serviceVetoed := fun c hc id himplements hlisted hexcluded =>
    hrest c hc (isBarred_iff.mpr (.inr ⟨id, himplements, hlisted, hexcluded⟩))

end Snapshot

namespace Solver

/-- The state that a plan leads to meets all hard constraints, whatever ran before. -/
theorem outcome_hardConstraints (s : Snapshot) (stopsRunning : Bool) (options : SolverOptions) (p : Steps)
    (hk : s.catalog.Keyed) (h : solve s stopsRunning options = .ok (.ready p)) :
    s.HardConstraints (p.outcome s) := by
  obtain ⟨runs, rfl, hleast⟩ := Snapshot.solve_ready hk h
  have hsame : ∀ c ∈ s.admitted, runs c.id = (s.stepsTo stopsRunning runs).outcome s c.id :=
    fun c hc => (Snapshot.outcome_stepsTo hk hc).symm
  refine (hleast.feasible.congr hsame).hardConstraints hk ?_
  intro c hc hbarred
  exact (Snapshot.stepsTo_realizes hk).outcome_barred hc hbarred

theorem outcome_hardConstraints_rivals :
    rivals.catalog.Keyed ∧ solve rivals false .standard = .ok (.ready rivalSteps) ∧
      rivals.HardConstraints (rivalSteps.outcome rivals) :=
  ⟨rivalry_keyed, rfl, outcome_hardConstraints rivals false .standard rivalSteps rivalry_keyed rfl⟩

end Solver

end Orchestrator
