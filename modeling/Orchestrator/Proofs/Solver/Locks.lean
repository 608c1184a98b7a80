import Mathlib.Algebra.Order.BigOperators.Group.List
import Mathlib.Algebra.Order.Group.Nat
import Orchestrator.Proofs.Solver.Pricing
/-!
The forced decisions lose nothing. A feasible choice agrees with every lock but those of independent components, and
these can be brought to agree without touching a service or a dependency and without making the choice dearer.
-/

namespace Orchestrator.Snapshot

open Solver Solver.Problem

variable {s : Snapshot} {stopsRunning : Bool} {runs : String → Bool}

/-- A choice with the forced decisions in place of its own. -/
def forced (s : Snapshot) (stopsRunning : Bool) (runs : String → Bool) (id : String) : Bool :=
  match s.catalog.component? id with
  | some c => (s.lock stopsRunning c).getD (runs id)
  | none => runs id

/-- The component concerns nobody else and need not run. -/
def isIdle (s : Snapshot) (c : Component) : Bool := c.isIndependent && s.componentSeverity c.id != .mandatory

theorem forced_admitted (hk : s.catalog.Keyed) {c : Component} (hc : c ∈ s.admitted) :
    s.forced stopsRunning runs c.id = (s.lock stopsRunning c).getD (runs c.id) := by
  have hget := hk.mem_componentList.mp (mem_admitted.mp hc).1
  simp only [forced, hget]

theorem decided_nodes (hk : s.catalog.Keyed) :
    decided (s.problem stopsRunning).nodes runs = s.decisions stopsRunning (s.forced stopsRunning runs) := by
  rw [decided, problem, List.map_map]
  refine List.map_congr_left fun c hc => ?_
  rw [forced_admitted hk hc]
  rfl

/-! ## Who is locked -/

theorem isSole_iff {c : Component} :
    s.isSole c = true ↔ ∃ x ∈ s.catalog.serviceList, s.isDemanded x = true ∧ c.implements = some x.id ∧
      (s.implementers x.id).length = 1 := by
  simp [isSole, and_assoc]

/-- Whoever is the only implementation left of a service that has to run is chosen. -/
theorem Feasible.sole (hf : s.Feasible runs) {c : Component} (hc : c ∈ s.admitted) (hsole : s.isSole c = true) :
    runs c.id = true := by
  obtain ⟨x, hx, hdemanded, himplements, hlength⟩ := isSole_iff.mp hsole
  simp only [isDemanded, Bool.and_eq_true, Bool.not_eq_true', beq_iff_eq] at hdemanded
  have hbinding : (s.serviceSeverity x.id).isBinding = true := by rw [hdemanded.2]; rfl
  obtain ⟨d, hd, hrun⟩ := isServed_iff.mp (hf.served x hx hdemanded.1 hbinding)
  obtain ⟨e, honly⟩ := List.length_eq_one_iff.mp hlength
  have hc' := mem_implementers.mpr ⟨hc, himplements⟩
  rw [honly, List.mem_singleton] at hc' hd
  rwa [hc', ← hd]

/-- Only idle components can be decided otherwise by force than by a feasible choice. -/
theorem Feasible.forced_eq (hk : s.catalog.Keyed) (hf : s.Feasible runs) {c : Component} (hc : c ∈ s.admitted)
    (hidle : s.isIdle c = false) : s.forced stopsRunning runs c.id = runs c.id := by
  rw [forced_admitted hk hc, lock]
  split
  next hsole => rw [hf.sole hc hsole, Option.getD_some]
  next =>
    by_cases hmandatory : s.componentSeverity c.id = .mandatory
    · simp [ownLock, hmandatory, hf.mandatory c hc hmandatory]
    · have hbound : c.isIndependent = false := by simpa [isIdle, hmandatory] using hidle
      simp [ownLock, hmandatory, hbound]

theorem implements_of_isIdle {c : Component} (hidle : s.isIdle c = true) :
    c.implements = none ∧ c.dependencies = [] :=
  Component.isIndependent_iff.mp (Bool.and_eq_true_iff.mp hidle).1

theorem Feasible.forced_implementer (hk : s.catalog.Keyed) (hf : s.Feasible runs) {service : String}
    {c : Component} (hc : c ∈ s.implementers service) : s.forced stopsRunning runs c.id = runs c.id := by
  obtain ⟨hadmitted, himplements⟩ := mem_implementers.mp hc
  refine hf.forced_eq hk hadmitted (Bool.not_eq_true _ ▸ fun hidle => ?_)
  rw [(implements_of_isIdle hidle).1] at himplements
  cases himplements

theorem Feasible.isServed_forced (hk : s.catalog.Keyed) (hf : s.Feasible runs) (service : String) :
    s.isServed (s.forced stopsRunning runs) service = s.isServed runs service := by
  refine Bool.eq_iff_iff.mpr ?_
  rw [isServed_iff, isServed_iff]
  refine exists_congr fun c => and_congr_right fun hc => ?_
  rw [hf.forced_implementer hk hc]

theorem Feasible.isMet_forced (hk : s.catalog.Keyed) (hf : s.Feasible runs) (service : String) :
    s.isMet (s.forced stopsRunning runs) service = s.isMet runs service := by
  simp only [isMet, hf.isServed_forced hk]

/-! ## What the locks change -/

theorem Feasible.forced (hk : s.catalog.Keyed) (hf : s.Feasible runs) :
    s.Feasible (s.forced stopsRunning runs) where
  exclusive := by
    intro x hx c hc d hd hrc hrd
    rw [hf.forced_implementer hk hc] at hrc
    rw [hf.forced_implementer hk hd] at hrd
    exact hf.exclusive x hx c hc d hd hrc hrd
  mandatory := by
    intro c hc hmandatory
    rw [hf.forced_eq hk hc (by simp [isIdle, hmandatory])]
    exact hf.mandatory c hc hmandatory
  served := by
    intro x hx hexternal hbinding
    rw [hf.isServed_forced hk]
    exact hf.served x hx hexternal hbinding
  met := by
    intro c hc hrc d hd hbinding
    rw [hf.isMet_forced hk]
    cases hidle : s.isIdle c with
    | true =>
        rw [(implements_of_isIdle hidle).2] at hd
        cases hd
    | false =>
        rw [hf.forced_eq hk hc hidle] at hrc
        exact hf.met c hc hrc d hd hbinding

/-- The lock of an idle component takes the cheaper decision: what is eager runs for nothing, what is held costs the
same either way, and what else is lazy rests for nothing. -/
theorem ownCost_lock_le {c : Component} (hc : c ∈ s.admitted) (hidle : s.isIdle c = true) (other : String → Bool)
    (hother : other c.id = ((s.componentSeverity c.id).isEager || isHeld s stopsRunning c)) :
    s.ownCost stopsRunning other c ≤ s.ownCost stopsRunning runs c := by
  have hadmitted := severity_ne_excluded hc
  simp only [isIdle, Bool.and_eq_true, bne_iff_ne] at hidle
  obtain ⟨hindependent, hmandatory⟩ := hidle
  simp only [isHeld, hindependent] at hother
  simp only [ownCost, isUnaskedStart, isUnaskedStay, isUnwantedStop, hindependent]
  generalize s.componentSeverity c.id = severity at hadmitted hmandatory hother ⊢
  generalize s.isRunning c.id = running at hother ⊢
  generalize runs c.id = run
  rw [hother]
  cases severity <;> cases running <;> cases stopsRunning <;> cases run <;>
    first | exact absurd rfl hmandatory | exact absurd rfl hadmitted | decide

theorem lock_of_isIdle {c : Component} (hidle : s.isIdle c = true) :
    s.lock stopsRunning c = some ((s.componentSeverity c.id).isEager || isHeld s stopsRunning c) := by
  have hsole : ¬ s.isSole c = true := by
    intro hsole
    obtain ⟨x, -, -, himplements, -⟩ := isSole_iff.mp hsole
    rw [(implements_of_isIdle hidle).1] at himplements
    cases himplements
  simp only [isIdle, Bool.and_eq_true, bne_iff_ne] at hidle
  simp [lock, hsole, ownLock, hidle.1, hidle.2]

theorem Feasible.ownCost_forced_le (hk : s.catalog.Keyed) (hf : s.Feasible runs) {c : Component}
    (hc : c ∈ s.admitted) : s.ownCost stopsRunning (s.forced stopsRunning runs) c ≤ s.ownCost stopsRunning runs c := by
  cases hidle : s.isIdle c with
  | false => exact Nat.le_of_eq (ownCost_congr (hf.forced_eq hk hc hidle))
  | true =>
      refine ownCost_lock_le hc hidle _ ?_
      rw [forced_admitted hk hc, lock_of_isIdle hidle, Option.getD_some]

theorem Feasible.cost_forced_le (hk : s.catalog.Keyed) (hf : s.Feasible runs) (stopsRunning : Bool) :
    s.cost stopsRunning (s.forced stopsRunning runs) ≤ s.cost stopsRunning runs := by
  have hmissed : s.isMissed (s.forced stopsRunning runs) = s.isMissed runs := by
    funext x
    simp only [isMissed, hf.isServed_forced hk]
  have hwanting : s.isWanting (s.forced stopsRunning runs) = s.isWanting runs := by
    funext d
    simp only [isWanting, hf.isMet_forced hk]
  have hown : (s.admitted.map (s.ownCost stopsRunning (s.forced stopsRunning runs))).sum ≤
      (s.admitted.map (s.ownCost stopsRunning runs)).sum :=
    List.sum_le_sum fun c hc => hf.ownCost_forced_le hk hc
  -- An idle component depends on nothing, so that it does not matter here whether it is chosen.
  have hdependencies : 10 * ((s.admitted.filter (fun c => s.forced stopsRunning runs c.id)).map
      (fun c => c.dependencies.countP (s.isWanting runs))).sum =
      10 * ((s.admitted.filter (fun c => runs c.id)).map
        (fun c => c.dependencies.countP (s.isWanting runs))).sum := by
    rw [← sum_chosen, ← sum_chosen]
    congr 1
    refine List.map_congr_left fun c hc => ?_
    cases hidle : s.isIdle c with
    | false => rw [hf.forced_eq hk hc hidle]
    | true => simp [(implements_of_isIdle hidle).2]
  rw [cost_eq, cost_eq, hmissed, hwanting, hdependencies]
  exact Nat.add_le_add_right (Nat.add_le_add_right hown _) _

end Orchestrator.Snapshot
