import Mathlib.Logic.Function.Basic
import Orchestrator.Proofs.Solver.Locks
/-!
What a choice is charged. A word of 32 bits holds the cost of every choice as long as the catalog is not too large, and
then the least charge is the least cost. Where the catalog is larger, a charge says nothing of the cost.
-/

namespace Orchestrator

namespace Catalog

/-- How many things of a catalog can cost something: its components, its services and all dependencies. -/
def weight (c : Catalog) : Nat :=
  c.componentList.length + c.serviceList.length + (c.componentList.map (fun x => x.dependencies.length)).sum

/-- A word of 32 bits can pay the penalty for all of them. -/
def CostsFit (c : Catalog) : Prop := 10 * c.weight < UInt32.size

instance (c : Catalog) : Decidable c.CostsFit := inferInstanceAs (Decidable (_ < _))

end Catalog

open Solver Solver.Problem

namespace Snapshot

variable {s : Snapshot} {stopsRunning : Bool} {runs other : String → Bool} {c : Component}

/-! ## How much a choice can cost -/

/-- What a component of a certain kind costs to run or to rest, after it ran or rested. -/
def fare (stopsRunning isLazy isEager isIndependent ran run : Bool) : Nat :=
  10 * (run && !ran && isLazy).toNat + 10 * (run && isIndependent && isLazy && ran && !stopsRunning).toNat +
    10 * (!run && ran && (!stopsRunning || isEager)).toNat

theorem ownCost_eq_fare : s.ownCost stopsRunning runs c =
    fare stopsRunning (s.componentSeverity c.id).isLazy (s.componentSeverity c.id).isEager c.isIndependent
      (s.isRunning c.id) (runs c.id) := rfl

/-- A component changes in one way at most. -/
theorem fare_le : ∀ stopsRunning isLazy isEager isIndependent ran run : Bool,
    fare stopsRunning isLazy isEager isIndependent ran run ≤ 10 := by decide

theorem ownCost_le : s.ownCost stopsRunning runs c ≤ 10 := fare_le _ _ _ _ _ _

theorem sum_ownCost_le :
    (s.admitted.map (s.ownCost stopsRunning runs)).sum ≤ 10 * s.catalog.componentList.length := by
  have hsum := List.sum_le_card_nsmul (s.admitted.map (s.ownCost stopsRunning runs)) 10
    (List.forall_mem_map.mpr fun c _ => ownCost_le)
  have hadmitted : s.admitted.length ≤ s.catalog.componentList.length := List.length_filter_le _ _
  rw [List.length_map, Nat.nsmul_eq_mul] at hsum
  omega

theorem sum_wanting_le :
    ((s.admitted.filter (fun c => runs c.id)).map (fun c => c.dependencies.countP (s.isWanting runs))).sum ≤
      (s.catalog.componentList.map (fun x => x.dependencies.length)).sum := by
  have hchosen : (s.admitted.filter (fun c => runs c.id)).Sublist s.catalog.componentList :=
    List.filter_sublist.trans List.filter_sublist
  calc ((s.admitted.filter (fun c => runs c.id)).map (fun c => c.dependencies.countP (s.isWanting runs))).sum
      ≤ ((s.admitted.filter (fun c => runs c.id)).map (fun c => c.dependencies.length)).sum :=
        List.sum_le_sum fun c _ => List.countP_le_length
    _ ≤ (s.catalog.componentList.map (fun x => x.dependencies.length)).sum :=
        (hchosen.map _).sum_le_sum fun _ _ => Nat.zero_le _

/-- Nothing costs more than once. -/
theorem cost_le (s : Snapshot) (stopsRunning : Bool) (runs : String → Bool) :
    s.cost stopsRunning runs ≤ 10 * s.catalog.weight := by
  have hown : (s.admitted.map (s.ownCost stopsRunning runs)).sum ≤ 10 * s.catalog.componentList.length :=
    sum_ownCost_le
  have hmissed : s.catalog.serviceList.countP (s.isMissed runs) ≤ s.catalog.serviceList.length :=
    List.countP_le_length
  have hwanting : ((s.admitted.filter (fun c => runs c.id)).map
      (fun c => c.dependencies.countP (s.isWanting runs))).sum ≤
      (s.catalog.componentList.map (fun x => x.dependencies.length)).sum := sum_wanting_le
  rw [cost_eq, Catalog.weight]
  omega

theorem charge_eq_cost (hfits : s.catalog.CostsFit) : s.charge stopsRunning runs = s.cost stopsRunning runs :=
  Nat.mod_eq_of_lt (Nat.lt_of_le_of_lt (s.cost_le stopsRunning runs) hfits)

/-! ## The choices that the solver weighs -/

/-- A choice that decides as the locks do. -/
def KeepsLocks (s : Snapshot) (stopsRunning : Bool) (runs : String → Bool) : Prop :=
  ∀ c ∈ s.admitted, (s.lock stopsRunning c).getD (runs c.id) = runs c.id

/-- Of the choices that meet the hard constraints and keep to the locks, none is charged less. -/
structure LeastCharged (s : Snapshot) (stopsRunning : Bool) (runs : String → Bool) : Prop where
  feasible : s.Feasible runs
  locks : s.KeepsLocks stopsRunning runs
  least : ∀ other, s.Feasible other → s.KeepsLocks stopsRunning other →
    s.charge stopsRunning runs ≤ s.charge stopsRunning other

theorem keepsLocks_forced (hk : s.catalog.Keyed) : s.KeepsLocks stopsRunning (s.forced stopsRunning runs) := by
  intro c hc
  rw [forced_admitted hk hc]
  cases s.lock stopsRunning c <;> rfl

/-- While costs fit into a word, no choice at all that meets the hard constraints is cheaper. -/
theorem LeastCharged.cost_le (h : s.LeastCharged stopsRunning runs) (hk : s.catalog.Keyed)
    (hfits : s.catalog.CostsFit) (hother : s.Feasible other) :
    s.cost stopsRunning runs ≤ s.cost stopsRunning other := by
  have hleast := h.least _ (hother.forced hk) (keepsLocks_forced hk)
  rw [charge_eq_cost hfits, charge_eq_cost hfits] at hleast
  exact hleast.trans (hother.cost_forced_le hk stopsRunning)

/-- A component that is not locked may be decided in either way. -/
theorem KeepsLocks.update (h : s.KeepsLocks stopsRunning runs) (hk : s.catalog.Keyed)
    (hc : c ∈ s.catalog.componentList) (hfree : s.lock stopsRunning c = none) (run : Bool) :
    s.KeepsLocks stopsRunning (Function.update runs c.id run) := by
  intro d hd
  by_cases hsame : d.id = c.id
  · rw [hk.components.eq_of_name_eq (mem_admitted.mp hd).1 hc hsame, hfree, Option.getD_none]
  · rw [Function.update_of_ne hsame]
    exact h d hd

/-- A component that is not locked is decided in the way that is charged less, if that meets the hard constraints. -/
theorem LeastCharged.decided (h : s.LeastCharged stopsRunning runs) (hk : s.catalog.Keyed)
    (hc : c ∈ s.catalog.componentList) (hfree : s.lock stopsRunning c = none) {run : Bool}
    (hfeasible : s.Feasible (Function.update runs c.id run))
    (hless : s.charge stopsRunning (Function.update runs c.id run) <
      s.charge stopsRunning (Function.update runs c.id !run)) : runs c.id = run := by
  by_contra hne
  rw [← Bool.eq_not_of_ne hne, Function.update_eq_self] at hless
  exact Nat.not_lt.mpr (h.least _ hfeasible (h.locks.update hk hc hfree run)) hless

end Snapshot

end Orchestrator
