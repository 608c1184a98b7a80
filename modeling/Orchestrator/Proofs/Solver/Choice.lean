import Mathlib.Algebra.GroupWithZero.Nat
import Orchestrator.Proofs.Catalog
import Orchestrator.Solver.Problem
/-!
Choices: which of the components that may run are to run. What a choice must respect and what it costs is said here
over the identifiers of a snapshot, without places, locks or numbers, as the measure by which plans are judged. A
choice is a test on identifiers; of it only the admitted components count, so that choices stand for the subsets of
the admitted components. A choice is charged what a word of 32 bits keeps of its cost.
-/

namespace Orchestrator

/-- A demand of this strength cannot be left unmet. -/
def Severity.isBinding : Severity → Bool
  | .mandatory | .eagerPresent => true
  | _ => false

namespace Snapshot

/-- The component implements a service of the catalog that may not run. -/
def isServiceBarred (s : Snapshot) (c : Component) : Bool :=
  c.implements.any (fun id => s.catalog.services.contains id && (s.serviceSeverity id).isExcluded)

def isBarred (s : Snapshot) (c : Component) : Bool :=
  (s.componentSeverity c.id).isExcluded || s.isServiceBarred c

def admitted (s : Snapshot) : List Component := s.catalog.componentList.filter (fun c => !s.isBarred c)

def implementers (s : Snapshot) (service : String) : List Component :=
  s.admitted.filter (fun c => c.implements == some service)

def isServed (s : Snapshot) (runs : String → Bool) (service : String) : Bool :=
  (s.implementers service).any (fun c => runs c.id)

/-- What depends on the service can rely on it: the catalog has it, and others provide it or it is served. -/
def isMet (s : Snapshot) (runs : String → Bool) (service : String) : Bool :=
  (s.catalog.service? service).any (fun x => x.isExternal || s.isServed runs service)

/-- The hard constraints on a choice. -/
structure Feasible (s : Snapshot) (runs : String → Bool) : Prop where
  /-- A service, external or not, has at most one chosen implementation. -/
  exclusive : ∀ service ∈ s.catalog.serviceList, ∀ c ∈ s.implementers service.id, ∀ d ∈ s.implementers service.id,
    runs c.id = true → runs d.id = true → c = d
  mandatory : ∀ c ∈ s.admitted, s.componentSeverity c.id = .mandatory → runs c.id = true
  /-- A service that is governed here and demanded is served. -/
  served : ∀ service ∈ s.catalog.serviceList, service.isExternal = false →
    (s.serviceSeverity service.id).isBinding = true → s.isServed runs service.id = true
  /-- What a chosen component needs is met. -/
  met : ∀ c ∈ s.admitted, runs c.id = true → ∀ d ∈ c.dependencies, d.level.isBinding = true →
    s.isMet runs d.service = true

/-- The component is to start though nothing asks for it to run. -/
def isUnaskedStart (s : Snapshot) (runs : String → Bool) (c : Component) : Bool :=
  runs c.id && !s.isRunning c.id && (s.componentSeverity c.id).isLazy

/-- The component concerns nobody and nothing asks for it to run, but it ran and is to run on. -/
def isUnaskedStay (s : Snapshot) (stopsRunning : Bool) (runs : String → Bool) (c : Component) : Bool :=
  runs c.id && c.isIndependent && (s.componentSeverity c.id).isLazy && s.isRunning c.id && !stopsRunning

/-- The component is to stop though running components are not to stop or it is eager. -/
def isUnwantedStop (s : Snapshot) (stopsRunning : Bool) (runs : String → Bool) (c : Component) : Bool :=
  !runs c.id && s.isRunning c.id && (!stopsRunning || (s.componentSeverity c.id).isEager)

/-- The service is governed here and wanted to run, and no implementation of it is chosen. -/
def isMissed (s : Snapshot) (runs : String → Bool) (x : Service) : Bool :=
  !x.isExternal && s.serviceSeverity x.id == .eagerPassive && !s.isServed runs x.id

/-- The dependency wants something to run that is not met. -/
def isWanting (s : Snapshot) (runs : String → Bool) (d : Dependency) : Bool :=
  d.level == .eagerPassive && !s.isMet runs d.service

/-- The cost of a choice: ten for each unwanted change and each unmet preference. -/
def cost (s : Snapshot) (stopsRunning : Bool) (runs : String → Bool) : Nat :=
  10 *
    (s.admitted.countP (s.isUnaskedStart runs) + s.admitted.countP (s.isUnaskedStay stopsRunning runs) +
      s.admitted.countP (s.isUnwantedStop stopsRunning runs) + s.catalog.serviceList.countP (s.isMissed runs) +
      ((s.admitted.filter (fun c => runs c.id)).map (fun c => c.dependencies.countP (s.isWanting runs))).sum)

/-- What is left of the cost of a choice in a word of 32 bits. -/
def charge (s : Snapshot) (stopsRunning : Bool) (runs : String → Bool) : Nat :=
  s.cost stopsRunning runs % UInt32.size

variable {s : Snapshot} {stopsRunning : Bool} {runs other : String → Bool}

theorem mem_admitted {c : Component} : c ∈ s.admitted ↔ c ∈ s.catalog.componentList ∧ s.isBarred c = false := by
  simp [admitted]

theorem mem_implementers {c : Component} {service : String} :
    c ∈ s.implementers service ↔ c ∈ s.admitted ∧ c.implements = some service := by
  simp [implementers]

theorem isServed_iff {service : String} :
    s.isServed runs service = true ↔ ∃ c ∈ s.implementers service, runs c.id = true := by
  simp only [isServed, List.any_eq_true]

theorem isMet_iff {service : String} :
    s.isMet runs service = true ↔
      ∃ x, s.catalog.service? service = some x ∧ (x.isExternal = true ∨ s.isServed runs service = true) := by
  simp only [isMet, Option.any_eq_true, Bool.or_eq_true]

theorem isServiceBarred_iff {c : Component} :
    s.isServiceBarred c = true ↔ ∃ service, c.implements = some service ∧
      s.catalog.services.contains service = true ∧ s.serviceSeverity service = .excluded := by
  simp [isServiceBarred, Option.any_eq_true, Severity.isExcluded]

theorem admitted_nodup (hk : s.catalog.Keyed) : s.admitted.Nodup := hk.components.values_nodup.filter _

/-- An identifier does not stand for an admitted component and for one that may not run. -/
theorem not_barred (hk : s.catalog.Keyed) {c : Component} (hc : c ∈ s.admitted) :
    ¬ ∃ d ∈ s.catalog.componentList, d.id = c.id ∧ s.isBarred d = true := by
  rintro ⟨d, hd, hid, hbarred⟩
  obtain ⟨hlisted, hfree⟩ := mem_admitted.mp hc
  rw [hk.components.eq_of_name_eq hd hlisted hid, hfree] at hbarred
  cases hbarred

/-! ## Only what a choice says of admitted components counts -/

theorem isServed_congr (h : ∀ c ∈ s.admitted, runs c.id = other c.id) (service : String) :
    s.isServed runs service = s.isServed other service := by
  refine Bool.eq_iff_iff.mpr ?_
  rw [isServed_iff, isServed_iff]
  refine exists_congr fun c => and_congr_right fun hc => ?_
  rw [h c (mem_implementers.mp hc).1]

theorem isMet_congr (h : ∀ c ∈ s.admitted, runs c.id = other c.id) (service : String) :
    s.isMet runs service = s.isMet other service := by
  simp only [isMet, isServed_congr h]

theorem Feasible.congr (hf : s.Feasible runs) (h : ∀ c ∈ s.admitted, runs c.id = other c.id) :
    s.Feasible other where
  exclusive := by
    intro service hservice c hc d hd hrc hrd
    rw [← h c (mem_implementers.mp hc).1] at hrc
    rw [← h d (mem_implementers.mp hd).1] at hrd
    exact hf.exclusive service hservice c hc d hd hrc hrd
  mandatory := by
    intro c hc hmandatory
    rw [← h c hc]
    exact hf.mandatory c hc hmandatory
  served := by
    intro service hservice hexternal hbinding
    rw [← isServed_congr h]
    exact hf.served service hservice hexternal hbinding
  met := by
    intro c hc hrc d hd hbinding
    rw [← h c hc] at hrc
    rw [← isMet_congr h]
    exact hf.met c hc hrc d hd hbinding

theorem cost_congr (h : ∀ c ∈ s.admitted, runs c.id = other c.id) :
    s.cost stopsRunning runs = s.cost stopsRunning other := by
  have hstart : s.admitted.countP (s.isUnaskedStart runs) = s.admitted.countP (s.isUnaskedStart other) :=
    List.countP_congr fun c hc => by simp only [isUnaskedStart, h c hc]
  have hstay : s.admitted.countP (s.isUnaskedStay stopsRunning runs) =
      s.admitted.countP (s.isUnaskedStay stopsRunning other) :=
    List.countP_congr fun c hc => by simp only [isUnaskedStay, h c hc]
  have hstop : s.admitted.countP (s.isUnwantedStop stopsRunning runs) =
      s.admitted.countP (s.isUnwantedStop stopsRunning other) :=
    List.countP_congr fun c hc => by simp only [isUnwantedStop, h c hc]
  have hmissed : s.isMissed runs = s.isMissed other := by
    funext x
    simp only [isMissed, isServed_congr h]
  have hwanting : s.isWanting runs = s.isWanting other := by
    funext d
    simp only [isWanting, isMet_congr h]
  have hchosen : s.admitted.filter (fun c => runs c.id) = s.admitted.filter (fun c => other c.id) :=
    List.filter_congr h
  simp only [cost, hstart, hstay, hstop, hmissed, hwanting, hchosen]

theorem charge_congr (h : ∀ c ∈ s.admitted, runs c.id = other c.id) :
    s.charge stopsRunning runs = s.charge stopsRunning other := by
  rw [charge, charge, cost_congr h]

end Snapshot

end Orchestrator
