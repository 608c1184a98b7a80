import Mathlib.Data.List.Nodup
import Orchestrator.Proofs.Solver.Assignment
import Orchestrator.Proofs.Solver.Choice
/-!
The problem that a snapshot poses, said over identifiers. Where the catalog files everything under its own identifier,
places stand for services one to one, so that exclusions, locks and lost services can be told without places.
-/

namespace Orchestrator

open Solver (Node Slot Problem)

namespace Snapshot

def slots (s : Snapshot) : List Slot :=
  s.catalog.serviceList.map (fun service => ⟨s.serviceSeverity service.id, service.isExternal⟩)

def isDemanded (s : Snapshot) (x : Service) : Bool := !x.isExternal && s.serviceSeverity x.id == .mandatory

/-- The component is the only one left to implement a service that has to run. -/
def isSole (s : Snapshot) (c : Component) : Bool :=
  s.catalog.serviceList.any (fun x => s.isDemanded x && c.implements == some x.id && (s.implementers x.id).length == 1)

/-- The decision on a component, where it is forced. -/
def lock (s : Snapshot) (stopsRunning : Bool) (c : Component) : Option Bool :=
  if s.isSole c then some true else Solver.ownLock s stopsRunning c

/-- A component as the search sees it, before the only implementations are locked. -/
def draft (s : Snapshot) (stopsRunning : Bool) : Component → Node :=
  Solver.node s stopsRunning s.catalog.serviceList s.slots

/-- A component as the search sees it. -/
def view (s : Snapshot) (stopsRunning : Bool) (c : Component) : Node :=
  { s.draft stopsRunning c with lock := s.lock stopsRunning c }

def problem (s : Snapshot) (stopsRunning : Bool) : Problem :=
  { nodes := s.admitted.map (s.view stopsRunning)
    slots := s.slots
    excluded := IdSet.ofList ((s.catalog.componentList.filter s.isBarred).map Component.id)
    stopsRunning := stopsRunning }

end Snapshot

namespace Solver

/-! ## Places of services -/

theorem place?_eq_none {id : String} {services : List Service} :
    place? id services = none ↔ ∀ x ∈ services, x.id ≠ id := by
  induction services with
  | nil => simp [place?]
  | cons x rest ih =>
      simp only [place?, List.mem_cons, forall_eq_or_imp, ← ih]
      cases place? id rest with
      | none => simp
      | some i => simp

theorem place?_eq_some {id : String} {services : List Service} {i : Nat}
    (h : services.Pairwise (fun a b => a.id < b.id)) :
    place? id services = some i ↔ ∃ x, services[i]? = some x ∧ x.id = id := by
  induction services generalizing i with
  | nil => simp [place?]
  | cons x rest ih =>
      have hp := List.pairwise_cons.mp h
      have hplace : ∀ j, place? id rest = some j ↔ ∃ x, rest[j]? = some x ∧ x.id = id := fun j => ih hp.2
      simp only [place?]
      cases hrest : place? id rest with
      | some j =>
          obtain ⟨y, hy, hid⟩ := (hplace j).mp hrest
          have hx : x.id ≠ id := fun heq =>
            String.lt_irrefl id (by simpa [heq, hid] using hp.1 y (List.mem_of_getElem? hy))
          cases i with
          | zero => simp [hx]
          | succ i => simp [← hplace, hrest]
      | none =>
          have hnone := place?_eq_none.mp hrest
          cases i with
          | zero => simp
          | succ i =>
              have habsent : ¬ ∃ y, rest[i]? = some y ∧ y.id = id := by
                rintro ⟨y, hy, hid⟩
                exact hnone y (List.mem_of_getElem? hy) hid
              simp only [List.getElem?_cons_succ, habsent, iff_false]
              split <;> simp

end Solver

open Solver Solver.Problem

namespace Snapshot

variable {s : Snapshot} {stopsRunning : Bool}

/-! ## From places to identifiers -/

theorem place?_eq_some (hk : s.catalog.Keyed) {id : String} {i : Nat} :
    place? id s.catalog.serviceList = some i ↔ ∃ x, s.catalog.serviceList[i]? = some x ∧ x.id = id :=
  Solver.place?_eq_some hk.services.values_ascending

/-- The slot at the place of an identifier is that of the service of this identifier. -/
theorem slot_at_place (hk : s.catalog.Keyed) (id : String) :
    (place? id s.catalog.serviceList).bind (s.slots[·]?) =
      (s.catalog.service? id).map (fun x => ⟨s.serviceSeverity x.id, x.isExternal⟩) := by
  cases hplace : place? id s.catalog.serviceList with
  | none =>
      have hnone : s.catalog.service? id = none := by
        refine Option.eq_none_iff_forall_ne_some.mpr fun x hx => ?_
        have hmem := hk.service?_eq_some.mp hx
        exact place?_eq_none.mp hplace x hmem.1 hmem.2
      rw [hnone, Option.bind_none, Option.map_none]
  | some i =>
      obtain ⟨x, hx, hid⟩ := (place?_eq_some hk).mp hplace
      have hget := hk.service?_eq_some.mpr ⟨List.mem_of_getElem? hx, hid⟩
      simp [slots, hx, hget]

theorem implemented?_eq_some (hk : s.catalog.Keyed) {c : Component} {i : Nat} {x : Service}
    (hx : s.catalog.serviceList[i]? = some x) :
    implemented? s.catalog.serviceList c = some i ↔ c.implements = some x.id := by
  simp only [implemented?, Option.bind_eq_some_iff, place?_eq_some hk, hx, Option.some.injEq]
  constructor
  · rintro ⟨id, himplements, y, rfl, rfl⟩
    exact himplements
  · intro himplements
    exact ⟨x.id, himplements, x, rfl, rfl⟩

theorem isExcluded_eq (hk : s.catalog.Keyed) (c : Component) :
    isExcluded s s.catalog.serviceList s.slots c = s.isBarred c := by
  unfold isExcluded isBarred
  congr 1
  unfold implemented? isServiceBarred
  cases c.implements with
  | none => rfl
  | some id =>
      rw [Option.bind_some, slot_at_place hk, Option.any_some]
      cases hget : s.catalog.service? id with
      | none => simp [IdMap.contains, show s.catalog.services.get? id = none from hget]
      | some x =>
          have hid := hk.services id x hget
          simp [IdMap.contains, show s.catalog.services.get? id = some x from hget, hid]

theorem mem_demandedPlaces {i : Nat} :
    i ∈ demandedPlaces s.slots ↔ ∃ x, s.catalog.serviceList[i]? = some x ∧ s.isDemanded x = true := by
  simp only [demandedPlaces, List.mem_filter, List.mem_range, Option.any_eq_true, slots, List.length_map,
    List.getElem?_map, Option.map_eq_some_iff]
  constructor
  · rintro ⟨-, -, ⟨x, hx, rfl⟩, hdemanded⟩
    exact ⟨x, hx, hdemanded⟩
  · rintro ⟨x, hx, hdemanded⟩
    exact ⟨(List.getElem?_eq_some_iff.mp hx).1, _, ⟨x, hx, rfl⟩, hdemanded⟩

/-- What holds of some demanded place holds of some demanded service, where the two say the same of a service. -/
theorem any_demandedPlaces {p : Nat → Bool} {q : Service → Bool}
    (h : ∀ i x, s.catalog.serviceList[i]? = some x → p i = q x) :
    (demandedPlaces s.slots).any p = s.catalog.serviceList.any (fun x => s.isDemanded x && q x) := by
  refine Bool.eq_iff_iff.mpr ?_
  simp only [List.any_eq_true, mem_demandedPlaces, Bool.and_eq_true]
  constructor
  · rintro ⟨i, ⟨x, hx, hdemanded⟩, hp⟩
    exact ⟨x, List.mem_of_getElem? hx, hdemanded, h i x hx ▸ hp⟩
  · rintro ⟨x, hx, hdemanded, hq⟩
    obtain ⟨i, hi⟩ := List.mem_iff_getElem?.mp hx
    exact ⟨i, ⟨x, hi, hdemanded⟩, h i x hi ▸ hq⟩

/-- The nodes at the place of a service come from the components that implement it. -/
theorem implementers_at (hk : s.catalog.Keyed) {i : Nat} {x : Service}
    (hx : s.catalog.serviceList[i]? = some x) :
    Solver.implementers (s.admitted.map (s.draft stopsRunning)) i =
      (s.implementers x.id).map (s.draft stopsRunning) := by
  unfold Solver.implementers implementers
  rw [List.filter_map]
  congr 1
  refine List.filter_congr fun c _ => Bool.eq_iff_iff.mpr ?_
  simp only [Function.comp_apply, beq_iff_eq]
  exact implemented?_eq_some hk hx

theorem lockSole_draft (hk : s.catalog.Keyed) (c : Component) :
    lockSole (s.admitted.map (s.draft stopsRunning)) s.slots (s.draft stopsRunning c) = s.view stopsRunning c := by
  have hsole : (demandedPlaces s.slots).any (fun i => (s.draft stopsRunning c).service == some i &&
      (Solver.implementers (s.admitted.map (s.draft stopsRunning)) i).length == 1) = s.isSole c := by
    rw [isSole, any_demandedPlaces (q := fun x => c.implements == some x.id && (s.implementers x.id).length == 1)]
    · simp only [Bool.and_assoc]
    · intro i x hx
      rw [implementers_at hk hx, List.length_map]
      congr 1
      refine Bool.eq_iff_iff.mpr ?_
      simp only [beq_iff_eq]
      exact implemented?_eq_some hk hx
  unfold lockSole view lock
  rw [hsole]
  split <;> rfl

/-- A snapshot poses its problem unless a service that has to run lost every implementation. -/
theorem ofSnapshot?_eq (hk : s.catalog.Keyed) :
    Problem.ofSnapshot? s stopsRunning =
      if s.catalog.serviceList.any (fun x => s.isDemanded x && (s.implementers x.id).isEmpty) then none
      else some (s.problem stopsRunning) := by
  have hposed : Problem.ofSnapshot? s stopsRunning =
      let drafts := (s.catalog.componentList.filter
        (fun c => !isExcluded s s.catalog.serviceList s.slots c)).map (s.draft stopsRunning)
      if (demandedPlaces s.slots).any (fun i => (Solver.implementers drafts i).isEmpty) then none
      else some ⟨drafts.map (lockSole drafts s.slots), s.slots, IdSet.ofList ((s.catalog.componentList.filter
        (isExcluded s s.catalog.serviceList s.slots)).map Component.id), stopsRunning⟩ := rfl
  have hexcluded : isExcluded s s.catalog.serviceList s.slots = s.isBarred := funext (isExcluded_eq hk)
  have hlost : (demandedPlaces s.slots).any (fun i =>
      (Solver.implementers (s.admitted.map (s.draft stopsRunning)) i).isEmpty) =
      s.catalog.serviceList.any (fun x => s.isDemanded x && (s.implementers x.id).isEmpty) :=
    any_demandedPlaces fun i x hx => by rw [implementers_at hk hx, List.isEmpty_map]
  have hnodes : (s.admitted.map (s.draft stopsRunning)).map
      (lockSole (s.admitted.map (s.draft stopsRunning)) s.slots) = s.admitted.map (s.view stopsRunning) := by
    rw [List.map_map]
    exact List.map_congr_left fun c _ => lockSole_draft hk c
  rw [hposed, hexcluded, ← hlost, problem, ← hnodes]
  rfl

end Snapshot

end Orchestrator
