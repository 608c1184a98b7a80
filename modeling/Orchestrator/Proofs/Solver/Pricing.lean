import Mathlib.Algebra.BigOperators.Group.List.Basic
import Mathlib.Algebra.BigOperators.Ring.List
import Mathlib.Algebra.Ring.Nat
import Mathlib.Data.List.Pairwise
import Orchestrator.Proofs.Solver.Posed
/-!
The price of a choice. The cost that the search finds for the decisions of a choice is what the choice is charged, and
it finds none exactly where the choice breaks a hard constraint.
-/

namespace Orchestrator

theorem List.countP_eq_sum {α : Type} {p : α → Bool} {l : List α} : l.countP p = (l.map (fun x => (p x).toNat)).sum := by
  induction l with
  | nil => rfl
  | cons x rest ih =>
      rw [List.countP_cons, List.map_cons, List.sum_cons, ih]
      cases p x with
      | true => exact Nat.add_comm _ _
      | false => exact (Nat.zero_add _).symm

namespace Solver.Problem

theorem unmetCost_ne_none {level : Severity} : unmetCost level ≠ none ↔ level.isBinding = false := by
  cases level <;> simp [unmetCost, Severity.isBinding]

theorem unmetCost_getD {level : Severity} :
    (unmetCost level).getD 0 = UInt32.ofNat (10 * (level == .eagerPassive).toNat) := by
  cases level <;> rfl

theorem addUp_ne_none {α : Type} {price : α → Option UInt32} {l : List α} {total : UInt32} :
    addUp price l total ≠ none ↔ ∀ x ∈ l, price x ≠ none := by
  rw [Option.ne_none_iff_exists']
  simp [addUp_eq_some]

theorem addUp_getD {α : Type} {price : α → Option UInt32} {l : List α} {total : UInt32}
    (h : ∀ x ∈ l, price x ≠ none) :
    (addUp price l total).getD 0 = total + (l.map (fun x => (price x).getD 0)).sum := by
  rw [addUp_eq_some.mpr ⟨h, rfl⟩, Option.getD_some]

/-- Words add up to the word of the sum. -/
theorem sum_words {α : Type} {g : α → Nat} {l : List α} :
    (l.map (fun x => UInt32.ofNat (g x))).sum = UInt32.ofNat (l.map g).sum := by
  induction l with
  | nil => rfl
  | cons x rest ih => rw [List.map_cons, List.map_cons, List.sum_cons, List.sum_cons, ih, UInt32.ofNat_add]

theorem sum_chosen {α : Type} {p : α → Bool} {g : α → Nat} {k : Nat} {l : List α} :
    (l.map (fun x => if p x then k * g x else 0)).sum = k * ((l.filter p).map g).sum := by
  induction l with
  | nil => rfl
  | cons x rest ih =>
      cases hx : p x with
      | true => simp [hx, ih, Nat.mul_add]
      | false => simp [hx, ih]

theorem sum_penalties {α : Type} {p : α → Bool} {k : Nat} {l : List α} :
    (l.map (fun x => k * (p x).toNat)).sum = k * l.countP p := by
  rw [List.sum_map_mul_left, List.countP_eq_sum]

end Solver.Problem

open Solver Solver.Problem

namespace Snapshot

variable {s : Snapshot} {stopsRunning : Bool} {runs : String → Bool}

def decisions (s : Snapshot) (stopsRunning : Bool) (runs : String → Bool) : List (Node × Bool) :=
  s.admitted.map (fun c => (s.view stopsRunning c, runs c.id))

/-! ## Occupied places -/

theorem places_decisions :
    places (s.decisions stopsRunning runs) =
      s.admitted.filterMap (fun c => if runs c.id then implemented? s.catalog.serviceList c else none) := by
  rw [places, decisions, List.filterMap_map]
  rfl

theorem mem_places (hk : s.catalog.Keyed) {i : Nat} {x : Service} (hx : s.catalog.serviceList[i]? = some x) :
    i ∈ places (s.decisions stopsRunning runs) ↔ s.isServed runs x.id = true := by
  rw [places_decisions, List.mem_filterMap, isServed_iff]
  constructor
  · rintro ⟨c, hc, hplace⟩
    split at hplace
    next hrun => exact ⟨c, mem_implementers.mpr ⟨hc, (implemented?_eq_some hk hx).mp hplace⟩, hrun⟩
    next => cases hplace
  · rintro ⟨c, hc, hrun⟩
    obtain ⟨hadmitted, himplements⟩ := mem_implementers.mp hc
    exact ⟨c, hadmitted, by rw [if_pos hrun, implemented?_eq_some hk hx, himplements]⟩

/-- No place is taken twice exactly where no service has two chosen implementations. -/
theorem places_nodup (hk : s.catalog.Keyed) :
    (places (s.decisions stopsRunning runs)).Nodup ↔
      ∀ service ∈ s.catalog.serviceList, ∀ c ∈ s.implementers service.id, ∀ d ∈ s.implementers service.id,
        runs c.id = true → runs d.id = true → c = d := by
  rw [places_decisions, List.Nodup, List.pairwise_filterMap]
  constructor
  · intro h x hx c hc d hd hrc hrd
    obtain ⟨i, hi⟩ := List.mem_iff_getElem?.mp hx
    obtain ⟨hc, hcx⟩ := mem_implementers.mp hc
    obtain ⟨hd, hdx⟩ := mem_implementers.mp hd
    by_contra hne
    have hsymm : Std.Symm (fun c d : Component =>
        ∀ i, (if runs c.id then implemented? s.catalog.serviceList c else none) = some i →
          ∀ j, (if runs d.id then implemented? s.catalog.serviceList d else none) = some j → i ≠ j) :=
      ⟨fun c d h j hj i hi heq => h i hi j hj heq.symm⟩
    refine h.forall hc hd hne i ?_ i ?_ rfl
    · rw [if_pos hrc, implemented?_eq_some hk hi, hcx]
    · rw [if_pos hrd, implemented?_eq_some hk hi, hdx]
  · intro h
    refine (admitted_nodup hk).pairwise_of_forall_ne fun c hc d hd hne i hci j hdj heq => hne ?_
    subst heq
    split at hci
    next hrc =>
      split at hdj
      next hrd =>
        obtain ⟨service, hcs, hplace⟩ := Option.bind_eq_some_iff.mp hci
        obtain ⟨x, hx, rfl⟩ := (place?_eq_some hk).mp hplace
        have hdx := (implemented?_eq_some hk hx).mp hdj
        exact h x (List.mem_of_getElem? hx) c (mem_implementers.mpr ⟨hc, hcs⟩) d (mem_implementers.mpr ⟨hd, hdx⟩)
          hrc hrd
      next => cases hdj
    next => cases hci

/-! ## The price of a decision -/

theorem decisionCost_ne_none {n : Node} {run : Bool} :
    decisionCost stopsRunning (n, run) ≠ none ↔ (n.severity = .mandatory → run = true) := by
  obtain ⟨id, severity, running, service, edges, held, lock⟩ := n
  cases run with
  | true =>
      simp only [decisionCost]
      split <;> simp
  | false => cases severity <;> simp [decisionCost] <;> split <;> simp

theorem severity_ne_excluded {c : Component} (hc : c ∈ s.admitted) : s.componentSeverity c.id ≠ .excluded := by
  intro hexcluded
  have hbarred := (mem_admitted.mp hc).2
  simp [isBarred, hexcluded, Severity.isExcluded] at hbarred

/-- What a choice costs one component by itself. -/
def ownCost (s : Snapshot) (stopsRunning : Bool) (runs : String → Bool) (c : Component) : Nat :=
  10 * (s.isUnaskedStart runs c).toNat + 10 * (s.isUnaskedStay stopsRunning runs c).toNat +
    10 * (s.isUnwantedStop stopsRunning runs c).toNat

theorem ownCost_congr {other : String → Bool} {c : Component} (h : runs c.id = other c.id) :
    s.ownCost stopsRunning runs c = s.ownCost stopsRunning other c := by
  simp only [ownCost, isUnaskedStart, isUnaskedStay, isUnwantedStop, h]

theorem decisionCost_getD {c : Component} (hc : c ∈ s.admitted)
    (h : s.componentSeverity c.id = .mandatory → runs c.id = true) :
    (decisionCost stopsRunning (s.view stopsRunning c, runs c.id)).getD 0 =
      UInt32.ofNat (s.ownCost stopsRunning runs c) := by
  have hadmitted := severity_ne_excluded hc
  have hheld : (s.view stopsRunning c).isHeld = isHeld s stopsRunning c := rfl
  have hseverity : (s.view stopsRunning c).severity = s.componentSeverity c.id := rfl
  have hrunning : (s.view stopsRunning c).isRunning = s.isRunning c.id := rfl
  unfold isHeld at hheld
  unfold ownCost isUnaskedStart isUnaskedStay isUnwantedStop
  rw [← hseverity] at hadmitted h hheld ⊢
  rw [← hrunning] at hheld ⊢
  -- From here on only the node and the decision matter.
  generalize s.view stopsRunning c = n at hadmitted h hheld ⊢
  generalize runs c.id = run at h ⊢
  generalize c.isIndependent = isIndependent at hheld ⊢
  obtain ⟨id, severity, running, service, edges, held, lock⟩ := n
  simp only at hheld hadmitted h ⊢
  subst hheld
  cases severity <;> cases run <;>
    first
      | exact absurd rfl hadmitted
      | exact absurd (h rfl) Bool.false_ne_true
      | cases running <;> cases stopsRunning <;> cases isIndependent <;> rfl

/-! ## The price of services and dependencies -/

section Occupied

variable {taken : Nat} (hk : s.catalog.Keyed) (htaken : occupy (s.decisions stopsRunning runs) 0 = some taken)

include hk htaken

/-- The taken places are those of the services that are served. -/
theorem testBit_taken {i : Nat} {x : Service} (hx : s.catalog.serviceList[i]? = some x) :
    taken.testBit i = s.isServed runs x.id := by
  refine Bool.eq_iff_iff.mpr ?_
  rw [testBit_occupy htaken, mem_places hk hx, Nat.zero_testBit]
  simp

theorem slotCost_taken {i : Nat} {x : Service} (hx : s.catalog.serviceList[i]? = some x) :
    slotCost taken (⟨s.serviceSeverity x.id, x.isExternal⟩, i) =
      if x.isExternal || s.isServed runs x.id then some 0 else unmetCost (s.serviceSeverity x.id) := by
  rw [slotCost, testBit_taken hk htaken hx]

/-- The price of a dependency is that of a need that is met or not. -/
theorem edgeCost_taken (d : Dependency) :
    (edge? s.catalog.serviceList s.slots d).elim (some 0) (edgeCost taken) =
      if s.isMet runs d.service then some 0 else unmetCost d.level := by
  cases hplace : place? d.service s.catalog.serviceList with
  | none =>
      have hslot := slot_at_place hk d.service
      rw [hplace, Option.bind_none] at hslot
      have hnone : s.catalog.service? d.service = none := Option.map_eq_none_iff.mp hslot.symm
      simp [edge?, hplace, edgeCost, isMet, hnone]
  | some i =>
      obtain ⟨x, hx, hid⟩ := (place?_eq_some hk).mp hplace
      have hget := hk.service?_eq_some.mpr ⟨List.mem_of_getElem? hx, hid⟩
      have hslot : s.slots[i]? = some ⟨s.serviceSeverity x.id, x.isExternal⟩ := by simp [slots, hx]
      have hbit := testBit_taken hk htaken hx
      rw [hid] at hbit
      cases hexternal : x.isExternal with
      | true => simp [edge?, hplace, hslot, isMet, hget, hexternal]
      | false => simp [edge?, hplace, hslot, isMet, hget, hexternal, edgeCost, hbit]

theorem edgesCost_view (c : Component) :
    edgesCost taken (s.view stopsRunning c, true) =
      addUp (fun d => if s.isMet runs d.service then some 0 else unmetCost d.level) c.dependencies 0 := by
  have hedges : (s.view stopsRunning c).edges = c.dependencies.filterMap (edge? s.catalog.serviceList s.slots) := rfl
  rw [edgesCost, hedges, addUp_filterMap]
  congr 1
  exact funext (edgeCost_taken hk htaken)

end Occupied

/-! ## The cost of a choice -/

theorem getD_ite {b : Bool} {o : Option UInt32} : (if b then some 0 else o).getD 0 = if b then 0 else o.getD 0 := by
  cases b <;> rfl

/-- The cost of a choice, told component by component. -/
theorem cost_eq (s : Snapshot) (stopsRunning : Bool) (runs : String → Bool) :
    s.cost stopsRunning runs = (s.admitted.map (s.ownCost stopsRunning runs)).sum +
      10 * s.catalog.serviceList.countP (s.isMissed runs) +
      10 * ((s.admitted.filter (fun c => runs c.id)).map
        (fun c => c.dependencies.countP (s.isWanting runs))).sum := by
  have hown : (s.admitted.map (s.ownCost stopsRunning runs)).sum =
      10 * s.admitted.countP (s.isUnaskedStart runs) +
        10 * s.admitted.countP (s.isUnaskedStay stopsRunning runs) +
        10 * s.admitted.countP (s.isUnwantedStop stopsRunning runs) := by
    unfold ownCost
    rw [List.sum_map_add, List.sum_map_add, sum_penalties, sum_penalties, sum_penalties]
  rw [hown, cost]
  simp only [Nat.mul_add]

theorem sum_decisions (hmandatory : ∀ c ∈ s.admitted, s.componentSeverity c.id = .mandatory → runs c.id = true) :
    ((s.decisions stopsRunning runs).map (fun a => (decisionCost stopsRunning a).getD 0)).sum =
      UInt32.ofNat (s.admitted.map (s.ownCost stopsRunning runs)).sum := by
  rw [decisions, List.map_map, ← sum_words]
  congr 1
  exact List.map_congr_left fun c hc => decisionCost_getD hc (hmandatory c hc)

theorem sum_slots {taken : Nat} (hk : s.catalog.Keyed)
    (htaken : occupy (s.decisions stopsRunning runs) 0 = some taken) :
    (s.slots.zipIdx.map (fun x => (slotCost taken x).getD 0)).sum =
      UInt32.ofNat (10 * s.catalog.serviceList.countP (s.isMissed runs)) := by
  have hprice : ∀ x ∈ s.catalog.serviceList.zipIdx,
      (slotCost taken (⟨s.serviceSeverity x.1.id, x.1.isExternal⟩, x.2)).getD 0 =
        UInt32.ofNat (10 * (s.isMissed runs x.1).toNat) := by
    intro x hx
    rw [slotCost_taken hk htaken (List.mem_zipIdx_iff_getElem?.mp hx), getD_ite, unmetCost_getD, isMissed]
    cases x.1.isExternal <;> cases s.isServed runs x.1.id <;> simp
  rw [slots, List.zipIdx_map, List.map_map, ← sum_penalties, ← sum_words]
  congr 1
  refine (List.map_congr_left hprice).trans ?_
  rw [← List.zipIdx_map_fst 0 s.catalog.serviceList, List.map_map, List.zipIdx_map_fst]
  rfl

theorem sum_edges {taken : Nat} (hk : s.catalog.Keyed)
    (htaken : occupy (s.decisions stopsRunning runs) 0 = some taken)
    (hmet : ∀ c ∈ s.admitted, runs c.id = true → ∀ d ∈ c.dependencies, d.level.isBinding = true →
      s.isMet runs d.service = true) :
    ((s.decisions stopsRunning runs).map (fun a => (edgesCost taken a).getD 0)).sum =
      UInt32.ofNat (10 * ((s.admitted.filter (fun c => runs c.id)).map
        (fun c => c.dependencies.countP (s.isWanting runs))).sum) := by
  rw [decisions, List.map_map, ← sum_chosen, ← sum_words]
  congr 1
  refine List.map_congr_left fun c hc => ?_
  simp only [Function.comp_apply]
  cases hrun : runs c.id with
  | false => rfl
  | true =>
      have hprices : ∀ d ∈ c.dependencies, (if s.isMet runs d.service then some 0 else unmetCost d.level) ≠ none := by
        intro d hd
        cases hneed : s.isMet runs d.service with
        | true => simp
        | false =>
            rw [if_neg Bool.false_ne_true, unmetCost_ne_none, ← Bool.not_eq_true]
            intro hbinding
            rw [hmet c hc hrun d hd hbinding] at hneed
            cases hneed
      rw [edgesCost_view hk htaken, addUp_getD hprices, UInt32.zero_add, if_pos rfl, ← sum_penalties, ← sum_words]
      congr 1
      refine List.map_congr_left fun d _ => ?_
      rw [getD_ite, unmetCost_getD, isWanting]
      cases s.isMet runs d.service <;> simp

theorem slots_priced {taken : Nat} (hk : s.catalog.Keyed)
    (htaken : occupy (s.decisions stopsRunning runs) 0 = some taken) :
    (∀ x ∈ s.slots.zipIdx, slotCost taken x ≠ none) ↔
      ∀ x ∈ s.catalog.serviceList, x.isExternal = false → (s.serviceSeverity x.id).isBinding = true →
        s.isServed runs x.id = true := by
  have hprice : ∀ x i, s.catalog.serviceList[i]? = some x →
      (slotCost taken (⟨s.serviceSeverity x.id, x.isExternal⟩, i) ≠ none ↔
        (x.isExternal = false → (s.serviceSeverity x.id).isBinding = true → s.isServed runs x.id = true)) := by
    intro x i hx
    rw [slotCost_taken hk htaken hx]
    cases x.isExternal <;> cases s.isServed runs x.id <;> simp [unmetCost_ne_none]
  rw [slots, List.zipIdx_map, List.forall_mem_map]
  constructor
  · intro h x hx
    obtain ⟨i, hi⟩ := List.mem_iff_getElem?.mp hx
    exact (hprice x i hi).mp (h (x, i) (List.mem_zipIdx_iff_getElem?.mpr hi))
  · rintro h ⟨x, i⟩ hx
    have hi := List.mem_zipIdx_iff_getElem?.mp hx
    exact (hprice x i hi).mpr (h x (List.mem_of_getElem? hi))

theorem edges_priced {taken : Nat} (hk : s.catalog.Keyed)
    (htaken : occupy (s.decisions stopsRunning runs) 0 = some taken) :
    (∀ a ∈ s.decisions stopsRunning runs, edgesCost taken a ≠ none) ↔
      ∀ c ∈ s.admitted, runs c.id = true → ∀ d ∈ c.dependencies, d.level.isBinding = true →
        s.isMet runs d.service = true := by
  rw [decisions, List.forall_mem_map]
  refine forall₂_congr fun c _ => ?_
  cases hrun : runs c.id with
  | false => simp [edgesCost]
  | true =>
      rw [edgesCost_view hk htaken, addUp_ne_none]
      simp only [true_implies]
      refine forall₂_congr fun d _ => ?_
      cases s.isMet runs d.service <;> simp [unmetCost_ne_none]

theorem sums_eq_charge {taken : Nat} (hk : s.catalog.Keyed)
    (htaken : occupy (s.decisions stopsRunning runs) 0 = some taken) (hf : s.Feasible runs) :
    (((s.decisions stopsRunning runs).map (fun a => (decisionCost stopsRunning a).getD 0)).sum +
        (s.slots.zipIdx.map (fun x => (slotCost taken x).getD 0)).sum +
        ((s.decisions stopsRunning runs).map (fun a => (edgesCost taken a).getD 0)).sum).toNat =
      s.charge stopsRunning runs := by
  rw [sum_decisions hf.mandatory, sum_slots hk htaken, sum_edges hk htaken hf.met, ← UInt32.ofNat_add,
    ← UInt32.ofNat_add, ← cost_eq, UInt32.toNat_ofNat', charge]

/-- The search finds a cost for the decisions of a choice exactly if the choice is feasible, and then it is what the
choice is charged. -/
theorem cost?_decisions (hk : s.catalog.Keyed) {k : Nat} :
    (s.problem stopsRunning).cost? (s.decisions stopsRunning runs) = some k ↔
      s.Feasible runs ∧ k = s.charge stopsRunning runs := by
  rw [cost?_eq_some]
  constructor
  · rintro ⟨taken, htaken, hown, hslots, hedges, rfl⟩
    have hoccupied : occupy (s.decisions stopsRunning runs) 0 ≠ none := by
      rw [htaken]
      exact Option.some_ne_none taken
    have hf : s.Feasible runs :=
      { exclusive := (places_nodup hk).mp (occupy_ne_none.mp hoccupied).1
        mandatory := fun c hc => decisionCost_ne_none.mp (hown _ (List.mem_map_of_mem hc))
        served := (slots_priced hk htaken).mp hslots
        met := (edges_priced hk htaken).mp hedges }
    exact ⟨hf, sums_eq_charge hk htaken hf⟩
  · rintro ⟨hf, rfl⟩
    have hoccupied : occupy (s.decisions stopsRunning runs) 0 ≠ none :=
      occupy_ne_none.mpr ⟨(places_nodup hk).mpr hf.exclusive, fun i _ => Nat.zero_testBit i⟩
    obtain ⟨taken, htaken⟩ := Option.ne_none_iff_exists'.mp hoccupied
    have hown : ∀ a ∈ s.decisions stopsRunning runs, decisionCost stopsRunning a ≠ none :=
      List.forall_mem_map.mpr fun c hc => decisionCost_ne_none.mpr (hf.mandatory c hc)
    exact ⟨taken, htaken, hown, (slots_priced hk htaken).mpr hf.served, (edges_priced hk htaken).mpr hf.met,
      (sums_eq_charge hk htaken hf).symm⟩

end Snapshot

end Orchestrator
