import Mathlib.Algebra.GroupWithZero.Nat
import Mathlib.Data.List.Nodup
import Mathlib.Data.UInt
import Orchestrator.Solver.Problem
/-!
Assignments of a problem: which numbers stand for which decisions, and the cost of an assignment as a sum over what it
decides. The costs are added one after the other with an exit at the first that is infeasible; here they become one
condition on every item and one sum.
-/

namespace Orchestrator.Solver.Problem

/-! ## Sums of costs -/

variable {α β : Type} {price : α → Option UInt32} {total k : UInt32}

theorem addUp_eq_some {l : List α} :
    addUp price l total = some k ↔
      (∀ x ∈ l, price x ≠ none) ∧ k = total + (l.map (fun x => (price x).getD 0)).sum := by
  induction l generalizing total with
  | nil => simp [addUp, eq_comm]
  | cons x rest ih =>
      cases hx : price x with
      | none => simp [addUp, hx]
      | some c => simp [addUp, hx, ih, UInt32.add_assoc]

theorem addUp_filterMap {keep : β → Option α} {l : List β} :
    addUp price (l.filterMap keep) total = addUp (fun y => (keep y).elim (some 0) price) l total := by
  induction l generalizing total with
  | nil => rfl
  | cons y rest ih =>
      cases hy : keep y with
      | none => simp [addUp, hy, ih]
      | some x => simp only [List.filterMap_cons, hy, addUp, Option.elim_some, ih]

/-- The price of a service at its place. -/
def slotCost (taken : Nat) (x : Slot × Nat) : Option UInt32 :=
  if x.1.isExternal || taken.testBit x.2 then some 0 else unmetCost x.1.severity

theorem slotsCost_eq_addUp {taken place : Nat} {slots : List Slot} :
    slotsCost taken slots place total = addUp (slotCost taken) (slots.zipIdx place) total := by
  induction slots generalizing place total with
  | nil => rfl
  | cons slot rest ih =>
      simp only [slotsCost, List.zipIdx_cons, addUp, slotCost]
      split
      · simp only [UInt32.add_zero, ih]
      · cases unmetCost slot.severity with
        | none => rfl
        | some c => exact ih

/-! ## Occupied services -/

/-- The places of the services whose implementations run, once for each implementation. -/
def places (assignment : List (Node × Bool)) : List Nat :=
  assignment.filterMap (fun a => if a.2 then a.1.service else none)

theorem testBit_take {taken i j : Nat} :
    (taken ||| 1 <<< i).testBit j = true ↔ taken.testBit j = true ∨ i = j := by
  simp [Nat.one_shiftLeft, Nat.testBit_two_pow]

theorem occupy_ne_none {assignment : List (Node × Bool)} {taken : Nat} :
    occupy assignment taken ≠ none ↔
      (places assignment).Nodup ∧ ∀ i ∈ places assignment, taken.testBit i = false := by
  induction assignment generalizing taken with
  | nil => simp [occupy, places]
  | cons a rest ih =>
      obtain ⟨n, run⟩ := a
      cases run with
      | false => simpa [occupy, places] using ih
      | true =>
          cases hservice : n.service with
          | none => simpa [occupy, places, hservice] using ih
          | some i =>
              have hplaces : places ((n, true) :: rest) = i :: places rest := by simp [places, hservice]
              rw [hplaces]
              simp only [occupy, hservice, List.nodup_cons, List.mem_cons, forall_eq_or_imp]
              cases htaken : taken.testBit i with
              | true => simp
              | false =>
                  rw [if_neg Bool.false_ne_true, ih]
                  simp only [← Bool.not_eq_true, testBit_take]
                  grind

theorem testBit_occupy {assignment : List (Node × Bool)} {taken result j : Nat}
    (h : occupy assignment taken = some result) :
    result.testBit j = true ↔ taken.testBit j = true ∨ j ∈ places assignment := by
  induction assignment generalizing taken with
  | nil =>
      cases h
      simp [places]
  | cons a rest ih =>
      obtain ⟨n, run⟩ := a
      cases run with
      | false => simpa [places] using ih h
      | true =>
          cases hservice : n.service with
          | none =>
              simp only [occupy, hservice] at h
              simpa [places, hservice] using ih h
          | some i =>
              simp only [occupy, hservice] at h
              split at h
              · cases h
              · have hplaces : places ((n, true) :: rest) = i :: places rest := by simp [places, hservice]
                rw [ih h, testBit_take, hplaces, List.mem_cons]
                grind

/-- An assignment is feasible when no service is occupied twice and nothing in it is infeasible, and then its cost is
the sum of what its decisions, the services and the dependencies cost, as far as a word holds it. -/
theorem cost?_eq_some {p : Problem} {assignment : List (Node × Bool)} {k : Nat} :
    p.cost? assignment = some k ↔ ∃ taken, occupy assignment 0 = some taken ∧
      (∀ a ∈ assignment, decisionCost p.stopsRunning a ≠ none) ∧
      (∀ x ∈ p.slots.zipIdx, slotCost taken x ≠ none) ∧ (∀ a ∈ assignment, edgesCost taken a ≠ none) ∧
      k = ((assignment.map (fun a => (decisionCost p.stopsRunning a).getD 0)).sum +
        (p.slots.zipIdx.map (fun x => (slotCost taken x).getD 0)).sum +
        (assignment.map (fun a => (edgesCost taken a).getD 0)).sum).toNat := by
  simp only [cost?, Option.bind_eq_bind, Option.bind_eq_some_iff, slotsCost_eq_addUp, addUp_eq_some, UInt32.zero_add]
  constructor
  · rintro ⟨taken, htaken, own, ⟨hown, rfl⟩, services, ⟨hservices, rfl⟩, total, ⟨hedges, rfl⟩, heq⟩
    exact ⟨taken, htaken, hown, hservices, hedges, (Option.some.inj heq).symm⟩
  · rintro ⟨taken, htaken, hown, hservices, hedges, rfl⟩
    exact ⟨taken, htaken, _, ⟨hown, rfl⟩, _, ⟨hservices, rfl⟩, _, ⟨hedges, rfl⟩, rfl⟩

/-! ## Numbers and decisions -/

/-- The decisions that respect the locks and follow a choice elsewhere. -/
def decided (nodes : List Node) (runs : String → Bool) : List (Node × Bool) :=
  nodes.map (fun n => (n, n.lock.getD (runs n.id)))

/-- Every choice among the free nodes has its number. -/
theorem exists_mask (nodes : List Node) (runs : String → Bool) :
    ∃ mask, mask < 2 ^ (nodes.filter (fun n => n.lock.isNone)).length ∧ assign nodes mask = decided nodes runs := by
  induction nodes with
  | nil => exact ⟨0, by simp, rfl⟩
  | cons n rest ih =>
      obtain ⟨mask, hlt, hassign⟩ := ih
      cases hlock : n.lock with
      | some run =>
          refine ⟨mask, by simpa [hlock] using hlt, ?_⟩
          simp [assign, decided, hlock, hassign]
      | none =>
          -- The lowest digit says whether this node changes.
          refine ⟨(n.isRunning != runs n.id).toNat + 2 * mask, ?_, ?_⟩
          · have hdigit := Bool.toNat_le (n.isRunning != runs n.id)
            simp only [List.filter_cons, hlock, Option.isNone_none, if_true, List.length_cons, Nat.pow_succ]
            omega
          · have hhigh : ((n.isRunning != runs n.id).toNat + 2 * mask) / 2 = mask := by
              have hdigit := Bool.toNat_le (n.isRunning != runs n.id)
              omega
            have hlow : ((n.isRunning != runs n.id).toNat + 2 * mask) % 2 = (n.isRunning != runs n.id).toNat := by
              have hdigit := Bool.toNat_le (n.isRunning != runs n.id)
              omega
            simp only [assign, hlock, hhigh, hlow, hassign, decided, List.map_cons, Option.getD_none]
            cases n.isRunning <;> cases runs n.id <;> rfl

theorem map_fst_assign (nodes : List Node) (mask : Nat) : (assign nodes mask).map Prod.fst = nodes := by
  induction nodes generalizing mask with
  | nil => rfl
  | cons n rest ih =>
      cases hlock : n.lock <;> simp [assign, hlock, ih]

theorem assign_lock {nodes : List Node} {mask : Nat} {a : Node × Bool} (ha : a ∈ assign nodes mask) :
    a.2 = a.1.lock.getD a.2 := by
  induction nodes generalizing mask with
  | nil => cases ha
  | cons n rest ih =>
      cases hlock : n.lock with
      | some run =>
          simp only [assign, hlock, List.mem_cons] at ha
          rcases ha with rfl | ha
          · simp [hlock]
          · exact ih ha
      | none =>
          simp only [assign, hlock, List.mem_cons] at ha
          rcases ha with rfl | ha
          · simp [hlock]
          · exact ih ha

/-- What a list of decisions says of an identifier. -/
def chosen (assignment : List (Node × Bool)) (id : String) : Bool :=
  assignment.any (fun a => a.1.id == id && a.2)

/-- Where no identifier occurs twice, decisions and choices say the same. -/
theorem eq_map_chosen {assignment : List (Node × Bool)}
    (hnodup : (assignment.map (fun a => a.1.id)).Nodup) :
    assignment = (assignment.map Prod.fst).map (fun n => (n, chosen assignment n.id)) := by
  rw [List.map_map]
  refine (List.map_id assignment).symm.trans (List.map_congr_left ?_)
  intro a ha
  have hchosen : chosen assignment a.1.id = a.2 := by
    refine Bool.eq_iff_iff.mpr ?_
    simp only [chosen, List.any_eq_true, Bool.and_eq_true, beq_iff_eq]
    constructor
    · rintro ⟨b, hb, hid, hrun⟩
      have hsame : b = a := List.inj_on_of_nodup_map hnodup hb ha hid
      rwa [← hsame]
    · intro hrun
      exact ⟨a, ha, rfl, hrun⟩
  simp [hchosen]

/-- Every number stands for the decisions of a choice that agrees with the locks. -/
theorem assign_eq_decided {nodes : List Node} (hnodup : (nodes.map Node.id).Nodup) (mask : Nat) :
    assign nodes mask = decided nodes (chosen (assign nodes mask)) := by
  have hids : ((assign nodes mask).map (fun a => a.1.id)).Nodup := by
    rw [← map_fst_assign nodes mask, List.map_map] at hnodup
    exact hnodup
  have hall := eq_map_chosen hids
  rw [map_fst_assign] at hall
  refine hall.trans (List.map_congr_left ?_)
  intro n hn
  have hmem : (n, chosen (assign nodes mask) n.id) ∈ assign nodes mask := by
    rw [hall]
    exact List.mem_map.mpr ⟨n, hn, by rw [← hall]⟩
  rw [Prod.mk.injEq]
  exact ⟨rfl, assign_lock hmem⟩

end Orchestrator.Solver.Problem
