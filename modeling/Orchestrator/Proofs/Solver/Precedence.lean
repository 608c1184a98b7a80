import Orchestrator.Proofs.Solver.FixedPoint
/-!
Which of the choices that are charged least the solver takes. A number has one digit for each free component and the
last component has the highest, so that of two choices the smaller number belongs to the one that leaves unchanged the
last component on which they differ. With that the answer is described without numbers: of the choices that keep to the
locks and are charged least, it is the one that precedes all others.
-/

namespace Orchestrator

open Solver Solver.Problem

namespace Solver

/-- Of the last identifier on which two choices differ, the first says what was before and the second does not. -/
def Precedes (before runs other : String → Bool) : List String → Prop
  | [] => False
  | id :: rest =>
    Precedes before runs other rest ∨
      ((∀ x ∈ rest, runs x = other x) ∧ runs id = before id ∧ other id ≠ before id)

variable {before runs other : String → Bool} {l : List String}

theorem not_precedes_of_eq (h : ∀ x ∈ l, runs x = other x) : ¬ Precedes before runs other l := by
  induction l with
  | nil => exact not_false
  | cons id rest ih =>
      rintro (hrest | ⟨-, hkeeps, hchanges⟩)
      · exact ih (fun x hx => h x (List.mem_cons_of_mem id hx)) hrest
      · exact hchanges (h id List.mem_cons_self ▸ hkeeps)

theorem Precedes.congr {runs' : String → Bool} (h : Precedes before runs other l) (hsame : ∀ x ∈ l, runs x = runs' x) :
    Precedes before runs' other l := by
  induction l with
  | nil => exact h
  | cons id rest ih =>
      obtain ⟨hid, hrest⟩ := List.forall_mem_cons.mp hsame
      rcases h with h | ⟨hagree, hkeeps, hchanges⟩
      · exact .inl (ih h hrest)
      · exact .inr ⟨fun x hx => hrest x hx ▸ hagree x hx, hid ▸ hkeeps, hchanges⟩

/-- A choice that on each of two parts agrees with another or precedes it does so on the whole, however the parts are
mingled. -/
theorem eq_or_precedes_of_parts (p : String → Bool)
    (hin : (∀ x ∈ l.filter p, runs x = other x) ∨ Precedes before runs other (l.filter p))
    (hout : (∀ x ∈ l.filter (!p ·), runs x = other x) ∨ Precedes before runs other (l.filter (!p ·))) :
    (∀ x ∈ l, runs x = other x) ∨ Precedes before runs other l := by
  -- The part of the first identifier is the one that matters; the other part has the same members without it.
  have hstep : ∀ (id : String) (rest part : List String), (∀ x ∈ part, x ∈ rest) →
      ((∀ x ∈ part, runs x = other x) ∨ Precedes before runs other part →
        (∀ x ∈ rest, runs x = other x) ∨ Precedes before runs other rest) →
      (∀ x ∈ id :: part, runs x = other x) ∨ Precedes before runs other (id :: part) →
      (∀ x ∈ id :: rest, runs x = other x) ∨ Precedes before runs other (id :: rest) := by
    intro id rest part hsub hrest hpart
    rcases hpart with hsame | hbefore | ⟨hsame, hkeeps, hchanges⟩
    · obtain ⟨hid, hsame⟩ := List.forall_mem_cons.mp hsame
      exact (hrest (.inl hsame)).imp (fun h => List.forall_mem_cons.mpr ⟨hid, h⟩) .inl
    · rcases hrest (.inr hbefore) with hsame | hbefore'
      · exact absurd hbefore (not_precedes_of_eq fun x hx => hsame x (hsub x hx))
      · exact .inr (.inl hbefore')
    · exact .inr ((hrest (.inl hsame)).elim (fun h => .inr ⟨h, hkeeps, hchanges⟩) .inl)
  induction l with
  | nil => exact .inl (by simp)
  | cons id rest ih =>
      cases hp : p id with
      | true =>
          rw [List.filter_cons_of_pos hp] at hin
          rw [List.filter_cons_of_neg (by simp [hp])] at hout
          exact hstep id rest _ (fun x hx => List.mem_of_mem_filter hx) (fun h => ih h hout) hin
      | false =>
          rw [List.filter_cons_of_neg (by simp [hp])] at hin
          rw [List.filter_cons_of_pos (by simp [hp])] at hout
          exact hstep id rest _ (fun x hx => List.mem_of_mem_filter hx) (fun h => ih hin h) hout

/-- Numbers are ordered as the choices that they stand for. -/
theorem lt_iff_precedes {nodes : List Node} {m m' : Nat} (hbefore : ∀ n ∈ nodes, n.isRunning = before n.id)
    (hm : m < 2 ^ (nodes.filter (fun n => n.lock.isNone)).length)
    (hm' : m' < 2 ^ (nodes.filter (fun n => n.lock.isNone)).length)
    (hassign : assign nodes m = nodes.map (fun n => (n, runs n.id)))
    (hassign' : assign nodes m' = nodes.map (fun n => (n, other n.id))) :
    m < m' ↔ Precedes before runs other (nodes.map Node.id) := by
  induction nodes generalizing m m' runs other with
  | nil =>
      simp only [List.filter_nil, List.length_nil, Nat.pow_zero] at hm hm'
      exact iff_of_false (by omega) not_false
  | cons n rest ih =>
      have hrest : ∀ n ∈ rest, n.isRunning = before n.id := fun n hn => hbefore n (List.mem_cons_of_mem _ hn)
      simp only [List.map_cons, Precedes, List.forall_mem_map]
      cases hlock : n.lock with
      | some run =>
          simp only [assign, hlock, List.map_cons, List.cons.injEq, Prod.mk.injEq, true_and] at hassign hassign'
          simp only [List.filter_cons, hlock, Option.isNone_some, Bool.false_eq_true, if_false] at hm hm'
          have hsame : runs n.id = other n.id := hassign.1.symm.trans hassign'.1
          rw [ih hrest hm hm' hassign.2 hassign'.2]
          refine (or_iff_left ?_).symm
          rintro ⟨-, hkeeps, hchanges⟩
          exact hchanges (hsame ▸ hkeeps)
      | none =>
          simp only [assign, hlock, List.map_cons, List.cons.injEq, Prod.mk.injEq, true_and] at hassign hassign'
          simp only [List.filter_cons, hlock, Option.isNone_none, if_true, List.length_cons, Nat.pow_succ] at hm hm'
          obtain ⟨hdigit, hhigh⟩ := hassign
          obtain ⟨hdigit', hhigh'⟩ := hassign'
          have hlt := ih hrest (by omega) (by omega) hhigh hhigh'
          have hgt := ih hrest (by omega) (by omega) hhigh' hhigh
          have heq : m / 2 = m' / 2 ↔ ∀ n ∈ rest, runs n.id = other n.id := by
            constructor
            · intro heq
              rw [heq, hhigh'] at hhigh
              intro n hn
              exact (Prod.mk.inj (List.map_inj_left.mp hhigh n hn)).2.symm
            · intro hsame
              have hnot := hlt.not.mpr (not_precedes_of_eq (List.forall_mem_map.mpr hsame))
              have hnot' := hgt.not.mpr (not_precedes_of_eq (List.forall_mem_map.mpr fun n hn => (hsame n hn).symm))
              omega
          rw [← hlt, ← heq, ← hbefore n List.mem_cons_self, ← hdigit, ← hdigit']
          have hlow := Nat.mod_two_eq_zero_or_one m
          have hlow' := Nat.mod_two_eq_zero_or_one m'
          cases n.isRunning <;> rcases hlow with hlow | hlow <;> rcases hlow' with hlow' | hlow' <;>
            simp [hlow, hlow'] <;> omega

end Solver

namespace Snapshot

variable {s : Snapshot} {stopsRunning : Bool} {runs other : String → Bool}

def Precedes (s : Snapshot) (runs other : String → Bool) : Prop :=
  Solver.Precedes s.isRunning runs other (s.admitted.map Component.id)

/-- The choice that the solver takes. -/
structure Preferred (s : Snapshot) (stopsRunning : Bool) (runs : String → Bool) : Prop where
  leastCharged : s.LeastCharged stopsRunning runs
  first : ∀ other, s.LeastCharged stopsRunning other →
    (∀ c ∈ s.admitted, runs c.id = other c.id) ∨ s.Precedes runs other

theorem decisions_eq_map : s.decisions stopsRunning runs =
    (s.problem stopsRunning).nodes.map (fun n => (n, runs n.id)) := by
  rw [decisions, problem, List.map_map]
  rfl

/-- Of two numbers the smaller belongs to the choice that precedes. -/
theorem mask_lt_iff {mask mask' : Nat} (hlt : mask < 2 ^ (s.problem stopsRunning).free)
    (hlt' : mask' < 2 ^ (s.problem stopsRunning).free)
    (hassign : assign (s.problem stopsRunning).nodes mask = s.decisions stopsRunning runs)
    (hassign' : assign (s.problem stopsRunning).nodes mask' = s.decisions stopsRunning other) :
    mask < mask' ↔ s.Precedes runs other := by
  have hids : (s.problem stopsRunning).nodes.map Node.id = s.admitted.map Component.id := by
    rw [problem, List.map_map]
    rfl
  rw [Precedes, ← hids]
  rw [decisions_eq_map] at hassign hassign'
  refine lt_iff_precedes ?_ hlt hlt' hassign hassign'
  intro n hn
  obtain ⟨c, -, rfl⟩ := List.mem_map.mp hn
  rfl

theorem decisions_inj : s.decisions stopsRunning runs = s.decisions stopsRunning other ↔
    ∀ c ∈ s.admitted, runs c.id = other c.id := by
  rw [decisions, decisions, List.map_inj_left]
  simp

/-- The search finds the number of the preferred choice. -/
theorem Preferred.search (hk : s.catalog.Keyed) (h : s.Preferred stopsRunning runs) (options : SolverOptions) :
    ∃ mask, (s.problem stopsRunning).search options = some ⟨s.charge stopsRunning runs, mask⟩ ∧
      assign (s.problem stopsRunning).nodes mask = s.decisions stopsRunning runs := by
  obtain ⟨hf, hlocks, hleast⟩ := h.leastCharged
  obtain ⟨mask, hlt, hassign⟩ := hlocks.exists_mask hk
  have hcost : (s.problem stopsRunning).maskCost? mask = some (s.charge stopsRunning runs) := by
    rw [maskCost?, hassign, cost?_decisions hk]
    exact ⟨hf, rfl⟩
  refine ⟨mask, ((s.problem stopsRunning).search_isLeast options).unique ⟨⟨Nat.zero_le mask, hlt, hcost⟩, ?_⟩, hassign⟩
  intro mask' cost _ hlt' hmask'
  obtain ⟨other, hassign', hfeasible, rfl⟩ := exists_choice hk hmask'
  have hlocks' := keepsLocks_of_assign hassign'
  refine (Nat.lt_or_eq_of_le (hleast other hfeasible hlocks')).imp_right fun heq => ⟨heq, ?_⟩
  have hother : s.LeastCharged stopsRunning other :=
    ⟨hfeasible, hlocks', fun rival hrival hkept => heq ▸ hleast rival hrival hkept⟩
  rcases h.first other hother with hsame | hprecedes
  · refine Nat.not_lt.mp fun hless => ?_
    have hids : ∀ x ∈ s.admitted.map Component.id, other x = runs x :=
      List.forall_mem_map.mpr fun c hc => (hsame c hc).symm
    exact not_precedes_of_eq hids ((mask_lt_iff hlt' hlt hassign' hassign).mp hless)
  · exact Nat.le_of_lt ((mask_lt_iff hlt hlt' hassign hassign').mpr hprecedes)

/-- What the search finds is the number of the preferred choice. -/
theorem preferred_of_search (hk : s.catalog.Keyed) {options : SolverOptions} {best : Candidate}
    (hbest : (s.problem stopsRunning).search options = some best) :
    ∃ runs, s.Preferred stopsRunning runs ∧
      assign (s.problem stopsRunning).nodes best.mask = s.decisions stopsRunning runs ∧
      best.cost = s.charge stopsRunning runs := by
  obtain ⟨runs, hleastCharged, hassign, hcost⟩ := search_choice hk hbest
  have hleast := (s.problem stopsRunning).search_isLeast options
  rw [hbest] at hleast
  obtain ⟨⟨-, hlt, -⟩, hfirst⟩ := hleast
  refine ⟨runs, ⟨hleastCharged, ?_⟩, hassign, hcost⟩
  intro other hother
  obtain ⟨mask, hlt', hassign'⟩ := hother.locks.exists_mask hk
  have hmask : (s.problem stopsRunning).maskCost? mask = some (s.charge stopsRunning other) := by
    rw [maskCost?, hassign', cost?_decisions hk]
    exact ⟨hother.feasible, rfl⟩
  have hsame : s.charge stopsRunning other = best.cost := by
    have := hleastCharged.least other hother.feasible hother.locks
    have := hother.least runs hleastCharged.feasible hleastCharged.locks
    omega
  have hle : best.mask ≤ mask := by
    have := hfirst mask _ (Nat.zero_le mask) hlt' hmask
    omega
  rcases Nat.lt_or_eq_of_le hle with hless | heq
  · exact .inr ((mask_lt_iff hlt hlt' hassign hassign').mp hless)
  · rw [heq, hassign'] at hassign
    exact .inl fun c hc => (decisions_inj.mp hassign c hc).symm

/-- The solver takes the preferred choice, if it is asked and not asked too much. -/
theorem solve_eq_ready_iff_preferred (hk : s.catalog.Keyed) {options : SolverOptions} {p : Steps} :
    solve s stopsRunning options = .ok (.ready p) ↔
      s.catalog.serviceList.any (fun x => s.isDemanded x && (s.implementers x.id).isEmpty) = false ∧
        (s.problem stopsRunning).free ≤ options.limit ∧
        ∃ runs, s.Preferred stopsRunning runs ∧ p = s.stepsTo stopsRunning runs := by
  rw [solve_eq_ready_iff hk]
  refine and_congr_right fun _ => and_congr_right fun _ => ?_
  constructor
  · rintro ⟨best, hbest, rfl⟩
    obtain ⟨runs, hpreferred, hassign, hcost⟩ := preferred_of_search hk hbest
    exact ⟨runs, hpreferred, by rw [hassign, hcost, stepsTo]⟩
  · rintro ⟨runs, hpreferred, rfl⟩
    obtain ⟨mask, hsearch, hassign⟩ := hpreferred.search hk options
    exact ⟨_, hsearch, by rw [hassign, stepsTo]⟩

end Snapshot

end Orchestrator
