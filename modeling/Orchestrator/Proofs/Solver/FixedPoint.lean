import Orchestrator.Proofs.Solver.Optimality
/-!
The fixed point of the solver. As long as costs fit into a word, what a plan leads to is left alone when the solver is
asked again: the state poses the same locks, changing nothing is the first number to be tried, and no rival is cheaper
now, since whatever a rival saves against the plan it has to pay for in changes.
-/

namespace Orchestrator

open Solver Solver.Problem

namespace Solver.Problem

/-- The number zero keeps to the locks and changes nothing else. -/
theorem assign_zero (nodes : List Node) : assign nodes 0 = nodes.map (fun n => (n, n.lock.getD n.isRunning)) := by
  induction nodes with
  | nil => rfl
  | cons n rest ih =>
      cases hlock : n.lock with
      | some run => simp [assign, hlock, ih]
      | none => simp [assign, hlock, ih]

end Solver.Problem

namespace Snapshot

/-- The same catalog and severities with others running. -/
def withRunning (s : Snapshot) (running : IdSet) : Snapshot := { s with running }

/-- The components that run once steps are carried out in the state of a snapshot. -/
def runningAfter (s : Snapshot) (p : Steps) : IdSet :=
  IdSet.ofList ((s.catalog.componentList.map Component.id).filter (p.outcome s))

theorem contains_runningAfter {s : Snapshot} {p : Steps} {c : Component} (hc : c ∈ s.catalog.componentList) :
    (s.runningAfter p).contains c.id = p.outcome s c.id := by
  have hlisted : c.id ∈ s.catalog.componentList.map Component.id := List.mem_map_of_mem hc
  refine Bool.eq_iff_iff.mpr ?_
  rw [IdSet.contains_iff, runningAfter, IdSet.mem_ofList, List.mem_filter]
  exact and_iff_right hlisted

/-- Of the admitted components those run that a choice wants to run. -/
def Brings (s : Snapshot) (runs : String → Bool) (running : IdSet) : Prop :=
  ∀ c ∈ s.admitted, running.contains c.id = runs c.id

variable {s : Snapshot} {running : IdSet} {stopsRunning : Bool} {runs other : String → Bool} {c : Component}

/-! ## What the solver is asked the second time -/

theorem feasible_withRunning : (s.withRunning running).Feasible runs ↔ s.Feasible runs :=
  ⟨fun h => ⟨h.exclusive, h.mandatory, h.served, h.met⟩, fun h => ⟨h.exclusive, h.mandatory, h.served, h.met⟩⟩

/-- Only the lock of an independent component looks at what runs, and it decides again as it did. -/
theorem lock_withRunning (hlocks : s.KeepsLocks stopsRunning runs) (hbrings : s.Brings runs running)
    (hc : c ∈ s.admitted) : (s.withRunning running).lock stopsRunning c = s.lock stopsRunning c := by
  have hlock := hlocks c hc
  have hran : (s.withRunning running).isRunning c.id = runs c.id := hbrings c hc
  have hsole : (s.withRunning running).isSole c = s.isSole c := rfl
  have hseverity : (s.withRunning running).componentSeverity c.id = s.componentSeverity c.id := rfl
  unfold lock at hlock ⊢
  rw [hsole]
  split
  next => rfl
  next hnot =>
    rw [if_neg hnot] at hlock
    unfold ownLock isHeld at hlock ⊢
    rw [hseverity, hran]
    cases hmandatory : s.componentSeverity c.id == .mandatory with
    | true => simp [hmandatory]
    | false =>
        cases hindependent : c.isIndependent with
        | false => simp [hmandatory]
        | true =>
            -- The component runs now just if it was eager or held, and what is held was running.
            simp only [hmandatory, hindependent, if_true, Option.getD_some, bne, Bool.not_false, Bool.true_and,
              Bool.false_eq_true, if_false] at hlock ⊢
            rw [← hlock]
            cases (s.componentSeverity c.id).isEager <;> cases s.isRunning c.id <;> cases stopsRunning <;> rfl

theorem free_withRunning (hlocks : s.KeepsLocks stopsRunning runs) (hbrings : s.Brings runs running) :
    ((s.withRunning running).problem stopsRunning).free = (s.problem stopsRunning).free := by
  have hlocked : ∀ t : Snapshot, (t.problem stopsRunning).free =
      (t.admitted.filter (fun c => (t.lock stopsRunning c).isNone)).length := by
    intro t
    rw [free, problem, List.filter_map, List.length_map]
    rfl
  have hadmitted : (s.withRunning running).admitted = s.admitted := rfl
  rw [hlocked, hlocked, hadmitted]
  congr 1
  refine List.filter_congr ?_
  intro c hc
  rw [lock_withRunning hlocks hbrings hc]

theorem assign_zero_withRunning (hlocks : s.KeepsLocks stopsRunning runs) (hbrings : s.Brings runs running) :
    assign ((s.withRunning running).problem stopsRunning).nodes 0 =
      (s.withRunning running).decisions stopsRunning runs := by
  rw [assign_zero, problem, decisions, List.map_map]
  refine List.map_congr_left ?_
  intro c hc
  have hlock := lock_withRunning hlocks hbrings hc
  have hran : (s.withRunning running).isRunning c.id = runs c.id := hbrings c hc
  have hview : ((s.withRunning running).view stopsRunning c).lock.getD
      ((s.withRunning running).view stopsRunning c).isRunning = runs c.id := by
    change ((s.withRunning running).lock stopsRunning c).getD ((s.withRunning running).isRunning c.id) = runs c.id
    rw [hlock, hran]
    exact hlocks c hc
  rw [Function.comp_apply, hview]

/-! ## What a rival costs the second time -/

/-- Against what was decided before, another decision on a component costs at least what it would have saved. -/
theorem fare_exchange : ∀ stopsRunning isLazy isEager isIndependent ran run other : Bool,
    fare stopsRunning isLazy isEager isIndependent run run + fare stopsRunning isLazy isEager isIndependent ran other ≤
      fare stopsRunning isLazy isEager isIndependent ran run +
        fare stopsRunning isLazy isEager isIndependent run other := by decide

/-- To stay with a decision costs no more than it did. -/
theorem fare_again_le : ∀ stopsRunning isLazy isEager isIndependent ran run : Bool,
    fare stopsRunning isLazy isEager isIndependent run run ≤ fare stopsRunning isLazy isEager isIndependent ran run := by
  decide

/-- What has been brought about takes the place of what ran before. -/
theorem ownCost_withRunning (hbrings : s.Brings runs running) (hc : c ∈ s.admitted) :
    (s.withRunning running).ownCost stopsRunning other c =
      fare stopsRunning (s.componentSeverity c.id).isLazy (s.componentSeverity c.id).isEager c.isIndependent (runs c.id)
        (other c.id) := by
  have hran : (s.withRunning running).isRunning c.id = runs c.id := hbrings c hc
  rw [ownCost_eq_fare, hran]
  rfl

/-- Services and dependencies cost the same whatever ran before, so that only the costs of the components count. -/
theorem cost_exchange (hbrings : s.Brings runs running) :
    (s.withRunning running).cost stopsRunning runs + s.cost stopsRunning other ≤
      s.cost stopsRunning runs + (s.withRunning running).cost stopsRunning other := by
  have hown : (s.admitted.map ((s.withRunning running).ownCost stopsRunning runs)).sum +
      (s.admitted.map (s.ownCost stopsRunning other)).sum ≤
      (s.admitted.map (s.ownCost stopsRunning runs)).sum +
        (s.admitted.map ((s.withRunning running).ownCost stopsRunning other)).sum := by
    rw [← List.sum_map_add, ← List.sum_map_add]
    refine List.sum_le_sum fun c hc => ?_
    rw [ownCost_withRunning hbrings hc, ownCost_withRunning hbrings hc]
    exact fare_exchange _ _ _ _ _ _ _
  have hadmitted : (s.withRunning running).admitted = s.admitted := rfl
  have hcatalog : (s.withRunning running).catalog = s.catalog := rfl
  have hmissed : ∀ runs, (s.withRunning running).isMissed runs = s.isMissed runs := fun _ => rfl
  have hwanting : ∀ runs, (s.withRunning running).isWanting runs = s.isWanting runs := fun _ => rfl
  simp only [cost_eq, hadmitted, hcatalog, hmissed, hwanting]
  omega

theorem cost_withRunning_le (hbrings : s.Brings runs running) :
    (s.withRunning running).cost stopsRunning runs ≤ s.cost stopsRunning runs := by
  have hown : (s.admitted.map ((s.withRunning running).ownCost stopsRunning runs)).sum ≤
      (s.admitted.map (s.ownCost stopsRunning runs)).sum := by
    refine List.sum_le_sum fun c hc => ?_
    rw [ownCost_withRunning hbrings hc]
    exact fare_again_le _ _ _ _ _ _
  have hadmitted : (s.withRunning running).admitted = s.admitted := rfl
  have hcatalog : (s.withRunning running).catalog = s.catalog := rfl
  have hmissed : (s.withRunning running).isMissed runs = s.isMissed runs := rfl
  have hwanting : (s.withRunning running).isWanting runs = s.isWanting runs := rfl
  simp only [cost_eq, hadmitted, hcatalog, hmissed, hwanting]
  omega

/-- While costs fit into a word, what a choice saves is charged. -/
theorem LeastCharged.withRunning (h : s.LeastCharged stopsRunning runs) (hfits : s.catalog.CostsFit)
    (hbrings : s.Brings runs running) : (s.withRunning running).LeastCharged stopsRunning runs where
  feasible := feasible_withRunning.mpr h.feasible
  locks := by
    intro c hc
    rw [lock_withRunning h.locks hbrings hc]
    exact h.locks c hc
  least := by
    intro other hother hlocks
    have hkept : s.KeepsLocks stopsRunning other := by
      intro c hc
      rw [← lock_withRunning h.locks hbrings hc]
      exact hlocks c hc
    have hfits' : (s.withRunning running).catalog.CostsFit := hfits
    have hleast := h.least other (feasible_withRunning.mp hother) hkept
    have hexchange : (s.withRunning running).cost stopsRunning runs + s.cost stopsRunning other ≤
        s.cost stopsRunning runs + (s.withRunning running).cost stopsRunning other := cost_exchange hbrings
    rw [charge_eq_cost hfits, charge_eq_cost hfits] at hleast
    rw [charge_eq_cost hfits', charge_eq_cost hfits']
    omega

end Snapshot

/-- Steps that bring about what runs already start and stop nothing. -/
theorem Steps.Realizes.changes_nothing {p : Steps} {s : Snapshot} {runs : String → Bool} (h : p.Realizes s runs)
    (hsame : ∀ c ∈ s.admitted, s.isRunning c.id = runs c.id) : p.start = .empty ∧ p.stop = .empty := by
  constructor
  · refine IdSet.ext fun id => ?_
    rw [h.start]
    refine iff_of_false ?_ IdSet.not_mem_empty
    rintro ⟨c, hc, rfl, hrun, hrests⟩
    rw [hsame c hc, hrun] at hrests
    cases hrests
  · refine IdSet.ext fun id => ?_
    rw [h.stop]
    refine iff_of_false ?_ IdSet.not_mem_empty
    rintro ⟨c, hc, rfl, hrest, hruns⟩
    rw [hsame c hc, hrest] at hruns
    cases hruns

namespace Snapshot

variable {s : Snapshot} {running : IdSet} {stopsRunning : Bool} {runs : String → Bool}

/-! ## The second answer -/

/-- A plan comes from a search that was posed, was not too large and found something. -/
theorem solve_eq_ready_iff (hk : s.catalog.Keyed) {options : SolverOptions} {p : Steps} :
    solve s stopsRunning options = .ok (.ready p) ↔
      s.catalog.serviceList.any (fun x => s.isDemanded x && (s.implementers x.id).isEmpty) = false ∧
        (s.problem stopsRunning).free ≤ options.limit ∧
        ∃ best, (s.problem stopsRunning).search options = some best ∧
          p = (s.problem stopsRunning).steps (assign (s.problem stopsRunning).nodes best.mask) best.cost := by
  unfold solve
  rw [ofSnapshot?_eq hk]
  cases s.catalog.serviceList.any (fun x => s.isDemanded x && (s.implementers x.id).isEmpty) with
  | true => simp
  | false =>
      simp only [Bool.false_eq_true, if_false, true_and]
      by_cases hlarge : options.limit < (s.problem stopsRunning).free
      · simp [hlarge]
      · cases (s.problem stopsRunning).search options with
        | none => simp [hlarge]
        | some best => simp [hlarge, Nat.not_lt.mp hlarge, eq_comm]

/-- Changing nothing is feasible, nothing is charged less, and no number is tried before it. -/
theorem search_withRunning (hk : s.catalog.Keyed) (hfits : s.catalog.CostsFit) (options : SolverOptions)
    (hleast : s.LeastCharged stopsRunning runs) (hbrings : s.Brings runs running) :
    ((s.withRunning running).problem stopsRunning).search options =
      some ⟨(s.withRunning running).charge stopsRunning runs, 0⟩ := by
  have hk' : (s.withRunning running).catalog.Keyed := hk
  have hstill := hleast.withRunning hfits hbrings
  have hzero : ((s.withRunning running).problem stopsRunning).maskCost? 0 =
      some ((s.withRunning running).charge stopsRunning runs) := by
    rw [maskCost?, assign_zero_withRunning hleast.locks hbrings, cost?_decisions hk']
    exact ⟨hstill.feasible, rfl⟩
  have hfirst := ((s.withRunning running).problem stopsRunning).search_isLeast options
  refine hfirst.unique ⟨⟨Nat.le_refl 0, Nat.two_pow_pos _, hzero⟩, ?_⟩
  intro mask cost _ _ hmask
  obtain ⟨other, hassign, hother, rfl⟩ := exists_choice hk' hmask
  have hle := hstill.least other hother (keepsLocks_of_assign hassign)
  exact (Nat.lt_or_eq_of_le hle).imp_right (fun heq => ⟨heq, Nat.zero_le mask⟩)

/-- Solved again in a state that a plan led to, the same demands give a plan with the same exclusions, which changes
nothing as long as costs fit into a word. -/
theorem solve_again (hk : s.catalog.Keyed) {options : SolverOptions} {p : Steps}
    (h : solve s stopsRunning options = .ok (.ready p))
    (hrunning : ∀ c ∈ s.catalog.componentList, running.contains c.id = p.outcome s c.id) :
    ∃ q, solve (s.withRunning running) stopsRunning options = .ok (.ready q) ∧ q.exclude = p.exclude ∧
      (s.catalog.CostsFit → q.start = .empty ∧ q.stop = .empty ∧ q.cost ≤ p.cost) := by
  obtain ⟨hposed, hfree, best, hbest, hp⟩ := (solve_eq_ready_iff hk).mp h
  obtain ⟨runs, hleast, hassign, hcost⟩ := search_choice hk hbest
  rw [hassign, hcost] at hp
  have hold : p.Realizes s runs := hp ▸ stepsTo_realizes hk
  have hbrings : s.Brings runs running := by
    intro c hc
    rw [hrunning c (mem_admitted.mp hc).1]
    exact hold.outcome_admitted hk hc
  have hk' : (s.withRunning running).catalog.Keyed := hk
  have hfree' : ((s.withRunning running).problem stopsRunning).free ≤ options.limit := by
    rw [free_withRunning hleast.locks hbrings]
    exact hfree
  have hstill : (s.withRunning running).Feasible runs := feasible_withRunning.mpr hleast.feasible
  obtain ⟨runs', hready, -⟩ := hstill.solved hk' hfree'
  have hnew : ((s.withRunning running).stepsTo stopsRunning runs').Realizes (s.withRunning running) runs' :=
    stepsTo_realizes hk'
  refine ⟨_, hready, ?_, fun hfits => ?_⟩
  · refine IdSet.ext fun id => ?_
    rw [hnew.exclude, hold.exclude]
    rfl
  · -- The search takes the number zero, which stands for the choice that was made before.
    have hzero : solve (s.withRunning running) stopsRunning options =
        .ok (.ready ((s.withRunning running).stepsTo stopsRunning runs)) := by
      refine (solve_eq_ready_iff hk').mpr ⟨hposed, hfree', _, search_withRunning hk hfits options hleast hbrings, ?_⟩
      rw [assign_zero_withRunning hleast.locks hbrings, stepsTo]
    have hsame := Plan.ready.inj (Except.ok.inj (hready.symm.trans hzero))
    have hrealizes : ((s.withRunning running).stepsTo stopsRunning runs).Realizes (s.withRunning running) runs :=
      stepsTo_realizes hk'
    obtain ⟨hstart, hstop⟩ := hrealizes.changes_nothing hbrings
    have hfits' : (s.withRunning running).catalog.CostsFit := hfits
    rw [hsame]
    refine ⟨hstart, hstop, ?_⟩
    change (s.withRunning running).charge stopsRunning runs ≤ p.cost
    rw [hp, charge_eq_cost hfits']
    exact (cost_withRunning_le hbrings).trans (charge_eq_cost hfits).ge

end Snapshot

namespace Solver

/-- A plan that was carried out can be made again: for the same catalog, severities, flag and options, but with those
running that run after the plan, the solver gives a plan that excludes the same components. It is a fixed point as long
as costs fit into a word: then the second plan starts and stops nothing and costs no more. -/
theorem solve_idempotent (s : Snapshot) (stopsRunning : Bool) (options : SolverOptions) (p : Steps)
    (hk : s.catalog.Keyed) (h : solve s stopsRunning options = .ok (.ready p)) :
    ∃ q, solve { s with running := s.runningAfter p } stopsRunning options = .ok (.ready q) ∧ q.exclude = p.exclude ∧
      (s.catalog.CostsFit → q.start = .empty ∧ q.stop = .empty ∧ q.cost ≤ p.cost) :=
  Snapshot.solve_again hk h fun _ hc => Snapshot.contains_runningAfter hc

theorem solve_idempotent_rivals :
    rivals.catalog.Keyed ∧ solve rivals false .standard = .ok (.ready rivalSteps) ∧ rivals.catalog.CostsFit ∧
      ∃ q, solve { rivals with running := rivals.runningAfter rivalSteps } false .standard = .ok (.ready q) ∧
        q.exclude = rivalSteps.exclude ∧ q.start = .empty ∧ q.stop = .empty ∧ q.cost ≤ rivalSteps.cost := by
  have hfits : rivals.catalog.CostsFit := by decide +kernel
  obtain ⟨q, hsolved, hexclude, hfixed⟩ := solve_idempotent rivals false .standard rivalSteps rivalry_keyed rfl
  exact ⟨rivalry_keyed, rfl, hfits, q, hsolved, hexclude, hfixed hfits⟩

namespace Exchange

variable {callers : Nat} {s : Snapshot} (h : Exchange callers s)

include h

theorem withRunning {running : IdSet} (hrests : running.contains "relay" = false) :
    Exchange callers (s.withRunning running) := ⟨h.catalog, h.board, h.component, h.service, hrests⟩

/-- What the plan that passed for cheap led to is changed at once: now that the generator runs, the relay starts. -/
theorem solve_withRunning {stopsRunning : Bool} {options : SolverOptions} {runs : String → Bool} {running : IdSet}
    (hlimit : 3 ≤ options.limit) (hfeasible : s.Feasible runs) (hrelay : runs "relay" = false)
    (hbrings : s.Brings runs running) (hholds : 10 * callers < UInt32.size) (hmany : 1 < callers) :
    ∃ q, solve (s.withRunning running) stopsRunning options = .ok (.ready q) ∧ "relay" ∈ q.start ∧ q.cost = 10 := by
  have hrests : running.contains "relay" = runs "relay" := hbrings relay (h.mem_admitted.mpr (.inr (.inr rfl)))
  have hruns : running.contains "generator" = runs "generator" :=
    hbrings generator (h.mem_admitted.mpr (.inr (.inl rfl)))
  rw [(h.feasible_iff.mp hfeasible).2] at hruns
  rw [hrelay] at hrests
  have hposed := h.withRunning hrests
  exact hposed.solve_unwrapped ((hposed.free_le stopsRunning).trans hlimit) hruns hholds hmany

end Exchange

/-- The plan for the board that passed for cheap leads to a state in which the relay is to start. -/
theorem solve_unsettled :
    rush.catalog.Keyed ∧ ∃ p, solve rush false .standard = .ok (.ready p) ∧
      ∃ q, solve { rush with running := rush.runningAfter p } false .standard = .ok (.ready q) ∧ "relay" ∈ q.start ∧
        q.cost = 10 := by
  obtain ⟨runs, hsolved, hfeasible, hrelay, -⟩ := rush_posed.solve_wrapped rush_free rfl (by decide) (by decide)
  have hbrings : rush.Brings runs (rush.runningAfter (rush.stepsTo false runs)) := by
    intro c hc
    rw [Snapshot.contains_runningAfter (Snapshot.mem_admitted.mp hc).1]
    exact Snapshot.outcome_stepsTo rush_posed.keyed hc
  exact ⟨rush_posed.keyed, _, hsolved,
    rush_posed.solve_withRunning (by decide) hfeasible hrelay hbrings (by decide) (by decide)⟩

end Solver

end Orchestrator
