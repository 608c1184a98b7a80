import Orchestrator.Proofs.Solver.Outcome
import Orchestrator.Proofs.Solver.Overflow
import Orchestrator.Proofs.Solver.Search
/-!
The solver is right. Unless it refuses to search, it finds a feasible choice, and it answers that nothing can be done
exactly if no choice is feasible; so every plan that it makes respects the hard constraints. The choice is the one that
is charged least of those that keep to the locks, and as long as costs fit into a word it is of least cost among all
subsets of the admitted components.
-/

namespace Orchestrator

open Solver Solver.Problem

namespace Snapshot

variable {s : Snapshot} {stopsRunning : Bool} {runs : String → Bool}

/-- The steps that bring a choice about. -/
def stepsTo (s : Snapshot) (stopsRunning : Bool) (runs : String → Bool) : Steps :=
  (s.problem stopsRunning).steps (s.decisions stopsRunning runs) (s.charge stopsRunning runs)

theorem nodes_nodup (hk : s.catalog.Keyed) (stopsRunning : Bool) :
    ((s.problem stopsRunning).nodes.map Node.id).Nodup := by
  have hascending : s.admitted.Pairwise (fun c d => c.id < d.id) := hk.components.values_ascending.filter _
  rw [problem, List.map_map]
  refine List.pairwise_map.mpr (hascending.imp ?_)
  intro c d hlt heq
  have hid : c.id = d.id := heq
  exact String.lt_irrefl d.id (hid ▸ hlt)

theorem keepsLocks_of_assign {mask : Nat}
    (h : assign (s.problem stopsRunning).nodes mask = s.decisions stopsRunning runs) :
    s.KeepsLocks stopsRunning runs := by
  intro c hc
  have hmem : (s.view stopsRunning c, runs c.id) ∈ assign (s.problem stopsRunning).nodes mask := by
    rw [h]
    exact List.mem_map_of_mem hc
  exact (assign_lock hmem).symm

/-- Every choice that keeps to the locks has a number. -/
theorem KeepsLocks.exists_mask (hk : s.catalog.Keyed) (h : s.KeepsLocks stopsRunning runs) :
    ∃ mask, mask < 2 ^ (s.problem stopsRunning).free ∧
      assign (s.problem stopsRunning).nodes mask = s.decisions stopsRunning runs := by
  obtain ⟨mask, hlt, hassign⟩ := Problem.exists_mask (s.problem stopsRunning).nodes runs
  refine ⟨mask, hlt, ?_⟩
  rw [hassign, decided_nodes hk]
  refine List.map_congr_left fun c hc => ?_
  rw [forced_admitted hk hc, h c hc]

/-- The number of a feasible choice that keeps to the locks. -/
theorem Feasible.exists_mask (hk : s.catalog.Keyed) (hf : s.Feasible runs) (h : s.KeepsLocks stopsRunning runs) :
    ∃ mask, mask < 2 ^ (s.problem stopsRunning).free ∧
      (s.problem stopsRunning).maskCost? mask = some (s.charge stopsRunning runs) := by
  obtain ⟨mask, hlt, hassign⟩ := h.exists_mask hk
  refine ⟨mask, hlt, ?_⟩
  rw [maskCost?, hassign, cost?_decisions hk]
  exact ⟨hf, rfl⟩

/-- The choice of a feasible number. -/
theorem exists_choice (hk : s.catalog.Keyed) {mask k : Nat}
    (hcost : (s.problem stopsRunning).maskCost? mask = some k) :
    ∃ runs, assign (s.problem stopsRunning).nodes mask = s.decisions stopsRunning runs ∧ s.Feasible runs ∧
      k = s.charge stopsRunning runs := by
  have hassign := assign_eq_decided (nodes_nodup hk stopsRunning) mask
  rw [decided_nodes hk] at hassign
  rw [maskCost?, hassign, cost?_decisions hk] at hcost
  exact ⟨_, hassign, hcost⟩

/-- The search misses nothing, since every feasible choice can be brought to agree with the locks. -/
theorem search_none (hk : s.catalog.Keyed) {options : SolverOptions}
    (hnone : (s.problem stopsRunning).search options = none) : ¬ s.Feasible runs := by
  intro hf
  have hleast := (s.problem stopsRunning).search_isLeast options
  rw [hnone] at hleast
  have hlocks : s.KeepsLocks stopsRunning (s.forced stopsRunning runs) := keepsLocks_forced hk
  obtain ⟨mask, hlt, hcost⟩ := (hf.forced hk).exists_mask hk hlocks
  rw [hleast mask (Nat.zero_le mask) hlt] at hcost
  cases hcost

/-- What the search finds stands for the decisions of a choice than which none is charged less. -/
theorem search_choice (hk : s.catalog.Keyed) {options : SolverOptions} {best : Candidate}
    (hbest : (s.problem stopsRunning).search options = some best) :
    ∃ runs, s.LeastCharged stopsRunning runs ∧
      assign (s.problem stopsRunning).nodes best.mask = s.decisions stopsRunning runs ∧
      best.cost = s.charge stopsRunning runs := by
  have hleast := (s.problem stopsRunning).search_isLeast options
  rw [hbest] at hleast
  obtain ⟨⟨-, -, hcost⟩, hfirst⟩ := hleast
  obtain ⟨runs, hassign, hf, hcharge⟩ := exists_choice hk hcost
  refine ⟨runs, ⟨hf, keepsLocks_of_assign hassign, ?_⟩, hassign, hcharge⟩
  intro other hother hlocks
  obtain ⟨mask, hlt, hmask⟩ := hother.exists_mask hk hlocks
  have hle := hfirst mask _ (Nat.zero_le mask) hlt hmask
  omega

theorem search_some (hk : s.catalog.Keyed) {options : SolverOptions} {best : Candidate}
    (hbest : (s.problem stopsRunning).search options = some best) :
    ∃ runs, s.LeastCharged stopsRunning runs ∧
      (s.problem stopsRunning).steps (assign (s.problem stopsRunning).nodes best.mask) best.cost =
        s.stepsTo stopsRunning runs := by
  obtain ⟨runs, hleast, hassign, hcost⟩ := search_choice hk hbest
  exact ⟨runs, hleast, by rw [hassign, hcost, stepsTo]⟩

/-- A service that has to run and lost every implementation leaves no feasible choice. -/
theorem not_feasible_of_lost
    (hlost : s.catalog.serviceList.any (fun x => s.isDemanded x && (s.implementers x.id).isEmpty) = true) :
    ¬ s.Feasible runs := by
  intro hf
  obtain ⟨x, hx, hlost⟩ := List.any_eq_true.mp hlost
  simp only [isDemanded, Bool.and_eq_true, Bool.not_eq_true', beq_iff_eq, List.isEmpty_iff] at hlost
  obtain ⟨⟨hexternal, hmandatory⟩, hempty⟩ := hlost
  have hbinding : (s.serviceSeverity x.id).isBinding = true := by rw [hmandatory]; rfl
  obtain ⟨c, hc, -⟩ := isServed_iff.mp (hf.served x hx hexternal hbinding)
  rw [hempty] at hc
  cases hc

/-- All that the solver may answer, and what each answer means. -/
theorem solve_cases (hk : s.catalog.Keyed) (stopsRunning : Bool) (options : SolverOptions) :
    (solve s stopsRunning options = .error (.searchTooLarge (s.problem stopsRunning).free options.limit) ∧
        options.limit < (s.problem stopsRunning).free) ∨
      (solve s stopsRunning options = .ok .impossible ∧ ∀ runs, ¬ s.Feasible runs) ∨
      ∃ runs, solve s stopsRunning options = .ok (.ready (s.stepsTo stopsRunning runs)) ∧
        s.LeastCharged stopsRunning runs := by
  unfold solve
  rw [ofSnapshot?_eq hk]
  split
  next hposed =>
    split at hposed
    next hlost => exact .inr (.inl ⟨rfl, fun runs => not_feasible_of_lost hlost⟩)
    next => cases hposed
  next p hposed =>
    split at hposed
    next => cases hposed
    next =>
      cases hposed
      split
      next hlarge => exact .inl ⟨rfl, hlarge⟩
      next =>
        cases hsearch : (s.problem stopsRunning).search options with
        | none => exact .inr (.inl ⟨rfl, fun runs => search_none hk hsearch⟩)
        | some best =>
            obtain ⟨runs, hleast, hsteps⟩ := search_some hk hsearch
            exact .inr (.inr ⟨runs, by simp only [hsteps], hleast⟩)

/-- Within the limit there is a plan if any choice is feasible. -/
theorem Feasible.solved (hf : s.Feasible runs) (hk : s.catalog.Keyed) {options : SolverOptions}
    (hfree : (s.problem stopsRunning).free ≤ options.limit) :
    ∃ runs, solve s stopsRunning options = .ok (.ready (s.stepsTo stopsRunning runs)) ∧
      s.LeastCharged stopsRunning runs := by
  rcases solve_cases hk stopsRunning options with ⟨-, hlarge⟩ | ⟨-, hnone⟩ | hready
  · exact absurd hfree (Nat.not_le.mpr hlarge)
  · exact absurd hf (hnone runs)
  · exact hready

/-- What a plan leads to, as a choice that the plan realizes. -/
theorem solve_ready (hk : s.catalog.Keyed) {options : SolverOptions} {p : Steps}
    (h : solve s stopsRunning options = .ok (.ready p)) :
    ∃ runs, p = s.stepsTo stopsRunning runs ∧ s.LeastCharged stopsRunning runs := by
  rcases solve_cases hk stopsRunning options with ⟨hlarge, -⟩ | ⟨himpossible, -⟩ | ⟨runs, hready, hleast⟩
  · rw [hlarge] at h
    cases h
  · rw [himpossible] at h
    cases h
  · rw [hready] at h
    cases h
    exact ⟨runs, rfl, hleast⟩

theorem stepsTo_realizes (hk : s.catalog.Keyed) : (s.stepsTo stopsRunning runs).Realizes s runs := steps_realizes hk _

/-- What the steps to a choice lead to agrees with the choice on all that counts. -/
theorem outcome_stepsTo (hk : s.catalog.Keyed) {c : Component} (hc : c ∈ s.admitted) :
    (s.stepsTo stopsRunning runs).outcome s c.id = runs c.id := (stepsTo_realizes hk).outcome_admitted hk hc

end Snapshot

theorem Steps.Realizes.congr {p : Steps} {s : Snapshot} {runs other : String → Bool} (hp : p.Realizes s runs)
    (h : ∀ c ∈ s.admitted, runs c.id = other c.id) : p.Realizes s other where
  start := by
    intro id
    rw [hp.start]
    refine exists_congr fun c => and_congr_right fun hc => and_congr_right fun hid => ?_
    rw [← hid, h c hc]
  stop := by
    intro id
    rw [hp.stop]
    refine exists_congr fun c => and_congr_right fun hc => and_congr_right fun hid => ?_
    rw [← hid, h c hc]
  exclude := hp.exclude

namespace Solver

/-- Unless it refuses to search, the solver answers that nothing can be done exactly if no choice among the admitted
components is feasible, and else with steps whose outcome is feasible and whose cost is what a word holds of that of
their outcome. As long as no cost over the catalog exceeds a word, this is the cost itself, and no feasible choice is
cheaper. -/
theorem solve_optimal (s : Snapshot) (stopsRunning : Bool) (options : SolverOptions) (hk : s.catalog.Keyed)
    (hsearched : ∀ free limit, solve s stopsRunning options ≠ .error (.searchTooLarge free limit)) :
    (solve s stopsRunning options = .ok .impossible ∧ ∀ runs, ¬ s.Feasible runs) ∨
      ∃ p, solve s stopsRunning options = .ok (.ready p) ∧ p.Realizes s (p.outcome s) ∧ s.Feasible (p.outcome s) ∧
        p.cost = s.cost stopsRunning (p.outcome s) % UInt32.size ∧
        (s.catalog.CostsFit → p.cost = s.cost stopsRunning (p.outcome s) ∧
          ∀ runs, s.Feasible runs → p.cost ≤ s.cost stopsRunning runs) := by
  rcases s.solve_cases hk stopsRunning options with ⟨hlarge, -⟩ | himpossible | ⟨runs, hready, hleast⟩
  · exact absurd hlarge (hsearched _ _)
  · exact .inl himpossible
  · have hsame : ∀ c ∈ s.admitted, runs c.id = (s.stepsTo stopsRunning runs).outcome s c.id :=
      fun c hc => (Snapshot.outcome_stepsTo hk hc).symm
    refine .inr ⟨s.stepsTo stopsRunning runs, hready, (Snapshot.stepsTo_realizes hk).congr hsame,
      hleast.feasible.congr hsame, Snapshot.charge_congr hsame, fun hfits => ?_⟩
    have hcost : (s.stepsTo stopsRunning runs).cost = s.cost stopsRunning runs := Snapshot.charge_eq_cost hfits
    refine ⟨hcost.trans (Snapshot.cost_congr hsame), fun other hother => ?_⟩
    rw [hcost]
    exact hleast.cost_le hk hfits hother

/-- A catalog in which all that the solver tells apart occurs: rivals for one service, one of them vetoed, a service of
others, a service that nobody implements, one that is missing, and a component that concerns nobody. -/
def rivalry : Catalog :=
  (((((((Catalog.empty.insertService ⟨"cache", false, none⟩).insertService ⟨"clock", true, none⟩).insertService
    ⟨"store", false, none⟩).insertComponent ⟨"disk", "1", some "store", [], none⟩).insertComponent
    ⟨"flash", "1", some "store", [⟨"gone", .eagerPassive⟩], none⟩).insertComponent
    ⟨"tape", "1", some "store", [], none⟩).insertComponent
    ⟨"shop", "1", none, [⟨"store", .mandatory⟩, ⟨"clock", .mandatory⟩, ⟨"cache", .eagerPassive⟩], none⟩).insertComponent
    ⟨"timer", "1", none, [], none⟩

theorem rivalry_keyed : rivalry.Keyed :=
  (((((((Catalog.keyed_empty.insertService _).insertService _).insertService _).insertComponent _).insertComponent
    _).insertComponent _).insertComponent _).insertComponent _

/-- The rivals with a shop that has to run and a vetoed disk that runs. -/
def rivals : Snapshot :=
  { catalog := rivalry
    severities := ((Table.empty.insert (.component "shop") .mandatory).insert (.component "disk") .excluded).insert
      (.service "store") .mandatory
    running := IdSet.ofList ["disk", "timer"] }

/-- The shop starts with the tape, which lacks nothing, and still misses its cache; the timer runs on. -/
def rivalSteps : Steps := ⟨IdSet.ofList ["shop", "tape"], IdSet.empty, IdSet.ofList ["disk"], 30⟩

theorem solve_optimal_rivals :
    rivals.catalog.Keyed ∧ (∀ free limit, solve rivals false .standard ≠ .error (.searchTooLarge free limit)) ∧
      rivals.catalog.CostsFit ∧
      ∃ p, solve rivals false .standard = .ok (.ready p) ∧ p.Realizes rivals (p.outcome rivals) ∧
        rivals.Feasible (p.outcome rivals) ∧ p.cost = rivals.cost false (p.outcome rivals) ∧
        ∀ runs, rivals.Feasible runs → p.cost ≤ rivals.cost false runs := by
  have hsearched : ∀ free limit, solve rivals false .standard ≠ .error (.searchTooLarge free limit) := nofun
  have hfits : rivals.catalog.CostsFit := by decide +kernel
  rcases solve_optimal rivals false .standard rivalry_keyed hsearched with ⟨himpossible, -⟩ | hready
  · cases himpossible
  · obtain ⟨p, hsolved, hrealizes, hfeasible, -, hoptimal⟩ := hready
    exact ⟨rivalry_keyed, hsearched, hfits, p, hsolved, hrealizes, hfeasible, hoptimal hfits⟩

example : solve rivals false .standard = .ok (.ready rivalSteps) := by rfl

/-! ## A board with too many callers -/

namespace Exchange

variable {callers : Nat} {s : Snapshot} (h : Exchange callers s) {stopsRunning : Bool} {options : SolverOptions}

include h

theorem free_le (stopsRunning : Bool) : (s.problem stopsRunning).free ≤ 3 := by
  refine (List.length_filter_le _ _).trans (Nat.le_of_eq ?_)
  rw [Snapshot.problem, List.length_map, h.admitted]
  rfl

theorem feasible_all : s.Feasible fun _ => true := h.feasible_iff.mpr ⟨rfl, rfl⟩

/-- Where the start of the generator makes the sum go on from zero, the plan leaves the relay at rest, which is dearer
than to start it. -/
theorem solve_wrapped (hfree : (s.problem stopsRunning).free ≤ options.limit)
    (hstarts : s.isRunning "generator" = false) (hholds : 10 * callers < UInt32.size)
    (hexceeds : UInt32.size ≤ 10 + 10 * callers) :
    ∃ runs, solve s stopsRunning options = .ok (.ready (s.stepsTo stopsRunning runs)) ∧ s.Feasible runs ∧
      runs "relay" = false ∧ s.cost stopsRunning runs = 10 + 10 * callers := by
  obtain ⟨runs, hsolved, hleast⟩ := h.feasible_all.solved h.keyed hfree
  have hrests := h.relay_rests hleast hstarts hholds hexceeds
  obtain ⟨hboard, hgenerator⟩ := h.feasible_iff.mp hleast.feasible
  refine ⟨runs, hsolved, hleast.feasible, hrests, ?_⟩
  rw [h.cost hboard hgenerator, hstarts, hrests]
  rfl

/-- Once the generator runs, the relay is started. -/
theorem solve_unwrapped (hfree : (s.problem stopsRunning).free ≤ options.limit) (hruns : s.isRunning "generator" = true)
    (hholds : 10 * callers < UInt32.size) (hmany : 1 < callers) :
    ∃ p, solve s stopsRunning options = .ok (.ready p) ∧ "relay" ∈ p.start ∧ p.cost = 10 := by
  obtain ⟨runs, hsolved, hleast⟩ := h.feasible_all.solved h.keyed hfree
  have hstarts := h.relay_starts hleast hruns hholds hmany
  have hrealizes : (s.stepsTo stopsRunning runs).Realizes s runs := Snapshot.stepsTo_realizes h.keyed
  obtain ⟨hboard, hgenerator⟩ := h.feasible_iff.mp hleast.feasible
  refine ⟨_, hsolved, (hrealizes.start "relay").mpr ?_, ?_⟩
  · exact ⟨relay, h.mem_admitted.mpr (.inr (.inr rfl)), rfl, hstarts, h.rests⟩
  · change s.cost stopsRunning runs % UInt32.size = 10
    rw [h.cost hboard hgenerator, hruns, hstarts]
    rfl

end Exchange

/-- The board of as many callers as can be too many; nothing runs. -/
def rush : Snapshot := exchange crowd .empty

theorem rush_posed : Exchange crowd rush := exchange_posed crowd rfl

theorem rush_free : (rush.problem false).free ≤ SolverOptions.standard.limit :=
  (rush_posed.free_le false).trans (by decide)

/-- The plan for the board costs more than four billion and passes for one that costs four, so that it is taken in
place of a plan that costs twenty. -/
theorem solve_overcharged :
    rush.catalog.Keyed ∧ ∃ p, solve rush false .standard = .ok (.ready p) ∧ p.cost = 4 ∧
      rush.cost false (p.outcome rush) = 4294967300 ∧
      ∃ runs, rush.Feasible runs ∧ rush.cost false runs = 20 := by
  have hrests : rush.isRunning "generator" = false := rfl
  obtain ⟨runs, hsolved, hfeasible, -, hcost⟩ := rush_posed.solve_wrapped rush_free hrests (by decide) (by decide)
  have hsame : ∀ c ∈ rush.admitted, runs c.id = (rush.stepsTo false runs).outcome rush c.id :=
    fun c hc => (Snapshot.outcome_stepsTo rush_posed.keyed hc).symm
  refine ⟨rush_posed.keyed, _, hsolved, ?_, ?_, fun _ => true, rush_posed.feasible_iff.mpr ⟨rfl, rfl⟩, ?_⟩
  · change rush.cost false runs % UInt32.size = 4
    rw [hcost]
    rfl
  · rw [← Snapshot.cost_congr hsame, hcost]
    rfl
  · rw [rush_posed.cost rfl rfl, hrests]
    rfl

end Solver

end Orchestrator
