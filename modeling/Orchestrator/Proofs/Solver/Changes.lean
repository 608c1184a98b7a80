import Orchestrator.Proofs.Solver.Separation
/-!
What the numbers of a plan say of who starts and who stops. There are two ways to leave the running components: to be
stopped and to be excluded. The summary counts starts and stops, and steps that have neither pass for steps without
effect; the components that ran and are excluded come on top.
-/

namespace Orchestrator

open Solver

/-- A set whose members are all identifiers of a catalog has as many members as components of the catalog that are in
it. -/
theorem IdSet.size_eq_countP {catalog : Catalog} {ids : IdSet} (hk : catalog.Keyed)
    (hknown : ∀ id ∈ ids, ∃ c ∈ catalog.componentList, c.id = id) :
    ids.size = catalog.componentList.countP (fun c => ids.contains c.id) := by
  have hnames : (catalog.componentList.map Component.id).Nodup := by
    rw [Catalog.componentList, hk.components.map_values]
    exact IdMap.keys_nodup
  have hperm : ids.toList.Perm ((catalog.componentList.filter (fun c => ids.contains c.id)).map Component.id) := by
    refine (List.perm_ext_iff_of_nodup ids.nodup (hnames.sublist (List.filter_sublist.map _))).mpr fun id => ?_
    rw [← IdSet.mem_def, List.mem_map]
    constructor
    · intro hid
      obtain ⟨c, hc, rfl⟩ := hknown id hid
      exact ⟨c, List.mem_filter.mpr ⟨hc, IdSet.contains_iff.mpr hid⟩, rfl⟩
    · rintro ⟨c, hc, rfl⟩
      exact IdSet.contains_iff.mp (List.mem_filter.mp hc).2
  rw [IdSet.size, hperm.length_eq, List.length_map, List.countP_eq_length_filter]

namespace Steps

variable {p : Steps} {s : Snapshot} {runs : String → Bool} {c : Component}

/-- How many components of the catalog change between running and stopped. -/
def changed (p : Steps) (s : Snapshot) : Nat :=
  s.catalog.componentList.countP (fun c => p.runsAfter c.id (s.isRunning c.id) != s.isRunning c.id)

/-- How many components of the catalog ran and are excluded. -/
def expelled (p : Steps) (s : Snapshot) : Nat :=
  s.catalog.componentList.countP (fun c => s.isRunning c.id && p.exclude.contains c.id)

theorem isNoop_eq (p : Steps) : p.isNoop = !p.summary.hasChanges := by
  rw [Bool.eq_iff_iff]
  simp [isNoop, Summary.hasChanges, Summary.transitions, summary, IdSet.isEmpty, IdSet.size]

theorem isNoop_iff : p.isNoop = true ↔ p.summary.transitions = 0 := by
  rw [isNoop_eq, Bool.not_eq_true', Summary.hasChanges, decide_eq_false_iff_not, Nat.not_lt, Nat.le_zero]

theorem expelled_eq_zero :
    p.expelled s = 0 ↔ ∀ c ∈ s.catalog.componentList, s.isRunning c.id = true → ¬ c.id ∈ p.exclude := by
  rw [expelled, List.countP_eq_zero]
  simp only [Bool.and_eq_true, IdSet.contains_iff, not_and]

/-- A component changes in one of three ways: it is started, or stopped, or it ran and is excluded. -/
theorem Realizes.changes (h : p.Realizes s runs) (hk : s.catalog.Keyed) (hc : c ∈ s.catalog.componentList) :
    (p.runsAfter c.id (s.isRunning c.id) != s.isRunning c.id).toNat =
      (p.start.contains c.id).toNat + (p.stop.contains c.id).toNat +
        (s.isRunning c.id && p.exclude.contains c.id).toNat := by
  cases hbarred : s.isBarred c with
  | true =>
      obtain ⟨hexclude, hstart, hstop⟩ := h.barred_excluded hk hc hbarred
      have houtcome : p.runsAfter c.id (s.isRunning c.id) = false := h.outcome_barred hc hbarred
      rw [← IdSet.contains_iff] at hexclude hstart hstop
      rw [houtcome, hexclude, eq_false_of_ne_true hstart, eq_false_of_ne_true hstop]
      cases s.isRunning c.id <;> rfl
  | false =>
      have hadmitted := Snapshot.mem_admitted.mpr ⟨hc, hbarred⟩
      obtain ⟨hexclude, hstop, hstart⟩ := h.contains_admitted hk hadmitted
      have houtcome : p.runsAfter c.id (s.isRunning c.id) = runs c.id := h.outcome_admitted hk hadmitted
      rw [houtcome, hexclude, hstop, hstart]
      cases runs c.id <;> cases s.isRunning c.id <;> rfl

end Steps

namespace Solver

variable {s : Snapshot} {stopsRunning : Bool} {options : SolverOptions} {p : Steps}

theorem changed_of_ready (hk : s.catalog.Keyed) (h : solve s stopsRunning options = .ok (.ready p)) :
    p.changed s = p.summary.transitions + p.expelled s := by
  obtain ⟨runs, hp, -⟩ := Snapshot.solve_ready hk h
  have hrealizes : p.Realizes s runs := hp ▸ Snapshot.stepsTo_realizes hk
  have hstart := IdSet.size_eq_countP hk fun id hid => Snapshot.named_of_ready hk h (.inl hid)
  have hstop := IdSet.size_eq_countP hk fun id hid => Snapshot.named_of_ready hk h (.inr (.inl hid))
  rw [Summary.transitions, Steps.summary, hstart, hstop, Steps.changed, Steps.expelled]
  simp only [List.countP_eq_sum, ← List.sum_map_add]
  congr 1
  exact List.map_congr_left fun c hc => hrealizes.changes hk hc

/-- The components that change are those that are started or stopped and those that ran and are excluded. So the steps
without effect are those that change no others than excluded ones, and the summary counts all that change just if no
component that runs is excluded. -/
theorem transitions_exact (s : Snapshot) (stopsRunning : Bool) (options : SolverOptions) (p : Steps)
    (hk : s.catalog.Keyed) (h : solve s stopsRunning options = .ok (.ready p)) :
    p.changed s = p.summary.transitions + p.expelled s ∧ p.isNoop = !p.summary.hasChanges ∧
      (p.isNoop = true ↔ p.changed s = p.expelled s) ∧
      (p.summary.transitions = p.changed s ↔
        ∀ c ∈ s.catalog.componentList, s.isRunning c.id = true → ¬ c.id ∈ p.exclude) := by
  have hchanged := changed_of_ready hk h
  refine ⟨hchanged, p.isNoop_eq, ?_, ?_⟩
  · rw [Steps.isNoop_iff, hchanged]
    omega
  · rw [← Steps.expelled_eq_zero, hchanged]
    omega

/-- The shop and the tape start, and the disk, which ran, is excluded. -/
theorem transitions_exact_rivals :
    rivals.catalog.Keyed ∧ solve rivals false .standard = .ok (.ready rivalSteps) ∧
      rivalSteps.summary.transitions = 2 ∧ rivalSteps.expelled rivals = 1 ∧ rivalSteps.changed rivals = 3 := by
  obtain ⟨hchanged, -⟩ := transitions_exact rivals false .standard rivalSteps rivalry_keyed rfl
  have hstarts : rivalSteps.summary.transitions = 2 := by decide +kernel
  have hexpelled : rivalSteps.expelled rivals = 1 := by decide +kernel
  exact ⟨rivalry_keyed, rfl, hstarts, hexpelled, by rw [hchanged, hstarts, hexpelled]⟩

/-- A lamp that runs and is vetoed. -/
def vetoedLamp : Snapshot :=
  { catalog := .lone ⟨"lamp", "", none, [], none⟩
    severities := Table.empty.insert (.component "lamp") .excluded
    running := IdSet.ofList ["lamp"] }

def lampSteps : Steps := ⟨.empty, .empty, IdSet.ofList ["lamp"], 0⟩

/-- The lamp goes out, and the steps that see to it pass for steps without effect. -/
theorem noop_changes_running :
    vetoedLamp.catalog.Keyed ∧ solve vetoedLamp false .standard = .ok (.ready lampSteps) ∧ lampSteps.isNoop = true ∧
      lampSteps.summary.hasChanges = false ∧ lampSteps.summary.transitions = 0 ∧ lampSteps.changed vetoedLamp = 1 :=
  ⟨Catalog.keyed_empty.insertComponent _, rfl, rfl, rfl, rfl, by decide +kernel⟩

end Solver

end Orchestrator
