import Orchestrator.Proofs.Reconcile.Quiet
import Orchestrator.Proofs.Reconcile.Reaction
import Orchestrator.Proofs.Requirements.Notice
import Orchestrator.Proofs.Requirements.Reach
import Orchestrator.Proofs.Simulator
import Orchestrator.Proofs.Solver.Constraints
import Orchestrator.Proofs.Solver.FixedPoint
/-!
What an apply that succeeded leaves behind. Its last pass saw nothing change, so that what was solved for is what is
asked for now: every severity is dealt with, what runs is the outcome of the last plan, and that is a fixed point of
the solver as long as costs fit into a word.
-/

namespace Orchestrator

/-- A state that a plan led to meets the hard constraints, also once it is what runs. -/
theorem Snapshot.hardConstraints_withRunning {s : Snapshot} {stopsRunning : Bool} {options : SolverOptions} {p : Steps}
    {running : IdSet} (hk : s.catalog.Keyed) (h : Solver.solve s stopsRunning options = .ok (.ready p))
    (hrunning : ∀ c ∈ s.catalog.componentList, running.contains c.id = p.outcome s c.id) :
    (s.withRunning running).HardConstraints running.contains := by
  obtain ⟨runs, rfl, hleast⟩ := Snapshot.solve_ready hk h
  have hsame : ∀ c ∈ s.admitted, runs c.id = running.contains c.id := by
    intro c hc
    rw [hrunning c (mem_admitted.mp hc).1]
    exact (Snapshot.outcome_stepsTo hk hc).symm
  have hfeasible : (s.withRunning running).Feasible running.contains :=
    feasible_withRunning.mpr (hleast.feasible.congr hsame)
  refine hfeasible.hardConstraints hk ?_
  intro c hc hbarred
  rw [hrunning c hc]
  exact (Snapshot.stepsTo_realizes hk).outcome_barred hc hbarred

namespace Requirements

variable {r : Requirements} {settings : Settings} {steps : Steps}

/-- The requirements once a pass is taken over in which nothing changed except what the store of settings holds. -/
def undisturbed (r : Requirements) (settings : Settings) (steps : Steps) : Requirements :=
  ((r.beginPass.editSettings settings).commit r.snapshot steps).endPass.1

theorem get?_undisturbed {k : Subject} :
    (r.undisturbed settings steps).standings.get? k =
      (r.standings.get? k).map (fun old => { old with applied := some old.final }) := by
  refine (get?_commit r.snapshot steps).trans ?_
  rw [Table.contains, snapshot, Table.get?_map, beginPass, editSettings]
  cases r.standings.get? k with
  | none => rfl
  | some old => rfl

theorem catalog_undisturbed : (r.undisturbed settings steps).catalog = r.catalog := catalog_commit r.snapshot steps

theorem snapshot_undisturbed :
    (r.undisturbed settings steps).snapshot = r.snapshot.withRunning (r.undisturbed settings steps).running := by
  have hseverities : (r.undisturbed settings steps).standings.map (fun _ standing => standing.final) =
      r.standings.map (fun _ standing => standing.final) := by
    refine Table.ext ?_
    intro s
    rw [Table.get?_map, get?_undisturbed, Option.map_map, Table.get?_map]
    rfl
  rw [snapshot, catalog_undisturbed, hseverities]
  rfl

theorem ReachedOver.undisturbed {P : Catalog → Prop} (h : r.ReachedOver P) (settings : Settings) (steps : Steps) :
    (r.undisturbed settings steps).ReachedOver P := by
  have hedited : (Operation.editSettings settings).Installs P := trivial
  exact ((h.beginPass.perform hedited).commit r.snapshot steps).endPass

theorem dirtyCount_undisturbed (h : (r.undisturbed settings steps).Counted) :
    (r.undisturbed settings steps).dirtyCount = 0 := by
  by_contra hcount
  have hdirty : (r.undisturbed settings steps).isDirty = true := decide_eq_true (Nat.pos_of_ne_zero hcount)
  obtain ⟨s, standing, hget, hne⟩ := h.isDirty_iff.mp hdirty
  rw [get?_undisturbed] at hget
  obtain ⟨old, -, rfl⟩ := Option.map_eq_some_iff.mp hget
  exact hne rfl

theorem mem_running_undisturbed {id : String} :
    id ∈ (r.undisturbed settings steps).running ↔
      ((id ∈ steps.start ∧ r.catalog.components.contains id = true) ∨ id ∈ r.running) ∧
        ¬ id ∈ steps.stop ∧ ¬ id ∈ steps.exclude :=
  mem_running_commit

theorem running_undisturbed {c : Component} (hk : r.catalog.Keyed) (hc : c ∈ r.catalog.componentList) :
    (r.undisturbed settings steps).running.contains c.id = steps.outcome r.snapshot c.id := by
  have hknown : r.catalog.components.contains c.id = true := hk.components.contains_of_mem hc
  have hran : r.snapshot.isRunning c.id = r.running.contains c.id := rfl
  refine Bool.eq_iff_iff.mpr ?_
  rw [IdSet.contains_iff, mem_running_undisturbed, Steps.outcome, Steps.runsAfter_iff, hran, IdSet.contains_iff,
    and_iff_left hknown]

end Requirements

namespace Reconciler

variable {ρ σ : Type} {host : Host σ} {stopsRunning : Bool} {r r' : Reconciler ρ σ} {P : Operation → Prop}

/-- A plan that was made now would be ready and would exclude nothing that runs. -/
def Spares (stopsRunning : Bool) (r : Reconciler ρ σ) : Prop :=
  ∃ p, r.plan stopsRunning = .ok (.ready p) ∧ ∀ id ∈ p.exclude, ¬ id ∈ r.handle.requirements.running

/-- A plan that was made now would be ready, would start and stop nothing and would exclude nothing that runs. -/
def Rests (stopsRunning : Bool) (r : Reconciler ρ σ) : Prop :=
  ∃ p, r.plan stopsRunning = .ok (.ready p) ∧ p.start = .empty ∧ p.stop = .empty ∧
    ∀ id ∈ p.exclude, ¬ id ∈ r.handle.requirements.running

theorem not_rests {p : Steps} (hplan : r.plan stopsRunning = .ok (.ready p))
    (hwork : p.start ≠ .empty ∨ p.stop ≠ .empty) : ¬ r.Rests stopsRunning := by
  rintro ⟨other, hother, hstart, hstop, -⟩
  cases hplan.symm.trans hother
  exact hwork.elim (fun h => h hstart) (fun h => h hstop)

/-- Nothing is left to do: every severity was dealt with, what runs is known and meets all hard constraints for what is
asked for now, and a plan that was made now would exclude nothing that runs. It would start and stop nothing either, as
long as costs fit into a word. -/
structure Settled (stopsRunning : Bool) (r : Reconciler ρ σ) : Prop where
  clean : r.handle.requirements.dirtyCount = 0
  known : ∀ id ∈ r.handle.requirements.running, r.handle.requirements.catalog.components.contains id = true
  constraints : r.handle.requirements.snapshot.HardConstraints r.handle.requirements.running.contains
  spares : r.Spares stopsRunning
  rests : r.handle.requirements.catalog.CostsFit → r.Rests stopsRunning

theorem Settled.of_eq (h : Settled stopsRunning r) (hrequirements : r'.handle.requirements = r.handle.requirements)
    (hoptions : r'.options = r.options) : Settled stopsRunning r' := by
  refine ⟨?_, ?_, ?_, ?_, ?_⟩
  · rw [hrequirements]
    exact h.clean
  · rw [hrequirements]
    exact h.known
  · rw [hrequirements]
    exact h.constraints
  · rw [Spares, plan, hrequirements, hoptions]
    exact h.spares
  · rw [Rests, plan, hrequirements, hoptions]
    exact h.rests

/-- A pass that saw no change leaves the requirements settled. -/
theorem settled_undisturbed {settings : Settings} {steps : Steps}
    (hreached : r.handle.requirements.ReachedOver Catalog.Keyed)
    (hplan : r.plan stopsRunning = .ok (.ready steps)) (hoptions : r'.options = r.options)
    (hrequirements : r'.handle.requirements = r.handle.requirements.undisturbed settings steps) :
    Settled stopsRunning r' := by
  have hk : r.handle.requirements.catalog.Keyed := hreached.runsKnown.catalog
  have hleft := hreached.undisturbed settings steps
  have hrunning : ∀ c ∈ r.handle.requirements.catalog.componentList,
      (r.handle.requirements.undisturbed settings steps).running.contains c.id =
        steps.outcome r.handle.requirements.snapshot c.id := fun _ hc => Requirements.running_undisturbed hk hc
  -- The same is asked for as before the pass, and what runs now is what the plan led to.
  obtain ⟨p, hagain, hexclude, hfixed⟩ := Snapshot.solve_again hk hplan hrunning
  have hplanned : r'.plan stopsRunning = .ok (.ready p) := by
    rw [plan, hrequirements, Requirements.snapshot_undisturbed, hoptions]
    exact hagain
  have hspared : ∀ id ∈ p.exclude, ¬ id ∈ r'.handle.requirements.running := by
    intro id hid hran
    rw [hrequirements] at hran
    exact (Requirements.mem_running_undisturbed.mp hran).2.2 (hexclude ▸ hid)
  refine ⟨?_, ?_, ?_, ⟨p, hplanned, hspared⟩, ?_⟩
  · rw [hrequirements]
    exact Requirements.dirtyCount_undisturbed hleft.counted
  · rw [hrequirements]
    exact hleft.runsKnown.known
  · rw [hrequirements, Requirements.snapshot_undisturbed]
    exact Snapshot.hardConstraints_withRunning hk hplan hrunning
  · intro hfits
    rw [hrequirements, Requirements.catalog_undisturbed] at hfits
    obtain ⟨hstart, hstop, -⟩ := hfixed hfits
    exact ⟨p, hplanned, hstart, hstop, hspared⟩

/-! ## Passes and applies -/

/-- A pass that ended an apply well saw no change that was taken note of, whatever observers did. -/
theorem Executes.unchanged {report : Report} {steps : Steps} {left : Handle ρ} {state : σ} {verdict : Verdict}
    (h : r.Executes host stopsRunning report steps left state verdict)
    (hwants : left.requirements.wantsReapply = false) :
    ∃ settings, left.requirements = r.handle.requirements.beginPass.editSettings settings := by
  have hstable : Handle.Stable (fun _ => True) (Requirements.Noticed r.handle.requirements.beginPass) :=
    fun q operation _ hq => hq.trans (Requirements.noticed_perform hq.isApplying operation)
  have hbegun : r.begun.Keeps (fun _ => True) (Requirements.Noticed r.handle.requirements.beginPass) :=
    ⟨.refl rfl, r.begun.allows_true⟩
  have hnoticed := (hbegun.run hstable (fun _ htrue => htrue)
    (host (report.passes + 1) steps r.host).asksOnly_true).requirements
  rw [h.ran] at hnoticed
  refine hnoticed.unchanged_or_noted.resolve_right ?_
  rw [hwants]
  exact Bool.false_ne_true

/-- An apply that ended well after at least one pass: what its last pass took over was settled, and the rest is what
observers made of it. -/
theorem Concludes.settles (hP : ∀ operation, P operation → operation.Installs Catalog.Keyed) {courses : List Course}
    {report : Report} (hreached : r.handle.requirements.ReachedOver Catalog.Keyed) (hobservers : r.handle.Allows P)
    (hhost : ∀ number steps state, (host number steps state).AsksOnly (Operation.Installs Catalog.Keyed))
    (h : r.Concludes host stopsRunning courses (r', .finished (.ok report))) (hpasses : 1 ≤ report.passes) :
    ∃ (q : Reconciler ρ σ) (snapshot : Snapshot) (steps : Steps) (left : Requirements),
      courses.getLast? = some (.executed snapshot steps left .done) ∧
      q.handle.requirements = (left.commit snapshot steps).endPass.1 ∧
      q.handle.requirements.ReachedOver Catalog.Keyed ∧ Settled stopsRunning q ∧ r'.options = q.options ∧
      ∀ I, Handle.Stable P I → I q.handle.requirements → r'.handle.Keeps P I := by
  have hs : Sustains P _ (Requirements.ReachedOver Catalog.Keyed) host := ⟨lasts_reachedOver Catalog.Keyed, hhost, hP⟩
  cases h with
  | clean clean => exact absurd hpasses (by decide)
  | proceeds dirty proceeds =>
      obtain ⟨p, report', c, hp, hlast, hended⟩ :=
        hs.lastPass (r := { r with inFlight := true }) ⟨hreached, hobservers⟩ proceeds rfl
      obtain ⟨steps, left, state, hexecutes, hwants, rfl, rfl⟩ := hended.of_ok
      obtain ⟨settings, hchanged⟩ := hexecutes.unchanged hwants
      have hleft := hs.left hp hexecutes
      have hundisturbed : (left.requirements.commit p.handle.requirements.snapshot steps).endPass.1 =
          p.handle.requirements.undisturbed settings steps := by
        rw [hchanged, Requirements.undisturbed]
      let settled : Reconciler ρ σ :=
        { p with handle := { p.handle with requirements := p.handle.requirements.undisturbed settings steps } }
      refine ⟨settled, p.handle.requirements.snapshot, steps, left.requirements, hlast, hundisturbed.symm,
        hp.requirements.undisturbed settings steps, settled_undisturbed hp.requirements hexecutes.planned rfl rfl, rfl,
        ?_⟩
      intro I hstable hI
      refine Handle.Keeps.announceApplied ?_ _
      exact hleft.allows.change hstable
        (fun q => (q.commit p.handle.requirements.snapshot steps).endPass.1) (hundisturbed ▸ hI)

/-- An apply that succeeded in at least one pass leaves the requirements settled, whatever the host asked for in the
meantime, as long as the catalogs that it put in place are filed under their own identifiers. -/
theorem apply_settled (host : Host σ) (fuel : Nat) (stopsRunning : Bool) (r : Reconciler ρ σ) (report : Report)
    (hreached : r.handle.requirements.ReachedOver Catalog.Keyed) (hquiet : r.handle.Quiet)
    (hhost : ∀ number steps state, (host number steps state).AsksOnly (Operation.Installs Catalog.Keyed))
    (happly : (r.apply host fuel stopsRunning).2 = .finished (.ok report)) (hpasses : 1 ≤ report.passes) :
    Settled stopsRunning (r.apply host fuel stopsRunning).1 := by
  have hconcludes := apply_concludes host fuel stopsRunning r
  rw [← Prod.eta (r.apply host fuel stopsRunning), happly] at hconcludes
  obtain ⟨q, snapshot, steps, left, -, -, -, hsettled, hoptions, hkept⟩ :=
    hconcludes.settles (fun _ hnever => hnever.elim) hreached hquiet.allows hhost hpasses
  -- Since observers only listen, what the last pass took over is what is there in the end.
  have hsame := (hkept (· = q.handle.requirements) (fun _ _ hnever => hnever.elim) rfl).requirements
  exact hsettled.of_eq hsame hoptions

open Simulator in
theorem apply_settled_dusk :
    (dusk []).handle.requirements.ReachedOver Catalog.Keyed ∧ (dusk []).handle.Quiet ∧
      (∀ number steps state, (Simulator.host number steps state).AsksOnly (Operation.Installs Catalog.Keyed)) ∧
      ((dusk []).apply Simulator.host 5 false).2 = .finished (.ok ⟨2, 2, 0, 0, 0⟩) ∧
      Settled false ((dusk []).apply Simulator.host 5 false).1 ∧
      ((dusk []).apply Simulator.host 5 false).1.Rests false := by
  have happly : ((dusk []).apply Simulator.host 5 false).2 = .finished (.ok ⟨2, 2, 0, 0, 0⟩) := rfl
  have hsettled := apply_settled Simulator.host 5 false (dusk []) ⟨2, 2, 0, 0, 0⟩ (dusk_reached []) (dusk_quiet [])
    (host_installs Catalog.Keyed) happly (by decide)
  exact ⟨dusk_reached [], dusk_quiet [], host_installs Catalog.Keyed, happly, hsettled,
    hsettled.rests (by decide +kernel)⟩

/-! ## A switchboard -/

/-- The board is to run, and the host has nothing to add. -/
def office (callers : Nat) : Reconciler Unit Unit :=
  { handle :=
      { requirements := .initial (Solver.switchboard callers)
          { Settings.empty with user := Table.empty.insert (.component "board") .mandatory } .store
        observers := [] }
    host := ()
    options := .standard
    inFlight := false }

theorem office_reached (callers : Nat) : (office callers).handle.requirements.ReachedOver Catalog.Keyed :=
  Requirements.reachedOver_initial (Solver.switchboard_keyed callers) _ _

theorem office_catalog (callers : Nat) :
    (office callers).handle.requirements.catalog = Solver.switchboard callers :=
  Requirements.catalog_eq_of_context Requirements.context_trackAll

/-- Discovery finds no fault with the switchboard. -/
theorem office_available (callers : Nat) {k : Subject} (hlisted : (Solver.switchboard callers).contains k = true) :
    (Solver.switchboard callers).isUnavailable k = false := by
  have hk := Solver.switchboard_keyed callers
  refine Bool.eq_false_iff.mpr fun hunavailable => ?_
  cases (Catalog.isUnavailable_iff hlisted).mp hunavailable with
  | component hget herror =>
      have hmem := (hk.component?_eq_some.mp hget).1
      rw [Solver.componentList_switchboard] at hmem
      simp only [List.mem_cons, List.not_mem_nil, or_false] at hmem
      rcases hmem with rfl | rfl | rfl <;> cases herror
  | service hget herror =>
      have hmem := (hk.service?_eq_some.mp hget).1
      rw [Solver.serviceList_switchboard] at hmem
      simp only [List.mem_cons, List.not_mem_nil, or_false] at hmem
      rcases hmem with rfl | rfl <;> cases herror

theorem office_running (callers : Nat) : (office callers).handle.requirements.running = .empty :=
  Requirements.running_eq_of_context Requirements.context_trackAll

/-- The board is there. -/
theorem office_board (callers : Nat) : (Solver.switchboard callers).contains (.component "board") = true := by
  have hlisted : Solver.board callers ∈ (Solver.switchboard callers).componentList := by
    rw [Solver.componentList_switchboard]
    exact List.mem_cons_self
  exact (Solver.switchboard_keyed callers).components.contains_of_mem hlisted

theorem office_posed (callers : Nat) : Solver.Exchange callers (office callers).handle.requirements.snapshot := by
  let settings : Settings := { Settings.empty with user := Table.empty.insert (.component "board") .mandatory }
  have hseverity : ∀ k, (office callers).handle.requirements.snapshot.severity k =
      if (Solver.switchboard callers).contains k = true then settings.baseline k else .passive :=
    fun k => Requirements.severity_initial (office_available callers)
  have hpassive : ∀ k, settings.baseline k = .passive →
      (office callers).handle.requirements.snapshot.severity k = .passive := by
    intro k hbaseline
    rw [hseverity, hbaseline, ite_self]
  refine ⟨office_catalog callers, ?_, fun id hid => hpassive _ ?_, fun id => hpassive _ ?_, ?_⟩
  · refine (hseverity (.component "board")).trans ?_
    rw [if_pos (office_board callers)]
    rfl
  · simp [settings, Settings.baseline, Settings.empty, Table.get?_insert, hid]
  · simp [settings, Settings.baseline, Settings.empty, Table.get?_insert]
  · exact congrArg (·.contains "relay") (office_running callers)

/-- A host that asks for nothing leaves the requirements undisturbed. -/
theorem apply_by_idle {p : Steps} (hquiet : r.handle.Quiet) (hflight : r.inFlight = false) (hdirty : r.isDirty = true)
    (hplan : r.plan stopsRunning = .ok (.ready p)) (fuel : Nat) :
    let applied := r.apply Host.idle (fuel + 1) stopsRunning
    applied.2 = .finished (.ok (Report.blank.record p)) ∧ applied.1.options = r.options ∧
      applied.1.handle.requirements = r.handle.requirements.undisturbed r.handle.requirements.settings p := by
  have hran : (Host.idle 1 p r.host).runOn r.handle.requirements.beginPass =
      (r.handle.requirements.beginPass.editSettings r.handle.requirements.settings, r.host, Verdict.done) := rfl
  obtain ⟨-, hanswer, -, hoptions, hleft⟩ := apply_of_untouched hquiet hflight hdirty hplan hran fuel
  exact ⟨hanswer, hoptions, hleft⟩

/-- The apply goes by the plan that passes for cheap, ends well and leaves nothing dirty, though the relay is then to
start. -/
theorem apply_office (callers fuel : Nat) (hholds : 10 * callers < UInt32.size)
    (hexceeds : UInt32.size ≤ 10 + 10 * callers) (hmany : 1 < callers) :
    let applied := (office callers).apply Host.idle (fuel + 1) false
    ∃ report, applied.2 = .finished (.ok report) ∧ report.passes = 1 ∧ applied.1.isDirty = false ∧
      ¬ applied.1.Rests false := by
  intro applied
  let found := (office callers).handle.requirements
  have hposed := office_posed callers
  have hlimit : 3 ≤ SolverOptions.standard.limit := by decide
  have hrests : found.snapshot.isRunning "generator" = false :=
    congrArg (·.contains "generator") (office_running callers)
  obtain ⟨runs, hsolved, hfeasible, hrelay, -⟩ :=
    hposed.solve_wrapped ((hposed.free_le false).trans hlimit) hrests hholds hexceeds
  let p := found.snapshot.stepsTo false runs
  have hdirty : (office callers).isDirty = true := Requirements.isDirty_initial _ _ (office_board callers)
  have hquiet : (office callers).handle.Quiet := nofun
  obtain ⟨hanswer, hoptions, hleft⟩ := apply_by_idle hquiet rfl hdirty hsolved fuel
  have hcount := Requirements.dirtyCount_undisturbed ((office_reached callers).undisturbed found.settings p).counted
  refine ⟨_, hanswer, rfl, ?_, ?_⟩
  · rw [isDirty, hleft, Requirements.isDirty, hcount]
    rfl
  · have hk : found.catalog.Keyed := (office_reached callers).runsKnown.catalog
    have hbrings : found.snapshot.Brings runs (found.undisturbed found.settings p).running := by
      intro c hc
      rw [Requirements.running_undisturbed hk (Snapshot.mem_admitted.mp hc).1]
      exact Snapshot.outcome_stepsTo hk hc
    obtain ⟨q, hagain, hstarts, -⟩ := hposed.solve_withRunning hlimit hfeasible hrelay hbrings hholds hmany
    have hplan : applied.1.plan false = .ok (.ready q) := by
      rw [plan, hleft, Requirements.snapshot_undisturbed, hoptions]
      exact hagain
    refine not_rests hplan (.inl fun hempty => ?_)
    rw [hempty] at hstarts
    exact IdSet.not_mem_empty hstarts

/-- An apply that succeeded and left nothing dirty, though the relay is still to start. -/
theorem apply_unsettled :
    (office Solver.crowd).handle.requirements.ReachedOver Catalog.Keyed ∧ (office Solver.crowd).handle.Quiet ∧
      (∀ number steps state,
        (Host.idle number steps state : Program (Unit × Verdict)).AsksOnly (Operation.Installs Catalog.Keyed)) ∧
      ∃ report, ((office Solver.crowd).apply Host.idle 5 false).2 = .finished (.ok report) ∧ 1 ≤ report.passes ∧
        ¬ ((office Solver.crowd).apply Host.idle 5 false).1.Rests false := by
  obtain ⟨report, hanswer, hpasses, -, hunrested⟩ :=
    apply_office Solver.crowd 4 (by decide) (by decide) (by decide)
  exact ⟨office_reached _, nofun, fun _ _ _ => trivial, report, hanswer, hpasses.ge, hunrested⟩

end Reconciler

end Orchestrator
