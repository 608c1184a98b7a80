import Orchestrator.Proofs.Reconcile.Reaction
import Orchestrator.Proofs.Requirements.Switch
import Orchestrator.Proofs.Simulator
import Orchestrator.Proofs.Solver.Constraints
import Orchestrator.Proofs.Solver.FixedPoint
/-!
Switching all off works. Where everything is vetoed, the one plan there is excludes it all and costs nothing, however
little the solver may search; nothing that is demanded or depended on stands in the way. So no apply comes to nothing
for want of a plan as long as all stays switched off, and one that is carried out leaves nothing running.
-/

namespace Orchestrator

/-- The steps that exclude everything there is. -/
def Catalog.clearance (c : Catalog) : Steps := ⟨.empty, .empty, IdSet.ofList c.components.keys, 0⟩

/-! ## Plans -/

namespace Snapshot

variable {s : Snapshot} {stopsRunning : Bool}

/-- Whatever the catalog has is vetoed. -/
def AllVetoed (s : Snapshot) : Prop := ∀ k, s.catalog.contains k = true → s.severity k = .excluded

theorem AllVetoed.isBarred (h : s.AllVetoed) (hk : s.catalog.Keyed) {c : Component}
    (hc : c ∈ s.catalog.componentList) : s.isBarred c = true :=
  isBarred_iff.mpr (.inl (h (.component c.id) (hk.components.contains_of_mem hc)))

theorem AllVetoed.serviceSeverity (h : s.AllVetoed) (hk : s.catalog.Keyed) {x : Service}
    (hx : x ∈ s.catalog.serviceList) : s.serviceSeverity x.id = .excluded :=
  h (.service x.id) (hk.services.contains_of_mem hx)

theorem AllVetoed.admitted (h : s.AllVetoed) (hk : s.catalog.Keyed) : s.admitted = [] := by
  refine List.filter_eq_nil_iff.mpr fun c hc => ?_
  rw [h.isBarred hk hc]
  decide

/-- To run nothing is all right where everything is vetoed, since no vetoed service has to be served. -/
theorem AllVetoed.feasible (h : s.AllVetoed) (hk : s.catalog.Keyed) : s.Feasible (fun _ => false) where
  exclusive := fun _ _ _ _ _ _ hruns => (Bool.false_ne_true hruns).elim
  mandatory := by
    intro c hc
    rw [h.admitted hk] at hc
    exact (List.not_mem_nil hc).elim
  served := by
    intro x hx _ hbinding
    rw [h.serviceSeverity hk hx] at hbinding
    cases hbinding
  met := fun _ _ hruns => (Bool.false_ne_true hruns).elim

theorem AllVetoed.stepsTo (h : s.AllVetoed) (hk : s.catalog.Keyed) (runs : String → Bool) :
    s.stepsTo stopsRunning runs = s.catalog.clearance := by
  have hexcluded : (s.problem stopsRunning).excluded = IdSet.ofList s.catalog.components.keys := by
    have hall : s.catalog.componentList.filter s.isBarred = s.catalog.componentList :=
      List.filter_eq_self.mpr fun c hc => h.isBarred hk hc
    rw [problem, hall]
    exact congrArg IdSet.ofList hk.components.map_values
  have hmissed : s.catalog.serviceList.countP (s.isMissed runs) = 0 := by
    refine List.countP_eq_zero.mpr fun x hx => ?_
    rw [isMissed, h.serviceSeverity hk hx]
    simp
  have hcharge : s.charge stopsRunning runs = 0 := by
    rw [charge, cost, h.admitted hk, hmissed]
    rfl
  rw [Snapshot.stepsTo, decisions, h.admitted hk, hcharge, Solver.Problem.steps, hexcluded]
  rfl

/-- Where everything is vetoed, everything is excluded at no cost, without any search. -/
theorem AllVetoed.solve (h : s.AllVetoed) (hk : s.catalog.Keyed) (stopsRunning : Bool) (options : SolverOptions) :
    Solver.solve s stopsRunning options = .ok (.ready s.catalog.clearance) := by
  have hasked : s.catalog.serviceList.any (fun x => s.isDemanded x && (s.implementers x.id).isEmpty) = false := by
    refine List.any_eq_false.mpr fun x hx => ?_
    rw [isDemanded, h.serviceSeverity hk hx]
    simp
  have hfree : (s.problem stopsRunning).free = 0 := by
    rw [Solver.Problem.free, problem, h.admitted hk]
    rfl
  cases hsearch : (s.problem stopsRunning).search options with
  | none => exact (search_none hk hsearch (h.feasible hk)).elim
  | some best =>
      obtain ⟨runs, -, hsteps⟩ := search_some hk hsearch
      rw [h.stepsTo hk runs] at hsteps
      exact (solve_eq_ready_iff hk).mpr ⟨hasked, hfree.trans_le (Nat.zero_le _), best, hsearch, hsteps.symm⟩

end Snapshot

/-- While all is switched off the plan is to exclude everything. -/
theorem Requirements.IsOff.solve {r : Requirements} (h : r.IsOff Catalog.Keyed) (stopsRunning : Bool)
    (options : SolverOptions) :
    Solver.solve r.snapshot stopsRunning options = .ok (.ready r.catalog.clearance) := by
  have hvetoed : r.snapshot.AllVetoed := fun _ hlisted => h.severity hlisted
  exact hvetoed.solve h.reached.runsKnown.catalog stopsRunning options

/-- Once everything is excluded, nothing runs. -/
theorem Requirements.running_cleared {r : Requirements} {P : Catalog → Prop} (h : r.RunsKnown P)
    (snapshot : Snapshot) : (r.commit snapshot r.catalog.clearance).running = .empty := by
  refine IdSet.ext fun id => iff_of_false (fun hruns => ?_) IdSet.not_mem_empty
  obtain ⟨hran, -, hadmitted⟩ := mem_running_commit.mp hruns
  have hknown : r.catalog.components.contains id = true := by
    rcases hran with ⟨-, hknown⟩ | hran
    · exact hknown
    · exact h.known id hran
  exact hadmitted (IdSet.mem_ofList.mpr (IdMap.mem_keys.mpr hknown))

/-! ## Applies -/

/-- The operation installs only catalogs that are filed under their own identifiers, and switches nothing back on. -/
def Operation.KeepsOff (operation : Operation) : Prop := operation.Installs Catalog.Keyed ∧ operation.StaysOff

/-- What runs does not become more by operations that report no start. -/
theorem Requirements.stable_resting :
    Handle.Stable Operation.ReportsNoStart (fun r : Requirements => r.running = .empty) := by
  intro r operation hreports hr
  cases operation with
  | refreshCatalog catalog =>
      refine (running_eq_of_context (context_refreshCatalog catalog)).trans ?_
      change r.running.filter _ = _
      rw [hr]
      rfl
  | markRunning id running =>
      obtain rfl : running = false := hreports
      change (r.markRunning id false).running = .empty
      rw [markRunning, if_neg Bool.false_ne_true, hr]
      exact hr
  | _ => exact (running_perform (by exact True.intro)).trans hr

namespace Reconciler

variable {ρ σ : Type} {host : Host σ} {stopsRunning : Bool} {r r' : Reconciler ρ σ} {report : Report}

theorem lasts_isOff : Lasts Operation.KeepsOff (Requirements.IsOff Catalog.Keyed) where
  stable := fun _ _ he hr => hr.after he
  failure := fun _ _ => ⟨trivial, trivial⟩

/-- A pass for which all is switched off has a plan, so that nothing but the host can make it fail. -/
theorem Undergoes.failed_of_isOff {c : Course} {fault : Fault} (hoff : r.handle.requirements.IsOff Catalog.Keyed)
    (h : r.Undergoes host stopsRunning report c (r', .ended (.error fault))) :
    ∃ culprit message, fault = .executionFailed culprit message := by
  generalize hresult : Except.error fault = result at h
  cases h with
  | refused unplanned =>
      rw [plan, hoff.solve] at unplanned
      cases unplanned
  | @failed steps left state f executes =>
      cases hresult
      exact ⟨f.culprit, f.message, rfl⟩
  | done executes next =>
      cases hresult
      split at next
      · cases next
      · cases next

theorem Concludes.failed_of_isOff {courses : List Course} {fault : Fault}
    (hr : r.handle.Keeps Operation.KeepsOff (Requirements.IsOff Catalog.Keyed))
    (hhost : ∀ number steps state, (host number steps state).AsksOnly Operation.KeepsOff)
    (h : r.Concludes host stopsRunning courses (r', .finished (.error fault))) :
    ∃ culprit message, fault = .executionFailed culprit message := by
  have hs : Sustains Operation.KeepsOff Operation.KeepsOff (Requirements.IsOff Catalog.Keyed) host :=
    ⟨lasts_isOff, hhost, fun _ hkeeps => hkeeps⟩
  cases h with
  | proceeds dirty proceeds =>
      obtain ⟨q, report', c, hq, -, hended⟩ := hs.lastPass (r := { r with inFlight := true }) hr proceeds rfl
      exact hended.failed_of_isOff hq.requirements

/-- The host asks for nothing and always succeeds. -/
def Host.Obliges (host : Host σ) : Prop :=
  ∀ number steps state, (host number steps state).AsksOnly (fun _ => False) ∧
    (host number steps state).Ends (fun out => out.2 = .done)

theorem Executes.of_obliges (hhost : Host.Obliges host) {steps : Steps} {left : Handle ρ} {state : σ}
    {verdict : Verdict} (h : r.Executes host stopsRunning report steps left state verdict) :
    left = r.begun ∧ verdict = .done := by
  obtain ⟨hasks, hends⟩ := hhost (report.passes + 1) steps r.host
  have hleft : (r.begun.run (host (report.passes + 1) steps r.host)).1 = r.begun :=
    Program.interpret_preserves (I := (· = r.begun)) (fun _ _ hnever _ => hnever.elim) hasks rfl
  have hverdict : (r.begun.run (host (report.passes + 1) steps r.host)).2.2 = .done := hends.interpret _
  rw [h.ran] at hleft hverdict
  exact ⟨hleft, hverdict⟩

/-- A pass that clears everything away ends the apply. -/
theorem pass_clears (hhost : Host.Obliges host) (hoff : r.handle.requirements.IsOff Catalog.Keyed)
    (hobservers : r.handle.Allows Operation.ReportsNoStart) (stopsRunning : Bool) (report : Report) :
    (r.pass host stopsRunning report).2 = .ended (.ok (report.record r.handle.requirements.catalog.clearance)) ∧
      (r.pass host stopsRunning report).1.handle.Keeps Operation.ReportsNoStart (fun q => q.running = .empty) := by
  have hundergoes := pass_undergoes host stopsRunning r report
  revert hundergoes
  generalize r.course host stopsRunning report = c
  generalize r.pass host stopsRunning report = passed
  intro hundergoes
  cases hundergoes with
  | refused unplanned =>
      rw [plan, hoff.solve] at unplanned
      cases unplanned
  | abandoned executes => cases (executes.of_obliges hhost).2
  | failed executes => cases (executes.of_obliges hhost).2
  | @done steps left state progress executes next =>
      have hplanned := executes.planned
      rw [plan, hoff.solve] at hplanned
      cases hplanned
      obtain ⟨rfl, -⟩ := executes.of_obliges hhost
      refine ⟨next, ?_⟩
      have hbegun : r.begun.Allows Operation.ReportsNoStart := hobservers
      refine hbegun.change Requirements.stable_resting (fun q => (q.commit _ _).endPass.1) ?_
      exact Requirements.running_cleared (r := r.handle.requirements.beginPass)
        ⟨hoff.reached.runsKnown.catalog, hoff.reached.runsKnown.known⟩ _

theorem apply_clears (hhost : Host.Obliges host) (hoff : r.handle.requirements.IsOff Catalog.Keyed)
    (hobservers : r.handle.Allows Operation.ReportsNoStart) (hdirty : r.isDirty = true) (hflight : r.inFlight = false)
    (fuel : Nat) (stopsRunning : Bool) :
    (r.apply host (fuel + 1) stopsRunning).2 =
        .finished (.ok (Report.blank.record r.handle.requirements.catalog.clearance)) ∧
      (r.apply host (fuel + 1) stopsRunning).1.handle.requirements.running = .empty := by
  obtain ⟨hprogress, hrests⟩ :=
    pass_clears (r := { r with inFlight := true }) hhost hoff hobservers stopsRunning .blank
  obtain ⟨-, hanswer, -, -, hrequirements⟩ := apply_of_ended hflight hdirty (Prod.ext rfl hprogress) fuel
  refine ⟨hanswer, ?_⟩
  rw [hrequirements]
  exact hrests.requirements

/-- All is switched off, in requirements that come about over catalogs filed under their own identifiers. Whatever else
is the case, and however little the solver may search, the plan is to start and stop nothing and to exclude all
components at no cost. As long as neither the host nor an observer switches anything back on, an apply can only fail
over what the host does. If something is left to do and the host succeeds and asks for nothing, one pass is enough and
nothing runs any more, unless an observer says so. To switch all back on, with nothing in between, brings back every
final severity and the count of dirty subjects. -/
theorem switch_off_clears (r : Reconciler ρ σ) (hreached : r.handle.requirements.ReachedOver Catalog.Keyed)
    (hdisabled : r.handle.requirements.disabled = true) :
    (∀ stopsRunning options, Solver.solve r.handle.requirements.snapshot stopsRunning options =
      .ok (.ready ⟨.empty, .empty, IdSet.ofList r.handle.requirements.catalog.components.keys, 0⟩)) ∧
    (∀ (host : Host σ) fuel stopsRunning fault, r.handle.Allows Operation.KeepsOff →
      (∀ number steps state, (host number steps state).AsksOnly Operation.KeepsOff) →
      (r.apply host fuel stopsRunning).2 = .finished (.error fault) →
        ∃ culprit message, fault = .executionFailed culprit message) ∧
    (∀ (host : Host σ) fuel stopsRunning, r.handle.Allows Operation.ReportsNoStart → Host.Obliges host →
      r.isDirty = true → r.inFlight = false →
        (r.apply host (fuel + 1) stopsRunning).2 =
            .finished (.ok (Report.blank.record r.handle.requirements.catalog.clearance)) ∧
          (r.apply host (fuel + 1) stopsRunning).1.handle.requirements.running = .empty) ∧
    ∀ before : Requirements, before.ReachedOver Catalog.Keyed → before.disabled = false →
      r.handle.requirements = before.setDisabled true →
        (∀ k, (r.handle.requirements.setDisabled false).final? k = before.final? k) ∧
          (r.handle.requirements.setDisabled false).dirtyCount = before.dirtyCount := by
  have hoff : r.handle.requirements.IsOff Catalog.Keyed := ⟨hreached, hdisabled⟩
  refine ⟨hoff.solve, ?_, ?_, ?_⟩
  · intro host fuel stopsRunning fault hobservers hhost hfailed
    exact (apply_concludes_of_eq hfailed).failed_of_isOff ⟨hoff, hobservers⟩ hhost
  · intro host fuel stopsRunning hobservers hhost hdirty hflight
    exact apply_clears hhost hoff hobservers hdirty hflight fuel stopsRunning
  · intro before hbefore hon hsame
    have hstandings : (r.handle.requirements.setDisabled false).standings = before.standings := by
      rw [hsame]
      exact Requirements.standings_setDisabled_twice hbefore.upToDate hon
    have hcounted : (r.handle.requirements.setDisabled false).Counted :=
      hreached.counted.adjust (Requirements.adjusts_setDisabled false)
    refine ⟨fun k => ?_, Requirements.dirtyCount_congr hbefore.counted hcounted hstandings⟩
    rw [Requirements.final?, hstandings, Requirements.final?]

def openingLayer : Layer :=
  ⟨"opening", (Table.empty.insert (.component "shop") .mandatory).insert (.service "cache") .mandatory⟩

/-- The shop is to open, and so is a cache that nobody has. The shop and a timer run. -/
def openShop : Requirements :=
  (((Requirements.initial Solver.rivalry .empty .store).perform (.addLayer openingLayer false)).1.markRunning
    "shop" true).markRunning "timer" true

theorem openShop_reached : openShop.ReachedOver Catalog.Keyed := by
  have hinitial := Requirements.reachedOver_initial Solver.rivalry_keyed .empty .store
  have hasked := hinitial.after (e := .asked (.addLayer openingLayer false)) trivial
  have hshop := hasked.after (e := .asked (.markRunning "shop" true)) trivial
  exact hshop.after (e := .asked (.markRunning "timer" true)) trivial

/-- All is switched off, and the solver may not search at all. -/
def closedShop : Reconciler Unit Unit :=
  { handle := ⟨openShop.setDisabled true, [.listener]⟩, host := (), options := ⟨0, 0⟩, inFlight := false }

/-- The shop cannot open, but it can be closed and found as it was. -/
theorem switch_off_clears_shop :
    closedShop.handle.requirements.ReachedOver Catalog.Keyed ∧ closedShop.handle.requirements.disabled = true ∧
      Solver.solve openShop.snapshot false closedShop.options = .ok .impossible ∧
      closedShop.plan false = .ok (.ready ⟨.empty, .empty, IdSet.ofList ["disk", "flash", "shop", "tape", "timer"], 0⟩) ∧
      (closedShop.apply Host.idle 1 false).1.handle.requirements.running = .empty ∧
      (closedShop.handle.requirements.setDisabled false).final? (.component "shop") = some .mandatory ∧
      (closedShop.handle.requirements.setDisabled false).dirtyCount = openShop.dirtyCount := by
  have hreached : closedShop.handle.requirements.ReachedOver Catalog.Keyed :=
    openShop_reached.after (e := .asked (.setDisabled true)) trivial
  have hdisabled : closedShop.handle.requirements.disabled = true := by decide +kernel
  have hobservers : closedShop.handle.Allows Operation.ReportsNoStart := by
    intro o ho reaction hreaction
    rw [List.mem_singleton.mp ho] at hreaction
    cases hreaction
  obtain ⟨hplan, -, hclears, hlifted⟩ := switch_off_clears closedShop hreached hdisabled
  obtain ⟨-, hrunning⟩ :=
    hclears Host.idle 0 false hobservers (fun _ _ _ => ⟨trivial, rfl⟩) (by decide +kernel) rfl
  obtain ⟨hfinal, hcount⟩ := hlifted openShop openShop_reached (by decide +kernel) rfl
  refine ⟨hreached, hdisabled, by decide +kernel, ?_, hrunning, ?_, hcount⟩
  · refine (hplan false _).trans ?_
    decide +kernel
  · rw [hfinal]
    decide +kernel

end Reconciler

end Orchestrator
