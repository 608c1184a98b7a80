import Orchestrator.Proofs.Reconcile.Clean
/-!
Reports of the host on what runs. While a pass is being carried out a report that contradicts what was known is taken
note of and leads to another pass. A report that repeats what was known is not, although the steps that are carried out
may be about to make it untrue: then taking over the outcome of the pass overrides the report, and no pass follows.
-/

namespace Orchestrator

/-- What an operation reports on a component. -/
def Operation.report? (id : String) : Operation → Option Bool
  | .markRunning other running => if other = id then some running else none
  | _ => none

theorem Operation.report?_eq_some {id : String} {operation : Operation} {running : Bool}
    (h : operation.report? id = some running) : operation = .markRunning id running := by
  cases operation with
  | markRunning other reported =>
      rw [report?] at h
      split at h
      next heq =>
        cases h
        rw [heq]
      next => cases h
  | _ => cases h

/-- The last report on a component among operations that were asked for one after the other. -/
def Operation.lastReport? (id : String) (operations : List Operation) : Option Bool :=
  (operations.filterMap (Operation.report? id)).getLast?

theorem Operation.markRunning_mem_of_lastReport? {id : String} {operations : List Operation} {running : Bool}
    (h : lastReport? id operations = some running) : Operation.markRunning id running ∈ operations := by
  obtain ⟨operation, hoperation, hreport⟩ := List.mem_filterMap.mp (List.mem_of_getLast? h)
  rwa [← report?_eq_some hreport]

/-- The operations that a program asks for on its way, in order. -/
def Program.requests {α σ : Type} (perform : Operation → σ → σ × Option Bool) (look : σ → Requirements) :
    Program α → σ → List Operation
  | .done _, _ => []
  | .perform operation next, s =>
    operation :: (next (perform operation s).2).requests perform look (perform operation s).1
  | .look next, s => (next (look s)).requests perform look s

namespace Requirements

variable {r : Requirements}

/-- A report on a known component that nobody took note of says what was known before. -/
theorem contains_running_of_unnoted {id : String} {running : Bool} (happlying : r.isApplying = true)
    (hknown : r.catalog.components.contains id = true)
    (hunnoted : (r.markRunning id running).wantsReapply = false) : r.running.contains id = running := by
  by_contra hne
  have hnoted : (r.markRunning id running).wantsReapply = true := by
    cases running with
    | true =>
        have hrested : r.running.contains id = false := Bool.eq_false_of_not_eq_true hne
        rw [markRunning, if_pos rfl, hknown, hrested]
        exact noted_touch happlying
    | false =>
        have hran : r.running.contains id = true := Bool.eq_true_of_not_eq_false hne
        rw [markRunning, if_neg Bool.false_ne_true, if_pos hran]
        exact noted_touch happlying
  rw [hnoted] at hunnoted
  cases hunnoted

end Requirements

namespace Handle

variable {ρ α : Type} {h : Handle ρ}

/-- The operations that a program asks for through the handle. -/
def requests (h : Handle ρ) (p : Program α) : List Operation := p.requests (performVia announce) requirements h

theorem noticed_perform (happlying : h.requirements.isApplying = true) (operation : Operation) :
    (h.requirements.perform operation).1.Noticed (h.perform operation).1.requirements := by
  have hstable : Stable (fun _ => True) (h.requirements.perform operation).1.Noticed :=
    fun _ operation _ hq => hq.trans (Requirements.noticed_perform hq.isApplying operation)
  have hstill := (Requirements.noticed_perform happlying operation).isApplying
  exact (h.allows_true.install (Keeps.announce hstable) (.refl hstill)).requirements

theorem noticed_run (happlying : h.requirements.isApplying = true) (p : Program α) :
    h.requirements.Noticed (h.run p).1.requirements := by
  have hstable : Stable (fun _ => True) h.requirements.Noticed :=
    fun _ operation _ hq => hq.trans (Requirements.noticed_perform hq.isApplying operation)
  have hkeeps : h.Keeps (fun _ => True) h.requirements.Noticed := ⟨.refl happlying, h.allows_true⟩
  exact (hkeeps.run hstable (fun _ htrue => htrue) p.asksOnly_true).requirements

/-- If nobody took note of a change until a program ended, then each operation that it asked for found the requirements
as they were in the beginning, except for the store of settings, and left them so. -/
theorem unnoted_requests {p : Program α} (happlying : h.requirements.isApplying = true)
    (hunnoted : (h.run p).1.requirements.wantsReapply = false) :
    ∀ operation ∈ h.requests p, ∃ settings,
      ((h.requirements.editSettings settings).perform operation).1.wantsReapply = false := by
  induction p generalizing h with
  | done result => exact fun _ hnone => (List.not_mem_nil hnone).elim
  | look next ih => exact ih h.requirements happlying hunnoted
  | perform operation next ih =>
      have hfirst := Requirements.noticed_perform happlying operation
      have hheard := noticed_perform happlying operation
      have hrest := noticed_run hheard.isApplying (next (h.perform operation).2)
      have hafterwards := hrest.wantsReapply_eq_false hunnoted
      intro other hother
      rcases List.mem_cons.mp hother with rfl | hlater
      · exact ⟨h.requirements.settings, hheard.wantsReapply_eq_false hafterwards⟩
      · obtain ⟨settings, hsettings⟩ := ih _ hheard.isApplying hunnoted other hlater
        obtain ⟨edited, hedited⟩ := (hfirst.trans hheard).unnoted hafterwards
        rw [hedited] at hsettings
        exact ⟨settings, hsettings⟩

end Handle

namespace Reconciler

variable {ρ σ : Type} {host : Host σ} {stopsRunning : Bool} {r r' : Reconciler ρ σ} {report : Report}

/-- The operations that the host asks for while it deals with steps in a pass. -/
def hostRequests (host : Host σ) (r : Reconciler ρ σ) (report : Report) (steps : Steps) : List Operation :=
  r.begun.requests (host (report.passes + 1) steps r.host)

/-- A pass without notice of a change leaves the catalog as it was, and every report in it on a component that is known
said what was known. -/
theorem Executes.reports_known {steps : Steps} {left : Handle ρ} {state : σ} {verdict : Verdict}
    (h : r.Executes host stopsRunning report steps left state verdict)
    (hunnoted : left.requirements.wantsReapply = false) :
    left.requirements.catalog = r.handle.requirements.catalog ∧
      left.requirements.running = r.handle.requirements.running ∧
      ∀ id running, r.handle.requirements.catalog.components.contains id = true →
        Operation.markRunning id running ∈ r.hostRequests host report steps →
        r.handle.requirements.running.contains id = running := by
  obtain ⟨settings, hleft⟩ := h.unchanged hunnoted
  refine ⟨by rw [hleft]; rfl, by rw [hleft]; rfl, ?_⟩
  intro id running hknown hrequested
  have hran : (r.begun.run (host (report.passes + 1) steps r.host)).1.requirements.wantsReapply = false := by
    rw [h.ran]
    exact hunnoted
  obtain ⟨edited, hedited⟩ := Handle.unnoted_requests rfl hran _ hrequested
  exact Requirements.contains_running_of_unnoted (r := r.begun.requirements.editSettings edited) rfl hknown hedited

/-- If the host reports on a component in a pass that it carries out, then another pass follows, or its last report only
repeats what was known before, and the component runs afterwards as the steps have it. So the report stands unless the
steps start the component, where it was reported stopped, or stop or exclude it, where it was reported running. -/
theorem report_repeated_or_noted (host : Host σ) (stopsRunning : Bool) (r : Reconciler ρ σ) (report : Report)
    {snapshot : Snapshot} {steps : Steps} {left : Requirements} {id : String} {running : Bool}
    (hcourse : r.course host stopsRunning report = .executed snapshot steps left .done)
    (hknown : r.handle.requirements.catalog.components.contains id = true ∨
      left.catalog.components.contains id = true)
    (hreport : Operation.lastReport? id (r.hostRequests host report steps) = some running) :
    (∃ report', (r.pass host stopsRunning report).2 = .again report') ∨
      r.handle.requirements.running.contains id = running ∧
        (left.commit snapshot steps).running.contains id = steps.runsAfter id running ∧
        ((left.commit snapshot steps).running.contains id = running ∨
          running = false ∧ id ∈ steps.start ∨ running = true ∧ (id ∈ steps.stop ∨ id ∈ steps.exclude)) := by
  have hundergoes := pass_undergoes host stopsRunning r report
  rw [hcourse, ← Prod.eta (r.pass host stopsRunning report)] at hundergoes
  revert hundergoes
  generalize (r.pass host stopsRunning report).1 = r'
  generalize (r.pass host stopsRunning report).2 = progress
  intro hundergoes
  cases hundergoes with
  | @done steps left state progress executes next =>
      cases hwants : left.requirements.wantsReapply with
      | true =>
          rw [hwants] at next
          exact .inl ⟨_, next⟩
      | false =>
          obtain ⟨hcatalog, hrunning, hreports⟩ := executes.reports_known hwants
          have hfiled : r.handle.requirements.catalog.components.contains id = true := by
            rw [hcatalog, or_self] at hknown
            exact hknown
          have hrepeats := hreports id running hfiled (Operation.markRunning_mem_of_lastReport? hreport)
          have hcommitted : (left.requirements.commit r.handle.requirements.snapshot steps).running.contains id =
              steps.runsAfter id running := by
            rw [Requirements.contains_running_commit (fun _ => hcatalog ▸ hfiled), hrunning, hrepeats]
          refine .inr ⟨hrepeats, hcommitted, ?_⟩
          rw [hcommitted]
          exact steps.runsAfter_cases id running

/-- Once something is started the host reports that it runs, or that it went out at once. -/
def reporting (running : Bool) : Host Unit := fun _ steps s =>
  (Program.performAll (steps.start.toList.map (.markRunning · running))).andThen fun _ => .done (s, .done)

/-- The steps that light the lamp. -/
def lighting : Steps := ⟨IdSet.ofList ["lamp"], .empty, .empty, 0⟩

/-- That the lamp runs is news while it is being lit, so that another pass follows. -/
theorem report_repeated_or_noted_lit :
    ∃ snapshot left,
      cottage.course (reporting true) false .blank = .executed snapshot lighting left .done ∧
        cottage.handle.requirements.catalog.components.contains "lamp" = true ∧
        Operation.lastReport? "lamp" (cottage.hostRequests (reporting true) .blank lighting) = some true ∧
        ∃ report', (cottage.pass (reporting true) false .blank).2 = .again report' := by
  have hreport : Operation.lastReport? "lamp" (cottage.hostRequests (reporting true) .blank lighting) = some true := rfl
  refine ⟨cottage.handle.requirements.snapshot,
    (cottage.begun.run (reporting true 1 lighting ())).1.requirements, rfl, rfl, hreport, ?_⟩
  rcases report_repeated_or_noted (reporting true) false cottage .blank rfl (.inl rfl) hreport with
    hagain | ⟨hran, -, -⟩
  · exact hagain
  · cases hran

/-- That it does not run is none: the lamp went out at once, and after the pass it counts as lit for good. -/
theorem report_discarded :
    cottage.handle.requirements.ReachedOver Catalog.Keyed ∧
      ∃ snapshot steps left, cottage.course (reporting false) false .blank = .executed snapshot steps left .done ∧
        cottage.handle.requirements.catalog.components.contains "lamp" = true ∧
        Operation.lastReport? "lamp" (cottage.hostRequests (reporting false) .blank steps) = some false ∧
        (left.commit snapshot steps).running.contains "lamp" = true ∧
        (cottage.pass (reporting false) false .blank).2 = .ended (.ok ⟨1, 1, 0, 0, 0⟩) ∧
        (cottage.apply (reporting false) 5 false).2 = .finished (.ok ⟨1, 1, 0, 0, 0⟩) ∧
        (cottage.apply (reporting false) 5 false).1.handle.requirements.running = IdSet.ofList ["lamp"] :=
  ⟨cottage_reached, _, _, _, rfl, rfl, rfl, rfl, rfl, rfl, rfl⟩

end Reconciler

end Orchestrator
