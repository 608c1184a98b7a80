import Orchestrator.Proofs.Reconcile.Settled
import Orchestrator.Proofs.Reconcile.Upkeep
/-!
Rivals are never up at the same time. A plan leads from a state in which no service has two running implementations to
another such state, and a simulator takes down all that goes before it brings up the first that comes. So what its
deeds lead to has no rivals side by side at any moment, not even halfway through a pass or when a start fails.
-/

namespace Orchestrator

/-- Of the components of the catalog that implement one service, at most one is among those that run. -/
def Catalog.Exclusive (c : Catalog) (running : IdSet) : Prop :=
  ∀ service, ∀ x ∈ c.implementations service, ∀ y ∈ c.implementations service,
    x.id ∈ running → y.id ∈ running → x = y

namespace Catalog

variable {c : Catalog} {running fewer : IdSet}

theorem mem_implementations {service : String} {x : Component} :
    x ∈ c.implementations service ↔ x ∈ c.componentList ∧ x.implements = some service := by
  rw [implementations, List.mem_filter, beq_iff_eq]

theorem Exclusive.mono (h : c.Exclusive running) (hfewer : ∀ id ∈ fewer, id ∈ running) : c.Exclusive fewer :=
  fun service x hx y hy hxruns hyruns => h service x hx y hy (hfewer x.id hxruns) (hfewer y.id hyruns)

/-- Where components are filed under their own identifiers, one that runs alone has no rival. -/
theorem Keyed.exclusive_single (hk : c.Keyed) (id : String) : c.Exclusive (IdSet.ofList [id]) := by
  intro service x hx y hy hxruns hyruns
  have hxid : x.id = id := List.mem_singleton.mp (IdSet.mem_ofList.mp hxruns)
  have hyid : y.id = id := List.mem_singleton.mp (IdSet.mem_ofList.mp hyruns)
  exact hk.components.eq_of_name_eq (mem_implementations.mp hx).1 (mem_implementations.mp hy).1 (hxid.trans hyid.symm)

end Catalog

/-- Whatever ran before, no service has two running implementations once a plan is carried out. -/
theorem Snapshot.exclusive_of_ready {s : Snapshot} {stopsRunning : Bool} {options : SolverOptions} {p : Steps}
    {after : IdSet} (hk : s.catalog.Keyed) (hserved : s.catalog.Served)
    (hplan : Solver.solve s stopsRunning options = .ok (.ready p))
    (hafter : ∀ id, after.contains id = p.runsAfter id (s.isRunning id)) : s.catalog.Exclusive after := by
  have hconstraints : (s.withRunning after).HardConstraints after.contains :=
    hardConstraints_withRunning hk hplan fun c _ => hafter c.id
  intro service x hx y hy hxruns hyruns
  obtain ⟨hxlisted, hximplements⟩ := Catalog.mem_implementations.mp hx
  obtain ⟨hylisted, hyimplements⟩ := Catalog.mem_implementations.mp hy
  obtain ⟨found, hfound⟩ := Option.isSome_iff_exists.mp (hserved x hxlisted service hximplements)
  have hnamed : found.id = service := hk.services service found hfound
  have hlisted : found ∈ s.catalog.serviceList := hk.mem_serviceList.mpr (hnamed.symm ▸ hfound)
  exact hconstraints.exclusive found hlisted x hxlisted y hylisted (hnamed.symm ▸ hximplements)
    (hnamed.symm ▸ hyimplements) (IdSet.contains_iff.mpr hxruns) (IdSet.contains_iff.mpr hyruns)

/-- What a list begins with that is put together from two lies within the first, or goes on into the second. -/
theorem cases_of_prefix_append {α : Type} {l before after : List α} (h : l <+: before ++ after) :
    l <+: before ∨ ∃ rest, l = before ++ rest ∧ rest <+: after := by
  obtain ⟨beyond, hbeyond⟩ := h
  rcases List.append_eq_append_iff.mp hbeyond with ⟨rest, hbefore, -⟩ | ⟨rest, hl, hafter⟩
  · exact .inl ⟨rest, hbefore.symm⟩
  · exact .inr ⟨rest, hl, beyond, hafter.symm⟩

namespace Simulator

variable {c : Catalog} {running outset : IdSet} {deeds : List (Nat × Deed)} {pass : Nat}
  {excluded stopped started pending : List String}

theorem mem_redo_deedsOf {id : String} :
    id ∈ redo running (deedsOf pass excluded stopped started) ↔
      id ∈ started ∨ (id ∈ running ∧ ¬ id ∈ excluded) ∧ ¬ id ∈ stopped := by
  rw [redo_deedsOf, IdSet.mem_insertAll, IdSet.mem_eraseAll, IdSet.mem_eraseAll]

/-- A pass that is broken off has not come to all those who were to be started, or not even to all who were to go. -/
theorem exists_of_prefix_deedsOf (h : deeds <+: deedsOf pass excluded stopped started) :
    (∃ gone halted, deeds = deedsOf pass gone halted []) ∨
      ∃ reached, reached <+: started ∧ deeds = deedsOf pass excluded stopped reached := by
  rcases cases_of_prefix_append h with hgoing | ⟨starts, rfl, hstarts⟩
  · rcases cases_of_prefix_append hgoing with hexcludes | ⟨stops, rfl, hstops⟩
    · obtain ⟨gone, -, rfl⟩ := List.prefix_map_iff.mp hexcludes
      refine .inl ⟨gone, [], ?_⟩
      rw [deedsOf, List.map_nil, List.map_nil, List.append_nil, List.append_nil]
    · obtain ⟨halted, -, rfl⟩ := List.prefix_map_iff.mp hstops
      refine .inl ⟨excluded, halted, ?_⟩
      rw [deedsOf, List.map_nil, List.append_nil]
  · obtain ⟨reached, hreached, rfl⟩ := List.prefix_map_iff.mp hstarts
    exact .inr ⟨reached, hreached, rfl⟩

/-- If neither before nor after a pass rivals run side by side, then they do not in the course of it either: as long as
components go, no others run than before, and while they come, no others than afterwards. -/
theorem exclusive_redo_of_prefix (hbefore : c.Exclusive running)
    (hafter : c.Exclusive (redo running (deedsOf pass excluded stopped started)))
    (h : deeds <+: deedsOf pass excluded stopped started) : c.Exclusive (redo running deeds) := by
  rcases exists_of_prefix_deedsOf h with ⟨gone, halted, rfl⟩ | ⟨reached, hreached, rfl⟩
  · refine hbefore.mono fun id hid => ?_
    exact ((mem_redo_deedsOf.mp hid).resolve_left List.not_mem_nil).1.1
  · refine hafter.mono fun id hid => ?_
    exact mem_redo_deedsOf.mpr ((mem_redo_deedsOf.mp hid).imp_left (hreached.subset ·))

/-- Done to the end, the deeds of a pass lead to who runs after its steps. -/
theorem contains_redo_deedsOf {steps : Steps} (hfits : steps.Fits running) (id : String) :
    (redo running (deedsOf pass steps.exclude.toList steps.stop.toList steps.start.toList)).contains id =
      steps.runsAfter id (running.contains id) := by
  have hstart := hfits.start id
  have hstop := hfits.stop id
  refine Bool.eq_iff_iff.mpr ?_
  rw [IdSet.contains_iff, mem_redo_deedsOf, Steps.runsAfter_iff, IdSet.contains_iff]
  simp only [← IdSet.mem_def]
  tauto

/-- At no moment of what was done so far did rivals run side by side. -/
def KeepsApart (c : Catalog) (outset : IdSet) (deeds : List (Nat × Deed)) : Prop :=
  ∀ past, past <+: deeds → c.Exclusive (redo outset past)

theorem KeepsApart.append {added : List (Nat × Deed)} (h : KeepsApart c outset deeds)
    (hadded : ∀ past, past <+: added → c.Exclusive (redo (redo outset deeds) past)) :
    KeepsApart c outset (deeds ++ added) := by
  intro past hpast
  rcases cases_of_prefix_append hpast with hold | ⟨recent, rfl, hrecent⟩
  · exact h past hold
  · rw [redo_append]
    exact hadded recent hrecent

end Simulator

/-! ## Passes and applies -/

/-- These exist and these run. -/
structure Requirements.Stands (c : Catalog) (running : IdSet) (r : Requirements) : Prop where
  catalog : r.catalog = c
  running : r.running = running

theorem Requirements.Stands.of_sameFooting {c : Catalog} {running : IdSet} {r q : Requirements}
    (h : r.Stands c running) (hq : r.SameFooting q) : q.Stands c running :=
  ⟨hq.catalog.trans h.catalog, hq.running.trans h.running⟩

theorem Requirements.stable_stands (c : Catalog) (running : IdSet) :
    Handle.Stable Operation.LeavesRunning (Requirements.Stands c running) :=
  fun _ _ hleaves h => h.of_sameFooting (sameFooting_perform hleaves)

namespace Reconciler

open Simulator (redo deedsOf KeepsApart)

variable {ρ : Type} {r r' : Reconciler ρ Simulator} {stopsRunning : Bool} {report : Report} {c : Catalog}
  {outset : IdSet} {steps : Steps} {h' : Handle ρ} {state : Simulator} {verdict : Verdict}

/-- What a simulator writes down while it deals with steps, whatever observers make of it. -/
theorem Executes.writes (h : r.Executes Simulator.host stopsRunning report steps h' state verdict) :
    verdict ≠ .abandoned ∧ ∃ started, started <+: steps.start.toList ∧
      state.deeds = r.host.deeds ++ deedsOf (report.passes + 1) steps.exclude.toList steps.stop.toList started ∧
      (verdict = .done → started = steps.start.toList) := by
  have hpersists : (r.begun.run (Simulator.host (report.passes + 1) steps r.host)).2.2 ≠ .abandoned :=
    (Simulator.host_persists _ steps r.host).interpret _
  have hwrites : ∃ started, started <+: steps.start.toList ∧
      (r.begun.run (Simulator.host (report.passes + 1) steps r.host)).2.1.deeds =
        r.host.deeds ++ deedsOf (report.passes + 1) steps.exclude.toList steps.stop.toList started ∧
      ((r.begun.run (Simulator.host (report.passes + 1) steps r.host)).2.2 = .done → started = steps.start.toList) :=
    (Simulator.host_ends _ steps r.host).interpret _
  rw [h.ran] at hpersists hwrites
  exact ⟨hpersists, hwrites⟩

/-- The requirements agree with the deeds on what runs, and at no moment did rivals run side by side. -/
structure Agrees (c : Catalog) (outset : IdSet) (r : Reconciler ρ Simulator) : Prop where
  keeps : r.handle.Keeps Operation.LeavesRunning (Requirements.Stands c (redo outset r.host.deeds))
  apart : KeepsApart c outset r.host.deeds

namespace Agrees

variable (hr : r.Agrees c outset)
include hr

theorem left (h : r.Executes Simulator.host stopsRunning report steps h' state verdict) :
    h'.Keeps Operation.LeavesRunning (Requirements.Stands c (redo outset r.host.deeds)) := by
  obtain ⟨htied, hallows⟩ := h.tied ties_sameFooting hr.keeps.allows Simulator.host_leavesRunning
  exact ⟨hr.keeps.requirements.of_sameFooting htied, hallows⟩

theorem fits (hk : c.Keyed) (h : r.Executes Simulator.host stopsRunning report steps h' state verdict) :
    steps.Fits (redo outset r.host.deeds) := by
  have hcatalog : r.handle.requirements.snapshot.catalog = c := hr.keeps.requirements.catalog
  have hkeyed : r.handle.requirements.snapshot.catalog.Keyed := hcatalog ▸ hk
  exact hr.keeps.requirements.running ▸ Snapshot.fits_of_ready hkeyed h.planned

/-- Once all deeds of a pass are done, no rivals run side by side. -/
theorem exclusive (hk : c.Keyed) (hserved : c.Served)
    (h : r.Executes Simulator.host stopsRunning report steps h' state verdict) :
    c.Exclusive (redo (redo outset r.host.deeds)
      (deedsOf (report.passes + 1) steps.exclude.toList steps.stop.toList steps.start.toList)) := by
  have hcatalog : r.handle.requirements.snapshot.catalog = c := hr.keeps.requirements.catalog
  have hrunning : r.handle.requirements.running = redo outset r.host.deeds := hr.keeps.requirements.running
  rw [← hcatalog] at hk hserved ⊢
  refine Snapshot.exclusive_of_ready hk hserved h.planned fun id => ?_
  rw [Simulator.contains_redo_deedsOf (hr.fits (hcatalog ▸ hk) h), ← hrunning]
  rfl

/-- However a pass ends, rivals are kept apart in the course of it. -/
theorem executed (hk : c.Keyed) (hserved : c.Served)
    (h : r.Executes Simulator.host stopsRunning report steps h' state verdict) :
    KeepsApart c outset state.deeds := by
  obtain ⟨-, started, hstarted, hdeeds, -⟩ := h.writes
  rw [hdeeds]
  refine hr.apart.append fun past hpast => ?_
  have hbroken : deedsOf (report.passes + 1) steps.exclude.toList steps.stop.toList started <+:
      deedsOf (report.passes + 1) steps.exclude.toList steps.stop.toList steps.start.toList :=
    (List.prefix_append_right_inj _).mpr (hstarted.map _)
  exact Simulator.exclusive_redo_of_prefix (hr.apart _ List.prefix_rfl) (hr.exclusive hk hserved h)
    (hpast.trans hbroken)

/-- A pass that is carried out to the end is taken over as it was written down. -/
theorem taken (hk : c.Keyed) (hserved : c.Served) {snapshot : Snapshot}
    (h : r.Executes Simulator.host stopsRunning report steps h' state .done) :
    Agrees c outset
      { r with handle := h'.change (fun q => (q.commit snapshot steps).endPass.1), host := state } := by
  obtain ⟨-, started, -, hdeeds, hall⟩ := h.writes
  rw [hall rfl] at hdeeds
  have hleft := hr.left h
  have hfits := hr.fits hk h
  have hknown : ∀ id ∈ steps.start, h'.requirements.catalog.components.contains id = true := by
    intro id hid
    have hrecognized := Catalog.Keyed.recognizes (hr.keeps.requirements.catalog.symm ▸ hk)
    rw [hleft.requirements.catalog, ← hr.keeps.requirements.catalog]
    exact (hrecognized _ _ _ _ rfl h.planned id hid).symm
  refine ⟨?_, hr.executed hk hserved h⟩
  refine hleft.allows.change (Requirements.stable_stands c _) (fun q => (q.commit snapshot steps).endPass.1) ?_
  constructor
  · exact (Requirements.catalog_commit snapshot steps).trans hleft.requirements.catalog
  · have hfitsLeft : steps.Fits h'.requirements.running := hleft.requirements.running ▸ hfits
    have hcommitted := Requirements.running_commit_eq_redo snapshot (report.passes + 1) hfitsLeft hknown
    rw [hleft.requirements.running, ← Simulator.redo_append, ← hdeeds] at hcommitted
    exact hcommitted

theorem undergoes {course : Course} {progress : Progress} (hk : c.Keyed) (hserved : c.Served)
    (h : r.Undergoes Simulator.host stopsRunning report course (r', progress)) :
    KeepsApart c outset r'.host.deeds ∧
      ((∀ result, progress = .ended result → (Outcome.finished result).isFailure = false) → r'.Agrees c outset) := by
  cases h with
  | refused unplanned =>
      have hended : r.handle.requirements.SameFooting r.handle.requirements.beginPass.endPass.1 :=
        Requirements.sameFooting_beginPass.trans Requirements.sameFooting_endPass
      exact ⟨hr.apart, fun _ => ⟨⟨hr.keeps.requirements.of_sameFooting hended, hr.keeps.allows⟩, hr.apart⟩⟩
  | abandoned executes => exact (executes.writes.1 rfl).elim
  | failed executes => exact ⟨hr.executed hk hserved executes, fun hsucceeds => nomatch hsucceeds _ rfl⟩
  | done executes next => exact ⟨hr.executed hk hserved executes, fun _ => hr.taken hk hserved executes⟩

theorem proceeds {courses : List Course} {outcome : Outcome} (hk : c.Keyed) (hserved : c.Served)
    (h : Proceeds Simulator.host stopsRunning r report courses r' outcome) :
    KeepsApart c outset r'.host.deeds ∧ (outcome.isFailure = false → r'.Agrees c outset) := by
  induction h with
  | unfinished => exact ⟨hr.apart, fun _ => hr⟩
  | ended undergoes =>
      obtain ⟨hapart, hagrees⟩ := hr.undergoes hk hserved undergoes
      refine ⟨hapart, fun hsucceeds => hagrees ?_⟩
      intro result hended
      cases hended
      exact hsucceeds
  | abandoned undergoes =>
      obtain ⟨hapart, hagrees⟩ := hr.undergoes hk hserved undergoes
      exact ⟨hapart, fun _ => hagrees nofun⟩
  | again undergoes rest ih => exact ih ((hr.undergoes hk hserved undergoes).2 nofun)

theorem applies (hk : c.Keyed) (hserved : c.Served) (fuel : Nat) (stopsRunning : Bool) :
    let applied := r.apply Simulator.host fuel stopsRunning
    KeepsApart c outset applied.1.host.deeds ∧ (applied.2.isFailure = false → applied.1.Agrees c outset) := by
  intro applied
  have hconcludes : r.Concludes Simulator.host stopsRunning _ applied := apply_concludes _ fuel stopsRunning r
  revert hconcludes
  generalize r.courses Simulator.host fuel stopsRunning = courses
  generalize applied = concluded
  intro hconcludes
  cases hconcludes with
  | busy inFlight => exact ⟨hr.apart, fun _ => hr⟩
  | clean clean => exact ⟨hr.apart, fun _ => hr⟩
  | @proceeds _ q outcome dirty proceeds =>
      have hbegun : Agrees c outset { r with inFlight := true } := ⟨hr.keeps, hr.apart⟩
      obtain ⟨hapart, hagrees⟩ := hbegun.proceeds hk hserved proceeds
      have hhost : (q.conclude outcome).host = q.host := host_conclude outcome
      refine ⟨hhost ▸ hapart, fun hsucceeds => ?_⟩
      have hq := hagrees hsucceeds
      have hkeeps := keeps_conclude hq.keeps outcome
      rw [← hhost] at hkeeps
      exact ⟨hkeeps, hhost ▸ hq.apart⟩

end Agrees

/-- What comes about by applies in which nobody refuses to start, and by anything in between that leaves alone what runs
and what exists. -/
inductive Prospers (r : Reconciler ρ Simulator) : Reconciler ρ Simulator → Prop
  | start : Prospers r r
  | asked {q : Reconciler ρ Simulator} (prospers : Prospers r q) (operation : Operation)
      (leaves : operation.LeavesRunning) : Prospers r (q.act (.asked operation))
  | contentChanges {q : Reconciler ρ Simulator} (prospers : Prospers r q) (resolver : Resolver) :
      Prospers r (q.act (.contentChanges resolver))
  | applies {q : Reconciler ρ Simulator} (prospers : Prospers r q) (fuel : Nat) (stopsRunning : Bool)
      (succeeds : (q.apply Simulator.host fuel stopsRunning).2.isFailure = false) :
      Prospers r (q.act (.applies Simulator.host fuel stopsRunning))

theorem Prospers.agrees (hk : c.Keyed) (hserved : c.Served) (hr : r.Agrees c outset) (h : r.Prospers r') :
    r'.Agrees c outset := by
  induction h with
  | start => exact hr
  | asked prospers operation leaves ih =>
      exact ⟨ih.keeps.perform (Requirements.stable_stands c _) leaves, ih.apart⟩
  | contentChanges prospers resolver ih =>
      exact ⟨⟨⟨ih.keeps.requirements.catalog, ih.keeps.requirements.running⟩, ih.keeps.allows⟩, ih.apart⟩
  | applies prospers fuel stopsRunning succeeds ih => exact (ih.applies hk hserved fuel stopsRunning).2 succeeds

/-- A scenario is accepted, in the beginning no service has two running implementations, and the simulator has done
nothing yet. Then comes any sequence of applies, the last of which may fail, with anything in between that leaves alone
what runs and what exists, and observers that answer to it in the same manner. However much of the deeds is looked at,
what they lead to from what ran in the beginning never has two implementations of one service. -/
theorem rivals_apart (s : Scenario) (c : Catalog) (r r' : Reconciler ρ Simulator) (hvalid : s.validate = .ok ())
    (hcatalog : s.catalog = .ok c) (hexclusive : c.Exclusive (IdSet.ofList s.running))
    (hrequirements : s.requirements = .ok r.handle.requirements) (hidle : r.host.deeds = [])
    (hobservers : r.handle.Allows Operation.LeavesRunning) (hprospers : r.Prospers r') (fuel : Nat)
    (stopsRunning : Bool) (past : List (Nat × Deed))
    (hpast : past <+: (r'.act (.applies Simulator.host fuel stopsRunning)).host.deeds) :
    c.Exclusive (redo (IdSet.ofList s.running) past) := by
  have hk : c.Keyed := Scenario.catalog_keyed hcatalog
  have hserved : c.Served := Scenario.served_of_validate hvalid hcatalog
  obtain ⟨hsame, hrunning⟩ := Scenario.footing_of_validate hvalid hcatalog hrequirements
  have hr : r.Agrees c (IdSet.ofList s.running) := by
    constructor
    · rw [hidle]
      exact ⟨⟨hsame, hrunning⟩, hobservers⟩
    · rw [hidle]
      intro past hpast
      rw [List.prefix_nil.mp hpast]
      exact hexclusive
  exact ((hprospers.agrees hk hserved hr).applies hk hserved fuel stopsRunning).1 past hpast

/-- Two components that keep the one store. -/
def archives : Catalog :=
  ((Catalog.empty.insertService ⟨"store", false, none⟩).insertComponent
    ⟨"disk", "1", some "store", [], none⟩).insertComponent ⟨"tape", "1", some "store", [], none⟩

/-- The disk runs, and there is a tape. -/
def changeover : Scenario :=
  { disabled := false
    running := ["disk"]
    services := [⟨"store", false, none⟩]
    components := [⟨"disk", "1", some "store", [], none⟩, ⟨"tape", "1", some "store", [], none⟩]
    settings := .empty
    layers := []
    triggers := []
    options := .standard }

def tapeLayer : Layer := ⟨"tape", Table.empty.insert (.component "tape") .mandatory⟩

def diskLayer : Layer := ⟨"disk", Table.empty.insert (.component "disk") .mandatory⟩

/-- The disk, which would refuse to start, runs until the tape is asked for. -/
def ontoTape : Reconciler Unit Simulator :=
  ((changeover.outset ["disk"] (changeover.posed archives)).act (.asked (.addLayer tapeLayer false))).act
    (.applies Simulator.host 5 false)

/-- Then the disk is asked for instead. -/
def backToDisk : Reconciler Unit Simulator := ontoTape.act (.asked (.replaceLayer tapeLayer diskLayer))

/-- The disk makes room for the tape, and the tape for the disk, which does not come back. -/
theorem rivals_apart_changeover :
    let r := changeover.outset ["disk"] (changeover.posed archives)
    let deeds := (backToDisk.act (.applies Simulator.host 5 false)).host.deeds
    changeover.validate = .ok () ∧ changeover.catalog = .ok archives ∧
      archives.Exclusive (IdSet.ofList changeover.running) ∧
      changeover.requirements = .ok r.handle.requirements ∧ r.host.deeds = [] ∧
      r.handle.Allows Operation.LeavesRunning ∧ r.Prospers backToDisk ∧
      deeds = [(1, .stop "disk"), (1, .start "tape"), (1, .stop "tape")] ∧
      ∀ past, past <+: deeds → archives.Exclusive (redo (IdSet.ofList changeover.running) past) := by
  intro r deeds
  have hvalid : changeover.validate = .ok () := rfl
  have hcatalog : changeover.catalog = .ok archives := rfl
  have hexclusive : archives.Exclusive (IdSet.ofList changeover.running) :=
    (Scenario.catalog_keyed hcatalog).exclusive_single "disk"
  have hrequirements : changeover.requirements = .ok r.handle.requirements := rfl
  have hobservers : r.handle.Allows Operation.LeavesRunning := nofun
  have hasked : r.Prospers (r.act (.asked (.addLayer tapeLayer false))) := .asked .start _ trivial
  have hontoTape : r.Prospers ontoTape := .applies hasked 5 false (by decide +kernel)
  have hprospers : r.Prospers backToDisk := .asked hontoTape (.replaceLayer tapeLayer diskLayer) trivial
  have hdeeds : deeds = [(1, .stop "disk"), (1, .start "tape"), (1, .stop "tape")] := by decide +kernel
  exact ⟨hvalid, hcatalog, hexclusive, hrequirements, rfl, hobservers, hprospers, hdeeds,
    rivals_apart changeover archives r backToDisk hvalid hcatalog hexclusive hrequirements rfl hobservers hprospers 5
      false⟩

end Reconciler

end Orchestrator
