import Orchestrator.Proofs.Reconcile.Attained
import Orchestrator.Proofs.Reconcile.Reaction
import Orchestrator.Proofs.Reconcile.Settled
/-!
A clean reconciler. That no subject is dirty says that every severity is the one that the last pass dealt with; it says
nothing of what exists and of what runs. So a clean reconciler has nothing to do as long as the catalog and the running
components are those that the last pass left, and a crash or another catalog may leave it clean with work to do.
-/

namespace Orchestrator

namespace Requirements

variable {p q : Requirements} {P : Catalog → Prop}

theorem applied_of_clean (h : q.Counted) (hclean : q.isDirty = false) {s : Subject} {standing : Standing}
    (hget : q.standings.get? s = some standing) : standing.applied = some standing.final := by
  by_contra hne
  rw [h.isDirty_iff.mpr ⟨s, standing, hget, hne⟩] at hclean
  cases hclean

/-- Clean requirements ask for the same as other clean ones, where the same exists and runs and nothing was dealt with
since. -/
theorem snapshot_eq_of_clean (hp : p.ReachedOver P) (hq : q.ReachedOver P) (hpclean : p.isDirty = false)
    (hqclean : q.isDirty = false) (hcatalog : q.catalog = p.catalog) (hrunning : q.running = p.running)
    (hdealt : p.DealtWithin q) : q.snapshot = p.snapshot := by
  have htracked : ∀ s, q.standings.contains s = p.standings.contains s := by
    intro s
    rw [hq.tracks, hcatalog, hp.tracks]
  have hseverities : q.standings.map (fun _ standing => standing.final) =
      p.standings.map (fun _ standing => standing.final) := by
    refine Table.ext ?_
    intro s
    rw [Table.get?_map, Table.get?_map]
    have hsome : (q.standings.get? s).isSome = (p.standings.get? s).isSome := htracked s
    cases hnew : q.standings.get? s with
    | none =>
        rw [hnew] at hsome
        rw [Option.isNone_iff_eq_none.mp (Option.isSome_eq_false_iff.mp hsome.symm)]
    | some new =>
        rw [hnew] at hsome
        obtain ⟨old, hold⟩ := Option.isSome_iff_exists.mp hsome.symm
        have happlied : q.applied? s = some new.final := by
          rw [applied?, hnew]
          exact applied_of_clean hq.counted hqclean hnew
        have hdealtwith : old.applied = some new.final := by
          have hthen := hdealt s new.final happlied
          rwa [applied?, hold] at hthen
        have hfinal : new.final = old.final :=
          Option.some.inj (hdealtwith.symm.trans (applied_of_clean hp.counted hpclean hold))
        rw [hold, Option.map_some, Option.map_some, hfinal]
  rw [snapshot, hcatalog, hrunning, hseverities, snapshot]

end Requirements

namespace Reconciler

variable {ρ σ : Type} {host : Host σ} {stopsRunning : Bool} {r r' : Reconciler ρ σ} {P : Operation → Prop}

/-- Operations asked for one after the other, by nobody in particular. -/
def askAll (r : Reconciler ρ σ) (operations : List Operation) : Reconciler ρ σ :=
  { r with handle := r.handle.performAll operations }

/-- Clean again, over the same catalog and with the same components running, a reconciler plans what it planned when it
was settled. -/
theorem Settled.lasts (h : Settled stopsRunning r) (hr : r.handle.requirements.ReachedOver Catalog.Keyed)
    (hr' : r'.handle.requirements.ReachedOver Catalog.Keyed) (hclean : r'.isDirty = false)
    (hcatalog : r'.handle.requirements.catalog = r.handle.requirements.catalog)
    (hrunning : r'.handle.requirements.running = r.handle.requirements.running)
    (hdealt : r.handle.requirements.DealtWithin r'.handle.requirements) (hoptions : r'.options = r.options) :
    r'.Spares stopsRunning ∧ (r'.handle.requirements.catalog.CostsFit → r'.Rests stopsRunning) := by
  have hrclean : r.handle.requirements.isDirty = false := by
    rw [Requirements.isDirty, h.clean]
    rfl
  have hsnapshot := Requirements.snapshot_eq_of_clean hr hr' hrclean hclean hcatalog hrunning hdealt
  have hplan : r'.plan stopsRunning = r.plan stopsRunning := by rw [plan, hsnapshot, hoptions, plan]
  constructor
  · rw [Spares, hplan, hrunning]
    exact h.spares
  · rw [Rests, hplan, hcatalog, hrunning]
    exact h.rests

/-- After an apply that ended well in at least one pass, whatever is asked for: if no subject is dirty, and the catalog
and the running components are those that the last pass left, then a plan is ready and excludes nothing that runs, and
it starts and stops nothing as long as costs fit into a word. Where nobody reports what runs and nobody exchanges the
catalog, being clean is enough. -/
theorem clean_rests (host : Host σ) (fuel : Nat) (stopsRunning : Bool) (r : Reconciler ρ σ) (report : Report)
    (hreached : r.handle.requirements.ReachedOver Catalog.Keyed)
    (hobservers : r.handle.Allows (Operation.Installs Catalog.Keyed))
    (hhost : ∀ number steps state, (host number steps state).AsksOnly (Operation.Installs Catalog.Keyed))
    (happly : (r.apply host fuel stopsRunning).2 = .finished (.ok report)) (hpasses : 1 ≤ report.passes) :
    ∃ snapshot steps left,
      (r.courses host fuel stopsRunning).getLast? = some (.executed snapshot steps left .done) ∧
      (∀ operations : List Operation, (∀ operation ∈ operations, operation.Installs Catalog.Keyed) →
        let q := (r.apply host fuel stopsRunning).1.askAll operations
        q.isDirty = false → q.handle.requirements.catalog = (left.commit snapshot steps).catalog →
        q.handle.requirements.running = (left.commit snapshot steps).running →
          q.Spares stopsRunning ∧ (q.handle.requirements.catalog.CostsFit → q.Rests stopsRunning)) ∧
      (r.handle.Allows Operation.LeavesRunning → ∀ operations : List Operation,
        (∀ operation ∈ operations, operation.LeavesRunning) →
        let q := (r.apply host fuel stopsRunning).1.askAll operations
        q.isDirty = false →
          q.Spares stopsRunning ∧ (q.handle.requirements.catalog.CostsFit → q.Rests stopsRunning)) := by
  have hconcludes := apply_concludes host fuel stopsRunning r
  rw [← Prod.eta (r.apply host fuel stopsRunning), happly] at hconcludes
  revert hconcludes
  generalize (r.apply host fuel stopsRunning).1 = applied
  intro hconcludes
  obtain ⟨settled, snapshot, steps, left, hlast, hleft, hfound, hsettled, hoptions, hkept⟩ :=
    hconcludes.settles (fun _ hinstalls => hinstalls) hreached hobservers hhost hpasses
  refine ⟨snapshot, steps, left, hlast, ?_, ?_⟩
  · intro operations hoperations q hclean hcatalog hrunning
    have hstable : Handle.Stable (Operation.Installs Catalog.Keyed)
        (fun q => q.ReachedOver Catalog.Keyed ∧ settled.handle.requirements.DealtWithin q) :=
      fun q operation hinstalls hq => ⟨hq.1.perform hinstalls, hq.2.trans (Requirements.dealtWithin_perform operation)⟩
    have hq := (hkept _ hstable ⟨hfound, .refl _⟩).performAll hstable hoperations
    refine hsettled.lasts hfound hq.requirements.1 hclean ?_ ?_ hq.requirements.2 hoptions
    · rw [hleft]
      exact hcatalog
    · rw [hleft]
      exact hrunning
  · intro hobservers operations hoperations q hclean
    obtain ⟨settled, -, -, -, -, -, hfound, hsettled, hoptions, hkept⟩ :=
      hconcludes.settles (fun _ hleaves => hleaves.installs Catalog.Keyed) hreached hobservers hhost hpasses
    have hstable : Handle.Stable Operation.LeavesRunning
        (fun q => q.ReachedOver Catalog.Keyed ∧ settled.handle.requirements.SameFooting q) :=
      fun q operation hleaves hq =>
        ⟨hq.1.perform (hleaves.installs Catalog.Keyed), hq.2.trans (Requirements.sameFooting_perform hleaves)⟩
    have hq := (hkept _ hstable ⟨hfound, rfl, rfl, fun _ => rfl⟩).performAll hstable hoperations
    obtain ⟨hreached, hsame⟩ := hq.requirements
    exact hsettled.lasts hfound hreached hclean hsame.catalog hsame.running hsame.dealtWithin hoptions

/-! ## A cottage -/

/-- A lamp with certain needs, a generator that would provide power, and a radio. -/
def wiring (needs : List Dependency) : Catalog :=
  ((Simulator.parlour.insertService (.bare "power")).insertComponent ⟨"lamp", "1", none, needs, none⟩).insertComponent
    ⟨"generator", "1", some "power", [], none⟩

theorem wiring_keyed (needs : List Dependency) : (wiring needs).Keyed :=
  ((Simulator.parlour_keyed.insertService _).insertComponent _).insertComponent _

/-- The lamp is to be lit, and it needs nothing. -/
def cottage : Reconciler Unit Unit :=
  { handle :=
      { requirements := .initial (wiring [])
          { Settings.empty with user := Table.empty.insert (.component "lamp") .mandatory } .store
        observers := [] }
    host := ()
    options := .standard
    inFlight := false }

theorem cottage_reached : cottage.handle.requirements.ReachedOver Catalog.Keyed :=
  ⟨_, _, _, [], wiring_keyed [], nofun, rfl⟩

/-- The cottage after its lamp was lit. -/
def litCottage : Reconciler Unit Unit := (cottage.apply Host.idle 5 false).1

def holiday : Layer := ⟨"holiday", Table.empty.insert (.component "generator") .mandatory⟩

/-- The lamp goes out and is lit again by somebody else, and a holiday is called off. -/
theorem clean_rests_cottage :
    cottage.handle.requirements.ReachedOver Catalog.Keyed ∧
      (cottage.apply Host.idle 5 false).2 = .finished (.ok ⟨1, 1, 0, 0, 0⟩) ∧
      (litCottage.askAll [.markRunning "lamp" false, .markRunning "lamp" true]).Rests false ∧
      (litCottage.askAll [.addLayer holiday false, .removeLayer holiday false]).Rests false := by
  have happly : (cottage.apply Host.idle 5 false).2 = .finished (.ok ⟨1, 1, 0, 0, 0⟩) := rfl
  obtain ⟨snapshot, steps, left, hlast, hrests, hundisturbed⟩ :=
    clean_rests Host.idle 5 false cottage ⟨1, 1, 0, 0, 0⟩ cottage_reached nofun (fun _ _ _ => trivial) happly
      (by decide)
  refine ⟨cottage_reached, happly, ?_, ?_⟩
  · cases hlast
    obtain ⟨-, hrelit⟩ := hrests [.markRunning "lamp" false, .markRunning "lamp" true] (by simp [Operation.Installs])
      rfl rfl rfl
    exact hrelit (by decide +kernel)
  · obtain ⟨-, hcalledOff⟩ := hundisturbed nofun [.addLayer holiday false, .removeLayer holiday false]
      (by simp [Operation.LeavesRunning]) rfl
    exact hcalledOff (by decide +kernel)

/-- The lamp goes out of itself. -/
def darkCottage : Reconciler Unit Unit := litCottage.askAll [.markRunning "lamp" false]

/-- It turns out that the lamp needs power. -/
def rewiredCottage : Reconciler Unit Unit := litCottage.askAll [.refreshCatalog (wiring [⟨"power", .mandatory⟩])]

/-- The radio happened to play when the lamp was lit, and was spared. -/
def noisyCottage : Reconciler Unit Unit := ((cottage.askAll [.markRunning "radio" true]).apply Host.idle 5 false).1

/-- Clean reconcilers with something to do, after an apply that succeeded: the lamp is to be lit again, the generator is
to be started for it, the radio is no longer spared, what was started is to be started again since it is filed under
another name, and a relay is to start that was spared since the sum of the costs went on from zero. -/
theorem clean_unrested :
    cottage.handle.requirements.ReachedOver Catalog.Keyed ∧
      (cottage.apply Host.idle 5 false).2 = .finished (.ok ⟨1, 1, 0, 0, 0⟩) ∧
      (darkCottage.isDirty = false ∧ ¬ darkCottage.Rests false) ∧
      (rewiredCottage.isDirty = false ∧ ¬ rewiredCottage.Rests false) ∧
      ((noisyCottage.apply Host.idle 5 true).2 = .finished (.ok .blank) ∧
        ¬ (noisyCottage.apply Host.idle 5 true).1.Rests true) ∧
      ((mislabelled.apply Host.idle 5 false).2 = .finished (.ok ⟨1, 1, 0, 0, 10⟩) ∧
        (mislabelled.apply Host.idle 5 false).1.isDirty = false ∧
        ¬ (mislabelled.apply Host.idle 5 false).1.Rests false) ∧
      ∃ report, ((office Solver.crowd).apply Host.idle 5 false).2 = .finished (.ok report) ∧
        ((office Solver.crowd).apply Host.idle 5 false).1.isDirty = false ∧
        ¬ ((office Solver.crowd).apply Host.idle 5 false).1.Rests false := by
  refine ⟨cottage_reached, rfl, ⟨rfl, ?_⟩, ⟨rfl, ?_⟩, ⟨rfl, ?_⟩, ⟨rfl, rfl, ?_⟩, ?_⟩
  · exact not_rests (p := ⟨IdSet.ofList ["lamp"], .empty, .empty, 0⟩) (by decide +kernel) (.inl (by decide))
  · exact not_rests (p := ⟨IdSet.ofList ["generator"], .empty, .empty, 10⟩) (by decide +kernel) (.inl (by decide))
  · exact not_rests (p := ⟨.empty, IdSet.ofList ["radio"], .empty, 0⟩) (by decide +kernel) (.inr (by decide))
  · exact not_rests (p := ⟨IdSet.ofList ["gate"], .empty, .empty, 10⟩) (by decide +kernel) (.inl (by decide))
  · obtain ⟨report, hanswer, -, hclean, hunrested⟩ :=
      apply_office Solver.crowd 4 (by decide) (by decide) (by decide)
    exact ⟨report, hanswer, hclean, hunrested⟩

end Reconciler

end Orchestrator
