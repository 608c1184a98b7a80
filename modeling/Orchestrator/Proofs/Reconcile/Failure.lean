import Orchestrator.Proofs.Reconcile.Quarantine
import Orchestrator.Proofs.Reconcile.Simulation
/-!
Failures of a simulator. Whoever an apply fails over is in the catalog and is quarantined from then on, and of those who
are quarantined already none is started and none can be failed over again.
-/

namespace Orchestrator

namespace Simulator

variable {id : String}

def HasStarted (id : String) (s : Simulator) : Prop := ∃ pass, (pass, Deed.start id) ∈ s.deeds

theorem mem_deedsOf_start {pass other : Nat} {excluded stopped started : List String}
    (h : (other, Deed.start id) ∈ deedsOf pass excluded stopped started) : id ∈ started := by
  rcases List.mem_append.mp h with hgone | hstarted
  · rcases List.mem_append.mp hgone with hexcluded | hstopped
    · obtain ⟨_, -, hother⟩ := List.mem_map.mp hexcluded
      cases hother
    · obtain ⟨_, -, hother⟩ := List.mem_map.mp hstopped
      cases hother
  · obtain ⟨_, hmem, hsame⟩ := List.mem_map.mp hstarted
    cases hsame
    exact hmem

/-- Whoever a start fails over was to be started. -/
theorem culprit_mem {s : Simulator} {ids : List String} {f : Failure} (h : s.verdictOn ids = .failed f) :
    f.culprit ∈ ids := by
  unfold verdictOn at h
  split at h
  next => cases h
  next culprit hrefused =>
    cases h
    exact List.mem_of_find?_eq_some hrefused

end Simulator

/-! ## Those who are condemned -/

/-- The operation neither changes who exists or runs nor clears the failure of one of certain components. -/
def Operation.Upholds (culprits : List String) (operation : Operation) : Prop :=
  operation.LeavesRunning ∧ ∀ id ∈ culprits, operation.Retains id

/-- Certain components of the catalog have failed. -/
structure Requirements.Condemns (catalog : Catalog) (culprits : List String) (r : Requirements) : Prop where
  reached : r.ReachedOver Catalog.Keyed
  catalog_eq : r.catalog = catalog
  failed : ∀ id ∈ culprits, r.HasFailed id
  known : ∀ id ∈ culprits, catalog.components.contains id = true

namespace Requirements.Condemns

variable {r : Requirements} {catalog : Catalog} {culprits : List String} {id : String}

theorem confines (h : r.Condemns catalog culprits) (hid : id ∈ culprits) : r.Confines id := by
  refine ⟨h.reached, h.failed id hid, ?_⟩
  rw [Knows, h.catalog_eq]
  exact h.known id hid

theorem cons (h : r.Condemns catalog culprits) (hfailed : r.HasFailed id)
    (hknown : catalog.components.contains id = true) : r.Condemns catalog (id :: culprits) :=
  ⟨h.reached, h.catalog_eq, List.forall_mem_cons.mpr ⟨hfailed, h.failed⟩, List.forall_mem_cons.mpr ⟨hknown, h.known⟩⟩

theorem after (h : r.Condemns catalog culprits) {e : Occurrence} (he : e.Asks (Operation.Upholds culprits)) :
    (r.after e).Condemns catalog culprits := by
  have hinstalls : e.Asks (Operation.Installs Catalog.Keyed) :=
    he.mono fun _ hupholds => hupholds.1.installs Catalog.Keyed
  refine ⟨h.reached.after hinstalls.installs, ?_, fun id hid => ?_, h.known⟩
  · cases e with
    | asked operation => exact (sameFooting_perform he.1).catalog.trans h.catalog_eq
    | passCommits snapshot steps => exact (catalog_commit snapshot steps).trans h.catalog_eq
    | _ => exact h.catalog_eq
  · exact (h.failed id hid).after (he.mono fun _ hupholds => hupholds.2 id hid)

end Requirements.Condemns

namespace Reconciler

variable {ρ : Type} {r r' : Reconciler ρ Simulator} {stopsRunning : Bool} {report : Report} {steps : Steps}
  {left : Requirements} {state : Simulator} {verdict : Verdict} {catalog : Catalog} {culprits : List String}
  {id culprit message : String}

theorem sustains_condemns (catalog : Catalog) (culprits : List String) :
    Sustains (fun _ => False) (Operation.Upholds culprits) (Requirements.Condemns catalog culprits) Simulator.host where
  stable := fun _ _ he hr => hr.after he
  failure := fun _ _ => ⟨trivial, fun _ _ => trivial⟩
  host := Simulator.LayersAllowed.host
    ⟨fun _ => ⟨trivial, fun _ _ => trivial⟩, fun _ => ⟨trivial, fun _ _ => trivial⟩⟩
  observers := fun _ => False.elim

/-! ## One pass -/

theorem CarriesOut.hasStarted (h : r.CarriesOut Simulator.host stopsRunning report steps left state verdict)
    (hstarted : state.HasStarted id) : r.host.HasStarted id ∨ id ∈ steps.start := by
  obtain ⟨pass, hdeed⟩ := hstarted
  rw [h.simulates.state_eq] at hdeed
  rcases List.mem_append.mp hdeed with hpast | hnow
  · exact .inl ⟨pass, hpast⟩
  · exact .inr ((List.takeWhile_sublist _).subset (Simulator.mem_deedsOf_start hnow))

/-- A pass neither starts nor fails over a component that is confined. -/
theorem Passes.spares {c : Course} {progress : Progress} (hconfined : r.handle.requirements.Confines id)
    (h : r.Passes Simulator.host stopsRunning report r' c progress) :
    (r'.host.HasStarted id → r.host.HasStarted id) ∧
      ∀ message, progress ≠ .ended (.error (.executionFailed id message)) := by
  have hspared : ∀ {steps left state verdict},
      r.CarriesOut Simulator.host stopsRunning report steps left state verdict → ¬ id ∈ steps.start :=
    fun hcarried => (hconfined.excluded hcarried.planned).2.1
  have hkept : ∀ {steps left state verdict} {q : Requirements},
      r.CarriesOut Simulator.host stopsRunning report steps left state verdict → r.Becomes r' q state →
        r'.host.HasStarted id → r.host.HasStarted id := by
    intro steps left state verdict q hcarried hbecomes hstarted
    rw [hbecomes.host] at hstarted
    exact (hcarried.hasStarted hstarted).resolve_right (hspared hcarried)
  cases h with
  | refused unplanned becomes =>
      refine ⟨fun hstarted => becomes.host ▸ hstarted, ?_⟩
      rintro message ⟨⟩
      rcases unplanned_cases unplanned with ⟨-, himpossible⟩ | ⟨free, limit, hlarge⟩
      · cases himpossible
      · cases hlarge
  | abandoned carriesOut becomes => exact carriesOut.simulates.not_abandoned.elim
  | failed carriesOut becomes =>
      refine ⟨hkept carriesOut becomes, ?_⟩
      rintro message ⟨⟩
      exact hspared carriesOut (Simulator.culprit_mem carriesOut.simulates.verdict_eq.symm)
  | repeated carriesOut changed becomes => exact ⟨hkept carriesOut becomes, nofun⟩
  | settled carriesOut unchanged becomes => exact ⟨hkept carriesOut becomes, nofun⟩

/-- A pass that ends an apply was taken over, or nothing could be planned, or a component that the catalog has
failed. -/
theorem Passes.ended_cases {c : Course} {result : Except Fault Report}
    (hreached : r.handle.requirements.ReachedOver Catalog.Keyed)
    (h : r.Passes Simulator.host stopsRunning report r' c (.ended result)) :
    (∃ report, result = .ok report) ∨ result = .error .impossible ∨
      (∃ free limit, result = .error (.searchTooLarge free limit)) ∨
      ∃ culprit message, result = .error (.executionFailed culprit message) ∧
        r.handle.requirements.catalog.components.contains culprit = true := by
  cases h with
  | refused unplanned becomes =>
      rcases unplanned_cases unplanned with ⟨-, rfl⟩ | ⟨free, limit, rfl⟩
      · exact .inr (.inl rfl)
      · exact .inr (.inr (.inl ⟨free, limit, rfl⟩))
  | failed carriesOut becomes =>
      have hculprit := Simulator.culprit_mem carriesOut.simulates.verdict_eq.symm
      exact .inr (.inr (.inr ⟨_, _, rfl, carriesOut.known hreached _ hculprit⟩))
  | settled carriesOut unchanged becomes => exact .inl ⟨_, rfl⟩

/-! ## The whole apply -/

theorem Proceeds.spares {courses : List Course} {outcome : Outcome}
    (hr : r.handle.Keeps (fun _ => False) (Requirements.Condemns catalog culprits)) (hid : id ∈ culprits)
    (h : Proceeds Simulator.host stopsRunning r report courses r' outcome) :
    (r'.host.HasStarted id → r.host.HasStarted id) ∧
      ∀ message, outcome ≠ .finished (.error (.executionFailed id message)) := by
  induction h with
  | unfinished => exact ⟨fun hstarted => hstarted, nofun⟩
  | ended undergoes =>
      obtain ⟨hkept, hnot⟩ := (undergoes.passes hr.allows).spares (hr.requirements.confines hid)
      refine ⟨hkept, ?_⟩
      rintro message ⟨⟩
      exact hnot message rfl
  | abandoned undergoes => exact ((undergoes.passes hr.allows).spares (hr.requirements.confines hid)).imp_right nofun
  | again undergoes rest ih =>
      obtain ⟨hkept, -⟩ := (undergoes.passes hr.allows).spares (hr.requirements.confines hid)
      obtain ⟨hrest, hnot⟩ := ih ((sustains_condemns catalog culprits).undergoes hr undergoes)
      exact ⟨fun hstarted => hkept (hrest hstarted), hnot⟩

/-- An apply neither starts nor fails over a component that was quarantined before. -/
theorem apply_spares (hr : r.handle.Keeps (fun _ => False) (Requirements.Condemns catalog culprits))
    (hid : id ∈ culprits) (fuel : Nat) (stopsRunning : Bool) :
    ((r.apply Simulator.host fuel stopsRunning).1.host.HasStarted id → r.host.HasStarted id) ∧
      ∀ message, (r.apply Simulator.host fuel stopsRunning).2 ≠ .finished (.error (.executionFailed id message)) := by
  have hconcludes := apply_concludes Simulator.host fuel stopsRunning r
  generalize r.courses Simulator.host fuel stopsRunning = courses at hconcludes
  generalize r.apply Simulator.host fuel stopsRunning = applied at hconcludes
  cases hconcludes with
  | busy inFlight => exact ⟨fun hstarted => hstarted, nofun⟩
  | clean clean => exact ⟨fun hstarted => hstarted, nofun⟩
  | @proceeds _ q outcome dirty proceeds =>
      have hhost : (q.conclude outcome).host = q.host := host_conclude outcome
      have hspares := proceeds.spares (r := { r with inFlight := true }) hr hid
      rwa [← hhost] at hspares

/-- After an apply that could be made none is in flight. -/
theorem apply_idle {σ : Type} (host : Host σ) (fuel : Nat) (stopsRunning : Bool) {r : Reconciler ρ σ}
    (h : r.inFlight = false) : (r.apply host fuel stopsRunning).1.inFlight = false := by
  have hconcludes := apply_concludes host fuel stopsRunning r
  generalize r.courses host fuel stopsRunning = courses at hconcludes
  generalize r.apply host fuel stopsRunning = applied at hconcludes
  cases hconcludes with
  | busy inFlight => exact h
  | clean clean => exact h
  | proceeds dirty proceeds => rfl

/-- Whoever an apply fails over is condemned from then on. -/
theorem apply_condemns (hr : r.handle.Keeps (fun _ => False) (Requirements.Condemns catalog culprits)) (fuel : Nat)
    (hknown : catalog.components.contains culprit = true)
    (hfails : (r.apply Simulator.host fuel stopsRunning).2 = .finished (.error (.executionFailed culprit message))) :
    (r.apply Simulator.host fuel stopsRunning).1.handle.Keeps (fun _ => False)
      (Requirements.Condemns catalog (culprit :: culprits)) := by
  have hconcludes := apply_concludes Simulator.host fuel stopsRunning r
  have hkept := (sustains_condemns catalog culprits).concludes hr hconcludes
  have hfailed := (apply_concludes_of_eq hfails).confines hr.requirements.reached
    (hr.allows.mono fun _ => False.elim) (Simulator.host_installs Catalog.Keyed)
  exact ⟨hkept.requirements.cons hfailed.requirements.2 hknown, hkept.allows⟩

/-- An apply that ends ends well, or because nothing can be done or too much would have to be searched, or because a
component of the catalog failed. -/
theorem apply_ended_cases (hr : r.handle.Keeps (fun _ => False) (Requirements.Condemns catalog culprits))
    (hidle : r.inFlight = false) (fuel : Nat) (hends : (r.apply Simulator.host fuel stopsRunning).2 ≠ .unfinished) :
    ∃ result, (r.apply Simulator.host fuel stopsRunning).2 = .finished result ∧
      ((∃ report, result = .ok report) ∨ result = .error .impossible ∨
        (∃ free limit, result = .error (.searchTooLarge free limit)) ∨
        ∃ culprit message, result = .error (.executionFailed culprit message) ∧
          catalog.components.contains culprit = true) := by
  have hconcludes := apply_concludes Simulator.host fuel stopsRunning r
  generalize r.courses Simulator.host fuel stopsRunning = courses at hconcludes
  generalize r.apply Simulator.host fuel stopsRunning = applied at hconcludes hends
  cases hconcludes with
  | busy inFlight => cases hidle.symm.trans inFlight
  | clean clean => exact ⟨_, rfl, .inl ⟨_, rfl⟩⟩
  | proceeds dirty proceeds =>
      have hstart : ({ r with inFlight := true } : Reconciler ρ Simulator).handle.Keeps (fun _ => False)
          (Requirements.Condemns catalog culprits) := hr
      obtain ⟨result, hfinished⟩ := (proceeds.runs hstart.allows).finished hends
      obtain ⟨p, report', c, hp, -, hended⟩ :=
        (sustains_condemns catalog culprits).lastPass hstart proceeds hfinished
      refine ⟨result, hfinished, ?_⟩
      rw [← hp.requirements.catalog_eq]
      exact (hended.passes hp.allows).ended_cases hp.requirements.reached

end Reconciler

end Orchestrator
