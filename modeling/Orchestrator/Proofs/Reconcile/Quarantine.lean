import Orchestrator.Proofs.Reconcile.Reaction
import Orchestrator.Proofs.Requirements.Quarantine
import Orchestrator.Proofs.Simulator
/-!
Quarantine lasts. Once a component failed, whether that was reported or an apply failed over it, it stays excluded
through all that is done with the reconciler until the failure is cleared or the component leaves the catalog: no plan
starts it, and no pass that begins from then on leaves it running.
-/

namespace Orchestrator

/-- Something that is done with a reconciler. A single pass is an act too, and a host may give up at any point of it, so
that acts also lead to every state in the middle of an apply. -/
inductive Act (σ : Type)
  | asked (operation : Operation)
  /-- The resolver would answer otherwise from now on; nobody is told. -/
  | contentChanges (resolver : Resolver)
  | passes (host : Host σ) (stopsRunning : Bool) (report : Report)
  | applies (host : Host σ) (fuel : Nat) (stopsRunning : Bool)

/-- The act itself and its host ask for operations of one kind only; observers may answer with others. -/
def Act.Asks {σ : Type} (P : Operation → Prop) : Act σ → Prop
  | asked operation => P operation
  | contentChanges _ => True
  | passes host _ _ => ∀ number steps state, (host number steps state).AsksOnly P
  | applies host _ _ => ∀ number steps state, (host number steps state).AsksOnly P

/-- The operation installs no catalog but one that is filed under its own identifiers and has the component, and it
does not clear the failure of the component. -/
def Operation.Confines (id : String) (operation : Operation) : Prop :=
  operation.Installs Catalog.Keyed ∧ operation.Retains id

namespace Reconciler

variable {ρ σ : Type} {host : Host σ} {stopsRunning : Bool} {r r' : Reconciler ρ σ} {report : Report} {id : String}
  {P Q : Operation → Prop} {I : Requirements → Prop}

def act (r : Reconciler ρ σ) : Act σ → Reconciler ρ σ
  | .asked operation => { r with handle := (r.handle.perform operation).1 }
  | .contentChanges resolver =>
    { r with handle := { r.handle with requirements := { r.handle.requirements with resolver } } }
  | .passes host stopsRunning report => (r.pass host stopsRunning report).1
  | .applies host fuel stopsRunning => (r.apply host fuel stopsRunning).1

def actAll (r : Reconciler ρ σ) (acts : List (Act σ)) : Reconciler ρ σ := acts.foldl act r

theorem Lasts.act (hl : Lasts Q I) (hobservers : ∀ operation, P operation → Q operation) (hr : r.handle.Keeps P I)
    {act : Act σ} (hact : act.Asks Q) : (r.act act).handle.Keeps P I := by
  cases act with
  | asked operation =>
      have hnext := hl.stable _ (.asked operation) hact hr.requirements
      exact hr.allows.install (Handle.Keeps.announce (hl.operations.mono hobservers)) hnext
  | contentChanges resolver => exact ⟨hl.stable _ (.contentChanges resolver) trivial hr.requirements, hr.allows⟩
  | passes host stopsRunning report =>
      have hs : Sustains P Q I host := ⟨hl, hact, hobservers⟩
      exact hs.undergoes hr (pass_undergoes host stopsRunning r report)
  | applies host fuel stopsRunning =>
      have hs : Sustains P Q I host := ⟨hl, hact, hobservers⟩
      exact hs.concludes hr (apply_concludes host fuel stopsRunning r)

theorem Lasts.acts (hl : Lasts P I) (hr : r.handle.Keeps P I) {acts : List (Act σ)} (hacts : ∀ act ∈ acts, act.Asks P) :
    (r.actAll acts).handle.Keeps P I := by
  induction acts generalizing r with
  | nil => exact hr
  | cons first rest ih =>
      have hfirst := hl.act (fun _ hpermitted => hpermitted) hr (hacts first List.mem_cons_self)
      exact ih hfirst (fun act hact => hacts act (List.mem_cons_of_mem first hact))

/-! ## Quarantine -/

theorem lasts_hasFailed (id : String) :
    Lasts (Operation.Confines id) (fun q => q.ReachedOver Catalog.Keyed ∧ q.HasFailed id) where
  stable := fun _ _ he hr => ⟨hr.1.after (he.mono fun _ => And.left).installs, hr.2.after (he.mono fun _ => And.right)⟩
  failure := fun _ _ => ⟨trivial, trivial⟩

theorem lasts_confines (id : String) : Lasts (Operation.Confines id) (Requirements.Confines id) where
  stable := by
    intro r e he hr
    obtain ⟨hreached, hfailed⟩ := (lasts_hasFailed id).stable r e he ⟨hr.reached, hr.failed⟩
    exact ⟨hreached, hfailed, hr.known.after (he.mono fun _ => And.right)⟩
  failure := (lasts_hasFailed id).failure

/-- A component comes to be quarantined. -/
inductive Quarantines (id : String) (r : Reconciler ρ σ) : Reconciler ρ σ → Prop
  | recorded (message : String) : Quarantines id r (r.act (.asked (.recordFailure id message)))
  | failed (host : Host σ) (fuel : Nat) (stopsRunning : Bool) (message : String)
      (installs : ∀ number steps state, (host number steps state).AsksOnly (Operation.Installs Catalog.Keyed))
      (finished : (r.apply host fuel stopsRunning).2 = .finished (.error (.executionFailed id message))) :
      Quarantines id r (r.act (.applies host fuel stopsRunning))
  /-- After an act the failure is on record, whoever recorded it in the course of the act. -/
  | noted (act : Act σ) (installs : act.Asks (Operation.Installs Catalog.Keyed))
      (noted : (r.act act).handle.requirements.HasFailed id) : Quarantines id r (r.act act)

/-- What a failed apply leaves behind, whatever the observers make of it. -/
theorem Concludes.confines {courses : List Course} {message : String}
    (hreached : r.handle.requirements.ReachedOver Catalog.Keyed)
    (hobservers : r.handle.Allows (Operation.Confines id))
    (hinstalls : ∀ number steps state, (host number steps state).AsksOnly (Operation.Installs Catalog.Keyed))
    (h : r.Concludes host stopsRunning courses (r', .finished (.error (.executionFailed id message)))) :
    r'.handle.Keeps (Operation.Confines id) (fun q => q.ReachedOver Catalog.Keyed ∧ q.HasFailed id) := by
  have hs : Sustains (Operation.Confines id) _ _ host := ⟨lasts_reachedOver Catalog.Keyed, hinstalls, fun _ => And.left⟩
  cases h with
  | proceeds dirty proceeds =>
      obtain ⟨p, report', c, hp, -, hended⟩ :=
        hs.lastPass (r := { r with inFlight := true }) ⟨hreached, hobservers⟩ proceeds rfl
      obtain ⟨steps, left, state, hexecutes, rfl, rfl⟩ := hended.of_failure
      have hleft := hs.left hp hexecutes
      refine Handle.Keeps.announceApplied ?_ _
      refine hleft.allows.change (lasts_hasFailed id).operations (fun q => q.endPass.1.recordFailure id message) ?_
      exact ⟨hleft.requirements.endPass.recordFailure id message, Requirements.hasFailed_recordFailure message⟩

theorem Quarantines.keeps (h : r.Quarantines id r') (hreached : r.handle.requirements.ReachedOver Catalog.Keyed)
    (hobservers : r.handle.Allows (Operation.Confines id)) :
    r'.handle.Keeps (Operation.Confines id) (fun q => q.ReachedOver Catalog.Keyed ∧ q.HasFailed id) := by
  cases h with
  | recorded message =>
      exact hobservers.install (Handle.Keeps.announce (lasts_hasFailed id).operations)
        ⟨hreached.recordFailure id message, Requirements.hasFailed_recordFailure message⟩
  | failed host fuel stopsRunning message installs finished =>
      exact (apply_concludes_of_eq finished).confines hreached hobservers installs
  | noted act installs noted =>
      have hacted := (lasts_reachedOver Catalog.Keyed).act (fun _ => And.left) ⟨hreached, hobservers⟩ installs
      exact ⟨⟨hacted.requirements, noted⟩, hacted.allows⟩

theorem Undergoes.not_running {snapshot : Snapshot} {steps : Steps} {left : Requirements}
    {passed : Reconciler ρ σ × Progress} (hr : r.handle.requirements.Confines id)
    (h : r.Undergoes host stopsRunning report (.executed snapshot steps left .done) passed) :
    ¬ id ∈ (left.commit snapshot steps).running := by
  cases h with
  | done executes next => exact hr.not_running_commit executes.planned _ _

/-- Once a component of the catalog is quarantined, no sequence of acts ends its quarantine that neither clears its
failure nor removes it from the catalog. Its final severity is the veto, a plan excludes it and neither starts nor
stops it, and when a pass that set out from there is taken over, it does not run, whatever the host of that pass asked
for. The same holds after each pass of an apply. -/
theorem quarantine_persists (id : String) (r r' : Reconciler ρ σ)
    (hreached : r.handle.requirements.ReachedOver Catalog.Keyed)
    (hobservers : r.handle.Allows (Operation.Confines id)) (hquarantines : r.Quarantines id r')
    (hknown : r'.handle.requirements.Knows id) (acts : List (Act σ))
    (hacts : ∀ act ∈ acts, act.Asks (Operation.Confines id)) :
    let q := r'.actAll acts
    q.handle.requirements.final? (.component id) = some .excluded ∧
      (∀ stopsRunning options p, Solver.solve q.handle.requirements.snapshot stopsRunning options = .ok (.ready p) →
        id ∈ p.exclude ∧ ¬ id ∈ p.start ∧ ¬ id ∈ p.stop) ∧
      (∀ host stopsRunning report snapshot steps left,
        q.course host stopsRunning report = .executed snapshot steps left .done →
        ¬ id ∈ (left.commit snapshot steps).running) ∧
      ∀ host fuel stopsRunning,
        (∀ number steps state, (host number steps state).AsksOnly (Operation.Confines id)) →
        ∀ snapshot steps left, .executed snapshot steps left .done ∈ q.courses host fuel stopsRunning →
          ¬ id ∈ (left.commit snapshot steps).running := by
  intro q
  have hquarantined := hquarantines.keeps hreached hobservers
  have hconfined : r'.handle.Keeps (Operation.Confines id) (Requirements.Confines id) :=
    ⟨⟨hquarantined.requirements.1, hquarantined.requirements.2, hknown⟩, hquarantined.allows⟩
  have hq : q.handle.Keeps (Operation.Confines id) (Requirements.Confines id) :=
    (lasts_confines id).acts hconfined hacts
  refine ⟨hq.requirements.final?, fun _ _ _ hplan => hq.requirements.excluded hplan, ?_, ?_⟩
  · intro host stopsRunning report snapshot steps left hcourse
    have hundergoes := pass_undergoes host stopsRunning q report
    rw [hcourse] at hundergoes
    exact hundergoes.not_running hq.requirements
  · intro host fuel stopsRunning hhost snapshot steps left hcourse
    have hs : Sustains (Operation.Confines id) _ (Requirements.Confines id) host :=
      ⟨lasts_confines id, hhost, fun _ hconfines => hconfines⟩
    have hconcludes := apply_concludes host fuel stopsRunning q
    revert hcourse
    generalize q.courses host fuel stopsRunning = courses at hconcludes
    generalize q.apply host fuel stopsRunning = concluded at hconcludes
    intro hcourse
    cases hconcludes with
    | busy inFlight => cases hcourse
    | clean clean => cases hcourse
    | proceeds dirty proceeds =>
        obtain ⟨p, report', passed, hp, hundergoes⟩ :=
          hs.eachPass (r := { q with inFlight := true }) hq proceeds _ hcourse
        exact hundergoes.not_running hp.requirements

/-- After the radio failed it is asked for once more, and once more an apply is made. -/
def concert : List (Act Simulator) :=
  [.asked (.addLayer ⟨"concert", Table.empty.insert (.component "radio") .mandatory⟩ false),
    .applies Simulator.host 5 true]

open Simulator in
theorem quarantine_persists_dusk :
    let silenced := (dusk ["radio"]).act (.applies Simulator.host 5 false)
    (dusk ["radio"]).handle.requirements.ReachedOver Catalog.Keyed ∧
      (dusk ["radio"]).handle.Allows (Operation.Confines "radio") ∧
      (dusk ["radio"]).Quarantines "radio" silenced ∧ silenced.handle.requirements.Knows "radio" ∧
      (∀ act ∈ concert, act.Asks (Operation.Confines "radio")) ∧
      (silenced.actAll concert).handle.requirements.final? (.component "radio") = some .excluded ∧
      ∃ p, (silenced.actAll concert).plan false = .ok (.ready p) ∧ "radio" ∈ p.exclude := by
  intro silenced
  have hobservers : (dusk ["radio"]).handle.Allows (Operation.Confines "radio") :=
    (dusk_quiet ["radio"]).allows.mono (fun _ => False.elim)
  have hquarantines : (dusk ["radio"]).Quarantines "radio" silenced :=
    .failed Simulator.host 5 false refusal (host_installs Catalog.Keyed) rfl
  have hconfines : ∀ number steps state,
      (Simulator.host number steps state).AsksOnly (Operation.Confines "radio") :=
    LayersAllowed.host ⟨fun _ => ⟨trivial, trivial⟩, fun _ => ⟨trivial, trivial⟩⟩
  have hacts : ∀ act ∈ concert, act.Asks (Operation.Confines "radio") := by
    intro act hact
    rcases List.mem_cons.mp hact with rfl | hlast
    · exact ⟨trivial, trivial⟩
    · rw [List.mem_singleton.mp hlast]
      exact hconfines
  have hknown : silenced.handle.requirements.Knows "radio" := rfl
  have hplan : (silenced.actAll concert).plan false = .ok (.ready ⟨.empty, .empty, IdSet.ofList ["radio"], 0⟩) := by
    decide +kernel
  obtain ⟨hfinal, hexcluded, -⟩ := quarantine_persists "radio" (dusk ["radio"]) silenced (dusk_reached ["radio"])
    hobservers hquarantines hknown concert hacts
  exact ⟨dusk_reached ["radio"], hobservers, hquarantines, hknown, hacts, hfinal, _, hplan,
    (hexcluded false _ _ hplan).1⟩

end Reconciler

end Orchestrator
