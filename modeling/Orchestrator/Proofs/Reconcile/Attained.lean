import Orchestrator.Proofs.Reconcile.Quiet
import Orchestrator.Proofs.Reconcile.Reaction
import Orchestrator.Proofs.Simulator
import Orchestrator.Proofs.Solver.Optimality
/-!
What an apply attains. While hosts leave alone what runs and exists, only passes that were carried out to the end move
what runs and which severities were dealt with; a pass that found no plan, and one that failed, move nothing. A failure
leaves behind that its culprit is quarantined.
-/

namespace Orchestrator

/-- Who runs, and the severity of each subject that was last dealt with. -/
structure Attained where
  running : IdSet
  applied : Subject → Option Severity

namespace Attained

/-- What a pass adds to what was attained: if it was carried out to the end, what it started runs, as far as that is
known, what it stopped or excluded does not, and the severities of its snapshot were dealt with. -/
def take (known : String → Bool) (a : Attained) : Course → Attained
  | .executed snapshot steps _ .done =>
    { running := ((a.running.insertAll (steps.start.toList.filter known)).diff steps.stop).diff steps.exclude
      applied := snapshot.severities.get? }
  | _ => a

end Attained

/-- A test says of all that a plan over the catalog may start whether the catalog has it. -/
def Catalog.Recognizes (c : Catalog) (known : String → Bool) : Prop :=
  ∀ s stopsRunning options p, s.catalog = c → Solver.solve s stopsRunning options = .ok (.ready p) →
    ∀ id ∈ p.start, known id = c.components.contains id

theorem Catalog.recognizes_contains (c : Catalog) : c.Recognizes c.components.contains :=
  fun _ _ _ _ _ _ _ _ => rfl

/-- Where components are filed under their own identifiers, all that a plan starts is in the catalog. -/
theorem Catalog.Keyed.recognizes {c : Catalog} (hk : c.Keyed) : c.Recognizes (fun _ => true) := by
  rintro s stopsRunning options p rfl hplan id hid
  obtain ⟨runs, rfl, -⟩ := Snapshot.solve_ready hk hplan
  obtain ⟨x, hx, rfl, -⟩ := ((Snapshot.stepsTo_realizes hk).start id).mp hid
  have hfiled : s.catalog.component? x.id = some x := hk.mem_componentList.mp (Snapshot.mem_admitted.mp hx).1
  exact (Option.isSome_iff_exists.mpr ⟨x, hfiled⟩).symm

namespace Requirements

variable {r q : Requirements} {known : String → Bool}

def attained (r : Requirements) : Attained := ⟨r.running, r.applied?⟩

theorem SameFooting.attained_eq (h : r.SameFooting q) : q.attained = r.attained := by
  rw [attained, h.running, funext h.applied?_eq, attained]

/-- Taking over a snapshot of the subjects that are tracked deals with what the snapshot says. -/
theorem applied?_commit {snapshot : Snapshot} (steps : Steps)
    (htracked : ∀ s, snapshot.severities.contains s = r.standings.contains s) :
    (r.commit snapshot steps).applied? = snapshot.severities.get? := by
  funext s
  have hsome : (snapshot.severities.get? s).isSome = (r.standings.get? s).isSome := htracked s
  rw [applied?, get?_commit, Table.contains]
  cases hseverity : snapshot.severities.get? s with
  | some severity =>
      rw [hseverity] at hsome
      obtain ⟨old, hold⟩ := Option.isSome_iff_exists.mp hsome.symm
      simp [hold]
  | none =>
      rw [hseverity] at hsome
      simp [Option.isNone_iff_eq_none.mp (Option.isSome_eq_false_iff.mp hsome.symm)]

/-- Taking over steps for a snapshot of the subjects that are tracked attains what the steps and the snapshot say. -/
theorem attained_commit {snapshot : Snapshot} {steps : Steps} (left : Requirements)
    (htracked : ∀ s, snapshot.severities.contains s = r.standings.contains s)
    (hknown : ∀ id ∈ steps.start, known id = r.catalog.components.contains id) :
    (r.commit snapshot steps).attained = r.attained.take known (.executed snapshot steps left .done) := by
  have hrunning : (r.commit snapshot steps).running =
      ((r.running.insertAll (steps.start.toList.filter known)).diff steps.stop).diff steps.exclude := by
    refine IdSet.ext fun id => ?_
    rw [mem_running_commit, IdSet.mem_diff, IdSet.mem_diff, IdSet.mem_insertAll, List.mem_filter, and_assoc,
      ← IdSet.mem_def]
    have hstart : id ∈ steps.start ∧ known id = true ↔ id ∈ steps.start ∧ r.catalog.components.contains id = true :=
      and_congr_right fun hid => by rw [hknown id hid]
    rw [hstart]
  rw [attained, hrunning, applied?_commit steps htracked]
  rfl

/-- A snapshot that was taken before has the subjects that are still tracked. -/
theorem SameDealings.contains_snapshot (h : r.SameDealings q) (s : Subject) :
    r.snapshot.severities.contains s = q.standings.contains s := by
  rw [h.contains_eq, Table.contains, snapshot, Table.get?_map, Option.isSome_map, Table.contains]

/-- What a pass takes over from its host if that carried out the steps, and else what the pass found. -/
def takeOver (r : Requirements) : Course → Requirements
  | .executed snapshot steps left .done => left.commit snapshot steps
  | _ => r

theorem contains_running_commit {snapshot : Snapshot} {steps : Steps} {id : String}
    (hknown : id ∈ steps.start → r.catalog.components.contains id = true) :
    (r.commit snapshot steps).running.contains id = steps.runsAfter id (r.running.contains id) := by
  refine Bool.eq_iff_iff.mpr ?_
  rw [IdSet.contains_iff, mem_running_commit, Steps.runsAfter_iff, IdSet.contains_iff, and_iff_left_of_imp hknown]

/-- What a failure leaves behind: the culprit is quarantined and vetoed, and all else is as it was. -/
structure Blames (q left : Requirements) (culprit message : String) : Prop where
  quarantined : q.quarantined = left.quarantined.insert culprit message
  vetoed : ∀ standing, q.standings.get? (.component culprit) = some standing → standing.final = .excluded
  layers : q.layers = left.layers
  catalog : q.catalog = left.catalog
  disabled : q.disabled = left.disabled

theorem blames_recordFailure (left : Requirements) (culprit message : String) :
    (left.endPass.1.recordFailure culprit message).Blames left culprit message := by
  let blamed : Requirements := { left.endPass.1 with quarantined := left.quarantined.insert culprit message }
  have hrecomputed : left.endPass.1.recordFailure culprit message =
      (blamed.amend (.component culprit) (blamed.renewed (.component culprit))).touch := rfl
  have hcontext : (left.endPass.1.recordFailure culprit message).context = blamed.context := by
    rw [hrecomputed, context_touch, context_amend]
  have hvetoed : blamed.isVetoed (.component culprit) = true := by
    have hquarantined : blamed.isQuarantined (.component culprit) = true := by
      change (left.quarantined.insert culprit message).contains culprit = true
      rw [IdMap.contains, IdMap.get?_insert, if_pos rfl, Option.isSome_some]
    rw [isVetoed, hquarantined, Bool.or_true, Bool.true_or]
  have hfields : ∀ {α : Type} (f : Requirements → α), (∀ q : Requirements, f q.context = f q) →
      f (left.endPass.1.recordFailure culprit message) = f blamed := fun f hf => eq_of_context hf hcontext
  refine ⟨hfields Requirements.quarantined (fun _ => rfl), ?_, hfields Requirements.layers (fun _ => rfl),
    hfields Requirements.catalog (fun _ => rfl), hfields Requirements.disabled (fun _ => rfl)⟩
  intro standing hget
  rw [hrecomputed, standings_touch, get?_amend, if_pos rfl] at hget
  obtain ⟨old, -, rfl⟩ := Option.map_eq_some_iff.mp hget
  exact resultingSeverity_of_vetoed hvetoed

end Requirements

namespace Reconciler

variable {ρ σ : Type} {host : Host σ} {stopsRunning : Bool} {r r' : Reconciler ρ σ} {report : Report} {c : Course}
  {known : String → Bool} {P : Operation → Prop} {R : Requirements → Requirements → Prop}

/-! ## What a pass leaves alone -/

/-- Operations of one kind, and the moments at which a pass begins and ends, lead to requirements that are related to
those before, and to record a failure is of this kind. -/
structure Ties (P : Operation → Prop) (R : Requirements → Requirements → Prop) : Prop where
  trans : ∀ {r q p}, R r q → R q p → R r p
  operations : ∀ r operation, P operation → R r (r.perform operation).1
  begins : ∀ r, R r r.beginPass
  ends : ∀ r, R r r.endPass.1
  failure : ∀ id message, P (.recordFailure id message)

theorem Ties.stable (ht : Ties P R) (r : Requirements) : Handle.Stable P (R r) :=
  fun q operation hpermitted hq => ht.trans hq (ht.operations q operation hpermitted)

theorem ties_sameFooting : Ties Operation.LeavesRunning Requirements.SameFooting where
  trans := Requirements.SameFooting.trans
  operations := fun _ _ => Requirements.sameFooting_perform
  begins := fun _ => Requirements.sameFooting_beginPass
  ends := fun _ => Requirements.sameFooting_endPass
  failure := fun _ _ => trivial

theorem ties_sameDealings : Ties (Operation.Installs fun _ => False) Requirements.SameDealings where
  trans := Requirements.SameDealings.trans
  operations := fun _ _ => Requirements.sameDealings_perform
  begins := fun _ _ => rfl
  ends := fun _ _ => rfl
  failure := fun _ _ => trivial

theorem Executes.tied {steps : Steps} {left : Handle ρ} {state : σ} {verdict : Verdict} (ht : Ties P R)
    (hobservers : r.handle.Allows P) (hhost : ∀ number steps state, (host number steps state).AsksOnly P)
    (h : r.Executes host stopsRunning report steps left state verdict) :
    left.Keeps P (R r.handle.requirements) := by
  have hbegun : r.begun.Keeps P (R r.handle.requirements) := ⟨ht.begins _, hobservers⟩
  have hleft := hbegun.run (ht.stable _) (fun _ hpermitted => hpermitted) (hhost (report.passes + 1) steps r.host)
  rwa [h.ran] at hleft

/-- A pass ends in what is related to that which it took over. -/
theorem Undergoes.tied {progress : Progress} (ht : Ties P R) (hobservers : r.handle.Allows P)
    (hhost : ∀ number steps state, (host number steps state).AsksOnly P)
    (h : r.Undergoes host stopsRunning report c (r', progress)) :
    r'.handle.Keeps P (R (r.handle.requirements.takeOver c)) := by
  cases h with
  | refused unplanned => exact ⟨ht.trans (ht.begins _) (ht.ends _), hobservers⟩
  | abandoned executes => exact executes.tied ht hobservers hhost
  | @failed steps left state f executes =>
      have hleft := executes.tied ht hobservers hhost
      have hended := ht.trans hleft.requirements (ht.ends left.requirements)
      have hrecorded := ht.trans hended (ht.operations _ (.recordFailure f.culprit f.message) (ht.failure _ _))
      exact hleft.allows.change (ht.stable _) (fun q => q.endPass.1.recordFailure f.culprit f.message) hrecorded
  | @done steps left state progress executes next =>
      have hleft := executes.tied ht hobservers hhost
      exact hleft.allows.change (ht.stable _) (fun q => (q.commit r.handle.requirements.snapshot steps).endPass.1)
        (ht.ends _)

/-! ## What passes attain -/

theorem Undergoes.attained {progress : Progress} (hknown : r.handle.requirements.catalog.Recognizes known)
    (hobservers : r.handle.Allows Operation.LeavesRunning)
    (hhost : ∀ number steps state, (host number steps state).AsksOnly Operation.LeavesRunning)
    (h : r.Undergoes host stopsRunning report c (r', progress)) :
    r'.handle.requirements.attained = r.handle.requirements.attained.take known c ∧
      r'.handle.requirements.catalog = r.handle.requirements.catalog ∧
      r'.handle.Allows Operation.LeavesRunning := by
  obtain ⟨htied, hallows⟩ := h.tied ties_sameFooting hobservers hhost
  rw [htied.attained_eq, htied.catalog]
  cases h with
  | refused | abandoned | failed => exact ⟨rfl, rfl, hallows⟩
  | @done steps left state progress executes next =>
      have hleft := (executes.tied ties_sameFooting hobservers hhost).requirements
      refine ⟨?_, (Requirements.catalog_commit _ _).trans hleft.catalog, hallows⟩
      rw [← hleft.attained_eq]
      refine Requirements.attained_commit left.requirements hleft.dealings.contains_snapshot ?_
      intro id hid
      rw [hleft.catalog]
      exact hknown _ _ _ _ rfl executes.planned id hid

/-- Which severities were dealt with does not depend on what ran. -/
theorem Undergoes.applied {progress : Progress} {a : Attained}
    (hobservers : r.handle.Allows (Operation.Installs fun _ => False))
    (hhost : ∀ number steps state, (host number steps state).AsksOnly (Operation.Installs fun _ => False))
    (h : r.Undergoes host stopsRunning report c (r', progress)) (ha : a.applied = r.handle.requirements.applied?) :
    (a.take known c).applied = r'.handle.requirements.applied? ∧
      r'.handle.Allows (Operation.Installs fun _ => False) := by
  obtain ⟨htied, hallows⟩ := h.tied ties_sameDealings hobservers hhost
  rw [funext htied.applied?_eq]
  cases h with
  | refused | abandoned | failed => exact ⟨ha, hallows⟩
  | @done steps left state progress executes next =>
      have hleft := (executes.tied ties_sameDealings hobservers hhost).requirements
      exact ⟨(Requirements.applied?_commit steps hleft.contains_snapshot).symm, hallows⟩

theorem Proceeds.attained {courses : List Course} {outcome : Outcome}
    (hknown : r.handle.requirements.catalog.Recognizes known)
    (hobservers : r.handle.Allows Operation.LeavesRunning)
    (hhost : ∀ number steps state, (host number steps state).AsksOnly Operation.LeavesRunning)
    (h : Proceeds host stopsRunning r report courses r' outcome) :
    r'.handle.requirements.attained = courses.foldl (Attained.take known) r.handle.requirements.attained := by
  induction h with
  | unfinished => rfl
  | ended undergoes => exact (undergoes.attained hknown hobservers hhost).1
  | abandoned undergoes => exact (undergoes.attained hknown hobservers hhost).1
  | again undergoes rest ih =>
      -- The catalog stays the same, so that the same test serves for the passes to come.
      obtain ⟨hattained, hcatalog, hallows⟩ := undergoes.attained hknown hobservers hhost
      rw [List.foldl_cons, ← hattained]
      exact ih (hcatalog ▸ hknown) hallows

theorem Proceeds.applied {courses : List Course} {outcome : Outcome} {a : Attained}
    (hobservers : r.handle.Allows (Operation.Installs fun _ => False))
    (hhost : ∀ number steps state, (host number steps state).AsksOnly (Operation.Installs fun _ => False))
    (h : Proceeds host stopsRunning r report courses r' outcome) (ha : a.applied = r.handle.requirements.applied?) :
    (courses.foldl (Attained.take known) a).applied = r'.handle.requirements.applied? := by
  induction h generalizing a with
  | unfinished => exact ha
  | ended undergoes => exact (undergoes.applied hobservers hhost ha).1
  | abandoned undergoes => exact (undergoes.applied hobservers hhost ha).1
  | again undergoes rest ih =>
      obtain ⟨happlied, hallows⟩ := undergoes.applied hobservers hhost ha
      exact ih hallows happlied

/-- Whatever observers and the host ask for that leaves alone what runs and what exists, an apply attains what its
passes add. -/
theorem Concludes.attained {courses : List Course} {passed : Reconciler ρ σ × Outcome}
    (hknown : r.handle.requirements.catalog.Recognizes known)
    (hobservers : r.handle.Allows Operation.LeavesRunning)
    (hhost : ∀ number steps state, (host number steps state).AsksOnly Operation.LeavesRunning)
    (h : r.Concludes host stopsRunning courses passed) :
    passed.1.handle.requirements.attained = courses.foldl (Attained.take known) r.handle.requirements.attained := by
  cases h with
  | busy inFlight => rfl
  | clean clean => rfl
  | proceeds dirty proceeds =>
      have hattained := Proceeds.attained (r := { r with inFlight := true }) hknown hobservers hhost proceeds
      exact (congrArg Requirements.attained (requirements_conclude _)).trans hattained

/-- As long as the catalog stays, an apply deals with the severities that its passes deal with. -/
theorem Concludes.applied {courses : List Course} {passed : Reconciler ρ σ × Outcome}
    (hobservers : r.handle.Allows (Operation.Installs fun _ => False))
    (hhost : ∀ number steps state, (host number steps state).AsksOnly (Operation.Installs fun _ => False))
    (h : r.Concludes host stopsRunning courses passed) :
    passed.1.handle.requirements.applied? =
      (courses.foldl (Attained.take known) r.handle.requirements.attained).applied := by
  cases h with
  | busy inFlight => rfl
  | clean clean => rfl
  | proceeds dirty proceeds =>
      have hsame : r.handle.requirements.attained.applied = r.handle.requirements.applied? := rfl
      have happlied : (courses.foldl (Attained.take known) r.handle.requirements.attained).applied = _ :=
        Proceeds.applied (r := { r with inFlight := true }) hobservers hhost proceeds hsame
      exact (congrArg Requirements.applied? (requirements_conclude _)).trans happlied.symm

theorem Concludes.blames {courses : List Course} {culprit message : String} (hquiet : r.handle.Quiet)
    (h : r.Concludes host stopsRunning courses (r', .finished (.error (.executionFailed culprit message)))) :
    ∃ snapshot steps left, courses.getLast? = some (.executed snapshot steps left (.failed ⟨culprit, message⟩)) ∧
      r'.handle.requirements.Blames left culprit message := by
  have hs : Sustains (fun _ => False) (fun _ => True) (fun _ => True) host :=
    ⟨⟨fun _ _ _ _ => trivial, fun _ _ => trivial⟩, fun _ _ _ => Program.asksOnly_true _, fun _ _ => trivial⟩
  cases h with
  | proceeds dirty proceeds =>
      obtain ⟨q, report, c, hq, hlast, hended⟩ :=
        hs.lastPass (r := { r with inFlight := true }) ⟨trivial, hquiet⟩ proceeds rfl
      obtain ⟨steps, left, state, hexecutes, rfl, rfl⟩ := hended.of_failure
      obtain ⟨-, hleft⟩ := hexecutes.carriesOut hq.allows
      have hrecorded := hleft.holds.change (fun q => q.endPass.1.recordFailure culprit message)
      refine ⟨_, _, _, hlast, ?_⟩
      simp only [conclude, (hrecorded.announceApplied _).requirements]
      exact Requirements.blames_recordFailure left.requirements culprit message

/-- Whatever an apply comes to, what runs and which severities were dealt with is what its passes that were carried out
to the end add to what was attained before, where a pass adds the components that it started and that the catalog has.
In a catalog whose components are filed under their own identifiers that is all that it started. After a failure the
last pass is the one that failed, and it left behind that the culprit is quarantined. -/
theorem apply_attained (host : Host σ) (fuel : Nat) (stopsRunning : Bool) (r : Reconciler ρ σ)
    (hquiet : r.handle.Quiet)
    (hhost : ∀ number steps state, (host number steps state).AsksOnly Operation.LeavesRunning) :
    let found := r.handle.requirements
    let courses := r.courses host fuel stopsRunning
    let q := (r.apply host fuel stopsRunning).1.handle.requirements
    q.attained = courses.foldl (Attained.take found.catalog.components.contains) found.attained ∧
      (found.catalog.Keyed → q.attained = courses.foldl (Attained.take fun _ => true) found.attained) ∧
      ∀ culprit message,
        (r.apply host fuel stopsRunning).2 = .finished (.error (.executionFailed culprit message)) →
        ∃ snapshot steps left, courses.getLast? = some (.executed snapshot steps left (.failed ⟨culprit, message⟩)) ∧
          q.Blames left culprit message := by
  intro found courses q
  have hconcludes := apply_concludes host fuel stopsRunning r
  have hobservers : r.handle.Allows Operation.LeavesRunning := hquiet.allows.mono fun _ => False.elim
  have hfold : ∀ known, found.catalog.Recognizes known →
      q.attained = courses.foldl (Attained.take known) found.attained := by
    intro known hknown
    exact hconcludes.attained hknown hobservers hhost
  refine ⟨hfold _ (Catalog.recognizes_contains _), fun hk => hfold _ hk.recognizes, ?_⟩
  intro culprit message hfailed
  exact (apply_concludes_of_eq hfailed).blames hquiet

/-- The pass that lit the lamp counts; the one in which the radio failed does not. -/
theorem apply_attained_dusk :
    (Simulator.dusk ["radio"]).handle.Quiet ∧
      (∀ number steps state, (Simulator.host number steps state).AsksOnly Operation.LeavesRunning) ∧
      let found := (Simulator.dusk ["radio"]).handle.requirements
      let courses := (Simulator.dusk ["radio"]).courses Simulator.host 5 false
      let q := ((Simulator.dusk ["radio"]).apply Simulator.host 5 false).1.handle.requirements
      q.attained = courses.foldl (Attained.take fun _ => true) found.attained ∧ q.running = IdSet.ofList ["lamp"] ∧
        ∃ snapshot steps left,
          courses.getLast? = some (.executed snapshot steps left (.failed ⟨"radio", Simulator.refusal⟩)) ∧
            q.Blames left "radio" Simulator.refusal := by
  have hquiet := Simulator.dusk_quiet ["radio"]
  have hhost := Simulator.host_leavesRunning
  obtain ⟨-, hattained, hblames⟩ := apply_attained Simulator.host 5 false (Simulator.dusk ["radio"]) hquiet hhost
  exact ⟨hquiet, hhost, hattained Simulator.parlour_keyed, rfl, hblames "radio" Simulator.refusal rfl⟩

/-- A gate that implements a passage and is filed under the name of a door. The passage has to be open. -/
def mislabelled : Reconciler Unit Unit :=
  { handle :=
      { requirements := .initial
          { components := IdMap.empty.insert "door" ⟨"gate", "", some "passage", [], none⟩
            services := IdMap.empty.insert "passage" (.bare "passage") }
          { Settings.empty with user := Table.empty.insert (.service "passage") .mandatory } .store
        observers := [] }
    host := ()
    options := .standard
    inFlight := false }

/-- The host starts the gate, and still nothing runs, since the catalog has no component of that name. -/
theorem apply_attained_mislabelled :
    mislabelled.handle.requirements.ReachedOver (fun _ => True) ∧ mislabelled.handle.Quiet ∧
      (∀ number steps state,
        (Host.idle number steps state : Program (Unit × Verdict)).AsksOnly Operation.LeavesRunning) ∧
      (mislabelled.apply Host.idle 5 false).2 = .finished (.ok ⟨1, 1, 0, 0, 10⟩) ∧
      (mislabelled.apply Host.idle 5 false).1.handle.requirements.attained ≠
        (mislabelled.courses Host.idle 5 false).foldl (Attained.take fun _ => true)
          mislabelled.handle.requirements.attained := by
  refine ⟨⟨_, _, _, [], trivial, nofun, rfl⟩, nofun, fun _ _ _ => trivial, rfl, ?_⟩
  intro hsame
  have hrunning := congrArg (fun a => a.running.toList) hsame
  have hnone : (mislabelled.apply Host.idle 5 false).1.handle.requirements.attained.running.toList = [] := rfl
  have hgate : ((mislabelled.courses Host.idle 5 false).foldl (Attained.take fun _ => true)
      mislabelled.handle.requirements.attained).running.toList = ["gate"] := rfl
  rw [hnone, hgate] at hrunning
  cases hrunning

end Reconciler

end Orchestrator
