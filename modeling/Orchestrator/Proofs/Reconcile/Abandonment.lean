import Orchestrator.Proofs.Reconcile.Attained
import Orchestrator.Proofs.Reconcile.Discretion
import Orchestrator.Proofs.Reconcile.Stages
/-!
Hosts that give up in the middle. The pass is never taken over, nothing of it counts as attained, and what is left of it
but for the operations of the host are the marks of a pass. An apply that the host asks for meanwhile makes no pass; one
that is asked for later is made as if no pass had been given up.
-/

namespace Orchestrator

/-- A pass that was given up adds nothing to what was attained before it. -/
theorem Attained.foldl_take_dropLast {known : String → Bool} {courses : List Course} {snapshot : Snapshot}
    {steps : Steps} {left : Requirements}
    (hlast : courses.getLast? = some (.executed snapshot steps left .abandoned)) (a : Attained) :
    courses.foldl (Attained.take known) a = courses.dropLast.foldl (Attained.take known) a := by
  have hcourses : courses.dropLast ++ [.executed snapshot steps left .abandoned] = courses :=
    List.dropLast_append_getLast? _ hlast
  rw [← hcourses, List.foldl_append, List.dropLast_concat]
  rfl

namespace Reconciler

variable {ρ σ : Type} {host : Host σ} {stopsRunning : Bool} {r r' p : Reconciler ρ σ} {report : Report}

/-! ## The apply in flight -/

/-- A pass ends no apply and begins none. -/
theorem Undergoes.inFlight_eq {c : Course} {progress : Progress}
    (h : r.Undergoes host stopsRunning report c (r', progress)) : r'.inFlight = r.inFlight := by
  cases h with
  | refused | abandoned | failed | done => rfl

theorem stage?_inFlight {n : Nat}
    (h : stage? host stopsRunning n ({ r with inFlight := true }, .blank) = some (p, report)) : p.inFlight = true := by
  refine stage?_preserves (I := fun x => x.1.inFlight = true) ?_ rfl h
  rintro ⟨q, report⟩ ⟨q', report'⟩ hq hnext
  have hundergoes := pass_undergoes host stopsRunning q report
  rw [next?_eq_some_iff.mp hnext] at hundergoes
  exact hundergoes.inFlight_eq.trans hq

theorem apply_of_inFlight (host : Host σ) (fuel : Nat) (stopsRunning : Bool) (h : r.inFlight = true) :
    r.apply host fuel stopsRunning = (r, .busy) ∧ r.courses host fuel stopsRunning = [] := by
  unfold Reconciler.apply courses
  rw [h]
  exact ⟨rfl, rfl⟩

/-! ## The pass that was given up -/

theorem Undergoes.of_abandoned {c : Course} (h : r.Undergoes host stopsRunning report c (r', .abandoned)) :
    ∃ snapshot steps, c = .executed snapshot steps r'.handle.requirements .abandoned := by
  generalize hprogress : Progress.abandoned = progress at h
  cases h with
  | refused unplanned => cases hprogress
  | abandoned executes => exact ⟨_, _, rfl⟩
  | failed executes => cases hprogress
  | done executes next =>
      rw [next] at hprogress
      split at hprogress
      · cases hprogress
      · cases hprogress

/-- The last pass is the one that was given up, and nothing comes after what the host left. -/
theorem Proceeds.of_abandoned {courses : List Course} {outcome : Outcome}
    (h : Proceeds host stopsRunning r report courses r' outcome) (habandoned : outcome = .abandoned) :
    ∃ snapshot steps, courses.getLast? = some (.executed snapshot steps r'.handle.requirements .abandoned) := by
  induction h with
  | unfinished => cases habandoned
  | ended undergoes => cases habandoned
  | abandoned undergoes =>
      obtain ⟨snapshot, steps, rfl⟩ := undergoes.of_abandoned
      exact ⟨snapshot, steps, rfl⟩
  | again undergoes rest ih =>
      obtain ⟨snapshot, steps, hlast⟩ := ih habandoned
      refine ⟨snapshot, steps, ?_⟩
      rw [List.getLast?_cons, hlast, Option.getD_some]

theorem Concludes.of_abandoned {courses : List Course} (h : r.Concludes host stopsRunning courses (r', .abandoned)) :
    r'.inFlight = false ∧
      ∃ snapshot steps, courses.getLast? = some (.executed snapshot steps r'.handle.requirements .abandoned) := by
  cases h with
  | proceeds dirty proceeds => exact ⟨rfl, proceeds.of_abandoned rfl⟩

/-- The host gave up in the middle of an apply. Whatever the requirements and the observers had come to, an apply asked
for in the course of it made no pass. The passes before the last one were carried out, the last one is not taken over
but for what the host left, and no apply is in flight any more. As long as neither the host nor an observer exchanged
the catalog, the severities that were dealt with are those of the passes that were carried out, and as long as they did
not report what runs either, so is what runs. If observers do not go by the marks, which nobody can see, nothing that is
done from then on goes in any other way than from where the marks are not set; and so it is for any two reconcilers that
differ in nothing but these marks. -/
theorem abandonment_leaves_no_trace (host : Host σ) (fuel : Nat) (stopsRunning : Bool) (r : Reconciler ρ σ)
    (habandoned : (r.apply host fuel stopsRunning).2 = .abandoned) :
    let found := r.handle.requirements
    let courses := r.courses host fuel stopsRunning
    let after := (r.apply host fuel stopsRunning).1
    let attained := courses.dropLast.foldl (Attained.take found.catalog.components.contains) found.attained
    (∀ n p report, stage? host stopsRunning n ({ r with inFlight := true }, .blank) = some (p, report) →
      ∀ handle state inner fuel stopsRunning,
        let nested : Reconciler ρ σ := { p with handle, host := state }
        nested.apply inner fuel stopsRunning = (nested, .busy) ∧ nested.courses inner fuel stopsRunning = []) ∧
      (∃ snapshot steps,
        courses.getLast? = some (.executed snapshot steps after.handle.requirements .abandoned) ∧
          ∀ c ∈ courses.dropLast, c.isCarriedOut = true) ∧
      after.inFlight = false ∧
      ((∀ number steps state, (host number steps state).AsksOnly (Operation.Installs fun _ => False)) →
        r.handle.Allows (Operation.Installs fun _ => False) →
        after.handle.requirements.applied? = attained.applied) ∧
      ((∀ number steps state, (host number steps state).AsksOnly Operation.LeavesRunning) →
        r.handle.Allows Operation.LeavesRunning → after.handle.requirements.attained = attained) ∧
      (r.handle.Discreet → ∀ q : Reconciler ρ σ, after.shown = q.shown → after.Indistinguishable q) ∧
      ∀ p q : Reconciler ρ σ, p.handle.Discreet → p.shown = q.shown → p.Indistinguishable q := by
  intro found courses after attained
  have hconcludes : r.Concludes host stopsRunning courses (after, .abandoned) := apply_concludes_of_eq habandoned
  obtain ⟨hlanded, snapshot, steps, hlast⟩ := hconcludes.of_abandoned
  have hsame : ∀ p q : Reconciler ρ σ, p.handle.Discreet → p.shown = q.shown → p.Indistinguishable q :=
    fun p q hdiscreet hshown => (matches_of_shown_eq hshown hdiscreet).indistinguishable
  refine ⟨?_, ⟨snapshot, steps, hlast, hconcludes.carriedOut⟩, hlanded, ?_, ?_, ?_, hsame⟩
  · intro n p report hstage handle state inner fuel stopsRunning
    have hflying : p.inFlight = true := stage?_inFlight hstage
    exact apply_of_inFlight inner fuel stopsRunning hflying
  · intro hhost hobservers
    rw [hconcludes.applied hobservers hhost, Attained.foldl_take_dropLast hlast]
  · intro hhost hobservers
    rw [hconcludes.attained (Catalog.recognizes_contains _) hobservers hhost, Attained.foldl_take_dropLast hlast]
  · intro hdiscreet q hshown
    exact hsame after q (hdiscreet.of_subset hconcludes.reactions) hshown

/-- Lights the lamp, and gives up once the radio it asked for is to be started too. -/
def startled : Host Simulator
  | 1, _, s => .perform (.addLayer ⟨"news", Table.empty.insert (.component "radio") .mandatory⟩ true) fun _ =>
      .done (s, .done)
  | _, _, s => .perform (.addLayer ⟨"hush", Table.empty.insert (.component "lamp") .present⟩ true) fun _ =>
      .done (s, .abandoned)

open Simulator in
/-- The lamp counts, and the radio does not. Both marks of the pass stay, and nobody can tell. -/
theorem abandonment_leaves_no_trace_dusk :
    let after := ((dusk []).apply startled 5 false).1
    ((dusk []).apply startled 5 false).2 = .abandoned ∧
      (∀ number steps state, (startled number steps state).AsksOnly Operation.LeavesRunning) ∧
      (dusk []).handle.Allows Operation.LeavesRunning ∧ (dusk []).handle.Discreet ∧
      after.handle.requirements.running.toList = ["lamp"] ∧ after.handle.requirements.isApplying = true ∧
      after.handle.requirements.wantsReapply = true ∧ after.inFlight = false ∧
      after.handle.requirements.attained =
        ((dusk []).courses startled 5 false).dropLast.foldl (Attained.take parlour.components.contains)
          (dusk []).handle.requirements.attained ∧
      after.Indistinguishable after.shown := by
  intro after
  have habandoned : ((dusk []).apply startled 5 false).2 = .abandoned := rfl
  have hhost : ∀ number steps state, (startled number steps state).AsksOnly Operation.LeavesRunning := by
    intro number steps state
    unfold startled
    split
    · exact ⟨trivial, fun _ => trivial⟩
    · exact ⟨trivial, fun _ => trivial⟩
  have hobservers : (dusk []).handle.Allows Operation.LeavesRunning :=
    (dusk_quiet []).allows.mono fun _ => False.elim
  have hdiscreet : (dusk []).handle.Discreet := nofun
  obtain ⟨-, -, hlanded, -, hattained, hsame, -⟩ :=
    abandonment_leaves_no_trace startled 5 false (dusk []) habandoned
  exact ⟨habandoned, hhost, hobservers, hdiscreet, rfl, rfl, rfl, hlanded, hattained hhost hobservers,
    hsame hdiscreet after.shown rfl⟩

/-- The lamp and the radio run, and then all is switched off. -/
def midnight : Reconciler Unit Simulator :=
  ((Simulator.dusk []).act (.applies Simulator.host 5 false)).act (.asked (.setDisabled true))

/-- Asks for one operation and gives up. -/
def givesUpAfter (operation : Operation) : Host Simulator :=
  fun _ _ s => .perform operation fun _ => .done (s, .abandoned)

/-- No pass was taken over, and still the lamp does not run any more if the host reported so, and nothing runs and
nothing was dealt with if the host put an empty catalog in place. -/
theorem abandonment_keeps_reports :
    let found := midnight.handle.requirements
    let reported := midnight.apply (givesUpAfter (.markRunning "lamp" false)) 5 false
    let exchanged := midnight.apply (givesUpAfter (.refreshCatalog .empty)) 5 false
    found.running.toList = ["lamp", "radio"] ∧ found.applied? (.component "lamp") = some .mandatory ∧
      (reported.2 = .abandoned ∧
        (midnight.courses (givesUpAfter (.markRunning "lamp" false)) 5 false).dropLast = [] ∧
        reported.1.handle.requirements.running.toList = ["radio"]) ∧
      exchanged.2 = .abandoned ∧ (midnight.courses (givesUpAfter (.refreshCatalog .empty)) 5 false).dropLast = [] ∧
        exchanged.1.handle.requirements.running.toList = [] ∧
        exchanged.1.handle.requirements.applied? (.component "lamp") = none := by
  exact ⟨rfl, rfl, ⟨rfl, rfl, rfl⟩, rfl, rfl, rfl, rfl⟩

end Reconciler

end Orchestrator
