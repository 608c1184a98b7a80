import Orchestrator.Proofs.Reconcile.Attained
import Orchestrator.Scenario
/-!
What an apply that ends because nothing can be done has changed by then. The pass that finds so changes nothing, but
the passes before it were carried out: the demands that conflict may have come from components that they started.
-/

namespace Orchestrator

/-- A simulator that is given nothing to do asks for nothing. -/
theorem Simulator.host_of_deedsOf_nil {pass : Nat} {steps : Steps} {s : Simulator}
    (h : Simulator.deedsOf pass steps.exclude.toList steps.stop.toList steps.start.toList = []) :
    Simulator.host pass steps s = .done (s, .done) := by
  simp only [Simulator.deedsOf, List.append_eq_nil_iff, List.map_eq_nil_iff] at h
  obtain ⟨⟨hexclude, hstop⟩, hstart⟩ := h
  rw [Simulator.host, hexclude, hstop, hstart]
  rfl

namespace Reconciler

variable {ρ : Type} {stopsRunning : Bool} {r r' : Reconciler ρ Simulator} {report : Report} {c : Course}

theorem CarriesOut.deeds {steps : Steps} {left : Requirements} {state : Simulator} {verdict : Verdict}
    (h : r.CarriesOut Simulator.host stopsRunning report steps left state verdict) :
    ∃ started, started <+: steps.start.toList ∧
      state.deeds = r.host.deeds ++
        Simulator.deedsOf (report.passes + 1) steps.exclude.toList steps.stop.toList started ∧
      (verdict = .done → started = steps.start.toList) := by
  have hends := (Simulator.host_ends (report.passes + 1) steps r.host).runOn r.handle.requirements.beginPass
  rwa [h.ran] at hends

/-- A pass in which the simulator changed the requirements is one in which it did something. -/
theorem CarriesOut.deeds_lt {steps : Steps} {left : Requirements} {state : Simulator}
    (h : r.CarriesOut Simulator.host stopsRunning report steps left state .done) (changed : left.wantsReapply = true) :
    r.host.deeds.length < state.deeds.length := by
  obtain ⟨started, -, hdeeds, hall⟩ := h.deeds
  rw [hall rfl] at hdeeds
  rw [hdeeds, List.length_append, Nat.lt_add_right_iff_pos, List.length_pos_iff]
  intro hnothing
  -- With nothing to do the host would have left the requirements as they were when the pass began.
  have hran := h.ran
  rw [Simulator.host_of_deedsOf_nil hnothing] at hran
  cases hran
  cases changed

/-- Either nothing could be done right away, and nothing was changed, or something was done before that. -/
theorem Runs.impossible {courses : List Course} {outcome : Outcome}
    (h : Runs Simulator.host stopsRunning r report courses r' outcome)
    (hfinished : outcome = .finished (.error .impossible)) :
    courses.getLast? = some (.refused .impossible) ∧
      (r.plan stopsRunning = .ok .impossible → r'.host = r.host ∧
        r'.handle.requirements = r.handle.requirements.beginPass.endPass.1) ∧
      (r.plan stopsRunning ≠ .ok .impossible → r.host.deeds.length < r'.host.deeds.length) := by
  induction h with
  | unfinished => cases hfinished
  | ended passes =>
      cases passes with
      | refused unplanned becomes =>
          cases hfinished
          rcases unplanned_cases unplanned with ⟨himpossible, -⟩ | ⟨free, limit, hlarge⟩
          · exact ⟨rfl, fun _ => ⟨becomes.host, becomes.holds.requirements⟩, fun hplan => absurd himpossible hplan⟩
          · cases hlarge
      | failed carriesOut becomes => cases hfinished
      | settled carriesOut unchanged becomes => cases hfinished
  | abandoned passes => cases hfinished
  | @again r r' q report report' c courses outcome passes rest ih =>
      obtain ⟨hlast, himpossible, hdone⟩ := ih hfinished
      cases passes with
      | @repeated steps left state carriesOut changed becomes =>
          have hmore := carriesOut.deeds_lt changed
          rw [← becomes.host] at hmore
          refine ⟨?_, ?_, ?_⟩
          · rw [List.getLast?_cons, hlast, Option.getD_some]
          · intro hplan
            rw [carriesOut.planned] at hplan
            cases hplan
          · intro _
            by_cases hplan : r'.plan stopsRunning = .ok .impossible
            · rw [(himpossible hplan).1]
              exact hmore
            · exact hmore.trans (hdone hplan)

/-- After an apply that ended because nothing can be done, all passes but the last were carried out, and what runs and
which severities were dealt with is what those attained. If the plan was impossible from the start there were none, and
nothing was changed; if it was not, the host did something before the demands came to conflict. -/
theorem apply_impossible (fuel : Nat) (stopsRunning : Bool) (r : Reconciler ρ Simulator) (hquiet : r.handle.Quiet)
    (himpossible : (r.apply Simulator.host fuel stopsRunning).2 = .finished (.error .impossible)) :
    let found := r.handle.requirements
    let a := (r.apply Simulator.host fuel stopsRunning).1
    ∃ earlier, r.courses Simulator.host fuel stopsRunning = earlier ++ [.refused .impossible] ∧
      (∀ c ∈ earlier, c.isCarriedOut = true) ∧
      a.handle.requirements.attained =
        earlier.foldl (Attained.take found.catalog.components.contains) found.attained ∧
      (r.plan stopsRunning = .ok .impossible →
        a.host = r.host ∧ a.handle.requirements = { found with isApplying := false, wantsReapply := false }) ∧
      (r.plan stopsRunning ≠ .ok .impossible → r.host.deeds.length < a.host.deeds.length) := by
  intro found a
  have happlies : r.Applies Simulator.host stopsRunning a (r.courses Simulator.host fuel stopsRunning)
      (.finished (.error .impossible)) := himpossible ▸ apply_applies fuel hquiet
  have hconcludes := apply_concludes Simulator.host fuel stopsRunning r
  have hcarried := hconcludes.carriedOut
  have hattained : a.handle.requirements.attained = _ := hconcludes.attained (Catalog.recognizes_contains _)
    (hquiet.allows.mono fun _ => False.elim) Simulator.host_leavesRunning
  revert happlies hcarried hattained
  generalize a = a
  generalize r.courses Simulator.host fuel stopsRunning = courses
  intro happlies hcarried hattained
  cases happlies with
  | runs dirty runs becomes =>
      obtain ⟨hlast, hfirst, hlater⟩ := Runs.impossible runs rfl
      have hcourses : courses = courses.dropLast ++ [.refused .impossible] :=
        (List.dropLast_append_getLast? _ hlast).symm
      refine ⟨courses.dropLast, hcourses, hcarried, ?_, ?_, ?_⟩
      · rw [hcourses, List.foldl_append] at hattained
        exact hattained
      · intro hplan
        obtain ⟨hstate, hrequirements⟩ := hfirst hplan
        exact ⟨becomes.host.trans hstate, becomes.holds.requirements.trans hrequirements⟩
      · intro hplan
        rw [becomes.host]
        exact hlater hplan

/-- A hub that has to run asks for two rivals once it is started. -/
def mirroring : Scenario :=
  { disabled := false
    running := []
    services := []
    components :=
      [⟨"disk", "", some "store", [], none⟩, ⟨"hub", "", none, [], none⟩, ⟨"tape", "", some "store", [], none⟩]
    settings := { Settings.empty with user := Table.empty.insert (.component "hub") .mandatory }
    layers := []
    triggers := [⟨"hub", ⟨"mirroring",
      (Table.empty.insert (.component "disk") .mandatory).insert (.component "tape") .mandatory⟩⟩]
    options := .standard }

def mirror : Reconciler Unit Simulator :=
  { handle := { requirements := mirroring.requirements.toOption.getD (.initial .empty .empty .store), observers := [] }
    host := .ofTriggers mirroring.triggers []
    options := mirroring.options
    inFlight := false }

theorem apply_impossible_mirror :
    mirror.handle.Quiet ∧ (mirror.apply Simulator.host 5 false).2 = .finished (.error .impossible) ∧
      mirror.plan false ≠ .ok .impossible ∧
      mirror.host.deeds.length < (mirror.apply Simulator.host 5 false).1.host.deeds.length := by
  have hquiet : mirror.handle.Quiet := nofun
  have hended : (mirror.apply Simulator.host 5 false).2 = .finished (.error .impossible) := rfl
  have hplan : mirror.plan false ≠ .ok .impossible := nofun
  obtain ⟨earlier, -, -, -, -, hlater⟩ := apply_impossible 5 false mirror hquiet hended
  exact ⟨hquiet, hended, hplan, hlater hplan⟩

/-- The scenario is accepted, the apply ends because nothing can be done, and by then the hub runs and its layer is
active. -/
theorem apply_impossible_changes :
    mirroring.validate = .ok () ∧ mirroring.requirements = .ok mirror.handle.requirements ∧
      (mirror.apply Simulator.host 5 false).2 = .finished (.error .impossible) ∧
      let found := mirror.handle.requirements
      let a := (mirror.apply Simulator.host 5 false).1
      a.host.deeds = [(1, .start "hub")] ∧
        found.running = .empty ∧ a.handle.requirements.running = IdSet.ofList ["hub"] ∧
        found.applied? (.component "hub") = none ∧
        a.handle.requirements.applied? (.component "hub") = some .mandatory ∧
        found.layers = [] ∧ a.handle.requirements.layers.map (fun l => l.layer.name) = ["mirroring"] :=
  ⟨rfl, rfl, rfl, rfl, rfl, rfl, rfl, rfl, rfl, rfl⟩

end Reconciler

end Orchestrator
