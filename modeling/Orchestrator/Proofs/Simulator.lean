import Orchestrator.Proofs.Reconcile.Dialogue
import Orchestrator.Proofs.Requirements.Reach
import Orchestrator.Simulator
/-!
The simulator, seen from the requirements: all that it asks for is to add and to take away layers, and it does so only
along with a deed that it writes down.
-/

namespace Orchestrator

namespace Simulator

variable {P : Operation → Prop}

/-- The operations on layers that a simulator asks for have a property. -/
structure LayersAllowed (P : Operation → Prop) : Prop where
  add : ∀ layer, P (.addLayer layer true)
  remove : ∀ layer, P (.removeLayer layer false)

theorem LayersAllowed.setUp (h : LayersAllowed P) (s : Simulator) (id : String) :
    ∀ operation ∈ s.setUp id, P operation := by
  intro operation hoperation
  obtain ⟨layer, -, rfl⟩ := List.mem_map.mp hoperation
  exact h.add layer

theorem LayersAllowed.tearDown (h : LayersAllowed P) (s : Simulator) (id : String) :
    ∀ operation ∈ s.tearDown id, P operation := by
  intro operation hoperation
  obtain ⟨layer, -, rfl⟩ := List.mem_map.mp hoperation
  exact h.remove layer

theorem LayersAllowed.excludeAll (h : LayersAllowed P) (pass : Nat) (ids : List String) (s : Simulator) :
    (Simulator.excludeAll pass ids s).AsksOnly P := by
  induction ids generalizing s with
  | nil => trivial
  | cons id rest ih =>
      intro r
      refine Program.AsksOnly.andThen (Program.asksOnly_performAll ?_) (fun _ => ih _)
      split
      · exact h.tearDown s id
      · exact fun _ hoperation => absurd hoperation List.not_mem_nil

theorem LayersAllowed.stopAll (h : LayersAllowed P) (pass : Nat) (ids : List String) (s : Simulator) :
    (Simulator.stopAll pass ids s).AsksOnly P := by
  induction ids generalizing s with
  | nil => trivial
  | cons id rest ih => exact (Program.asksOnly_performAll (h.tearDown s id)).andThen (fun _ => ih _)

theorem LayersAllowed.startAll (h : LayersAllowed P) (pass : Nat) (pending started : List String) (s : Simulator) :
    (Simulator.startAll pass pending started s).AsksOnly P := by
  induction pending generalizing started s with
  | nil => trivial
  | cons id rest ih =>
      unfold Simulator.startAll
      split
      · refine Program.AsksOnly.andThen (Program.asksOnly_performAll ?_) (fun _ => trivial)
        intro operation hoperation
        obtain ⟨other, -, hother⟩ := List.mem_flatMap.mp hoperation
        exact h.tearDown s other operation hother
      · exact (Program.asksOnly_performAll (h.setUp s id)).andThen (fun _ => ih _ _)

theorem LayersAllowed.host (h : LayersAllowed P) (pass : Nat) (steps : Steps) (s : Simulator) :
    (Simulator.host pass steps s).AsksOnly P :=
  (h.excludeAll pass _ s).andThen fun s => (h.stopAll pass _ s).andThen fun s => h.startAll pass _ [] s

theorem host_installs (P : Catalog → Prop) (pass : Nat) (steps : Steps) (s : Simulator) :
    (Simulator.host pass steps s).AsksOnly (Operation.Installs P) :=
  LayersAllowed.host ⟨fun _ => trivial, fun _ => trivial⟩ pass steps s

theorem host_leavesRunning (pass : Nat) (steps : Steps) (s : Simulator) :
    (Simulator.host pass steps s).AsksOnly Operation.LeavesRunning :=
  LayersAllowed.host ⟨fun _ => trivial, fun _ => trivial⟩ pass steps s

/-! ## Deeds -/

/-- The deeds of a pass that excludes, stops and starts certain components. -/
def deedsOf (pass : Nat) (excluded stopped started : List String) : List (Nat × Deed) :=
  excluded.map (fun id => (pass, .exclude id)) ++ stopped.map (fun id => (pass, .stop id)) ++
    started.map (fun id => (pass, .start id))

theorem excludeAll_ends (pass : Nat) (ids : List String) (s : Simulator) :
    (excludeAll pass ids s).Ends (fun s' => s'.deeds = s.deeds ++ ids.map (fun id => (pass, .exclude id))) := by
  induction ids generalizing s with
  | nil => exact (List.append_nil s.deeds).symm
  | cons id rest ih =>
      intro r
      refine (Program.ends_true _).andThen fun _ _ => ?_
      have hrest := ih (s.record pass (.exclude id))
      simpa only [record, List.map_cons, List.append_assoc, List.singleton_append] using hrest

theorem stopAll_ends (pass : Nat) (ids : List String) (s : Simulator) :
    (stopAll pass ids s).Ends (fun s' => s'.deeds = s.deeds ++ ids.map (fun id => (pass, .stop id))) := by
  induction ids generalizing s with
  | nil => exact (List.append_nil s.deeds).symm
  | cons id rest ih =>
      refine (Program.ends_true _).andThen fun _ _ => ?_
      have hrest := ih (s.record pass (.stop id))
      simpa only [record, List.map_cons, List.append_assoc, List.singleton_append] using hrest

/-- What is started comes first among what was to be started, and it is all of that unless one refuses. -/
theorem startAll_ends (pass : Nat) (pending started : List String) (s : Simulator) :
    (startAll pass pending started s).Ends (fun out => ∃ reached, reached <+: pending ∧
      out.1.deeds = s.deeds ++ reached.map (fun id => (pass, .start id)) ∧ (out.2 = .done → reached = pending)) := by
  induction pending generalizing started s with
  | nil => exact ⟨[], List.prefix_rfl, (List.append_nil s.deeds).symm, fun _ => rfl⟩
  | cons id rest ih =>
      unfold startAll
      split
      · refine (Program.ends_true _).andThen fun _ _ => ?_
        exact ⟨[], List.nil_prefix, (List.append_nil s.deeds).symm, nofun⟩
      · refine (Program.ends_true _).andThen fun _ _ => ?_
        refine Program.Ends.mono ?_ (ih (started ++ [id]) (s.record pass (.start id)))
        rintro out ⟨reached, hreached, hdeeds, hdone⟩
        refine ⟨id :: reached, (List.cons_prefix_cons).mpr ⟨rfl, hreached⟩, ?_, fun h => by rw [hdone h]⟩
        rw [hdeeds, record, List.map_cons, List.append_assoc, List.singleton_append]

theorem host_ends (pass : Nat) (steps : Steps) (s : Simulator) :
    (host pass steps s).Ends (fun out => ∃ started, started <+: steps.start.toList ∧
      out.1.deeds = s.deeds ++ deedsOf pass steps.exclude.toList steps.stop.toList started ∧
      (out.2 = .done → started = steps.start.toList)) := by
  refine (excludeAll_ends pass _ s).andThen fun s' hexcluded => ?_
  refine (stopAll_ends pass _ s').andThen fun s'' hstopped => ?_
  refine Program.Ends.mono ?_ (startAll_ends pass _ [] s'')
  rintro out ⟨started, hstarted, hdeeds, hdone⟩
  refine ⟨started, hstarted, ?_, hdone⟩
  rw [hdeeds, hstopped, hexcluded, deedsOf, List.append_assoc, List.append_assoc, List.append_assoc]

/-- A simulator fails if somebody refuses to start, and never gives up otherwise. -/
theorem startAll_persists (pass : Nat) (pending started : List String) (s : Simulator) :
    (startAll pass pending started s).Ends (fun out => out.2 ≠ .abandoned) := by
  induction pending generalizing started s with
  | nil => exact nofun
  | cons id rest ih =>
      unfold startAll
      split
      · exact (Program.ends_true _).andThen fun _ _ => nofun
      · exact (Program.ends_true _).andThen fun _ _ => ih _ _

theorem host_persists (pass : Nat) (steps : Steps) (s : Simulator) :
    (host pass steps s).Ends (fun out => out.2 ≠ .abandoned) :=
  (Program.ends_true _).andThen fun _ _ => (Program.ends_true _).andThen fun _ _ => startAll_persists pass _ [] _

/-! ## A lamp and a radio -/

def parlour : Catalog :=
  (Catalog.empty.insertComponent ⟨"lamp", "1", none, [], none⟩).insertComponent ⟨"radio", "1", none, [], none⟩

theorem parlour_keyed : parlour.Keyed := (Catalog.keyed_empty.insertComponent _).insertComponent _

/-- The lamp is asked for, and once it is lit the radio is asked for too. -/
def dusk (refusing : List String) : Reconciler Unit Simulator :=
  { handle :=
      { requirements := ((Requirements.initial parlour .empty .store).perform
          (.addLayer ⟨"dusk", Table.empty.insert (.component "lamp") .mandatory⟩ false)).1
        observers := [.listener] }
    host := ofTriggers [⟨"lamp", ⟨"news", Table.empty.insert (.component "radio") .mandatory⟩⟩] refusing
    options := .standard
    inFlight := false }

theorem dusk_reached (refusing : List String) : (dusk refusing).handle.requirements.ReachedOver Catalog.Keyed :=
  Requirements.ReachedOver.perform ⟨parlour, .empty, .store, [], parlour_keyed, nofun, rfl⟩ trivial

theorem dusk_quiet (refusing : List String) : (dusk refusing).handle.Quiet := by
  intro o ho reaction hreaction
  rw [List.mem_singleton.mp ho] at hreaction
  cases hreaction

end Simulator

end Orchestrator
