import Orchestrator.Proofs.Simulator
/-!
The orders of a simulator: which operations it asks for in a pass, in order. They are settled by the steps and by what
runs when the pass begins, since in the course of it nobody else reports what runs.
-/

namespace Orchestrator

namespace Program

variable {α β : Type}

theorem runOn_andThen (p : Program α) (f : α → Program β) (r : Requirements) :
    (p.andThen f).runOn r = (f (p.runOn r).2).runOn (p.runOn r).1 := by
  induction p generalizing r with
  | done result => rfl
  | perform operation next ih => exact ih _ _
  | look next ih => exact ih _ _

theorem runOn_performAll (operations : List Operation) (r : Requirements) :
    (performAll operations).runOn r = (r.performAll operations, ()) := by
  induction operations generalizing r with
  | nil => rfl
  | cons operation rest ih => exact ih _

end Program

namespace Simulator

/-- Those that are started before one refuses. -/
def launched (s : Simulator) (ids : List String) : List String := ids.takeWhile (fun id => !s.refusing.contains id)

/-- The first one that refuses to start. -/
def refused? (s : Simulator) (ids : List String) : Option String := ids.find? s.refusing.contains

def verdictOn (s : Simulator) (ids : List String) : Verdict :=
  match s.refused? ids with
  | none => .done
  | some id => .failed ⟨id, refusal⟩

/-- The operations that belong to starting, where some were started before. -/
def startOrders (s : Simulator) (started pending : List String) : List Operation :=
  (s.launched pending).flatMap s.setUp ++
    if (s.refused? pending).isSome then (started ++ s.launched pending).flatMap s.tearDown else []

/-- The operations of a pass that finds certain components running. -/
def orders (s : Simulator) (running : IdSet) (steps : Steps) : List Operation :=
  (steps.exclude.toList.filter running.contains).flatMap s.tearDown ++ steps.stop.toList.flatMap s.tearDown ++
    s.startOrders [] steps.start.toList

variable {s s' : Simulator} {P : Operation → Prop}

theorem verdictOn_congr (h : s'.refusing = s.refusing) (ids : List String) : s'.verdictOn ids = s.verdictOn ids := by
  rw [verdictOn, refused?, h, verdictOn, refused?]

/-- What was done before makes no difference. -/
theorem orders_congr (htriggers : s'.triggers = s.triggers) (hrefusing : s'.refusing = s.refusing) (running : IdSet)
    (steps : Steps) : s'.orders running steps = s.orders running steps := by
  obtain ⟨triggers, refusing, deeds⟩ := s
  obtain ⟨triggers', refusing', deeds'⟩ := s'
  obtain rfl : triggers' = triggers := htriggers
  obtain rfl : refusing' = refusing := hrefusing
  rfl

theorem LayersAllowed.flatMap_tearDown (h : LayersAllowed P) (s : Simulator) (ids : List String) :
    ∀ operation ∈ ids.flatMap s.tearDown, P operation := by
  intro operation hoperation
  obtain ⟨id, -, hid⟩ := List.mem_flatMap.mp hoperation
  exact h.tearDown s id operation hid

theorem excludeAll_runOn (pass : Nat) (ids : List String) (s : Simulator) (r : Requirements) :
    (excludeAll pass ids s).runOn r =
      (r.performAll ((ids.filter r.running.contains).flatMap s.tearDown),
        { s with deeds := s.deeds ++ ids.map (fun id => (pass, .exclude id)) }) := by
  induction ids generalizing s r with
  | nil =>
      rw [List.map_nil, List.append_nil]
      rfl
  | cons id rest ih =>
      let torn := ([id].filter r.running.contains).flatMap s.tearDown
      have htorn : (if r.running.contains id then s.tearDown id else []) = torn := by
        by_cases hruns : r.running.contains id = true
        · simp [torn, hruns]
        · simp [torn, hruns]
      have hleaves : ∀ operation ∈ torn, operation.LeavesRunning :=
        LayersAllowed.flatMap_tearDown ⟨fun _ => trivial, fun _ => trivial⟩ s _
      have hstep : (excludeAll pass (id :: rest) s).runOn r =
          (excludeAll pass rest (s.record pass (.exclude id))).runOn (r.performAll torn) := by
        rw [excludeAll, ← htorn]
        refine (Program.runOn_andThen _ _ r).trans ?_
        rw [Program.runOn_performAll]
        rfl
      -- Since what runs stays the same, the rest of the list is sifted as before.
      rw [hstep, ih, Requirements.running_performAll hleaves, ← Requirements.performAll_append,
        ← List.singleton_append, List.filter_append, List.flatMap_append, List.map_append, ← List.append_assoc]
      rfl

theorem stopAll_runOn (pass : Nat) (ids : List String) (s : Simulator) (r : Requirements) :
    (stopAll pass ids s).runOn r =
      (r.performAll (ids.flatMap s.tearDown),
        { s with deeds := s.deeds ++ ids.map (fun id => (pass, .stop id)) }) := by
  induction ids generalizing s r with
  | nil =>
      rw [List.map_nil, List.append_nil]
      rfl
  | cons id rest ih =>
      rw [stopAll, Program.runOn_andThen, Program.runOn_performAll, ih, ← Requirements.performAll_append, record,
        List.flatMap_cons, List.map_cons]
      simp only [List.append_assoc, List.singleton_append]
      rfl

theorem startAll_runOn (pass : Nat) (pending started : List String) (s : Simulator) (r : Requirements) :
    (startAll pass pending started s).runOn r =
      (r.performAll (s.startOrders started pending),
        { s with deeds := s.deeds ++ (s.launched pending).map (fun id => (pass, .start id)) },
        s.verdictOn pending) := by
  induction pending generalizing started s r with
  | nil =>
      rw [launched, List.takeWhile_nil, List.map_nil, List.append_nil]
      rfl
  | cons id rest ih =>
      by_cases hrefuses : s.refusing.contains id = true
      · have hnone : s.launched (id :: rest) = [] := List.takeWhile_cons_of_neg (by rw [hrefuses]; decide)
        have hrefused : s.refused? (id :: rest) = some id := List.find?_cons_of_pos hrefuses
        rw [startAll, if_pos hrefuses, Program.runOn_andThen, Program.runOn_performAll, startOrders, verdictOn, hnone,
          hrefused, List.map_nil, List.append_nil, List.append_nil]
        rfl
      · have hlaunched : s.launched (id :: rest) = id :: s.launched rest :=
          List.takeWhile_cons_of_pos (by rw [eq_false_of_ne_true hrefuses]; rfl)
        have hrefused : s.refused? (id :: rest) = s.refused? rest := List.find?_cons_of_neg hrefuses
        rw [startAll, if_neg hrefuses, Program.runOn_andThen, Program.runOn_performAll, ih,
          ← Requirements.performAll_append, record, startOrders, startOrders, verdictOn, verdictOn, hrefused, hlaunched]
        simp only [List.flatMap_cons, List.map_cons, List.append_assoc, List.cons_append]
        rfl

theorem LayersAllowed.startOrders (h : LayersAllowed P) (s : Simulator) (started pending : List String) :
    ∀ operation ∈ s.startOrders started pending, P operation := by
  intro operation hoperation
  rcases List.mem_append.mp hoperation with hset | htorn
  · obtain ⟨id, -, hid⟩ := List.mem_flatMap.mp hset
    exact h.setUp s id operation hid
  · split at htorn
    · exact h.flatMap_tearDown s _ operation htorn
    · cases htorn

theorem LayersAllowed.orders (h : LayersAllowed P) (s : Simulator) (running : IdSet) (steps : Steps) :
    ∀ operation ∈ s.orders running steps, P operation := by
  intro operation hoperation
  rcases List.mem_append.mp hoperation with htorn | hstarts
  · rcases List.mem_append.mp htorn with hexcluded | hstopped
    · exact h.flatMap_tearDown s _ operation hexcluded
    · exact h.flatMap_tearDown s _ operation hstopped
  · exact h.startOrders s _ _ operation hstarts

/-- What a simulator makes of the steps of a pass. -/
theorem host_runOn (pass : Nat) (steps : Steps) (s : Simulator) (r : Requirements) :
    (host pass steps s).runOn r =
      (r.performAll (s.orders r.running steps),
        { s with
          deeds :=
            s.deeds ++ deedsOf pass steps.exclude.toList steps.stop.toList (s.launched steps.start.toList) },
        s.verdictOn steps.start.toList) := by
  rw [host, Program.runOn_andThen, excludeAll_runOn, Program.runOn_andThen, stopAll_runOn, startAll_runOn,
    ← Requirements.performAll_append, ← Requirements.performAll_append]
  simp only [orders, deedsOf, List.append_assoc]
  rfl

end Simulator

end Orchestrator
