import Orchestrator.Proofs.Reconcile.Dialogue
import Orchestrator.Proofs.Requirements.Occurrences
import Orchestrator.Proofs.Simulator
import Orchestrator.Scenario
/-!
What scenarios set out from. The catalog is made of the declared components, each filed under its own identifier. The
requirements are put together by operations, so that they can be reached; each layer occurs in them as often as the
scenario lists it, and what runs is what the scenario says, as far as the catalog knows it.
-/

namespace Orchestrator

section Sequence

variable {ε α β : Type}

theorem Except.exists_ok_of_bind {x : Except ε α} {f : α → Except ε β} {b : β} (h : x.bind f = .ok b) :
    ∃ a, x = .ok a ∧ f a = .ok b := by
  cases x with
  | error e => cases h
  | ok a => exact ⟨a, rfl, h⟩

/-- What each step keeps where it succeeds, a sequence of steps keeps where it succeeds. -/
theorem foldlM_preserves {f : β → α → Except ε β} {I : β → Prop} {l : List α} {b b' : β}
    (step : ∀ b x b', x ∈ l → f b x = .ok b' → I b → I b') (h : l.foldlM f b = .ok b') (hb : I b) : I b' := by
  induction l generalizing b with
  | nil =>
      cases h
      exact hb
  | cons x rest ih =>
      obtain ⟨next, hnext, hrest⟩ := Except.exists_ok_of_bind h
      have hlater : ∀ b y b', y ∈ rest → f b y = .ok b' → I b → I b' :=
        fun b y b' hy => step b y b' (List.mem_cons_of_mem x hy)
      exact ih hlater hrest (step b x next List.mem_cons_self hnext hb)

theorem forall_ok_of_forM {f : α → Except ε Unit} {l : List α} (h : l.forM f = .ok ()) : ∀ x ∈ l, f x = .ok () := by
  induction l with
  | nil => exact fun _ hnone => (List.not_mem_nil hnone).elim
  | cons x rest ih =>
      obtain ⟨_, hx, hrest⟩ := Except.exists_ok_of_bind (x := f x) h
      intro y hy
      rcases List.mem_cons.mp hy with rfl | hlater
      · exact hx
      · exact ih hrest y hlater

end Sequence

namespace Scenario

variable {s : Scenario} {c c' : Catalog}

/-! ## The catalog -/

theorem implyServices_preserves {I : Catalog → Prop} (step : ∀ c id, I c → I (implyService c id)) (ids : List String)
    (h : I c) : I (ids.foldl implyService c) :=
  List.foldlRecOn ids implyService h fun c hc id _ => step c id hc

theorem keyed_implyService (c : Catalog) (id : String) (h : c.Keyed) : (implyService c id).Keyed := by
  unfold implyService
  split
  · exact h
  · exact h.insertService _

theorem components_implyServices (c : Catalog) (ids : List String) :
    (ids.foldl implyService c).components = c.components := by
  refine implyServices_preserves (I := fun d => d.components = c.components) ?_ ids rfl
  intro d id hd
  unfold implyService
  split
  · exact hd
  · exact hd

theorem declareService_ok {service : Service} (h : declareService c service = .ok c') :
    c' = c.insertService service := Except.eq_of_ite_error h

theorem declareComponent_ok {component : Component} (h : declareComponent c component = .ok c') :
    c' = (component.mentions.foldl implyService c).insertComponent component := Except.eq_of_ite_error h

theorem catalog_keyed (h : s.catalog = .ok c) : c.Keyed := by
  obtain ⟨served, hserved, hc⟩ := Except.exists_ok_of_bind h
  have hservices : served.Keyed := by
    refine foldlM_preserves ?_ hserved Catalog.keyed_empty
    intro c service c' _ hstep hc
    rw [declareService_ok hstep]
    exact hc.insertService service
  refine foldlM_preserves ?_ hc hservices
  intro c component c' _ hstep hc
  rw [declareComponent_ok hstep]
  exact (implyServices_preserves keyed_implyService _ hc).insertComponent component

/-- All components of the catalog are declared. -/
theorem mem_components_of_catalog (h : s.catalog = .ok c) {id : String} (hid : c.components.contains id = true) :
    id ∈ s.components.map Component.id := by
  obtain ⟨served, hserved, hc⟩ := Except.exists_ok_of_bind h
  have hnone : served.components = IdMap.empty := by
    refine foldlM_preserves (I := fun c => c.components = IdMap.empty) ?_ hserved rfl
    intro c service c' _ hstep hc
    rw [declareService_ok hstep]
    exact hc
  have hall : ∀ id, c.components.contains id = true → id ∈ s.components.map Component.id := by
    refine foldlM_preserves (I := fun c => ∀ id, c.components.contains id = true → id ∈ s.components.map Component.id)
      ?_ hc ?_
    · intro c component c' hmem hstep hc other hother
      rw [declareComponent_ok hstep, Catalog.insertComponent, components_implyServices, IdMap.contains,
        IdMap.get?_insert] at hother
      split at hother
      next heq => exact heq ▸ List.mem_map_of_mem hmem
      next => exact hc other hother
    · intro other hother
      rw [hnone] at hother
      cases hother
  exact hall id hid

/-- What a scenario is checked for, besides its layers. -/
theorem accepted_of_validate (h : s.validate = .ok ()) :
    ∃ c, s.catalog = .ok c ∧ (∀ id ∈ s.running, c.components.contains id = true) ∧
      ∀ t ∈ s.triggers, c.components.contains t.component = true := by
  have hensured : ∀ {test : Bool} {fault : ScenarioFault}, ensure test fault = .ok () → test = true := by
    intro test fault hok
    unfold ensure at hok
    split at hok
    next htest => exact htest
    next => cases hok
  obtain ⟨c, hc, hchecks⟩ := Except.exists_ok_of_bind h
  obtain ⟨_, hrunning, hchecks⟩ := Except.exists_ok_of_bind hchecks
  obtain ⟨_, htriggers, -⟩ := Except.exists_ok_of_bind hchecks
  exact ⟨c, hc, fun id hid => hensured (forall_ok_of_forM hrunning id hid),
    fun t ht => hensured (forall_ok_of_forM htriggers t ht)⟩

/-- What an accepted scenario's components implement is in its catalog. -/
theorem served_of_validate (h : s.validate = .ok ()) (hcatalog : s.catalog = .ok c) : c.Served := by
  obtain ⟨d, hd, hchecks⟩ := Except.exists_ok_of_bind h
  obtain ⟨_, -, hchecks⟩ := Except.exists_ok_of_bind hchecks
  obtain ⟨_, -, hchecks⟩ := Except.exists_ok_of_bind hchecks
  obtain ⟨_, -, hchecks⟩ := Except.exists_ok_of_bind hchecks
  cases hcatalog.symm.trans hd
  refine Catalog.served_of_validate ?_
  split at hchecks
  next hconsistent => exact hconsistent
  next => cases hchecks

/-! ## The requirements -/

/-- The requirements over a catalog, switched off where the scenario says so. -/
def bare (s : Scenario) (c : Catalog) : Requirements :=
  (Requirements.initial c .empty (.custom s.settings.baseline)).setDisabled s.disabled

/-- The requirements before anything is said to run. -/
def layered (s : Scenario) (c : Catalog) : Requirements :=
  s.layers.foldl (fun r l => (r.addLayer l true).1) (s.bare c)

def posed (s : Scenario) (c : Catalog) : Requirements :=
  s.running.foldl (fun r id => r.markRunning id true) (s.layered c)

theorem requirements_of_catalog (h : s.catalog = .ok c) : s.requirements = .ok (s.posed c) := by
  rw [requirements, h]
  rfl

theorem requirements_of_validate (h : s.validate = .ok ()) : ∃ r, s.requirements = .ok r := by
  obtain ⟨c, hc, -⟩ := accepted_of_validate h
  exact ⟨_, requirements_of_catalog hc⟩

theorem catalog_of_requirements {r : Requirements} (h : s.requirements = .ok r) :
    ∃ c, s.catalog = .ok c ∧ r = s.posed c := by
  obtain ⟨c, hc, hr⟩ := Except.exists_ok_of_bind h
  cases hr
  exact ⟨c, hc, rfl⟩

theorem layered_preserves {I : Requirements → Prop} (start : I (.initial c .empty (.custom s.settings.baseline)))
    (step : ∀ operation r, operation.LeavesRunning → I r → I (r.perform operation).1) : I (s.layered c) := by
  have hswitched := step (.setDisabled s.disabled) _ trivial start
  refine List.foldlRecOn s.layers _ hswitched ?_
  intro r hr l _
  exact step (.addLayer l true) r trivial hr

theorem posed_preserves {I : Requirements → Prop} (start : I (s.layered c))
    (step : ∀ id r, I r → I (r.markRunning id true)) : I (s.posed c) :=
  List.foldlRecOn s.running _ start fun r hr id _ => step id r hr

theorem posed_reached (h : s.catalog = .ok c) : (s.posed c).ReachedOver Catalog.Keyed := by
  refine posed_preserves ?_ (fun id r hr => hr.after (e := .asked (.markRunning id true)) trivial)
  refine layered_preserves ⟨c, .empty, .custom s.settings.baseline, [], catalog_keyed h, nofun, rfl⟩ ?_
  intro operation r hleaves hr
  exact hr.perform (hleaves.installs Catalog.Keyed)

/-- What exists and runs before anything is said to run. -/
theorem layered_footing : (s.layered c).catalog = c ∧ (s.layered c).running = .empty := by
  have hfooting : (Requirements.initial c .empty (.custom s.settings.baseline)).SameFooting (s.layered c) :=
    layered_preserves ⟨rfl, rfl, fun _ => rfl⟩ fun _ _ hleaves hr => hr.trans (Requirements.sameFooting_perform hleaves)
  rw [hfooting.catalog, hfooting.running]
  exact ⟨Requirements.catalog_eq_of_context Requirements.context_trackAll,
    Requirements.running_eq_of_context Requirements.context_trackAll⟩

theorem posed_catalog : (s.posed c).catalog = c :=
  posed_preserves (I := fun r => r.catalog = c) layered_footing.1
    fun id _ hr => (Requirements.adjusts_markRunning id true).catalog_eq.trans hr

theorem mem_running_mark (r : Requirements) {id x : String} :
    x ∈ (r.markRunning id true).running ↔ (x = id ∧ r.catalog.components.contains x = true) ∨ x ∈ r.running := by
  rw [Requirements.markRunning, if_pos rfl]
  split
  next hnew =>
    rw [Requirements.running_eq_of_context Requirements.context_touch, IdSet.mem_insert]
    grind
  next hnews =>
    grind [IdSet.contains_iff]

theorem mem_running_markAll (ids : List String) (r : Requirements) {x : String} :
    x ∈ (ids.foldl (fun r id => r.markRunning id true) r).running ↔
      (x ∈ ids ∧ r.catalog.components.contains x = true) ∨ x ∈ r.running := by
  induction ids generalizing r with
  | nil => simp
  | cons id rest ih =>
      rw [List.foldl_cons, ih, (Requirements.adjusts_markRunning id true).catalog_eq, mem_running_mark]
      grind

/-- What is said to run and is known runs, and nothing else. -/
theorem mem_running_posed {id : String} :
    id ∈ (s.posed c).running ↔ id ∈ s.running ∧ c.components.contains id = true := by
  obtain ⟨hcatalog, hrunning⟩ := layered_footing (s := s) (c := c)
  rw [posed, mem_running_markAll, hcatalog, hrunning]
  exact or_iff_left IdSet.not_mem_empty

/-- An accepted scenario sets out with its catalog and with all that it says to run. -/
theorem footing_of_validate {r : Requirements} (hvalid : s.validate = .ok ()) (hcatalog : s.catalog = .ok c)
    (h : s.requirements = .ok r) : r.catalog = c ∧ r.running = IdSet.ofList s.running := by
  obtain ⟨d, hd, rfl⟩ := catalog_of_requirements h
  cases hcatalog.symm.trans hd
  obtain ⟨e, he, hrunning, -⟩ := accepted_of_validate hvalid
  cases hcatalog.symm.trans he
  refine ⟨posed_catalog, IdSet.ext fun id => ?_⟩
  rw [mem_running_posed, IdSet.mem_ofList, and_iff_left_of_imp (hrunning id)]

theorem layers_bare : (s.bare c).layers = [] :=
  (Requirements.layers_eq_of_context (Requirements.context_setDisabled s.disabled)).trans
    (Requirements.layers_eq_of_context Requirements.context_trackAll)

/-- To say what runs leaves the layers alone. -/
theorem layers_posed_eq_layered : (s.posed c).layers = (s.layered c).layers := by
  refine posed_preserves (I := fun r => r.layers = (s.layered c).layers) rfl ?_
  intro id r hr
  have hleaves : (Operation.markRunning id true).LeavesLayers := trivial
  exact (Requirements.layers_perform hleaves).trans hr

/-- Each layer occurs as often as the scenario lists it. -/
theorem occurrences_posed (k : Layer) : (s.posed c).occurrences k = s.layers.count k := by
  have hadded : s.layered c = (s.bare c).performAll (s.layers.map (.addLayer · true)) := by
    rw [Requirements.performAll, List.foldl_map]
    rfl
  rw [Requirements.occurrences_congr layers_posed_eq_layered, hadded, Requirements.occurrences_addAll,
    Requirements.occurrences, layers_bare]
  exact Nat.zero_add _

/-! ## Setting out -/

/-- The reconciler has what a scenario says, its observers only listen, and its host has done nothing yet. -/
structure SetsOut {ρ : Type} (s : Scenario) (r : Reconciler ρ Simulator) : Prop where
  requirements : s.requirements = .ok r.handle.requirements
  quiet : r.handle.Quiet
  host : ∃ refusing, r.host = .ofTriggers s.triggers refusing
  options : r.options = s.options
  inFlight : r.inFlight = false

/-- The reconciler without observers over certain requirements, with a simulator for the scenario. -/
def outset (s : Scenario) (refusing : List String) (r : Requirements) : Reconciler Unit Simulator :=
  { handle := ⟨r, []⟩, host := .ofTriggers s.triggers refusing, options := s.options, inFlight := false }

theorem setsOut_outset {r : Requirements} (h : s.requirements = .ok r) (refusing : List String) :
    s.SetsOut (s.outset refusing r) :=
  ⟨h, nofun, ⟨refusing, rfl⟩, rfl, rfl⟩

namespace SetsOut

variable {ρ : Type} {r : Reconciler ρ Simulator}

theorem reached (h : s.SetsOut r) : r.handle.requirements.ReachedOver Catalog.Keyed := by
  obtain ⟨c, hc, hr⟩ := catalog_of_requirements h.requirements
  rw [hr]
  exact posed_reached hc

theorem occurrences (h : s.SetsOut r) (l : Layer) : r.handle.requirements.occurrences l = s.layers.count l := by
  obtain ⟨c, -, hr⟩ := catalog_of_requirements h.requirements
  rw [hr, occurrences_posed]

theorem mem_components (h : s.SetsOut r) {id : String}
    (hid : r.handle.requirements.catalog.components.contains id = true) : id ∈ s.components.map Component.id := by
  obtain ⟨c, hc, hr⟩ := catalog_of_requirements h.requirements
  rw [hr, posed_catalog] at hid
  exact mem_components_of_catalog hc hid

theorem running (h : s.SetsOut r) (hvalid : s.validate = .ok ()) :
    r.handle.requirements.running = IdSet.ofList s.running := by
  obtain ⟨c, hc, -⟩ := accepted_of_validate hvalid
  exact (footing_of_validate hvalid hc h.requirements).2

theorem triggers (h : s.SetsOut r) : r.host.triggers = s.triggers := by
  obtain ⟨refusing, hhost⟩ := h.host
  rw [hhost]
  rfl

end SetsOut

/-! ## An evening -/

def duskLayer : Layer := ⟨"dusk", Table.empty.insert (.component "lamp") .mandatory⟩

def newsLayer : Layer := ⟨"news", Table.empty.insert (.component "radio") .mandatory⟩

/-- At dusk the lamp is asked for, and once it is lit the radio is asked for too. The radio makes a dusk of its own. -/
def evening : Scenario :=
  { disabled := false
    running := []
    services := []
    components := [⟨"lamp", "1", none, [], none⟩, ⟨"radio", "1", none, [], none⟩]
    settings := .empty
    layers := [duskLayer]
    triggers := [⟨"lamp", newsLayer⟩, ⟨"radio", duskLayer⟩]
    options := .standard }

theorem evening_valid : evening.validate = .ok () := rfl

theorem evening_requirements : evening.requirements = .ok (evening.posed Simulator.parlour) := rfl

/-- The reconciler of the evening, where some refuse to start. -/
def eveningOutset (refusing : List String) : Reconciler Unit Simulator :=
  evening.outset refusing (evening.posed Simulator.parlour)

theorem evening_setsOut (refusing : List String) : evening.SetsOut (eveningOutset refusing) :=
  setsOut_outset evening_requirements refusing

end Scenario

end Orchestrator
