import Orchestrator.Proofs.Requirements.Lockstep
import Orchestrator.Proofs.Requirements.Multiplicity
import Orchestrator.Proofs.Scenario.Catalog
/-!
What validation is worth. A scenario is accepted just if all that it refers to exists, and nothing that an accepted
scenario says is lost on the way to the requirements that it sets out from: what is said to run runs, the layers are
active as often as they are listed, and every subject has the severity that the settings and the layers ask for.
-/

namespace Orchestrator

section Sequence

variable {ε α : Type}

theorem forM_eq_ok_iff {f : α → Except ε Unit} {l : List α} : l.forM f = .ok () ↔ ∀ x ∈ l, f x = .ok () := by
  refine ⟨forall_ok_of_forM, fun h => ?_⟩
  induction l with
  | nil => rfl
  | cons x rest ih =>
      have hrest := ih fun y hy => h y (List.mem_cons_of_mem x hy)
      have hstep : (x :: rest).forM f = (f x >>= fun _ => rest.forM f) := rfl
      rw [hstep, h x List.mem_cons_self]
      exact hrest

theorem Except.andThen_eq_ok_iff {x y : Except ε Unit} : (x >>= fun _ => y) = .ok () ↔ x = .ok () ∧ y = .ok () := by
  constructor
  · intro h
    obtain ⟨_, hx, hy⟩ := Except.exists_ok_of_bind h
    exact ⟨hx, hy⟩
  · rintro ⟨rfl, hy⟩
    exact hy

end Sequence

theorem IdMap.keys_eq {α β : Type} {m : IdMap α} {n : IdMap β} (h : ∀ id, m.contains id = n.contains id) :
    m.keys = n.keys := by
  have hset : (⟨m.keys, List.pairwise_map.mpr m.ascending⟩ : IdSet) = ⟨n.keys, List.pairwise_map.mpr n.ascending⟩ := by
    refine IdSet.ext fun id => ?_
    rw [IdSet.mem_def, IdSet.mem_def, mem_keys, mem_keys, h]
  exact congrArg IdSet.toList hset

namespace Requirements

variable {r : Requirements} {k l : Layer} {added : List Layer}

/-! ## The stack of layers -/

/-- The distinct layers of a list in the order in which each occurs first, with the number of its occurrences. -/
def stackOf (added : List Layer) : List Activation := added.eraseDups.map fun l => ⟨l, added.count l⟩

theorem any_stackOf : (stackOf added).any (fun a => a.layer == l) = true ↔ l ∈ added := by
  simp [stackOf, List.mem_eraseDups]

theorem laid_stackOf (added : List Layer) (l : Layer) : laid (stackOf added) l 1 = stackOf (added ++ [l]) := by
  by_cases hl : l ∈ added
  · have hnone : [l].removeAll added = [] := by simp [List.removeAll, hl]
    rw [laid_of_active (any_stackOf.mpr hl), recount, stackOf, stackOf, List.map_map, List.eraseDups_append, hnone,
      List.eraseDups_nil, List.append_nil]
    refine List.map_congr_left fun k _ => ?_
    by_cases hk : k = l
    · simp [hk, List.count_append]
    · simp [hk, List.count_append, eq_comm (a := l)]
  · have hone : [l].removeAll added = [l] := by simp [List.removeAll, hl]
    have hinactive := Bool.eq_false_iff.mpr (mt any_stackOf.mp hl)
    rw [laid_of_inactive hinactive, stackOf, stackOf, List.eraseDups_append, hone, List.map_append]
    congr 1
    · refine List.map_congr_left fun k hk => ?_
      have hne : ¬ l = k := fun heq => hl (heq ▸ List.mem_eraseDups.mp hk)
      simp [List.count_append, hne]
    · simp [List.eraseDups_cons, List.count_append, List.count_eq_zero_of_not_mem hl]

theorem layers_addEach (layers : List Layer) (h : r.layers = stackOf added) :
    (layers.foldl (fun r l => (r.addLayer l true).1) r).layers = stackOf (added ++ layers) := by
  induction layers generalizing r added with
  | nil =>
      rw [List.append_nil]
      exact h
  | cons l rest ih =>
      have hstep : (r.addLayer l true).1.layers = stackOf (added ++ [l]) := by
        rw [layers_addLayer, h, laid_stackOf]
      rw [List.foldl_cons, ih hstep, List.append_assoc, List.singleton_append]

/-! ## Who is dirty -/

theorem Tracks.subjects_eq (h : r.Tracks) : r.standings.subjects = r.catalog.subjects := by
  have hcomponents : r.standings.components.keys = r.catalog.components.keys :=
    IdMap.keys_eq fun id => h (.component id)
  have hservices : r.standings.services.keys = r.catalog.services.keys := IdMap.keys_eq fun id => h (.service id)
  rw [Table.subjects, hcomponents, hservices, Catalog.subjects]

/-- Before anything was dealt with, all that exists is dirty. -/
theorem dirtyCount_of_untouched (hcounted : r.Counted) (htracks : r.Tracks)
    (h : ∀ s standing, r.standings.get? s = some standing → standing.applied = none) :
    r.dirtyCount = r.catalog.subjects.length := by
  have hall : ∀ e ∈ r.standings.entries, e.2.isDirty = true := by
    intro e he
    rw [Standing.isDirty, h e.1 e.2 (Table.mem_entries.mp he)]
    rfl
  have hcount : r.dirtyCount = r.standings.entries.countP (fun e => e.2.isDirty) := congrArg Tally.count hcounted
  rw [hcount, List.countP_eq_length.mpr hall, ← htracks.subjects_eq, ← Table.map_fst_entries, List.length_map]

/-- The strongest of a baseline and of what is demanded is the one of the highest rank. -/
theorem IsStrongest.max?_rank {s : Subject} {b final : Severity} (h : r.IsStrongest s b final) {layers : List Layer}
    (hlayers : ∀ l, r.hasLayer l = true ↔ l ∈ layers) :
    ((b :: layers.filterMap (fun l => l.severity? s)).map Severity.rank).max? = some final.rank := by
  refine List.max?_eq_some_iff.mpr ⟨List.mem_map_of_mem ?_, ?_⟩
  · rcases h.attained with rfl | ⟨l, hl, hdemand⟩
    · exact List.mem_cons_self
    · exact List.mem_cons_of_mem b (List.mem_filterMap.mpr ⟨l, (hlayers l).mp hl, hdemand⟩)
  · intro rank hrank
    obtain ⟨demand, hmem, rfl⟩ := List.mem_map.mp hrank
    rcases List.mem_cons.mp hmem with rfl | hdemanded
    · exact h.baseline_le
    · obtain ⟨l, hl, hdemand⟩ := List.mem_filterMap.mp hdemanded
      exact h.demand_le l demand ((hlayers l).mpr hl) hdemand

end Requirements

namespace Scenario

variable {s : Scenario} {c : Catalog} {k : Subject}

/-! ## Which scenarios are accepted -/

/-- The subject is a declared component, or a service that is declared or referred to. -/
def Knows (s : Scenario) : Subject → Prop
  | .component id => id ∈ s.components.map Component.id
  | .service id => id ∈ s.services.map Service.id ∨ s.RefersTo id

/-- All layers of which a scenario speaks: those that are active from the start, and those of triggers. -/
def allLayers (s : Scenario) : List Layer := s.layers ++ s.triggers.map Trigger.layer

/-- Nothing is declared twice, and every reference leads to something. -/
structure Resolves (s : Scenario) : Prop where
  services : (s.services.map Service.id).Nodup
  components : (s.components.map Component.id).Nodup
  running : ∀ id ∈ s.running, id ∈ s.components.map Component.id
  triggers : ∀ t ∈ s.triggers, t.component ∈ s.components.map Component.id
  named : ∀ l ∈ s.allLayers, Text.trim l.name ≠ ""
  mentioned : ∀ l ∈ s.allLayers, ∀ subject ∈ l.subjects, s.Knows subject

theorem contains_iff_knows (h : s.catalog = .ok c) : c.contains k = true ↔ s.Knows k := by
  cases k with
  | component id => exact contains_component h
  | service id => exact contains_service h

theorem ensure_eq_ok_iff {test : Bool} {fault : ScenarioFault} : ensure test fault = .ok () ↔ test = true := by
  unfold ensure
  cases test with
  | false => exact ⟨nofun, nofun⟩
  | true => exact ⟨fun _ => rfl, fun _ => rfl⟩

theorem checkLayer_eq_ok_iff {l : Layer} :
    checkLayer c l = .ok () ↔ Text.trim l.name ≠ "" ∧ ∀ subject ∈ l.subjects, c.contains subject = true := by
  unfold checkLayer
  split
  next hblank =>
    refine ⟨nofun, ?_⟩
    rintro ⟨hname, -⟩
    exact (hname (String.isEmpty_iff.mp hblank)).elim
  next hnamed =>
    have hname : Text.trim l.name ≠ "" := fun heq => hnamed (String.isEmpty_iff.mpr heq)
    split
    next subject hstray =>
      refine ⟨nofun, ?_⟩
      rintro ⟨-, hall⟩
      have hunknown := List.find?_some hstray
      rw [hall subject (List.mem_of_find?_eq_some hstray)] at hunknown
      cases hunknown
    next hnone =>
      refine ⟨fun _ => ⟨hname, fun subject hsubject => ?_⟩, fun _ => rfl⟩
      simpa using List.find?_eq_none.mp hnone subject hsubject

theorem checks_eq_ok_iff (h : s.catalog = .ok c) : s.checks c = .ok () ↔ s.Resolves := by
  have hdeclared := nodup_of_catalog h
  rw [checks, Except.andThen_eq_ok_iff, Except.andThen_eq_ok_iff, forM_eq_ok_iff, forM_eq_ok_iff, forM_eq_ok_iff]
  simp only [ensure_eq_ok_iff, checkLayer_eq_ok_iff, contains_component h, contains_iff_knows h]
  constructor
  · rintro ⟨hrunning, htriggers, hlayers⟩
    exact ⟨hdeclared.1, hdeclared.2, hrunning, htriggers, fun l hl => (hlayers l hl).1, fun l hl => (hlayers l hl).2⟩
  · intro hresolves
    exact ⟨hresolves.running, hresolves.triggers, fun l hl => ⟨hresolves.named l hl, hresolves.mentioned l hl⟩⟩

theorem validate_ok_iff : s.validate = .ok () ↔ s.Resolves := by
  constructor
  · intro h
    obtain ⟨c, hc, -⟩ := accepted_of_validate h
    rw [validate_eq hc] at h
    exact (checks_eq_ok_iff hc).mp h
  · intro hresolves
    obtain ⟨c, hc⟩ := catalog_ok_iff.mpr ⟨hresolves.services, hresolves.components⟩
    rw [validate_eq hc]
    exact (checks_eq_ok_iff hc).mpr hresolves

/-! ## What becomes of an accepted scenario -/

/-- Discovery found fault with a subject that the scenario declares. -/
def Flags (s : Scenario) : Subject → Prop
  | .component id => ∃ x ∈ s.components, x.id = id ∧ x.error.isSome = true
  | .service id => ∃ x ∈ s.services, x.id = id ∧ x.error.isSome = true

/-- What is asked of a subject: what the settings say, and what each layer demands. -/
def demands (s : Scenario) (k : Subject) : List Severity :=
  s.settings.baseline k :: s.layers.filterMap (fun l => l.severity? k)

/-- The requirements are over the catalog and have all that the scenario says. -/
structure Retains (s : Scenario) (c : Catalog) (r : Requirements) : Prop where
  catalog : r.catalog = c
  running : r.running = IdSet.ofList s.running
  layers : r.layers = s.layers.eraseDups.map fun l => ⟨l, s.layers.count l⟩
  tracked : ∀ k, r.standings.contains k = c.contains k
  excluded : ∀ k ∈ c.subjects, s.disabled = true ∨ s.Flags k → r.final? k = some .excluded
  strongest : ∀ k ∈ c.subjects, ¬ (s.disabled = true ∨ s.Flags k) →
    ∃ final, r.final? k = some final ∧ ((s.demands k).map Severity.rank).max? = some final.rank
  dirtyCount : r.dirtyCount = c.subjects.length

/-- A service of which only the name is known has no fault that discovery could find. -/
theorem flags_iff (h : s.catalog = .ok c) : c.Flags k ↔ s.Flags k := by
  constructor
  · intro hflags
    cases hflags with
    | component hget herror =>
        obtain ⟨hx, hid⟩ := (component?_eq_some_iff h).mp hget
        exact ⟨_, hx, hid, herror⟩
    | service hget herror =>
        rcases (service?_eq_some_iff h).mp hget with ⟨hx, hid⟩ | ⟨rfl, -⟩
        · exact ⟨_, hx, hid, herror⟩
        · cases herror
  · intro hflags
    cases k with
    | component id =>
        obtain ⟨x, hx, hid, herror⟩ := hflags
        exact .component ((component?_eq_some_iff h).mpr ⟨hx, hid⟩) herror
    | service id =>
        obtain ⟨x, hx, hid, herror⟩ := hflags
        exact .service ((service?_eq_some_iff h).mpr (.inl ⟨hx, hid⟩)) herror

theorem layers_posed : (s.posed c).layers = Requirements.stackOf s.layers := by
  have hnone : (s.bare c).layers = Requirements.stackOf [] := layers_bare
  exact layers_posed_eq_layered.trans (Requirements.layers_addEach s.layers hnone)

theorem sameGround_posed : (s.bare c).SameGround (s.posed c) := by
  refine posed_preserves (I := (s.bare c).SameGround) ?_ ?_
  · refine List.foldlRecOn s.layers _ (Requirements.SameGround.refl _) ?_
    intro r hr l _
    have hstacks : (Operation.addLayer l true).StacksLayers := trivial
    exact hr.trans (Requirements.sameGround_stack hstacks)
  · intro id r hr
    obtain ⟨running, hcontext⟩ := Requirements.context_markRunning (r := r) id true
    exact hr.trans (Requirements.sameGround_of_context r.layers running
      (fun _ => (Requirements.adjusts_markRunning id true).recorded?_eq) hcontext)

theorem disabled_posed : (s.posed c).disabled = s.disabled :=
  sameGround_posed.disabled.trans
    (Requirements.eq_of_context (f := Requirements.disabled) (fun _ => rfl)
      (Requirements.context_setDisabled s.disabled))

theorem quarantined_posed : (s.posed c).quarantined = .empty :=
  sameGround_posed.quarantined.trans
    ((Requirements.quarantined_eq_of_context (Requirements.context_setDisabled s.disabled)).trans
      (Requirements.quarantined_eq_of_context Requirements.context_trackAll))

theorem recorded?_posed (hk : c.contains k = true) : (s.posed c).recorded? k = some (s.settings.baseline k) := by
  have hbaseline : (Requirements.initial c .empty (.custom s.settings.baseline)).baseline k = s.settings.baseline k :=
    Requirements.baseline_eq_of_context Requirements.context_trackAll k
  rw [sameGround_posed.recorded, bare, (Requirements.adjusts_setDisabled s.disabled).recorded?_eq,
    Requirements.recorded?_initial, if_pos hk, hbaseline]

theorem untouched_posed {standing : Standing} (h : (s.posed c).standings.get? k = some standing) :
    standing.applied = none := by
  let start := Requirements.initial c .empty (.custom s.settings.baseline)
  have hlayered : start.SameDealings (s.layered c) := by
    have hfooting : start.SameFooting (s.layered c) :=
      layered_preserves ⟨rfl, rfl, fun _ => rfl⟩ fun _ _ hleaves hr =>
        hr.trans (Requirements.sameFooting_perform hleaves)
    exact hfooting.dealings
  have hposed : start.SameDealings (s.posed c) :=
    posed_preserves hlayered fun id _ hr => hr.trans (Requirements.adjusts_markRunning id true).applied_eq
  have happlied := hposed k
  rw [h, Option.map_some] at happlied
  obtain ⟨first, hfirst, hsame⟩ := Option.map_eq_some_iff.mp happlied.symm
  rw [← hsame]
  exact Requirements.untouched_initial _ _ hfirst

theorem veto_posed (h : s.catalog = .ok c) : (s.posed c).Veto k ↔ s.disabled = true ∨ s.Flags k := by
  rw [← flags_iff h]
  constructor
  · intro hveto
    cases hveto with
    | disabled hdisabled => exact .inl (disabled_posed.symm.trans hdisabled)
    | quarantined hquarantined =>
        rw [quarantined_posed] at hquarantined
        cases hquarantined
    | flagged hflags => exact .inr (posed_catalog (s := s) (c := c) ▸ hflags)
  · rintro (hdisabled | hflags)
    · exact .disabled (disabled_posed.trans hdisabled)
    · exact .flagged (posed_catalog (s := s).symm ▸ hflags)

theorem final?_posed (h : s.catalog = .ok c) (hk : c.contains k = true) :
    (s.posed c).final? k = some ((s.posed c).resultingSeverity k (s.settings.baseline k)) := by
  rw [(posed_reached h).upToDate.final?_eq, recorded?_posed hk, Option.map_some]

theorem retains_posed (hvalid : s.validate = .ok ()) (h : s.catalog = .ok c) : s.Retains c (s.posed c) := by
  have hreached := posed_reached h
  have hcatalog : (s.posed c).catalog = c := posed_catalog
  have hvetoed : ∀ k, c.contains k = true →
      ((s.posed c).isVetoed k = true ↔ s.disabled = true ∨ s.Flags k) := by
    intro k hk
    rw [Requirements.isVetoed_iff (hcatalog.symm ▸ hk), veto_posed h]
  refine ⟨hcatalog, (footing_of_validate hvalid h (requirements_of_catalog h)).2, layers_posed, ?_, ?_, ?_, ?_⟩
  · intro k
    rw [hreached.tracks, hcatalog]
  · intro k hk hveto
    have hknown := Catalog.mem_subjects.mp hk
    rw [final?_posed h hknown, Requirements.resultingSeverity_of_vetoed ((hvetoed k hknown).mpr hveto)]
  · intro k hk hfree
    have hknown := Catalog.mem_subjects.mp hk
    have hunvetoed : (s.posed c).isVetoed k = false := Bool.eq_false_iff.mpr (mt (hvetoed k hknown).mp hfree)
    refine ⟨_, final?_posed h hknown, ?_⟩
    refine (Requirements.resultingSeverity_isStrongest hunvetoed).max?_rank fun l => ?_
    rw [Requirements.hasLayer, layers_posed, Requirements.any_stackOf]
  · rw [Requirements.dirtyCount_of_untouched hreached.counted hreached.tracks fun _ _ => untouched_posed, hcatalog]

/-- A scenario is accepted just if it declares nothing twice and all its references lead to something. Whoever accepts
it gets requirements over its catalog that have lost nothing of what it says: exactly what it says to run runs, each of
its layers is active as often as it is listed and in the order of first mention, and each subject of the catalog, and no
other, has the severity that follows from the settings and the layers, unless a veto decides. All of them are dirty. -/
theorem validation_exact (s : Scenario) :
    (s.validate = .ok () ↔ s.Resolves) ∧
      (s.validate = .ok () → ∃ c r, s.catalog = .ok c ∧ s.requirements = .ok r ∧ s.Retains c r) := by
  refine ⟨validate_ok_iff, ?_⟩
  intro hvalid
  obtain ⟨c, hc, -⟩ := accepted_of_validate hvalid
  exact ⟨c, s.posed c, hc, requirements_of_catalog hc, retains_posed hvalid hc⟩

/-- The night wants the telescope more than a clear sky does, and the user's setting hides that of the system. -/
theorem validation_exact_observatory :
    observatory.validate = .ok () ∧ ∃ r, observatory.requirements = .ok r ∧
      r.running = IdSet.ofList ["dome"] ∧ r.layers = [⟨nightLayer, 2⟩, ⟨clearLayer, 1⟩] ∧
      r.final? (.component "telescope") = some .eagerPassive ∧ r.final? (.component "camera") = some .excluded ∧
      r.dirtyCount = 6 := by
  have hvalid : observatory.validate = .ok () := rfl
  obtain ⟨c, r, hc, hr, hretains⟩ := (validation_exact observatory).2 hvalid
  have hknown : ∀ id ∈ observatory.components.map Component.id, Subject.component id ∈ c.subjects :=
    fun id hid => Catalog.mem_subjects.mpr ((contains_iff_knows hc).mpr hid)
  have hunflagged : ¬ (observatory.disabled = true ∨ observatory.Flags (.component "telescope")) := by
    rintro (hdisabled | ⟨x, hx, hid, herror⟩)
    · cases hdisabled
    · have hnone : ∀ x ∈ observatory.components, x.id = "telescope" → x.error.isSome = false := by decide
      exact Bool.false_ne_true ((hnone x hx hid).symm.trans herror)
  refine ⟨hvalid, r, hr, hretains.running, hretains.layers, ?_, ?_, ?_⟩
  · obtain ⟨final, hfinal, hmax⟩ := hretains.strongest _ (hknown "telescope" (by decide)) hunflagged
    have hrank : final.rank = Severity.eagerPassive.rank := (Option.some.inj hmax).symm
    rw [hfinal, Severity.rank_injective hrank]
  · refine hretains.excluded _ (hknown "camera" (by decide)) (.inr ?_)
    exact ⟨⟨"camera", "1", none, [], some "no film"⟩, by decide, rfl, rfl⟩
  · rw [hretains.dirtyCount]
    cases hc
    rfl

end Scenario

end Orchestrator
