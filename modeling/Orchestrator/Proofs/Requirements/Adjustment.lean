import Orchestrator.Proofs.Requirements.Aggregate
import Orchestrator.Proofs.Requirements.Standings
/-!
Adjustments: what the operations on layers, on the switch, on quarantine and on the running flags have in common. Each
of them does nothing at all, or it changes some of these and works out a list of subjects anew, and for the subjects
outside of the list the same severities result as before.
-/

namespace Orchestrator

namespace Requirements

variable {r q : Requirements} {s : Subject}

/-- The second requirements come from the first by an adjustment. -/
inductive Adjusts (r : Requirements) : Requirements → Prop
  | idle : Adjusts r r
  | recomputes {layers : List Activation} {running : IdSet} {quarantined : IdMap String} {disabled : Bool}
      (concerned : List Subject)
      (others : ∀ s b, r.standings.contains s = true → s ∉ concerned →
        ({ r with layers, running, quarantined, disabled } : Requirements).resultingSeverity s b =
          r.resultingSeverity s b) :
      Adjusts r (({ r with layers, running, quarantined, disabled } : Requirements).recomputeAll concerned).touch

theorem adjusts_addLayer (layer : Layer) (allowDuplicate : Bool) : r.Adjusts (r.addLayer layer allowDuplicate).1 := by
  unfold addLayer
  split
  · split
    · refine .recomputes [] ?_
      intro s b _ _
      exact resultingSeverity_congr rfl (fun _ _ _ => any_recount (· + 1))
    · exact .idle
  · refine .recomputes layer.subjects ?_
    intro s b _ hs
    exact resultingSeverity_congr rfl (fun _ _ hdemand => any_append_new (ne_of_not_mem_subjects hs hdemand))

theorem adjusts_removeLayer (layer : Layer) (all : Bool) : r.Adjusts (r.removeLayer layer all).1 := by
  unfold removeLayer
  split
  · exact .idle
  · split
    · refine .recomputes [] ?_
      intro s b _ _
      exact resultingSeverity_congr rfl (fun _ _ _ => any_recount (· - 1))
    · refine .recomputes layer.subjects ?_
      intro s b _ hs
      exact resultingSeverity_congr rfl (fun _ _ hdemand => any_withoutLayer (ne_of_not_mem_subjects hs hdemand))

/-- The new layer may be active already; then it takes over the occurrences of the old one. -/
theorem adjusts_replaceLayer (old new : Layer) : r.Adjusts (r.replaceLayer old new).1 := by
  unfold replaceLayer
  split
  · exact .idle
  · split
    · exact .idle
    · refine .recomputes (unionSubjects old new) ?_
      intro s b _ hs
      have hold : s ∉ old.subjects := fun hmem => hs (mem_unionSubjects.mpr (.inl hmem))
      have hnew : s ∉ new.subjects := fun hmem => hs (mem_unionSubjects.mpr (.inr hmem))
      refine resultingSeverity_congr rfl ?_
      intro l demand hdemand
      refine Eq.trans ?_ (any_withoutLayer (ne_of_not_mem_subjects hold hdemand))
      unfold hasLayer
      split
      · exact any_recount (· + r.occurrences old)
      · exact any_append_new (ne_of_not_mem_subjects hnew hdemand)

theorem adjusts_setDisabled (disabled : Bool) : r.Adjusts (r.setDisabled disabled) := by
  unfold setDisabled
  split
  · exact .idle
  · refine .recomputes r.standings.subjects ?_
    intro s b htracked hs
    exact absurd (Table.mem_subjects.mpr htracked) hs

/-- Quarantine concerns the component that is put into it or let go, and nobody else. -/
theorem isVetoed_quarantine {quarantined : IdMap String} {id : String}
    (h : ∀ other, other ≠ id → quarantined.contains other = r.quarantined.contains other)
    (hs : s ∉ [Subject.component id]) : ({ r with quarantined } : Requirements).isVetoed s = r.isVetoed s := by
  have hsame : ({ r with quarantined } : Requirements).isQuarantined s = r.isQuarantined s := by
    cases s with
    | component other => exact h other (fun heq => hs (by rw [heq]; exact List.mem_singleton_self _))
    | service other => rfl
  rw [isVetoed, hsame, isVetoed]

theorem adjusts_recordFailure (id message : String) : r.Adjusts (r.recordFailure id message) := by
  refine .recomputes [.component id] ?_
  intro s b _ hs
  refine resultingSeverity_congr (isVetoed_quarantine ?_ hs) (fun _ _ _ => rfl)
  intro other hne
  rw [IdMap.contains, IdMap.get?_insert, if_neg hne, IdMap.contains]

theorem adjusts_clearFailure (id : String) : r.Adjusts (r.clearFailure id).1 := by
  unfold clearFailure
  split
  · refine .recomputes [.component id] ?_
    intro s b _ hs
    refine resultingSeverity_congr (isVetoed_quarantine ?_ hs) (fun _ _ _ => rfl)
    intro other hne
    rw [IdMap.contains, IdMap.get?_erase, if_neg hne, IdMap.contains]
  · exact .idle

theorem adjusts_markRunning (id : String) (running : Bool) : r.Adjusts (r.markRunning id running) := by
  unfold markRunning
  split
  · split
    · exact .recomputes [] (fun _ _ _ _ => rfl)
    · exact .idle
  · split
    · exact .recomputes [] (fun _ _ _ _ => rfl)
    · exact .idle

theorem Adjusts.catalog_eq (h : r.Adjusts q) : q.catalog = r.catalog := by
  cases h with
  | idle => rfl
  | recomputes concerned others => exact (catalog_eq_of_context (context_touch.trans context_recomputeAll)).trans rfl

/-! ## What the operations do to the context -/

theorem context_addLayer (layer : Layer) (allowDuplicate : Bool) :
    ∃ layers, (r.addLayer layer allowDuplicate).1.context = ({ r with layers } : Requirements).context := by
  unfold addLayer
  split
  · split
    · exact ⟨_, context_touch⟩
    · exact ⟨r.layers, rfl⟩
  · exact ⟨_, context_touch.trans context_recomputeAll⟩

theorem context_removeLayer (layer : Layer) (all : Bool) :
    ∃ layers, (r.removeLayer layer all).1.context = ({ r with layers } : Requirements).context := by
  unfold removeLayer
  split
  · exact ⟨r.layers, rfl⟩
  · split
    · exact ⟨_, context_touch⟩
    · exact ⟨_, context_touch.trans context_recomputeAll⟩

theorem context_replaceLayer (old new : Layer) :
    ∃ layers, (r.replaceLayer old new).1.context = ({ r with layers } : Requirements).context := by
  unfold replaceLayer
  split
  · exact ⟨r.layers, rfl⟩
  · split
    · exact ⟨r.layers, rfl⟩
    · exact ⟨_, context_touch.trans context_recomputeAll⟩

theorem context_configurationChanged (subjects : List Subject) :
    (r.configurationChanged subjects).context = r.context := by
  have hall : (subjects.foldl reresolve (r, false)).1.context = r.context := context_reresolveAll
  unfold configurationChanged
  simp only []
  split
  · exact context_touch.trans hall
  · exact hall

theorem context_setResolver (resolver : Resolver) :
    (r.setResolver resolver).context = ({ r with resolver } : Requirements).context :=
  (context_touch.trans context_recomputeAll).trans rfl

theorem context_refreshCatalog (catalog : Catalog) :
    (r.refreshCatalog catalog).context =
      ({ r with
          catalog
          running := r.running.filter catalog.components.contains
          quarantined := r.quarantined.filter (fun id _ => catalog.components.contains id) } : Requirements).context :=
  (context_touch.trans (context_recomputeAll.trans context_trackAll)).trans rfl

theorem catalog_refreshCatalog (catalog : Catalog) : (r.refreshCatalog catalog).catalog = catalog :=
  (catalog_eq_of_context (context_refreshCatalog catalog)).trans rfl

theorem context_setDisabled (disabled : Bool) :
    (r.setDisabled disabled).context = ({ r with disabled } : Requirements).context := by
  unfold setDisabled
  split
  next hsame => rw [← hsame]
  next => exact context_touch.trans context_recomputeAll

theorem context_recordFailure (id message : String) :
    (r.recordFailure id message).context =
      ({ r with quarantined := r.quarantined.insert id message } : Requirements).context :=
  context_touch.trans (context_recomputeAll (l := [.component id]))

theorem context_clearFailure (id : String) :
    (r.clearFailure id).1.context = ({ r with quarantined := r.quarantined.erase id } : Requirements).context := by
  unfold clearFailure
  split
  next => exact context_touch.trans (context_recomputeAll (l := [.component id]))
  next habsent =>
    have hnone : r.quarantined.get? id = none := Option.not_isSome_iff_eq_none.mp habsent
    have hsame : r.quarantined.erase id = r.quarantined := by
      refine IdMap.ext fun other => ?_
      rw [IdMap.get?_erase]
      split
      next heq => rw [heq, hnone]
      next => rfl
    rw [hsame]

theorem context_markRunning (id : String) (running : Bool) :
    ∃ running', (r.markRunning id running).context = ({ r with running := running' } : Requirements).context := by
  unfold markRunning
  split
  · split
    · exact ⟨_, context_touch⟩
    · exact ⟨r.running, rfl⟩
  · split
    · exact ⟨_, context_touch⟩
    · exact ⟨r.running, rfl⟩

theorem context_commit (snapshot : Snapshot) (steps : Steps) :
    (r.commit snapshot steps).context =
      ({ r with
          running := (r.running.insertAll (steps.start.toList.filter r.catalog.components.contains)).eraseAll
            (steps.stop.toList ++ steps.exclude.toList) } : Requirements).context :=
  context_settleAll

/-- What an operation can do to something that only looks at the context. -/
theorem perform_context {I : Requirements → Prop} (congr : ∀ {r q : Requirements}, q.context = r.context → I r → I q)
    (operation : Operation)
    (layers : ∀ layers, I { r with layers })
    (settings : ∀ settings, I { r with settings })
    (resolver : ∀ resolver, I { r with resolver })
    (catalog : ∀ catalog, operation = .refreshCatalog catalog → I
      { r with
        catalog
        running := r.running.filter catalog.components.contains
        quarantined := r.quarantined.filter (fun id _ => catalog.components.contains id) })
    (disabled : ∀ disabled, operation = .setDisabled disabled → I { r with disabled })
    (failure : ∀ id message, I { r with quarantined := r.quarantined.insert id message })
    (cleared : ∀ id, operation = .clearFailure id → I { r with quarantined := r.quarantined.erase id })
    (running : ∀ running id isRunning, operation = .markRunning id isRunning → I { r with running }) :
    I (r.perform operation).1 := by
  cases operation with
  | addLayer layer allowDuplicate =>
      obtain ⟨changed, hcontext⟩ := context_addLayer (r := r) layer allowDuplicate
      exact congr hcontext (layers changed)
  | removeLayer layer all =>
      obtain ⟨changed, hcontext⟩ := context_removeLayer (r := r) layer all
      exact congr hcontext (layers changed)
  | replaceLayer old new =>
      obtain ⟨changed, hcontext⟩ := context_replaceLayer (r := r) old new
      exact congr hcontext (layers changed)
  | editSettings changed => exact settings changed
  | configurationChanged subjects => exact congr (context_configurationChanged subjects) (settings r.settings)
  | setResolver changed => exact congr (context_setResolver changed) (resolver changed)
  | refreshCatalog changed => exact congr (context_refreshCatalog changed) (catalog changed rfl)
  | setDisabled changed => exact congr (context_setDisabled changed) (disabled changed rfl)
  | recordFailure id message => exact congr (context_recordFailure id message) (failure id message)
  | clearFailure id => exact congr (context_clearFailure id) (cleared id rfl)
  | markRunning id isRunning =>
      obtain ⟨changed, hcontext⟩ := context_markRunning (r := r) id isRunning
      exact congr hcontext (running changed id isRunning rfl)

/-! ## Cases -/

/-- What an operation can do: adjust the requirements or change something that the resolver has a say in. -/
theorem perform_cases {P : Requirements → Prop} (operation : Operation)
    (adjust : ∀ q, r.Adjusts q → P q)
    (editSettings : ∀ settings, P (r.editSettings settings))
    (configurationChanged : ∀ subjects, P (r.configurationChanged subjects))
    (setResolver : ∀ resolver, P (r.setResolver resolver))
    (refreshCatalog : ∀ catalog, P (r.refreshCatalog catalog)) : P (r.perform operation).1 := by
  cases operation with
  | addLayer layer allowDuplicate => exact adjust _ (adjusts_addLayer layer allowDuplicate)
  | removeLayer layer all => exact adjust _ (adjusts_removeLayer layer all)
  | replaceLayer old new => exact adjust _ (adjusts_replaceLayer old new)
  | editSettings settings => exact editSettings settings
  | configurationChanged subjects => exact configurationChanged subjects
  | setResolver resolver => exact setResolver resolver
  | refreshCatalog catalog => exact refreshCatalog catalog
  | setDisabled disabled => exact adjust _ (adjusts_setDisabled disabled)
  | recordFailure id message => exact adjust _ (adjusts_recordFailure id message)
  | clearFailure id => exact adjust _ (adjusts_clearFailure id)
  | markRunning id running => exact adjust _ (adjusts_markRunning id running)

/-- What can happen to the requirements: an operation, a change of what the resolver answers, or a step of a pass. -/
theorem after_cases {P : Requirements → Prop} (e : Occurrence)
    (adjust : ∀ q, r.Adjusts q → P q)
    (editSettings : ∀ settings, P (r.editSettings settings))
    (configurationChanged : ∀ subjects, P (r.configurationChanged subjects))
    (setResolver : ∀ resolver, P (r.setResolver resolver))
    (refreshCatalog : ∀ catalog, P (r.refreshCatalog catalog))
    (contentChanges : ∀ resolver, P { r with resolver })
    (beginPass : P r.beginPass)
    (commit : ∀ snapshot steps, P (r.commit snapshot steps))
    (endPass : P r.endPass.1) : P (r.after e) := by
  cases e with
  | asked operation =>
      exact perform_cases operation adjust editSettings configurationChanged setResolver refreshCatalog
  | contentChanges resolver => exact contentChanges resolver
  | passBegins => exact beginPass
  | passCommits snapshot steps => exact commit snapshot steps
  | passEnds => exact endPass

end Requirements

end Orchestrator
