import Orchestrator.Proofs.Requirements.Adjustment
/-!
Baselines on record. The resolver is asked about a subject when it is first tracked, when another resolver is put in
place and when its configuration is said to have changed; at all other times the record stays as it is. So the baseline
on record is the last answer that was given, and the subjects on record are those of the catalog.
-/

namespace Orchestrator

namespace Requirements

variable {r : Requirements} {s k : Subject} {f : Standing → Standing} {l : List Subject}

/-- The baseline on record for a subject. -/
def recorded? (r : Requirements) (s : Subject) : Option Severity := (r.standings.get? s).map Standing.baseline

theorem contains_eq_recorded? : r.standings.contains s = (r.recorded? s).isSome := by
  rw [recorded?, Option.isSome_map, Table.contains]

@[simp] theorem recorded?_touch : r.touch.recorded? k = r.recorded? k := by
  rw [recorded?, standings_touch, recorded?]

theorem recorded?_amend (hf : ∀ old, (f old).baseline = old.baseline) :
    (r.amend s f).recorded? k = r.recorded? k := map_get?_amend hf

@[simp] theorem recorded?_recomputeAll : (r.recomputeAll l).recorded? k = r.recorded? k :=
  map_get?_recomputeAll (fun _ _ => rfl)

@[simp] theorem recorded?_settleAll {severities : List (Subject × Severity)} :
    (severities.foldl settle r).recorded? k = r.recorded? k := by
  induction severities generalizing r with
  | nil => rfl
  | cons e rest ih => exact ih.trans (recorded?_amend (fun _ => rfl))

theorem recorded?_trackAll : (l.foldl track r).recorded? k =
    if k ∈ l then some (r.baseline k) else r.recorded? k := by
  rw [recorded?, get?_trackAll]
  split
  · rfl
  · rfl

theorem reviewed_baseline {old : Standing} : (r.reviewed s old).baseline = r.baseline s := by
  unfold reviewed
  split
  next hsame => exact hsame
  next => rfl

theorem recorded?_reresolve {acc : Requirements × Bool} : (reresolve acc s).1.recorded? k =
    if k = s then (acc.1.recorded? k).map (fun _ => acc.1.baseline k) else acc.1.recorded? k := by
  rw [recorded?, reresolve_eq_amend, get?_amend]
  split
  next hk =>
    have hanswer : Standing.baseline ∘ acc.1.reviewed s = (fun _ => acc.1.baseline s) ∘ Standing.baseline :=
      funext fun _ => reviewed_baseline
    rw [Option.map_map, hanswer, ← Option.map_map, hk]
    rfl
  next => rfl

theorem recorded?_reresolveAll (acc : Requirements × Bool) : (l.foldl reresolve acc).1.recorded? k =
    if k ∈ l then (acc.1.recorded? k).map (fun _ => acc.1.baseline k) else acc.1.recorded? k := by
  induction l generalizing acc with
  | nil => simp
  | cons s rest ih =>
      have hbaseline : (reresolve acc s).1.baseline k = acc.1.baseline k := by
        rw [reresolve_eq_amend, baseline_eq_of_context context_amend]
      rw [List.foldl_cons, ih, recorded?_reresolve, hbaseline]
      by_cases hk : k = s
      · simp [hk, Function.comp_def]
      · simp [hk]

/-! ## Operations -/

theorem recorded?_initial (catalog : Catalog) (settings : Settings) (resolver : Resolver) :
    (initial catalog settings resolver).recorded? k =
      if catalog.contains k = true then some ((initial catalog settings resolver).baseline k) else none := by
  have hbaseline := fun q : Requirements => baseline_eq_of_context (context_trackAll (r := q) (l := catalog.subjects)) k
  rw [initial, recorded?_trackAll, hbaseline, recorded?, Table.get?_empty, Option.map_none]
  simp only [Catalog.mem_subjects]

theorem Adjusts.recorded?_eq {q : Requirements} (h : r.Adjusts q) : q.recorded? k = r.recorded? k := by
  cases h with
  | idle => rfl
  | recomputes concerned others => exact recorded?_touch.trans recorded?_recomputeAll

theorem recorded?_configurationChanged (subjects : List Subject) :
    (r.configurationChanged subjects).recorded? k =
      if k ∈ subjects then (r.recorded? k).map (fun _ => r.baseline k) else r.recorded? k := by
  rw [← recorded?_reresolveAll (r, false)]
  unfold configurationChanged
  simp only []
  split
  · exact recorded?_touch
  · rfl

theorem recorded?_setResolver (resolver : Resolver) :
    (r.setResolver resolver).recorded? k = (r.recorded? k).map (fun _ => (r.setResolver resolver).baseline k) := by
  have hbaseline : (r.setResolver resolver).baseline k = ({ r with resolver } : Requirements).baseline k := by
    exact baseline_eq_of_context (context_setResolver resolver) k
  rw [hbaseline]
  refine (recorded?_touch.trans recorded?_recomputeAll).trans ?_
  rw [recorded?, Table.get?_map, Option.map_map, recorded?, Option.map_map]
  rfl

theorem recorded?_refreshCatalog (catalog : Catalog) : (r.refreshCatalog catalog).recorded? k =
    if catalog.contains k = true then some ((r.recorded? k).getD (r.baseline k)) else none :=
  map_get?_refreshCatalog (fun _ _ => rfl) catalog

@[simp] theorem recorded?_commit (snapshot : Snapshot) (steps : Steps) :
    (r.commit snapshot steps).recorded? k = r.recorded? k := recorded?_settleAll

theorem baseline_configurationChanged (subjects : List Subject) :
    (r.configurationChanged subjects).baseline k = r.baseline k :=
  baseline_eq_of_context (context_configurationChanged subjects) k

theorem baseline_refreshCatalog (catalog : Catalog) : (r.refreshCatalog catalog).baseline k = r.baseline k :=
  baseline_eq_of_context (context_refreshCatalog catalog) k

/-! ## Answers -/

/-- Whether the resolver is asked about a subject, and its answer recorded. -/
def asks (r : Requirements) (s : Subject) : Occurrence → Bool
  | .asked (.configurationChanged subjects) => subjects.contains s && r.standings.contains s
  | .asked (.setResolver _) => r.standings.contains s
  | .asked (.refreshCatalog catalog) => catalog.contains s && !r.standings.contains s
  | _ => false

/-- What the resolver answers about a subject in the course of a history, in order. -/
def answers (r : Requirements) (s : Subject) : List Occurrence → List Severity
  | [] => []
  | e :: rest => (if r.asks s e then [(r.after e).baseline s] else []) ++ (r.after e).answers s rest

/-- All answers about a subject since the requirements came into being; a subject of the first catalog is asked for
right at the start. -/
def allAnswers (catalog : Catalog) (settings : Settings) (resolver : Resolver) (history : List Occurrence)
    (s : Subject) : List Severity :=
  let start := initial catalog settings resolver
  (if catalog.contains s then [start.baseline s] else []) ++ start.answers s history

theorem recorded?_of_asks {e : Occurrence} (h : r.asks s e = true) :
    (r.after e).recorded? s = some ((r.after e).baseline s) := by
  cases e with
  | asked operation =>
      cases operation with
      | configurationChanged subjects =>
          have hstep := recorded?_configurationChanged (r := r) (k := s) subjects
          cases hold : r.recorded? s with
          | none => simp [asks, contains_eq_recorded?, hold] at h
          | some old =>
              have hnamed : s ∈ subjects := by simpa [asks, contains_eq_recorded?, hold] using h
              rw [if_pos hnamed, hold, ← baseline_configurationChanged subjects] at hstep
              exact hstep
      | setResolver resolver =>
          have hstep := recorded?_setResolver (r := r) (k := s) resolver
          cases hold : r.recorded? s with
          | none => simp [asks, contains_eq_recorded?, hold] at h
          | some old =>
              rw [hold] at hstep
              exact hstep
      | refreshCatalog catalog =>
          have hstep := recorded?_refreshCatalog (r := r) (k := s) catalog
          cases hold : r.recorded? s with
          | none =>
              have hknown : catalog.contains s = true := by simpa [asks, contains_eq_recorded?, hold] using h
              rw [if_pos hknown, hold, ← baseline_refreshCatalog catalog] at hstep
              exact hstep
          | some old => simp [asks, contains_eq_recorded?, hold] at h
      | _ => cases h
  | _ => cases h

theorem recorded?_of_not_asks {e : Occurrence} (h : r.asks s e = false) :
    (r.after e).recorded? s = r.recorded? s ∨ (r.after e).recorded? s = none := by
  cases e with
  | asked operation =>
      cases operation with
      | configurationChanged subjects =>
          have hstep := recorded?_configurationChanged (r := r) (k := s) subjects
          cases hold : r.recorded? s with
          | none =>
              rw [hold, Option.map_none, ite_self] at hstep
              exact .inr hstep
          | some old =>
              have hnamed : s ∉ subjects := by simpa [asks, contains_eq_recorded?, hold] using h
              rw [if_neg hnamed, hold] at hstep
              exact .inl hstep
      | setResolver resolver =>
          have hstep := recorded?_setResolver (r := r) (k := s) resolver
          cases hold : r.recorded? s with
          | none =>
              rw [hold] at hstep
              exact .inr hstep
          | some old => simp [asks, contains_eq_recorded?, hold] at h
      | refreshCatalog catalog =>
          have hstep := recorded?_refreshCatalog (r := r) (k := s) catalog
          by_cases hknown : catalog.contains s = true
          · rw [if_pos hknown] at hstep
            cases hold : r.recorded? s with
            | none => simp [asks, contains_eq_recorded?, hold, hknown] at h
            | some old =>
                rw [hold] at hstep
                exact .inl hstep
          · rw [if_neg hknown] at hstep
            exact .inr hstep
      | addLayer layer allowDuplicate => exact .inl (adjusts_addLayer layer allowDuplicate).recorded?_eq
      | removeLayer layer all => exact .inl (adjusts_removeLayer layer all).recorded?_eq
      | replaceLayer old new => exact .inl (adjusts_replaceLayer old new).recorded?_eq
      | editSettings settings => exact .inl rfl
      | setDisabled disabled => exact .inl (adjusts_setDisabled disabled).recorded?_eq
      | recordFailure id message => exact .inl (adjusts_recordFailure id message).recorded?_eq
      | clearFailure id => exact .inl (adjusts_clearFailure id).recorded?_eq
      | markRunning id running => exact .inl (adjusts_markRunning id running).recorded?_eq
  | contentChanges resolver => exact .inl rfl
  | passBegins => exact .inl rfl
  | passCommits snapshot steps => exact .inl (recorded?_commit snapshot steps)
  | passEnds => exact .inl rfl

/-- The induction carries that the last answer so far is on record wherever there is a record. A subject that leaves
the catalog loses its record, and it is asked for again before it has one. -/
theorem recorded?_replay {past : List Severity} (h : ∀ b, r.recorded? s = some b → past.getLast? = some b)
    (history : List Occurrence) :
    ∀ b, (r.replay history).recorded? s = some b → (past ++ r.answers s history).getLast? = some b := by
  induction history generalizing r past with
  | nil =>
      intro b hb
      rw [answers, List.append_nil]
      exact h b hb
  | cons e rest ih =>
      rw [answers, ← List.append_assoc]
      refine ih ?_
      intro b hb
      cases hasks : r.asks s e with
      | true =>
          rw [recorded?_of_asks hasks] at hb
          rw [if_pos rfl, List.getLast?_concat]
          exact hb
      | false =>
          rw [if_neg Bool.false_ne_true, List.append_nil]
          cases recorded?_of_not_asks hasks with
          | inl hsame => exact h b (hsame ▸ hb)
          | inr hnone => cases hnone.symm.trans hb

theorem recorded?_eq_last_answer (catalog : Catalog) (settings : Settings) (resolver : Resolver)
    (history : List Occurrence) {b : Severity}
    (h : ((initial catalog settings resolver).replay history).recorded? s = some b) :
    (allAnswers catalog settings resolver history s).getLast? = some b := by
  refine recorded?_replay ?_ history b h
  intro first hfirst
  rw [recorded?_initial] at hfirst
  split at hfirst
  next hknown =>
    rw [if_pos hknown]
    exact hfirst
  next => cases hfirst

/-! ## Subjects on record -/

/-- The subjects on record are those of the catalog. -/
def Tracks (r : Requirements) : Prop := ∀ s, r.standings.contains s = r.catalog.contains s

theorem tracks_initial (catalog : Catalog) (settings : Settings) (resolver : Resolver) :
    (initial catalog settings resolver).Tracks := by
  intro s
  have hcatalog : (initial catalog settings resolver).catalog = catalog :=
    (catalog_eq_of_context context_trackAll).trans rfl
  rw [contains_eq_recorded?, recorded?_initial, hcatalog]
  cases catalog.contains s with
  | false => rfl
  | true => rfl

theorem Tracks.of_eq {q : Requirements} (h : r.Tracks) (hcatalog : q.catalog = r.catalog)
    (hrecorded : ∀ s, (q.recorded? s).isSome = (r.recorded? s).isSome) : q.Tracks := by
  intro s
  rw [contains_eq_recorded?, hrecorded, ← contains_eq_recorded?, h, hcatalog]

theorem Tracks.adjust {q : Requirements} (h : r.Tracks) (hq : r.Adjusts q) : q.Tracks :=
  h.of_eq hq.catalog_eq (fun _ => congrArg Option.isSome hq.recorded?_eq)

theorem Tracks.configurationChanged (h : r.Tracks) (subjects : List Subject) :
    (r.configurationChanged subjects).Tracks := by
  refine h.of_eq (catalog_eq_of_context (context_configurationChanged subjects)) ?_
  intro s
  rw [recorded?_configurationChanged]
  split
  · rw [Option.isSome_map]
  · rfl

theorem Tracks.setResolver (h : r.Tracks) (resolver : Resolver) : (r.setResolver resolver).Tracks := by
  refine h.of_eq ((catalog_eq_of_context (context_setResolver resolver)).trans rfl) ?_
  intro s
  rw [recorded?_setResolver, Option.isSome_map]

theorem tracks_refreshCatalog (catalog : Catalog) : (r.refreshCatalog catalog).Tracks := by
  intro s
  rw [contains_eq_recorded?, recorded?_refreshCatalog, catalog_refreshCatalog]
  cases catalog.contains s with
  | false => rfl
  | true => rfl

theorem Tracks.commit (h : r.Tracks) (snapshot : Snapshot) (steps : Steps) : (r.commit snapshot steps).Tracks := by
  refine h.of_eq ((catalog_eq_of_context (context_commit snapshot steps)).trans rfl) ?_
  intro s
  rw [recorded?_commit]

theorem Tracks.after (h : r.Tracks) (e : Occurrence) : (r.after e).Tracks :=
  after_cases e (fun _ => h.adjust) (fun _ => h) h.configurationChanged h.setResolver tracks_refreshCatalog
    (fun _ => h) h h.commit h

theorem Tracks.replay (h : r.Tracks) (history : List Occurrence) : (r.replay history).Tracks :=
  replay_invariant (P := Tracks) (fun _ e hr => hr.after e) h history

end Requirements

end Orchestrator
