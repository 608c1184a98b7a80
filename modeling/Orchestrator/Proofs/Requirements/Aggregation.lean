import Orchestrator.Proofs.Requirements.Baselines
/-!
Aggregation: although every operation works out anew only the subjects that it believes to be concerned, the final
severity of every subject is at all times the one that a computation from scratch gives. What was done in which order
leaves no other trace in the final severities than the context and the baselines that it ended with.
-/

namespace Orchestrator

namespace Requirements

variable {r q : Requirements} {s : Subject} {f : Standing → Standing} {l : List Subject}

/-- Every final severity is what a computation from scratch gives. -/
def UpToDate (r : Requirements) : Prop :=
  ∀ s standing, r.standings.get? s = some standing → standing.final = r.resultingSeverity s standing.baseline

theorem UpToDate.touch (h : r.UpToDate) : r.touch.UpToDate := by
  intro s standing hget
  rw [standings_touch] at hget
  rw [resultingSeverity_eq_of_context context_touch]
  exact h s standing hget

/-- Recomputing some subjects brings everything up to date where the others were so already. -/
theorem upToDate_recomputeAll (others : ∀ s standing, s ∉ l → r.standings.get? s = some standing →
    standing.final = r.resultingSeverity s standing.baseline) : (r.recomputeAll l).UpToDate := by
  intro s standing hget
  rw [get?_recomputeAll] at hget
  rw [resultingSeverity_eq_of_context context_recomputeAll]
  split at hget
  next hmem =>
    obtain ⟨old, -, rfl⟩ := Option.map_eq_some_iff.mp hget
    rfl
  next hmem => exact others s standing hmem hget

theorem UpToDate.amend (h : r.UpToDate) (hf : ∀ old, r.standings.get? s = some old →
    (f old).final = r.resultingSeverity s (f old).baseline) : (r.amend s f).UpToDate := by
  intro k standing hget
  rw [get?_amend] at hget
  rw [resultingSeverity_eq_of_context context_amend]
  split at hget
  next hk =>
    subst hk
    obtain ⟨old, hold, rfl⟩ := Option.map_eq_some_iff.mp hget
    exact hf old hold
  next => exact h k standing hget

theorem UpToDate.settleAll (h : r.UpToDate) (severities : List (Subject × Severity)) :
    (severities.foldl settle r).UpToDate := by
  refine List.foldlRecOn severities settle h fun q hq e _ => ?_
  rw [settle_eq_amend]
  exact hq.amend fun old hold => hq e.1 old hold

theorem UpToDate.reresolveAll {acc : Requirements × Bool} (h : acc.1.UpToDate) :
    (l.foldl reresolve acc).1.UpToDate := by
  refine List.foldlRecOn (motive := fun acc => acc.1.UpToDate) l reresolve h fun q hq s _ => ?_
  rw [reresolve_eq_amend]
  refine hq.amend ?_
  intro old hold
  unfold reviewed
  split
  · exact hq s old hold
  · rfl

theorem UpToDate.trackAll (h : r.UpToDate) : (l.foldl track r).UpToDate := by
  intro s standing hget
  rw [get?_trackAll] at hget
  rw [resultingSeverity_eq_of_context context_trackAll]
  split at hget
  · cases hget
    rfl
  · exact h s standing hget

/-! ## Operations -/

theorem upToDate_initial (catalog : Catalog) (settings : Settings) (resolver : Resolver) :
    (initial catalog settings resolver).UpToDate := by
  refine UpToDate.trackAll ?_
  intro s standing hget
  rw [Table.get?_empty] at hget
  cases hget

theorem UpToDate.adjust (h : r.UpToDate) (hq : r.Adjusts q) : q.UpToDate := by
  cases hq with
  | idle => exact h
  | recomputes concerned others =>
      refine (upToDate_recomputeAll ?_).touch
      intro s standing hs hget
      have htracked : r.standings.contains s = true := Option.isSome_iff_exists.mpr ⟨standing, hget⟩
      rw [others s standing.baseline htracked hs]
      exact h s standing hget

theorem UpToDate.configurationChanged (h : r.UpToDate) (subjects : List Subject) :
    (r.configurationChanged subjects).UpToDate := by
  have hall : (subjects.foldl reresolve (r, false)).1.UpToDate := UpToDate.reresolveAll h
  unfold Requirements.configurationChanged
  simp only []
  split
  · exact hall.touch
  · exact hall

theorem upToDate_setResolver (resolver : Resolver) : (r.setResolver resolver).UpToDate := by
  refine (upToDate_recomputeAll ?_).touch
  intro s standing hs hget
  exact absurd (Table.mem_subjects.mpr (Option.isSome_iff_exists.mpr ⟨standing, hget⟩)) hs

/-- What the new catalog lacks has no standing any more, and all the rest is worked out anew. -/
theorem upToDate_refreshCatalog (catalog : Catalog) : (r.refreshCatalog catalog).UpToDate := by
  refine (upToDate_recomputeAll ?_).touch
  intro s standing hs hget
  have hgone : ¬ catalog.contains s = true := fun hknown => hs (Catalog.mem_subjects.mpr hknown)
  rw [get?_trackAll] at hget
  split at hget
  next hfresh => exact absurd (List.mem_filter.mp hfresh).1 hs
  next =>
    rw [Table.get?_restrict, if_neg hgone] at hget
    cases hget

theorem UpToDate.commit (h : r.UpToDate) (snapshot : Snapshot) (steps : Steps) :
    (r.commit snapshot steps).UpToDate := by
  refine UpToDate.settleAll ?_ snapshot.severities.entries
  exact h

theorem UpToDate.after (h : r.UpToDate) (e : Occurrence) : (r.after e).UpToDate :=
  after_cases e (fun _ => h.adjust) (fun _ => h) h.configurationChanged upToDate_setResolver upToDate_refreshCatalog
    (fun _ => h) h h.commit h

theorem UpToDate.replay (h : r.UpToDate) (history : List Occurrence) : (r.replay history).UpToDate :=
  replay_invariant (P := UpToDate) (fun _ e hr => hr.after e) h history

/-! ## Independence of the order -/

/-- Two requirements of the same catalog, baselines, active layers, quarantine and switch. -/
structure SameSituation (r q : Requirements) : Prop where
  catalog : q.catalog = r.catalog
  baselines : ∀ s, q.recorded? s = r.recorded? s
  layers : ∀ l, q.hasLayer l = r.hasLayer l
  quarantined : ∀ id, q.quarantined.contains id = r.quarantined.contains id
  disabled : q.disabled = r.disabled

theorem SameSituation.resultingSeverity_eq (h : r.SameSituation q) (s : Subject) (b : Severity) :
    q.resultingSeverity s b = r.resultingSeverity s b := by
  refine resultingSeverity_congr ?_ (fun l _ _ => h.layers l)
  have hquarantined : q.isQuarantined s = r.isQuarantined s := by
    cases s with
    | component id => exact h.quarantined id
    | service id => rfl
  rw [isVetoed, h.disabled, hquarantined, h.catalog, isVetoed]

theorem UpToDate.final?_eq (h : r.UpToDate) : r.final? s = (r.recorded? s).map (r.resultingSeverity s) := by
  rw [final?, recorded?, Option.map_map]
  cases hget : r.standings.get? s with
  | none => rfl
  | some standing => exact congrArg some (h s standing hget)

/-- Before anything is asked for, severities are baselines where discovery finds no fault. -/
theorem severity_initial {catalog : Catalog} {settings : Settings} {k : Subject}
    (havailable : catalog.contains k = true → catalog.isUnavailable k = false) :
    (initial catalog settings .store).snapshot.severity k =
      if catalog.contains k = true then settings.baseline k else .passive := by
  let untracked : Requirements :=
    { catalog, settings, resolver := .store, layers := [], standings := .empty, running := .empty
      quarantined := .empty, disabled := false, tally := .zero, isApplying := false, wantsReapply := false }
  have hcontext : (initial catalog settings .store).context = untracked.context := context_trackAll
  have hseverity : (initial catalog settings .store).snapshot.severity k =
      ((initial catalog settings .store).final? k).getD .passive := by
    rw [snapshot, Snapshot.severity, Table.get?_map]
    rfl
  rw [hseverity, (upToDate_initial catalog settings .store).final?_eq, recorded?_initial]
  split
  next hlisted =>
    have hquarantined : untracked.isQuarantined k = false := by
      cases k with
      | component | service => rfl
    rw [Option.map_some, Option.getD_some, resultingSeverity_eq_of_context hcontext, baseline_eq_of_context hcontext,
      resultingSeverity, hquarantined, havailable hlisted]
    rfl
  next => rfl

/-- After every history the final severity of a subject is the veto, if there is one, and otherwise the strongest of
its baseline and of what the active layers demand. The baseline is the last answer of the resolver about the subject.
Two histories that end in the same situation end with the same final severities. -/
theorem aggregation_exact (catalog : Catalog) (settings : Settings) (resolver : Resolver)
    (history : List Occurrence) :
    let r := (initial catalog settings resolver).replay history
    (∀ s standing, r.standings.get? s = some standing →
      (r.Veto s → standing.final = .excluded) ∧
      (¬ r.Veto s → r.IsStrongest s standing.baseline standing.final) ∧
      (allAnswers catalog settings resolver history s).getLast? = some standing.baseline) ∧
    ∀ otherCatalog otherSettings otherResolver otherHistory,
      let q := (initial otherCatalog otherSettings otherResolver).replay otherHistory
      r.SameSituation q → ∀ s, q.final? s = r.final? s := by
  intro r
  have hr : r.UpToDate := (upToDate_initial catalog settings resolver).replay history
  refine ⟨?_, ?_⟩
  · intro s standing hget
    have htracks : r.Tracks := (tracks_initial catalog settings resolver).replay history
    have hknown : r.catalog.contains s = true :=
      (htracks s).symm.trans (Option.isSome_iff_exists.mpr ⟨standing, hget⟩)
    rw [hr s standing hget, ← isVetoed_iff hknown]
    refine ⟨resultingSeverity_of_vetoed, ?_, ?_⟩
    · intro hveto
      exact resultingSeverity_isStrongest (Bool.not_eq_true _ ▸ hveto)
    · exact recorded?_eq_last_answer catalog settings resolver history (congrArg (Option.map Standing.baseline) hget)
  · intro otherCatalog otherSettings otherResolver otherHistory q hsame s
    have hq : q.UpToDate := (upToDate_initial otherCatalog otherSettings otherResolver).replay otherHistory
    have hresults : q.resultingSeverity s = r.resultingSeverity s := funext (hsame.resultingSeverity_eq s)
    rw [hq.final?_eq, hr.final?_eq, hsame.baselines, hresults]

/-- A component and a layer that demands it to run. -/
def lamp : Component := ⟨"lamp", "1", none, [], none⟩

def evening : Layer := ⟨"evening", Table.empty.insert (.component "lamp") .mandatory⟩

def hallway : Requirements := initial (Catalog.empty.insertComponent lamp) .empty .store

/-- The lamp fails after the layer was added, and the failure is cleared. -/
def failingLate : List Occurrence :=
  [.asked (.addLayer evening false), .asked (.recordFailure "lamp" "burnt out"), .asked (.clearFailure "lamp")]

/-- The lamp fails before the layer is added, and the layer is added once more in the end. -/
def failingEarly : List Occurrence :=
  [.asked (.recordFailure "lamp" "loose"), .asked (.addLayer evening false), .asked (.clearFailure "lamp"),
    .asked (.addLayer evening true)]

theorem aggregation_exact_lamp :
    (hallway.replay failingLate).IsStrongest (.component "lamp") .passive .mandatory ∧
      ∀ s, (hallway.replay failingEarly).final? s = (hallway.replay failingLate).final? s := by
  obtain ⟨hfinal, horder⟩ := aggregation_exact (Catalog.empty.insertComponent lamp) .empty .store failingLate
  refine ⟨?_, ?_⟩
  · refine (hfinal (.component "lamp") ⟨.passive, .mandatory, none⟩ (by decide)).2.1 ?_
    intro hveto
    have hvetoed := (isVetoed_iff (r := hallway.replay failingLate) (by decide)).mpr hveto
    exact absurd hvetoed (by decide)
  · exact horder (Catalog.empty.insertComponent lamp) .empty .store failingEarly
      ⟨rfl, fun _ => rfl, fun _ => rfl, fun _ => rfl, rfl⟩

end Requirements

end Orchestrator
