import Orchestrator.Proofs.Requirements.Reach
/-!
Rediscovery: what becomes of each subject when the catalog is exchanged. The subjects on record are at all times those
of the catalog, and whatever runs is in it, even where a pass was begun over a catalog that is gone by the time its
outcome is taken over. A subject that stays keeps what is known of it, one that goes is forgotten, and one that comes is
met as a stranger, except that a failure that was reported before it was known is held against it.
-/

namespace Orchestrator

namespace Requirements

variable {r q : Requirements} {s : Subject} {next : Catalog}

/-- The subject is a component that runs. -/
def runs (r : Requirements) : Subject → Bool
  | .component id => r.running.contains id
  | .service _ => false

/-- What was said of the failure for which the subject is quarantined. -/
def failure? (r : Requirements) : Subject → Option String
  | .component id => r.quarantined.get? id
  | .service _ => none

/-- The subject is as before in all but its final severity. -/
structure Keeps (r q : Requirements) (s : Subject) : Prop where
  recorded : q.recorded? s = r.recorded? s
  applied : q.applied? s = r.applied? s
  runs : q.runs s = r.runs s
  failure : q.failure? s = r.failure? s

/-- Nothing is known of the subject. -/
structure HasForgotten (r : Requirements) (s : Subject) : Prop where
  standing : r.standings.get? s = none
  runs : r.runs s = false
  failure : r.failure? s = none

/-- The subject is new: the resolver has been asked about it, no plan has dealt with it, and it does not run. A failure
that is on record already is kept, and excludes it. -/
structure Meets (r q : Requirements) (s : Subject) : Prop where
  standing : ∃ final, q.standings.get? s = some ⟨r.baseline s, final, none⟩ ∧
    (r.isQuarantined s = true → final = .excluded)
  runs : q.runs s = false
  failure : q.failure? s = r.failure? s

/-! ## One exchange -/

theorem runs_refreshCatalog (next : Catalog) : (r.refreshCatalog next).runs s = (r.runs s && next.contains s) := by
  cases s with
  | service id => rfl
  | component id =>
      have hrunning : (r.refreshCatalog next).running = r.running.filter next.components.contains :=
        (running_eq_of_context (context_refreshCatalog next)).trans rfl
      rw [runs, hrunning, Bool.eq_iff_iff, Bool.and_eq_true, IdSet.contains_iff, IdSet.mem_filter, runs,
        IdSet.contains_iff]
      rfl

theorem failure?_refreshCatalog (next : Catalog) :
    (r.refreshCatalog next).failure? s = if next.contains s = true then r.failure? s else none := by
  cases s with
  | service id => rw [failure?, failure?, ite_self]
  | component id =>
      have hquarantined : (r.refreshCatalog next).quarantined =
          r.quarantined.filter (fun other _ => next.components.contains other) :=
        (quarantined_eq_of_context (context_refreshCatalog next)).trans rfl
      have hknown : next.contains (.component id) = next.components.contains id := rfl
      rw [failure?, hquarantined, IdMap.get?_filter, failure?, hknown]
      cases r.quarantined.get? id with
      | none => rw [Option.filter_none, ite_self]
      | some message => rw [Option.filter_some]

theorem isQuarantined_eq : r.isQuarantined s = (r.failure? s).isSome := by
  cases s with
  | component id => rfl
  | service id => rfl

theorem keeps_refreshCatalog (h : r.standings.contains s = true) (hstays : next.contains s = true) :
    r.Keeps (r.refreshCatalog next) s where
  recorded := by
    obtain ⟨baseline, hbaseline⟩ := Option.isSome_iff_exists.mp (contains_eq_recorded?.symm.trans h)
    rw [recorded?_refreshCatalog, if_pos hstays, hbaseline, Option.getD_some]
  applied := by rw [applied?_refreshCatalog, if_pos hstays]
  runs := by rw [runs_refreshCatalog, hstays, Bool.and_true]
  failure := by rw [failure?_refreshCatalog, if_pos hstays]

theorem hasForgotten_refreshCatalog (hgoes : next.contains s = false) : (r.refreshCatalog next).HasForgotten s := by
  have hnot : ¬ next.contains s = true := Bool.not_eq_true _ ▸ hgoes
  refine ⟨?_, ?_, ?_⟩
  · have hrecorded := recorded?_refreshCatalog (r := r) (k := s) next
    rw [if_neg hnot] at hrecorded
    exact Option.map_eq_none_iff.mp hrecorded
  · rw [runs_refreshCatalog, hgoes, Bool.and_false]
  · rw [failure?_refreshCatalog, if_neg hnot]

/-- Final severities are up to date after the exchange, so that a failure vetoes the newcomer at once. -/
theorem meets_refreshCatalog (hstranger : r.standings.contains s = false) (hrest : r.runs s = false)
    (hcomes : next.contains s = true) : r.Meets (r.refreshCatalog next) s := by
  have hnone : r.standings.get? s = none := Option.isNone_iff_eq_none.mp (Option.isSome_eq_false_iff.mp hstranger)
  have hfailure : (r.refreshCatalog next).failure? s = r.failure? s := by
    rw [failure?_refreshCatalog, if_pos hcomes]
  have hdealt := map_get?_refreshCatalog (r := r) (k := s)
    (g := fun old => (old.baseline, old.applied)) (fun _ _ => rfl) next
  rw [if_pos hcomes, hnone, Option.map_none, Option.getD_none] at hdealt
  obtain ⟨standing, hstanding, hpair⟩ := Option.map_eq_some_iff.mp hdealt
  obtain ⟨hbaseline, happlied⟩ := Prod.mk.inj hpair
  refine ⟨⟨standing.final, ?_, ?_⟩, ?_, hfailure⟩
  · rw [hstanding]
    cases standing
    cases hbaseline
    cases happlied
    rfl
  · intro hquarantined
    have hheld : (r.refreshCatalog next).isQuarantined s = true := by
      rw [isQuarantined_eq, hfailure, ← isQuarantined_eq, hquarantined]
    rw [upToDate_refreshCatalog next s standing hstanding]
    refine resultingSeverity_of_vetoed ?_
    rw [isVetoed, hheld, Bool.or_true, Bool.true_or]
  · rw [runs_refreshCatalog, hrest, Bool.false_and]

/-! ## All exchanges -/

theorem RunsKnown.runs_eq_false {P : Catalog → Prop} (h : r.RunsKnown P) (hs : r.catalog.contains s = false) :
    r.runs s = false := by
  cases s with
  | service id => rfl
  | component id =>
      refine Bool.eq_false_iff.mpr fun hruns => ?_
      have hknown : r.catalog.contains (.component id) = true := h.known id (IdSet.contains_iff.mp hruns)
      exact Bool.false_ne_true (hs.symm.trans hknown)

/-- After every history, whatever outcomes were taken over in it and over whichever catalogs, the subjects on record are
those of the catalog and only its components run; and from there every exchange of the catalog keeps who stays, forgets
who is not in it, and meets who comes. -/
theorem catalog_followed (catalog : Catalog) (settings : Settings) (resolver : Resolver) (history : List Occurrence) :
    let r := (initial catalog settings resolver).replay history
    (∀ s, s ∈ r.standings.subjects ↔ s ∈ r.catalog.subjects) ∧
    (∀ id ∈ r.running, r.catalog.components.contains id = true) ∧
    ∀ next : Catalog,
      let q := r.refreshCatalog next
      q.catalog = next ∧
      ∀ s,
        (r.catalog.contains s = true → next.contains s = true → r.Keeps q s) ∧
        (next.contains s = false → q.HasForgotten s) ∧
        (r.catalog.contains s = false → next.contains s = true → r.Meets q s) := by
  intro r
  have hreached : r.ReachedOver fun _ => True := reachedOver_replay catalog settings resolver history
  have htracks : r.Tracks := hreached.tracks
  refine ⟨?_, hreached.runsKnown.known, ?_⟩
  · intro s
    rw [Table.mem_subjects, Catalog.mem_subjects, htracks]
  · intro next q
    refine ⟨catalog_refreshCatalog next, ?_⟩
    intro s
    refine ⟨?_, hasForgotten_refreshCatalog, ?_⟩
    · intro hknown hstays
      exact keeps_refreshCatalog ((htracks s).trans hknown) hstays
    · intro hstranger hcomes
      exact meets_refreshCatalog ((htracks s).trans hstranger) (hreached.runsKnown.runs_eq_false hstranger) hcomes

def radio : Component := ⟨"radio", "1", none, [], none⟩

def clock : Component := ⟨"clock", "1", none, [], none⟩

def heater : Component := ⟨"heater", "1", none, [], none⟩

def upstairs : Catalog := (Catalog.empty.insertComponent lamp).insertComponent heater

def downstairs : Catalog := (Catalog.empty.insertComponent lamp).insertComponent radio

def outdoors : Catalog := (Catalog.empty.insertComponent lamp).insertComponent clock

/-- The heater is gone before it is started, and the clock fails before anybody knows of it. -/
def moving : List Occurrence :=
  [.passBegins, .asked (.refreshCatalog downstairs),
    .passCommits (initial upstairs .empty .store).snapshot ⟨IdSet.ofList ["heater", "lamp"], .empty, .empty, 0⟩,
    .passEnds, .asked (.recordFailure "clock" "cracked"), .asked (.recordFailure "radio" "mute")]

theorem catalog_followed_moving :
    let r := (initial upstairs .empty .store).replay moving
    r.running = IdSet.ofList ["lamp"] ∧ r.Keeps (r.refreshCatalog outdoors) (.component "lamp") ∧
      (r.refreshCatalog outdoors).HasForgotten (.component "radio") ∧
      r.Meets (r.refreshCatalog outdoors) (.component "clock") ∧
      (r.refreshCatalog outdoors).final? (.component "clock") = some .excluded := by
  intro r
  obtain ⟨-, -, hexchange⟩ := catalog_followed upstairs .empty .store moving
  obtain ⟨-, hsubjects⟩ := hexchange outdoors
  refine ⟨by decide +kernel, ?_, ?_, ?_, by decide +kernel⟩
  · exact (hsubjects (.component "lamp")).1 (by decide +kernel) (by decide +kernel)
  · exact (hsubjects (.component "radio")).2.1 (by decide +kernel)
  · exact (hsubjects (.component "clock")).2.2 (by decide +kernel) (by decide +kernel)

end Requirements

end Orchestrator
