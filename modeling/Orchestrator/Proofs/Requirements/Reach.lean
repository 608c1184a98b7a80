import Orchestrator.Proofs.Requirements.Aggregation
import Orchestrator.Proofs.Requirements.Dirtiness
import Orchestrator.Proofs.Requirements.Footing
/-!
The requirements that can be reached, where every catalog that is ever in place has a certain property. Whatever
happens to them they stay among those, and only components of the catalog run.
-/

namespace Orchestrator

/-- A catalog that the operation puts in place has a property. -/
def Operation.Installs (P : Catalog → Prop) : Operation → Prop
  | .refreshCatalog catalog => P catalog
  | _ => True

def Occurrence.Installs (P : Catalog → Prop) : Occurrence → Prop
  | .asked operation => operation.Installs P
  | _ => True

theorem Operation.LeavesRunning.installs {operation : Operation} (h : operation.LeavesRunning) (P : Catalog → Prop) :
    operation.Installs P := by
  cases operation with
  | refreshCatalog catalog => exact h.elim
  | _ => trivial

theorem Occurrence.Asks.installs {P : Catalog → Prop} {e : Occurrence} (he : e.Asks (Operation.Installs P)) :
    e.Installs P := by
  cases e with
  | asked operation => exact he
  | _ => trivial

theorem Occurrence.installs_true (e : Occurrence) : e.Installs fun _ => True := by
  cases e with
  | asked operation => cases operation <;> trivial
  | _ => trivial

namespace Requirements

variable {r q : Requirements} {P : Catalog → Prop}

/-- What was dealt with stays as long as the catalog does. -/
theorem sameDealings_perform {operation : Operation} (h : operation.Installs fun _ => False) :
    r.SameDealings (r.perform operation).1 := by
  cases operation with
  | refreshCatalog catalog => exact h.elim
  | markRunning id running => exact (adjusts_markRunning id running).applied_eq
  | addLayer | removeLayer | replaceLayer | editSettings | configurationChanged | setResolver | setDisabled
  | recordFailure | clearFailure =>
      refine SameFooting.dealings (sameFooting_perform ?_)
      trivial

/-- The requirements come about by a history in which all catalogs have a property, the first one included. -/
def ReachedOver (P : Catalog → Prop) (r : Requirements) : Prop :=
  ∃ catalog settings resolver history,
    P catalog ∧ (∀ e ∈ history, e.Installs P) ∧ r = (initial catalog settings resolver).replay history

theorem reachedOver_initial {catalog : Catalog} (hcatalog : P catalog) (settings : Settings) (resolver : Resolver) :
    (initial catalog settings resolver).ReachedOver P :=
  ⟨catalog, settings, resolver, [], hcatalog, nofun, rfl⟩

theorem reachedOver_replay (catalog : Catalog) (settings : Settings) (resolver : Resolver) (history : List Occurrence) :
    ((initial catalog settings resolver).replay history).ReachedOver fun _ => True :=
  ⟨catalog, settings, resolver, history, trivial, fun e _ => e.installs_true, rfl⟩

theorem ReachedOver.after (h : r.ReachedOver P) {e : Occurrence} (he : e.Installs P) : (r.after e).ReachedOver P := by
  obtain ⟨catalog, settings, resolver, history, hcatalog, hhistory, rfl⟩ := h
  refine ⟨catalog, settings, resolver, history ++ [e], hcatalog, ?_, ?_⟩
  · intro other hother
    rcases List.mem_append.mp hother with hpast | hnow
    · exact hhistory other hpast
    · rw [List.mem_singleton.mp hnow]
      exact he
  · rw [replay, replay, List.foldl_append, List.foldl_cons, List.foldl_nil]

theorem ReachedOver.beginPass (h : r.ReachedOver P) : r.beginPass.ReachedOver P := h.after (e := .passBegins) trivial

theorem ReachedOver.endPass (h : r.ReachedOver P) : r.endPass.1.ReachedOver P := h.after (e := .passEnds) trivial

theorem ReachedOver.commit (h : r.ReachedOver P) (snapshot : Snapshot) (steps : Steps) :
    (r.commit snapshot steps).ReachedOver P := h.after (e := .passCommits snapshot steps) trivial

theorem ReachedOver.perform (h : r.ReachedOver P) {operation : Operation} (hinstalls : operation.Installs P) :
    (r.perform operation).1.ReachedOver P := h.after (e := .asked operation) hinstalls

theorem ReachedOver.recordFailure (h : r.ReachedOver P) (id message : String) :
    (r.recordFailure id message).ReachedOver P := by
  have hinstalls : (Operation.recordFailure id message).Installs P := trivial
  exact h.perform hinstalls

theorem ReachedOver.induction {I : Requirements → Prop}
    (start : ∀ catalog settings resolver, P catalog → I (initial catalog settings resolver))
    (step : ∀ r e, e.Installs P → I r → I (r.after e)) (h : r.ReachedOver P) : I r := by
  obtain ⟨catalog, settings, resolver, history, hcatalog, hhistory, rfl⟩ := h
  refine List.foldlRecOn history Requirements.after (start catalog settings resolver hcatalog) ?_
  intro q hq e he
  exact step q e (hhistory e he) hq

theorem ReachedOver.counted (h : r.ReachedOver P) : r.Counted :=
  h.induction (fun catalog settings resolver _ => counted_initial catalog settings resolver)
    (fun _ e _ hr => hr.after e)

theorem ReachedOver.upToDate (h : r.ReachedOver P) : r.UpToDate :=
  h.induction (fun catalog settings resolver _ => upToDate_initial catalog settings resolver)
    (fun _ e _ hr => hr.after e)

theorem ReachedOver.tracks (h : r.ReachedOver P) : r.Tracks :=
  h.induction (fun catalog settings resolver _ => tracks_initial catalog settings resolver)
    (fun _ e _ hr => hr.after e)

/-- Before anything was dealt with, whoever knows of a subject has something to do. -/
theorem isDirty_initial {catalog : Catalog} (settings : Settings) (resolver : Resolver) {s : Subject}
    (hlisted : catalog.contains s = true) : (initial catalog settings resolver).isDirty = true := by
  have htracked := (tracks_initial catalog settings resolver s).trans
    ((congrArg (·.contains s) (catalog_eq_of_context context_trackAll)).trans hlisted)
  obtain ⟨standing, hget⟩ := Option.isSome_iff_exists.mp htracked
  refine (counted_initial catalog settings resolver).isDirty_iff.mpr ⟨s, standing, hget, ?_⟩
  rw [untouched_initial settings resolver hget]
  exact (Option.some_ne_none _).symm

/-! ## What exists and runs -/

/-- The catalog has a property, and whatever runs is in it. -/
structure RunsKnown (P : Catalog → Prop) (r : Requirements) : Prop where
  catalog : P r.catalog
  known : ∀ id ∈ r.running, r.catalog.components.contains id = true

theorem RunsKnown.of_eq (h : r.RunsKnown P) (hcatalog : q.catalog = r.catalog) (hrunning : q.running = r.running) :
    q.RunsKnown P := by
  refine ⟨hcatalog ▸ h.catalog, ?_⟩
  intro id hid
  rw [hcatalog]
  exact h.known id (hrunning ▸ hid)

theorem RunsKnown.of_sameFooting (h : r.RunsKnown P) (hq : r.SameFooting q) : q.RunsKnown P :=
  h.of_eq hq.catalog hq.running

theorem runsKnown_initial {catalog : Catalog} (hcatalog : P catalog) (settings : Settings) (resolver : Resolver) :
    (initial catalog settings resolver).RunsKnown P := by
  refine RunsKnown.of_eq ?_ (catalog_eq_of_context context_trackAll) (running_eq_of_context context_trackAll)
  exact ⟨hcatalog, fun _ hid => (IdSet.not_mem_empty hid).elim⟩

theorem RunsKnown.markRunning (h : r.RunsKnown P) (id : String) (running : Bool) :
    (r.markRunning id running).RunsKnown P := by
  unfold Requirements.markRunning
  split
  · split
    next hknown =>
      refine RunsKnown.of_eq ?_ (catalog_eq_of_context context_touch) (running_eq_of_context context_touch)
      refine ⟨h.catalog, ?_⟩
      intro other hother
      rcases IdSet.mem_insert.mp hother with rfl | hran
      · exact (Bool.and_eq_true_iff.mp hknown).1
      · exact h.known other hran
    next => exact h
  · split
    · refine RunsKnown.of_eq ?_ (catalog_eq_of_context context_touch) (running_eq_of_context context_touch)
      exact ⟨h.catalog, fun other hother => h.known other (IdSet.mem_erase.mp hother).1⟩
    · exact h

theorem runsKnown_refreshCatalog {catalog : Catalog} (hcatalog : P catalog) :
    (r.refreshCatalog catalog).RunsKnown P := by
  have hcontext := context_refreshCatalog (r := r) catalog
  refine RunsKnown.of_eq ?_ (catalog_eq_of_context hcontext) (running_eq_of_context hcontext)
  exact ⟨hcatalog, fun id hid => (IdSet.mem_filter.mp hid).2⟩

theorem RunsKnown.commit (h : r.RunsKnown P) (snapshot : Snapshot) (steps : Steps) :
    (r.commit snapshot steps).RunsKnown P := by
  refine ⟨(catalog_commit snapshot steps).symm ▸ h.catalog, ?_⟩
  intro id hid
  rw [catalog_commit]
  rcases (mem_running_commit.mp hid).1 with ⟨-, hknown⟩ | hran
  · exact hknown
  · exact h.known id hran

theorem RunsKnown.after (h : r.RunsKnown P) {e : Occurrence} (he : e.Installs P) : (r.after e).RunsKnown P := by
  cases e with
  | asked operation =>
      cases operation with
      | refreshCatalog catalog => exact runsKnown_refreshCatalog he
      | markRunning id running => exact h.markRunning id running
      | _ => exact h.of_sameFooting (sameFooting_perform (by exact True.intro))
  | passCommits snapshot steps => exact h.commit snapshot steps
  | _ => exact ⟨h.catalog, h.known⟩

theorem ReachedOver.runsKnown (h : r.ReachedOver P) : r.RunsKnown P :=
  h.induction (fun _ settings resolver hcatalog => runsKnown_initial hcatalog settings resolver)
    (fun _ _ he hr => hr.after he)

end Requirements

end Orchestrator
