import Orchestrator.Proofs.Requirements.Reach
/-!
The switch. While all is switched off no subject of the catalog gets by its veto, whatever else happens to the
requirements and whenever the subject came to be tracked. To switch all back on, with nothing in between, brings back
what there was.
-/

namespace Orchestrator

/-- The operation does not switch all back on. -/
def Operation.StaysOff : Operation → Prop
  | .setDisabled disabled => disabled = true
  | _ => True

/-- The operation does not report that a component runs. -/
def Operation.ReportsNoStart : Operation → Prop
  | .markRunning _ running => running = false
  | _ => True

namespace Requirements

variable {r : Requirements} {P : Catalog → Prop} {k : Subject}

/-! ## All is off -/

/-- All is switched off, in requirements that come about over certain catalogs. -/
structure IsOff (P : Catalog → Prop) (r : Requirements) : Prop where
  reached : r.ReachedOver P
  disabled : r.disabled = true

theorem disabled_perform {operation : Operation} (hoff : operation.StaysOff) (h : r.disabled = true) :
    (r.perform operation).1.disabled = true := by
  refine perform_context (I := fun q => q.disabled = true) (fun hq hr =>
    (eq_of_context (f := Requirements.disabled) (fun _ => rfl) hq).trans hr) operation (fun _ => h) (fun _ => h)
    (fun _ => h) (fun _ _ => h) ?_ (fun _ _ => h) (fun _ _ => h) (fun _ _ _ _ => h)
  rintro disabled rfl
  exact hoff

theorem IsOff.after (h : r.IsOff P) {e : Occurrence}
    (he : e.Asks (fun operation => operation.Installs P ∧ operation.StaysOff)) : (r.after e).IsOff P := by
  refine ⟨h.reached.after (he.mono fun _ => And.left).installs, ?_⟩
  cases e with
  | asked operation => exact disabled_perform he.2 h.disabled
  | passCommits snapshot steps =>
      exact (eq_of_context (f := Requirements.disabled) (fun _ => rfl) (context_commit snapshot steps)).trans h.disabled
  | _ => exact h.disabled

/-- Whatever the catalog has is vetoed. -/
theorem IsOff.severity (h : r.IsOff P) (hlisted : r.catalog.contains k = true) : r.snapshot.severity k = .excluded := by
  have htracked : r.standings.contains k = true := (h.reached.tracks k).trans hlisted
  obtain ⟨standing, hget⟩ := Option.isSome_iff_exists.mp htracked
  have hvetoed : r.isVetoed k = true := by rw [isVetoed, h.disabled, Bool.true_or, Bool.true_or]
  have hfinal : standing.final = .excluded :=
    (h.reached.upToDate k standing hget).trans (resultingSeverity_of_vetoed hvetoed)
  rw [Snapshot.severity, snapshot, Table.get?_map, hget, Option.map_some, Option.getD_some, hfinal]

/-! ## Off and on again -/

theorem get?_setDisabled {disabled : Bool} (h : r.disabled ≠ disabled) :
    (r.setDisabled disabled).standings.get? k =
      (r.standings.get? k).map (({ r with disabled } : Requirements).renewed k) := by
  rw [setDisabled, if_neg h, standings_touch, get?_recomputeAll]
  split
  next => rfl
  next huntracked =>
    have hnone : r.standings.get? k = none :=
      Option.not_isSome_iff_eq_none.mp fun htracked => huntracked (Table.mem_subjects.mpr htracked)
    rw [hnone, Option.map_none]

/-- To switch all off and on again leaves every standing as it was. -/
theorem standings_setDisabled_twice (hr : r.UpToDate) (hon : r.disabled = false) :
    ((r.setDisabled true).setDisabled false).standings = r.standings := by
  have hoff : (r.setDisabled true).disabled = true :=
    (eq_of_context (f := Requirements.disabled) (fun _ => rfl) (context_setDisabled true)).trans rfl
  have hcontext : ({ r.setDisabled true with disabled := false } : Requirements).context = r.context :=
    calc ({ r.setDisabled true with disabled := false } : Requirements).context
      _ = { (r.setDisabled true).context with disabled := false } := rfl
      _ = { ({ r with disabled := true } : Requirements).context with disabled := false } := by rw [context_setDisabled]
      _ = r.context := by rw [← hon]; rfl
  refine Table.ext fun k => ?_
  rw [get?_setDisabled (by rw [hoff]; decide), get?_setDisabled (by rw [hon]; decide), Option.map_map]
  cases hget : r.standings.get? k with
  | none => rfl
  | some standing =>
      rw [Option.map_some, Function.comp_apply, renewed, renewed, resultingSeverity_eq_of_context hcontext]
      exact congrArg some (by rw [← hr k standing hget])

theorem dirtyCount_congr {q : Requirements} (hr : r.Counted) (hq : q.Counted) (h : q.standings = r.standings) :
    q.dirtyCount = r.dirtyCount := by
  rw [dirtyCount, hq, h, ← hr, dirtyCount]

end Requirements

end Orchestrator
