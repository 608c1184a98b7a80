import Orchestrator.Proofs.Requirements.Occurrences
/-!
Requirements in lockstep. Those that differ neither in what exists, what is configured and what is vetoed, nor in how
often each layer occurs, ask for the same; and while operations on layers change both in the same way, a change is
noted in both or in neither.
-/

namespace Orchestrator

/-- The operation adds a layer once more or takes away one occurrence of it. -/
def Operation.StacksLayers : Operation → Prop
  | .addLayer _ true => True
  | .removeLayer _ false => True
  | _ => False

namespace Requirements

variable {r q p : Requirements}

/-! ## Common ground -/

/-- The same exists, is configured and is vetoed. -/
structure SameGround (r q : Requirements) : Prop where
  catalog : q.catalog = r.catalog
  recorded : ∀ s, q.recorded? s = r.recorded? s
  quarantined : q.quarantined = r.quarantined
  disabled : q.disabled = r.disabled

theorem SameGround.refl (r : Requirements) : r.SameGround r := ⟨rfl, fun _ => rfl, rfl, rfl⟩

theorem sameGround_beginPass : r.SameGround r.beginPass := ⟨rfl, fun _ => rfl, rfl, rfl⟩

theorem SameGround.trans (h : r.SameGround q) (h' : q.SameGround p) : r.SameGround p :=
  ⟨h'.catalog.trans h.catalog, fun s => (h'.recorded s).trans (h.recorded s), h'.quarantined.trans h.quarantined,
    h'.disabled.trans h.disabled⟩

theorem SameGround.symm (h : r.SameGround q) : q.SameGround r :=
  ⟨h.catalog.symm, fun s => (h.recorded s).symm, h.quarantined.symm, h.disabled.symm⟩

theorem sameGround_of_context (layers : List Activation) (running : IdSet)
    (hrecorded : ∀ s, q.recorded? s = r.recorded? s)
    (hcontext : q.context = ({ r with layers, running } : Requirements).context) : r.SameGround q :=
  ⟨(catalog_eq_of_context hcontext).trans rfl, hrecorded, (quarantined_eq_of_context hcontext).trans rfl,
    (eq_of_context (f := Requirements.disabled) (fun _ => rfl) hcontext).trans rfl⟩

theorem sameGround_taken (snapshot : Snapshot) (steps : Steps) : r.SameGround (r.commit snapshot steps).endPass.1 := by
  have hcommitted : r.SameGround (r.commit snapshot steps) :=
    sameGround_of_context r.layers _ (fun _ => recorded?_commit snapshot steps) (context_commit snapshot steps)
  exact ⟨hcommitted.catalog, hcommitted.recorded, hcommitted.quarantined, hcommitted.disabled⟩

theorem sameGround_stack {operation : Operation} (h : operation.StacksLayers) :
    r.SameGround (r.perform operation).1 := by
  cases operation with
  | addLayer layer allowDuplicate =>
      obtain ⟨changed, hcontext⟩ := context_addLayer (r := r) layer allowDuplicate
      exact sameGround_of_context changed r.running (fun _ => (adjusts_addLayer layer allowDuplicate).recorded?_eq)
        hcontext
  | removeLayer layer all =>
      obtain ⟨changed, hcontext⟩ := context_removeLayer (r := r) layer all
      exact sameGround_of_context changed r.running (fun _ => (adjusts_removeLayer layer all).recorded?_eq) hcontext
  | _ => exact h.elim

/-- Where layers are active for both at the same time, the same is asked for. -/
theorem SameGround.snapshot_eq (h : r.SameGround q) (hr : r.UpToDate) (hq : q.UpToDate)
    (hlayers : ∀ l, q.hasLayer l = r.hasLayer l) (hrunning : q.running = r.running) : q.snapshot = r.snapshot := by
  have hsame : r.SameSituation q :=
    ⟨h.catalog, h.recorded, hlayers, fun _ => by rw [h.quarantined], h.disabled⟩
  have hresults : q.resultingSeverity = r.resultingSeverity := by
    funext s b
    exact hsame.resultingSeverity_eq s b
  have hseverities : q.standings.map (fun _ standing => standing.final) =
      r.standings.map (fun _ standing => standing.final) := by
    refine Table.ext fun s => ?_
    have hfinal : q.final? s = r.final? s := by
      rw [hq.final?_eq, hr.final?_eq, h.recorded, hresults]
    rw [Table.get?_map, Table.get?_map]
    exact hfinal
  rw [snapshot, h.catalog, hrunning, hseverities, snapshot]

/-! ## The same operations on layers -/

/-- Both are being applied to, every layer occurs equally often in both, and a change is noted in both or in neither. -/
structure Lockstep (r q : Requirements) : Prop where
  left : r.Stacked ∧ r.isApplying = true
  right : q.Stacked ∧ q.isApplying = true
  occurrences : ∀ l, q.occurrences l = r.occurrences l
  noted : q.wantsReapply = r.wantsReapply

theorem hasLayer_congr (hr : r.Stacked) (hq : q.Stacked) {l : Layer} (h : q.occurrences l = r.occurrences l) :
    q.hasLayer l = r.hasLayer l := by
  refine Bool.eq_iff_iff.mpr ?_
  rw [hq.hasLayer_iff, hr.hasLayer_iff, h]

theorem isApplying_stack (happlying : r.isApplying = true) {operation : Operation} (h : operation.StacksLayers) :
    (r.perform operation).1.isApplying = true := by
  cases operation with
  | addLayer layer allowDuplicate =>
      obtain ⟨changed, hcontext⟩ := context_addLayer (r := r) layer allowDuplicate
      exact (isApplying_eq_of_context hcontext).trans happlying
  | removeLayer layer all =>
      obtain ⟨changed, hcontext⟩ := context_removeLayer (r := r) layer all
      exact (isApplying_eq_of_context hcontext).trans happlying
  | _ => exact h.elim

theorem Lockstep.perform (h : r.Lockstep q) {operation : Operation} (hstacks : operation.StacksLayers) :
    (r.perform operation).1.Lockstep (q.perform operation).1 := by
  obtain ⟨hr, happlying⟩ := h.left
  obtain ⟨hq, happlying'⟩ := h.right
  refine ⟨⟨hr.perform operation, isApplying_stack happlying hstacks⟩,
    ⟨hq.perform operation, isApplying_stack happlying' hstacks⟩, ?_, ?_⟩
  · intro l
    cases operation with
    | addLayer layer allowDuplicate =>
        cases allowDuplicate with
        | false => exact hstacks.elim
        | true => exact (occurrences_addLayer layer l).trans (by rw [h.occurrences, ← occurrences_addLayer]; rfl)
    | removeLayer layer all =>
        cases all with
        | true => exact hstacks.elim
        | false => exact (occurrences_removeLayer layer l).trans (by rw [h.occurrences, ← occurrences_removeLayer]; rfl)
    | _ => exact hstacks.elim
  · cases operation with
    | addLayer layer allowDuplicate =>
        cases allowDuplicate with
        | false => exact hstacks.elim
        | true => exact (noted_addLayer happlying' layer).trans (noted_addLayer happlying layer).symm
    | removeLayer layer all =>
        have hactive := hasLayer_congr hr hq (h.occurrences layer)
        refine (wantsReapply_removeLayer happlying' layer all).trans ?_
        rw [hactive, h.noted]
        exact (wantsReapply_removeLayer happlying layer all).symm
    | _ => exact hstacks.elim

theorem Lockstep.performAll (h : r.Lockstep q) {operations : List Operation}
    (hstacks : ∀ operation ∈ operations, operation.StacksLayers) :
    (r.performAll operations).Lockstep (q.performAll operations) := by
  induction operations generalizing r q with
  | nil => exact h
  | cons operation rest ih =>
      exact ih (h.perform (hstacks operation List.mem_cons_self))
        (fun other hother => hstacks other (List.mem_cons_of_mem operation hother))

end Requirements

end Orchestrator
