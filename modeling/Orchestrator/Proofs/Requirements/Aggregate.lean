import Orchestrator.Proofs.Catalog
import Orchestrator.Requirements
/-!
The aggregate: which severity results for a subject of a given baseline. Of the layers only it matters which are
active, not their order nor how many times each was added, and a layer concerns the subjects that it mentions.
-/

namespace Orchestrator

namespace Severity

theorem foldl_join_attained (demands : List Severity) (baseline : Severity) :
    demands.foldl join baseline = baseline ∨ demands.foldl join baseline ∈ demands := by
  induction demands generalizing baseline with
  | nil => exact .inl rfl
  | cons d rest ih =>
      rw [List.foldl_cons]
      cases ih (baseline.join d) with
      | inl heq =>
          rw [heq, join]
          split
          · exact .inr List.mem_cons_self
          · exact .inl rfl
      | inr hmem => exact .inr (List.mem_cons_of_mem d hmem)

theorem rank_le_foldl_join (demands : List Severity) (baseline : Severity) :
    baseline.rank ≤ (demands.foldl join baseline).rank ∧
      ∀ d ∈ demands, d.rank ≤ (demands.foldl join baseline).rank := by
  induction demands generalizing baseline with
  | nil => exact ⟨Nat.le_refl _, fun d hd => nomatch hd⟩
  | cons d rest ih =>
      obtain ⟨hjoin, hrest⟩ := ih (baseline.join d)
      rw [rank_join] at hjoin
      refine ⟨Nat.le_trans (Nat.le_max_left _ _) hjoin, ?_⟩
      intro other hother
      cases List.mem_cons.mp hother with
      | inl heq =>
          rw [heq]
          exact Nat.le_trans (Nat.le_max_right _ _) hjoin
      | inr hmem => exact hrest other hmem

end Severity

namespace Catalog

variable {c : Catalog} {s : Subject}

/-- Discovery knows the subject and found fault with it. -/
inductive Flags (c : Catalog) : Subject → Prop
  | component {id : String} {x : Component} : c.component? id = some x → x.error.isSome = true → Flags c (.component id)
  | service {id : String} {x : Service} : c.service? id = some x → x.error.isSome = true → Flags c (.service id)

theorem isUnavailable_iff (h : c.contains s = true) : c.isUnavailable s = true ↔ c.Flags s := by
  cases s with
  | component id =>
      obtain ⟨x, hx⟩ := Option.isSome_iff_exists.mp h
      have hget : c.component? id = some x := hx
      rw [isUnavailable, hget, Option.all_some]
      constructor
      · intro herror
        exact .component hget (by simpa [Component.isAvailable] using herror)
      · intro hflags
        cases hflags with
        | component hother herror =>
            cases hget.symm.trans hother
            simpa [Component.isAvailable] using herror
  | service id =>
      obtain ⟨x, hx⟩ := Option.isSome_iff_exists.mp h
      have hget : c.service? id = some x := hx
      rw [isUnavailable, hget, Option.all_some]
      constructor
      · intro herror
        exact .service hget (by simpa [Service.isAvailable] using herror)
      · intro hflags
        cases hflags with
        | service hother herror =>
            cases hget.symm.trans hother
            simpa [Service.isAvailable] using herror

end Catalog

namespace Layer

variable {l : Layer} {s : Subject}

theorem mem_subjects_of_severity? {demand : Severity} (h : l.severity? s = some demand) : s ∈ l.subjects := by
  refine Table.mem_subjects.mpr ?_
  rw [Table.contains, Option.isSome_iff_exists]
  exact ⟨demand, h⟩

end Layer

namespace Requirements

variable {r q : Requirements} {s : Subject} {b final : Severity} {l k : Layer} {layers : List Activation}

/-- Nothing may run on behalf of the subject, whatever is demanded of it. -/
inductive Veto (r : Requirements) : Subject → Prop
  | disabled {s : Subject} : r.disabled = true → Veto r s
  | quarantined {id : String} : r.quarantined.contains id = true → Veto r (.component id)
  | flagged {s : Subject} : r.catalog.Flags s → Veto r s

/-- The severity is the strongest of a baseline and of all that active layers demand for a subject. -/
structure IsStrongest (r : Requirements) (s : Subject) (baseline final : Severity) : Prop where
  attained : final = baseline ∨ ∃ l, r.hasLayer l = true ∧ l.severity? s = some final
  baseline_le : baseline.rank ≤ final.rank
  demand_le : ∀ l demand, r.hasLayer l = true → l.severity? s = some demand → demand.rank ≤ final.rank

theorem hasLayer_iff : r.hasLayer l = true ↔ ∃ a ∈ r.layers, a.layer = l := by
  simp [hasLayer]

theorem isStrongest_foldl_join (r : Requirements) (s : Subject) (b : Severity) :
    r.IsStrongest s b ((r.layers.filterMap (fun a => a.layer.severity? s)).foldl Severity.join b) := by
  obtain ⟨hbaseline, hdemands⟩ :=
    Severity.rank_le_foldl_join (r.layers.filterMap (fun a => a.layer.severity? s)) b
  refine ⟨?_, hbaseline, ?_⟩
  · cases Severity.foldl_join_attained (r.layers.filterMap (fun a => a.layer.severity? s)) b with
    | inl heq => exact .inl heq
    | inr hmem =>
        obtain ⟨a, ha, hdemand⟩ := List.mem_filterMap.mp hmem
        exact .inr ⟨a.layer, hasLayer_iff.mpr ⟨a, ha, rfl⟩, hdemand⟩
  · intro l demand hl hdemand
    obtain ⟨a, ha, rfl⟩ := hasLayer_iff.mp hl
    exact hdemands demand (List.mem_filterMap.mpr ⟨a, ha, hdemand⟩)

theorem IsStrongest.rank_le (h : r.IsStrongest s b final) {other : Severity} (k : q.IsStrongest s b other)
    (hlayers : ∀ l demand, l.severity? s = some demand → r.hasLayer l = true → q.hasLayer l = true) :
    final.rank ≤ other.rank := by
  cases h.attained with
  | inl heq =>
      rw [heq]
      exact k.baseline_le
  | inr hdemanded =>
      obtain ⟨l, hl, hdemand⟩ := hdemanded
      exact k.demand_le l final (hlayers l final hdemand hl) hdemand

/-- The layers that mention the subject decide together with its baseline which severity is the strongest. -/
theorem IsStrongest.unique (h : r.IsStrongest s b final) {other : Severity} (k : q.IsStrongest s b other)
    (hlayers : ∀ l demand, l.severity? s = some demand → q.hasLayer l = r.hasLayer l) : final = other := by
  refine Severity.rank_injective (Nat.le_antisymm (h.rank_le k ?_) (k.rank_le h ?_))
  · intro l demand hdemand hl
    rw [hlayers l demand hdemand]
    exact hl
  · intro l demand hdemand hl
    rw [← hlayers l demand hdemand]
    exact hl

/-- The test that is made before any demand is looked at. -/
def isVetoed (r : Requirements) (s : Subject) : Bool := r.disabled || r.isQuarantined s || r.catalog.isUnavailable s

theorem isVetoed_iff (h : r.catalog.contains s = true) : r.isVetoed s = true ↔ r.Veto s := by
  rw [isVetoed, Bool.or_eq_true, Bool.or_eq_true, Catalog.isUnavailable_iff h]
  constructor
  · intro hveto
    cases hveto with
    | inl hswitched =>
        cases hswitched with
        | inl hdisabled => exact .disabled hdisabled
        | inr hquarantined =>
            cases s with
            | component id => exact .quarantined hquarantined
            | service id => cases hquarantined
    | inr hflags => exact .flagged hflags
  · intro hveto
    cases hveto with
    | disabled hdisabled => exact .inl (.inl hdisabled)
    | quarantined hquarantined => exact .inl (.inr hquarantined)
    | flagged hflags => exact .inr hflags

theorem resultingSeverity_of_vetoed (h : r.isVetoed s = true) : r.resultingSeverity s b = .excluded := by
  rw [resultingSeverity]
  exact if_pos h

theorem resultingSeverity_isStrongest (h : r.isVetoed s = false) : r.IsStrongest s b (r.resultingSeverity s b) := by
  have hresult : r.resultingSeverity s b =
      (r.layers.filterMap (fun a => a.layer.severity? s)).foldl Severity.join b :=
    if_neg (Bool.not_eq_true _ ▸ h)
  rw [hresult]
  exact isStrongest_foldl_join r s b

theorem resultingSeverity_congr (hveto : q.isVetoed s = r.isVetoed s)
    (hlayers : ∀ l demand, l.severity? s = some demand → q.hasLayer l = r.hasLayer l) :
    q.resultingSeverity s b = r.resultingSeverity s b := by
  cases hr : r.isVetoed s with
  | true => rw [resultingSeverity_of_vetoed hr, resultingSeverity_of_vetoed (hveto.trans hr)]
  | false =>
      refine (resultingSeverity_isStrongest (hveto.trans hr)).unique (resultingSeverity_isStrongest hr) ?_
      intro l demand hdemand
      exact (hlayers l demand hdemand).symm

/-! ## Changes of the active layers -/

theorem any_recount (f : Nat → Nat) :
    (recount layers l f).any (fun a => a.layer == k) = layers.any (fun a => a.layer == k) := by
  rw [recount, List.any_map]
  congr 1
  funext a
  simp only [Function.comp_apply]
  split
  · rfl
  · rfl

theorem any_withoutLayer (h : k ≠ l) :
    (withoutLayer layers l).any (fun a => a.layer == k) = layers.any (fun a => a.layer == k) := by
  rw [withoutLayer, List.any_filter]
  congr 1
  funext a
  by_cases ha : a.layer = k
  · simp [ha, h]
  · simp [ha]

theorem any_append_new (h : k ≠ l) {count : Nat} :
    (layers ++ [Activation.mk l count]).any (fun a => a.layer == k) = layers.any (fun a => a.layer == k) := by
  simp [h.symm]

theorem ne_of_not_mem_subjects {demand : Severity} (hs : s ∉ l.subjects) (h : k.severity? s = some demand) : k ≠ l := by
  intro heq
  exact hs (heq ▸ Layer.mem_subjects_of_severity? h)

theorem mem_unionSubjects : s ∈ unionSubjects l k ↔ s ∈ l.subjects ∨ s ∈ k.subjects := by
  cases s with
  | component id => simp [unionSubjects, Layer.subjects, Table.subjects, ← IdSet.mem_def]
  | service id => simp [unionSubjects, Layer.subjects, Table.subjects, ← IdSet.mem_def]

end Requirements

end Orchestrator
