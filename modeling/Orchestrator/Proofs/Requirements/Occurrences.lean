import Mathlib.Data.List.Nodup
import Orchestrator.Proofs.Requirements.Notice
import Orchestrator.Proofs.Requirements.Reach
/-!
How often each layer is active. Adding a layer and taking it away count for this layer alone, and taking away one that
is not active does nothing. In all that can be reached each active layer is listed once, with a count that is not zero,
so that a layer is active exactly if it occurs.
-/

namespace Orchestrator

/-- The operation is not about layers. -/
def Operation.LeavesLayers : Operation → Prop
  | .addLayer _ _ => False
  | .removeLayer _ _ => False
  | .replaceLayer _ _ => False
  | _ => True

namespace Requirements

variable {r q : Requirements} {k l : Layer} {layers : List Activation}

theorem layers_eq_of_context (h : q.context = r.context) : q.layers = r.layers :=
  eq_of_context (f := Requirements.layers) (fun _ => rfl) h

theorem occurrences_eq_of_context (h : q.context = r.context) : q.occurrences k = r.occurrences k :=
  eq_of_context (f := fun q => q.occurrences k) (fun _ => rfl) h

theorem layers_perform {operation : Operation} (h : operation.LeavesLayers) :
    (r.perform operation).1.layers = r.layers := by
  cases operation with
  | addLayer layer allowDuplicate => exact h.elim
  | removeLayer layer all => exact h.elim
  | replaceLayer old new => exact h.elim
  | editSettings settings => rfl
  | configurationChanged subjects => exact layers_eq_of_context (context_configurationChanged subjects)
  | setResolver resolver => exact (layers_eq_of_context (context_setResolver resolver)).trans rfl
  | refreshCatalog catalog => exact (layers_eq_of_context (context_refreshCatalog catalog)).trans rfl
  | setDisabled disabled => exact (layers_eq_of_context (context_setDisabled disabled)).trans rfl
  | recordFailure id message => exact (layers_eq_of_context (context_recordFailure id message)).trans rfl
  | clearFailure id => exact (layers_eq_of_context (context_clearFailure id)).trans rfl
  | markRunning id running =>
      obtain ⟨changed, hcontext⟩ := context_markRunning (r := r) id running
      exact (layers_eq_of_context hcontext).trans rfl

theorem layers_commit (snapshot : Snapshot) (steps : Steps) : (r.commit snapshot steps).layers = r.layers :=
  (layers_eq_of_context (context_commit snapshot steps)).trans rfl

theorem occurrences_congr (h : q.layers = r.layers) : q.occurrences k = r.occurrences k := by
  rw [occurrences, h, occurrences]

/-! ## Counts -/

theorem find?_eq_none (h : r.hasLayer k = false) : r.layers.find? (fun a => a.layer == k) = none := by
  rw [List.find?_eq_none]
  intro a ha hk
  have hactive : r.hasLayer k = true := List.any_eq_true.mpr ⟨a, ha, hk⟩
  rw [h] at hactive
  cases hactive

theorem occurrences_of_inactive (h : r.hasLayer k = false) : r.occurrences k = 0 := by
  rw [occurrences, find?_eq_none h, Option.map_none, Option.getD_none]

theorem find?_recount (f : Nat → Nat) :
    (recount layers l f).find? (fun a => a.layer == k) =
      (layers.find? (fun a => a.layer == k)).map
        (fun a => if a.layer == l then { a with count := f a.count } else a) := by
  have hlayer : ((fun a => a.layer == k) ∘ fun a : Activation =>
      if a.layer == l then { a with count := f a.count } else a) = fun a => a.layer == k := by
    funext a
    rw [Function.comp_apply]
    split
    · rfl
    · rfl
  rw [recount, List.find?_map, hlayer]

theorem occurrences_recount (f : Nat → Nat) (hl : r.hasLayer l = true) :
    ({ r with layers := recount r.layers l f } : Requirements).occurrences k =
      if k = l then f (r.occurrences k) else r.occurrences k := by
  rw [occurrences, find?_recount, Option.map_map, occurrences]
  cases hfound : r.layers.find? (fun a => a.layer == k) with
  | none =>
      have hne : k ≠ l := by
        rintro rfl
        obtain ⟨a, ha, hk⟩ := List.any_eq_true.mp hl
        exact List.find?_eq_none.mp hfound a ha hk
      rw [if_neg hne]
      rfl
  | some a =>
      have hk : a.layer = k := by simpa using List.find?_some hfound
      by_cases hkl : k = l
      · simp [hk, hkl]
      · simp [hk, hkl]

theorem occurrences_append_new (count : Nat) (hl : r.hasLayer l = false) :
    ({ r with layers := r.layers ++ [Activation.mk l count] } : Requirements).occurrences k =
      if k = l then count else r.occurrences k := by
  rw [occurrences, List.find?_append]
  by_cases hkl : k = l
  · subst hkl
    rw [find?_eq_none hl, if_pos rfl]
    simp
  · have hne : ¬ l = k := fun h => hkl h.symm
    rw [if_neg hkl, occurrences]
    simp [hne]

theorem occurrences_withoutLayer :
    ({ r with layers := withoutLayer r.layers l } : Requirements).occurrences k =
      if k = l then 0 else r.occurrences k := by
  rw [occurrences, withoutLayer, List.find?_filter]
  by_cases hkl : k = l
  · subst hkl
    rw [if_pos rfl, List.find?_eq_none.mpr]
    · rfl
    · intro a _ ha
      simp at ha
  · rw [if_neg hkl, occurrences]
    congr 3
    funext a
    by_cases ha : a.layer = k
    · simp [ha, hkl]
    · simp [ha]

theorem occurrences_addLayer (l k : Layer) :
    (r.addLayer l true).1.occurrences k = r.occurrences k + if k = l then 1 else 0 := by
  unfold addLayer
  split
  next hl =>
    rw [if_pos rfl, occurrences_eq_of_context context_touch, occurrences_recount (· + 1) hl]
    split
    · rfl
    · rfl
  next hl =>
    have hinactive : r.hasLayer l = false := eq_false_of_ne_true hl
    rw [occurrences_eq_of_context (context_touch.trans context_recomputeAll), occurrences_append_new 1 hinactive]
    split
    next hkl => rw [hkl, occurrences_of_inactive hinactive]
    next => rfl

theorem occurrences_removeLayer (l k : Layer) :
    (r.removeLayer l false).1.occurrences k = r.occurrences k - if k = l then 1 else 0 := by
  unfold removeLayer
  cases hl : r.hasLayer l with
  | false =>
      by_cases hkl : k = l
      · simp [hkl, occurrences_of_inactive hl]
      · simp [hkl]
  | true =>
      by_cases hmany : 1 < r.occurrences l
      · simp only [Bool.not_true, Bool.not_false, Bool.false_eq_true, hmany, decide_true, Bool.and_self, if_true,
          if_false]
        rw [occurrences_eq_of_context context_touch, occurrences_recount (· - 1) hl]
        split
        · rfl
        · rfl
      · simp only [Bool.not_true, Bool.not_false, Bool.false_eq_true, hmany, decide_false, Bool.and_false, if_false]
        rw [occurrences_eq_of_context (context_touch.trans context_recomputeAll), occurrences_withoutLayer]
        split
        next hkl =>
          rw [hkl]
          omega
        next => rfl

theorem occurrences_addAll (layers : List Layer) (r : Requirements) (k : Layer) :
    (r.performAll (layers.map (.addLayer · true))).occurrences k = r.occurrences k + layers.count k := by
  induction layers generalizing r with
  | nil => rfl
  | cons l rest ih =>
      have hstep : (r.performAll ((l :: rest).map (.addLayer · true))).occurrences k =
          (r.addLayer l true).1.occurrences k + rest.count k := ih (r.addLayer l true).1
      rw [hstep, occurrences_addLayer, List.count_cons]
      simp only [beq_iff_eq, eq_comm (a := l)]
      omega

theorem occurrences_removeAll (layers : List Layer) (r : Requirements) (k : Layer) :
    (r.performAll (layers.map (.removeLayer · false))).occurrences k = r.occurrences k - layers.count k := by
  induction layers generalizing r with
  | nil => rfl
  | cons l rest ih =>
      have hstep : (r.performAll ((l :: rest).map (.removeLayer · false))).occurrences k =
          (r.removeLayer l false).1.occurrences k - rest.count k := ih (r.removeLayer l false).1
      rw [hstep, occurrences_removeLayer, List.count_cons]
      simp only [beq_iff_eq, eq_comm (a := l)]
      omega

/-! ## Active layers -/

/-- Each active layer is listed once, with a count that is not zero. -/
structure Stacked (r : Requirements) : Prop where
  nodup : (r.layers.map Activation.layer).Nodup
  counted : ∀ a ∈ r.layers, 0 < a.count

theorem Stacked.of_eq (h : r.Stacked) (hlayers : q.layers = r.layers) : q.Stacked := by
  constructor
  · rw [hlayers]
    exact h.nodup
  · rw [hlayers]
    exact h.counted

theorem Stacked.occurrences_eq (h : r.Stacked) {a : Activation} (ha : a ∈ r.layers) :
    r.occurrences a.layer = a.count := by
  have hfound : r.layers.find? (fun b => b.layer == a.layer) = some a := by
    obtain ⟨b, hb⟩ := Option.isSome_iff_exists.mp
      (List.find?_isSome.mpr ⟨a, ha, beq_self_eq_true a.layer⟩ :
        (r.layers.find? (fun b => b.layer == a.layer)).isSome = true)
    have hsame : b.layer = a.layer := by simpa using List.find?_some hb
    rw [hb, List.inj_on_of_nodup_map h.nodup (List.mem_of_find?_eq_some hb) ha hsame]
  rw [occurrences, hfound, Option.map_some, Option.getD_some]

theorem Stacked.hasLayer_iff (h : r.Stacked) : r.hasLayer k = true ↔ 0 < r.occurrences k := by
  constructor
  · intro hk
    obtain ⟨a, ha, rfl⟩ := Requirements.hasLayer_iff.mp hk
    rw [h.occurrences_eq ha]
    exact h.counted a ha
  · intro hpos
    by_contra hk
    rw [occurrences_of_inactive (eq_false_of_ne_true hk)] at hpos
    exact Nat.lt_irrefl 0 hpos

theorem map_layer_recount (f : Nat → Nat) :
    (recount layers l f).map Activation.layer = layers.map Activation.layer := by
  rw [recount, List.map_map]
  congr 1
  funext a
  rw [Function.comp_apply]
  split
  · rfl
  · rfl

theorem Stacked.recount (h : r.Stacked) {f : Nat → Nat} (hf : r.hasLayer l = true → 0 < f (r.occurrences l)) :
    ({ r with layers := Requirements.recount r.layers l f } : Requirements).Stacked := by
  constructor
  · exact (map_layer_recount f).symm ▸ h.nodup
  · intro a ha
    obtain ⟨b, hb, rfl⟩ := List.mem_map.mp ha
    split
    next hlayer =>
      obtain rfl : b.layer = l := by simpa using hlayer
      rw [h.occurrences_eq hb] at hf
      exact hf (Requirements.hasLayer_iff.mpr ⟨b, hb, rfl⟩)
    next => exact h.counted b hb

theorem Stacked.append_new (h : r.Stacked) {count : Nat} (hl : r.hasLayer l = false) (hcount : 0 < count) :
    ({ r with layers := r.layers ++ [Activation.mk l count] } : Requirements).Stacked := by
  constructor
  · rw [List.map_append, List.nodup_append]
    refine ⟨h.nodup, List.nodup_singleton l, ?_⟩
    rintro other hother _ hsingle rfl
    obtain ⟨a, ha, rfl⟩ := List.mem_map.mp hother
    have hactive : r.hasLayer l = true :=
      Requirements.hasLayer_iff.mpr ⟨a, ha, List.mem_singleton.mp hsingle⟩
    rw [hl] at hactive
    cases hactive
  · intro a ha
    rcases List.mem_append.mp ha with hold | hnew
    · exact h.counted a hold
    · rw [List.mem_singleton.mp hnew]
      exact hcount

theorem Stacked.withoutLayer (h : r.Stacked) (l : Layer) :
    ({ r with layers := Requirements.withoutLayer r.layers l } : Requirements).Stacked :=
  ⟨h.nodup.sublist (List.filter_sublist.map _), fun a ha => h.counted a (List.mem_filter.mp ha).1⟩

theorem Stacked.addLayer (h : r.Stacked) (l : Layer) (allowDuplicate : Bool) :
    (r.addLayer l allowDuplicate).1.Stacked := by
  unfold Requirements.addLayer
  split
  next hl =>
    split
    · exact (h.recount (fun _ => Nat.succ_pos _)).of_eq (layers_eq_of_context context_touch)
    · exact h
  next hl =>
    exact (h.append_new (eq_false_of_ne_true hl) Nat.one_pos).of_eq
      (layers_eq_of_context (context_touch.trans context_recomputeAll))

theorem Stacked.removeLayer (h : r.Stacked) (l : Layer) (all : Bool) : (r.removeLayer l all).1.Stacked := by
  unfold Requirements.removeLayer
  split
  · exact h
  · split
    next hmany =>
      have hmore : 1 < r.occurrences l := of_decide_eq_true (Bool.and_eq_true_iff.mp hmany).2
      exact (h.recount (f := (· - 1)) (fun _ => Nat.sub_pos_of_lt hmore)).of_eq (layers_eq_of_context context_touch)
    next => exact (h.withoutLayer l).of_eq (layers_eq_of_context (context_touch.trans context_recomputeAll))

theorem Stacked.replaceLayer (h : r.Stacked) (old new : Layer) : (r.replaceLayer old new).1.Stacked := by
  unfold Requirements.replaceLayer
  cases hold : r.hasLayer old with
  | false => exact h
  | true =>
      have hcount : 0 < r.occurrences old := h.hasLayer_iff.mp hold
      have hrest := h.withoutLayer old
      simp only [Bool.not_true, Bool.false_eq_true, if_false]
      split
      · exact h
      · refine Stacked.of_eq ?_ (layers_eq_of_context (context_touch.trans context_recomputeAll))
        split
        · exact hrest.recount (l := new) (fun _ => Nat.add_pos_right _ hcount)
        next hnew => exact hrest.append_new (eq_false_of_ne_true hnew) hcount

theorem Stacked.perform (h : r.Stacked) (operation : Operation) : (r.perform operation).1.Stacked := by
  cases operation with
  | addLayer layer allowDuplicate => exact h.addLayer layer allowDuplicate
  | removeLayer layer all => exact h.removeLayer layer all
  | replaceLayer old new => exact h.replaceLayer old new
  | _ => exact h.of_eq (layers_perform (by exact True.intro))

theorem stacked_initial (catalog : Catalog) (settings : Settings) (resolver : Resolver) :
    (initial catalog settings resolver).Stacked := by
  refine Stacked.of_eq ?_ (layers_eq_of_context context_trackAll)
  exact ⟨List.nodup_nil, fun _ hnone => (List.not_mem_nil hnone).elim⟩

theorem Stacked.after (h : r.Stacked) (e : Occurrence) : (r.after e).Stacked := by
  cases e with
  | asked operation => exact h.perform operation
  | passCommits snapshot steps => exact h.of_eq (layers_commit snapshot steps)
  | _ => exact ⟨h.nodup, h.counted⟩

theorem ReachedOver.stacked {P : Catalog → Prop} (h : r.ReachedOver P) : r.Stacked :=
  h.induction (fun catalog settings resolver _ => stacked_initial catalog settings resolver)
    (fun _ e _ hr => hr.after e)

/-! ## Notice -/

/-- To add a layer is always news. -/
theorem noted_addLayer (happlying : r.isApplying = true) (l : Layer) : (r.addLayer l true).1.wantsReapply = true := by
  unfold addLayer
  split
  · exact noted_touch happlying
  · exact noted_touch ((isApplying_eq_of_context context_recomputeAll).trans happlying)

/-- To take a layer away is news just if it was active. -/
theorem wantsReapply_removeLayer (happlying : r.isApplying = true) (l : Layer) (all : Bool) :
    (r.removeLayer l all).1.wantsReapply = (r.hasLayer l || r.wantsReapply) := by
  unfold removeLayer
  cases hl : r.hasLayer l with
  | false => rfl
  | true =>
      simp only [Bool.not_true, Bool.false_eq_true, if_false, Bool.true_or]
      split
      · exact noted_touch happlying
      · exact noted_touch ((isApplying_eq_of_context context_recomputeAll).trans happlying)

end Requirements

end Orchestrator
