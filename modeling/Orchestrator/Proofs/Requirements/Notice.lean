import Orchestrator.Proofs.Requirements.Aggregation
/-!
Notice of changes. While a pass is being carried out no operation changes anything that the pass depends on without the
requirements taking note of it, and once taken the note stays. Only the store of settings and the answers of a resolver
may change unnoticed, and until somebody says so that has no effect.
-/

namespace Orchestrator

/-- It may happen while a pass is being carried out, before the outcome is taken over. -/
def Occurrence.IsMeanwhile : Occurrence → Prop
  | .asked _ => True
  | .contentChanges _ => True
  | _ => False

namespace Requirements

variable {r q : Requirements} {l : List Subject}

/-- Since they were as the first requirements are, the second ones took note of a change, or nothing has changed except
what the store of settings holds. -/
structure Noticed (r q : Requirements) : Prop where
  isApplying : q.isApplying = true
  unchanged_or_noted : (∃ settings, q = r.editSettings settings) ∨ q.wantsReapply = true

theorem Noticed.refl (h : r.isApplying = true) : r.Noticed r := ⟨h, .inl ⟨r.settings, rfl⟩⟩

theorem noted_touch (happlying : r.isApplying = true) : r.touch.wantsReapply = true := by
  rw [touch, if_pos happlying]

theorem Noticed.touch (h : q.context.isApplying = true) : r.Noticed q.touch where
  isApplying := (isApplying_eq_of_context context_touch).trans h
  unchanged_or_noted := .inr (noted_touch h)

theorem Noticed.unnoted (h : r.Noticed q) (hunnoted : q.wantsReapply = false) :
    ∃ settings, q = r.editSettings settings :=
  h.unchanged_or_noted.resolve_right (hunnoted ▸ Bool.false_ne_true)

/-- Whoever is noticed to have changed nothing in the end was so all along. -/
theorem Noticed.wantsReapply_eq_false (h : r.Noticed q) (hunnoted : q.wantsReapply = false) :
    r.wantsReapply = false := by
  obtain ⟨settings, rfl⟩ := h.unnoted hunnoted
  exact hunnoted

theorem Noticed.trans {p : Requirements} (h : r.Noticed q) (h' : q.Noticed p) : r.Noticed p := by
  refine ⟨h'.isApplying, ?_⟩
  rcases h'.unchanged_or_noted with ⟨settings, rfl⟩ | hnoted
  · rcases h.unchanged_or_noted with ⟨earlier, rfl⟩ | hnoted
    · exact .inl ⟨settings, rfl⟩
    · exact .inr hnoted
  · exact .inr hnoted

/-! ## Operations -/

theorem Adjusts.noticed (h : r.Adjusts q) (happlying : r.isApplying = true) : r.Noticed q := by
  cases h with
  | idle => exact .refl happlying
  | recomputes concerned others =>
      refine .touch ?_
      rw [context_recomputeAll]
      exact happlying

theorem reresolve_unchanged_or_flagged (acc : Requirements × Bool) (s : Subject) :
    reresolve acc s = acc ∨ (reresolve acc s).2 = true := by
  unfold reresolve
  simp only []
  split
  · exact .inl rfl
  · split
    · exact .inl rfl
    · exact .inr rfl

theorem reresolveAll_flagged {acc : Requirements × Bool} (h : acc.2 = true) :
    (l.foldl reresolve acc).2 = true := by
  induction l generalizing acc with
  | nil => exact h
  | cons s rest ih =>
      refine ih ?_
      rcases reresolve_unchanged_or_flagged acc s with hsame | hflagged
      · rw [hsame]
        exact h
      · exact hflagged

theorem reresolveAll_unchanged_or_flagged (acc : Requirements × Bool) :
    l.foldl reresolve acc = acc ∨ (l.foldl reresolve acc).2 = true := by
  induction l generalizing acc with
  | nil => exact .inl rfl
  | cons s rest ih =>
      rw [List.foldl_cons]
      rcases reresolve_unchanged_or_flagged acc s with hsame | hflagged
      · rw [hsame]
        exact ih acc
      · exact .inr (reresolveAll_flagged hflagged)

theorem noticed_configurationChanged (h : r.isApplying = true) (subjects : List Subject) :
    r.Noticed (r.configurationChanged subjects) := by
  unfold configurationChanged
  simp only []
  split
  next =>
    refine .touch ?_
    rw [context_reresolveAll]
    exact h
  next hflag =>
    -- Without the flag no answer was another one, and then nothing was recorded.
    have hsame := (reresolveAll_unchanged_or_flagged (l := subjects) (r, false)).resolve_right hflag
    rw [hsame]
    exact .refl h

theorem noticed_setResolver (h : r.isApplying = true) (resolver : Resolver) :
    r.Noticed (r.setResolver resolver) := by
  refine .touch ?_
  rw [context_recomputeAll]
  exact h

theorem noticed_refreshCatalog (h : r.isApplying = true) (catalog : Catalog) :
    r.Noticed (r.refreshCatalog catalog) := by
  refine .touch ?_
  rw [context_recomputeAll, context_trackAll]
  exact h

theorem noticed_perform (h : r.isApplying = true) (operation : Operation) :
    r.Noticed (r.perform operation).1 :=
  perform_cases operation (fun _ hq => hq.noticed h) (fun settings => ⟨h, .inl ⟨settings, rfl⟩⟩)
    (noticed_configurationChanged h) (noticed_setResolver h) (noticed_refreshCatalog h)

/-! ## The time of a pass -/

/-- Nothing is different but what the resolver would answer if it were asked. -/
def Unmoved (r q : Requirements) : Prop := ∃ settings resolver, q = { r with settings, resolver }

theorem isApplying_after (h : r.isApplying = true) {e : Occurrence} (he : e.IsMeanwhile) :
    (r.after e).isApplying = true := by
  cases e with
  | asked operation => exact (noticed_perform h operation).isApplying
  | contentChanges resolver => exact h
  | _ => exact he.elim

theorem unmoved_after (h : r.isApplying = true) {e : Occurrence} (he : e.IsMeanwhile)
    (hunnoted : (r.after e).wantsReapply = false) : r.Unmoved (r.after e) := by
  cases e with
  | asked operation =>
      obtain ⟨settings, hsame⟩ := (noticed_perform h operation).unnoted hunnoted
      exact ⟨settings, r.resolver, hsame⟩
  | contentChanges resolver => exact ⟨r.settings, resolver, rfl⟩
  | _ => exact he.elim

/-- What is not noted in the end was not noted before, so that the induction starts from the last occurrence. -/
theorem unmoved_replay {history : List Occurrence} (h : r.isApplying = true)
    (hmeanwhile : ∀ e ∈ history, e.IsMeanwhile) (hunnoted : (r.replay history).wantsReapply = false) :
    r.Unmoved (r.replay history) := by
  induction history generalizing r with
  | nil => exact ⟨r.settings, r.resolver, rfl⟩
  | cons e rest ih =>
      have he : e.IsMeanwhile := hmeanwhile e List.mem_cons_self
      have hrest : (r.after e).Unmoved (r.replay (e :: rest)) :=
        ih (isApplying_after h he) (fun other hother => hmeanwhile other (List.mem_cons_of_mem e hother)) hunnoted
      obtain ⟨settings, resolver, hlast⟩ := hrest
      rw [hlast] at hunnoted
      obtain ⟨earlier, before, hfirst⟩ := unmoved_after h he hunnoted
      rw [hlast, hfirst]
      exact ⟨settings, resolver, rfl⟩

/-- A pass that ends without notice of a change leaves what it found when it began, whatever was asked for meanwhile and
however the answers of the resolver changed: the same exists, the same layers are active equally often and in the same
order, the same subjects stand as they stood, the same runs, is quarantined and is switched off. -/
theorem unnoted_unmoved (r : Requirements) {history : List Occurrence} (hmeanwhile : ∀ e ∈ history, e.IsMeanwhile)
    (hunnoted : (r.beginPass.replay history).endPass.2 = false) :
    let begun := r.beginPass
    let left := begun.replay history
    left.catalog = begun.catalog ∧ left.layers = begun.layers ∧ left.standings = begun.standings ∧
      left.running = begun.running ∧ left.quarantined = begun.quarantined ∧ left.disabled = begun.disabled ∧
      left.tally = begun.tally := by
  intro begun left
  have hbegun : begun.isApplying = true := rfl
  obtain ⟨settings, resolver, hleft⟩ := unmoved_replay hbegun hmeanwhile hunnoted
  have hsame : left = { begun with settings, resolver } := hleft
  rw [hsame]
  exact ⟨rfl, rfl, rfl, rfl, rfl, rfl, rfl⟩

/-- Much is asked for in the evening, and none of it is news. -/
def smallTalk : List Occurrence :=
  [.asked (.addLayer evening false), .asked (.replaceLayer evening evening),
    .asked (.removeLayer ⟨"holiday", .empty⟩ true), .asked (.setDisabled false), .asked (.clearFailure "lamp"),
    .asked (.markRunning "lamp" false), .asked (.markRunning "ghost" true), .contentChanges .silent,
    .asked (.configurationChanged [.component "lamp", .component "lamp"])]

theorem unnoted_unmoved_evening :
    (∀ e ∈ smallTalk, e.IsMeanwhile) ∧
      ((hallway.addLayer evening false).1.beginPass.replay smallTalk).endPass.2 = false ∧
      ((hallway.addLayer evening false).1.beginPass.replay smallTalk).layers = [⟨evening, 1⟩] := by
  have hmeanwhile : ∀ e ∈ smallTalk, e.IsMeanwhile := by
    simp [smallTalk, Occurrence.IsMeanwhile]
  have hunnoted : ((hallway.addLayer evening false).1.beginPass.replay smallTalk).endPass.2 = false := by
    decide +kernel
  obtain ⟨-, hlayers, -⟩ := unnoted_unmoved (hallway.addLayer evening false).1 hmeanwhile hunnoted
  exact ⟨hmeanwhile, hunnoted, hlayers⟩

end Requirements

end Orchestrator
