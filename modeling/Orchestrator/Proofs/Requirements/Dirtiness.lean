import Orchestrator.Proofs.Requirements.Adjustment
/-!
Dirtiness: the tally moves by one at a time and is never taken anew, and yet after every history it says exactly how
many subjects are dirty. Nothing ever tries to lower it when it is zero already.
-/

namespace Orchestrator

namespace Tally

variable {t : Tally} {standings : Table Standing} {s : Subject} {old new : Standing}

/-- The tally says how many standings are dirty, and it was never lowered below zero. -/
def Counts (t : Tally) (standings : Table Standing) : Prop :=
  t = ⟨standings.entries.countP (fun e => e.2.isDirty), false⟩

theorem Counts.track (h : t.Counts standings) (hnew : standings.get? s = none) (hdirty : new.isDirty = true) :
    t.raise.Counts (standings.insert s new) := by
  rw [Counts] at h ⊢
  rw [h, (Table.entries_insert_perm hnew).countP_eq, List.countP_cons, if_pos hdirty]
  rfl

theorem Counts.restand (h : t.Counts standings) (hold : standings.get? s = some old) :
    (t.shift old.isDirty new.isDirty).Counts (standings.insert s new) := by
  obtain ⟨rest, hbefore, hafter⟩ := Table.entries_insert_perm_of_get? new hold
  rw [Counts] at h ⊢
  rw [h, hbefore.countP_eq, hafter.countP_eq, List.countP_cons, List.countP_cons]
  cases old.isDirty with
  | false =>
      cases new.isDirty with
      | false => rfl
      | true => rfl
  | true =>
      cases new.isDirty with
      | false => rfl
      | true => rfl

theorem dropDirty_countP (n : Nat) (dropped : List (Subject × Standing)) :
    Requirements.dropDirty ⟨n + dropped.countP (fun e => e.2.isDirty), false⟩ dropped = ⟨n, false⟩ := by
  induction dropped with
  | nil => rfl
  | cons e rest ih =>
      rw [Requirements.dropDirty, List.foldl_cons, List.countP_cons]
      cases e.2.isDirty with
      | false => exact ih
      | true => exact ih

theorem Counts.drop (h : t.Counts standings) (p : Subject → Bool) :
    (Requirements.dropDirty t (standings.entries.filter (fun e => !p e.1))).Counts (standings.restrict p) := by
  have hsplit := List.countP_eq_countP_filter_add standings.entries (fun e => e.2.isDirty) (fun e => p e.1)
  rw [Counts] at h ⊢
  rw [h, hsplit, dropDirty_countP, Table.entries_restrict]

end Tally

namespace Requirements

variable {r : Requirements} {s : Subject} {f : Standing → Standing} {l : List Subject}

/-- The count of dirty subjects is right. -/
def Counted (r : Requirements) : Prop := r.tally.Counts r.standings

theorem Counted.touch (h : r.Counted) : r.touch.Counted := by
  unfold Requirements.touch
  split
  · exact h
  · exact h

theorem Counted.amend (h : r.Counted) : (r.amend s f).Counted := by
  cases hold : r.standings.get? s with
  | none =>
      rw [amend_of_none hold]
      exact h
  | some old =>
      rw [amend_of_some hold]
      exact h.restand hold

theorem Counted.recomputeAll (h : r.Counted) : (r.recomputeAll l).Counted := by
  refine List.foldlRecOn l recompute h fun q hq s _ => ?_
  rw [recompute_eq_amend]
  exact hq.amend

theorem Counted.settleAll (h : r.Counted) (severities : List (Subject × Severity)) :
    (severities.foldl settle r).Counted := by
  refine List.foldlRecOn severities settle h fun q hq e _ => ?_
  rw [settle_eq_amend]
  exact hq.amend

theorem Counted.reresolveAll {acc : Requirements × Bool} (h : acc.1.Counted) : (l.foldl reresolve acc).1.Counted := by
  refine List.foldlRecOn (motive := fun acc => acc.1.Counted) l reresolve h fun q hq s _ => ?_
  rw [reresolve_eq_amend]
  exact hq.amend

/-- Every new subject is dirty, so each of them counts. -/
theorem Counted.trackAll (h : r.Counted) (hl : l.Nodup) (hnew : ∀ s ∈ l, r.standings.get? s = none) :
    (l.foldl track r).Counted := by
  induction l generalizing r with
  | nil => exact h
  | cons s rest ih =>
      obtain ⟨hs, hrest⟩ := List.nodup_cons.mp hl
      refine ih (h.track (hnew s List.mem_cons_self) rfl) hrest ?_
      intro k hk
      have hne : k ≠ s := fun heq => hs (heq ▸ hk)
      rw [get?_track, if_neg hne]
      exact hnew k (List.mem_cons_of_mem s hk)

/-! ## Operations -/

theorem counted_initial (catalog : Catalog) (settings : Settings) (resolver : Resolver) :
    (initial catalog settings resolver).Counted :=
  Counted.trackAll rfl catalog.subjects_nodup (fun _ _ => Table.get?_empty)

theorem Counted.adjust {q : Requirements} (h : r.Counted) (hq : r.Adjusts q) : q.Counted := by
  cases hq with
  | idle => exact h
  | recomputes concerned others =>
      refine (Counted.recomputeAll ?_).touch
      exact h

theorem Counted.configurationChanged (h : r.Counted) (subjects : List Subject) :
    (r.configurationChanged subjects).Counted := by
  have hall : (subjects.foldl reresolve (r, false)).1.Counted := Counted.reresolveAll h
  unfold Requirements.configurationChanged
  simp only []
  split
  · exact hall.touch
  · exact hall

/-- Other baselines alone change nobody's dirtiness. -/
theorem Counted.setResolver (h : r.Counted) (resolver : Resolver) : (r.setResolver resolver).Counted := by
  refine (Counted.recomputeAll ?_).touch
  rw [Counted, Tally.Counts, Table.entries_map, List.countP_map]
  exact h

theorem Counted.refreshCatalog (h : r.Counted) (catalog : Catalog) : (r.refreshCatalog catalog).Counted := by
  refine (Counted.recomputeAll (Counted.trackAll ?_ ?_ ?_)).touch
  · exact h.drop catalog.contains
  · exact catalog.subjects_nodup.filter _
  · intro s hs
    have hnew := (List.mem_filter.mp hs).2
    simpa [Table.contains] using hnew

theorem Counted.commit (h : r.Counted) (snapshot : Snapshot) (steps : Steps) : (r.commit snapshot steps).Counted := by
  refine Counted.settleAll ?_ snapshot.severities.entries
  exact h

theorem Counted.after (h : r.Counted) (e : Occurrence) : (r.after e).Counted :=
  after_cases e (fun _ => h.adjust) (fun _ => h) h.configurationChanged h.setResolver h.refreshCatalog
    (fun _ => h) h h.commit h

theorem Counted.replay (h : r.Counted) (history : List Occurrence) : (r.replay history).Counted :=
  replay_invariant (P := Counted) (fun _ e hr => hr.after e) h history

theorem untouched_initial {catalog : Catalog} (settings : Settings) (resolver : Resolver) {s : Subject}
    {standing : Standing} (h : (initial catalog settings resolver).standings.get? s = some standing) :
    standing.applied = none := by
  rw [initial, get?_trackAll] at h
  split at h
  · cases h
    rfl
  · rw [Table.get?_empty] at h
    cases h

theorem Counted.isDirty_iff (h : r.Counted) : r.isDirty = true ↔
    ∃ s standing, r.standings.get? s = some standing ∧ standing.applied ≠ some standing.final := by
  have hcount : r.dirtyCount = r.standings.entries.countP (fun e => e.2.isDirty) := congrArg Tally.count h
  rw [isDirty, decide_eq_true_eq, hcount, List.countP_pos_iff]
  constructor
  · rintro ⟨⟨s, standing⟩, hmem, hdirty⟩
    exact ⟨s, standing, Table.mem_entries.mp hmem, bne_iff_ne.mp hdirty⟩
  · rintro ⟨s, standing, hget, hne⟩
    exact ⟨(s, standing), Table.mem_entries.mpr hget, bne_iff_ne.mpr hne⟩

/-- The count of dirty subjects is exact after every history and was never to be lowered below zero. In particular
something is left to do just when the final severity of some subject is not the one that was last dealt with. -/
theorem dirtyCount_exact (catalog : Catalog) (settings : Settings) (resolver : Resolver) (history : List Occurrence) :
    let r := (initial catalog settings resolver).replay history
    r.dirtyCount = r.standings.entries.countP (fun e => e.2.applied != some e.2.final) ∧ r.tally.isBroken = false ∧
      (r.isDirty = true ↔
        ∃ s standing, r.standings.get? s = some standing ∧ standing.applied ≠ some standing.final) := by
  intro r
  have h : r.Counted := (counted_initial catalog settings resolver).replay history
  exact ⟨congrArg Tally.count h, congrArg Tally.isBroken h, h.isDirty_iff⟩

end Requirements

end Orchestrator
