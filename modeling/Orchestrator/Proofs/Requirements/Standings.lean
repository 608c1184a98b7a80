import Orchestrator.Proofs.Catalog
import Orchestrator.Proofs.Requirements.History
import Orchestrator.Proofs.Table
/-!
Standings: what each step of an operation leaves on record for each subject. Operations first change the context, which
is all that the final severity of a subject depends on besides its baseline, and then track new subjects and amend the
standings of those that are concerned.
-/

namespace Orchestrator

namespace Tally

theorem shift_self {t : Tally} {dirty : Bool} : t.shift dirty dirty = t := by
  cases dirty with
  | false => rfl
  | true => rfl

end Tally

namespace Requirements

variable {r : Requirements} {s k : Subject} {f : Standing → Standing}

/-! ## Amendments -/

/-- Changes the standing of a subject, if there is one. -/
def amend (r : Requirements) (s : Subject) (f : Standing → Standing) : Requirements :=
  match r.standings.get? s with
  | none => r
  | some old => r.restand s old (f old)

theorem amend_of_none (h : r.standings.get? s = none) : r.amend s f = r := by
  rw [amend, h]

theorem amend_of_some {old : Standing} (h : r.standings.get? s = some old) :
    r.amend s f = r.restand s old (f old) := by
  rw [amend, h]

/-- A standing with its final severity worked out anew. -/
def renewed (r : Requirements) (s : Subject) (old : Standing) : Standing :=
  { old with final := r.resultingSeverity s old.baseline }

/-- The standing of a subject once the resolver was asked anew about it. An answer that is the same as before leaves
the final severity alone as well. -/
def reviewed (r : Requirements) (s : Subject) (old : Standing) : Standing :=
  if old.baseline = r.baseline s then old else r.renewed s { old with baseline := r.baseline s }

theorem recompute_eq_amend : r.recompute s = r.amend s (r.renewed s) := rfl

theorem settle_eq_amend {e : Subject × Severity} :
    r.settle e = r.amend e.1 (fun old => { old with applied := some e.2 }) := rfl

theorem reresolve_eq_amend {changed : Bool} : (reresolve (r, changed) s).1 = r.amend s (r.reviewed s) := by
  cases hold : r.standings.get? s with
  | none =>
      rw [amend_of_none hold]
      simp only [reresolve, hold]
  | some old =>
      rw [amend_of_some hold]
      simp only [reresolve, hold]
      by_cases hsame : old.baseline = r.baseline s
      · rw [if_pos hsame, restand, reviewed, if_pos hsame, Table.insert_eq_self hold, Tally.shift_self]
      · have hget : (r.standings.insert s { old with baseline := r.baseline s }).get? s =
            some { old with baseline := r.baseline s } := by
          rw [Table.get?_insert, if_pos rfl]
        rw [if_neg hsame, reviewed, if_neg hsame, recompute_eq_amend, amend_of_some hget]
        simp only [restand, Table.insert_insert]
        rfl

theorem get?_amend : (r.amend s f).standings.get? k =
    if k = s then (r.standings.get? k).map f else r.standings.get? k := by
  cases hold : r.standings.get? s with
  | none =>
      rw [amend_of_none hold]
      split
      next hk => rw [hk, hold, Option.map_none]
      next => rfl
  | some old =>
      rw [amend_of_some hold, restand, Table.get?_insert]
      split
      next hk => rw [hk, hold, Option.map_some]
      next => rfl

/-- What an amendment does not touch in the standing itself it touches nowhere. -/
theorem map_get?_amend {α : Type} {g : Standing → α} (hf : ∀ old, g (f old) = g old) :
    ((r.amend s f).standings.get? k).map g = (r.standings.get? k).map g := by
  have hsame : g ∘ f = g := funext hf
  rw [get?_amend]
  split
  · rw [Option.map_map, hsame]
  · rfl

theorem map_get?_recomputeAll {α : Type} {g : Standing → α} (hg : ∀ old final, g { old with final } = g old)
    {l : List Subject} : ((r.recomputeAll l).standings.get? k).map g = (r.standings.get? k).map g := by
  induction l generalizing r with
  | nil => rfl
  | cons s rest ih =>
      refine ih.trans ?_
      rw [recompute_eq_amend]
      exact map_get?_amend (fun old => hg old _)

/-! ## Context -/

/-- The requirements without what they keep for each subject and without the wish for a reapply: all that decides how
a subject of a given baseline stands. -/
def context (r : Requirements) : Requirements :=
  { r with standings := .empty, tally := .zero, wantsReapply := false }

/-- What only looks at the context is the same in the same context. -/
theorem eq_of_context {α : Type} {f : Requirements → α} (hf : ∀ r : Requirements, f r.context = f r)
    {q : Requirements} (h : q.context = r.context) : f q = f r := by
  rw [← hf q, h, hf r]

section Fields

variable {q : Requirements} (h : q.context = r.context)
include h

theorem catalog_eq_of_context : q.catalog = r.catalog := eq_of_context (f := Requirements.catalog) (fun _ => rfl) h

theorem running_eq_of_context : q.running = r.running := eq_of_context (f := Requirements.running) (fun _ => rfl) h

theorem quarantined_eq_of_context : q.quarantined = r.quarantined :=
  eq_of_context (f := Requirements.quarantined) (fun _ => rfl) h

theorem isApplying_eq_of_context : q.isApplying = r.isApplying :=
  eq_of_context (f := Requirements.isApplying) (fun _ => rfl) h

theorem baseline_eq_of_context (s : Subject) : q.baseline s = r.baseline s :=
  eq_of_context (f := fun q => q.baseline s) (fun _ => rfl) h

theorem resultingSeverity_eq_of_context (s : Subject) (baseline : Severity) :
    q.resultingSeverity s baseline = r.resultingSeverity s baseline :=
  eq_of_context (f := fun q => q.resultingSeverity s baseline) (fun _ => rfl) h

end Fields

theorem context_foldl {α : Type} {f : Requirements → α → Requirements}
    (step : ∀ (r : Requirements) (x : α), (f r x).context = r.context) (l : List α) (r : Requirements) :
    (l.foldl f r).context = r.context := by
  induction l generalizing r with
  | nil => rfl
  | cons x rest ih => exact (ih (f r x)).trans (step r x)

theorem touch_eq : r.touch = { r with wantsReapply := r.isApplying || r.wantsReapply } := by
  unfold touch
  cases happlying : r.isApplying with
  | true => rw [if_pos rfl, Bool.true_or]
  | false => rw [if_neg Bool.false_ne_true, Bool.false_or, ← happlying]

@[simp] theorem context_touch : r.touch.context = r.context := by
  rw [touch_eq]
  rfl

@[simp] theorem context_amend : (r.amend s f).context = r.context := by
  unfold amend
  split
  · rfl
  · rfl

@[simp] theorem context_recomputeAll {l : List Subject} : (r.recomputeAll l).context = r.context := by
  refine context_foldl ?_ l r
  intro r s
  rw [recompute_eq_amend, context_amend]

theorem context_track : (r.track s).context = r.context := rfl

@[simp] theorem context_trackAll {l : List Subject} : (l.foldl track r).context = r.context :=
  context_foldl (fun _ _ => context_track) l r

@[simp] theorem context_settleAll {l : List (Subject × Severity)} : (l.foldl settle r).context = r.context :=
  context_foldl (fun _ _ => context_amend) l r

@[simp] theorem context_reresolveAll {l : List Subject} {acc : Requirements × Bool} :
    (l.foldl reresolve acc).1.context = acc.1.context := by
  induction l generalizing acc with
  | nil => rfl
  | cons s rest ih => rw [List.foldl_cons, ih, reresolve_eq_amend, context_amend]

/-! ## Look-ups -/

@[simp] theorem standings_touch : r.touch.standings = r.standings := by rw [touch_eq]

theorem get?_recomputeAll {l : List Subject} : (r.recomputeAll l).standings.get? k =
    if k ∈ l then (r.standings.get? k).map (r.renewed k) else r.standings.get? k := by
  induction l generalizing r with
  | nil => simp [recomputeAll]
  | cons x rest ih =>
      have hrenewed : (r.recompute x).renewed k = r.renewed k := by
        funext old
        simp only [renewed, recompute_eq_amend, resultingSeverity_eq_of_context context_amend]
      have htwice : r.renewed k ∘ r.renewed k = r.renewed k := rfl
      have hstep := ih (r := r.recompute x)
      simp only [recomputeAll, List.foldl_cons] at hstep ⊢
      rw [hstep, hrenewed, recompute_eq_amend, get?_amend]
      by_cases hx : k = x
      · simp [← hx, htwice]
      · simp [hx]

/-- The standing of a subject that nobody knew before. -/
def fresh (r : Requirements) (s : Subject) : Standing := ⟨r.baseline s, r.resultingSeverity s (r.baseline s), none⟩

theorem get?_track : (r.track s).standings.get? k = if k = s then some (r.fresh s) else r.standings.get? k :=
  Table.get?_insert

theorem get?_trackAll {l : List Subject} : (l.foldl track r).standings.get? k =
    if k ∈ l then some (r.fresh k) else r.standings.get? k := by
  induction l generalizing r with
  | nil => simp
  | cons x rest ih =>
      have hfresh : (r.track x).fresh k = r.fresh k := rfl
      rw [List.foldl_cons, ih, get?_track, hfresh]
      by_cases hx : k = x
      · simp [hx]
      · simp [hx]

/-- Exchanging the catalog drops who is gone, tracks who is new, and of all others changes the final severity alone. -/
theorem map_get?_refreshCatalog {α : Type} {g : Standing → α} (hg : ∀ old final, g { old with final } = g old)
    (catalog : Catalog) : ((r.refreshCatalog catalog).standings.get? k).map g =
      if catalog.contains k = true then some (((r.standings.get? k).map g).getD (g (r.fresh k))) else none := by
  have hsubject : k ∈ catalog.subjects ↔ catalog.contains k = true := Catalog.mem_subjects
  rw [refreshCatalog, standings_touch, map_get?_recomputeAll hg, get?_trackAll]
  simp only [List.mem_filter, hsubject, Table.contains, Table.get?_restrict]
  by_cases hk : catalog.contains k = true
  · cases hget : r.standings.get? k with
    | none =>
        simp only [hk, if_true, Option.isSome_none, Bool.not_false, and_self]
        exact congrArg some (hg (r.fresh k) _)
    | some old => simp [hk]
  · simp [hk]

end Requirements

end Orchestrator
