import Mathlib.Data.Multiset.Filter
import Mathlib.Data.Multiset.Replicate
import Orchestrator.Proofs.Requirements.Occurrences
/-!
Layers as a multiset. The active layers with their counts are a multiset in which adding a layer puts in one occurrence
and taking it away takes out one or all, and replacing a layer moves all its occurrences. Not only the multiset says so:
to replace a layer leaves the requirements exactly as taking it away for good and adding the other one as often does,
with the order of the layers, the severities and the count of dirty subjects.
-/

namespace Orchestrator

/-- What an operation does to the multiset of active layers; nothing comes of one that is declined. -/
def Operation.restack : Operation → Multiset Layer → Option (Multiset Layer)
  | .addLayer l allowDuplicate, m => if l ∈ m ∧ allowDuplicate = false then none else some (l ::ₘ m)
  | .removeLayer l all, m => if l ∈ m then some (if all then m.filter (· ≠ l) else m.erase l) else none
  | .replaceLayer old new, m =>
    if old ∈ m then some (m.filter (· ≠ old) + Multiset.replicate (m.count old) new) else none
  | _, m => some m

def Occurrence.restack (m : Multiset Layer) : Occurrence → Multiset Layer
  | .asked operation => (operation.restack m).getD m
  | _ => m

/-- The multiset of layers that a history leaves active. -/
def layersHeld (history : List Occurrence) : Multiset Layer := history.foldl Occurrence.restack 0

namespace Requirements

variable {r q p : Requirements} {k l old new : Layer} {layers : List Activation} {m n : Nat}

/-! ## Lists of activations -/

/-- The activations once a layer was added a number of times. -/
def laid (layers : List Activation) (l : Layer) (n : Nat) : List Activation :=
  if layers.any (fun a => a.layer == l) then recount layers l (· + n) else layers ++ [Activation.mk l n]

theorem recount_of_inactive (f : Nat → Nat) (h : layers.any (fun a => a.layer == l) = false) :
    recount layers l f = layers := by
  conv_rhs => rw [← List.map_id layers]
  exact List.map_congr_left fun a ha => if_neg (List.any_eq_false.mp h a ha)

theorem withoutLayer_of_inactive (h : layers.any (fun a => a.layer == l) = false) : withoutLayer layers l = layers := by
  refine List.filter_eq_self.mpr ?_
  intro a ha
  exact bne_iff_ne.mpr fun hl => List.any_eq_false.mp h a ha (beq_iff_eq.mpr hl)

theorem recount_recount (f g : Nat → Nat) : recount (recount layers l f) l g = recount layers l (fun c => g (f c)) := by
  rw [recount, recount, recount, List.map_map]
  refine List.map_congr_left ?_
  intro a _
  by_cases hl : a.layer = l
  · simp [hl]
  · simp [hl]

theorem recount_append_new (f : Nat → Nat) (h : layers.any (fun a => a.layer == l) = false) :
    recount (layers ++ [Activation.mk l n]) l f = layers ++ [Activation.mk l (f n)] := by
  have hnew : recount [Activation.mk l n] l f = [Activation.mk l (f n)] := by simp [recount]
  rw [recount, List.map_append]
  exact congrArg₂ _ (recount_of_inactive f h) hnew

theorem withoutLayer_append_new (h : layers.any (fun a => a.layer == l) = false) :
    withoutLayer (layers ++ [Activation.mk l n]) l = layers := by
  have hnew : withoutLayer [Activation.mk l n] l = [] := by simp [withoutLayer]
  rw [withoutLayer, List.filter_append]
  exact (congrArg₂ _ (withoutLayer_of_inactive h) hnew).trans (List.append_nil layers)

theorem laid_of_active (h : layers.any (fun a => a.layer == l) = true) : laid layers l n = recount layers l (· + n) :=
  if_pos h

theorem laid_of_inactive (h : layers.any (fun a => a.layer == l) = false) :
    laid layers l n = layers ++ [Activation.mk l n] := if_neg (Bool.not_eq_true _ ▸ h)

theorem laid_laid : laid (laid layers l m) l n = laid layers l (m + n) := by
  cases hl : layers.any (fun a => a.layer == l) with
  | true =>
      rw [laid_of_active hl, laid_of_active ((any_recount _).trans hl), recount_recount, laid_of_active hl]
      simp only [Nat.add_assoc]
  | false =>
      have hactive : (layers ++ [Activation.mk l m]).any (fun a => a.layer == l) = true := by simp
      rw [laid_of_inactive hl, laid_of_active hactive, recount_append_new _ hl, laid_of_inactive hl]

/-! ## What the operations leave -/

theorem layers_addLayer (l : Layer) : (r.addLayer l true).1.layers = laid r.layers l 1 := by
  unfold addLayer
  cases hl : r.hasLayer l with
  | true =>
      rw [if_pos rfl, if_pos rfl, laid_of_active hl]
      exact layers_eq_of_context context_touch
  | false =>
      rw [if_neg Bool.false_ne_true, laid_of_inactive hl]
      exact layers_eq_of_context (context_touch.trans context_recomputeAll)

theorem addLayer_of_inactive (h : r.hasLayer l = false) (allowDuplicate : Bool) :
    r.addLayer l allowDuplicate = r.addLayer l true := by
  rw [addLayer, addLayer, h]
  rfl

theorem layers_addAll (l : Layer) (n : Nat) :
    (r.performAll (List.replicate (n + 1) (.addLayer l true))).layers = laid r.layers l (n + 1) := by
  induction n generalizing r with
  | zero => exact layers_addLayer l
  | succ n ih =>
      have hrest := ih (r := (r.addLayer l true).1)
      rw [layers_addLayer, laid_laid, Nat.add_comm 1] at hrest
      exact hrest

theorem layers_removeLayer (l : Layer) : (r.removeLayer l true).1.layers = withoutLayer r.layers l := by
  unfold removeLayer
  cases hl : r.hasLayer l with
  | false => exact (withoutLayer_of_inactive hl).symm
  | true => exact layers_eq_of_context (context_touch.trans context_recomputeAll)

theorem layers_replaceLayer (hold : r.hasLayer old = true) (hne : old ≠ new) :
    (r.replaceLayer old new).1.layers = laid (withoutLayer r.layers old) new (r.occurrences old) := by
  unfold replaceLayer
  simp only [hold, Bool.not_true, Bool.false_eq_true, if_false, if_neg hne]
  exact layers_eq_of_context (context_touch.trans context_recomputeAll)

/-! ## Requirements that differ in their layers -/

theorem wantsReapply_recomputeAll {concerned : List Subject} :
    (r.recomputeAll concerned).wantsReapply = r.wantsReapply := by
  induction concerned generalizing r with
  | nil => rfl
  | cons s rest ih =>
      refine (ih (r := r.recompute s)).trans ?_
      rw [recompute_eq_amend, amend]
      split
      · rfl
      · rfl

/-- Layers were added and taken away and nothing else was done: the second requirements differ from the first in their
layers, in the severities that follow from them, and in that the change was noted. -/
structure Relaid (r q : Requirements) : Prop where
  context : q.context = ({ r with layers := q.layers } : Requirements).context
  recorded : ∀ s, q.recorded? s = r.recorded? s
  dealings : r.SameDealings q
  noted : q.wantsReapply = (r.isApplying || r.wantsReapply)

theorem relaid_recomputeAll (r : Requirements) (layers : List Activation) (concerned : List Subject) :
    r.Relaid (({ r with layers } : Requirements).recomputeAll concerned).touch where
  context := by
    have hcontext : (({ r with layers } : Requirements).recomputeAll concerned).touch.context =
        ({ r with layers } : Requirements).context := context_touch.trans context_recomputeAll
    rw [layers_eq_of_context hcontext, hcontext]
  recorded := fun _ => recorded?_touch.trans recorded?_recomputeAll
  dealings := fun _ => applied_touch.trans applied_recomputeAll
  noted := by
    have happlying := isApplying_eq_of_context
      (context_recomputeAll (r := ({ r with layers } : Requirements)) (l := concerned))
    rw [touch_eq]
    exact congrArg₂ or happlying wantsReapply_recomputeAll

theorem relaid_touch (r : Requirements) : r.Relaid r.touch := relaid_recomputeAll r r.layers []

theorem Relaid.trans (h : r.Relaid q) (h' : q.Relaid p) : r.Relaid p where
  context := by
    have hbefore : ({ q with layers := p.layers } : Requirements).context =
        ({ r with layers := p.layers } : Requirements).context :=
      congrArg (fun c : Requirements => { c with layers := p.layers }) h.context
    exact h'.context.trans hbefore
  recorded := fun s => (h'.recorded s).trans (h.recorded s)
  dealings := h.dealings.trans h'.dealings
  noted := by
    have happlying : q.isApplying = r.isApplying := (isApplying_eq_of_context h.context).trans rfl
    rw [h'.noted, happlying, h.noted, ← Bool.or_assoc, Bool.or_self]

theorem relaid_addLayer (l : Layer) : r.Relaid (r.addLayer l true).1 := by
  unfold addLayer
  split
  · exact relaid_recomputeAll r _ []
  · exact relaid_recomputeAll r _ l.subjects

theorem relaid_removeLayer (hl : r.hasLayer l = true) (all : Bool) : r.Relaid (r.removeLayer l all).1 := by
  unfold removeLayer
  simp only [hl, Bool.not_true, Bool.false_eq_true, if_false]
  split
  · exact relaid_recomputeAll r _ []
  · exact relaid_recomputeAll r _ l.subjects

theorem relaid_replaceLayer (hold : r.hasLayer old = true) (hne : old ≠ new) :
    r.Relaid (r.replaceLayer old new).1 := by
  unfold replaceLayer
  simp only [hold, Bool.not_true, Bool.false_eq_true, if_false, if_neg hne]
  exact relaid_recomputeAll r _ _

theorem Relaid.addAll (h : r.Relaid q) (l : Layer) (n : Nat) :
    r.Relaid (q.performAll (List.replicate n (.addLayer l true))) := by
  induction n generalizing q with
  | zero => exact h
  | succ n ih => exact ih (h.trans (relaid_addLayer l))

theorem standing_ext {a b : Option Standing} (hbaseline : a.map Standing.baseline = b.map Standing.baseline)
    (hfinal : a.map Standing.final = b.map Standing.final)
    (happlied : a.map Standing.applied = b.map Standing.applied) : a = b := by
  cases a with
  | none => exact (Option.map_eq_none_iff.mp hbaseline.symm).symm
  | some x =>
      cases b with
      | none => cases hbaseline
      | some y =>
          cases x
          cases y
          cases hbaseline
          cases hfinal
          cases happlied
          rfl

theorem ext_of_context (hcontext : q.context = p.context) (hstandings : q.standings = p.standings)
    (htally : q.tally = p.tally) (hnoted : q.wantsReapply = p.wantsReapply) : q = p := by
  have hq : q = { q.context with standings := q.standings, tally := q.tally, wantsReapply := q.wantsReapply } := rfl
  rw [hq, hcontext, hstandings, htally, hnoted]
  rfl

/-- The layers decide what they lead to: each final severity is the one that results from them, and the tally counts
the standings that are dirty because of that. -/
theorem Relaid.unique (hq : r.Relaid q) (hp : r.Relaid p) (hlayers : q.layers = p.layers)
    (hupToDate : q.UpToDate ∧ p.UpToDate) (hcounted : q.Counted ∧ p.Counted) : q = p := by
  have hcontext : q.context = p.context := by rw [hq.context, hp.context, hlayers]
  have hrecorded : ∀ s, q.recorded? s = p.recorded? s := fun s => (hq.recorded s).trans (hp.recorded s).symm
  have hstandings : q.standings = p.standings := by
    refine Table.ext fun s => standing_ext (hrecorded s) ?_ ((hq.dealings s).trans (hp.dealings s).symm)
    have hresults : q.resultingSeverity s = p.resultingSeverity s := funext (resultingSeverity_eq_of_context hcontext s)
    have hfinal : q.final? s = p.final? s := by
      rw [hupToDate.1.final?_eq, hupToDate.2.final?_eq, hrecorded, hresults]
    exact hfinal
  have htally : q.tally = p.tally := by
    refine Eq.trans hcounted.1 (Eq.trans ?_ hcounted.2.symm)
    rw [hstandings]
  exact ext_of_context hcontext hstandings htally (hq.noted.trans hp.noted.symm)

/-! ## Equations -/

variable {P : Catalog → Prop}

theorem ReachedOver.addLayer (h : r.ReachedOver P) (l : Layer) (allowDuplicate : Bool) :
    (r.addLayer l allowDuplicate).1.ReachedOver P := by
  have hinstalls : (Operation.addLayer l allowDuplicate).Installs P := trivial
  exact h.perform hinstalls

theorem ReachedOver.removeLayer (h : r.ReachedOver P) (l : Layer) (all : Bool) :
    (r.removeLayer l all).1.ReachedOver P := by
  have hinstalls : (Operation.removeLayer l all).Installs P := trivial
  exact h.perform hinstalls

theorem ReachedOver.replaceLayer (h : r.ReachedOver P) (old new : Layer) :
    (r.replaceLayer old new).1.ReachedOver P := by
  have hinstalls : (Operation.replaceLayer old new).Installs P := trivial
  exact h.perform hinstalls

theorem ReachedOver.addAll (h : r.ReachedOver P) (l : Layer) (n : Nat) :
    (r.performAll (List.replicate n (.addLayer l true))).ReachedOver P := by
  induction n generalizing r with
  | zero => exact h
  | succ n ih => exact ih (h.addLayer l true)

/-- No difference is left of whether the occurrences move at once or are taken away and added one by one, also where the
other layer was active before. -/
theorem replaceLayer_eq (hreached : r.ReachedOver P) (hne : old ≠ new) :
    (r.replaceLayer old new).1 =
      (r.removeLayer old true).1.performAll (List.replicate (r.occurrences old) (.addLayer new true)) := by
  cases hold : r.hasLayer old with
  | false =>
      rw [occurrences_of_inactive hold, replaceLayer, removeLayer, hold]
      rfl
  | true =>
      have hpos : 0 < r.occurrences old := hreached.stacked.hasLayer_iff.mp hold
      obtain ⟨n, hn⟩ := Nat.exists_eq_succ_of_ne_zero (Nat.pos_iff_ne_zero.mp hpos)
      have hreplaced : (r.replaceLayer old new).1.ReachedOver P := hreached.replaceLayer old new
      have hadded := (hreached.removeLayer old true).addAll new (r.occurrences old)
      refine (relaid_replaceLayer hold hne).unique ((relaid_removeLayer hold true).addAll new _) ?_
        ⟨hreplaced.upToDate, hadded.upToDate⟩ ⟨hreplaced.counted, hadded.counted⟩
      rw [layers_replaceLayer hold hne, hn, layers_addAll, layers_removeLayer]

theorem layers_removeOnce (hl : r.hasLayer l = true) : (r.removeLayer l false).1.layers =
    if 1 < r.occurrences l then recount r.layers l (· - 1) else withoutLayer r.layers l := by
  unfold removeLayer
  simp only [hl, Bool.not_true, Bool.false_eq_true, if_false, Bool.not_false, Bool.true_and, decide_eq_true_eq]
  split
  · exact layers_eq_of_context context_touch
  · exact layers_eq_of_context (context_touch.trans context_recomputeAll)

theorem hasLayer_addLayer (h : r.Stacked) (l : Layer) : (r.addLayer l true).1.hasLayer l = true := by
  refine (h.addLayer l true).hasLayer_iff.mpr ?_
  rw [occurrences_addLayer, if_pos rfl]
  exact Nat.succ_pos _

theorem layers_addLayer_removeLayer (h : r.Stacked) (l : Layer) :
    ((r.addLayer l true).1.removeLayer l false).1.layers = r.layers := by
  rw [layers_removeOnce (hasLayer_addLayer h l), occurrences_addLayer, if_pos rfl, layers_addLayer]
  cases hl : r.hasLayer l with
  | true =>
      have hpos : 0 < r.occurrences l := h.hasLayer_iff.mp hl
      rw [if_pos (Nat.succ_lt_succ hpos), laid_of_active hl, recount_recount]
      simp [recount]
  | false =>
      rw [occurrences_of_inactive hl, if_neg (Nat.lt_irrefl 1), laid_of_inactive hl, withoutLayer_append_new hl]

/-- Nothing is left of a layer that is added and taken away, but that somebody took note. -/
theorem addLayer_removeLayer (hreached : r.ReachedOver P) (l : Layer) :
    ((r.addLayer l true).1.removeLayer l false).1 = r.touch := by
  have hremoved : ((r.addLayer l true).1.removeLayer l false).1.ReachedOver P :=
    (hreached.addLayer l true).removeLayer l false
  have hactive : (r.addLayer l true).1.hasLayer l = true := hasLayer_addLayer hreached.stacked l
  refine ((relaid_addLayer l).trans (relaid_removeLayer hactive false)).unique (relaid_touch r) ?_
    ⟨hremoved.upToDate, hreached.upToDate.touch⟩ ⟨hremoved.counted, hreached.counted.touch⟩
  rw [layers_addLayer_removeLayer hreached.stacked, layers_eq_of_context context_touch]

/-! ## Multisets -/

/-- The multiset has as many of each layer as occur. -/
def Totals (r : Requirements) (held : Multiset Layer) : Prop := ∀ l, r.occurrences l = held.count l

variable {held : Multiset Layer}

theorem Totals.mem_iff (h : r.Totals held) (hs : r.Stacked) : l ∈ held ↔ r.hasLayer l = true := by
  rw [← Multiset.count_pos, ← h l, hs.hasLayer_iff]

theorem Totals.mem_layers (h : r.Totals held) (hs : r.Stacked) (a : Activation) :
    a ∈ r.layers ↔ 0 < a.count ∧ a.count = held.count a.layer := by
  constructor
  · intro ha
    exact ⟨hs.counted a ha, (hs.occurrences_eq ha).symm.trans (h a.layer)⟩
  · rintro ⟨hpos, hcount⟩
    have hmem : a.layer ∈ held := Multiset.count_pos.mp (hcount ▸ hpos)
    obtain ⟨b, hb, hlayer⟩ := hasLayer_iff.mp ((h.mem_iff hs).mp hmem)
    have hsame : b.count = a.count := by rw [← hs.occurrences_eq hb, hlayer, h, hcount]
    cases a
    cases b
    cases hlayer
    cases hsame
    exact hb

theorem occurrences_removeWhole (l k : Layer) :
    (r.removeLayer l true).1.occurrences k = if k = l then 0 else r.occurrences k := by
  rw [← occurrences_withoutLayer]
  exact occurrences_congr (layers_removeLayer l)

theorem occurrences_replaceLayer (hreached : r.ReachedOver P) (old new k : Layer) :
    (r.replaceLayer old new).1.occurrences k =
      (if k = old then 0 else r.occurrences k) + if k = new then r.occurrences old else 0 := by
  by_cases hne : old = new
  · subst hne
    have hsame : (r.replaceLayer old old).1 = r := by grind [replaceLayer]
    rw [hsame]
    grind
  · have hadds : List.replicate (r.occurrences old) (Operation.addLayer new true) =
        (List.replicate (r.occurrences old) new).map (.addLayer · true) := by rw [List.map_replicate]
    rw [replaceLayer_eq hreached hne, hadds, occurrences_addAll, occurrences_removeWhole, List.count_replicate]
    simp only [beq_iff_eq, eq_comm (a := new)]

/-- An operation that is declined does nothing. -/
theorem perform_declined {operation : Operation} (h : (r.perform operation).2 = some false) :
    (r.perform operation).1 = r := by
  cases operation with
  | addLayer l allowDuplicate =>
      have hdeclined : (r.addLayer l allowDuplicate).2 = false := Option.some.inj h
      show (r.addLayer l allowDuplicate).1 = r
      grind [addLayer]
  | removeLayer l all =>
      have hdeclined : (r.removeLayer l all).2 = false := Option.some.inj h
      show (r.removeLayer l all).1 = r
      grind [removeLayer]
  | replaceLayer old new =>
      have hdeclined : (r.replaceLayer old new).2 = false := Option.some.inj h
      show (r.replaceLayer old new).1 = r
      grind [replaceLayer]
  | clearFailure component =>
      have hdeclined : (r.clearFailure component).2 = false := Option.some.inj h
      show (r.clearFailure component).1 = r
      grind [clearFailure]
  | _ => cases h

theorem answer_addLayer (l : Layer) (allowDuplicate : Bool) :
    (r.addLayer l allowDuplicate).2 = (!r.hasLayer l || allowDuplicate) := by
  grind [addLayer]

theorem answer_removeLayer (l : Layer) (all : Bool) : (r.removeLayer l all).2 = r.hasLayer l := by
  grind [removeLayer]

theorem answer_replaceLayer (old new : Layer) : (r.replaceLayer old new).2 = r.hasLayer old := by
  grind [replaceLayer]

/-- The requirements and the multiset take the same operations on layers and decline the same. -/
theorem Totals.answer (h : r.Totals held) (hs : r.Stacked) {operation : Operation}
    (hlayers : ¬ operation.LeavesLayers) : (r.perform operation).2 = some (operation.restack held).isSome := by
  cases operation with
  | addLayer l allowDuplicate =>
      refine congrArg some ((answer_addLayer l allowDuplicate).trans ?_)
      simp only [Operation.restack, h.mem_iff hs]
      cases r.hasLayer l <;> cases allowDuplicate <;> rfl
  | removeLayer l all =>
      refine congrArg some ((answer_removeLayer l all).trans ?_)
      simp only [Operation.restack, h.mem_iff hs]
      cases r.hasLayer l <;> rfl
  | replaceLayer old new =>
      refine congrArg some ((answer_replaceLayer old new).trans ?_)
      simp only [Operation.restack, h.mem_iff hs]
      cases r.hasLayer old <;> rfl
  | _ => exact (hlayers trivial).elim

theorem Totals.of_declined (h : r.Totals held) (hs : r.Stacked) {operation : Operation}
    (hnone : operation.restack held = none) : (r.perform operation).1 = r := by
  have hlayers : ¬ operation.LeavesLayers := by
    intro hleaves
    cases operation <;> first | exact hleaves | cases hnone
  refine perform_declined ?_
  rw [h.answer hs hlayers, hnone, Option.isSome_none]

/-- A layer that is not active is added whether duplicates are allowed or not. -/
theorem Totals.addLayer (h : r.Totals held) (hs : r.Stacked) {allowDuplicate : Bool}
    (htaken : ¬ (l ∈ held ∧ allowDuplicate = false)) : (r.addLayer l allowDuplicate).1.Totals (l ::ₘ held) := by
  have hsame : r.addLayer l allowDuplicate = r.addLayer l true := by
    cases allowDuplicate with
    | true => rfl
    | false =>
        have hinactive : ¬ r.hasLayer l = true := fun hl => htaken ⟨(h.mem_iff hs).mpr hl, rfl⟩
        exact addLayer_of_inactive (Bool.not_eq_true _ ▸ hinactive) false
  intro k
  rw [hsame, occurrences_addLayer, h, Multiset.count_cons]

theorem Totals.removeLayer (h : r.Totals held) (l : Layer) (all : Bool) :
    (r.removeLayer l all).1.Totals (if all then held.filter (· ≠ l) else held.erase l) := by
  intro k
  cases all with
  | true =>
      rw [occurrences_removeWhole, if_pos rfl, Multiset.count_filter, h, ite_not]
  | false =>
      rw [occurrences_removeLayer, h, if_neg Bool.false_ne_true]
      split
      next hk => rw [hk, Multiset.count_erase_self]
      next hk => rw [Multiset.count_erase_of_ne hk, Nat.sub_zero]

theorem Totals.replaceLayer (h : r.Totals held) (hreached : r.ReachedOver P) (old new : Layer) :
    (r.replaceLayer old new).1.Totals (held.filter (· ≠ old) + Multiset.replicate (held.count old) new) := by
  intro k
  rw [occurrences_replaceLayer hreached, Multiset.count_add, Multiset.count_filter, Multiset.count_replicate, ite_not,
    h, h]
  simp only [eq_comm (a := new)]

theorem Totals.perform (h : r.Totals held) (hreached : r.ReachedOver P) (operation : Operation) :
    (r.perform operation).1.Totals ((operation.restack held).getD held) := by
  have hs : r.Stacked := hreached.stacked
  cases hnew : operation.restack held with
  | none =>
      rw [h.of_declined hs hnew]
      exact h
  | some next =>
      rw [Option.getD_some]
      cases operation with
      | addLayer l allowDuplicate =>
          simp only [Operation.restack] at hnew
          split at hnew
          next => cases hnew
          next htaken =>
            cases hnew
            exact h.addLayer hs htaken
      | removeLayer l all =>
          simp only [Operation.restack] at hnew
          split at hnew
          · cases hnew
            exact h.removeLayer l all
          · cases hnew
      | replaceLayer old new =>
          simp only [Operation.restack] at hnew
          split at hnew
          · cases hnew
            exact h.replaceLayer hreached old new
          · cases hnew
      | _ =>
          cases hnew
          exact fun k => (occurrences_congr (layers_perform (by exact True.intro))).trans (h k)

theorem Totals.after (h : r.Totals held) (hreached : r.ReachedOver P) (e : Occurrence) :
    (r.after e).Totals (e.restack held) := by
  cases e with
  | asked operation => exact h.perform hreached operation
  | passCommits snapshot steps => exact fun k => (occurrences_congr (layers_commit snapshot steps)).trans (h k)
  | _ => exact h

theorem Totals.replay (h : r.Totals held) (hreached : r.ReachedOver fun _ => True) (history : List Occurrence) :
    (r.replay history).Totals (history.foldl Occurrence.restack held) := by
  induction history generalizing r held with
  | nil => exact h
  | cons e rest ih => exact ih (h.after hreached e) (hreached.after e.installs_true)

theorem totals_initial (catalog : Catalog) (settings : Settings) (resolver : Resolver) :
    (initial catalog settings resolver).Totals 0 := by
  intro l
  have hnone : (initial catalog settings resolver).layers = [] := layers_eq_of_context context_trackAll
  rw [occurrences, hnone, Multiset.count_zero]
  rfl

/-- After every history each active layer is listed once, with as many occurrences as the multiset has that takes the
same operations; these answer as the multiset does, and whatever it declines changes nothing. There, to replace a layer
by another one is to take it away for good and to add the other one as often; and who adds a layer and takes one
occurrence of it away again has changed nothing, but that a pass that is being carried out takes note. -/
theorem layers_multiset (catalog : Catalog) (settings : Settings) (resolver : Resolver) (history : List Occurrence) :
    let r := (initial catalog settings resolver).replay history
    let held := layersHeld history
    (r.layers.map Activation.layer).Nodup ∧
    (∀ a, a ∈ r.layers ↔ 0 < a.count ∧ a.count = held.count a.layer) ∧
    (∀ operation : Operation, ¬ operation.LeavesLayers →
      (r.perform operation).2 = some (operation.restack held).isSome ∧
      (operation.restack held = none → (r.perform operation).1 = r)) ∧
    (∀ old new, old ≠ new →
      (r.replaceLayer old new).1 =
        (r.removeLayer old true).1.performAll (List.replicate (held.count old) (.addLayer new true))) ∧
    ∀ l, ((r.addLayer l true).1.removeLayer l false).1 = { r with wantsReapply := r.isApplying || r.wantsReapply } := by
  intro r held
  have hreached : r.ReachedOver fun _ => True := reachedOver_replay catalog settings resolver history
  have hs : r.Stacked := hreached.stacked
  have hinitial : (initial catalog settings resolver).ReachedOver fun _ => True :=
    reachedOver_initial trivial settings resolver
  have htotals : r.Totals held := (totals_initial catalog settings resolver).replay hinitial history
  refine ⟨hs.nodup, htotals.mem_layers hs, ?_, ?_, ?_⟩
  · intro operation hlayers
    exact ⟨htotals.answer hs hlayers, htotals.of_declined hs⟩
  · intro old new hne
    rw [replaceLayer_eq hreached hne, htotals]
  · intro l
    rw [addLayer_removeLayer hreached, touch_eq]

def reading : Layer := ⟨"reading", Table.empty.insert (.component "lamp") .present⟩

/-- The evening is long, and somebody reads already. -/
def layering : List Occurrence :=
  [.asked (.addLayer evening false), .asked (.addLayer reading false), .asked (.addLayer evening true), .passBegins,
    .asked (.addLayer evening false), .asked (.addLayer evening true)]

theorem layers_multiset_reading :
    let r := hallway.replay layering
    evening ≠ reading ∧ Activation.mk evening 3 ∈ r.layers ∧
      (r.replaceLayer evening reading).1 =
        (r.removeLayer evening true).1.performAll (List.replicate 3 (.addLayer reading true)) ∧
      (r.replaceLayer evening reading).1.layers = [⟨reading, 4⟩] := by
  intro r
  obtain ⟨-, hlisted, -, hreplaced, -⟩ :=
    layers_multiset (Catalog.empty.insertComponent lamp) .empty .store layering
  have hne : evening ≠ reading := by decide
  have hcount : (layersHeld layering).count evening = 3 := by decide +kernel
  refine ⟨hne, (hlisted ⟨evening, 3⟩).mpr ⟨by decide, hcount.symm⟩, ?_, by decide +kernel⟩
  rw [← hcount]
  exact hreplaced evening reading hne

end Requirements

end Orchestrator
