import Orchestrator.Proofs.Requirements.Multiplicity
/-!
Reconfiguration, told and swapped. When the content behind the resolver has changed, it can be asked anew about the
subjects that somebody names, one after the other and only as far as an answer is another one, or a resolver of the new
content can be put in its place, which is asked about everything. Where nobody is forgotten the two end in the same
standings, whatever vetoes and layers hide of the baselines.
-/

namespace Orchestrator

namespace Requirements

variable {r q p : Requirements} {s : Subject} {l : List Subject} {P : Catalog → Prop}

/-- The baseline on record for the subject is not what the resolver would answer. -/
def Outdated (r : Requirements) (s : Subject) : Prop := ∃ b, r.recorded? s = some b ∧ b ≠ r.baseline s

/-! ## Whether an answer was another one -/

theorem reresolve_of_outdated {acc : Requirements × Bool} (h : acc.1.Outdated s) : (reresolve acc s).2 = true := by
  obtain ⟨b, hb, hne⟩ := h
  obtain ⟨standing, hget, rfl⟩ := Option.map_eq_some_iff.mp hb
  simp only [reresolve, hget, if_neg hne]

theorem reresolve_of_not_outdated {acc : Requirements × Bool} (h : ¬ acc.1.Outdated s) : reresolve acc s = acc := by
  unfold reresolve
  simp only []
  split
  next => rfl
  next standing hget =>
    refine if_pos ?_
    by_contra hne
    exact h ⟨standing.baseline, congrArg (Option.map Standing.baseline) hget, hne⟩

/-- A subject that was asked about is outdated no more, so that it may be named again; one that was not outdated leaves
everything as it is. In both cases the first of the list decides, or the rest does. -/
theorem reresolveAll_flag_iff (acc : Requirements × Bool) :
    (l.foldl reresolve acc).2 = true ↔ acc.2 = true ∨ ∃ s ∈ l, acc.1.Outdated s := by
  induction l generalizing acc with
  | nil => simp
  | cons s rest ih =>
      rw [List.foldl_cons]
      by_cases hs : acc.1.Outdated s
      · have hflag := reresolveAll_flagged (l := rest) (reresolve_of_outdated hs)
        exact iff_of_true hflag (.inr ⟨s, List.mem_cons_self, hs⟩)
      · rw [reresolve_of_not_outdated hs, ih]
        simp [hs]

theorem wantsReapply_amend {f : Standing → Standing} : (r.amend s f).wantsReapply = r.wantsReapply := by
  unfold amend
  split
  · rfl
  · rfl

theorem wantsReapply_reresolveAll (acc : Requirements × Bool) :
    (l.foldl reresolve acc).1.wantsReapply = acc.1.wantsReapply := by
  induction l generalizing acc with
  | nil => rfl
  | cons s rest ih => rw [List.foldl_cons, ih, reresolve_eq_amend, wantsReapply_amend]

/-- Only an answer that is another one is news, and only while a pass is being carried out. -/
theorem wantsReapply_configurationChanged (subjects : List Subject) :
    (r.configurationChanged subjects).wantsReapply = true ↔
      r.wantsReapply = true ∨ (r.isApplying = true ∧ ∃ s ∈ subjects, r.Outdated s) := by
  have hasked := wantsReapply_reresolveAll (l := subjects) (r, false)
  have happlying : (subjects.foldl reresolve (r, false)).1.isApplying = r.isApplying :=
    isApplying_eq_of_context context_reresolveAll
  have hflag := reresolveAll_flag_iff (l := subjects) (r, false)
  rw [or_iff_right Bool.false_ne_true] at hflag
  unfold configurationChanged
  simp only []
  split
  next hchanged =>
    rw [touch_eq, Bool.or_eq_true, happlying, hasked, and_iff_left (hflag.mp hchanged), or_comm]
  next hunchanged =>
    rw [hasked]
    exact (or_iff_left fun h => hunchanged (hflag.mpr h.2)).symm

/-! ## Told and swapped -/

theorem Unmoved.recorded?_eq (h : r.Unmoved q) (s : Subject) : q.recorded? s = r.recorded? s := by
  obtain ⟨settings, resolver, rfl⟩ := h
  rfl

theorem Unmoved.sameFooting (h : r.Unmoved q) : r.SameFooting q := by
  obtain ⟨settings, resolver, rfl⟩ := h
  exact ⟨rfl, rfl, fun _ => rfl⟩

theorem Unmoved.resultingSeverity_eq (h : r.Unmoved q) (s : Subject) :
    q.resultingSeverity s = r.resultingSeverity s := by
  obtain ⟨settings, resolver, rfl⟩ := h
  rfl

theorem Unmoved.reached (h : r.Unmoved q) (hr : r.ReachedOver P) : q.ReachedOver P := by
  obtain ⟨settings, resolver, rfl⟩ := h
  have hedited : (r.editSettings settings).ReachedOver P := hr.after (e := .asked (.editSettings settings)) trivial
  exact hedited.after (e := .contentChanges resolver) trivial

theorem ReachedOver.configurationChanged (h : r.ReachedOver P) (subjects : List Subject) :
    (r.configurationChanged subjects).ReachedOver P := by
  have hinstalls : (Operation.configurationChanged subjects).Installs P := trivial
  exact h.perform hinstalls

theorem ReachedOver.setResolver (h : r.ReachedOver P) (resolver : Resolver) :
    (r.setResolver resolver).ReachedOver P := by
  have hinstalls : (Operation.setResolver resolver).Installs P := trivial
  exact h.perform hinstalls

theorem recorded?_told (hq : r.Unmoved q) (subjects : List Subject) (s : Subject) :
    (q.configurationChanged subjects).recorded? s =
      if s ∈ subjects then (r.recorded? s).map (fun _ => q.baseline s) else r.recorded? s := by
  rw [recorded?_configurationChanged, hq.recorded?_eq]

/-- Whoever is not named was up to date. -/
theorem recorded?_told_of_complete (hq : r.Unmoved q) {subjects : List Subject}
    (hall : ∀ s b, r.recorded? s = some b → b ≠ q.baseline s → s ∈ subjects) (s : Subject) :
    (q.configurationChanged subjects).recorded? s = (r.recorded? s).map (fun _ => q.baseline s) := by
  rw [recorded?_told hq]
  split
  next => rfl
  next hunnamed =>
    cases hb : r.recorded? s with
    | none => rfl
    | some b =>
        have hsame : b = q.baseline s := by
          by_contra hne
          exact hunnamed (hall s b hb hne)
        rw [Option.map_some, hsame]

theorem recorded?_swapped (hp : r.Unmoved p) {installed : Resolver}
    (hanswers : ∀ s, (p.setResolver installed).baseline s = q.baseline s) (s : Subject) :
    (p.setResolver installed).recorded? s = (r.recorded? s).map (fun _ => q.baseline s) := by
  rw [recorded?_setResolver, hp.recorded?_eq, hanswers]

/-- Final severities are up to date in both and vetoes and layers are the same, so that the baselines decide. -/
theorem standings_told_eq_swapped (hr : r.ReachedOver P) (hq : r.Unmoved q) (hp : r.Unmoved p)
    {subjects : List Subject} {installed : Resolver}
    (hall : ∀ s b, r.recorded? s = some b → b ≠ q.baseline s → s ∈ subjects)
    (hanswers : ∀ s, (p.setResolver installed).baseline s = q.baseline s) :
    (q.configurationChanged subjects).standings = (p.setResolver installed).standings := by
  have htold := (hq.reached hr).configurationChanged subjects
  have hswapped := (hp.reached hr).setResolver installed
  refine Table.ext fun s => standing_ext ?_ ?_ ?_
  · exact (recorded?_told_of_complete hq hall s).trans (recorded?_swapped hp hanswers s).symm
  · have hresults : (q.configurationChanged subjects).resultingSeverity s =
        (p.setResolver installed).resultingSeverity s := by
      have hcontext : (q.configurationChanged subjects).resultingSeverity s = q.resultingSeverity s :=
        funext (resultingSeverity_eq_of_context (context_configurationChanged subjects) s)
      have hcontext' : (p.setResolver installed).resultingSeverity s = p.resultingSeverity s :=
        funext (resultingSeverity_eq_of_context (context_setResolver installed) s)
      rw [hcontext, hcontext', hq.resultingSeverity_eq, hp.resultingSeverity_eq]
    have hfinal : (q.configurationChanged subjects).final? s = (p.setResolver installed).final? s := by
      rw [htold.upToDate.final?_eq, hswapped.upToDate.final?_eq, hresults, recorded?_told_of_complete hq hall,
        recorded?_swapped hp hanswers]
    exact hfinal
  · have happlied := (hq.sameFooting.trans (sameFooting_configurationChanged subjects)).dealings s
    have happlied' := (hp.sameFooting.trans (sameFooting_setResolver installed)).dealings s
    exact happlied.trans happlied'.symm

theorem tally_eq_of_standings (hq : q.Counted) (hp : p.Counted) (h : q.standings = p.standings) :
    q.tally = p.tally := by
  refine Eq.trans hq (Eq.trans ?_ hp.symm)
  rw [h]

/-- After every history, and whatever the resolver would answer by now: to name some subjects records the new answers
about those among them that are tracked, and leaves all other baselines alone. It calls for another pass, where one is
being carried out, just if one of these answers is another one. And where no tracked subject is forgotten of which the
answer is another one, it leaves the same standings and the same count of dirty subjects as to put any resolver in place
that gives the new answers. -/
theorem reconfiguration_exact (catalog : Catalog) (settings : Settings) (resolver : Resolver)
    (history : List Occurrence) :
    let r := (initial catalog settings resolver).replay history
    ∀ q, r.Unmoved q → ∀ subjects,
      let told := q.configurationChanged subjects
      (∀ s, told.recorded? s =
        if s ∈ subjects then (r.recorded? s).map (fun _ => q.baseline s) else r.recorded? s) ∧
      (told.wantsReapply = true ↔ r.wantsReapply = true ∨
        (r.isApplying = true ∧ ∃ s ∈ subjects, ∃ b, r.recorded? s = some b ∧ b ≠ q.baseline s)) ∧
      ((∀ s b, r.recorded? s = some b → b ≠ q.baseline s → s ∈ subjects) →
        ∀ p installed, r.Unmoved p → (∀ s, (p.setResolver installed).baseline s = q.baseline s) →
          told.standings = (p.setResolver installed).standings ∧
            told.dirtyCount = (p.setResolver installed).dirtyCount) := by
  intro r q hq subjects told
  have hr : r.ReachedOver fun _ => True := reachedOver_replay catalog settings resolver history
  refine ⟨recorded?_told hq subjects, ?_, ?_⟩
  · obtain ⟨content, source, rfl⟩ := hq
    exact wantsReapply_configurationChanged subjects
  · intro hall p installed hp hanswers
    have hstandings := standings_told_eq_swapped hr hq hp hall hanswers
    have htold := (hq.reached hr).configurationChanged subjects
    have hswapped := (hp.reached hr).setResolver installed
    exact ⟨hstandings, congrArg Tally.count (tally_eq_of_standings htold.counted hswapped.counted hstandings)⟩

def fan : Component := ⟨"fan", "1", none, [], none⟩

/-- In the evening, while a pass is being carried out, the fan is out of order. -/
def repairs : List Occurrence :=
  [.asked (.addLayer evening false), .asked (.recordFailure "fan" "stuck"), .passBegins]

/-- The settings once the fan is wanted and the lamp too, though less than the evening wants it. -/
def warmer : Settings :=
  { Settings.empty with user := (Table.empty.insert (.component "fan") .mandatory).insert (.component "lamp") .present }

/-- The fan is named twice, and nobody knows the ghost. -/
def named : List Subject := [.component "fan", .service "ghost", .component "lamp", .component "fan"]

theorem reconfiguration_exact_repairs :
    let r := (initial ((Catalog.empty.insertComponent lamp).insertComponent fan) .empty .store).replay repairs
    let told := (r.editSettings warmer).configurationChanged named
    told.recorded? (.component "fan") = some .mandatory ∧ told.final? (.component "fan") = some .excluded ∧
      told.wantsReapply = true ∧ told.standings = (r.setResolver (.custom warmer.baseline)).standings := by
  intro r told
  have hedited : r.Unmoved (r.editSettings warmer) := ⟨warmer, r.resolver, rfl⟩
  obtain ⟨hrecorded, hnoted, hswapped⟩ :=
    reconfiguration_exact ((Catalog.empty.insertComponent lamp).insertComponent fan) .empty .store repairs
      (r.editSettings warmer) hedited named
  have hcomplete : ∀ s b, r.recorded? s = some b → b ≠ (r.editSettings warmer).baseline s → s ∈ named := by
    intro s b hb _
    have htracked : s ∈ r.standings.subjects := by
      rw [Table.mem_subjects, contains_eq_recorded?, hb, Option.isSome_some]
    have hsubjects : r.standings.subjects = [.component "fan", .component "lamp"] := by decide +kernel
    rw [hsubjects] at htracked
    have hnamed : [Subject.component "fan", .component "lamp"] ⊆ named := by decide
    exact hnamed htracked
  refine ⟨?_, by decide +kernel, ?_, ?_⟩
  · exact (hrecorded (.component "fan")).trans (by decide +kernel)
  · exact hnoted.mpr (.inr ⟨by decide +kernel, .component "fan", by decide, .passive, by decide +kernel, by decide⟩)
  · refine (hswapped hcomplete r (.custom warmer.baseline) ⟨r.settings, r.resolver, rfl⟩ fun s => ?_).1
    exact (baseline_eq_of_context (context_setResolver _) s).trans rfl

end Requirements

end Orchestrator
