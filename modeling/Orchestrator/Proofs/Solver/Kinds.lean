import Orchestrator.Proofs.Solver.Separation
/-!
What kind of answer the solver gives. Whether it refuses to search, finds that nothing can be done or makes a plan is
decided by the catalog, the severities and the limit alone: what runs and whether running components may be stopped
settle which components are locked to what, but not which are locked, and they only enter the costs.
-/

namespace Orchestrator

open Solver Solver.Problem

namespace Snapshot

variable {s : Snapshot} {stopsRunning : Bool} {options options' : SolverOptions} {c : Component}

/-- Nothing but the search decides on the component: it is neither mandatory nor independent, nor is it the only one
left to implement a service that has to run. -/
def isUndecided (s : Snapshot) (c : Component) : Bool :=
  s.componentSeverity c.id != .mandatory && !c.isIndependent && !s.isSole c

/-- How many components are left to the search. -/
def undecided (s : Snapshot) : Nat := s.admitted.countP s.isUndecided

theorem lock_isNone (s : Snapshot) (stopsRunning : Bool) (c : Component) :
    (s.lock stopsRunning c).isNone = s.isUndecided c := by
  unfold lock ownLock isUndecided
  cases s.isSole c with
  | true => simp
  | false =>
      cases hmandatory : s.componentSeverity c.id == .mandatory with
      | true => simp_all
      | false => cases c.isIndependent <;> simp_all

theorem free_eq_undecided (s : Snapshot) (stopsRunning : Bool) : (s.problem stopsRunning).free = s.undecided := by
  rw [free_eq_countP, undecided]
  exact List.countP_congr fun c _ => by rw [lock_isNone]

theorem isLost_eq_false_iff : s.isLost = false ↔
    ∀ x ∈ s.catalog.serviceList, x.isExternal = false → s.serviceSeverity x.id = .mandatory →
      ∃ c ∈ s.admitted, c.implements = some x.id := by
  rw [isLost, List.any_eq_false]
  refine forall₂_congr fun x _ => ?_
  simp only [isDemanded, Bool.and_eq_true, Bool.not_eq_true', beq_iff_eq, List.isEmpty_iff, and_imp, not_and]
  refine forall₂_congr fun _ _ => ?_
  rw [← ne_eq, List.ne_nil_iff_exists_cons]
  constructor
  · rintro ⟨c, rest, hcons⟩
    have hc : c ∈ s.implementers x.id := hcons ▸ List.mem_cons_self
    exact ⟨c, mem_implementers.mp hc⟩
  · rintro ⟨c, hc⟩
    exact List.exists_cons_of_ne_nil (List.ne_nil_of_mem (mem_implementers.mpr hc))

/-- The solver refuses to search just if no service that has to run is lost and more than the limit is undecided. -/
theorem solve_eq_searchTooLarge_iff (hk : s.catalog.Keyed) {free limit : Nat} :
    solve s stopsRunning options = .error (.searchTooLarge free limit) ↔
      s.isLost = false ∧ free = s.undecided ∧ limit = options.limit ∧ options.limit < s.undecided := by
  cases hlost : s.isLost with
  | true => simp [solve_of_lost hk hlost]
  | false =>
      by_cases hlarge : options.limit < s.undecided
      · rw [solve_of_large hk hlost (by rwa [free_eq_undecided]), free_eq_undecided]
        simp [hlarge, eq_comm]
      · have hfits : (s.problem stopsRunning).free ≤ options.limit := by
          rw [free_eq_undecided]
          exact Nat.le_of_not_lt hlarge
        rcases solve_of_fits hk hlost hfits with ⟨himpossible, -⟩ | ⟨runs, -, hready⟩
        · simp [himpossible, hlarge]
        · simp [hready, hlarge]

/-- Where neither of two options makes the solver refuse to search, both find the same. -/
theorem solve_congr_options (hk : s.catalog.Keyed)
    (hsearched : ∀ free limit, solve s stopsRunning options ≠ .error (.searchTooLarge free limit))
    (hsearched' : ∀ free limit, solve s stopsRunning options' ≠ .error (.searchTooLarge free limit)) :
    solve s stopsRunning options = solve s stopsRunning options' := by
  cases hlost : s.isLost with
  | true => rw [solve_of_lost hk hlost, solve_of_lost hk hlost]
  | false =>
      have hfits : ∀ {o : SolverOptions}, (∀ free limit, solve s stopsRunning o ≠ .error (.searchTooLarge free limit)) →
          ¬ o.limit < (s.problem stopsRunning).free :=
        fun hsearched hlarge => hsearched _ _ (solve_of_large hk hlost hlarge)
      have hsame : (s.problem stopsRunning).search options = (s.problem stopsRunning).search options' :=
        ((s.problem stopsRunning).search_isLeast options).unique ((s.problem stopsRunning).search_isLeast options')
      unfold solve
      simp only [ofSnapshot?_of_not_lost hk hlost, if_neg (hfits hsearched), if_neg (hfits hsearched'), hsame]

end Snapshot

namespace Solver

/-- Two answers of one kind: both refuse for the same reason, or both find that nothing can be done, or both are
plans. -/
inductive SameKind : Except Fault Plan → Except Fault Plan → Prop
  | refused (fault : Fault) : SameKind (.error fault) (.error fault)
  | impossible : SameKind (.ok .impossible) (.ok .impossible)
  | ready (p q : Steps) : SameKind (.ok (.ready p)) (.ok (.ready q))

/-- Feasibility does not ask what runs, nor which stops are wanted. -/
theorem sameKind_withRunning {s : Snapshot} (hk : s.catalog.Keyed) {options options' : SolverOptions}
    (hlimit : options'.limit = options.limit) (running : IdSet) (stopsRunning stopsRunning' : Bool) :
    SameKind (solve s stopsRunning options) (solve (s.withRunning running) stopsRunning' options') := by
  have hk' : (s.withRunning running).catalog.Keyed := hk
  cases hlost : s.isLost with
  | true =>
      have hlost' : (s.withRunning running).isLost = true := hlost
      rw [Snapshot.solve_of_lost hk hlost, Snapshot.solve_of_lost hk' hlost']
      exact .impossible
  | false =>
      have hlost' : (s.withRunning running).isLost = false := hlost
      have hfree : ((s.withRunning running).problem stopsRunning').free = (s.problem stopsRunning).free := by
        rw [Snapshot.free_eq_undecided, Snapshot.free_eq_undecided]
        rfl
      by_cases hlarge : options.limit < (s.problem stopsRunning).free
      · have hlarge' : options'.limit < ((s.withRunning running).problem stopsRunning').free := by
          rwa [hlimit, hfree]
        rw [Snapshot.solve_of_large hk hlost hlarge, Snapshot.solve_of_large hk' hlost' hlarge', hfree, hlimit]
        exact .refused _
      · have hfits : (s.problem stopsRunning).free ≤ options.limit := Nat.le_of_not_lt hlarge
        have hfits' : ((s.withRunning running).problem stopsRunning').free ≤ options'.limit := by
          rwa [hlimit, hfree]
        rcases Snapshot.solve_of_fits hk hlost hfits with ⟨himpossible, hnone⟩ | ⟨runs, hpreferred, hready⟩
        · rcases Snapshot.solve_of_fits hk' hlost' hfits' with ⟨himpossible', -⟩ | ⟨runs, hpreferred, -⟩
          · rw [himpossible, himpossible']
            exact .impossible
          · exact absurd (Snapshot.feasible_withRunning.mp hpreferred.leastCharged.feasible) (hnone runs)
        · rcases Snapshot.solve_of_fits hk' hlost' hfits' with ⟨-, hnone⟩ | ⟨runs', -, hready'⟩
          · exact absurd (Snapshot.feasible_withRunning.mpr hpreferred.leastCharged.feasible) (hnone runs)
          · rw [hready, hready']
            exact .ready _ _

/-- The solver refuses to search just if every service that has to run here has an admitted implementation left and more
components are undecided than the limit, which is never above 63, and then it says how many. What runs and whether
running components may be stopped make no difference to the kind of answer, nor do options with the same limit; and no
two options that let it search make a difference to the answer itself. -/
theorem solve_kind (s : Snapshot) (stopsRunning : Bool) (options : SolverOptions) (hk : s.catalog.Keyed) :
    (∀ free limit, solve s stopsRunning options = .error (.searchTooLarge free limit) ↔
      (∀ x ∈ s.catalog.serviceList, x.isExternal = false → s.serviceSeverity x.id = .mandatory →
        ∃ c ∈ s.admitted, c.implements = some x.id) ∧
      free = s.undecided ∧ limit = min options.maxFree.toNat 63 ∧ limit < free) ∧
    (∀ running stopsRunning' options', options'.limit = options.limit →
      SameKind (solve s stopsRunning options) (solve { s with running } stopsRunning' options')) ∧
    ∀ options', (∀ free limit, solve s stopsRunning options ≠ .error (.searchTooLarge free limit)) →
      (∀ free limit, solve s stopsRunning options' ≠ .error (.searchTooLarge free limit)) →
      solve s stopsRunning options = solve s stopsRunning options' := by
  refine ⟨?_, fun running stopsRunning' options' hlimit => ?_, fun options' => Snapshot.solve_congr_options hk⟩
  · intro free limit
    rw [Snapshot.solve_eq_searchTooLarge_iff hk, Snapshot.isLost_eq_false_iff]
    refine and_congr_right fun _ => and_congr_right fun hfree => and_congr_right fun hlimit => ?_
    rw [hfree, hlimit]
  · exact sameKind_withRunning hk hlimit running stopsRunning stopsRunning'

/-- Flash and tape are undecided. That is one too many if only one may be, and it makes no difference who runs and
whether they may stop. -/
theorem solve_kind_rivals :
    rivals.catalog.Keyed ∧ solve rivals false ⟨1, 14⟩ = .error (.searchTooLarge 2 1) ∧
      SameKind (solve rivals false ⟨1, 14⟩) (solve { rivals with running := .empty } true ⟨1, 0⟩) ∧
      SameKind (solve rivals false .standard) (solve { rivals with running := .empty } true .standard) ∧
      solve rivals false .standard = solve rivals false ⟨2, 0⟩ := by
  obtain ⟨hrefuses, hkind, -⟩ := solve_kind rivals false ⟨1, 14⟩ rivalry_keyed
  obtain ⟨-, hkind', hplan⟩ := solve_kind rivals false .standard rivalry_keyed
  have hstore : ∀ x ∈ rivals.catalog.serviceList, x.isExternal = false → rivals.serviceSeverity x.id = .mandatory →
      ∃ c ∈ rivals.admitted, c.implements = some x.id := by decide +kernel
  have hundecided : rivals.undecided = 2 := by decide +kernel
  refine ⟨rivalry_keyed, (hrefuses 2 1).mpr ⟨hstore, hundecided.symm, rfl, by decide⟩,
    hkind .empty true ⟨1, 0⟩ rfl, hkind' .empty true .standard rfl, hplan ⟨2, 0⟩ nofun nofun⟩

end Solver

end Orchestrator
