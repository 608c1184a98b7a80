import Orchestrator.Proofs.Solver.Union
/-!
Unrelated catalogs side by side. Two catalogs that share no identifier and mention nothing of each other can be planned
together or one by one, as long as costs fit into a word: the answer for both is made of the answers for each, down to
which of several equally cheap choices is taken. Then a component that concerns nobody can be added without moving any
other.
-/

namespace Orchestrator

open Solver Solver.Problem

namespace Snapshot

variable {s : Snapshot} {stopsRunning : Bool} {options : SolverOptions}

/-! ## The answers of the solver -/

/-- A service that has to run lost every implementation. -/
def isLost (s : Snapshot) : Bool :=
  s.catalog.serviceList.any (fun x => s.isDemanded x && (s.implementers x.id).isEmpty)

theorem ofSnapshot?_of_not_lost (hk : s.catalog.Keyed) (hlost : s.isLost = false) :
    Problem.ofSnapshot? s stopsRunning = some (s.problem stopsRunning) := by
  rw [ofSnapshot?_eq hk]
  exact if_neg (Bool.eq_false_iff.mp hlost)

theorem solve_of_lost (hk : s.catalog.Keyed) (hlost : s.isLost = true) :
    solve s stopsRunning options = .ok .impossible := by
  have hnone : Problem.ofSnapshot? s stopsRunning = none := by
    rw [ofSnapshot?_eq hk]
    exact if_pos hlost
  rw [solve, hnone]

theorem solve_of_large (hk : s.catalog.Keyed) (hlost : s.isLost = false)
    (hlarge : options.limit < (s.problem stopsRunning).free) :
    solve s stopsRunning options = .error (.searchTooLarge (s.problem stopsRunning).free options.limit) := by
  rw [solve, ofSnapshot?_of_not_lost hk hlost]
  exact if_pos hlarge

/-- Within the limit the solver makes the plan of the preferred choice, or there is no feasible choice. -/
theorem solve_of_fits (hk : s.catalog.Keyed) (hlost : s.isLost = false)
    (hfits : (s.problem stopsRunning).free ≤ options.limit) :
    (solve s stopsRunning options = .ok .impossible ∧ ∀ runs, ¬ s.Feasible runs) ∨
      ∃ runs, s.Preferred stopsRunning runs ∧
        solve s stopsRunning options = .ok (.ready (s.stepsTo stopsRunning runs)) := by
  cases hsearch : (s.problem stopsRunning).search options with
  | none =>
      refine .inl ⟨?_, fun runs => search_none hk hsearch⟩
      rw [solve, ofSnapshot?_of_not_lost hk hlost]
      simp only [Nat.not_lt.mpr hfits, if_false, hsearch]
  | some best =>
      obtain ⟨runs, hpreferred, -, -⟩ := preferred_of_search hk hsearch
      exact .inr ⟨runs, hpreferred, (solve_eq_ready_iff_preferred hk).mpr ⟨hlost, hfits, runs, hpreferred, rfl⟩⟩

end Snapshot

/-- The steps of one plan are those of two others together. -/
structure Steps.Joins (p left right : Steps) : Prop where
  start : ∀ id, id ∈ p.start ↔ id ∈ left.start ∨ id ∈ right.start
  stop : ∀ id, id ∈ p.stop ↔ id ∈ left.stop ∨ id ∈ right.stop
  exclude : ∀ id, id ∈ p.exclude ↔ id ∈ left.exclude ∨ id ∈ right.exclude
  cost : p.cost = left.cost + right.cost

/-- What two choices say, the first of the components of a snapshot and the second of all others. -/
def Snapshot.combine (s : Snapshot) (runs other : String → Bool) (id : String) : Bool :=
  if s.has id then runs id else other id

namespace Snapshot.Splits

variable {whole left right : Snapshot} (h : whole.Splits left right) {stopsRunning : Bool} {options : SolverOptions}

include h

theorem isLost_eq : whole.isLost = (left.isLost || right.isLost) := by
  have hpart : ∀ {part : Snapshot}, part.PartOf whole → part.isLost =
      part.catalog.serviceList.any (fun x => whole.isDemanded x && (whole.implementers x.id).isEmpty) := by
    intro part hpart
    refine Bool.eq_iff_iff.mpr ?_
    rw [isLost, List.any_eq_true, List.any_eq_true]
    refine exists_congr fun x => and_congr_right fun hx => ?_
    rw [hpart.isDemanded_eq, hpart.implementers_eq (hpart.contains_of_mem hx)]
  rw [hpart h.isLeft, hpart h.isRight, ← List.any_append, h.services_perm.any_eq, isLost]

theorem mem_componentList {c : Component} : c ∈ whole.catalog.componentList ↔
    c ∈ left.catalog.componentList ∨ c ∈ right.catalog.componentList := by
  constructor
  · intro hc
    have hside := h.component c hc
    rw [← h.isLeft.has_iff hc, ← h.isRight.has_iff hc, hside]
    cases left.has c.id <;> simp
  · exact fun hc => hc.elim (h.isLeft.components c) (h.isRight.components c)

/-- The parts are rid of the same components together as the whole, whatever is chosen. -/
theorem mem_exclude {runs leftRuns rightRuns : String → Bool} (id : String) :
    id ∈ (whole.stepsTo stopsRunning runs).exclude ↔
      id ∈ (left.stepsTo stopsRunning leftRuns).exclude ∨ id ∈ (right.stepsTo stopsRunning rightRuns).exclude := by
  have hwhole : (whole.stepsTo stopsRunning runs).Realizes whole runs := stepsTo_realizes h.isLeft.wholeKeyed
  have hleft : (left.stepsTo stopsRunning leftRuns).Realizes left leftRuns := stepsTo_realizes h.isLeft.keyed
  have hright : (right.stepsTo stopsRunning rightRuns).Realizes right rightRuns := stepsTo_realizes h.isRight.keyed
  simp only [hwhole.exclude, hleft.exclude, hright.exclude, h.mem_componentList, or_and_right, exists_or]
  refine or_congr ?_ ?_
  · exact exists_congr fun c => and_congr_right fun hc => by rw [h.isLeft.isBarred_eq hc]
  · exact exists_congr fun c => and_congr_right fun hc => by rw [h.isRight.isBarred_eq hc]

/-- The steps to a choice for the whole are those to what it says of the parts. -/
theorem stepsTo_joins (hfits : whole.catalog.CostsFit) {runs leftRuns rightRuns : String → Bool}
    (hsame : ∀ c ∈ left.admitted, runs c.id = leftRuns c.id)
    (hsame' : ∀ c ∈ right.admitted, runs c.id = rightRuns c.id) :
    (whole.stepsTo stopsRunning runs).Joins (left.stepsTo stopsRunning leftRuns)
      (right.stepsTo stopsRunning rightRuns) := by
  have hwhole : (whole.stepsTo stopsRunning runs).Realizes whole runs := stepsTo_realizes h.isLeft.wholeKeyed
  have hleft : (left.stepsTo stopsRunning leftRuns).Realizes left runs :=
    (stepsTo_realizes h.isLeft.keyed).congr fun c hc => (hsame c hc).symm
  have hright : (right.stepsTo stopsRunning rightRuns).Realizes right runs :=
    (stepsTo_realizes h.isRight.keyed).congr fun c hc => (hsame' c hc).symm
  refine ⟨?_, ?_, h.mem_exclude, ?_⟩
  · intro id
    simp only [hwhole.start, hleft.start, hright.start, h.mem_admitted, h.isLeft.isRunning_eq, h.isRight.isRunning_eq,
      or_and_right, exists_or]
  · intro id
    simp only [hwhole.stop, hleft.stop, hright.stop, h.mem_admitted, h.isLeft.isRunning_eq, h.isRight.isRunning_eq,
      or_and_right, exists_or]
  · change whole.charge stopsRunning runs = left.charge stopsRunning leftRuns + right.charge stopsRunning rightRuns
    rw [h.charge_eq hfits, charge_congr hsame, charge_congr hsame']

theorem combine_left {leftRuns rightRuns : String → Bool} :
    ∀ c ∈ left.admitted, left.combine leftRuns rightRuns c.id = leftRuns c.id :=
  fun _ hc => if_pos (h.isLeft.mem_admitted_iff.mp hc).2

theorem combine_right {leftRuns rightRuns : String → Bool} :
    ∀ c ∈ right.admitted, left.combine leftRuns rightRuns c.id = rightRuns c.id := by
  intro c hc
  have hmine := (h.isRight.mem_admitted_iff.mp hc).2
  rw [h.component c (h.isRight.components c (Snapshot.mem_admitted.mp hc).1), Bool.not_eq_true'] at hmine
  exact if_neg (Bool.eq_false_iff.mp hmine)

theorem feasible_combine {leftRuns rightRuns : String → Bool} (hleft : left.Feasible leftRuns)
    (hright : right.Feasible rightRuns) : whole.Feasible (left.combine leftRuns rightRuns) :=
  h.feasible_iff.mpr ⟨hleft.congr fun c hc => (h.combine_left c hc).symm,
    hright.congr fun c hc => (h.combine_right c hc).symm⟩

/-- Where no part is lost, the answer for the whole is made of the choices that are preferred for the parts. -/
theorem solve_searched (hleft : left.isLost = false) (hright : right.isLost = false)
    (hfree : (left.problem stopsRunning).free + (right.problem stopsRunning).free ≤ options.limit) :
    (solve whole stopsRunning options = .ok .impossible ∧
        (solve left stopsRunning options = .ok .impossible ∨ solve right stopsRunning options = .ok .impossible)) ∨
      ∃ p q r, solve whole stopsRunning options = .ok (.ready p) ∧ solve left stopsRunning options = .ok (.ready q) ∧
        solve right stopsRunning options = .ok (.ready r) ∧
        (∀ id, id ∈ p.exclude ↔ id ∈ q.exclude ∨ id ∈ r.exclude) ∧ (whole.catalog.CostsFit → p.Joins q r) := by
  have hfree' : (whole.problem stopsRunning).free ≤ options.limit := h.free_eq ▸ hfree
  have hfound : whole.isLost = false := by rw [h.isLost_eq, hleft, hright, Bool.or_false]
  rcases solve_of_fits h.isLeft.wholeKeyed hfound hfree' with ⟨hp, hinfeasible⟩ | ⟨runs, hruns, hp⟩
  · refine .inl ⟨hp, ?_⟩
    rcases solve_of_fits h.isLeft.keyed hleft (Nat.le_of_add_right_le hfree) with ⟨hq, -⟩ | ⟨leftRuns, hleftRuns, -⟩
    · exact .inl hq
    rcases solve_of_fits h.isRight.keyed hright (Nat.le_of_add_left_le hfree) with ⟨hr, -⟩ | ⟨rightRuns, hrightRuns, -⟩
    · exact .inr hr
    · exact absurd (h.feasible_combine hleftRuns.leastCharged.feasible hrightRuns.leastCharged.feasible) (hinfeasible _)
  · have hf := h.feasible_iff.mp hruns.leastCharged.feasible
    rcases solve_of_fits h.isLeft.keyed hleft (Nat.le_of_add_right_le hfree) with ⟨-, hnone⟩ | ⟨leftRuns, hleftRuns, hq⟩
    · exact absurd hf.1 (hnone runs)
    rcases solve_of_fits h.isRight.keyed hright (Nat.le_of_add_left_le hfree) with
      ⟨-, hnone⟩ | ⟨rightRuns, hrightRuns, hr⟩
    · exact absurd hf.2 (hnone runs)
    refine .inr ⟨_, _, _, hp, hq, hr, h.mem_exclude, fun hfits => ?_⟩
    have hpreferred := h.preferred hfits h.combine_left h.combine_right hleftRuns hrightRuns
    have hcombined := (solve_eq_ready_iff_preferred h.isLeft.wholeKeyed).mpr ⟨hfound, hfree', _, hpreferred, rfl⟩
    rw [Plan.ready.inj (Except.ok.inj (hp.symm.trans hcombined))]
    exact h.stepsTo_joins hfits h.combine_left h.combine_right

/-- The answer for the whole is made of the answers for the parts. -/
theorem solve_parts (stopsRunning : Bool) (options : SolverOptions)
    (hfree : left.isLost = false → right.isLost = false →
      (left.problem stopsRunning).free + (right.problem stopsRunning).free ≤ options.limit) :
    (solve whole stopsRunning options = .ok .impossible ∧
        (solve left stopsRunning options = .ok .impossible ∨ solve right stopsRunning options = .ok .impossible)) ∨
      ∃ p q r, solve whole stopsRunning options = .ok (.ready p) ∧ solve left stopsRunning options = .ok (.ready q) ∧
        solve right stopsRunning options = .ok (.ready r) ∧
        (∀ id, id ∈ p.exclude ↔ id ∈ q.exclude ∨ id ∈ r.exclude) ∧ (whole.catalog.CostsFit → p.Joins q r) := by
  have hwhole := h.isLost_eq
  cases hleft : left.isLost with
  | true =>
      rw [hleft, Bool.true_or] at hwhole
      exact .inl ⟨solve_of_lost h.isLeft.wholeKeyed hwhole, .inl (solve_of_lost h.isLeft.keyed hleft)⟩
  | false =>
      cases hright : right.isLost with
      | true =>
          rw [hright, Bool.or_true] at hwhole
          exact .inl ⟨solve_of_lost h.isLeft.wholeKeyed hwhole, .inr (solve_of_lost h.isRight.keyed hright)⟩
      | false => exact h.solve_searched hleft hright (hfree hleft hright)

end Snapshot.Splits

/-! ## A component that concerns nobody -/

/-- The catalog of one component. -/
def Catalog.lone (x : Component) : Catalog := Catalog.empty.insertComponent x

section Lone

variable {a : Catalog} {x c : Component} {s : Snapshot} {severities : Table Severity} {running : IdSet}
  {stopsRunning : Bool} {options : SolverOptions}

theorem Catalog.union_lone (a : Catalog) (x : Component) : a.union (.lone x) = a.insertComponent x := rfl

theorem Catalog.mem_lone : c ∈ (Catalog.lone x).componentList ↔ c = x := List.mem_singleton

theorem Catalog.unrelated_lone (hx : x.isIndependent = true) (hnew : a.components.contains x.id = false) :
    a.Unrelated (.lone x) where
  components := by
    intro id hid
    refine Bool.eq_false_of_not_eq_true fun hlone => ?_
    obtain ⟨c, hc⟩ := Option.isSome_iff_exists.mp hlone
    simp only [lone, insertComponent, IdMap.get?_insert] at hc
    split at hc
    next heq =>
      rw [heq, hnew] at hid
      cases hid
    next => cases hc
  services := fun _ _ => rfl
  mentions := fun _ _ _ _ => rfl
  mentioned := by
    intro c hc id hid
    obtain ⟨himplements, hdependencies⟩ := Component.isIndependent_iff.mp hx
    rw [mem_lone.mp hc] at hid
    simp [Component.mentions, himplements, hdependencies] at hid

namespace Snapshot

theorem lock_of_isIndependent (hc : c.isIndependent = true) : (s.lock stopsRunning c).isNone = false := by
  unfold lock ownLock
  simp only [hc, if_true]
  split
  · rfl
  · split <;> rfl

theorem free_lone (hx : x.isIndependent = true) :
    (problem ⟨.lone x, severities, running⟩ stopsRunning).free = 0 := by
  rw [free_eq_countP, List.countP_eq_zero]
  intro c hc
  rw [Catalog.mem_lone.mp (mem_admitted.mp hc).1, lock_of_isIndependent hx]
  exact Bool.false_ne_true

/-- To run alone is always feasible for a component that depends on nothing. -/
theorem feasible_lone (hx : x.isIndependent = true) :
    Feasible ⟨.lone x, severities, running⟩ (fun _ => true) where
  exclusive := nofun
  mandatory := fun _ _ _ => rfl
  served := nofun
  met := by
    intro c hc _ d hd
    rw [Catalog.mem_lone.mp (mem_admitted.mp hc).1, (Component.isIndependent_iff.mp hx).2] at hd
    cases hd

/-- A plan names components of its catalog only. -/
theorem named_of_ready (hk : s.catalog.Keyed) {p : Steps} {id : String}
    (h : solve s stopsRunning options = .ok (.ready p)) (hid : id ∈ p.start ∨ id ∈ p.stop ∨ id ∈ p.exclude) :
    ∃ c ∈ s.catalog.componentList, c.id = id := by
  obtain ⟨runs, rfl, -⟩ := solve_ready hk h
  have hrealizes : (s.stepsTo stopsRunning runs).Realizes s runs := stepsTo_realizes hk
  rw [hrealizes.start, hrealizes.stop, hrealizes.exclude] at hid
  rcases hid with ⟨c, hc, hname, -⟩ | ⟨c, hc, hname, -⟩ | ⟨c, hc, hname, -⟩
  · exact ⟨c, (mem_admitted.mp hc).1, hname⟩
  · exact ⟨c, (mem_admitted.mp hc).1, hname⟩
  · exact ⟨c, hc, hname⟩

end Snapshot

namespace Solver

/-- Two answers of the solver that differ at most in what they do with one component, if costs fit into a word; in any
case they are of one kind and exclude the same others. -/
inductive AgreeBut (id : String) (fits : Prop) : Except Fault Plan → Except Fault Plan → Prop
  | fault (fault : Fault) : AgreeBut id fits (.error fault) (.error fault)
  | impossible : AgreeBut id fits (.ok .impossible) (.ok .impossible)
  | ready {p q : Steps} (hexclude : ∀ other, other ≠ id → (other ∈ p.exclude ↔ other ∈ q.exclude))
      (hsame : fits → ∀ other, other ≠ id → (other ∈ p.start ↔ other ∈ q.start) ∧ (other ∈ p.stop ↔ other ∈ q.stop)) :
      AgreeBut id fits (.ok (.ready p)) (.ok (.ready q))

/-- A component that concerns nobody moves no other, as long as costs fit into a word. -/
theorem solve_insertComponent (ha : a.Keyed) (hx : x.isIndependent = true)
    (hnew : a.components.contains x.id = false) (severities : Table Severity) (running : IdSet) (stopsRunning : Bool)
    (options : SolverOptions) :
    AgreeBut x.id (a.insertComponent x).CostsFit (solve ⟨a, severities, running⟩ stopsRunning options)
      (solve ⟨a.insertComponent x, severities, running⟩ stopsRunning options) := by
  have hb : (Catalog.lone x).Keyed := Catalog.keyed_empty.insertComponent x
  have hsplits := Snapshot.splits_union (Catalog.unrelated_lone hx hnew) ha hb severities running
  rw [Catalog.union_lone] at hsplits
  have hwhole := ha.insertComponent x
  have hlone : Snapshot.isLost ⟨.lone x, severities, running⟩ = false := rfl
  have hzero : (Snapshot.problem ⟨.lone x, severities, running⟩ stopsRunning).free = 0 := Snapshot.free_lone hx
  have hfree : (Snapshot.problem ⟨a.insertComponent x, severities, running⟩ stopsRunning).free =
      (Snapshot.problem ⟨a, severities, running⟩ stopsRunning).free := by
    rw [hsplits.free_eq, hzero, Nat.add_zero]
  have hlost := hsplits.isLost_eq
  rw [hlone, Bool.or_false] at hlost
  by_cases hlarge : Snapshot.isLost ⟨a, severities, running⟩ = false ∧
      options.limit < (Snapshot.problem ⟨a, severities, running⟩ stopsRunning).free
  · obtain ⟨hposed, hlarge⟩ := hlarge
    rw [Snapshot.solve_of_large ha hposed hlarge, Snapshot.solve_of_large hwhole (hlost.trans hposed) (hfree ▸ hlarge),
      hfree]
    exact .fault _
  · have hsolved := hsplits.solve_parts stopsRunning options fun hposed _ => by
      have := Nat.not_lt.mp fun h => hlarge ⟨hposed, h⟩
      omega
    rcases hsolved with ⟨hp, hq | hr⟩ | ⟨p, q, r, hp, hq, hr, hexclude, hjoins⟩
    · rw [hp, hq]
      exact .impossible
    · -- Alone, the component can always be planned for.
      rcases Snapshot.solve_of_fits hb hlone (hzero ▸ Nat.zero_le options.limit) with ⟨-, hnone⟩ | ⟨runs, -, hready⟩
      · exact absurd (Snapshot.feasible_lone hx) (hnone _)
      · rw [hready] at hr
        cases hr
    · rw [hp, hq]
      have hother : ∀ other, other ≠ x.id → ¬ (other ∈ r.start ∨ other ∈ r.stop ∨ other ∈ r.exclude) := by
        intro other hne hnamed
        obtain ⟨c, hc, hname⟩ := Snapshot.named_of_ready hb hr hnamed
        exact hne (hname ▸ congrArg Component.id (Catalog.mem_lone.mp hc))
      refine .ready (fun other hne => ?_) (fun hfits other hne => ?_)
      · have hnot := not_or.mp (not_or.mp (hother other hne)).2
        rw [hexclude, or_iff_left hnot.2]
      · have hnot := not_or.mp (hother other hne)
        rw [(hjoins hfits).start, (hjoins hfits).stop, or_iff_left hnot.1, or_iff_left (not_or.mp hnot.2).1]
        exact ⟨.rfl, .rfl⟩

end Solver

end Lone

namespace Solver

/-- Unrelated catalogs do not influence each other: within the limit nothing can be done for both exactly if nothing can
be done for one of them, and else the plan for both excludes what the plans for each exclude and, as long as costs fit
into a word, is made of the plans for each. Then a component that concerns nobody moves no other. -/
theorem solve_union (a b : Catalog) (severities : Table Severity) (running : IdSet) (stopsRunning : Bool)
    (options : SolverOptions) (ha : a.Keyed) (hb : b.Keyed) (hab : a.Unrelated b)
    (hfits : ∀ p q, Problem.ofSnapshot? ⟨a, severities, running⟩ stopsRunning = some p →
      Problem.ofSnapshot? ⟨b, severities, running⟩ stopsRunning = some q → p.free + q.free ≤ options.limit) :
    (solve ⟨a.union b, severities, running⟩ stopsRunning options = .ok .impossible ↔
      solve ⟨a, severities, running⟩ stopsRunning options = .ok .impossible ∨
        solve ⟨b, severities, running⟩ stopsRunning options = .ok .impossible) ∧
    (solve ⟨a.union b, severities, running⟩ stopsRunning options ≠ .ok .impossible →
      ∃ p q r, solve ⟨a.union b, severities, running⟩ stopsRunning options = .ok (.ready p) ∧
        solve ⟨a, severities, running⟩ stopsRunning options = .ok (.ready q) ∧
        solve ⟨b, severities, running⟩ stopsRunning options = .ok (.ready r) ∧
        (∀ id, id ∈ p.exclude ↔ id ∈ q.exclude ∨ id ∈ r.exclude) ∧ ((a.union b).CostsFit → p.Joins q r)) ∧
    ∀ x, x.isIndependent = true → a.components.contains x.id = false → ∀ options,
      AgreeBut x.id (a.insertComponent x).CostsFit (solve ⟨a, severities, running⟩ stopsRunning options)
        (solve ⟨a.insertComponent x, severities, running⟩ stopsRunning options) := by
  have hsplits := Snapshot.splits_union hab ha hb severities running
  have hsolved := hsplits.solve_parts stopsRunning options fun hposed hposed' =>
    hfits _ _ (Snapshot.ofSnapshot?_of_not_lost ha hposed) (Snapshot.ofSnapshot?_of_not_lost hb hposed')
  refine ⟨?_, ?_, fun x hx hnew options => solve_insertComponent ha hx hnew severities running stopsRunning options⟩
  · rcases hsolved with ⟨hp, hparts⟩ | ⟨p, q, r, hp, hq, hr, -⟩
    · exact iff_of_true hp hparts
    · rw [hp, hq, hr]
      simp
  · intro hpossible
    rcases hsolved with ⟨hp, -⟩ | hready
    · exact absurd hp hpossible
    · exact hready

/-- Two lamps of which one has to burn. -/
def lamps : Catalog :=
  ((Catalog.empty.insertService ⟨"light", false, none⟩).insertComponent
    ⟨"arc", "1", some "light", [], none⟩).insertComponent ⟨"coil", "1", some "light", [], none⟩

/-- Two speakers of which one has to play; their identifiers are between and behind those of the lamps. -/
def speakers : Catalog :=
  ((Catalog.empty.insertService ⟨"sound", false, none⟩).insertComponent
    ⟨"bass", "1", some "sound", [], none⟩).insertComponent ⟨"drum", "1", some "sound", [], none⟩

/-- Light and sound are demanded, and the drum would be glad to play. -/
def evening : Table Severity :=
  ((Table.empty.insert (.service "light") .mandatory).insert (.service "sound") .mandatory).insert (.component "drum")
    .eagerPassive

theorem lamps_keyed : lamps.Keyed := ((Catalog.keyed_empty.insertService _).insertComponent _).insertComponent _

theorem speakers_keyed : speakers.Keyed := ((Catalog.keyed_empty.insertService _).insertComponent _).insertComponent _

theorem lamps_unrelated : lamps.Unrelated speakers where
  components := by
    have hkeys : ∀ id ∈ lamps.components.keys, speakers.components.contains id = false := by decide
    exact fun id hid => hkeys id (IdMap.mem_keys.mpr hid)
  services := by
    have hkeys : ∀ id ∈ lamps.services.keys, speakers.services.contains id = false := by decide
    exact fun id hid => hkeys id (IdMap.mem_keys.mpr hid)
  mentions := by decide
  mentioned := by decide

theorem solve_union_evening :
    lamps.Keyed ∧ speakers.Keyed ∧ lamps.Unrelated speakers ∧ (lamps.union speakers).CostsFit ∧
      ∃ p q r, solve ⟨lamps.union speakers, evening, .empty⟩ false .standard = .ok (.ready p) ∧
        solve ⟨lamps, evening, .empty⟩ false .standard = .ok (.ready q) ∧
        solve ⟨speakers, evening, .empty⟩ false .standard = .ok (.ready r) ∧ p.Joins q r := by
  have hfits : ∀ p q, Problem.ofSnapshot? ⟨lamps, evening, .empty⟩ false = some p →
      Problem.ofSnapshot? ⟨speakers, evening, .empty⟩ false = some q →
      p.free + q.free ≤ SolverOptions.standard.limit := by
    intro p q hp hq
    have hlamps : (Problem.ofSnapshot? ⟨lamps, evening, .empty⟩ false).map Problem.free = some 2 := rfl
    have hspeakers : (Problem.ofSnapshot? ⟨speakers, evening, .empty⟩ false).map Problem.free = some 2 := rfl
    have hlimit : SolverOptions.standard.limit = 20 := rfl
    rw [hp] at hlamps
    rw [hq] at hspeakers
    have hp : p.free = 2 := Option.some.inj hlamps
    have hq : q.free = 2 := Option.some.inj hspeakers
    omega
  obtain ⟨-, hready, -⟩ := solve_union lamps speakers evening .empty false .standard lamps_keyed speakers_keyed
    lamps_unrelated hfits
  obtain ⟨p, q, r, hp, hq, hr, -, hjoins⟩ := hready nofun
  have hcosts : (lamps.union speakers).CostsFit := by decide +kernel
  exact ⟨lamps_keyed, speakers_keyed, lamps_unrelated, hcosts, p, q, r, hp, hq, hr, hjoins hcosts⟩

/-- The first of two equally dear lamps burns, as it would alone, and the second speaker plays for nothing. -/
example : solve ⟨lamps.union speakers, evening, .empty⟩ false .standard =
    .ok (.ready ⟨IdSet.ofList ["arc", "drum"], .empty, .empty, 10⟩) := by rfl

/-! ## A timer beside a board with too many callers -/

section Idle

variable {x : Component} {s : Snapshot} {runs : String → Bool} (hs : s.catalog = .lone x) (hx : x.isIndependent = true)
  (hlazy : (s.componentSeverity x.id).isLazy = true)

include hs hx hlazy

theorem admitted_of_lone : s.admitted = [x] := by
  have hexcluded : (s.componentSeverity x.id).isExcluded = false := by
    revert hlazy
    cases s.componentSeverity x.id <;> decide
  have hfree : s.isBarred x = false := by
    rw [Snapshot.isBarred, hexcluded, Snapshot.isServiceBarred, (Component.isIndependent_iff.mp hx).1, Option.any_none,
      Bool.or_false]
  rw [Snapshot.admitted, hs]
  exact List.filter_cons_of_pos (by rw [hfree]; rfl)

/-- Alone, a component that depends on nothing may run or rest if it need not run. -/
theorem feasible_of_lone : s.Feasible runs where
  exclusive := by
    rw [hs]
    nofun
  mandatory := by
    intro c hc hmandatory
    rw [admitted_of_lone hs hx hlazy, List.mem_singleton] at hc
    rw [hc] at hmandatory
    rw [hmandatory] at hlazy
    cases hlazy
  served := by
    rw [hs]
    nofun
  met := by
    intro c hc _ d hd
    rw [admitted_of_lone hs hx hlazy, List.mem_singleton] at hc
    rw [hc, (Component.isIndependent_iff.mp hx).2] at hd
    cases hd

/-- If it runs and running components are not to stop, it costs ten either way. -/
theorem cost_of_lone (hruns : s.isRunning x.id = true) : s.cost false runs = 10 := by
  have hservices : s.catalog.serviceList = [] := by
    rw [hs]
    rfl
  have hdependencies := (Component.isIndependent_iff.mp hx).2
  rw [Snapshot.cost_eq, admitted_of_lone hs hx hlazy, hservices]
  cases hrun : runs x.id <;>
    simp [Snapshot.ownCost, Snapshot.isUnaskedStart, Snapshot.isUnaskedStay, Snapshot.isUnwantedStop, hrun, hruns, hx,
      hlazy, hdependencies]

end Idle

namespace Exchange

variable {callers : Nat} {whole left right : Snapshot} (h : Exchange callers left) (hsplits : whole.Splits left right)
  {stopsRunning : Bool} (hfeasible : ∀ runs, right.Feasible runs) (hcost : ∀ runs, right.cost stopsRunning runs = 10)
  (hruns : left.isRunning "generator" = true) (hholds : 10 * callers < UInt32.size)
  (hexceeds : UInt32.size ≤ 10 + 10 * callers)

include h hsplits hfeasible hcost hruns hholds hexceeds

/-- Beside something that costs ten in any case, the relay rests though the generator runs. -/
theorem relay_rests_beside {runs : String → Bool} (hleast : whole.LeastCharged stopsRunning runs) :
    runs "relay" = false := by
  have hrelay := (Snapshot.mem_admitted.mp (h.mem_admitted.mpr (.inr (.inr rfl)))).1
  have hlock : whole.lock stopsRunning relay = none := by
    rw [← hsplits.isLeft.lock_eq hrelay]
    exact h.lock_relay
  have hf := (hsplits.feasible_iff.mp hleast.feasible).1
  have hupdated := hsplits.feasible_iff.mpr ⟨h.feasible_update hf false, hfeasible _⟩
  refine hleast.decided hsplits.isLeft.wholeKeyed (hsplits.isLeft.components _ hrelay) hlock hupdated ?_
  change whole.charge stopsRunning (Function.update runs "relay" false) <
    whole.charge stopsRunning (Function.update runs "relay" true)
  rw [Snapshot.charge, Snapshot.charge, hsplits.cost_eq, hsplits.cost_eq, hcost, hcost, h.cost_update hf,
    h.cost_update hf, hruns]
  have hsize : UInt32.size = 4294967296 := rfl
  rw [hsize] at hholds hexceeds ⊢
  simp only [linesCost, Bool.not_true, Bool.toNat_false, if_true, Bool.false_eq_true, if_false]
  omega

/-- The relay starts if the board is planned for alone, and not if it is planned for beside something that costs ten in
any case; and the costs do not add up. -/
theorem solve_beside {options : SolverOptions}
    (hfree : (left.problem stopsRunning).free + (right.problem stopsRunning).free ≤ options.limit) :
    ∃ p q r, solve whole stopsRunning options = .ok (.ready p) ∧ solve left stopsRunning options = .ok (.ready q) ∧
      solve right stopsRunning options = .ok (.ready r) ∧ "relay" ∈ q.start ∧ ¬ "relay" ∈ p.start ∧
      p.cost + UInt32.size = 10 + 10 * callers ∧ q.cost = 10 ∧ r.cost = 10 := by
  obtain ⟨q, hq, hstarts, hcheap⟩ :=
    h.solve_unwrapped (Nat.le_of_add_right_le hfree) hruns hholds (by simp only [UInt32.size] at hexceeds; omega)
  obtain ⟨rightRuns, hr, -⟩ :=
    (hfeasible fun _ => true).solved hsplits.isRight.keyed (Nat.le_of_add_left_le hfree)
  have hboth : whole.Feasible fun _ => true := hsplits.feasible_iff.mpr ⟨h.feasible_all, hfeasible _⟩
  obtain ⟨runs, hp, hleast⟩ := hboth.solved hsplits.isLeft.wholeKeyed (hsplits.free_eq ▸ hfree)
  have hrests := h.relay_rests_beside hsplits hfeasible hcost hruns hholds hexceeds hleast
  have hrealizes : (whole.stepsTo stopsRunning runs).Realizes whole runs :=
    Snapshot.stepsTo_realizes hsplits.isLeft.wholeKeyed
  obtain ⟨hboard, hgenerator⟩ := h.feasible_iff.mp (hsplits.feasible_iff.mp hleast.feasible).1
  refine ⟨_, q, _, hp, hq, hr, hstarts, ?_, ?_, hcheap, ?_⟩
  · rw [hrealizes.start]
    rintro ⟨c, -, -, hrun, -⟩
    cases hrests.symm.trans hrun
  · change whole.charge stopsRunning runs + UInt32.size = 10 + 10 * callers
    rw [Snapshot.charge, hsplits.cost_eq, hcost, h.cost hboard hgenerator, hruns, hrests]
    have hsize : UInt32.size = 4294967296 := rfl
    rw [hsize] at hholds hexceeds ⊢
    simp only [linesCost, Bool.not_true, Bool.toNat_false, Bool.false_eq_true, if_false]
    omega
  · change right.charge stopsRunning rightRuns = 10
    rw [Snapshot.charge, hcost]
    rfl

end Exchange

def timer : Component := ⟨"timer", "1", none, [], none⟩

/-- The generator and the timer run. -/
def night : IdSet := IdSet.ofList ["generator", "timer"]

theorem switchboard_unrelated (callers : Nat) : (switchboard callers).Unrelated (.lone timer) := by
  refine Catalog.unrelated_lone rfl (Bool.eq_false_of_not_eq_true fun hknown => ?_)
  have hnames : (switchboard callers).components.keys = ["board", "generator", "relay"] := by
    rw [← (switchboard_keyed callers).components.map_values]
    exact congrArg (List.map Component.id) componentList_switchboard
  have hlisted := IdMap.mem_keys.mpr hknown
  rw [hnames] at hlisted
  revert hlisted
  decide

/-- The board with its callers starts the relay if it is planned for alone, and not once a timer that concerns nobody
is put beside it; and the costs do not add up. -/
theorem solve_union_overcharged :
    let demands := (exchange crowd night).severities
    (switchboard crowd).Keyed ∧ (Catalog.lone timer).Keyed ∧ (switchboard crowd).Unrelated (.lone timer) ∧
      timer.isIndependent = true ∧
      (switchboard crowd).union (.lone timer) = (switchboard crowd).insertComponent timer ∧
      (∀ p q, Problem.ofSnapshot? ⟨switchboard crowd, demands, night⟩ false = some p →
        Problem.ofSnapshot? ⟨.lone timer, demands, night⟩ false = some q →
        p.free + q.free ≤ SolverOptions.standard.limit) ∧
      ∃ p q r, solve ⟨(switchboard crowd).union (.lone timer), demands, night⟩ false .standard = .ok (.ready p) ∧
        solve ⟨switchboard crowd, demands, night⟩ false .standard = .ok (.ready q) ∧
        solve ⟨.lone timer, demands, night⟩ false .standard = .ok (.ready r) ∧
        "relay" ∈ q.start ∧ ¬ "relay" ∈ p.start ∧ p.cost = 4 ∧ q.cost = 10 ∧ r.cost = 10 := by
  intro demands
  let left : Snapshot := ⟨switchboard crowd, demands, night⟩
  let right : Snapshot := ⟨.lone timer, demands, night⟩
  have hleft : Exchange crowd left := exchange_posed crowd (by decide)
  have hright : right.catalog.Keyed := Catalog.keyed_empty.insertComponent timer
  have hsplits := Snapshot.splits_union (switchboard_unrelated crowd) (switchboard_keyed crowd) hright demands night
  have hlazy : (right.componentSeverity timer.id).isLazy = true := by decide
  have hfeasible : ∀ runs, right.Feasible runs := fun runs => feasible_of_lone rfl rfl hlazy
  have hcost : ∀ runs, right.cost false runs = 10 := fun runs => cost_of_lone rfl rfl hlazy (by decide)
  have hruns : left.isRunning "generator" = true := by decide
  have hnone : (right.problem false).free = 0 := Snapshot.free_lone rfl
  have hfew : (left.problem false).free + (right.problem false).free ≤ SolverOptions.standard.limit := by
    have hlimit : SolverOptions.standard.limit = 20 := rfl
    have hthree := hleft.free_le false
    omega
  refine ⟨hleft.keyed, hright, switchboard_unrelated crowd, rfl, Catalog.union_lone _ _, ?_, ?_⟩
  · intro p q hp hq
    have hlost : left.isLost = false := List.any_eq_false.mpr fun x _ => by simp [hleft.not_demanded]
    rw [← Option.some.inj ((Snapshot.ofSnapshot?_of_not_lost hleft.keyed hlost).symm.trans hp),
      ← Option.some.inj ((Snapshot.ofSnapshot?_of_not_lost hright rfl).symm.trans hq)]
    exact hfew
  · obtain ⟨p, q, r, hp, hq, hr, hstarts, hrests, hdear, hcheap, hten⟩ :=
      hleft.solve_beside hsplits hfeasible hcost hruns (by decide) (by decide) hfew
    have hfour : p.cost = 4 := Nat.add_right_cancel (hdear.trans rfl)
    exact ⟨p, q, r, hp, hq, hr, hstarts, hrests, hfour, hcheap, hten⟩

end Solver

end Orchestrator
