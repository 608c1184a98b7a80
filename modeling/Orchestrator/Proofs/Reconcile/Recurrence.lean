import Mathlib.Data.Finset.Powerset
import Mathlib.Data.Fintype.BigOperators
import Orchestrator.Proofs.Reconcile.Simulation
import Orchestrator.Proofs.Reconcile.Stages
import Orchestrator.Proofs.Requirements.Lockstep
import Orchestrator.Proofs.Scenario
/-!
Whether an apply over a simulator ends. What runs and how often each layer occurs settle together what a pass does and
whether another one follows. There are only so many such situations, so that an apply ends within a number of passes
that is known beforehand, or comes back to a situation that it was in and never ends.
-/

namespace Orchestrator

namespace Reconciler

open Simulator (upkeep)

variable {ρ : Type} {r₀ r r' q : Reconciler ρ Simulator} {stopsRunning : Bool} {report report' : Report}

/-! ## One pass -/

/-- Another pass is due only after one that was carried out and in which a change was noted. -/
theorem exists_carriesOut_of_next? (hquiet : r.handle.Quiet)
    (h : next? Simulator.host stopsRunning (r, report) = some (r', report')) :
    ∃ steps left state, r.CarriesOut Simulator.host stopsRunning report steps left state .done ∧
      left.wantsReapply = true ∧ r.Becomes r' (left.commit r.handle.requirements.snapshot steps).endPass.1 state := by
  have hpasses := pass_passes Simulator.host stopsRunning report hquiet
  rw [next?_eq_some_iff.mp h] at hpasses
  generalize r.course Simulator.host stopsRunning report = c at hpasses
  cases hpasses with
  | repeated carriesOut changed becomes => exact ⟨_, _, _, carriesOut, changed, becomes⟩

/-- The orders of a plan in which nobody refuses to start, and whether a change is noted in their course, decide that
another pass is due. -/
theorem exists_next? (hquiet : r.handle.Quiet) (report : Report) {steps : Steps}
    (hplan : r.plan stopsRunning = .ok (.ready steps))
    (hdone : r.host.verdictOn steps.start.toList = .done)
    (hnoted : (r.handle.requirements.beginPass.performAll
      (r.host.orders r.handle.requirements.running steps)).wantsReapply = true) :
    ∃ y, next? Simulator.host stopsRunning (r, report) = some y := by
  have hpasses := pass_passes Simulator.host stopsRunning report hquiet
  rw [next?]
  revert hpasses
  generalize r.pass Simulator.host stopsRunning report = passed
  generalize r.course Simulator.host stopsRunning report = c
  obtain ⟨r', progress⟩ := passed
  intro hpasses
  cases hpasses with
  | refused unplanned =>
      rw [hplan] at unplanned
      cases unplanned
  | abandoned carriesOut => exact carriesOut.simulates.not_abandoned.elim
  | failed carriesOut =>
      cases hplan.symm.trans carriesOut.planned
      cases carriesOut.simulates.verdict_eq.trans hdone
  | repeated carriesOut => exact ⟨_, rfl⟩
  | settled carriesOut unchanged =>
      cases hplan.symm.trans carriesOut.planned
      rw [carriesOut.simulates.left_eq, hnoted] at unchanged
      cases unchanged

/-! ## The situations of an apply -/

/-- The second comes after the first by passes of a simulator. All that these leave alone is the same, and no layer
occurs more often than it did plus once for each trigger of a component that runs. -/
structure Pursues (r₀ r : Reconciler ρ Simulator) : Prop where
  reached : r.handle.requirements.ReachedOver Catalog.Keyed
  quiet : r.handle.Quiet
  ground : r₀.handle.requirements.SameGround r.handle.requirements
  triggers : r.host.triggers = r₀.host.triggers
  refusing : r.host.refusing = r₀.host.refusing
  options : r.options = r₀.options
  layers : ∀ l, r.handle.requirements.occurrences l ≤
    r₀.handle.requirements.occurrences l + upkeep r₀.host.triggers r.handle.requirements.running.contains l

theorem Pursues.refl (hreached : r.handle.requirements.ReachedOver Catalog.Keyed) (hquiet : r.handle.Quiet) :
    r.Pursues r :=
  ⟨hreached, hquiet, .refl _, rfl, rfl, rfl, fun _ => Nat.le_add_right _ _⟩

theorem Pursues.next (h : r₀.Pursues r) (hnext : next? Simulator.host stopsRunning (r, report) = some (r', report')) :
    r₀.Pursues r' := by
  obtain ⟨steps, left, state, hcarried, -, hbecomes⟩ := exists_carriesOut_of_next? h.quiet hnext
  have hsimulates := hcarried.simulates
  have hq := hbecomes.holds.requirements
  refine ⟨?_, hbecomes.holds.quiet, ?_, ?_, ?_, hbecomes.options.trans h.options, ?_⟩
  · rw [hq]
    exact ((hsimulates.reached h.reached).commit _ _).endPass
  · rw [hq]
    exact (h.ground.trans hsimulates.sameGround).trans (Requirements.sameGround_taken _ _)
  · rw [hbecomes.host, hsimulates.state_eq, ← h.triggers]
  · rw [hbecomes.host, hsimulates.state_eq, ← h.refusing]
  · intro l
    obtain ⟨kept, lost, gained, hbefore, hafter, hoccurs⟩ :=
      hsimulates.exchange (hcarried.fits h.reached) (hcarried.known h.reached) r.handle.requirements.snapshot l
    have hlayers := h.layers l
    rw [h.triggers] at hbefore hafter
    rw [hq]
    change (left.commit _ steps).occurrences l ≤ _ + upkeep _ (left.commit _ steps).running.contains l
    omega

/-- The same runs in both, and each layer occurs equally often. -/
structure Alike (r q : Reconciler ρ Simulator) : Prop where
  running : q.handle.requirements.running = r.handle.requirements.running
  occurrences : ∀ l, q.handle.requirements.occurrences l = r.handle.requirements.occurrences l

section Alike

variable (h : r.Alike q) (hr : r₀.Pursues r) (hq : r₀.Pursues q)
include h hr hq

theorem Alike.plan_eq (stopsRunning : Bool) : q.plan stopsRunning = r.plan stopsRunning := by
  have hlayers : ∀ l, q.handle.requirements.hasLayer l = r.handle.requirements.hasLayer l := fun l =>
    Requirements.hasLayer_congr hr.reached.stacked hq.reached.stacked (h.occurrences l)
  have hsnapshot := (hr.ground.symm.trans hq.ground).snapshot_eq hr.reached.upToDate hq.reached.upToDate hlayers
    h.running
  rw [plan, plan, hsnapshot, hq.options, hr.options]

theorem Alike.orders_eq (steps : Steps) :
    q.host.orders q.handle.requirements.running steps = r.host.orders r.handle.requirements.running steps := by
  rw [h.running]
  exact Simulator.orders_congr (hq.triggers.trans hr.triggers.symm) (hq.refusing.trans hr.refusing.symm) _ _

/-- The orders of a pass leave layers and notes alike. -/
theorem Alike.lockstep (steps : Steps) :
    (r.handle.requirements.beginPass.performAll (r.host.orders r.handle.requirements.running steps)).Lockstep
      (q.handle.requirements.beginPass.performAll (q.host.orders q.handle.requirements.running steps)) := by
  have hbegun : r.handle.requirements.beginPass.Lockstep q.handle.requirements.beginPass :=
    ⟨⟨hr.reached.beginPass.stacked, rfl⟩, ⟨hq.reached.beginPass.stacked, rfl⟩, h.occurrences, rfl⟩
  rw [h.orders_eq hr hq]
  exact hbegun.performAll (Simulator.LayersAllowed.orders (P := Operation.StacksLayers)
    ⟨fun _ => trivial, fun _ => trivial⟩ r.host r.handle.requirements.running steps)

/-- In the course of one apply, passes that begin alike end alike. -/
theorem Alike.next (hnext : next? Simulator.host stopsRunning (r, report) = some (r', report')) (other : Report) :
    ∃ q' other', next? Simulator.host stopsRunning (q, other) = some (q', other') ∧ r'.Alike q' := by
  obtain ⟨steps, left, state, hcarried, hnoted, hbecomes⟩ := exists_carriesOut_of_next? hr.quiet hnext
  have hplan : q.plan stopsRunning = .ok (.ready steps) := (h.plan_eq hr hq stopsRunning).trans hcarried.planned
  have hdone : q.host.verdictOn steps.start.toList = .done := by
    rw [Simulator.verdictOn_congr (hq.refusing.trans hr.refusing.symm)]
    exact hcarried.simulates.verdict_eq.symm
  have hlockstep := h.lockstep hr hq steps
  rw [← hcarried.simulates.left_eq] at hlockstep
  obtain ⟨⟨q', other'⟩, hnext'⟩ := exists_next? hq.quiet other hplan hdone (hlockstep.noted.trans hnoted)
  refine ⟨q', other', hnext', ?_⟩
  -- The other pass was planned with the same steps, so that both sides are the outcome of the same orders.
  obtain ⟨steps', left', state', hcarried', -, hbecomes'⟩ := exists_carriesOut_of_next? hq.quiet hnext'
  cases hplan.symm.trans hcarried'.planned
  rw [← hcarried'.simulates.left_eq] at hlockstep
  have hfooting := hcarried.simulates.sameFooting
  have hfooting' := hcarried'.simulates.sameFooting
  have hcatalog : left'.catalog = left.catalog := by
    rw [hfooting.catalog, hfooting'.catalog, (hr.ground.symm.trans hq.ground).catalog]
  have hrunning : left'.running = left.running := by
    rw [hfooting.running, hfooting'.running, h.running]
  constructor
  · rw [hbecomes.holds.requirements, hbecomes'.holds.requirements]
    exact Requirements.running_commit_congr hcatalog hrunning _ _ steps
  · intro l
    rw [hbecomes.holds.requirements, hbecomes'.holds.requirements]
    change (left'.commit _ steps).occurrences l = (left.commit _ steps).occurrences l
    rw [Requirements.occurrences_congr (Requirements.layers_commit _ _),
      Requirements.occurrences_congr (Requirements.layers_commit _ _), hlockstep.occurrences]

end Alike

/-! ## Stages -/

theorem Pursues.stage {n : Nat} {x y : Reconciler ρ Simulator × Report} (h : r₀.Pursues x.1)
    (hy : stage? Simulator.host stopsRunning n x = some y) : r₀.Pursues y.1 :=
  stage?_preserves (I := fun x => r₀.Pursues x.1) (fun _ _ hx hnext => hx.next hnext) h hy

theorem Alike.stage {n : Nat} {x x' y : Reconciler ρ Simulator × Report} (h : x.1.Alike y.1) (hx : r₀.Pursues x.1)
    (hy : r₀.Pursues y.1) (hstage : stage? Simulator.host stopsRunning n x = some x') :
    ∃ y', stage? Simulator.host stopsRunning n y = some y' := by
  induction n generalizing x y with
  | zero => exact ⟨y, rfl⟩
  | succ n ih =>
      obtain ⟨⟨r', report'⟩, hnext, hrest⟩ := Option.bind_eq_some_iff.mp hstage
      obtain ⟨q', other', hnext', halike⟩ := h.next hx hy hnext y.2
      obtain ⟨y', hy'⟩ := ih (x := (r', report')) (y := (q', other')) halike (hx.next hnext) (hy.next hnext') hrest
      refine ⟨y', ?_⟩
      rw [stage?, hnext']
      exact hy'

/-- Once an apply is in a situation that it was in before, another pass is always due. -/
theorem stage?_isSome_of_alike {x y z : Reconciler ρ Simulator × Report} (hx : r₀.Pursues x.1) {i j : Nat}
    (hij : i < j) (hy : stage? Simulator.host stopsRunning i x = some y)
    (hz : stage? Simulator.host stopsRunning j x = some z) (halike : y.1.Alike z.1) (n : Nat) :
    (stage? Simulator.host stopsRunning n x).isSome = true := by
  have hlater : ∀ k, (stage? Simulator.host stopsRunning (i + k) x).isSome = true := by
    intro k
    induction k using Nat.strong_induction_on with
    | h k ih =>
        by_cases hk : i + k < j
        · exact stage?_isSome_of_le (Nat.le_of_lt hk) (by rw [hz, Option.isSome_some])
        · -- What follows the second occasion follows the first one too, and that is so many passes earlier.
          obtain ⟨m, hm⟩ := Nat.exists_eq_add_of_le (Nat.le_of_not_lt hk)
          obtain ⟨y', hy'⟩ := Option.isSome_iff_exists.mp (ih m (by omega))
          rw [stage?_add, hy, Option.bind_some] at hy'
          obtain ⟨z', hz'⟩ := halike.stage (hx.stage hy) (hx.stage hz) hy'
          rw [hm, stage?_add, hz, Option.bind_some, hz', Option.isSome_some]
  exact stage?_isSome_of_le (Nat.le_add_left n i) (hlater n)

/-! ## Counting situations -/

def situation (layers : List Layer) (r : Reconciler ρ Simulator) : Finset String × (Fin layers.length → Nat) :=
  (r.handle.requirements.running.toList.toFinset, fun i => r.handle.requirements.occurrences layers[i])

/-- The situations in which only components of certain names run and no layer occurs more often than there are layers
in a list. -/
def situations (names : List String) (layers : List Layer) : Finset (Finset String × (Fin layers.length → Nat)) :=
  names.toFinset.powerset ×ˢ Fintype.piFinset fun _ => Finset.range (layers.length + 1)

theorem card_situations_le (names : List String) (layers : List Layer) :
    (situations names layers).card ≤ 2 ^ names.length * (layers.length + 1) ^ layers.length := by
  rw [situations, Finset.card_product, Finset.card_powerset, Fintype.card_piFinset_const, Finset.card_range]
  exact Nat.mul_le_mul_right _ (Nat.pow_le_pow_right (by decide) (List.toFinset_card_le names))

/-- All components have certain names, and a list has every layer as often as it can occur. -/
structure Confined (names : List String) (layers : List Layer) (r₀ : Reconciler ρ Simulator) : Prop where
  names : ∀ id, r₀.handle.requirements.catalog.components.contains id = true → id ∈ names
  layers : ∀ l, r₀.handle.requirements.occurrences l + upkeep r₀.host.triggers (fun _ => true) l ≤ layers.count l

section Counting

variable {names : List String} {layers : List Layer} (hconfined : r₀.Confined names layers)
include hconfined

theorem Pursues.occurrences_le (h : r₀.Pursues r) (l : Layer) :
    r.handle.requirements.occurrences l ≤ layers.count l := by
  have hall : upkeep r₀.host.triggers r.handle.requirements.running.contains l ≤
      upkeep r₀.host.triggers (fun _ => true) l := by
    refine List.countP_mono_left ?_
    intro t _ hkept
    rw [(Bool.and_eq_true_iff.mp hkept).1]
    rfl
  exact (h.layers l).trans ((Nat.add_le_add_left hall _).trans (hconfined.layers l))

theorem Pursues.mem_situations (h : r₀.Pursues r) : r.situation layers ∈ situations names layers := by
  refine Finset.mem_product.mpr ⟨Finset.mem_powerset.mpr ?_, Fintype.mem_piFinset.mpr ?_⟩
  · intro id hid
    have hknown := h.reached.runsKnown.known id (List.mem_toFinset.mp hid)
    rw [h.ground.catalog] at hknown
    exact List.mem_toFinset.mpr (hconfined.names id hknown)
  · intro i
    have hcount := h.occurrences_le hconfined layers[i]
    exact Finset.mem_range.mpr (Nat.lt_succ_of_le (hcount.trans List.count_le_length))

theorem Pursues.alike_of_situation_eq (hr : r₀.Pursues r) (hq : r₀.Pursues q)
    (h : r.situation layers = q.situation layers) : r.Alike q := by
  obtain ⟨hruns, hoccurs⟩ := Prod.mk.inj h
  constructor
  · refine IdSet.ext fun id => ?_
    rw [IdSet.mem_def, IdSet.mem_def, ← List.mem_toFinset, ← List.mem_toFinset, hruns]
  · intro l
    by_cases hl : l ∈ layers
    · obtain ⟨i, hi, rfl⟩ := List.getElem_of_mem hl
      exact (congrFun hoccurs ⟨i, hi⟩).symm
    · have hnone : layers.count l = 0 := List.count_eq_zero_of_not_mem hl
      have hr_le := hr.occurrences_le hconfined l
      have hq_le := hq.occurrences_le hconfined l
      omega

/-- Where there are more stages than situations, one comes back. -/
theorem exists_alike {x : Reconciler ρ Simulator × Report} (hx : r₀.Pursues x.1)
    (h : (stage? Simulator.host stopsRunning
      (2 ^ names.length * (layers.length + 1) ^ layers.length) x).isSome = true) :
    ∃ i j y z, i < j ∧ stage? Simulator.host stopsRunning i x = some y ∧
      stage? Simulator.host stopsRunning j x = some z ∧ y.1.Alike z.1 := by
  let bound := 2 ^ names.length * (layers.length + 1) ^ layers.length
  let standing := fun n => ((stage? Simulator.host stopsRunning n x).getD x).1
  have hstage : ∀ n ∈ Finset.range (bound + 1), ∃ y,
      stage? Simulator.host stopsRunning n x = some y ∧ standing n = y.1 := by
    intro n hn
    have hle := Nat.le_of_lt_succ (Finset.mem_range.mp hn)
    obtain ⟨y, hy⟩ := Option.isSome_iff_exists.mp (stage?_isSome_of_le hle h)
    refine ⟨y, hy, ?_⟩
    simp only [standing, hy, Option.getD_some]
  have hmaps : ∀ n ∈ Finset.range (bound + 1), (standing n).situation layers ∈ situations names layers := by
    intro n hn
    obtain ⟨y, hy, hstanding⟩ := hstage n hn
    rw [hstanding]
    exact (hx.stage hy).mem_situations hconfined
  have hcard : (situations names layers).card < (Finset.range (bound + 1)).card := by
    rw [Finset.card_range]
    exact Nat.lt_succ_of_le (card_situations_le names layers)
  obtain ⟨i, hi, j, hj, hne, hsame⟩ := Finset.exists_ne_map_eq_of_card_lt_of_maps_to hcard hmaps
  have hpair : ∀ {i j : Nat}, i ∈ Finset.range (bound + 1) → j ∈ Finset.range (bound + 1) → i < j →
      (standing i).situation layers = (standing j).situation layers →
      ∃ i j y z, i < j ∧ stage? Simulator.host stopsRunning i x = some y ∧
        stage? Simulator.host stopsRunning j x = some z ∧ y.1.Alike z.1 := by
    intro i j hi hj hij hsame
    obtain ⟨y, hy, hystanding⟩ := hstage i hi
    obtain ⟨z, hz, hzstanding⟩ := hstage j hj
    rw [hystanding, hzstanding] at hsame
    exact ⟨i, j, y, z, hij, hy, hz, (hx.stage hy).alike_of_situation_eq hconfined (hx.stage hz) hsame⟩
  rcases Nat.lt_or_gt_of_ne hne with hij | hji
  · exact hpair hi hj hij hsame
  · exact hpair hj hi hji hsame.symm

end Counting

/-! ## Whether an apply ends -/

/-- The state in which the pass after a number of others begins in an apply. -/
def begins? (stopsRunning : Bool) (r : Reconciler ρ Simulator) (passes : Nat) : Option (Reconciler ρ Simulator) :=
  if r.inFlight || !r.isDirty then none
  else (stage? Simulator.host stopsRunning passes ({ r with inFlight := true }, .blank)).map Prod.fst

/-- Two passes of an apply begin alike. -/
def Recurs (stopsRunning : Bool) (r : Reconciler ρ Simulator) : Prop :=
  ∃ i j p q, i < j ∧ r.begins? stopsRunning i = some p ∧ r.begins? stopsRunning j = some q ∧ p.Alike q

theorem begins?_eq_some {n : Nat} {p : Reconciler ρ Simulator} (h : r.begins? stopsRunning n = some p) :
    (r.inFlight = false ∧ r.isDirty = true) ∧
      ∃ report, stage? Simulator.host stopsRunning n ({ r with inFlight := true }, .blank) = some (p, report) := by
  unfold begins? at h
  split at h
  next => cases h
  next hidle =>
    obtain ⟨⟨p', report⟩, hstage, rfl⟩ := Option.map_eq_some_iff.mp h
    refine ⟨?_, report, hstage⟩
    simpa using hidle

theorem apply_of_dirty (hflight : r.inFlight = false) (hdirty : r.isDirty = true) (fuel : Nat) :
    (r.apply Simulator.host fuel stopsRunning).2 =
      (converge Simulator.host stopsRunning fuel { r with inFlight := true } .blank).2 := by
  rw [apply, if_neg (by rw [hflight]; decide), if_neg (by rw [hdirty]; decide)]

theorem apply_unfinished_of_recurs (hreached : r.handle.requirements.ReachedOver Catalog.Keyed)
    (hquiet : r.handle.Quiet) (h : r.Recurs stopsRunning) (fuel : Nat) :
    (r.apply Simulator.host fuel stopsRunning).2 = .unfinished := by
  obtain ⟨i, j, p, q, hij, hp, hq, halike⟩ := h
  obtain ⟨⟨hflight, hdirty⟩, report, hi⟩ := begins?_eq_some hp
  obtain ⟨-, report', hj⟩ := begins?_eq_some hq
  rw [apply_of_dirty hflight hdirty]
  let outset : Reconciler ρ Simulator := { r with inFlight := true }
  have hpursues : outset.Pursues outset := .refl hreached hquiet
  exact converge_unfinished (stage?_isSome_of_alike (x := (outset, .blank)) hpursues hij hi hj halike fuel)

theorem apply_finished_of_not_recurs {names : List String} {layers : List Layer}
    (hreached : r.handle.requirements.ReachedOver Catalog.Keyed) (hquiet : r.handle.Quiet)
    (hflight : r.inFlight = false) (hconfined : r.Confined names layers) (h : ¬ r.Recurs stopsRunning) :
    ∃ result, ∀ fuel, 2 ^ names.length * (layers.length + 1) ^ layers.length ≤ fuel →
      (r.apply Simulator.host fuel stopsRunning).2 = .finished result := by
  cases hdirty : r.isDirty with
  | false =>
      refine ⟨.ok .blank, fun fuel _ => ?_⟩
      rw [apply, if_neg (by rw [hflight]; decide), if_pos (by rw [hdirty]; decide)]
  | true =>
      let outset : Reconciler ρ Simulator := { r with inFlight := true }
      have hpursues : outset.Pursues outset := .refl hreached hquiet
      have hbegins : ∀ {n y}, stage? Simulator.host stopsRunning n (outset, .blank) = some y →
          r.begins? stopsRunning n = some y.1 := by
        intro n y hy
        rw [begins?, hflight, hdirty, if_neg (by decide), hy, Option.map_some]
      have hnone : stage? Simulator.host stopsRunning
          (2 ^ names.length * (layers.length + 1) ^ layers.length) (outset, .blank) = none := by
        by_contra hsome
        have hsame : outset.Confined names layers := ⟨hconfined.names, hconfined.layers⟩
        obtain ⟨i, j, y, z, hij, hy, hz, halike⟩ :=
          exists_alike hsame (x := (outset, .blank)) hpursues (Option.isSome_iff_ne_none.mpr hsome)
        exact h ⟨i, j, y.1, z.1, hij, hbegins hy, hbegins hz, halike⟩
      obtain ⟨q, outcome, hends, hall⟩ := converge_ended hnone
      have hruns := (converge_proceeds Simulator.host stopsRunning
        (2 ^ names.length * (layers.length + 1) ^ layers.length) outset .blank).runs hpursues.quiet
      rw [hall _ (Nat.le_refl _)] at hruns
      obtain ⟨result, rfl⟩ := hruns.finished hends
      refine ⟨result, fun fuel hfuel => ?_⟩
      rw [apply_of_dirty hflight hdirty, hall fuel hfuel]

/-- There are no more components than declared ones, and the layers of a scenario and of its triggers are all that can
occur. -/
theorem confined_of_setsOut {s : Scenario} (hr : s.SetsOut r) :
    r.Confined (s.components.map Component.id) (s.layers ++ s.triggers.map Trigger.layer) := by
  refine ⟨fun _ hid => hr.mem_components hid, fun l => Nat.le_of_eq ?_⟩
  rw [hr.occurrences, hr.triggers, List.count_append, upkeep, List.count, List.countP_map]
  simp only [Bool.and_true, Function.comp_def]

/-- An apply from what a scenario sets out with ends if and only if no two of its passes begin alike, with the same
components running and each layer occurring equally often. If it ends, it does so within as many passes as there are
such situations. -/
theorem apply_ends_or_recurs (s : Scenario) (r : Reconciler ρ Simulator) (hr : s.SetsOut r) (stopsRunning : Bool) :
    let kinds := s.layers.length + s.triggers.length
    (r.Recurs stopsRunning → ∀ fuel, (r.apply Simulator.host fuel stopsRunning).2 = .unfinished) ∧
      (¬ r.Recurs stopsRunning → ∃ result, ∀ fuel, 2 ^ s.components.length * (kinds + 1) ^ kinds ≤ fuel →
        (r.apply Simulator.host fuel stopsRunning).2 = .finished result) := by
  intro kinds
  refine ⟨fun h => apply_unfinished_of_recurs hr.reached hr.quiet h, fun h => ?_⟩
  have hends := apply_finished_of_not_recurs hr.reached hr.quiet hr.inFlight (confined_of_setsOut hr) h
  rwa [List.length_map, List.length_append, List.length_map] at hends

/-- The lamp is asked for, and once it is lit its glare demands that it be excluded. -/
def glare : Scenario :=
  { disabled := false
    running := []
    services := []
    components := [⟨"lamp", "1", none, [], none⟩]
    settings := { Settings.empty with user := Table.empty.insert (.component "lamp") .mandatory }
    layers := []
    triggers := [⟨"lamp", ⟨"glare", Table.empty.insert (.component "lamp") .excluded⟩⟩]
    options := .standard }

def glareOutset : Reconciler Unit Simulator :=
  glare.outset [] (glare.posed (Catalog.empty.insertComponent ⟨"lamp", "1", none, [], none⟩))

theorem glare_setsOut : glare.SetsOut glareOutset := Scenario.setsOut_outset rfl []

theorem glare_recurs : glareOutset.Recurs false := by
  let standing := fun q : Reconciler Unit Simulator => (q.handle.requirements.running, q.handle.requirements.layers)
  have hfirst : (glareOutset.begins? false 0).map standing = some (.empty, []) := by decide +kernel
  have hthird : (glareOutset.begins? false 2).map standing = some (.empty, []) := by decide +kernel
  obtain ⟨p, hp, hpsituation⟩ := Option.map_eq_some_iff.mp hfirst
  obtain ⟨q, hq, hqsituation⟩ := Option.map_eq_some_iff.mp hthird
  obtain ⟨hprunning, hplayers⟩ := Prod.mk.inj hpsituation
  obtain ⟨hqrunning, hqlayers⟩ := Prod.mk.inj hqsituation
  exact ⟨0, 2, p, q, by decide, hp, hq, hqrunning.trans hprunning.symm,
    fun _ => Requirements.occurrences_congr (hqlayers.trans hplayers.symm)⟩

open Scenario in
/-- The evening is over after two passes, and the lamp is lit and put out for ever. -/
theorem apply_ends_or_recurs_evening :
    evening.SetsOut (eveningOutset []) ∧
      (∃ result, ∀ fuel, 2 ^ 2 * 4 ^ 3 ≤ fuel →
        ((eveningOutset []).apply Simulator.host fuel false).2 = .finished result) ∧
      glare.SetsOut glareOutset ∧ glareOutset.Recurs false ∧
      (glareOutset.apply Simulator.host 1000 false).2 = .unfinished := by
  obtain ⟨hforever, hends⟩ := apply_ends_or_recurs evening (eveningOutset []) (evening_setsOut []) false
  have hover : ((eveningOutset []).apply Simulator.host 5 false).2.isUnfinished = false := by decide +kernel
  refine ⟨evening_setsOut [], hends ?_, glare_setsOut, glare_recurs, ?_⟩
  · intro hrecurs
    rw [hforever hrecurs 5] at hover
    cases hover
  · exact (apply_ends_or_recurs glare glareOutset glare_setsOut false).1 glare_recurs 1000

/-- An accepted scenario, with nobody who refuses to start, for which no number of passes is enough. -/
theorem apply_endless_glare :
    glare.validate = .ok () ∧ glare.SetsOut glareOutset ∧ glareOutset.isDirty = true ∧
      ∀ fuel, (glareOutset.apply Simulator.host fuel false).2 = .unfinished :=
  ⟨by decide +kernel, glare_setsOut, by decide +kernel,
    apply_unfinished_of_recurs glare_setsOut.reached glare_setsOut.quiet glare_recurs⟩

end Reconciler

end Orchestrator
