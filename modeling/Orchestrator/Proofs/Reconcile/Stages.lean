import Orchestrator.Proofs.Reconcile.Quiet
/-!
The stages of an apply: where it stands before each of its passes, for as long as another pass is due. With a certain
fuel an apply stays unfinished just if there are as many passes to make and one more, and fuel that is enough for it to
end makes no difference to how it ends.
-/

namespace Orchestrator

namespace Reconciler

variable {ρ σ : Type} {host : Host σ} {stopsRunning : Bool} {r : Reconciler ρ σ} {report : Report}
  {x y : Reconciler ρ σ × Report}

/-- Where an apply stands after a pass, if another one is due. -/
def next? (host : Host σ) (stopsRunning : Bool) (x : Reconciler ρ σ × Report) : Option (Reconciler ρ σ × Report) :=
  match x.1.pass host stopsRunning x.2 with
  | (r, .again report) => some (r, report)
  | _ => none

/-- Where an apply stands after a number of passes, if another one is due. -/
def stage? (host : Host σ) (stopsRunning : Bool) :
    Nat → Reconciler ρ σ × Report → Option (Reconciler ρ σ × Report)
  | 0, x => some x
  | n + 1, x => (next? host stopsRunning x).bind (stage? host stopsRunning n)

theorem next?_eq_some_iff {r' : Reconciler ρ σ} {report' : Report} :
    next? host stopsRunning (r, report) = some (r', report') ↔
      r.pass host stopsRunning report = (r', .again report') := by
  unfold next?
  generalize r.pass host stopsRunning report = passed
  obtain ⟨q, progress⟩ := passed
  cases progress with
  | again other => simp
  | ended result => simp
  | abandoned => simp

theorem stage?_add (m n : Nat) (x : Reconciler ρ σ × Report) :
    stage? host stopsRunning (m + n) x = (stage? host stopsRunning m x).bind (stage? host stopsRunning n) := by
  induction m generalizing x with
  | zero =>
      rw [Nat.zero_add]
      rfl
  | succ m ih =>
      rw [Nat.succ_add, stage?, stage?, Option.bind_assoc]
      exact Option.bind_congr fun y _ => ih y

/-- Before a stage there are all the earlier ones. -/
theorem stage?_isSome_of_le {m n : Nat} (hmn : m ≤ n) (h : (stage? host stopsRunning n x).isSome = true) :
    (stage? host stopsRunning m x).isSome = true := by
  obtain ⟨k, rfl⟩ := Nat.exists_eq_add_of_le hmn
  obtain ⟨y, hy⟩ := Option.isSome_iff_exists.mp h
  rw [stage?_add] at hy
  obtain ⟨z, hz, -⟩ := Option.bind_eq_some_iff.mp hy
  rw [hz, Option.isSome_some]

/-- What holds in the beginning and is kept from pass to pass holds at every stage. -/
theorem stage?_preserves {I : Reconciler ρ σ × Report → Prop}
    (step : ∀ x y, I x → next? host stopsRunning x = some y → I y) {n : Nat} (hx : I x)
    (h : stage? host stopsRunning n x = some y) : I y := by
  induction n generalizing x with
  | zero =>
      cases h
      exact hx
  | succ n ih =>
      obtain ⟨z, hz, hrest⟩ := Option.bind_eq_some_iff.mp h
      exact ih (step x z hx hz) hrest

theorem converge_succ_of_next? {fuel : Nat} (h : next? host stopsRunning (r, report) = some y) :
    converge host stopsRunning (fuel + 1) r report = converge host stopsRunning fuel y.1 y.2 := by
  rw [converge, next?_eq_some_iff.mp h]

/-- A pass after which no other is due ends an apply, however much fuel is left. -/
theorem converge_succ_of_last (h : next? host stopsRunning (r, report) = none) :
    ∃ q outcome, outcome ≠ .unfinished ∧ ∀ fuel, converge host stopsRunning (fuel + 1) r report = (q, outcome) := by
  unfold next? at h
  simp only [converge]
  revert h
  generalize r.pass host stopsRunning report = passed
  obtain ⟨q, progress⟩ := passed
  intro h
  cases progress with
  | again report' => cases h
  | ended result => exact ⟨q, .finished result, Outcome.noConfusion, fun _ => rfl⟩
  | abandoned => exact ⟨q, .abandoned, Outcome.noConfusion, fun _ => rfl⟩

/-- As long as there is a stage after all passes that the fuel allows, an apply is unfinished. -/
theorem converge_unfinished {fuel : Nat} (h : (stage? host stopsRunning fuel (r, report)).isSome = true) :
    (converge host stopsRunning fuel r report).2 = .unfinished := by
  induction fuel generalizing r report with
  | zero => rfl
  | succ fuel ih =>
      obtain ⟨z, hz⟩ := Option.isSome_iff_exists.mp h
      obtain ⟨y, hy, hrest⟩ := Option.bind_eq_some_iff.mp hz
      rw [converge_succ_of_next? hy]
      exact ih (by rw [hrest, Option.isSome_some])

/-- Where a stage is missing, an apply has ended before it, and in the same way with any more fuel. -/
theorem converge_ended {n : Nat} (h : stage? host stopsRunning n (r, report) = none) :
    ∃ q outcome, outcome ≠ .unfinished ∧
      ∀ fuel, n ≤ fuel → converge host stopsRunning fuel r report = (q, outcome) := by
  induction n generalizing r report with
  | zero => cases h
  | succ n ih =>
      cases hnext : next? host stopsRunning (r, report) with
      | none =>
          obtain ⟨q, outcome, hends, hall⟩ := converge_succ_of_last hnext
          refine ⟨q, outcome, hends, fun fuel hfuel => ?_⟩
          obtain ⟨more, rfl⟩ := Nat.exists_eq_add_of_le hfuel
          rw [Nat.succ_add]
          exact hall _
      | some y =>
          obtain ⟨q', report'⟩ := y
          rw [stage?, hnext] at h
          obtain ⟨q, outcome, hends, hall⟩ := ih h
          refine ⟨q, outcome, hends, fun fuel hfuel => ?_⟩
          obtain ⟨more, rfl⟩ := Nat.exists_eq_add_of_le hfuel
          rw [Nat.succ_add, converge_succ_of_next? hnext]
          exact hall _ (Nat.le_add_right n more)

end Reconciler

end Orchestrator
