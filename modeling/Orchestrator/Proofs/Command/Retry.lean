import Mathlib.Data.List.Perm.Subperm
import Orchestrator.Command.Run
import Orchestrator.Proofs.Reconcile.Failure
import Orchestrator.Proofs.Scenario
/-!
Retrying. The attempts of the command are applies of one reconciler, each from where the one before left off. Whoever
an attempt fails over stays out of all later ones, so that there cannot be more failures than components, and the last
of the attempts that are allowed does not fail.
-/

namespace Orchestrator

/-- Whom an apply failed over. -/
def Outcome.culprit? : Outcome → Option String
  | .finished (.error (.executionFailed culprit _)) => some culprit
  | _ => none

/-- The apply ended, and nobody failed to start in it. -/
def Outcome.IsBlameless (outcome : Outcome) : Prop :=
  (∃ report, outcome = .finished (.ok report)) ∨ outcome = .finished (.error .impossible) ∨
    ∃ free limit, outcome = .finished (.error (.searchTooLarge free limit))

namespace Command

/-- How an attempt came out, and the reconciler that it left. The deeds of its host are those of this attempt alone. -/
structure Try where
  left : Reconciler Unit Simulator
  outcome : Outcome

/-- The component is neither started in the attempt, nor does the attempt fail over it. -/
def Try.Spares (id : String) (t : Try) : Prop := t.outcome.culprit? ≠ some id ∧ ¬ t.left.host.HasStarted id

/-- The reconciler that the next attempt sets out with. -/
def Try.next (t : Try) : Reconciler Unit Simulator := { t.left with host := { t.left.host with deeds := [] } }

def tryOnce (passes : Nat) (stopsRunning : Bool) (r : Reconciler Unit Simulator) : Try :=
  let applied := r.apply Simulator.host passes stopsRunning
  ⟨applied.1, applied.2⟩

/-- The attempts that are made: after one that failed there is another, while attempts are left. -/
def triesWithin (passes : Nat) (stopsRunning : Bool) : (left : Nat) → Reconciler Unit Simulator → List Try
  | 0, _ => []
  | left + 1, r =>
    let t := tryOnce passes stopsRunning r
    t :: if t.outcome.culprit?.isSome then triesWithin passes stopsRunning left t.next else []

/-- The attempts that are made for a scenario when it is retried. -/
def tries (passes : Nat) (stopsRunning : Bool) (refusing : List String) (s : Scenario) : List Try :=
  match s.requirements with
  | .ok requirements => triesWithin passes stopsRunning (attemptLimit true s) (s.outset refusing requirements)
  | .error _ => []

variable {passes left : Nat} {stopsRunning json : Bool} {r : Reconciler Unit Simulator} {t : Try} {catalog : Catalog}
  {culprits names : List String} {culprit id : String}

theorem triesWithin_of_culprit (h : (tryOnce passes stopsRunning r).outcome.culprit? = some culprit) :
    triesWithin passes stopsRunning (left + 1) r =
      tryOnce passes stopsRunning r :: triesWithin passes stopsRunning left (tryOnce passes stopsRunning r).next := by
  rw [triesWithin, h, Option.isSome_some, if_pos rfl]

theorem triesWithin_of_none (h : (tryOnce passes stopsRunning r).outcome.culprit? = none) :
    triesWithin passes stopsRunning (left + 1) r = [tryOnce passes stopsRunning r] := by
  rw [triesWithin, h, Option.isSome_none, if_neg Bool.false_ne_true]

theorem tryOnce_mem : tryOnce passes stopsRunning r ∈ triesWithin passes stopsRunning (left + 1) r := List.mem_cons_self

/-! ## The command -/

/-- What the command makes of its last attempt, after so many attempts and deeds in all. -/
def Try.conclude (passes attempts deeds : Nat) (t : Try) : Except (List String) Applied :=
  match t.outcome with
  | .finished (.ok report) => .ok ⟨report, attempts, deeds, t.left.handle.requirements⟩
  | .finished (.error .impossible) => .error ["No feasible plan: hard constraints conflict, nothing was changed"]
  | .finished (.error fault) => .error ["Apply failed", fault.message]
  | _ => .error ["Apply failed", "no end after " ++ toString passes ++ " passes"]

def conclusion (passes attempts deeds : Nat) (ts : List Try) : Except (List String) Applied :=
  match ts.getLast? with
  | none => .error []
  | some last =>
    last.conclude passes (attempts + ts.length) (deeds + (ts.map (fun t => t.left.host.deeds.length)).sum)

theorem conclusion_cons {attempts deeds : Nat} {ts : List Try} (h : ts ≠ []) :
    conclusion passes attempts deeds (t :: ts) =
      conclusion passes (attempts + 1) (deeds + t.left.host.deeds.length) ts := by
  obtain ⟨last, hlast⟩ := Option.isSome_iff_exists.mp (List.getLast?_isSome.mpr h)
  have hcons : (t :: ts).getLast? = some last := by rw [List.getLast?_cons, hlast, Option.getD_some]
  simp only [conclusion, hlast, hcons, List.length_cons, List.map_cons, List.sum_cons]
  rw [Nat.add_assoc attempts, Nat.add_comm 1, Nat.add_assoc deeds]

/-- All that the command reports is how the last attempt came out, and how many attempts and deeds there were. -/
theorem attempt_result (passes : Nat) (look : Look) (stopsRunning json : Bool) (left : Nat) (a : Attempt) :
    (attempt passes look stopsRunning json left a).2 =
      conclusion passes a.number a.deeds (triesWithin passes stopsRunning left a.reconciler) := by
  induction left generalizing a with
  | zero => rfl
  | succ left ih =>
      unfold attempt triesWithin tryOnce
      generalize a.reconciler.apply Simulator.host passes stopsRunning = applied
      obtain ⟨q, outcome⟩ := applied
      cases outcome with
      | finished result =>
          cases result with
          | ok report => rfl
          | error fault =>
              cases fault with
              | executionFailed culprit message =>
                  cases left with
                  | zero => rfl
                  | succ left =>
                      let failed : Try := ⟨q, .finished (.error (.executionFailed culprit message))⟩
                      have hrest : triesWithin passes stopsRunning (left + 1) failed.next ≠ [] := List.cons_ne_nil _ _
                      exact (ih ⟨a.number + 1, a.deeds + q.host.deeds.length, failed.next⟩).trans
                        (conclusion_cons (t := failed) hrest).symm
              | _ => rfl
      | _ => rfl

/-- The complaint of a command that fails. -/
def complaint : Except (List String) Applied → Option (List String)
  | .ok _ => none
  | .error chain => some chain

/-- The command ends as its last attempt makes it end. -/
theorem runApply_failure {s : Scenario} {refusing : List String} {last : Try} (hvalid : s.validate = .ok ())
    (hlast : (tries passes stopsRunning refusing s).getLast? = some last) (look : Look) (json : Bool) :
    ∃ attempts deeds, (runApply passes look stopsRunning refusing true json s).failure =
      complaint (last.conclude passes attempts deeds) := by
  obtain ⟨requirements, hrequirements⟩ := Scenario.requirements_of_validate hvalid
  rw [tries, hrequirements] at hlast
  have hresult := attempt_result passes look stopsRunning json (attemptLimit true s)
    ⟨0, 0, s.outset refusing requirements⟩
  rw [conclusion, hlast] at hresult
  have hfailure : (runApply passes look stopsRunning refusing true json s).failure =
      complaint (attempt passes look stopsRunning json (attemptLimit true s)
        ⟨0, 0, s.outset refusing requirements⟩).2 := by
    rw [runApply, withRequirements, hrequirements, Scenario.outset]
    simp only []
    generalize attempt passes look stopsRunning json (attemptLimit true s) _ = attempted
    obtain ⟨lines, result⟩ := attempted
    cases result with
    | ok a => rfl
    | error chain => rfl
  exact ⟨_, _, hfailure.trans (congrArg complaint hresult)⟩

/-- What the command complains of if nobody failed in the last attempt. -/
theorem complaint_conclude (h : t.outcome.IsBlameless) (attempts deeds : Nat) :
    (∃ report, t.outcome = .finished (.ok report) ∧ complaint (t.conclude passes attempts deeds) = none) ∨
      (t.outcome = .finished (.error .impossible) ∧ complaint (t.conclude passes attempts deeds) =
        some ["No feasible plan: hard constraints conflict, nothing was changed"]) ∨
      ∃ free limit, t.outcome = .finished (.error (.searchTooLarge free limit)) ∧
        complaint (t.conclude passes attempts deeds) =
          some ["Apply failed", (Fault.searchTooLarge free limit).message] := by
  unfold Try.conclude
  rcases h with ⟨report, hok⟩ | himpossible | ⟨free, limit, hlarge⟩
  · rw [hok]
    exact .inl ⟨report, rfl, rfl⟩
  · rw [himpossible]
    exact .inr (.inl ⟨rfl, rfl⟩)
  · rw [hlarge]
    exact .inr (.inr ⟨free, limit, rfl, rfl⟩)

/-! ## One attempt -/

theorem culprit?_eq_some {outcome : Outcome} :
    outcome.culprit? = some culprit ↔ ∃ message, outcome = .finished (.error (.executionFailed culprit message)) := by
  unfold Outcome.culprit?
  split
  next other message =>
    simp
  next hother =>
    refine ⟨nofun, ?_⟩
    rintro ⟨message, rfl⟩
    exact (hother culprit message rfl).elim

/-- An attempt sets out with the culprits of the ones before condemned, and with nothing done yet. -/
structure Ready (catalog : Catalog) (culprits : List String) (r : Reconciler Unit Simulator) : Prop where
  keeps : r.handle.Keeps (fun _ => False) (Requirements.Condemns catalog culprits)
  idle : r.inFlight = false
  fresh : r.host.deeds = []

namespace Ready

variable (h : Ready catalog culprits r)
include h

/-- Whoever is condemned is spared. -/
theorem spares (passes : Nat) (stopsRunning : Bool) (hid : id ∈ culprits) :
    (tryOnce passes stopsRunning r).Spares id := by
  obtain ⟨hkept, hnot⟩ := Reconciler.apply_spares h.keeps hid passes stopsRunning
  constructor
  · intro hculprit
    obtain ⟨message, hfails⟩ := culprit?_eq_some.mp hculprit
    exact hnot message hfails
  · intro hstarted
    obtain ⟨pass, hdeed⟩ := hkept hstarted
    rw [h.fresh] at hdeed
    cases hdeed

/-- An attempt that ends fails over a component that was not condemned before and is from then on, or nobody fails in
it. -/
theorem ended_cases (hreturns : (tryOnce passes stopsRunning r).outcome ≠ .unfinished) :
    (∃ culprit, (tryOnce passes stopsRunning r).outcome.culprit? = some culprit ∧ ¬ culprit ∈ culprits ∧
        Ready catalog (culprit :: culprits) (tryOnce passes stopsRunning r).next) ∨
      (tryOnce passes stopsRunning r).outcome.culprit? = none ∧
        (tryOnce passes stopsRunning r).outcome.IsBlameless := by
  obtain ⟨result, hfinished, hcases⟩ := Reconciler.apply_ended_cases h.keeps h.idle passes hreturns
  have houtcome : (tryOnce passes stopsRunning r).outcome = .finished result := hfinished
  rcases hcases with ⟨report, rfl⟩ | rfl | ⟨free, limit, rfl⟩ | ⟨culprit, message, rfl, hknown⟩
  · rw [houtcome]
    exact .inr ⟨rfl, .inl ⟨report, rfl⟩⟩
  · rw [houtcome]
    exact .inr ⟨rfl, .inr (.inl rfl)⟩
  · rw [houtcome]
    exact .inr ⟨rfl, .inr (.inr ⟨free, limit, rfl⟩)⟩
  · have hculprit : (tryOnce passes stopsRunning r).outcome.culprit? = some culprit :=
      culprit?_eq_some.mpr ⟨message, houtcome⟩
    refine .inl ⟨culprit, hculprit, fun hid => (h.spares passes stopsRunning hid).1 hculprit, ?_⟩
    exact ⟨Reconciler.apply_condemns h.keeps passes hknown hfinished,
      Reconciler.apply_idle Simulator.host passes stopsRunning h.idle, rfl⟩

end Ready

/-! ## All attempts -/

/-- Attempts one after the other, with the number of those that are allowed and with the culprits of the ones before.
Those are distinct components of the catalog and are spared. -/
inductive Retries (catalog : Catalog) : Nat → List String → List Try → Prop
  | exhausted {culprits : List String} : Retries catalog 0 culprits []
  | last {left : Nat} {culprits : List String} {t : Try} (spares : ∀ id ∈ culprits, t.Spares id)
      (blameless : t.outcome.IsBlameless) : Retries catalog (left + 1) culprits [t]
  | again {left : Nat} {culprits : List String} {culprit : String} {t : Try} {ts : List Try}
      (spares : ∀ id ∈ culprits, t.Spares id) (fails : t.outcome.culprit? = some culprit)
      (new : ¬ culprit ∈ culprits) (known : catalog.components.contains culprit = true)
      (rest : Retries catalog left (culprit :: culprits) ts) : Retries catalog (left + 1) culprits (t :: ts)

theorem Ready.retries (h : Ready catalog culprits r)
    (hreturns : ∀ t ∈ triesWithin passes stopsRunning left r, t.outcome ≠ .unfinished) :
    Retries catalog left culprits (triesWithin passes stopsRunning left r) := by
  induction left generalizing r culprits with
  | zero => exact .exhausted
  | succ left ih =>
      have hspares : ∀ id ∈ culprits, (tryOnce passes stopsRunning r).Spares id :=
        fun _ hid => h.spares passes stopsRunning hid
      rcases h.ended_cases (hreturns _ tryOnce_mem) with ⟨culprit, hculprit, hnew, hnext⟩ | ⟨hnone, hblameless⟩
      · have hknown := hnext.keeps.requirements.known culprit List.mem_cons_self
        rw [triesWithin_of_culprit hculprit] at hreturns ⊢
        exact .again hspares hculprit hnew hknown (ih hnext (List.forall_mem_cons.mp hreturns).2)
      · rw [triesWithin_of_none hnone]
        exact .last hspares hblameless

namespace Retries

variable {ts : List Try} (h : Retries catalog left culprits ts)
include h

theorem spares (hid : id ∈ culprits) : ∀ t ∈ ts, t.Spares id := by
  induction h with
  | exhausted => exact fun _ hnone => (List.not_mem_nil hnone).elim
  | last spares blameless => exact List.forall_mem_singleton.mpr (spares id hid)
  | again spares fails new known rest ih =>
      exact List.forall_mem_cons.mpr ⟨spares id hid, ih (List.mem_cons_of_mem _ hid)⟩

theorem pairwise :
    ts.Pairwise fun earlier later => ∀ culprit, earlier.outcome.culprit? = some culprit → later.Spares culprit := by
  induction h with
  | exhausted => exact .nil
  | last spares blameless => exact List.pairwise_singleton _ _
  | again spares fails new known rest ih =>
      refine .cons ?_ ih
      intro later hlater other hother
      cases fails.symm.trans hother
      exact rest.spares List.mem_cons_self later hlater

section Counting

variable (hdistinct : culprits.Nodup) (hnames : ∀ id ∈ culprits, id ∈ names)
  (hcatalog : ∀ id, catalog.components.contains id = true → id ∈ names)
include hdistinct hnames hcatalog

/-- Each failure leaves one component less to fail over, however many attempts are allowed. -/
theorem length_le : ts.length + culprits.length ≤ names.length + 1 := by
  induction h with
  | exhausted =>
      have hfew := (List.Nodup.subperm hdistinct hnames).length_le
      rw [List.length_nil]
      omega
  | last spares blameless =>
      have hfew := (List.Nodup.subperm hdistinct hnames).length_le
      rw [List.length_singleton]
      omega
  | again spares fails new known rest ih =>
      have hrest := ih (List.nodup_cons.mpr ⟨new, hdistinct⟩) (List.forall_mem_cons.mpr ⟨hcatalog _ known, hnames⟩)
      rw [List.length_cons] at hrest ⊢
      omega

/-- Where more attempts are allowed than there are components left to fail over, nobody fails in the last one. -/
theorem lastTry (hleft : names.length < left + culprits.length) :
    ∃ last, ts.getLast? = some last ∧ last.outcome.IsBlameless := by
  induction h with
  | exhausted =>
      have hfew := (List.Nodup.subperm hdistinct hnames).length_le
      omega
  | last spares blameless => exact ⟨_, rfl, blameless⟩
  | @again left culprits culprit t ts spares fails new known rest ih =>
      have hmore : names.length < left + (culprit :: culprits).length := by
        rw [List.length_cons]
        omega
      obtain ⟨last, hlast, hblameless⟩ :=
        ih (List.nodup_cons.mpr ⟨new, hdistinct⟩) (List.forall_mem_cons.mpr ⟨hcatalog _ known, hnames⟩) hmore
      exact ⟨last, by rw [List.getLast?_cons, hlast, Option.getD_some], hblameless⟩

end Counting

end Retries

theorem ready_of_setsOut {s : Scenario} (hr : s.SetsOut r) : Ready r.handle.requirements.catalog [] r := by
  obtain ⟨refusing, hhost⟩ := hr.host
  refine ⟨⟨⟨hr.reached, rfl, nofun, nofun⟩, hr.quiet⟩, hr.inFlight, ?_⟩
  rw [hhost]
  rfl

/-- A scenario is accepted, and whoever refuses to start, each attempt of a retried apply ends. Then whoever an attempt
fails over neither fails nor is started in any later one, there is at most one attempt more than there are components,
and nobody fails in the last one: it ends well, or nothing can be done, or too much would have to be searched. That is
how the command ends. -/
theorem retry_outlasts_failures (s : Scenario) (passes : Nat) (stopsRunning : Bool) (refusing : List String)
    (hvalid : s.validate = .ok ()) (hreturns : ∀ t ∈ tries passes stopsRunning refusing s, t.outcome ≠ .unfinished) :
    let ts := tries passes stopsRunning refusing s
    ts.length ≤ s.components.length + 1 ∧
      ts.Pairwise (fun earlier later => ∀ culprit, earlier.outcome.culprit? = some culprit → later.Spares culprit) ∧
      ∃ last, ts.getLast? = some last ∧ ∀ look json,
        let failure := (runApply passes look stopsRunning refusing true json s).failure
        (∃ report, last.outcome = .finished (.ok report) ∧ failure = none) ∨
          (last.outcome = .finished (.error .impossible) ∧
            failure = some ["No feasible plan: hard constraints conflict, nothing was changed"]) ∨
          ∃ free limit, last.outcome = .finished (.error (.searchTooLarge free limit)) ∧
            failure = some ["Apply failed", (Fault.searchTooLarge free limit).message] := by
  intro ts
  obtain ⟨requirements, hrequirements⟩ := Scenario.requirements_of_validate hvalid
  have htries : tries passes stopsRunning refusing s =
      triesWithin passes stopsRunning (attemptLimit true s) (s.outset refusing requirements) := by
    rw [tries, hrequirements]
  have hsetsOut := Scenario.setsOut_outset hrequirements refusing
  have hcatalog : ∀ id, requirements.catalog.components.contains id = true → id ∈ s.components.map Component.id :=
    fun id hid => hsetsOut.mem_components hid
  have hmore : (s.components.map Component.id).length < attemptLimit true s + 0 := by
    rw [List.length_map]
    exact Nat.lt_succ_self _
  have hretries : Retries requirements.catalog (attemptLimit true s) [] ts := by
    simp only [ts, htries] at hreturns ⊢
    exact (ready_of_setsOut hsetsOut).retries hreturns
  have hlength := hretries.length_le .nil nofun hcatalog
  rw [List.length_map] at hlength
  obtain ⟨last, hlast, hblameless⟩ := hretries.lastTry .nil nofun hcatalog hmore
  refine ⟨hlength, hretries.pairwise, last, hlast, fun look json => ?_⟩
  obtain ⟨attempts, deeds, hfailure⟩ := runApply_failure hvalid hlast look json
  simp only [hfailure]
  exact complaint_conclude hblameless attempts deeds

open Scenario in
/-- The radio does not start. It stays silent in the second attempt, which is the last. -/
theorem retry_outlasts_failures_evening :
    let ts := tries 5 false ["radio"] evening
    evening.validate = .ok () ∧ (∀ t ∈ ts, t.outcome ≠ .unfinished) ∧ ts.length ≤ 3 ∧
      ∃ first last, ts = [first, last] ∧ first.outcome.culprit? = some "radio" ∧ last.Spares "radio" := by
  intro ts
  have hended : ∀ t ∈ ts, t.outcome.isUnfinished = false := by decide +kernel
  have hreturns : ∀ t ∈ ts, t.outcome ≠ .unfinished := by
    intro t ht hunfinished
    have hover := hended t ht
    rw [hunfinished] at hover
    cases hover
  have hculprits : ts.map (fun t => t.outcome.culprit?) = [some "radio", none] := by decide +kernel
  obtain ⟨hlength, hpairwise, -⟩ := retry_outlasts_failures evening 5 false ["radio"] evening_valid hreturns
  obtain ⟨first, rest, hts, hfirst, hrest⟩ := List.map_eq_cons_iff.mp hculprits
  obtain ⟨last, others, rfl, -, hothers⟩ := List.map_eq_cons_iff.mp hrest
  obtain rfl := List.map_eq_nil_iff.mp hothers
  refine ⟨evening_valid, hreturns, hlength, first, last, hts, hfirst, ?_⟩
  change ts.Pairwise _ at hpairwise
  rw [hts] at hpairwise
  exact (List.pairwise_cons.mp hpairwise).1 last (List.mem_singleton_self last) "radio" hfirst

end Command

end Orchestrator
