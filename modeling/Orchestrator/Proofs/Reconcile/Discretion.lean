import Orchestrator.Proofs.Reconcile.Quarantine
import Orchestrator.Proofs.Requirements.Marks
/-!
Discretion: only passes know of the marks that they make, and whoever hears of changes cannot tell by them what to do.
Then two reconcilers that differ in these marks alone go the same way. Between passes every change is announced in both
in the same manner; and since a pass sets both marks anew, it is the very same pass in both.
-/

namespace Orchestrator

namespace Handle

variable {ρ α : Type} {h h' : Handle ρ}

/-! ## Reactions are used up -/

theorem reactions_foldl {f : Handle ρ → Nat → Handle ρ} (step : ∀ h place, (f h place).reactions ⊆ h.reactions)
    (places : List Nat) (h : Handle ρ) : (places.foldl f h).reactions ⊆ h.reactions := by
  induction places generalizing h with
  | nil => exact fun _ hreaction => hreaction
  | cons place rest ih => exact List.Subset.trans (ih (f h place)) (step h place)

section Announcing

variable {announce : Bool → Handle ρ → Handle ρ}
  (hannounce : ∀ dirty (h : Handle ρ), (announce dirty h).reactions ⊆ h.reactions)
include hannounce

theorem reactions_install (r : Requirements) : (h.install announce r).reactions ⊆ h.reactions := by
  unfold Handle.install
  simp only []
  split
  · exact fun _ hreaction => hreaction
  · exact hannounce _ _

theorem reactions_runVia (p : Program α) : (h.runVia announce p).1.reactions ⊆ h.reactions :=
  Program.interpret_preserves (I := fun k : Handle ρ => k.reactions ⊆ h.reactions)
    (fun _ _ _ hk => List.Subset.trans (reactions_install hannounce _) hk) p.asksOnly_true fun _ hreaction => hreaction

theorem reactions_tell (dirty : Bool) (place : Nat) :
    (h.tell (Handle.runVia announce) dirty place).reactions ⊆ h.reactions := by
  have hnoted := reactions_note (h := h) place (.dirty dirty h.requirements.isDirty)
  unfold Handle.tell
  simp only []
  split
  next => exact hnoted
  next act taken htake =>
    have htaken := List.Subset.trans (takeReaction_eq_some htake).2.1 hnoted
    have hran := List.Subset.trans (reactions_runVia hannounce act) htaken
    exact List.Subset.trans (reactions_note place _) hran

end Announcing

theorem reactions_announceWithin (depth : Nat) (dirty : Bool) (h : Handle ρ) :
    (announceWithin depth dirty h).reactions ⊆ h.reactions := by
  induction depth generalizing dirty h with
  | zero => exact reactions_foldl (fun _ place => reactions_note place _) _ h
  | succ depth ih => exact reactions_foldl (fun _ place => reactions_tell ih dirty place) _ h

theorem reactions_announce (dirty : Bool) (h : Handle ρ) : (h.announce dirty).reactions ⊆ h.reactions :=
  reactions_announceWithin _ dirty h

theorem reactions_change (f : Requirements → Requirements) : (h.change f).reactions ⊆ h.reactions :=
  reactions_install reactions_announce _

theorem reactions_run (p : Program α) : (h.run p).1.reactions ⊆ h.reactions := reactions_runVia reactions_announce p

theorem reactions_announceApplied (outcome : Except Fault Report) : (h.announceApplied outcome).reactions ⊆ h.reactions :=
  reactions_foldl (fun _ place => reactions_note place _) _ h

end Handle

/-! ## Programs and handles -/

namespace Program

variable {α σ τ : Type}

/-- What the program does next never depends on the marks of a pass. -/
def Discreet : Program α → Prop
  | done _ => True
  | perform _ next => ∀ answer, (next answer).Discreet
  | look next => (∀ r : Requirements, next r.unmarked = next r) ∧ ∀ r, (next r).Discreet

/-- A discreet program cannot tell two places apart in which it sees the same but for the marks. -/
theorem Discreet.interpret_related {R : σ → τ → Prop} {performₗ : Operation → σ → σ × Option Bool}
    {performᵣ : Operation → τ → τ × Option Bool} {lookₗ : σ → Requirements} {lookᵣ : τ → Requirements}
    (step : ∀ operation s t, R s t →
      R (performₗ operation s).1 (performᵣ operation t).1 ∧ (performₗ operation s).2 = (performᵣ operation t).2)
    (seen : ∀ s t, R s t → (lookₗ s).unmarked = (lookᵣ t).unmarked) {p : Program α} (hp : p.Discreet) {s : σ} {t : τ}
    (h : R s t) :
    R (p.interpret performₗ lookₗ s).1 (p.interpret performᵣ lookᵣ t).1 ∧
      (p.interpret performₗ lookₗ s).2 = (p.interpret performᵣ lookᵣ t).2 := by
  induction p generalizing s t with
  | done result => exact ⟨h, rfl⟩
  | perform operation next ih =>
      obtain ⟨hstates, hanswers⟩ := step operation s t h
      simp only [interpret, hanswers]
      exact ih _ (hp _) hstates
  | look next ih =>
      have hsame : next (lookₗ s) = next (lookᵣ t) := by rw [← hp.1 (lookₗ s), seen s t h, hp.1]
      simp only [interpret, hsame]
      exact ih _ (hp.2 _) h

end Program

namespace Handle

variable {ρ α : Type} {h k h' : Handle ρ} {r q : Requirements}

/-- None of the reactions that are still to come depends on the marks of a pass. -/
def Discreet (h : Handle ρ) : Prop := ∀ reaction ∈ h.reactions, reaction.act.Discreet

/-- Both handles are the same but for the marks of a pass, and nobody who hears of changes looks at these. -/
structure Matches (h k : Handle ρ) : Prop where
  requirements : h.requirements.unmarked = k.requirements.unmarked
  observers : h.observers = k.observers
  discreet : h.Discreet

theorem Discreet.of_subset (hh : h.Discreet) (hsubset : h'.reactions ⊆ h.reactions) : h'.Discreet :=
  fun reaction hreaction => hh reaction (hsubset hreaction)

theorem Discreet.matches (hh : h.Discreet) : h.Matches h := ⟨rfl, rfl, hh⟩

theorem Matches.note (hm : h.Matches k) (place : Nat) (event : Event ρ) :
    (h.note place event).Matches (k.note place event) := by
  refine ⟨hm.requirements, ?_, hm.discreet.of_subset (reactions_note place event)⟩
  rw [Handle.note, Handle.note, hm.observers]

/-- Whether an observer reacts has nothing to do with the requirements. -/
theorem takeReaction_with (h : Handle ρ) (q : Requirements) (place : Nat) (dirty : Bool) :
    Handle.takeReaction { h with requirements := q } place dirty =
      (h.takeReaction place dirty).map (fun taken => (taken.1, { taken.2 with requirements := q })) := by
  unfold Handle.takeReaction
  cases (h.observers[place]?).bind (fun o => o.pending.head?) with
  | none => rfl
  | some reaction =>
      simp only []
      split
      · rfl
      · rfl

/-- The same observer reacts in both, or nobody does in either. -/
theorem Matches.takeReaction (hm : h.Matches k) (place : Nat) (dirty : Bool) :
    (h.takeReaction place dirty = none ∧ k.takeReaction place dirty = none) ∨
      ∃ act h' k', h.takeReaction place dirty = some (act, h') ∧ k.takeReaction place dirty = some (act, k') ∧
        act.Discreet ∧ h'.Matches k' := by
  have hright := takeReaction_with h k.requirements place dirty
  rw [hm.observers] at hright
  cases hleft : h.takeReaction place dirty with
  | none =>
      rw [hleft] at hright
      exact .inl ⟨rfl, hright⟩
  | some taken =>
      obtain ⟨act, h'⟩ := taken
      rw [hleft] at hright
      obtain ⟨hsame, hsubset, reaction, hreaction, rfl⟩ := takeReaction_eq_some hleft
      refine .inr ⟨_, h', _, rfl, hright, hm.discreet reaction hreaction, ?_⟩
      exact ⟨hsame ▸ hm.requirements, rfl, hm.discreet.of_subset hsubset⟩

section Announcing

variable {announce : Bool → Handle ρ → Handle ρ}
  (hannounce : ∀ dirty (h k : Handle ρ), h.Matches k → (announce dirty h).Matches (announce dirty k))
include hannounce

theorem Matches.install (hm : h.Matches k) (hrq : r.unmarked = q.unmarked) :
    (h.install announce r).Matches (k.install announce q) := by
  have hput : Matches { h with requirements := r } { k with requirements := q } := ⟨hrq, hm.observers, hm.discreet⟩
  unfold Handle.install
  simp only [Requirements.isDirty_congr hm.requirements, Requirements.isDirty_congr hrq]
  split
  · exact hput
  · exact hannounce _ _ _ hput

theorem Matches.performVia (hm : h.Matches k) (operation : Operation) :
    (Handle.performVia announce operation h).1.Matches (Handle.performVia announce operation k).1 ∧
      (Handle.performVia announce operation h).2 = (Handle.performVia announce operation k).2 := by
  obtain ⟨hperformed, hanswer⟩ := Requirements.perform_congr hm.requirements operation
  exact ⟨hm.install hannounce hperformed, hanswer⟩

theorem Matches.runVia (hm : h.Matches k) {p : Program α} (hp : p.Discreet) :
    (h.runVia announce p).1.Matches (k.runVia announce p).1 ∧
      (h.runVia announce p).2 = (k.runVia announce p).2 :=
  hp.interpret_related (R := Matches) (fun operation _ _ hm => hm.performVia hannounce operation)
    (fun _ _ hm => hm.requirements) hm

theorem Matches.tell (hm : h.Matches k) (dirty : Bool) (place : Nat) :
    (h.tell (Handle.runVia announce) dirty place).Matches (k.tell (Handle.runVia announce) dirty place) := by
  have hnoted := hm.note place (.dirty dirty h.requirements.isDirty)
  unfold Handle.tell
  rw [← Requirements.isDirty_congr hm.requirements]
  simp only []
  rcases hnoted.takeReaction place dirty with ⟨hleft, hright⟩ | ⟨act, h', k', hleft, hright, hact, htaken⟩
  · simp only [hleft, hright]
    exact hnoted
  · obtain ⟨hran, hresult⟩ := htaken.runVia hannounce hact
    simp only [hleft, hright, hresult]
    exact hran.note place _

end Announcing

theorem matches_foldl {f : Handle ρ → Nat → Handle ρ} (step : ∀ h k place, Matches h k → (f h place).Matches (f k place))
    (places : List Nat) (hm : h.Matches k) : (places.foldl f h).Matches (places.foldl f k) := by
  induction places generalizing h k with
  | nil => exact hm
  | cons place rest ih => exact ih (step h k place hm)

theorem Matches.announceWithin (hm : h.Matches k) (depth : Nat) (dirty : Bool) :
    (Handle.announceWithin depth dirty h).Matches (Handle.announceWithin depth dirty k) := by
  induction depth generalizing dirty h k with
  | zero =>
      unfold Handle.announceWithin
      rw [hm.observers]
      refine matches_foldl ?_ _ hm
      intro h k place hm
      rw [Requirements.isDirty_congr hm.requirements]
      exact hm.note place _
  | succ depth ih =>
      unfold Handle.announceWithin
      rw [hm.observers]
      exact matches_foldl (fun h k place hm => hm.tell (fun dirty _ _ hm => ih hm dirty) dirty place) _ hm

theorem Matches.announce (dirty : Bool) (h k : Handle ρ) (hm : h.Matches k) :
    (Handle.announce dirty h).Matches (Handle.announce dirty k) := by
  have hdepth : h.pending = k.pending := by rw [pending, hm.observers, pending]
  rw [Handle.announce, hdepth]
  exact hm.announceWithin k.pending dirty

theorem Matches.perform (hm : h.Matches k) (operation : Operation) :
    (h.perform operation).1.Matches (k.perform operation).1 ∧ (h.perform operation).2 = (k.perform operation).2 :=
  hm.performVia Matches.announce operation

end Handle

/-! ## Passes and applies -/

namespace Reconciler

variable {ρ σ : Type} {host : Host σ} {stopsRunning : Bool} {r r' q : Reconciler ρ σ} {report : Report}

theorem Executes.reactions {steps : Steps} {left : Handle ρ} {state : σ} {verdict : Verdict}
    (h : r.Executes host stopsRunning report steps left state verdict) : left.reactions ⊆ r.handle.reactions := by
  have hleft := Handle.reactions_run (h := r.begun) (host (report.passes + 1) steps r.host)
  rwa [h.ran] at hleft

theorem Undergoes.reactions {c : Course} {progress : Progress}
    (h : r.Undergoes host stopsRunning report c (r', progress)) : r'.handle.reactions ⊆ r.handle.reactions := by
  cases h with
  | refused unplanned => exact fun _ hreaction => hreaction
  | abandoned executes => exact executes.reactions
  | failed executes => exact List.Subset.trans (Handle.reactions_change _) executes.reactions
  | done executes next => exact List.Subset.trans (Handle.reactions_change _) executes.reactions

theorem Proceeds.reactions {courses : List Course} {outcome : Outcome}
    (h : Proceeds host stopsRunning r report courses r' outcome) : r'.handle.reactions ⊆ r.handle.reactions := by
  induction h with
  | unfinished => exact fun _ hreaction => hreaction
  | ended undergoes => exact undergoes.reactions
  | abandoned undergoes => exact undergoes.reactions
  | again undergoes rest ih => exact List.Subset.trans ih undergoes.reactions

theorem reactions_conclude (outcome : Outcome) : (r.conclude outcome).handle.reactions ⊆ r.handle.reactions := by
  cases outcome with
  | finished result => exact Handle.reactions_announceApplied result
  | abandoned | busy | unfinished => exact fun _ hreaction => hreaction

theorem Concludes.reactions {courses : List Course} {outcome : Outcome}
    (h : r.Concludes host stopsRunning courses (r', outcome)) : r'.handle.reactions ⊆ r.handle.reactions := by
  cases h with
  | busy inFlight => exact fun _ hreaction => hreaction
  | clean clean => exact fun _ hreaction => hreaction
  | proceeds dirty proceeds => exact List.Subset.trans (reactions_conclude _) proceeds.reactions

/-- Both reconcilers are the same but for the marks of a pass. -/
structure Matches (r q : Reconciler ρ σ) : Prop where
  handle : r.handle.Matches q.handle
  host : r.host = q.host
  options : r.options = q.options
  inFlight : r.inFlight = q.inFlight

theorem matches_of_discreet (h : r.handle.Discreet) : r.Matches r := ⟨h.matches, rfl, rfl, rfl⟩

namespace Matches

variable (hm : r.Matches q)
include hm

theorem isDirty_eq : r.isDirty = q.isDirty := Requirements.isDirty_congr hm.handle.requirements

theorem plan_eq (stopsRunning : Bool) : r.plan stopsRunning = q.plan stopsRunning := by
  rw [plan, Requirements.snapshot_congr hm.handle.requirements, hm.options, plan]

/-- A pass begins in the same way whatever the marks were. -/
theorem begun_eq : r.begun = q.begun := by
  rw [begun, Requirements.beginPass_congr hm.handle.requirements, hm.handle.observers, begun]

theorem pass_eq (host : Host σ) (stopsRunning : Bool) (report : Report) :
    r.pass host stopsRunning report = q.pass host stopsRunning report := by
  have hleft : r.handle.change Requirements.beginPass = r.begun := Handle.change_of_isDirty_eq rfl
  have hright : q.handle.change Requirements.beginPass = q.begun := Handle.change_of_isDirty_eq rfl
  unfold pass
  simp only [hleft, hright, hm.begun_eq, hm.host, hm.options, hm.inFlight]

theorem course_eq (host : Host σ) (stopsRunning : Bool) (report : Report) :
    r.course host stopsRunning report = q.course host stopsRunning report := by
  have hleft : r.handle.change Requirements.beginPass = r.begun := Handle.change_of_isDirty_eq rfl
  have hright : q.handle.change Requirements.beginPass = q.begun := Handle.change_of_isDirty_eq rfl
  unfold course
  simp only [hleft, hright, hm.begun_eq, hm.host, hm.options]

theorem pass (host : Host σ) (stopsRunning : Bool) (report : Report) :
    (r.pass host stopsRunning report).1.Matches (q.pass host stopsRunning report).1 := by
  rw [← hm.pass_eq]
  exact matches_of_discreet (hm.handle.discreet.of_subset (pass_undergoes host stopsRunning r report).reactions)

/-- The passes are the very same as soon as there is one. -/
theorem converge (host : Host σ) (stopsRunning : Bool) (fuel : Nat) (report : Report) :
    (converge host stopsRunning fuel r report).1.Matches (converge host stopsRunning fuel q report).1 ∧
      (converge host stopsRunning fuel r report).2 = (converge host stopsRunning fuel q report).2 ∧
      coursesWithin host stopsRunning fuel r report = coursesWithin host stopsRunning fuel q report := by
  cases fuel with
  | zero => exact ⟨hm, rfl, rfl⟩
  | succ fuel =>
      have hpasses : Reconciler.converge host stopsRunning (fuel + 1) r report =
          Reconciler.converge host stopsRunning (fuel + 1) q report := by
        unfold Reconciler.converge
        rw [hm.pass_eq]
      have hcourses : coursesWithin host stopsRunning (fuel + 1) r report =
          coursesWithin host stopsRunning (fuel + 1) q report := by
        unfold coursesWithin
        rw [hm.course_eq, hm.pass_eq]
      have hproceeds := converge_proceeds host stopsRunning (fuel + 1) r report
      refine ⟨?_, congrArg Prod.snd hpasses, hcourses⟩
      rw [← hpasses]
      exact matches_of_discreet (hm.handle.discreet.of_subset hproceeds.reactions)

theorem conclude (outcome : Outcome) : (r.conclude outcome).Matches (q.conclude outcome) := by
  cases outcome with
  | finished result =>
      refine ⟨?_, hm.host, hm.options, hm.inFlight⟩
      unfold Reconciler.conclude Handle.announceApplied
      simp only [hm.handle.observers]
      exact Handle.matches_foldl (fun _ _ place hk => hk.note place _) _ hm.handle
  | abandoned | busy | unfinished => exact hm

theorem apply (host : Host σ) (fuel : Nat) (stopsRunning : Bool) :
    (r.apply host fuel stopsRunning).1.Matches (q.apply host fuel stopsRunning).1 ∧
      (r.apply host fuel stopsRunning).2 = (q.apply host fuel stopsRunning).2 ∧
      r.courses host fuel stopsRunning = q.courses host fuel stopsRunning := by
  have hflying : ({ r with inFlight := true } : Reconciler ρ σ).Matches { q with inFlight := true } :=
    ⟨hm.handle, hm.host, hm.options, rfl⟩
  obtain ⟨hended, houtcome, hcourses⟩ := hflying.converge host stopsRunning fuel .blank
  unfold Reconciler.apply courses
  rw [hm.inFlight, hm.isDirty_eq]
  cases q.inFlight with
  | true => exact ⟨hm, rfl, rfl⟩
  | false =>
      cases q.isDirty with
      | false => exact ⟨hm, rfl, rfl⟩
      | true =>
          simp only [Bool.false_eq_true, Bool.not_true, Bool.or_false, if_false]
          refine ⟨?_, houtcome, hcourses⟩
          rw [houtcome]
          exact ⟨(hended.conclude _).handle, (hended.conclude _).host, (hended.conclude _).options, rfl⟩

end Matches

end Reconciler

/-! ## Acts -/

/-- What comes of an act: the answer to an operation, or the passes that were made and how they ended. -/
inductive Reply
  | answered (answer : Option Bool)
  | changed
  | passed (course : Course) (progress : Progress)
  | applied (courses : List Course) (outcome : Outcome)

namespace Reconciler

variable {ρ σ : Type} {r q : Reconciler ρ σ}

def reply (r : Reconciler ρ σ) : Act σ → Reply
  | .asked operation => .answered (r.handle.perform operation).2
  | .contentChanges _ => .changed
  | .passes host stopsRunning report =>
    .passed (r.course host stopsRunning report) (r.pass host stopsRunning report).2
  | .applies host fuel stopsRunning =>
    .applied (r.courses host fuel stopsRunning) (r.apply host fuel stopsRunning).2

/-- The reconciler with the marks of a pass taken away, which nobody can see from outside. -/
def shown (r : Reconciler ρ σ) : Reconciler ρ σ :=
  { r with handle := { r.handle with requirements := r.handle.requirements.unmarked } }

/-- What is seen while acts are done one after the other: what comes of each, and the reconciler afterwards. -/
def trace : Reconciler ρ σ → List (Act σ) → List (Reply × Reconciler ρ σ)
  | _, [] => []
  | r, act :: rest => (r.reply act, (r.act act).shown) :: (r.act act).trace rest

/-- Whatever is done with both, the same is seen in both, and the same plan is made at any time. -/
structure Indistinguishable (r q : Reconciler ρ σ) : Prop where
  trace : ∀ acts, r.trace acts = q.trace acts
  plan : ∀ acts stopsRunning, (r.actAll acts).plan stopsRunning = (q.actAll acts).plan stopsRunning

theorem matches_of_shown_eq (h : r.shown = q.shown) (hdiscreet : r.handle.Discreet) : r.Matches q where
  handle :=
    { requirements := congrArg (fun p => p.handle.requirements) h
      observers := congrArg (fun p => p.handle.observers) h
      discreet := hdiscreet }
  host := congrArg (fun p => p.host) h
  options := congrArg (fun p => p.options) h
  inFlight := congrArg (fun p => p.inFlight) h

namespace Matches

variable (hm : r.Matches q)
include hm

theorem shown_eq : r.shown = q.shown := by
  simp only [shown, hm.handle.requirements, hm.handle.observers, hm.host, hm.options, hm.inFlight]

theorem act (act : Act σ) : (r.act act).Matches (q.act act) ∧ r.reply act = q.reply act := by
  cases act with
  | asked operation =>
      obtain ⟨hperformed, hanswer⟩ := hm.handle.perform operation
      exact ⟨⟨hperformed, hm.host, hm.options, hm.inFlight⟩, congrArg Reply.answered hanswer⟩
  | contentChanges resolver =>
      have hresolver := congrArg (fun p : Requirements => { p with resolver }) hm.handle.requirements
      exact ⟨⟨⟨hresolver, hm.handle.observers, hm.handle.discreet⟩, hm.host, hm.options, hm.inFlight⟩, rfl⟩
  | passes host stopsRunning report =>
      refine ⟨hm.pass host stopsRunning report, ?_⟩
      rw [reply, reply, hm.course_eq, hm.pass_eq]
  | applies host fuel stopsRunning =>
      obtain ⟨happlied, houtcome, hcourses⟩ := hm.apply host fuel stopsRunning
      refine ⟨happlied, ?_⟩
      rw [reply, reply, houtcome, hcourses]

theorem acts (acts : List (Act σ)) : (r.actAll acts).Matches (q.actAll acts) := by
  induction acts generalizing r q with
  | nil => exact hm
  | cons act rest ih => exact ih (hm.act act).1

theorem trace_eq (acts : List (Act σ)) : r.trace acts = q.trace acts := by
  induction acts generalizing r q with
  | nil => rfl
  | cons act rest ih =>
      obtain ⟨hacted, hreply⟩ := hm.act act
      rw [Reconciler.trace, Reconciler.trace, hreply, hacted.shown_eq, ih hacted]

theorem indistinguishable : r.Indistinguishable q :=
  ⟨hm.trace_eq, fun acts => (hm.acts acts).plan_eq⟩

end Matches

end Reconciler

end Orchestrator
