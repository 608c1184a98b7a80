import Mathlib.Data.List.Chain
import Orchestrator.Proofs.Reconcile.Quarantine
/-!
What observers hear. All of them are told of the same flips of dirtiness, each of which is told once. The order is
another matter: when an observer answers a flip by causing the next one, those who subscribed after it hear of the
second before they hear of the first. Only who is not behind an observer that answers so hears the flips one after the
other, and was told last what holds.
-/

namespace Orchestrator

section Heard

variable {ρ : Type}

/-- Whether the observer was told that the requirements became dirty, if it was told of a flip at all. -/
def Event.told? : Event ρ → Option Bool
  | .dirty told _ => some told
  | .reaction _ => none
  | .applied _ => none

/-- The flips that the observer was told of, in this order. -/
def Observer.heard (o : Observer ρ) : List Bool := o.events.filterMap Event.told?

end Heard

/-- The operation never makes clean requirements dirty or dirty ones clean. -/
def Operation.NeverFlips (operation : Operation) : Prop :=
  ∀ r : Requirements, (r.perform operation).1.isDirty = r.isDirty

theorem Requirements.isDirty_touch (r : Requirements) : r.touch.isDirty = r.isDirty := by
  rw [touch_eq]
  rfl

theorem Operation.neverFlips_markRunning (id : String) (running : Bool) : (markRunning id running).NeverFlips := by
  intro r
  change (r.markRunning id running).isDirty = r.isDirty
  unfold Requirements.markRunning
  split
  · split
    · exact Requirements.isDirty_touch _
    · rfl
  · split
    · exact Requirements.isDirty_touch _
    · rfl

namespace Handle

variable {ρ α : Type} {h h' : Handle ρ} {place other count : Nat} {dirty was : Bool} {flips : List Bool}
  {owed : Nat → List Bool}

def heard (h : Handle ρ) (place : Nat) : List Bool := (h.observers[place]?).elim [] Observer.heard

/-- The reactions of those who hear of a flip before the observer at this place does. -/
def ahead (h : Handle ρ) (place : Nat) : List (Reaction ρ) := (h.observers.take place).flatMap Observer.pending

/-- Nothing happened that the observer at this place would know of. -/
structure SameAt (place : Nat) (h h' : Handle ρ) : Prop where
  isDirty : h'.requirements.isDirty = h.requirements.isDirty
  length : h'.observers.length = h.observers.length
  heard : h'.heard place = h.heard place
  ahead : h'.ahead place ⊆ h.ahead place

theorem SameAt.of_observers (hdirty : h'.requirements.isDirty = h.requirements.isDirty)
    (hobservers : h'.observers = h.observers) : SameAt place h h' where
  isDirty := hdirty
  length := by rw [hobservers]
  heard := by rw [Handle.heard, Handle.heard, hobservers]
  ahead := by
    rw [Handle.ahead, Handle.ahead, hobservers]
    exact List.Subset.refl _

theorem mem_ahead {reaction : Reaction ρ} : reaction ∈ h.ahead place ↔
    ∃ before o, before < place ∧ h.observers[before]? = some o ∧ reaction ∈ o.pending := by
  rw [Handle.ahead, List.mem_flatMap]
  constructor
  · rintro ⟨o, ho, hreaction⟩
    obtain ⟨before, hbefore⟩ := List.mem_iff_getElem?.mp ho
    rw [List.getElem?_take] at hbefore
    split at hbefore
    next hlt => exact ⟨before, o, hlt, hbefore, hreaction⟩
    next => cases hbefore
  · rintro ⟨before, o, hlt, hbefore, hreaction⟩
    refine ⟨o, List.mem_iff_getElem?.mpr ⟨before, ?_⟩, hreaction⟩
    rw [List.getElem?_take, if_pos hlt, hbefore]

theorem ahead_modify {f : Observer ρ → Observer ρ} (hpending : ∀ o, (f o).pending ⊆ o.pending) :
    ahead { h with observers := h.observers.modify other f } place ⊆ h.ahead place := by
  intro reaction hreaction
  obtain ⟨before, o, hlt, ho, hreaction⟩ := mem_ahead.mp hreaction
  rw [List.getElem?_modify] at ho
  obtain ⟨old, hold, rfl⟩ := Option.map_eq_some_iff.mp ho
  refine mem_ahead.mpr ⟨before, old, hlt, hold, ?_⟩
  split at hreaction
  · exact hpending old hreaction
  · exact hreaction

theorem ahead_note (other : Nat) (event : Event ρ) : (h.note other event).ahead place ⊆ h.ahead place :=
  ahead_modify fun _ _ hpending => hpending

theorem sameAt_modify {f : Observer ρ → Observer ρ} (hheard : other = place → ∀ o, (f o).heard = o.heard)
    (hpending : ∀ o, (f o).pending ⊆ o.pending) :
    SameAt place h { h with observers := h.observers.modify other f } where
  isDirty := rfl
  length := List.length_modify ..
  heard := by
    rw [Handle.heard, Handle.heard, List.getElem?_modify]
    cases h.observers[place]? with
    | none => rfl
    | some o =>
        by_cases heq : other = place
        · simpa [heq] using hheard heq o
        · simp [heq]
  ahead := ahead_modify hpending

/-- What others are told makes no difference to an observer. -/
theorem sameAt_note_other (hne : other ≠ place) (event : Event ρ) : SameAt place h (h.note other event) :=
  sameAt_modify (fun heq => (hne heq).elim) fun _ => List.Subset.refl _

theorem sameAt_note_silent {event : Event ρ} (hsilent : event.told? = none) : SameAt place h (h.note other event) :=
  sameAt_modify (fun _ o => by simp [Observer.heard, hsilent]) fun _ => List.Subset.refl _

theorem sameAt_takeReaction {act : Program ρ} (htake : h.takeReaction other dirty = some (act, h')) :
    SameAt place h h' := by
  unfold takeReaction at htake
  split at htake
  next => cases htake
  next =>
    split at htake
    next =>
      cases htake
      exact sameAt_modify (fun _ _ => rfl) fun _ _ => List.mem_of_mem_tail
    next => cases htake

theorem takeReaction_ahead {act : Program ρ} (hlt : other < place)
    (htake : h.takeReaction other dirty = some (act, h')) : ∃ reaction ∈ h.ahead place, reaction.act = act := by
  unfold takeReaction at htake
  split at htake
  next => cases htake
  next reaction hreaction =>
    split at htake
    next =>
      cases htake
      obtain ⟨o, ho, hhead⟩ := Option.bind_eq_some_iff.mp hreaction
      exact ⟨reaction, mem_ahead.mpr ⟨other, o, hlt, ho, List.mem_of_mem_head? hhead⟩, rfl⟩
    next => cases htake

theorem heard_note (hplace : place < h.observers.length) (told now : Bool) :
    (h.note place (.dirty told now)).heard place = h.heard place ++ [told] := by
  rw [Handle.heard, Handle.heard, Handle.note, List.getElem?_modify, List.getElem?_eq_getElem hplace]
  simp [Observer.heard, Event.told?]

/-! ## Telling -/

/-- To tell an observer is to note it, to have it react, and to note what came of that. -/
theorem tell_preserves {run : Program ρ → Handle ρ → Handle ρ × ρ} {I : Handle ρ → Prop}
    (hsilent : ∀ h h' : Handle ρ, (∀ place, SameAt place h h') → I h → I h')
    (hnoted : I (h.note other (.dirty dirty h.requirements.isDirty)))
    (hran : ∀ act h',
      (h.note other (.dirty dirty h.requirements.isDirty)).takeReaction other dirty = some (act, h') →
        I h' → I (run act h').1) : I (h.tell run dirty other) := by
  unfold tell
  simp only []
  split
  next => exact hnoted
  next act h' htake =>
    have htaken := hsilent _ _ (fun _ => sameAt_takeReaction htake) hnoted
    exact hsilent _ _ (fun _ => sameAt_note_silent rfl) (hran act h' htake htaken)

/-- Observers are told in order, one stage after the other. -/
theorem foldl_range_stages {f : Handle ρ → Nat → Handle ρ} {S : Nat → Handle ρ → Prop} {count : Nat}
    (step : ∀ h, ∀ other < count, S other h → S (other + 1) (f h other)) (hh : S 0 h) :
    S count ((List.range count).foldl f h) := by
  induction count with
  | zero => exact hh
  | succ count ih =>
      rw [List.range_succ, List.foldl_append]
      exact step _ count (Nat.lt_succ_self _) (ih fun h other hlt => step h other (Nat.lt_succ_of_lt hlt))

/-- A matter between the requirements and the observers that every change of the requirements respects, where flips are
announced in a certain way. -/
structure Respected (announce : Bool → Handle ρ → Handle ρ) (J : Handle ρ → Prop) : Prop where
  congr : ∀ h h' : Handle ρ, (∀ place, SameAt place h h') → J h → J h'
  flip : ∀ (h : Handle ρ) (r : Requirements), h.requirements.isDirty ≠ r.isDirty → J h →
    J (announce r.isDirty { h with requirements := r })

namespace Respected

variable {announce : Bool → Handle ρ → Handle ρ} {J : Handle ρ → Prop} (hJ : Respected announce J)
include hJ

theorem install (hh : J h) (r : Requirements) : J (h.install announce r) := by
  unfold Handle.install
  simp only []
  split
  next hsame => exact hJ.congr _ _ (fun _ => .of_observers hsame.symm rfl) hh
  next hflips => exact hJ.flip h r hflips hh

theorem runVia (hh : J h) (p : Program α) : J (h.runVia announce p).1 :=
  Program.interpret_preserves (I := J) (fun _ _ _ hk => hJ.install hk _) p.asksOnly_true hh

theorem tell (hnoted : J (h.note other (.dirty dirty h.requirements.isDirty))) :
    J (h.tell (Handle.runVia announce) dirty other) :=
  tell_preserves hJ.congr hnoted fun act _ _ hk => hJ.runVia hk act

end Respected

/-! ## The same flips -/

/-- What is owed to each observer while those before a certain place were told of a flip already. -/
def owedFrom (dirty : Bool) (owed : Nat → List Bool) (other : Nat) : Nat → List Bool :=
  fun place => if place < other then owed place else dirty :: owed place

/-- Since dirtiness was something, there were certain flips, and every observer was told of these, in one order or
another, but for the ones that are owed to it. -/
structure Shares (was : Bool) (count : Nat) (owed : Nat → List Bool) (flips : List Bool) (h : Handle ρ) : Prop where
  length : h.observers.length = count
  told : ∀ place < count, (h.heard place ++ owed place).Perm flips
  balance : flips.count true + was.toNat = flips.count false + h.requirements.isDirty.toNat

theorem Shares.congr (hh : h.Shares was count owed flips) (hsame : ∀ place, SameAt place h h') :
    h'.Shares was count owed flips where
  length := (hsame 0).length.trans hh.length
  told := fun place hplace => (hsame place).heard ▸ hh.told place hplace
  balance := (hsame 0).isDirty ▸ hh.balance

/-- To tell an observer pays what is owed to it. -/
theorem Shares.note (hh : h.Shares was count (owedFrom dirty owed other) flips) (hother : other < count) (now : Bool) :
    (h.note other (.dirty dirty now)).Shares was count (owedFrom dirty owed (other + 1)) flips where
  length := (List.length_modify ..).trans hh.length
  told := by
    intro place hplace
    have htold := hh.told place hplace
    by_cases heq : other = place
    · rw [← heq, heard_note (hh.length ▸ hother), owedFrom, if_pos (Nat.lt_succ_self _), List.append_assoc]
      rwa [← heq, owedFrom, if_neg (Nat.lt_irrefl _)] at htold
    · have hlater : place < other + 1 ↔ place < other := by omega
      rw [(sameAt_note_other heq _).heard]
      simpa only [owedFrom, hlater] using htold
  balance := hh.balance

/-- While announcements pay what is owed, a flip is told to all. -/
theorem respected_shares {announce : Bool → Handle ρ → Handle ρ}
    (hpays : ∀ dirty flips (h : Handle ρ), h.Shares was count (fun place => dirty :: owed place) flips →
      ∃ flips, (announce dirty h).Shares was count owed flips) :
    Respected announce (fun h => ∃ flips, h.Shares was count owed flips) where
  congr := fun _ _ hsame hh => hh.imp fun _ hk => hk.congr hsame
  flip := by
    rintro h r hflips ⟨flips, hh⟩
    have hbalance := hh.balance
    refine hpays r.isDirty (r.isDirty :: flips) _ ⟨hh.length, fun place hplace => ?_, ?_⟩
    · exact List.perm_middle.trans ((hh.told place hplace).cons r.isDirty)
    · revert hflips hbalance
      cases r.isDirty <;> cases h.requirements.isDirty <;> simp
      omega

/-- Once each observer was told in its turn, nothing is owed any more. -/
theorem Shares.foldl {f : Handle ρ → Nat → Handle ρ}
    (step : ∀ h, ∀ other < count, (∃ flips, h.Shares was count (owedFrom dirty owed other) flips) →
      ∃ flips, (f h other).Shares was count (owedFrom dirty owed (other + 1)) flips)
    (hh : h.Shares was count (fun place => dirty :: owed place) flips) :
    ∃ flips, ((List.range h.observers.length).foldl f h).Shares was count owed flips := by
  have hstart : ∃ flips, h.Shares was count (owedFrom dirty owed 0) flips := ⟨flips, hh⟩
  obtain ⟨flips, hend⟩ := foldl_range_stages
    (S := fun other h => ∃ flips, h.Shares was count (owedFrom dirty owed other) flips) step hstart
  rw [hh.length]
  refine ⟨flips, hend.length, fun place hplace => ?_, hend.balance⟩
  have htold := hend.told place hplace
  rwa [owedFrom, if_pos hplace] at htold

/-- An announcement pays what is owed, however many other announcements come in between. -/
theorem Shares.announceWithin (depth : Nat) (hh : h.Shares was count (fun place => dirty :: owed place) flips) :
    ∃ flips, (Handle.announceWithin depth dirty h).Shares was count owed flips := by
  induction depth generalizing dirty owed flips h with
  | zero => exact hh.foldl fun _ _ hother hk => hk.imp fun _ hk => hk.note hother _
  | succ depth ih =>
      have hpays : ∀ owed, Respected (Handle.announceWithin depth)
          (fun h : Handle ρ => ∃ flips, h.Shares was count owed flips) :=
        fun owed => respected_shares fun _ _ _ hk => ih hk
      exact hh.foldl fun _ _ hother hk => (hpays _).tell (hk.imp fun _ hk => hk.note hother _)

/-! ## The last word -/

/-- The flips that the observer at this place heard of came one after the other, and with what is owed to it the last of
them was the one to what holds; and nobody who hears of a flip before it answers with another one. -/
structure Follows (was : Bool) (place : Nat) (owed : List Bool) (h : Handle ρ) : Prop where
  listens : place < h.observers.length
  alternates : (was :: (h.heard place ++ owed)).IsChain (· ≠ ·)
  current : (was :: (h.heard place ++ owed)).getLast? = some h.requirements.isDirty
  quiet : ∀ reaction ∈ h.ahead place, reaction.act.AsksOnly Operation.NeverFlips

variable {due : List Bool}

theorem Follows.congr (hh : h.Follows was place due) (hsame : SameAt place h h') : h'.Follows was place due where
  listens := hsame.length ▸ hh.listens
  alternates := hsame.heard ▸ hh.alternates
  current := by rw [hsame.heard, hsame.isDirty, hh.current]
  quiet := fun reaction hreaction => hh.quiet reaction (hsame.ahead hreaction)

theorem Follows.note_other (hh : h.Follows was place due) (hne : other ≠ place) (event : Event ρ) :
    (h.note other event).Follows was place due := hh.congr (sameAt_note_other hne event)

theorem Follows.note (hh : h.Follows was place [dirty]) (now : Bool) :
    (h.note place (.dirty dirty now)).Follows was place [] where
  listens := Nat.lt_of_lt_of_eq hh.listens (List.length_modify ..).symm
  alternates := by
    rw [heard_note hh.listens, List.append_nil]
    exact hh.alternates
  current := by
    rw [heard_note hh.listens, List.append_nil]
    exact hh.current
  quiet := fun reaction hreaction => hh.quiet reaction (ahead_note _ _ hreaction)

/-- Who answers before the observer is told flips nothing. -/
theorem Follows.tell_ahead {announce : Bool → Handle ρ → Handle ρ} (hh : h.Follows was place due) (hlt : other < place)
    (dirty : Bool) : (h.tell (Handle.runVia announce) dirty other).Follows was place due := by
  have hnoted := hh.note_other (Nat.ne_of_lt hlt) (.dirty dirty h.requirements.isDirty)
  refine tell_preserves (fun _ _ hsame hk => hk.congr (hsame place)) hnoted ?_
  intro act h' htake hk
  obtain ⟨reaction, hreaction, rfl⟩ := takeReaction_ahead hlt htake
  refine Program.interpret_preserves ?_ (hnoted.quiet reaction hreaction) hk
  intro operation k hnever hk
  have hsame := hnever k.requirements
  have hinstalled : (Handle.performVia announce operation k).1 =
      { k with requirements := (k.requirements.perform operation).1 } := if_pos hsame.symm
  rw [hinstalled]
  exact hk.congr (.of_observers hsame rfl)

theorem respected_follows {announce : Bool → Handle ρ → Handle ρ}
    (hpays : ∀ dirty (h : Handle ρ), h.Follows was place [dirty] → (announce dirty h).Follows was place []) :
    Respected announce (Follows was place []) where
  congr := fun _ _ hsame hh => hh.congr (hsame place)
  flip := by
    intro h r hflips hh
    have halternates := hh.alternates
    have hcurrent := hh.current
    rw [List.append_nil] at halternates hcurrent
    refine hpays _ _ ⟨hh.listens, ?_, ?_, hh.quiet⟩
    · refine halternates.append (List.isChain_singleton _) ?_
      intro last hlast next hnext
      rw [hcurrent, Option.mem_some_iff] at hlast
      rw [List.head?_cons, Option.mem_some_iff] at hnext
      exact hlast ▸ hnext ▸ hflips
    · rw [← List.cons_append, List.getLast?_concat]

/-- The observer is told in its turn, when those before it were told and before those behind it are. -/
theorem Follows.foldl {f : Handle ρ → Nat → Handle ρ}
    (before : ∀ h, ∀ other < place, Follows was place [dirty] h → (f h other).Follows was place [dirty])
    (told : ∀ h, Follows was place [dirty] h → (f h place).Follows was place [])
    (after : ∀ h other, place < other → Follows was place [] h → (f h other).Follows was place [])
    (hh : h.Follows was place [dirty]) : ((List.range h.observers.length).foldl f h).Follows was place [] := by
  have hstep : ∀ k : Handle ρ, ∀ other < h.observers.length,
      k.Follows was place (if other ≤ place then [dirty] else []) →
        (f k other).Follows was place (if other + 1 ≤ place then [dirty] else []) := by
    intro k other _ hk
    rcases Nat.lt_trichotomy other place with hlt | rfl | hlt
    · rw [if_pos (Nat.le_of_lt hlt)] at hk
      rw [if_pos (Nat.succ_le_of_lt hlt)]
      exact before k other hlt hk
    · rw [if_pos (Nat.le_refl _)] at hk
      rw [if_neg (Nat.not_succ_le_self _)]
      exact told k hk
    · rw [if_neg (Nat.not_le.mpr hlt)] at hk
      rw [if_neg (Nat.not_le.mpr (Nat.lt_succ_of_lt hlt))]
      exact after k other hlt hk
  have hend := foldl_range_stages (S := fun other h => h.Follows was place (if other ≤ place then [dirty] else []))
    hstep hh
  rwa [if_neg (Nat.not_le.mpr hh.listens)] at hend

/-- Nothing comes between a flip and the moment in which the observer hears of it. -/
theorem Follows.announceWithin (depth : Nat) (hh : h.Follows was place [dirty]) :
    (Handle.announceWithin depth dirty h).Follows was place [] := by
  induction depth generalizing dirty h with
  | zero =>
      exact hh.foldl (fun _ _ hlt hk => hk.note_other (Nat.ne_of_lt hlt) _) (fun _ hk => hk.note _)
        fun _ _ hlt hk => hk.note_other (Nat.ne_of_gt hlt) _
  | succ depth ih =>
      have hpays : Respected (Handle.announceWithin depth) (Follows (ρ := ρ) was place []) :=
        respected_follows fun _ _ hk => ih hk
      exact hh.foldl (fun _ _ hlt hk => hk.tell_ahead hlt dirty) (fun _ hk => hpays.tell (hk.note _))
        fun _ _ hlt hk => hpays.tell (hk.note_other (Nat.ne_of_gt hlt) _)

end Handle

/-! ## Through all that is done -/

namespace Handle.Respected

open Reconciler

variable {ρ σ : Type} {host : Host σ} {stopsRunning : Bool} {r r' : Reconciler ρ σ} {report : Report}
  {J : Handle ρ → Prop} (hJ : Handle.Respected Handle.announce J)
include hJ

theorem left {steps : Steps} {left : Handle ρ} {state : σ} {verdict : Verdict} (hr : J r.handle)
    (h : r.Executes host stopsRunning report steps left state verdict) : J left := by
  have hbegun : J r.begun := hJ.congr r.handle r.begun (fun _ => .of_observers rfl rfl) hr
  have hleft : J (r.begun.run (host (report.passes + 1) steps r.host)).1 := hJ.runVia hbegun _
  rwa [h.ran] at hleft

theorem undergoes {c : Course} {progress : Progress} (hr : J r.handle)
    (h : r.Undergoes host stopsRunning report c (r', progress)) : J r'.handle := by
  cases h with
  | refused unplanned => exact hJ.congr r.handle _ (fun _ => .of_observers rfl rfl) hr
  | abandoned executes => exact hJ.left hr executes
  | failed executes => exact hJ.install (hJ.left hr executes) _
  | done executes next => exact hJ.install (hJ.left hr executes) _

theorem proceeds {courses : List Course} {outcome : Outcome} (hr : J r.handle)
    (h : Proceeds host stopsRunning r report courses r' outcome) : J r'.handle := by
  induction h with
  | unfinished => exact hr
  | ended undergoes => exact hJ.undergoes hr undergoes
  | abandoned undergoes => exact hJ.undergoes hr undergoes
  | again undergoes rest ih => exact ih (hJ.undergoes hr undergoes)

theorem conclude (hr : J r.handle) (outcome : Outcome) : J (r.conclude outcome).handle := by
  cases outcome with
  | finished result =>
      exact List.foldlRecOn _ _ hr fun h hh other _ => hJ.congr h _ (fun _ => Handle.sameAt_note_silent rfl) hh
  | abandoned | busy | unfinished => exact hr

theorem concludes {courses : List Course} {outcome : Outcome} (hr : J r.handle)
    (h : r.Concludes host stopsRunning courses (r', outcome)) : J r'.handle := by
  cases h with
  | busy inFlight => exact hr
  | clean clean => exact hr
  | @proceeds _ q _ dirty proceeds =>
      have hq : J q.handle := hJ.proceeds (r := { r with inFlight := true }) hr proceeds
      exact hJ.conclude hq outcome

theorem act (hr : J r.handle) (act : Act σ) : J (r.act act).handle := by
  cases act with
  | asked operation => exact hJ.install hr _
  | contentChanges resolver => exact hJ.congr r.handle _ (fun _ => .of_observers rfl rfl) hr
  | passes host stopsRunning report => exact hJ.undergoes hr (pass_undergoes host stopsRunning r report)
  | applies host fuel stopsRunning => exact hJ.concludes hr (apply_concludes host fuel stopsRunning r)

theorem actAll (hr : J r.handle) (acts : List (Act σ)) : J (r.actAll acts).handle := by
  induction acts generalizing r with
  | nil => exact hr
  | cons first rest ih => exact ih (hJ.act hr first)

end Handle.Respected

namespace Reconciler

variable {ρ σ : Type}

theorem heard_of_getElem? {h : Handle ρ} {place : Nat} {o : Observer ρ} (ho : h.observers[place]? = some o) :
    h.heard place = o.heard := by rw [Handle.heard, ho, Option.elim_some]

/-- Nobody heard of a flip before the acts. Whatever is done with the reconciler and however observers answer, all of
them are told of the same flips, in one order or another; and with what there was in the beginning, there were as many
flips to dirty and to clean as make up what there is now. Where nobody who subscribed before an observer answers with
operations that flip dirtiness, the flips that this observer heard of alternate, and if it heard of any, the last of
them was to what there is now. -/
theorem last_word_current (r : Reconciler ρ σ) (acts : List (Act σ))
    (hfresh : ∀ o ∈ r.handle.observers, o.heard = []) :
    (∃ flips : List Bool, flips.count true + r.isDirty.toNat = flips.count false + (r.actAll acts).isDirty.toNat ∧
      ∀ o ∈ (r.actAll acts).handle.observers, o.heard.Perm flips) ∧
    ∀ place o, (r.actAll acts).handle.observers[place]? = some o →
      (∀ reaction ∈ r.handle.ahead place, reaction.act.AsksOnly Operation.NeverFlips) →
        o.heard.IsChain (· ≠ ·) ∧ ∀ last ∈ o.heard.getLast?, last = (r.actAll acts).isDirty := by
  have hbefore : ∀ place < r.handle.observers.length, r.handle.heard place = [] := fun place hplace =>
    (heard_of_getElem? (List.getElem?_eq_getElem hplace)).trans (hfresh _ (List.getElem_mem hplace))
  have hstart : r.handle.Shares r.isDirty r.handle.observers.length (fun _ => []) [] :=
    ⟨rfl, fun place hplace => by rw [hbefore place hplace]; rfl, rfl⟩
  have hshares : Handle.Respected Handle.announce (fun h : Handle ρ => ∃ flips,
      h.Shares r.isDirty r.handle.observers.length (fun _ => []) flips) :=
    Handle.respected_shares fun _ _ _ hk => hk.announceWithin _
  obtain ⟨flips, hend⟩ := hshares.actAll ⟨[], hstart⟩ acts
  refine ⟨⟨flips, hend.balance, fun o ho => ?_⟩, fun place o ho hquiet => ?_⟩
  · obtain ⟨place, hplace⟩ := List.mem_iff_getElem?.mp ho
    have hlistens := (List.getElem?_eq_some_iff.mp hplace).1
    have htold := hend.told place (hend.length ▸ hlistens)
    rwa [List.append_nil, heard_of_getElem? hplace] at htold
  · have hlistens : place < r.handle.observers.length := hend.length ▸ (List.getElem?_eq_some_iff.mp ho).1
    have hstart : r.handle.Follows r.isDirty place [] := by
      refine ⟨hlistens, ?_, ?_, hquiet⟩
      · rw [hbefore place hlistens]
        exact List.isChain_singleton _
      · rw [hbefore place hlistens]
        rfl
    have hfollows : Handle.Respected Handle.announce (Handle.Follows (ρ := ρ) r.isDirty place []) :=
      Handle.respected_follows fun _ _ hk => hk.announceWithin _
    have hend := hfollows.actAll hstart acts
    have halternates := hend.alternates
    have hcurrent := hend.current
    rw [heard_of_getElem? ho, List.append_nil] at halternates hcurrent
    refine ⟨halternates.tail, fun last hlast => ?_⟩
    rw [List.getLast?_cons, hlast, Option.getD_some] at hcurrent
    exact Option.some.inj hcurrent

/-! ## Three neighbours -/

/-- Somebody wants the lamp to be lit in the evening. -/
def eveningLayer : Layer := ⟨"evening", Table.empty.insert (.component "lamp") .present⟩

/-- Three neighbours hear of what happens in the parlour. When the requirements become dirty, the first turns the radio
on and the second calls the evening off; the third only listens. -/
def neighbours : Reconciler Unit Unit :=
  { handle :=
      { requirements := .initial Simulator.parlour .empty .store
        observers :=
          [⟨[⟨true, .perform (.markRunning "radio" true) fun _ => .done ()⟩], []⟩,
            ⟨[⟨true, .perform (.removeLayer eveningLayer false) fun _ => .done ()⟩], []⟩, .listener] }
    host := ()
    options := .standard
    inFlight := false }

/-- The parlour is settled, and then it becomes evening. -/
def sundown : List (Act Unit) := [.applies Host.idle 1 false, .asked (.addLayer eveningLayer false)]

/-- What each of the neighbours heard until it was evening. -/
def sundownHeard : List (List Bool) := (neighbours.actAll sundown).handle.observers.map Observer.heard

/-- The third neighbour hears of the same flips as the others; and as the first does not disturb, the second hears of
them in order. -/
theorem last_word_current_neighbours :
    (∀ o ∈ neighbours.handle.observers, o.heard = []) ∧
      (∃ flips : List Bool, flips.count true + 1 = flips.count false ∧ ∀ heard ∈ sundownHeard, heard.Perm flips) ∧
      (∀ reaction ∈ neighbours.handle.ahead 1, reaction.act.AsksOnly Operation.NeverFlips) ∧
      ∃ o, (neighbours.actAll sundown).handle.observers[1]? = some o ∧ o.heard.IsChain (· ≠ ·) ∧
        ∀ last ∈ o.heard.getLast?, last = (neighbours.actAll sundown).isDirty := by
  have hfresh : ∀ o ∈ neighbours.handle.observers, o.heard = [] := by
    simp [neighbours, Observer.heard, Observer.listener]
  have hquiet : ∀ reaction ∈ neighbours.handle.ahead 1, reaction.act.AsksOnly Operation.NeverFlips := by
    intro reaction hreaction
    rw [List.mem_singleton.mp hreaction]
    exact ⟨Operation.neverFlips_markRunning _ _, fun _ => trivial⟩
  obtain ⟨⟨flips, hbalance, hsame⟩, hordered⟩ := last_word_current neighbours sundown hfresh
  have hdirty : neighbours.isDirty = true := by decide +kernel
  have hclean : (neighbours.actAll sundown).isDirty = false := by decide +kernel
  rw [hdirty, hclean] at hbalance
  refine ⟨hfresh, ⟨flips, hbalance, List.forall_mem_map.mpr hsame⟩, hquiet, _, rfl, hordered 1 _ rfl hquiet⟩

/-- The third neighbour hears twice in a row that the parlour is clean, and last that it is dirty, which it is not. -/
theorem last_word_stale :
    sundownHeard = [[false, true, false], [false, true, false], [false, false, true]] ∧
      ¬ [false, false, true].IsChain (· ≠ ·) ∧ (neighbours.actAll sundown).isDirty = false :=
  ⟨by decide +kernel, by decide, by decide +kernel⟩

end Reconciler

end Orchestrator
