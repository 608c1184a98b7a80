import Orchestrator.Reconcile.Handle
/-!
Dialogues with the requirements. A program keeps whatever every operation that it may ask for keeps. Through a handle
observers have their say, in the middle of a dialogue and in the middle of what another observer does: what is to be
kept then has to be kept by their operations too. Where they only listen a handle adds nothing, and what a program does
through the handle it does to the requirements alone.
-/

namespace Orchestrator

namespace Program

variable {α β σ τ : Type} {P : Operation → Prop}

/-- Whatever it is answered and shown, the program asks for operations of one kind only. -/
def AsksOnly (P : Operation → Prop) : Program α → Prop
  | done _ => True
  | perform operation next => P operation ∧ ∀ answer, (next answer).AsksOnly P
  | look next => ∀ r, (next r).AsksOnly P

/-- Whatever it is answered and shown, the program ends with a result of a certain kind. -/
def Ends (Q : α → Prop) : Program α → Prop
  | done result => Q result
  | perform _ next => ∀ answer, (next answer).Ends Q
  | look next => ∀ r, (next r).Ends Q

/-- Runs a program on requirements in which nobody else has a part. -/
def runOn (p : Program α) (r : Requirements) : Requirements × α :=
  p.interpret (fun operation r => r.perform operation) id r

theorem AsksOnly.andThen {p : Program α} {f : α → Program β} (hp : p.AsksOnly P) (hf : ∀ a, (f a).AsksOnly P) :
    (p.andThen f).AsksOnly P := by
  induction p with
  | done result => exact hf result
  | perform operation next ih => exact ⟨hp.1, fun answer => ih answer (hp.2 answer)⟩
  | look next ih => exact fun r => ih r (hp r)

theorem AsksOnly.mono {Q : Operation → Prop} (hPQ : ∀ operation, P operation → Q operation) {p : Program α}
    (hp : p.AsksOnly P) : p.AsksOnly Q := by
  induction p with
  | done result => trivial
  | perform operation next ih => exact ⟨hPQ operation hp.1, fun answer => ih answer (hp.2 answer)⟩
  | look next ih => exact fun r => ih r (hp r)

theorem asksOnly_true (p : Program α) : p.AsksOnly (fun _ => True) := by
  induction p with
  | done result => trivial
  | perform operation next ih => exact ⟨trivial, ih⟩
  | look next ih => exact ih

theorem asksOnly_performAll {operations : List Operation} (h : ∀ operation ∈ operations, P operation) :
    (performAll operations).AsksOnly P := by
  induction operations with
  | nil => trivial
  | cons operation rest ih =>
      exact ⟨h operation List.mem_cons_self, fun _ => ih (fun other hother => h other (List.mem_cons_of_mem _ hother))⟩

theorem Ends.andThen {Q : α → Prop} {Q' : β → Prop} {p : Program α} {f : α → Program β} (hp : p.Ends Q)
    (hf : ∀ a, Q a → (f a).Ends Q') : (p.andThen f).Ends Q' := by
  induction p with
  | done result => exact hf result hp
  | perform operation next ih => exact fun answer => ih answer (hp answer)
  | look next ih => exact fun r => ih r (hp r)

theorem Ends.mono {Q Q' : α → Prop} (h : ∀ a, Q a → Q' a) {p : Program α} (hp : p.Ends Q) : p.Ends Q' := by
  induction p with
  | done result => exact h result hp
  | perform operation next ih => exact fun answer => ih answer (hp answer)
  | look next ih => exact fun r => ih r (hp r)

theorem ends_true (p : Program α) : p.Ends (fun _ => True) := by
  induction p with
  | done result => trivial
  | perform operation next ih => exact ih
  | look next ih => exact ih

theorem Ends.interpret {Q : α → Prop} {perform : Operation → σ → σ × Option Bool} {look : σ → Requirements}
    {p : Program α} (hp : p.Ends Q) (s : σ) : Q (p.interpret perform look s).2 := by
  induction p generalizing s with
  | done result => exact hp
  | perform operation next ih => exact ih _ (hp _) _
  | look next ih => exact ih _ (hp _) _

theorem Ends.runOn {Q : α → Prop} {p : Program α} (hp : p.Ends Q) (r : Requirements) : Q (p.runOn r).2 := hp.interpret r

theorem interpret_preserves {I : σ → Prop} {perform : Operation → σ → σ × Option Bool} {look : σ → Requirements}
    (step : ∀ operation s, P operation → I s → I (perform operation s).1) {p : Program α} (hp : p.AsksOnly P) {s : σ}
    (h : I s) : I (p.interpret perform look s).1 := by
  induction p generalizing s with
  | done result => exact h
  | perform operation next ih => exact ih _ (hp.2 _) (step operation s hp.1 h)
  | look next ih => exact ih _ (hp _) h

/-- Two places in which operations have related effects and the same answers cannot be told apart by a program. -/
theorem interpret_related {R : σ → τ → Prop} {performₗ : Operation → σ → σ × Option Bool}
    {performᵣ : Operation → τ → τ × Option Bool} {lookₗ : σ → Requirements} {lookᵣ : τ → Requirements}
    (step : ∀ operation s t, R s t →
      R (performₗ operation s).1 (performᵣ operation t).1 ∧ (performₗ operation s).2 = (performᵣ operation t).2)
    (seen : ∀ s t, R s t → lookₗ s = lookᵣ t) (p : Program α) {s : σ} {t : τ} (h : R s t) :
    R (p.interpret performₗ lookₗ s).1 (p.interpret performᵣ lookᵣ t).1 ∧
      (p.interpret performₗ lookₗ s).2 = (p.interpret performᵣ lookᵣ t).2 := by
  induction p generalizing s t with
  | done result => exact ⟨h, rfl⟩
  | perform operation next ih =>
      obtain ⟨hstates, hanswers⟩ := step operation s t h
      simp only [interpret, hanswers]
      exact ih _ hstates
  | look next ih =>
      simp only [interpret, seen s t h]
      exact ih _ h

end Program

namespace Handle

variable {ρ α : Type} {h : Handle ρ} {r : Requirements} {P Q : Operation → Prop} {I : Requirements → Prop}

/-- A change that leaves dirtiness as it is is not announced. -/
theorem change_of_isDirty_eq {f : Requirements → Requirements}
    (h' : h.requirements.isDirty = (f h.requirements).isDirty) :
    h.change f = { h with requirements := f h.requirements } := if_pos h'

/-! ## Observers that answer -/

/-- The reactions that are still to come. -/
def reactions (h : Handle ρ) : List (Reaction ρ) := h.observers.flatMap Observer.pending

/-- Every reaction that is still to come asks for operations of one kind only. -/
def Allows (P : Operation → Prop) (h : Handle ρ) : Prop :=
  ∀ o ∈ h.observers, ∀ reaction ∈ o.pending, reaction.act.AsksOnly P

theorem Allows.mono (hPQ : ∀ operation, P operation → Q operation) (hh : h.Allows P) : h.Allows Q :=
  fun o ho reaction hreaction => (hh o ho reaction hreaction).mono hPQ

theorem reactions_modify (place : Nat) {f : Observer ρ → Observer ρ} (hf : ∀ o, (f o).pending ⊆ o.pending) :
    reactions { h with observers := h.observers.modify place f } ⊆ h.reactions := by
  intro reaction hreaction
  obtain ⟨o, ho, hpending⟩ := List.mem_flatMap.mp hreaction
  obtain ⟨i, hi⟩ := List.mem_iff_getElem?.mp ho
  rw [List.getElem?_modify] at hi
  obtain ⟨old, hold, rfl⟩ := Option.map_eq_some_iff.mp hi
  refine List.mem_flatMap.mpr ⟨old, List.mem_of_getElem? hold, ?_⟩
  split at hpending
  · exact hf old hpending
  · exact hpending

theorem reactions_note (place : Nat) (event : Event ρ) : (h.note place event).reactions ⊆ h.reactions :=
  reactions_modify place fun _ _ hreaction => hreaction

/-- Who reacts uses a reaction up, and the requirements are left as they are. -/
theorem takeReaction_eq_some {h' : Handle ρ} {place : Nat} {dirty : Bool} {act : Program ρ}
    (htake : h.takeReaction place dirty = some (act, h')) :
    h'.requirements = h.requirements ∧ h'.reactions ⊆ h.reactions ∧ ∃ reaction ∈ h.reactions, reaction.act = act := by
  unfold Handle.takeReaction at htake
  split at htake
  next => cases htake
  next reaction hreaction =>
    split at htake
    next =>
      cases htake
      obtain ⟨o, ho, hhead⟩ := Option.bind_eq_some_iff.mp hreaction
      refine ⟨rfl, reactions_modify place fun _ _ => List.mem_of_mem_tail, reaction, ?_, rfl⟩
      exact List.mem_flatMap.mpr ⟨o, List.mem_of_getElem? ho, List.mem_of_mem_head? hhead⟩
    next => cases htake

theorem allows_iff : h.Allows P ↔ ∀ reaction ∈ h.reactions, reaction.act.AsksOnly P := by
  constructor
  · intro hh reaction hreaction
    obtain ⟨o, ho, hpending⟩ := List.mem_flatMap.mp hreaction
    exact hh o ho reaction hpending
  · intro hh o ho reaction hpending
    exact hh reaction (List.mem_flatMap.mpr ⟨o, ho, hpending⟩)

/-- Where no reactions are to come but those that were to come before, no more is allowed. -/
theorem Allows.of_subset {h' : Handle ρ} (hh : h.Allows P) (hsubset : h'.reactions ⊆ h.reactions) : h'.Allows P :=
  allows_iff.mpr fun reaction hreaction => allows_iff.mp hh reaction (hsubset hreaction)

theorem Allows.takeReaction (hh : h.Allows P) {place : Nat} {dirty : Bool} {act : Program ρ} {h' : Handle ρ}
    (htake : h.takeReaction place dirty = some (act, h')) :
    h'.requirements = h.requirements ∧ h'.Allows P ∧ act.AsksOnly P := by
  obtain ⟨hsame, hsubset, reaction, hreaction, rfl⟩ := takeReaction_eq_some htake
  exact ⟨hsame, hh.of_subset hsubset, allows_iff.mp hh reaction hreaction⟩

theorem allows_true (h : Handle ρ) : h.Allows (fun _ => True) := fun _ _ reaction _ => reaction.act.asksOnly_true

/-- The requirements have a property, and every reaction that is to come asks for permitted operations only. -/
structure Keeps (P : Operation → Prop) (I : Requirements → Prop) (h : Handle ρ) : Prop where
  requirements : I h.requirements
  allows : h.Allows P

theorem Keeps.note (hh : h.Keeps P I) (place : Nat) (event : Event ρ) : (h.note place event).Keeps P I :=
  ⟨hh.requirements, hh.allows.of_subset (reactions_note place event)⟩

theorem keeps_foldl {f : Handle ρ → Nat → Handle ρ} (step : ∀ h place, Keeps P I h → (f h place).Keeps P I)
    (places : List Nat) (hh : h.Keeps P I) : (places.foldl f h).Keeps P I :=
  List.foldlRecOn places f hh fun h hh place _ => step h place hh

theorem Keeps.announceApplied (hh : h.Keeps P I) (outcome : Except Fault Report) :
    (h.announceApplied outcome).Keeps P I :=
  keeps_foldl (fun _ place hk => hk.note place _) _ hh

/-- The property is kept by the operations that may be asked for. -/
def Stable (P : Operation → Prop) (I : Requirements → Prop) : Prop :=
  ∀ r operation, P operation → I r → I (r.perform operation).1

theorem Stable.mono (hstable : Stable Q I) (hPQ : ∀ operation, P operation → Q operation) : Stable P I :=
  fun r operation hpermitted => hstable r operation (hPQ operation hpermitted)

section Announcing

variable {announce : Bool → Handle ρ → Handle ρ}
  (hannounce : ∀ dirty (h : Handle ρ), h.Keeps P I → (announce dirty h).Keeps P I)
include hannounce

theorem Allows.install (hh : h.Allows P) {r : Requirements} (hr : I r) : (h.install announce r).Keeps P I := by
  have hput : Keeps P I { h with requirements := r } := ⟨hr, hh⟩
  unfold Handle.install
  simp only []
  split
  · exact hput
  · exact hannounce _ _ hput

theorem Keeps.runVia (hstable : Stable Q I) (hh : h.Keeps P I) {p : Program α} (hp : p.AsksOnly Q) :
    (h.runVia announce p).1.Keeps P I := by
  refine Program.interpret_preserves ?_ hp hh
  intro operation h hpermitted hh
  exact hh.allows.install hannounce (hstable _ operation hpermitted hh.requirements)

theorem Keeps.tell (hstable : Stable P I) (hh : h.Keeps P I) (dirty : Bool) (place : Nat) :
    (h.tell (Handle.runVia announce) dirty place).Keeps P I := by
  have hnoted := hh.note place (.dirty dirty h.requirements.isDirty)
  unfold Handle.tell
  simp only []
  split
  next => exact hnoted
  next act h' htake =>
    obtain ⟨hsame, hallows, hact⟩ := hnoted.allows.takeReaction htake
    have htaken : h'.Keeps P I := ⟨hsame ▸ hnoted.requirements, hallows⟩
    exact (htaken.runVia hannounce hstable hact).note place _

end Announcing

/-- However deep announcements are nested, what they lead to is permitted. -/
theorem Keeps.announceWithin (hstable : Stable P I) (depth : Nat) (dirty : Bool) (hh : h.Keeps P I) :
    (Handle.announceWithin depth dirty h).Keeps P I := by
  induction depth generalizing dirty h with
  | zero => exact keeps_foldl (fun _ place hk => hk.note place _) _ hh
  | succ depth ih =>
      refine keeps_foldl ?_ _ hh
      intro h place hk
      exact hk.tell (fun dirty _ hk => ih dirty hk) hstable dirty place

theorem Keeps.announce (hstable : Stable P I) (dirty : Bool) (h : Handle ρ) (hh : h.Keeps P I) :
    (Handle.announce dirty h).Keeps P I := hh.announceWithin hstable h.pending dirty

/-- What a change brings about lasts, whatever the observers make of it. -/
theorem Allows.change (hstable : Stable P I) (hh : h.Allows P) (f : Requirements → Requirements)
    (hf : I (f h.requirements)) : (h.change f).Keeps P I := hh.install (Keeps.announce hstable) hf

theorem Keeps.perform (hstable : Stable P I) (hh : h.Keeps P I) {operation : Operation} (hpermitted : P operation) :
    (h.perform operation).1.Keeps P I :=
  hh.allows.install (Keeps.announce hstable) (hstable _ operation hpermitted hh.requirements)

/-- Operations asked for one after the other. -/
def performAll (h : Handle ρ) (operations : List Operation) : Handle ρ :=
  operations.foldl (fun h operation => (h.perform operation).1) h

theorem Keeps.performAll (hstable : Stable P I) (hh : h.Keeps P I) {operations : List Operation}
    (hpermitted : ∀ operation ∈ operations, P operation) : (h.performAll operations).Keeps P I :=
  List.foldlRecOn operations _ hh fun _ hk operation hoperation => hk.perform hstable (hpermitted operation hoperation)

/-- What asks may be wider than what observers may ask for in turn. -/
theorem Keeps.run (hstable : Stable Q I) (hPQ : ∀ operation, P operation → Q operation) (hh : h.Keeps P I)
    {p : Program α} (hp : p.AsksOnly Q) : (h.run p).1.Keeps P I :=
  hh.runVia (Keeps.announce (hstable.mono hPQ)) hstable hp

/-! ## Observers that only listen -/

/-- The observers only listen: none of their reactions asks for an operation. -/
def Quiet (h : Handle ρ) : Prop :=
  ∀ o ∈ h.observers, ∀ reaction ∈ o.pending, reaction.act.AsksOnly (fun _ => False)

/-- A handle of certain requirements whose observers only listen. -/
structure Holds (h : Handle ρ) (r : Requirements) : Prop where
  requirements : h.requirements = r
  quiet : h.Quiet

theorem Quiet.holds (hq : h.Quiet) : h.Holds h.requirements := ⟨rfl, hq⟩

theorem Quiet.allows (hq : h.Quiet) : h.Allows (fun _ => False) := hq

theorem Holds.keeps (hh : h.Holds r) : h.Keeps (fun _ => False) (· = r) := ⟨hh.requirements, hh.quiet.allows⟩

theorem Keeps.holds (hh : h.Keeps (fun _ => False) (· = r)) : h.Holds r := ⟨hh.requirements, hh.allows⟩

theorem Holds.install (hh : h.Holds r) (q : Requirements) : (h.install Handle.announce q).Holds q := by
  have hstable : Stable (fun _ => False) (· = q) := fun _ _ hnever => hnever.elim
  exact (hh.quiet.allows.install (Keeps.announce hstable) rfl).holds

theorem Holds.change (hh : h.Holds r) (f : Requirements → Requirements) : (h.change f).Holds (f r) := by
  rw [Handle.change, hh.requirements]
  exact hh.install (f r)

theorem Holds.perform (hh : h.Holds r) (operation : Operation) :
    (h.perform operation).1.Holds (r.perform operation).1 ∧ (h.perform operation).2 = (r.perform operation).2 := by
  rw [Handle.perform, performVia, hh.requirements]
  exact ⟨hh.install (r.perform operation).1, rfl⟩

/-- A program finds the same answers and leaves the same requirements as if there were no observers. -/
theorem Holds.run (hh : h.Holds r) (p : Program α) :
    (h.run p).1.Holds (p.runOn r).1 ∧ (h.run p).2 = (p.runOn r).2 :=
  Program.interpret_related (R := Holds) (fun operation _ _ hk => hk.perform operation)
    (fun _ _ hk => hk.requirements) p hh

theorem Holds.announceApplied (hh : h.Holds r) (outcome : Except Fault Report) : (h.announceApplied outcome).Holds r :=
  (hh.keeps.announceApplied outcome).holds

end Handle

end Orchestrator
