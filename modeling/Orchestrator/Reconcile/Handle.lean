import Orchestrator.Requirements.Program
/-!
The handle: the requirements together with the observers who hear when they become dirty or clean. After a change that
flips dirtiness every observer is told in the order of subscription, and an observer may answer with a program of its
own, which may flip dirtiness again before the next observer has heard of the first flip. How an apply ended is told to
every observer too, but there an observer only notes what it hears: programs with which observers answer to the end of
an apply are left out.
-/

namespace Orchestrator

/-- What an apply that succeeded has done. -/
structure Report where
  /-- How many passes it took; none if there was nothing to do. -/
  passes : Nat
  started : Nat
  stopped : Nat
  excluded : Nat
  cost : Nat
  deriving DecidableEq, Repr

namespace Report

def blank : Report := ⟨0, 0, 0, 0, 0⟩

def record (r : Report) (steps : Steps) : Report :=
  { passes := r.passes + 1
    started := r.started + steps.start.size
    stopped := r.stopped + steps.stop.size
    excluded := steps.exclude.size
    cost := steps.cost }

/-- How many components were started or stopped, over all passes. -/
def transitions (r : Report) : Nat := r.started + r.stopped

end Report

inductive Event (ρ : Type) where
  /-- It was told that the requirements became dirty or clean, and saw what they were at that moment. -/
  | dirty (told now : Bool)
  | reaction (result : ρ)
  | applied (outcome : Except Fault Report)

/-- A program that an observer runs when it is told the awaited news. -/
structure Reaction (ρ : Type) where
  awaited : Bool
  act : Program ρ

/-- An observer waits for the first of its reactions and remembers what happened. -/
structure Observer (ρ : Type) where
  pending : List (Reaction ρ)
  events : List (Event ρ)

def Observer.listener {ρ : Type} : Observer ρ := ⟨[], []⟩

structure Handle (ρ : Type) where
  requirements : Requirements
  observers : List (Observer ρ)

namespace Handle

variable {ρ α : Type}

/-- How many reactions are still to come; every announcement that an announcement leads to uses one of them up. -/
def pending (h : Handle ρ) : Nat := h.observers.foldr (fun o n => o.pending.length + n) 0

def note (h : Handle ρ) (place : Nat) (event : Event ρ) : Handle ρ :=
  { h with observers := h.observers.modify place (fun o => { o with events := o.events ++ [event] }) }

/-- Takes the first reaction of an observer if it awaits this news. -/
def takeReaction (h : Handle ρ) (place : Nat) (dirty : Bool) : Option (Program ρ × Handle ρ) :=
  match (h.observers[place]?).bind (fun o => o.pending.head?) with
  | none => none
  | some reaction =>
    if reaction.awaited = dirty then
      some (reaction.act,
        { h with observers := h.observers.modify place (fun o => { o with pending := o.pending.tail }) })
    else none

/-- Tells one observer, who may run a reaction. -/
def tell (run : Program ρ → Handle ρ → Handle ρ × ρ) (dirty : Bool) (h : Handle ρ) (place : Nat) : Handle ρ :=
  let h := h.note place (.dirty dirty h.requirements.isDirty)
  match h.takeReaction place dirty with
  | none => h
  | some (act, h) =>
    let (h, result) := run act h
    h.note place (.reaction result)

/-- Puts changed requirements in place and announces it if their dirtiness flipped. -/
def install (announce : Bool → Handle ρ → Handle ρ) (h : Handle ρ) (r : Requirements) : Handle ρ :=
  let dirty := h.requirements.isDirty
  let h := { h with requirements := r }
  if dirty = r.isDirty then h else announce r.isDirty h

def performVia (announce : Bool → Handle ρ → Handle ρ) (operation : Operation) (h : Handle ρ) :
    Handle ρ × Option Bool :=
  let (r, answer) := h.requirements.perform operation
  (h.install announce r, answer)

def runVia (announce : Bool → Handle ρ → Handle ρ) (p : Program α) (h : Handle ρ) : Handle ρ × α :=
  p.interpret (performVia announce) requirements h

/-- Tells every observer in the order of subscription, where at most `depth` announcements may be nested. -/
def announceWithin : (depth : Nat) → Bool → Handle ρ → Handle ρ
  | 0, dirty, h =>
    (List.range h.observers.length).foldl (fun h place => h.note place (.dirty dirty h.requirements.isDirty)) h
  | depth + 1, dirty, h =>
    (List.range h.observers.length).foldl (tell (runVia (announceWithin depth)) dirty) h

/-- Tells every observer; no more announcements nest than there are reactions. -/
def announce (dirty : Bool) (h : Handle ρ) : Handle ρ := announceWithin h.pending dirty h

def change (h : Handle ρ) (f : Requirements → Requirements) : Handle ρ := h.install announce (f h.requirements)

def perform (h : Handle ρ) (operation : Operation) : Handle ρ × Option Bool := performVia announce operation h

def run (h : Handle ρ) (p : Program α) : Handle ρ × α := runVia announce p h

/-- Tells every observer how an apply ended. Nobody answers to it. -/
def announceApplied (h : Handle ρ) (outcome : Except Fault Report) : Handle ρ :=
  (List.range h.observers.length).foldl (fun h place => h.note place (.applied outcome)) h

end Handle

end Orchestrator
