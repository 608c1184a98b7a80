import Orchestrator.Layer
import Orchestrator.Plan
import Orchestrator.Settings
import Orchestrator.Snapshot
/-!
The requirements: for every subject of the catalog the severity that results from its baseline and the active layers,
and the severity that was in force when a plan was last carried out. A subject whose two severities differ is dirty.
Every change touches only the subjects that it concerns and moves the count of dirty ones by the change in each.
-/

namespace Orchestrator

inductive Resolver
  /-- The store of settings, as it is at the time of asking. -/
  | store
  /-- A fixed answer for every subject. -/
  | custom (baseline : Subject → Severity)

def Resolver.silent : Resolver := .custom (fun _ => .passive)

structure Standing where
  baseline : Severity
  final : Severity
  /-- The final severity that the last successful plan dealt with. -/
  applied : Option Severity
  deriving DecidableEq, Repr

/-- No plan has dealt with the final severity. -/
def Standing.isDirty (s : Standing) : Bool := s.applied != some s.final

/-- An active layer and how many times it was added. -/
structure Activation where
  layer : Layer
  count : Nat
  deriving DecidableEq

/-- A count of dirty subjects. It goes up and down by one and is never taken anew. -/
structure Tally where
  count : Nat
  /-- The count was to be lowered when it was zero already. -/
  isBroken : Bool
  deriving DecidableEq, Repr

namespace Tally

def zero : Tally := ⟨0, false⟩

def raise (t : Tally) : Tally := { t with count := t.count + 1 }

def lower (t : Tally) : Tally := ⟨t.count - 1, t.isBroken || t.count == 0⟩

def shift (t : Tally) (before after : Bool) : Tally :=
  match before, after with
  | false, true => t.raise
  | true, false => t.lower
  | _, _ => t

end Tally

structure Requirements where
  catalog : Catalog
  settings : Settings
  resolver : Resolver
  /-- The active layers, each once, in the order in which they became active. -/
  layers : List Activation
  standings : Table Standing
  running : IdSet
  /-- The components that failed, each with what was said of the failure. -/
  quarantined : IdMap String
  disabled : Bool
  tally : Tally
  isApplying : Bool
  /-- Something changed since the pass began. -/
  wantsReapply : Bool

namespace Requirements

def dirtyCount (r : Requirements) : Nat := r.tally.count

def isDirty (r : Requirements) : Bool := 0 < r.dirtyCount

def baseline (r : Requirements) (s : Subject) : Severity :=
  match r.resolver with
  | .store => r.settings.baseline s
  | .custom f => f s

def isQuarantined (r : Requirements) : Subject → Bool
  | .component id => r.quarantined.contains id
  | .service _ => false

/-- The severity that results for a subject of the given baseline: excluded if everything is switched off, the subject
is quarantined or discovery rejects it, and else the strongest of the baseline and what the active layers demand. -/
def resultingSeverity (r : Requirements) (s : Subject) (baseline : Severity) : Severity :=
  if r.disabled || r.isQuarantined s || r.catalog.isUnavailable s then .excluded
  else (r.layers.filterMap (fun a => a.layer.severity? s)).foldl Severity.join baseline

/-- Notes a change while a pass is being carried out. -/
def touch (r : Requirements) : Requirements := if r.isApplying then { r with wantsReapply := true } else r

def restand (r : Requirements) (s : Subject) (old new : Standing) : Requirements :=
  { r with
    standings := r.standings.insert s new
    tally := r.tally.shift old.isDirty new.isDirty }

def recompute (r : Requirements) (s : Subject) : Requirements :=
  match r.standings.get? s with
  | none => r
  | some old => r.restand s old { old with final := r.resultingSeverity s old.baseline }

def recomputeAll (r : Requirements) (subjects : List Subject) : Requirements := subjects.foldl recompute r

def track (r : Requirements) (s : Subject) : Requirements :=
  let baseline := r.baseline s
  { r with
    standings := r.standings.insert s ⟨baseline, r.resultingSeverity s baseline, none⟩
    tally := r.tally.raise }

/-- The requirements over a catalog before anything was asked or carried out. -/
def initial (catalog : Catalog) (settings : Settings) (resolver : Resolver) : Requirements :=
  catalog.subjects.foldl track
    { catalog, settings, resolver, layers := [], standings := .empty, running := .empty, quarantined := .empty
      disabled := false, tally := .zero, isApplying := false, wantsReapply := false }

/-! ## Layers -/

def occurrences (r : Requirements) (l : Layer) : Nat :=
  ((r.layers.find? (fun a => a.layer == l)).map Activation.count).getD 0

def hasLayer (r : Requirements) (l : Layer) : Bool := r.layers.any (fun a => a.layer == l)

def recount (layers : List Activation) (l : Layer) (f : Nat → Nat) : List Activation :=
  layers.map (fun a => if a.layer == l then { a with count := f a.count } else a)

def withoutLayer (layers : List Activation) (l : Layer) : List Activation :=
  layers.filter (fun a => a.layer != l)

/-- Adds one occurrence of a layer. An active layer is added again only where duplicates are allowed; the answer says
whether it was added. -/
def addLayer (r : Requirements) (l : Layer) (allowDuplicate : Bool) : Requirements × Bool :=
  if r.hasLayer l then
    if allowDuplicate then ({ r with layers := recount r.layers l (· + 1) }.touch, true) else (r, false)
  else (({ r with layers := r.layers ++ [Activation.mk l 1] }.recomputeAll l.subjects).touch, true)

/-- Takes away one occurrence of a layer, or all of them; the answer says whether it was active. -/
def removeLayer (r : Requirements) (l : Layer) (all : Bool) : Requirements × Bool :=
  if !r.hasLayer l then (r, false)
  else if !all && 1 < r.occurrences l then ({ r with layers := recount r.layers l (· - 1) }.touch, true)
  else (({ r with layers := withoutLayer r.layers l }.recomputeAll l.subjects).touch, true)

def unionSubjects (a b : Layer) : List Subject :=
  let ids := fun (f : Table Severity → IdMap Severity) =>
    (IdSet.ofList ((f a.demands).keys ++ (f b.demands).keys)).toList
  (ids Table.components).map .component ++ (ids Table.services).map .service

/-- Turns all occurrences of an active layer into occurrences of another; the answer says whether it was active. -/
def replaceLayer (r : Requirements) (old new : Layer) : Requirements × Bool :=
  if !r.hasLayer old then (r, false)
  else if old = new then (r, true)
  else
    let count := r.occurrences old
    let rest := withoutLayer r.layers old
    let layers :=
      if rest.any (fun a => a.layer == new) then recount rest new (· + count) else rest ++ [Activation.mk new count]
    (({ r with layers := layers }.recomputeAll (unionSubjects old new)).touch, true)

/-! ## Baselines and catalog -/

/-- Changes what the store of settings holds; nobody is told. -/
def editSettings (r : Requirements) (settings : Settings) : Requirements := { r with settings }

/-- Asks the resolver anew about one subject; the flag says whether an answer has changed so far. -/
def reresolve (acc : Requirements × Bool) (s : Subject) : Requirements × Bool :=
  let r := acc.1
  match r.standings.get? s with
  | none => acc
  | some old =>
    let baseline := r.baseline s
    if old.baseline = baseline then acc
    else (({ r with standings := r.standings.insert s { old with baseline := baseline } }).recompute s, true)

def configurationChanged (r : Requirements) (subjects : List Subject) : Requirements :=
  let (r, changed) := subjects.foldl reresolve (r, false)
  if changed then r.touch else r

/-- Takes baselines from another resolver and asks it about every tracked subject. -/
def setResolver (r : Requirements) (resolver : Resolver) : Requirements :=
  let r := { r with resolver }
  let r := { r with standings := r.standings.map (fun s (old : Standing) => { old with baseline := r.baseline s }) }
  (r.recomputeAll r.standings.subjects).touch

def dropDirty (t : Tally) (dropped : List (Subject × Standing)) : Tally :=
  dropped.foldl (fun t e => if e.2.isDirty then t.lower else t) t

/-- Exchanges the catalog. What is gone from it loses its standing, its running flag and its quarantine; what is new
is tracked. -/
def refreshCatalog (r : Requirements) (catalog : Catalog) : Requirements :=
  let gone := r.standings.entries.filter (fun e => !catalog.contains e.1)
  let r :=
    { r with
      catalog
      standings := r.standings.restrict catalog.contains
      tally := dropDirty r.tally gone
      running := r.running.filter catalog.components.contains
      quarantined := r.quarantined.filter (fun id _ => catalog.components.contains id) }
  let fresh := catalog.subjects.filter (fun s => !r.standings.contains s)
  ((fresh.foldl track r).recomputeAll catalog.subjects).touch

/-! ## Switch and quarantine -/

def setDisabled (r : Requirements) (disabled : Bool) : Requirements :=
  if r.disabled = disabled then r
  else
    let r := { r with disabled }
    (r.recomputeAll r.standings.subjects).touch

/-- Excludes a component that failed until the failure is cleared. -/
def recordFailure (r : Requirements) (id message : String) : Requirements :=
  ({ r with quarantined := r.quarantined.insert id message }.recompute (.component id)).touch

def clearFailure (r : Requirements) (id : String) : Requirements × Bool :=
  if r.quarantined.contains id then
    (({ r with quarantined := r.quarantined.erase id }.recompute (.component id)).touch, true)
  else (r, false)

/-- Takes note that a component was seen running or stopped; only components of the catalog run. -/
def markRunning (r : Requirements) (id : String) (running : Bool) : Requirements :=
  if running then
    if r.catalog.components.contains id && !r.running.contains id then
      { r with running := r.running.insert id }.touch
    else r
  else if r.running.contains id then { r with running := r.running.erase id }.touch
  else r

/-! ## Queries -/

def final? (r : Requirements) (s : Subject) : Option Severity := (r.standings.get? s).map Standing.final

def applied? (r : Requirements) (s : Subject) : Option Severity := (r.standings.get? s).bind Standing.applied

def snapshot (r : Requirements) : Snapshot :=
  { catalog := r.catalog
    severities := r.standings.map (fun _ standing => standing.final)
    running := r.running }

/-! ## Passes -/

def beginPass (r : Requirements) : Requirements := { r with isApplying := true, wantsReapply := false }

/-- Notes that a plan has dealt with one severity of its snapshot, if the subject is still tracked. -/
def settle (r : Requirements) (e : Subject × Severity) : Requirements :=
  match r.standings.get? e.1 with
  | none => r
  | some old => r.restand e.1 old { old with applied := some e.2 }

/-- Takes over the outcome of steps that were carried out for a snapshot. -/
def commit (r : Requirements) (snapshot : Snapshot) (steps : Steps) : Requirements :=
  let started := steps.start.toList.filter r.catalog.components.contains
  let running := (r.running.insertAll started).eraseAll (steps.stop.toList ++ steps.exclude.toList)
  snapshot.severities.entries.foldl settle { r with running }

/-- Ends a pass; the answer says whether something changed while it was carried out. -/
def endPass (r : Requirements) : Requirements × Bool :=
  ({ r with isApplying := false, wantsReapply := false }, r.wantsReapply)

end Requirements

end Orchestrator
