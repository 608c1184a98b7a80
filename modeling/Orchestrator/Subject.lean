import Orchestrator.Id.Map
/-!
Subjects, the things that carry a severity, and tables, which file a value under each of some subjects. Components
come before services in every list of subjects.
-/

namespace Orchestrator

inductive Subject
  | component (id : String)
  | service (id : String)
  deriving DecidableEq, Repr

namespace Subject

def text : Subject → String
  | component id => "component:" ++ id
  | service id => "service:" ++ id

end Subject

/-- Values filed under subjects: one map for the components and one for the services. -/
structure Table (α : Type) where
  components : IdMap α
  services : IdMap α

namespace Table

variable {α β : Type}

instance [DecidableEq α] : DecidableEq (Table α) := fun a b =>
  if h : a.components = b.components ∧ a.services = b.services then isTrue (by cases a; cases b; simp_all)
  else isFalse (fun hab => h (by cases hab; exact ⟨rfl, rfl⟩))

def empty : Table α := ⟨.empty, .empty⟩

instance : Inhabited (Table α) := ⟨empty⟩

def get? (t : Table α) : Subject → Option α
  | .component id => t.components.get? id
  | .service id => t.services.get? id

def contains (t : Table α) (s : Subject) : Bool := (t.get? s).isSome

def insert (t : Table α) (s : Subject) (value : α) : Table α :=
  match s with
  | .component id => { t with components := t.components.insert id value }
  | .service id => { t with services := t.services.insert id value }

/-- Keeps the entries whose subject passes a test. -/
def restrict (p : Subject → Bool) (t : Table α) : Table α :=
  { components := t.components.filter (fun id _ => p (.component id))
    services := t.services.filter (fun id _ => p (.service id)) }

def map (f : Subject → α → β) (t : Table α) : Table β :=
  { components := t.components.map (fun id => f (.component id))
    services := t.services.map (fun id => f (.service id)) }

/-- The entries, components first, each kind in the order of the identifiers. -/
def entries (t : Table α) : List (Subject × α) :=
  t.components.entries.map (fun e => (.component e.1, e.2)) ++ t.services.entries.map (fun e => (.service e.1, e.2))

def subjects (t : Table α) : List Subject :=
  t.components.keys.map .component ++ t.services.keys.map .service

def isEmpty (t : Table α) : Bool := t.components.isEmpty && t.services.isEmpty

@[simp] theorem get?_empty {s : Subject} : (empty : Table α).get? s = none := by cases s <;> rfl

theorem get?_insert {t : Table α} {s k : Subject} {value : α} :
    (t.insert s value).get? k = if k = s then some value else t.get? k := by
  cases s <;> cases k <;> simp [insert, get?, IdMap.get?_insert]

theorem get?_restrict {t : Table α} {p : Subject → Bool} {k : Subject} :
    (t.restrict p).get? k = if p k = true then t.get? k else none := by
  have h : ∀ {o : Option α} {b : Bool}, o.filter (fun _ => b) = if b = true then o else none := by
    intro o b; cases o <;> cases b <;> rfl
  cases k <;> simp [restrict, get?, IdMap.get?_filter, h]

theorem get?_map {t : Table α} {f : Subject → α → β} {k : Subject} : (t.map f).get? k = (t.get? k).map (f k) := by
  cases k <;> simp [map, get?, IdMap.get?_map]

theorem mem_entries {t : Table α} {k : Subject} {v : α} : (k, v) ∈ t.entries ↔ t.get? k = some v := by
  cases k <;> simp [entries, get?, ← IdMap.mem_entries]

theorem mem_subjects {t : Table α} {k : Subject} : k ∈ t.subjects ↔ t.contains k = true := by
  cases k <;> simp [subjects, contains, get?, IdMap.mem_keys, IdMap.contains]

theorem ext {t u : Table α} (h : ∀ s, t.get? s = u.get? s) : t = u := by
  have hc : t.components = u.components := IdMap.ext fun id => h (.component id)
  have hs : t.services = u.services := IdMap.ext fun id => h (.service id)
  cases t; cases u; simp_all

end Table

end Orchestrator
