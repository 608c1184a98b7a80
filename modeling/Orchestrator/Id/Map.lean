import Orchestrator.Id.Set
/-!
Maps keyed by identifiers. A map is the list of its entries in the order of their keys' code points, each key once, so
that two maps with the same look-ups are equal and every walk over a map meets its keys in one order.
-/

namespace Orchestrator

/-- A finite map from identifiers, kept in ascending order of the keys without repetition. -/
structure IdMap (α : Type) where
  entries : List (String × α)
  ascending : entries.Pairwise (fun a b => a.1 < b.1)

namespace IdMap

variable {α β : Type}

/-- Files a value under its key among ascending entries; an entry of the same key is replaced. -/
def file (key : String) (value : α) : List (String × α) → List (String × α)
  | [] => [(key, value)]
  | e :: rest =>
    if key < e.1 then (key, value) :: e :: rest
    else if key = e.1 then (key, value) :: rest
    else e :: file key value rest

def search (key : String) : List (String × α) → Option α
  | [] => none
  | e :: rest => if key = e.1 then some e.2 else search key rest

theorem key_of_mem_file {key : String} {value : α} {e : String × α} {l : List (String × α)}
    (h : e ∈ file key value l) : e = (key, value) ∨ e ∈ l := by
  induction l with
  | nil => simpa [file] using h
  | cons x rest ih =>
    unfold file at h
    split at h
    · simpa using h
    · split at h
      · grind
      · grind

theorem file_ascending {key : String} {value : α} {l : List (String × α)}
    (h : l.Pairwise (fun a b => a.1 < b.1)) : (file key value l).Pairwise (fun a b => a.1 < b.1) := by
  induction l with
  | nil => simp [file]
  | cons x rest ih =>
    have hp := List.pairwise_cons.mp h
    unfold file
    split
    next hlt =>
      refine List.pairwise_cons.mpr ⟨fun z hz => ?_, h⟩
      rcases List.mem_cons.mp hz with rfl | hz
      · exact hlt
      · exact String.lt_trans hlt (hp.1 z hz)
    next hnlt =>
      split
      next heq => exact List.pairwise_cons.mpr ⟨fun z hz => heq ▸ hp.1 z hz, hp.2⟩
      next hne =>
        refine List.pairwise_cons.mpr ⟨fun z hz => ?_, ih hp.2⟩
        rcases key_of_mem_file hz with rfl | hz
        · exact IdSet.not_lt_ne hnlt hne
        · exact hp.1 z hz

theorem search_file {key k : String} {value : α} {l : List (String × α)}
    (h : l.Pairwise (fun a b => a.1 < b.1)) :
    search k (file key value l) = if k = key then some value else search k l := by
  induction l with
  | nil => simp [file, search]
  | cons x rest ih =>
    have hp := List.pairwise_cons.mp h
    unfold file
    split
    · simp [search]
    · split
      next heq => simp only [search]; grind
      next => simp only [search, ih hp.2]; grind

theorem search_eq_none {k : String} {l : List (String × α)} : search k l = none ↔ ∀ e ∈ l, e.1 ≠ k := by
  induction l with
  | nil => simp [search]
  | cons x rest ih => simp only [search]; grind

theorem search_filter {k : String} {p : String → α → Bool} {l : List (String × α)}
    (h : l.Pairwise (fun a b => a.1 < b.1)) :
    search k (l.filter (fun e => p e.1 e.2)) = (search k l).filter (p k) := by
  induction l with
  | nil => simp [search]
  | cons x rest ih =>
    have hp := List.pairwise_cons.mp h
    have hrest : search x.1 rest = none :=
      search_eq_none.mpr fun e he heq => String.lt_irrefl x.1 (heq ▸ hp.1 e he)
    have ih := ih hp.2
    by_cases hk : k = x.1
    · subst hk
      by_cases hx : p x.1 x.2 = true
      · simp [hx, search, Option.filter]
      · simp [hx, search, ih, hrest, Option.filter]
    · by_cases hx : p x.1 x.2 = true <;> simp [hx, search, hk, ih]

theorem search_map {k : String} {f : String → α → β} {l : List (String × α)} :
    search k (l.map (fun e => (e.1, f e.1 e.2))) = (search k l).map (f k) := by
  induction l with
  | nil => simp [search]
  | cons x rest ih =>
    by_cases hk : k = x.1
    · simp [search, hk]
    · simp [search, hk, ih]

theorem search_eq_some_of_mem {e : String × α} {l : List (String × α)}
    (h : l.Pairwise (fun a b => a.1 < b.1)) (he : e ∈ l) : search e.1 l = some e.2 := by
  induction l with
  | nil => simp at he
  | cons x rest ih =>
    have hp := List.pairwise_cons.mp h
    rcases List.mem_cons.mp he with rfl | he
    · simp [search]
    · have hlt := hp.1 e he
      have hne : e.1 ≠ x.1 := fun hk => String.lt_irrefl x.1 (hk ▸ hlt)
      simp [search, hne, ih hp.2 he]

theorem mem_of_search_eq_some {k : String} {v : α} {l : List (String × α)} (h : search k l = some v) :
    (k, v) ∈ l := by
  induction l with
  | nil => simp [search] at h
  | cons x rest ih =>
    simp only [search] at h
    split at h
    next hk => cases h; simp [hk]
    next => exact List.mem_cons_of_mem _ (ih h)

instance [DecidableEq α] : DecidableEq (IdMap α) := fun a b =>
  if h : a.entries = b.entries then isTrue (by cases a; cases b; simp_all)
  else isFalse (fun hab => h (congrArg entries hab))

def empty : IdMap α := ⟨[], .nil⟩

instance : Inhabited (IdMap α) := ⟨empty⟩

def get? (m : IdMap α) (key : String) : Option α := search key m.entries

def contains (m : IdMap α) (key : String) : Bool := (m.get? key).isSome

/-- Puts a value under a key, in place of the one that was there. -/
def insert (m : IdMap α) (key : String) (value : α) : IdMap α :=
  ⟨file key value m.entries, file_ascending m.ascending⟩

def filter (p : String → α → Bool) (m : IdMap α) : IdMap α :=
  ⟨m.entries.filter (fun e => p e.1 e.2), m.ascending.filter _⟩

def erase (m : IdMap α) (key : String) : IdMap α := m.filter (fun k _ => k != key)

def map (f : String → α → β) (m : IdMap α) : IdMap β :=
  ⟨m.entries.map (fun e => (e.1, f e.1 e.2)), List.pairwise_map.mpr m.ascending⟩

/-- A map of the given entries; of several with one key the last counts. -/
def ofList (entries : List (String × α)) : IdMap α := entries.foldl (fun m e => m.insert e.1 e.2) empty

def keys (m : IdMap α) : List String := m.entries.map Prod.fst

def values (m : IdMap α) : List α := m.entries.map Prod.snd

def size (m : IdMap α) : Nat := m.entries.length

def isEmpty (m : IdMap α) : Bool := m.entries.isEmpty

@[simp] theorem get?_empty {k : String} : (empty : IdMap α).get? k = none := rfl

theorem get?_insert {m : IdMap α} {key k : String} {value : α} :
    (m.insert key value).get? k = if k = key then some value else m.get? k :=
  search_file m.ascending

theorem get?_filter {m : IdMap α} {p : String → α → Bool} {k : String} :
    (m.filter p).get? k = (m.get? k).filter (p k) :=
  search_filter m.ascending

theorem get?_erase {m : IdMap α} {key k : String} :
    (m.erase key).get? k = if k = key then none else m.get? k := by
  rw [erase, get?_filter]
  by_cases h : k = key
  · cases m.get? k <;> simp [h, Option.filter]
  · have hk : (k != key) = true := by simpa using h
    cases m.get? k <;> simp [h, hk, Option.filter]

theorem get?_map {m : IdMap α} {f : String → α → β} {k : String} :
    (m.map f).get? k = (m.get? k).map (f k) :=
  search_map

theorem mem_entries {m : IdMap α} {k : String} {v : α} : (k, v) ∈ m.entries ↔ m.get? k = some v :=
  ⟨fun h => search_eq_some_of_mem m.ascending h, mem_of_search_eq_some⟩

theorem mem_keys {m : IdMap α} {k : String} : k ∈ m.keys ↔ m.contains k = true := by
  simp only [keys, contains, List.mem_map, Prod.exists, Option.isSome_iff_exists]
  constructor
  · rintro ⟨a, v, hm, rfl⟩
    exact ⟨v, mem_entries.mp hm⟩
  · rintro ⟨v, hv⟩
    exact ⟨k, v, mem_entries.mpr hv, rfl⟩

theorem ext {m n : IdMap α} (h : ∀ k, m.get? k = n.get? k) : m = n := by
  have hl : m.entries = n.entries := by
    have hd : ∀ {l : List (String × α)}, l.Pairwise (fun a b => a.1 < b.1) → l.Nodup := fun hp =>
      hp.imp fun {a b} (hlt : a.1 < b.1) (heq : a = b) => String.lt_irrefl b.1 (heq ▸ hlt)
    have hmem : ∀ e, e ∈ m.entries ↔ e ∈ n.entries := fun e => by
      cases e; rw [mem_entries, mem_entries, h]
    have hperm := (List.perm_ext_iff_of_nodup (hd m.ascending) (hd n.ascending)).mpr hmem
    exact hperm.eq_of_pairwise (fun a b _ _ hab hba => absurd hba (String.lt_asymm hab)) m.ascending n.ascending
  cases m; cases n; simp_all

end IdMap

end Orchestrator
