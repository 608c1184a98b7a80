/-!
Sets of identifiers. A set is the list of its members in the order of their code points, so that two sets with the
same members are equal and every answer lists them in one order.
-/

namespace Orchestrator

/-- A finite set of identifiers, kept in ascending order without repetition. -/
structure IdSet where
  toList : List String
  ascending : toList.Pairwise (· < ·)

namespace IdSet

/-- Places an identifier among ascending ones; one that is there already stays as it is. -/
def place (id : String) : List String → List String
  | [] => [id]
  | x :: rest => if id < x then id :: x :: rest else if id = x then x :: rest else x :: place id rest

@[simp] theorem mem_place {id x : String} {l : List String} : x ∈ place id l ↔ x = id ∨ x ∈ l := by
  induction l with
  | nil => simp [place]
  | cons y rest ih =>
    unfold place
    split
    · simp
    · split
      next h => subst h; simp
      next => simp [ih]; grind

theorem not_lt_ne {a b : String} (h : ¬ a < b) (hn : a ≠ b) : b < a := by
  have hle : b ≤ a := String.not_lt.mp h
  exact Classical.byContradiction fun hc => hn (String.le_antisymm (String.not_lt.mp hc) hle)

theorem place_ascending {id : String} {l : List String} (h : l.Pairwise (· < ·)) :
    (place id l).Pairwise (· < ·) := by
  induction l with
  | nil => simp [place]
  | cons y rest ih =>
    have hp := List.pairwise_cons.mp h
    unfold place
    split
    next hlt =>
      refine List.pairwise_cons.mpr ⟨fun z hz => ?_, h⟩
      rcases List.mem_cons.mp hz with rfl | hz
      · exact hlt
      · exact String.lt_trans hlt (hp.1 z hz)
    next hnlt =>
      split
      next => exact h
      next hne =>
        refine List.pairwise_cons.mpr ⟨fun z hz => ?_, ih hp.2⟩
        rcases mem_place.mp hz with rfl | hz
        · exact not_lt_ne hnlt hne
        · exact hp.1 z hz

instance : DecidableEq IdSet := fun a b =>
  if h : a.toList = b.toList then isTrue (by cases a; cases b; simp_all)
  else isFalse (fun hab => h (congrArg toList hab))

def empty : IdSet := ⟨[], .nil⟩

instance : Inhabited IdSet := ⟨empty⟩

instance : Membership String IdSet := ⟨fun s id => id ∈ s.toList⟩

theorem mem_def {s : IdSet} {id : String} : id ∈ s ↔ id ∈ s.toList := Iff.rfl

def contains (s : IdSet) (id : String) : Bool := s.toList.contains id

def insert (s : IdSet) (id : String) : IdSet := ⟨place id s.toList, place_ascending s.ascending⟩

def filter (p : String → Bool) (s : IdSet) : IdSet := ⟨s.toList.filter p, s.ascending.filter p⟩

def erase (s : IdSet) (id : String) : IdSet := s.filter (· != id)

def diff (s t : IdSet) : IdSet := s.filter (fun id => !t.contains id)

def insertAll (s : IdSet) (ids : List String) : IdSet := ids.foldl insert s

def eraseAll (s : IdSet) (ids : List String) : IdSet := ids.foldl erase s

def ofList (ids : List String) : IdSet := empty.insertAll ids

def size (s : IdSet) : Nat := s.toList.length

def isEmpty (s : IdSet) : Bool := s.toList.isEmpty

@[simp] theorem contains_iff {s : IdSet} {id : String} : s.contains id = true ↔ id ∈ s := by
  simp [contains, mem_def]

@[simp] theorem not_mem_empty {id : String} : ¬ id ∈ empty := by simp [mem_def, empty]

@[simp] theorem mem_insert {s : IdSet} {id x : String} : x ∈ s.insert id ↔ x = id ∨ x ∈ s := by
  simp [mem_def, insert]

@[simp] theorem mem_filter {s : IdSet} {p : String → Bool} {x : String} : x ∈ s.filter p ↔ x ∈ s ∧ p x = true := by
  simp [mem_def, filter]

@[simp] theorem mem_erase {s : IdSet} {id x : String} : x ∈ s.erase id ↔ x ∈ s ∧ x ≠ id := by
  simp [erase]

@[simp] theorem mem_diff {s t : IdSet} {x : String} : x ∈ s.diff t ↔ x ∈ s ∧ ¬ x ∈ t := by
  rw [diff, mem_filter, Bool.not_eq_true', ← Bool.not_eq_true, contains_iff]

@[simp] theorem mem_insertAll {ids : List String} {s : IdSet} {x : String} :
    x ∈ s.insertAll ids ↔ x ∈ ids ∨ x ∈ s := by
  induction ids generalizing s with
  | nil => simp [insertAll]
  | cons id rest ih =>
    have h := ih (s := s.insert id)
    simp only [insertAll, List.foldl_cons] at h ⊢
    rw [h]; simp; grind

@[simp] theorem mem_eraseAll {ids : List String} {s : IdSet} {x : String} :
    x ∈ s.eraseAll ids ↔ x ∈ s ∧ ¬ x ∈ ids := by
  induction ids generalizing s with
  | nil => simp [eraseAll]
  | cons id rest ih =>
    have h := ih (s := s.erase id)
    simp only [eraseAll, List.foldl_cons] at h ⊢
    rw [h]; simp; grind

@[simp] theorem mem_ofList {ids : List String} {x : String} : x ∈ ofList ids ↔ x ∈ ids := by
  simp [ofList]

theorem ext {s t : IdSet} (h : ∀ id, id ∈ s ↔ id ∈ t) : s = t := by
  have hl : s.toList = t.toList := by
    have hd : ∀ {l : List String}, l.Pairwise (· < ·) → l.Nodup := fun hp =>
      hp.imp fun {a b} (hlt : a < b) (heq : a = b) => String.lt_irrefl b (heq ▸ hlt)
    have hperm := (List.perm_ext_iff_of_nodup (hd s.ascending) (hd t.ascending)).mpr h
    exact hperm.eq_of_pairwise (fun a b _ _ hab hba => absurd hba (String.lt_asymm hab)) s.ascending t.ascending
  cases s; cases t; simp_all

end IdSet

end Orchestrator
