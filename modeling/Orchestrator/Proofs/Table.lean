import Orchestrator.Subject
/-!
Where the entries of a table go when something is put into it: a new subject brings its entry and moves no other, and a
known one exchanges its entry for the new one. Counts over the entries follow from that.
-/

namespace Orchestrator

namespace IdMap

variable {α : Type} {key : String} {value old : α}

theorem file_perm {l : List (String × α)} (h : search key l = none) :
    (file key value l).Perm ((key, value) :: l) := by
  induction l with
  | nil => exact .refl _
  | cons e rest ih =>
      have hne : key ≠ e.1 := fun heq => search_eq_none.mp h e List.mem_cons_self heq.symm
      have hrest : search key rest = none := by simpa only [search, if_neg hne] using h
      rw [file, if_neg hne]
      split
      · exact .refl _
      · exact ((ih hrest).cons e).trans (.swap _ _ _)

theorem file_perm_of_search (value : α) {l : List (String × α)} (hl : l.Pairwise (fun a b => a.1 < b.1))
    (h : search key l = some old) :
    ∃ rest, l.Perm ((key, old) :: rest) ∧ (file key value l).Perm ((key, value) :: rest) := by
  induction l with
  | nil => cases h
  | cons e rest ih =>
      obtain ⟨hfirst, hrest⟩ := List.pairwise_cons.mp hl
      by_cases hkey : key = e.1
      · subst hkey
        rw [search, if_pos rfl] at h
        cases h
        refine ⟨rest, .refl _, ?_⟩
        rw [file, if_neg (String.lt_irrefl e.1), if_pos rfl]
      · rw [search, if_neg hkey] at h
        have hlt : e.1 < key := hfirst _ (mem_of_search_eq_some h)
        obtain ⟨others, hbefore, hafter⟩ := ih hrest h
        refine ⟨e :: others, (hbefore.cons e).trans (.swap _ _ _), ?_⟩
        rw [file, if_neg (String.lt_asymm hlt), if_neg hkey]
        exact (hafter.cons e).trans (.swap _ _ _)

end IdMap

namespace Table

variable {α β : Type} {t : Table α} {s : Subject} {value old : α}

theorem insert_insert {other : α} : (t.insert s other).insert s value = t.insert s value := by
  refine ext ?_
  intro k
  simp only [get?_insert]
  split
  · rfl
  · rfl

theorem insert_eq_self (h : t.get? s = some value) : t.insert s value = t := by
  refine ext ?_
  intro k
  rw [get?_insert]
  split
  next hk => rw [hk, h]
  next => rfl

theorem map_fst_entries : t.entries.map Prod.fst = t.subjects := by
  simp only [entries, subjects, IdMap.keys, List.map_append, List.map_map]
  rfl

theorem entries_insert_perm (h : t.get? s = none) : (t.insert s value).entries.Perm ((s, value) :: t.entries) := by
  cases s with
  | component id => exact ((IdMap.file_perm h).map _).append_right _
  | service id => exact (((IdMap.file_perm h).map _).append_left _).trans List.perm_middle

theorem entries_insert_perm_of_get? (value : α) (h : t.get? s = some old) :
    ∃ rest, t.entries.Perm ((s, old) :: rest) ∧ (t.insert s value).entries.Perm ((s, value) :: rest) := by
  cases s with
  | component id =>
      obtain ⟨rest, hbefore, hafter⟩ := IdMap.file_perm_of_search value t.components.ascending h
      exact ⟨_, (hbefore.map _).append_right _, (hafter.map _).append_right _⟩
  | service id =>
      obtain ⟨rest, hbefore, hafter⟩ := IdMap.file_perm_of_search value t.services.ascending h
      exact ⟨_, ((hbefore.map _).append_left _).trans List.perm_middle,
        ((hafter.map _).append_left _).trans List.perm_middle⟩

theorem entries_restrict {p : Subject → Bool} : (t.restrict p).entries = t.entries.filter (fun e => p e.1) := by
  simp only [entries, restrict, IdMap.filter, List.filter_append, List.filter_map]
  rfl

theorem entries_map {f : Subject → α → β} : (t.map f).entries = t.entries.map (fun e => (e.1, f e.1 e.2)) := by
  simp only [entries, map, IdMap.map, List.map_append, List.map_map]
  rfl

end Table

end Orchestrator
