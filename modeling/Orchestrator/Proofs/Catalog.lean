import Orchestrator.Catalog
/-!
Catalogs whose entries are filed under the identifiers inside them. All ways to put a catalog together entry by entry
keep to that; then an identifier stands for one component and for one service, and a walk over the catalog meets each
of them once.
-/

namespace Orchestrator

/-- A test that guards an answer and did not refuse gives the answer. -/
theorem Except.eq_of_ite_error {ε α : Type} {test : Prop} [Decidable test] {fault : ε} {a b : α}
    (h : (if test then .error fault else .ok a) = Except.ok b) : b = a := by
  split at h
  · cases h
  · cases h
    rfl

theorem IdSet.nodup (ids : IdSet) : ids.toList.Nodup := by
  refine ids.ascending.imp ?_
  intro a b hlt heq
  exact String.lt_irrefl b (heq ▸ hlt)

namespace IdMap

variable {α : Type} {f : α → String} {m : IdMap α}

/-- Every value is filed under the key that it names itself. -/
def KeyedBy (f : α → String) (m : IdMap α) : Prop := ∀ key value, m.get? key = some value → f value = key

theorem keyedBy_empty : (empty : IdMap α).KeyedBy f := by
  intro key value h
  cases h

theorem KeyedBy.insert (h : m.KeyedBy f) (value : α) : (m.insert (f value) value).KeyedBy f := by
  intro key other hget
  rw [get?_insert] at hget
  split at hget
  next hkey =>
    cases hget
    exact hkey.symm
  next => exact h key other hget

theorem KeyedBy.mem_values (h : m.KeyedBy f) {value : α} : value ∈ m.values ↔ m.get? (f value) = some value := by
  simp only [values, List.mem_map, Prod.exists]
  constructor
  · rintro ⟨key, other, hmem, rfl⟩
    have hget := mem_entries.mp hmem
    rwa [h key other hget]
  · intro hget
    exact ⟨f value, value, mem_entries.mpr hget, rfl⟩

theorem KeyedBy.get?_eq_some (h : m.KeyedBy f) {key : String} {value : α} :
    m.get? key = some value ↔ value ∈ m.values ∧ f value = key := by
  constructor
  · intro hget
    have hkey := h key value hget
    exact ⟨h.mem_values.mpr (hkey.symm ▸ hget), hkey⟩
  · rintro ⟨hmem, rfl⟩
    exact h.mem_values.mp hmem

theorem KeyedBy.contains_of_mem (h : m.KeyedBy f) {value : α} (hvalue : value ∈ m.values) :
    m.contains (f value) = true := Option.isSome_iff_exists.mpr ⟨value, h.mem_values.mp hvalue⟩

theorem get?_eq_none {key : String} (h : m.contains key = false) : m.get? key = none :=
  Option.not_isSome_iff_eq_none.mp (Bool.eq_false_iff.mp h)

theorem KeyedBy.values_ascending (h : m.KeyedBy f) : m.values.Pairwise (fun a b => f a < f b) := by
  refine List.pairwise_map.mpr (m.ascending.imp_of_mem ?_)
  intro a b ha hb hlt
  rw [h a.1 a.2 (mem_entries.mp ha), h b.1 b.2 (mem_entries.mp hb)]
  exact hlt

theorem KeyedBy.values_nodup (h : m.KeyedBy f) : m.values.Nodup := by
  refine h.values_ascending.imp ?_
  intro a b hlt heq
  exact String.lt_irrefl (f b) (heq ▸ hlt)

theorem file_last {key : String} {value : α} {l : List (String × α)} (h : ∀ e ∈ l, e.1 < key) :
    file key value l = l ++ [(key, value)] := by
  induction l with
  | nil => rfl
  | cons e rest ih =>
      have hlt := h e List.mem_cons_self
      have hne : key ≠ e.1 := fun heq => String.lt_irrefl key (heq ▸ hlt)
      rw [file, if_neg (String.lt_asymm hlt), if_neg hne, ih fun x hx => h x (List.mem_cons_of_mem e hx)]
      rfl

/-- A value whose name is behind all others comes last. -/
theorem KeyedBy.values_insert_last (h : m.KeyedBy f) {value : α} (hlast : ∀ other ∈ m.values, f other < f value) :
    (m.insert (f value) value).values = m.values ++ [value] := by
  have hbehind : ∀ e ∈ m.entries, e.1 < f value := by
    intro e he
    have hname := h e.1 e.2 (mem_entries.mp he)
    exact hname ▸ hlast e.2 (List.mem_map_of_mem he)
  have hentries : (m.insert (f value) value).entries = m.entries ++ [(f value, value)] := file_last hbehind
  rw [values, hentries, List.map_append]
  rfl

theorem KeyedBy.map_values (h : m.KeyedBy f) : m.values.map f = m.keys := by
  rw [values, keys, List.map_map]
  exact List.map_congr_left fun e he => h e.1 e.2 (mem_entries.mp he)

theorem KeyedBy.eq_of_name_eq (h : m.KeyedBy f) {a b : α} (ha : a ∈ m.values) (hb : b ∈ m.values) (heq : f a = f b) :
    a = b := by
  have hget := h.mem_values.mp ha
  rw [heq, h.mem_values.mp hb] at hget
  exact (Option.some.inj hget).symm

theorem keys_nodup : m.keys.Nodup := by
  refine List.pairwise_map.mpr (m.ascending.imp ?_)
  intro a b hlt heq
  exact String.lt_irrefl b.1 (heq ▸ hlt)

end IdMap

theorem Component.isIndependent_iff {c : Component} :
    c.isIndependent = true ↔ c.implements = none ∧ c.dependencies = [] := by
  simp [isIndependent]

namespace Catalog

variable {c : Catalog}

theorem mem_subjects {s : Subject} : s ∈ c.subjects ↔ c.contains s = true := by
  cases s with
  | component id => simp [subjects, contains, IdMap.mem_keys]
  | service id => simp [subjects, contains, IdMap.mem_keys]

theorem subjects_nodup (c : Catalog) : c.subjects.Nodup := by
  refine List.nodup_append.mpr ⟨?_, ?_, ?_⟩
  · exact List.pairwise_map.mpr (IdMap.keys_nodup.imp (fun hne heq => hne (Subject.component.inj heq)))
  · exact List.pairwise_map.mpr (IdMap.keys_nodup.imp (fun hne heq => hne (Subject.service.inj heq)))
  · intro a ha b hb heq
    obtain ⟨id, -, rfl⟩ := List.mem_map.mp ha
    obtain ⟨other, -, rfl⟩ := List.mem_map.mp hb
    cases heq

/-- Components and services are filed under their own identifiers. -/
structure Keyed (c : Catalog) : Prop where
  components : c.components.KeyedBy Component.id
  services : c.services.KeyedBy Service.id

theorem keyed_empty : empty.Keyed := ⟨IdMap.keyedBy_empty, IdMap.keyedBy_empty⟩

theorem Keyed.insertComponent (h : c.Keyed) (x : Component) : (c.insertComponent x).Keyed :=
  ⟨h.components.insert x, h.services⟩

theorem Keyed.insertService (h : c.Keyed) (x : Service) : (c.insertService x).Keyed :=
  ⟨h.components, h.services.insert x⟩

theorem Keyed.addComponent (h : c.Keyed) {x : Component} {c' : Catalog} (hadd : c.addComponent x = .ok c') :
    c'.Keyed := by
  rw [Except.eq_of_ite_error hadd]
  exact h.insertComponent x

theorem Keyed.addService (h : c.Keyed) {x : Service} {c' : Catalog} (hadd : c.addService x = .ok c') : c'.Keyed := by
  rw [Except.eq_of_ite_error hadd]
  exact h.insertService x

theorem Keyed.mem_componentList (h : c.Keyed) {x : Component} :
    x ∈ c.componentList ↔ c.component? x.id = some x := h.components.mem_values

theorem Keyed.mem_serviceList (h : c.Keyed) {x : Service} :
    x ∈ c.serviceList ↔ c.service? x.id = some x := h.services.mem_values

theorem Keyed.componentList_insert_last (h : c.Keyed) {x : Component}
    (hlast : ∀ other ∈ c.componentList, other.id < x.id) :
    (c.insertComponent x).componentList = c.componentList ++ [x] := h.components.values_insert_last hlast

theorem Keyed.component?_eq_some (h : c.Keyed) {id : String} {x : Component} :
    c.component? id = some x ↔ x ∈ c.componentList ∧ x.id = id := h.components.get?_eq_some

theorem Keyed.service?_eq_some (h : c.Keyed) {id : String} {x : Service} :
    c.service? id = some x ↔ x ∈ c.serviceList ∧ x.id = id := h.services.get?_eq_some

/-- Every service that a component implements is in the catalog. -/
def Served (c : Catalog) : Prop :=
  ∀ x ∈ c.componentList, ∀ id, x.implements = some id → c.services.contains id = true

/-- A catalog that lacks none of the services that its components mention serves them. -/
theorem served_of_validate (h : c.validate = .ok ()) : c.Served := by
  intro x hx id hid
  have hnone : c.missingService? = none := by
    unfold validate at h
    split at h
    next => cases h
    next hnone => exact hnone
  have hmentioned : id ∈ c.componentList.flatMap Component.mentions :=
    List.mem_flatMap.mpr ⟨x, hx, List.mem_append_left _ (Option.mem_toList.mpr hid)⟩
  simpa using List.find?_eq_none.mp hnone id hmentioned

end Catalog

end Orchestrator
