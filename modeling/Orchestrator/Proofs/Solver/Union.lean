import Orchestrator.Proofs.Solver.Parts
/-!
Two catalogs in one. Each entry of the second is filed beside those of the first, and where the two share no identifier
and mention nothing of each other, what is posed for both falls into what is posed for each.
-/

namespace Orchestrator

namespace IdMap

variable {α : Type} {f : α → String}

theorem KeyedBy.find?_values {m : IdMap α} (h : m.KeyedBy f) (key : String) :
    m.values.find? (fun value => f value == key) = m.get? key := by
  cases hfind : m.values.find? (fun value => f value == key) with
  | none =>
      refine (Option.eq_none_iff_forall_ne_some.mpr fun value hget => ?_).symm
      have hname := h key value hget
      have hlisted : value ∈ m.values := h.mem_values.mpr (hname.symm ▸ hget)
      exact List.find?_eq_none.mp hfind value hlisted (beq_iff_eq.mpr hname)
  | some value =>
      have hname := List.find?_some hfind
      rw [beq_iff_eq] at hname
      rw [← hname]
      exact (h.mem_values.mp (List.mem_of_find?_eq_some hfind)).symm

/-- Filing values of different names one after the other keeps what is filed under other names. -/
theorem get?_foldl_insert {l : List α} (hl : l.Pairwise (fun a b => f a < f b)) (m : IdMap α) (key : String) :
    (l.foldl (fun m value => m.insert (f value) value) m).get? key =
      (l.find? (fun value => f value == key)).or (m.get? key) := by
  induction l generalizing m with
  | nil => rfl
  | cons value rest ih =>
      obtain ⟨hfirst, hrest⟩ := List.pairwise_cons.mp hl
      rw [List.foldl_cons, ih hrest, get?_insert]
      by_cases hname : f value = key
      · have habsent : rest.find? (fun value => f value == key) = none := by
          refine List.find?_eq_none.mpr fun other hother heq => ?_
          have hlt := hfirst other hother
          rw [hname, beq_iff_eq.mp heq] at hlt
          exact String.lt_irrefl key hlt
        simp [habsent, hname]
      · simp [hname, Ne.symm hname]

variable {m n : IdMap α} {value : α}

/-- The first map with all values of the second filed in it under their own names. -/
def merge (f : α → String) (m n : IdMap α) : IdMap α := n.values.foldl (fun m value => m.insert (f value) value) m

theorem KeyedBy.get?_merge (hn : n.KeyedBy f) (m : IdMap α) (key : String) :
    (m.merge f n).get? key = (n.get? key).or (m.get? key) := by
  rw [merge, get?_foldl_insert hn.values_ascending, hn.find?_values]

theorem KeyedBy.merge (hm : m.KeyedBy f) (hn : n.KeyedBy f) : (m.merge f n).KeyedBy f := by
  intro key value hvalue
  rw [hn.get?_merge, Option.or_eq_some_iff] at hvalue
  exact hvalue.elim (hn key value) fun h => hm key value h.2

section Disjoint

variable (hm : m.KeyedBy f) (hn : n.KeyedBy f) (hdisjoint : ∀ key, m.contains key = true → n.contains key = false)

include hm hn hdisjoint

theorem KeyedBy.mem_merge : value ∈ (m.merge f n).values ↔ value ∈ m.values ∨ value ∈ n.values := by
  rw [(hm.merge hn).mem_values, hn.get?_merge, Option.or_eq_some_iff, ← hn.mem_values, ← hm.mem_values, or_comm]
  refine or_congr_left (and_iff_right_of_imp fun hvalue => ?_)
  exact get?_eq_none (hdisjoint (f value) (hm.contains_of_mem hvalue))

/-- Every name is known to one of the two maps alone. -/
theorem KeyedBy.contains_merge (hvalue : value ∈ (m.merge f n).values) :
    n.contains (f value) = !m.contains (f value) := by
  rcases (hm.mem_merge hn hdisjoint).mp hvalue with hmine | hmine
  · have hknown := hm.contains_of_mem hmine
    rw [hknown, hdisjoint (f value) hknown]
    rfl
  · have hknown := hn.contains_of_mem hmine
    have hother : m.contains (f value) = false :=
      Bool.eq_false_of_not_eq_true fun hboth => Bool.false_ne_true ((hdisjoint _ hboth).symm.trans hknown)
    rw [hknown, hother]
    rfl

end Disjoint

end IdMap

namespace Catalog

/-- The first catalog with all entries of the second filed in it. -/
def union (a b : Catalog) : Catalog :=
  b.componentList.foldl insertComponent (b.serviceList.foldl insertService a)

/-- No identifier is in both catalogs, and no component of one mentions a service of the other. -/
structure Unrelated (a b : Catalog) : Prop where
  components : ∀ id, a.components.contains id = true → b.components.contains id = false
  services : ∀ id, a.services.contains id = true → b.services.contains id = false
  mentions : ∀ c ∈ a.componentList, ∀ id ∈ c.mentions, b.services.contains id = false
  mentioned : ∀ c ∈ b.componentList, ∀ id ∈ c.mentions, a.services.contains id = false

variable {a b : Catalog}

theorem foldl_insertComponent (l : List Component) (c : Catalog) :
    l.foldl insertComponent c = ⟨l.foldl (fun m x => m.insert x.id x) c.components, c.services⟩ := by
  induction l generalizing c with
  | nil => rfl
  | cons x rest ih => exact ih (c.insertComponent x)

theorem foldl_insertService (l : List Service) (c : Catalog) :
    l.foldl insertService c = ⟨c.components, l.foldl (fun m x => m.insert x.id x) c.services⟩ := by
  induction l generalizing c with
  | nil => rfl
  | cons x rest ih => exact ih (c.insertService x)

theorem union_eq (a b : Catalog) :
    a.union b = ⟨a.components.merge Component.id b.components, a.services.merge Service.id b.services⟩ := by
  rw [union, foldl_insertComponent, foldl_insertService]
  rfl

theorem Keyed.union (ha : a.Keyed) (hb : b.Keyed) : (a.union b).Keyed := by
  rw [union_eq]
  exact ⟨ha.components.merge hb.components, ha.services.merge hb.services⟩

theorem service?_union (hb : b.Keyed) (id : String) :
    (a.union b).service? id = (b.service? id).or (a.service? id) := by
  rw [union_eq]
  exact hb.services.get?_merge a.services id

end Catalog

namespace Snapshot

/-- Unrelated catalogs split every snapshot of the two. -/
theorem splits_union {a b : Catalog} (h : a.Unrelated b) (ha : a.Keyed) (hb : b.Keyed) (severities : Table Severity)
    (running : IdSet) :
    Splits ⟨a.union b, severities, running⟩ ⟨a, severities, running⟩ ⟨b, severities, running⟩ := by
  have hcomponents : ∀ c, c ∈ (a.union b).componentList ↔ c ∈ a.componentList ∨ c ∈ b.componentList := by
    intro c
    rw [Catalog.union_eq]
    exact ha.components.mem_merge hb.components h.components
  have hservices : ∀ x, x ∈ (a.union b).serviceList ↔ x ∈ a.serviceList ∨ x ∈ b.serviceList := by
    intro x
    rw [Catalog.union_eq]
    exact ha.services.mem_merge hb.services h.services
  exact
    { isLeft :=
        { keyed := ha
          wholeKeyed := ha.union hb
          severities := rfl
          running := rfl
          components := fun c hc => (hcomponents c).mpr (.inl hc)
          services := fun x hx => (hservices x).mpr (.inl hx)
          closed := fun c hc id hid => by
            have hnone : b.service? id = none := IdMap.get?_eq_none (h.mentions c hc id hid)
            rw [Catalog.service?_union hb, hnone, Option.none_or]
          apart := fun c hc id hid hservice => by
            refine ((hcomponents c).mp hc).resolve_right fun hc => ?_
            rw [h.mentioned c hc id hid] at hservice
            cases hservice }
      isRight :=
        { keyed := hb
          wholeKeyed := ha.union hb
          severities := rfl
          running := rfl
          components := fun c hc => (hcomponents c).mpr (.inr hc)
          services := fun x hx => (hservices x).mpr (.inr hx)
          closed := fun c hc id hid => by
            have hnone : a.service? id = none := IdMap.get?_eq_none (h.mentioned c hc id hid)
            rw [Catalog.service?_union hb, hnone, Option.or_none]
          apart := fun c hc id hid hservice => by
            refine ((hcomponents c).mp hc).resolve_left fun hc => ?_
            rw [h.mentions c hc id hid] at hservice
            cases hservice }
      component := fun c hc => by
        rw [Catalog.union_eq] at hc
        exact ha.components.contains_merge hb.components h.components hc
      service := fun x hx => by
        rw [Catalog.union_eq] at hx
        exact ha.services.contains_merge hb.services h.services hx }

end Snapshot

end Orchestrator
