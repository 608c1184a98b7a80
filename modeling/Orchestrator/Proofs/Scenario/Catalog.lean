import Mathlib.Data.List.Nodup
import Orchestrator.Proofs.Scenario
/-!
The catalog of a scenario, entry by entry. Entries are declared in the order in which they are listed, and the first one
whose name is taken ends it. What comes of it else has the declared entries under their own names, and for each service
that is only referred to one that nobody described; so no reference of a component leads nowhere.
-/

namespace Orchestrator

namespace IdMap

variable {α : Type} {m : IdMap α} {key : String} {value : α}

theorem contains_insert {k : String} : (m.insert key value).contains k = true ↔ k = key ∨ m.contains k = true := by
  rw [contains, get?_insert]
  split
  next heq => simp [heq]
  next hne => simp [hne, contains]

theorem get?_insert_new (h : m.contains key = false) (value : α) (k : String) :
    (m.insert key value).get? k = (m.get? k).or (if key == k then some value else none) := by
  rw [get?_insert]
  by_cases heq : k = key
  · rw [if_pos heq, heq, get?_eq_none h, if_pos (beq_self_eq_true key), Option.none_or]
  · rw [if_neg heq, if_neg (fun hsame => heq (beq_iff_eq.mp hsame).symm), Option.or_none]

end IdMap

section Declaration

variable {ε α β : Type} {names : List String} {a b : String}

/-- The name is the first in the list that was given before. -/
def RepeatsFirst (names : List String) (name : String) : Prop :=
  ∃ before after, names = before ++ name :: after ∧ before.Nodup ∧ name ∈ before

theorem RepeatsFirst.not_nodup (h : RepeatsFirst names a) : ¬ names.Nodup := by
  obtain ⟨before, after, rfl, -, hbefore⟩ := h
  intro hnodup
  exact (List.nodup_append.mp hnodup).2.2 a hbefore a List.mem_cons_self rfl

/-- A repetition within what stands before another one would be an earlier one. -/
theorem RepeatsFirst.unique (h : RepeatsFirst names a) (k : RepeatsFirst names b) : a = b := by
  obtain ⟨before, after, rfl, hbefore, ha⟩ := h
  obtain ⟨before', after', heq, hbefore', hb⟩ := k
  have hearlier : ∀ {x : String} {xs ys : List String}, x ∈ xs → ¬ (xs ++ x :: ys).Nodup :=
    fun hx hnodup => (List.nodup_append.mp hnodup).2.2 _ hx _ List.mem_cons_self rfl
  rcases List.append_eq_append_iff.mp heq with ⟨between, rfl, hafter⟩ | ⟨between, rfl, hafter⟩
  · cases between with
    | nil => exact (List.cons.inj hafter).1
    | cons x rest =>
        cases (List.cons.inj hafter).1
        exact (hearlier ha hbefore').elim
  · cases between with
    | nil => exact (List.cons.inj hafter).1.symm
    | cons x rest =>
        cases (List.cons.inj hafter).1
        exact (hearlier hb hbefore).elim

theorem find?_cons_or (p : α → Bool) (x : α) (rest : List α) :
    (x :: rest).find? p = (if p x then some x else none).or (rest.find? p) := by
  rw [List.find?_cons]
  cases p x with
  | true => rfl
  | false => rfl

/-- To declare an entry is refused just if its name is taken, and files it under its name otherwise. -/
structure FilesOnce (declare : β → α → Except ε β) (name : α → String) (entries : β → IdMap α)
    (refusal : String → ε) : Prop where
  fresh : ∀ b x, (entries b).contains (name x) = false →
    ∃ b', declare b x = .ok b' ∧ entries b' = (entries b).insert (name x) x
  refused : ∀ b x, (entries b).contains (name x) = true → declare b x = .error (refusal (name x))

namespace FilesOnce

variable {declare : β → α → Except ε β} {name : α → String} {entries : β → IdMap α} {refusal : String → ε}
  (h : FilesOnce declare name entries refusal)

include h

/-- The induction carries the names that are taken already, all of them different. -/
theorem declareAll (l : List α) {b : β} {known : List String} (hknown : known.Nodup)
    (htaken : ∀ id, (entries b).contains id = true ↔ id ∈ known) :
    (∃ b', l.foldlM declare b = .ok b' ∧ (known ++ l.map name).Nodup) ∨
      ∃ id, l.foldlM declare b = .error (refusal id) ∧ RepeatsFirst (known ++ l.map name) id := by
  induction l generalizing b known with
  | nil =>
      refine .inl ⟨b, rfl, ?_⟩
      rwa [List.map_nil, List.append_nil]
  | cons x rest ih =>
      cases hx : (entries b).contains (name x) with
      | true =>
          have herror : (x :: rest).foldlM declare b = .error (refusal (name x)) := by
            rw [List.foldlM_cons, h.refused b x hx]
            rfl
          exact .inr ⟨name x, herror, known, rest.map name, rfl, hknown, (htaken _).mp hx⟩
      | false =>
          obtain ⟨b', hb', hmore⟩ := h.fresh b x hx
          have hnew : name x ∉ known := fun hmem => Bool.false_ne_true (hx.symm.trans ((htaken _).mpr hmem))
          have hstep : (x :: rest).foldlM declare b = rest.foldlM declare b' := by
            rw [List.foldlM_cons, hb']
            rfl
          have hnames : known ++ (x :: rest).map name = (known ++ [name x]) ++ rest.map name := by
            rw [List.map_cons, List.append_assoc, List.singleton_append]
          rw [hstep, hnames]
          refine ih (hknown.append (List.nodup_singleton _) ?_) ?_
          · exact List.disjoint_singleton.mpr hnew
          · intro id
            rw [hmore, IdMap.contains_insert, htaken, List.mem_append, List.mem_singleton, or_comm]

theorem filed {b b' : β} {x : α} (hok : declare b x = .ok b') :
    (entries b).contains (name x) = false ∧ entries b' = (entries b).insert (name x) x := by
  cases hx : (entries b).contains (name x) with
  | true => cases hok.symm.trans (h.refused b x hx)
  | false =>
      obtain ⟨other, hother, hfiled⟩ := h.fresh b x hx
      cases hok.symm.trans hother
      exact ⟨rfl, hfiled⟩

/-- Behind the entries that were there stand those that were declared, in their order. -/
theorem get?_declareAll {l : List α} {b b' : β} (hok : l.foldlM declare b = .ok b') (key : String) :
    (entries b').get? key = ((entries b).get? key).or (l.find? (fun x => name x == key)) := by
  induction l generalizing b with
  | nil =>
      cases hok
      exact Option.or_none.symm
  | cons x rest ih =>
      obtain ⟨next, hnext, hrest⟩ := Except.exists_ok_of_bind hok
      obtain ⟨hnew, hfiled⟩ := h.filed hnext
      rw [ih hrest, hfiled, IdMap.get?_insert_new hnew, Option.or_assoc, find?_cons_or]

end FilesOnce

theorem Except.ok_bind {x : α} {f : α → Except ε β} : (Except.ok x >>= f) = f x := rfl

theorem Except.error_of_bind {x : Except ε α} {f : α → Except ε β} {e : ε} (h : x.bind f = .error e) :
    x = .error e ∨ ∃ a, x = .ok a ∧ f a = .error e := by
  cases x with
  | error other =>
      cases h
      exact .inl rfl
  | ok a => exact .inr ⟨a, rfl, h⟩

theorem exists_error_of_forM {f : α → Except ε Unit} {l : List α} {e : ε} (h : l.forM f = .error e) :
    ∃ x ∈ l, f x = .error e := by
  induction l with
  | nil => cases h
  | cons x rest ih =>
      rcases Except.error_of_bind (x := f x) h with hx | ⟨_, -, hrest⟩
      · exact ⟨x, List.mem_cons_self, hx⟩
      · obtain ⟨y, hy, hfault⟩ := ih hrest
        exact ⟨y, List.mem_cons_of_mem x hy, hfault⟩

/-- Of entries with different names, that of a name is the one to be found under it. -/
theorem find?_eq_some_iff_of_nodup {f : α → String} {l : List α} (h : (l.map f).Nodup) {key : String} {x : α} :
    l.find? (fun y => f y == key) = some x ↔ x ∈ l ∧ f x = key := by
  constructor
  · intro hfound
    exact ⟨List.mem_of_find?_eq_some hfound, by simpa using List.find?_some hfound⟩
  · rintro ⟨hmem, rfl⟩
    obtain ⟨y, hy⟩ := Option.isSome_iff_exists.mp
      (List.find?_isSome.mpr ⟨x, hmem, beq_self_eq_true (f x)⟩ : (l.find? (fun y => f y == f x)).isSome = true)
    have hname : f y = f x := by simpa using List.find?_some hy
    rw [hy, List.inj_on_of_nodup_map h (List.mem_of_find?_eq_some hy) hmem hname]

end Declaration

namespace Catalog

variable {c d : Catalog}

theorem ext_entries (hcomponents : ∀ id, c.component? id = d.component? id)
    (hservices : ∀ id, c.service? id = d.service? id) : c = d := by
  obtain ⟨components, services⟩ := c
  obtain ⟨components', services'⟩ := d
  obtain rfl : components = components' := IdMap.ext hcomponents
  obtain rfl : services = services' := IdMap.ext hservices
  rfl

/-- A catalog with all services that its components mention passes the check. -/
theorem validate_of_mentions (h : ∀ x ∈ c.componentList, ∀ id ∈ x.mentions, c.services.contains id = true) :
    c.validate = .ok () := by
  have hnone : c.missingService? = none := by
    refine List.find?_eq_none.mpr fun id hid hmissing => ?_
    obtain ⟨x, hx, hmentioned⟩ := List.mem_flatMap.mp hid
    rw [h x hx id hmentioned] at hmissing
    cases hmissing
  rw [validate, hnone]

end Catalog

namespace Scenario

variable {s : Scenario} {c c' : Catalog}

/-- Some component implements the service or depends on it. -/
def RefersTo (s : Scenario) (id : String) : Prop :=
  ∃ x ∈ s.components, x.implements = some id ∨ ∃ d ∈ x.dependencies, d.service = id

theorem mem_mentions {x : Component} {id : String} :
    id ∈ x.mentions ↔ x.implements = some id ∨ ∃ d ∈ x.dependencies, d.service = id := by
  rw [Component.mentions, List.mem_append, Option.mem_toList, List.mem_map]

theorem mem_flatMap_mentions {id : String} : id ∈ s.components.flatMap Component.mentions ↔ s.RefersTo id := by
  simp only [List.mem_flatMap, mem_mentions, RefersTo]

/-! ## Who is refused -/

theorem filesOnce_services : FilesOnce declareService Service.id Catalog.services .duplicateService where
  fresh := fun c x hx => ⟨c.insertService x, if_neg (Bool.not_eq_true _ ▸ hx), rfl⟩
  refused := fun _ _ hx => if_pos hx

theorem filesOnce_components :
    FilesOnce declareComponent Component.id Catalog.components .duplicateComponent where
  fresh := by
    intro c x hx
    refine ⟨_, if_neg (Bool.not_eq_true _ ▸ hx), ?_⟩
    rw [Catalog.insertComponent, components_implyServices]
  refused := fun _ _ hx => if_pos hx

theorem components_declareServices {services : List Service} (h : services.foldlM declareService c = .ok c') :
    c'.components = c.components := by
  refine foldlM_preserves (I := fun d => d.components = c.components) ?_ h rfl
  intro d service d' _ hstep hd
  rw [declareService_ok hstep]
  exact hd

/-- How it can end to put the catalog together. -/
theorem catalog_cases (s : Scenario) :
    (∃ c, s.catalog = .ok c ∧ (s.services.map Service.id).Nodup ∧ (s.components.map Component.id).Nodup) ∨
      (∃ id, s.catalog = .error (.duplicateService id) ∧ RepeatsFirst (s.services.map Service.id) id) ∨
      ∃ id, s.catalog = .error (.duplicateComponent id) ∧ (s.services.map Service.id).Nodup ∧
        RepeatsFirst (s.components.map Component.id) id := by
  have hnothing : ∀ {α : Type} (id : String), (IdMap.empty : IdMap α).contains id = true ↔ id ∈ ([] : List String) :=
    fun _ => ⟨fun hsome => (Bool.false_ne_true hsome).elim, fun hmem => (List.not_mem_nil hmem).elim⟩
  rcases filesOnce_services.declareAll s.services (b := .empty) List.nodup_nil hnothing with
    ⟨served, hserved, hservices⟩ | ⟨id, herror, hrepeats⟩
  · have hbare : ∀ id, served.components.contains id = true ↔ id ∈ ([] : List String) := by
      intro id
      rw [components_declareServices hserved]
      exact hnothing id
    have hrest : s.catalog = s.components.foldlM declareComponent served := by rw [catalog, hserved, Except.bind]
    rcases filesOnce_components.declareAll s.components (b := served) List.nodup_nil hbare with
      ⟨c, hc, hcomponents⟩ | ⟨id, herror, hrepeats⟩
    · exact .inl ⟨c, hrest.trans hc, hservices, hcomponents⟩
    · exact .inr (.inr ⟨id, hrest.trans herror, hservices, hrepeats⟩)
  · have hall : s.catalog = .error (.duplicateService id) := by rw [catalog, herror, Except.bind]
    exact .inr (.inl ⟨id, hall, hrepeats⟩)

theorem nodup_of_catalog (h : s.catalog = .ok c) :
    (s.services.map Service.id).Nodup ∧ (s.components.map Component.id).Nodup := by
  rcases catalog_cases s with ⟨_, -, hnodup⟩ | ⟨_, herror, -⟩ | ⟨_, herror, -⟩
  · exact hnodup
  · cases h.symm.trans herror
  · cases h.symm.trans herror

theorem catalog_ok_iff :
    (∃ c, s.catalog = .ok c) ↔ (s.services.map Service.id).Nodup ∧ (s.components.map Component.id).Nodup := by
  constructor
  · rintro ⟨c, hc⟩
    exact nodup_of_catalog hc
  · rintro ⟨hservices, hcomponents⟩
    rcases catalog_cases s with ⟨c, hc, -⟩ | ⟨_, -, hrepeats⟩ | ⟨_, -, -, hrepeats⟩
    · exact ⟨c, hc⟩
    · exact (hrepeats.not_nodup hservices).elim
    · exact (hrepeats.not_nodup hcomponents).elim

/-- Which fault is reported: a service comes before any component, and in each list the first repetition counts. -/
theorem catalog_error_iff {fault : ScenarioFault} :
    s.catalog = .error fault ↔
      (∃ id, fault = .duplicateService id ∧ RepeatsFirst (s.services.map Service.id) id) ∨
      ∃ id, fault = .duplicateComponent id ∧ (s.services.map Service.id).Nodup ∧
        RepeatsFirst (s.components.map Component.id) id := by
  rcases catalog_cases s with ⟨c, hc, hservices, hcomponents⟩ | ⟨id, herror, hid⟩ | ⟨id, herror, hservices, hid⟩
  · rw [hc]
    refine ⟨nofun, ?_⟩
    rintro (⟨_, -, hrepeats⟩ | ⟨_, -, -, hrepeats⟩)
    · exact (hrepeats.not_nodup hservices).elim
    · exact (hrepeats.not_nodup hcomponents).elim
  · rw [herror]
    constructor
    · rintro ⟨⟩
      exact .inl ⟨id, rfl, hid⟩
    · rintro (⟨other, rfl, hrepeats⟩ | ⟨_, -, hnodup, -⟩)
      · rw [hid.unique hrepeats]
      · exact (hid.not_nodup hnodup).elim
  · rw [herror]
    constructor
    · rintro ⟨⟩
      exact .inr ⟨id, rfl, hservices, hid⟩
    · rintro (⟨_, -, hrepeats⟩ | ⟨other, rfl, -, hrepeats⟩)
      · exact (hrepeats.not_nodup hservices).elim
      · rw [hid.unique hrepeats]

/-! ## What is in it -/

theorem service?_implyServices (ids : List String) (c : Catalog) (id : String) :
    (ids.foldl implyService c).service? id = (c.service? id).or (if id ∈ ids then some (.bare id) else none) := by
  induction ids generalizing c with
  | nil => exact (Option.or_none).symm
  | cons first rest ih =>
      have hstep : (implyService c first).service? id =
          (c.service? id).or (if id = first then some (.bare id) else none) := by
        unfold implyService
        split
        next hknown =>
          obtain ⟨known, hget⟩ := Option.isSome_iff_exists.mp hknown
          split
          next heq =>
            rw [heq, Catalog.service?, hget]
            rfl
          next => exact (Option.or_none).symm
        next hnew =>
          have hnone : c.service? first = none := Option.not_isSome_iff_eq_none.mp hnew
          have hget : (c.insertService (.bare first)).service? id =
              if id = first then some (.bare first) else c.service? id := IdMap.get?_insert
          rw [hget]
          split
          next heq =>
            rw [heq, hnone]
            rfl
          next => exact (Option.or_none).symm
      rw [List.foldl_cons, ih, hstep, Option.or_assoc]
      by_cases heq : id = first
      · simp [heq]
      · simp [heq]

theorem service?_declareComponents {l : List Component} (h : l.foldlM declareComponent c = .ok c') (id : String) :
    c'.service? id =
      (c.service? id).or (if id ∈ l.flatMap Component.mentions then some (.bare id) else none) := by
  induction l generalizing c with
  | nil =>
      cases h
      exact (Option.or_none).symm
  | cons x rest ih =>
      obtain ⟨next, hnext, hrest⟩ := Except.exists_ok_of_bind h
      have hstep : next.service? id =
          (c.service? id).or (if id ∈ x.mentions then some (.bare id) else none) := by
        rw [declareComponent_ok hnext, ← service?_implyServices]
        rfl
      rw [ih hrest, hstep, Option.or_assoc, List.flatMap_cons]
      by_cases hmentioned : id ∈ x.mentions
      · simp [hmentioned]
      · simp [hmentioned]

theorem component?_catalog (h : s.catalog = .ok c) (id : String) :
    c.component? id = s.components.find? (fun x => x.id == id) := by
  obtain ⟨served, hserved, hc⟩ := Except.exists_ok_of_bind h
  refine (filesOnce_components.get?_declareAll hc id).trans ?_
  rw [components_declareServices hserved]
  exact Option.none_or

theorem service?_catalog (h : s.catalog = .ok c) (id : String) :
    c.service? id = (s.services.find? (fun x => x.id == id)).or
      (if id ∈ s.components.flatMap Component.mentions then some (.bare id) else none) := by
  obtain ⟨served, hserved, hc⟩ := Except.exists_ok_of_bind h
  have hdeclared : served.service? id = s.services.find? (fun x => x.id == id) :=
    (filesOnce_services.get?_declareAll hserved id).trans Option.none_or
  rw [service?_declareComponents hc, hdeclared]

theorem component?_eq_some_iff (h : s.catalog = .ok c) {id : String} {x : Component} :
    c.component? id = some x ↔ x ∈ s.components ∧ x.id = id := by
  rw [component?_catalog h, find?_eq_some_iff_of_nodup (nodup_of_catalog h).2]

theorem service?_eq_some_iff (h : s.catalog = .ok c) {id : String} {x : Service} :
    c.service? id = some x ↔
      (x ∈ s.services ∧ x.id = id) ∨ (x = .bare id ∧ id ∉ s.services.map Service.id ∧ s.RefersTo id) := by
  have hundeclared : s.services.find? (fun y => y.id == id) = none ↔ id ∉ s.services.map Service.id := by
    simp [List.find?_eq_none]
  rw [service?_catalog h, Option.or_eq_some_iff, find?_eq_some_iff_of_nodup (nodup_of_catalog h).1, hundeclared,
    Option.ite_none_right_eq_some, mem_flatMap_mentions, Option.some.injEq, eq_comm (a := Service.bare id)]
  exact or_congr_right ⟨fun ⟨hnew, hrefers, hx⟩ => ⟨hx, hnew, hrefers⟩, fun ⟨hx, hnew, hrefers⟩ => ⟨hnew, hrefers, hx⟩⟩

theorem contains_component (h : s.catalog = .ok c) {id : String} :
    c.components.contains id = true ↔ id ∈ s.components.map Component.id := by
  have hcontains : c.components.contains id = (c.component? id).isSome := rfl
  rw [hcontains, component?_catalog h, List.find?_isSome]
  simp

theorem contains_service (h : s.catalog = .ok c) {id : String} :
    c.services.contains id = true ↔ id ∈ s.services.map Service.id ∨ s.RefersTo id := by
  have hcontains : c.services.contains id = (c.service? id).isSome := rfl
  rw [hcontains, service?_catalog h, Option.isSome_or, Bool.or_eq_true, List.find?_isSome, ← mem_flatMap_mentions]
  simp

/-! ## What it does not depend on -/

/-- The order of the lists decides at most who is refused. -/
theorem catalog_perm {other : Scenario} (hservices : other.services.Perm s.services)
    (hcomponents : other.components.Perm s.components) (h : s.catalog = .ok c) : other.catalog = .ok c := by
  obtain ⟨hserviceIds, hcomponentIds⟩ := nodup_of_catalog h
  have hother : (other.services.map Service.id).Nodup ∧ (other.components.map Component.id).Nodup :=
    ⟨(hservices.map _).nodup_iff.mpr hserviceIds, (hcomponents.map _).nodup_iff.mpr hcomponentIds⟩
  obtain ⟨d, hd⟩ := catalog_ok_iff.mpr hother
  have hrefers : ∀ id, other.RefersTo id ↔ s.RefersTo id := by
    intro id
    simp only [RefersTo, hcomponents.mem_iff]
  have hsame : d = c := by
    refine Catalog.ext_entries ?_ ?_
    · intro id
      refine Option.ext fun x => ?_
      rw [component?_eq_some_iff hd, component?_eq_some_iff h, hcomponents.mem_iff]
    · intro id
      refine Option.ext fun x => ?_
      rw [service?_eq_some_iff hd, service?_eq_some_iff h, hservices.mem_iff, (hservices.map _).mem_iff, hrefers]
  rw [hd, hsame]

/-! ## Where references lead -/

theorem validate_catalog (h : s.catalog = .ok c) : c.validate = .ok () := by
  refine Catalog.validate_of_mentions ?_
  intro x hx id hid
  have hdeclared := (component?_eq_some_iff h).mp ((catalog_keyed h).mem_componentList.mp hx)
  exact (contains_service h).mpr (.inr ⟨x, hdeclared.1, mem_mentions.mp hid⟩)

/-- The checks that decide, once there is a catalog. -/
def checks (s : Scenario) (c : Catalog) : Except ScenarioFault Unit := do
  s.running.forM fun id => ensure (c.components.contains id) (.unknownRunning id)
  s.triggers.forM fun t => ensure (c.components.contains t.component) (.unknownTrigger t.layer.name t.component)
  (s.layers ++ s.triggers.map Trigger.layer).forM (checkLayer c)

theorem validate_eq (h : s.catalog = .ok c) : s.validate = s.checks c := by
  rw [validate, h, Except.ok_bind, validate_catalog h]
  simp only [bind_pure_unit, checks]

theorem validate_consistent (s : Scenario) (fault : Fault) : s.validate ≠ .error (.inconsistentCatalog fault) := by
  have hensured : ∀ {test : Bool} {f : ScenarioFault} {e : ScenarioFault}, ensure test f = .error e → e = f := by
    intro test f e h
    unfold ensure at h
    split at h
    · cases h
    · cases h
      rfl
  intro h
  rcases Except.error_of_bind h with hfault | ⟨c, hc, -⟩
  · rcases catalog_error_iff.mp hfault with ⟨_, hother, -⟩ | ⟨_, hother, -⟩
    · cases hother
    · cases hother
  · rw [validate_eq hc] at h
    rcases Except.error_of_bind h with hrunning | ⟨_, -, h⟩
    · obtain ⟨id, -, hid⟩ := exists_error_of_forM hrunning
      cases hensured hid
    · rcases Except.error_of_bind h with htriggers | ⟨_, -, hlayers⟩
      · obtain ⟨t, -, ht⟩ := exists_error_of_forM htriggers
        cases hensured ht
      · obtain ⟨l, -, hl⟩ := exists_error_of_forM hlayers
        unfold checkLayer at hl
        split at hl
        · cases hl
        · split at hl
          · cases hl
          · cases hl

/-- A scenario has a catalog unless two of its services or two of its components share an identifier; then the first
repetition is reported, one of a service before any of a component. The catalog has exactly the declared components and
services, as they were declared, and besides for each service that is only referred to one which is available and
governed here. The order of the entries is of no account for it, and no reference in it leads nowhere. -/
theorem catalog_closed (s : Scenario) :
    ((∃ c, s.catalog = .ok c) ↔ (s.services.map Service.id).Nodup ∧ (s.components.map Component.id).Nodup) ∧
    (∀ fault, s.catalog = .error fault ↔
      (∃ id, fault = .duplicateService id ∧ RepeatsFirst (s.services.map Service.id) id) ∨
      ∃ id, fault = .duplicateComponent id ∧ (s.services.map Service.id).Nodup ∧
        RepeatsFirst (s.components.map Component.id) id) ∧
    (∀ c, s.catalog = .ok c →
      (∀ id x, c.component? id = some x ↔ x ∈ s.components ∧ x.id = id) ∧
      (∀ id x, c.service? id = some x ↔
        (x ∈ s.services ∧ x.id = id) ∨ (x = ⟨id, false, none⟩ ∧ id ∉ s.services.map Service.id ∧ s.RefersTo id)) ∧
      (∀ other : Scenario, other.services.Perm s.services → other.components.Perm s.components →
        other.catalog = .ok c) ∧
      c.validate = .ok ()) ∧
    ∀ fault, s.validate ≠ .error (.inconsistentCatalog fault) := by
  refine ⟨catalog_ok_iff, fun _ => catalog_error_iff, ?_, validate_consistent s⟩
  intro c hc
  refine ⟨fun _ _ => component?_eq_some_iff hc, fun _ _ => service?_eq_some_iff hc, ?_, validate_catalog hc⟩
  intro other hservices hcomponents
  exact catalog_perm hservices hcomponents hc

def nightLayer : Layer := ⟨"night", Table.empty.insert (.component "telescope") .eagerPassive⟩

def clearLayer : Layer :=
  ⟨"clear sky", (Table.empty.insert (.component "telescope") .present).insert (.service "clock") .present⟩

/-- The dome gives shelter to the telescope. Power comes from outside; of the clock only the name is known. -/
def observatory : Scenario :=
  { disabled := false
    running := ["dome", "dome"]
    services := [⟨"power", true, none⟩]
    components :=
      [⟨"telescope", "1", none, [⟨"shelter", .mandatory⟩, ⟨"power", .present⟩, ⟨"clock", .passive⟩], none⟩,
        ⟨"dome", "2", some "shelter", [⟨"power", .mandatory⟩], none⟩, ⟨"camera", "1", none, [], some "no film"⟩]
    settings :=
      { Settings.empty with
        system := Table.empty.insert (.component "telescope") .mandatory
        user := Table.empty.insert (.component "telescope") .passive }
    layers := [nightLayer, clearLayer, nightLayer]
    triggers := [⟨"dome", clearLayer⟩]
    options := .standard }

theorem catalog_closed_observatory :
    ∃ c, observatory.catalog = .ok c ∧
      c.service? "power" = some ⟨"power", true, none⟩ ∧ c.service? "clock" = some ⟨"clock", false, none⟩ ∧
      ({ observatory with components := observatory.components.reverse } : Scenario).catalog = .ok c ∧
      c.validate = .ok () := by
  obtain ⟨hok, -, hcontent, -⟩ := catalog_closed observatory
  obtain ⟨c, hc⟩ := hok.mpr ⟨by decide, by decide⟩
  obtain ⟨-, hservices, hperm, hvalid⟩ := hcontent c hc
  refine ⟨c, hc, ?_, ?_, hperm _ (.refl _) (List.reverse_perm _), hvalid⟩
  · exact (hservices "power" _).mpr (.inl ⟨List.mem_singleton_self _, rfl⟩)
  · refine (hservices "clock" _).mpr (.inr ⟨rfl, by decide, ?_⟩)
    exact ⟨_, List.mem_cons_self, .inr ⟨⟨"clock", .passive⟩, by decide, rfl⟩⟩

end Scenario

end Orchestrator
