import Mathlib.Data.List.Perm.Basic
import Orchestrator.Proofs.Solver.Precedence
/-!
Parts of a snapshot that concern nobody outside: their components mention no service of the rest, and no other component
mentions theirs. Inside such a part everything that the solver looks at is as in the whole. Where two of them make up
the whole, choices are feasible, cost and precede each other as they do in the parts together, and while the costs of
the whole fit into a word its preferred choice is made of the preferred choices of the parts.
-/

namespace Orchestrator

open Solver Solver.Problem

/-- The values of a map that is within another are those of the other whose names it knows. -/
theorem IdMap.KeyedBy.values_eq_filter {α : Type} {f : α → String} {m n : IdMap α} (hm : m.KeyedBy f)
    (hn : n.KeyedBy f) (hsub : ∀ value ∈ m.values, value ∈ n.values) :
    m.values = n.values.filter (fun value => m.contains (f value)) := by
  have hmem : ∀ value, value ∈ m.values ↔ value ∈ n.values.filter (fun value => m.contains (f value)) := by
    intro value
    rw [List.mem_filter]
    constructor
    · intro hvalue
      exact ⟨hsub value hvalue, hm.contains_of_mem hvalue⟩
    · rintro ⟨hvalue, hname⟩
      obtain ⟨other, hother⟩ := Option.isSome_iff_exists.mp hname
      have hnamed := hm _ other hother
      have hlisted := hm.mem_values.mpr (hnamed.symm ▸ hother)
      rw [← hn.eq_of_name_eq (hsub other hlisted) hvalue hnamed]
      exact hlisted
  refine List.Perm.eq_of_pairwise ?_ hm.values_ascending (hn.values_ascending.filter _)
    ((List.perm_ext_iff_of_nodup hm.values_nodup (hn.values_nodup.filter _)).mpr hmem)
  intro a b _ _ hab hba
  exact absurd hba (String.lt_asymm hab)

namespace Snapshot

/-- No service that a component of the part mentions lies outside, and no component outside mentions a service of the
part. -/
structure PartOf (part whole : Snapshot) : Prop where
  keyed : part.catalog.Keyed
  wholeKeyed : whole.catalog.Keyed
  severities : part.severities = whole.severities
  running : part.running = whole.running
  components : ∀ c ∈ part.catalog.componentList, c ∈ whole.catalog.componentList
  services : ∀ x ∈ part.catalog.serviceList, x ∈ whole.catalog.serviceList
  closed : ∀ c ∈ part.catalog.componentList, ∀ id ∈ c.mentions, whole.catalog.service? id = part.catalog.service? id
  apart : ∀ c ∈ whole.catalog.componentList, ∀ id ∈ c.mentions, part.catalog.services.contains id = true →
    c ∈ part.catalog.componentList

/-- The component is one of the snapshot's. -/
def has (s : Snapshot) (id : String) : Bool := s.catalog.components.contains id

namespace PartOf

variable {part whole : Snapshot} (h : part.PartOf whole) {stopsRunning : Bool} {runs : String → Bool} {c : Component}

include h

theorem componentSeverity_eq (id : String) : part.componentSeverity id = whole.componentSeverity id := by
  unfold componentSeverity severity
  rw [h.severities]

theorem serviceSeverity_eq (id : String) : part.serviceSeverity id = whole.serviceSeverity id := by
  unfold serviceSeverity severity
  rw [h.severities]

theorem isRunning_eq (id : String) : part.isRunning id = whole.isRunning id := by
  unfold isRunning
  rw [h.running]

theorem componentList_eq : part.catalog.componentList = whole.catalog.componentList.filter (fun c => part.has c.id) :=
  h.keyed.components.values_eq_filter h.wholeKeyed.components h.components

theorem serviceList_eq : part.catalog.serviceList =
    whole.catalog.serviceList.filter (fun x => part.catalog.services.contains x.id) :=
  h.keyed.services.values_eq_filter h.wholeKeyed.services h.services

theorem mentioned (hc : c ∈ part.catalog.componentList) {x : Service} (hx : x ∈ whole.catalog.serviceList)
    (hmentions : x.id ∈ c.mentions) : x ∈ part.catalog.serviceList := by
  rw [h.keyed.mem_serviceList, ← h.closed c hc x.id hmentions]
  exact h.wholeKeyed.mem_serviceList.mp hx

theorem isBarred_eq (hc : c ∈ part.catalog.componentList) : part.isBarred c = whole.isBarred c := by
  have hservice : part.isServiceBarred c = whole.isServiceBarred c := by
    unfold isServiceBarred
    cases himplements : c.implements with
    | none => rfl
    | some id =>
        have hmentions : id ∈ c.mentions := by simp [Component.mentions, himplements]
        have hget := h.closed c hc id hmentions
        unfold Catalog.service? at hget
        simp only [Option.any_some, IdMap.contains, hget, h.serviceSeverity_eq]
  unfold isBarred
  rw [h.componentSeverity_eq, hservice]

theorem admitted_eq : part.admitted = whole.admitted.filter (fun c => part.has c.id) := by
  unfold admitted
  rw [List.filter_comm, ← h.componentList_eq]
  refine List.filter_congr fun c hc => ?_
  rw [h.isBarred_eq hc]

theorem mem_admitted_iff : c ∈ part.admitted ↔ c ∈ whole.admitted ∧ part.has c.id = true := by
  rw [h.admitted_eq, List.mem_filter]

theorem has_iff (hc : c ∈ whole.catalog.componentList) : part.has c.id = true ↔ c ∈ part.catalog.componentList := by
  rw [h.componentList_eq, List.mem_filter]
  exact (and_iff_right hc).symm

/-- Whoever implements a service of the part belongs to the part. -/
theorem implementers_eq {service : String} (hservice : part.catalog.services.contains service = true) :
    part.implementers service = whole.implementers service := by
  unfold implementers
  rw [h.admitted_eq, List.filter_filter]
  refine List.filter_congr fun c hc => Bool.eq_iff_iff.mpr ?_
  rw [Bool.and_eq_true, and_iff_left_iff_imp, beq_iff_eq]
  intro himplements
  have hlisted := (mem_admitted.mp hc).1
  have hmentions : service ∈ c.mentions := by simp [Component.mentions, himplements]
  exact (h.has_iff hlisted).mpr (h.apart c hlisted service hmentions hservice)

theorem isServed_eq {service : String} (hservice : part.catalog.services.contains service = true) :
    part.isServed runs service = whole.isServed runs service := by
  unfold isServed
  rw [h.implementers_eq hservice]

theorem isMet_eq (hc : c ∈ part.catalog.componentList) {d : Dependency} (hd : d ∈ c.dependencies) :
    part.isMet runs d.service = whole.isMet runs d.service := by
  have hmentions : d.service ∈ c.mentions := List.mem_append_right _ (List.mem_map_of_mem hd)
  unfold isMet
  rw [h.closed c hc d.service hmentions]
  cases hget : part.catalog.service? d.service with
  | none => rfl
  | some x =>
      have hservice : part.catalog.services.contains d.service = true := Option.isSome_iff_exists.mpr ⟨x, hget⟩
      simp only [Option.any_some, h.isServed_eq hservice]

theorem contains_of_mem {x : Service} (hx : x ∈ part.catalog.serviceList) :
    part.catalog.services.contains x.id = true :=
  h.keyed.services.contains_of_mem hx

theorem isDemanded_eq (x : Service) : part.isDemanded x = whole.isDemanded x := by
  unfold isDemanded
  rw [h.serviceSeverity_eq]

theorem isSole_eq (hc : c ∈ part.catalog.componentList) : part.isSole c = whole.isSole c := by
  refine Bool.eq_iff_iff.mpr ?_
  rw [isSole_iff, isSole_iff]
  constructor
  · rintro ⟨x, hx, hdemanded, himplements, hlength⟩
    rw [h.isDemanded_eq] at hdemanded
    rw [h.implementers_eq (h.contains_of_mem hx)] at hlength
    exact ⟨x, h.services x hx, hdemanded, himplements, hlength⟩
  · rintro ⟨x, hx, hdemanded, himplements, hlength⟩
    have hmine : x ∈ part.catalog.serviceList := h.mentioned hc hx (by simp [Component.mentions, himplements])
    rw [← h.isDemanded_eq] at hdemanded
    rw [← h.implementers_eq (h.contains_of_mem hmine)] at hlength
    exact ⟨x, hmine, hdemanded, himplements, hlength⟩

theorem lock_eq (hc : c ∈ part.catalog.componentList) : part.lock stopsRunning c = whole.lock stopsRunning c := by
  unfold lock ownLock isHeld
  rw [h.isSole_eq hc, h.componentSeverity_eq, h.isRunning_eq]

/-- What is feasible for the whole is feasible for the part. -/
theorem feasible (hf : whole.Feasible runs) : part.Feasible runs where
  exclusive := by
    intro x hx c hc d hd
    rw [h.implementers_eq (h.contains_of_mem hx)] at hc hd
    exact hf.exclusive x (h.services x hx) c hc d hd
  mandatory := by
    intro c hc hmandatory
    rw [h.componentSeverity_eq] at hmandatory
    exact hf.mandatory c (h.mem_admitted_iff.mp hc).1 hmandatory
  served := by
    intro x hx hexternal hbinding
    rw [h.serviceSeverity_eq] at hbinding
    rw [h.isServed_eq (h.contains_of_mem hx)]
    exact hf.served x (h.services x hx) hexternal hbinding
  met := by
    intro c hc hrun d hd hbinding
    rw [h.isMet_eq (mem_admitted.mp hc).1 hd]
    exact hf.met c (h.mem_admitted_iff.mp hc).1 hrun d hd hbinding

/-- A part weighs no more than the whole. -/
theorem costsFit (hfits : whole.catalog.CostsFit) : part.catalog.CostsFit := by
  have hcomponents : part.catalog.componentList.Sublist whole.catalog.componentList := by
    rw [h.componentList_eq]
    exact List.filter_sublist
  have hservices : part.catalog.serviceList.Sublist whole.catalog.serviceList := by
    rw [h.serviceList_eq]
    exact List.filter_sublist
  have hlength := hcomponents.length_le
  have hlength' := hservices.length_le
  have hedges := (hcomponents.map (fun x => x.dependencies.length)).sum_le_sum fun _ _ => Nat.zero_le _
  unfold Catalog.CostsFit Catalog.weight at *
  omega

/-- A preferred choice for the part agrees with every rival or precedes it in the whole. -/
theorem eq_or_precedes {partRuns other : String → Bool} (hpreferred : part.Preferred stopsRunning partRuns)
    (hsame : ∀ c ∈ part.admitted, runs c.id = partRuns c.id) (hother : part.LeastCharged stopsRunning other) :
    (∀ x ∈ (whole.admitted.map Component.id).filter part.has, runs x = other x) ∨
      Solver.Precedes whole.isRunning runs other ((whole.admitted.map Component.id).filter part.has) := by
  have hids : (whole.admitted.map Component.id).filter part.has = part.admitted.map Component.id := by
    rw [h.admitted_eq, List.filter_map]
    rfl
  have hran : whole.isRunning = part.isRunning := funext fun id => (h.isRunning_eq id).symm
  have hsame' : ∀ x ∈ part.admitted.map Component.id, partRuns x = runs x :=
    List.forall_mem_map.mpr fun c hc => (hsame c hc).symm
  rw [hids, hran]
  refine (hpreferred.first other hother).imp (fun heq => ?_) (fun hprecedes => ?_)
  · exact List.forall_mem_map.mpr fun c hc => (hsame c hc).trans (heq c hc)
  · exact hprecedes.congr hsame'

end PartOf

/-- Two parts that have nothing in common make up the whole. -/
structure Splits (whole left right : Snapshot) : Prop where
  isLeft : left.PartOf whole
  isRight : right.PartOf whole
  component : ∀ c ∈ whole.catalog.componentList, right.has c.id = !left.has c.id
  service : ∀ x ∈ whole.catalog.serviceList,
    right.catalog.services.contains x.id = !left.catalog.services.contains x.id

namespace Splits

variable {whole left right : Snapshot} (h : whole.Splits left right) {stopsRunning : Bool} {runs : String → Bool}

include h

theorem right_admitted : right.admitted = whole.admitted.filter (fun c => !left.has c.id) := by
  rw [h.isRight.admitted_eq]
  refine List.filter_congr fun c hc => ?_
  rw [h.component c (mem_admitted.mp hc).1]

theorem admitted_perm : (left.admitted ++ right.admitted).Perm whole.admitted := by
  rw [h.isLeft.admitted_eq, h.right_admitted]
  exact List.filter_append_perm _ _

theorem services_perm : (left.catalog.serviceList ++ right.catalog.serviceList).Perm whole.catalog.serviceList := by
  have hright : right.catalog.serviceList =
      whole.catalog.serviceList.filter (fun x => !left.catalog.services.contains x.id) := by
    rw [h.isRight.serviceList_eq]
    exact List.filter_congr h.service
  rw [h.isLeft.serviceList_eq, hright]
  exact List.filter_append_perm _ _

theorem mem_admitted {c : Component} : c ∈ whole.admitted ↔ c ∈ left.admitted ∨ c ∈ right.admitted := by
  rw [← h.admitted_perm.mem_iff, List.mem_append]

theorem mem_services {x : Service} : x ∈ whole.catalog.serviceList ↔
    x ∈ left.catalog.serviceList ∨ x ∈ right.catalog.serviceList := by
  rw [← h.services_perm.mem_iff, List.mem_append]

theorem feasible_iff : whole.Feasible runs ↔ left.Feasible runs ∧ right.Feasible runs := by
  refine ⟨fun hf => ⟨h.isLeft.feasible hf, h.isRight.feasible hf⟩, fun ⟨hl, hr⟩ => ⟨?_, ?_, ?_, ?_⟩⟩
  · intro x hx c hc d hd
    rcases h.mem_services.mp hx with hx | hx
    · rw [← h.isLeft.implementers_eq (h.isLeft.contains_of_mem hx)] at hc hd
      exact hl.exclusive x hx c hc d hd
    · rw [← h.isRight.implementers_eq (h.isRight.contains_of_mem hx)] at hc hd
      exact hr.exclusive x hx c hc d hd
  · intro c hc hmandatory
    rcases h.mem_admitted.mp hc with hc | hc
    · exact hl.mandatory c hc (h.isLeft.componentSeverity_eq c.id ▸ hmandatory)
    · exact hr.mandatory c hc (h.isRight.componentSeverity_eq c.id ▸ hmandatory)
  · intro x hx hexternal hbinding
    rcases h.mem_services.mp hx with hx | hx
    · rw [← h.isLeft.isServed_eq (h.isLeft.contains_of_mem hx)]
      exact hl.served x hx hexternal (h.isLeft.serviceSeverity_eq x.id ▸ hbinding)
    · rw [← h.isRight.isServed_eq (h.isRight.contains_of_mem hx)]
      exact hr.served x hx hexternal (h.isRight.serviceSeverity_eq x.id ▸ hbinding)
  · intro c hc hrun d hd hbinding
    rcases h.mem_admitted.mp hc with hc | hc
    · rw [← h.isLeft.isMet_eq (Snapshot.mem_admitted.mp hc).1 hd]
      exact hl.met c hc hrun d hd hbinding
    · rw [← h.isRight.isMet_eq (Snapshot.mem_admitted.mp hc).1 hd]
      exact hr.met c hc hrun d hd hbinding

theorem keepsLocks_iff :
    whole.KeepsLocks stopsRunning runs ↔ left.KeepsLocks stopsRunning runs ∧ right.KeepsLocks stopsRunning runs := by
  have hpart : ∀ {part : Snapshot}, part.PartOf whole → (part.KeepsLocks stopsRunning runs ↔
      ∀ c ∈ part.admitted, (whole.lock stopsRunning c).getD (runs c.id) = runs c.id) := by
    intro part hpart
    refine forall₂_congr fun c hc => ?_
    rw [hpart.lock_eq (Snapshot.mem_admitted.mp hc).1]
  rw [hpart h.isLeft, hpart h.isRight]
  simp only [KeepsLocks, h.mem_admitted, or_imp, forall_and]

end Splits

theorem free_eq_countP (s : Snapshot) (stopsRunning : Bool) :
    (s.problem stopsRunning).free = s.admitted.countP (fun c => (s.lock stopsRunning c).isNone) := by
  rw [free, problem, List.filter_map, List.length_map, List.countP_eq_length_filter]
  rfl

/-- What a part contributes to the cost of a choice is its own cost. -/
theorem PartOf.summands {part whole : Snapshot} (h : part.PartOf whole) (stopsRunning : Bool) (runs : String → Bool) :
    part.cost stopsRunning runs = (part.admitted.map (whole.ownCost stopsRunning runs)).sum +
      10 * part.catalog.serviceList.countP (whole.isMissed runs) +
      10 * ((part.admitted.filter (fun c => runs c.id)).map
        (fun c => c.dependencies.countP (whole.isWanting runs))).sum := by
  have hown : part.ownCost stopsRunning runs = whole.ownCost stopsRunning runs := by
    funext c
    simp only [ownCost, isUnaskedStart, isUnaskedStay, isUnwantedStop, h.isRunning_eq, h.componentSeverity_eq]
  have hmissed : part.catalog.serviceList.countP (part.isMissed runs) =
      part.catalog.serviceList.countP (whole.isMissed runs) := by
    refine List.countP_congr fun x hx => ?_
    simp only [isMissed, h.serviceSeverity_eq, h.isServed_eq (h.contains_of_mem hx)]
  have hwanting : ∀ c ∈ part.admitted.filter (fun c => runs c.id),
      c.dependencies.countP (part.isWanting runs) = c.dependencies.countP (whole.isWanting runs) := by
    intro c hc
    refine List.countP_congr fun d hd => ?_
    simp only [isWanting, h.isMet_eq (mem_admitted.mp (List.mem_of_mem_filter hc)).1 hd]
  rw [cost_eq, hown, hmissed, List.map_congr_left hwanting]

namespace Splits

variable {whole left right : Snapshot} (h : whole.Splits left right) {stopsRunning : Bool}
  {runs other leftRuns rightRuns : String → Bool}

include h

theorem cost_eq : whole.cost stopsRunning runs = left.cost stopsRunning runs + right.cost stopsRunning runs := by
  have hown := (h.admitted_perm.map (whole.ownCost stopsRunning runs)).sum_eq
  have hmissed := h.services_perm.countP_eq (whole.isMissed runs)
  have hwanting := ((h.admitted_perm.filter (fun c => runs c.id)).map
    (fun c => c.dependencies.countP (whole.isWanting runs))).sum_eq
  rw [List.map_append, List.sum_append] at hown
  rw [List.countP_append] at hmissed
  rw [List.filter_append, List.map_append, List.sum_append] at hwanting
  rw [Snapshot.cost_eq, h.isLeft.summands, h.isRight.summands, ← hown, ← hmissed, ← hwanting, Nat.mul_add, Nat.mul_add]
  omega

theorem free_eq : (whole.problem stopsRunning).free =
    (left.problem stopsRunning).free + (right.problem stopsRunning).free := by
  have hleft : left.admitted.countP (fun c => (left.lock stopsRunning c).isNone) =
      left.admitted.countP (fun c => (whole.lock stopsRunning c).isNone) :=
    List.countP_congr fun c hc => by rw [h.isLeft.lock_eq (Snapshot.mem_admitted.mp hc).1]
  have hright : right.admitted.countP (fun c => (right.lock stopsRunning c).isNone) =
      right.admitted.countP (fun c => (whole.lock stopsRunning c).isNone) :=
    List.countP_congr fun c hc => by rw [h.isRight.lock_eq (Snapshot.mem_admitted.mp hc).1]
  rw [free_eq_countP, free_eq_countP, free_eq_countP, hleft, hright, ← List.countP_append, h.admitted_perm.countP_eq]

/-- While the costs of the whole fit into a word, so do those of the parts, and nothing is lost. -/
theorem charge_eq (hfits : whole.catalog.CostsFit) :
    whole.charge stopsRunning runs = left.charge stopsRunning runs + right.charge stopsRunning runs := by
  rw [charge_eq_cost hfits, charge_eq_cost (h.isLeft.costsFit hfits), charge_eq_cost (h.isRight.costsFit hfits),
    h.cost_eq]

section Fits

variable (hfits : whole.catalog.CostsFit)
  (hsame : ∀ c ∈ left.admitted, runs c.id = leftRuns c.id) (hsame' : ∀ c ∈ right.admitted, runs c.id = rightRuns c.id)

include hfits hsame hsame'

/-- Choices that are charged least for the parts make up one for the whole. -/
theorem leastCharged (hleft : left.LeastCharged stopsRunning leftRuns)
    (hright : right.LeastCharged stopsRunning rightRuns) : whole.LeastCharged stopsRunning runs where
  feasible := h.feasible_iff.mpr
    ⟨hleft.feasible.congr fun c hc => (hsame c hc).symm, hright.feasible.congr fun c hc => (hsame' c hc).symm⟩
  locks := by
    refine h.keepsLocks_iff.mpr ⟨fun c hc => ?_, fun c hc => ?_⟩
    · rw [hsame c hc]
      exact hleft.locks c hc
    · rw [hsame' c hc]
      exact hright.locks c hc
  least := by
    intro other hother hlocks
    obtain ⟨hf, hf'⟩ := h.feasible_iff.mp hother
    obtain ⟨hkept, hkept'⟩ := h.keepsLocks_iff.mp hlocks
    rw [h.charge_eq hfits, h.charge_eq hfits, charge_congr hsame, charge_congr hsame']
    exact Nat.add_le_add (hleft.least other hf hkept) (hright.least other hf' hkept')

/-- A choice that is charged least for the whole is so for both parts, where each of them has such a choice. -/
theorem leastCharged_parts (hleft : left.LeastCharged stopsRunning leftRuns)
    (hright : right.LeastCharged stopsRunning rightRuns) (hother : whole.LeastCharged stopsRunning other) :
    left.LeastCharged stopsRunning other ∧ right.LeastCharged stopsRunning other := by
  obtain ⟨hf, hf'⟩ := h.feasible_iff.mp hother.feasible
  obtain ⟨hkept, hkept'⟩ := h.keepsLocks_iff.mp hother.locks
  have hruns := h.leastCharged hfits hsame hsame' hleft hright
  have hle := hother.least runs hruns.feasible hruns.locks
  rw [h.charge_eq hfits, h.charge_eq hfits, charge_congr hsame, charge_congr hsame'] at hle
  have hge := hleft.least other hf hkept
  have hge' := hright.least other hf' hkept'
  refine ⟨⟨hf, hkept, fun rival hrival hlocks => ?_⟩, ⟨hf', hkept', fun rival hrival hlocks => ?_⟩⟩
  · have := hleft.least rival hrival hlocks
    omega
  · have := hright.least rival hrival hlocks
    omega

/-- Preferred choices for the parts make up one for the whole. -/
theorem preferred (hleft : left.Preferred stopsRunning leftRuns) (hright : right.Preferred stopsRunning rightRuns) :
    whole.Preferred stopsRunning runs where
  leastCharged := h.leastCharged hfits hsame hsame' hleft.leastCharged hright.leastCharged
  first := by
    intro other hother
    obtain ⟨hin, hout⟩ := h.leastCharged_parts hfits hsame hsame' hleft.leastCharged hright.leastCharged hother
    have hin := h.isLeft.eq_or_precedes hleft hsame hin
    have hout := h.isRight.eq_or_precedes hright hsame' hout
    have hrest : (whole.admitted.map Component.id).filter right.has =
        (whole.admitted.map Component.id).filter (!left.has ·) := by
      refine List.filter_congr ?_
      exact List.forall_mem_map.mpr fun c hc => h.component c (Snapshot.mem_admitted.mp hc).1
    rw [hrest] at hout
    exact (eq_or_precedes_of_parts left.has hin hout).imp_left List.forall_mem_map.mp

end Fits

end Splits

end Snapshot

end Orchestrator
