import Orchestrator.Proofs.Command.Retry
import Orchestrator.Proofs.Reconcile.Balance
/-!
What becomes of the layers that a scenario lists, over all attempts of the command and over all applies of a session. A
simulator takes layers away by what they are, and does not know who added them, so that a debt is paid with the layers
of the scenario.
-/

namespace Orchestrator

open Reconciler (forfeited)
open Simulator (upkeep)

namespace Command

variable {passes left : Nat} {stopsRunning : Bool} {r q : Reconciler Unit Simulator} {t : Try} {courses : List Course}

/-- Every attempt is an apply that comes after those before it. -/
theorem fares_of_mem_triesWithin (h : r.Fares courses q) (ht : t ∈ triesWithin passes stopsRunning left q) :
    ∃ courses, r.Fares courses t.left := by
  induction left generalizing courses q with
  | zero => cases ht
  | succ left ih =>
      have happlied := h.applies passes stopsRunning
      rcases List.mem_cons.mp ht with rfl | hlater
      · exact ⟨_, happlied⟩
      · split at hlater
        · exact ih happlied.forgets hlater
        · cases hlater

/-- A scenario is accepted. After any applies, whether they succeed or not, each layer occurs at most as often as it is
listed and once more for every trigger with it whose component runs. What is missing of that is no more than there are
triggers with it whose components ran in the beginning and than was taken away in passes that failed; so that nothing is
missing where neither is the case for any trigger with the layer. The attempts of the command, retried or not, are such
applies. -/
theorem listed_layers_balance (s : Scenario) (hvalid : s.validate = .ok ()) :
    (∀ (ρ : Type) (r r' : Reconciler ρ Simulator) (courses : List Course) (l : Layer), s.SetsOut r → r.Fares courses r' →
      s.layers.count l + upkeep s.triggers r'.handle.requirements.running.contains l ≤
          r'.handle.requirements.occurrences l + upkeep s.triggers (IdSet.ofList s.running).contains l +
            forfeited s.triggers courses l ∧
        r'.handle.requirements.occurrences l ≤
          s.layers.count l + upkeep s.triggers r'.handle.requirements.running.contains l ∧
        ((∀ t ∈ s.triggers, t.layer = l →
            ¬ t.component ∈ s.running ∧ ∀ c ∈ courses, c.forfeits t.component = false) →
          r'.handle.requirements.occurrences l =
            s.layers.count l + upkeep s.triggers r'.handle.requirements.running.contains l)) ∧
      ∀ passes stopsRunning retry refusing requirements, s.requirements = .ok requirements →
        s.SetsOut (s.outset refusing requirements) ∧
          ∀ t ∈ triesWithin passes stopsRunning (attemptLimit retry s) (s.outset refusing requirements),
            ∃ courses, (s.outset refusing requirements).Fares courses t.left := by
  refine ⟨fun ρ r r' courses l hr hfares => ?_, fun passes stopsRunning retry refusing requirements hrequirements => ?_⟩
  · have howing := hfares.owing (Reconciler.owing_of_setsOut hr hvalid)
    have hlower := howing.lower l
    have hupper := howing.upper l
    refine ⟨by omega, hupper, fun hnobody => ?_⟩
    have hidle : upkeep s.triggers (IdSet.ofList s.running).contains l = 0 := by
      refine Simulator.upkeep_eq_zero.mpr fun t ht hl => eq_false_of_ne_true fun hruns => ?_
      exact (hnobody t ht hl).1 (IdSet.mem_ofList.mp (IdSet.contains_iff.mp hruns))
    have hkept : forfeited s.triggers courses l = 0 :=
      Reconciler.forfeited_eq_zero fun t ht hl => (hnobody t ht hl).2
    omega
  · exact ⟨Scenario.setsOut_outset hrequirements refusing, fun t ht => fares_of_mem_triesWithin .start ht⟩

open Scenario in
/-- The radio, which has a dusk of its own, refuses to start, and the lamp stays on. The dusk occurs once, as listed. -/
theorem listed_layers_balance_evening :
    let outset := eveningOutset ["radio"]
    let lit := outset.act (.applies Simulator.host 5 false)
    evening.validate = .ok () ∧ evening.SetsOut outset ∧
      outset.Fares (outset.courses Simulator.host 5 false) lit ∧
      lit.handle.requirements.running = IdSet.ofList ["lamp"] ∧ (tryOnce 5 false outset).outcome.isFailure = true ∧
      evening.layers.count duskLayer = 1 ∧ lit.handle.requirements.occurrences duskLayer = 1 ∧
      evening.layers.count newsLayer = 0 ∧ lit.handle.requirements.occurrences newsLayer = 1 := by
  intro outset lit
  have hfares : outset.Fares (outset.courses Simulator.host 5 false) lit := .applies .start 5 false
  have hkept : ∀ t ∈ evening.triggers, ∀ c ∈ outset.courses Simulator.host 5 false, c.forfeits t.component = false := by
    decide +kernel
  have hnobody : ∀ l, ∀ t ∈ evening.triggers, t.layer = l → ¬ t.component ∈ evening.running ∧
      ∀ c ∈ outset.courses Simulator.host 5 false, c.forfeits t.component = false :=
    fun _ t ht _ => ⟨List.not_mem_nil, hkept t ht⟩
  have hrunning : lit.handle.requirements.running = IdSet.ofList ["lamp"] := by decide +kernel
  obtain ⟨hbalance, -⟩ := listed_layers_balance evening evening_valid
  have hdusk := (hbalance Unit outset lit _ duskLayer (evening_setsOut ["radio"]) hfares).2.2 (hnobody duskLayer)
  have hnews := (hbalance Unit outset lit _ newsLayer (evening_setsOut ["radio"]) hfares).2.2 (hnobody newsLayer)
  rw [hrunning] at hdusk hnews
  exact ⟨evening_valid, evening_setsOut ["radio"], hfares, hrunning, by decide +kernel, by decide +kernel,
    hdusk.trans (by decide +kernel), by decide +kernel, hnews.trans (by decide +kernel)⟩

/-! ## Layers that are lost -/

open Simulator (glowLayer studio studioCatalog)

/-- A storm puts the lamp out, and the radio is to warn of it. -/
def stormLayer : Layer :=
  ⟨"storm", (Table.empty.insert (.component "lamp") .excluded).insert (.component "radio") .mandatory⟩

/-- Nothing runs. A cloud comes up, which brings the storm, and the lamp is lit, which glows as it does anyway. -/
def stormyNight : Scenario :=
  { disabled := false
    running := []
    services := []
    components :=
      [⟨"clock", "", none, [], none⟩, ⟨"cloud", "", none, [], none⟩, ⟨"lamp", "", none, [], none⟩,
        ⟨"radio", "", none, [], none⟩]
    settings :=
      { Settings.empty with
        user := (Table.empty.insert (.component "cloud") .mandatory).insert (.component "lamp") .mandatory }
    layers := [glowLayer]
    triggers := [⟨"cloud", stormLayer⟩, ⟨"lamp", glowLayer⟩]
    options := .standard }

/-- How often the glow occurs after each attempt, where the radio refuses to start. -/
def stormyGlow : List Nat :=
  (tries 5 false ["radio"] stormyNight).map (fun t => t.left.handle.requirements.occurrences glowLayer)

/-- Both ways to lose a layer that is listed. The lamp of the studio was on before anything was started, and it goes out
in an apply that succeeds: with it goes the glow. In the stormy night the lamp is lit and glows once more, and the storm
puts it out twice, since the radio refuses the first time: after the second attempt nothing glows. -/
theorem listed_layers_taken :
    let outset := studio.outset [] (studio.posed studioCatalog)
    let applied := outset.apply Simulator.host 5 false
    (studio.validate = .ok () ∧ studio.SetsOut outset ∧ applied.2.isFailure = false ∧
      applied.1.handle.requirements.running = IdSet.ofList ["radio"] ∧ applied.1.isDirty = false ∧
      studio.layers.count glowLayer = 1 ∧ applied.1.handle.requirements.occurrences glowLayer = 0) ∧
      stormyNight.validate = .ok () ∧ stormyNight.running = [] ∧ stormyNight.layers.count glowLayer = 1 ∧
      stormyGlow = [1, 0] := by
  intro outset applied
  exact ⟨⟨rfl, Scenario.setsOut_outset rfl [], by decide +kernel, by decide +kernel, by decide +kernel,
    by decide +kernel, by decide +kernel⟩, rfl, rfl, by decide +kernel, by decide +kernel⟩

end Command

end Orchestrator
