import Orchestrator.Proofs.Solver.Charge
/-!
A catalog whose costs do not fit into a word. A board has to run; it needs power, which a generator provides, and would
be glad of a line for each of its callers, which a relay provides. All lines together cost ten for every caller if the
relay rests, and ten if it starts. With so many callers that ten times their number is just what a word holds, the
start of the generator makes the sum go on from zero, and to go without the relay passes for cheap.
-/

namespace Orchestrator

namespace Solver

def board (callers : Nat) : Component :=
  ⟨"board", "1", none, ⟨"power", .mandatory⟩ :: List.replicate callers ⟨"line", .eagerPassive⟩, none⟩

def generator : Component := ⟨"generator", "1", some "power", [], none⟩

def relay : Component := ⟨"relay", "1", some "line", [], none⟩

def switchboard (callers : Nat) : Catalog :=
  ((((Catalog.empty.insertService (.bare "line")).insertService (.bare "power")).insertComponent
    (board callers)).insertComponent generator).insertComponent relay

/-- What the lines cost together, if the relay runs and if it rests. -/
def linesCost (callers : Nat) (run : Bool) : Nat := if run then 10 else 10 * callers

variable {callers : Nat}

theorem switchboard_keyed (callers : Nat) : (switchboard callers).Keyed :=
  ((((Catalog.keyed_empty.insertService _).insertService _).insertComponent _).insertComponent _).insertComponent _

theorem componentList_switchboard : (switchboard callers).componentList = [board callers, generator, relay] := by
  let bare : Catalog := (Catalog.empty.insertService (.bare "line")).insertService (.bare "power")
  have hbare : bare.Keyed := (Catalog.keyed_empty.insertService _).insertService _
  have hboard : (bare.insertComponent (board callers)).componentList = [board callers] := rfl
  have hgenerator : ((bare.insertComponent (board callers)).insertComponent generator).componentList =
      [board callers, generator] := by
    refine ((hbare.insertComponent _).componentList_insert_last ?_).trans (congrArg (· ++ [generator]) hboard)
    rw [hboard]
    exact List.forall_mem_singleton.mpr (by decide : "board" < "generator")
  refine (((hbare.insertComponent _).insertComponent _).componentList_insert_last ?_).trans
    (congrArg (· ++ [relay]) hgenerator)
  rw [hgenerator]
  exact List.forall_mem_cons.mpr ⟨(by decide : "board" < "relay"),
    List.forall_mem_singleton.mpr (by decide : "generator" < "relay")⟩

theorem serviceList_switchboard : (switchboard callers).serviceList = [.bare "line", .bare "power"] := rfl

/-- Nothing is asked for but that the board runs, and the relay rests. -/
structure Exchange (callers : Nat) (s : Snapshot) : Prop where
  catalog : s.catalog = switchboard callers
  board : s.componentSeverity "board" = .mandatory
  component : ∀ id, id ≠ "board" → s.componentSeverity id = .passive
  service : ∀ id, s.serviceSeverity id = .passive
  rests : s.isRunning "relay" = false

namespace Exchange

variable {s : Snapshot} (h : Exchange callers s) {stopsRunning : Bool} {runs : String → Bool}

include h

theorem keyed : s.catalog.Keyed := h.catalog ▸ switchboard_keyed callers

theorem generator_passive : s.componentSeverity "generator" = .passive := h.component _ (by decide)

theorem relay_passive : s.componentSeverity "relay" = .passive := h.component _ (by decide)

theorem admitted : s.admitted = [Solver.board callers, generator, relay] := by
  have hservice : ∀ id, (s.serviceSeverity id).isExcluded = false := fun id => by rw [h.service]; rfl
  have hbarred : ∀ c, s.isServiceBarred c = false := fun c => by simp [Snapshot.isServiceBarred, hservice]
  rw [Snapshot.admitted, h.catalog, componentList_switchboard, List.filter_eq_self]
  simp [Snapshot.isBarred, hbarred, Solver.board, generator, relay, h.board, h.generator_passive, h.relay_passive,
    Severity.isExcluded]

theorem mem_admitted {c : Component} : c ∈ s.admitted ↔ c = Solver.board callers ∨ c = generator ∨ c = relay := by
  simp [h.admitted]

/-- The generator provides power and the relay lines, and nobody else does. -/
theorem isMet_provided {c : Component} {id : String} (hc : c = generator ∨ c = relay) (hid : c.implements = some id) :
    s.isMet runs id = runs c.id := by
  have hserved : s.isServed runs id = runs c.id := by
    rcases hc with rfl | rfl <;> cases hid <;>
      simp [Snapshot.isServed, Snapshot.implementers, h.admitted, Solver.board, generator, relay]
  have hlisted : s.catalog.service? id = some (.bare id) := by
    rw [h.keyed.service?_eq_some, h.catalog, serviceList_switchboard]
    rcases hc with rfl | rfl <;> cases hid <;> simp [Service.bare]
  rw [Snapshot.isMet, hlisted, Option.any_some, hserved]
  rfl

/-- The board has to run and the generator with it; the relay may do as it likes. -/
theorem feasible_iff : s.Feasible runs ↔ runs "board" = true ∧ runs "generator" = true := by
  constructor
  · intro hf
    have hlisted : Solver.board callers ∈ s.admitted := h.mem_admitted.mpr (.inl rfl)
    have hboard := hf.mandatory _ hlisted h.board
    have hpower := hf.met _ hlisted hboard ⟨"power", .mandatory⟩ List.mem_cons_self rfl
    exact ⟨hboard, (h.isMet_provided (.inl rfl) rfl).symm.trans hpower⟩
  · rintro ⟨hboard, hgenerator⟩
    constructor
    · -- Each service has one implementation.
      intro x hx c hc d hd _ _
      obtain ⟨hc, hcx⟩ := Snapshot.mem_implementers.mp hc
      obtain ⟨hd, hdx⟩ := Snapshot.mem_implementers.mp hd
      have hsame := hcx.trans hdx.symm
      rcases h.mem_admitted.mp hc with rfl | rfl | rfl <;> rcases h.mem_admitted.mp hd with rfl | rfl | rfl <;>
        first | rfl | simp [Solver.board, generator, relay] at hsame hcx
    · intro c hc hmandatory
      by_cases hid : c.id = "board"
      · rwa [hid]
      · rw [h.component c.id hid] at hmandatory
        cases hmandatory
    · intro x _ _ hbinding
      rw [h.service] at hbinding
      cases hbinding
    · intro c hc _ d hd hbinding
      rcases h.mem_admitted.mp hc with rfl | rfl | rfl
      · rcases List.mem_cons.mp hd with rfl | hd
        · exact (h.isMet_provided (.inl rfl) rfl).trans hgenerator
        · rw [List.eq_of_mem_replicate hd] at hbinding
          cases hbinding
      · cases hd
      · cases hd

theorem not_demanded (x : Service) : s.isDemanded x = false := by simp [Snapshot.isDemanded, h.service]

theorem lock_relay : s.lock stopsRunning relay = none := by
  have hsole : ∀ c, s.isSole c = false := fun c => by simp [Snapshot.isSole, h.not_demanded]
  simp [Snapshot.lock, hsole, ownLock, h.relay_passive, Component.isIndependent, relay]

/-- The generator costs ten if it has to start, and then there are the lines. -/
theorem cost (hboard : runs "board" = true) (hgenerator : runs "generator" = true) :
    s.cost stopsRunning runs =
      10 * (!s.isRunning "generator").toNat + linesCost callers (runs "relay") := by
  have hmissed : ∀ x, s.isMissed runs x = false := fun x => by simp [Snapshot.isMissed, h.service]
  have hlines : s.isMet runs "line" = runs "relay" := h.isMet_provided (.inr rfl) rfl
  have hwanting : s.isWanting runs ⟨"line", .eagerPassive⟩ = !runs "relay" := by
    simp [Snapshot.isWanting, hlines]
  have hneeds : s.isWanting runs ⟨"power", .mandatory⟩ = false := by simp [Snapshot.isWanting]
  rw [Snapshot.cost_eq, h.admitted]
  cases hrelay : runs "relay" <;>
    simp [linesCost, Snapshot.ownCost, Snapshot.isUnaskedStart, Snapshot.isUnaskedStay, Snapshot.isUnwantedStop,
      hmissed, hneeds, hwanting, Solver.board, generator, relay, hboard, hgenerator, hrelay, h.rests, h.board,
      h.generator_passive, h.relay_passive, Severity.isLazy, Severity.isEager, Component.isIndependent,
      List.countP_replicate]

theorem feasible_update (hf : s.Feasible runs) (run : Bool) : s.Feasible (Function.update runs "relay" run) := by
  rw [h.feasible_iff] at hf ⊢
  rwa [Function.update_of_ne (by decide), Function.update_of_ne (by decide)]

theorem cost_update (hf : s.Feasible runs) (run : Bool) :
    s.cost stopsRunning (Function.update runs "relay" run) =
      10 * (!s.isRunning "generator").toNat + linesCost callers run := by
  obtain ⟨hboard, hgenerator⟩ := h.feasible_iff.mp (h.feasible_update hf run)
  rw [h.cost hboard hgenerator, Function.update_self]

/-- The relay does what is charged less. -/
theorem relay_decided (hleast : s.LeastCharged stopsRunning runs) (run : Bool)
    (hless : (10 * (!s.isRunning "generator").toNat + linesCost callers run) % UInt32.size <
      (10 * (!s.isRunning "generator").toNat + linesCost callers !run) % UInt32.size) :
    runs "relay" = run := by
  have hlisted := (Snapshot.mem_admitted.mp (h.mem_admitted.mpr (.inr (.inr rfl)))).1
  refine hleast.decided h.keyed hlisted h.lock_relay (h.feasible_update hleast.feasible run) ?_
  change s.charge stopsRunning (Function.update runs "relay" run) <
    s.charge stopsRunning (Function.update runs "relay" !run)
  rw [Snapshot.charge, Snapshot.charge, h.cost_update hleast.feasible, h.cost_update hleast.feasible]
  exact hless

/-- As long as the generator has to start, its ten make the sum go on from zero, and the relay is spared. -/
theorem relay_rests (hleast : s.LeastCharged stopsRunning runs) (hstarts : s.isRunning "generator" = false)
    (hholds : 10 * callers < UInt32.size) (hexceeds : UInt32.size ≤ 10 + 10 * callers) : runs "relay" = false := by
  refine h.relay_decided hleast false ?_
  have hsize : UInt32.size = 4294967296 := rfl
  rw [hsize] at hholds hexceeds ⊢
  simp only [hstarts, linesCost, Bool.not_false, Bool.toNat_true, if_true, Bool.false_eq_true, if_false]
  omega

/-- Once the generator runs, the lines are charged what they cost, and the relay starts. -/
theorem relay_starts (hleast : s.LeastCharged stopsRunning runs) (hruns : s.isRunning "generator" = true)
    (hholds : 10 * callers < UInt32.size) (hmany : 1 < callers) : runs "relay" = true := by
  refine h.relay_decided hleast true ?_
  simp only [hruns, linesCost, Bool.not_true, Bool.toNat_false, Nat.mul_zero, Nat.zero_add, if_true,
    Bool.false_eq_true, if_false]
  rw [Nat.mod_eq_of_lt hholds]
  exact Nat.lt_of_le_of_lt (Nat.mod_le _ _) (by omega)

end Exchange

/-- The most callers whose lines a word can pay for. -/
def crowd : Nat := 429496729

/-- The board has to run. -/
def exchange (callers : Nat) (running : IdSet) : Snapshot :=
  { catalog := switchboard callers
    severities := Table.empty.insert (.component "board") .mandatory
    running := running }

theorem exchange_posed (callers : Nat) {running : IdSet} (hrests : running.contains "relay" = false) :
    Exchange callers (exchange callers running) where
  catalog := rfl
  board := by simp [exchange, Snapshot.componentSeverity, Snapshot.severity, Table.get?_insert]
  component := fun id hid => by
    simp [exchange, Snapshot.componentSeverity, Snapshot.severity, Table.get?_insert, hid]
  service := fun id => by simp [exchange, Snapshot.serviceSeverity, Snapshot.severity, Table.get?_insert]
  rests := hrests

end Solver

end Orchestrator
