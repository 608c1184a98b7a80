import Orchestrator.Proofs.Solver.Race
/-!
The solver under every schedule of its chunks. The chunks of a problem divide the assignments among them without
overlap, the numbers that they compute stay within words, and whatever race they run, the answer is that of the search
through all assignments in turn. So the options decide how the solver searches but not what it finds.
-/

namespace Orchestrator.Solver

variable {bits : Nat}

/-! ## Words -/

/-- That the numbers of a search are the words that a machine computes for them: no shift and no difference of the
search over so many digits goes beyond 64 bits. -/
structure FitsWords (bits : Nat) : Prop where
  digit : ∀ place ≤ bits, place < 64 ∧ ((1 : UInt64) <<< UInt64.ofNat place).toNat = 1 <<< place
  rest : chunkBits ≤ bits ∧ (UInt32.ofNat bits - UInt32.ofNat chunkBits).toNat = bits - chunkBits
  start : ∀ chunk : UInt64, chunk.toNat < 1 <<< (bits - chunkBits) →
    (chunk <<< UInt64.ofNat chunkBits).toNat = chunk.toNat <<< chunkBits
  stop : ∀ chunk : UInt64, chunk.toNat < 1 <<< (bits - chunkBits) →
    (chunk <<< UInt64.ofNat chunkBits + (1 : UInt64) <<< UInt64.ofNat chunkBits).toNat =
      chunk.toNat <<< chunkBits + chunkSize
  below : 2 ^ bits ≤ noFloor

/-- Each number is in one chunk only, and no chunk reaches beyond the numbers. -/
structure Partitions (bits : Nat) : Prop where
  covers : ∀ m < 2 ^ bits, ∃! chunk, chunk < 1 <<< (bits - chunkBits) ∧
    chunk <<< chunkBits ≤ m ∧ m < chunk <<< chunkBits + chunkSize
  within : ∀ chunk < 1 <<< (bits - chunkBits), chunk <<< chunkBits + chunkSize ≤ 2 ^ bits

theorem chunks_cover (h : chunkBits ≤ bits) : 1 <<< (bits - chunkBits) * chunkSize = 2 ^ bits := by
  rw [chunkSize, Nat.one_shiftLeft, Nat.one_shiftLeft, ← Nat.pow_add, Nat.sub_add_cancel h]

theorem partitions (h : chunkBits ≤ bits) : Partitions bits where
  covers := by
    intro m hm
    rw [← chunks_cover h] at hm
    refine ⟨m / chunkSize, ⟨(Nat.div_lt_iff_lt_mul (by decide)).mpr hm, ?_, ?_⟩, ?_⟩
    · rw [chunkStart]
      exact Nat.div_mul_le_self m chunkSize
    · rw [chunkStart]
      exact Nat.lt_div_mul_add (by decide)
    · rintro chunk ⟨-, hstart, hstop⟩
      rw [chunkStart] at hstart hstop
      exact (Nat.div_eq_of_lt_le hstart (by rwa [Nat.succ_mul])).symm
  within := by
    intro chunk hchunk
    rw [chunkStart, ← chunks_cover h, ← Nat.succ_mul]
    exact Nat.mul_le_mul_right chunkSize hchunk

theorem toNat_shiftLeft_word (a : UInt64) {place : Nat} (hplace : place < 64) (h : a.toNat <<< place < 2 ^ 64) :
    (a <<< UInt64.ofNat place).toNat = a.toNat <<< place := by
  rw [UInt64.toNat_shiftLeft, UInt64.toNat_ofNat', Nat.mod_eq_of_lt (by omega : place < 2 ^ 64),
    Nat.mod_eq_of_lt hplace, Nat.mod_eq_of_lt h]

theorem fitsWords (h : chunkBits ≤ bits) (hword : bits ≤ 63) : FitsWords bits := by
  have hpow : ∀ place ≤ bits, 2 ^ place ≤ 2 ^ 63 := fun place hle => Nat.pow_le_pow_right (by decide) (by omega)
  have hall := hpow bits (Nat.le_refl bits)
  have hchunk : ∀ chunk < 1 <<< (bits - chunkBits), chunk <<< chunkBits + chunkSize < 2 ^ 64 := by
    intro chunk hlt
    have := (partitions h).within chunk hlt
    omega
  have hstart : ∀ chunk : UInt64, chunk.toNat < 1 <<< (bits - chunkBits) →
      (chunk <<< UInt64.ofNat chunkBits).toNat = chunk.toNat <<< chunkBits := by
    intro chunk hlt
    have := hchunk _ hlt
    exact toNat_shiftLeft_word chunk (by decide) (by omega)
  refine ⟨?_, ⟨h, ?_⟩, hstart, ?_, ?_⟩
  · intro place hle
    have hone : (1 : UInt64).toNat <<< place < 2 ^ 64 := by
      have := hpow place hle
      rw [UInt64.toNat_one, Nat.one_shiftLeft]
      omega
    exact ⟨by omega, toNat_shiftLeft_word 1 (by omega) hone⟩
  · have hdigits : (UInt32.ofNat bits).toNat = bits := by
      rw [UInt32.toNat_ofNat', Nat.mod_eq_of_lt (by omega)]
    have hten : (UInt32.ofNat chunkBits).toNat = chunkBits := rfl
    rw [UInt32.toNat_sub_of_le _ _ (by rw [UInt32.le_iff_toNat_le, hdigits, hten]; exact h), hdigits, hten]
  · intro chunk hlt
    have hsize : ((1 : UInt64) <<< UInt64.ofNat chunkBits).toNat = chunkSize := rfl
    rw [UInt64.toNat_add, hstart chunk hlt, hsize, Nat.mod_eq_of_lt (hchunk _ hlt)]
  · unfold noFloor
    omega

/-! ## The solver with any schedule -/

/-- The solver with some search in place of its own. -/
def solveBy (search : Problem → Option Candidate) (s : Snapshot) (stopsRunning : Bool) (options : SolverOptions) :
    Except Fault Plan :=
  match Problem.ofSnapshot? s stopsRunning with
  | none => .ok .impossible
  | some p =>
    if options.limit < p.free then .error (.searchTooLarge p.free options.limit)
    else
      match search p with
      | none => .ok .impossible
      | some best => .ok (.ready (p.steps (Problem.assign p.nodes best.mask) best.cost))

theorem solveBy_search (s : Snapshot) (stopsRunning : Bool) (options : SolverOptions) :
    solveBy (·.search options) s stopsRunning options = solve s stopsRunning options := rfl

def Problem.chunks (p : Problem) : Nat := 1 <<< (p.free - chunkBits)

def Problem.searchAll (p : Problem) : Option Candidate := searchRange p.maskCost? 0 (1 <<< p.free)

/-- What the search may answer under the options: that of going through all numbers in turn, or where the search is
split, that of any race that has come to its end. -/
inductive Problem.MayFind (p : Problem) (options : SolverOptions) : Option Candidate → Prop
  | whole (h : ¬ (options.splitFrom.toNat ≤ p.free ∧ chunkBits < p.free)) : p.MayFind options p.searchAll
  | split {moves : Nat} {race : Race} (h : options.splitFrom.toNat ≤ p.free ∧ chunkBits < p.free)
      (hreached : Race.Reached p.maskCost? p.chunks moves race) (hfinished : race.IsFinished p.chunks) :
      p.MayFind options (race.answer p.chunks)

theorem Problem.searchAll_isLeast (p : Problem) : IsLeast p.maskCost? 0 (2 ^ p.free) p.searchAll := by
  have h := @searchRange_isLeast p.maskCost? 0 (1 <<< p.free)
  rw [Nat.zero_add] at h
  rw [← Nat.one_shiftLeft]
  exact h

theorem Problem.search_eq_searchAll (p : Problem) (options : SolverOptions) : p.search options = p.searchAll :=
  (p.search_isLeast options).unique p.searchAll_isLeast

section

variable {p : Problem} {options options' : SolverOptions}

theorem Problem.chunks_fit (hmany : chunkBits < p.free) (hword : p.free ≤ 63) : p.chunks * chunkSize ≤ noFloor := by
  have hall : p.chunks * chunkSize = 2 ^ p.free := chunks_cover (Nat.le_of_lt hmany)
  rw [hall]
  exact (fitsWords (Nat.le_of_lt hmany) hword).below

/-- Under every schedule the chunks answer like the search through all numbers in turn. -/
theorem Problem.race_answer (hmany : chunkBits < p.free) (hword : p.free ≤ 63) {moves : Nat} {race : Race}
    (hreached : Race.Reached p.maskCost? p.chunks moves race) (hfinished : race.IsFinished p.chunks) :
    race.answer p.chunks = p.searchAll := by
  have hall : p.chunks * chunkSize = 2 ^ p.free := chunks_cover (Nat.le_of_lt hmany)
  have hleast := (hreached.sound (p.chunks_fit hmany hword)).answer_isLeast hfinished
  rw [hall] at hleast
  exact hleast.unique p.searchAll_isLeast

theorem Problem.MayFind.eq_searchAll {found : Option Candidate} (h : p.MayFind options found) (hword : p.free ≤ 63) :
    found = p.searchAll := by
  cases h with
  | whole => rfl
  | split hsplit hreached hfinished => exact race_answer hsplit.2 hword hreached hfinished

/-- The search that goes through the chunks one after another is one of those that the options allow. -/
theorem Problem.mayFind_search (hword : p.free ≤ 63) : p.MayFind options (p.search options) := by
  rw [p.search_eq_searchAll]
  by_cases hsplit : options.splitFrom.toNat ≤ p.free ∧ chunkBits < p.free
  · have hstart : Race.Reached p.maskCost? p.chunks 0 Race.start := .start
    obtain ⟨moves, race, hreached, hfinished⟩ := hstart.finishes (p.chunks_fit hsplit.2 hword)
    rw [← race_answer hsplit.2 hword hreached hfinished]
    exact .split hsplit hreached hfinished
  · exact .whole hsplit

theorem solveBy_eq {search : Problem → Option Candidate} {s : Snapshot} {stopsRunning : Bool}
    (hsearch : ∀ q : Problem, q.free ≤ options.limit → q.MayFind options (search q))
    (hlimit : options'.limit = options.limit) :
    solveBy search s stopsRunning options = solve s stopsRunning options' := by
  unfold solveBy solve
  cases Problem.ofSnapshot? s stopsRunning with
  | none => rfl
  | some q =>
      simp only [hlimit]
      split
      next => rfl
      next hfits =>
        have hword : q.free ≤ 63 := Nat.le_trans (Nat.le_of_not_lt hfits) (Nat.min_le_right _ _)
        have hfound : search q = q.search options' :=
          ((hsearch q (Nat.le_of_not_lt hfits)).eq_searchAll hword).trans (q.search_eq_searchAll options').symm
        exact hfound ▸ rfl

end

/-- No schedule of the chunks changes what the search finds, and no choice of where to split it changes the answer of
the solver. -/
theorem search_scheduleFree (p : Problem) (hmany : chunkBits < p.free) (hword : p.free ≤ 63) :
    IsLeast p.maskCost? 0 (2 ^ p.free) p.searchAll ∧
    -- every race comes to its end, and then answers the same
    (∀ moves race, Race.Reached p.maskCost? p.chunks moves race →
      moves ≤ p.chunks * (2 * chunkSize + 2) ∧
      (¬ race.IsFinished p.chunks → ∃ race', Race.Step p.maskCost? p.chunks race race') ∧
      (race.IsFinished p.chunks → race.answer p.chunks = p.searchAll)) ∧
    Partitions p.free ∧ FitsWords p.free ∧
    -- the options have no say in it
    (∀ options, p.MayFind options (p.search options) ∧ p.search options = p.searchAll) ∧
    ∀ (s : Snapshot) (stopsRunning : Bool) (options options' : SolverOptions) (search : Problem → Option Candidate),
      options'.maxFree = options.maxFree → (∀ q : Problem, q.free ≤ options.limit → q.MayFind options (search q)) →
      solveBy search s stopsRunning options = solve s stopsRunning options' := by
  have hchunks : chunkBits ≤ p.free := Nat.le_of_lt hmany
  refine ⟨p.searchAll_isLeast, ?_, partitions hchunks, fitsWords hchunks hword, ?_, ?_⟩
  · intro moves race hreached
    have hmoves := hreached.moves_le (p.chunks_fit hmany hword)
    exact ⟨by omega, Race.exists_step, p.race_answer hmany hword hreached⟩
  · intro options
    exact ⟨p.mayFind_search hword, p.search_eq_searchAll options⟩
  · intro s stopsRunning options options' search hmax hsearch
    have hlimit : options'.limit = options.limit := by unfold SolverOptions.limit; rw [hmax]
    exact solveBy_eq hsearch hlimit

/-- Eleven keepers of one watch. -/
def keepers : Catalog :=
  ["ada", "bo", "cy", "di", "eli", "fay", "gus", "hal", "ida", "joe", "kim"].foldl
    (fun catalog id => catalog.insertComponent ⟨id, "1", some "watch", [], none⟩)
    (Catalog.empty.insertService ⟨"watch", false, none⟩)

/-- The watch has to be kept, and only the second keeper is glad to. -/
def nightfall : Snapshot :=
  { catalog := keepers
    severities := (Table.empty.insert (.service "watch") .mandatory).insert (.component "bo") .eagerPassive
    running := IdSet.empty }

/-- The chunk behind the one that finds the second keeper may be searched, cut short or left out. -/
theorem search_scheduleFree_nightfall :
    ∃ p, Problem.ofSnapshot? nightfall false = some p ∧ chunkBits < p.free ∧ p.free ≤ 63 ∧
      p.searchAll = some ⟨0, 2⟩ ∧
      (∀ moves race, Race.Reached p.maskCost? p.chunks moves race → race.IsFinished p.chunks →
        race.answer p.chunks = some ⟨0, 2⟩) ∧
      solve nightfall false ⟨20, 0⟩ = solve nightfall false ⟨20, 64⟩ := by
  cases hp : Problem.ofSnapshot? nightfall false with
  | none => cases hp
  | some p =>
      have hfree : (Problem.ofSnapshot? nightfall false).map Problem.free = some 11 := rfl
      have hfound : (Problem.ofSnapshot? nightfall false).map Problem.searchAll = some (some ⟨0, 2⟩) := rfl
      rw [hp] at hfree hfound
      have hfree : p.free = 11 := Option.some.inj hfree
      have hfound : p.searchAll = some ⟨0, 2⟩ := Option.some.inj hfound
      have hmany : chunkBits < p.free := by rw [hfree]; decide
      have hword : p.free ≤ 63 := by omega
      obtain ⟨-, hraces, -, -, -, hsolve⟩ := search_scheduleFree p hmany hword
      refine ⟨p, rfl, hmany, hword, hfound, ?_, ?_⟩
      · intro moves race hreached hfinished
        rw [(hraces moves race hreached).2.2 hfinished, hfound]
      · refine hsolve nightfall false ⟨20, 0⟩ ⟨20, 64⟩ (·.search ⟨20, 0⟩) rfl fun q hq => ?_
        have hlimit : SolverOptions.limit ⟨20, 0⟩ = 20 := rfl
        exact q.mayFind_search (by omega)

end Orchestrator.Solver
