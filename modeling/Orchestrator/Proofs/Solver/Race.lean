import Mathlib.Algebra.Order.BigOperators.Group.Finset
import Orchestrator.Proofs.Solver.Search
/-!
The chunks of a search looked through at the same time. Each chunk is at a stage of its own; one move of one chunk is
one step of the race, and nothing is said about the order. The chunks share the least number known to cost nothing: a
chunk publishes such a number when it finds one, and gives up when it reads one below the number it has come to. What
it reads may be out of date. In whatever order the chunks move and whatever they read, the race ends, and the first of
its answers is that of the search that goes through all numbers in turn.
-/

namespace Orchestrator.Solver

/-- How far the search of one chunk has come. -/
inductive Stage where
  | waiting
  /-- About to see whether `next` is in the chunk and can still win. -/
  | looking (next : Nat) (best : Option Candidate)
  /-- About to find out what `next` costs. -/
  | trying (next : Nat) (best : Option Candidate)
  | done (answer : Option Candidate)
  deriving DecidableEq, Repr

namespace Stage

/-- The next stage of the chunk from `start` on; `seen` is the shared number, if the move reads it. -/
def move (cost : Nat → Option Nat) (start seen : Nat) : Stage → Stage
  | waiting => if seen < start then done none else looking start none
  | looking next best => if next = start + chunkSize ∨ seen < next then done best else trying next best
  | trying next best =>
    match cost next with
    | none => looking (next + 1) best
    | some 0 => done (some ⟨0, next⟩)
    | some c => looking (next + 1) (Candidate.better best ⟨c, next⟩)
  | done answer => done answer

/-- The number that the next move publishes. -/
def publishes (cost : Nat → Option Nat) : Stage → Option Nat
  | trying next _ => if cost next = some 0 then some next else none
  | _ => none

def isDone : Stage → Bool
  | done _ => true
  | _ => false

def answer : Stage → Option Candidate
  | done answer => answer
  | _ => none

/-- A bound on the moves that are left to the chunk from `start` on. -/
def work (start : Nat) : Stage → Nat
  | waiting => 2 * chunkSize + 2
  | looking next _ => 2 * (start + chunkSize - next) + 1
  | trying next _ => 2 * (start + chunkSize - next)
  | done _ => 0

end Stage

structure Race where
  stages : Nat → Stage
  /-- The numbers of cost zero that chunks have published. -/
  published : List Nat

/-- What a chunk reads before anything is published. -/
def noFloor : Nat := 2 ^ 64 - 1

namespace Race

def start : Race := ⟨fun _ => .waiting, []⟩

/-- A read gives any of the published numbers, be it the least or not, or none of them. -/
def MayRead (race : Race) (seen : Nat) : Prop := seen = noFloor ∨ seen ∈ race.published

def move (cost : Nat → Option Nat) (race : Race) (chunk seen : Nat) : Race :=
  { stages := Function.update race.stages chunk ((race.stages chunk).move cost (chunk <<< chunkBits) seen)
    published := ((race.stages chunk).publishes cost).toList ++ race.published }

/-- One of the chunks moves that are not done. -/
inductive Step (cost : Nat → Option Nat) (chunks : Nat) : Race → Race → Prop
  | move {race : Race} {chunk seen : Nat} (hchunk : chunk < chunks) (hrunning : (race.stages chunk).isDone = false)
      (hseen : race.MayRead seen) : Step cost chunks race (race.move cost chunk seen)

/-- What a race of so many chunks comes to in a number of moves. -/
inductive Reached (cost : Nat → Option Nat) (chunks : Nat) : Nat → Race → Prop
  | start : Reached cost chunks 0 start
  | step {moves : Nat} {race race' : Race} (hreached : Reached cost chunks moves race)
      (hstep : Step cost chunks race race') : Reached cost chunks (moves + 1) race'

def IsFinished (chunks : Nat) (race : Race) : Prop := ∀ chunk < chunks, (race.stages chunk).isDone = true

def answers (chunks : Nat) (race : Race) : List Candidate :=
  (List.range chunks).filterMap (fun chunk => (race.stages chunk).answer)

end Race

/-- Cheaper, or as cheap and of a smaller number. -/
def Candidate.IsBefore (b c : Candidate) : Prop := b.cost < c.cost ∨ (b.cost = c.cost ∧ b.mask < c.mask)

instance (b c : Candidate) : Decidable (b.IsBefore c) := inferInstanceAs (Decidable (_ ∨ _))

/-- The first of a list of candidates by cost and number. -/
def firstOf : List Candidate → Option Candidate
  | [] => none
  | c :: rest =>
    match firstOf rest with
    | none => some c
    | some b => if b.IsBefore c then some b else some c

def Race.answer (chunks : Nat) (race : Race) : Option Candidate := firstOf (race.answers chunks)

theorem firstOf_eq_none {l : List Candidate} (h : firstOf l = none) : l = [] := by
  cases l with
  | nil => rfl
  | cons c rest =>
      simp only [firstOf] at h
      split at h
      · cases h
      · split at h <;> cases h

/-- The first is one of the list, and none of the list comes before it. -/
theorem firstOf_eq_some {l : List Candidate} {a : Candidate} (h : firstOf l = some a) :
    a ∈ l ∧ ∀ b ∈ l, ¬ b.IsBefore a := by
  induction l generalizing a with
  | nil => cases h
  | cons c rest ih =>
      have hself : ¬ c.IsBefore c := by simp [Candidate.IsBefore]
      simp only [firstOf] at h
      split at h
      next hnone =>
        cases h
        rw [firstOf_eq_none hnone]
        simp [hself]
      next b hb =>
        obtain ⟨hmem, hfirst⟩ := ih hb
        split at h
        next hbefore =>
          cases h
          refine ⟨List.mem_cons_of_mem c hmem, ?_⟩
          intro d hd
          rcases List.mem_cons.mp hd with rfl | hd
          · simp only [Candidate.IsBefore] at hbefore ⊢
            omega
          · exact hfirst d hd
        next hnot =>
          cases h
          refine ⟨List.mem_cons_self, ?_⟩
          intro d hd
          rcases List.mem_cons.mp hd with rfl | hd
          · exact hself
          · have hafter := hfirst d hd
            simp only [Candidate.IsBefore] at hnot hafter ⊢
            omega

/-! ## What each chunk has found out -/

variable {cost : Nat → Option Nat} {bits chunks : Nat}

/-- What a stage owes: the answer for the numbers passed so far. A chunk that stopped early knows of a number of cost
zero below those that it left out. -/
def Stage.Sound (cost : Nat → Option Nat) (start : Nat) : Stage → Prop
  | .waiting => True
  | .looking next best =>
    (start ≤ next ∧ next ≤ start + chunkSize) ∧ IsLeast cost start next best ∧ ∀ c, best = some c → c.cost ≠ 0
  | .trying next best =>
    (start ≤ next ∧ next < start + chunkSize) ∧ IsLeast cost start next best ∧ ∀ c, best = some c → c.cost ≠ 0
  | .done answer =>
    ∃ stop, (start ≤ stop ∧ stop ≤ start + chunkSize) ∧ IsLeast cost start stop answer ∧
      (stop < start + chunkSize → ∃ z < stop, cost z = some 0)

/-- A move keeps what a stage owes, as long as the number it reads costs nothing or is beyond the chunk. -/
theorem Stage.Sound.move {stage : Stage} {start seen : Nat} (h : stage.Sound cost start)
    (hseen : start + chunkSize ≤ seen ∨ cost seen = some 0) : (stage.move cost start seen).Sound cost start := by
  have hempty : IsLeast cost start start none := .of_empty (Nat.le_refl start)
  cases stage with
  | waiting =>
      simp only [Stage.move]
      split
      next hlate =>
        have hfree : cost seen = some 0 := hseen.resolve_left (by omega)
        exact ⟨start, by omega, hempty, fun _ => ⟨seen, hlate, hfree⟩⟩
      next => exact ⟨by omega, hempty, by simp⟩
  | looking next best =>
      obtain ⟨hrange, hleast, hdear⟩ := h
      simp only [Stage.move]
      split
      next hstop =>
        refine ⟨next, hrange, hleast, fun hearly => ?_⟩
        have hlate : seen < next := hstop.resolve_left (by omega)
        have hfree : cost seen = some 0 := hseen.resolve_left (by omega)
        exact ⟨seen, hlate, hfree⟩
      next hgo => exact ⟨by omega, hleast, hdear⟩
  | trying next best =>
      obtain ⟨hrange, hleast, hdear⟩ := h
      have hnext := hleast.append (IsLeast.single next) hrange.1 (Nat.le_succ next)
      simp only [Stage.move]
      split
      next hcost =>
        rw [hcost] at hnext
        exact ⟨by omega, hnext, hdear⟩
      next hcost =>
        rw [hcost] at hnext
        have hfree : IsLeast cost start (next + 1) (some ⟨0, next⟩) := by
          rw [← Candidate.better_free next hdear]
          exact hnext
        exact ⟨start + chunkSize, by omega, hfree.extend rfl (by omega), fun hearly => by omega⟩
      next c hc hcost =>
        rw [hcost] at hnext
        exact ⟨by omega, hnext, Candidate.better_dear hc hdear⟩
  | done answer => exact h

theorem Stage.publishes_free {stage : Stage} {z : Nat} (h : stage.publishes cost = some z) : cost z = some 0 := by
  cases stage with
  | trying next best =>
      simp only [Stage.publishes, Option.ite_none_right_eq_some] at h
      obtain ⟨hfree, hsame⟩ := h
      cases hsame
      exact hfree
  | waiting | looking | done => cases h

/-- A move of a chunk that is not done leaves fewer moves. -/
theorem Stage.Sound.move_work {stage : Stage} {start seen : Nat} (h : stage.Sound cost start)
    (hrunning : stage.isDone = false) : (stage.move cost start seen).work start < stage.work start := by
  cases stage with
  | waiting =>
      simp only [Stage.move]
      split <;> simp only [Stage.work] <;> omega
  | looking next best =>
      obtain ⟨hrange, -, -⟩ := h
      simp only [Stage.move]
      split <;> simp only [Stage.work] <;> omega
  | trying next best =>
      obtain ⟨hrange, -, -⟩ := h
      simp only [Stage.move]
      split <;> simp only [Stage.work] <;> omega
  | done answer => cases hrunning

/-! ## What a whole race keeps -/

theorem chunkStart (chunk : Nat) : chunk <<< chunkBits = chunk * chunkSize := by
  simp [chunkSize, Nat.shiftLeft_eq]

/-- Every published number costs nothing, and every stage has what it owes. -/
structure Race.Sound (cost : Nat → Option Nat) (race : Race) : Prop where
  published : ∀ z ∈ race.published, cost z = some 0
  stages : ∀ chunk, (race.stages chunk).Sound cost (chunk <<< chunkBits)

theorem Race.sound_start : Race.start.Sound cost where
  published := by simp [Race.start]
  stages := fun _ => trivial

/-- The chunks cover words, so that none of them reaches up to what is read while nothing is published. -/
theorem Race.Sound.step {race race' : Race} (h : race.Sound cost) (hwords : chunks * chunkSize ≤ noFloor)
    (hstep : Race.Step cost chunks race race') : race'.Sound cost := by
  obtain ⟨hchunk, -, hseen⟩ := hstep
  rename_i chunk seen
  refine ⟨?_, ?_⟩
  · intro z hz
    rcases List.mem_append.mp hz with hnew | hold
    · exact Stage.publishes_free (Option.mem_toList.mp hnew)
    · exact h.published z hold
  · intro other
    by_cases hsame : other = chunk
    · subst hsame
      simp only [Race.move, Function.update_self]
      refine (h.stages other).move ?_
      rcases hseen with hnone | hpublished
      · left
        have hlast : (other + 1) * chunkSize ≤ chunks * chunkSize := Nat.mul_le_mul_right _ hchunk
        rw [chunkStart, hnone]
        rw [Nat.succ_mul] at hlast
        omega
      · exact .inr (h.published seen hpublished)
    · simp only [Race.move, Function.update_of_ne hsame]
      exact h.stages other

theorem Race.Reached.sound {moves : Nat} {race : Race} (h : Race.Reached cost chunks moves race)
    (hwords : chunks * chunkSize ≤ noFloor) : race.Sound cost := by
  induction h with
  | start => exact Race.sound_start
  | step _ hstep ih => exact ih.step hwords hstep

def Race.work (chunks : Nat) (race : Race) : Nat :=
  ∑ chunk ∈ Finset.range chunks, (race.stages chunk).work (chunk <<< chunkBits)

theorem Race.Sound.step_work {race race' : Race} (h : race.Sound cost) (hstep : Race.Step cost chunks race race') :
    race'.work chunks < race.work chunks := by
  obtain ⟨hchunk, hrunning, -⟩ := hstep
  rename_i chunk seen
  refine Finset.sum_lt_sum ?_ ⟨chunk, Finset.mem_range.mpr hchunk, ?_⟩
  · intro other _
    by_cases hsame : other = chunk
    · subst hsame
      simp only [Race.move, Function.update_self]
      exact Nat.le_of_lt ((h.stages other).move_work hrunning)
    · simp only [Race.move, Function.update_of_ne hsame, Nat.le_refl]
  · simp only [Race.move, Function.update_self]
    exact (h.stages chunk).move_work hrunning

/-- No race goes on for ever. -/
theorem Race.Reached.moves_le {moves : Nat} {race : Race} (h : Race.Reached cost chunks moves race)
    (hwords : chunks * chunkSize ≤ noFloor) : moves + race.work chunks ≤ chunks * (2 * chunkSize + 2) := by
  induction h with
  | start => simp [Race.work, Race.start, Stage.work]
  | step hreached hstep ih =>
      have hless := (hreached.sound hwords).step_work hstep
      omega

/-- A chunk that is not done can always move, whatever the others do. -/
theorem Race.exists_step {race : Race} (h : ¬ race.IsFinished chunks) : ∃ race', Race.Step cost chunks race race' := by
  simp only [Race.IsFinished, not_forall] at h
  obtain ⟨chunk, hchunk, hrunning⟩ := h
  exact ⟨_, .move hchunk (by simpa using hrunning) (.inl rfl)⟩

/-- Whatever has happened so far, the race can be brought to its end. -/
theorem Race.Reached.finishes {moves : Nat} {race : Race} (h : Race.Reached cost chunks moves race)
    (hwords : chunks * chunkSize ≤ noFloor) :
    ∃ moves' race', Race.Reached cost chunks moves' race' ∧ race'.IsFinished chunks := by
  induction hwork : race.work chunks using Nat.strongRecOn generalizing moves race with
  | ind work ih =>
      by_cases hfinished : race.IsFinished chunks
      · exact ⟨moves, race, h, hfinished⟩
      · obtain ⟨race', hstep⟩ : ∃ race', Race.Step cost chunks race race' := Race.exists_step hfinished
        have hless := (h.sound hwords).step_work hstep
        exact ih (race'.work chunks) (hwork ▸ hless) (h.step hstep) rfl

/-! ## The first of the answers -/

theorem Race.mem_answers {race : Race} {c : Candidate} :
    c ∈ race.answers chunks ↔ ∃ chunk < chunks, (race.stages chunk).answer = some c := by
  simp [Race.answers]

/-- What a chunk answers is what that number costs. -/
theorem Race.Sound.answer_valid {race : Race} (h : race.Sound cost) {c : Candidate}
    (hc : c ∈ race.answers chunks) : c.mask < chunks * chunkSize ∧ cost c.mask = some c.cost := by
  obtain ⟨chunk, hchunk, hanswer⟩ := Race.mem_answers.mp hc
  have hsound := h.stages chunk
  have hlast : (chunk + 1) * chunkSize ≤ chunks * chunkSize := Nat.mul_le_mul_right _ hchunk
  cases hstage : race.stages chunk with
  | done answer =>
      rw [hstage] at hsound hanswer
      obtain ⟨stop, ⟨-, hstop⟩, hleast, -⟩ := hsound
      cases hanswer
      obtain ⟨⟨-, hmask, hcost⟩, -⟩ := hleast
      rw [chunkStart] at hstop
      rw [Nat.succ_mul] at hlast
      exact ⟨by omega, hcost⟩
  | waiting | looking | trying => simp [hstage, Stage.answer] at hanswer

/-- Once every chunk is done, no number comes before all answers: its own chunk has passed it, or left it out for a
number of cost zero that is smaller still. -/
theorem Race.Sound.exists_answer {race : Race} (h : race.Sound cost) (hfinished : race.IsFinished chunks) {m k : Nat}
    (hm : m < chunks * chunkSize) (hcost : cost m = some k) :
    ∃ c ∈ race.answers chunks, c.cost < k ∨ (c.cost = k ∧ c.mask ≤ m) := by
  induction m using Nat.strongRecOn generalizing k with
  | ind m ih =>
      have hchunk : m / chunkSize < chunks := (Nat.div_lt_iff_lt_mul (by decide)).mpr hm
      have hstart : m / chunkSize * chunkSize ≤ m := Nat.div_mul_le_self m chunkSize
      have hend : m < m / chunkSize * chunkSize + chunkSize := Nat.lt_div_mul_add (by decide)
      have hsound := h.stages (m / chunkSize)
      rw [chunkStart] at hsound
      cases hstage : race.stages (m / chunkSize) with
      | done answer =>
          rw [hstage] at hsound
          obtain ⟨stop, ⟨-, hstop⟩, hleast, hearly⟩ := hsound
          rcases Nat.lt_or_ge m stop with hpassed | hleft
          · cases answer with
            | none =>
                rw [hleast m hstart hpassed] at hcost
                cases hcost
            | some c =>
                have hanswer : (race.stages (m / chunkSize)).answer = some c := by rw [hstage]; rfl
                exact ⟨c, Race.mem_answers.mpr ⟨_, hchunk, hanswer⟩, hleast.2 m k hstart hpassed hcost⟩
          · obtain ⟨z, hz, hfree⟩ := hearly (by omega)
            obtain ⟨c, hmem, hbefore⟩ := ih z (by omega) (by omega) hfree
            exact ⟨c, hmem, by omega⟩
      | waiting | looking | trying =>
          have hdone := hfinished (m / chunkSize) hchunk
          simp [hstage, Stage.isDone] at hdone

theorem Race.Sound.answer_isLeast {race : Race} (h : race.Sound cost) (hfinished : race.IsFinished chunks) :
    IsLeast cost 0 (chunks * chunkSize) (race.answer chunks) := by
  unfold Race.answer
  cases hfirst : firstOf (race.answers chunks) with
  | none =>
      intro m _ hm
      cases hcost : cost m with
      | none => rfl
      | some k =>
          obtain ⟨c, hmem, -⟩ := h.exists_answer hfinished hm hcost
          rw [firstOf_eq_none hfirst] at hmem
          cases hmem
  | some a =>
      obtain ⟨hmem, hleast⟩ := firstOf_eq_some hfirst
      obtain ⟨hmask, hvalid⟩ := h.answer_valid hmem
      refine ⟨⟨Nat.zero_le _, hmask, hvalid⟩, ?_⟩
      intro m k _ hm hcost
      obtain ⟨c, hc, hbefore⟩ := h.exists_answer hfinished hm hcost
      have hnot := hleast c hc
      simp only [Candidate.IsBefore] at hnot
      omega

end Orchestrator.Solver
