import Mathlib.Algebra.GroupWithZero.Nat
import Orchestrator.Solver
/-!
What the exhaustive search finds. Over any range of numbers the answer is the feasible number that comes first when
numbers are compared by cost and then by size, and there is no answer exactly where no number is feasible. Neither the
early exit at cost zero nor the division into chunks changes that.
-/

namespace Orchestrator.Solver

/-- The answer that a search over the numbers from `start` up to `stop` owes. -/
def IsLeast (cost : Nat → Option Nat) (start stop : Nat) : Option Candidate → Prop
  | none => ∀ m, start ≤ m → m < stop → cost m = none
  | some c => (start ≤ c.mask ∧ c.mask < stop ∧ cost c.mask = some c.cost) ∧
      ∀ m k, start ≤ m → m < stop → cost m = some k → c.cost < k ∨ (c.cost = k ∧ c.mask ≤ m)

variable {cost : Nat → Option Nat} {start middle stop : Nat} {best found : Option Candidate}

theorem IsLeast.of_empty (h : stop ≤ start) : IsLeast cost start stop none := by
  intro m hstart hstop
  omega

theorem IsLeast.single (m : Nat) : IsLeast cost m (m + 1) ((cost m).map (⟨·, m⟩)) := by
  cases hm : cost m with
  | none =>
      intro m' hle hlt
      have hsame : m' = m := by omega
      rw [hsame, hm]
  | some k =>
      refine ⟨⟨Nat.le_refl m, Nat.lt_succ_self m, hm⟩, ?_⟩
      intro m' k' hle hlt hk'
      have hsame : m' = m := by omega
      rw [hsame, hm] at hk'
      exact .inr ⟨Option.some.inj hk', hle⟩

/-- The answers for two neighbouring ranges join to the answer for both. -/
theorem IsLeast.append (hbest : IsLeast cost start middle best) (hfound : IsLeast cost middle stop found)
    (hle : start ≤ middle) (hle' : middle ≤ stop) :
    IsLeast cost start stop (found.elim best (Candidate.better best)) := by
  cases found with
  | none =>
      cases best with
      | none =>
          intro m hm hm'
          rcases Nat.lt_or_ge m middle with hlt | hge
          · exact hbest m hm hlt
          · exact hfound m hge hm'
      | some b =>
          obtain ⟨⟨hb₁, hb₂, hb₃⟩, hb⟩ := hbest
          refine ⟨⟨hb₁, by omega, hb₃⟩, ?_⟩
          intro m k hm hm' hk
          rcases Nat.lt_or_ge m middle with hlt | hge
          · exact hb m k hm hlt hk
          · rw [hfound m hge hm'] at hk
            cases hk
  | some c =>
      obtain ⟨⟨hc₁, hc₂, hc₃⟩, hc⟩ := hfound
      cases best with
      | none =>
          refine ⟨⟨by omega, hc₂, hc₃⟩, ?_⟩
          intro m k hm hm' hk
          rcases Nat.lt_or_ge m middle with hlt | hge
          · rw [hbest m hm hlt] at hk
            cases hk
          · exact hc m k hge hm' hk
      | some b =>
          obtain ⟨⟨hb₁, hb₂, hb₃⟩, hb⟩ := hbest
          simp only [Option.elim_some, Candidate.better]
          split
          next hcheaper =>
            refine ⟨⟨by omega, hc₂, hc₃⟩, ?_⟩
            intro m k hm hm' hk
            rcases Nat.lt_or_ge m middle with hlt | hge
            · have := hb m k hm hlt hk
              omega
            · exact hc m k hge hm' hk
          next hdearer =>
            refine ⟨⟨hb₁, by omega, hb₃⟩, ?_⟩
            intro m k hm hm' hk
            rcases Nat.lt_or_ge m middle with hlt | hge
            · exact hb m k hm hlt hk
            · have := hc m k hge hm' hk
              omega

/-- A candidate that costs nothing stays the answer however far the range goes on. -/
theorem IsLeast.extend {c : Candidate} (h : IsLeast cost start middle (some c)) (hfree : c.cost = 0)
    (hle : middle ≤ stop) : IsLeast cost start stop (some c) := by
  obtain ⟨⟨hc₁, hc₂, hc₃⟩, hc⟩ := h
  refine ⟨⟨hc₁, by omega, hc₃⟩, ?_⟩
  intro m k hm hm' hk
  rcases Nat.lt_or_ge m middle with hlt | hge
  · exact hc m k hm hlt hk
  · omega

theorem IsLeast.unique (hbest : IsLeast cost start stop best) (hfound : IsLeast cost start stop found) :
    best = found := by
  cases best with
  | none =>
      cases found with
      | none => rfl
      | some c =>
          obtain ⟨⟨hc₁, hc₂, hc₃⟩, -⟩ := hfound
          rw [hbest c.mask hc₁ hc₂] at hc₃
          cases hc₃
  | some b =>
      obtain ⟨⟨hb₁, hb₂, hb₃⟩, hb⟩ := hbest
      cases found with
      | none =>
          rw [hfound b.mask hb₁ hb₂] at hb₃
          cases hb₃
      | some c =>
          obtain ⟨⟨hc₁, hc₂, hc₃⟩, hc⟩ := hfound
          have hbc := hb c.mask c.cost hc₁ hc₂ hc₃
          have hcb := hc b.mask b.cost hb₁ hb₂ hb₃
          have hcost : b.cost = c.cost := by omega
          have hmask : b.mask = c.mask := by omega
          cases b; cases c; simp_all

/-! ## The scan -/

/-- What costs nothing is preferred to anything that costs something. -/
theorem Candidate.better_free (mask : Nat) (hdear : ∀ c, best = some c → c.cost ≠ 0) :
    Candidate.better best ⟨0, mask⟩ = some ⟨0, mask⟩ := by
  cases best with
  | none => rfl
  | some b =>
      have hpos : 0 < b.cost := Nat.pos_of_ne_zero (hdear b rfl)
      simp only [Candidate.better, hpos, if_true]

/-- Once a dear candidate is joined, the answer is still dear. -/
theorem Candidate.better_dear {c : Candidate} (hc : c.cost ≠ 0) (hdear : ∀ c, best = some c → c.cost ≠ 0) :
    ∀ d, Candidate.better best c = some d → d.cost ≠ 0 := by
  intro d hd
  cases best with
  | none =>
      cases hd
      exact hc
  | some b =>
      simp only [Candidate.better] at hd
      split at hd
      · cases hd
        exact hc
      · cases hd
        exact hdear d rfl

/-- The scan goes on from what it owes for the numbers before; as long as it does, nothing costs zero. -/
theorem scan_isLeast (count mask : Nat) (hle : start ≤ mask) (hbest : IsLeast cost start mask best)
    (hdear : ∀ c, best = some c → c.cost ≠ 0) :
    IsLeast cost start (mask + count) (scan cost count mask best) := by
  induction count generalizing mask best with
  | zero => exact hbest
  | succ count ih =>
      have hnext := hbest.append (IsLeast.single mask) hle (Nat.le_succ mask)
      have hshift : mask + (count + 1) = mask + 1 + count := by omega
      unfold scan
      split
      next hmask =>
        rw [hmask] at hnext
        rw [hshift]
        exact ih (mask + 1) (by omega) hnext hdear
      next hmask =>
        rw [hmask] at hnext
        have hfree : IsLeast cost start (mask + 1) (some ⟨0, mask⟩) := by
          rw [← Candidate.better_free mask hdear]
          exact hnext
        exact hfree.extend rfl (by omega)
      next k hk hmask =>
        rw [hmask] at hnext
        rw [hshift]
        exact ih (mask + 1) (by omega) hnext (Candidate.better_dear hk hdear)

theorem searchRange_isLeast (start count : Nat) :
    IsLeast cost start (start + count) (searchRange cost start count) :=
  scan_isLeast count start (Nat.le_refl start) (.of_empty (Nat.le_refl start)) (by simp)

theorem scanChunks_isLeast (count middle : Nat) (hle : start ≤ middle) (hbest : IsLeast cost start middle best) :
    IsLeast cost start (middle + count * chunkSize) (scanChunks cost count middle best) := by
  induction count generalizing middle best with
  | zero => simpa [scanChunks] using hbest
  | succ count ih =>
      have hchunk : middle ≤ middle + chunkSize := Nat.le_add_right middle chunkSize
      have hshift : middle + (count + 1) * chunkSize = middle + chunkSize + count * chunkSize := by
        rw [Nat.succ_mul]; omega
      rw [hshift]
      unfold scanChunks
      split
      next hfree =>
        cases best with
        | none => cases hfree
        | some b =>
            have hcost : b.cost = 0 := by simpa [isFree] using hfree
            exact hbest.extend hcost (Nat.le_trans hchunk (Nat.le_add_right _ _))
      next =>
        have hnext := hbest.append (searchRange_isLeast middle chunkSize) hle hchunk
        exact ih _ (Nat.le_trans hle hchunk) hnext

/-- The chunks cover all numbers of the given digits. -/
theorem searchChunks_isLeast {bits : Nat} (h : chunkBits ≤ bits) :
    IsLeast cost 0 (2 ^ bits) (searchChunks cost bits) := by
  have hcover : 2 ^ bits = 0 + 1 <<< (bits - chunkBits) * chunkSize := by
    rw [chunkSize, Nat.one_shiftLeft, Nat.one_shiftLeft, ← Nat.pow_add, Nat.sub_add_cancel h, Nat.zero_add]
  rw [hcover]
  exact scanChunks_isLeast _ 0 (Nat.le_refl 0) (.of_empty (Nat.le_refl 0))

/-- Both ways to search give the first of the cheapest assignments. -/
theorem Problem.search_isLeast (p : Problem) (options : SolverOptions) :
    IsLeast p.maskCost? 0 (2 ^ p.free) (p.search options) := by
  unfold Problem.search
  split
  next h =>
    have hmany : chunkBits < p.free := by simp at h; exact h.2
    exact searchChunks_isLeast (Nat.le_of_lt hmany)
  next =>
    rw [Nat.one_shiftLeft]
    have h := @searchRange_isLeast p.maskCost? 0 (2 ^ p.free)
    rwa [Nat.zero_add] at h

end Orchestrator.Solver
