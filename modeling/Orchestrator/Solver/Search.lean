/-!
Exhaustive search over the numbers below a power of two, each of which has a cost or is infeasible. The answer is the
feasible number of least cost, and of several the least; nothing is cheaper than zero, so the first number of cost zero
ends the search.
-/

namespace Orchestrator.Solver

structure Candidate where
  cost : Nat
  mask : Nat
  deriving DecidableEq, Repr

/-- The cheaper of what is known and a later candidate; the earlier one on a tie. -/
def Candidate.better : Option Candidate → Candidate → Option Candidate
  | none, c => some c
  | some b, c => if c.cost < b.cost then some c else some b

/-- Goes through `count` numbers from `mask` on, keeping the best candidate so far. -/
def scan (cost : Nat → Option Nat) : (count mask : Nat) → Option Candidate → Option Candidate
  | 0, _, best => best
  | count + 1, mask, best =>
    match cost mask with
    | none => scan cost count (mask + 1) best
    | some 0 => some ⟨0, mask⟩
    | some c => scan cost count (mask + 1) (Candidate.better best ⟨c, mask⟩)

/-- The best of the numbers `start … start + count - 1`. -/
def searchRange (cost : Nat → Option Nat) (start count : Nat) : Option Candidate := scan cost count start none

/-- How many binary digits of a number vary within one chunk. -/
def chunkBits : Nat := 10

def chunkSize : Nat := 1 <<< chunkBits

def isFree : Option Candidate → Bool
  | some c => c.cost == 0
  | none => false

/-- Goes through `count` chunks from `start` on and joins their answers; a chunk behind a number of cost zero cannot
win and is left out. -/
def scanChunks (cost : Nat → Option Nat) : (count start : Nat) → Option Candidate → Option Candidate
  | 0, _, best => best
  | count + 1, start, best =>
    if isFree best then best
    else
      let found := searchRange cost start chunkSize
      scanChunks cost count (start + chunkSize) (found.elim best (Candidate.better best))

/-- The search split into chunks; it needs more than `chunkBits` digits. -/
def searchChunks (cost : Nat → Option Nat) (bits : Nat) : Option Candidate :=
  scanChunks cost (1 <<< (bits - chunkBits)) 0 none

end Orchestrator.Solver
