import Mathlib.Algebra.Group.Nat.Defs
import Mathlib.Data.List.Nodup
import SwanRuntime.Library.Checked

/-!
# Fiber pools

A worker has a pool of fibers, a child of the global pool. A pool counts in
`total` the fibers that it has got from the heap, less those that it has given
back. A child may not count above zero, so that the fibers are counted in the
global pool, whose limit is `alloc_max`. A child that has given back more than it
has got passes this surplus on when it moves fibers to the global pool.

The stacks, the owners of fibers and the locks are left out, and the counts of
references, which are compiled for one system only: elsewhere the first reference
removed is the last.

## Results

* `freeFibersFromPool_ok`, `moveFibersToParentPool_spec`  — the two loops.
* `deallocateSelf_ok`, `deallocateSelfChild_ok`, `destroy_ok`, `allocate_cases`
  — what the operations do to the pools.
-/

namespace SwanRuntime.Fibers

-- ---------------------------------------------------------------------------
-- The code
-- ---------------------------------------------------------------------------

abbrev Fiber := Nat

/-- `cilk_fiber_pool`: `fibers` are those in use of the array, the last one first. -/
structure FiberPool where
  maxSize   : Nat
  fibers    : List Fiber
  total     : Int
  highWater : Int
  allocMax  : Int
deriving DecidableEq, Repr

namespace FiberPool

def size (pool : FiberPool) : Nat := pool.fibers.length

/-- `cilk_fiber_pool_init`. -/
def init (bufferSize : Nat) (allocMax : Int) : FiberPool := ⟨bufferSize, [], 0, 0, allocMax⟩

/-- `increment_pool_total`. -/
def incrementTotal (pool : FiberPool) : FiberPool :=
  let pool := { pool with total := pool.total + 1 }
  if pool.highWater < pool.total then { pool with highWater := pool.total } else pool

/-- `decrement_pool_total`. -/
def decrementTotal (pool : FiberPool) (fibersFreed : Nat) : FiberPool :=
  { pool with total := pool.total - fibersFreed }

/-- `B`, the most fibers that are freed under one lock. -/
def batch : Nat := 10

/-- The fibers that one round frees, and the pool without them. -/
def takeBatch (pool : FiberPool) (numToKeep : Nat) : FiberPool × List Fiber :=
  let numToFree := min batch (pool.size - numToKeep)
  ({ pool with fibers := pool.fibers.drop numToFree }.decrementTotal numToFree,
    pool.fibers.take numToFree)

theorem takeBatch_size (pool : FiberPool) (numToKeep : Nat) :
    (pool.takeBatch numToKeep).1.size = pool.size - min batch (pool.size - numToKeep) :=
  List.length_drop

/-- `cilk_fiber_pool_free_fibers_from_pool`: the pool after it, and the fibers that
are freed. -/
def freeFibersFromPool (pool : FiberPool) (numToKeep : Nat) (fiberToReturn : Option Fiber) :
    Checked (FiberPool × List Fiber) :=
  if (pool.takeBatch numToKeep).1.size ≤ numToKeep then
    let (pool, freed) := pool.takeBatch numToKeep
    match fiberToReturn with
    | some fiber => do
      Checked.assert (pool.size < pool.maxSize) "pool->size < pool->max_size"
      return ({ pool with fibers := fiber :: pool.fibers }, freed)
    | none => return (pool, freed)
  else do
    let (rest, more) ← (pool.takeBatch numToKeep).1.freeFibersFromPool numToKeep fiberToReturn
    return (rest, (pool.takeBatch numToKeep).2 ++ more)
termination_by pool.size
decreasing_by
  rw [takeBatch_size] at *
  unfold batch at *
  omega

/-- The loop of `cilk_fiber_pool_move_fibers_to_parent_pool`, on the fibers of the
pool and of its parent. -/
def moveFibers (parentMax numToKeep : Nat) : List Fiber → List Fiber → List Fiber × List Fiber
  | [], parent => ([], parent)
  | fiber :: fibers, parent =>
    if parent.length < parentMax ∧ numToKeep < (fiber :: fibers).length then
      moveFibers parentMax numToKeep fibers (fiber :: parent)
    else
      (fiber :: fibers, parent)

/-- `cilk_fiber_pool_move_fibers_to_parent_pool`. -/
def moveFibersToParentPool (pool parent : FiberPool) (numToKeep : Nat) : FiberPool × FiberPool :=
  if parent.size ≥ parent.maxSize then
    (pool, parent)
  else
    let (fibers, parentFibers) :=
      moveFibers parent.maxSize numToKeep pool.fibers parent.fibers
    let pool := { pool with fibers := fibers }
    let parent := { parent with fibers := parentFibers }
    if pool.total < 0 then
      ({ pool with total := 0 }, { parent with total := parent.total + pool.total })
    else
      (pool, parent)

/-- The part of `cilk_fiber::allocate` in one pool, where `heap` is what the heap
gives: the fiber, and the pool after it. -/
def allocate (pool : FiberPool) (heap : Option Fiber) : Option Fiber × FiberPool :=
  match pool.fibers with
  | fiber :: fibers => (some fiber, { pool with fibers := fibers })
  | [] =>
    if pool.total < pool.allocMax then
      let pool := pool.incrementTotal
      match heap with
      | some fiber => (some fiber, pool)
      | none => (none, pool.decrementTotal 1)
    else
      (none, pool)

/-- One less, as an `unsigned`. -/
def lessOne (n : Nat) : Nat := if n = 0 then 2 ^ 32 - 1 else n - 1

/-- `cilk_fiber::deallocate_self` for the global pool. -/
def deallocateSelf (pool : FiberPool) (fiber : Fiber) : Checked (FiberPool × List Fiber) :=
  if pool.size < pool.maxSize then
    return ({ pool with fibers := fiber :: pool.fibers }, [])
  else
    pool.freeFibersFromPool (lessOne pool.maxSize) (some fiber)

/-- `cilk_fiber::deallocate_self` for a child: the child, its parent and the fibers
that are freed. -/
def deallocateSelfChild (pool parent : FiberPool) (fiber : Fiber) :
    Checked (FiberPool × FiberPool × List Fiber) :=
  if pool.size < pool.maxSize then
    return ({ pool with fibers := fiber :: pool.fibers }, parent, [])
  else do
    let numToKeep := pool.maxSize / 2 + pool.maxSize / 4
    let (pool, parent) := pool.moveFibersToParentPool parent numToKeep
    let (pool, freed) ← pool.freeFibersFromPool (lessOne pool.maxSize) (some fiber)
    return (pool, parent, freed)

/-- `cilk_fiber_pool_destroy` for a child: the pool before it is given up, its
parent and the fibers that are freed. -/
def destroy (pool parent : FiberPool) : Checked (FiberPool × FiberPool × List Fiber) := do
  let (pool, parent) := pool.moveFibersToParentPool parent 0
  let (pool, freed) ← pool.freeFibersFromPool 0 none
  return (pool, parent, freed)

end FiberPool

-- ---------------------------------------------------------------------------
-- The operations
-- ---------------------------------------------------------------------------

namespace FiberPool

/-- The rounds together free all fibers but `numToKeep`. -/
theorem freeFibersFromPool_ok (pool : FiberPool) (numToKeep : Nat) {fiberToReturn : Option Fiber}
    (hroom : fiberToReturn ≠ none → numToKeep < pool.maxSize) :
    pool.freeFibersFromPool numToKeep fiberToReturn = .ok
      ({ pool with
          fibers := fiberToReturn.toList ++ pool.fibers.drop (pool.size - numToKeep)
          total := pool.total - ((pool.size - numToKeep : Nat) : Int) },
        pool.fibers.take (pool.size - numToKeep)) := by
  induction hsize : pool.size using Nat.strongRecOn generalizing pool with
  | _ n ih =>
    subst hsize
    rw [freeFibersFromPool]
    have hbatch := takeBatch_size pool numToKeep
    by_cases hlast : (pool.takeBatch numToKeep).1.size ≤ numToKeep
    · -- the last round, with fewer than a batch
      have hnum : min batch (pool.size - numToKeep) = pool.size - numToKeep := by
        unfold batch at *
        omega
      rw [if_pos hlast]
      cases fiberToReturn with
      | none =>
        simp only [takeBatch, hnum, decrementTotal]
        rfl
      | some fiber =>
        have hlt : decide ((pool.takeBatch numToKeep).1.size < pool.maxSize) = true := by
          have hkeep := hroom nofun
          rw [decide_eq_true_eq]
          omega
        show (Checked.assert (decide ((pool.takeBatch numToKeep).1.size < pool.maxSize)) _ >>=
          fun _ => _) = _
        rw [hlt, Checked.assert_true, Checked.ok_bind]
        simp only [hnum, decrementTotal]
        rfl
    · -- a whole batch, and another round
      have hnum : min batch (pool.size - numToKeep) = batch := by
        unfold batch at *
        omega
      have hle : batch ≤ pool.size - numToKeep := by
        unfold batch at *
        omega
      have hless : (pool.takeBatch numToKeep).1.size < pool.size := by
        unfold batch at *
        omega
      have hrec := ih _ hless (pool.takeBatch numToKeep).1 hroom rfl
      have hrest : (pool.takeBatch numToKeep).1.size - numToKeep =
          pool.size - numToKeep - batch := by
        omega
      rw [if_neg hlast, hrec, Checked.ok_bind, hrest]
      simp only [takeBatch, hnum, decrementTotal, Checked.pure_eq, List.drop_drop]
      have hsum : batch + (pool.size - numToKeep - batch) = pool.size - numToKeep := by
        omega
      have htotal : pool.total - ((batch : Nat) : Int) -
          ((pool.size - numToKeep - batch : Nat) : Int) =
            pool.total - ((pool.size - numToKeep : Nat) : Int) := by
        omega
      rw [hsum, htotal, ← List.take_add, hsum]

/-- The loop moves as many fibers as there is room for, down to `numToKeep`. -/
theorem moveFibers_spec (parentMax numToKeep : Nat) (fibers parent : List Fiber) :
    let out := moveFibers parentMax numToKeep fibers parent
    (out.1 ++ out.2).Perm (fibers ++ parent) ∧
      out.1.length = fibers.length - min (fibers.length - numToKeep) (parentMax - parent.length) ∧
      out.2.length = parent.length +
        min (fibers.length - numToKeep) (parentMax - parent.length) := by
  induction fibers generalizing parent with
  | nil => exact ⟨List.Perm.refl _, by simp [moveFibers], by simp [moveFibers]⟩
  | cons fiber fibers ih =>
    unfold moveFibers
    by_cases hmove : parent.length < parentMax ∧ numToKeep < (fiber :: fibers).length
    · rw [if_pos hmove]
      obtain ⟨hperm, hlen, hlen'⟩ := ih (fiber :: parent)
      simp only [List.length_cons] at hmove hlen hlen' ⊢
      refine ⟨hperm.trans List.perm_middle, ?_, ?_⟩
      · rw [hlen]
        omega
      · rw [hlen']
        omega
    · rw [if_neg hmove]
      simp only [List.length_cons] at hmove ⊢
      refine ⟨List.Perm.refl _, ?_, ?_⟩ <;> omega

/-- Fibers move to the parent, and with them the surplus, unless the parent is
full. -/
theorem moveFibersToParentPool_spec (pool parent : FiberPool) (numToKeep : Nat)
    (hpool : pool.total ≤ 0) (hparent : parent.size ≤ parent.maxSize) :
    let out := pool.moveFibersToParentPool parent numToKeep
    (out.1.fibers ++ out.2.fibers).Perm (pool.fibers ++ parent.fibers) ∧
      out.1.maxSize = pool.maxSize ∧ out.1.allocMax = pool.allocMax ∧
      out.2.maxSize = parent.maxSize ∧ out.2.allocMax = parent.allocMax ∧
      out.1.size = pool.size - min (pool.size - numToKeep) (parent.maxSize - parent.size) ∧
      out.2.size ≤ parent.maxSize ∧
      out.1.total + out.2.total = pool.total + parent.total ∧
      out.1.total = (if parent.size < parent.maxSize then 0 else pool.total) := by
  unfold moveFibersToParentPool
  by_cases hfull : parent.size ≥ parent.maxSize
  · rw [if_pos hfull, if_neg (by omega)]
    refine ⟨List.Perm.refl _, rfl, rfl, rfl, rfl, ?_, hparent, rfl, rfl⟩
    show pool.size = _
    omega
  · rw [if_neg hfull, if_pos (by omega)]
    obtain ⟨hperm, hlen, hlen'⟩ := moveFibers_spec parent.maxSize numToKeep pool.fibers parent.fibers
    unfold size at *
    -- only a negative total is handed on
    by_cases hsurplus : pool.total < 0
    · dsimp only
      rw [if_pos hsurplus]
      refine ⟨hperm, rfl, rfl, rfl, rfl, hlen, ?_, ?_, rfl⟩
      · dsimp only
        omega
      · dsimp only
        omega
    · dsimp only
      rw [if_neg hsurplus]
      refine ⟨hperm, rfl, rfl, rfl, rfl, hlen, ?_, rfl, ?_⟩
      · dsimp only
        omega
      · dsimp only
        omega

/-- The size of a pool is within its limits. -/
structure Fits (pool : FiberPool) : Prop where
  pos  : 1 ≤ pool.maxSize
  size : pool.size ≤ pool.maxSize

/-- `pool'` is `pool` with other fibers and another total. -/
structure Same (pool pool' : FiberPool) : Prop where
  maxSize  : pool'.maxSize = pool.maxSize
  allocMax : pool'.allocMax = pool.allocMax
  fits     : pool'.Fits

theorem take_append_drop_perm (n : Nat) (fibers : List Fiber) (fiberToReturn : Option Fiber) :
    (fibers.take n ++ (fiberToReturn.toList ++ fibers.drop n)).Perm
      (fiberToReturn.toList ++ fibers) := by
  have hswap := List.perm_append_comm_assoc (fibers.take n) fiberToReturn.toList (fibers.drop n)
  rw [List.take_append_drop] at hswap
  exact hswap

theorem lessOne_of_pos {n : Nat} (h : 1 ≤ n) : lessOne n = n - 1 :=
  if_neg (Nat.ne_of_gt h)

/-- Taking a fiber back: one place is made for it when there is none. -/
theorem returnFiber_ok (pool : FiberPool) (fiber : Fiber) (h : pool.Fits) :
    ∃ pool' freed, pool.freeFibersFromPool (lessOne pool.maxSize) (some fiber) = .ok (pool', freed) ∧
      (freed ++ pool'.fibers).Perm (fiber :: pool.fibers) ∧ pool.Same pool' ∧
      pool'.total = pool.total - freed.length := by
  have hpos := h.pos
  rw [lessOne_of_pos hpos]
  refine ⟨_, _, freeFibersFromPool_ok pool (pool.maxSize - 1) (fun _ => by omega),
    take_append_drop_perm _ _ (some fiber), ⟨rfl, rfl, hpos, ?_⟩, ?_⟩
  · show (fiber :: pool.fibers.drop _).length ≤ pool.maxSize
    rw [List.length_cons, List.length_drop]
    unfold size
    omega
  · show pool.total - _ = _
    rw [List.length_take]
    unfold size
    omega

theorem deallocateSelf_ok (pool : FiberPool) (fiber : Fiber) (h : pool.Fits) :
    ∃ pool' freed, pool.deallocateSelf fiber = .ok (pool', freed) ∧
      (freed ++ pool'.fibers).Perm (fiber :: pool.fibers) ∧ pool.Same pool' ∧
      pool'.total = pool.total - freed.length := by
  unfold deallocateSelf
  by_cases hspace : pool.size < pool.maxSize
  · rw [if_pos hspace]
    exact ⟨_, _, rfl, List.Perm.refl _, ⟨rfl, rfl, h.pos, hspace⟩, (Int.sub_zero _).symm⟩
  · rw [if_neg hspace]
    exact returnFiber_ok pool fiber h

/-- Two pools, a child and its parent, after an operation that has freed `freed`. -/
structure Frees (pool parent pool' parent' : FiberPool) (freed : List Fiber) : Prop where
  same   : pool.Same pool' ∧ parent.Same parent'
  sum    : pool'.total + parent'.total = pool.total + parent.total - freed.length
  child  : pool'.total ≤ 0
  le     : parent'.total ≤ parent.total

theorem deallocateSelfChild_ok (pool parent : FiberPool) (fiber : Fiber) (h : pool.Fits)
    (hparent : parent.Fits) (htotal : pool.total ≤ 0) :
    ∃ pool' parent' freed,
      pool.deallocateSelfChild parent fiber = .ok (pool', parent', freed) ∧
      (freed ++ (pool'.fibers ++ parent'.fibers)).Perm (fiber :: (pool.fibers ++ parent.fibers)) ∧
      Frees pool parent pool' parent' freed := by
  unfold deallocateSelfChild
  by_cases hspace : pool.size < pool.maxSize
  · rw [if_pos hspace]
    exact ⟨_, _, _, rfl, List.Perm.refl _, ⟨⟨rfl, rfl, h.pos, hspace⟩, rfl, rfl, hparent⟩,
      (Int.sub_zero _).symm, htotal, Int.le_refl _⟩
  · rw [if_neg hspace]
    -- the pool is full: the parent takes a part, and the rest down to the bound is freed
    obtain ⟨hperm, hmax, halloc, hmax', halloc', hsize, hsize', hsum, hzero⟩ :=
      moveFibersToParentPool_spec pool parent (pool.maxSize / 2 + pool.maxSize / 4) htotal
        hparent.size
    dsimp only
    generalize pool.moveFibersToParentPool parent (pool.maxSize / 2 + pool.maxSize / 4) = moved
      at hperm hmax halloc hmax' halloc' hsize hsize' hsum hzero ⊢
    obtain ⟨pool₁, parent₁⟩ := moved
    dsimp only at *
    have hfits : pool₁.Fits := by
      refine ⟨hmax ▸ h.pos, ?_⟩
      have hle := h.size
      omega
    obtain ⟨pool', freed, hrun, hperm', hsame, htot⟩ := returnFiber_ok pool₁ fiber hfits
    have hlow : pool.total ≤ pool₁.total ∧ pool₁.total ≤ 0 := by
      rw [hzero]
      split <;> omega
    refine ⟨pool', parent₁, freed, ?_, ?_, ⟨⟨hsame.maxSize.trans hmax, hsame.allocMax.trans halloc,
      hsame.fits⟩, hmax', halloc', hmax' ▸ hparent.pos, hmax' ▸ hsize'⟩, ?_, ?_, ?_⟩
    · rw [hrun]
      rfl
    · rw [← List.append_assoc]
      exact (hperm'.append_right _).trans (hperm.cons fiber)
    · omega
    · omega
    · omega

/-- A child that is destroyed keeps no fiber, and its total is lost. -/
theorem destroy_ok (pool parent : FiberPool) (hparent : parent.Fits) (htotal : pool.total ≤ 0) :
    ∃ pool' parent' freed, pool.destroy parent = .ok (pool', parent', freed) ∧
      (freed ++ parent'.fibers).Perm (pool.fibers ++ parent.fibers) ∧ parent.Same parent' ∧
      pool'.total + parent'.total = pool.total + parent.total - freed.length ∧
      parent'.total ≤ parent.total ∧
      pool'.total = (if parent.size < parent.maxSize then 0 else pool.total) -
        ((pool.size - min pool.size (parent.maxSize - parent.size) : Nat) : Int) := by
  obtain ⟨hperm, hmax, halloc, hmax', halloc', hsize, hsize', hsum, hzero⟩ :=
    moveFibersToParentPool_spec pool parent 0 htotal hparent.size
  unfold destroy
  generalize pool.moveFibersToParentPool parent 0 = moved
    at hperm hmax halloc hmax' halloc' hsize hsize' hsum hzero ⊢
  obtain ⟨pool₁, parent₁⟩ := moved
  dsimp only at *
  have hlow : pool.total ≤ pool₁.total := by
    rw [hzero]
    split <;> omega
  -- what the parent has no room for is freed
  have hrun := @freeFibersFromPool_ok pool₁ 0 none (fun h => absurd rfl h)
  rw [hrun]
  refine ⟨_, parent₁, _, rfl, ?_, ⟨hmax', halloc', hmax' ▸ hparent.pos, hmax' ▸ hsize'⟩, ?_, ?_, ?_⟩
  · rw [Nat.sub_zero, show pool₁.size = pool₁.fibers.length from rfl, List.take_length]
    exact hperm
  · dsimp only
    rw [List.length_take]
    unfold size
    omega
  · omega
  · dsimp only
    rw [hzero, Nat.sub_zero, hsize, Nat.sub_zero]

/-- A pool that is asked for a fiber: it gives one of its own, one from the heap
that it counts, or none. -/
theorem allocate_cases (pool : FiberPool) (heap : Option Fiber) :
    let out := pool.allocate heap
    out.2.maxSize = pool.maxSize ∧ out.2.allocMax = pool.allocMax ∧
    ((∃ fiber, out.1 = some fiber ∧ pool.fibers = fiber :: out.2.fibers ∧
        out.2.total = pool.total) ∨
      (∃ fiber, out.1 = some fiber ∧ heap = some fiber ∧ out.2.fibers = pool.fibers ∧
        out.2.total = pool.total + 1 ∧ pool.total < pool.allocMax) ∨
      out.1 = none ∧ out.2.fibers = pool.fibers ∧ out.2.total = pool.total) := by
  have hinc : pool.incrementTotal.maxSize = pool.maxSize ∧
      pool.incrementTotal.allocMax = pool.allocMax ∧ pool.incrementTotal.fibers = pool.fibers ∧
      pool.incrementTotal.total = pool.total + 1 := by
    unfold incrementTotal
    dsimp only
    split <;> exact ⟨rfl, rfl, rfl, rfl⟩
  unfold allocate
  cases hfibers : pool.fibers with
  | cons fiber fibers => exact ⟨rfl, rfl, Or.inl ⟨fiber, rfl, rfl, rfl⟩⟩
  | nil =>
    dsimp only
    by_cases hlt : pool.total < pool.allocMax
    · rw [if_pos hlt]
      cases heap with
      | some fiber =>
        exact ⟨hinc.1, hinc.2.1, Or.inr (Or.inl ⟨fiber, rfl, rfl, hinc.2.2.1.trans hfibers,
          hinc.2.2.2, hlt⟩)⟩
      | none =>
        refine ⟨hinc.1, hinc.2.1, Or.inr (Or.inr ⟨rfl, hinc.2.2.1.trans hfibers, ?_⟩)⟩
        -- the count is taken back when `malloc` fails
        show pool.incrementTotal.total - 1 = pool.total
        rw [hinc.2.2.2]
        omega
    · rw [if_neg hlt]
      exact ⟨rfl, rfl, Or.inr (Or.inr ⟨rfl, hfibers, rfl⟩)⟩

end FiberPool

end SwanRuntime.Fibers
