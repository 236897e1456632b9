import Mathlib.Algebra.BigOperators.Group.List.Basic
import Mathlib.Algebra.Ring.Int.Defs
import SwanRuntime.Fibers.Pool
import SwanRuntime.Library.Transition

/-!
# The accounts of the fiber pools

A global pool with any number of children, which can be made and destroyed. The
totals of the pools should together count the fibers that there are, so that what
is left of the quota can be used.

When a child is destroyed, the fibers for which the global pool has no room are
freed after the surplus has been passed on, and none of it is passed on when the
global pool is full. This part of the quota is gone.

## Results

* `Sound.step`           — a step keeps the pools sound; how far the totals and the
  number of fibers come apart.
* `fiberPools_exact_iff` — when the totals are exact.
-/

namespace SwanRuntime.Fibers

-- ---------------------------------------------------------------------------
-- The system
-- ---------------------------------------------------------------------------

/-- The global pool, the children that have not been destroyed, and the fibers in
use. -/
structure State where
  root     : FiberPool
  children : List FiberPool
  inUse    : List Fiber

/-- A pointer to a pool. -/
inductive PoolRef
  | null
  | root
  | child (i : Nat)
deriving DecidableEq, Repr

/-- A call, with what the heap gives to the pool and to its parent. -/
inductive Event
  | makeChild (maxSize : Nat)
  | allocate (pool : PoolRef) (heap parentHeap : Option Fiber)
  | removeReference (fiber : Fiber) (pool : PoolRef)
  | destroy (i : Nat)
deriving DecidableEq, Repr

/-- All fibers that exist. -/
def State.live (s : State) : List Fiber :=
  s.inUse ++ (s.root.fibers ++ s.children.flatMap (·.fibers))

/-- The heap gives a fiber that does not exist yet. -/
def State.Fresh (s : State) (heap : Option Fiber) : Prop := ∀ f ∈ heap, f ∉ s.live

/-- A call leads from one state to another. -/
def Step (s : State) : Event → State → Prop
  | .makeChild maxSize, t =>
    1 ≤ maxSize ∧ t = { s with children := s.children ++ [.init maxSize 0] }
  | .allocate .null _ _, _ => False
  | .allocate .root heap _, t =>
    s.Fresh heap ∧ t = { s with
      root := (s.root.allocate heap).2
      inUse := (s.root.allocate heap).1.toList ++ s.inUse }
  | .allocate (.child i) heap parentHeap, t =>
    s.Fresh heap ∧ s.Fresh parentHeap ∧ ∃ before pool after,
      s.children = before ++ pool :: after ∧ before.length = i ∧
      match pool.allocate heap with
      | (some fiber, pool) =>
        t = { s with children := before ++ pool :: after, inUse := fiber :: s.inUse }
      | (none, pool) =>
        t = ⟨(s.root.allocate parentHeap).2, before ++ pool :: after,
          (s.root.allocate parentHeap).1.toList ++ s.inUse⟩
  | .removeReference fiber .null, t =>
    fiber ∈ s.inUse ∧ t = { s with inUse := s.inUse.erase fiber }
  | .removeReference fiber .root, t =>
    fiber ∈ s.inUse ∧ ∃ pool freed, s.root.deallocateSelf fiber = .ok (pool, freed) ∧
      t = { s with root := pool, inUse := s.inUse.erase fiber }
  | .removeReference fiber (.child i), t =>
    fiber ∈ s.inUse ∧ ∃ before pool after, s.children = before ++ pool :: after ∧
      before.length = i ∧ ∃ pool' root freed,
        pool.deallocateSelfChild s.root fiber = .ok (pool', root, freed) ∧
        t = ⟨root, before ++ pool' :: after, s.inUse.erase fiber⟩
  | .destroy i, t =>
    ∃ before pool after, s.children = before ++ pool :: after ∧ before.length = i ∧
      ∃ pool' root freed, pool.destroy s.root = .ok (pool', root, freed) ∧
        t = { s with root := root, children := before ++ after }

/-- A global pool with limit `allocMax`, and children of any sizes. -/
def system (allocMax : Int) : LTS State Event where
  init s := ∃ (rootSize : Nat) (sizes : List Nat), 1 ≤ rootSize ∧ (∀ n ∈ sizes, 1 ≤ n) ∧
    s = ⟨.init rootSize allocMax, sizes.map (.init · 0), []⟩
  step := Step

-- ---------------------------------------------------------------------------
-- The property
-- ---------------------------------------------------------------------------

/-- The totals of the pools together. -/
def State.totals (s : State) : Int := s.root.total + (s.children.map (·.total)).sum

/-- No fiber is in two places, the pools keep their sizes, and the totals keep the
limit. -/
structure Sound (allocMax : Int) (s : State) : Prop where
  nodup    : s.live.Nodup
  root     : s.root.Fits ∧ s.root.allocMax = allocMax ∧ s.root.total ≤ allocMax
  children : ∀ pool ∈ s.children, pool.Fits ∧ pool.allocMax = 0 ∧ pool.total ≤ 0
  quota    : (s.live.length : Int) ≤ s.totals

/-- The totals also count the fibers that there are, so that no quota is lost. -/
structure Exact (allocMax : Int) (s : State) : Prop extends Sound allocMax s where
  exact : s.totals = s.live.length

/-- Every fiber that is given back goes to a pool, and a child is destroyed when
the global pool has room for all its fibers, or when it has no fibers and no
surplus. -/
def Keeps (s : State) : Event → Prop
  | .removeReference _ .null => False
  | .destroy i => ∀ pool, s.children[i]? = some pool →
    s.root.size < s.root.maxSize ∧ pool.size + s.root.size ≤ s.root.maxSize ∨
      pool.size = 0 ∧ pool.total = 0
  | _ => True

-- ---------------------------------------------------------------------------
-- One step
-- ---------------------------------------------------------------------------

/-- By how much the totals exceed the number of fibers. -/
def State.lost (s : State) : Int := s.totals - s.live.length

section Step

variable {allocMax : Int} {s t : State}

/-- Fibers `new` appear and `freed` disappear, and the totals change by as much
and by `lost` more. -/
theorem Sound.of_perm (h : Sound allocMax s) (t : State) (new freed : List Fiber) (lost : Int)
    (hnew : (new ++ s.live).Nodup) (hperm : (freed ++ t.live).Perm (new ++ s.live))
    (hroot : s.root.Same t.root ∧ t.root.total ≤ allocMax)
    (hchildren : ∀ pool ∈ t.children, pool.Fits ∧ pool.allocMax = 0 ∧ pool.total ≤ 0)
    (htotals : t.totals = s.totals + new.length - freed.length + lost) (hlost : 0 ≤ lost) :
    Sound allocMax t ∧ t.lost = s.lost + lost := by
  have hlen := hperm.length_eq
  rw [List.length_append, List.length_append] at hlen
  have hquota := h.quota
  refine ⟨⟨(hperm.nodup_iff.mpr hnew).of_append_right,
    ⟨hroot.1.fits, hroot.1.allocMax.trans h.root.2.1, hroot.2⟩, hchildren, ?_⟩, ?_⟩
  · omega
  · unfold State.lost
    omega

theorem Sound.fresh (h : Sound allocMax s) {fiber : Fiber} (hfresh : fiber ∉ s.live) :
    ([fiber] ++ s.live).Nodup := by
  rw [List.singleton_append, List.nodup_cons]
  exact ⟨hfresh, h.nodup⟩

/-- The fibers of the children, one of which has been picked out. -/
theorem live_perm (inUse rootFibers : List Fiber) (before after : List FiberPool)
    (pool : FiberPool) :
    (inUse ++ (rootFibers ++ (before ++ pool :: after).flatMap (·.fibers))).Perm
      (inUse ++ (pool.fibers ++ rootFibers ++ (before ++ after).flatMap (·.fibers))) := by
  refine List.Perm.append_left _ ?_
  simp only [List.flatMap_append, List.flatMap_cons, List.append_assoc]
  have hswap := List.perm_append_comm_assoc (before.flatMap (·.fibers)) pool.fibers
    (after.flatMap (·.fibers))
  exact (List.Perm.append_left rootFibers hswap).trans (List.perm_append_comm_assoc _ _ _)

theorem totals_eq (root : FiberPool) (inUse : List Fiber) (before after : List FiberPool)
    (pool : FiberPool) : (State.mk root (before ++ pool :: after) inUse).totals =
      pool.total + root.total + ((before ++ after).map (·.total)).sum := by
  simp only [State.totals, List.map_append, List.map_cons, List.sum_append, List.sum_cons]
  omega

theorem Sound.childrenOf (h : Sound allocMax s) {before after : List FiberPool} {pool : FiberPool}
    (hs : s.children = before ++ pool :: after) :
    (pool.Fits ∧ pool.allocMax = 0 ∧ pool.total ≤ 0) ∧
      ∀ p ∈ before ++ after, p.Fits ∧ p.allocMax = 0 ∧ p.total ≤ 0 := by
  refine ⟨h.children pool (by simp [hs]), fun p hp => h.children p ?_⟩
  rw [hs]
  rcases List.mem_append.mp hp with hp | hp
  · exact List.mem_append_left _ hp
  · exact List.mem_append_right _ (List.mem_cons_of_mem _ hp)

theorem forall_children {P : FiberPool → Prop} {before after : List FiberPool} {pool : FiberPool}
    (hpool : P pool) (hothers : ∀ p ∈ before ++ after, P p) :
    ∀ p ∈ before ++ pool :: after, P p := by
  intro p hp
  simp only [List.mem_append, List.mem_cons] at hp hothers
  rcases hp with hp | rfl | hp
  · exact hothers p (Or.inl hp)
  · exact hpool
  · exact hothers p (Or.inr hp)

/-- An allocation from the global pool. -/
theorem Sound.allocateRoot (h : Sound allocMax s) (heap : Option Fiber) (hfresh : s.Fresh heap) :
    let t : State := { s with
      root := (s.root.allocate heap).2
      inUse := (s.root.allocate heap).1.toList ++ s.inUse }
    Sound allocMax t ∧ t.lost = s.lost := by
  intro t
  obtain ⟨⟨hpos, hsize⟩, hmax, htotal⟩ := h.root
  obtain ⟨hmax', halloc, hcases⟩ := s.root.allocate_cases heap
  rcases hcases with ⟨fiber, hout, hfibers, htot⟩ | ⟨fiber, hout, hheap, hfibers, htot, hlt⟩ |
    ⟨hout, hfibers, htot⟩
  · -- a fiber of the pool
    have hlive : t.live.Perm s.live := by
      show (((s.root.allocate heap).1.toList ++ s.inUse) ++
        ((s.root.allocate heap).2.fibers ++ _)).Perm (s.inUse ++ (s.root.fibers ++ _))
      rw [hout, hfibers]
      exact List.perm_middle.symm
    have hfits : (s.root.allocate heap).2.Fits := by
      refine ⟨hmax' ▸ hpos, ?_⟩
      rw [FiberPool.size, hfibers, List.length_cons] at hsize
      rw [hmax', FiberPool.size]
      omega
    have hall := h.of_perm t [] [] 0 h.nodup hlive
      ⟨⟨hmax', halloc, hfits⟩, htot ▸ htotal⟩ h.children (by
        simp [State.totals, t, htot]) (Int.le_refl 0)
    exact ⟨hall.1, hall.2.trans (Int.add_zero _)⟩
  · -- a fiber from the heap
    have hlive : t.live = [fiber] ++ s.live := by
      show ((s.root.allocate heap).1.toList ++ s.inUse) ++
        ((s.root.allocate heap).2.fibers ++ _) = [fiber] ++ (s.inUse ++ (s.root.fibers ++ _))
      rw [hout, hfibers]
      rfl
    have hfits : (s.root.allocate heap).2.Fits := by
      refine ⟨hmax' ▸ hpos, ?_⟩
      rw [hmax', FiberPool.size, hfibers]
      exact hsize
    have hall := h.of_perm t [fiber] [] 0
      (h.fresh (hfresh fiber hheap)) (List.Perm.of_eq hlive)
      ⟨⟨hmax', halloc, hfits⟩, by show (s.root.allocate heap).2.total ≤ _; omega⟩ h.children (by
        simp only [State.totals, t, htot, List.length_singleton, List.length_nil]
        omega) (Int.le_refl 0)
    exact ⟨hall.1, hall.2.trans (Int.add_zero _)⟩
  · -- none
    have hlive : t.live = s.live := by
      show ((s.root.allocate heap).1.toList ++ s.inUse) ++
        ((s.root.allocate heap).2.fibers ++ _) = s.inUse ++ (s.root.fibers ++ _)
      rw [hout, hfibers]
      rfl
    have hfits : (s.root.allocate heap).2.Fits := by
      refine ⟨hmax' ▸ hpos, ?_⟩
      rw [hmax', FiberPool.size, hfibers]
      exact hsize
    have hall := h.of_perm t [] [] 0 h.nodup
      (List.Perm.of_eq hlive) ⟨⟨hmax', halloc, hfits⟩, htot ▸ htotal⟩ h.children (by
        simp [State.totals, t, htot]) (Int.le_refl 0)
    exact ⟨hall.1, hall.2.trans (Int.add_zero _)⟩

/-- A child, the global pool and the fibers in use change. -/
theorem Sound.replaceChild (h : Sound allocMax s) {before after : List FiberPool}
    {pool : FiberPool} (hs : s.children = before ++ pool :: after) (pool' root' : FiberPool)
    (inUse' new freed : List Fiber) (hnew : (new ++ s.live).Nodup)
    (hperm : (freed ++ (inUse' ++ (pool'.fibers ++ root'.fibers))).Perm
      (new ++ (s.inUse ++ (pool.fibers ++ s.root.fibers))))
    (hroot : s.root.Same root' ∧ root'.total ≤ allocMax)
    (hpool : pool'.Fits ∧ pool'.allocMax = 0 ∧ pool'.total ≤ 0)
    (htotals : pool'.total + root'.total =
      pool.total + s.root.total + new.length - freed.length) :
    let t : State := ⟨root', before ++ pool' :: after, inUse'⟩
    Sound allocMax t ∧ t.lost = s.lost := by
  intro t
  have hlive : s.live.Perm
      (s.inUse ++ (pool.fibers ++ s.root.fibers ++ (before ++ after).flatMap (·.fibers))) := by
    unfold State.live
    rw [hs]
    exact live_perm _ _ _ _ _
  have hlive' : t.live.Perm
      (inUse' ++ (pool'.fibers ++ root'.fibers ++ (before ++ after).flatMap (·.fibers))) :=
    live_perm _ _ _ _ _
  have hall : (freed ++ t.live).Perm (new ++ s.live) := by
    refine (hlive'.append_left freed).trans (List.Perm.trans ?_ (hlive.append_left new).symm)
    have hrest := hperm.append_right ((before ++ after).flatMap (·.fibers))
    simp only [List.append_assoc] at hrest ⊢
    exact hrest
  obtain ⟨-, hothers⟩ := h.childrenOf hs
  have htotal : s.totals = pool.total + s.root.total + ((before ++ after).map (·.total)).sum := by
    rw [← totals_eq s.root s.inUse, ← hs]
  have hres := h.of_perm t new freed 0 hnew hall hroot (forall_children hpool hothers) (by
    rw [totals_eq, htotal]
    omega) (Int.le_refl 0)
  exact ⟨hres.1, hres.2.trans (Int.add_zero _)⟩

theorem FiberPool.Same.refl {pool : FiberPool} (h : pool.Fits) : pool.Same pool := ⟨rfl, rfl, h⟩

/-- An allocation from a child, or from the global pool when that fails. -/
theorem Sound.allocateChild (h : Sound allocMax s) {before after : List FiberPool}
    {pool : FiberPool} (hs : s.children = before ++ pool :: after) {heap parentHeap : Option Fiber}
    (hfresh : s.Fresh heap) (hfresh' : s.Fresh parentHeap)
    (ht : match pool.allocate heap with
      | (some fiber, pool) =>
        t = { s with children := before ++ pool :: after, inUse := fiber :: s.inUse }
      | (none, pool) =>
        t = ⟨(s.root.allocate parentHeap).2, before ++ pool :: after,
          (s.root.allocate parentHeap).1.toList ++ s.inUse⟩) :
    Sound allocMax t ∧ t.lost = s.lost := by
  obtain ⟨⟨⟨hpos, hsize⟩, hmax, htotal⟩, -⟩ := h.childrenOf hs
  have hroot : s.root.Same s.root ∧ s.root.total ≤ allocMax := ⟨.refl h.root.1, h.root.2.2⟩
  obtain ⟨hmax', halloc, hcases⟩ := pool.allocate_cases heap
  generalize pool.allocate heap = out at ht hmax' halloc hcases
  obtain ⟨fiber?, pool'⟩ := out
  dsimp only at hmax' halloc hcases
  rcases hcases with ⟨fiber, rfl, hfibers, htot⟩ | ⟨fiber, rfl, hheap, hfibers, htot, hlt⟩ |
    ⟨rfl, hfibers, htot⟩
  · -- a fiber of the pool
    obtain rfl := ht
    have hfits : pool'.Fits := by
      refine ⟨hmax' ▸ hpos, ?_⟩
      rw [FiberPool.size, hfibers, List.length_cons] at hsize
      rw [hmax', FiberPool.size]
      omega
    refine h.replaceChild hs pool' s.root (fiber :: s.inUse) [] [] h.nodup ?_ hroot
      ⟨hfits, halloc.trans hmax, htot ▸ htotal⟩ ?_
    · rw [hfibers]
      exact List.perm_middle.symm
    · simp [htot]
  · -- a fiber from the heap
    obtain rfl := ht
    have hfits : pool'.Fits := by
      refine ⟨hmax' ▸ hpos, ?_⟩
      rw [hmax', FiberPool.size, hfibers]
      exact hsize
    refine h.replaceChild hs pool' s.root (fiber :: s.inUse) [fiber] []
      (h.fresh (hfresh fiber hheap)) ?_ hroot ⟨hfits, halloc.trans hmax, by omega⟩ ?_
    · rw [hfibers]
      exact List.Perm.refl _
    · rw [htot, List.length_singleton, List.length_nil]
      omega
  · -- none, and the global pool is asked
    obtain rfl := ht
    have hfits : pool'.Fits := by
      refine ⟨hmax' ▸ hpos, ?_⟩
      rw [hmax', FiberPool.size, hfibers]
      exact hsize
    obtain ⟨hmid, hlost⟩ := h.replaceChild hs pool' s.root s.inUse [] [] h.nodup
      (by rw [hfibers]) hroot
      ⟨hfits, halloc.trans hmax, htot ▸ htotal⟩ (by simp [htot])
    have hlive : (State.mk s.root (before ++ pool' :: after) s.inUse).live = s.live := by
      simp only [State.live, hs, List.flatMap_append, List.flatMap_cons, hfibers]
    obtain ⟨hres, hlost'⟩ := hmid.allocateRoot parentHeap fun f hf => by
      rw [hlive]
      exact hfresh' f hf
    exact ⟨hres, hlost'.trans hlost⟩

/-- A fiber in use is given up. -/
theorem live_perm_of_mem {fiber : Fiber} (hfiber : fiber ∈ s.inUse) :
    s.live.Perm (fiber :: (s.inUse.erase fiber ++
      (s.root.fibers ++ s.children.flatMap (·.fibers)))) :=
  (List.perm_cons_erase hfiber).append_right _

/-- A new child has no fibers and counts none. -/
theorem Sound.makeChild (h : Sound allocMax s) {maxSize : Nat} (hpos : 0 < maxSize) :
    let t : State := { s with children := s.children ++ [.init maxSize 0] }
    Sound allocMax t ∧ t.lost = s.lost := by
  have hres := h.of_perm { s with children := s.children ++ [.init maxSize 0] } [] [] 0 h.nodup
    (List.Perm.of_eq (by simp [State.live, FiberPool.init])) ⟨.refl h.root.1, h.root.2.2⟩
    (fun p hp => by
      rcases List.mem_append.mp hp with hp | hp
      · exact h.children p hp
      · rw [List.mem_singleton.mp hp]
        exact ⟨⟨hpos, Nat.zero_le _⟩, rfl, Int.le_refl 0⟩)
    (by simp [State.totals, FiberPool.init]) (Int.le_refl 0)
  exact ⟨hres.1, hres.2.trans (Int.add_zero _)⟩

/-- A fiber that goes back without a pool is freed, and no total counts that. -/
theorem Sound.removeNull (h : Sound allocMax s) {fiber : Fiber} (hfiber : fiber ∈ s.inUse) :
    let t : State := { s with inUse := s.inUse.erase fiber }
    Sound allocMax t ∧ t.lost = s.lost + 1 :=
  h.of_perm { s with inUse := s.inUse.erase fiber } [] [fiber] 1 h.nodup
    (live_perm_of_mem hfiber).symm ⟨.refl h.root.1, h.root.2.2⟩ h.children
    (by simp [State.totals]) (by decide)

/-- A fiber goes back to the global pool. -/
theorem Sound.removeRoot (h : Sound allocMax s) {fiber : Fiber} (hfiber : fiber ∈ s.inUse)
    {pool : FiberPool} {freed : List Fiber}
    (hrun : s.root.deallocateSelf fiber = .ok (pool, freed)) :
    let t : State := ⟨pool, s.children, s.inUse.erase fiber⟩
    Sound allocMax t ∧ t.lost = s.lost := by
  obtain ⟨pool', freed', hrun', hperm, hsame, htotal⟩ := s.root.deallocateSelf_ok fiber h.root.1
  obtain ⟨rfl, rfl⟩ := Prod.mk.inj (Except.ok.inj (hrun.symm.trans hrun'))
  -- what the pool keeps and what it frees are its fibers and the one that came back
  have hlive : (freed ++ State.live ⟨pool, s.children, s.inUse.erase fiber⟩).Perm s.live := by
    refine List.Perm.trans ?_ (live_perm_of_mem hfiber).symm
    have hmid := hperm.append_right (s.children.flatMap (·.fibers))
    have hall := hmid.append_left (s.inUse.erase fiber)
    simp only [State.live, List.cons_append, List.append_assoc] at hall ⊢
    exact (List.perm_append_comm_assoc _ _ _).trans (hall.trans List.perm_middle)
  have hbound := h.root.2.2
  have hres := h.of_perm ⟨pool, s.children, s.inUse.erase fiber⟩ [] freed 0 h.nodup hlive
    ⟨hsame, by show pool.total ≤ allocMax; omega⟩ h.children
    (by simp only [State.totals, htotal, List.length_nil]; omega) (Int.le_refl 0)
  exact ⟨hres.1, hres.2.trans (Int.add_zero _)⟩

/-- A fiber goes back to a child, which may hand fibers on to the global pool. -/
theorem Sound.removeChild (h : Sound allocMax s) {fiber : Fiber} (hfiber : fiber ∈ s.inUse)
    {before after : List FiberPool} {pool pool' root : FiberPool} {freed : List Fiber}
    (hs : s.children = before ++ pool :: after)
    (hrun : pool.deallocateSelfChild s.root fiber = .ok (pool', root, freed)) :
    let t : State := ⟨root, before ++ pool' :: after, s.inUse.erase fiber⟩
    Sound allocMax t ∧ t.lost = s.lost := by
  obtain ⟨⟨hfits, hmax, htotal⟩, -⟩ := h.childrenOf hs
  obtain ⟨pool'', root', freed', hrun', hperm, hfrees⟩ :=
    pool.deallocateSelfChild_ok s.root fiber hfits h.root.1 htotal
  obtain ⟨rfl, heq⟩ := Prod.mk.inj (Except.ok.inj (hrun.symm.trans hrun'))
  obtain ⟨rfl, rfl⟩ := Prod.mk.inj heq
  have hbound := h.root.2.2
  have hle := hfrees.le
  have hsum := hfrees.sum
  refine h.replaceChild hs pool' root (s.inUse.erase fiber) [] freed h.nodup ?_
    ⟨hfrees.same.2, by omega⟩ ⟨hfrees.same.1.fits, hfrees.same.1.allocMax.trans hmax,
      hfrees.child⟩ (by rw [List.length_nil]; omega)
  refine (List.perm_append_comm_assoc _ _ _).trans ?_
  refine (hperm.append_left _).trans (List.perm_middle.trans ?_)
  exact ((List.perm_cons_erase hfiber).append_right _).symm

/-- Destroying a child keeps the distance iff the total that the child is left with
is zero. It is never positive. -/
theorem Sound.destroy (h : Sound allocMax s) {i : Nat} {before after : List FiberPool}
    {pool pool' root : FiberPool} {freed : List Fiber}
    (hs : s.children = before ++ pool :: after) (hi : before.length = i)
    (hrun : pool.destroy s.root = .ok (pool', root, freed)) :
    let t : State := { s with root := root, children := before ++ after }
    Sound allocMax t ∧ t.lost = s.lost - pool'.total ∧ pool'.total ≤ 0 ∧
      (Keeps s (.destroy i) ↔ pool'.total = 0) := by
  intro t
  obtain ⟨⟨hfits, hmax, htotal⟩, hothers⟩ := h.childrenOf hs
  obtain ⟨pool'', root', freed', hrun', hperm, hsame, hsum, hle, hgone⟩ :=
    pool.destroy_ok s.root h.root.1 htotal
  obtain ⟨rfl, heq⟩ := Prod.mk.inj (Except.ok.inj (hrun.symm.trans hrun'))
  obtain ⟨rfl, rfl⟩ := Prod.mk.inj heq
  have hlive : (freed ++ t.live).Perm s.live := by
    have hs' : s.live.Perm (s.inUse ++
        (pool.fibers ++ s.root.fibers ++ (before ++ after).flatMap (·.fibers))) := by
      unfold State.live
      rw [hs]
      exact live_perm _ _ _ _ _
    refine List.Perm.trans ?_ hs'.symm
    have hall := (hperm.append_right ((before ++ after).flatMap (·.fibers))).append_left s.inUse
    simp only [State.live, t, List.append_assoc] at hall ⊢
    exact (List.perm_append_comm_assoc _ _ _).trans hall
  have htotals : s.totals = pool.total + s.root.total +
      ((before ++ after).map (·.total)).sum := by
    rw [← totals_eq s.root s.inUse, ← hs]
  have hbound := h.root.2.2
  have hneg : pool'.total ≤ 0 := by
    rw [hgone]
    split <;> omega
  -- the total of the child goes with it
  have hres := h.of_perm t [] freed (-pool'.total) h.nodup hlive
    ⟨hsame, by show root.total ≤ allocMax; omega⟩ hothers
    (by
      rw [htotals]
      simp only [State.totals, t, List.length_nil]
      omega) (by omega)
  have hget : s.children[i]? = some pool := by
    rw [hs, ← hi]
    simp
  have hiff : Keeps s (.destroy i) ↔ pool'.total = 0 := by
    have hsize := hfits.size
    constructor
    · intro hk
      have hcase := hk pool hget
      rw [hgone]
      split <;> omega
    · intro hzero p hp
      obtain rfl := Option.some.inj (hget.symm.trans hp)
      rw [hgone] at hzero
      split at hzero <;> omega
  exact ⟨hres.1, by rw [hres.2]; omega, hneg, hiff⟩

/-- What a step does to the totals: it keeps their distance to the number of
fibers iff it meets the condition, and else they come further apart. -/
theorem Sound.step (h : Sound allocMax s) {e : Event} (hstep : Step s e t) :
    Sound allocMax t ∧ (Keeps s e → t.lost = s.lost) ∧ (¬ Keeps s e → s.lost < t.lost) := by
  have hkeep : ∀ {t : State}, Sound allocMax t ∧ t.lost = s.lost → Keeps s e →
      Sound allocMax t ∧ (Keeps s e → t.lost = s.lost) ∧ (¬ Keeps s e → s.lost < t.lost) :=
    fun ht hk => ⟨ht.1, fun _ => ht.2, fun hnot => absurd hk hnot⟩
  cases e with
  | makeChild maxSize =>
    obtain ⟨hpos, rfl⟩ := hstep
    exact hkeep (h.makeChild hpos) trivial
  | allocate pool heap parentHeap =>
    refine hkeep ?_ trivial
    cases pool with
    | null => exact absurd hstep id
    | root =>
      obtain ⟨hfresh, rfl⟩ := hstep
      exact h.allocateRoot heap hfresh
    | child i =>
      obtain ⟨hfresh, hfresh', before, pool, after, hs, -, ht⟩ := hstep
      exact h.allocateChild hs hfresh hfresh' ht
  | removeReference fiber pool =>
    cases pool with
    | null =>
      obtain ⟨hfiber, rfl⟩ := hstep
      have hres := h.removeNull hfiber
      refine ⟨hres.1, fun hk => absurd hk id, fun _ => ?_⟩
      rw [hres.2]
      omega
    | root =>
      obtain ⟨hfiber, pool, freed, hrun, rfl⟩ := hstep
      exact hkeep (h.removeRoot hfiber hrun) trivial
    | child i =>
      obtain ⟨hfiber, before, pool, after, hs, -, pool', root, freed, hrun, rfl⟩ := hstep
      exact hkeep (h.removeChild hfiber hs hrun) trivial
  | destroy i =>
    obtain ⟨before, pool, after, hs, hi, pool', root, freed, hrun, rfl⟩ := hstep
    obtain ⟨hsound, hlost, hneg, hiff⟩ := h.destroy hs hi hrun
    refine ⟨hsound, fun hk => ?_, fun hnot => ?_⟩
    · rw [hlost, hiff.mp hk]
      omega
    · have hne : pool'.total ≠ 0 := fun hzero => hnot (hiff.mpr hzero)
      rw [hlost]
      omega

end Step

-- ---------------------------------------------------------------------------
-- Whole runs
-- ---------------------------------------------------------------------------

section Runs

variable {allocMax : Int} {s : State}

/-- The children together count none. -/
theorem Sound.count_le (h : Sound allocMax s) : (s.live.length : Int) ≤ allocMax := by
  have hsum : (s.children.map (·.total)).sum ≤ 0 := by
    have hchildren := h.children
    generalize s.children = pools at hchildren
    induction pools with
    | nil => exact Int.le_refl 0
    | cons pool pools ih =>
      have hpool := (hchildren pool List.mem_cons_self).2.2
      have hrest := ih fun p hp => hchildren p (List.mem_cons_of_mem _ hp)
      rw [List.map_cons, List.sum_cons]
      omega
  have hquota := h.quota
  have hroot := h.root.2.2
  unfold State.totals at hquota
  omega

theorem exact_of_init (hmax : 0 ≤ allocMax) (hinit : (system allocMax).init s) :
    Exact allocMax s := by
  obtain ⟨rootSize, sizes, hpos, hsizes, rfl⟩ := hinit
  have hlive : State.live ⟨.init rootSize allocMax, sizes.map (.init · 0), []⟩ = [] := by
    simp [State.live, FiberPool.init]
  have htotals : State.totals ⟨.init rootSize allocMax, sizes.map (.init · 0), []⟩ = 0 := by
    simp [State.totals, FiberPool.init, Function.comp_def]
  refine ⟨⟨?_, ⟨⟨hpos, Nat.zero_le _⟩, rfl, hmax⟩, fun pool hpool => ?_, ?_⟩, ?_⟩
  · rw [hlive]
    exact List.nodup_nil
  · obtain ⟨n, hn, rfl⟩ := List.mem_map.mp hpool
    exact ⟨⟨hsizes n hn, Nat.zero_le _⟩, rfl, Int.le_refl 0⟩
  · rw [hlive, htotals]
    exact Int.le_refl 0
  · rw [hlive, htotals]
    rfl

theorem Exact.lost_eq (h : Exact allocMax s) : s.lost = 0 := by
  unfold State.lost
  rw [h.exact]
  exact Int.sub_self _

theorem Sound.exact_of_lost (h : Sound allocMax s) (hlost : s.lost = 0) : Exact allocMax s :=
  ⟨h, Int.eq_of_sub_eq_zero hlost⟩

/-- In every run the pools are sound, and there are at most `allocMax` fibers. The
totals are exact throughout iff every step meets the condition. -/
theorem fiberPools_exact_iff (hmax : 0 ≤ allocMax) {tr : List (Event × State)}
    (hinit : (system allocMax).init s) (hpath : (system allocMax).IsPath s tr) :
    (∀ p ∈ tr, Sound allocMax p.2 ∧ (p.2.live.length : Int) ≤ allocMax) ∧
      ((∀ p ∈ tr, Exact allocMax p.2) ↔ LTS.AllSteps Keeps s tr) := by
  have hexact := exact_of_init hmax hinit
  constructor
  · intro p hp
    have hsound := LTS.invariant_along (P := Sound allocMax) (fun _ _ _ h hstep => (h.step hstep).1)
      hexact.toSound hpath p hp
    exact ⟨hsound, hsound.count_le⟩
  · refine LTS.forall_states_iff_steps (P := Exact allocMax) (fun _ h => h)
      (fun s e t h hstep hk => ?_) (fun s e t h hstep ht => ?_) hexact hpath
    · obtain ⟨hsound, hkeep, -⟩ := h.toSound.step hstep
      exact hsound.exact_of_lost ((hkeep hk).trans h.lost_eq)
    · obtain ⟨-, -, hless⟩ := h.toSound.step hstep
      by_contra hnot
      have hgone := hless hnot
      rw [h.lost_eq, ht.lost_eq] at hgone
      exact absurd hgone (Int.lt_irrefl 0)

end Runs

/-- A global pool of two places with a child of one place. -/
def exampleStart : State := ⟨.init 2 2, [.init 1 0], []⟩

/-- A fiber is allocated from the global pool, and another one through the child.
Both are given back to the child, which passes the first one on to its parent.
Then the child is destroyed. -/
def exampleRun : List (Event × State) :=
  [(.allocate .root (some 1) none, ⟨⟨2, [], 1, 1, 2⟩, [.init 1 0], [1]⟩),
    (.allocate (.child 0) none (some 2), ⟨⟨2, [], 2, 2, 2⟩, [.init 1 0], [2, 1]⟩),
    (.removeReference 1 (.child 0), ⟨⟨2, [], 2, 2, 2⟩, [⟨1, [1], 0, 0, 0⟩], [2]⟩),
    (.removeReference 2 (.child 0), ⟨⟨2, [1], 2, 2, 2⟩, [⟨1, [2], 0, 0, 0⟩], []⟩),
    (.destroy 0, ⟨⟨2, [2, 1], 2, 2, 2⟩, [], []⟩)]

theorem exampleRun_isPath : (system 2).IsPath exampleStart exampleRun := by
  refine ⟨⟨fun f _ => List.not_mem_nil, rfl⟩,
    ⟨fun f hf => absurd hf (by simp), fun f hf => ?_, [], _, [], rfl, rfl, rfl⟩,
    ⟨by decide, [], _, [], rfl, rfl, _, _, [], rfl, rfl⟩,
    ⟨by decide, [], ⟨1, [1], 0, 0, 0⟩, [], rfl, rfl, ⟨1, [2], 0, 0, 0⟩, ⟨2, [1], 2, 2, 2⟩, [], ?_, rfl⟩,
    ⟨[], ⟨1, [2], 0, 0, 0⟩, [], rfl, rfl, ⟨1, [], 0, 0, 0⟩, ⟨2, [2, 1], 2, 2, 2⟩, [], ?_, rfl⟩,
    trivial⟩
  · obtain rfl := Option.some.inj hf
    decide
  · show (FiberPool.freeFibersFromPool ⟨1, [], 0, 0, 0⟩ 0 (some 2) >>= fun _ => _) = _
    rw [FiberPool.freeFibersFromPool_ok _ _ (fun _ => Nat.one_pos)]
    rfl
  · show (FiberPool.freeFibersFromPool ⟨1, [], 0, 0, 0⟩ 0 none >>= fun _ => _) = _
    rw [FiberPool.freeFibersFromPool_ok _ _ (fun hnone => absurd rfl hnone)]
    rfl

theorem fiberPools_exact_iff_exampleRun :
    LTS.AllSteps Keeps exampleStart exampleRun ∧
      (∀ p ∈ exampleRun, Sound 2 p.2 ∧ (p.2.live.length : Int) ≤ 2) ∧
      ((∀ p ∈ exampleRun, Exact 2 p.2) ↔ LTS.AllSteps Keeps exampleStart exampleRun) := by
  refine ⟨⟨trivial, trivial, trivial, trivial, fun pool hpool => ?_, trivial⟩,
    fiberPools_exact_iff (by decide) ⟨2, [1], by decide, by decide, rfl⟩ exampleRun_isPath⟩
  obtain rfl := Option.some.inj hpool
  decide

/-- One fiber goes back to each of two pools of one place; when the child is
destroyed, its fiber is freed and stays counted. -/
theorem fiberPools_not_exact : ¬ ∀ (allocMax : Int) (s : State) (tr : List (Event × State)),
    0 ≤ allocMax → (system allocMax).init s → (system allocMax).IsPath s tr →
    ∀ p ∈ tr, Exact allocMax p.2 := by
  intro h
  let child : FiberPool := ⟨1, [], 0, 0, 0⟩
  let s₁ : State := ⟨⟨1, [], 1, 1, 2⟩, [child], [1]⟩
  let s₂ : State := ⟨⟨1, [], 2, 2, 2⟩, [child], [2, 1]⟩
  let s₃ : State := ⟨⟨1, [1], 2, 2, 2⟩, [child], [2]⟩
  let s₄ : State := ⟨⟨1, [1], 2, 2, 2⟩, [{ child with fibers := [2] }], []⟩
  let s₅ : State := ⟨⟨1, [1], 2, 2, 2⟩, [], []⟩
  have hpath : (system 2).IsPath ⟨.init 1 2, [.init 1 0], []⟩
      [(.allocate .root (some 1) none, s₁), (.allocate .root (some 2) none, s₂),
        (.removeReference 1 .root, s₃), (.removeReference 2 (.child 0), s₄),
        (.destroy 0, s₅)] := by
    refine ⟨⟨fun f hf => ?_, rfl⟩, ⟨fun f hf => ?_, rfl⟩, ⟨by decide, _, [], rfl, rfl⟩,
      ⟨by decide, [], child, [], rfl, rfl, _, _, [], rfl, rfl⟩,
      ⟨[], _, [], rfl, rfl, { child with total := -1 }, s₄.root, [2], ?_, rfl⟩, trivial⟩
    · exact List.not_mem_nil
    · obtain rfl := Option.some.inj hf
      decide
    · show (FiberPool.freeFibersFromPool { child with fibers := [2] } 0 none >>= fun _ => _) = _
      rw [FiberPool.freeFibersFromPool_ok _ _ (fun hnone => absurd rfl hnone)]
      rfl
  have hexact := h 2 _ _ (by decide) ⟨1, [1], by decide, by decide, rfl⟩ hpath (.destroy 0, s₅)
    (by simp)
  exact absurd hexact.exact (by decide)

end SwanRuntime.Fibers
