import Mathlib.Logic.Function.Basic
import SwanRuntime.Fibers.Pool

/-!
# Fibers — running out of stacks

A fiber that comes from the heap is an object with a stack. When there is no memory
for the object, the pool undoes its count and its parent is asked. When there is none
for the stack, the object says so with null pointers, which nobody looks at: the
fiber is handed out, and a thief runs user code on it.

A worker's scheduling fiber comes from the heap as well. It is used before it is
compared with null.

## Results

* `allocate_none`, `allocate_some` — what the pools give.
* `runsOutOfStacks_iff`            — when running out of stacks loses parallelism only.
-/

namespace SwanRuntime.Fibers

-- ---------------------------------------------------------------------------
-- The code
-- ---------------------------------------------------------------------------

/-- `m_stack`, `m_stack_base` and `m_stack_max`; 0 is a null pointer. -/
structure FiberStack where
  stack : Nat
  base  : Nat
  max   : Nat
deriving DecidableEq, Repr

/-- `s_page_size`, which is not less than what a stack is aligned to. -/
abbrev PageSize := {n : Nat // 32 ≤ n}

/-- What the system gives to a request: memory for the object, and then, if it is
asked, memory for the stack. -/
structure HeapOutcome where
  malloc : Option Fiber
  mmap   : Option {p : Nat // 0 < p}

/-- The stacks of the fibers. -/
abbrev Stacks := Fiber → FiberStack

namespace FiberStack

/-- `make_stack`, where `m_stack_max` is not set when there is a stack. -/
def makeStack (page : PageSize) (stackSize : Nat) (mmap : Option {p : Nat // 0 < p}) :
    FiberStack :=
  let rounded :=
    if stackSize < 3 * page.val then 3 * page.val
    else if stackSize % page.val ≠ 0 then stackSize + (page.val - stackSize % page.val)
    else stackSize
  match mmap with
  | none => ⟨0, 0, 0⟩
  | some p => ⟨p.val, p.val + rounded - page.val, 0⟩

/-- The constructor of `cilk_fiber_sysdep`. -/
def construct (page : PageSize) (stackSize : Nat) (mmap : Option {p : Nat // 0 < p}) :
    FiberStack :=
  let made := makeStack page stackSize mmap
  let base := made.base - made.base % 32
  { made with base := base, max := base }

/-- There is a stack. -/
def Usable (stack : FiberStack) : Prop := stack.stack ≠ 0 ∧ stack.base ≠ 0 ∧ stack.max ≠ 0

end FiberStack

/-- `cilk_fiber::allocate_from_heap`. -/
def allocateFromHeap (page : PageSize) (stackSize : Nat) (stackOf : Stacks) (heap : HeapOutcome) :
    Option Fiber × Stacks :=
  match heap.malloc with
  | none => (none, stackOf)
  | some fiber =>
    (some fiber, Function.update stackOf fiber (FiberStack.construct page stackSize heap.mmap))

/-- `cilk_fiber::allocate` in a pool and its parents, each with what the system gives
to it: the fiber, the pools after it and the stacks. -/
def allocate (page : PageSize) (stackSize : Nat) (stackOf : Stacks) :
    List (FiberPool × HeapOutcome) → Option Fiber × List FiberPool × Stacks
  | [] => (none, [], stackOf)
  | (pool, heap) :: parents =>
    -- an empty pool goes to the heap
    let (fromHeap, stackOf') :=
      if pool.fibers = [] ∧ pool.total < pool.allocMax then
        allocateFromHeap page stackSize stackOf heap
      else (none, stackOf)
    match pool.allocate fromHeap with
    | (some fiber, pool) => (some fiber, pool :: parents.map Prod.fst, stackOf')
    | (none, pool) =>
      let (fiber, pools, stackOf') := allocate page stackSize stackOf' parents
      (fiber, pool :: pools, stackOf')

/-- How an attempt to steal goes on: the user has disabled stealing, the replay has
come to its end, the victim looks as if it had something, and it has. -/
structure StealAttempt where
  disabled  : Bool
  exhausted : Bool
  canSteal  : Bool
  success   : Bool

/-- The part of `random_steal` about the fiber: the fiber that user code will run on,
if something is stolen. -/
def randomSteal (attempt : StealAttempt) (fiber : Option Fiber) : Option Fiber :=
  if attempt.disabled then none
  else if attempt.exhausted then none
  else
    match fiber with
    | none => none
    | some fiber =>
      if ¬ attempt.canSteal then none
      else if attempt.success then some fiber else none

/-- The same part of `own_ready_list_steal`, which does not look at the log. -/
def ownReadyListSteal (attempt : StealAttempt) (fiber : Option Fiber) : Option Fiber :=
  randomSteal { attempt with exhausted := false } fiber

/-- A user worker: `self` is -1 if the global state does not know it, and
`stealable` says that the protected tail is at the limit of the queue. -/
structure UserWorker where
  self            : Int
  schedulingFiber : Option Fiber
  stealable       : Bool

/-- The part of `__cilkrts_bind_thread_1` about the scheduling fiber. A null fiber
that is touched ends the program. -/
def bindThread1 (page : PageSize) (stackSize : Nat) (stackOf : Stacks) (heap : HeapOutcome)
    (w : UserWorker) : Checked (UserWorker × Stacks) := do
  Checked.assert w.stealable "w->protected_tail == w->ltq_limit"
  let (w, stackOf) ←
    if w.schedulingFiber = none ∧ w.self ≥ 0 then
      match allocateFromHeap page stackSize stackOf heap with
      | (some fiber, stackOf) => pure ({ w with schedulingFiber := some fiber }, stackOf)
      -- `cilk_fiber_reset_state` and `cilk_fiber_set_owner` write to it
      | (none, _) => throw "null fiber"
    else pure (w, stackOf)
  -- `__cilkrts_disallow_stealing`
  return (if w.schedulingFiber = none then { w with stealable := false } else w, stackOf)

/-- The part of `__cilkrts_unbind_thread` about a worker that is kept. -/
def unbindThread (w : UserWorker) : UserWorker := w

-- ---------------------------------------------------------------------------
-- The property
-- ---------------------------------------------------------------------------

section Property

variable (page : PageSize) (stackSize : Nat) (stackOf : Stacks)

/-- There is no fiber, and all counts are as before, or a fiber with a stack. -/
def AllocateOk (chain : List (FiberPool × HeapOutcome)) : Prop :=
  match allocate page stackSize stackOf chain with
  | (none, pools, _) => pools.map FiberPool.total = chain.map (·.1.total)
  | (some fiber, _, stackOf) => (stackOf fiber).Usable

/-- User code runs on a fiber with a stack, however the attempt goes on. -/
def StealOk (chain : List (FiberPool × HeapOutcome)) : Prop :=
  match allocate page stackSize stackOf chain with
  | (got, _, stackOf) => ∀ attempt fiber,
    randomSteal attempt got = some fiber ∨ ownReadyListSteal attempt got = some fiber →
      (stackOf fiber).Usable

/-- There is memory for a fiber and for its stack. -/
def HeapOutcome.Succeeds (heap : HeapOutcome) : Prop := heap.malloc ≠ none ∧ heap.mmap ≠ none

/-- A worker that has no scheduling fiber and gets none with a stack is bound, nothing
is stolen from it, and if it is kept it can be bound again after that. -/
def BindOk (w : UserWorker) (heap : HeapOutcome) : Prop :=
  w.schedulingFiber = none → w.self < 0 ∨ ¬ heap.Succeeds →
    ∃ w' stackOf', bindThread1 page stackSize stackOf heap w = .ok (w', stackOf') ∧
      w'.stealable = false ∧
      (0 ≤ w.self → ∀ heap', heap'.Succeeds →
        ∃ out, bindThread1 page stackSize stackOf' heap' (unbindThread w') = .ok out)

end Property

/-- The pool has a fiber or gets memory for one. -/
def gives (e : FiberPool × HeapOutcome) : Bool :=
  e.1.fibers ≠ [] ∨ e.1.total < e.1.allocMax ∧ e.2.malloc ≠ none

/-- The fiber that the pool gives has a stack. -/
def HasStack (stackOf : Stacks) (e : FiberPool × HeapOutcome) : Prop :=
  match e.1.fibers with
  | fiber :: _ => (stackOf fiber).Usable
  | [] => e.2.mmap ≠ none

-- ---------------------------------------------------------------------------
-- Allocating
-- ---------------------------------------------------------------------------

section Allocating

variable {page : PageSize} {stackSize : Nat} {stackOf : Stacks}
  {chain : List (FiberPool × HeapOutcome)}

/-- There is a stack iff there was memory for it. -/
theorem usable_construct_iff {mmap : Option {p : Nat // 0 < p}} :
    (FiberStack.construct page stackSize mmap).Usable ↔ mmap ≠ none := by
  obtain ⟨page, hpage⟩ := page
  unfold FiberStack.construct FiberStack.makeStack FiberStack.Usable
  cases mmap with
  | none => exact ⟨fun h => absurd rfl h.1, fun h => absurd rfl h⟩
  | some p =>
    obtain ⟨p, hp⟩ := p
    dsimp only
    have hrounded : 3 * page ≤ if stackSize < 3 * page then 3 * page
        else if stackSize % page ≠ 0 then stackSize + (page - stackSize % page)
        else stackSize := by
      split
      · exact Nat.le_refl _
      · split <;> omega
    generalize (if stackSize < 3 * page then 3 * page
      else if stackSize % page ≠ 0 then stackSize + (page - stackSize % page)
      else stackSize) = rounded at hrounded ⊢
    have hbase : p + rounded - page - (p + rounded - page) % 32 ≠ 0 := by
      omega
    exact ⟨fun _ => nofun, fun _ => ⟨Nat.ne_of_gt hp, hbase, hbase⟩⟩

/-- A pool that does not give a fiber keeps its count. -/
theorem allocate_cons_none {pool : FiberPool} {heap : HeapOutcome}
    (h : gives (pool, heap) = false) : ∃ pool' : FiberPool, pool'.total = pool.total ∧
      allocate page stackSize stackOf ((pool, heap) :: chain) =
        ((allocate page stackSize stackOf chain).1,
          pool' :: (allocate page stackSize stackOf chain).2.1,
          (allocate page stackSize stackOf chain).2.2) := by
  have hno := of_decide_eq_false h
  push Not at hno
  obtain ⟨hempty, hmalloc⟩ := hno
  have hheap : (if pool.fibers = [] ∧ pool.total < pool.allocMax then
      allocateFromHeap page stackSize stackOf heap else (none, stackOf)) = (none, stackOf) := by
    split
    · rename_i hask
      unfold allocateFromHeap
      rw [hmalloc hask.2]
    · rfl
  obtain ⟨-, -, hcases⟩ := FiberPool.allocate_cases pool none
  refine ⟨(pool.allocate none).2, ?_, ?_⟩
  · rcases hcases with ⟨fiber, -, hfibers, -⟩ | ⟨_, -, hnone, -⟩ | ⟨-, -, htotal⟩
    · exact nomatch hempty.symm.trans hfibers
    · exact nomatch hnone
    · exact htotal
  · have hnone : (pool.allocate none).1 = none := by
      rcases hcases with ⟨fiber, -, hfibers, -⟩ | ⟨_, -, hnone, -⟩ | ⟨hnone, -⟩
      · exact nomatch hempty.symm.trans hfibers
      · exact nomatch hnone
      · exact hnone
    rw [allocate, hheap]
    dsimp only
    rw [show pool.allocate none = (none, (pool.allocate none).2) from Prod.ext hnone rfl]

/-- A pool that gives a fiber gives one with a stack or without. -/
theorem allocate_cons_some {pool : FiberPool} {heap : HeapOutcome}
    (h : gives (pool, heap) = true) : ∃ fiber pools stackOf',
      allocate page stackSize stackOf ((pool, heap) :: chain) = (some fiber, pools, stackOf') ∧
        ((stackOf' fiber).Usable ↔ HasStack stackOf (pool, heap)) := by
  have hgives := of_decide_eq_true h
  unfold HasStack
  cases hfibers : pool.fibers with
  | cons fiber fibers =>
    -- a free fiber of the pool, with the stack it was made with
    refine ⟨fiber, { pool with fibers := fibers } :: chain.map Prod.fst, stackOf, ?_, Iff.rfl⟩
    rw [allocate, if_neg (by rw [hfibers]; exact fun hand => nomatch hand.1)]
    unfold FiberPool.allocate
    rw [hfibers]
  | nil =>
    -- a fiber from the heap, whose stack may fail
    obtain ⟨hlt, hmalloc⟩ := hgives.resolve_left fun hne => hne hfibers
    obtain ⟨fiber, hfiber⟩ := Option.ne_none_iff_exists'.mp hmalloc
    refine ⟨fiber, pool.incrementTotal :: chain.map Prod.fst,
      Function.update stackOf fiber (FiberStack.construct page stackSize heap.mmap), ?_, ?_⟩
    · dsimp only at hlt hfiber
      rw [allocate, if_pos ⟨hfibers, hlt⟩]
      unfold allocateFromHeap FiberPool.allocate
      rw [hfiber, hfibers]
      dsimp only
      rw [if_pos hlt]
    · rw [Function.update_self]
      exact usable_construct_iff

/-- No pool gives a fiber: the counts are as before. -/
theorem allocate_none (h : chain.find? gives = none) :
    (allocate page stackSize stackOf chain).1 = none ∧
      (allocate page stackSize stackOf chain).2.1.map FiberPool.total =
        chain.map (·.1.total) := by
  induction chain with
  | nil => exact ⟨rfl, rfl⟩
  | cons e chain ih =>
    obtain ⟨pool, heap⟩ := e
    rw [List.find?_cons] at h
    cases hgives : gives (pool, heap) with
    | true =>
      rw [hgives] at h
      exact nomatch h
    | false =>
      rw [hgives] at h
      obtain ⟨hnone, htotals⟩ := ih h
      obtain ⟨pool', htotal, hrun⟩ := allocate_cons_none hgives
      rw [hrun]
      refine ⟨hnone, ?_⟩
      rw [List.map_cons, List.map_cons, htotal, htotals]

/-- The first pool that gives a fiber decides about the stack. -/
theorem allocate_some {e : FiberPool × HeapOutcome} (h : chain.find? gives = some e) :
    ∃ fiber pools stackOf', allocate page stackSize stackOf chain = (some fiber, pools, stackOf') ∧
      ((stackOf' fiber).Usable ↔ HasStack stackOf e) := by
  induction chain with
  | nil => exact nomatch h
  | cons e' chain ih =>
    obtain ⟨pool, heap⟩ := e'
    rw [List.find?_cons] at h
    cases hgives : gives (pool, heap) with
    | true =>
      rw [hgives] at h
      obtain rfl := Option.some.inj h
      exact allocate_cons_some hgives
    | false =>
      rw [hgives] at h
      obtain ⟨fiber, pools, stackOf', hrec, hiff⟩ := ih h
      obtain ⟨pool', -, hrun⟩ := allocate_cons_none hgives
      rw [hrun, hrec]
      exact ⟨fiber, _, _, rfl, hiff⟩

/-- User code runs on the fiber that has been allocated. -/
theorem eq_of_randomSteal {attempt : StealAttempt} {got : Option Fiber} {fiber : Fiber}
    (h : randomSteal attempt got = some fiber) : got = some fiber := by
  unfold randomSteal at h
  split at h
  · exact nomatch h
  · split at h
    · exact nomatch h
    · cases got with
      | none => exact nomatch h
      | some fiber' =>
        dsimp only at h
        split at h
        · exact nomatch h
        · split at h
          · exact h
          · exact nomatch h

/-- Allocating and stealing are right iff the first pool that gives a fiber gives one
with a stack. -/
theorem allocateOk_and_stealOk_iff :
    AllocateOk page stackSize stackOf chain ∧ StealOk page stackSize stackOf chain ↔
      ∀ e, chain.find? gives = some e → HasStack stackOf e := by
  unfold AllocateOk StealOk
  constructor
  · rintro ⟨halloc, -⟩ e he
    obtain ⟨fiber, pools, stackOf', hrun, hiff⟩ := allocate_some he
    rw [hrun] at halloc
    exact hiff.mp halloc
  · intro h
    cases hfind : chain.find? gives with
    | none =>
      obtain ⟨hnone, htotals⟩ := allocate_none hfind
      generalize allocate page stackSize stackOf chain = out at hnone htotals
      obtain ⟨got, pools, stackOf'⟩ := out
      obtain rfl := hnone
      refine ⟨htotals, fun attempt fiber hsteal => ?_⟩
      rcases hsteal with hsteal | hsteal
      · exact nomatch eq_of_randomSteal hsteal
      · exact nomatch eq_of_randomSteal hsteal
    | some e =>
      obtain ⟨fiber, pools, stackOf', hrun, hiff⟩ := allocate_some hfind
      have husable := hiff.mpr (h e hfind)
      rw [hrun]
      refine ⟨husable, fun attempt fiber' hsteal => ?_⟩
      have hsame : some fiber = some fiber' := by
        rcases hsteal with hsteal | hsteal
        · exact eq_of_randomSteal hsteal
        · exact eq_of_randomSteal hsteal
      obtain rfl := Option.some.inj hsame
      exact husable

end Allocating

-- ---------------------------------------------------------------------------
-- Binding
-- ---------------------------------------------------------------------------

section Binding

variable {page : PageSize} {stackSize : Nat} {stackOf : Stacks} {w : UserWorker}
  {heap : HeapOutcome}

/-- A worker that needs no scheduling fiber is bound. -/
theorem bindThread1_keeps (hstealable : w.stealable = true)
    (h : ¬ (w.schedulingFiber = none ∧ w.self ≥ 0)) :
    bindThread1 page stackSize stackOf heap w =
      .ok (if w.schedulingFiber = none then { w with stealable := false } else w, stackOf) := by
  unfold bindThread1
  rw [hstealable, if_neg h]
  rfl

/-- There is no memory for the fiber: a null fiber is touched. -/
theorem bindThread1_error (hstealable : w.stealable = true)
    (h : w.schedulingFiber = none ∧ w.self ≥ 0) (hmalloc : heap.malloc = none) :
    bindThread1 page stackSize stackOf heap w = .error "null fiber" := by
  unfold bindThread1 allocateFromHeap
  rw [hstealable, if_pos h, hmalloc]
  rfl

/-- There is: the worker is bound and can be stolen from, whether there is a stack or
not. -/
theorem bindThread1_allocates (hstealable : w.stealable = true)
    (h : w.schedulingFiber = none ∧ w.self ≥ 0) {fiber : Fiber}
    (hmalloc : heap.malloc = some fiber) :
    bindThread1 page stackSize stackOf heap w = .ok ({ w with schedulingFiber := some fiber },
      Function.update stackOf fiber (FiberStack.construct page stackSize heap.mmap)) := by
  unfold bindThread1 allocateFromHeap
  rw [hstealable, if_pos h, hmalloc]
  rfl

/-- Binding is right iff no scheduling fiber is needed or there is memory for it and
its stack. -/
theorem bindOk_iff (hstealable : w.stealable = true) :
    BindOk page stackSize stackOf w heap ↔
      w.schedulingFiber ≠ none ∨ w.self < 0 ∨ heap.Succeeds := by
  constructor
  · intro hbind
    by_contra hno
    have hfiber : w.schedulingFiber = none := by_contra fun h => hno (.inl h)
    have hself : w.self ≥ 0 := Int.not_lt.mp fun h => hno (.inr (.inl h))
    have hfails : ¬ heap.Succeeds := fun h => hno (.inr (.inr h))
    obtain ⟨w', stackOf', hrun, hdisallowed, -⟩ := hbind hfiber (.inr hfails)
    -- without memory the worker stops, with a fiber it stays stealable
    cases hmalloc : heap.malloc with
    | none =>
      rw [bindThread1_error hstealable ⟨hfiber, hself⟩ hmalloc] at hrun
      exact nomatch hrun
    | some fiber =>
      rw [bindThread1_allocates hstealable ⟨hfiber, hself⟩ hmalloc] at hrun
      obtain ⟨rfl, -⟩ := Prod.mk.inj (Except.ok.inj hrun)
      exact absurd (hstealable.symm.trans hdisallowed) (by decide)
  · intro h hfiber hneeds
    have hself : w.self < 0 := by
      rcases h with hne | hlt | hsucceeds
      · exact absurd hfiber hne
      · exact hlt
      · exact hneeds.resolve_right fun hfails => hfails hsucceeds
    have hrun : bindThread1 page stackSize stackOf heap w = _ :=
      bindThread1_keeps hstealable fun hand => absurd hand.2 (Int.not_le.mpr hself)
    rw [if_pos hfiber] at hrun
    exact ⟨_, _, hrun, rfl, fun hnonneg => absurd hself (Int.not_lt.mpr hnonneg)⟩

/-- Running out of stacks loses parallelism only iff the first pool that gives a fiber
gives one with a stack, and a scheduling fiber that is needed is there with its
stack. -/
theorem runsOutOfStacks_iff (page : PageSize) (stackSize : Nat) (stackOf : Stacks) :
    (∀ chain, AllocateOk page stackSize stackOf chain ∧ StealOk page stackSize stackOf chain ↔
        ∀ e, chain.find? gives = some e → HasStack stackOf e) ∧
      ∀ w heap, w.stealable = true → (BindOk page stackSize stackOf w heap ↔
        w.schedulingFiber ≠ none ∨ w.self < 0 ∨ heap.Succeeds) :=
  ⟨fun _ => allocateOk_and_stealOk_iff, fun _ _ hstealable => bindOk_iff hstealable⟩

/-- There is memory for the object but not for the stack: an empty pool gives a fiber
without one, and user code that is stolen runs on it. Without memory for either, a
thread that is bound touches a null fiber. -/
theorem runsOutOfStacks_fails :
    let page : PageSize := ⟨4096, by decide⟩
    let noStack : Stacks := fun _ => ⟨0, 0, 0⟩
    let chain : List (FiberPool × HeapOutcome) :=
      [(.init 7 0, ⟨none, none⟩), (.init 36 2400, ⟨some 1, none⟩)]
    (allocate page 0x100000 noStack chain).1 = some 1 ∧
      randomSteal ⟨false, false, true, true⟩ (some 1) = some 1 ∧
      ¬ AllocateOk page 0x100000 noStack chain ∧ ¬ StealOk page 0x100000 noStack chain ∧
      bindThread1 page (18 * 4096) noStack ⟨none, none⟩ ⟨3, none, true⟩ = .error "null fiber" := by
  intro page noStack chain
  refine ⟨rfl, rfl, fun h => ?_, fun h => ?_, rfl⟩
  · exact h.1 rfl
  · have hstolen : ∀ attempt fiber,
        randomSteal attempt (some 1) = some fiber ∨ ownReadyListSteal attempt (some 1) = some fiber →
          FiberStack.Usable _ := h
    exact (hstolen ⟨false, false, true, true⟩ 1 (.inl rfl)).1 rfl

end Binding

end SwanRuntime.Fibers
