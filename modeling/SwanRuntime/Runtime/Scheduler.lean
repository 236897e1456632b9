import SwanRuntime.Runtime.FullFrame

/-!
# The scheduler — the code

Binding a thread, executing user code, stealing, returning and syncing, as the
functions of the scheduler do it. Everything that happens under one lock, with
nothing in between that another worker could observe, is one function here; the
slow paths of the reductions, which give up the lock of a frame, are split at
that point.

Reduce functions are serial and touch only the two views they are given, so
`repeated_merge_reducer_maps` merges once.
-/

namespace SwanRuntime.Runtime

open Reducers Checked

variable {K : Type} [DecidableEq K] {M : K → Type} [∀ k, Monoid (M k)]

-- ---------------------------------------------------------------------------
-- User code
-- ---------------------------------------------------------------------------

/-- The stack frame that a worker enters by a call or a spawn. -/
def enterFrame (s : State M) (w : WorkerId) (code : Code M) (detached : Bool) : StackFrame M where
  code      := code
  unsynched := false
  stolen    := false
  detached  := detached
  last      := false
  entry     := value (s.worker w).reducerMap
  leads     := isLeftmost (s.worker w).reducerMap
  done      := 1
  home      := if (s.worker w).type = .user ∧ (s.worker w).lastFullFrame = none then some w
    else none

/-- Pass over an instruction whose updates multiply to `x`. -/
def StackFrame.advance (sf : StackFrame M) (x : ∀ k, M k) (rest : Code M) : StackFrame M :=
  { sf with code := rest, done := sf.done * x }

/-- An update of a reducer: `__cilkrts_hyper_lookup`, then the user's operation
on the view. -/
def updateReducer (s : State M) (w : WorkerId) (k : K) (x : M k) : State M :=
  s.modWorker w fun wk =>
    { wk with reducerMap := some ((wk.reducerMap.getD makeReducerMap).update k x) }

/-- Push a frame on the stack of a worker. A detached frame leaves the
continuation of its caller on the deque. -/
def pushStackFrame (s : State M) (w : WorkerId) (sf : StackFrame M) : State M :=
  s.modWorker w fun wk => { wk with stack := wk.stack ++ [sf] }

/-- `BIND_THREAD_RTN` for a free user worker, and entry of the initial frame.
`init` holds the leftmost views of the reducers. -/
def bindThread (s : State M) (u : WorkerId) (code : Code M) (init : ∀ k, M k) : State M :=
  let sf : StackFrame M :=
    { code := code, unsynched := false, stolen := false, detached := false, last := true,
      entry := init, leads := true, done := 1, home := some u }
  let (f, s) := makeFullFrame s sf false
  let s := s.modFf f fun ff => { ff with fiberSelf := some s.nextFiber, joinCounter := 1 }
  let s := s.modWorker u fun wk =>
    { wk with
      type := .user
      team := some u
      frameFf := some f
      stack := []
      reducerMap := some { leftmost := some init, elems := ∅ }
      phase := .running }
  { s with nextFiber := s.nextFiber + 1 }

/-- Release a fiber (`cilk_fiber_remove_reference`,
`cilk_fiber_deallocate_from_thread`). -/
def releaseFiber (s : State M) : Option FiberId → State M
  | none => s
  | some x => { s with released := Function.update s.released x (s.released x + 1) }

/-- `__cilkrts_c_return_from_initial`, and the unbinding of the thread. -/
def cReturnFromInitial (s : State M) (w : WorkerId) : Checked (State M) := do
  assert ((s.worker w).type = .user) "w->l->type == WORKER_USER"
  match (s.worker w).frameFf with
  | none => throw "ff"
  | some f =>
    assert ((s.ff f).joinCounter = 1) "ff->join_counter == 1"
    let s := s.modWorker w fun wk => { wk with frameFf := none }
    assert (s.ff f).fiberSelf.isSome "ff->fiber_self"
    let s := releaseFiber s (s.ff f).fiberSelf
    let s := s.modFf f fun ff => { ff with fiberSelf := none }
    let s := s.modWorker w fun wk => { wk with reducerMap := none }
    let s ← destroyFullFrame s f
    return s.modWorker w fun wk => { wk with type := .free, phase := .unbound }

-- ---------------------------------------------------------------------------
-- Pending frames
-- ---------------------------------------------------------------------------

/-- `__cilkrts_pending_frame_create` and `__cilkrts_detach_pending`: the task
becomes the rightmost child of the frame. -/
def detachPending (s : State M) (w : WorkerId) (f : FrameId) (code : Code M) : State M :=
  let sf : StackFrame M :=
    { code := code, unsynched := false, stolen := false, detached := false, last := false,
      entry := 1, leads := false, done := 1, home := none }
  let (child, s) := makeFullFrame s sf false
  let s := s.modFf child fun ff => { ff with parent := some f }
  let s := incjoin s f
  let s := s.modFrame f fun sf => { sf with unsynched := true }
  let s := pushChild s f child
  { s with pending := ⟨child, (s.worker w).team.getD w⟩ :: s.pending }

/-- A pending frame whose last object has become available is put on the ready
list of the worker that released the object. -/
def makeReady (s : State M) (w : WorkerId) (pf : PendingFrame) : State M :=
  { s with pending := s.pending.erase pf }.modWorker w fun wk =>
    { wk with readyList := wk.readyList ++ [pf] }

-- ---------------------------------------------------------------------------
-- Stealing
-- ---------------------------------------------------------------------------

/-- `unroll_call_stack`: suspend a full frame and promote the stack frames
called from it, oldest first, each to a call child of the one before. Returns
the full frame of the last one. -/
def unrollCallStack : State M → FrameId → List (StackFrame M) → Checked (FrameId × State M)
  | s, f, [] => return (f, makeUnrunnable s f)
  | s, f, sf :: chain => do
    let (child, s) ← makeChild (makeUnrunnable s f) f sf true .null
    unrollCallStack s child chain

/-- History: the frame's continuation is stolen, and a fiber has been allocated
for its thief. -/
def noteSteal (s : State M) (f : FrameId) (fiber : FiberArg) : State M :=
  let s := s.modFf f fun ff => { ff with stolenFrom := ff.stolenFrom.or ff.fiberSelf }
  match fiber with
  | .fiber x => { s with fiberFor := Function.update s.fiberFor x (some f) }
  | _ => s

/-- The part of `detach_for_steal` after `unroll_call_stack`: the loot goes to
the thief, and the victim continues with a new child of it. When the worker
steals from itself nobody executes the loot. -/
def takeLoot (s : State M) (w victim : WorkerId) (loot : FrameId) (childSf : StackFrame M)
    (young : List (StackFrame M)) (fiber : FiberArg) : Checked (State M) := do
  let s := s.modFrame loot fun sf => { sf with unsynched := true }
  let s :=
    if (s.worker victim).type = .user ∧ (s.worker victim).lastFullFrame = none then
      setSyncMaster s victim loot
    else s
  let s ←
    if w = victim then
      pure (s.modFf loot fun ff => { ff with simulatedStolen := true })
    else
      pushNextFrame s w loot
  let s := noteSteal s loot fiber
  let (child, s) ← makeChild s loot childSf false fiber
  let s := incjoin s child
  return makeRunnable (s.modWorker victim fun wk => { wk with stack := young }) victim child

/-- `detach_for_steal`. The continuation at the head of the victim's deque is
that of the last frame below the oldest detached one. -/
def detachForSteal (s : State M) (w victim : WorkerId) (fiber : FiberArg) :
    Checked (State M) := do
  let s := s.modWorker w fun wk => { wk with team := (s.worker victim).team }
  assert ((s.worker w).frameFf.isNone || w = victim) "w->l->frame_ff == 0 || w == victim"
  let stack := (s.worker victim).stack
  match (s.worker victim).frameFf, stack.dropWhile (!·.detached) with
  | some parent, childSf :: young =>
    let (_, s) ← decjoin s parent
    let (loot, s) ← unrollCallStack s parent (stack.takeWhile (!·.detached))
    takeLoot s w victim loot childSf young fiber
  | _, _ => throw "*h"

/-- `make_child_from_pending`. -/
def makeChildFromPending (s : State M) (child : FrameId) (fiber : FiberId) :
    Checked (State M) := do
  assert (!(s.ff child).callStack) "!child_ff->call_stack"
  return s.modFf child fun ff => { ff with
    fiberSelf := some fiber
    frame := { ff.frame with stolen := true, detached := true }
    callStack := true }

/-- `steal_from_ready_list`, when it takes `pf`. -/
def stealFromReadyList (s : State M) (w victim : WorkerId) (pf : PendingFrame)
    (fiber : FiberId) : Checked (State M) := do
  assert ((s.worker w).frameFf.isNone || w = victim) "w->l->frame_ff == 0 || w == victim"
  let s := s.modWorker victim fun wk => { wk with readyList := wk.readyList.erase pf }
  let s := s.modWorker w fun wk => { wk with team := some pf.team }
  let s ← makeChildFromPending s pf.frameFf fiber
  let s := { s with fiberFor := Function.update s.fiberFor fiber (s.ff pf.frameFf).parent }
  let s :=
    if (s.worker victim).type = .user ∧ (s.worker victim).lastFullFrame = none then
      setSyncMaster s victim pf.frameFf
    else s
  pushNextFrame s w pf.frameFf

/-- `cilk_fiber_allocate`, when it returns a fiber. -/
def cilkFiberAllocate (s : State M) : FiberId × State M :=
  (s.nextFiber, { s with nextFiber := s.nextFiber + 1 })

/-- The successful path of `random_steal` through the victim's deque. -/
def randomSteal (s : State M) (w victim : WorkerId) : Checked (State M) := do
  assert ((s.worker w).type = .system || (s.worker w).team = some w)
    "w->l->type == WORKER_SYSTEM || w->l->team == w"
  let (x, s) := cilkFiberAllocate s
  detachForSteal s w victim (.fiber x)

/-- The successful path of `random_steal` and of `own_ready_list_steal` through
the victim's ready list. -/
def readyListSteal (s : State M) (w victim : WorkerId) (pf : PendingFrame) :
    Checked (State M) := do
  assert ((s.worker w).type = .system || (s.worker w).team = some w)
    "w->l->type == WORKER_SYSTEM || w->l->team == w"
  let (x, s) := cilkFiberAllocate s
  stealFromReadyList s w victim pf x

/-- One iteration of `__cilkrts_promote_own_deque`. -/
def promoteOwnDeque (s : State M) (w : WorkerId) : Checked (State M) := do
  let startingFiber := (s.worker w).frameFf.map fun f => (s.ff f).fiberSelf
  let s ← detachForSteal s w w .placeholder
  assert ((s.worker w).frameFf.map (fun f => (s.ff f).fiberSelf) = startingFiber)
    "w->l->frame_ff->fiber_self == starting_fiber"
  return s

-- ---------------------------------------------------------------------------
-- Returning to a stolen parent
-- ---------------------------------------------------------------------------

/-- Take the three maps and give up the lock of the parent, or, with nothing
left to reduce, finish: one iteration of `slow_path_reductions_for_spawn_return`
and what `execute_reductions_for_spawn_return` does after it. -/
def slowPathReductionsForSpawnReturn (s : State M) (w : WorkerId) (parent child : FrameId) :
    Checked (State M) := do
  let slot := leftSlotForSpawnReturn s parent child
  -- Slide middle map left if possible.
  let s :=
    if (s.slot slot).isNone then
      (s.setSlot (s.worker w).reducerMap slot).modWorker w fun wk => { wk with reducerMap := none }
    else s
  -- Slide right map to middle if possible.
  let s :=
    if (s.worker w).reducerMap.isNone then
      (s.modWorker w fun wk => { wk with reducerMap := (s.ff child).rightReducerMap }).modFf child
        fun ff => { ff with rightReducerMap := none }
    else s
  if (s.worker w).reducerMap.isNone then
    let s ← finishSpawnReturnOnUserStack s w parent child
    return s.modWorker w fun wk => { wk with phase := .spawnReturned }
  else
    let phase := .spawnReduction (s.slot slot) (s.worker w).reducerMap (s.ff child).rightReducerMap
    let s := s.setSlot none slot
    let s := s.modWorker w fun wk => { wk with reducerMap := none, phase := phase }
    return s.modFf child fun ff => { ff with rightReducerMap := none }

/-- `fast_path_reductions_for_spawn_return`: `none` when reductions remain. -/
def fastPathReductionsForSpawnReturn (s : State M) (w : WorkerId) (parent child : FrameId) :
    Option (State M) :=
  let slot := leftSlotForSpawnReturn s parent child
  match (s.slot slot).isSome, (s.worker w).reducerMap.isSome,
      (s.ff child).rightReducerMap.isSome with
  | _, false, false => some s
  | false, true, false =>
    some ((s.setSlot (s.worker w).reducerMap slot).modWorker w fun wk =>
      { wk with reducerMap := none })
  | false, false, true =>
    some ((s.setSlot (s.ff child).rightReducerMap slot).modFf child fun ff =>
      { ff with rightReducerMap := none })
  | _, _, _ => none

/-- `execute_reductions_for_spawn_return`, up to the point where it may give up
the lock of the parent. -/
def executeReductionsForSpawnReturn (s : State M) (w : WorkerId) : Checked (State M) :=
  match (s.worker w).frameFf with
  | none => throw "ff"
  | some child =>
    match (s.ff child).parent with
    | none => throw "ff->parent"
    | some parent =>
      match fastPathReductionsForSpawnReturn s w parent child with
      | some s => do
        let s ← finishSpawnReturnOnUserStack s w parent child
        return s.modWorker w fun wk => { wk with phase := .spawnReturned }
      | none => slowPathReductionsForSpawnReturn s w parent child

/-- The reductions of the slow path of a spawn return, and what follows when
the lock of the parent has been taken again. -/
def reduceForSpawnReturn (s : State M) (w : WorkerId) (left middle right : Option (ReducerMap M)) :
    Checked (State M) := do
  let m ← mergeReducerMaps left middle
  let m ← mergeReducerMaps m right
  let s := s.modWorker w fun wk => { wk with reducerMap := m }
  match (s.worker w).frameFf with
  | none => throw "ff"
  | some child =>
    match (s.ff child).parent with
    | none => throw "ff->parent"
    | some parent => slowPathReductionsForSpawnReturn s w parent child

/-- `do_return_from_spawn`, without a replay log. -/
def doReturnFromSpawn (s : State M) (w : WorkerId) (f : FrameId) : Checked (State M) := do
  assert (!(s.ff f).isCallChild) "!ff->is_call_child"
  match (s.ff f).parent with
  | none => throw "ff->parent"
  | some parent =>
    let (_, s) ← decjoin s f
    let s ←
      if (s.ff parent).simulatedStolen then unconditionalSteal s w parent
      else provablyGoodSteal s w parent
    destroyFullFrame s f

-- ---------------------------------------------------------------------------
-- Syncing
-- ---------------------------------------------------------------------------

/-- The end of `execute_reductions_for_sync`: the frame is suspended. -/
def finishReductionsForSync (s : State M) (w : WorkerId) (f : FrameId) : State M :=
  let s := s.modFf f fun ff => { ff with callStack := true }
  let s := s.modWorker w fun wk =>
    { wk with fiberToFree := (s.ff f).fiberSelf, phase := .synching }
  s.modFf f fun ff => { ff with fiberSelf := none }

/-- One iteration of `slow_path_reductions_for_sync`: deposit the map to the
left of the frame's own strand, or take the map found there and give up the lock
of the frame. -/
def slowPathReductionsForSync (s : State M) (w : WorkerId) (f : FrameId)
    (middle : Option (ReducerMap M)) : State M :=
  let slot := leftSlotForSync s f
  match s.slot slot, middle with
  | none, _ => finishReductionsForSync (s.setSlot middle slot) w f
  | some _, none => finishReductionsForSync s w f
  | some left, some middle =>
    (s.setSlot none slot).modWorker w fun wk =>
      { wk with phase := .syncReduction (some left) (some middle) }

/-- `__cilkrts_c_sync`, up to the point where the reductions may give up the
lock of the frame. After the sync the frame continues with `rest`. -/
def cSync (s : State M) (w : WorkerId) (rest : Code M) : Checked (State M) := do
  assert (s.worker w).stack.isEmpty "sf->call_parent == 0"
  match (s.worker w).frameFf with
  | none => throw "ff"
  | some f =>
    let s := s.modFrame f fun sf => { sf with code := rest }
    match (s.worker w).reducerMap with
    | none => return finishReductionsForSync s w f
    | some middle =>
      let s := s.modWorker w fun wk => { wk with reducerMap := none }
      return slowPathReductionsForSync s w f (some middle)

/-- The reduction of the slow path of a sync, and what follows when the lock of
the frame has been taken again. -/
def reduceForSync (s : State M) (w : WorkerId) (left middle : Option (ReducerMap M)) :
    Checked (State M) := do
  let middle ← mergeReducerMaps left middle
  match (s.worker w).frameFf with
  | none => throw "ff"
  | some f => return slowPathReductionsForSync s w f middle

/-- `do_sync`, without a replay log. -/
def doSync (s : State M) (w : WorkerId) (f : FrameId) : Checked (State M) := do
  assert (s.ff f).frame.unsynched "sf->flags & CILK_FRAME_UNSYNCHED"
  assert (s.ff f).fiberSelf.isNone "NULL == ff->fiber_self"
  provablyGoodSteal s w f

-- ---------------------------------------------------------------------------
-- Returning from a call
-- ---------------------------------------------------------------------------

/-- `__cilkrts_return`, up to the point where it gives up the lock of the
frame. -/
def cilkrtsReturn (s : State M) (w : WorkerId) : Checked (State M) := do
  match (s.worker w).frameFf with
  | none => throw "ff"
  | some f =>
    assert ((s.ff f).joinCounter = 1) "ff->join_counter == 1"
    assert (s.ff f).isCallChild "ff->is_call_child"
    let s := s.modFf f fun ff => { ff with callStack := false }
    let s := s.modWorker w fun wk => { wk with frameFf := none, phase := .callReturning f }
    let (_, s) ← decjoin s f
    return s

/-- The rest of `__cilkrts_return`. -/
def finishCilkrtsReturn (s : State M) (w : WorkerId) (f : FrameId) : Checked (State M) := do
  match (s.ff f).parent with
  | none => throw "parent_ff"
  | some parent =>
    let s ← finalizeChildForCall s w parent f
    let (next, s) := popNextFrame s w
    assert (s.worker w).frameFf.isNone "!w->l->frame_ff"
    match next with
    | none => return s.modWorker w fun wk => { wk with phase := .scheduling }
    | some ff =>
      assert (s.ff ff).callStack "sf && !sf->call_parent"
      let s ← setupForExecution s w ff
      return s.modWorker w fun wk => { wk with phase := .running }

-- ---------------------------------------------------------------------------
-- Entering and leaving the runtime
-- ---------------------------------------------------------------------------

/-- The functions that `longjmp_into_runtime` is called with. -/
inductive SchedulingStackFcn
  | doReturnFromSpawn
  | doSync
deriving DecidableEq

/-- Call a scheduling stack function. -/
def SchedulingStackFcn.call (fcn : SchedulingStackFcn) (s : State M) (w : WorkerId)
    (f : FrameId) : Checked (State M) :=
  match fcn with
  | .doReturnFromSpawn => Runtime.doReturnFromSpawn s w f
  | .doSync => Runtime.doSync s w f

/-- `longjmp_into_runtime`. With one worker the function is called directly and
the worker goes on with the frame that it has been given; otherwise the worker
switches to its scheduling fiber, where the function runs before the fiber to
free is released. -/
def longjmpIntoRuntime (P : Nat) (s : State M) (w : WorkerId) (fcn : SchedulingStackFcn) :
    Checked (State M) := do
  match (s.worker w).frameFf with
  | none => throw "ff"
  | some f =>
    if P = 1 then
      let s ← fcn.call s w f
      let s := if fcn = .doSync then s.modWorker w fun wk => { wk with frameFf := none } else s
      let (next, s) := popNextFrame s w
      match next with
      | none => throw "ff2"
      | some ff2 =>
        let s ← setupForExecution s w ff2
        return s.modWorker w fun wk => { wk with phase := .running }
    else
      let parentFiber := (s.ff f).parent.bind fun p => (s.ff p).fiberChild
      assert ((s.worker w).fiberToFree.or parentFiber).isSome "current_fiber"
      assert (s.ff f).fiberSelf.isNone "NULL == w->l->frame_ff->fiber_self"
      let fiberToFree := (s.worker w).fiberToFree
      let s := s.modWorker w fun wk => { wk with fiberToFree := none, frameFf := none }
      let s ← fcn.call s w f
      assert (s.worker w).reducerMap.isNone "NULL == w->reducer_map"
      let s := releaseFiber s fiberToFree
      return s.modWorker w fun wk => { wk with phase := .scheduling }

/-- The scheduling loop finds a next frame and resumes it. -/
def resumeNextFrame (s : State M) (w : WorkerId) : Checked (State M) := do
  assert (s.worker w).frameFf.isNone "!w->l->frame_ff"
  let (next, s) := popNextFrame s w
  match next with
  | none => throw "ff"
  | some f =>
    assert (s.ff f).callStack "sf && !sf->call_parent"
    let s ← setupForExecution s w f
    assert (s.ff f).fiberSelf.isSome "w->l->frame_ff->fiber_self"
    return s.modWorker w fun wk => { wk with phase := .running }

end SwanRuntime.Runtime
