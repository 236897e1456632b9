import SwanRuntime.Runtime.State

/-!
# Full frames — the code

The functions of the runtime that work on one full frame and its neighbours:
join counters, the list of children, ownership by a worker, and the splicing of
a finished child into its parent. Each is named after the function it models.
-/

namespace SwanRuntime.Runtime

open Reducers Checked

variable {K : Type} {M : K → Type}

-- ---------------------------------------------------------------------------
-- Join counters
-- ---------------------------------------------------------------------------

/-- `incjoin`. -/
def incjoin (s : State M) (f : FrameId) : State M :=
  s.modFf f fun ff => { ff with joinCounter := ff.joinCounter + 1 }

/-- `decjoin`: the new value of the counter. -/
def decjoin (s : State M) (f : FrameId) : Checked (Nat × State M) := do
  assert (0 < (s.ff f).joinCounter) "ff->join_counter > 0"
  return ((s.ff f).joinCounter - 1,
    s.modFf f fun ff => { ff with joinCounter := ff.joinCounter - 1 })

-- ---------------------------------------------------------------------------
-- The spawn tree
-- ---------------------------------------------------------------------------

/-- `__cilkrts_make_full_frame`. -/
def makeFullFrame (s : State M) (sf : StackFrame M) (callStack : Bool) : FrameId × State M :=
  (s.nextFrame, { s with
    ff := Function.update s.ff s.nextFrame (FullFrame.make sf callStack)
    live := Function.update s.live s.nextFrame true
    nextFrame := s.nextFrame + 1 })

/-- `__cilkrts_destroy_full_frame`. -/
def destroyFullFrame (s : State M) (f : FrameId) : Checked (State M) := do
  assert (s.ff f).childrenReducerMap.isNone "ff->children_reducer_map == 0"
  assert (s.ff f).rightReducerMap.isNone "ff->right_reducer_map == 0"
  return { s with live := Function.update s.live f false }

/-- `push_child`. -/
def pushChild (s : State M) (parent child : FrameId) : State M :=
  s.modFf parent fun ff => { ff with children := ff.children ++ [child] }

/-- `unlink_child`. -/
def unlinkChild (s : State M) (parent child : FrameId) : State M :=
  s.modFf parent fun ff => { ff with children := ff.children.erase child }

/-- `left_sibling` in a list of children. -/
def leftSibling : List FrameId → FrameId → Option FrameId
  | a :: b :: rest, child => if b = child then some a else leftSibling (b :: rest) child
  | _, _ => none

/-- The fiber argument of `make_child`: `NULL` for a call child,
`PLACEHOLDER_FIBER` for a simulated steal. -/
inductive FiberArg
  | null
  | placeholder
  | fiber (x : FiberId)
deriving DecidableEq

/-- The fiber that `make_child` gives to the parent. -/
def FiberArg.toOption : FiberArg → Option FiberId
  | .null => none
  | .placeholder => none
  | .fiber x => some x

/-- `make_child`. -/
def makeChild (s : State M) (parent : FrameId) (childSf : StackFrame M) (callStack : Bool)
    (fiber : FiberArg) : Checked (FrameId × State M) := do
  let (child, s) := makeFullFrame s childSf callStack
  let s := s.modFf child fun ff => { ff with parent := some parent }
  let s := pushChild s parent child
  assert (s.ff parent).callStack "parent_ff->call_stack"
  let s := s.modFf child fun ff => { ff with
    isCallChild := decide (fiber = .null)
    fiberSelf := (s.ff parent).fiberSelf
    syncMaster := none }
  let s := s.modFf parent fun ff => { ff with fiberSelf := fiber.toOption }
  return (child, incjoin s parent)

-- ---------------------------------------------------------------------------
-- Suspending and resuming
-- ---------------------------------------------------------------------------

/-- `make_runnable`: the worker becomes the owner of the frame. -/
def makeRunnable (s : State M) (w : WorkerId) (f : FrameId) : State M :=
  (s.modWorker w fun wk => { wk with frameFf := some f }).modFf f fun ff =>
    { ff with callStack := false }

/-- `make_unrunnable` with the frame's own stack frame. -/
def makeUnrunnable (s : State M) (f : FrameId) : State M :=
  s.modFf f fun ff => { ff with
    callStack := true
    frame := { ff.frame with stolen := true } }

/-- `__cilkrts_push_next_frame`. -/
def pushNextFrame (s : State M) (w : WorkerId) (f : FrameId) : Checked (State M) := do
  assert (s.worker w).nextFrameFf.isNone "!w->l->next_frame_ff"
  return (incjoin s f).modWorker w fun wk => { wk with nextFrameFf := some f }

/-- `pop_next_frame`. -/
def popNextFrame (s : State M) (w : WorkerId) : Option FrameId × State M :=
  ((s.worker w).nextFrameFf, s.modWorker w fun wk => { wk with nextFrameFf := none })

/-- `set_sync_master`. -/
def setSyncMaster (s : State M) (w : WorkerId) (f : FrameId) : State M :=
  (s.modWorker w fun wk => { wk with lastFullFrame := some f }).modFf f fun ff =>
    { ff with syncMaster := some w }

/-- `unset_sync_master`. -/
def unsetSyncMaster (s : State M) (w : WorkerId) (f : FrameId) : Checked (State M) := do
  assert ((s.worker w).type = .user) "WORKER_USER == w->l->type"
  assert ((s.ff f).syncMaster = some w) "ff->sync_master == w"
  return (s.modFf f fun ff => { ff with syncMaster := none }).modWorker w fun wk =>
    { wk with lastFullFrame := none }

/-- `__cilkrts_mark_synched`. -/
def markSynched (s : State M) (f : FrameId) : State M :=
  s.modFf f fun ff => { ff with
    frame := { ff.frame with unsynched := false }
    simulatedStolen := false
    stolenFrom := none }

/-- `provably_good_steal_stacks`. -/
def provablyGoodStealStacks (s : State M) (f : FrameId) : Checked (State M) := do
  assert (s.ff f).fiberSelf.isNone "NULL == ff->fiber_self"
  return s.modFf f fun ff => { ff with fiberSelf := ff.fiberChild, fiberChild := none }

/-- `provably_good_steal`, without a replay log. -/
def provablyGoodSteal (s : State M) (w : WorkerId) (f : FrameId) : Checked (State M) := do
  let (n, s) ← decjoin s f
  if n = 0 then
    let s ← provablyGoodStealStacks s f
    let s := markSynched s f
    if (s.ff f).syncMaster.isSome then
      match (s.worker w).team with
      | none => throw "w->l->team"
      | some team => pushNextFrame (← unsetSyncMaster s team f) team f
    else
      pushNextFrame s w f
  else
    return s

/-- `unconditional_steal`. -/
def unconditionalSteal (s : State M) (w : WorkerId) (f : FrameId) : Checked (State M) := do
  let (_, s) ← decjoin s f
  pushNextFrame s w f

/-- `setup_for_execution_reducers`. -/
def setupForExecutionReducers (s : State M) (w : WorkerId) (f : FrameId) : Checked (State M) := do
  if (s.ff f).frame.unsynched then
    return s
  else
    assert (s.ff f).children.isEmpty "!ff->rightmost_child"
    match (s.ff f).childrenReducerMap with
    | none => return s
    | some m =>
      assert (s.worker w).reducerMap.isNone "!w->reducer_map"
      return (s.modWorker w fun wk => { wk with reducerMap := some m }).modFf f fun ff =>
        { ff with childrenReducerMap := none }

/-- `setup_for_execution`. The deque is emptied. -/
def setupForExecution (s : State M) (w : WorkerId) (f : FrameId) : Checked (State M) := do
  let s ← setupForExecutionReducers s w f
  return makeRunnable (s.modWorker w fun wk => { wk with stack := [] }) w f

-- ---------------------------------------------------------------------------
-- Splicing a finished child into its parent
-- ---------------------------------------------------------------------------

/-- `splice_stacks_for_call`. -/
def spliceStacksForCall (s : State M) (parent child : FrameId) : Checked (State M) := do
  assert (s.ff child).fiberChild.isNone "!child_ff->fiber_child"
  assert (s.ff child).isCallChild "child_ff->is_call_child"
  assert (s.ff parent).fiberSelf.isNone "!parent_ff->fiber_self"
  let s := s.modFf parent fun ff => { ff with fiberSelf := (s.ff child).fiberSelf }
  return s.modFf child fun ff => { ff with fiberSelf := none }

/-- `finalize_child_for_call`. -/
def finalizeChildForCall (s : State M) (w : WorkerId) (parent child : FrameId) :
    Checked (State M) := do
  assert (s.ff child).isCallChild "child_ff->is_call_child"
  assert ((s.ff child).joinCounter = 0) "child_ff->join_counter == 0"
  assert (s.ff child).children.isEmpty "!child_ff->rightmost_child"
  assert ((s.ff parent).children.getLast? = some child) "child_ff == parent_ff->rightmost_child"
  assert (s.ff child).childrenReducerMap.isNone "NULL == child_ff->children_reducer_map"
  assert (s.ff child).rightReducerMap.isNone "NULL == child_ff->right_reducer_map"
  let s ← spliceStacksForCall s parent child
  let s := unlinkChild s parent child
  let s ← unconditionalSteal s w parent
  destroyFullFrame s child

/-- `finish_spawn_return_on_user_stack`. -/
def finishSpawnReturnOnUserStack (s : State M) (w : WorkerId) (parent child : FrameId) :
    Checked (State M) := do
  assert (s.worker w).fiberToFree.isNone "w->l->fiber_to_free == NULL"
  let s ←
    if (leftSibling (s.ff parent).children child).isSome || (s.ff parent).fiberChild.isSome then do
      assert ((s.ff parent).fiberChild ≠ (s.ff child).fiberSelf)
        "parent_ff->fiber_child != child_ff->fiber_self"
      pure (s.modWorker w fun wk => { wk with fiberToFree := (s.ff child).fiberSelf })
    else
      pure ((s.modFf parent fun ff => { ff with fiberChild := (s.ff child).fiberSelf }).modWorker w
        fun wk => { wk with fiberToFree := none })
  let s := s.modFf child fun ff => { ff with fiberSelf := none }
  return unlinkChild s parent child

/-- Where a reducer map is deposited: in the children map of a frame, or to the
right of a child. -/
inductive MapSlot
  | childrenMap (f : FrameId)
  | rightMap (f : FrameId)

/-- The map in a slot. -/
def State.slot (s : State M) : MapSlot → Option (ReducerMap M)
  | .childrenMap f => (s.ff f).childrenReducerMap
  | .rightMap f => (s.ff f).rightReducerMap

/-- Store a map in a slot. -/
def State.setSlot (s : State M) (m : Option (ReducerMap M)) : MapSlot → State M
  | .childrenMap f => s.modFf f fun ff => { ff with childrenReducerMap := m }
  | .rightMap f => s.modFf f fun ff => { ff with rightReducerMap := m }

/-- `compute_left_ptrs_for_spawn_return`. -/
def leftSlotForSpawnReturn (s : State M) (parent child : FrameId) : MapSlot :=
  match leftSibling (s.ff parent).children child with
  | some sibling => .rightMap sibling
  | none => .childrenMap parent

/-- `compute_left_ptrs_for_sync`. -/
def leftSlotForSync (s : State M) (f : FrameId) : MapSlot :=
  match (s.ff f).children.getLast? with
  | some child => .rightMap child
  | none => .childrenMap f

end SwanRuntime.Runtime
