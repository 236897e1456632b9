import SwanRuntime.Reducers.Map

/-!
# The runtime — its state

The fork-join part of the runtime: user programs, stack frames, full frames,
fibers and workers. A program is built from updates of reducers, calls, spawns,
spawns of tasks whose objects are not available yet, and syncs.

A full frame stands for one stack frame. `call_stack` points to that frame
while the full frame is suspended and is `NULL` while a worker runs it; the
model keeps the frame itself in the full frame at all times (`frame`) and the
pointer as the flag `callStack`. The worker that runs a full frame keeps, oldest
first, the stack frames entered since: a frame entered by a spawn is `detached`,
and the deque of the worker holds the continuation of the caller of each
detached frame.

Fields that the runtime does not have record history for the specifications.
-/

namespace SwanRuntime.Runtime

open Reducers

abbrev WorkerId := Nat
abbrev FrameId := Nat
abbrev FiberId := Nat

-- ---------------------------------------------------------------------------
-- Programs
-- ---------------------------------------------------------------------------

variable {K : Type} (M : K → Type)

/-- The code that a frame has still to execute. Every function syncs before it
returns, so `ret` includes the implicit sync. -/
inductive Code
  | ret
  | update (k : K) (x : M k) (rest : Code)
  | call (child rest : Code)
  | spawn (child rest : Code)
  | pending (child rest : Code)
  | sync (rest : Code)

variable {M}

/-- The product of the updates of a program in serial execution order. -/
def Code.product [DecidableEq K] [∀ k, Monoid (M k)] : Code M → ∀ k, M k
  | .ret => 1
  | .update k x rest => Pi.mulSingle k x * rest.product
  | .call child rest => child.product * rest.product
  | .spawn child rest => child.product * rest.product
  | .pending child rest => child.product * rest.product
  | .sync rest => rest.product

-- ---------------------------------------------------------------------------
-- Frames
-- ---------------------------------------------------------------------------

variable (M)

/-- `__cilkrts_stack_frame`: the code still to execute and the flags that the
runtime tests. The last four fields record history: what the worker's reducer
map held when the frame was entered and whether it was leftmost, the product of
the updates that the serial execution performs between then and now, and the
user worker that entered the frame while no frame of its team had been stolen. -/
structure StackFrame where
  code      : Code M
  unsynched : Bool
  stolen    : Bool
  detached  : Bool
  last      : Bool
  entry     : ∀ k, M k
  leads     : Bool
  done      : ∀ k, M k
  home      : Option WorkerId

/-- `full_frame`. The children are listed from left to right. `stolenFrom`
records the fiber on which the frame was executing when its continuation was
first stolen since its last sync. -/
structure FullFrame where
  frame              : StackFrame M
  callStack          : Bool
  joinCounter        : Nat
  parent             : Option FrameId
  children           : List FrameId
  isCallChild        : Bool
  simulatedStolen    : Bool
  childrenReducerMap : Option (ReducerMap M)
  rightReducerMap    : Option (ReducerMap M)
  fiberSelf          : Option FiberId
  fiberChild         : Option FiberId
  syncMaster         : Option WorkerId
  stolenFrom         : Option FiberId

variable {M}

/-- `__cilkrts_make_full_frame`, as it leaves the fields. -/
def FullFrame.make (sf : StackFrame M) (callStack : Bool) : FullFrame M where
  frame              := sf
  callStack          := callStack
  joinCounter        := 0
  parent             := none
  children           := []
  isCallChild        := false
  simulatedStolen    := false
  childrenReducerMap := none
  rightReducerMap    := none
  fiberSelf          := none
  fiberChild         := none
  syncMaster         := none
  stolenFrom         := none

/-- `__cilkrts_pending_frame`: a detached task that waits for its objects or
stands on a ready list. -/
structure PendingFrame where
  frameFf : FrameId
  team    : WorkerId
deriving DecidableEq

-- ---------------------------------------------------------------------------
-- Workers
-- ---------------------------------------------------------------------------

/-- `cilk_worker_type`. -/
inductive WorkerType
  | free
  | system
  | user
deriving DecidableEq, Repr

variable (M)

/-- What a worker is doing, between two steps that others can observe. -/
inductive Phase
  /-- A user worker that no thread is bound to. -/
  | unbound
  /-- In the scheduling loop. -/
  | scheduling
  /-- Executing user code. -/
  | running
  /-- In the slow path of a spawn return, reducing without the parent's lock. -/
  | spawnReduction (left middle right : Option (ReducerMap M))
  /-- About to enter the runtime with `do_return_from_spawn`. -/
  | spawnReturned
  /-- In the slow path of a sync, reducing without the frame's lock. -/
  | syncReduction (left middle : Option (ReducerMap M))
  /-- About to enter the runtime with `do_sync`. -/
  | synching
  /-- In `__cilkrts_return`, between the locks of the frame and of its parent. -/
  | callReturning (ff : FrameId)

/-- `__cilkrts_worker` with its `local_state`. -/
structure Worker where
  type          : WorkerType
  team          : Option WorkerId
  frameFf       : Option FrameId
  nextFrameFf   : Option FrameId
  lastFullFrame : Option FrameId
  stack         : List (StackFrame M)
  reducerMap    : Option (ReducerMap M)
  fiberToFree   : Option FiberId
  readyList     : List PendingFrame
  phase         : Phase M

/-- The whole runtime. `pending` holds the detached tasks that wait for their
objects. `released` counts how often a fiber has been released, and `fiberFor`
records the frame for whose thief or child it was allocated. -/
structure State where
  worker    : WorkerId → Worker M
  ff        : FrameId → FullFrame M
  live      : FrameId → Bool
  nextFrame : FrameId
  nextFiber : FiberId
  pending   : List PendingFrame
  released  : FiberId → Nat
  fiberFor  : FiberId → Option FrameId

/-- The global settings: the number of workers and `force_reduce`. -/
structure Settings where
  P           : Nat
  forceReduce : Bool

variable {M}

-- ---------------------------------------------------------------------------
-- Access
-- ---------------------------------------------------------------------------

/-- Change one full frame. -/
def State.modFf (s : State M) (f : FrameId) (g : FullFrame M → FullFrame M) : State M :=
  { s with ff := Function.update s.ff f (g (s.ff f)) }

/-- Change one worker. -/
def State.modWorker (s : State M) (w : WorkerId) (g : Worker M → Worker M) : State M :=
  { s with worker := Function.update s.worker w (g (s.worker w)) }

/-- Change the stack frame of a full frame. -/
def State.modFrame (s : State M) (f : FrameId) (g : StackFrame M → StackFrame M) : State M :=
  s.modFf f fun ff => { ff with frame := g ff.frame }

/-- `current_stack_frame` of a worker that runs user code. -/
def State.current (s : State M) (w : WorkerId) : Option (StackFrame M) :=
  match (s.worker w).stack.getLast? with
  | some sf => some sf
  | none => (s.worker w).frameFf.map fun f => (s.ff f).frame

/-- Change the current stack frame. -/
def State.modCurrent (s : State M) (w : WorkerId) (g : StackFrame M → StackFrame M) : State M :=
  match (s.worker w).stack.getLast? with
  | some sf => s.modWorker w fun wk => { wk with stack := wk.stack.dropLast ++ [g sf] }
  | none =>
    match (s.worker w).frameFf with
    | some f => s.modFrame f g
    | none => s

-- ---------------------------------------------------------------------------
-- What an access leaves alone
-- ---------------------------------------------------------------------------

section Access

variable (s : State M) (f : FrameId) (g : FullFrame M → FullFrame M) (w : WorkerId)
  (h : Worker M → Worker M)

@[simp] theorem modFf_worker : (s.modFf f g).worker = s.worker := rfl
@[simp] theorem modFf_live : (s.modFf f g).live = s.live := rfl
@[simp] theorem modFf_nextFrame : (s.modFf f g).nextFrame = s.nextFrame := rfl
@[simp] theorem modFf_nextFiber : (s.modFf f g).nextFiber = s.nextFiber := rfl
@[simp] theorem modFf_pending : (s.modFf f g).pending = s.pending := rfl
@[simp] theorem modFf_released : (s.modFf f g).released = s.released := rfl
@[simp] theorem modFf_fiberFor : (s.modFf f g).fiberFor = s.fiberFor := rfl
theorem modFf_ff : (s.modFf f g).ff = Function.update s.ff f (g (s.ff f)) := rfl
@[simp] theorem modFf_ff_self : (s.modFf f g).ff f = g (s.ff f) := Function.update_self ..

@[simp] theorem modWorker_ff : (s.modWorker w h).ff = s.ff := rfl
@[simp] theorem modWorker_live : (s.modWorker w h).live = s.live := rfl
@[simp] theorem modWorker_nextFrame : (s.modWorker w h).nextFrame = s.nextFrame := rfl
@[simp] theorem modWorker_nextFiber : (s.modWorker w h).nextFiber = s.nextFiber := rfl
@[simp] theorem modWorker_pending : (s.modWorker w h).pending = s.pending := rfl
@[simp] theorem modWorker_released : (s.modWorker w h).released = s.released := rfl
@[simp] theorem modWorker_fiberFor : (s.modWorker w h).fiberFor = s.fiberFor := rfl
theorem modWorker_worker :
    (s.modWorker w h).worker = Function.update s.worker w (h (s.worker w)) := rfl
@[simp] theorem modWorker_worker_self : (s.modWorker w h).worker w = h (s.worker w) :=
  Function.update_self ..

variable {f w}

@[simp] theorem modFf_ff_ne {f' : FrameId} (hne : f' ≠ f) : (s.modFf f g).ff f' = s.ff f' :=
  Function.update_of_ne hne ..

@[simp] theorem modWorker_worker_ne {w' : WorkerId} (hne : w' ≠ w) :
    (s.modWorker w h).worker w' = s.worker w' :=
  Function.update_of_ne hne ..

end Access

end SwanRuntime.Runtime
