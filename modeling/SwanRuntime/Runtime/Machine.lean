import SwanRuntime.Library.Transition
import SwanRuntime.Runtime.Scheduler

/-!
# The runtime — its runs

The transition system of the whole runtime: any number of user workers and
`P - 1` system workers, each performing one step at a time in any order. A step
either leads to a new state or fails with the text of the assertion that stops
the program (or of the expression that dereferences `NULL`).

Replay logs are not part of this system, and a steal attempt that takes nothing
changes nothing, so only successful attempts are steps.
-/

namespace SwanRuntime.Runtime

open Reducers

variable {K : Type} [DecidableEq K] {M : K → Type} [∀ k, Monoid (M k)]

/-- A step of the runtime, by the worker that performs it. -/
inductive Event (M : K → Type)
  /-- A thread is bound to a user worker and enters its initial frame. -/
  | bind (u : WorkerId) (code : Code M) (init : ∀ k, M k)
  | update (w : WorkerId)
  | call (w : WorkerId)
  | spawn (w : WorkerId)
  | detachPending (w : WorkerId)
  | makeReady (w : WorkerId) (pf : PendingFrame)
  | sync (w : WorkerId)
  | ret (w : WorkerId)
  /-- A worker has finished an unlocked reduction. -/
  | reduced (w : WorkerId)
  | enterRuntime (w : WorkerId)
  | resume (w : WorkerId)
  | loseTeam (w : WorkerId)
  | steal (w victim : WorkerId)
  | stealReady (w victim : WorkerId) (pf : PendingFrame)
  | promote (w : WorkerId)

/-- The victim's deque is not empty. -/
def canSteal (s : State M) (w : WorkerId) : Bool := (s.worker w).stack.any (·.detached)

/-- A user worker steals from its own team only. -/
def mayStealFrom (s : State M) (w victim : WorkerId) : Prop :=
  (s.worker w).type = .user → (s.worker victim).team = some w

/-- The worker executes user code and its current frame is `sf`. -/
def Executing (s : State M) (w : WorkerId) (sf : StackFrame M) : Prop :=
  (s.worker w).phase = .running ∧ s.current w = some sf

/-- What the current frame does when it has no code left: an unsynched frame
syncs first, a frame with a caller on the stack of the worker returns to it, and
the frame of the full frame itself leaves through the runtime. -/
def leaveFrame (s : State M) (w : WorkerId) (sf : StackFrame M) : Checked (State M) :=
  if (s.worker w).stack.isEmpty then
    if sf.detached then executeReductionsForSpawnReturn s w
    else if sf.last then cReturnFromInitial s w
    else cilkrtsReturn s w
  else
    return s.modWorker w fun wk => { wk with stack := wk.stack.dropLast }

/-- The steps of the runtime. -/
inductive Step (g : Settings) : State M → Event M → Checked (State M) → Prop
  | bind {s : State M} {u : WorkerId} {code : Code M} {init : ∀ k, M k}
      (h : (s.worker u).type = .free) :
      Step g s (.bind u code init) (.ok (bindThread s u code init))
  | update {s : State M} {w : WorkerId} {sf : StackFrame M} {k : K} {x : M k} {rest : Code M}
      (h : Executing s w sf) (hcode : sf.code = .update k x rest)
      (hforce : g.forceReduce = true → canSteal s w = false) :
      Step g s (.update w) (.ok ((updateReducer s w k x).modCurrent w fun sf =>
        sf.advance (Pi.mulSingle k x) rest))
  | call {s : State M} {w : WorkerId} {sf : StackFrame M} {child rest : Code M}
      (h : Executing s w sf) (hcode : sf.code = .call child rest) :
      Step g s (.call w) (.ok (pushStackFrame
        (s.modCurrent w fun sf => sf.advance child.product rest) w
        (enterFrame s w child false)))
  | spawn {s : State M} {w : WorkerId} {sf : StackFrame M} {child rest : Code M}
      (h : Executing s w sf) (hcode : sf.code = .spawn child rest) :
      Step g s (.spawn w) (.ok (pushStackFrame
        (s.modCurrent w fun sf => sf.advance child.product rest) w
        (enterFrame s w child true)))
  | detachPending {s : State M} {w : WorkerId} {f : FrameId} {sf : StackFrame M}
      {child rest : Code M} (h : Executing s w sf) (hcode : sf.code = .pending child rest)
      (hstack : (s.worker w).stack = []) (hf : (s.worker w).frameFf = some f) :
      Step g s (.detachPending w) (.ok (detachPending
        (s.modCurrent w fun sf => sf.advance child.product rest) w f child))
  | makeReady {s : State M} {w : WorkerId} {pf : PendingFrame}
      (h : (s.worker w).phase = .running) (hpf : pf ∈ s.pending) :
      Step g s (.makeReady w pf) (.ok (makeReady s w pf))
  | syncNothing {s : State M} {w : WorkerId} {sf : StackFrame M} {rest : Code M}
      (h : Executing s w sf) (hcode : sf.code = .sync rest) (hsync : sf.unsynched = false) :
      Step g s (.sync w) (.ok (s.modCurrent w fun sf => sf.advance 1 rest))
  | sync {s : State M} {w : WorkerId} {sf : StackFrame M} {rest : Code M}
      (h : Executing s w sf) (hcode : sf.code = .sync rest) (hsync : sf.unsynched = true) :
      Step g s (.sync w) (cSync s w rest)
  | retSync {s : State M} {w : WorkerId} {sf : StackFrame M}
      (h : Executing s w sf) (hcode : sf.code = .ret) (hsync : sf.unsynched = true) :
      Step g s (.ret w) (cSync s w .ret)
  | ret {s : State M} {w : WorkerId} {sf : StackFrame M}
      (h : Executing s w sf) (hcode : sf.code = .ret) (hsync : sf.unsynched = false) :
      Step g s (.ret w) (leaveFrame s w sf)
  | reducedSpawn {s : State M} {w : WorkerId} {left middle right : Option (ReducerMap M)}
      (h : (s.worker w).phase = .spawnReduction left middle right) :
      Step g s (.reduced w) (reduceForSpawnReturn s w left middle right)
  | reducedSync {s : State M} {w : WorkerId} {left middle : Option (ReducerMap M)}
      (h : (s.worker w).phase = .syncReduction left middle) :
      Step g s (.reduced w) (reduceForSync s w left middle)
  | spawnReturned {s : State M} {w : WorkerId} (h : (s.worker w).phase = .spawnReturned) :
      Step g s (.enterRuntime w) (longjmpIntoRuntime g.P s w .doReturnFromSpawn)
  | synching {s : State M} {w : WorkerId} (h : (s.worker w).phase = .synching) :
      Step g s (.enterRuntime w) (longjmpIntoRuntime g.P s w .doSync)
  | callReturned {s : State M} {w : WorkerId} {f : FrameId}
      (h : (s.worker w).phase = .callReturning f) :
      Step g s (.ret w) (finishCilkrtsReturn s w f)
  | resume {s : State M} {w : WorkerId} (h : (s.worker w).phase = .scheduling)
      (hnext : (s.worker w).nextFrameFf.isSome) :
      Step g s (.resume w) (resumeNextFrame s w)
  | loseTeam {s : State M} {w : WorkerId} (h : (s.worker w).phase = .scheduling)
      (htype : (s.worker w).type ≠ .user) (hready : (s.worker w).readyList = []) :
      Step g s (.loseTeam w) (.ok (s.modWorker w fun wk => { wk with team := none }))
  | steal {s : State M} {w victim : WorkerId} (h : (s.worker w).phase = .scheduling)
      (hne : w ≠ victim) (hteam : mayStealFrom s w victim) (hdeque : canSteal s victim) :
      Step g s (.steal w victim) (randomSteal s w victim)
  | stealOwnReady {s : State M} {w : WorkerId} {pf : PendingFrame}
      (h : (s.worker w).phase = .scheduling) (hpf : pf ∈ (s.worker w).readyList) :
      Step g s (.stealReady w w pf) (readyListSteal s w w pf)
  | stealReady {s : State M} {w victim : WorkerId} {pf : PendingFrame}
      (h : (s.worker w).phase = .scheduling) (hne : w ≠ victim) (hteam : mayStealFrom s w victim)
      (hpf : pf ∈ (s.worker victim).readyList) :
      Step g s (.stealReady w victim pf) (readyListSteal s w victim pf)
  | promote {s : State M} {w : WorkerId} {sf : StackFrame M} {k : K} {x : M k} {rest : Code M}
      (hforce : g.forceReduce = true) (h : Executing s w sf) (hcode : sf.code = .update k x rest)
      (hdeque : canSteal s w) :
      Step g s (.promote w) (promoteOwnDeque s w)

/-- A worker before the runtime has started: the first `P - 1` are system
workers in the scheduling loop, the others are user workers that no thread is
bound to. -/
def initialWorker (P : Nat) (w : WorkerId) : Worker M where
  type          := if w + 1 < P then .system else .free
  team          := none
  frameFf       := none
  nextFrameFf   := none
  lastFullFrame := none
  stack         := []
  reducerMap    := none
  fiberToFree   := none
  readyList     := []
  phase         := if w + 1 < P then .scheduling else .unbound

/-- The runtime with no frames and no fibers, whatever the unused memory holds. -/
def Initial (g : Settings) (s : State M) : Prop :=
  s.worker = initialWorker g.P ∧ s.live = (fun _ => false) ∧ s.nextFrame = 0 ∧ s.nextFiber = 0 ∧
    s.pending = [] ∧ s.released = (fun _ => 0) ∧ s.fiberFor = fun _ => none

/-- The runtime as a transition system. -/
def system (M : K → Type) [∀ k, Monoid (M k)] (g : Settings) : LTS (State M) (Event M) where
  init := Initial g
  step s e s' := Step g s e (.ok s')

/-- The event detaches a pending frame. -/
def Event.isDetachPending : Event M → Bool
  | .detachPending _ => true
  | _ => false

end SwanRuntime.Runtime
