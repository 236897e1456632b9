import Mathlib.Data.Finset.Card
import Mathlib.Data.Finset.Range
import SwanRuntime.Dataflow.Metadata

/-!
# Dataflow — tasks

The tasks of a program, numbered in the order in which they are issued, and the
objects they access. Each call of `add_task` and of `wakeup` holds the lock of
its object and is one step; the steps of different tasks interleave freely,
except that one task is issued at a time.

A task goes through a pending frame, or it is run by its parent directly when
`ini_ready` holds for all its objects. In the second case it is issued, with
null frames, while it is already running (`detach_for_steal` does so when the
parent's continuation is stolen).

`readied` and `direct` record which frames have been put on a ready list and
which tasks went without a frame; no step depends on them.
-/

namespace SwanRuntime.Dataflow

variable {Obj : Type*} [DecidableEq Obj]

/-- One argument of a task: the object and how it is accessed. -/
structure Access (Obj : Type*) where
  obj   : Obj
  group : Group
deriving DecidableEq, Repr

/-- The objects of a list of arguments. -/
def objs (l : List (Access Obj)) : List Obj := l.map Access.obj

/-- How far a task is; a list holds the arguments still to be issued or woken. -/
inductive Phase (Obj : Type*)
  | unissued
  | issuing (rem : List (Access Obj))
  | direct (rem : List (Access Obj))
  | pending
  | ready
  | running
  | releasing (rem : List (Access Obj))
deriving DecidableEq, Repr

/-- The task, with arguments `l`, has been issued on `o` and has not called
`wakeup` on it. -/
def Phase.live (l : List (Access Obj)) (o : Obj) : Phase Obj → Bool
  | .unissued => false
  | .issuing rem => decide (o ∈ objs l) && !decide (o ∈ objs rem)
  | .direct rem => decide (o ∈ objs l) && !decide (o ∈ objs rem)
  | .pending => decide (o ∈ objs l)
  | .ready => decide (o ∈ objs l)
  | .running => decide (o ∈ objs l)
  | .releasing rem => decide (o ∈ objs rem)

/-- The task has called `wakeup` on `o`. -/
def Phase.woken (l : List (Access Obj)) (o : Obj) : Phase Obj → Bool
  | .releasing rem => decide (o ∈ objs l) && !decide (o ∈ objs rem)
  | _ => false

def Phase.halfIssued : Phase Obj → Bool
  | .issuing _ | .direct _ => true
  | _ => false

/-- The frame has been put on a ready list, or the task runs without one. -/
def Phase.handedOut : Phase Obj → Bool
  | .ready | .running | .releasing _ => true
  | _ => false

/-- The task has been handed out or its parent runs it. -/
def Phase.admitted : Phase Obj → Bool
  | .direct _ | .ready | .running | .releasing _ => true
  | _ => false

structure State (Obj : Type*) where
  objMeta  : Obj → Metadata
  incoming : TaskId → Nat
  phase    : TaskId → Phase Obj
  next     : Nat
  readied  : List TaskId
  direct   : TaskId → Bool

def State.initial : State Obj where
  objMeta _ := .initial
  incoming _ := 0
  phase _ := .unissued
  next := 0
  readied := []
  direct _ := false

/-- The atomic decrements of `wakeup_hard`, and the frames it puts on the local
ready list: those whose count was 1. -/
def decIncoming : List TaskId → (TaskId → Nat) → (TaskId → Nat) × List TaskId
  | [], c => (c, [])
  | t :: ts, c =>
    let (c', ready) := decIncoming ts (Function.update c t ((c t + (2 ^ 32 - 1)) % 2 ^ 32))
    (c', if c t = 1 then t :: ready else ready)

/-- The frames of `ready` become ready. -/
def markReady (phase : TaskId → Phase Obj) (ready : List TaskId) : TaskId → Phase Obj :=
  fun t => if t ∈ ready then .ready else phase t

inductive Event (Obj : Type*)
  | create (t : TaskId)
  | createDirect (t : TaskId)
  | addTask (t : TaskId) (o : Obj)
  | issued (t : TaskId)
  | start (t : TaskId)
  | finish (t : TaskId)
  | wakeup (t : TaskId) (o : Obj)

variable (prog : TaskId → List (Access Obj))

inductive Step (s : State Obj) : Event Obj → State Obj → Prop
  /-- `__cilkrts_pending_frame_create`. -/
  | create (idle : ∀ t, (s.phase t).halfIssued = false) :
    Step s (.create s.next)
      { s with
        phase := Function.update s.phase s.next (.issuing (prog s.next))
        incoming := Function.update s.incoming s.next 1
        next := s.next + 1 }
  /-- A spawn that finds all its objects ready. -/
  | createDirect (idle : ∀ t, (s.phase t).halfIssued = false)
      (ready : ∀ a ∈ prog s.next, iniReady (s.objMeta a.obj) a.group.bits = true) :
    Step s (.createDirect s.next)
      { s with
        phase := Function.update s.phase s.next (.direct (prog s.next))
        direct := Function.update s.direct s.next true
        next := s.next + 1 }
  | addTask {t : TaskId} {a : Access Obj} {rem : List (Access Obj)}
      (pc : s.phase t = .issuing (a :: rem)) :
    Step s (.addTask t a.obj)
      { s with
        objMeta := Function.update s.objMeta a.obj
          (addTask (some t) (s.objMeta a.obj) a.group.bits).1
        incoming := Function.update s.incoming t
          ((s.incoming t + (addTask (some t) (s.objMeta a.obj) a.group.bits).2) % 2 ^ 32)
        phase := Function.update s.phase t (.issuing rem) }
  | addNull {t : TaskId} {a : Access Obj} {rem : List (Access Obj)}
      (pc : s.phase t = .direct (a :: rem)) :
    Step s (.addTask t a.obj)
      { s with
        objMeta := Function.update s.objMeta a.obj
          (addTask none (s.objMeta a.obj) a.group.bits).1
        phase := Function.update s.phase t (.direct rem) }
  /-- The issuer's own decrement takes the count to 0. -/
  | issuedReady {t : TaskId} (pc : s.phase t = .issuing []) (last : s.incoming t = 1) :
    Step s (.issued t)
      { s with
        incoming := Function.update s.incoming t 0
        phase := Function.update s.phase t .ready
        readied := t :: s.readied }
  | issuedPending {t : TaskId} (pc : s.phase t = .issuing []) (more : s.incoming t ≠ 1) :
    Step s (.issued t)
      { s with
        incoming := Function.update s.incoming t ((s.incoming t + (2 ^ 32 - 1)) % 2 ^ 32)
        phase := Function.update s.phase t .pending }
  | issuedDirect {t : TaskId} (pc : s.phase t = .direct []) :
    Step s (.issued t) { s with phase := Function.update s.phase t .running }
  | start {t : TaskId} (pc : s.phase t = .ready) :
    Step s (.start t) { s with phase := Function.update s.phase t .running }
  | finish {t : TaskId} (pc : s.phase t = .running) :
    Step s (.finish t) { s with phase := Function.update s.phase t (.releasing (prog t)) }
  | wakeup {t : TaskId} {a : Access Obj} {rem : List (Access Obj)}
      (pc : s.phase t = .releasing rem) (mem : a ∈ rem) :
    Step s (.wakeup t a.obj)
      { s with
        objMeta := Function.update s.objMeta a.obj (wakeup (s.objMeta a.obj)).1
        incoming := (decIncoming (wakeup (s.objMeta a.obj)).2 s.incoming).1
        phase := markReady (Function.update s.phase t (.releasing (rem.erase a)))
          (decIncoming (wakeup (s.objMeta a.obj)).2 s.incoming).2
        readied := (decIncoming (wakeup (s.objMeta a.obj)).2 s.incoming).2 ++ s.readied }

/-- The tasks of `prog`, issued one after the other. -/
def system : LTS (State Obj) (Event Obj) where
  init s := s = .initial
  step := Step prog

/-! ## What the objects' order asks for -/

/-- How task `t` accesses `o`, if it does. -/
def groupOn (t : TaskId) (o : Obj) : Option Group :=
  ((prog t).find? fun a => decide (a.obj = o)).map Access.group

/-- Tasks `t` and `u` access `o` in one generation: both in the same group,
which is not that of writers, and so does every task between them. -/
def SameGen (o : Obj) (t u : TaskId) : Prop :=
  ∃ g, g ≠ .write ∧ groupOn prog t o = some g ∧ groupOn prog u o = some g ∧
    ∀ v, t < v → v < u → groupOn prog v o = none ∨ groupOn prog v o = some g

/-- The number of tasks issued on `o` that have not called `wakeup` on it. -/
def liveCount (s : State Obj) (o : Obj) : Nat :=
  ((Finset.range s.next).filter fun t => (s.phase t).live (prog t) o = true).card

/-- The step keeps within the 32-bit counters: fewer than `2 ^ 32` tasks are
live on an object, and a task has fewer than `2 ^ 32 - 1` arguments. -/
def Fits (s : State Obj) : Event Obj → Prop
  | .create t => (prog t).length + 1 < 2 ^ 32
  | .addTask _ o => liveCount prog s o + 1 < 2 ^ 32
  | _ => True

end SwanRuntime.Dataflow
