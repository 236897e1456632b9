import Mathlib.Data.Multiset.AddSub
import Mathlib.Data.Multiset.Count
import Mathlib.Logic.Function.Basic
import SwanRuntime.Library.Transition

/-!
# Ready lists — the code

A worker's `ready_list` is a singly linked list of pending frames with a tail
pointer (`abi.h`). The runtime treats the list head as a node: the address of
`head_next_ready_frame` is stored in `tail` when the list is empty, so one
assignment through `tail` both appends to a non-empty list and fills an empty
one. `Cell` is the address of such a `next_ready_frame` slot.

`ListId.worker w` is `w->ready_list`; `ListId.rlist` is the local list that
`__cilkrts_obj_metadata_wakeup` fills for its caller and that
`__cilkrts_move_to_ready_list` appends to a worker's list.
-/

namespace SwanRuntime

abbrev WorkerId := Nat

/-- The address of a pending frame. -/
abbrev PfId := Nat

/-- The fields of `__cilkrts_pending_frame` that the NUMA filter reads. -/
structure PendingNuma where
  numaLow  : UInt32
  numaHigh : UInt32
deriving DecidableEq, Repr

/-- `match_numa_range`; the bounds are converted to `int` by the call. -/
def matchNumaRange (myNuma numaLow numaHigh : Int32) : Bool :=
  decide (numaLow ≤ myNuma) && decide (myNuma < numaHigh)

/-- `match_numa_pf`: a frame with an empty range runs anywhere. -/
def matchNumaPf (myNuma : Int32) (pf : PendingNuma) : Bool :=
  if pf.numaLow ≠ pf.numaHigh then
    matchNumaRange myNuma pf.numaLow.toInt32 pf.numaHigh.toInt32
  else
    true

namespace ReadyList

inductive ListId
  | worker (w : WorkerId)
  | rlist
deriving DecidableEq, Repr

/-- The address of a `next_ready_frame` slot: a list head or a frame's own. -/
inductive Cell
  | head (l : ListId)
  | node (pf : PfId)
deriving DecidableEq, Repr

/-- The memory the ready lists live in. -/
structure Memory where
  next : Cell → Option PfId
  tail : ListId → Cell
  numa : PfId → PendingNuma

/-- The empty list of `make_worker`, for every worker. -/
def Memory.initial (numa : PfId → PendingNuma) : Memory where
  next _ := none
  tail l := .head l
  numa := numa

/-- `l.tail->next_ready_frame = pf; l.tail = pf` after clearing `pf`'s own
link: the three stores shared by every routine that pushes one frame. -/
def push (m : Memory) (l : ListId) (pf : PfId) : Memory :=
  { m with
    next := Function.update (Function.update m.next (.node pf) none) (m.tail l) (some pf)
    tail := Function.update m.tail l (.node pf) }

/-- `__cilkrts_obj_metadata_add_pending_to_ready_list`. -/
def addPendingToReadyList (m : Memory) (w : WorkerId) (pf : PfId) : Memory :=
  push m (.worker w) pf

/-- `add_pending_to_other_ready_list`: the same stores on another worker's
list, after the NUMA range of the frame has been written. -/
def addPendingToOtherReadyList (m : Memory) (other : WorkerId) (pf : PfId)
    (range : PendingNuma) : Memory :=
  push { m with numa := Function.update m.numa pf range } (.worker other) pf

/-- An empty local list. -/
def initRlist (m : Memory) : Memory :=
  { m with
    next := Function.update m.next (.head .rlist) none
    tail := Function.update m.tail .rlist (.head .rlist) }

/-- The local list after a wakeup has pushed `pfs` on it, one at a time. -/
def fillRlist (m : Memory) (pfs : List PfId) : Memory :=
  pfs.foldl (fun m pf => push m .rlist pf) (initRlist m)

/-- `__cilkrts_move_to_ready_list`. -/
def moveToReadyList (m : Memory) (w : WorkerId) : Memory :=
  match m.next (.head .rlist) with
  | none => m
  | some pf =>
    { m with
      next := Function.update m.next (m.tail (.worker w)) (some pf)
      tail := Function.update m.tail (.worker w) (m.tail .rlist) }

/-- The loop `while( pf && !match_numa_pf( w, pf ) )` of
`steal_from_ready_list`, run for at most `fuel` iterations: the final `qf` and
`pf`, or `none` when it is still running. -/
def skipMismatch (m : Memory) (myNuma : Int32) :
    Nat → PfId → Option PfId → Option (PfId × Option PfId)
  | _, qf, none => some (qf, none)
  | 0, _, some _ => none
  | fuel + 1, qf, some pf =>
    if matchNumaPf myNuma (m.numa pf) then some (qf, some pf)
    else skipMismatch m myNuma fuel pf (m.next (.node pf))

/-- `if( NULL == head_next_ready_frame ) tail = &head_next_ready_frame`. -/
def resetTail (m : Memory) (victim : WorkerId) : Memory :=
  if m.next (.head (.worker victim)) = none then
    { m with tail := Function.update m.tail (.worker victim) (.head (.worker victim)) }
  else m

/-- The list part of `steal_from_ready_list`, for a thief on node `myNuma`.
The outer option is `none` while the search runs out of `fuel` (or the list is
empty, which the callers exclude); the inner one is the frame taken, `none`
for the `return 0`. -/
def stealFromReadyList (m : Memory) (fuel : Nat) (victim : WorkerId) (myNuma : Int32) :
    Option (Option PfId × Memory) :=
  match m.next (.head (.worker victim)) with
  | none => none
  | some pf =>
    if matchNumaPf myNuma (m.numa pf) then
      let m₁ := { m with
        next := Function.update m.next (.head (.worker victim)) (m.next (.node pf)) }
      some (some pf, resetTail m₁ victim)
    else
      match skipMismatch m myNuma fuel pf (m.next (.node pf)) with
      | none => none
      | some (_, none) => some (none, m)
      | some (qf, some ready) =>
        let m₁ := { m with
          next := Function.update m.next (.node qf) (m.next (.node ready)) }
        some (some ready, resetTail m₁ victim)

/-! ## The system -/

/-- The memory together with what has been pushed on and taken from each
worker's list so far. -/
structure State where
  mem    : Memory
  pushed : WorkerId → Multiset PfId
  stolen : WorkerId → Multiset PfId

inductive Event
  | addPending (w : WorkerId) (pf : PfId)
  | addPendingToOther (other : WorkerId) (pf : PfId) (range : PendingNuma)
  | moveToReadyList (w : WorkerId) (pfs : List PfId)
  | stealFromReadyList (victim : WorkerId) (myNuma : Int32)
deriving DecidableEq, Repr

/-- Each earlier push of `pf` has been handed out: `incoming_count` reaches 0
once, so a frame is never pushed while it is on a list. -/
def Detached (s : State) (pf : PfId) : Prop :=
  ∀ w, (s.pushed w).count pf ≤ (s.stolen w).count pf

/-- Every operation holds the lock of the worker whose list it changes, so each
is one step. The search of a steal may take any number of iterations. -/
inductive Step (s : State) : Event → State → Prop
  | addPending {w : WorkerId} {pf : PfId} (fresh : Detached s pf) :
    Step s (.addPending w pf)
      { s with
        mem := addPendingToReadyList s.mem w pf
        pushed := Function.update s.pushed w (pf ::ₘ s.pushed w) }
  | addPendingToOther {other : WorkerId} {pf : PfId} {range : PendingNuma}
      (fresh : Detached s pf) :
    Step s (.addPendingToOther other pf range)
      { s with
        mem := addPendingToOtherReadyList s.mem other pf range
        pushed := Function.update s.pushed other (pf ::ₘ s.pushed other) }
  | moveToReadyList {w : WorkerId} {pfs : List PfId}
      (fresh : ∀ pf ∈ pfs, Detached s pf) (nodup : pfs.Nodup) :
    Step s (.moveToReadyList w pfs)
      { s with
        mem := moveToReadyList (fillRlist s.mem pfs) w
        pushed := Function.update s.pushed w (Multiset.ofList pfs + s.pushed w) }
  | stolen {victim : WorkerId} {myNuma : Int32} {fuel : Nat} {pf : PfId} {m : Memory}
      (taken : stealFromReadyList s.mem fuel victim myNuma = some (some pf, m)) :
    Step s (.stealFromReadyList victim myNuma)
      { s with
        mem := m
        stolen := Function.update s.stolen victim (pf ::ₘ s.stolen victim) }
  | refused {victim : WorkerId} {myNuma : Int32} {fuel : Nat} {m : Memory}
      (none_taken : stealFromReadyList s.mem fuel victim myNuma = some (none, m)) :
    Step s (.stealFromReadyList victim myNuma) { s with mem := m }

/-- The ready lists of the runtime, empty at first, with any NUMA ranges in the
frames. -/
def system : LTS State Event where
  init s := ∃ numa, s = ⟨Memory.initial numa, fun _ => 0, fun _ => 0⟩
  step := Step

end ReadyList

end SwanRuntime
