import Mathlib.Logic.Function.Basic
import SwanRuntime.Library.Transition

/-!
# The work-stealing deque — the code

A worker's deque is an array `ltq` of frames with the pointers `head`, `tail`,
`exc` and `protected_tail` into it; a pointer is modelled by its distance from
the start of the array, in slots. `exc` may also hold `EXC_INFINITY`.

The first part gives the operations on a deque that nobody else touches. The
second part is the THE protocol: one victim, any number of thieves, and every
load and store of a shared field a step of its own. A thief holds the victim's
lock throughout; the victim takes it only in the exception check and when it
sets up the next frame for execution.
-/

namespace SwanRuntime

/-- A value of `exc`. -/
inductive Exc
  | slot (i : Int)
  | infinity
deriving DecidableEq, Repr

/-- `t < exc`, the test of `__cilkrts_undo_detach`. -/
def Exc.isAbove (t : Int) : Exc → Bool
  | .slot i => decide (t < i)
  | .infinity => true

/-- What `exc` holds after `if (tmp != EXC_INFINITY) exc = tmp + d`, when it
held `cur` before. -/
def Exc.moved (tmp : Exc) (d : Int) (cur : Exc) : Exc :=
  match tmp with
  | .slot i => .slot (i + d)
  | .infinity => cur

/-- The deque part of `__cilkrts_worker`. -/
structure Deque (α : Type*) where
  head          : Int
  tail          : Int
  protectedTail : Int
  exc           : Exc
  ltq           : Int → α

namespace Deque

variable {α : Type*}

/-- `increment_E`. -/
def incrementE (d : Deque α) : Deque α := { d with exc := d.exc.moved 1 d.exc }

/-- `decrement_E`. -/
def decrementE (d : Deque α) : Deque α := { d with exc := d.exc.moved (-1) d.exc }

/-- `can_steal_from`. -/
def canStealFrom (d : Deque α) : Bool :=
  decide (d.head < d.tail) && decide (d.head < d.protectedTail)

/-- `dekker_protocol`. -/
def dekkerProtocol (d : Deque α) : Bool × Deque α :=
  let d₁ := incrementE d
  if canStealFrom d₁ then (true, d₁) else (false, decrementE d₁)

/-- `decrement_E` undoes `increment_E`. -/
theorem decrementE_incrementE (d : Deque α) : decrementE (incrementE d) = d := by
  obtain ⟨head, tail, protectedTail, exc, ltq⟩ := d
  cases exc with
  | slot i => simp only [incrementE, decrementE, Exc.moved, Int.add_neg_cancel_right]
  | infinity => rfl

/-- A failed `dekker_protocol` leaves the deque as it was. -/
theorem dekkerProtocol_eq (d : Deque α) :
    dekkerProtocol d = if canStealFrom d then (true, incrementE d) else (false, d) := by
  -- `increment_E` touches neither of the pointers that are compared
  have hcan : canStealFrom (incrementE d) = canStealFrom d := rfl
  simp only [dekkerProtocol, hcan, decrementE_incrementE]

end Deque

namespace THE

/-! ## The protocol -/

/-- Where the victim is. The loads and stores are those of the compiled spawn
(`*tail++ = sf`), of `__cilkrts_undo_detach`, of
`__cilkrts_c_THE_exception_check` and of `setup_for_execution`; a parameter is
a value already loaded. -/
inductive VictimPc
  | working
  | pushSlot (t : Int)
  | pushTail (t : Int)
  | popTail (t : Int)
  | popExc (t : Int)
  | checkLock
  | checkHead
  | checkExc (h : Int)
  | checkReadHead
  | checkReadTail (h : Int)
  | checkTail
  | checkTailStore (t : Int)
  | checkUnlock (stolen : Bool)
  | abandoned
  | setupTail
  | setupHead
  | setupReadHead
  | setupExc (h : Int)
  | setupUnlock
deriving DecidableEq, Repr

/-- Where a thief is, in `dekker_protocol` and `detach_for_steal`. -/
inductive ThiefPc
  | outside
  | incE
  | incEStore (tmp : Exc)
  | readHead
  | readTail (h : Int)
  | readHeadAgain
  | readProtected (h : Int)
  | decE
  | decEStore (tmp : Exc)
  | detachHead
  | detachStore (h : Int)
  | detachFrame (h : Int)
  | unlock
deriving DecidableEq, Repr

inductive Party
  | victim
  | thief (k : Nat)
deriving DecidableEq, Repr

/-- The shared fields, who holds the victim's lock, and where everybody is.
Frames are numbered in the order in which they are pushed: `pushed` is the
number of pushes so far, and `consumed` lists who got which frame, the last one
first. -/
structure State extends Deque Nat where
  lock     : Option Party
  victim   : VictimPc
  thief    : Nat → ThiefPc
  pushed   : Nat
  consumed : List (Party × Nat)

inductive Event
  | victim
  /-- A pop returns the frame at index `i`. -/
  | popReturns (i : Int)
  /-- A thief takes frame `f`. -/
  | takes (k : Nat) (f : Nat)
  | thief (k : Nat)
  /-- A store to `protected_tail`. -/
  | protect
deriving DecidableEq, Repr

/-- The victim's own steps. -/
inductive VictimStep (s : State) : Event → State → Prop
  | pushLoad (pc : s.victim = .working) :
    VictimStep s .victim { s with victim := .pushSlot s.tail }
  | pushSlot {t : Int} (pc : s.victim = .pushSlot t) :
    VictimStep s .victim
      { s with ltq := Function.update s.ltq t s.pushed, victim := .pushTail t }
  | pushTail {t : Int} (pc : s.victim = .pushTail t) :
    VictimStep s .victim
      { s with tail := t + 1, pushed := s.pushed + 1, victim := .working }
  | popLoad (pc : s.victim = .working) :
    VictimStep s .victim { s with victim := .popTail s.tail }
  | popTail {t : Int} (pc : s.victim = .popTail t) :
    VictimStep s .victim { s with tail := t - 1, victim := .popExc (t - 1) }
  | popFast {t : Int} (pc : s.victim = .popExc t) (h : s.exc.isAbove t = false) :
    VictimStep s (.popReturns t)
      { s with consumed := (.victim, s.ltq t) :: s.consumed, victim := .working }
  | popSlow {t : Int} (pc : s.victim = .popExc t) (h : s.exc.isAbove t = true) :
    VictimStep s .victim { s with victim := .checkLock }
  | checkLock (pc : s.victim = .checkLock) (free : s.lock = none) :
    VictimStep s .victim { s with lock := some .victim, victim := .checkHead }
  | checkHead (pc : s.victim = .checkHead) :
    VictimStep s .victim { s with victim := .checkExc s.head }
  | checkExc {h : Int} (pc : s.victim = .checkExc h) :
    VictimStep s .victim { s with exc := .slot h, victim := .checkReadHead }
  | checkReadHead (pc : s.victim = .checkReadHead) :
    VictimStep s .victim { s with victim := .checkReadTail s.head }
  | checkNotStolen {h : Int} (pc : s.victim = .checkReadTail h) (lt : h < s.tail + 1) :
    VictimStep s .victim { s with victim := .checkUnlock false }
  | checkStolen {h : Int} (pc : s.victim = .checkReadTail h) (ge : ¬ h < s.tail + 1) :
    VictimStep s .victim { s with victim := .checkTail }
  | checkTail (pc : s.victim = .checkTail) :
    VictimStep s .victim { s with victim := .checkTailStore s.tail }
  | checkTailStore {t : Int} (pc : s.victim = .checkTailStore t) :
    VictimStep s .victim { s with tail := t + 1, victim := .checkUnlock true }
  | popChecked (pc : s.victim = .checkUnlock false) :
    VictimStep s (.popReturns s.tail)
      { s with
        lock := none
        consumed := (.victim, s.ltq s.tail) :: s.consumed
        victim := .working }
  | popStolen (pc : s.victim = .checkUnlock true) :
    VictimStep s .victim { s with lock := none, victim := .abandoned }
  /-- Reductions run before the worker returns to the scheduler, and may spawn. -/
  | reductions (pc : s.victim = .abandoned) :
    VictimStep s .victim { s with victim := .working }
  | setupLock (pc : s.victim = .abandoned) (free : s.lock = none) :
    VictimStep s .victim { s with lock := some .victim, victim := .setupTail }
  | setupTail (pc : s.victim = .setupTail) :
    VictimStep s .victim { s with tail := 0, victim := .setupHead }
  | setupHead (pc : s.victim = .setupHead) :
    VictimStep s .victim { s with head := 0, victim := .setupReadHead }
  | setupReadHead (pc : s.victim = .setupReadHead) :
    VictimStep s .victim { s with victim := .setupExc s.head }
  | setupExc {h : Int} (pc : s.victim = .setupExc h) :
    VictimStep s .victim { s with exc := .slot h, victim := .setupUnlock }
  | setupUnlock (pc : s.victim = .setupUnlock) :
    VictimStep s .victim { s with lock := none, victim := .working }

def State.at (s : State) (k : Nat) (pc : ThiefPc) : State :=
  { s with thief := Function.update s.thief k pc }

/-- The steps of thief `k`. -/
inductive ThiefStep (s : State) (k : Nat) : Event → State → Prop
  | lock (pc : s.thief k = .outside) (free : s.lock = none) :
    ThiefStep s k (.thief k) ({ s with lock := some (.thief k) }.at k .incE)
  | incE (pc : s.thief k = .incE) :
    ThiefStep s k (.thief k) (s.at k (.incEStore s.exc))
  | incEStore {tmp : Exc} (pc : s.thief k = .incEStore tmp) :
    ThiefStep s k (.thief k) ({ s with exc := tmp.moved 1 s.exc }.at k .readHead)
  | readHead (pc : s.thief k = .readHead) :
    ThiefStep s k (.thief k) (s.at k (.readTail s.head))
  | readTail {h : Int} (pc : s.thief k = .readTail h) (lt : h < s.tail) :
    ThiefStep s k (.thief k) (s.at k .readHeadAgain)
  | emptyDeque {h : Int} (pc : s.thief k = .readTail h) (ge : ¬ h < s.tail) :
    ThiefStep s k (.thief k) (s.at k .decE)
  | readHeadAgain (pc : s.thief k = .readHeadAgain) :
    ThiefStep s k (.thief k) (s.at k (.readProtected s.head))
  | readProtected {h : Int} (pc : s.thief k = .readProtected h) (lt : h < s.protectedTail) :
    ThiefStep s k (.thief k) (s.at k .detachHead)
  | isProtected {h : Int} (pc : s.thief k = .readProtected h) (ge : ¬ h < s.protectedTail) :
    ThiefStep s k (.thief k) (s.at k .decE)
  | decE (pc : s.thief k = .decE) :
    ThiefStep s k (.thief k) (s.at k (.decEStore s.exc))
  | decEStore {tmp : Exc} (pc : s.thief k = .decEStore tmp) :
    ThiefStep s k (.thief k) ({ s with exc := tmp.moved (-1) s.exc }.at k .unlock)
  | detachHead (pc : s.thief k = .detachHead) :
    ThiefStep s k (.thief k) (s.at k (.detachStore s.head))
  | detachStore {h : Int} (pc : s.thief k = .detachStore h) :
    ThiefStep s k (.thief k) ({ s with head := h + 1 }.at k (.detachFrame h))
  | detachFrame {h : Int} (pc : s.thief k = .detachFrame h) :
    ThiefStep s k (.takes k (s.ltq h))
      ({ s with consumed := (.thief k, s.ltq h) :: s.consumed }.at k .unlock)
  | unlock (pc : s.thief k = .unlock) :
    ThiefStep s k (.thief k) ({ s with lock := none }.at k .outside)

/-- All interleavings. `__cilkrts_disallow_stealing` and
`__cilkrts_restore_stealing` take no lock and write `protected_tail` only, so
that field may change to anything at any time. -/
inductive Step (s : State) : Event → State → Prop
  | victim {e : Event} {t : State} (h : VictimStep s e t) : Step s e t
  | thief {k : Nat} {e : Event} {t : State} (h : ThiefStep s k e t) : Step s e t
  | protect {p : Int} : Step s .protect { s with protectedTail := p }

/-- The deque of a worker that has just been made (`make_worker`). -/
def system : LTS State Event where
  init s := ∃ p ltq, s =
    { head := 0, tail := 0, protectedTail := p, exc := .slot 0, ltq := ltq, lock := none
      victim := .working, thief := fun _ => .outside, pushed := 0, consumed := [] }
  step := Step

end THE

end SwanRuntime
