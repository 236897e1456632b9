import Mathlib.Logic.Equiv.Basic
import SwanRuntime.Library.BlockHeap
import SwanRuntime.Library.Transition

/-!
# Holders — the monoids

The monoid of a holder owns an object that initializes the views: none of its own when
they are default-initialized, and otherwise a copy of an exemplar or of a functor in a
block of its own, to which the initializer points from another. The monoids are
copied, moved, swapped and destroyed, and the copies may throw.

The model is a heap that stops at a block or an object that is given back or destroyed
a second time, and a monoid for each object of the program. A view is given back with
`sizeof(Type)` for the count, although it has been obtained with 1. A copy assignment
deletes the old initializer before it makes the new one, and leaves a pointer to it if
that throws; if it does not, control flows off the end of the function, which has no
return statement there and must return a value.
-/

namespace SwanRuntime.Reducers.Holder

-- ---------------------------------------------------------------------------
-- The code
-- ---------------------------------------------------------------------------

/-- `exemplar_init` and `functor_init`. -/
inductive InitKind
  | exemplar
  | functor
deriving DecidableEq, Repr

/-- What is constructed in a block: an exemplar or a view, a functor, or an
initializer, with its pointer to the exemplar or functor. -/
inductive Object
  | value
  | func
  | initializer (kind : InitKind) (stored : Nat)
deriving DecidableEq, Repr

abbrev Heap := BlockHeap Object

/-- The object that an initializer stores. -/
def InitKind.object : InitKind → Object
  | exemplar => .value
  | functor => .func

/-- `exemplar_init::make` and `functor_init::make`, with the constructors. When the
copy throws, the guards give both blocks back. -/
def make (kind : InitKind) (a : Nat) (throws : Bool) (h : Heap) :
    Checked (Heap × Option Nat) := do
  let (h, self) := h.allocate a 1
  let (h, stored) := h.allocate a 1
  if throws then
    let h ← h.deallocate stored a 1
    let h ← h.deallocate self a 1
    return (h, none)
  else
    let h ← h.construct stored kind.object
    let h ← h.construct self (.initializer kind stored)
    return (h, some self)

/-- `clone_self`: the new pointer, unless the copy throws. A pointer to the shared
default initializer is `none`. -/
def cloneSelf (initializer : Option Nat) (a : Nat) (throws : Bool) (h : Heap) :
    Checked (Heap × Option (Option Nat)) :=
  match initializer with
  | none => return (h, some none)
  | some p => do
    match ← h.read p with
    | .initializer kind stored =>
      let _ ← h.read stored
      let (h, self) ← make kind a throws h
      return (h, self.map some)
    | _ => throw "no initializer"

/-- `delete_self`. -/
def deleteSelf (initializer : Option Nat) (a : Nat) (h : Heap) : Checked Heap :=
  match initializer with
  | none => return h
  | some p => do
    match ← h.read p with
    | .initializer _ stored =>
      let h ← h.destroy stored
      let h ← h.deallocate stored a 1
      let h ← h.destroy p
      h.deallocate p a 1
    | _ => throw "no initializer"

/-- `construct_view`. -/
def constructView (initializer : Option Nat) (b : Nat) (throws : Bool) (h : Heap) :
    Checked Heap :=
  match initializer with
  | none => if throws then return h else h.construct b .value
  | some p => do
    match ← h.read p with
    | .initializer _ stored =>
      let _ ← h.read stored
      if throws then return h else h.construct b .value
    | _ => throw "no initializer"

/-- `holder_monoid`: equal allocators are the same number. -/
structure Monoid where
  allocator   : Nat
  initializer : Option Nat
deriving DecidableEq, Repr

/-- The heap, the monoids that exist, and the views that have been obtained and not
given back, each with the allocator it has come from. -/
structure State where
  heap    : Heap
  monoids : Nat → Option Monoid
  views   : Nat → Option Nat

/-- A monoid gets its initializer, unless making that has thrown. -/
def State.withInitializer (s : State) (m a : Nat) (out : Heap × Option (Option Nat)) : State :=
  match out.2 with
  | none => { s with heap := out.1 }
  | some p => { s with heap := out.1, monoids := Function.update s.monoids m (some ⟨a, p⟩) }

/-- The copy assignment. Behind the clone there is no return statement, so it can
only end by an exception, with `m_initializer` as it was. -/
def copyAssign (s : State) (m : Nat) (M : Monoid) (rhs : Nat) (R : Monoid) (throws : Bool) :
    Checked State :=
  if m = rhs then return s
  else do
    let heap ← deleteSelf M.initializer M.allocator s.heap
    let (heap, initializer) ← cloneSelf R.initializer M.allocator throws heap
    match initializer with
    | none => return { s with heap := heap }
    | some _ => throw "no return statement"

/-- `std::swap(m_initializer, rhs.m_initializer)`. -/
def State.swapInitializers (s : State) (m : Nat) (M : Monoid) (rhs : Nat) (R : Monoid) : State :=
  let monoids := Function.update s.monoids m (some { M with initializer := R.initializer })
  { s with monoids := Function.update monoids rhs (some { R with initializer := M.initializer }) }

/-- What the program does with monoids and views. `throws` says whether the copy that
is made throws, if one is made. -/
inductive Event
  | construct (m a : Nat) (kind : Option InitKind) (throws : Bool)
  | copy (m rhs : Nat) (throws : Bool)
  | copyWith (m rhs a : Nat) (throws : Bool)
  | move (m rhs : Nat)
  | delete (m : Nat)
  | assign (m rhs : Nat) (throws : Bool)
  | moveAssign (m rhs : Nat) (throws : Bool)
  | swap (m rhs : Nat)
  | allocate (m : Nat)
  | identity (m b : Nat) (throws : Bool)
  | destroy (m b : Nat)
  | deallocate (m b : Nat)
deriving DecidableEq, Repr

/-- The members of `holder_monoid`, with `size` for `sizeof(Type)`. -/
def run (size : Nat) (s : State) : Event → Checked State
  | .construct m a none _ => return s.withInitializer m a (s.heap, some none)
  | .construct m a (some kind) throws => do
    let (heap, self) ← make kind a throws s.heap
    return s.withInitializer m a (heap, self.map some)
  | .copy m rhs throws =>
    match s.monoids rhs with
    | some R => do
      let out ← cloneSelf R.initializer R.allocator throws s.heap
      return s.withInitializer m R.allocator out
    | none => throw "no monoid"
  | .copyWith m rhs a throws =>
    match s.monoids rhs with
    | some R => do
      let out ← cloneSelf R.initializer a throws s.heap
      return s.withInitializer m a out
    | none => throw "no monoid"
  | .move m rhs =>
    match s.monoids rhs with
    | some R =>
      let monoids := Function.update s.monoids m (some ⟨R.allocator, R.initializer⟩)
      return { s with monoids := Function.update monoids rhs (some { R with initializer := none }) }
    | none => throw "no monoid"
  | .delete m =>
    match s.monoids m with
    | some M => do
      let heap ← deleteSelf M.initializer M.allocator s.heap
      return { s with heap := heap, monoids := Function.update s.monoids m none }
    | none => throw "no monoid"
  | .assign m rhs throws =>
    match s.monoids m, s.monoids rhs with
    | some M, some R => copyAssign s m M rhs R throws
    | _, _ => throw "no monoid"
  | .moveAssign m rhs throws =>
    match s.monoids m, s.monoids rhs with
    | some M, some R =>
      if M.allocator ≠ R.allocator then copyAssign s m M rhs R throws
      else return s.swapInitializers m M rhs R
    | _, _ => throw "no monoid"
  | .swap m rhs =>
    match s.monoids m, s.monoids rhs with
    | some M, some R => return s.swapInitializers m M rhs R
    | _, _ => throw "no monoid"
  | .allocate m =>
    match s.monoids m with
    | some M =>
      let (heap, b) := s.heap.allocate M.allocator 1
      return { s with heap := heap, views := Function.update s.views b (some M.allocator) }
    | none => throw "no monoid"
  | .identity m b throws =>
    match s.monoids m with
    | some M => do
      let heap ← constructView M.initializer b throws s.heap
      return { s with heap := heap }
    | none => throw "no monoid"
  | .destroy _ b => do
    let heap ← s.heap.destroy b
    return { s with heap := heap }
  | .deallocate m b =>
    match s.monoids m with
    | some M => do
      let heap ← s.heap.deallocate b M.allocator size
      return { s with heap := heap, views := Function.update s.views b none }
    | none => throw "no monoid"

-- ---------------------------------------------------------------------------
-- The system
-- ---------------------------------------------------------------------------

/-- The block is a view in which nothing is constructed, or something is. -/
def State.IsView (s : State) (b : Nat) (object : Option Object) : Prop :=
  ∃ a, s.views b = some a ∧ s.heap.blocks b = some ⟨a, 1, object⟩

/-- What a correct program may do: it constructs new monoids and uses those that
exist, it swaps such with equal allocators, it constructs a view in memory for one and
destroys it before it gives the memory back, to an equal allocator. -/
def Allowed (s : State) : Event → Prop
  | .construct m _ _ _ => s.monoids m = none
  | .copy m rhs _ | .copyWith m rhs _ _ | .move m rhs =>
    s.monoids m = none ∧ ∃ R, s.monoids rhs = some R
  | .delete m | .allocate m => ∃ M, s.monoids m = some M
  | .assign m rhs _ | .moveAssign m rhs _ =>
    ∃ M R, s.monoids m = some M ∧ s.monoids rhs = some R
  | .swap m rhs =>
    ∃ M R, s.monoids m = some M ∧ s.monoids rhs = some R ∧ M.allocator = R.allocator
  | .identity m b _ => (∃ M, s.monoids m = some M) ∧ s.IsView b none
  | .destroy m b => (∃ M, s.monoids m = some M) ∧ s.IsView b (some .value)
  | .deallocate m b =>
    ∃ M, s.monoids m = some M ∧ s.views b = some M.allocator ∧ s.IsView b none

/-- The program runs until something is done to a block or an object that must not be
done, which leads to `none`. -/
def system (size : Nat) : LTS (Option State) Event where
  init s := s = some ⟨.empty, fun _ => none, fun _ => none⟩
  step s e t := ∃ st, s = some st ∧ Allowed st e ∧ t = (run size st e).toOption

-- ---------------------------------------------------------------------------
-- The discipline
-- ---------------------------------------------------------------------------

/-- No initializer belongs to two monoids, none that a monoid has was deleted, and
every block is a view or belongs to a monoid. -/
structure State.Disciplined (s : State) : Prop where
  unshared  : ∀ m m' M M' p, s.monoids m = some M → s.monoids m' = some M' →
    M.initializer = some p → M'.initializer = some p → m = m'
  undeleted : ∀ m M p, s.monoids m = some M → M.initializer = some p →
    ∃ kind q, s.heap.blocks p = some ⟨M.allocator, 1, some (.initializer kind q)⟩ ∧
      s.heap.blocks q = some ⟨M.allocator, 1, some kind.object⟩
  unleaked  : ∀ b, s.heap.blocks b ≠ none → s.views b ≠ none ∨
    ∃ m M p kind q, s.monoids m = some M ∧ M.initializer = some p ∧
      s.heap.blocks p = some ⟨M.allocator, 1, some (.initializer kind q)⟩ ∧ (b = p ∨ b = q)

/-- Nothing has been done to a block or an object that must not be done. -/
def Sound : Option State → Prop
  | some s => s.Disciplined
  | none => False

/-- The monoid does not exist or has no initializer of its own. -/
def State.NoInitializer (s : State) (m : Nat) : Prop :=
  ∀ M, s.monoids m = some M → M.initializer = none

/-- Unless a monoid is assigned to itself, there must be a copy, which throws, and no
initializer that is deleted before it. -/
def State.AssignKeeps (s : State) (m rhs : Nat) (throws : Bool) : Prop :=
  m = rhs ∨ throws = true ∧ s.NoInitializer m ∧ ¬ s.NoInitializer rhs

/-- What keeps the discipline: a view is given back with the count 1, and an assignment
that copies throws and has nothing to delete. -/
def Keeps (size : Nat) (s : State) : Event → Prop
  | .assign m rhs throws => s.AssignKeeps m rhs throws
  | .moveAssign m rhs throws =>
    (∀ M R, s.monoids m = some M → s.monoids rhs = some R → M.allocator = R.allocator) ∨
      s.AssignKeeps m rhs throws
  | .deallocate _ _ => size = 1
  | _ => True

end SwanRuntime.Reducers.Holder
