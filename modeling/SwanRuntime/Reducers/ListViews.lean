import Mathlib.Data.Option.Basic
import Mathlib.Tactic.Common
import SwanRuntime.Library.Transition

/-!
# List reducer views

`op_list_append_view` and `op_list_prepend_view` hold a `std::list`. Every operation
that takes another list has a branch for equal allocators, which swaps or splices
nodes, and one for unequal allocators, which copies the elements and removes them
from the argument.

A list is its elements and its allocator; an iterator is a position. Using an
iterator that does not point into the list is undefined, as is a reduction of views
with unequal allocators: the operation then has no result. The operations of a run
name their argument lists, so that a list can be passed to several of them. The
assignment of lists replaces the allocator when the allocator type asks for it
(`propagate`). The views of a split get the allocator of the monoid, which is that of
the leftmost view when the reducer is constructed, and not when the split is made.

What the lists should hold is `ViewOp.apply`, in which no allocator occurs.

## Results

* `opListAppendView_adds`, `opListPrependView_adds` — the two classes, as one.
* `exec_isSome_iff`          — an operation returns exactly if its iterators are valid.
* `opListAppendView_effect`  — the operations of an append view have their effect.
* `opListPrependView_effect` — those of a prepend view as well, unless a list with
  elements and another allocator is spliced as a whole.
* `exec_onto`                — modifiers of a view commute with what is on its left.
* `exec_alloc_iff`           — which operations leave the view its allocator.
* `serial_eq_split`          — the views of any split reduce to the serial view, while
  the leftmost view has the allocator of the monoid.
* `listViews_effect_iff`     — all of this, over runs.
-/

namespace SwanRuntime.Reducers

/-- A container of the standard library. -/
structure Container (A α : Type) where
  elems : List α
  alloc : A

namespace Container

variable {A α : Type}

def beginPos (_ : Container A α) : Nat := 0

def endPos (x : Container A α) : Nat := x.elems.length

/-- The elements from `first` up to `last`. -/
def range (x : Container A α) (first last : Nat) : List α := (x.elems.drop first).take (last - first)

def clear (x : Container A α) : Container A α := { x with elems := [] }

def pushBack (x : Container A α) (element : α) : Container A α :=
  { x with elems := x.elems ++ [element] }

def pushFront (x : Container A α) (element : α) : Container A α :=
  { x with elems := element :: x.elems }

def insert (x : Container A α) (pos : Nat) (elements : List α) : Container A α :=
  { x with elems := x.elems.take pos ++ elements ++ x.elems.drop pos }

def eraseRange (x : Container A α) (first last : Nat) : Container A α :=
  { x with elems := x.elems.take first ++ x.elems.drop last }

def erase (x : Container A α) (i : Nat) : Container A α := x.eraseRange i (i + 1)

/-- Assignment. The allocator stays, unless it propagates. -/
def assign (propagate : Bool) (x v : Container A α) : Container A α :=
  { elems := v.elems, alloc := if propagate then v.alloc else x.alloc }

/-- `splice` of all of `x`: the two lists afterwards. -/
def splice (m : Container A α) (pos : Nat) (x : Container A α) : Container A α × Container A α :=
  (m.insert pos x.elems, x.clear)

/-- `splice` of a range of `x`. -/
def spliceRange (m : Container A α) (pos : Nat) (x : Container A α) (first last : Nat) :
    Container A α × Container A α :=
  (m.insert pos (x.range first last), x.eraseRange first last)

end Container

variable {A α V : Type} [DecidableEq A]

-- ---------------------------------------------------------------------------
-- The code
-- ---------------------------------------------------------------------------

/-- `list_view_base::view_move_in`. -/
def viewMoveIn (propagate : Bool) (m_value v : Container A α) : Container A α × Container A α :=
  let (m_value, v) :=
    if m_value.alloc = v.alloc then (v, m_value) else (m_value.assign propagate v, v)
  (m_value, v.clear)

/-- `list_view_base::view_move_out`. -/
def viewMoveOut (propagate : Bool) (m_value v : Container A α) : Container A α × Container A α :=
  let (m_value, v) :=
    if m_value.alloc = v.alloc then (v, m_value) else (m_value, v.assign propagate m_value)
  (m_value.clear, v)

/-- `list_view_base::view_set_value`. -/
def viewSetValue (propagate : Bool) (m_value v : Container A α) : Container A α :=
  m_value.assign propagate v

/-- What a view class provides besides the base class. The functions that take
iterators have no result where these are not valid. -/
structure ViewClass (A α : Type) where
  push        : Container A α → α → Container A α
  insertN     : Container A α → Nat → α → Container A α
  insert      : Container A α → List α → Container A α
  splice      : Container A α → Container A α → Container A α × Container A α
  spliceOne   : Container A α → Container A α → Nat → Option (Container A α × Container A α)
  spliceRange : Container A α → Container A α → Nat → Nat → Option (Container A α × Container A α)
  reduce      : Container A α → Container A α → Option (Container A α)

/-- `op_list_append_view`. -/
def opListAppendView : ViewClass A α where
  push m_value element := m_value.pushBack element
  insertN m_value n element := m_value.insert m_value.endPos (List.replicate n element)
  insert m_value elements := m_value.insert m_value.endPos elements
  splice m_value x :=
    if x.alloc = m_value.alloc then
      m_value.splice m_value.endPos x
    else
      (m_value.insert m_value.endPos (x.range x.beginPos x.endPos), x.clear)
  spliceOne m_value x i := do
    let element ← x.elems[i]?
    if x.alloc = m_value.alloc then
      return m_value.spliceRange m_value.endPos x i (i + 1)
    else
      return (m_value.pushBack element, x.erase i)
  spliceRange m_value x first last := do
    guard (first ≤ last ∧ last ≤ x.endPos)
    if x.alloc = m_value.alloc then
      return m_value.spliceRange m_value.endPos x first last
    else
      return (m_value.insert m_value.endPos (x.range first last), x.eraseRange first last)
  reduce m_value right := do
    guard (m_value.alloc = right.alloc)
    return (m_value.splice m_value.endPos right).1

/-- `op_list_prepend_view`. With unequal allocators, `splice_front` of a whole list
inserts the range from `x.begin()` to `x.begin()`. -/
def opListPrependView : ViewClass A α where
  push m_value element := m_value.pushFront element
  insertN m_value n element := m_value.insert m_value.beginPos (List.replicate n element)
  insert m_value elements := m_value.insert m_value.beginPos elements
  splice m_value x :=
    if x.alloc = m_value.alloc then
      m_value.splice m_value.beginPos x
    else
      (m_value.insert m_value.beginPos (x.range x.beginPos x.beginPos), x.clear)
  spliceOne m_value x i := do
    let element ← x.elems[i]?
    if x.alloc = m_value.alloc then
      return m_value.spliceRange m_value.beginPos x i (i + 1)
    else
      return (m_value.pushFront element, x.erase i)
  spliceRange m_value x first last := do
    guard (first ≤ last ∧ last ≤ x.endPos)
    if x.alloc = m_value.alloc then
      return m_value.spliceRange m_value.beginPos x first last
    else
      return (m_value.insert m_value.beginPos (x.range first last), x.eraseRange first last)
  reduce m_value right := do
    guard (m_value.alloc = right.alloc)
    return (m_value.splice m_value.beginPos right).1

-- ---------------------------------------------------------------------------
-- Operations on a view and the lists of its arguments
-- ---------------------------------------------------------------------------

/-- A call of a member function of a view. `V` names the argument lists. -/
inductive ViewOp (V α : Type)
  | push (element : α)
  | insertN (n : Nat) (element : α)
  | insert (elements : List α)
  | splice (x : V)
  | spliceOne (x : V) (i : Nat)
  | spliceRange (x : V) (first last : Nat)
  | moveIn (v : V)
  | moveOut (v : V)
  | setValue (v : V)

/-- The view modifier operations, as opposed to those that get and set the value. -/
def ViewOp.Modifier : ViewOp V α → Prop
  | .moveIn _ | .moveOut _ | .setValue _ => False
  | _ => True

/-- A view, and the lists that are passed to its operations. -/
structure ViewState (A V α : Type) where
  view  : Container A α
  lists : V → Container A α

variable [DecidableEq V]

/-- The state after a call that returns the view and its argument list. -/
def ViewState.put (s : ViewState A V α) (x : V) (r : Container A α × Container A α) :
    ViewState A V α where
  view := r.1
  lists := Function.update s.lists x r.2

/-- One operation on a view of class `cls`. -/
def exec (cls : ViewClass A α) (propagate : Bool) (s : ViewState A V α) :
    ViewOp V α → Option (ViewState A V α)
  | .push element => some { s with view := cls.push s.view element }
  | .insertN n element => some { s with view := cls.insertN s.view n element }
  | .insert elements => some { s with view := cls.insert s.view elements }
  | .splice x => some (s.put x (cls.splice s.view (s.lists x)))
  | .spliceOne x i => (cls.spliceOne s.view (s.lists x) i).map (s.put x)
  | .spliceRange x first last => (cls.spliceRange s.view (s.lists x) first last).map (s.put x)
  | .moveIn v => some (s.put v (viewMoveIn propagate s.view (s.lists v)))
  | .moveOut v => some (s.put v (viewMoveOut propagate s.view (s.lists v)))
  | .setValue v => some { s with view := viewSetValue propagate s.view (s.lists v) }

/-- The operations of one strand on its view. -/
def execAll (cls : ViewClass A α) (propagate : Bool) :
    ViewState A V α → List (ViewOp V α) → Option (ViewState A V α)
  | s, [] => some s
  | s, op :: ops => do execAll cls propagate (← exec cls propagate s op) ops

/-- `list_monoid_base::identity`: an empty list with the allocator of the monoid. -/
def identity (m_allocator : A) : Container A α where
  elems := []
  alloc := m_allocator

/-- Consecutive strands, each with a view of its own, in the order of the program. -/
def execStrands (cls : ViewClass A α) (propagate : Bool) (m_allocator : A) :
    (V → Container A α) → List (List (ViewOp V α)) →
      Option (List (Container A α) × (V → Container A α))
  | lists, [] => some ([], lists)
  | lists, ops :: strands => do
    let s ← execAll cls propagate { view := identity m_allocator, lists } ops
    let (views, lists) ← execStrands cls propagate m_allocator s.lists strands
    return (s.view :: views, lists)

/-- The views of consecutive strands, reduced left to right. -/
def reduceAll (cls : ViewClass A α) : Container A α → List (Container A α) → Option (Container A α)
  | left, [] => some left
  | left, right :: views => do reduceAll cls (← cls.reduce left right) views

/-- The strands of a split and their reduction. The monoid has an allocator of its own,
which `construct` takes from the leftmost view once that is built. -/
def execSplit (cls : ViewClass A α) (propagate : Bool) (m_allocator : A) (s : ViewState A V α)
    (strands : List (List (ViewOp V α))) : Option (ViewState A V α) := do
  let (views, lists) ← execStrands cls propagate m_allocator s.lists strands
  let view ← reduceAll cls s.view views
  return { view, lists }

-- ---------------------------------------------------------------------------
-- What the operations are for
-- ---------------------------------------------------------------------------

/-- The iterators of a call point into the list they are passed with. -/
def ViewOp.ValidIterators (s : ViewState A V α) : ViewOp V α → Prop
  | .spliceOne x i => i < (s.lists x).elems.length
  | .spliceRange x first last => first ≤ last ∧ last ≤ (s.lists x).elems.length
  | _ => True

/-- An assignment to the view does not bring another allocator with it. -/
def ViewOp.KeepsAllocator (propagate : Bool) (s : ViewState A V α) : ViewOp V α → Prop
  | .moveIn v | .setValue v => propagate = true → (s.lists v).alloc = s.view.alloc
  | _ => True

/-- The contents of a view and of the argument lists. -/
structure Contents (V α : Type) where
  value : List α
  lists : V → List α

def ViewState.contents (s : ViewState A V α) : Contents V α where
  value := s.view.elems
  lists x := (s.lists x).elems

/-- The effect of an operation on the contents, for a view whose `add` puts elements
at its end or at its front. -/
def ViewOp.apply (add : List α → List α → List α) (c : Contents V α) :
    ViewOp V α → Contents V α
  | .push element => { c with value := add c.value [element] }
  | .insertN n element => { c with value := add c.value (List.replicate n element) }
  | .insert elements => { c with value := add c.value elements }
  | .splice x => ⟨add c.value (c.lists x), Function.update c.lists x []⟩
  | .spliceOne x i =>
    ⟨add c.value (c.lists x)[i]?.toList, Function.update c.lists x ((c.lists x).eraseIdx i)⟩
  | .spliceRange x first last =>
    ⟨add c.value ((c.lists x).drop first |>.take (last - first)),
      Function.update c.lists x ((c.lists x).take first ++ (c.lists x).drop last)⟩
  | .moveIn v => ⟨c.lists v, Function.update c.lists v []⟩
  | .moveOut v => ⟨[], Function.update c.lists v c.value⟩
  | .setValue v => { c with value := c.lists v }

/-- The elements of the list, put where `add` puts them, on what `left` has. -/
def Container.onto (add : List α → List α → List α) (left m : Container A α) : Container A α :=
  { m with elems := add left.elems m.elems }

/--
The functions of a view class are those of a monoid `add` on the elements. `taken`
is what a splice of a whole list adds, given the allocator of the view.
-/
structure ViewClass.Adds (cls : ViewClass A α) (add : List α → List α → List α)
    (taken : A → Container A α → List α) : Prop where
  assoc       : ∀ a b c, add (add a b) c = add a (add b c)
  add_nil     : ∀ a, add a [] = a
  push        : ∀ m element, cls.push m element = { m with elems := add m.elems [element] }
  insertN     : ∀ m n element,
    cls.insertN m n element = { m with elems := add m.elems (List.replicate n element) }
  insert      : ∀ m elements, cls.insert m elements = { m with elems := add m.elems elements }
  splice      : ∀ m x,
    cls.splice m x = ({ m with elems := add m.elems (taken m.alloc x) }, x.clear)
  spliceOne   : ∀ m x i, cls.spliceOne m x i = x.elems[i]?.map fun element =>
    ({ m with elems := add m.elems [element] }, x.erase i)
  spliceRange : ∀ m x first last, cls.spliceRange m x first last =
    if first ≤ last ∧ last ≤ x.endPos then
      some ({ m with elems := add m.elems (x.range first last) }, x.eraseRange first last)
    else none
  reduce      : ∀ m right, cls.reduce m right =
    if m.alloc = right.alloc then some { m with elems := add m.elems right.elems } else none

-- ---------------------------------------------------------------------------
-- The two classes
-- ---------------------------------------------------------------------------

omit [DecidableEq A] in
theorem range_beginPos_endPos (x : Container A α) : x.range x.beginPos x.endPos = x.elems := by
  simp [Container.range, Container.beginPos, Container.endPos]

omit [DecidableEq A] in
theorem range_succ (x : Container A α) (i : Nat) : x.range i (i + 1) = x.elems[i]?.toList := by
  rw [Container.range, Nat.add_sub_cancel_left, List.take_one, List.head?_drop]

omit [DecidableEq A] in
theorem insert_endPos (m : Container A α) (elements : List α) :
    m.insert m.endPos elements = { m with elems := m.elems ++ elements } := by
  simp [Container.insert, Container.endPos]

omit [DecidableEq A] in
theorem insert_beginPos (m : Container A α) (elements : List α) :
    m.insert m.beginPos elements = { m with elems := elements ++ m.elems } := by
  simp [Container.insert, Container.beginPos]

/-- An append view adds at the end, in a splice all of the argument. -/
theorem opListAppendView_adds :
    (opListAppendView : ViewClass A α).Adds (fun a b => a ++ b) (fun _ x => x.elems) where
  assoc := List.append_assoc
  add_nil := List.append_nil
  push _ _ := rfl
  insertN m n element := insert_endPos m _
  insert m elements := insert_endPos m elements
  splice m x := by
    by_cases h : x.alloc = m.alloc
    · simp [opListAppendView, h, Container.splice, insert_endPos]
    · simp [opListAppendView, h, range_beginPos_endPos, insert_endPos]
  spliceOne m x i := by
    rcases hi : x.elems[i]? with _ | element
    · simp [opListAppendView, hi]
    · by_cases h : x.alloc = m.alloc
      · simp [opListAppendView, hi, h, Container.spliceRange, insert_endPos, range_succ,
          Container.erase]
      · simp [opListAppendView, hi, h, Container.pushBack]
  spliceRange m x first last := by
    by_cases hv : first ≤ last ∧ last ≤ x.endPos
    · by_cases h : x.alloc = m.alloc
      · simp [opListAppendView, hv, Container.spliceRange, insert_endPos]
      · simp [opListAppendView, hv, h, insert_endPos]
    · simp [opListAppendView, hv]
  reduce m right := by
    by_cases h : m.alloc = right.alloc
    · simp [opListAppendView, h, Container.splice, insert_endPos]
    · simp [opListAppendView, h]

/-- A prepend view adds at the front, in a splice nothing if the allocators differ. -/
theorem opListPrependView_adds :
    (opListPrependView : ViewClass A α).Adds (fun a b => b ++ a)
      (fun alloc x => if x.alloc = alloc then x.elems else []) where
  assoc a b c := (List.append_assoc c b a).symm
  add_nil := List.nil_append
  push _ _ := rfl
  insertN m n element := insert_beginPos m _
  insert m elements := insert_beginPos m elements
  splice m x := by
    by_cases h : x.alloc = m.alloc
    · simp [opListPrependView, h, Container.splice, insert_beginPos]
    · simp [opListPrependView, h, Container.range, insert_beginPos]
  spliceOne m x i := by
    rcases hi : x.elems[i]? with _ | element
    · simp [opListPrependView, hi]
    · by_cases h : x.alloc = m.alloc
      · simp [opListPrependView, hi, h, Container.spliceRange, insert_beginPos, range_succ,
          Container.erase]
      · simp [opListPrependView, hi, h, Container.pushFront]
  spliceRange m x first last := by
    by_cases hv : first ≤ last ∧ last ≤ x.endPos
    · by_cases h : x.alloc = m.alloc
      · simp [opListPrependView, hv, Container.spliceRange, insert_beginPos]
      · simp [opListPrependView, hv, h, insert_beginPos]
    · simp [opListPrependView, hv]
  reduce m right := by
    by_cases h : m.alloc = right.alloc
    · simp [opListPrependView, h, Container.splice, insert_beginPos]
    · simp [opListPrependView, h]

-- ---------------------------------------------------------------------------
-- One operation
-- ---------------------------------------------------------------------------

omit [DecidableEq A] in
/-- The contents after a call on an argument list. -/
theorem contents_put (s : ViewState A V α) (x : V) (r : Container A α × Container A α) :
    (s.put x r).contents = ⟨r.1.elems, Function.update s.contents.lists x r.2.elems⟩ := by
  simp only [ViewState.contents, ViewState.put, Contents.mk.injEq, true_and]
  funext y
  by_cases h : y = x
  · subst h; simp
  · simp [Function.update_of_ne h]

theorem viewMoveIn_elems (propagate : Bool) (m v : Container A α) :
    (viewMoveIn propagate m v).1.elems = v.elems ∧ (viewMoveIn propagate m v).2.elems = [] := by
  by_cases h : m.alloc = v.alloc <;> simp [viewMoveIn, h, Container.clear, Container.assign]

theorem viewMoveOut_elems (propagate : Bool) (m v : Container A α) :
    (viewMoveOut propagate m v).1.elems = [] ∧ (viewMoveOut propagate m v).2.elems = m.elems := by
  by_cases h : m.alloc = v.alloc <;> simp [viewMoveOut, h, Container.clear, Container.assign]

/-- A value that is moved in brings its allocator along where that propagates. -/
theorem viewMoveIn_alloc (propagate : Bool) (m v : Container A α) :
    (viewMoveIn propagate m v).1.alloc = if propagate then v.alloc else m.alloc := by
  by_cases h : m.alloc = v.alloc <;> simp [viewMoveIn, h, Container.clear, Container.assign]

theorem viewMoveOut_alloc (propagate : Bool) (m v : Container A α) :
    (viewMoveOut propagate m v).1.alloc = m.alloc := by
  by_cases h : m.alloc = v.alloc <;> simp [viewMoveOut, h, Container.clear]

variable {cls : ViewClass A α} {add : List α → List α → List α}
  {taken : A → Container A α → List α}

/-- A call returns exactly if its iterators are valid. -/
theorem exec_isSome_iff (hcls : cls.Adds add taken) (propagate : Bool) (s : ViewState A V α)
    (op : ViewOp V α) : (exec cls propagate s op).isSome ↔ op.ValidIterators s := by
  cases op with
  | spliceOne x i =>
    simp [exec, hcls.spliceOne, ViewOp.ValidIterators]
  | spliceRange x first last =>
    by_cases hv : first ≤ last ∧ last ≤ (s.lists x).endPos
    · simp only [exec, hcls.spliceRange, if_pos hv, Option.map_some, Option.isSome_some, true_iff]
      exact hv
    · simp only [exec, hcls.spliceRange, if_neg hv, Option.map_none, Option.isSome_none,
        Bool.false_eq_true, false_iff]
      exact hv
  | _ => exact ⟨fun _ => trivial, fun _ => rfl⟩

/-- An operation has its effect, if a splice takes all of its argument. -/
theorem exec_contents (hcls : cls.Adds add taken) {propagate : Bool} {s t : ViewState A V α}
    {op : ViewOp V α} (h : exec cls propagate s op = some t)
    (htaken : ∀ x, op = .splice x → taken s.view.alloc (s.lists x) = (s.lists x).elems) :
    t.contents = op.apply add s.contents := by
  cases op with
  | push element =>
    obtain rfl := Option.some.inj h
    simp [ViewState.contents, hcls.push, ViewOp.apply]
  | insertN n element =>
    obtain rfl := Option.some.inj h
    simp [ViewState.contents, hcls.insertN, ViewOp.apply]
  | insert elements =>
    obtain rfl := Option.some.inj h
    simp [ViewState.contents, hcls.insert, ViewOp.apply]
  | splice x =>
    obtain rfl := Option.some.inj h
    rw [contents_put, hcls.splice, htaken x rfl]
    rfl
  | spliceOne x i =>
    rw [exec, hcls.spliceOne] at h
    -- without such an element the iterator is not valid
    rcases hi : (s.lists x).elems[i]? with _ | element
    · simp [hi] at h
    · obtain rfl : s.put x _ = t := by simpa [hi] using h
      rw [contents_put]
      simp [ViewOp.apply, ViewState.contents, hi, Container.erase, Container.eraseRange,
        List.eraseIdx_eq_take_drop_succ]
  | spliceRange x first last =>
    rw [exec, hcls.spliceRange] at h
    by_cases hv : first ≤ last ∧ last ≤ (s.lists x).endPos
    · obtain rfl : s.put x _ = t := by simpa [hv] using h
      rw [contents_put]
      rfl
    · simp [hv] at h
  | moveIn v =>
    obtain rfl := Option.some.inj h
    rw [contents_put, (viewMoveIn_elems ..).1, (viewMoveIn_elems ..).2]
    rfl
  | moveOut v =>
    obtain rfl := Option.some.inj h
    rw [contents_put, (viewMoveOut_elems ..).1, (viewMoveOut_elems ..).2]
    rfl
  | setValue v =>
    obtain rfl := Option.some.inj h
    rfl

/-- A splice of a whole list that has elements needs an equal allocator. -/
def ViewOp.Lossless (s : ViewState A V α) : ViewOp V α → Prop
  | .splice x => (s.lists x).alloc = s.view.alloc ∨ (s.lists x).elems = []
  | _ => True

/-- The operations of an append view have their effect. -/
theorem opListAppendView_effect {propagate : Bool} {s t : ViewState A V α} {op : ViewOp V α}
    (h : exec opListAppendView propagate s op = some t) :
    t.contents = op.apply (fun a b => a ++ b) s.contents :=
  exec_contents opListAppendView_adds h fun _ _ => rfl

/-- So have those of a prepend view exactly if they are lossless. -/
theorem opListPrependView_effect {propagate : Bool} {s t : ViewState A V α} {op : ViewOp V α}
    (h : exec opListPrependView propagate s op = some t) :
    t.contents = op.apply (fun a b => b ++ a) s.contents ↔ op.Lossless s := by
  constructor
  · intro heq
    cases op with
    | splice x =>
      obtain rfl := Option.some.inj h
      rw [contents_put, opListPrependView_adds.splice] at heq
      have hvalue := congrArg Contents.value heq
      simp only [ViewOp.apply, ViewState.contents, List.append_left_inj] at hvalue
      by_cases halloc : (s.lists x).alloc = s.view.alloc
      · exact .inl halloc
      · rw [if_neg halloc] at hvalue
        exact .inr hvalue.symm
    | _ => trivial
  · intro hlossless
    refine exec_contents opListPrependView_adds h ?_
    rintro x rfl
    by_cases halloc : (s.lists x).alloc = s.view.alloc
    · exact if_pos halloc
    · rw [if_neg halloc, hlossless.resolve_left halloc]

-- ---------------------------------------------------------------------------
-- Splits
-- ---------------------------------------------------------------------------

/-- The state with the elements of `left` in front of, or behind, those of its view. -/
def ViewState.onto (add : List α → List α → List α) (left : Container A α)
    (s : ViewState A V α) : ViewState A V α :=
  { s with view := left.onto add s.view }

/-- A modifier does to a view what it does to the part of it that comes last. -/
theorem exec_onto (hcls : cls.Adds add taken) (propagate : Bool) (left : Container A α)
    (s : ViewState A V α) {op : ViewOp V α} (hop : op.Modifier) :
    exec cls propagate (s.onto add left) op =
      (exec cls propagate s op).map (ViewState.onto add left) := by
  cases op with
  | push element => simp [exec, ViewState.onto, Container.onto, hcls.push, hcls.assoc]
  | insertN n element => simp [exec, ViewState.onto, Container.onto, hcls.insertN, hcls.assoc]
  | insert elements => simp [exec, ViewState.onto, Container.onto, hcls.insert, hcls.assoc]
  | splice x =>
    simp [exec, ViewState.onto, Container.onto, ViewState.put, hcls.splice, hcls.assoc]
  | spliceOne x i =>
    rcases hi : (s.lists x).elems[i]? with _ | element
    · simp [exec, ViewState.onto, hcls.spliceOne, hi]
    · simp [exec, ViewState.onto, Container.onto, ViewState.put, hcls.spliceOne, hi, hcls.assoc]
  | spliceRange x first last =>
    by_cases hv : first ≤ last ∧ last ≤ (s.lists x).endPos
    · simp [exec, ViewState.onto, Container.onto, ViewState.put, hcls.spliceRange, hv, hcls.assoc]
    · simp [exec, ViewState.onto, hcls.spliceRange, hv]
  | moveIn v => exact hop.elim
  | moveOut v => exact hop.elim
  | setValue v => exact hop.elim

/-- The allocator of the view changes exactly with the value of another list. -/
theorem exec_alloc_iff (hcls : cls.Adds add taken) {propagate : Bool} {s t : ViewState A V α}
    {op : ViewOp V α} (h : exec cls propagate s op = some t) :
    t.view.alloc = s.view.alloc ↔ op.KeepsAllocator propagate s := by
  cases op with
  | push element =>
    obtain rfl := Option.some.inj h
    simp [hcls.push, ViewOp.KeepsAllocator]
  | insertN n element =>
    obtain rfl := Option.some.inj h
    simp [hcls.insertN, ViewOp.KeepsAllocator]
  | insert elements =>
    obtain rfl := Option.some.inj h
    simp [hcls.insert, ViewOp.KeepsAllocator]
  | splice x =>
    obtain rfl := Option.some.inj h
    simp [ViewState.put, hcls.splice, ViewOp.KeepsAllocator]
  | spliceOne x i =>
    rw [exec, hcls.spliceOne] at h
    rcases hi : (s.lists x).elems[i]? with _ | element
    · simp [hi] at h
    · obtain rfl : s.put x _ = t := by simpa [hi] using h
      exact ⟨fun _ => trivial, fun _ => rfl⟩
  | spliceRange x first last =>
    rw [exec, hcls.spliceRange] at h
    by_cases hv : first ≤ last ∧ last ≤ (s.lists x).endPos
    · obtain rfl : s.put x _ = t := by simpa [hv] using h
      exact ⟨fun _ => trivial, fun _ => rfl⟩
    · simp [hv] at h
  | moveIn v =>
    obtain rfl := Option.some.inj h
    cases propagate <;> simp [ViewState.put, viewMoveIn_alloc, ViewOp.KeepsAllocator]
  | moveOut v =>
    obtain rfl := Option.some.inj h
    simp [ViewState.put, viewMoveOut_alloc, ViewOp.KeepsAllocator]
  | setValue v =>
    obtain rfl := Option.some.inj h
    cases propagate <;> simp [viewSetValue, Container.assign, ViewOp.KeepsAllocator]

omit [DecidableEq A] [DecidableEq V] in
theorem ViewOp.Modifier.keepsAllocator {op : ViewOp V α} (hop : op.Modifier) (propagate : Bool)
    (s : ViewState A V α) : op.KeepsAllocator propagate s := by
  cases op with
  | moveIn v => exact hop.elim
  | setValue v => exact hop.elim
  | _ => trivial

theorem execAll_append (propagate : Bool) (s : ViewState A V α) (ops ops' : List (ViewOp V α)) :
    execAll cls propagate s (ops ++ ops') =
      (execAll cls propagate s ops).bind fun t => execAll cls propagate t ops' := by
  induction ops generalizing s with
  | nil => rfl
  | cons op ops ih =>
    rcases h : exec cls propagate s op with _ | t
    · simp [execAll, h]
    · simp [execAll, h, ih]

/-- The modifiers of a strand do to a view what they do to the part that comes last. -/
theorem execAll_onto (hcls : cls.Adds add taken) (propagate : Bool) (left : Container A α)
    (s : ViewState A V α) {ops : List (ViewOp V α)} (hops : ∀ op ∈ ops, op.Modifier) :
    execAll cls propagate (s.onto add left) ops =
      (execAll cls propagate s ops).map (ViewState.onto add left) := by
  induction ops generalizing s with
  | nil => rfl
  | cons op ops ih =>
    have hop := hops op List.mem_cons_self
    have hrest := fun op' hop' => hops op' (List.mem_cons_of_mem _ hop')
    rcases h : exec cls propagate s op with _ | t
    · simp [execAll, exec_onto hcls propagate left s hop, h]
    · simp [execAll, exec_onto hcls propagate left s hop, h, ih t hrest]

theorem execAll_alloc (hcls : cls.Adds add taken) {propagate : Bool} {s t : ViewState A V α}
    {ops : List (ViewOp V α)} (hops : ∀ op ∈ ops, op.Modifier)
    (h : execAll cls propagate s ops = some t) : t.view.alloc = s.view.alloc := by
  induction ops generalizing s with
  | nil =>
    obtain rfl := Option.some.inj h
    rfl
  | cons op ops ih =>
    rcases hs : exec cls propagate s op with _ | s'
    · simp [execAll, hs] at h
    · have hrest : execAll cls propagate s' ops = some t := by simpa [execAll, hs] using h
      rw [ih (fun op' hop' => hops op' (List.mem_cons_of_mem _ hop')) hrest]
      exact (exec_alloc_iff hcls hs).mpr ((hops op List.mem_cons_self).keepsAllocator _ _)

/-- The views of a split reduce to the view of the serial program, while the leftmost
view has the allocator of the monoid. -/
theorem serial_eq_split (hcls : cls.Adds add taken) (propagate : Bool) (s : ViewState A V α)
    {strands : List (List (ViewOp V α))} (hmod : ∀ ops ∈ strands, ∀ op ∈ ops, op.Modifier) :
    execSplit cls propagate s.view.alloc s strands = execAll cls propagate s strands.flatten := by
  induction strands generalizing s with
  | nil => rfl
  | cons ops strands ih =>
    have hops := hmod ops List.mem_cons_self
    have hrest := fun ops' hops' => hmod ops' (List.mem_cons_of_mem _ hops')
    -- The view of the first strand starts as the part of the leftmost view that is empty.
    have hstart : s = ViewState.onto add s.view ⟨identity s.view.alloc, s.lists⟩ := by
      simp [ViewState.onto, Container.onto, identity, hcls.add_nil]
    have hserial : execAll cls propagate s ops =
        (execAll cls propagate ⟨identity s.view.alloc, s.lists⟩ ops).map
          (ViewState.onto add s.view) := by
      rw [← execAll_onto hcls propagate s.view _ hops, ← hstart]
    rw [List.flatten_cons, execAll_append, hserial]
    rcases h : execAll cls propagate ⟨identity s.view.alloc, s.lists⟩ ops with _ | t
    · simp [execSplit, execStrands, h]
    · have halloc : s.view.alloc = t.view.alloc := (execAll_alloc hcls hops h).symm
      have hreduce : cls.reduce s.view t.view = some (s.view.onto add t.view) := by
        rw [hcls.reduce, if_pos halloc, halloc]
        rfl
      have hih := ih (t.onto add s.view) hrest
      rw [Option.map_some, Option.bind_some, ← hih]
      rw [halloc] at h
      simp only [execSplit, execStrands, halloc, h, ViewState.onto, Container.onto,
        Option.bind_eq_bind, Option.bind_some]
      rcases execStrands cls propagate t.view.alloc t.lists strands with _ | r
      · rfl
      · simp [reduceAll, hreduce, Container.onto]

/-- With another allocator the first reduction already fails its assertion. -/
theorem execSplit_of_alloc_ne (hcls : cls.Adds add taken) (propagate : Bool)
    {m_allocator : A} {s : ViewState A V α} (hne : s.view.alloc ≠ m_allocator) :
    execSplit cls propagate m_allocator s [[]] = none := by
  simp [execSplit, execStrands, execAll, reduceAll, hcls.reduce, identity, hne]

/-- All splits reduce to the serial view exactly while the allocators agree. -/
theorem splits_serial_iff (hcls : cls.Adds add taken) (propagate : Bool) (m_allocator : A)
    (s : ViewState A V α) :
    (∀ strands : List (List (ViewOp V α)), (∀ ops ∈ strands, ∀ op ∈ ops, op.Modifier) →
      execSplit cls propagate m_allocator s strands = execAll cls propagate s strands.flatten) ↔
    s.view.alloc = m_allocator := by
  constructor
  · intro hsplits
    by_contra hne
    have hserial := hsplits [[]] (by simp)
    rw [execSplit_of_alloc_ne hcls propagate hne] at hserial
    cases hserial
  · rintro rfl strands hmod
    exact serial_eq_split hcls propagate s hmod

-- ---------------------------------------------------------------------------
-- Runs
-- ---------------------------------------------------------------------------

/-- Runs of operations on one view, with the contents that it should have. -/
def viewSystem (cls : ViewClass A α) (propagate : Bool) (add : List α → List α → List α) :
    LTS (ViewState A V α × Contents V α) (ViewOp V α) where
  init p := p.1.contents = p.2
  step p op q := exec cls propagate p.1 op = some q.1 ∧ q.2 = op.apply add p.2

/-- The leftmost view keeps the allocator that the monoid took from it, so that all splits
of the operations that follow are serial, exactly if no value brings another one. -/
theorem run_splits_serial_iff (hcls : cls.Adds add taken) (propagate : Bool) (m_allocator : A)
    {s : ViewState A V α × Contents V α} {tr : List (ViewOp V α × _)}
    (hinit : s.1.view.alloc = m_allocator)
    (hpath : (viewSystem cls propagate add).IsPath s tr) :
    (∀ p ∈ tr, ∀ strands : List (List (ViewOp V α)),
      (∀ ops ∈ strands, ∀ op ∈ ops, op.Modifier) →
      execSplit cls propagate m_allocator p.2.1 strands =
        execAll cls propagate p.2.1 strands.flatten) ↔
    LTS.AllSteps (fun p op => op.KeepsAllocator propagate p.1) s tr := by
  simp only [splits_serial_iff hcls]
  refine LTS.forall_states_iff_steps
    (P := fun p : ViewState A V α × Contents V α => p.1.view.alloc = m_allocator)
    (fun _ h => h) ?_ ?_ hinit hpath
  · rintro p op q rfl ⟨hexec, -⟩ hkeeps
    exact (exec_alloc_iff hcls hexec).mpr hkeeps
  · rintro p op q rfl ⟨hexec, -⟩ hq
    exact (exec_alloc_iff hcls hexec).mp hq

/--
An operation returns if its iterators are valid. In every run of an append view the
view and the argument lists hold what they should, whatever allocators they have; in a
run of a prepend view they do exactly if no list with elements and another allocator is
spliced as a whole. A reduction puts the right value behind the left one, respectively
in front. From the states of a run the views of all splits of modifiers reduce to the
view of the serial program exactly if no value with another, propagating allocator was
assigned to the view whose allocator the monoid has.
-/
theorem listViews_effect_iff (propagate : Bool) :
    (∀ (s : ViewState A V α) (op : ViewOp V α),
      ((exec opListAppendView propagate s op).isSome ↔ op.ValidIterators s) ∧
      ((exec opListPrependView propagate s op).isSome ↔ op.ValidIterators s)) ∧
    (∀ (s : ViewState A V α × Contents V α) (tr : List (ViewOp V α × _)),
      (viewSystem opListAppendView propagate (fun a b => a ++ b)).init s →
      (viewSystem opListAppendView propagate (fun a b => a ++ b)).IsPath s tr →
        ∀ p ∈ tr, p.2.1.contents = p.2.2) ∧
    (∀ (s : ViewState A V α × Contents V α) (tr : List (ViewOp V α × _)),
      (viewSystem opListPrependView propagate (fun a b => b ++ a)).init s →
      (viewSystem opListPrependView propagate (fun a b => b ++ a)).IsPath s tr →
        ((∀ p ∈ tr, p.2.1.contents = p.2.2) ↔
          LTS.AllSteps (fun p op => op.Lossless p.1) s tr)) ∧
    (∀ left right : Container A α, left.alloc = right.alloc →
      opListAppendView.reduce left right = some { left with elems := left.elems ++ right.elems } ∧
      opListPrependView.reduce left right =
        some { left with elems := right.elems ++ left.elems }) ∧
    (∀ (s : ViewState A V α × Contents V α) (tr : List (ViewOp V α × _)),
      (viewSystem opListAppendView propagate (fun a b => a ++ b)).IsPath s tr →
        ((∀ p ∈ tr, ∀ strands : List (List (ViewOp V α)),
          (∀ ops ∈ strands, ∀ op ∈ ops, op.Modifier) →
          execSplit opListAppendView propagate s.1.view.alloc p.2.1 strands =
            execAll opListAppendView propagate p.2.1 strands.flatten) ↔
          LTS.AllSteps (fun p op => op.KeepsAllocator propagate p.1) s tr)) ∧
    (∀ (s : ViewState A V α × Contents V α) (tr : List (ViewOp V α × _)),
      (viewSystem opListPrependView propagate (fun a b => b ++ a)).IsPath s tr →
        ((∀ p ∈ tr, ∀ strands : List (List (ViewOp V α)),
          (∀ ops ∈ strands, ∀ op ∈ ops, op.Modifier) →
          execSplit opListPrependView propagate s.1.view.alloc p.2.1 strands =
            execAll opListPrependView propagate p.2.1 strands.flatten) ↔
          LTS.AllSteps (fun p op => op.KeepsAllocator propagate p.1) s tr)) := by
  refine ⟨?_, ?_, ?_, ?_, ?_, ?_⟩
  · intro s op
    exact ⟨exec_isSome_iff opListAppendView_adds propagate s op,
      exec_isSome_iff opListPrependView_adds propagate s op⟩
  · intro s tr hinit hpath
    refine LTS.invariant_along
      (P := fun p : ViewState A V α × Contents V α => p.1.contents = p.2) ?_ hinit hpath
    rintro p op q hp ⟨hexec, heffect⟩
    rw [heffect, ← hp]
    exact opListAppendView_effect hexec
  · intro s tr hinit hpath
    refine LTS.forall_states_iff_steps
      (P := fun p : ViewState A V α × Contents V α => p.1.contents = p.2)
      (fun _ h => h) ?_ ?_ hinit hpath
    · rintro p op q hp ⟨hexec, heffect⟩ hlossless
      rw [heffect, ← hp]
      exact (opListPrependView_effect hexec).mpr hlossless
    · rintro p op q hp ⟨hexec, heffect⟩ hq
      rw [heffect, ← hp] at hq
      exact (opListPrependView_effect hexec).mp hq
  · intro left right halloc
    exact ⟨by rw [opListAppendView_adds.reduce, if_pos halloc],
      by rw [opListPrependView_adds.reduce, if_pos halloc]⟩
  · intro s tr hpath
    exact run_splits_serial_iff opListAppendView_adds propagate _ rfl hpath
  · intro s tr hpath
    exact run_splits_serial_iff opListPrependView_adds propagate _ rfl hpath

/-- One element is spliced in front of an empty list with another allocator: it is in
neither list afterwards. -/
theorem splice_front_loses :
    ¬ ∀ (s t : ViewState Bool Unit Nat) (op : ViewOp Unit Nat),
      exec opListPrependView false s op = some t →
        t.contents = op.apply (fun a b => b ++ a) s.contents := by
  intro hall
  have h := hall ⟨⟨[], false⟩, fun _ => ⟨[1], true⟩⟩ _ (.splice ()) rfl
  have hvalue : ([] : List Nat) = [1] := congrArg Contents.value h
  cases hvalue

end SwanRuntime.Reducers
