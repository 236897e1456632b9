import SwanRuntime.Reducers.ListViews

/-!
# String and vector reducer views

`op_basic_string_view` and `op_vector_view` hold a list of parts and a current string
or vector. Appending works on the current one, a reduction puts the parts of the two
views together, and `flatten` makes one string of them when the value is asked for.
The two classes are written twice in the source, and are twice here.

A splice of lists is undefined when their allocators differ, and so is a swap of
containers, unless the allocator type has swaps exchange the allocators as well
(`swaps`). A reduction that would do either has no result. The list of a string view
has the standard allocator, that of a vector view the allocator the view was
constructed with.

## Results

* `opVectorView_eq`            — where the two classes differ.
* `OpBasicStringView.reduce_isSome_iff`, `OpVectorView.reduce_isSome_iff` — which
  reductions return.
* `opBasicStringView_effect`   — the operations of a string view have their effect.
* `opVectorView_effect`        — those of a vector view as well, unless `view_move_out`
  is given a vector that has elements and an equal allocator.
* `concatViews_effect_iff`     — both, over runs.
-/

namespace SwanRuntime.Reducers

/-- A string or vector view: `m_list`, and `m_string` or `m_vector`. -/
structure ConcatView (A α : Type) where
  m_list    : List (Container A α)
  m_current : Container A α
  listAlloc : A

variable {A α V : Type} [DecidableEq A]

namespace ConcatView

def getAllocator (v : ConcatView A α) : A := v.m_current.alloc

/-- The test with which a reduction begins: nothing was added to the view. -/
def isEmpty (v : ConcatView A α) : Bool := v.m_current.elems.isEmpty && v.m_list.isEmpty

/-- The value of a view: the parts, with the current string or vector at the end. -/
def value (v : ConcatView A α) : List α := (v.m_list.map Container.elems).flatten ++ v.m_current.elems

end ConcatView

/-- `operator +=` of a string; `insert` at the end of a vector. -/
def Container.append (x : Container A α) (elements : List α) : Container A α :=
  { x with elems := x.elems ++ elements }

/-- `swap`: both containers afterwards. -/
def Container.swap (swaps : Bool) (x y : Container A α) : Option (Container A α × Container A α) := do
  guard (x.alloc = y.alloc ∨ swaps)
  return (y, x)

-- ---------------------------------------------------------------------------
-- The code
-- ---------------------------------------------------------------------------

/-- What the two view classes provide. The functions that take a string or vector of
the caller return it as well. -/
structure ConcatClass (A α : Type) where
  append       : ConcatView A α → List α → ConcatView A α
  flatten      : ConcatView A α → ConcatView A α
  reduce       : ConcatView A α → ConcatView A α → Option (ConcatView A α)
  viewMoveIn   : ConcatView A α → Container A α → ConcatView A α × Container A α
  viewMoveOut  : ConcatView A α → Container A α → ConcatView A α × Container A α
  viewSetValue : ConcatView A α → Container A α → ConcatView A α
  viewGetValue : ConcatView A α → ConcatView A α × Container A α

namespace OpBasicStringView

def append (v : ConcatView A α) (elements : List α) : ConcatView A α :=
  { v with m_current := v.m_current.append elements }

def flatten (v : ConcatView A α) : ConcatView A α :=
  if v.m_list.isEmpty then v
  else
    let result : Container A α := { elems := [], alloc := v.getAllocator }
    let result := v.m_list.foldl (fun result part => result.append part.elems) result
    { v with m_list := [], m_current := result.append v.m_current.elems }

def reduce (swaps : Bool) (this right : ConcatView A α) : Option (ConcatView A α) := do
  if !right.m_current.elems.isEmpty || !right.m_list.isEmpty then
    let this :=
      if !this.m_current.elems.isEmpty then
        { this with
          m_list := this.m_list ++ [this.m_current]
          m_current := { elems := [], alloc := this.getAllocator } }
      else this
    let (m_current, _) ← this.m_current.swap swaps right.m_current
    return { this with m_list := this.m_list ++ right.m_list, m_current }
  else
    return this

def viewMoveIn (propagate : Bool) (this : ConcatView A α) (s : Container A α) :
    ConcatView A α × Container A α :=
  let this := { this with m_list := [] }
  let (this, s) :=
    if this.m_current.alloc = s.alloc then
      ({ this with m_current := s }, this.m_current)
    else
      ({ this with m_current := this.m_current.assign propagate s }, s)
  (this, s.clear)

def viewMoveOut (propagate : Bool) (this : ConcatView A α) (s : Container A α) :
    ConcatView A α × Container A α :=
  let this := flatten this
  let (this, s) :=
    if this.m_current.alloc = s.alloc then
      ({ this with m_current := s }, this.m_current)
    else
      (this, s.assign propagate this.m_current)
  ({ this with m_current := this.m_current.clear }, s)

def viewSetValue (propagate : Bool) (this : ConcatView A α) (s : Container A α) :
    ConcatView A α :=
  { this with m_list := [], m_current := this.m_current.assign propagate s }

def viewGetValue (this : ConcatView A α) : ConcatView A α × Container A α :=
  let this := flatten this
  (this, this.m_current)

end OpBasicStringView

namespace OpVectorView

/-- `push_back` and the forms of `insert_back`. -/
def append (v : ConcatView A α) (elements : List α) : ConcatView A α :=
  { v with m_current := v.m_current.append elements }

def flatten (v : ConcatView A α) : ConcatView A α :=
  if v.m_list.isEmpty then v
  else
    let result : Container A α := { elems := [], alloc := v.getAllocator }
    let result := v.m_list.foldl (fun result part => result.append part.elems) result
    { v with m_list := [], m_current := result.append v.m_current.elems }

def reduce (swaps : Bool) (this other : ConcatView A α) : Option (ConcatView A α) := do
  if !other.m_current.elems.isEmpty || !other.m_list.isEmpty then
    let this :=
      if !this.m_current.elems.isEmpty then
        { this with
          m_list := this.m_list ++ [this.m_current]
          m_current := { elems := [], alloc := this.getAllocator } }
      else this
    guard (this.listAlloc = other.listAlloc)
    let (m_current, _) ← this.m_current.swap swaps other.m_current
    return { this with m_list := this.m_list ++ other.m_list, m_current }
  else
    return this

def viewMoveIn (propagate : Bool) (this : ConcatView A α) (v : Container A α) :
    ConcatView A α × Container A α :=
  let this := { this with m_list := [] }
  let (this, v) :=
    if this.getAllocator = v.alloc then
      ({ this with m_current := v }, this.m_current)
    else
      ({ this with m_current := this.m_current.assign propagate v }, v)
  (this, v.clear)

/-- The vector is cleared in the branch of unequal allocators only. -/
def viewMoveOut (propagate : Bool) (this : ConcatView A α) (v : Container A α) :
    ConcatView A α × Container A α :=
  let this := flatten this
  if this.getAllocator = v.alloc then
    ({ this with m_current := v }, this.m_current)
  else
    let v := v.assign propagate this.m_current
    ({ this with m_current := this.m_current.clear }, v)

def viewSetValue (propagate : Bool) (this : ConcatView A α) (v : Container A α) :
    ConcatView A α :=
  { this with m_list := [], m_current := this.m_current.assign propagate v }

def viewGetValue (this : ConcatView A α) : ConcatView A α × Container A α :=
  let this := flatten this
  (this, this.m_current)

end OpVectorView

def opBasicStringView (propagate swaps : Bool) : ConcatClass A α where
  append := OpBasicStringView.append
  flatten := OpBasicStringView.flatten
  reduce := OpBasicStringView.reduce swaps
  viewMoveIn := OpBasicStringView.viewMoveIn propagate
  viewMoveOut := OpBasicStringView.viewMoveOut propagate
  viewSetValue := OpBasicStringView.viewSetValue propagate
  viewGetValue := OpBasicStringView.viewGetValue

def opVectorView (propagate swaps : Bool) : ConcatClass A α where
  append := OpVectorView.append
  flatten := OpVectorView.flatten
  reduce := OpVectorView.reduce swaps
  viewMoveIn := OpVectorView.viewMoveIn propagate
  viewMoveOut := OpVectorView.viewMoveOut propagate
  viewSetValue := OpVectorView.viewSetValue propagate
  viewGetValue := OpVectorView.viewGetValue

-- ---------------------------------------------------------------------------
-- Operations on a view and the arguments of the caller
-- ---------------------------------------------------------------------------

/-- A call of a member function of a view. `V` names the arguments. -/
inductive ConcatOp (A V α : Type)
  | append (elements : List α)
  | flatten
  | reduce (right : ConcatView A α)
  | moveIn (v : V)
  | moveOut (v : V)
  | setValue (v : V)
  | getValue

/-- A view, the strings or vectors that are passed to its operations, and what the
last operation returned. -/
structure ConcatState (A V α : Type) where
  view   : ConcatView A α
  args   : V → Container A α
  result : Option (Container A α)

variable [DecidableEq V]

/-- The state after a call that returns the view and its argument. -/
def ConcatState.put (s : ConcatState A V α) (v : V) (r : ConcatView A α × Container A α) :
    ConcatState A V α where
  view := r.1
  args := Function.update s.args v r.2
  result := none

/-- One operation on a view of class `cls`. -/
def ConcatClass.exec (cls : ConcatClass A α) (s : ConcatState A V α) :
    ConcatOp A V α → Option (ConcatState A V α)
  | .append elements => some { s with view := cls.append s.view elements, result := none }
  | .flatten => some { s with view := cls.flatten s.view, result := none }
  | .reduce right => do
    let view ← cls.reduce s.view right
    return { s with view, result := none }
  | .moveIn v => some (s.put v (cls.viewMoveIn s.view (s.args v)))
  | .moveOut v => some (s.put v (cls.viewMoveOut s.view (s.args v)))
  | .setValue v => some { s with view := cls.viewSetValue s.view (s.args v), result := none }
  | .getValue =>
    let (view, result) := cls.viewGetValue s.view
    some { s with view, result := some result }

-- ---------------------------------------------------------------------------
-- What the operations are for
-- ---------------------------------------------------------------------------

/-- The value of a view, the contents of the arguments, and the value returned. -/
structure ConcatContents (V α : Type) where
  value  : List α
  args   : V → List α
  result : Option (List α)

def ConcatState.contents (s : ConcatState A V α) : ConcatContents V α where
  value := s.view.value
  args v := (s.args v).elems
  result := s.result.map Container.elems

/-- The effect of an operation on the contents. -/
def ConcatOp.apply (c : ConcatContents V α) : ConcatOp A V α → ConcatContents V α
  | .append elements => { c with value := c.value ++ elements, result := none }
  | .flatten => { c with result := none }
  | .reduce right => { c with value := c.value ++ right.value, result := none }
  | .moveIn v => { value := c.args v, args := Function.update c.args v [], result := none }
  | .moveOut v => { value := [], args := Function.update c.args v c.value, result := none }
  | .setValue v => { c with value := c.args v, result := none }
  | .getValue => { c with result := some c.value }

/-- Runs of operations on one view, with the contents that it should have. -/
def concatSystem (cls : ConcatClass A α) :
    LTS (ConcatState A V α × ConcatContents V α) (ConcatOp A V α) where
  init p := p.1.contents = p.2
  step p op q := cls.exec p.1 op = some q.1 ∧ q.2 = op.apply p.2

-- ---------------------------------------------------------------------------
-- The functions of the classes
-- ---------------------------------------------------------------------------

omit [DecidableEq A] in
/-- Appending the parts one after the other. -/
theorem foldl_append (parts : List (Container A α)) (result : Container A α) :
    parts.foldl (fun result part => result.append part.elems) result =
      result.append (parts.map Container.elems).flatten := by
  induction parts generalizing result with
  | nil => simp [Container.append]
  | cons part parts ih =>
    rw [List.foldl_cons, ih]
    simp [Container.append]

omit [DecidableEq A] in
/-- After `flatten` the value is in the current string. -/
theorem flatten_eq (v : ConcatView A α) :
    OpBasicStringView.flatten v =
      { v with m_list := [], m_current := { elems := v.value, alloc := v.getAllocator } } := by
  obtain ⟨m_list, m_current, listAlloc⟩ := v
  cases m_list with
  | nil => rfl
  | cons part parts =>
    simp only [OpBasicStringView.flatten, List.isEmpty_cons, Bool.false_eq_true, if_false,
      foldl_append]
    simp [Container.append, ConcatView.value, ConcatView.getAllocator]

/-- The view that a reduction makes of two: the current string of the left one becomes a
part, unless it is empty. -/
def ConcatView.join (this right : ConcatView A α) : ConcatView A α :=
  let parts := if this.m_current.elems.isEmpty then this.m_list else this.m_list ++ [this.m_current]
  { this with m_list := parts ++ right.m_list, m_current := right.m_current }

omit [DecidableEq A] in
theorem ConcatView.join_value (this right : ConcatView A α) :
    (this.join right).value = this.value ++ right.value := by
  cases hthis : this.m_current.elems <;> simp [join, value, hthis]

omit [DecidableEq A] in
theorem ConcatView.value_of_isEmpty {v : ConcatView A α} (h : v.isEmpty = true) : v.value = [] := by
  have hempty : v.m_current.elems = [] ∧ v.m_list = [] := by simpa [isEmpty] using h
  simp [value, hempty]

/-- A reduction with an empty view does nothing, another one swaps the strings. -/
theorem OpBasicStringView.reduce_eq (swaps : Bool) (this right : ConcatView A α) :
    reduce swaps this right =
      if right.isEmpty then some this
      else if this.m_current.alloc = right.m_current.alloc ∨ swaps then some (this.join right)
      else none := by
  rcases hempty : right.isEmpty with _ | _
  · have hcond : (!right.m_current.elems.isEmpty || !right.m_list.isEmpty) = true := by
      simpa [ConcatView.isEmpty, ← Bool.not_and] using hempty
    rw [reduce, if_pos hcond]
    by_cases hswap : this.m_current.alloc = right.m_current.alloc ∨ swaps
    · cases hthis : this.m_current.elems <;>
        simp [ConcatView.join, ConcatView.getAllocator, Container.swap, hthis, hswap]
    · cases this.m_current.elems <;> simp [ConcatView.getAllocator, Container.swap, hswap]
  · have hcond : ¬ (!right.m_current.elems.isEmpty || !right.m_list.isEmpty) = true := by
      simpa [ConcatView.isEmpty, ← Bool.not_and] using hempty
    rw [reduce, if_neg hcond]
    rfl

/-- A vector view splices the lists before that. -/
theorem OpVectorView.reduce_eq (swaps : Bool) (this other : ConcatView A α) :
    reduce swaps this other =
      if other.isEmpty ∨ this.listAlloc = other.listAlloc then
        OpBasicStringView.reduce swaps this other
      else none := by
  rcases hempty : other.isEmpty with _ | _
  · have hcond : (!other.m_current.elems.isEmpty || !other.m_list.isEmpty) = true := by
      simpa [ConcatView.isEmpty, ← Bool.not_and] using hempty
    rw [reduce, if_pos hcond, OpBasicStringView.reduce, if_pos hcond]
    by_cases hlist : this.listAlloc = other.listAlloc <;>
      cases this.m_current.elems <;> simp [hlist]
  · have hcond : ¬ (!other.m_current.elems.isEmpty || !other.m_list.isEmpty) = true := by
      simpa [ConcatView.isEmpty, ← Bool.not_and] using hempty
    rw [reduce, if_neg hcond, OpBasicStringView.reduce, if_neg hcond]
    rfl

/-- The reductions of string views that are defined. -/
def OpBasicStringView.Reducible (swaps : Bool) (this right : ConcatView A α) : Prop :=
  right.isEmpty ∨ this.m_current.alloc = right.m_current.alloc ∨ swaps

/-- The reductions of vector views that are defined. -/
def OpVectorView.Reducible (swaps : Bool) (this other : ConcatView A α) : Prop :=
  other.isEmpty ∨
    this.listAlloc = other.listAlloc ∧ (this.m_current.alloc = other.m_current.alloc ∨ swaps)

theorem OpBasicStringView.reduce_isSome_iff (swaps : Bool) (this right : ConcatView A α) :
    (reduce swaps this right).isSome ↔ Reducible swaps this right := by
  rw [reduce_eq, Reducible]
  split
  · next hempty => simp [hempty]
  · next hempty => split <;> simp_all

theorem OpVectorView.reduce_isSome_iff (swaps : Bool) (this other : ConcatView A α) :
    (reduce swaps this other).isSome ↔ Reducible swaps this other := by
  rw [reduce_eq, Reducible]
  split
  · next hlist =>
    rw [OpBasicStringView.reduce_isSome_iff, OpBasicStringView.Reducible]
    tauto
  · next hlist =>
    rw [Option.isSome_none]
    exact iff_of_false (by simp) (by tauto)

/-- A reduction puts the values one behind the other. -/
theorem OpBasicStringView.reduce_value {swaps : Bool} {this right view : ConcatView A α}
    (h : reduce swaps this right = some view) : view.value = this.value ++ right.value := by
  rw [reduce_eq] at h
  split at h
  · next hempty =>
    obtain rfl := Option.some.inj h
    rw [ConcatView.value_of_isEmpty hempty, List.append_nil]
  · split at h
    · obtain rfl := Option.some.inj h
      exact ConcatView.join_value this right
    · cases h

theorem OpBasicStringView.viewMoveIn_value (propagate : Bool) (this : ConcatView A α)
    (s : Container A α) :
    (viewMoveIn propagate this s).1.value = s.elems ∧
      (viewMoveIn propagate this s).2.elems = [] := by
  by_cases h : this.m_current.alloc = s.alloc <;>
    simp [viewMoveIn, h, Container.clear, Container.assign, ConcatView.value]

theorem OpBasicStringView.viewMoveOut_value (propagate : Bool) (this : ConcatView A α)
    (s : Container A α) :
    (viewMoveOut propagate this s).1.value = [] ∧
      (viewMoveOut propagate this s).2.elems = this.value := by
  by_cases h : this.getAllocator = s.alloc <;>
    simp [viewMoveOut, flatten_eq, h, Container.clear, Container.assign, ConcatView.value]

/-- With an equal allocator, a vector view has the contents of the argument after
`view_move_out`. -/
theorem OpVectorView.viewMoveOut_value (propagate : Bool) (this : ConcatView A α)
    (v : Container A α) :
    (viewMoveOut propagate this v).1.value =
        (if this.getAllocator = v.alloc then v.elems else []) ∧
      (viewMoveOut propagate this v).2.elems = this.value := by
  have hflatten : flatten this = _ := flatten_eq this
  by_cases h : this.m_current.alloc = v.alloc <;>
    simp [viewMoveOut, hflatten, h, ConcatView.getAllocator, Container.clear, Container.assign,
      ConcatView.value]

/-- The two classes differ in `view_move_out`, and in what a reduction asks of the
allocators. -/
theorem opVectorView_eq (propagate swaps : Bool) :
    (opVectorView propagate swaps : ConcatClass A α) =
      { opBasicStringView propagate swaps with
        viewMoveOut := OpVectorView.viewMoveOut propagate
        reduce := OpVectorView.reduce swaps } := rfl

-- ---------------------------------------------------------------------------
-- One operation
-- ---------------------------------------------------------------------------

omit [DecidableEq A] in
/-- The contents after a call on an argument. -/
theorem concatContents_put (s : ConcatState A V α) (v : V)
    (r : ConcatView A α × Container A α) :
    (s.put v r).contents =
      ⟨r.1.value, Function.update s.contents.args v r.2.elems, none⟩ := by
  simp only [ConcatState.contents, ConcatState.put, Option.map_none, ConcatContents.mk.injEq,
    true_and, and_true]
  funext w
  by_cases h : w = v
  · subst h; simp
  · simp [Function.update_of_ne h]

omit [DecidableEq A] in
/-- The reductions of a class that return are those of `reducible`, and every other
operation returns. -/
theorem exec_isSome_iff_reducible {cls : ConcatClass A α}
    {reducible : ConcatView A α → ConcatView A α → Prop}
    (hreduce : ∀ this right, (cls.reduce this right).isSome ↔ reducible this right)
    (s : ConcatState A V α) (op : ConcatOp A V α) :
    (cls.exec s op).isSome ↔ ∀ right, op = .reduce right → reducible s.view right := by
  cases op with
  | reduce right =>
    have hexec : (cls.exec s (.reduce right)).isSome = (cls.reduce s.view right).isSome := by
      simp only [ConcatClass.exec]
      cases cls.reduce s.view right <;> rfl
    rw [hexec, hreduce]
    constructor
    · rintro h _ ⟨⟩
      exact h
    · intro h
      exact h right rfl
  | _ => simp [ConcatClass.exec]

/-- The operations of a string view have their effect. -/
theorem opBasicStringView_effect {propagate swaps : Bool} {s t : ConcatState A V α}
    {op : ConcatOp A V α} (h : (opBasicStringView propagate swaps).exec s op = some t) :
    t.contents = op.apply s.contents := by
  cases op with
  | append elements =>
    obtain rfl := Option.some.inj h
    simp [ConcatState.contents, ConcatOp.apply, opBasicStringView, OpBasicStringView.append,
      Container.append, ConcatView.value]
  | flatten =>
    obtain rfl := Option.some.inj h
    simp [ConcatState.contents, ConcatOp.apply, opBasicStringView, flatten_eq, ConcatView.value]
  | reduce right =>
    obtain ⟨view, hview, hrest⟩ := Option.bind_eq_some_iff.mp h
    obtain rfl := Option.some.inj hrest
    simp [ConcatState.contents, ConcatOp.apply, OpBasicStringView.reduce_value hview]
  | moveIn v =>
    obtain rfl := Option.some.inj h
    have hvalue := OpBasicStringView.viewMoveIn_value propagate s.view (s.args v)
    rw [concatContents_put]
    simp only [opBasicStringView, hvalue, ConcatOp.apply]
    rfl
  | moveOut v =>
    obtain rfl := Option.some.inj h
    have hvalue := OpBasicStringView.viewMoveOut_value propagate s.view (s.args v)
    rw [concatContents_put]
    simp only [opBasicStringView, hvalue, ConcatOp.apply]
    rfl
  | setValue v =>
    obtain rfl := Option.some.inj h
    simp [ConcatState.contents, ConcatOp.apply, opBasicStringView,
      OpBasicStringView.viewSetValue, Container.assign, ConcatView.value]
  | getValue =>
    obtain rfl := Option.some.inj h
    simp [ConcatState.contents, ConcatOp.apply, opBasicStringView,
      OpBasicStringView.viewGetValue, flatten_eq, ConcatView.value]

/-- `view_move_out` into a vector that has elements needs an unequal allocator. -/
def ConcatOp.Clears (s : ConcatState A V α) : ConcatOp A V α → Prop
  | .moveOut v => s.view.getAllocator = (s.args v).alloc → (s.args v).elems = []
  | _ => True

/-- An operation other than `view_move_out` does the same to a vector view. -/
theorem exec_opVectorView {propagate swaps : Bool} {s t : ConcatState A V α}
    {op : ConcatOp A V α} (h : (opVectorView propagate swaps).exec s op = some t)
    (hop : ∀ v, op ≠ .moveOut v) : (opBasicStringView propagate swaps).exec s op = some t := by
  cases op with
  | reduce right =>
    obtain ⟨view, hview, hrest⟩ := Option.bind_eq_some_iff.mp h
    refine Option.bind_eq_some_iff.mpr ⟨view, ?_, hrest⟩
    have hreduce : OpVectorView.reduce swaps s.view right = some view := hview
    rw [OpVectorView.reduce_eq] at hreduce
    split at hreduce
    · exact hreduce
    · cases hreduce
  | moveOut v => exact absurd rfl (hop v)
  | _ => exact h

/-- The operations of a vector view have their effect exactly if a `view_move_out`
finds the argument empty or with another allocator. -/
theorem opVectorView_effect {propagate swaps : Bool} {s t : ConcatState A V α}
    {op : ConcatOp A V α} (h : (opVectorView propagate swaps).exec s op = some t) :
    t.contents = op.apply s.contents ↔ op.Clears s := by
  by_cases hop : ∃ v, op = .moveOut v
  · obtain ⟨v, rfl⟩ := hop
    obtain rfl := Option.some.inj h
    have hvalue := OpVectorView.viewMoveOut_value propagate s.view (s.args v)
    rw [concatContents_put]
    simp only [opVectorView, hvalue, ConcatOp.apply, ConcatOp.Clears]
    constructor
    · intro heq halloc
      have hnil := congrArg ConcatContents.value heq
      simpa only [if_pos halloc] using hnil
    · intro hclears
      have hnil : (if s.view.getAllocator = (s.args v).alloc then (s.args v).elems else []) =
          [] := by
        by_cases halloc : s.view.getAllocator = (s.args v).alloc
        · rw [if_pos halloc, hclears halloc]
        · rw [if_neg halloc]
      rw [hnil]
      rfl
  · have hop' : ∀ v, op ≠ .moveOut v := fun v hv => hop ⟨v, hv⟩
    have hclears : op.Clears s := by
      cases op with
      | moveOut v => exact absurd rfl (hop' v)
      | _ => trivial
    exact iff_of_true (opBasicStringView_effect (exec_opVectorView h hop')) hclears

/--
All operations return, except reductions with a view that has elements and another
allocator, of the vector or string where a swap does not exchange these, or of the list.
Taking as the value of a view its parts and then its current string or vector, every
run of a string view does to the value, the arguments and the results what its
operations are for. A run of a vector view does exactly if no `view_move_out` is given
a vector that has elements and an equal allocator.
-/
theorem concatViews_effect_iff (propagate swaps : Bool) :
    (∀ (s : ConcatState A V α) (op : ConcatOp A V α),
      (((opBasicStringView propagate swaps).exec s op).isSome ↔
        ∀ right, op = .reduce right → OpBasicStringView.Reducible swaps s.view right) ∧
      (((opVectorView propagate swaps).exec s op).isSome ↔
        ∀ right, op = .reduce right → OpVectorView.Reducible swaps s.view right)) ∧
    (∀ (s : ConcatState A V α × ConcatContents V α) (tr : List (ConcatOp A V α × _)),
      (concatSystem (opBasicStringView propagate swaps)).init s →
      (concatSystem (opBasicStringView propagate swaps)).IsPath s tr →
        ∀ p ∈ tr, p.2.1.contents = p.2.2) ∧
    (∀ (s : ConcatState A V α × ConcatContents V α) (tr : List (ConcatOp A V α × _)),
      (concatSystem (opVectorView propagate swaps)).init s →
      (concatSystem (opVectorView propagate swaps)).IsPath s tr →
        ((∀ p ∈ tr, p.2.1.contents = p.2.2) ↔
          LTS.AllSteps (fun p op => op.Clears p.1) s tr)) := by
  refine ⟨?_, ?_, ?_⟩
  · intro s op
    exact ⟨exec_isSome_iff_reducible (OpBasicStringView.reduce_isSome_iff swaps) s op,
      exec_isSome_iff_reducible (OpVectorView.reduce_isSome_iff swaps) s op⟩
  · intro s tr hinit hpath
    refine LTS.invariant_along
      (P := fun p : ConcatState A V α × ConcatContents V α => p.1.contents = p.2) ?_ hinit hpath
    rintro p op q hp ⟨hexec, heffect⟩
    rw [heffect, ← hp]
    exact opBasicStringView_effect hexec
  · intro s tr hinit hpath
    refine LTS.forall_states_iff_steps
      (P := fun p : ConcatState A V α × ConcatContents V α => p.1.contents = p.2)
      (fun _ h => h) ?_ ?_ hinit hpath
    · rintro p op q hp ⟨hexec, heffect⟩ hclears
      rw [heffect, ← hp]
      exact (opVectorView_effect hexec).mpr hclears
    · rintro p op q hp ⟨hexec, heffect⟩ hq
      rw [heffect, ← hp] at hq
      exact (opVectorView_effect hexec).mp hq

/-- `view_move_out` into the vector `[1]` with an equal allocator leaves the view with
the value `[1]`. -/
theorem view_move_out_keeps :
    ¬ ∀ (s t : ConcatState Unit Unit Nat) (op : ConcatOp Unit Unit Nat),
      (opVectorView false false).exec s op = some t → t.contents = op.apply s.contents := by
  intro hall
  have h := hall ⟨⟨[], ⟨[2], ()⟩, ()⟩, fun _ => ⟨[1], ()⟩, none⟩ _ (.moveOut ()) rfl
  have hvalue : [1] = ([] : List Nat) := congrArg ConcatContents.value h
  cases hvalue

end SwanRuntime.Reducers
