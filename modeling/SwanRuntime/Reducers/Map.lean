import Mathlib.Data.List.AList
import Mathlib.Algebra.Group.Pi.Basic
import SwanRuntime.Library.Checked

/-!
# Reducer maps — the code and its meaning

A `cilkred_map` holds the views of the reducers that a strand has touched. The
hash table is modelled by a finite map from reducers to views, and `is_leftmost`
together with the memory it stands for: the leftmost view of a reducer lives in
the reducer object, so a leftmost map knows, for every reducer, the value that
its leftmost view has when it is first looked up.

`value` reads a map as a value for every reducer. It is what the maps mean: a
`NULL` map stands for the identity, and merging two maps multiplies them, left
operand first, whichever of the two survives.

## Results

* `value_mergeReducerMaps`  — a merge multiplies the values of its operands.
* `value_update`            — an update multiplies the value on the right.
-/

namespace SwanRuntime.Reducers

variable {K : Type} [DecidableEq K] {M : K → Type} [∀ k, Monoid (M k)]

-- ---------------------------------------------------------------------------
-- The code
-- ---------------------------------------------------------------------------

/-- `cilkred_map`. `leftmost` is `is_leftmost` with the contents of the leftmost
views. -/
structure ReducerMap (M : K → Type) where
  leftmost : Option (∀ k, M k)
  elems    : AList M

/-- `enum merge_kind`, less the kind that no call passes. -/
inductive MergeKind
  | intoRight
  | intoLeft
deriving DecidableEq, Repr

/-- `__cilkrts_make_reducer_map`. -/
def makeReducerMap : ReducerMap M := ⟨none, ∅⟩

/-- `is_leftmost`. -/
def ReducerMap.isLeftmost (m : ReducerMap M) : Bool := m.leftmost.isSome

/-- The view that `__cilkrts_hyper_lookup` inserts for a reducer that the map
does not hold. -/
def ReducerMap.newView (m : ReducerMap M) (k : K) : M k :=
  match m.leftmost with
  | some v => v k
  | none => 1

/-- `__cilkrts_hyper_lookup` on a map: the view, and the map that holds it. -/
def ReducerMap.hyperLookup (m : ReducerMap M) (k : K) : M k × ReducerMap M :=
  match m.elems.lookup k with
  | some v => (v, m)
  | none => (m.newView k, { m with elems := m.elems.insert k (m.newView k) })

/-- An update of one reducer by the user's code: look the view up and change it
in place. -/
def ReducerMap.update (m : ReducerMap M) (k : K) (x : M k) : ReducerMap M :=
  let (view, m') := m.hyperLookup k
  { m' with elems := m'.elems.insert k (view * x) }

/-- Initialize the leftmost view of a reducer before merging into it. -/
def ReducerMap.initLeftmostView (m : ReducerMap M) (k : K) : ReducerMap M :=
  match m.elems.lookup k, m.leftmost with
  | none, some leftmost => { m with elems := m.elems.insert k (leftmost k) }
  | _, _ => m

/-- What `reduce_fn` leaves in the element of this map, given the views of this
and of the other map: `MERGE_INTO_RIGHT` swaps them first. -/
def MergeKind.combine (kind : MergeKind) {α : Type} [Mul α] (this other : α) : α :=
  match kind with
  | .intoRight => other * this
  | .intoLeft => this * other

/-- The treatment of one element of the other map in `cilkred_map::merge`. -/
def ReducerMap.mergeElem (kind : MergeKind) (m : ReducerMap M) (el : Sigma M) : ReducerMap M :=
  let m' := m.initLeftmostView el.1
  let view := match m'.elems.lookup el.1 with
    | none => el.2  -- move object from other map into this one
    | some view => kind.combine view el.2
  { m' with elems := m'.elems.insert el.1 view }

/-- `cilkred_map::merge`: merge `other` into `m`. -/
def ReducerMap.merge (m other : ReducerMap M) (kind : MergeKind) : Checked (ReducerMap M) := do
  Checked.assert (!other.isLeftmost) "!other_map->is_leftmost"
  let m' := other.elems.entries.foldl (ReducerMap.mergeElem kind) m
  return { m' with leftmost := m'.leftmost.or other.leftmost }

/-- `merge_reducer_maps`. -/
def mergeReducerMaps : Option (ReducerMap M) → Option (ReducerMap M) →
    Checked (Option (ReducerMap M))
  | none, right => return right
  | some left, none => return some left
  | some left, some right =>
    if left.isLeftmost || left.elems.entries.length > right.elems.entries.length then
      return some (← left.merge right .intoLeft)
    else
      return some (← right.merge left .intoRight)

-- ---------------------------------------------------------------------------
-- The meaning of a map
-- ---------------------------------------------------------------------------

/-- What a map holds for a reducer. -/
def ReducerMap.view (m : ReducerMap M) (k : K) : M k := (m.elems.lookup k).getD (m.newView k)

/-- What a pointer to a map holds for every reducer; `NULL` is the identity. -/
def value (m : Option (ReducerMap M)) : ∀ k, M k :=
  match m with
  | none => 1
  | some m => m.view

@[simp] theorem value_none : value (none : Option (ReducerMap M)) = 1 := rfl

@[simp] theorem value_makeReducerMap : value (some (makeReducerMap : ReducerMap M)) = 1 := by
  funext k
  rfl

/-- What a map holds after a view has been stored. -/
theorem view_insert (m : ReducerMap M) (k : K) (x : M k) :
    { m with elems := m.elems.insert k x : ReducerMap M }.view = Function.update m.view k x := by
  funext j
  by_cases hj : j = k
  · subst hj
    simp [ReducerMap.view]
  · rw [Function.update_of_ne hj]
    simp [ReducerMap.view, ReducerMap.newView, AList.lookup_insert_ne hj]

/-- An update multiplies the reducer's value on the right. -/
theorem value_update (m : ReducerMap M) (k : K) (x : M k) :
    value (some (m.update k x)) = value (some m) * Pi.mulSingle k x := by
  have hview : (m.hyperLookup k).1 = m.view k := by
    unfold ReducerMap.hyperLookup ReducerMap.view
    cases m.elems.lookup k <;> rfl
  have hmap : (m.hyperLookup k).2.view = m.view := by
    unfold ReducerMap.hyperLookup
    cases h : m.elems.lookup k with
    | some v => rfl
    | none => simp [view_insert, ReducerMap.view, h]
  show (ReducerMap.mk (m.hyperLookup k).2.leftmost
    ((m.hyperLookup k).2.elems.insert k ((m.hyperLookup k).1 * x))).view = _
  rw [view_insert, hview, hmap]
  funext j
  by_cases hj : j = k
  · subst hj
    simp [value]
  · simp [value, hj]

-- ---------------------------------------------------------------------------
-- Merging
-- ---------------------------------------------------------------------------

omit [∀ k, Monoid (M k)] in
@[simp] theorem initLeftmostView_leftmost (m : ReducerMap M) (k : K) :
    (m.initLeftmostView k).leftmost = m.leftmost := by
  unfold ReducerMap.initLeftmostView
  split <;> rfl

/-- Initializing a leftmost view does not change what the map holds. -/
@[simp] theorem initLeftmostView_view (m : ReducerMap M) (k : K) :
    (m.initLeftmostView k).view = m.view := by
  unfold ReducerMap.initLeftmostView
  split
  · rename_i leftmost hlook hleft
    have hv : m.view k = leftmost k := by
      simp [ReducerMap.view, hlook, ReducerMap.newView, hleft]
    rw [view_insert, ← hv, Function.update_eq_self]
  · rfl

/-- After that, a reducer that is still missing holds the identity. -/
theorem view_eq_one_of_initLeftmostView {m : ReducerMap M} {k : K}
    (h : (m.initLeftmostView k).elems.lookup k = none) : m.view k = 1 := by
  unfold ReducerMap.initLeftmostView at h
  cases hlook : m.elems.lookup k with
  | some v => simp [hlook] at h
  | none =>
    cases hleft : m.leftmost with
    | some leftmost => simp [hlook, hleft] at h
    | none => simp [ReducerMap.view, hlook, ReducerMap.newView, hleft]

/-- Merging one element changes the value of that reducer only. -/
theorem mergeElem_view (kind : MergeKind) (m : ReducerMap M) (el : Sigma M) :
    (m.mergeElem kind el).view =
      Function.update m.view el.1 (kind.combine (m.view el.1) el.2) := by
  unfold ReducerMap.mergeElem
  simp only [view_insert, initLeftmostView_view]
  congr 1
  cases hlook : (m.initLeftmostView el.1).elems.lookup el.1 with
  | none =>
    rw [view_eq_one_of_initLeftmostView hlook]
    cases kind <;> simp [MergeKind.combine]
  | some v =>
    rw [← initLeftmostView_view m el.1]
    simp [ReducerMap.view, hlook]

@[simp] theorem mergeElem_leftmost (kind : MergeKind) (m : ReducerMap M) (el : Sigma M) :
    (m.mergeElem kind el).leftmost = m.leftmost :=
  initLeftmostView_leftmost m el.1

/-- Merging a list of elements with distinct keys changes the value of those
reducers only. -/
theorem foldl_mergeElem_view (kind : MergeKind) {els : List (Sigma M)} (hnd : els.NodupKeys)
    (m : ReducerMap M) (k : K) :
    (els.foldl (ReducerMap.mergeElem kind) m).view k =
      kind.combine (m.view k) ((els.dlookup k).getD 1) := by
  induction els generalizing m with
  | nil => cases kind <;> simp [MergeKind.combine]
  | cons el els ih =>
    obtain ⟨hel, hnd⟩ := List.nodupKeys_cons.mp hnd
    rw [List.foldl_cons, ih hnd, mergeElem_view]
    obtain ⟨j, x⟩ := el
    by_cases hj : k = j
    · -- the other elements have other keys
      subst hj
      rw [List.dlookup_eq_none.mpr hel, List.dlookup_cons_eq]
      cases kind <;> simp [MergeKind.combine]
    · rw [Function.update_of_ne hj, List.dlookup_cons_ne _ _ hj]

@[simp] theorem foldl_mergeElem_leftmost (kind : MergeKind) (els : List (Sigma M))
    (m : ReducerMap M) :
    (els.foldl (ReducerMap.mergeElem kind) m).leftmost = m.leftmost := by
  induction els generalizing m with
  | nil => rfl
  | cons el els ih => rw [List.foldl_cons, ih, mergeElem_leftmost]

/-- `cilkred_map::merge` multiplies the values of the two maps. -/
theorem merge_spec {m other m' : ReducerMap M} {kind : MergeKind}
    (h : m.merge other kind = .ok m') :
    m'.leftmost = m.leftmost ∧ other.leftmost = none ∧
      m'.view = fun k => kind.combine (m.view k) (other.view k) := by
  unfold ReducerMap.merge at h
  obtain ⟨_, hassert, h⟩ := Checked.bind_eq_ok.mp h
  have hother : other.leftmost = none := by
    simpa [ReducerMap.isLeftmost] using Checked.assert_eq_ok.mp hassert
  obtain rfl := Checked.pure_eq_ok.mp h
  have hleft : ∀ a : Option (∀ k, M k), a.or none = a := fun a => by cases a <;> rfl
  simp only [hother, hleft, foldl_mergeElem_leftmost, true_and]
  funext k
  have hview := foldl_mergeElem_view kind other.elems.nodupKeys m k
  have hk : other.view k = (other.elems.entries.dlookup k).getD 1 := by
    simp [ReducerMap.view, ReducerMap.newView, hother, AList.lookup]
  rw [hk, ← hview]
  simp [ReducerMap.view, ReducerMap.newView]

/-- Merging multiplies the values of the two operands, left operand first. -/
theorem value_mergeReducerMaps {left right m : Option (ReducerMap M)}
    (h : mergeReducerMaps left right = .ok m) : value m = value left * value right := by
  unfold mergeReducerMaps at h
  split at h
  · obtain rfl := Checked.pure_eq_ok.mp h
    rw [value_none, one_mul]
  · obtain rfl := Checked.pure_eq_ok.mp h
    rw [value_none, mul_one]
  · split at h
    · obtain ⟨m', hm, h⟩ := Checked.bind_eq_ok.mp h
      obtain rfl := Checked.pure_eq_ok.mp h
      exact (merge_spec hm).2.2
    · obtain ⟨m', hm, h⟩ := Checked.bind_eq_ok.mp h
      obtain rfl := Checked.pure_eq_ok.mp h
      exact (merge_spec hm).2.2

/-- A pointer to a map that is leftmost. -/
def isLeftmost (m : Option (ReducerMap M)) : Bool := m.any (·.isLeftmost)

omit [DecidableEq K] [∀ k, Monoid (M k)] in
@[simp] theorem isLeftmost_none : isLeftmost (none : Option (ReducerMap M)) = false := rfl

-- ---------------------------------------------------------------------------
-- Sequences of maps
-- ---------------------------------------------------------------------------

/-- The product of a sequence of maps. -/
def valueOf (ms : List (Option (ReducerMap M))) : ∀ k, M k := (ms.map value).prod

/-- No map but the first of a sequence is leftmost. -/
def LeftmostFirst : List (Option (ReducerMap M)) → Prop
  | [] => True
  | none :: ms => LeftmostFirst ms
  | some _ :: ms => ∀ m ∈ ms, isLeftmost m = false

/-- Some map of the sequence is leftmost. -/
def hasLeftmost (ms : List (Option (ReducerMap M))) : Bool := ms.any isLeftmost

/-- Maps have been moved and merged within a sequence of slots, keeping their
order. -/
structure Rearranged (ms ms' : List (Option (ReducerMap M))) : Prop where
  value         : valueOf ms' = valueOf ms
  leftmostFirst : LeftmostFirst ms → LeftmostFirst ms'
  hasLeftmost   : hasLeftmost ms' = hasLeftmost ms

theorem Rearranged.refl (ms : List (Option (ReducerMap M))) : Rearranged ms ms :=
  ⟨rfl, id, rfl⟩

theorem Rearranged.trans {ms ms' ms'' : List (Option (ReducerMap M))} (h : Rearranged ms ms')
    (h' : Rearranged ms' ms'') : Rearranged ms ms'' :=
  ⟨h'.value.trans h.value, fun hms => h'.leftmostFirst (h.leftmostFirst hms),
    h'.hasLeftmost.trans h.hasLeftmost⟩

end SwanRuntime.Reducers
