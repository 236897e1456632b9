import Mathlib.Algebra.Group.TypeTags.Basic
import Mathlib.Algebra.Group.Nat.Defs
import Mathlib.Data.Set.Basic
import SwanRuntime.Reducers.HashTable
import SwanRuntime.Reducers.Map

/-!
# Merging two reducer maps

`cilkred_map::merge` walks over the elements of the other map. An element whose
reducer this map does not have moves to it; else `reduce_fn` is called on the two
views, the left one first, for which the two views are swapped when this map is
the right one. The other map is destroyed at the end, with the views that are
left in it. A leftmost map gets the leftmost view of a reducer before something
is merged into it.

Memory has, for every reducer, the value of a view at its address. The log of
`destroy_fn` is kept to see what is destroyed.

## Results

* `mergeElems_ok`                   — the walk over the other map.
* `merge_intoLeft`, `merge_intoRight` — a merge in either direction.
* `mergeReducerMaps_merged`         — the map returned, the values and the log.
-/

namespace SwanRuntime.Reducers

/-- `cilk_c_monoid`: `reduce_fn` leaves the product in the left view, and anything
in the right one. -/
structure CMonoid (α : Type) [Monoid α] where
  reduceFn    : α → α → α × α
  reduce_left : ∀ a b, (reduceFn a b).1 = a * b

/-- The views in memory, and the views that `destroy_fn` has been called on. -/
structure Store (M : Addr → Type) where
  heap      : ∀ key, Addr → M key
  destroyed : List Addr

variable {M : Addr → Type} [∀ k, Monoid (M k)]

-- ---------------------------------------------------------------------------
-- The code
-- ---------------------------------------------------------------------------

/-- `get_leftmost_view`. -/
def getLeftmostView (key : Addr) : Addr := key

def Elem.isLeftmost (el : Elem) : Bool := el.key == el.view

/-- `elem::destroy`. -/
def Elem.destroy (el : Elem) (s : Store M) : Store M :=
  if !el.isLeftmost then { s with destroyed := s.destroyed ++ [el.view] } else s

/-- `__cilkrts_destroy_reducer_map`. -/
def destroyReducerMap (els : List Elem) (s : Store M) : Store M :=
  els.foldl (fun s el => if el.view ≠ 0 then el.destroy s else s) s

/-- The call of `reduce_fn` on two views of a reducer. -/
def Store.reduce (monoid : ∀ k, CMonoid (M k)) (s : Store M) (key left right : Addr) : Store M :=
  let res := (monoid key).reduceFn (s.heap key left) (s.heap key right)
  { s with
    heap := Function.update s.heap key
      (Function.update (Function.update (s.heap key) right res.2) left res.1) }

/-- The element of this map that another one is merged into; a leftmost map gets
the leftmost view first. -/
def CilkredMap.thisElem (m : CilkredMap) (mergeToLeftmost : Bool) (otherEl : Elem) :
    Checked (CilkredMap × Option Elem) := do
  let thisEl ← m.lookup otherEl.key
  if thisEl.isNone && mergeToLeftmost && getLeftmostView otherEl.key != otherEl.view then
    let m ← m.rehashAndInsert otherEl.key (getLeftmostView otherEl.key)
    return (m, some ⟨otherEl.key, getLeftmostView otherEl.key⟩)
  else
    return (m, thisEl)

/-- One pass of the loop of `cilkred_map::merge`: memory, this map and the element
of the other map after it. -/
def mergeElem (monoid : ∀ k, CMonoid (M k)) (kind : MergeKind) (mergeToLeftmost : Bool)
    (s : Store M) (m : CilkredMap) (otherEl : Elem) :
    Checked (Store M × CilkredMap × Elem) := do
  Checked.assert (otherEl.view != 0) "other_view"
  let (m, thisEl) ← m.thisElem mergeToLeftmost otherEl
  match thisEl with
  | none =>
    let m ← m.rehashAndInsert otherEl.key otherEl.view
    return (s, m, { otherEl with view := 0 })
  | some thisEl =>
    match kind with
    | .intoRight =>
      -- swap elements in order to preserve object identity
      return (s.reduce monoid otherEl.key otherEl.view thisEl.view,
        m.setView otherEl.key otherEl.view, { otherEl with view := thisEl.view })
    | .intoLeft =>
      return (s.reduce monoid otherEl.key thisEl.view otherEl.view, m, otherEl)

/-- The loop of `cilkred_map::merge`. -/
def mergeElems (monoid : ∀ k, CMonoid (M k)) (kind : MergeKind) (mergeToLeftmost : Bool)
    (s : Store M) (m : CilkredMap) : List Elem → Checked (Store M × CilkredMap × List Elem)
  | [] => return (s, m, [])
  | otherEl :: rest => do
    let (s, m, otherEl) ← mergeElem monoid kind mergeToLeftmost s m otherEl
    let (s, m, rest) ← mergeElems monoid kind mergeToLeftmost s m rest
    return (s, m, otherEl :: rest)

/-- `cilkred_map::merge`. -/
def CilkredMap.merge (monoid : ∀ k, CMonoid (M k)) (s : Store M) (m other : CilkredMap)
    (kind : MergeKind) : Checked (Store M × CilkredMap) := do
  Checked.assert (!other.isLeftmost) "!other_map->is_leftmost"
  let (s, m, els) ← mergeElems monoid kind m.isLeftmost s { m with merging := true } other.elems
  let m := { m with isLeftmost := m.isLeftmost || other.isLeftmost, merging := false }
  return (destroyReducerMap els s, m)

/-- `merge_reducer_maps`. -/
def CilkredMap.mergeReducerMaps (monoid : ∀ k, CMonoid (M k)) (s : Store M) :
    Option CilkredMap → Option CilkredMap → Checked (Store M × Option CilkredMap)
  | none, right => return (s, right)
  | some left, none => return (s, some left)
  | some left, some right =>
    if left.isLeftmost || left.nelem > right.nelem then do
      let (s, m) ← left.merge monoid s right .intoLeft
      return (s, some m)
    else do
      let (s, m) ← right.merge monoid s left .intoRight
      return (s, some m)

-- ---------------------------------------------------------------------------
-- The property
-- ---------------------------------------------------------------------------

/-- The view of a reducer that a pointer to a map leads to. -/
def viewIn (m : Option CilkredMap) (key : Addr) : Option Addr := m.bind (·.viewOf key)

/-- `is_leftmost` behind a pointer to a map. -/
def leftmostMap (m : Option CilkredMap) : Bool := m.any (·.isLeftmost)

/-- What a pointer to a map holds for a reducer: a missing view is the leftmost one
in the leftmost map, and else the identity. -/
def valueIn (s : Store M) (m : Option CilkredMap) (key : Addr) : M key :=
  match viewIn m key with
  | some view => s.heap key view
  | none => if leftmostMap m then s.heap key (getLeftmostView key) else 1

/-- A map that is not being merged. -/
def Sound (m : Option CilkredMap) : Prop := ∀ x ∈ m, x.Ok ∧ x.merging = false

/-- A view belongs to one element, and the leftmost view of a reducer to none of
another one. `hypers` are the keys of the reducers that there are. -/
structure Separate (hypers : Set Addr) (left right : Option CilkredMap) : Prop where
  apart    : ∀ k j a, viewIn left k = some a → viewIn right j ≠ some a
  injLeft  : ∀ k j a, viewIn left k = some a → viewIn left j = some a → k = j
  injRight : ∀ k j a, viewIn right k = some a → viewIn right j = some a → k = j
  leftmost : ∀ k a, viewIn left k = some a ∨ viewIn right k = some a →
    k ∈ hypers ∧ (a ∈ hypers → a = k)

/-- The right map brings the leftmost view of a reducer to a leftmost map that
does not have it yet. -/
def BringsLeftmost (left right : Option CilkredMap) (key : Addr) : Prop :=
  leftmostMap left = true ∧ viewIn left key = none ∧ viewIn right key = some (getLeftmostView key)

/-- What a merge leaves behind. -/
structure Merged (hypers : Set Addr) (s : Store M) (left right : Option CilkredMap)
    (s' : Store M) (out : Option CilkredMap) : Prop where
  sound     : Sound out
  leftmost  : leftmostMap out = leftmostMap left
  value     : ∀ k, ¬ BringsLeftmost left right k →
    valueIn s' out k = valueIn s left k * valueIn s right k
  brought   : ∀ k, BringsLeftmost left right k → valueIn s' out k = valueIn s right k
  kept      : ∀ k a, viewIn left k = some a → viewIn out k = some a
  destroyed : ∃ log, s'.destroyed = s.destroyed ++ log ∧ log.Nodup ∧
    ∀ a, a ∈ log ↔ (∃ k, viewIn left k = some a ∨ viewIn right k = some a) ∧ a ∉ hypers ∧
      ∀ k, viewIn out k ≠ some a

-- ---------------------------------------------------------------------------
-- One element
-- ---------------------------------------------------------------------------

/-- Of the views of this and the other map, the left one. -/
def MergeKind.left (kind : MergeKind) (this other : Addr) : Addr :=
  match kind with
  | .intoRight => other
  | .intoLeft => this

/-- Of the views of this and the other map, the right one. -/
def MergeKind.right (kind : MergeKind) (this other : Addr) : Addr :=
  match kind with
  | .intoRight => this
  | .intoLeft => other

/-- The view of this map that one of the other map is reduced with. -/
def target (mergeToLeftmost : Bool) (this : Option Addr) (el : Elem) : Option Addr :=
  match this with
  | some view => some view
  | none => if mergeToLeftmost && getLeftmostView el.key != el.view then some el.key else none

/-- The view that stays for the reducer. -/
def MergeKind.survivor (kind : MergeKind) (mine : Option Addr) (el : Elem) : Addr :=
  mine.elim el.view (kind.left · el.view)

/-- The view that the other map is left with. -/
def MergeKind.leftover (kind : MergeKind) (mine : Option Addr) (el : Elem) : Addr :=
  mine.elim 0 (kind.right · el.view)

/-- Memory after one element. -/
def Store.mergeView (monoid : ∀ k, CMonoid (M k)) (kind : MergeKind) (s : Store M)
    (mine : Option Addr) (el : Elem) : Store M :=
  mine.elim s fun view => s.reduce monoid el.key (kind.left view el.view) (kind.right view el.view)

section Elements

variable {monoid : ∀ k, CMonoid (M k)} {kind : MergeKind} {s : Store M} {m : CilkredMap}
  {el : Elem}

theorem reduce_heap_self (s : Store M) (key left right : Addr) :
    (s.reduce monoid key left right).heap key left =
      s.heap key left * s.heap key right := by
  unfold Store.reduce
  simp only [Function.update_self]
  exact (monoid key).reduce_left _ _

theorem reduce_heap_of_ne (s : Store M) {key j : Addr} (left right : Addr) (h : j ≠ key) :
    (s.reduce monoid key left right).heap j = s.heap j :=
  Function.update_of_ne h _ _

theorem mergeView_heap_of_ne (s : Store M) (mine : Option Addr) {j : Addr} (h : j ≠ el.key) :
    (s.mergeView monoid kind mine el).heap j = s.heap j := by
  cases mine with
  | none => rfl
  | some view => exact reduce_heap_of_ne s _ _ h

/-- The views of a reducer after its element depend on those before only. -/
theorem mergeView_heap_congr {s s' : Store M} (mine : Option Addr)
    (h : s'.heap el.key = s.heap el.key) :
    (s'.mergeView monoid kind mine el).heap el.key =
      (s.mergeView monoid kind mine el).heap el.key := by
  cases mine with
  | none => exact h
  | some view =>
    show (s'.reduce monoid el.key _ _).heap el.key = (s.reduce monoid el.key _ _).heap el.key
    unfold Store.reduce
    simp only [Function.update_self, h]

@[simp] theorem mergeView_destroyed (s : Store M) (mine : Option Addr) :
    (s.mergeView monoid kind mine el).destroyed = s.destroyed := by
  cases mine <;> rfl

theorem CilkredMap.Stores.refl {key view : Addr} (h : m.Ok) (hview : m.viewOf key = some view) :
    m.Stores key view m := by
  refine ⟨h, ?_, rfl, rfl⟩
  rw [← hview, Function.update_eq_self]

theorem CilkredMap.Stores.trans {key a b : Addr} {m₁ m₂ : CilkredMap} (h : m.Stores key a m₁)
    (h' : m₁.Stores key b m₂) : m.Stores key b m₂ := by
  refine ⟨h'.ok, ?_, h'.merging.trans h.merging, h'.isLeftmost.trans h.isLeftmost⟩
  rw [h'.viewOf, h.viewOf, Function.update_idem]

theorem CilkredMap.Stores.viewOf_self {key view : Addr} {m' : CilkredMap}
    (h : m.Stores key view m') : m'.viewOf key = some view := by
  rw [h.viewOf, Function.update_self]

theorem CilkredMap.Stores.viewOf_of_ne {key view j : Addr} {m' : CilkredMap}
    (h : m.Stores key view m') (hj : j ≠ key) : m'.viewOf j = m.viewOf j := by
  rw [h.viewOf, Function.update_of_ne hj]

/-- The element to merge into is the one of the target, which the map then has. -/
theorem thisElem_ok (h : m.Ok) (mergeToLeftmost : Bool) (hkey : el.key ≠ 0) :
    ∃ m', m.thisElem mergeToLeftmost el =
        .ok (m', (target mergeToLeftmost (m.viewOf el.key) el).map fun view => ⟨el.key, view⟩) ∧
      match target mergeToLeftmost (m.viewOf el.key) el with
      | none => m' = m ∧ m.viewOf el.key = none
      | some view => m.Stores el.key view m' := by
  unfold CilkredMap.thisElem
  rw [CilkredMap.lookup_eq h, Checked.ok_bind]
  cases hview : m.viewOf el.key with
  | some view => exact ⟨m, rfl, .refl h hview⟩
  | none =>
    simp only [Option.map_none, Option.isNone_none, Bool.true_and]
    by_cases hinit : (mergeToLeftmost && getLeftmostView el.key != el.view) = true
    · have htarget : target mergeToLeftmost none el = some el.key := if_pos hinit
      obtain ⟨m', hrun, hstores⟩ := CilkredMap.rehashAndInsert_ok h hview hkey hkey
      rw [htarget, if_pos hinit, show getLeftmostView el.key = el.key from rfl, hrun]
      exact ⟨m', rfl, hstores⟩
    · have htarget : target mergeToLeftmost none el = none := if_neg hinit
      rw [htarget, if_neg hinit]
      exact ⟨m, rfl, rfl, trivial⟩

/-- One pass stores the survivor, and leaves the other view to the other map. -/
theorem mergeElem_ok (h : m.Ok) {mergeToLeftmost : Bool} (hkey : el.key ≠ 0) (hview : el.view ≠ 0)
    (s : Store M) {mine : Option Addr} (hmine : target mergeToLeftmost (m.viewOf el.key) el = mine) :
    ∃ m', mergeElem monoid kind mergeToLeftmost s m el =
        .ok (s.mergeView monoid kind mine el, m', { el with view := kind.leftover mine el }) ∧
      m.Stores el.key (kind.survivor mine el) m' := by
  have hassert : (el.view != 0) = true := by simpa using hview
  obtain ⟨m₁, hrun, hthis⟩ := thisElem_ok h mergeToLeftmost hkey
  rw [hmine] at hrun hthis
  unfold mergeElem
  rw [hassert, Checked.assert_true, Checked.ok_bind, hrun, Checked.ok_bind]
  cases mine with
  | none =>
    obtain ⟨rfl, hnone⟩ := hthis
    obtain ⟨m', hinsert, hstores⟩ := CilkredMap.rehashAndInsert_ok h hnone hkey hview
    refine ⟨m', ?_, hstores⟩
    simp only [Option.map_none, hinsert]
    rfl
  | some view =>
    cases kind with
    | intoRight =>
      exact ⟨_, rfl, hthis.trans (CilkredMap.setView_ok hthis.ok hthis.viewOf_self hview)⟩
    | intoLeft => exact ⟨m₁, rfl, hthis⟩

-- ---------------------------------------------------------------------------
-- The walk
-- ---------------------------------------------------------------------------

/-- What the walk over the elements of the other map leaves in memory and in this
map. -/
structure Walked (monoid : ∀ k, CMonoid (M k)) (kind : MergeKind) (mergeToLeftmost : Bool)
    (s : Store M) (m : CilkredMap) (els : List Elem) (s' : Store M) (m' : CilkredMap) : Prop where
  ok         : m'.Ok
  merging    : m'.merging = m.merging
  isLeftmost : m'.isLeftmost = m.isLeftmost
  destroyed  : s'.destroyed = s.destroyed
  other      : ∀ k, (∀ el ∈ els, el.key ≠ k) → m'.viewOf k = m.viewOf k ∧ s'.heap k = s.heap k
  elems      : ∀ el ∈ els,
    let mine := target mergeToLeftmost (m.viewOf el.key) el
    m'.viewOf el.key = some (kind.survivor mine el) ∧
      s'.heap el.key = (s.mergeView monoid kind mine el).heap el.key

/-- The elements of the other map after the walk. -/
def leftovers (kind : MergeKind) (mergeToLeftmost : Bool) (m : CilkredMap) (els : List Elem) :
    List Elem :=
  els.map fun el =>
    { el with view := kind.leftover (target mergeToLeftmost (m.viewOf el.key) el) el }

variable (monoid kind) in
/-- Every element meets the map as it was before the walk, for no two elements
have one key. -/
theorem mergeElems_ok {els : List Elem} (h : m.Ok) (mergeToLeftmost : Bool)
    (hkeys : (els.map (·.key)).Nodup) (hels : ∀ el ∈ els, el.key ≠ 0 ∧ el.view ≠ 0) (s : Store M) :
    ∃ s' m', mergeElems monoid kind mergeToLeftmost s m els =
        .ok (s', m', leftovers kind mergeToLeftmost m els) ∧
      Walked monoid kind mergeToLeftmost s m els s' m' := by
  induction els generalizing s m with
  | nil =>
    exact ⟨s, m, rfl, h, rfl, rfl, rfl, fun _ _ => ⟨rfl, rfl⟩, fun el hel =>
      absurd hel List.not_mem_nil⟩
  | cons el els ih =>
    rw [List.map_cons, List.nodup_cons] at hkeys
    obtain ⟨hfresh, hkeys⟩ := hkeys
    have hne : ∀ e ∈ els, e.key ≠ el.key := fun e he heq => hfresh (heq ▸ List.mem_map_of_mem he)
    obtain ⟨hkey, hview⟩ := hels el List.mem_cons_self
    obtain ⟨m₁, hrun₁, hstores⟩ :=
      @mergeElem_ok M _ monoid kind m el h mergeToLeftmost hkey hview s _ rfl
    obtain ⟨s', m', hrun, hwalk⟩ := ih hstores.ok hkeys
      (fun e he => hels e (List.mem_cons_of_mem _ he))
      (s.mergeView monoid kind (target mergeToLeftmost (m.viewOf el.key) el) el)
    -- the step touches no other key, so the rest meets what it would have met
    have hsame : ∀ e ∈ els, m₁.viewOf e.key = m.viewOf e.key :=
      fun e he => hstores.viewOf_of_ne (hne e he)
    refine ⟨s', m', ?_, hwalk.ok, hwalk.merging.trans hstores.merging,
      hwalk.isLeftmost.trans hstores.isLeftmost, hwalk.destroyed.trans (mergeView_destroyed _ _),
      fun k hk => ?_, fun e he => ?_⟩
    · have hleft : leftovers kind mergeToLeftmost m₁ els = leftovers kind mergeToLeftmost m els :=
        List.map_congr_left fun e he => by rw [hsame e he]
      unfold mergeElems
      rw [hrun₁, Checked.ok_bind]
      simp only [hrun, Checked.ok_bind, hleft]
      rfl
    · have hk' : k ≠ el.key := fun heq => hk el List.mem_cons_self heq.symm
      obtain ⟨hv, hh⟩ := hwalk.other k fun e he => hk e (List.mem_cons_of_mem _ he)
      exact ⟨hv.trans (hstores.viewOf_of_ne hk'), hh.trans (mergeView_heap_of_ne _ _ hk')⟩
    · rcases List.mem_cons.mp he with rfl | he
      · obtain ⟨hv, hh⟩ := hwalk.other e.key hne
        exact ⟨hv.trans hstores.viewOf_self, hh⟩
      · obtain ⟨hv, hh⟩ := hwalk.elems e he
        rw [hsame e he] at hv hh
        exact ⟨hv, hh.trans (mergeView_heap_congr _ (mergeView_heap_of_ne _ _ (hne e he)))⟩

end Elements

-- ---------------------------------------------------------------------------
-- Destruction
-- ---------------------------------------------------------------------------

/-- The views that the destruction of a map destroys. -/
def destroyedViews (els : List Elem) : List Addr :=
  (els.filter fun el => el.view != 0 && !el.isLeftmost).map (·.view)

omit [∀ k, Monoid (M k)] in
theorem destroyReducerMap_eq (els : List Elem) (s : Store M) :
    destroyReducerMap els s = { s with destroyed := s.destroyed ++ destroyedViews els } := by
  unfold destroyReducerMap
  induction els generalizing s with
  | nil => simp [destroyedViews]
  | cons el els ih =>
    rw [List.foldl_cons, ih]
    unfold destroyedViews Elem.destroy
    by_cases hview : el.view = 0
    · simp [hview]
    · cases hleft : el.isLeftmost <;> simp [hview, hleft]

theorem mem_destroyedViews {els : List Elem} {a : Addr} :
    a ∈ destroyedViews els ↔ ∃ el ∈ els, el.view = a ∧ a ≠ 0 ∧ el.key ≠ a := by
  unfold destroyedViews Elem.isLeftmost
  simp only [List.mem_map, List.mem_filter, Bool.and_eq_true, bne_iff_ne, ne_eq,
    Bool.not_eq_true', beq_eq_false_iff_ne]
  constructor
  · rintro ⟨el, ⟨hel, hzero, hkey⟩, rfl⟩
    exact ⟨el, hel, rfl, hzero, hkey⟩
  · rintro ⟨el, hel, rfl, hzero, hkey⟩
    exact ⟨el, ⟨hel, hzero, hkey⟩, rfl⟩

/-- No view is destroyed twice, if no two elements share one. -/
theorem destroyedViews_nodup {els : List Elem} (hkeys : (els.map (·.key)).Nodup)
    (hviews : ∀ x ∈ els, ∀ y ∈ els, x.view ≠ 0 → x.view = y.view → x.key = y.key) :
    (destroyedViews els).Nodup := by
  have hels : els.Nodup := List.Nodup.of_map _ hkeys
  unfold destroyedViews
  refine List.Nodup.map_on (fun x hx y hy hxy => ?_) (hels.filter _)
  rw [List.mem_filter, Bool.and_eq_true] at hx hy
  have hkey := hviews x hx.1 y hy.1 (by simpa using hx.2.1) hxy
  exact List.inj_on_of_nodup_map hkeys hx.1 hy.1 hkey

-- ---------------------------------------------------------------------------
-- Whole merges
-- ---------------------------------------------------------------------------

section Merge

variable {monoid : ∀ k, CMonoid (M k)} {kind : MergeKind} {s : Store M} {m other : CilkredMap}

variable (monoid kind s) in
/-- A merge walks over the other map and destroys what is left in it. -/
theorem merge_walked (h : m.Ok) (hother : other.Ok) (hleft : other.isLeftmost = false) :
    ∃ s' m', m.merge monoid s other kind = .ok (destroyReducerMap
        (leftovers kind m.isLeftmost m other.elems) s', { m' with merging := false }) ∧
      Walked monoid kind m.isLeftmost s m other.elems s' m' := by
  have hmerging : CilkredMap.Ok { m with merging := true } :=
    ⟨h.hashed, h.power, h.count, h.keys, h.nonzero⟩
  obtain ⟨s', m', hrun, hwalk⟩ :=
    mergeElems_ok monoid kind hmerging m.isLeftmost hother.keys
      hother.nonzero s
  refine ⟨s', { m' with merging := m.merging }, ?_, ?_⟩
  · unfold CilkredMap.merge
    rw [hleft, Bool.not_false, Checked.assert_true, Checked.ok_bind, hrun, Checked.ok_bind]
    simp only [Bool.or_false]
    rfl
  · exact ⟨⟨hwalk.ok.hashed, hwalk.ok.power, hwalk.ok.count, hwalk.ok.keys, hwalk.ok.nonzero⟩, rfl,
      hwalk.isLeftmost, hwalk.destroyed, hwalk.other, hwalk.elems⟩

theorem Separate.symm {hypers : Set Addr} {left right : Option CilkredMap}
    (h : Separate hypers left right) : Separate hypers right left :=
  ⟨fun k j a hk hj => h.apart j k a hj hk, h.injRight, h.injLeft,
    fun k a hk => h.leftmost k a hk.symm⟩

/-- A view belongs to one reducer. -/
theorem Separate.key_unique {hypers : Set Addr} {left right : Option CilkredMap}
    (h : Separate hypers left right) {k j a : Addr}
    (hk : viewIn left k = some a ∨ viewIn right k = some a)
    (hj : viewIn left j = some a ∨ viewIn right j = some a) : k = j := by
  rcases hk with hk | hk <;> rcases hj with hj | hj
  · exact h.injLeft k j a hk hj
  · exact absurd hj (h.apart k j a hk)
  · exact absurd hk (h.apart j k a hj)
  · exact h.injRight k j a hk hj

theorem target_some {mergeToLeftmost : Bool} {this : Option Addr} {el : Elem} {view : Addr}
    (h : target mergeToLeftmost this el = some view) :
    this = some view ∨ this = none ∧ mergeToLeftmost = true ∧ view = el.key ∧ el.key ≠ el.view := by
  cases this with
  | some u => exact Or.inl h
  | none =>
    right
    by_cases hinit : (mergeToLeftmost && getLeftmostView el.key != el.view) = true
    · rw [target, if_pos hinit] at h
      rw [Bool.and_eq_true, bne_iff_ne] at hinit
      exact ⟨rfl, hinit.1, (Option.some.inj h).symm, hinit.2⟩
    · rw [target, if_neg hinit] at h
      exact nomatch h

theorem target_none {mergeToLeftmost : Bool} {this : Option Addr} {el : Elem}
    (h : target mergeToLeftmost this el = none) :
    this = none ∧ (mergeToLeftmost = true → el.key = el.view) := by
  cases this with
  | some u => exact nomatch h
  | none =>
    refine ⟨rfl, fun hleft => ?_⟩
    by_contra hne
    have hinit : (mergeToLeftmost && getLeftmostView el.key != el.view) = true := by
      rw [Bool.and_eq_true, bne_iff_ne]
      exact ⟨hleft, hne⟩
    rw [target, if_pos hinit] at h
    exact nomatch h

section Facts

variable {s' : Store M} {m' : CilkredMap} {hypers : Set Addr} {mergeToLeftmost : Bool}

/-- A reducer that the other map does not have. -/
theorem Walked.of_none (hwalk : Walked monoid kind mergeToLeftmost s m other.elems s' m') {k : Addr}
    (hk : other.viewOf k = none) : m'.viewOf k = m.viewOf k ∧ s'.heap k = s.heap k := by
  refine hwalk.other k fun el hel heq => ?_
  have hmem := CilkredMap.viewOf_eq_none.mp hk
  exact hmem (heq ▸ List.mem_map_of_mem hel)

/-- A reducer that it has. -/
theorem Walked.of_some (hwalk : Walked monoid kind mergeToLeftmost s m other.elems s' m')
    (hother : other.Ok) {k b : Addr} (hk : other.viewOf k = some b) :
    let mine := target mergeToLeftmost (m.viewOf k) ⟨k, b⟩
    m'.viewOf k = some (kind.survivor mine ⟨k, b⟩) ∧
      s'.heap k = (s.mergeView monoid kind mine ⟨k, b⟩).heap k :=
  hwalk.elems ⟨k, b⟩ ((CilkredMap.viewOf_eq_some hother.keys).mp hk)

/-- The values are combined, except for a leftmost view that a leftmost map did
not have. -/
theorem Walked.value (hwalk : Walked monoid kind m.isLeftmost s m other.elems s' m')
    (hother : other.Ok) (hleft : other.isLeftmost = false) (k : Addr) :
    (¬ BringsLeftmost (some m) (some other) k → valueIn s' (some m') k =
      kind.combine (valueIn s (some m) k) (valueIn s (some other) k)) ∧
    (BringsLeftmost (some m) (some other) k →
      valueIn s' (some m') k = valueIn s (some other) k) := by
  -- no view is as good as one that holds the identity
  have hone : ∀ x : M k, kind.combine x 1 = x := by
    intro x
    cases kind
    · exact one_mul x
    · exact mul_one x
  have hone' : ∀ x : M k, kind.combine 1 x = x := by
    intro x
    cases kind
    · exact mul_one x
    · exact one_mul x
  have hmap : leftmostMap (some m') = leftmostMap (some m) := hwalk.isLeftmost
  have hmap' : leftmostMap (some other) = false := hleft
  cases hk : other.viewOf k with
  | none =>
    have hview : viewIn (some other) k = none := hk
    obtain ⟨hv, hh⟩ := hwalk.of_none hk
    have hsame : viewIn (some m') k = viewIn (some m) k := hv
    constructor
    · intro _
      have hzero : valueIn s (some other) k = 1 := by
        unfold valueIn
        rw [hview, hmap']
        rfl
      rw [hzero, hone]
      unfold valueIn
      rw [hsame, hmap, hh]
    · rintro ⟨-, -, hb⟩
      rw [hview] at hb
      exact nomatch hb
  | some b =>
    have hview : viewIn (some other) k = some b := hk
    have hright : valueIn s (some other) k = s.heap k b := by
      unfold valueIn
      rw [hview]
    obtain ⟨hv, hh⟩ := hwalk.of_some hother hk
    rw [hright]
    cases hmine : target m.isLeftmost (m.viewOf k) ⟨k, b⟩ with
    | none =>
      -- the view has moved
      obtain ⟨hnone, hbrought⟩ := target_none hmine
      rw [hmine] at hv hh
      have hout : valueIn s' (some m') k = s.heap k b := by
        have hb : viewIn (some m') k = some b := hv
        unfold valueIn
        rw [hb]
        exact congrFun hh b
      rw [hout]
      refine ⟨fun hnot => ?_, fun _ => rfl⟩
      -- in a leftmost map the view would be the leftmost one
      have hplain : m.isLeftmost = false := by
        by_contra hlm
        have hlm := Bool.of_not_eq_false hlm
        have hkb : k = b := hbrought hlm
        exact hnot ⟨hlm, hnone, hview.trans (congrArg some hkb.symm)⟩
      have hleftValue : valueIn s (some m) k = 1 := by
        have hm : viewIn (some m) k = none := hnone
        have hlm : leftmostMap (some m) = false := hplain
        unfold valueIn
        rw [hm, hlm]
        rfl
      rw [hleftValue, hone']
    | some u =>
      rw [hmine] at hv hh
      -- the two views are reduced
      have hout : valueIn s' (some m') k = kind.combine (s.heap k u) (s.heap k b) := by
        have hb : viewIn (some m') k = some (kind.left u b) := hv
        unfold valueIn
        rw [hb]
        refine (congrFun hh (kind.left u b)).trans ((reduce_heap_self s k _ _).trans ?_)
        cases kind <;> rfl
      have hthis : valueIn s (some m) k = s.heap k u := by
        rcases target_some hmine with hm | ⟨hm, hlm, hu, -⟩
        · have hm : viewIn (some m) k = some u := hm
          unfold valueIn
          rw [hm]
        · rw [show u = k from hu]
          have hm : viewIn (some m) k = none := hm
          have hlm : leftmostMap (some m) = true := hlm
          unfold valueIn
          rw [hm, hlm]
          rfl
      rw [hout, hthis]
      refine ⟨fun _ => rfl, ?_⟩
      rintro ⟨-, hm, hb⟩
      rw [hview] at hb
      rcases target_some hmine with hm' | ⟨-, -, -, hne⟩
      · exact nomatch hm.symm.trans hm'
      · exact absurd (Option.some.inj hb).symm hne

/-- What the map holds in the end is a view of one of the maps, or a leftmost view
that has been initialized. -/
theorem Walked.origin (hwalk : Walked monoid kind mergeToLeftmost s m other.elems s' m')
    (hother : other.Ok) {k a : Addr} (hk : m'.viewOf k = some a) :
    (m.viewOf k = some a ∨ other.viewOf k = some a) ∨ a = k ∧ ∃ b, other.viewOf k = some b := by
  cases ho : other.viewOf k with
  | none => exact Or.inl (Or.inl ((hwalk.of_none ho).1.symm.trans hk))
  | some b =>
    have hv := (hwalk.of_some hother ho).1.symm.trans hk
    cases hmine : target mergeToLeftmost (m.viewOf k) ⟨k, b⟩ with
    | none =>
      rw [hmine] at hv
      exact Or.inl (Or.inr hv)
    | some u =>
      rw [hmine] at hv
      have hcases : u = a ∨ b = a := by
        cases kind
        · exact Or.inr (Option.some.inj hv)
        · exact Or.inl (Option.some.inj hv)
      rcases hcases with rfl | rfl
      · rcases target_some hmine with hm | ⟨-, -, hu, -⟩
        · exact Or.inl (Or.inl hm)
        · exact Or.inr ⟨hu, b, rfl⟩
      · exact Or.inl (Or.inr rfl)

/-- A view that is left in the other map is one of the two, and another than the
one that stays. -/
theorem leftover_spec (hkind : kind = .intoRight → mergeToLeftmost = false)
    (hsep : Separate hypers (some m) (some other)) {k b : Addr} (hk : other.viewOf k = some b)
    (hzero : kind.leftover (target mergeToLeftmost (m.viewOf k) ⟨k, b⟩) ⟨k, b⟩ ≠ 0) :
    let mine := target mergeToLeftmost (m.viewOf k) ⟨k, b⟩
    (m.viewOf k = some (kind.leftover mine ⟨k, b⟩) ∨
      other.viewOf k = some (kind.leftover mine ⟨k, b⟩)) ∧
      kind.survivor mine ⟨k, b⟩ ≠ kind.leftover mine ⟨k, b⟩ := by
  cases hmine : target mergeToLeftmost (m.viewOf k) ⟨k, b⟩ with
  | none =>
    rw [hmine] at hzero
    exact absurd rfl hzero
  | some u =>
    have hne : u ≠ b := by
      rintro rfl
      rcases target_some hmine with hm | ⟨-, -, rfl, hne⟩
      · exact hsep.apart k k u hm hk
      · exact hne rfl
    cases kind with
    | intoRight =>
      rcases target_some hmine with hm | ⟨-, hlm, -⟩
      · exact ⟨Or.inl hm, fun h => hne h.symm⟩
      · rw [hkind rfl] at hlm
        exact absurd hlm Bool.false_ne_true
    | intoLeft => exact ⟨Or.inr hk, hne⟩

/-- What a merge destroys are the views that neither stay nor are leftmost, each
once. -/
theorem Walked.destroyedViews (hwalk : Walked monoid kind mergeToLeftmost s m other.elems s' m')
    (hkind : kind = .intoRight → mergeToLeftmost = false) (h : m.Ok) (hother : other.Ok)
    (hsep : Separate hypers (some m) (some other)) :
    let log := destroyedViews (leftovers kind mergeToLeftmost m other.elems)
    log.Nodup ∧ ∀ a, a ∈ log ↔ (∃ k, m.viewOf k = some a ∨ other.viewOf k = some a) ∧ a ∉ hypers ∧
      ∀ k, m'.viewOf k ≠ some a := by
  have hof : ∀ el ∈ other.elems, other.viewOf el.key = some el.view :=
    fun el hel => (CilkredMap.viewOf_eq_some hother.keys).mpr hel
  constructor
  · refine destroyedViews_nodup ?_ ?_
    · rw [leftovers, List.map_map]
      exact hother.keys
    · unfold leftovers
      intro x hx y hy hzero hxy
      obtain ⟨x, hx', rfl⟩ := List.mem_map.mp hx
      obtain ⟨y, hy', rfl⟩ := List.mem_map.mp hy
      have hzero' : kind.leftover (target mergeToLeftmost (m.viewOf y.key) y) y ≠ 0 :=
        fun heq => hzero (hxy.trans heq)
      have hxs := (leftover_spec hkind hsep (hof x hx') hzero).1
      have hys := (leftover_spec hkind hsep (hof y hy') hzero').1
      simp only at hxy
      rw [hxy] at hxs
      exact hsep.key_unique hxs hys
  · intro a
    rw [mem_destroyedViews]
    constructor
    · rintro ⟨el, hel, rfl, hzero, hne⟩
      obtain ⟨⟨k, b⟩, hmem, rfl⟩ := List.mem_map.mp hel
      simp only at hzero hne ⊢
      have hk := hof _ hmem
      obtain ⟨hviews, hstays⟩ := leftover_spec hkind hsep hk hzero
      obtain ⟨-, hleftmost⟩ := hsep.leftmost k _ hviews
      have hhypers : kind.leftover (target mergeToLeftmost (m.viewOf k) ⟨k, b⟩) ⟨k, b⟩ ∉ hypers :=
        fun hin => hne (hleftmost hin).symm
      refine ⟨⟨k, hviews⟩, hhypers, fun j hj => ?_⟩
      -- a view of the result comes from one of the maps, or is leftmost
      rcases hwalk.origin hother hj with horigin | ⟨heq, c, hc⟩
      · obtain rfl := hsep.key_unique hviews horigin
        have hstay := (hwalk.of_some hother hk).1
        exact hstays (Option.some.inj (hstay.symm.trans hj))
      · rw [heq] at hhypers
        exact hhypers (hsep.leftmost j c (Or.inr hc)).1
    · -- a view that is in neither was left over by the element with its key
      rintro ⟨⟨k, hk⟩, hhypers, hout⟩
      have hzero : a ≠ 0 := by
        rcases hk with hk | hk
        · exact (h.nonzero _ ((CilkredMap.viewOf_eq_some h.keys).mp hk)).2
        · exact (hother.nonzero _ ((CilkredMap.viewOf_eq_some hother.keys).mp hk)).2
      have hne : k ≠ a := by
        rintro rfl
        exact hhypers (hsep.leftmost k k hk).1
      cases ho : other.viewOf k with
      | none =>
        exfalso
        rcases hk with hk | hk
        · exact hout k ((hwalk.of_none ho).1.trans hk)
        · exact nomatch ho.symm.trans hk
      | some b =>
        have hmem := (CilkredMap.viewOf_eq_some hother.keys).mp ho
        have hstay := (hwalk.of_some hother ho).1
        have hleft : kind.leftover (target mergeToLeftmost (m.viewOf k) ⟨k, b⟩) ⟨k, b⟩ = a := by
          have hnot : kind.survivor (target mergeToLeftmost (m.viewOf k) ⟨k, b⟩) ⟨k, b⟩ ≠ a :=
            fun heq => hout k (hstay.trans (congrArg some heq))
          rcases hk with hk | hk
          · rw [show target mergeToLeftmost (m.viewOf k) ⟨k, b⟩ = some a by rw [hk]; rfl] at hnot ⊢
            cases kind
            · rfl
            · exact absurd rfl hnot
          · obtain rfl := Option.some.inj (ho.symm.trans hk)
            cases hmine : target mergeToLeftmost (m.viewOf k) ⟨k, b⟩ with
            | none =>
              rw [hmine] at hnot
              exact absurd rfl hnot
            | some u =>
              rw [hmine] at hnot
              cases kind
              · exact absurd rfl hnot
              · rfl
        exact ⟨_, List.mem_map_of_mem hmem, hleft, hzero, hne⟩

end Facts

variable (monoid s) in
/-- A merge into the left map. -/
theorem merge_intoLeft {left right : CilkredMap} {hypers : Set Addr} (h : left.Ok) (hr : right.Ok)
    (hright : right.isLeftmost = false) (hsep : Separate hypers (some left) (some right)) :
    ∃ s' out, left.merge monoid s right .intoLeft = .ok (s', out) ∧
      Merged hypers s (some left) (some right) s' (some out) := by
  obtain ⟨s₁, m', hrun, hwalk⟩ := merge_walked monoid .intoLeft s h hr hright
  obtain ⟨hnodup, hlog⟩ := hwalk.destroyedViews nofun h hr hsep
  refine ⟨_, _, hrun, ?_⟩
  rw [destroyReducerMap_eq]
  refine ⟨fun x hx => ?_, hwalk.isLeftmost, fun k => (hwalk.value hr hright k).1,
    fun k => (hwalk.value hr hright k).2, fun k a hk => ?_, _, ?_, hnodup, hlog⟩
  · obtain rfl := Option.some.inj hx
    exact ⟨⟨hwalk.ok.hashed, hwalk.ok.power, hwalk.ok.count, hwalk.ok.keys, hwalk.ok.nonzero⟩, rfl⟩
  · show m'.viewOf k = some a
    have hk : left.viewOf k = some a := hk
    cases ho : right.viewOf k with
    | none => exact (hwalk.of_none ho).1.trans hk
    | some b =>
      rw [(hwalk.of_some hr ho).1, hk]
      rfl
  · show s₁.destroyed ++ _ = _
    rw [hwalk.destroyed]

variable (monoid s) in
/-- A merge into the right map. -/
theorem merge_intoRight {left right : CilkredMap} {hypers : Set Addr} (h : left.Ok) (hr : right.Ok)
    (hleft : left.isLeftmost = false) (hright : right.isLeftmost = false)
    (hsep : Separate hypers (some left) (some right)) :
    ∃ s' out, right.merge monoid s left .intoRight = .ok (s', out) ∧
      Merged hypers s (some left) (some right) s' (some out) := by
  obtain ⟨s₁, m', hrun, hwalk⟩ := merge_walked monoid .intoRight s hr h hleft
  obtain ⟨hnodup, hlog⟩ := hwalk.destroyedViews (fun _ => hright) hr h hsep.symm
  refine ⟨_, _, hrun, ?_⟩
  rw [destroyReducerMap_eq]
  refine ⟨fun x hx => ?_, ?_, fun k _ => ?_, ?_, fun k a hk => ?_, _, ?_, hnodup, fun a => ?_⟩
  · obtain rfl := Option.some.inj hx
    exact ⟨⟨hwalk.ok.hashed, hwalk.ok.power, hwalk.ok.count, hwalk.ok.keys, hwalk.ok.nonzero⟩, rfl⟩
  · exact hwalk.isLeftmost.trans (hright.trans hleft.symm)
  · refine (hwalk.value h hleft k).1 ?_
    rintro ⟨hlm, -⟩
    exact Bool.false_ne_true (hright.symm.trans hlm)
  · rintro k ⟨hlm, -⟩
    exact absurd (hleft.symm.trans hlm) Bool.false_ne_true
  · show m'.viewOf k = some a
    have hk : left.viewOf k = some a := hk
    rw [(hwalk.of_some h hk).1]
    cases target right.isLeftmost (right.viewOf k) ⟨k, a⟩ <;> rfl
  · show s₁.destroyed ++ _ = _
    rw [hwalk.destroyed]
  · rw [hlog a]
    refine and_congr_left fun _ => exists_congr fun k => or_comm

/-- Two maps are merged by the code as by a product of their values, whichever is
larger and whichever of the two directions is taken. What is in neither the
result nor leftmost is destroyed, once. -/
theorem mergeReducerMaps_merged (monoid : ∀ k, CMonoid (M k)) (s : Store M) {hypers : Set Addr}
    {left right : Option CilkredMap} (hl : Sound left) (hr : Sound right)
    (hright : leftmostMap right = false) (hsep : Separate hypers left right) :
    (∃ s' out, CilkredMap.mergeReducerMaps monoid s left right = .ok (s', out) ∧
      Merged hypers s left right s' out) ∧
    (leftmostMap left = false → ∀ l ∈ left, ∀ r ∈ right,
      (∃ s' out, l.merge monoid s r .intoLeft = .ok (s', out) ∧
        Merged hypers s left right s' (some out)) ∧
      ∃ s' out, r.merge monoid s l .intoRight = .ok (s', out) ∧
        Merged hypers s left right s' (some out)) := by
  constructor
  · cases left with
    | none =>
      refine ⟨s, right, rfl, hr, hright, fun k _ => ?_, ?_, nofun, [], ?_, List.nodup_nil,
        fun a => ?_⟩
      · exact (one_mul _).symm
      · rintro k ⟨hlm, -⟩
        exact nomatch hlm
      · exact (List.append_nil _).symm
      · refine ⟨fun ha => absurd ha List.not_mem_nil, ?_⟩
        rintro ⟨⟨k, hk⟩, -, hout⟩
        rcases hk with hk | hk
        · exact nomatch hk
        · exact absurd hk (hout k)
    | some left =>
      cases right with
      | none =>
        refine ⟨s, some left, rfl, hl, rfl, fun k _ => ?_, ?_, fun k a hk => hk, [], ?_,
          List.nodup_nil, fun a => ?_⟩
        · exact (mul_one _).symm
        · rintro k ⟨-, -, hb⟩
          exact nomatch hb
        · exact (List.append_nil _).symm
        · refine ⟨fun ha => absurd ha List.not_mem_nil, ?_⟩
          rintro ⟨⟨k, hk⟩, -, hout⟩
          rcases hk with hk | hk
          · exact absurd hk (hout k)
          · exact nomatch hk
      | some right =>
        unfold CilkredMap.mergeReducerMaps
        dsimp only
        -- the smaller map is merged into the larger one, or all into the leftmost
        by_cases hcase : (left.isLeftmost || decide (left.nelem > right.nelem)) = true
        · rw [if_pos hcase]
          obtain ⟨s', out, hrun, hmerged⟩ := merge_intoLeft monoid s
            (hl left rfl).1 (hr right rfl).1 hright hsep
          rw [hrun]
          exact ⟨s', some out, rfl, hmerged⟩
        · rw [if_neg hcase]
          have hleft : left.isLeftmost = false := by
            rw [Bool.or_eq_true, not_or] at hcase
            exact Bool.eq_false_of_not_eq_true hcase.1
          obtain ⟨s', out, hrun, hmerged⟩ := merge_intoRight monoid s
            (hl left rfl).1 (hr right rfl).1 hleft hright hsep
          rw [hrun]
          exact ⟨s', some out, rfl, hmerged⟩
  · rintro hleft l rfl r rfl
    exact ⟨merge_intoLeft monoid s (hl l rfl).1 (hr r rfl).1 hright hsep,
      merge_intoRight monoid s (hl l rfl).1 (hr r rfl).1 hleft hright hsep⟩

end Merge

/-- Views of numbers that are added up: the leftmost view of the reducer with key 8
holds 1, its view at 16 holds 2, and any other 3. -/
def numbers : Store fun _ => Multiplicative Nat :=
  ⟨fun _ view => if view = 8 then .ofAdd 1 else if view = 16 then .ofAdd 2 else .ofAdd 3, []⟩

def numbersMonoid : ∀ _ : Addr, CMonoid (Multiplicative Nat) :=
  fun _ => ⟨fun a b => (a * b, b), fun _ _ => rfl⟩

/-- The leftmost map, without elements. -/
def leftmostEmpty : CilkredMap := ⟨0, [[]], false, true⟩

/-- A map with one view of the reducer with key 8. -/
def oneView (view : Addr) : CilkredMap := ⟨1, [[⟨8, view⟩]], false, false⟩

theorem leftmostEmpty_sound : Sound (some leftmostEmpty) := by
  rintro x hx
  obtain rfl := Option.some.inj hx
  refine ⟨⟨fun i el hel => ?_, ⟨0, rfl⟩, rfl, List.nodup_nil, nofun⟩, rfl⟩
  rcases i with _ | i <;> exact absurd hel List.not_mem_nil

theorem oneView_sound {view : Addr} (h : view ≠ 0) : Sound (some (oneView view)) := by
  rintro x hx
  obtain rfl := Option.some.inj hx
  refine ⟨⟨fun i el hel => ?_, ⟨0, rfl⟩, rfl, List.nodup_singleton _, fun el hel => ?_⟩, rfl⟩
  · rcases i with _ | i
    · rw [show el = ⟨8, view⟩ from List.mem_singleton.mp hel]
      show hashfun 1 8 = 0
      decide
    · exact absurd hel List.not_mem_nil
  · rw [show el = ⟨8, view⟩ from List.mem_singleton.mp hel]
    exact ⟨show 8 ≠ 0 by decide, h⟩

theorem viewIn_oneView {view k a : Addr} (hk : viewIn (some (oneView view)) k = some a) :
    k = 8 ∧ a = view := by
  by_cases h : k = 8
  · subst h
    exact ⟨rfl, (Option.some.inj hk).symm⟩
  · have hnone : viewIn (some (oneView view)) k = none := by
      have hne : ¬ 8 = k := fun heq => h heq.symm
      simp [viewIn, oneView, CilkredMap.viewOf, CilkredMap.elems, hne]
    rw [hnone] at hk
    cases hk

theorem oneView_separate {view : Addr} :
    Separate {8} (some leftmostEmpty) (some (oneView view)) := by
  have hleft : ∀ k a, viewIn (some leftmostEmpty) k ≠ some a := by
    intro k a hk
    cases hk
  have hright : ∀ k a, viewIn (some (oneView view)) k = some a → k = 8 ∧ a = view :=
    fun _ _ => viewIn_oneView
  refine ⟨fun k j a hk => absurd hk (hleft k a), fun k j a hk => absurd hk (hleft k a),
    fun k j a hk hj => (hright k a hk).1.trans (hright j a hj).1.symm, fun k a hk => ?_⟩
  rcases hk with hk | hk
  · exact absurd hk (hleft k a)
  · obtain ⟨rfl, rfl⟩ := hright k a hk
    exact ⟨rfl, id⟩

/-- Two maps with a view each of the same reducer, neither of them its leftmost view. -/
theorem oneViews_separate {left right : Addr} (hne : left ≠ right) (hleft : left ≠ 8)
    (hright : right ≠ 8) : Separate {8} (some (oneView left)) (some (oneView right)) where
  apart := fun k j a hk hj => hne ((viewIn_oneView hk).2.symm.trans (viewIn_oneView hj).2)
  injLeft := fun k j a hk hj => (viewIn_oneView hk).1.trans (viewIn_oneView hj).1.symm
  injRight := fun k j a hk hj => (viewIn_oneView hk).1.trans (viewIn_oneView hj).1.symm
  leftmost := by
    rintro k a (hk | hk)
    · obtain ⟨rfl, rfl⟩ := viewIn_oneView hk
      exact ⟨rfl, fun ha => absurd ha hleft⟩
    · obtain ⟨rfl, rfl⟩ := viewIn_oneView hk
      exact ⟨rfl, fun ha => absurd ha hright⟩

/-- Views with 2 and 3 of one reducer are merged in either direction. -/
theorem mergeReducerMaps_merged_numbers :
    ((∃ s' out, (oneView 16).merge numbersMonoid numbers (oneView 24) .intoLeft = .ok (s', out) ∧
        valueIn s' (some out) 8 = .ofAdd 5 ∧
        Merged {8} numbers (some (oneView 16)) (some (oneView 24)) s' (some out)) ∧
      ∃ s' out, (oneView 24).merge numbersMonoid numbers (oneView 16) .intoRight = .ok (s', out) ∧
        valueIn s' (some out) 8 = .ofAdd 5 ∧
        Merged {8} numbers (some (oneView 16)) (some (oneView 24)) s' (some out)) := by
  have hseparate : Separate {8} (some (oneView 16)) (some (oneView 24)) :=
    oneViews_separate (by decide) (by decide) (by decide)
  have hboth := (mergeReducerMaps_merged numbersMonoid numbers (oneView_sound (by decide))
    (oneView_sound (by decide)) rfl hseparate).2 rfl (oneView 16) rfl (oneView 24) rfl
  have hvalue : ∀ s' out, Merged {8} numbers (some (oneView 16)) (some (oneView 24)) s' out →
      valueIn s' out 8 = .ofAdd 5 :=
    fun s' out h => h.value 8 (fun hb => absurd hb.1 (by decide))
  obtain ⟨⟨s₁, m₁, hrun₁, h₁⟩, s₂, m₂, hrun₂, h₂⟩ := hboth
  exact ⟨⟨s₁, m₁, hrun₁, hvalue _ _ h₁, h₁⟩, s₂, m₂, hrun₂, hvalue _ _ h₂, h₂⟩

/-- A map brings the leftmost view itself, which is not added to itself. -/
theorem mergeReducerMaps_not_product : ¬ ∀ (s s' : Store fun _ => Multiplicative Nat)
    (hypers : Set Addr) (left right out : Option CilkredMap), Sound left → Sound right →
    leftmostMap right = false → Separate hypers left right →
    CilkredMap.mergeReducerMaps numbersMonoid s left right = .ok (s', out) →
    ∀ k, valueIn s' out k = valueIn s left k * valueIn s right k := by
  intro h
  have hvalue := h numbers numbers {8} (some leftmostEmpty) (some (oneView 8))
    (some ⟨1, [[⟨8, 8⟩]], false, true⟩) leftmostEmpty_sound (oneView_sound (by decide)) rfl
    oneView_separate rfl 8
  exact absurd hvalue (by decide)

end SwanRuntime.Reducers
