import SwanRuntime.Library.Transition
import SwanRuntime.Memory.FrameMalloc
import SwanRuntime.Reducers.HashTable

/-!
# The buckets of a reducer map

A bucket is an array of `nmax + 1` elements, of which the last has a null key. Its
elements come first, and after them there are only null keys; `grow` makes a larger
array when there is no room, of the size that fills a block of the frame allocator.
`__cilkrts_hyper_destroy` moves the elements behind the one that it removes.

An access outside of the array is an error, as a failed assertion is. The view of an
element with a null key is not specified, and written as 0.

`StandsFor` forgets the arrays: the table then is the `CilkredMap` that the merges of
reducer maps are about, and every operation does to it what it should.

## Results

* `grow_spec`             — there is room for one more element.
* `shiftDown_spec`        — what a removal does to an array.
* `StandsFor.insertNoRehash`, `StandsFor.rehash`, `StandsFor.lookup`,
  `StandsFor.hyperDestroy`
                          — the operations do what those of the map do.
* `Table.Inv.insert`, `Table.Inv.remove`
                          — the invariant of the table.
* `reducerMap_refines`    — the table is a finite map.
-/

namespace SwanRuntime.Reducers

-- ---------------------------------------------------------------------------
-- The code
-- ---------------------------------------------------------------------------

/-- `struct bucket`. -/
structure Bucket where
  nmax : Nat
  el   : List Elem

/-- The elements of an array that have not been used. -/
def nullElem : Elem where
  key := 0
  view := 0

/-- `sizeof(elem)`. -/
def sizeofElem : Nat := 24

/-- `sizeof_bucket`; the struct itself has one element. -/
def sizeofBucket (nmax : Nat) : Nat := 8 + sizeofElem + nmax * sizeofElem

/-- `__cilkrts_frame_malloc_roundup`. -/
def frameMallocRoundup (size : Nat) : Nat :=
  if size > Memory.frameMallocMaxSize then size
  else (Memory.bucketOfSize size).elim size Memory.bucketToSize

def roundup (nmax : Nat) : Nat :=
  let sz := frameMallocRoundup (sizeofBucket nmax)
  (sz - sizeofBucket 0) / sizeofElem

/-- The first of the `nmax` elements that is empty. -/
def Bucket.firstEmpty (b : Bucket) : Option Nat := (b.el.take b.nmax).findIdx? (·.key == 0)

/-- The new bucket of `grow`: the old elements are copied, and the others are empty. -/
def Bucket.enlarged (nmax : Nat) (el : List Elem) : Bucket where
  nmax := roundup (2 * nmax)
  el := el.take nmax ++ List.replicate (roundup (2 * nmax) - nmax) nullElem ++ [nullElem]

/-- `cilkred_map::grow`: the bucket, and the index of an empty element in it. -/
def grow (bp : Option Bucket) : Checked (Bucket × Nat) :=
  match bp with
  | some b =>
    match b.firstEmpty with
    | some i => return (b, i)
    | none => do
      Checked.assert (b.nmax ≤ roundup (2 * b.nmax)) "out of bounds"
      return (Bucket.enlarged b.nmax b.el, b.nmax)
  | none => return (Bucket.enlarged 0 [], 0)

/-- `struct cilkred_map`, with the arrays of its buckets. -/
structure Table where
  nelem   : Nat
  buckets : List (Option Bucket)

namespace Table

def nbuckets (t : Table) : Nat := t.buckets.length

def makeBuckets (nbuckets : Nat) : Checked Table := do
  Checked.assert (isPowerOf2 nbuckets) "is_power_of_2(nbuckets)"
  return { nelem := 0, buckets := List.replicate nbuckets none }

/-- `__cilkrts_make_reducer_map`. -/
def makeReducerMap : Checked Table := makeBuckets 1

def needRehash (t : Table) : Bool := t.nbuckets < minsz t.nelem

def insertNoRehash (t : Table) (key view : Addr) : Checked Table := do
  Checked.assert (key != 0) "key != 0"
  Checked.assert (view != 0) "view != 0"
  let h := hashfun t.nbuckets key
  Checked.assert (h < t.nbuckets) "out of bounds"
  let (b, i) ← grow (t.buckets.getD h none)
  Checked.assert (i < b.el.length) "out of bounds"
  return {
    nelem := t.nelem + 1
    buckets := t.buckets.set h (some { b with el := b.el.set i { key := key, view := view } }) }

end Table

/-- `for (el = b->el; el->key; ++el)`: the elements that it visits. -/
def scan : List Elem → Checked (List Elem)
  | [] => throw "out of bounds"
  | el :: els =>
    if el.key = 0 then return []
    else do
      let visited ← scan els
      return el :: visited

/-- The elements of a bucket, if there is one. -/
def Bucket.visit : Option Bucket → Checked (List Elem)
  | none => return []
  | some b => scan b.el

namespace Table

def insertAll (t : Table) : List Elem → Checked Table
  | [] => return t
  | el :: els => do
    let t ← t.insertNoRehash el.key el.view
    t.insertAll els

/-- The loop of `rehash` over the old buckets. -/
def rehashFrom (t : Table) : List (Option Bucket) → Checked Table
  | [] => return t
  | bp :: obuckets => do
    let els ← Bucket.visit bp
    let t ← t.insertAll els
    t.rehashFrom obuckets

def rehash (t : Table) : Checked Table := do
  let new ← makeBuckets (nextsz t.nbuckets)
  let new ← new.rehashFrom t.buckets
  Checked.assert (new.nelem == t.nelem) "nelem == onelem"
  return new

def rehashAndInsert (t : Table) (key view : Addr) : Checked Table :=
  if t.needRehash then do
    let t ← t.rehash
    t.insertNoRehash key view
  else
    t.insertNoRehash key view

def lookup (t : Table) (key : Addr) : Checked (Option Elem) := do
  let h := hashfun t.nbuckets key
  Checked.assert (h < t.nbuckets) "out of bounds"
  let els ← Bucket.visit (t.buckets.getD h none)
  match els.find? (·.key == key) with
  | none => return none
  | some el =>
    Checked.assert (el.view != 0) "el->view"
    return some el

end Table

/-- `do { el[0] = el[1]; ++el; } while (el->key)`, from the element on. -/
def shiftDown : List Elem → Checked (List Elem)
  | _ :: el1 :: els =>
    if el1.key = 0 then return el1 :: el1 :: els
    else do
      let rest ← shiftDown (el1 :: els)
      return el1 :: rest
  | _ => throw "out of bounds"

/-- The array from the element with the key on, moved down. -/
def removeKey (key : Addr) : List Elem → Checked (List Elem)
  | [] => throw "out of bounds"
  | el :: els =>
    if el.key = key then shiftDown (el :: els)
    else do
      let rest ← removeKey key els
      return el :: rest

/-- `__cilkrts_hyper_destroy`, which only removes a leftmost view. -/
def Table.hyperDestroy (t : Table) (key : Addr) : Checked Table := do
  match ← t.lookup key with
  | none => throw "Destroying a reducer while it is visible to unsynced child tasks"
  | some el =>
    Checked.assert (el.key == el.view) "Destroying a reducer while it is visible to unsynced child tasks"
    let h := hashfun t.nbuckets key
    match t.buckets.getD h none with
    | none => throw "out of bounds"
    | some b =>
      let el ← removeKey key b.el
      return { nelem := t.nelem - 1, buckets := t.buckets.set h (some { b with el := el }) }

-- ---------------------------------------------------------------------------
-- Arrays
-- ---------------------------------------------------------------------------

/-- The array of a bucket: its elements, and then only null keys. -/
structure Bucket.Holds (b : Bucket) (els : List Elem) : Prop where
  slots  : ∃ rest, b.el = els ++ rest ∧ rest ≠ [] ∧ ∀ el ∈ rest, el.key = 0
  length : b.el.length = b.nmax + 1
  keys   : ∀ el ∈ els, el.key ≠ 0

/-- A bucket that has not been allocated holds nothing. -/
def HoldsAt (bp : Option Bucket) (els : List Elem) : Prop :=
  match bp with
  | none => els = []
  | some b => b.Holds els

/-- A walk visits the elements that a bucket holds, and stays inside the array. -/
theorem scan_append {els rest : List Elem} (hkeys : ∀ el ∈ els, el.key ≠ 0) (hrest : rest ≠ [])
    (hnull : ∀ el ∈ rest, el.key = 0) : scan (els ++ rest) = .ok els := by
  induction els with
  | nil =>
    rcases rest with _ | ⟨el, rest⟩
    · exact absurd rfl hrest
    · rw [List.nil_append, scan, if_pos (hnull el List.mem_cons_self)]
      rfl
  | cons el els ih =>
    have hel : el.key ≠ 0 := hkeys el List.mem_cons_self
    rw [List.cons_append, scan, if_neg hel, ih fun e he => hkeys e (List.mem_cons_of_mem _ he)]
    rfl

theorem visit_eq {bp : Option Bucket} {els : List Elem} (h : HoldsAt bp els) :
    Bucket.visit bp = .ok els := by
  rcases bp with _ | b
  · obtain rfl : els = [] := h
    rfl
  · obtain ⟨⟨rest, hel, hne, hnull⟩, -, hkeys⟩ := h
    rw [Bucket.visit, hel]
    exact scan_append hkeys hne hnull

-- ---------------------------------------------------------------------------
-- Room for one more
-- ---------------------------------------------------------------------------

/-- Rounding up a size does not make it smaller. -/
theorem le_frameMallocRoundup (size : Nat) : size ≤ frameMallocRoundup size := by
  unfold frameMallocRoundup
  split
  · exact Nat.le_refl _
  · cases hb : Memory.bucketOfSize size with
    | none => exact Nat.le_refl _
    | some b => simpa using List.find?_some hb

/-- There is room for as many as are asked for. -/
theorem le_roundup (nmax : Nat) : nmax ≤ roundup nmax := by
  have hsize := le_frameMallocRoundup (sizeofBucket nmax)
  unfold roundup
  rw [Nat.le_div_iff_mul_le (by decide)]
  unfold sizeofBucket sizeofElem at *
  omega

/-- A bucket that is enlarged has room for one more element. -/
theorem lt_roundup (nmax : Nat) : nmax < roundup (2 * nmax) := by
  rcases Nat.eq_zero_or_pos nmax with rfl | hpos
  · decide
  · have hle := le_roundup (2 * nmax)
    omega

/-- An array of null keys behind the elements. -/
theorem enlarged_holds {el els : List Elem} (htake : el.take els.length = els)
    (hkeys : ∀ el ∈ els, el.key ≠ 0) : (Bucket.enlarged els.length el).Holds els := by
  have hlt := lt_roundup els.length
  refine ⟨⟨List.replicate (roundup (2 * els.length) - els.length) nullElem ++ [nullElem],
    ?_, ?_, ?_⟩, ?_, hkeys⟩
  · rw [Bucket.enlarged, htake, List.append_assoc]
  · simp
  · intro e he
    rcases List.mem_append.mp he with he | he
    · rw [List.eq_of_mem_replicate he]
      rfl
    · rw [List.mem_singleton.mp he]
      rfl
  · rw [Bucket.enlarged, htake]
    simp only [List.length_append, List.length_replicate, List.length_singleton]
    omega

/-- The first empty element is the one behind those that the bucket holds. -/
theorem firstEmpty_eq {b : Bucket} {els : List Elem} (h : b.Holds els) :
    b.firstEmpty = if els.length < b.nmax then some els.length else none := by
  obtain ⟨⟨rest, hel, hne, hnull⟩, hlen, hkeys⟩ := h
  have hlen' : els.length + rest.length = b.nmax + 1 := by
    rw [← hlen, hel, List.length_append]
  have hskip : els.findIdx? (·.key == 0) = none := by
    rw [List.findIdx?_eq_none_iff]
    intro el hmem
    simpa using hkeys el hmem
  rw [Bucket.firstEmpty, hel]
  by_cases hroom : els.length < b.nmax
  · obtain ⟨e, rest, rfl⟩ := List.exists_cons_of_ne_nil hne
    have hsub : b.nmax - els.length = (b.nmax - els.length - 1) + 1 := by omega
    have he : (e.key == 0) = true := by simpa using hnull e List.mem_cons_self
    rw [if_pos hroom, List.take_append, List.take_of_length_le hroom.le, List.findIdx?_append,
      hskip, hsub, List.take_succ_cons, List.findIdx?_cons, he]
    simp
  · have hfull : b.nmax = els.length := by
      have hpos := List.length_pos_iff.mpr hne
      omega
    rw [if_neg hroom, hfull, List.take_left, hskip]

/-- `grow` finds the end of the elements, which it leaves as they are; the element
behind it is empty as well. -/
theorem grow_spec {bp : Option Bucket} {els : List Elem} (h : HoldsAt bp els) :
    ∃ b, grow bp = .ok (b, els.length) ∧ b.Holds els ∧ els.length < b.nmax := by
  rcases bp with _ | b
  · obtain rfl : els = [] := h
    have hholds : (Bucket.enlarged ([] : List Elem).length []).Holds [] :=
      enlarged_holds rfl (by simp)
    exact ⟨Bucket.enlarged 0 [], by rw [grow]; rfl, hholds, lt_roundup 0⟩
  · have hfirst := firstEmpty_eq h
    by_cases hroom : els.length < b.nmax
    · refine ⟨b, ?_, h, hroom⟩
      rw [grow, hfirst, if_pos hroom]
      rfl
    · obtain ⟨⟨rest, hel, hne, hnull⟩, hlen, hkeys⟩ := h
      have hfull : b.nmax = els.length := by
        have hpos := List.length_pos_iff.mpr hne
        rw [hel, List.length_append] at hlen
        omega
      have htake : b.el.take els.length = els := by rw [hel, List.take_left]
      have hle : decide (els.length ≤ roundup (2 * els.length)) = true :=
        decide_eq_true (lt_roundup els.length).le
      refine ⟨Bucket.enlarged els.length b.el, ?_, enlarged_holds htake hkeys, lt_roundup _⟩
      rw [grow, hfirst, if_neg hroom, hfull, hle]
      rfl

/-- Storing behind the elements of an array that has room. -/
theorem set_holds {b : Bucket} {els : List Elem} (h : b.Holds els) (hroom : els.length < b.nmax)
    {e : Elem} (he : e.key ≠ 0) :
    ({ b with el := b.el.set els.length e } : Bucket).Holds (els ++ [e]) := by
  obtain ⟨⟨rest, hslots, hne, hnull⟩, hlen, hkeys⟩ := h
  obtain ⟨_, rest, rfl⟩ := List.exists_cons_of_ne_nil hne
  refine ⟨⟨rest, ?_, ?_, fun x hx => hnull x (List.mem_cons_of_mem _ hx)⟩, ?_, ?_⟩
  · rw [hslots, List.set_append_right _ _ (Nat.le_refl _), Nat.sub_self, List.set_cons_zero,
      List.append_assoc, List.singleton_append]
  · rintro rfl
    rw [hslots] at hlen
    simp at hlen
    omega
  · simpa using hlen
  · intro x hx
    rcases List.mem_append.mp hx with hx | hx
    · exact hkeys x hx
    · rw [List.mem_singleton.mp hx]
      exact he

-- ---------------------------------------------------------------------------
-- Removals
-- ---------------------------------------------------------------------------

/-- The elements behind the one removed move down by one, and so does the end. -/
theorem shiftDown_spec {el : Elem} {els rest : List Elem} (hkeys : ∀ el ∈ els, el.key ≠ 0)
    (hrest : rest ≠ []) (hnull : ∀ el ∈ rest, el.key = 0) :
    ∃ e, e.key = 0 ∧ shiftDown (el :: els ++ rest) = .ok (els ++ e :: rest) := by
  induction els generalizing el with
  | nil =>
    obtain ⟨e, rest, rfl⟩ := List.exists_cons_of_ne_nil hrest
    have he : e.key = 0 := hnull e List.mem_cons_self
    refine ⟨e, he, ?_⟩
    rw [List.singleton_append, shiftDown, if_pos he]
    rfl
  | cons el' els ih =>
    have hel' : el'.key ≠ 0 := hkeys el' List.mem_cons_self
    obtain ⟨e, he, hrun⟩ := ih fun x hx => hkeys x (List.mem_cons_of_mem _ hx)
    refine ⟨e, he, ?_⟩
    rw [List.cons_append, List.cons_append, shiftDown, if_neg hel', ← List.cons_append, hrun]
    rfl

/-- Removing a key from the array of a bucket. -/
theorem removeKey_spec {key : Addr} {els rest : List Elem} (hmem : ∃ el ∈ els, el.key = key)
    (hkeys : ∀ el ∈ els, el.key ≠ 0) (hrest : rest ≠ []) (hnull : ∀ el ∈ rest, el.key = 0) :
    ∃ e, e.key = 0 ∧
      removeKey key (els ++ rest) = .ok (els.eraseP (·.key == key) ++ e :: rest) := by
  induction els with
  | nil =>
    obtain ⟨el, hel, -⟩ := hmem
    exact absurd hel List.not_mem_nil
  | cons el els ih =>
    have hkeys' := fun x hx => hkeys x (List.mem_cons_of_mem _ hx)
    by_cases hel : el.key = key
    · have hshift : ∃ e, e.key = 0 ∧ shiftDown (el :: els ++ rest) = .ok (els ++ e :: rest) :=
        shiftDown_spec hkeys' hrest hnull
      obtain ⟨e, he, hrun⟩ := hshift
      refine ⟨e, he, ?_⟩
      rw [List.cons_append, removeKey, if_pos hel, List.eraseP_cons_of_pos (by simpa using hel)]
      exact hrun
    · have hmem' : ∃ el ∈ els, el.key = key := by
        obtain ⟨x, hx, hxk⟩ := hmem
        rcases List.mem_cons.mp hx with rfl | hx
        · exact absurd hxk hel
        · exact ⟨x, hx, hxk⟩
      obtain ⟨e, he, hrun⟩ := ih hmem' hkeys'
      refine ⟨e, he, ?_⟩
      rw [List.cons_append, removeKey, if_neg hel, hrun,
        List.eraseP_cons_of_neg (by simpa using hel)]
      rfl

theorem removeKey_holds {b : Bucket} {els : List Elem} {key : Addr} (h : b.Holds els)
    (hmem : ∃ el ∈ els, el.key = key) :
    ∃ el, removeKey key b.el = .ok el ∧
      ({ b with el := el } : Bucket).Holds (els.eraseP (·.key == key)) := by
  obtain ⟨⟨rest, hslots, hne, hnull⟩, hlen, hkeys⟩ := h
  obtain ⟨e, he, hrun⟩ := removeKey_spec hmem hkeys hne hnull
  have hone : (els.eraseP (·.key == key)).length = els.length - 1 := by
    obtain ⟨x, hx, hxk⟩ := hmem
    exact List.length_eraseP_of_mem hx (by simpa using hxk)
  have hpos : 0 < els.length := by
    obtain ⟨x, hx, -⟩ := hmem
    exact List.length_pos_of_mem hx
  refine ⟨_, hslots ▸ hrun, ⟨e :: rest, rfl, by simp, ?_⟩, ?_, ?_⟩
  · intro x hx
    rcases List.mem_cons.mp hx with rfl | hx
    · exact he
    · exact hnull x hx
  · rw [hslots, List.length_append] at hlen
    simp only [List.length_append, List.length_cons, hone]
    omega
  · intro x hx
    exact hkeys x (List.mem_of_mem_eraseP hx)

-- ---------------------------------------------------------------------------
-- The table and the map
-- ---------------------------------------------------------------------------

/-- `t` is `m`, with arrays for the buckets. -/
structure StandsFor (t : Table) (m : CilkredMap) : Prop where
  nelem   : t.nelem = m.nelem
  buckets : List.Forall₂ HoldsAt t.buckets m.buckets

namespace CilkredMap

variable {m m' : CilkredMap} {key view : Addr}

theorem insertNoRehash_nbuckets (h : m.insertNoRehash key view = .ok m') :
    m'.nbuckets = m.nbuckets := by
  obtain ⟨_, -, hrest⟩ := Checked.bind_eq_ok.mp h
  obtain ⟨_, -, hrest⟩ := Checked.bind_eq_ok.mp hrest
  obtain rfl := Checked.pure_eq_ok.mp hrest
  exact List.length_modify _ _ _

theorem insertAll_nbuckets {els : List Elem} (h : m.insertAll els = .ok m') :
    m'.nbuckets = m.nbuckets := by
  induction els generalizing m with
  | nil =>
    obtain rfl := Checked.pure_eq_ok.mp h
    rfl
  | cons el els ih =>
    obtain ⟨m₁, hone, hrest⟩ := Checked.bind_eq_ok.mp h
    rw [ih hrest, insertNoRehash_nbuckets hone]

theorem insertAll_append {els els' : List Elem} :
    m.insertAll (els ++ els') = m.insertAll els >>= fun m => m.insertAll els' := by
  induction els generalizing m with
  | nil => rfl
  | cons el els ih =>
    rcases h : m.insertNoRehash el.key el.view with e | m₁
    · simp [insertAll, h]
    · simp [insertAll, h, ih]

theorem rehash_nbuckets (h : m.rehash = .ok m') : m'.nbuckets = nextsz m.nbuckets := by
  obtain ⟨new, hmake, hrest⟩ := Checked.bind_eq_ok.mp h
  obtain ⟨m₁, hall, hrest⟩ := Checked.bind_eq_ok.mp hrest
  obtain ⟨_, -, hrest⟩ := Checked.bind_eq_ok.mp hrest
  obtain rfl := Checked.pure_eq_ok.mp hrest
  obtain ⟨_, -, hnew⟩ := Checked.bind_eq_ok.mp hmake
  obtain rfl := Checked.pure_eq_ok.mp hnew
  rw [insertAll_nbuckets hall]
  exact List.length_replicate

end CilkredMap

namespace StandsFor

variable {t t' : Table} {m m' : CilkredMap} {key view : Addr}

theorem nbuckets (h : StandsFor t m) : t.nbuckets = m.nbuckets := h.buckets.length_eq

/-- The bucket of an index, in the table and in the map. -/
theorem bucket (h : StandsFor t m) (i : Nat) :
    HoldsAt (t.buckets.getD i none) (m.buckets.getD i []) := by
  by_cases hi : i < t.buckets.length
  · have hi' : i < m.buckets.length := h.buckets.length_eq ▸ hi
    rw [List.getD_eq_getElem _ _ hi, List.getD_eq_getElem _ _ hi']
    exact h.buckets.get hi hi'
  · have hi' : ¬ i < m.buckets.length := h.buckets.length_eq ▸ hi
    rw [List.getD_eq_default _ _ (Nat.le_of_not_lt hi),
      List.getD_eq_default _ _ (Nat.le_of_not_lt hi')]
    rfl

/-- Replacing one bucket. -/
theorem forall₂_set {bps : List (Option Bucket)} {bs : List (List Elem)}
    (h : List.Forall₂ HoldsAt bps bs) (i : Nat) {bp : Option Bucket} {f : List Elem → List Elem}
    (hbp : HoldsAt bp (f (bs.getD i []))) : List.Forall₂ HoldsAt (bps.set i bp) (bs.modify i f) := by
  induction h generalizing i with
  | nil => simp
  | cons hab _ ih =>
    cases i with
    | zero =>
      rw [List.set_cons_zero, List.modify_zero_cons]
      exact .cons hbp (by assumption)
    | succ i =>
      rw [List.set_cons_succ, List.modify_succ_cons]
      exact .cons hab (ih i hbp)

theorem insertNoRehash (h : StandsFor t m) (hpos : 0 < m.nbuckets)
    (hrun : m.insertNoRehash key view = .ok m') :
    ∃ t', t.insertNoRehash key view = .ok t' ∧ StandsFor t' m' := by
  obtain ⟨_, hkey, hrest⟩ := Checked.bind_eq_ok.mp hrun
  obtain ⟨_, hview, hrest⟩ := Checked.bind_eq_ok.mp hrest
  obtain rfl := Checked.pure_eq_ok.mp hrest
  rw [Checked.assert_eq_ok] at hkey hview
  obtain ⟨b, hgrow, hholds, hroom⟩ := grow_spec (h.bucket (hashfun m.nbuckets key))
  have hkey0 : key ≠ 0 := by simpa using hkey
  have hlt : decide (hashfun m.nbuckets key < m.nbuckets) = true :=
    decide_eq_true (hashfun_lt hpos key)
  have hin : decide ((m.buckets.getD (hashfun m.nbuckets key) []).length < b.el.length) = true := by
    rw [hholds.length]
    exact decide_eq_true (by omega)
  have hset := set_holds (e := ⟨key, view⟩) hholds hroom hkey0
  refine ⟨⟨t.nelem + 1, t.buckets.set (hashfun m.nbuckets key) (some _)⟩, ?_, ?_,
    forall₂_set h.buckets (hashfun m.nbuckets key) hset⟩
  · simp only [Table.insertNoRehash, h.nbuckets, hkey, hview, hlt, hgrow, hin,
      Checked.assert_true, Checked.ok_bind, Checked.pure_eq]
  · exact congrArg (· + 1) h.nelem

theorem insertAll {els : List Elem} (h : StandsFor t m) (hpos : 0 < m.nbuckets)
    (hrun : m.insertAll els = .ok m') : ∃ t', t.insertAll els = .ok t' ∧ StandsFor t' m' := by
  induction els generalizing t m with
  | nil =>
    obtain rfl := Checked.pure_eq_ok.mp hrun
    exact ⟨t, rfl, h⟩
  | cons el els ih =>
    obtain ⟨m₁, hone, hrest⟩ := Checked.bind_eq_ok.mp hrun
    obtain ⟨t₁, hrun₁, h₁⟩ := h.insertNoRehash hpos hone
    have hpos₁ : 0 < m₁.nbuckets := by
      rw [CilkredMap.insertNoRehash_nbuckets hone]
      exact hpos
    obtain ⟨t', hrun', h'⟩ := ih h₁ hpos₁ hrest
    refine ⟨t', ?_, h'⟩
    rw [Table.insertAll, hrun₁]
    exact hrun'

theorem makeBuckets {n : Nat} (hpow : isPowerOf2 n = true) (merging isLeftmost : Bool) :
    ∃ t, Table.makeBuckets n = .ok t ∧
      StandsFor t ⟨0, List.replicate n [], merging, isLeftmost⟩ := by
  refine ⟨⟨0, List.replicate n none⟩, ?_, rfl, ?_⟩
  · rw [Table.makeBuckets, hpow]
    rfl
  · exact List.forall₂_iff_get.mpr ⟨by simp, fun i hi hi' => by simp [HoldsAt]⟩

/-- The loop over the old buckets inserts their elements, in the order of the map. -/
theorem rehashFrom {bps : List (Option Bucket)} {bs : List (List Elem)}
    (hbps : List.Forall₂ HoldsAt bps bs) (h : StandsFor t m) (hpos : 0 < m.nbuckets)
    (hrun : m.insertAll bs.flatten = .ok m') :
    ∃ t', t.rehashFrom bps = .ok t' ∧ StandsFor t' m' := by
  induction hbps generalizing t m with
  | nil =>
    obtain rfl := Checked.pure_eq_ok.mp hrun
    exact ⟨t, rfl, h⟩
  | @cons bp b bps bs hbp _ ih =>
    rw [List.flatten_cons, CilkredMap.insertAll_append] at hrun
    obtain ⟨m₁, hone, hrest⟩ := Checked.bind_eq_ok.mp hrun
    obtain ⟨t₁, hrun₁, h₁⟩ := h.insertAll hpos hone
    have hpos₁ : 0 < m₁.nbuckets := by
      rw [CilkredMap.insertAll_nbuckets hone]
      exact hpos
    obtain ⟨t', hrun', h'⟩ := ih h₁ hpos₁ hrest
    refine ⟨t', ?_, h'⟩
    rw [Table.rehashFrom, visit_eq hbp, Checked.ok_bind, hrun₁, Checked.ok_bind, hrun']

theorem rehash (h : StandsFor t m) (hok : m.Ok) (hrun : m.rehash = .ok m') :
    ∃ t', t.rehash = .ok t' ∧ StandsFor t' m' := by
  obtain ⟨new, hmake, hrest⟩ := Checked.bind_eq_ok.mp hrun
  obtain ⟨m₁, hall, hrest⟩ := Checked.bind_eq_ok.mp hrest
  obtain ⟨_, hcount, hrest⟩ := Checked.bind_eq_ok.mp hrest
  obtain rfl := Checked.pure_eq_ok.mp hrest
  obtain ⟨_, hpow, hnew⟩ := Checked.bind_eq_ok.mp hmake
  obtain rfl := Checked.pure_eq_ok.mp hnew
  rw [Checked.assert_eq_ok] at hpow hcount
  obtain ⟨t₀, hmake₀, h₀⟩ := makeBuckets hpow m.merging m.isLeftmost
  have hpos : 0 < nextsz m.nbuckets := Nat.mul_pos (by decide) hok.pos
  obtain ⟨t', hrun', h'⟩ := rehashFrom h.buckets h₀ (by simpa [CilkredMap.nbuckets] using hpos) hall
  refine ⟨t', ?_, h'⟩
  rw [Table.rehash, h.nbuckets, hmake₀, Checked.ok_bind, hrun', Checked.ok_bind, h'.nelem, h.nelem,
    hcount]
  rfl

theorem needRehash (h : StandsFor t m) : t.needRehash = m.needRehash := by
  rw [Table.needRehash, CilkredMap.needRehash, h.nbuckets, h.nelem]

theorem lookup (h : StandsFor t m) (hpos : 0 < m.nbuckets) (key : Addr) :
    t.lookup key = m.lookup key := by
  have hlt : decide (hashfun m.nbuckets key < m.nbuckets) = true :=
    decide_eq_true (hashfun_lt hpos key)
  have hlookup : t.lookup key = (Checked.assert true "out of bounds" >>= fun _ =>
      (.ok (m.buckets.getD (hashfun m.nbuckets key) []) : Checked (List Elem)) >>= fun els =>
        match els.find? (·.key == key) with
        | none => return none
        | some el => do
          Checked.assert (el.view != 0) "el->view"
          return some el) := by
    rw [← hlt, ← visit_eq (h.bucket _), ← h.nbuckets]
    rfl
  rw [hlookup]
  rfl

end StandsFor

-- ---------------------------------------------------------------------------
-- Removals from the map
-- ---------------------------------------------------------------------------

namespace CilkredMap

variable {m : CilkredMap} {key view : Addr}

/-- The map without a key. -/
def erase (m : CilkredMap) (key : Addr) : CilkredMap :=
  { m with
    nelem := m.nelem - 1
    buckets := m.buckets.modify (hashfun m.nbuckets key) (List.eraseP (·.key == key)) }

theorem flatten_modify_eraseP {bs : List (List Elem)} {i : Nat} {el : Elem}
    (hel : el ∈ bs.getD i []) (hfirst : ∀ x ∈ bs.getD i [], x.key = el.key → x = el) :
    bs.flatten.Perm (el :: (bs.modify i (List.eraseP (·.key == el.key))).flatten) := by
  induction bs generalizing i with
  | nil => simp at hel
  | cons b bs ih =>
    cases i with
    | zero =>
      rw [List.getD_cons_zero] at hel hfirst
      obtain ⟨x, before, after, -, hx, hb, herase⟩ :=
        List.exists_of_eraseP (p := (·.key == el.key)) hel (by simp)
      obtain rfl := hfirst x (by simp [hb]) (by simpa using hx)
      rw [List.modify_zero_cons, List.flatten_cons, List.flatten_cons, herase, hb]
      simp only [List.append_assoc, List.cons_append]
      exact List.perm_middle
    | succ i =>
      rw [List.getD_cons_succ] at hel hfirst
      rw [List.modify_succ_cons, List.flatten_cons, List.flatten_cons]
      exact ((ih hel hfirst).append_left b).trans List.perm_middle

/-- A removal takes one view away. -/
theorem erase_ok (h : m.Ok) (hview : m.viewOf key = some view) :
    (m.erase key).Ok ∧ (m.erase key).viewOf = Function.update m.viewOf key none ∧
      (m.erase key).nelem + 1 = m.nelem := by
  have hmem : ⟨key, view⟩ ∈ m.elems := (viewOf_eq_some h.keys).mp hview
  obtain ⟨i, hi⟩ := (mem_elems_iff _).mp hmem
  -- the element is in the bucket of its key
  obtain rfl : hashfun m.nbuckets key = i := h.hashed i _ hi
  have hperm : m.elems.Perm (⟨key, view⟩ :: (m.erase key).elems) := by
    refine flatten_modify_eraseP hi fun x hx hxk => ?_
    have hfind := find?_key h.keys ((mem_elems_iff x).mpr ⟨_, hx⟩)
    have hfind' := find?_key h.keys hmem
    rw [hxk, hfind'] at hfind
    exact (Option.some.inj hfind).symm
  have hkeys : (((⟨key, view⟩ : Elem) :: (m.erase key).elems).map (·.key)).Nodup :=
    (hperm.map _).nodup_iff.mp h.keys
  rw [List.map_cons, List.nodup_cons] at hkeys
  have hsub : ∀ j, ∀ el ∈ (m.erase key).buckets.getD j [], el ∈ m.buckets.getD j [] := by
    intro j el hel
    rw [erase, getD_modify _ _ rfl] at hel
    by_cases hj : hashfun m.nbuckets key = j
    · rw [if_pos hj] at hel
      exact List.mem_of_mem_eraseP hel
    · rwa [if_neg hj] at hel
  have hlen : (m.erase key).nbuckets = m.nbuckets := List.length_modify _ _ _
  have hcount : m.nelem = (m.erase key).elems.length + 1 := by
    rw [h.count, hperm.length_eq, List.length_cons]
  have hnelem : (m.erase key).nelem = m.nelem - 1 := rfl
  have hok : (m.erase key).Ok := by
    refine ⟨fun j el hel => ?_, ?_, by omega, hkeys.2, fun el hel => ?_⟩
    · rw [hlen]
      exact h.hashed j el (hsub j el hel)
    · rw [hlen]
      exact h.power
    · exact h.nonzero el (hperm.mem_iff.mpr (List.mem_cons_of_mem _ hel))
  refine ⟨hok, ?_, by omega⟩
  funext k
  by_cases hk : k = key
  · subst hk
    rw [Function.update_self, viewOf_eq_none]
    exact hkeys.1
  · rw [Function.update_of_ne hk]
    apply Option.ext
    intro a
    rw [viewOf_eq_some hok.keys, viewOf_eq_some h.keys, hperm.mem_iff, List.mem_cons]
    constructor
    · exact Or.inr
    · rintro (heq | hel)
      · exact absurd (Elem.mk.inj heq).1 hk
      · exact hel

end CilkredMap

/-- `__cilkrts_hyper_destroy` removes a leftmost view that the map has. -/
theorem StandsFor.hyperDestroy {t : Table} {m : CilkredMap} {key : Addr} (h : StandsFor t m)
    (hok : m.Ok) (hview : m.viewOf key = some key) :
    ∃ t', t.hyperDestroy key = .ok t' ∧ StandsFor t' (m.erase key) := by
  have hmem : ⟨key, key⟩ ∈ m.elems := (CilkredMap.viewOf_eq_some hok.keys).mp hview
  obtain ⟨i, hi⟩ := (CilkredMap.mem_elems_iff _).mp hmem
  obtain rfl : hashfun m.nbuckets key = i := hok.hashed i _ hi
  have hlookup : t.lookup key = .ok (some ⟨key, key⟩) := by
    rw [h.lookup hok.pos, CilkredMap.lookup_eq hok, hview]
    rfl
  have hbucket := h.bucket (hashfun m.nbuckets key)
  rcases hb : t.buckets.getD (hashfun m.nbuckets key) none with _ | b
  · rw [hb] at hbucket
    have hnil : m.buckets.getD (hashfun m.nbuckets key) [] = [] := hbucket
    rw [hnil] at hi
    exact absurd hi List.not_mem_nil
  · rw [hb] at hbucket
    have hkeyed : ∃ el ∈ m.buckets.getD (hashfun m.nbuckets key) [], el.key = key := ⟨_, hi, rfl⟩
    obtain ⟨el, hrun, hholds⟩ := removeKey_holds hbucket hkeyed
    refine ⟨⟨t.nelem - 1, t.buckets.set (hashfun m.nbuckets key) (some ⟨b.nmax, el⟩)⟩, ?_, ?_,
      forall₂_set h.buckets (hashfun m.nbuckets key) hholds⟩
    · simp only [Table.hyperDestroy, hlookup, h.nbuckets, hb, hrun, Checked.ok_bind,
        beq_self_eq_true, Checked.assert_true, Checked.pure_eq]
    · exact congrArg (· - 1) h.nelem

-- ---------------------------------------------------------------------------
-- The table as a finite map
-- ---------------------------------------------------------------------------

/-- What is done to a table. -/
inductive TableOp
  | rehashAndInsert (key view : Addr)
  | lookup (key : Addr)
  | hyperDestroy (key : Addr)

namespace TableOp

/-- A key is inserted if it is not present; a reducer is destroyed if its leftmost view
is. -/
def Allowed (σ : Addr → Option Addr) : TableOp → Prop
  | .rehashAndInsert key view => σ key = none ∧ key ≠ 0 ∧ view ≠ 0
  | .lookup _ => True
  | .hyperDestroy key => σ key = some key

def apply (σ : Addr → Option Addr) : TableOp → Addr → Option Addr
  | .rehashAndInsert key view => Function.update σ key (some view)
  | .lookup _ => σ
  | .hyperDestroy key => Function.update σ key none

def exec (t : Table) : TableOp → Checked Table
  | .rehashAndInsert key view => t.rehashAndInsert key view
  | .lookup key => do
    let _ ← t.lookup key
    return t
  | .hyperDestroy key => t.hyperDestroy key

end TableOp

/-- The sequences of operations that are allowed, each after the ones before it. -/
def AllAllowed : (Addr → Option Addr) → List TableOp → Prop
  | _, [] => True
  | σ, op :: ops => op.Allowed σ ∧ AllAllowed (op.apply σ) ops

def Table.execAll (t : Table) : List TableOp → Checked Table
  | [] => return t
  | op :: ops => do
    let t ← op.exec t
    t.execAll ops

/-- The invariant: the table is a map, and was not overfull before the last insertion. -/
structure Table.Inv (t : Table) (σ : Addr → Option Addr) : Prop where
  map  : ∃ m, StandsFor t m ∧ m.Ok ∧ m.viewOf = σ
  load : minsz (t.nelem - 1) ≤ t.nbuckets

/-- One doubling is enough for one more element. -/
theorem minsz_le_nextsz {nelem nbuckets : Nat} (hpos : 0 < nbuckets)
    (h : minsz (nelem - 1) ≤ nbuckets) : minsz nelem ≤ nextsz nbuckets := by
  unfold minsz nextsz at *
  omega

theorem minsz_mono {n n' : Nat} (h : n ≤ n') : minsz n ≤ minsz n' := by
  unfold minsz
  omega

/-- `make_reducer_map`: an empty map. -/
theorem Table.Inv.init : ∃ t, Table.makeReducerMap = .ok t ∧ t.Inv fun _ => none := by
  obtain ⟨t, hrun, hrep⟩ := StandsFor.makeBuckets (n := 1) rfl false false
  have hok : CilkredMap.Ok ⟨0, List.replicate 1 [], false, false⟩ := by
    refine ⟨fun i el hel => ?_, ⟨0, rfl⟩, rfl, List.nodup_nil, fun el hel => ?_⟩
    · rcases i with _ | i <;> simp at hel
    · simp [CilkredMap.elems] at hel
  refine ⟨t, hrun, ⟨_, hrep, hok, ?_⟩, ?_⟩
  · funext key
    rfl
  · rw [hrep.nelem, hrep.nbuckets]
    decide

/-- An insertion: the table to which the element is added, after a rehash if one is
needed, is not overfull. -/
theorem Table.Inv.insert {t : Table} {σ : Addr → Option Addr} (h : t.Inv σ) {key view : Addr}
    (hnew : σ key = none) (hkey : key ≠ 0) (hview : view ≠ 0) :
    ∃ t₁ t', (t₁ = t ∨ t.rehash = .ok t₁) ∧ t₁.nelem = t.nelem ∧
      minsz t₁.nelem ≤ t₁.nbuckets ∧ t₁.insertNoRehash key view = .ok t' ∧
      t.rehashAndInsert key view = .ok t' ∧ t'.Inv (Function.update σ key (some view)) := by
  obtain ⟨⟨m, hrep, hok, rfl⟩, hload⟩ := h
  -- whatever the table is that gets the element, the load is checked there
  have hafter : ∀ {t₁ : Table} {m₁ m' : CilkredMap}, StandsFor t₁ m₁ → m₁.Ok →
      minsz t₁.nelem ≤ t₁.nbuckets → m₁.insertNoRehash key view = .ok m' → m'.Ok →
      m'.viewOf = Function.update m.viewOf key (some view) →
      ∃ t', t₁.insertNoRehash key view = .ok t' ∧
        t'.Inv (Function.update m.viewOf key (some view)) := by
    intro t₁ m₁ m' hrep₁ hok₁ hload₁ hrun hok' hviewOf
    obtain ⟨t', hrun', hrep'⟩ := hrep₁.insertNoRehash hok₁.pos hrun
    refine ⟨t', hrun', ⟨m', hrep', hok', hviewOf⟩, ?_⟩
    have hnelem : m'.nelem = m₁.nelem + 1 := by
      obtain ⟨_, -, hrest⟩ := Checked.bind_eq_ok.mp hrun
      obtain ⟨_, -, hrest⟩ := Checked.bind_eq_ok.mp hrest
      rw [← Checked.pure_eq_ok.mp hrest]
    rw [hrep'.nelem, hrep'.nbuckets, hnelem, Nat.add_sub_cancel,
      CilkredMap.insertNoRehash_nbuckets hrun, ← hrep₁.nelem, ← hrep₁.nbuckets]
    exact hload₁
  by_cases hneed : m.needRehash = true
  · obtain ⟨m₁, hrun, hok₁, hperm, -, -⟩ := CilkredMap.rehash_ok hok
    obtain ⟨t₁, hrun₁, hrep₁⟩ := hrep.rehash hok hrun
    have hviewOf₁ := CilkredMap.viewOf_perm hok.keys hperm
    have hnew₁ : m₁.viewOf key = none := by rw [hviewOf₁, hnew]
    obtain ⟨m', hins, hok', hperm', hmerging, hleft⟩ :=
      CilkredMap.insertNoRehash_ok hok₁ hnew₁ hkey hview
    have hstores := CilkredMap.Stores.of_perm hok₁ hok' hperm' hmerging hleft
    have hcount : t₁.nelem = t.nelem := by
      rw [hrep₁.nelem, hrep.nelem, hok₁.count, hok.count, hperm.length_eq]
    have hload₁ : minsz t₁.nelem ≤ t₁.nbuckets := by
      rw [hcount, hrep₁.nbuckets, CilkredMap.rehash_nbuckets hrun, ← hrep.nbuckets]
      exact minsz_le_nextsz (hrep.nbuckets ▸ hok.pos) hload
    obtain ⟨t', hrun', hinv⟩ := hafter hrep₁ hok₁ hload₁ hins hok'
      (by rw [hstores.viewOf, hviewOf₁])
    refine ⟨t₁, t', .inr hrun₁, hcount, hload₁, hrun', ?_, hinv⟩
    rw [Table.rehashAndInsert, hrep.needRehash, if_pos hneed, hrun₁, Checked.ok_bind, hrun']
  · obtain ⟨m', hins, hok', hperm', hmerging, hleft⟩ :=
      CilkredMap.insertNoRehash_ok hok hnew hkey hview
    have hstores := CilkredMap.Stores.of_perm hok hok' hperm' hmerging hleft
    have hload₁ : minsz t.nelem ≤ t.nbuckets := by
      have hnot := hneed
      rw [← hrep.needRehash, Table.needRehash, decide_eq_true_eq] at hnot
      omega
    obtain ⟨t', hrun', hinv⟩ := hafter hrep hok hload₁ hins hok' hstores.viewOf
    refine ⟨t, t', .inl rfl, rfl, hload₁, hrun', ?_, hinv⟩
    rw [Table.rehashAndInsert, hrep.needRehash, if_neg hneed, hrun']

theorem Table.Inv.remove {t : Table} {σ : Addr → Option Addr} (h : t.Inv σ) {key : Addr}
    (hleftmost : σ key = some key) :
    ∃ t', t.hyperDestroy key = .ok t' ∧ t'.Inv (Function.update σ key none) := by
  obtain ⟨⟨m, hrep, hok, rfl⟩, hload⟩ := h
  obtain ⟨t', hrun, hrep'⟩ := hrep.hyperDestroy hok hleftmost
  obtain ⟨hok', hviewOf, hcount⟩ := CilkredMap.erase_ok hok hleftmost
  refine ⟨t', hrun, ⟨_, hrep', hok', hviewOf⟩, ?_⟩
  have hlen : (m.erase key).nbuckets = m.nbuckets := List.length_modify _ _ _
  rw [hrep'.nelem, hrep'.nbuckets, hlen, ← hrep.nbuckets]
  refine (minsz_mono ?_).trans hload
  rw [hrep.nelem]
  omega

theorem Table.Inv.lookup {t : Table} {σ : Addr → Option Addr} (h : t.Inv σ) (key : Addr) :
    t.lookup key = .ok ((σ key).map fun view => ⟨key, view⟩) := by
  obtain ⟨⟨m, hrep, hok, rfl⟩, -⟩ := h
  rw [hrep.lookup hok.pos, CilkredMap.lookup_eq hok]

/-- What is observable of a table that stands for the finite map `σ`. -/
structure IsMap (t : Table) (σ : Addr → Option Addr) : Prop where
  lookup  : ∀ key, t.lookup key = .ok ((σ key).map fun view => ⟨key, view⟩)
  nelem   : ∃ keys : List Addr, keys.Nodup ∧ (∀ key, key ∈ keys ↔ σ key ≠ none) ∧
    t.nelem = keys.length
  power   : ∃ j, t.nbuckets = 2 ^ j
  buckets : ∀ b, some b ∈ t.buckets → ∃ els, b.Holds els
  rehash  : ∃ t', t.rehash = .ok t' ∧ t'.nelem = t.nelem ∧ ∀ key, t'.lookup key = t.lookup key
  grow    : ∀ bp ∈ t.buckets, ∀ els, HoldsAt bp els →
    ∃ b, Reducers.grow bp = .ok (b, els.length) ∧ b.Holds els
  -- The load before an insertion, and that it succeeds.
  insert  : ∀ key view, σ key = none → key ≠ 0 → view ≠ 0 →
    ∃ t₁ t', (t₁ = t ∨ t.rehash = .ok t₁) ∧ t₁.nelem = t.nelem ∧
      minsz t₁.nelem ≤ t₁.nbuckets ∧ t₁.insertNoRehash key view = .ok t' ∧
      t.rehashAndInsert key view = .ok t'

theorem Table.Inv.isMap {t : Table} {σ : Addr → Option Addr} (h : t.Inv σ) : IsMap t σ where
  lookup := h.lookup
  nelem := by
    obtain ⟨⟨m, hrep, hok, rfl⟩, -⟩ := h
    refine ⟨m.elems.map (·.key), hok.keys, fun key => ?_, ?_⟩
    · rw [Ne, CilkredMap.viewOf_eq_none, not_not]
    · rw [hrep.nelem, hok.count, List.length_map]
  power := by
    obtain ⟨⟨m, hrep, hok, rfl⟩, -⟩ := h
    rw [hrep.nbuckets]
    exact hok.power
  buckets b hb := by
    obtain ⟨⟨m, hrep, hok, rfl⟩, -⟩ := h
    obtain ⟨i, hi, hget⟩ := List.mem_iff_getElem.mp hb
    have hholds := hrep.bucket i
    rw [List.getD_eq_getElem _ _ hi, hget] at hholds
    exact ⟨_, hholds⟩
  rehash := by
    obtain ⟨⟨m, hrep, hok, rfl⟩, -⟩ := h
    obtain ⟨m₁, hrun, hok₁, hperm, -, -⟩ := CilkredMap.rehash_ok hok
    obtain ⟨t₁, hrun₁, hrep₁⟩ := hrep.rehash hok hrun
    refine ⟨t₁, hrun₁, ?_, fun key => ?_⟩
    · rw [hrep₁.nelem, hrep.nelem, hok₁.count, hok.count, hperm.length_eq]
    · rw [hrep₁.lookup hok₁.pos, hrep.lookup hok.pos, CilkredMap.lookup_eq hok₁,
        CilkredMap.lookup_eq hok, CilkredMap.viewOf_perm hok.keys hperm]
  grow bp hbp els hels := by
    obtain ⟨b, hrun, hholds, -⟩ := grow_spec hels
    exact ⟨b, hrun, hholds⟩
  insert key view hnew hkey hview := by
    obtain ⟨t₁, t', hfrom, hcount, hload, hins, hrun, -⟩ := h.insert hnew hkey hview
    exact ⟨t₁, t', hfrom, hcount, hload, hins, hrun⟩

/-- One operation. -/
theorem Table.Inv.exec {t : Table} {σ : Addr → Option Addr} (h : t.Inv σ) {op : TableOp}
    (hop : op.Allowed σ) : ∃ t', op.exec t = .ok t' ∧ t'.Inv (op.apply σ) := by
  cases op with
  | rehashAndInsert key view =>
    obtain ⟨_, t', -, -, -, -, hrun, hinv⟩ := h.insert hop.1 hop.2.1 hop.2.2
    exact ⟨t', hrun, hinv⟩
  | lookup key =>
    refine ⟨t, ?_, h⟩
    rw [TableOp.exec, h.lookup key]
    rfl
  | hyperDestroy key => exact h.remove hop

/-- Any operations. -/
theorem Table.Inv.execAll {t : Table} {σ : Addr → Option Addr} (h : t.Inv σ)
    {ops : List TableOp} (hops : AllAllowed σ ops) :
    ∃ t', t.execAll ops = .ok t' ∧ t'.Inv (ops.foldl TableOp.apply σ) := by
  induction ops generalizing t σ with
  | nil => exact ⟨t, rfl, h⟩
  | cons op ops ih =>
    obtain ⟨t₁, hrun₁, h₁⟩ := h.exec hops.1
    obtain ⟨t', hrun', h'⟩ := ih h₁ hops.2
    refine ⟨t', ?_, h'⟩
    rw [Table.execAll, hrun₁, Checked.ok_bind, hrun']

/--
From the table of `__cilkrts_make_reducer_map`, every sequence of insertions of keys
that are not present, lookups and removals goes through without a failed assertion or
an access outside of an array, and the table stands for the finite map that the sequence
makes of the empty one.
-/
theorem reducerMap_refines (ops : List TableOp) (hops : AllAllowed (fun _ => none) ops) :
    ∃ t₀ t, Table.makeReducerMap = .ok t₀ ∧ t₀.execAll ops = .ok t ∧
      IsMap t (ops.foldl TableOp.apply fun _ => none) := by
  obtain ⟨t₀, hmake, hinit⟩ := Table.Inv.init
  obtain ⟨t, hrun, hinv⟩ := hinit.execAll hops
  exact ⟨t₀, t, hmake, hrun, hinv.isMap⟩

/-- The theorem at two insertions and a removal between lookups. -/
theorem reducerMap_refines_two :
    ∃ t₀ t, Table.makeReducerMap = .ok t₀ ∧
      t₀.execAll [.rehashAndInsert 64 64, .rehashAndInsert 128 200, .lookup 64, .hyperDestroy 64,
        .lookup 64] = .ok t ∧
      IsMap t ([.rehashAndInsert 64 64, .rehashAndInsert 128 200, .lookup 64, .hyperDestroy 64,
        .lookup 64].foldl TableOp.apply fun _ => none) :=
  reducerMap_refines _ (by simp [AllAllowed, TableOp.Allowed, TableOp.apply])

end SwanRuntime.Reducers
