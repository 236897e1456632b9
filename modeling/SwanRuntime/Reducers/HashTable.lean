import Mathlib.Algebra.Group.Nat.Defs
import Mathlib.Data.List.GetD
import Mathlib.Data.List.Nodup
import Mathlib.Logic.Function.Basic
import SwanRuntime.Library.Checked

/-!
# The hash table of a reducer map

A `cilkred_map` is an array of buckets of elements, each a key and a view. The
key of a reducer is the address of its leftmost view. An insertion may first
double the number of buckets and distribute the elements again.

The room of a bucket for further elements is left out: `grow` makes some when
there is none.

## Results

* `lookup_eq`           — a lookup finds what the map holds.
* `rehash_ok`           — a rehash keeps the elements.
* `rehashAndInsert_ok`  — an insertion stores one view more.
* `setView_ok`          — a store to an element changes one view.
-/

namespace SwanRuntime.Reducers

-- ---------------------------------------------------------------------------
-- The code
-- ---------------------------------------------------------------------------

/-- An address, of which 0 is `NULL`. -/
abbrev Addr := Nat

/-- `struct elem`; the hyperobject is the one that the key belongs to. -/
structure Elem where
  key  : Addr
  view : Addr
deriving DecidableEq, Repr

/-- `struct cilkred_map`. -/
structure CilkredMap where
  nelem      : Nat
  buckets    : List (List Elem)
  merging    : Bool
  isLeftmost : Bool

namespace CilkredMap

def nbuckets (m : CilkredMap) : Nat := m.buckets.length

/-- The elements, in the order in which a walk over the buckets meets them. -/
def elems (m : CilkredMap) : List Elem := m.buckets.flatten

end CilkredMap

def minsz (nelem : Nat) : Nat := 1 + nelem + nelem / 8

def nextsz (nelem : Nat) : Nat := 2 * nelem

def isPowerOf2 (n : Nat) : Bool := n &&& (n - 1) == 0

def hashfun (nbuckets : Nat) (key : Addr) : Nat :=
  let k := key ^^^ (key >>> 21)
  let k := k ^^^ (k >>> 8)
  let k := k ^^^ (k >>> 3)
  k &&& (nbuckets - 1)

namespace CilkredMap

/-- `need_rehash_p`. -/
def needRehash (m : CilkredMap) : Bool := m.nbuckets < minsz m.nelem

def makeBuckets (m : CilkredMap) (nbuckets : Nat) : Checked CilkredMap := do
  Checked.assert (isPowerOf2 nbuckets) "is_power_of_2(nbuckets)"
  return { m with nelem := 0, buckets := List.replicate nbuckets [] }

/-- `insert_no_rehash`, with what `grow` does to the bucket. -/
def insertNoRehash (m : CilkredMap) (key view : Addr) : Checked CilkredMap := do
  Checked.assert (key != 0) "key != 0"
  Checked.assert (view != 0) "view != 0"
  return { m with
    nelem := m.nelem + 1
    buckets := m.buckets.modify (hashfun m.nbuckets key) (· ++ [⟨key, view⟩]) }

def insertAll (m : CilkredMap) : List Elem → Checked CilkredMap
  | [] => return m
  | el :: els => do
    let m ← m.insertNoRehash el.key el.view
    m.insertAll els

def rehash (m : CilkredMap) : Checked CilkredMap := do
  let new ← m.makeBuckets (nextsz m.nbuckets)
  let new ← new.insertAll m.elems
  Checked.assert (new.nelem == m.nelem) "nelem == onelem"
  return new

def rehashAndInsert (m : CilkredMap) (key view : Addr) : Checked CilkredMap :=
  if m.needRehash then do
    let m ← m.rehash
    m.insertNoRehash key view
  else
    m.insertNoRehash key view

def lookup (m : CilkredMap) (key : Addr) : Checked (Option Elem) :=
  match (m.buckets.getD (hashfun m.nbuckets key) []).find? (·.key == key) with
  | none => return none
  | some el => do
    Checked.assert (el.view != 0) "el->view"
    return some el

/-- A store to the view of the element that `lookup` has found. -/
def setView (m : CilkredMap) (key view : Addr) : CilkredMap :=
  { m with
    buckets := m.buckets.modify (hashfun m.nbuckets key) fun b =>
      b.map fun el => if el.key = key then { el with view := view } else el }

-- ---------------------------------------------------------------------------
-- What a map holds
-- ---------------------------------------------------------------------------

/-- Every element is in the bucket of its key, and there is one for a key. -/
structure Ok (m : CilkredMap) : Prop where
  hashed  : ∀ i, ∀ el ∈ m.buckets.getD i [], hashfun m.nbuckets el.key = i
  power   : ∃ j, m.nbuckets = 2 ^ j
  count   : m.nelem = m.elems.length
  keys    : (m.elems.map (·.key)).Nodup
  nonzero : ∀ el ∈ m.elems, el.key ≠ 0 ∧ el.view ≠ 0

/-- The view of a reducer in a map. -/
def viewOf (m : CilkredMap) (key : Addr) : Option Addr :=
  (m.elems.find? (·.key == key)).map (·.view)

/-- `m'` is `m` with a view for one reducer. -/
structure Stores (m : CilkredMap) (key view : Addr) (m' : CilkredMap) : Prop where
  ok         : m'.Ok
  viewOf     : m'.viewOf = Function.update m.viewOf key (some view)
  merging    : m'.merging = m.merging
  isLeftmost : m'.isLeftmost = m.isLeftmost

end CilkredMap

theorem hashfun_lt {nbuckets : Nat} (h : 0 < nbuckets) (key : Addr) :
    hashfun nbuckets key < nbuckets := by
  unfold hashfun
  have hle := @Nat.and_le_right
    (((key ^^^ (key >>> 21)) ^^^ ((key ^^^ (key >>> 21)) >>> 8)) ^^^
      (((key ^^^ (key >>> 21)) ^^^ ((key ^^^ (key >>> 21)) >>> 8)) >>> 3)) (nbuckets - 1)
  simp only
  omega

theorem isPowerOf2_two_pow (j : Nat) : isPowerOf2 (2 ^ j) = true := by
  unfold isPowerOf2
  rw [Nat.and_two_pow_sub_one_eq_mod, Nat.mod_self]
  rfl

namespace CilkredMap

variable {m m' : CilkredMap} {key view : Addr}

theorem Ok.pos (h : m.Ok) : 0 < m.nbuckets := by
  obtain ⟨j, hj⟩ := h.power
  rw [hj]
  exact Nat.two_pow_pos j

theorem mem_elems_iff (el : Elem) : el ∈ m.elems ↔ ∃ i, el ∈ m.buckets.getD i [] := by
  unfold elems
  rw [List.mem_flatten]
  constructor
  · rintro ⟨b, hb, hel⟩
    obtain ⟨i, hi, rfl⟩ := List.mem_iff_getElem.mp hb
    exact ⟨i, by rwa [List.getD_eq_getElem _ _ hi]⟩
  · rintro ⟨i, hel⟩
    by_cases hi : i < m.buckets.length
    · rw [List.getD_eq_getElem _ _ hi] at hel
      exact ⟨_, List.getElem_mem hi, hel⟩
    · rw [List.getD_eq_default _ _ (Nat.le_of_not_lt hi)] at hel
      exact absurd hel List.not_mem_nil

/-- An element of a map with one element for a key is the one that a search
finds. -/
theorem find?_key {els : List Elem} (hkeys : (els.map (·.key)).Nodup) {el : Elem} (hel : el ∈ els) :
    els.find? (·.key == el.key) = some el := by
  induction els with
  | nil => exact absurd hel List.not_mem_nil
  | cons e els ih =>
    rw [List.map_cons, List.nodup_cons] at hkeys
    rcases List.mem_cons.mp hel with rfl | hel
    · rw [List.find?_cons_of_pos (by simp)]
    · have hne : e.key ≠ el.key := fun he => hkeys.1 (he ▸ List.mem_map_of_mem hel)
      rw [List.find?_cons_of_neg (by simpa using hne)]
      exact ih hkeys.2 hel

theorem viewOf_eq_some (hkeys : (m.elems.map (·.key)).Nodup) :
    m.viewOf key = some view ↔ ⟨key, view⟩ ∈ m.elems := by
  unfold viewOf
  rw [Option.map_eq_some_iff]
  constructor
  · rintro ⟨el, hel, rfl⟩
    have hkey : el.key = key := by simpa using List.find?_some hel
    rw [← hkey]
    exact List.mem_of_find?_eq_some hel
  · intro hel
    exact ⟨_, find?_key hkeys hel, rfl⟩

theorem viewOf_eq_none : m.viewOf key = none ↔ key ∉ m.elems.map (·.key) := by
  unfold viewOf
  rw [Option.map_eq_none_iff, List.find?_eq_none, List.mem_map]
  simp

/-- A map holds what a permutation of its elements holds. -/
theorem viewOf_perm (hkeys : (m.elems.map (·.key)).Nodup) (hperm : m'.elems.Perm m.elems) :
    m'.viewOf = m.viewOf := by
  have hkeys' : (m'.elems.map (·.key)).Nodup := (hperm.map _).nodup_iff.mpr hkeys
  funext k
  apply Option.ext
  intro a
  rw [viewOf_eq_some hkeys', viewOf_eq_some hkeys, hperm.mem_iff]

/-- A lookup finds what the map holds. -/
theorem lookup_eq (h : m.Ok) (key : Addr) :
    m.lookup key = .ok ((m.viewOf key).map fun view => ⟨key, view⟩) := by
  have hfind : ∀ el, (m.buckets.getD (hashfun m.nbuckets key) []).find? (·.key == key) = some el →
      el.key = key ∧ el ∈ m.elems := by
    intro el hel
    refine ⟨by simpa using List.find?_some hel, (mem_elems_iff el).mpr ⟨hashfun m.nbuckets key, ?_⟩⟩
    exact List.mem_of_find?_eq_some hel
  unfold lookup
  cases hlook : (m.buckets.getD (hashfun m.nbuckets key) []).find? (·.key == key) with
  | none =>
    have hnone : m.viewOf key = none := by
      rw [viewOf_eq_none, List.mem_map]
      rintro ⟨el, hel, rfl⟩
      obtain ⟨i, hi⟩ := (mem_elems_iff el).mp hel
      rw [← h.hashed i el hi] at hi
      exact absurd (beq_self_eq_true el.key) (List.find?_eq_none.mp hlook el hi)
    rw [hnone]
    rfl
  | some el =>
    obtain ⟨rfl, hel⟩ := hfind el hlook
    have hsome : m.viewOf el.key = some el.view := (viewOf_eq_some h.keys).mpr hel
    have hview : (el.view != 0) = true := by simpa using (h.nonzero el hel).2
    simp only [hview, Checked.assert_true, hsome]
    rfl

-- ---------------------------------------------------------------------------
-- Insertions
-- ---------------------------------------------------------------------------

theorem getD_modify {α : Type} (bs : List (List α)) (f : List α → List α) (hf : f [] = [])
    (i j : Nat) : (bs.modify i f).getD j [] = if i = j then f (bs.getD j []) else bs.getD j [] := by
  simp only [List.getD_eq_getElem?_getD, List.getElem?_modify]
  by_cases hij : i = j
  · simp only [hij, if_true]
    cases bs[j]? <;> simp [hf]
  · simp only [hij, if_false]
    cases bs[j]? <;> rfl

theorem getD_modify_of_lt {α : Type} {bs : List (List α)} (f : List α → List α) {i : Nat}
    (hi : i < bs.length) (j : Nat) :
    (bs.modify i f).getD j [] = if i = j then f (bs.getD j []) else bs.getD j [] := by
  simp only [List.getD_eq_getElem?_getD, List.getElem?_modify]
  by_cases hij : i = j
  · subst hij
    simp [hi]
  · simp only [hij, if_false]
    cases bs[j]? <;> rfl

theorem flatten_modify_append {α : Type} {bs : List (List α)} {i : Nat} (hi : i < bs.length)
    (a : α) : ((bs.modify i (· ++ [a])).flatten).Perm (a :: bs.flatten) := by
  induction bs generalizing i with
  | nil => exact absurd hi (Nat.not_lt_zero _)
  | cons b bs ih =>
    cases i with
    | zero =>
      simp only [List.modify_zero_cons, List.flatten_cons, List.append_assoc]
      exact List.perm_middle
    | succ i =>
      simp only [List.modify_succ_cons, List.flatten_cons]
      have hperm := ih (Nat.lt_of_succ_lt_succ hi)
      exact (hperm.append_left b).trans List.perm_middle

/-- An insertion stores one element more. -/
theorem insertNoRehash_ok (h : m.Ok) (hnew : m.viewOf key = none) (hkey : key ≠ 0)
    (hview : view ≠ 0) : ∃ m', m.insertNoRehash key view = .ok m' ∧ m'.Ok ∧
      m'.elems.Perm (⟨key, view⟩ :: m.elems) ∧ m'.merging = m.merging ∧
      m'.isLeftmost = m.isLeftmost := by
  have hlt : hashfun m.nbuckets key < m.buckets.length := hashfun_lt h.pos key
  have hperm : (m.buckets.modify (hashfun m.nbuckets key) (· ++ [(⟨key, view⟩ : Elem)])).flatten.Perm
      (⟨key, view⟩ :: m.elems) := flatten_modify_append hlt _
  refine ⟨{ m with
    nelem := m.nelem + 1
    buckets := m.buckets.modify (hashfun m.nbuckets key) (· ++ [⟨key, view⟩]) },
    ?_, ?_, hperm, rfl, rfl⟩
  · unfold insertNoRehash
    have hk : (key != 0) = true := by simpa using hkey
    have hv : (view != 0) = true := by simpa using hview
    rw [hk, hv]
    rfl
  · have hlen : ∀ bs : List (List Elem), ∀ f i, (bs.modify i f).length = bs.length :=
      fun bs f i => List.length_modify f bs i
    refine ⟨fun i el hel => ?_, ?_, ?_, ?_, fun el hel => ?_⟩
    · rw [getD_modify_of_lt _ hlt] at hel
      unfold nbuckets
      rw [hlen]
      by_cases hi : hashfun m.nbuckets key = i
      · rw [if_pos hi, List.mem_append, List.mem_singleton] at hel
        rcases hel with hel | rfl
        · exact h.hashed i el hel
        · exact hi
      · rw [if_neg hi] at hel
        exact h.hashed i el hel
    · obtain ⟨j, hj⟩ := h.power
      exact ⟨j, (hlen _ _ _).trans hj⟩
    · show m.nelem + 1 = _
      rw [h.count]
      exact hperm.length_eq.symm
    · refine (hperm.map _).nodup_iff.mpr ?_
      rw [List.map_cons, List.nodup_cons]
      exact ⟨viewOf_eq_none.mp hnew, h.keys⟩
    · -- neither the new key nor the new view is null
      rcases List.mem_cons.mp (hperm.mem_iff.mp hel) with rfl | hel
      · exact ⟨hkey, hview⟩
      · exact h.nonzero el hel

/-- The same for a list of elements. -/
theorem insertAll_ok {els : List Elem} (h : m.Ok) (hkeys : ((els ++ m.elems).map (·.key)).Nodup)
    (hels : ∀ el ∈ els, el.key ≠ 0 ∧ el.view ≠ 0) : ∃ m', m.insertAll els = .ok m' ∧ m'.Ok ∧
      m'.elems.Perm (els ++ m.elems) ∧ m'.merging = m.merging ∧
      m'.isLeftmost = m.isLeftmost := by
  induction els generalizing m with
  | nil => exact ⟨m, rfl, h, List.Perm.refl _, rfl, rfl⟩
  | cons el els ih =>
    rw [List.cons_append, List.map_cons, List.nodup_cons, List.map_append, List.mem_append] at hkeys
    obtain ⟨hel, hkeys⟩ := hkeys
    obtain ⟨hkey, hview⟩ := hels el List.mem_cons_self
    have hnew : m.viewOf el.key = none := viewOf_eq_none.mpr fun hm => hel (Or.inr hm)
    obtain ⟨m₁, hrun, hok, hperm, hmerging, hleft⟩ := insertNoRehash_ok h hnew hkey hview
    have hmid : (els ++ m₁.elems).Perm (el :: els ++ m.elems) :=
      (hperm.append_left els).trans List.perm_middle
    have hkeys₁ : ((els ++ m₁.elems).map (·.key)).Nodup := by
      refine (hmid.map _).nodup_iff.mpr ?_
      rw [List.cons_append, List.map_cons, List.nodup_cons, List.map_append, List.mem_append]
      exact ⟨hel, hkeys⟩
    obtain ⟨m', hrun', hok', hperm', hmerging', hleft'⟩ :=
      ih hok hkeys₁ fun e he => hels e (List.mem_cons_of_mem _ he)
    refine ⟨m', ?_, hok', hperm'.trans hmid, hmerging'.trans hmerging, hleft'.trans hleft⟩
    unfold insertAll
    rw [hrun]
    exact hrun'

/-- A rehash keeps the elements. -/
theorem rehash_ok (h : m.Ok) : ∃ m', m.rehash = .ok m' ∧ m'.Ok ∧ m'.elems.Perm m.elems ∧
    m'.merging = m.merging ∧ m'.isLeftmost = m.isLeftmost := by
  obtain ⟨j, hj⟩ := h.power
  have hnext : nextsz m.nbuckets = 2 ^ (j + 1) := by
    unfold nextsz
    rw [hj, Nat.pow_succ, Nat.mul_comm]
  let new : CilkredMap := { m with nelem := 0, buckets := List.replicate (2 ^ (j + 1)) [] }
  have hmake : m.makeBuckets (nextsz m.nbuckets) = .ok new := by
    unfold makeBuckets
    rw [hnext, isPowerOf2_two_pow]
    rfl
  have hempty : new.elems = [] := by
    simp [new, elems]
  have hnew : new.Ok := by
    refine ⟨fun i el hel => ?_, ⟨j + 1, ?_⟩, ?_, ?_, fun el hel => ?_⟩
    · have hmem : el ∈ new.elems := (mem_elems_iff el).mpr ⟨i, hel⟩
      rw [hempty] at hmem
      exact absurd hmem List.not_mem_nil
    · exact List.length_replicate
    · rw [hempty]
      rfl
    · rw [hempty]
      exact List.nodup_nil
    · rw [hempty] at hel
      exact absurd hel List.not_mem_nil
  obtain ⟨m', hrun, hok, hperm, hmerging, hleft⟩ :=
    insertAll_ok hnew (by simpa [hempty] using h.keys) h.nonzero
  rw [hempty, List.append_nil] at hperm
  -- the assertion behind the loop: no element is lost
  have hcount : (m'.nelem == m.nelem) = true := by
    rw [hok.count, h.count, hperm.length_eq]
    exact beq_self_eq_true _
  refine ⟨m', ?_, hok, hperm, hmerging, hleft⟩
  unfold rehash
  rw [hmake, Checked.ok_bind, hrun, Checked.ok_bind, hcount]
  rfl

/-- A new element is one more view. -/
theorem Stores.of_perm (h : m.Ok) (hok : m'.Ok) (hperm : m'.elems.Perm (⟨key, view⟩ :: m.elems))
    (hmerging : m'.merging = m.merging) (hleft : m'.isLeftmost = m.isLeftmost) :
    m.Stores key view m' := by
  refine ⟨hok, ?_, hmerging, hleft⟩
  funext k
  apply Option.ext
  intro a
  rw [viewOf_eq_some hok.keys, hperm.mem_iff, List.mem_cons]
  have hkeys := (hperm.map (·.key)).nodup_iff.mp hok.keys
  rw [List.map_cons, List.nodup_cons] at hkeys
  by_cases hk : k = key
  · subst hk
    rw [Function.update_self]
    constructor
    · rintro (hel | hel)
      · rw [(Elem.mk.inj hel).2]
      · exact absurd (List.mem_map_of_mem hel) hkeys.1
    · intro ha
      rw [Option.some.inj ha]
      exact Or.inl rfl
  · rw [Function.update_of_ne hk, viewOf_eq_some h.keys]
    constructor
    · rintro (hel | hel)
      · exact absurd (Elem.mk.inj hel).1 hk
      · exact hel
    · exact Or.inr

/-- `rehash_and_insert` stores one view more. -/
theorem rehashAndInsert_ok (h : m.Ok) (hnew : m.viewOf key = none) (hkey : key ≠ 0)
    (hview : view ≠ 0) : ∃ m', m.rehashAndInsert key view = .ok m' ∧ m.Stores key view m' := by
  unfold rehashAndInsert
  by_cases hneed : m.needRehash = true
  · rw [if_pos hneed]
    obtain ⟨m₁, hrun, hok, hperm, hmerging, hleft⟩ := rehash_ok h
    have hnew₁ : m₁.viewOf key = none := by rw [viewOf_perm h.keys hperm, hnew]
    obtain ⟨m', hrun', hok', hperm', hmerging', hleft'⟩ := insertNoRehash_ok hok hnew₁ hkey hview
    refine ⟨m', ?_, .of_perm h hok' (hperm'.trans (hperm.cons _)) (hmerging'.trans hmerging)
      (hleft'.trans hleft)⟩
    rw [hrun]
    exact hrun'
  · rw [if_neg hneed]
    obtain ⟨m', hrun, hok, hperm, hmerging, hleft⟩ := insertNoRehash_ok h hnew hkey hview
    exact ⟨m', hrun, .of_perm h hok hperm hmerging hleft⟩

/-- A store to an element changes its view. -/
theorem setView_ok (h : m.Ok) {old : Addr} (hold : m.viewOf key = some old) (hview : view ≠ 0) :
    m.Stores key view (m.setView key view) := by
  let f : Elem → Elem := fun el => if el.key = key then { el with view := view } else el
  have hfkey : ∀ el, (f el).key = el.key := by
    intro el
    show (if el.key = key then { el with view := view } else el).key = el.key
    split <;> rfl
  have hgetD : ∀ i, (m.setView key view).buckets.getD i [] =
      (m.buckets.getD i []).map f := by
    intro i
    show (m.buckets.modify (hashfun m.nbuckets key) (·.map f)).getD i [] = _
    rw [getD_modify _ _ rfl]
    split
    · rfl
    · -- the key is in another bucket
      rename_i hi
      symm
      refine (List.map_congr_left fun el hel => ?_).trans (List.map_id _)
      have hne : el.key ≠ key := fun hk => hi (hk ▸ h.hashed i el hel)
      exact if_neg hne
  have hbuckets : (m.setView key view).buckets = m.buckets.map (·.map f) := by
    refine List.ext_getElem ?_ fun i hi hi' => ?_
    · rw [List.length_map]
      exact List.length_modify _ _ _
    · have hi'' : i < m.buckets.length := by rwa [List.length_map] at hi'
      have hget := hgetD i
      rw [List.getD_eq_getElem _ _ hi, List.getD_eq_getElem _ _ hi''] at hget
      rw [hget, List.getElem_map]
  have helems : (m.setView key view).elems = m.elems.map f := by
    unfold elems
    rw [hbuckets, List.map_flatten]
  have hlen : (m.setView key view).nbuckets = m.nbuckets := List.length_modify _ _ _
  have hkeys : (m.setView key view).elems.map (·.key) = m.elems.map (·.key) := by
    rw [helems, List.map_map]
    exact List.map_congr_left fun el _ => hfkey el
  -- the keys are the same, so everything but the view is too
  have hok : (m.setView key view).Ok := by
    refine ⟨fun i el hel => ?_, ?_, ?_, hkeys ▸ h.keys, fun el hel => ?_⟩
    · rw [hgetD, List.mem_map] at hel
      obtain ⟨el, hel, rfl⟩ := hel
      rw [hfkey, hlen]
      exact h.hashed i el hel
    · rw [hlen]
      exact h.power
    · rw [helems, List.length_map]
      exact h.count
    · rw [helems, List.mem_map] at hel
      obtain ⟨el, hel, rfl⟩ := hel
      rw [hfkey]
      refine ⟨(h.nonzero el hel).1, ?_⟩
      show (if el.key = key then { el with view := view } else el).view ≠ 0
      split
      · exact hview
      · exact (h.nonzero el hel).2
  refine ⟨hok, ?_, rfl, rfl⟩
  funext k
  apply Option.ext
  intro a
  rw [viewOf_eq_some hok.keys, helems, List.mem_map]
  by_cases hk : k = key
  · subst hk
    rw [Function.update_self]
    constructor
    · rintro ⟨el, -, hel⟩
      have hkey : el.key = k := by
        rw [← hfkey el, hel]
      have hf : f el = { el with view := view } := if_pos hkey
      rw [hf] at hel
      rw [(Elem.mk.inj hel).2]
    · intro ha
      rw [← Option.some.inj ha]
      exact ⟨⟨k, old⟩, (viewOf_eq_some h.keys).mp hold, if_pos rfl⟩
  · rw [Function.update_of_ne hk, viewOf_eq_some h.keys]
    constructor
    · rintro ⟨el, hmem, hel⟩
      have hkey : el.key = k := by
        rw [← hfkey el, hel]
      have hf : f el = el := if_neg (hkey ▸ hk)
      rw [← hel, hf]
      exact hmem
    · intro hmem
      exact ⟨⟨k, a⟩, hmem, if_neg hk⟩

end CilkredMap

end SwanRuntime.Reducers
