import SwanRuntime.Exceptions.Merge
import SwanRuntime.Library.Transition

/-!
# Exceptions — which one is delivered

The full frames of the children of a suspended frame are linked from left to
right. A child that returns merges its record, and what its right siblings have
left in its `right_pending_exception`, into the slot on its left: the
`right_pending_exception` of its left sibling, or the `child_pending_exception`
of the parent. A frame that reaches its sync merges its record into the slot on
the left of the position it has reached. When no child is left the frame is
resumed with what its `child_pending_exception` has accumulated.

A child can merge more than once before it is unlinked: the parent's lock is
released while reducers are merged, and right siblings may return meanwhile.

Every slot carries, as ghost data, the strands whose records it has accumulated,
numbered in serial order.

## Results

* `Accumulates.exec`    — each step keeps the strands in serial order.
* `exceptions_serial`   — the exception delivered is the serially earliest one.
-/

namespace SwanRuntime.Exceptions

open Checked

variable {Exc : Type}

-- ---------------------------------------------------------------------------
-- The code
-- ---------------------------------------------------------------------------

/-- A place for a record, with the strands whose records it accumulates. -/
structure Slot (Exc : Type) where
  info    : Option (PendingExceptionInfo Exc)
  strands : List Nat

/-- The slot after its record has been taken. -/
def Slot.cleared : Slot Exc := ⟨none, []⟩

/-- The record of `right` is merged into that of `left`. -/
def Slot.merge (left right : Slot Exc) : Checked (Slot Exc × List Exc) := do
  let (info, deleted) ← mergePendingExceptions left.info right.info
  return (⟨info, left.strands ++ right.strands⟩, deleted)

/-- The full frame of a child: `pending_exception` and
`right_pending_exception`. -/
structure Child (Exc : Type) where
  strand   : Nat
  returned : Bool
  pending  : Slot Exc
  right    : Slot Exc

/-- A frame whose children were stolen from, from `child_pending_exception` on.
`record` is what each strand left, `issued` counts the strands, and `deleted`
lists the exceptions that were deleted. -/
structure SpawnFrame (Exc : Type) where
  childPending : Slot Exc
  children     : List (Child Exc)
  synced       : Bool
  delivered    : Option (Slot Exc)
  record       : Nat → Option (PendingExceptionInfo Exc)
  issued       : Nat
  deleted      : List Exc

/-- A spawn whose parent is stolen, the return of the `k`-th child, one or more
merges of its records, the merge after which it is unlinked, the sync of the
frame, and its resumption. -/
inductive FrameEvent (Exc : Type)
  | spawn
  | ret (k : Nat) (e : Option (PendingExceptionInfo Exc))
  | splice (k : Nat)
  | finish (k : Nat)
  | sync (e : Option (PendingExceptionInfo Exc))
  | resume

/-- The slot on the left of the `k`-th child is set to `slot`:
`compute_left_ptrs_for_spawn_return`. -/
def setLeft (s : SpawnFrame Exc) (k : Nat) (slot : Slot Exc) : SpawnFrame Exc :=
  match k with
  | 0 => { s with childPending := slot }
  | k + 1 => { s with children := s.children.modify k fun c => { c with right := slot } }

/-- The slot on the left of the `k`-th child, or of the position behind all
children: `compute_left_ptrs_for_spawn_return` and
`compute_left_ptrs_for_sync`. -/
def getLeft (s : SpawnFrame Exc) (k : Nat) : Slot Exc :=
  match k with
  | 0 => s.childPending
  | k + 1 => (s.children[k]?.map (·.right)).getD s.childPending

/-- `splice_exceptions_for_spawn` for the `k`-th child, `c`. -/
def spliceExceptionsForSpawn (s : SpawnFrame Exc) (k : Nat) (c : Child Exc) :
    Checked (SpawnFrame Exc) := do
  let (slot, deleted₁) ← (getLeft s k).merge c.pending
  let (slot, deleted₂) ← slot.merge c.right
  let s := setLeft s k slot
  return { s with
    children := s.children.modify k fun c => { c with pending := .cleared, right := .cleared }
    deleted  := s.deleted ++ deleted₁ ++ deleted₂ }

/-- The events that can happen. -/
def Enabled (s : SpawnFrame Exc) : FrameEvent Exc → Prop
  | .spawn => s.synced = false
  | .ret k _ => ∃ c, s.children[k]? = some c ∧ c.returned = false
  | .splice k => ∃ c, s.children[k]? = some c ∧ c.returned = true
  | .finish k => ∃ c, s.children[k]? = some c ∧ c.returned = true
  | .sync _ => s.synced = false
  | .resume => s.synced = true ∧ s.children = [] ∧ s.delivered = none

def exec (s : SpawnFrame Exc) : FrameEvent Exc → Checked (SpawnFrame Exc)
  | .spawn => return { s with
      children := s.children ++ [⟨s.issued, false, ⟨none, [s.issued]⟩, .cleared⟩]
      issued   := s.issued + 1 }
  | .ret k e =>
    match s.children[k]? with
    | none => return s
    | some c => return { s with
        children := s.children.modify k fun c =>
          { c with returned := true, pending := ⟨e, c.pending.strands⟩ }
        record   := Function.update s.record c.strand e }
  | .splice k =>
    match s.children[k]? with
    | none => return s
    | some c => spliceExceptionsForSpawn s k c
  | .finish k =>
    match s.children[k]? with
    | none => return s
    | some c => do
      let s ← spliceExceptionsForSpawn s k c
      return { s with children := s.children.eraseIdx k }
  | .sync e => do
    let (slot, deleted) ← (getLeft s s.children.length).merge ⟨e, [s.issued]⟩
    let s := setLeft s s.children.length slot
    return { s with
      synced  := true
      record  := Function.update s.record s.issued e
      issued  := s.issued + 1
      deleted := s.deleted ++ deleted }
  | .resume => do
    let (slot, deleted) ← s.childPending.merge .cleared
    return { s with
      childPending := .cleared
      delivered    := some slot
      deleted      := s.deleted ++ deleted }

def frameSystem (Exc : Type) : LTS (SpawnFrame Exc) (FrameEvent Exc) where
  init s := s.childPending = .cleared ∧ s.children = [] ∧ s.synced = false ∧
    s.delivered = none ∧ (s.record = fun _ => none) ∧ s.issued = 0 ∧ s.deleted = []
  step s e t := Enabled s e ∧ exec s e = .ok t

-- ---------------------------------------------------------------------------
-- The property
-- ---------------------------------------------------------------------------

/-- The records of the strands, in serial order. -/
def SpawnFrame.records (s : SpawnFrame Exc) : List (Option (PendingExceptionInfo Exc)) :=
  (List.range s.issued).map s.record

/-- The active exceptions that the strands left, in serial order. -/
def SpawnFrame.raised (s : SpawnFrame Exc) : List Exc :=
  s.records.flatMap fun e => (content e).active.toList

/-- A frame that is resumed gets the state that its strands left in serial order.
Its active exception is the serially earliest one, and all others have been
deleted, each once. -/
def Delivers (s : SpawnFrame Exc) : Prop :=
  ∀ slot, s.delivered = some slot →
    content slot.info = (s.records.map content).prod ∧
    (content slot.info).active = s.raised.head? ∧
    ((content slot.info).active.toList ++ s.deleted).Perm s.raised

/-- The records of the strands once the event has happened. -/
def recordsAfter (s : SpawnFrame Exc) : FrameEvent Exc → List (Option (PendingExceptionInfo Exc))
  | .ret k e =>
    (List.range s.issued).map fun i =>
      if (s.children[k]?.map (·.strand)) = some i then e else s.record i
  | .sync e => s.records ++ [e]
  | _ => s.records

/-- No merge fails an assertion while the records of the strands, in serial
order, meet the assertions pairwise. -/
def NoneFails (s : SpawnFrame Exc) : Prop :=
  ∀ e, Enabled s e → (recordsAfter s e).Pairwise Mergeable → ∃ t, exec s e = .ok t

-- ---------------------------------------------------------------------------
-- The slots from left to right
-- ---------------------------------------------------------------------------

/-- The slots of a child. -/
def Child.slots (c : Child Exc) : List (Slot Exc) := [c.pending, c.right]

/-- The slots of a frame, from left to right. -/
def SpawnFrame.slots (s : SpawnFrame Exc) : List (Slot Exc) :=
  s.childPending :: s.children.flatMap Child.slots

theorem modify_append_cons {α : Type} (l r : List α) (a : α) (f : α → α) :
    (l ++ a :: r).modify l.length f = l ++ f a :: r := by
  induction l with
  | nil => rfl
  | cons b l ih => simpa using ih

theorem eraseIdx_append_cons {α : Type} (l r : List α) (a : α) :
    (l ++ a :: r).eraseIdx l.length = l ++ r := by
  induction l with
  | nil => rfl
  | cons b l ih => simpa using ih

/-- The slot on the left of a position, and what a store to it does. -/
theorem slots_setLeft (s : SpawnFrame Exc) {pre rest : List (Child Exc)}
    (h : s.children = pre ++ rest) :
    ∃ front, s.slots = front ++ getLeft s pre.length :: rest.flatMap Child.slots ∧
      ∀ slot, (setLeft s pre.length slot).slots = front ++ slot :: rest.flatMap Child.slots ∧
        ∃ pre', (setLeft s pre.length slot).children = pre' ++ rest ∧ pre'.length = pre.length ∧
          ∀ c ∈ pre', ∃ d ∈ pre, c.strand = d.strand ∧ c.returned = d.returned ∧
            c.pending = d.pending := by
  rcases List.eq_nil_or_concat pre with rfl | ⟨init, d, hpre⟩
  · refine ⟨[], by simp [SpawnFrame.slots, getLeft, h], fun slot => ⟨?_, [], ?_, rfl, nofun⟩⟩
    · simp [SpawnFrame.slots, setLeft, h]
    · simp [setLeft, h]
  · rw [List.concat_eq_append] at hpre
    subst hpre
    have hlen : (init ++ [d]).length = init.length + 1 := by simp
    have hchildren : s.children = init ++ d :: rest := by simp [h]
    refine ⟨s.childPending :: init.flatMap Child.slots ++ [d.pending], ?_, fun slot => ⟨?_, ?_⟩⟩
    · rw [hlen]
      simp [SpawnFrame.slots, getLeft, hchildren, Child.slots]
    · rw [hlen]
      simp [SpawnFrame.slots, setLeft, hchildren, modify_append_cons, Child.slots]
    · refine ⟨init ++ [{ d with right := slot }], ?_, by simp, fun c hc => ?_⟩
      · rw [hlen]
        simp [setLeft, hchildren, modify_append_cons]
      · rcases List.mem_append.mp hc with hc | hc
        · exact ⟨c, List.mem_append_left _ hc, rfl, rfl, rfl⟩
        · rw [List.mem_singleton.mp hc]
          exact ⟨d, by simp, rfl, rfl, rfl⟩

/-- `c` is the `k`-th child. -/
theorem exists_split {s : SpawnFrame Exc} {k : Nat} {c : Child Exc} (h : s.children[k]? = some c) :
    ∃ pre post, s.children = pre ++ c :: post ∧ pre.length = k := by
  obtain ⟨hk, hget⟩ := List.getElem?_eq_some_iff.mp h
  refine ⟨s.children.take k, s.children.drop (k + 1), ?_, by simp; omega⟩
  rw [← hget, List.getElem_cons_drop, List.take_append_drop]

-- ---------------------------------------------------------------------------
-- What a slot accumulates
-- ---------------------------------------------------------------------------

/-- The slot holds what its strands left, in serial order. -/
structure SlotOk (record : Nat → Option (PendingExceptionInfo Exc)) (x : Slot Exc) : Prop where
  product  : content x.info = (x.strands.map fun i => content (record i)).prod
  nonempty : x.info.isSome → ∃ i ∈ x.strands, (record i).isSome
  caught   : (content x.info).caughtExceptions ≠ [] →
    ∃ i ∈ x.strands, (content (record i)).caughtExceptions ≠ []
  rethrow  : (content x.info).caughtExceptions = [] → (content x.info).rethrow = true →
    ∃ i ∈ x.strands, (content (record i)).caughtExceptions = [] ∧
      (content (record i)).rethrow = true

section SlotOk

variable {record : Nat → Option (PendingExceptionInfo Exc)} {x y z : Slot Exc}

theorem content_cleared : content (Slot.cleared : Slot Exc).info = 1 := rfl

theorem slotOk_cleared : SlotOk record .cleared := ⟨rfl, nofun, fun h => absurd rfl h, nofun⟩

theorem slotOk_single {i : Nat} {e : Option (PendingExceptionInfo Exc)} (h : record i = e) :
    SlotOk record ⟨e, [i]⟩ := by
  subst h
  exact ⟨by simp, fun h => ⟨i, List.mem_singleton_self i, h⟩,
    fun h => ⟨i, List.mem_singleton_self i, h⟩, fun h h' => ⟨i, List.mem_singleton_self i, h, h'⟩⟩

/-- Only the records of its strands count. -/
theorem SlotOk.congr (h : SlotOk record x) {record' : Nat → Option (PendingExceptionInfo Exc)}
    (hrecord : ∀ i ∈ x.strands, record' i = record i) : SlotOk record' x := by
  refine ⟨?_, fun hx => ?_, fun hx => ?_, fun hx hx' => ?_⟩
  · rw [h.product]
    exact congrArg List.prod (List.map_congr_left fun i hi => by rw [hrecord i hi])
  · obtain ⟨i, hi, hsome⟩ := h.nonempty hx
    exact ⟨i, hi, by rwa [hrecord i hi]⟩
  · obtain ⟨i, hi, hcaught⟩ := h.caught hx
    exact ⟨i, hi, by rwa [hrecord i hi]⟩
  · obtain ⟨i, hi, hrest⟩ := h.rethrow hx hx'
    exact ⟨i, hi, by rwa [hrecord i hi]⟩

theorem merge_eq_ok {p : Slot Exc × List Exc} (h : x.merge y = .ok p) :
    Mergeable x.info y.info ∧ p = (⟨joined x.info y.info, x.strands ++ y.strands⟩,
      superseded (content x.info) (content y.info)) := by
  obtain ⟨q, hq, hp⟩ := bind_eq_ok.mp h
  obtain ⟨hmerge, rfl⟩ := merge_eq_ok_iff.mp hq
  exact ⟨hmerge, (Except.ok.inj hp).symm⟩

theorem merge_ok (h : Mergeable x.info y.info) : x.merge y =
    .ok (⟨joined x.info y.info, x.strands ++ y.strands⟩,
      superseded (content x.info) (content y.info)) :=
  bind_eq_ok.mpr ⟨_, merge_eq_ok_iff.mpr ⟨h, rfl⟩, rfl⟩

theorem isSome_joined {a b : Option (PendingExceptionInfo Exc)} (h : (joined a b).isSome) :
    a.isSome ∨ b.isSome := by
  cases a with
  | none => exact .inr h
  | some a => exact .inl rfl

/-- A merge accumulates the strands of both slots. -/
theorem SlotOk.merge (hx : SlotOk record x) (hy : SlotOk record y) :
    SlotOk record ⟨joined x.info y.info, x.strands ++ y.strands⟩ := by
  refine ⟨?_, fun hsome => ?_, fun hcaught => ?_, fun hcaught hrethrow => ?_⟩
  · rw [content_joined, hx.product, hy.product, List.map_append, List.prod_append]
  · rcases isSome_joined hsome with hsome | hsome
    · obtain ⟨i, hi, hrest⟩ := hx.nonempty hsome
      exact ⟨i, List.mem_append_left _ hi, hrest⟩
    · obtain ⟨i, hi, hrest⟩ := hy.nonempty hsome
      exact ⟨i, List.mem_append_right _ hi, hrest⟩
  · rw [content_joined, mul_caught] at hcaught
    split at hcaught
    · obtain ⟨i, hi, hrest⟩ := hy.caught hcaught
      exact ⟨i, List.mem_append_right _ hi, hrest⟩
    · obtain ⟨i, hi, hrest⟩ := hx.caught hcaught
      exact ⟨i, List.mem_append_left _ hi, hrest⟩
  · rw [content_joined, mul_caught] at hcaught
    rw [content_joined, mul_rethrow] at hrethrow
    split at hcaught
    · rename_i hleft
      rw [if_pos hleft, Bool.or_eq_true] at hrethrow
      rcases hrethrow with hrethrow | hrethrow
      · obtain ⟨i, hi, hrest⟩ := hx.rethrow hleft hrethrow
        exact ⟨i, List.mem_append_left _ hi, hrest⟩
      · obtain ⟨i, hi, hrest⟩ := hy.rethrow hcaught hrethrow
        exact ⟨i, List.mem_append_right _ hi, hrest⟩
    · exact absurd hcaught ‹_›

/-- The assertions of a merge hold when those of the strands do. -/
theorem SlotOk.mergeable (hx : SlotOk record x) (hy : SlotOk record y)
    (h : ∀ i ∈ x.strands, ∀ j ∈ y.strands, Mergeable (record i) (record j)) :
    Mergeable x.info y.info := by
  have hpair : ∀ i ∈ x.strands, ∀ j ∈ y.strands, (record i).isSome → (record j).isSome →
      if (content (record i)).caughtExceptions ≠ [] then (content (record j)).caughtExceptions = []
      else (content (record i)).rethrow = false := by
    intro i hi j hj hisome hjsome
    obtain ⟨a, ha⟩ := Option.isSome_iff_exists.mp hisome
    obtain ⟨b, hb⟩ := Option.isSome_iff_exists.mp hjsome
    have := h i hi j hj
    rw [ha, hb] at this ⊢
    exact this
  have hsome : ∀ i, (content (record i)).caughtExceptions ≠ [] ∨ (content (record i)).rethrow = true →
      (record i).isSome := by
    intro i hi
    cases hr : record i with
    | none => simp [hr, content] at hi
    | some a => rfl
  cases hxi : x.info with
  | none => trivial
  | some a =>
    cases hyi : y.info with
    | none => trivial
    | some b =>
      obtain ⟨j, hj, hjsome⟩ := hy.nonempty (by rw [hyi]; rfl)
      by_cases hcaught : a.caughtExceptions = []
      · have hno : a.rethrow = false := by
          -- a strand of the left slot would have rethrown against one of the right
          by_contra hrethrow
          obtain ⟨i, hi, hic, hir⟩ := hx.rethrow (by rw [hxi]; exact hcaught)
            (by rw [hxi]; simpa [content] using hrethrow)
          have := hpair i hi j hj (hsome i (.inr hir)) hjsome
          rw [if_neg (by simpa using hic), hir] at this
          cases this
        simp [Mergeable, hcaught, hno]
      · obtain ⟨i, hi, hic⟩ := hx.caught (by rw [hxi]; exact hcaught)
        have hno : b.caughtExceptions = [] := by
          -- two strands would have caught exceptions
          by_contra hb
          obtain ⟨j, hj, hjc⟩ := hy.caught (by rw [hyi]; exact hb)
          have := hpair i hi j hj (hsome i (.inl hic)) (hsome j (.inl hjc))
          rw [if_pos hic] at this
          exact hjc this
        simp [Mergeable, hcaught, hno]

end SlotOk

-- ---------------------------------------------------------------------------
-- The invariant
-- ---------------------------------------------------------------------------

/-- The active exceptions in a list of slots. -/
def actives (l : List (Slot Exc)) : List Exc := l.flatMap fun x => (content x.info).active.toList

@[simp] theorem actives_nil : actives ([] : List (Slot Exc)) = [] := rfl

@[simp] theorem actives_cons (x : Slot Exc) (l : List (Slot Exc)) :
    actives (x :: l) = (content x.info).active.toList ++ actives l := rfl

@[simp] theorem actives_append (l l' : List (Slot Exc)) :
    actives (l ++ l') = actives l ++ actives l' := List.flatMap_append

/-- The strands of a list of slots. -/
def strandsOf (l : List (Slot Exc)) : List Nat := l.flatMap (·.strands)

@[simp] theorem strandsOf_nil : strandsOf ([] : List (Slot Exc)) = [] := rfl

@[simp] theorem strandsOf_cons (x : Slot Exc) (l : List (Slot Exc)) :
    strandsOf (x :: l) = x.strands ++ strandsOf l := rfl

@[simp] theorem strandsOf_append (l l' : List (Slot Exc)) :
    strandsOf (l ++ l') = strandsOf l ++ strandsOf l' := List.flatMap_append

/-- The active exception that a strand left. -/
def raisedBy (record : Nat → Option (PendingExceptionInfo Exc)) (l : List Nat) : List Exc :=
  l.flatMap fun i => (content (record i)).active.toList

theorem raised_eq (s : SpawnFrame Exc) : s.raised = raisedBy s.record (List.range s.issued) := by
  simp [SpawnFrame.raised, SpawnFrame.records, raisedBy, List.flatMap_map]

theorem raisedBy_append (record : Nat → Option (PendingExceptionInfo Exc)) (l l' : List Nat) :
    raisedBy record (l ++ l') = raisedBy record l ++ raisedBy record l' := List.flatMap_append

theorem raisedBy_congr {record record' : Nat → Option (PendingExceptionInfo Exc)} {l : List Nat}
    (h : ∀ i ∈ l, record' i = record i) : raisedBy record' l = raisedBy record l := by
  induction l with
  | nil => rfl
  | cons i l ih =>
    have ih := ih fun j hj => h j (List.mem_cons_of_mem _ hj)
    simp only [raisedBy, List.flatMap_cons] at ih ⊢
    rw [ih, h i List.mem_cons_self]

/-- The slots of a frame that is not resumed yet accumulate all strands, from
left to right in serial order. -/
structure Accumulates (s : SpawnFrame Exc) : Prop where
  order   : strandsOf s.slots = List.range s.issued
  slotOk  : ∀ x ∈ s.slots, SlotOk s.record x
  running : ∀ c ∈ s.children, c.returned = false → c.pending = ⟨none, [c.strand]⟩
  fresh   : ∀ i ≥ s.issued, s.record i = none
  perm    : (actives s.slots ++ s.deleted).Perm s.raised

section Accumulates

variable {s : SpawnFrame Exc}

/-- Adjacent slots are replaced by slots that accumulate the same strands. -/
theorem Accumulates.replace (h : Accumulates s) {t : SpawnFrame Exc}
    {front back A B : List (Slot Exc)} {deleted : List Exc} (hs : s.slots = front ++ A ++ back)
    (ht : t.slots = front ++ B ++ back) (hrecord : t.record = s.record)
    (hissued : t.issued = s.issued) (hdeleted : t.deleted = s.deleted ++ deleted)
    (hstrands : strandsOf B = strandsOf A) (hB : ∀ x ∈ B, SlotOk s.record x)
    (hactives : (actives B ++ deleted).Perm (actives A))
    (hrunning : ∀ c ∈ t.children, c.returned = false → c.pending = ⟨none, [c.strand]⟩) :
    Accumulates t := by
  refine ⟨?_, fun x hx => ?_, hrunning, ?_, ?_⟩
  · rw [ht, hissued, ← h.order, hs]
    simp only [strandsOf_append, hstrands]
  · rw [hrecord]
    rw [ht] at hx
    simp only [List.mem_append] at hx
    rcases hx with (hx | hx) | hx
    · exact h.slotOk x (by simp [hs, hx])
    · exact hB x hx
    · exact h.slotOk x (by simp [hs, hx])
  · rw [hrecord, hissued]
    exact h.fresh
  · have hperm := h.perm
    rw [raised_eq] at hperm ⊢
    rw [hrecord, hissued, ht, hdeleted]
    rw [hs] at hperm
    refine List.Perm.trans ?_ hperm
    simp only [actives_append, List.append_assoc]
    refine List.Perm.append_left _ ?_
    -- the deleted exceptions come from the slots that were replaced
    calc actives B ++ (actives back ++ (s.deleted ++ deleted))
        _ = actives B ++ ((actives back ++ s.deleted) ++ deleted) := by simp
        List.Perm _ (actives B ++ (deleted ++ (actives back ++ s.deleted))) :=
          List.Perm.append_left _ List.perm_append_comm
        _ = (actives B ++ deleted) ++ (actives back ++ s.deleted) := by simp
        List.Perm _ (actives A ++ (actives back ++ s.deleted)) := hactives.append_right _

@[simp] theorem setLeft_record (k : Nat) (slot : Slot Exc) : (setLeft s k slot).record = s.record := by
  cases k <;> rfl

@[simp] theorem setLeft_issued (k : Nat) (slot : Slot Exc) : (setLeft s k slot).issued = s.issued := by
  cases k <;> rfl

@[simp] theorem setLeft_deleted (k : Nat) (slot : Slot Exc) :
    (setLeft s k slot).deleted = s.deleted := by
  cases k <;> rfl

@[simp] theorem setLeft_delivered (k : Nat) (slot : Slot Exc) :
    (setLeft s k slot).delivered = s.delivered := by
  cases k <;> rfl

/-- The active exceptions of three slots that are merged into the first. -/
theorem perm_merge (a b c : Content Exc) :
    ((a * b * c).active.toList ++ (superseded a b ++ superseded (a * b) c)).Perm
      (a.active.toList ++ (b.active.toList ++ c.active.toList)) := by
  calc (a * b * c).active.toList ++ (superseded a b ++ superseded (a * b) c)
      List.Perm _ ((a * b * c).active.toList ++ (superseded (a * b) c ++ superseded a b)) :=
        List.Perm.append_left _ List.perm_append_comm
      _ = (a * b).active.toList ++ c.active.toList ++ superseded a b := by
        rw [← List.append_assoc, active_append_superseded]
      List.Perm _ ((a * b).active.toList ++ (superseded a b ++ c.active.toList)) := by
        rw [List.append_assoc]
        exact List.Perm.append_left _ List.perm_append_comm
      _ = a.active.toList ++ (b.active.toList ++ c.active.toList) := by
        rw [← List.append_assoc, active_append_superseded, List.append_assoc]

/-- The slot on the left of a child once the child has merged its records. -/
def splicedSlot (s : SpawnFrame Exc) (k : Nat) (c : Child Exc) : Slot Exc :=
  ⟨joined (joined (getLeft s k).info c.pending.info) c.right.info,
    (getLeft s k).strands ++ c.pending.strands ++ c.right.strands⟩

theorem spliceExceptionsForSpawn_eq_ok {k : Nat} {c : Child Exc} {t : SpawnFrame Exc}
    (h : spliceExceptionsForSpawn s k c = .ok t) :
    t = { setLeft s k (splicedSlot s k c) with
      children := (setLeft s k (splicedSlot s k c)).children.modify k fun c =>
        { c with pending := .cleared, right := .cleared }
      deleted  := s.deleted ++
        (superseded (content (getLeft s k).info) (content c.pending.info) ++
          superseded (content (getLeft s k).info * content c.pending.info)
            (content c.right.info)) } := by
  obtain ⟨p₁, hp₁, h⟩ := bind_eq_ok.mp h
  obtain ⟨p₂, hp₂, h⟩ := bind_eq_ok.mp h
  obtain ⟨-, rfl⟩ := merge_eq_ok hp₁
  obtain ⟨-, rfl⟩ := merge_eq_ok hp₂
  rw [← Except.ok.inj h]
  simp only [content_joined, setLeft_deleted, List.append_assoc, splicedSlot]

/-- The `k`-th child merges its records, and may be unlinked after that. -/
theorem Accumulates.splice (h : Accumulates s) {k : Nat} {c : Child Exc}
    (hc : s.children[k]? = some c) (hreturned : c.returned = true) {t : SpawnFrame Exc}
    (hok : spliceExceptionsForSpawn s k c = .ok t) :
    Accumulates t ∧ Accumulates { t with children := t.children.eraseIdx k } := by
  obtain ⟨pre, post, hs, rfl⟩ := exists_split hc
  -- the merge reads the slot to the left of the child and the two of the child
  obtain ⟨front, hslots, hset⟩ := slots_setLeft s hs
  obtain ⟨hslots', pre', hpre', hlen', hkeep⟩ := hset (splicedSlot s pre.length c)
  have hslots : s.slots = front ++ [getLeft s pre.length, c.pending, c.right] ++
      post.flatMap Child.slots := by
    rw [hslots]
    simp [Child.slots]
  have hmerged : SlotOk s.record (splicedSlot s pre.length c) :=
    ((h.slotOk (getLeft s pre.length) (by simp [hslots])).merge
      (h.slotOk c.pending (by simp [hslots]))).merge (h.slotOk c.right (by simp [hslots]))
  have hperm := perm_merge (content (getLeft s pre.length).info) (content c.pending.info)
    (content c.right.info)
  have hcontent : content (splicedSlot s pre.length c).info =
      content (getLeft s pre.length).info * content c.pending.info * content c.right.info := by
    rw [splicedSlot, content_joined, content_joined]
  have hrunning : ∀ d ∈ pre' ++ post, d.returned = false → d.pending = ⟨none, [d.strand]⟩ := by
    intro d hd hrun
    rcases List.mem_append.mp hd with hd | hd
    · obtain ⟨d', hd', h₁, h₂, h₃⟩ := hkeep d hd
      rw [h₁, h₃]
      exact h.running d' (by simp [hs, hd']) (h₂ ▸ hrun)
    · exact h.running d (by simp [hs, hd]) hrun
  have hchildren : t.children = pre' ++ { c with pending := .cleared, right := .cleared } :: post := by
    have hmodify := modify_append_cons pre' post c fun c =>
      { c with pending := .cleared, right := .cleared }
    rw [hlen'] at hmodify
    rw [spliceExceptionsForSpawn_eq_ok hok]
    simp only [hpre', hmodify]
  -- the slots in front of the merged one are not touched
  have hfront : t.childPending :: pre'.flatMap Child.slots =
      front ++ [splicedSlot s pre.length c] := by
    have htail : (setLeft s pre.length (splicedSlot s pre.length c)).slots =
        (t.childPending :: pre'.flatMap Child.slots) ++ (c :: post).flatMap Child.slots := by
      rw [spliceExceptionsForSpawn_eq_ok hok]
      simp [SpawnFrame.slots, hpre']
    have hcancel : (t.childPending :: pre'.flatMap Child.slots) ++ (c :: post).flatMap Child.slots =
        (front ++ [splicedSlot s pre.length c]) ++ (c :: post).flatMap Child.slots := by
      rw [← htail, hslots']
      simp
    exact List.append_cancel_right hcancel
  have hrecord : t.record = s.record := by
    rw [spliceExceptionsForSpawn_eq_ok hok]
    simp only [setLeft_record]
  have hissued : t.issued = s.issued := by
    rw [spliceExceptionsForSpawn_eq_ok hok]
    simp only [setLeft_issued]
  have hdeleted : t.deleted = s.deleted ++
      (superseded (content (getLeft s pre.length).info) (content c.pending.info) ++
        superseded (content (getLeft s pre.length).info * content c.pending.info)
          (content c.right.info)) := by
    rw [spliceExceptionsForSpawn_eq_ok hok]
  constructor
  · -- the child keeps its place, with two slots that are cleared
    refine h.replace hslots (B := [splicedSlot s pre.length c, .cleared, .cleared]) ?_ hrecord
      hissued hdeleted ?_ ?_ ?_ ?_
    · rw [SpawnFrame.slots, hchildren, List.flatMap_append, ← List.cons_append, hfront]
      simp [Child.slots]
    · simp [splicedSlot, Slot.cleared]
    · simp only [List.mem_cons, List.not_mem_nil, or_false]
      rintro x (rfl | rfl | rfl)
      · exact hmerged
      · exact slotOk_cleared
      · exact slotOk_cleared
    · simpa [hcontent, content_cleared] using hperm
    · rw [hchildren]
      intro d hd hrun
      rcases List.mem_append.mp hd with hd | hd
      · exact hrunning d (List.mem_append_left _ hd) hrun
      · rcases List.mem_cons.mp hd with rfl | hd
        · rw [hreturned] at hrun
          cases hrun
        · exact hrunning d (List.mem_append_right _ hd) hrun
  · -- the child is unlinked
    have herase : t.children.eraseIdx pre.length = pre' ++ post := by
      rw [hchildren, ← hlen', eraseIdx_append_cons]
    refine h.replace hslots (B := [splicedSlot s pre.length c]) ?_ hrecord
      hissued hdeleted ?_ ?_ ?_ ?_
    · rw [SpawnFrame.slots, herase, List.flatMap_append, ← List.cons_append, hfront]
    · simp [splicedSlot]
    · simp only [List.mem_singleton, forall_eq]
      exact hmerged
    · simpa [hcontent] using hperm
    · rw [herase]
      exact hrunning

/-- The next strand gets a slot of its own: a child is spawned. -/
theorem Accumulates.spawn (h : Accumulates s) : Accumulates { s with
    children := s.children ++ [⟨s.issued, false, ⟨none, [s.issued]⟩, .cleared⟩]
    issued   := s.issued + 1 } := by
  have hnone : s.record s.issued = none := h.fresh _ (Nat.le_refl _)
  have hslots : SpawnFrame.slots { s with
      children := s.children ++ [⟨s.issued, false, ⟨none, [s.issued]⟩, .cleared⟩]
      issued   := s.issued + 1 } = s.slots ++ [⟨none, [s.issued]⟩, .cleared] := by
    simp [SpawnFrame.slots, Child.slots]
  refine ⟨?_, fun x hx => ?_, fun c hc hrun => ?_, fun i hi => h.fresh i (by grind), ?_⟩
  · rw [hslots, strandsOf_append, h.order, List.range_succ]
    simp [Slot.cleared]
  · rw [hslots] at hx
    simp only [List.mem_append, List.mem_cons, List.not_mem_nil, or_false] at hx
    rcases hx with hx | rfl | rfl
    · exact h.slotOk x hx
    · exact slotOk_single hnone
    · exact slotOk_cleared
  · rcases List.mem_append.mp hc with hc | hc
    · exact h.running c hc hrun
    · rw [List.mem_singleton.mp hc]
  · have hperm := h.perm
    rw [raised_eq] at hperm ⊢
    rw [hslots, List.range_succ, raisedBy_append]
    have hone : content (s.record s.issued) = 1 := by rw [hnone]; exact content_cleared
    have hslot : content (none : Option (PendingExceptionInfo Exc)) = 1 := content_cleared
    simpa [raisedBy, hone, hslot, content_cleared] using hperm

/-- A child returns and leaves its record. -/
theorem Accumulates.ret (h : Accumulates s) {k : Nat} {c : Child Exc}
    (hc : s.children[k]? = some c) (hrun : c.returned = false)
    (e : Option (PendingExceptionInfo Exc)) : Accumulates { s with
      children := s.children.modify k fun c =>
        { c with returned := true, pending := ⟨e, c.pending.strands⟩ }
      record   := Function.update s.record c.strand e } := by
  obtain ⟨pre, post, hs, rfl⟩ := exists_split hc
  have hpending : c.pending = ⟨none, [c.strand]⟩ := h.running c (by simp [hs]) hrun
  have hmodify := modify_append_cons pre post c fun c =>
    { c with returned := true, pending := ⟨e, c.pending.strands⟩ }
  rw [← hs, hpending] at hmodify
  rw [hmodify]
  set front := s.childPending :: pre.flatMap Child.slots with hfront
  set back := c.right :: post.flatMap Child.slots with hback
  have hslots : s.slots = front ++ ⟨none, [c.strand]⟩ :: back := by
    simp [SpawnFrame.slots, hs, hfront, hback, Child.slots, hpending]
  have horder : strandsOf front ++ c.strand :: strandsOf back = List.range s.issued := by
    rw [← h.order, hslots]
    simp
  have hnodup : (strandsOf front ++ c.strand :: strandsOf back).Nodup :=
    horder ▸ List.nodup_range
  -- no other strand has the record of this one
  have hother : ∀ i ∈ strandsOf front ++ strandsOf back,
      Function.update s.record c.strand e i = s.record i := by
    intro i hi
    refine Function.update_of_ne ?_ ..
    rintro rfl
    rw [List.nodup_append, List.nodup_cons] at hnodup
    rcases List.mem_append.mp hi with hi | hi
    · exact hnodup.2.2 _ hi _ List.mem_cons_self rfl
    · exact hnodup.2.1.1 hi
  have hslots' : SpawnFrame.slots { s with
      children := pre ++ { c with returned := true, pending := ⟨e, [c.strand]⟩ } :: post
      record   := Function.update s.record c.strand e } =
      front ++ ⟨e, [c.strand]⟩ :: back := by
    simp [SpawnFrame.slots, hfront, hback, Child.slots]
  refine ⟨?_, fun x hx => ?_, fun d hd hdrun => ?_, fun i hi => ?_, ?_⟩
  · rw [hslots', ← horder]
    simp
  · rw [hslots'] at hx
    rcases List.mem_append.mp hx with hx | hx
    · refine (h.slotOk x (by simp [hslots, hx])).congr fun i hi => hother i ?_
      exact List.mem_append_left _ (List.mem_flatMap.mpr ⟨x, hx, hi⟩)
    · rcases List.mem_cons.mp hx with rfl | hx
      · exact slotOk_single (Function.update_self ..)
      · refine (h.slotOk x (by simp [hslots, hx])).congr fun i hi => hother i ?_
        exact List.mem_append_right _ (List.mem_flatMap.mpr ⟨x, hx, hi⟩)
  · rcases List.mem_append.mp hd with hd | hd
    · exact h.running d (by simp [hs, hd]) hdrun
    · rcases List.mem_cons.mp hd with rfl | hd
      · cases hdrun
      · exact h.running d (by simp [hs, hd]) hdrun
  · refine (Function.update_of_ne ?_ ..).trans (h.fresh i hi)
    rintro rfl
    have hmem : c.strand ∈ List.range s.issued := horder ▸ by simp
    exact absurd (List.mem_range.mp hmem) (Nat.not_lt.mpr hi)
  · have hperm := h.perm
    -- the strand has raised nothing before
    have hnone : content (s.record c.strand) = 1 := by
      have := (h.slotOk ⟨none, [c.strand]⟩ (by simp [hslots])).product
      simpa [content] using this.symm
    rw [raised_eq] at hperm ⊢
    rw [hslots']
    rw [hslots, ← horder] at hperm
    simp only [← horder]
    have hupdated : ∀ l, (∀ i ∈ l, i ∈ strandsOf front ++ strandsOf back) →
        raisedBy (Function.update s.record c.strand e) l = raisedBy s.record l :=
      fun l hl => raisedBy_congr fun i hi => hother i (hl i hi)
    have hcons : ∀ (record : Nat → Option (PendingExceptionInfo Exc)) (l : List Nat),
        raisedBy record (c.strand :: l) =
          (content (record c.strand)).active.toList ++ raisedBy record l := fun _ _ => rfl
    rw [raisedBy_append, hcons, hupdated _ fun i hi => List.mem_append_left _ hi,
      hupdated _ fun i hi => List.mem_append_right _ hi, Function.update_self]
    rw [raisedBy_append, hcons, hnone] at hperm
    simp only [actives_append, actives_cons, List.append_assoc] at hperm ⊢
    refine (List.perm_append_comm_assoc ..).trans ?_
    refine List.Perm.trans ?_ (List.perm_append_comm_assoc ..)
    exact List.Perm.append_left _ hperm

/-- The frame reaches its sync and merges its record. -/
theorem Accumulates.sync (h : Accumulates s) {e : Option (PendingExceptionInfo Exc)}
    {t : SpawnFrame Exc} (hok : exec s (.sync e) = .ok t) :
    Accumulates t ∧ t.delivered = s.delivered := by
  obtain ⟨p, hp, hok⟩ := bind_eq_ok.mp hok
  obtain ⟨-, rfl⟩ := merge_eq_ok hp
  have ht := (Except.ok.inj hok).symm
  obtain ⟨front, hslots, hset⟩ := slots_setLeft s (s.children.append_nil).symm
  set left := getLeft s s.children.length
  obtain ⟨hslots', pre', hpre', -, hkeep⟩ := hset ⟨joined left.info e, left.strands ++ [s.issued]⟩
  simp only [List.flatMap_nil] at hslots hslots'
  have hchildren : t.children = pre' := by
    rw [ht]
    simpa using hpre'
  have hrecord : t.record = Function.update s.record s.issued e := by simp [ht]
  have hissued : t.issued = s.issued + 1 := by simp [ht]
  have hdeleted : t.deleted = s.deleted ++ superseded (content left.info) (content e) := by
    simp [ht]
  have hslots'' : t.slots = front ++ [⟨joined left.info e, left.strands ++ [s.issued]⟩] := by
    rw [← hslots', ht]
    rfl
  -- the strand of the frame is a new one
  have hother : ∀ i ∈ List.range s.issued, t.record i = s.record i := fun i hi => by
    rw [hrecord, Function.update_of_ne (Nat.ne_of_lt (List.mem_range.mp hi))]
  have hleft := h.slotOk left (by simp [hslots])
  have hin : ∀ x ∈ s.slots, ∀ i ∈ x.strands, i ∈ List.range s.issued :=
    fun x hx i hi => h.order ▸ List.mem_flatMap.mpr ⟨x, hx, hi⟩
  refine ⟨⟨?_, fun x hx => ?_, fun c hc hrun => ?_, fun i hi => ?_, ?_⟩, by simp [ht]⟩
  · rw [hslots'', hissued, List.range_succ, ← h.order, hslots]
    simp
  · rw [hslots''] at hx
    rcases List.mem_append.mp hx with hx | hx
    · have hx : x ∈ s.slots := by simp [hslots, hx]
      exact (h.slotOk x hx).congr fun i hi => hother i (hin x hx i hi)
    · rw [List.mem_singleton.mp hx]
      refine SlotOk.merge (y := ⟨e, [s.issued]⟩)
        (hleft.congr fun i hi => hother i (hin left (by simp [hslots]) i hi)) ?_
      exact slotOk_single (by rw [hrecord, Function.update_self])
  · obtain ⟨d, hd, h₁, h₂, h₃⟩ := hkeep c (hchildren ▸ hc)
    rw [h₁, h₃]
    exact h.running d hd (h₂ ▸ hrun)
  · rw [hissued] at hi
    rw [hrecord, Function.update_of_ne (Nat.ne_of_gt hi)]
    exact h.fresh i (Nat.le_of_succ_le hi)
  · have hperm := h.perm
    rw [raised_eq, hslots] at hperm
    have hraised : raisedBy t.record (List.range t.issued) =
        raisedBy s.record (List.range s.issued) ++ (content e).active.toList := by
      rw [hissued, List.range_succ, raisedBy_append, raisedBy_congr hother, hrecord]
      simp [raisedBy]
    -- what is raised is appended at the end, the order of what is deleted is free
    have hactive := active_append_superseded (content left.info) (content e)
    rw [raised_eq, hraised, hslots'', hdeleted]
    calc actives (front ++ [⟨joined left.info e, left.strands ++ [s.issued]⟩]) ++
          (s.deleted ++ superseded (content left.info) (content e))
        _ = actives front ++ ((content left.info * content e).active.toList ++
              (s.deleted ++ superseded (content left.info) (content e))) := by
          simp only [actives_append, actives_cons, actives_nil, content_joined, List.append_nil,
            List.append_assoc]
        List.Perm _ (actives front ++ ((content left.info * content e).active.toList ++
              (superseded (content left.info) (content e) ++ s.deleted))) :=
          (List.perm_append_comm.append_left _).append_left _
        _ = actives front ++ ((content left.info).active.toList ++
              ((content e).active.toList ++ s.deleted)) := by
          rw [← List.append_assoc (content left.info * content e).active.toList, hactive,
            List.append_assoc]
        List.Perm _ (actives front ++ ((content left.info).active.toList ++
              (s.deleted ++ (content e).active.toList))) :=
          (List.perm_append_comm.append_left _).append_left _
        _ = (actives (front ++ [left]) ++ s.deleted) ++ (content e).active.toList := by
          simp only [actives_append, actives_cons, actives_nil, List.append_nil,
            List.append_assoc]
        List.Perm _ (raisedBy s.record (List.range s.issued) ++ (content e).active.toList) :=
          hperm.append_right _

/-- A merge at the `k`-th child goes through when the strands meet the
assertions pairwise. -/
theorem Accumulates.splice_ok (h : Accumulates s) {k : Nat} {c : Child Exc}
    (hc : s.children[k]? = some c) (hmergeable : s.records.Pairwise Mergeable) :
    ∃ t, spliceExceptionsForSpawn s k c = .ok t := by
  obtain ⟨pre, post, hs, rfl⟩ := exists_split hc
  obtain ⟨front, hslots, -⟩ := slots_setLeft s hs
  have hslots : s.slots = front ++ [getLeft s pre.length, c.pending, c.right] ++
      post.flatMap Child.slots := by
    rw [hslots]
    simp [Child.slots]
  have hpending := h.slotOk c.pending (by simp [hslots])
  have hleft := h.slotOk (getLeft s pre.length) (by simp [hslots])
  have hright := h.slotOk c.right (by simp [hslots])
  have hpair := hmergeable
  rw [SpawnFrame.records, List.pairwise_map, ← h.order, hslots] at hpair
  simp only [strandsOf_append, strandsOf_cons, strandsOf_nil, List.append_nil,
    List.pairwise_append] at hpair
  have hfirst := hleft.mergeable hpending (by grind)
  have hsecond := (hleft.merge hpending).mergeable hright (by grind)
  refine ⟨_, bind_eq_ok.mpr ⟨_, merge_ok hfirst, bind_eq_ok.mpr ⟨_, merge_ok hsecond, rfl⟩⟩⟩

/-- So does the merge of the frame's own record at its sync. -/
theorem Accumulates.sync_ok (h : Accumulates s) {e : Option (PendingExceptionInfo Exc)}
    (hmergeable : (s.records ++ [e]).Pairwise Mergeable) : ∃ t, exec s (.sync e) = .ok t := by
  obtain ⟨front, hslots, -⟩ := slots_setLeft s (s.children.append_nil).symm
  set left := getLeft s s.children.length
  have hleft : left ∈ s.slots := by simp [hslots]
  have hrecord : SlotOk (Function.update s.record s.issued e) left := by
    refine (h.slotOk left hleft).congr fun i hi => Function.update_of_ne ?_ ..
    have hmem : i ∈ List.range s.issued := h.order ▸ List.mem_flatMap.mpr ⟨left, hleft, hi⟩
    exact Nat.ne_of_lt (List.mem_range.mp hmem)
  have hmerge : Mergeable left.info e := by
    refine hrecord.mergeable (y := ⟨e, [s.issued]⟩) (slotOk_single (Function.update_self ..)) ?_
    intro i hi j hj
    rw [List.mem_singleton.mp hj, Function.update_self]
    have hmem : i ∈ List.range s.issued := h.order ▸ List.mem_flatMap.mpr ⟨left, hleft, hi⟩
    rw [Function.update_of_ne (Nat.ne_of_lt (List.mem_range.mp hmem))]
    refine (List.pairwise_append.mp hmergeable).2.2 _ (List.mem_map_of_mem hmem) e ?_
    exact List.mem_singleton_self e
  exact ⟨_, bind_eq_ok.mpr ⟨_, merge_ok (y := ⟨e, [s.issued]⟩) hmerge, rfl⟩⟩

/-- The active exception of a product is the first one. -/
theorem active_prod (l : List (Content Exc)) :
    l.prod.active = (l.flatMap fun a => a.active.toList).head? := by
  induction l with
  | nil => rfl
  | cons a l ih =>
    rw [List.prod_cons, mul_active, ih, List.flatMap_cons]
    cases a.active <;> rfl

/-- A frame without children resumes with what all strands left. -/
theorem Accumulates.delivers (h : Accumulates s) (hchildren : s.children = []) (slot : Slot Exc)
    (hslot : content slot.info = content s.childPending.info) {t : SpawnFrame Exc}
    (ht : t.delivered = some slot) (hrecord : t.record = s.record) (hissued : t.issued = s.issued)
    (hdeleted : t.deleted = s.deleted) : Delivers t := by
  have hslots : s.slots = [s.childPending] := by simp [SpawnFrame.slots, hchildren]
  have hrecords : t.records = s.records := by
    simp only [SpawnFrame.records, hrecord, hissued]
  have hraised : t.raised = s.raised := by simp only [SpawnFrame.raised, hrecords]
  have hprod : content s.childPending.info = (s.records.map content).prod := by
    have horder := h.order
    rw [hslots, strandsOf_cons, strandsOf_nil, List.append_nil] at horder
    rw [(h.slotOk s.childPending (by simp [hslots])).product, horder, SpawnFrame.records,
      List.map_map]
    rfl
  intro slot' hslot'
  obtain rfl := Option.some.inj (ht.symm.trans hslot')
  refine ⟨by rw [hslot, hprod, hrecords], ?_, ?_⟩
  · rw [hslot, hprod, active_prod, hraised, SpawnFrame.raised, List.flatMap_map]
  · have hperm := h.perm
    rw [hslots, actives_cons, actives_nil, List.append_nil] at hperm
    rw [hslot, hdeleted, hraised]
    exact hperm

end Accumulates

/-- Until it is resumed a frame accumulates; then nothing happens any more. -/
def Inv (s : SpawnFrame Exc) : Prop :=
  (s.delivered = none ∧ Accumulates s) ∨
    (s.delivered.isSome ∧ s.synced = true ∧ s.children = [] ∧ Delivers s)

theorem inv_init {s : SpawnFrame Exc} (h : (frameSystem Exc).init s) : Inv s := by
  obtain ⟨h₁, h₂, -, h₃, h₄, h₅, h₆⟩ := h
  have hslots : s.slots = [.cleared] := by simp [SpawnFrame.slots, h₁, h₂]
  refine .inl ⟨h₃, ⟨?_, ?_, ?_, ?_, ?_⟩⟩
  · simp [hslots, h₅, Slot.cleared]
  · rw [hslots]
    simp only [List.mem_singleton, forall_eq]
    exact slotOk_cleared
  · simp [h₂]
  · simp [h₄]
  · simp [hslots, h₆, raised_eq, h₅, raisedBy, content_cleared]

/-- Nothing happens in a frame that is resumed. -/
theorem not_enabled {s : SpawnFrame Exc} (h₁ : s.delivered.isSome) (h₂ : s.synced = true)
    (h₃ : s.children = []) (e : FrameEvent Exc) : ¬ Enabled s e := by
  cases e with
  | resume =>
    rintro ⟨-, -, h⟩
    rw [h] at h₁
    cases h₁
  | _ => simp [Enabled, h₂, h₃]

/-- Each step keeps the strands in serial order. -/
theorem Inv.exec {s t : SpawnFrame Exc} {e : FrameEvent Exc} (h : Inv s) (hen : Enabled s e)
    (hok : exec s e = .ok t) : Inv t := by
  obtain ⟨hnone, h⟩ | ⟨h₁, h₂, h₃, -⟩ := h
  swap
  · exact absurd hen (not_enabled h₁ h₂ h₃ e)
  cases e with
  | spawn =>
    obtain rfl := Except.ok.inj hok
    exact .inl ⟨hnone, h.spawn⟩
  | ret k e =>
    obtain ⟨c, hc, hrun⟩ := hen
    simp only [Exceptions.exec, hc] at hok
    obtain rfl := Except.ok.inj hok
    exact .inl ⟨hnone, h.ret hc hrun e⟩
  | splice k =>
    obtain ⟨c, hc, hreturned⟩ := hen
    simp only [Exceptions.exec, hc] at hok
    have ht := spliceExceptionsForSpawn_eq_ok hok
    exact .inl ⟨by rw [ht]; simpa using hnone, (h.splice hc hreturned hok).1⟩
  | finish k =>
    obtain ⟨c, hc, hreturned⟩ := hen
    simp only [Exceptions.exec, hc] at hok
    obtain ⟨u, hu, hok⟩ := bind_eq_ok.mp hok
    have ht := spliceExceptionsForSpawn_eq_ok hu
    obtain rfl := Except.ok.inj hok
    exact .inl ⟨by simp only [ht, setLeft_delivered]; exact hnone, (h.splice hc hreturned hu).2⟩
  | sync e =>
    obtain ⟨ht, hdelivered⟩ := h.sync hok
    exact .inl ⟨hdelivered.trans hnone, ht⟩
  | resume =>
    obtain ⟨hsynced, hchildren, -⟩ := hen
    obtain ⟨p, hp, hok⟩ := bind_eq_ok.mp hok
    obtain ⟨-, rfl⟩ := merge_eq_ok hp
    obtain rfl := Except.ok.inj hok
    refine .inr ⟨rfl, hsynced, hchildren, h.delivers hchildren
      ⟨joined s.childPending.info none, s.childPending.strands ++ []⟩ ?_ rfl rfl rfl ?_⟩
    · rw [content_joined]
      exact mul_one _
    · simp [superseded_one, content_cleared]

/-- No assertion of a merge fails. -/
theorem Inv.noneFails {s : SpawnFrame Exc} (h : Inv s) : NoneFails s := by
  intro e hen hmergeable
  obtain ⟨-, h⟩ | ⟨h₁, h₂, h₃, -⟩ := h
  swap
  · exact absurd hen (not_enabled h₁ h₂ h₃ e)
  cases e with
  | spawn => exact ⟨_, rfl⟩
  | ret k e =>
    obtain ⟨c, hc, -⟩ := hen
    simp only [Exceptions.exec, hc]
    exact ⟨_, rfl⟩
  | splice k =>
    obtain ⟨c, hc, -⟩ := hen
    simp only [Exceptions.exec, hc]
    exact h.splice_ok hc hmergeable
  | finish k =>
    obtain ⟨c, hc, -⟩ := hen
    obtain ⟨u, hu⟩ := h.splice_ok hc hmergeable
    simp only [Exceptions.exec, hc]
    exact ⟨_, bind_eq_ok.mpr ⟨u, hu, rfl⟩⟩
  | sync e => exact h.sync_ok hmergeable
  | resume =>
    have hmerge : Mergeable s.childPending.info (Slot.cleared : Slot Exc).info := by
      cases s.childPending.info <;> trivial
    exact ⟨_, bind_eq_ok.mpr ⟨_, merge_ok hmerge, rfl⟩⟩

/-- Merges are associative up to the identity of records and take the serially
earlier active exception; whatever the order in which the children of a frame
return and merge, the frame is resumed with the serially earliest exception, all
others are deleted once each, and no assertion of a merge fails. -/
theorem exceptions_serial (Exc : Type) : MergeLaws Exc ∧
    ∀ s, (frameSystem Exc).Reachable s → Delivers s ∧ NoneFails s := by
  refine ⟨mergeLaws Exc, fun s hs => ?_⟩
  have hinv : Inv s := LTS.Reachable.invariant (P := Inv) (fun s h => inv_init h)
    (fun s e t h hst => h.exec hst.1 hst.2) hs
  refine ⟨?_, hinv.noneFails⟩
  obtain ⟨hnone, -⟩ | ⟨-, -, -, h⟩ := hinv
  · intro slot hslot
    rw [hnone] at hslot
    cases hslot
  · exact h

end SwanRuntime.Exceptions
