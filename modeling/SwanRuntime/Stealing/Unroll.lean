import SwanRuntime.Library.DoublyLinked
import SwanRuntime.Runtime.FullFrame

/-!
# Unrolling a stolen call stack

The frames that a worker has called since its last full frame are linked from
the youngest to the oldest. When the youngest of them is stolen, each gets a
full frame of its own: the links are reversed in place, and the reversed list is
then consumed from the oldest frame on, every frame becoming a call child of the
one before. The pointers of the stack frames, and of the siblings among the full
frames, are those of the source.

`promote` says what the second loop does to a list of frames.

## Results

* `reverseCallStack_ok`   — the first loop links the frames the other way round.
* `promoteCallStack_ok`   — the second loop promotes them one after the other.
* `Promotes.push`         — what promoting one more frame adds.
* `unrollCallStack_spec`  — what is built from a call stack.
-/

namespace SwanRuntime.Unroll

open Checked LinkedList
open SwanRuntime.Runtime (FrameId FiberId FiberArg)

abbrev SfId := Nat

-- ---------------------------------------------------------------------------
-- State
-- ---------------------------------------------------------------------------

/-- `__cilkrts_stack_frame`: the flags, and the addresses that `SP` and `FP` stand
for. -/
structure StackFrame where
  unsynched  : Bool
  detached   : Bool
  stolen     : Bool
  last       : Bool
  suspended  : Bool
  callParent : Option SfId
  worker     : Option Runtime.WorkerId
  exceptData : Option Nat
  sp         : Int
  fp         : Int

/-- `full_frame`. -/
structure FullFrame where
  joinCounter    : Nat
  parent         : Option FrameId
  leftSibling    : Option FrameId
  rightSibling   : Option FrameId
  rightmostChild : Option FrameId
  callStack      : Option SfId
  isCallChild    : Bool
  syncSp         : Int
  frameSize      : Int
  fiberSelf      : Option FiberId
  syncMaster     : Option Runtime.WorkerId

/-- The frames in memory; full frames are allocated in order. -/
structure State where
  sf        : SfId → StackFrame
  ff        : FrameId → FullFrame
  nextFrame : FrameId

def State.modSf (s : State) (a : SfId) (g : StackFrame → StackFrame) : State :=
  { s with sf := Function.update s.sf a (g (s.sf a)) }

def State.modFf (s : State) (f : FrameId) (g : FullFrame → FullFrame) : State :=
  { s with ff := Function.update s.ff f (g (s.ff f)) }

namespace State

variable (s : State) (a b : SfId) (f g : FrameId)

@[simp] theorem modSf_ff (h : StackFrame → StackFrame) : (s.modSf a h).ff = s.ff := rfl

@[simp] theorem modSf_nextFrame (h : StackFrame → StackFrame) :
    (s.modSf a h).nextFrame = s.nextFrame := rfl

@[simp] theorem modFf_sf (h : FullFrame → FullFrame) : (s.modFf f h).sf = s.sf := rfl

@[simp] theorem modFf_nextFrame (h : FullFrame → FullFrame) :
    (s.modFf f h).nextFrame = s.nextFrame := rfl

theorem modSf_sf (h : StackFrame → StackFrame) :
    (s.modSf a h).sf b = if b = a then h (s.sf b) else s.sf b := by
  simp only [modSf, Function.update_apply]
  split
  · rename_i heq
    rw [heq]
  · rfl

theorem modFf_ff (h : FullFrame → FullFrame) :
    (s.modFf f h).ff g = if g = f then h (s.ff g) else s.ff g := by
  simp only [modFf, Function.update_apply]
  split
  · rename_i heq
    rw [heq]
  · rfl

end State

-- ---------------------------------------------------------------------------
-- The spawn tree
-- ---------------------------------------------------------------------------

/-- `double_link`. -/
def doubleLink (s : State) (left right : Option FrameId) : State :=
  let s := match left with
    | none => s
    | some left => s.modFf left fun ff => { ff with rightSibling := right }
  match right with
  | none => s
  | some right => s.modFf right fun ff => { ff with leftSibling := left }

/-- `push_child`. -/
def pushChild (s : State) (parent child : FrameId) : State :=
  let s := doubleLink s (s.ff parent).rightmostChild (some child)
  let s := doubleLink s (some child) none
  s.modFf parent fun ff => { ff with rightmostChild := some child }

/-- `incjoin`. -/
def incjoin (s : State) (f : FrameId) : State :=
  s.modFf f fun ff => { ff with joinCounter := ff.joinCounter + 1 }

/-- What `__cilkrts_make_full_frame` stores in the frame. -/
def FullFrame.make (sf : SfId) : FullFrame :=
  ⟨0, none, none, none, none, some sf, false, 0, 0, none, none⟩

/-- `__cilkrts_make_full_frame`. -/
def makeFullFrame (s : State) (sf : SfId) : FrameId × State :=
  (s.nextFrame, { s with
    ff := Function.update s.ff s.nextFrame (FullFrame.make sf)
    nextFrame := s.nextFrame + 1 })

/-- `make_child`. -/
def makeChild (s : State) (parent : FrameId) (childSf : SfId) (fiber : FiberArg) :
    Checked (FrameId × State) := do
  let (child, s) := makeFullFrame s childSf
  let s := s.modFf child fun ff => { ff with parent := some parent }
  let s := pushChild s parent child
  assert (s.ff parent).callStack.isSome "parent_ff->call_stack"
  let s := s.modFf child fun ff => { ff with
    isCallChild := decide (fiber = .null)
    fiberSelf := (s.ff parent).fiberSelf
    syncMaster := none }
  let s := s.modFf parent fun ff => { ff with fiberSelf := fiber.toOption }
  return (child, incjoin s parent)

-- ---------------------------------------------------------------------------
-- Suspending
-- ---------------------------------------------------------------------------

/-- `__cilkrts_put_stack`. -/
def putStack (s : State) (f : FrameId) (sf : SfId) : State :=
  s.modFf f fun ff => { ff with syncSp := (s.sf sf).sp + ff.syncSp }

/-- `__cilkrts_make_unrunnable_sysdep`. -/
def makeUnrunnableSysdep (s : State) (f : FrameId) (sf : SfId) (isLoot : Bool) : State :=
  let s := s.modSf sf fun frame => { frame with exceptData := none }
  if isLoot then
    let s :=
      if (s.ff f).frameSize = 0 then
        s.modFf f fun ff => { ff with frameSize := (s.sf sf).fp - (s.sf sf).sp }
      else s
    s.modSf sf fun frame => { frame with sp := 0 }
  else s

/-- `make_unrunnable`. -/
def makeUnrunnable (s : State) (f : FrameId) (sf : Option SfId) (isLoot : Bool) : State :=
  let s := s.modFf f fun ff => { ff with callStack := sf }
  match sf with
  | none => s
  | some sf =>
    let s := s.modSf sf fun frame => { frame with stolen := true, suspended := true }
    let s := s.modSf sf fun frame => { frame with worker := none }
    let s := if isLoot then putStack s f sf else s
    makeUnrunnableSysdep s f sf isLoot

-- ---------------------------------------------------------------------------
-- Unrolling
-- ---------------------------------------------------------------------------

/-- `__cilkrts_advance_frame`. -/
def advanceFrame (s : State) (sf : SfId) : Option SfId × State :=
  ((s.sf sf).callParent, s.modSf sf fun frame => { frame with callParent := none })

/-- `sf->flags & (CILK_FRAME_DETACHED|CILK_FRAME_STOLEN|CILK_FRAME_LAST)`. -/
def StackFrame.stops (frame : StackFrame) : Bool := frame.detached || frame.stolen || frame.last

/-- The first loop of `unroll_call_stack`, with so many iterations at most. -/
def reverseCallStack : Nat → State → SfId → Option SfId → Checked (SfId × State)
  | 0, _, _, _ => throw "more iterations"
  | fuel + 1, s, sf, revSf =>
    let tSf := if (s.sf sf).stops then none else (s.sf sf).callParent
    let s := s.modSf sf fun frame => { frame with callParent := revSf }
    match tSf with
    | none => return (sf, s)
    | some tSf => reverseCallStack fuel s tSf (some sf)

/-- The second loop of `unroll_call_stack`, with so many iterations at most. -/
def promoteCallStack (lootSf : SfId) : Nat → State → FrameId → SfId → Checked (FrameId × State)
  | 0, _, _, _ => throw "more iterations"
  | fuel + 1, s, ff, sf =>
    let (tSf, s) := advanceFrame s sf
    match tSf with
    | none => do
      assert (s.sf sf).callParent.isNone "!sf->call_parent"
      return (ff, s)
    | some tSf => do
      let (ff, s) ← makeChild s ff tSf .null
      let s := makeUnrunnable s ff (some tSf) (decide (tSf = lootSf))
      promoteCallStack lootSf fuel s ff tSf

/-- The leafmost frame is unsynched, unless it is a frame of the thief. -/
def flagLoot (s : State) (w : Runtime.WorkerId) (lootSf : SfId) : State :=
  if (s.sf lootSf).worker ≠ some w then
    s.modSf lootSf fun frame => { frame with unsynched := true }
  else s

/-- `unroll_call_stack`, with so many iterations of each loop at most. -/
def unrollCallStack (fuel : Nat) (s : State) (w : Runtime.WorkerId) (ff : FrameId)
    (lootSf : Option SfId) : Checked (FrameId × State) := do
  match lootSf with
  | none => throw "sf"
  | some lootSf =>
    let s := flagLoot s w lootSf
    let (sf, s) ← reverseCallStack fuel s lootSf none
    let s := makeUnrunnable s ff (some sf) (decide (sf = lootSf))
    promoteCallStack lootSf fuel s ff sf

-- ---------------------------------------------------------------------------
-- Call stacks
-- ---------------------------------------------------------------------------

/-- The call stack of `sf`: the frames older than it, from the youngest on, up to
the first frame that is marked. -/
def CallStack (s : State) : SfId → List SfId → Prop
  | sf, [] => (s.sf sf).stops = true ∨ (s.sf sf).callParent = none
  | sf, parent :: older =>
    (s.sf sf).stops = false ∧ (s.sf sf).callParent = some parent ∧ CallStack s parent older

/-- A frame has one call stack. -/
theorem CallStack.unique {s : State} {sf : SfId} {l l' : List SfId} (h : CallStack s sf l)
    (h' : CallStack s sf l') : l = l' := by
  induction l generalizing sf l' with
  | nil =>
    cases l' with
    | nil => rfl
    | cons b l' =>
      obtain ⟨hstops, hparent, -⟩ := h'
      rcases h with h | h
      · exact absurd (h.symm.trans hstops) (by decide)
      · exact nomatch h.symm.trans hparent
  | cons a l ih =>
    obtain ⟨hstops, hparent, hl⟩ := h
    cases l' with
    | nil =>
      rcases h' with h' | h'
      · exact absurd (h'.symm.trans hstops) (by decide)
      · exact nomatch h'.symm.trans hparent
    | cons b l' =>
      obtain ⟨-, hparent', hl'⟩ := h'
      obtain rfl := Option.some.inj (hparent.symm.trans hparent')
      rw [ih hl hl']

/-- The call stack of a frame further up. -/
theorem CallStack.suffix {s : State} {sf a : SfId} {p q : List SfId}
    (h : CallStack s sf (p ++ a :: q)) : CallStack s a q := by
  induction p generalizing sf with
  | nil => exact h.2.2
  | cons b p ih => exact ih h.2.2

/-- A call stack comes to an end, so no frame is on it twice. -/
theorem CallStack.nodup {s : State} {sf : SfId} {l : List SfId} (h : CallStack s sf l) :
    (sf :: l).Nodup := by
  have hself : ∀ {sf l}, CallStack s sf l → sf ∉ l := by
    intro sf l h hmem
    obtain ⟨p, q, rfl⟩ := List.append_of_mem hmem
    have hlen := congrArg List.length (h.unique h.suffix)
    rw [List.length_append, List.length_cons] at hlen
    omega
  induction l generalizing sf with
  | nil => exact List.nodup_singleton sf
  | cons a l ih => exact List.nodup_cons.mpr ⟨hself h, ih h.2.2⟩

/-- Other frames do not matter. -/
theorem CallStack.congr {s s' : State} {sf : SfId} {l : List SfId} (h : CallStack s sf l)
    (hsf : ∀ a ∈ sf :: l, (s'.sf a).stops = (s.sf a).stops ∧
      (s'.sf a).callParent = (s.sf a).callParent) : CallStack s' sf l := by
  induction l generalizing sf with
  | nil =>
    obtain ⟨hstops, hparent⟩ := hsf sf List.mem_cons_self
    rwa [CallStack, hstops, hparent]
  | cons a l ih =>
    obtain ⟨hstops, hparent⟩ := hsf sf List.mem_cons_self
    refine ⟨hstops.trans h.1, hparent.trans h.2.1, ih h.2.2 fun b hb => ?_⟩
    exact hsf b (List.mem_cons_of_mem sf hb)

-- ---------------------------------------------------------------------------
-- The first loop
-- ---------------------------------------------------------------------------

/-- The links to the parents. -/
def State.callParents (s : State) (a : SfId) : Option SfId := (s.sf a).callParent

/-- Only links to parents change, and only those of `l`. -/
structure Relinked (s s' : State) (l : List SfId) : Prop where
  ff        : s'.ff = s.ff
  nextFrame : s'.nextFrame = s.nextFrame
  sf        : ∀ a, { s'.sf a with callParent := none } = { s.sf a with callParent := none }
  others    : ∀ a, a ∉ l → s'.sf a = s.sf a

theorem Relinked.trans {s s₁ s₂ : State} {l : List SfId} {a : SfId} (h₁ : Relinked s s₁ [a])
    (h₂ : Relinked s₁ s₂ l) : Relinked s s₂ (a :: l) where
  ff := h₂.ff.trans h₁.ff
  nextFrame := h₂.nextFrame.trans h₁.nextFrame
  sf b := (h₂.sf b).trans (h₁.sf b)
  others b hb := by
    rw [List.mem_cons, not_or] at hb
    exact (h₂.others b hb.2).trans (h₁.others b fun h => hb.1 (List.mem_singleton.mp h))

/-- One frame is linked to those that are reversed already. -/
theorem relink {s : State} {done : List SfId} (hdone : Linked s.callParents done) {sf : SfId}
    (hsf : sf ∉ done) {s' : State}
    (hs' : s' = s.modSf sf fun frame => { frame with callParent := done.head? }) :
    Linked s'.callParents (sf :: done) ∧ Relinked s s' [sf] := by
  have hsf' : ∀ a, s'.sf a =
      if a = sf then { s.sf a with callParent := done.head? } else s.sf a := by
    intro a
    rw [hs', State.modSf_sf]
  constructor
  · refine (hdone.cons hsf).congr fun a _ => ?_
    rw [State.callParents, hsf', Function.update_apply]
    split <;> rfl
  · refine ⟨by rw [hs', State.modSf_ff], by rw [hs', State.modSf_nextFrame], fun a => ?_,
      fun a ha => ?_⟩
    · rw [hsf']
      split <;> rfl
    · rw [hsf', if_neg fun h => ha (List.mem_singleton.mpr h)]

/-- What is left of the call stack is put in front of what is reversed already.
The induction is on the call stack: the frame that is linked to `done` is not on
what is left of it, so that is still a call stack. -/
theorem reverseCallStack_ok {s : State} {sf : SfId} {older : List SfId}
    (h : CallStack s sf older) {fuel : Nat} (hfuel : older.length < fuel) {done : List SfId}
    (hdone : Linked s.callParents done) (hdisj : ∀ a ∈ sf :: older, a ∉ done) :
    ∃ oldest younger s', (sf :: older).reverse = oldest :: younger ∧
      reverseCallStack fuel s sf done.head? = .ok (oldest, s') ∧
      Linked s'.callParents (oldest :: (younger ++ done)) ∧ Relinked s s' (sf :: older) := by
  induction older generalizing sf s fuel done with
  | nil =>
    obtain ⟨fuel, rfl⟩ := Nat.exists_eq_succ_of_ne_zero (Nat.ne_of_gt hfuel)
    obtain ⟨hlinked, hrelinked⟩ := relink hdone (hdisj sf List.mem_cons_self) rfl
    -- the oldest frame is where the loop ends
    have hend : (if (s.sf sf).stops = true then none else (s.sf sf).callParent) = none := by
      rcases h with h | h
      · rw [if_pos h]
      · rw [h, ite_self]
    refine ⟨sf, [], _, rfl, ?_, hlinked, hrelinked⟩
    rw [reverseCallStack, hend]
    rfl
  | cons parent older ih =>
    obtain ⟨fuel, rfl⟩ := Nat.exists_eq_succ_of_ne_zero
      (Nat.ne_of_gt (Nat.zero_lt_of_lt hfuel))
    obtain ⟨hlinked, hrelinked⟩ := relink hdone (hdisj sf List.mem_cons_self) rfl
    obtain ⟨hsf, hnd⟩ := List.nodup_cons.mp h.nodup
    have hnext : (if (s.sf sf).stops = true then none else (s.sf sf).callParent) =
        some parent := by
      rw [h.1, h.2.1]
      rfl
    -- the frame that is relinked is not on the rest of the call stack
    have hchain := h.2.2.congr fun a ha => by
      have hne : a ∉ [sf] := fun hmem => hsf (List.mem_singleton.mp hmem ▸ ha)
      rw [hrelinked.others a hne]
      exact ⟨rfl, rfl⟩
    have hfuel' : older.length < fuel := Nat.lt_of_succ_lt_succ hfuel
    obtain ⟨oldest, younger, s', hrev, hrun, hlinked', hrelinked'⟩ :=
      ih hchain hfuel' hlinked fun a ha hmem => by
        rcases List.mem_cons.mp hmem with rfl | hmem
        · exact hsf ha
        · exact hdisj a (List.mem_cons_of_mem sf ha) hmem
    refine ⟨oldest, younger ++ [sf], s', ?_, ?_, ?_, hrelinked.trans hrelinked'⟩
    · rw [List.reverse_cons, hrev, List.cons_append]
    · rw [reverseCallStack, hnext]
      exact hrun
    · rwa [List.append_assoc, List.singleton_append]

-- ---------------------------------------------------------------------------
-- Promoting one frame
-- ---------------------------------------------------------------------------

/-- The frame without its link to the right, which changes when a sibling is
added. -/
def FullFrame.eraseRight (ff : FullFrame) : FullFrame := { ff with rightSibling := none }

/-- A stack frame that is suspended. -/
def StackFrame.suspend (frame : StackFrame) (isLoot : Bool) : StackFrame :=
  { frame with
    stolen := true
    suspended := true
    worker := none
    exceptData := none
    sp := if isLoot then 0 else frame.sp }

/-- The full frame `f` is suspended at `sf`. -/
structure Suspends (s s' : State) (f : FrameId) (sf : SfId) (isLoot : Bool) : Prop where
  nextFrame : s'.nextFrame = s.nextFrame
  stack     : ∀ a, s'.sf a = if a = sf then (s.sf a).suspend isLoot else s.sf a
  frame     : ∃ size, s'.ff f = { s.ff f with
    callStack := some sf
    syncSp := (if isLoot then (s.sf sf).sp else 0) + (s.ff f).syncSp
    frameSize := size }
  others    : ∀ g, g ≠ f → s'.ff g = s.ff g

/-- What the system-dependent part stores: the frame of the loot loses its stack
pointer, and the full frame may get a size. -/
theorem makeUnrunnableSysdep_spec (s : State) (f : FrameId) (sf : SfId) (isLoot : Bool) :
    (makeUnrunnableSysdep s f sf isLoot).nextFrame = s.nextFrame ∧
      (∀ a, (makeUnrunnableSysdep s f sf isLoot).sf a = if a = sf then { s.sf a with
        exceptData := none
        sp := if isLoot then 0 else (s.sf a).sp } else s.sf a) ∧
      ∃ size, (makeUnrunnableSysdep s f sf isLoot).ff =
        (s.modFf f fun ff => { ff with frameSize := size }).ff := by
  have hsame : (s.modFf f fun ff => { ff with frameSize := (s.ff f).frameSize }).ff = s.ff := by
    rw [State.modFf, Function.update_eq_self]
  cases isLoot with
  | false =>
    refine ⟨rfl, fun a => ?_, (s.ff f).frameSize, hsame.symm⟩
    simp [makeUnrunnableSysdep, State.modSf_sf]
  | true =>
    by_cases hsize : (s.ff f).frameSize = 0
    · refine ⟨?_, fun a => ?_, (s.sf sf).fp - (s.sf sf).sp, ?_⟩
      · simp [makeUnrunnableSysdep, hsize]
      · simp only [makeUnrunnableSysdep, State.modSf_ff, hsize, if_true, State.modSf_sf,
          State.modFf_sf]
        split <;> rfl
      · simp [makeUnrunnableSysdep, hsize, State.modFf, State.modSf_sf]
    · refine ⟨?_, fun a => ?_, (s.ff f).frameSize, ?_⟩
      · simp [makeUnrunnableSysdep, hsize]
      · simp only [makeUnrunnableSysdep, State.modSf_ff, hsize, if_true, if_false, State.modSf_sf]
        split <;> rfl
      · rw [hsame]
        simp [makeUnrunnableSysdep, hsize]

theorem makeUnrunnable_suspends (s : State) (f : FrameId) (sf : SfId) (isLoot : Bool) :
    Suspends s (makeUnrunnable s f (some sf) isLoot) f sf isLoot := by
  let s₁ := ((s.modFf f fun ff => { ff with callStack := some sf }).modSf sf fun frame =>
    { frame with stolen := true, suspended := true }).modSf sf fun frame =>
    { frame with worker := none }
  let s₂ := if isLoot then putStack s₁ f sf else s₁
  have hsf₁ : ∀ a, s₁.sf a = if a = sf then
      { s.sf a with stolen := true, suspended := true, worker := none } else s.sf a := by
    intro a
    simp only [s₁, State.modSf_sf, State.modFf_sf]
    split <;> rfl
  have hnext₂ : s₂.nextFrame = s.nextFrame := by
    cases isLoot <;> rfl
  have hsf₂ : s₂.sf = s₁.sf := by
    cases isLoot <;> rfl
  have hff₂ : s₂.ff = (s.modFf f fun ff => { ff with
      callStack := some sf
      syncSp := (if isLoot then (s.sf sf).sp else 0) + ff.syncSp }).ff := by
    cases isLoot with
    | false => simp [s₂, s₁, State.modFf]
    | true => simp [s₂, s₁, State.modFf, State.modSf_sf, putStack]
  obtain ⟨hnext, hsf, size, hff⟩ := makeUnrunnableSysdep_spec s₂ f sf isLoot
  refine ⟨hnext.trans hnext₂, fun a => ?_, ⟨size, ?_⟩, fun g hg => ?_⟩
  · refine (hsf a).trans ?_
    rw [hsf₂, hsf₁]
    split <;> rfl
  · refine (congrFun hff f).trans ?_
    rw [State.modFf_ff, if_pos rfl, hff₂, State.modFf_ff, if_pos rfl]
  · refine (congrFun hff g).trans ?_
    rw [State.modFf_ff, if_neg hg, hff₂, State.modFf_ff, if_neg hg]

/-- What `push_child` stores in the frames. -/
theorem pushChild_ff {s : State} {parent child : FrameId} (hne : parent ≠ child)
    (hlast : (s.ff parent).rightmostChild ≠ some child) (f : FrameId) :
    (pushChild s parent child).ff f = { s.ff f with
      leftSibling :=
        if f = child then (s.ff parent).rightmostChild else (s.ff f).leftSibling
      rightSibling :=
        if f = child then none
        else if (s.ff parent).rightmostChild = some f then some child
        else (s.ff f).rightSibling
      rightmostChild := if f = parent then some child else (s.ff f).rightmostChild } := by
  cases hr : (s.ff parent).rightmostChild with
  | none =>
    simp only [pushChild, doubleLink, hr, State.modFf_ff]
    by_cases hc : f = child
    · simp [hc, Ne.symm hne]
    · simp only [hc, if_false]
      split <;> simp
  | some r =>
    have hrc : r ≠ child := fun h => hlast (hr.trans (congrArg some h))
    simp only [pushChild, doubleLink, hr, State.modFf_ff, Option.some.injEq]
    by_cases hc : f = child
    · simp [hc, Ne.symm hne, Ne.symm hrc]
    · simp only [hc, if_false, @eq_comm _ r f]
      split <;> split <;> rfl

/-- A call child of `parent` is made for `sf`. -/
structure ChildMade (s s' : State) (parent : FrameId) (sf : SfId) : Prop where
  nextFrame : s'.nextFrame = s.nextFrame + 1
  stack     : s'.sf = s.sf
  child     : s'.ff s.nextFrame = { FullFrame.make sf with
    parent := some parent
    leftSibling := (s.ff parent).rightmostChild
    isCallChild := true
    fiberSelf := (s.ff parent).fiberSelf }
  frame     : (s'.ff parent).eraseRight = { (s.ff parent).eraseRight with
    rightmostChild := some s.nextFrame
    joinCounter := (s.ff parent).joinCounter + 1
    fiberSelf := none }
  others    : ∀ f, f ≠ s.nextFrame → f ≠ parent → (s'.ff f).eraseRight = (s.ff f).eraseRight
  right     : ∀ f, f ≠ s.nextFrame → (s'.ff f).rightSibling =
    if (s.ff parent).rightmostChild = some f then some s.nextFrame else (s.ff f).rightSibling

theorem makeChild_ok {s : State} {parent : FrameId} (sf : SfId) (hparent : parent ≠ s.nextFrame)
    (hlast : (s.ff parent).rightmostChild ≠ some s.nextFrame)
    (hstack : (s.ff parent).callStack.isSome = true) :
    ∃ s', makeChild s parent sf .null = .ok (s.nextFrame, s') ∧ ChildMade s s' parent sf := by
  let s₁ := (makeFullFrame s sf).2.modFf s.nextFrame fun ff => { ff with parent := some parent }
  let s₂ := pushChild s₁ parent s.nextFrame
  have hff₁ : ∀ f, s₁.ff f = if f = s.nextFrame then { FullFrame.make sf with
      parent := some parent } else s.ff f := by
    intro f
    simp only [s₁, makeFullFrame, State.modFf_ff, Function.update_apply]
    split <;> rfl
  have hparent₁ : s₁.ff parent = s.ff parent := by
    rw [hff₁, if_neg hparent]
  have hff₂ := pushChild_ff (s := s₁) hparent (by rwa [hparent₁])
  have hsf₂ : s₂.sf = s.sf := by
    simp only [s₂, pushChild, doubleLink, hparent₁]
    cases (s.ff parent).rightmostChild <;> rfl
  have hnext₂ : s₂.nextFrame = s.nextFrame + 1 := by
    simp only [s₂, pushChild, doubleLink, hparent₁]
    cases (s.ff parent).rightmostChild <;> rfl
  rw [hparent₁] at hff₂
  have hparent₂ : s₂.ff parent = { s.ff parent with
      rightSibling := if (s.ff parent).rightmostChild = some parent then some s.nextFrame
        else (s.ff parent).rightSibling
      rightmostChild := some s.nextFrame } := by
    refine (hff₂ parent).trans ?_
    rw [hparent₁]
    simp [hparent]
  have hchild₂ : s₂.ff s.nextFrame = { FullFrame.make sf with
      parent := some parent
      leftSibling := (s.ff parent).rightmostChild } := by
    refine (hff₂ s.nextFrame).trans ?_
    rw [hff₁, if_pos rfl]
    simp [hparent.symm, FullFrame.make]
  have hstack₂ : (s₂.ff parent).callStack.isSome = true := by
    rw [hparent₂]
    exact hstack
  -- the child takes over the fiber of its parent, which waits for one more
  let s₃ := s₂.modFf s.nextFrame fun ff => { ff with
    isCallChild := true, fiberSelf := (s₂.ff parent).fiberSelf, syncMaster := none }
  let s₄ := s₃.modFf parent fun ff => { ff with fiberSelf := none }
  have hrun : makeChild s parent sf .null = .ok (s.nextFrame, incjoin s₄ parent) := by
    show (assert (s₂.ff parent).callStack.isSome "parent_ff->call_stack" >>= fun _ =>
      pure (s.nextFrame, incjoin s₄ parent)) = _
    rw [hstack₂]
    rfl
  have hff : ∀ f, (incjoin s₄ parent).ff f =
      if f = parent then { s₂.ff f with
        fiberSelf := none, joinCounter := (s₂.ff f).joinCounter + 1 }
      else if f = s.nextFrame then { s₂.ff f with
        isCallChild := true, fiberSelf := (s₂.ff parent).fiberSelf, syncMaster := none }
      else s₂.ff f := by
    intro f
    simp only [incjoin, s₄, s₃, State.modFf_ff]
    by_cases hf : f = parent
    · simp [hf, hparent]
    · simp [hf]
  refine ⟨_, hrun, hnext₂, hsf₂, ?_, ?_, fun f hn hp => ?_, fun f hn => ?_⟩
  · rw [hff, if_neg hparent.symm, if_pos rfl, hchild₂, hparent₂]
    rfl
  · rw [hff, if_pos rfl, hparent₂]
    rfl
  · rw [hff, if_neg hp, if_neg hn]
    refine (congrArg FullFrame.eraseRight (hff₂ f)).trans ?_
    rw [hff₁, if_neg hn]
    simp [FullFrame.eraseRight, hn, hp]
  · rw [hff, if_neg hn]
    have hright : (s₂.ff f).rightSibling = if (s.ff parent).rightmostChild = some f then
        some s.nextFrame else (s.ff f).rightSibling := by
      refine (congrArg FullFrame.rightSibling (hff₂ f)).trans ?_
      rw [hff₁, if_neg hn]
      simp [hn]
    split
    · exact hright
    · exact hright

-- ---------------------------------------------------------------------------
-- Lists of children
-- ---------------------------------------------------------------------------

/-- The children of `p`, from left to right, are linked in both directions, and
`rightmost_child` is the last of them. -/
structure ChildList (s : State) (p : FrameId) (l : List FrameId) : Prop where
  linked : DoublyLinked (fun f => (s.ff f).leftSibling) (fun f => (s.ff f).rightSibling) none l
  last   : (s.ff p).rightmostChild = l.getLast?
  nodup  : l.Nodup
  child  : ∀ c ∈ l, c < s.nextFrame ∧ (s.ff c).parent = some p

theorem ChildList.congr {s s' : State} {p : FrameId} {l : List FrameId} (h : ChildList s p l)
    (hnext : s.nextFrame ≤ s'.nextFrame)
    (hlast : (s'.ff p).rightmostChild = (s.ff p).rightmostChild)
    (hleft : ∀ c ∈ l, (s'.ff c).leftSibling = (s.ff c).leftSibling)
    (hright : ∀ c ∈ l, (s'.ff c).rightSibling = (s.ff c).rightSibling)
    (hparent : ∀ c ∈ l, (s'.ff c).parent = (s.ff c).parent) : ChildList s' p l where
  linked := h.linked.congr hleft hright
  last := hlast.trans h.last
  nodup := h.nodup
  child c hc := ⟨lt_of_lt_of_le (h.child c hc).1 hnext, (hparent c hc).trans (h.child c hc).2⟩

namespace ChildMade

variable {s s' : State} {parent : FrameId} {sf : SfId}

/-- Only the links to the right of frames other than the parent change. -/
theorem eraseRight (h : ChildMade s s' parent sf) {f : FrameId} (hf : f ≠ s.nextFrame) :
    (s'.ff f).leftSibling = (s.ff f).leftSibling ∧ (s'.ff f).parent = (s.ff f).parent := by
  by_cases hp : f = parent
  · subst hp
    have hleft := congrArg FullFrame.leftSibling h.frame
    have hparent := congrArg FullFrame.parent h.frame
    exact ⟨hleft, hparent⟩
  · have hleft := congrArg FullFrame.leftSibling (h.others f hf hp)
    have hparent := congrArg FullFrame.parent (h.others f hf hp)
    exact ⟨hleft, hparent⟩

/-- The new frame is the rightmost child. -/
theorem childList (h : ChildMade s s' parent sf) {l : List FrameId} (hl : ChildList s parent l) :
    ChildList s' parent (l ++ [s.nextFrame]) := by
  have hne : ∀ c ∈ l, c ≠ s.nextFrame := fun c hc => Nat.ne_of_lt (hl.child c hc).1
  have hn : s.nextFrame ∉ l := fun hmem => hne _ hmem rfl
  refine ⟨hl.linked.push hl.nodup (fun a ha => (h.eraseRight (hne a ha)).1) ?_ ?_ ?_ ?_, ?_, ?_, ?_⟩
  · intro a ha hlast
    rw [h.right a (hne a ha), hl.last, if_neg hlast]
  · intro a ha
    have hmem : a ∈ l := List.mem_of_getLast? ha
    rw [h.right a (hne a hmem), hl.last, if_pos ha]
  · rw [h.child, ← hl.last]
    cases (s.ff parent).rightmostChild <;> rfl
  · rw [h.child]
    rfl
  · rw [List.getLast?_concat]
    exact congrArg FullFrame.rightmostChild h.frame
  · exact List.nodup_append.mpr ⟨hl.nodup, List.nodup_singleton _, fun a ha b hb hab =>
      hn (List.mem_singleton.mp hb ▸ hab ▸ ha)⟩
  · intro c hc
    rw [h.nextFrame]
    rcases List.mem_append.mp hc with hc | hc
    · obtain ⟨hlt, hparent⟩ := hl.child c hc
      exact ⟨Nat.lt_succ_of_lt hlt, ((h.eraseRight (hne c hc)).2).trans hparent⟩
    · obtain rfl := List.mem_singleton.mp hc
      refine ⟨Nat.lt_succ_self _, ?_⟩
      rw [h.child]

/-- The lists of other frames stay. -/
theorem childList_other (h : ChildMade s s' parent sf) {children : List FrameId}
    (hchildren : ChildList s parent children) {p : FrameId} (hp : p ≠ parent)
    (hn : p < s.nextFrame) {l : List FrameId} (hl : ChildList s p l) : ChildList s' p l := by
  have hne : ∀ c ∈ l, c ≠ s.nextFrame := fun c hc => Nat.ne_of_lt (hl.child c hc).1
  have hlast := congrArg FullFrame.rightmostChild (h.others p (Nat.ne_of_lt hn) hp)
  refine hl.congr (h.nextFrame ▸ Nat.le_succ _) hlast
    (fun c hc => (h.eraseRight (hne c hc)).1) (fun c hc => ?_)
    (fun c hc => (h.eraseRight (hne c hc)).2)
  rw [h.right c (hne c hc), if_neg]
  intro hlast
  rw [hchildren.last] at hlast
  have hparent := (hchildren.child c (List.mem_of_getLast? hlast)).2
  exact hp (Option.some.inj ((hl.child c hc).2.symm.trans hparent))

/-- The new frame has no children. -/
theorem childList_new (h : ChildMade s s' parent sf) : ChildList s' s.nextFrame [] where
  linked := trivial
  last := by
    rw [h.child]
    rfl
  nodup := List.nodup_nil
  child := nofun

end ChildMade

/-- Suspending a frame does not change the tree. -/
theorem Suspends.tree {s s' : State} {f : FrameId} {sf : SfId} {isLoot : Bool}
    (h : Suspends s s' f sf isLoot) (g : FrameId) :
    (s'.ff g).leftSibling = (s.ff g).leftSibling ∧
      (s'.ff g).rightSibling = (s.ff g).rightSibling ∧
      (s'.ff g).rightmostChild = (s.ff g).rightmostChild ∧
      (s'.ff g).parent = (s.ff g).parent := by
  by_cases hg : g = f
  · obtain ⟨size, hframe⟩ := h.frame
    rw [hg, hframe]
    exact ⟨rfl, rfl, rfl, rfl⟩
  · rw [h.others g hg]
    exact ⟨rfl, rfl, rfl, rfl⟩

theorem Suspends.childList {s s' : State} {f : FrameId} {sf : SfId} {isLoot : Bool}
    (h : Suspends s s' f sf isLoot) {p : FrameId} {l : List FrameId} (hl : ChildList s p l) :
    ChildList s' p l :=
  hl.congr (le_of_eq h.nextFrame.symm) (h.tree p).2.2.1 (fun c _ => (h.tree c).1) (fun c _ => (h.tree c).2.1)
    fun c _ => (h.tree c).2.2.2

-- ---------------------------------------------------------------------------
-- The second loop
-- ---------------------------------------------------------------------------

/-- The full frames of the path: `ff`, and those that are allocated after it. -/
def pathFrom (ff n : FrameId) (k : Nat) : List FrameId := ff :: List.range' n k

theorem pathFrom_succ (ff n : FrameId) (k : Nat) :
    pathFrom ff n (k + 1) = ff :: pathFrom n (n + 1) k := by
  rw [pathFrom, pathFrom, List.range'_succ]

/-- The full frame `ff`, which is suspended at `sf`, and its children have got the
`path` below them, for the frames `younger`. -/
structure Promotes (s s' : State) (lootSf : SfId) (ff : FrameId) (children : List FrameId)
    (sf : SfId) (younger : List SfId) (path : List FrameId) : Prop where
  length      : path.length = younger.length + 1
  callStack   : ∀ i (h : i < path.length), (s'.ff path[i]).callStack = (sf :: younger)[i]?
  isCallChild : ∀ i (h : i < path.length), (s'.ff path[i]).isCallChild =
    if i = 0 then (s.ff ff).isCallChild else true
  joinCounter : ∀ i (h : i < path.length), (s'.ff path[i]).joinCounter =
    (if i = 0 then (s.ff ff).joinCounter else 0) + if i + 1 < path.length then 1 else 0
  syncSp      : ∀ i (h : i < path.length), (s'.ff path[i]).syncSp =
    if i = 0 then (s.ff ff).syncSp
    else if (sf :: younger)[i]? = some lootSf then (s.sf lootSf).sp else 0
  childLists  : ∀ i (h : i < path.length),
    ChildList s' path[i] ((if i = 0 then children else []) ++ path[i + 1]?.toList)
  stack       : ∀ a, s'.sf a =
    if a = sf then { s.sf a with callParent := none }
    else if a ∈ younger then
      { (s.sf a).suspend (decide (a = lootSf)) with callParent := none }
    else s.sf a
  others      : ∀ f, f < s.nextFrame → f ≠ ff → (s'.ff f).eraseRight = (s.ff f).eraseRight
  otherLists  : ∀ p l, p < s.nextFrame → p ≠ ff → ChildList s p l → ChildList s' p l

/-- `__cilkrts_advance_frame` does not change the tree. -/
theorem ChildList.advance {s : State} {p : FrameId} {l : List FrameId} (h : ChildList s p l)
    (sf : SfId) : ChildList (advanceFrame s sf).2 p l :=
  h.congr (le_refl _) rfl (fun _ _ => rfl) (fun _ _ => rfl) fun _ _ => rfl

/-- `__cilkrts_advance_frame` of the youngest frame ends the path. -/
theorem Promotes.last {s : State} {lootSf : SfId} {ff : FrameId} {children : List FrameId}
    {sf : SfId} (hstack : (s.ff ff).callStack = some sf) (hlist : ChildList s ff children) :
    Promotes s (advanceFrame s sf).2 lootSf ff children sf [] [ff] where
  length := rfl
  callStack i h := by
    obtain rfl := Nat.lt_one_iff.mp h
    exact hstack
  isCallChild i h := by
    obtain rfl := Nat.lt_one_iff.mp h
    simp [advanceFrame]
  joinCounter i h := by
    obtain rfl := Nat.lt_one_iff.mp h
    simp [advanceFrame]
  syncSp i h := by
    obtain rfl := Nat.lt_one_iff.mp h
    simp [advanceFrame]
  childLists i h := by
    obtain rfl := Nat.lt_one_iff.mp h
    have hchildren : (if 0 = 0 then children else []) ++ ([ff][0 + 1]?).toList = children := by
      simp
    rw [hchildren]
    exact hlist.advance sf
  stack a := by
    simp [advanceFrame, State.modSf_sf]
  others f _ _ := rfl
  otherLists p l _ _ h := h.advance sf

section Push

variable {s s₁ s₂ s' : State} {lootSf : SfId} {ff : FrameId} {children : List FrameId}
  {sf t : SfId} {younger : List SfId} {path : List FrameId}

/-- The path below `ff` starts with one more call child, suspended at `t`. -/
theorem Promotes.push (hmade : ChildMade (advanceFrame s sf).2 s₁ ff t)
    (hsuspends : Suspends s₁ s₂ s.nextFrame t (decide (t = lootSf)))
    (h : Promotes s₂ s' lootSf s.nextFrame [] t younger path)
    (hpath : path[0]? = some s.nextFrame)
    (hnd : (sf :: t :: younger).Nodup) (hff : ff < s.nextFrame)
    (hstack : (s.ff ff).callStack = some sf) (hlist : ChildList s ff children) :
    Promotes s s' lootSf ff children sf (t :: younger) (ff :: path) := by
  have hnext : s₂.nextFrame = s.nextFrame + 1 := hsuspends.nextFrame.trans hmade.nextFrame
  have hlt : ∀ f, f < s.nextFrame → f < s₂.nextFrame := fun f hf =>
    hnext ▸ Nat.lt_succ_of_lt hf
  have hne : ff ≠ s.nextFrame := Nat.ne_of_lt hff
  have hsf : t ≠ sf := fun heq => (List.nodup_cons.mp hnd).1 (heq ▸ List.mem_cons_self)
  have ht : t ∉ younger := (List.nodup_cons.mp (List.nodup_cons.mp hnd).2).1
  have hsfy : sf ∉ younger := fun hmem =>
    (List.nodup_cons.mp hnd).1 (List.mem_cons_of_mem t hmem)
  have hstack₂ : ∀ a, s₂.sf a =
      if a = t then (s.sf a).suspend (decide (t = lootSf))
      else if a = sf then { s.sf a with callParent := none } else s.sf a := by
    intro a
    rw [hsuspends.stack, hmade.stack]
    simp only [advanceFrame, State.modSf_sf]
    by_cases ha : a = t
    · simp [ha, hsf]
    · simp [ha]
  -- `ff` is not on the path below, so it is as the child's creation left it
  have hparent : (s'.ff ff).eraseRight = { (s.ff ff).eraseRight with
      rightmostChild := some s.nextFrame
      joinCounter := (s.ff ff).joinCounter + 1
      fiberSelf := none } := by
    rw [h.others ff (hlt ff hff) hne, hsuspends.others ff hne]
    exact hmade.frame
  obtain ⟨size, hframe⟩ := hsuspends.frame
  -- the new full frame is a call child, and waits for nobody yet
  have hchild : (s₂.ff s.nextFrame).joinCounter = 0 ∧ (s₂.ff s.nextFrame).isCallChild = true ∧
      (s₂.ff s.nextFrame).syncSp = if t = lootSf then (s.sf t).sp else 0 := by
    have hmadeChild : s₁.ff s.nextFrame = _ := hmade.child
    have hsp : (s₁.sf t).sp = (s.sf t).sp := by
      rw [hmade.stack]
      simp [advanceFrame, State.modSf_sf, hsf]
    rw [hframe, hmadeChild, hsp]
    simp [FullFrame.make]
  refine ⟨?_, fun i hi => ?_, fun i hi => ?_, fun i hi => ?_, fun i hi => ?_, fun i hi => ?_,
    fun a => ?_, fun f hf hfp => ?_, fun p l hp hpf hl => ?_⟩
  · rw [List.length_cons, h.length, List.length_cons]
  · cases i with
    | zero =>
      have hcallStack := congrArg FullFrame.callStack hparent
      exact hcallStack.trans hstack
    | succ i => exact h.callStack i (Nat.lt_of_succ_lt_succ hi)
  · cases i with
    | zero => exact (congrArg FullFrame.isCallChild hparent :)
    | succ i =>
      rw [if_neg (Nat.succ_ne_zero i), List.getElem_cons_succ, h.isCallChild i]
      split
      · exact hchild.2.1
      · rfl
  · cases i with
    | zero =>
      have hjoin := congrArg FullFrame.joinCounter hparent
      have hpos : 0 + 1 < (ff :: path).length := by
        rw [List.length_cons, h.length]
        omega
      rw [if_pos rfl, if_pos hpos]
      exact hjoin
    | succ i =>
      rw [if_neg (Nat.succ_ne_zero i), List.getElem_cons_succ, h.joinCounter i, hchild.1, ite_self]
      simp only [List.length_cons, Nat.add_lt_add_iff_right]
  · cases i with
    | zero => exact (congrArg FullFrame.syncSp hparent :)
    | succ i =>
      rw [if_neg (Nat.succ_ne_zero i), List.getElem_cons_succ, List.getElem?_cons_succ,
        h.syncSp i]
      cases i with
      | zero =>
        rw [if_pos rfl, hchild.2.2, List.getElem?_cons_zero]
        simp only [Option.some.injEq]
        split
        · rename_i heq
          rw [heq]
        · rfl
      | succ i =>
        rw [if_neg (Nat.succ_ne_zero i), List.getElem?_cons_succ]
        split
        · rename_i hloot
          have hmem : lootSf ∈ younger := List.mem_of_getElem? hloot
          -- the stolen frame lies further down
          have hloott : lootSf ≠ t := fun heq => ht (heq ▸ hmem)
          have hlootsf : lootSf ≠ sf := fun heq => hsfy (heq ▸ hmem)
          rw [hstack₂, if_neg hloott, if_neg hlootsf]
        · rfl
  · cases i with
    | zero =>
      have hlist' := hsuspends.childList (hmade.childList (hlist.advance sf))
      have hlists := h.otherLists ff _ (hlt ff hff) hne hlist'
      rw [if_pos rfl, List.getElem?_cons_succ, hpath]
      exact hlists
    | succ i =>
      have hlists := h.childLists i (Nat.lt_of_succ_lt_succ hi)
      rw [ite_self] at hlists
      rw [if_neg (Nat.succ_ne_zero i)]
      exact hlists
  · rw [h.stack, hstack₂]
    by_cases hat : a = t
    · subst hat
      simp [hsf, StackFrame.suspend]
    · by_cases has : a = sf
      · subst has
        simp [hat, hsfy]
      · simp [hat, has]
  · have hfn : f ≠ s.nextFrame := Nat.ne_of_lt hf
    rw [h.others f (hlt f hf) hfn, hsuspends.others f hfn]
    exact hmade.others f hfn hfp
  · have hlist' := hmade.childList_other (hlist.advance sf) hpf hp (hl.advance sf)
    exact h.otherLists p l (hlt p hp) (Nat.ne_of_lt hp) (hsuspends.childList hlist')

end Push

/-- The frames below `ff` are promoted one after the other. The induction is on
what is left of the reversed list. -/
theorem promoteCallStack_ok {s : State} {ff : FrameId} {children : List FrameId} {sf : SfId}
    {younger : List SfId} (lootSf : SfId) (hlinked : Linked s.callParents (sf :: younger))
    (hnd : (sf :: younger).Nodup) {fuel : Nat} (hfuel : younger.length < fuel)
    (hff : ff < s.nextFrame) (hstack : (s.ff ff).callStack = some sf)
    (hlist : ChildList s ff children) :
    ∃ ff' s', promoteCallStack lootSf fuel s ff sf = .ok (ff', s') ∧
      (pathFrom ff s.nextFrame younger.length).getLast? = some ff' ∧
      Promotes s s' lootSf ff children sf younger
        (pathFrom ff s.nextFrame younger.length) := by
  induction younger generalizing s ff sf children fuel with
  | nil =>
    obtain ⟨fuel, rfl⟩ := Nat.exists_eq_succ_of_ne_zero (Nat.ne_of_gt hfuel)
    have hnone : (s.sf sf).callParent = none := hlinked.1
    refine ⟨ff, (advanceFrame s sf).2, ?_, rfl, .last hstack hlist⟩
    simp [promoteCallStack, advanceFrame, hnone, State.modSf_sf]
  | cons t younger ih =>
    obtain ⟨fuel, rfl⟩ := Nat.exists_eq_succ_of_ne_zero
      (Nat.ne_of_gt (Nat.zero_lt_of_lt hfuel))
    have hnext : (s.sf sf).callParent = some t := hlinked.1
    -- the frame that is made is a new one, so it is not the last child already
    have hlast : (s.ff ff).rightmostChild ≠ some s.nextFrame := by
      rw [hlist.last]
      intro hmem
      exact absurd (hlist.child _ (List.mem_of_getLast? hmem)).1 (Nat.lt_irrefl _)
    obtain ⟨s₁, hmake, hmade⟩ := makeChild_ok (s := (advanceFrame s sf).2) t (Nat.ne_of_lt hff)
      hlast (by rw [show (advanceFrame s sf).2.ff = s.ff from rfl, hstack]; rfl)
    have hsuspends := makeUnrunnable_suspends s₁ s.nextFrame t (decide (t = lootSf))
    let s₂ := makeUnrunnable s₁ s.nextFrame (some t) (decide (t = lootSf))
    have hnext₂ : s₂.nextFrame = s.nextFrame + 1 := hsuspends.nextFrame.trans hmade.nextFrame
    have hlinked₂ : Linked s₂.callParents (t :: younger) := by
      refine hlinked.2.congr fun a ha => ?_
      have hne : a ≠ sf := fun heq => (List.nodup_cons.mp hnd).1 (heq ▸ ha)
      have hsame : s₁.sf a = s.sf a := by
        rw [hmade.stack]
        simp [advanceFrame, State.modSf_sf, hne]
      rw [State.callParents, hsuspends.stack, hsame]
      split <;> rfl
    have hstack₂ : (s₂.ff s.nextFrame).callStack = some t := by
      obtain ⟨size, hframe⟩ := hsuspends.frame
      exact congrArg FullFrame.callStack hframe
    have hlist₂ : ChildList s₂ s.nextFrame [] := hsuspends.childList hmade.childList_new
    obtain ⟨ff', s', hrun, hend, hpromotes⟩ := ih hlinked₂ (List.nodup_cons.mp hnd).2
      (Nat.lt_of_succ_lt_succ hfuel) (hnext₂ ▸ Nat.lt_succ_self _) hstack₂ hlist₂
    rw [hnext₂] at hend hpromotes
    have hpath : pathFrom ff s.nextFrame (t :: younger).length =
        ff :: pathFrom s.nextFrame (s.nextFrame + 1) younger.length := pathFrom_succ ..
    refine ⟨ff', s', ?_, ?_, ?_⟩
    · have hmake' : makeChild (advanceFrame s sf).2 ff t .null = .ok (s.nextFrame, s₁) := hmake
      simp only [advanceFrame] at hmake'
      simp only [promoteCallStack, advanceFrame, hnext, hmake', ok_bind]
      exact hrun
    · rw [hpath, List.getLast?_cons, hend]
      rfl
    · rw [hpath]
      exact .push hmade hsuspends hpromotes rfl hnd hff hstack hlist

-- ---------------------------------------------------------------------------
-- Unrolling
-- ---------------------------------------------------------------------------

/-- A call stack has been unrolled: the stack frames `sfs`, from the oldest to
`lootSf`, have got the full frames `path`, the first of which is `ff` with its
children. -/
structure Unrolled (s s' : State) (lootSf : SfId) (ff : FrameId) (children : List FrameId)
    (sfs : List SfId) (path : List FrameId) : Prop where
  length      : path.length = sfs.length
  callStack   : ∀ i (h : i < path.length), (s'.ff path[i]).callStack = sfs[i]?
  callChild   : ∀ i (h : i + 1 < path.length),
    (s'.ff path[i]).rightmostChild = some path[i + 1] ∧
      (s'.ff path[i + 1]).parent = some path[i] ∧ (s'.ff path[i + 1]).isCallChild = true
  joinCounter : ∀ i (h : i < path.length), (s'.ff path[i]).joinCounter =
    (if i = 0 then (s.ff ff).joinCounter else 0) + if i + 1 < path.length then 1 else 0
  suspended   : ∀ a, a ∈ sfs → (s'.sf a).callParent = none ∧ (s'.sf a).worker = none ∧
    (s'.sf a).stolen = true ∧ (s'.sf a).suspended = true
  sp          : ∀ a, a ∈ sfs → (s'.sf a).sp = if a = lootSf then 0 else (s.sf a).sp
  syncSp      : ∀ i (h : i < path.length), (s'.ff path[i]).syncSp =
    (if i = 0 then (s.ff ff).syncSp else 0) + if i + 1 = path.length then (s.sf lootSf).sp else 0
  childLists  : ∀ i (h : i < path.length),
    ChildList s' path[i] ((if i = 0 then children else []) ++ path[i + 1]?.toList)
  otherLists  : ∀ p l, p < s.nextFrame → p ≠ ff → ChildList s p l → ChildList s' p l
  others      : ∀ f, f < s.nextFrame → f ≠ ff → (s'.ff f).eraseRight = (s.ff f).eraseRight
  otherStacks : ∀ a, a ∉ sfs → s'.sf a = s.sf a

/-- Only the last of the frames is the loot. -/
theorem getElem?_reverse_eq_loot {lootSf : SfId} {older : List SfId}
    (hnd : (lootSf :: older).Nodup) (i : Nat) :
    (lootSf :: older).reverse[i]? = some lootSf ↔ i = older.length := by
  have hloot : lootSf ∉ older := (List.nodup_cons.mp hnd).1
  rw [List.reverse_cons]
  constructor
  · intro h
    rcases Nat.lt_trichotomy i older.length with hlt | heq | hgt
    · rw [List.getElem?_append_left (by rwa [List.length_reverse])] at h
      exact absurd (List.mem_reverse.mp (List.mem_of_getElem? h)) hloot
    · exact heq
    · have hlen : (older.reverse ++ [lootSf]).length ≤ i := by
        rw [List.length_append, List.length_reverse, List.length_singleton]
        exact hgt
      rw [List.getElem?_eq_none hlen] at h
      cases h
  · rintro rfl
    rw [List.getElem?_append_right (by rw [List.length_reverse]), List.length_reverse,
      Nat.sub_self]
    rfl

/-- Nothing but the flag changes. -/
theorem flagLoot_spec (s : State) (w : Runtime.WorkerId) (lootSf : SfId) :
    (flagLoot s w lootSf).ff = s.ff ∧ (flagLoot s w lootSf).nextFrame = s.nextFrame ∧
      (∀ a, { (flagLoot s w lootSf).sf a with unsynched := true } =
        { s.sf a with unsynched := true }) ∧
      ∀ a, a ≠ lootSf → (flagLoot s w lootSf).sf a = s.sf a := by
  unfold flagLoot
  split
  · refine ⟨rfl, rfl, fun a => ?_, fun a ha => ?_⟩
    · rw [State.modSf_sf]
      split <;> rfl
    · rw [State.modSf_sf, if_neg ha]
  · exact ⟨rfl, rfl, fun _ => rfl, fun _ _ => rfl⟩

/-- `unroll_call_stack` returns the full frame of `lootSf` at the end of a path of
full frames, one for each frame of the call stack. -/
theorem unrollCallStack_spec (s : State) (w : Runtime.WorkerId) (ff : FrameId)
    (children : List FrameId) (lootSf : SfId) (older : List SfId) (hff : ff < s.nextFrame)
    (hlist : ChildList s ff children) (hchain : CallStack s lootSf older) (fuel : Nat)
    (hfuel : older.length < fuel) :
    ∃ ff' s', unrollCallStack fuel s w ff (some lootSf) = .ok (ff', s') ∧
      (pathFrom ff s.nextFrame older.length).getLast? = some ff' ∧
      Unrolled s s' lootSf ff children (lootSf :: older).reverse
        (pathFrom ff s.nextFrame older.length) := by
  obtain ⟨hff₀, hnext₀, hsf₀, hothers₀⟩ := flagLoot_spec s w lootSf
  have hchain₀ : CallStack (flagLoot s w lootSf) lootSf older := by
    refine hchain.congr fun a _ => ?_
    have hstops := congrArg StackFrame.stops (hsf₀ a)
    have hcallParent := congrArg StackFrame.callParent (hsf₀ a)
    exact ⟨hstops, hcallParent⟩
  -- the first loop
  have hdone : Linked (flagLoot s w lootSf).callParents [] := trivial
  obtain ⟨oldest, younger, s₁, hrev, hreverse, hlinked, hrelinked⟩ :=
    reverseCallStack_ok hchain₀ hfuel hdone fun _ _ => List.not_mem_nil
  rw [List.append_nil] at hlinked
  have hlen : younger.length = older.length := by
    have hlen := congrArg List.length hrev
    rwa [List.length_reverse, List.length_cons, List.length_cons, Nat.add_right_cancel_iff,
      eq_comm] at hlen
  have hnd : (oldest :: younger).Nodup := hrev ▸ List.nodup_reverse.mpr hchain.nodup
  have hff₁ : s₁.ff = s.ff := hrelinked.ff.trans hff₀
  have hnext₁ : s₁.nextFrame = s.nextFrame := hrelinked.nextFrame.trans hnext₀
  have hsp₁ : ∀ a, (s₁.sf a).sp = (s.sf a).sp := fun a =>
    (congrArg StackFrame.sp (hrelinked.sf a) :).trans (congrArg StackFrame.sp (hsf₀ a) :)
  -- the oldest frame, whose full frame is there already
  have hsuspends := makeUnrunnable_suspends s₁ ff oldest (decide (oldest = lootSf))
  let s₂ := makeUnrunnable s₁ ff (some oldest) (decide (oldest = lootSf))
  have hnext₂ : s₂.nextFrame = s.nextFrame := hsuspends.nextFrame.trans hnext₁
  have hlinked₂ : Linked s₂.callParents (oldest :: younger) := by
    refine hlinked.congr fun a _ => ?_
    rw [State.callParents, hsuspends.stack]
    split <;> rfl
  obtain ⟨size, hframe⟩ := hsuspends.frame
  have hlists₂ : ∀ p l, ChildList s p l → ChildList s₂ p l := fun p l hl =>
    hsuspends.childList (hl.congr (le_of_eq hnext₁.symm) (by rw [hff₁]) (fun _ _ => by rw [hff₁])
      (fun _ _ => by rw [hff₁]) fun _ _ => by rw [hff₁])
  -- the second loop
  obtain ⟨ff', s', hpromote, hend, hpromotes⟩ := promoteCallStack_ok lootSf hlinked₂ hnd
    (hlen ▸ hfuel) (hnext₂ ▸ hff) (congrArg FullFrame.callStack hframe) (hlists₂ ff children hlist)
  rw [hnext₂, hlen] at hend hpromotes
  refine ⟨ff', s', ?_, hend, ?_⟩
  · have hreverse' : reverseCallStack fuel (flagLoot s w lootSf) lootSf none =
        .ok (oldest, s₁) := hreverse
    simp only [unrollCallStack, hreverse', ok_bind]
    exact hpromote
  have hsuspended : ∀ a, a ∈ oldest :: younger → s'.sf a =
      { (s₁.sf a).suspend (decide (a = lootSf)) with callParent := none } := by
    intro a ha
    rw [hpromotes.stack, hsuspends.stack]
    by_cases hoa : a = oldest
    · rw [if_pos hoa, if_pos hoa, hoa]
    · have hay : a ∈ younger := (List.mem_cons.mp ha).resolve_left hoa
      rw [if_neg hoa, if_pos hay, if_neg hoa]
  have hloot : ∀ i, (oldest :: younger)[i]? = some lootSf ↔ i = older.length := fun i =>
    hrev ▸ getElem?_reverse_eq_loot hchain.nodup i
  have hlength := hpromotes.length
  rw [hrev]
  refine ⟨hlength, hpromotes.callStack, fun i hi => ?_, fun i hi => ?_, fun a ha => ?_,
    fun a ha => ?_, fun i hi => ?_, hpromotes.childLists, fun p l hp hpf hl => ?_,
    fun f hf hne => ?_, fun a ha => ?_⟩
  · have hlists := hpromotes.childLists i (Nat.lt_of_succ_lt hi)
    rw [List.getElem?_eq_getElem hi] at hlists
    have hchild := hpromotes.isCallChild (i + 1) hi
    rw [if_neg (Nat.succ_ne_zero i)] at hchild
    refine ⟨?_, (hlists.child _ (List.mem_append_right _ List.mem_cons_self)).2, hchild⟩
    rw [hlists.last, Option.toList_some, List.getLast?_concat]
  · rw [hpromotes.joinCounter i hi, hframe, hff₁]
  · rw [hsuspended a ha]
    exact ⟨rfl, rfl, rfl, rfl⟩
  · rw [hsuspended a ha]
    simp only [StackFrame.suspend, decide_eq_true_eq, hsp₁]
  · have holdest : oldest = lootSf ↔ 0 = older.length := by
      rw [← hloot 0, List.getElem?_cons_zero, Option.some.injEq]
    rw [hpromotes.syncSp i hi, hframe, hff₁, hlength, hlen]
    simp only [hloot, Nat.add_right_cancel_iff]
    by_cases hi0 : i = 0
    · rw [if_pos hi0, if_pos hi0, hi0, Int.add_comm]
      congr 1
      by_cases ho : oldest = lootSf
      · rw [if_pos (holdest.mp ho), if_pos (decide_eq_true ho), hsp₁, ho]
      · rw [if_neg (fun h => ho (holdest.mpr h)), if_neg fun h => ho (of_decide_eq_true h)]
    · rw [if_neg hi0, if_neg hi0, Int.zero_add]
      split
      · rename_i hlast
        have ho : lootSf ≠ oldest := by
          intro h
          have hzero := holdest.mp h.symm
          exact hi0 (hlast.trans hzero.symm)
        rw [hsuspends.stack, if_neg ho, hsp₁]
      · rfl
  · exact hpromotes.otherLists p l (hnext₂ ▸ hp) hpf (hlists₂ p l hl)
  · rw [hpromotes.others f (hnext₂ ▸ hf) hne, hsuspends.others f hne, hff₁]
  · rw [List.mem_cons, not_or] at ha
    have hmem : a ∉ lootSf :: older := by
      rw [← List.mem_reverse, hrev, List.mem_cons, not_or]
      exact ha
    rw [hpromotes.stack, if_neg ha.1, if_neg ha.2, hsuspends.stack, if_neg ha.1,
      hrelinked.others a hmem, hothers₀ a fun h => hmem (h ▸ List.mem_cons_self)]

/-- A frame that was spawned and has called another one, which is stolen. -/
def calledOnce : State where
  sf a := ⟨false, decide (a = 0), false, false, false, if a = 1 then some 0 else none, some 0, none,
    100 - a, 110 - a⟩
  ff _ := FullFrame.make 0
  nextFrame := 1

theorem unrollCallStack_spec_once : ∃ ff' s',
    unrollCallStack 2 calledOnce 1 0 (some 1) = .ok (ff', s') ∧ (pathFrom 0 1 1).getLast? = some ff' ∧
      Unrolled calledOnce s' 1 0 [] [0, 1] (pathFrom 0 1 1) :=
  unrollCallStack_spec calledOnce 1 0 [] 1 [0] Nat.zero_lt_one
    ⟨trivial, rfl, List.nodup_nil, nofun⟩ ⟨rfl, rfl, .inl rfl⟩ 2 (by decide)

end SwanRuntime.Unroll
