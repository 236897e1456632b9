import SwanRuntime.Dataflow.LazyIssue
import SwanRuntime.Library.Checked

/-!
# Dataflow — entering the frame of a helper

The frame of a helper with dependences is entered through
`__cilkrts_enter_frame_df`, which can also bind the thread, or through
`__cilkrts_enter_frame_fast_df`, for a thread that has a worker. When the helper
is done, `__cilkrts_pop_frame_df` looks through the frame's `df_issue_me_ptr`
whether the helper is still to be issued, and calls the release function if not.

The frame lies on the stack and holds anything when it is entered. Each field of
the model carries a mark that says whether it has been stored to since then.
Only the fast entry stores to `df_issue_me_ptr`: the two entries leave the same
state but for that field, and the slow one has the pop follow a stale pointer.

## Results

* `enterFrameDf_eq`          — the two entries differ in `df_issue_me_ptr` only.
* `popFrameDf_slow`, `popFrameDf_fast` — the pops after the two entries.
* `enterFrame_disagree`      — what the two have in common, and what not.
-/

namespace SwanRuntime.Dataflow.EnterFrame

open Checked
open SwanRuntime.Dataflow.LazyIssue (Addr TaggedPtr null ptrTo)

-- ---------------------------------------------------------------------------
-- Frames
-- ---------------------------------------------------------------------------

/-- A field, and whether it has been stored to since the frame was allocated. -/
structure Field (α : Type) where
  value       : α
  initialised : Bool

/-- The field after a store. -/
def Field.store {α : Type} (a : α) : Field α := ⟨a, true⟩

/-- What a pointer to a `df_issue_child` field can point to: the field of a
frame, or some other place in memory. -/
inductive Place
  | dfIssueChild (a : Addr)
  | other (n : Nat)
deriving DecidableEq, Repr

/-- The fields of `__cilkrts_stack_frame` that the entries and the pop use. -/
structure StackFrame where
  flags        : Field UInt32
  callParent   : Field (Option Addr)
  worker       : Field Nat
  reserved     : Field UInt16
  argsTags     : Field Nat
  dfIssueChild : Field TaggedPtr
  dfIssueMePtr : Field (Option Place)
  numaLow      : Field UInt32
  numaHigh     : Field UInt32

/-- The frames in memory, the worker that the thread is bound to, and its
`current_stack_frame`. -/
structure Memory where
  frame   : Addr → StackFrame
  worker  : Nat
  current : Addr

def Memory.modFrame (m : Memory) (a : Addr) (f : StackFrame → StackFrame) : Memory :=
  { m with frame := Function.update m.frame a (f (m.frame a)) }

/-- Nothing has been stored to the frame. -/
def StackFrame.Fresh (f : StackFrame) : Prop :=
  f.flags.initialised = false ∧ f.callParent.initialised = false ∧
    f.worker.initialised = false ∧ f.reserved.initialised = false ∧
    f.argsTags.initialised = false ∧ f.dfIssueChild.initialised = false ∧
    f.dfIssueMePtr.initialised = false ∧ f.numaLow.initialised = false ∧
    f.numaHigh.initialised = false

-- ---------------------------------------------------------------------------
-- The entries
-- ---------------------------------------------------------------------------

/-- `CILK_FRAME_DATAFLOW`. -/
def frameDataflow : UInt32 := 0x0200

/-- `CILK_FRAME_NUMA`. -/
def frameNuma : UInt32 := 0x20000

/-- `CILK_FRAME_FLAGS_MASK`. -/
def frameFlagsMask : UInt32 := 0x00FFFFFF

/-- `enter_frame_internal`, for a thread that is bound to a worker and has a
current frame. -/
def enterFrameInternal (m : Memory) (sf : Addr) (version : UInt32) : Checked Memory := do
  let parent := m.current
  let m := m.modFrame sf fun f => { f with flags := .store (version <<< 24) }
  assert ((m.frame sf).flags.value &&& frameFlagsMask == 0)
    "(sf->flags & CILK_FRAME_FLAGS_MASK) == 0"
  let m := m.modFrame sf fun f =>
    { f with
      callParent   := .store (some parent)
      worker       := .store m.worker
      dfIssueChild := .store null }
  let m := { m with current := sf }
  let m := m.modFrame parent fun f => { f with dfIssueChild := .store null }
  return m.modFrame sf fun f =>
    { f with
      flags    := .store (f.flags.value ||| ((m.frame parent).flags.value &&& frameNuma))
      numaLow  := .store (m.frame parent).numaLow.value
      numaHigh := .store (m.frame parent).numaHigh.value }

/-- `__cilkrts_enter_frame_df`. -/
def enterFrameDf (m : Memory) (sf : Addr) : Checked Memory := do
  let parent := m.current
  let m ← enterFrameInternal m sf 1
  let m := m.modFrame sf fun f =>
    { f with
      reserved := .store 0
      flags    := .store (f.flags.value ||| frameDataflow) }
  return m.modFrame parent fun f => { f with dfIssueChild := .store (ptrTo sf) }

/-- `enter_frame_fast_internal`. -/
def enterFrameFastInternal (m : Memory) (sf : Addr) (version : UInt32) : Memory :=
  let parent := m.current
  let m := m.modFrame sf fun f =>
    { f with
      callParent := .store (some parent)
      flags      := .store ((version <<< 24) ||| ((m.frame parent).flags.value &&& frameNuma))
      worker     := .store m.worker }
  let m := { m with current := sf }
  let m := m.modFrame parent fun f => { f with dfIssueChild := .store null }
  m.modFrame sf fun f =>
    { f with
      dfIssueChild := .store null
      numaLow      := .store (m.frame parent).numaLow.value
      numaHigh     := .store (m.frame parent).numaHigh.value }

/-- `__cilkrts_enter_frame_fast_df`. -/
def enterFrameFastDf (m : Memory) (sf : Addr) : Memory :=
  let parent := m.current
  let m := enterFrameFastInternal m sf 1
  let m := m.modFrame sf fun f =>
    { f with
      reserved := .store 0
      flags    := .store (f.flags.value ||| frameDataflow) }
  let m := m.modFrame parent fun f => { f with dfIssueChild := .store (ptrTo sf) }
  m.modFrame sf fun f =>
    { f with
      dfIssueChild := .store null
      dfIssueMePtr := .store (some (.dfIssueChild parent)) }

/-- The caller stores the arguments of the task behind either entry. -/
def storeArgs (m : Memory) (sf : Addr) (args : Nat) : Memory :=
  m.modFrame sf fun f => { f with argsTags := .store args }

-- ---------------------------------------------------------------------------
-- The pop
-- ---------------------------------------------------------------------------

/-- What is found in a place, each time it is read. -/
abbrev History := Place → Nat → TaggedPtr

/-- The loop that waits until `*df_issue_me_ptr` changes, for at most `fuel`
reads; `none` while it waits. -/
def waitForIssue (h : Nat → TaggedPtr) (toIssue : TaggedPtr) : Nat → Nat → Option Unit
  | 0, _ => none
  | fuel + 1, n => if h n = toIssue then waitForIssue h toIssue fuel (n + 1) else some ()

/-- How a pop ends: the argument of `release_fn`, if it is called, and whether
all fields that were read had been stored to. -/
structure Popped where
  released    : Option Nat
  initialised : Bool
deriving DecidableEq, Repr

/-- `__cilkrts_pop_frame_df`, from the frame that the entry has left and a
history of the place that it points to. -/
def popFrameDf (fuel : Nat) (f : StackFrame) (sf : Addr) (h : History) : Option Popped :=
  let read := f.worker.initialised && f.callParent.initialised && f.dfIssueMePtr.initialised
  let release : Popped := ⟨some f.argsTags.value, read && f.argsTags.initialised⟩
  match f.dfIssueMePtr.value with
  | none => some release
  | some p =>
    let toIssue := h p 0
    if toIssue = ptrTo sf then some ⟨none, read⟩
    else if toIssue.clear1 = ptrTo sf then
      (waitForIssue (h p) toIssue fuel 1).map fun _ => release
    else some release

-- ---------------------------------------------------------------------------
-- The property
-- ---------------------------------------------------------------------------

/-- The frame as the slow entry and the caller leave it, from the memory `m`. -/
def slowFrame (m : Memory) (sf : Addr) (args : Nat) : Checked StackFrame := do
  return (storeArgs (← enterFrameDf m sf) sf args).frame sf

/-- The frame as the fast entry and the caller leave it. -/
def fastFrame (m : Memory) (sf : Addr) (args : Nat) : StackFrame :=
  (storeArgs (enterFrameFastDf m sf) sf args).frame sf

/-- The pops of two frames release in the same cases, whatever happens to the
field `df_issue_child` of the parent; `h` says what other places hold. -/
def SameRelease (f f' : StackFrame) (sf parent : Addr) (h : History) : Prop :=
  ∀ fuel (field : Nat → TaggedPtr),
    (popFrameDf fuel f sf (Function.update h (.dfIssueChild parent) field)).map Popped.released =
      (popFrameDf fuel f' sf (Function.update h (.dfIssueChild parent) field)).map Popped.released

/-- No pop of the frame reads a field that has not been stored to. -/
def ReadsInitialised (f : StackFrame) (sf : Addr) : Prop :=
  ∀ fuel h r, popFrameDf fuel f sf h = some r → r.initialised = true

/-- What the two entries should have in common. -/
def Agree (m : Memory) (sf : Addr) (args : Nat) (h : History) : Prop :=
  ∃ f, slowFrame m sf args = .ok f ∧
    SameRelease f (fastFrame m sf args) sf m.current h ∧
    ReadsInitialised f sf ∧ ReadsInitialised (fastFrame m sf args) sf

-- ---------------------------------------------------------------------------
-- The two frames
-- ---------------------------------------------------------------------------

section Frames

variable {m : Memory} {sf : Addr}

/-- The flags with which a bound thread enters a frame are only the version. -/
theorem version_flags : ((1 : UInt32) <<< 24 &&& frameFlagsMask == 0) = true := by decide

/-- The slow entry stores to all fields but one what the fast entry does. -/
theorem enterFrameDf_eq (hne : sf ≠ m.current) (args : Nat) :
    slowFrame m sf args =
      .ok { fastFrame m sf args with dfIssueMePtr := (m.frame sf).dfIssueMePtr } := by
  have hassert : (((m.modFrame sf fun f =>
      { f with flags := .store ((1 : UInt32) <<< 24) }).frame sf).flags.value &&&
        frameFlagsMask == 0) = true := by
    simpa [Memory.modFrame, Field.store] using version_flags
  unfold slowFrame enterFrameDf enterFrameInternal
  simp only [hassert, assert_true, ok_bind, pure_eq]
  congr 1
  simp [fastFrame, storeArgs, enterFrameFastDf, enterFrameFastInternal, Memory.modFrame,
    Field.store, hne, hne.symm]

/-- The fast entry points the frame to the field of its parent. -/
theorem fastFrame_dfIssueMePtr (m : Memory) (sf : Addr) (args : Nat) :
    (fastFrame m sf args).dfIssueMePtr = .store (some (.dfIssueChild m.current)) := by
  simp [fastFrame, storeArgs, enterFrameFastDf, Memory.modFrame, enterFrameFastInternal]

/-- The fast entry and the caller store to all that a pop reads. -/
theorem fastFrame_initialised (hne : sf ≠ m.current) (args : Nat) :
    (fastFrame m sf args).worker.initialised = true ∧
      (fastFrame m sf args).callParent.initialised = true ∧
      (fastFrame m sf args).dfIssueMePtr.initialised = true ∧
      (fastFrame m sf args).argsTags.initialised = true := by
  simp [fastFrame, storeArgs, enterFrameFastDf, Memory.modFrame, enterFrameFastInternal,
    Field.store, hne]

end Frames

-- ---------------------------------------------------------------------------
-- The pops
-- ---------------------------------------------------------------------------

section Pops

variable {f f' : StackFrame} {sf : Addr} {fuel : Nat} {h : History}

/-- A pop reads `worker`, `call_parent` and `df_issue_me_ptr` in any case. -/
theorem popFrameDf_initialised {r : Popped} (hpop : popFrameDf fuel f sf h = some r)
    (hr : r.initialised = true) : f.dfIssueMePtr.initialised = true := by
  unfold popFrameDf at hpop
  have hread : ∀ b, (f.worker.initialised && f.callParent.initialised &&
      f.dfIssueMePtr.initialised && b) = true → f.dfIssueMePtr.initialised = true := by
    intro b hb
    rw [Bool.and_eq_true, Bool.and_eq_true] at hb
    exact hb.1.2
  split at hpop
  · obtain rfl := Option.some.inj hpop
    exact hread _ hr
  · simp only at hpop
    split at hpop
    · obtain rfl := Option.some.inj hpop
      exact hread true (by simpa using hr)
    · split at hpop
      · obtain ⟨_, -, rfl⟩ := Option.map_eq_some_iff.mp hpop
        exact hread _ hr
      · obtain rfl := Option.some.inj hpop
        exact hread _ hr

/-- If all fields have been stored to, no other is read. -/
theorem popFrameDf_reads (hw : f.worker.initialised = true) (hp : f.callParent.initialised = true)
    (hm : f.dfIssueMePtr.initialised = true) (ha : f.argsTags.initialised = true) {r : Popped}
    (hpop : popFrameDf fuel f sf h = some r) : r.initialised = true := by
  unfold popFrameDf at hpop
  rw [hw, hp, hm, ha] at hpop
  split at hpop
  · obtain rfl := Option.some.inj hpop
    rfl
  · simp only at hpop
    split at hpop
    · obtain rfl := Option.some.inj hpop
      rfl
    · split at hpop
      · obtain ⟨_, -, rfl⟩ := Option.map_eq_some_iff.mp hpop
        rfl
      · obtain rfl := Option.some.inj hpop
        rfl

/-- Whether a pop releases depends on two values in the frame. -/
theorem popFrameDf_released (hme : f.dfIssueMePtr.value = f'.dfIssueMePtr.value)
    (hargs : f.argsTags.value = f'.argsTags.value) :
    (popFrameDf fuel f sf h).map Popped.released =
      (popFrameDf fuel f' sf h).map Popped.released := by
  unfold popFrameDf
  rw [hme]
  cases f'.dfIssueMePtr.value with
  | none => simp [hargs]
  | some p =>
    simp only
    split
    · rfl
    · split
      · cases waitForIssue (h p) (h p 0) fuel 1 <;> simp [hargs]
      · simp [hargs]

/-- A helper that finds itself in the field is not released. -/
theorem popFrameDf_cancelled {p : Place} (hme : f.dfIssueMePtr.value = some p)
    (hfound : h p 0 = ptrTo sf) :
    (popFrameDf fuel f sf h).map Popped.released = some none := by
  unfold popFrameDf
  simp [hme, hfound]

/-- A helper that finds something else is released, or waits. -/
theorem popFrameDf_not_cancelled
    (hme : ∀ p, f.dfIssueMePtr.value = some p → h p 0 ≠ ptrTo sf) :
    (popFrameDf fuel f sf h).map Popped.released ≠ some none := by
  unfold popFrameDf
  cases hp : f.dfIssueMePtr.value with
  | none => simp
  | some p =>
    simp only [if_neg (hme p hp)]
    split
    · cases waitForIssue (h p) (h p 0) fuel 1 <;> simp
    · simp

/-- The pops after the two entries release alike iff the stale pointer is the
right one by accident. -/
theorem sameRelease_iff {parent : Addr}
    (hfast : f'.dfIssueMePtr.value = some (.dfIssueChild parent))
    (hargs : f.argsTags.value = f'.argsTags.value) :
    SameRelease f f' sf parent h ↔ f.dfIssueMePtr.value = some (.dfIssueChild parent) := by
  constructor
  · intro hsame
    by_contra hstale
    by_cases hfound : ∃ p, f.dfIssueMePtr.value = some p ∧ h p 0 = ptrTo sf
    · -- the stale pointer leads to the helper by accident, the field to nothing
      obtain ⟨p, hp, hfound⟩ := hfound
      have hpne : p ≠ .dfIssueChild parent := fun he => hstale (he ▸ hp)
      have hslow : (popFrameDf 0 f sf
          (Function.update h (.dfIssueChild parent) fun _ => null)).map Popped.released =
            some none :=
        popFrameDf_cancelled hp (by rw [Function.update_of_ne hpne, hfound])
      rw [hsame 0 fun _ => null] at hslow
      refine popFrameDf_not_cancelled (fun q hq => ?_) hslow
      obtain rfl := Option.some.inj (hfast.symm.trans hq)
      rw [Function.update_self]
      exact fun he => absurd (congrArg TaggedPtr.ptr he) (by simp [null, ptrTo])
    · -- the field leads to the helper, the stale pointer does not
      have hslow := hsame 0 fun _ => ptrTo sf
      rw [popFrameDf_cancelled (f := f') hfast (by rw [Function.update_self])] at hslow
      refine popFrameDf_not_cancelled (fun q hq => ?_) hslow
      have hqne : q ≠ .dfIssueChild parent := fun he => hstale (he ▸ hq)
      rw [Function.update_of_ne hqne]
      exact fun he => hfound ⟨q, hq, he⟩
  · intro hsame fuel field
    exact popFrameDf_released (hsame.trans hfast.symm) hargs

end Pops

-- ---------------------------------------------------------------------------
-- The two entries
-- ---------------------------------------------------------------------------

/-- The pop after a slow entry always reads a field that the entry has not
stored to, so the two entries never agree. Its release function is called in the
same cases as after a fast entry iff that field holds the right pointer by
accident. -/
theorem enterFrame_disagree {m : Memory} {sf : Addr} (hne : sf ≠ m.current)
    (hfresh : (m.frame sf).Fresh) (args : Nat) (h : History) :
    ¬ Agree m sf args h ∧
      ReadsInitialised (fastFrame m sf args) sf ∧
      ∃ f, slowFrame m sf args = .ok f ∧
        (SameRelease f (fastFrame m sf args) sf m.current h ↔
          (m.frame sf).dfIssueMePtr.value = some (.dfIssueChild m.current)) := by
  obtain ⟨hw, hp, hm, ha⟩ := fastFrame_initialised hne args
  have hslow := enterFrameDf_eq hne args
  have hfast : (fastFrame m sf args).dfIssueMePtr.value = some (.dfIssueChild m.current) := by
    rw [fastFrame_dfIssueMePtr]
    rfl
  refine ⟨?_, fun fuel h r hpop => popFrameDf_reads hw hp hm ha hpop, _, hslow,
    sameRelease_iff hfast rfl⟩
  rintro ⟨f, hf, -, hreads, -⟩
  -- `df_issue_me_ptr` is not stored to by the slow entry: the memory still has it uninitialised
  obtain rfl := Except.ok.inj (hslow.symm.trans hf)
  -- any pop will do: let the parent's field hold the helper everywhere
  obtain ⟨r, hpop⟩ : ∃ r, popFrameDf 0
      { fastFrame m sf args with dfIssueMePtr := (m.frame sf).dfIssueMePtr } sf
        (fun _ _ => ptrTo sf) = some r := by
    unfold popFrameDf
    cases (m.frame sf).dfIssueMePtr.value <;> simp
  have hinit := popFrameDf_initialised hpop (hreads 0 _ r hpop)
  change (m.frame sf).dfIssueMePtr.initialised = true at hinit
  exact Bool.false_ne_true (hfresh.2.2.2.2.2.2.1.symm.trans hinit)

/-- A worker whose current frame is at address 0, and whose frames hold a stale
null pointer. -/
def staleMemory : Memory where
  frame _ :=
    { flags := ⟨0, false⟩, callParent := ⟨none, false⟩, worker := ⟨0, false⟩
      reserved := ⟨0, false⟩, argsTags := ⟨0, false⟩, dfIssueChild := ⟨null, false⟩
      dfIssueMePtr := ⟨none, false⟩, numaLow := ⟨0, false⟩, numaHigh := ⟨0, false⟩ }
  worker := 0
  current := 0

theorem staleMemory_fresh (a : Addr) : (staleMemory.frame a).Fresh :=
  ⟨rfl, rfl, rfl, rfl, rfl, rfl, rfl, rfl, rfl⟩

theorem enterFrame_disagree_staleMemory :
    ¬ Agree staleMemory 1 7 (fun _ _ => null) ∧
      ReadsInitialised (fastFrame staleMemory 1 7) 1 ∧
      ∃ f, slowFrame staleMemory 1 7 = .ok f ∧
        (SameRelease f (fastFrame staleMemory 1 7) 1 staleMemory.current (fun _ _ => null) ↔
          (staleMemory.frame 1).dfIssueMePtr.value = some (.dfIssueChild staleMemory.current)) :=
  enterFrame_disagree (by decide) (staleMemory_fresh 1) 7 _

/-- A helper that was not issued is released after a slow entry that found a null
pointer on the stack, and is not released after a fast one. -/
theorem staleMemory_not_agree :
    ¬ ∀ (m : Memory) (sf : Addr), sf ≠ m.current → (m.frame sf).Fresh →
      ∀ args h, Agree m sf args h := by
  intro hall
  obtain ⟨f, hf, hsame, -, -⟩ :=
    hall staleMemory 1 (by decide) (staleMemory_fresh 1) 7 fun _ _ => null
  have hslow : slowFrame staleMemory 1 7 = .ok _ := enterFrameDf_eq (by decide) 7
  obtain rfl := Except.ok.inj (hslow.symm.trans hf)
  exact absurd (hsame 0 fun _ => ptrTo 1) (by decide)

end SwanRuntime.Dataflow.EnterFrame
