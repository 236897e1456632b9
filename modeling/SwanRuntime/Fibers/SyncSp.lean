import Mathlib.Data.BitVec
import Mathlib.Tactic.Abel

/-!
# The stack pointer of a stolen frame

While a frame is suspended, `sync_sp` is the address at which it is to go on after the
next sync; while it runs on a fiber, it is the distance from its stack pointer to that
address, and null if it has not been stolen. All arithmetic is that of 64-bit words.

A frame is suspended by a thief at a spawn, or at a sync, its stack pointer having been
saved by `setjmp` before. A thief resumes it on a new fiber; after a sync it goes on
where `sync_sp` says.

## Results

* `exec_invariant`      — what `sync_sp` comes to, running or suspended.
* `execAll_invariant`   — the same after any events.
* `syncSp_telescopes`   — where the frame goes on after a sync.
-/

namespace SwanRuntime.Fibers

abbrev Word := BitVec 64

/-- The part of a full frame and of its stack frame that knows about the stack. -/
structure StackState where
  sync_sp   : Word
  saved     : Word   -- `SP(sf)`
  sp        : Word   -- the stack pointer of the frame, while it runs
  suspended : Bool
deriving DecidableEq

-- ---------------------------------------------------------------------------
-- The code
-- ---------------------------------------------------------------------------

/-- `__cilkrts_put_stack`. -/
def putStack (ff : StackState) : StackState := { ff with sync_sp := ff.saved + ff.sync_sp }

/-- `__cilkrts_take_stack`. -/
def takeStack (ff : StackState) (sp : Word) : StackState := { ff with sync_sp := ff.sync_sp - sp }

/-- `__cilkrts_adjust_stack`. -/
def adjustStack (ff : StackState) (size : Word) : StackState :=
  { ff with sync_sp := ff.sync_sp + size }

/-- `get_sp_for_executing_sf`: 256 bytes below the base of the stack, and aligned. -/
def getSpForExecutingSf (stack_base : Word) : Word := (stack_base - 256) &&& ~~~255

/-- `sysdep_reset_jump_buffers_for_resume`, after which a thief jumps to the stack
pointer saved. -/
def resetJumpBuffersForResume (ff : StackState) (stack_base : Word) : StackState :=
  let sp := getSpForExecutingSf stack_base
  takeStack { ff with saved := sp } sp

/-- What happens to the stack of a frame. -/
inductive StackEvent
  | move (change : Word)         -- the frame pushes or pops
  | adjust (size : Word)
  | suspend                      -- at a spawn or a sync, `make_unrunnable`
  | resumeOn (stack_base : Word) -- by a thief, on a new fiber
  | resume                       -- `cilkrts_resume`

/-- One event, if the frame is running, respectively suspended. -/
def StackState.exec (ff : StackState) : StackEvent → Option StackState
  | .move change => if ff.suspended then none else some { ff with sp := ff.sp + change }
  | .adjust size => some (adjustStack ff size)
  | .suspend =>
    if ff.suspended then none
    else some { putStack { ff with saved := ff.sp } with suspended := true }
  | .resumeOn stack_base =>
    if ff.suspended then
      let ff := resetJumpBuffersForResume ff stack_base
      some { ff with sp := ff.saved, suspended := false }
    else none
  | .resume =>
    if ff.suspended then
      let sync_sp := ff.sync_sp
      some { takeStack ff sync_sp with sp := sync_sp, suspended := false }
    else none

def StackState.execAll : StackState → List StackEvent → Option StackState
  | ff, [] => some ff
  | ff, e :: events => (ff.exec e).bind fun ff => ff.execAll events

-- ---------------------------------------------------------------------------
-- The sum of the changes
-- ---------------------------------------------------------------------------

/-- The net change of the stack, or the adjustment, that an event makes. -/
def StackEvent.change : StackEvent → Word
  | .move change => change
  | .adjust size => size
  | _ => 0

def changes (events : List StackEvent) : Word := (events.map StackEvent.change).sum

/-- The address at which the frame would go on if it were synchronised now. -/
def StackState.target (ff : StackState) : Word :=
  if ff.suspended then ff.sync_sp else ff.sync_sp + ff.sp

/-- Every event adds its change to the address; the fibers do not matter. -/
theorem exec_invariant {ff ff' : StackState} {e : StackEvent} (h : ff.exec e = some ff') :
    ff'.target = ff.target + e.change := by
  rcases hs : ff.suspended with _ | _
  · cases e with
    | move change =>
      obtain rfl : { ff with sp := ff.sp + change } = ff' := by simpa [StackState.exec, hs] using h
      simp only [StackState.target, StackEvent.change, hs, Bool.false_eq_true, if_false]
      abel
    | adjust size =>
      obtain rfl := Option.some.inj h
      simp only [StackState.target, adjustStack, StackEvent.change, hs, Bool.false_eq_true,
        if_false]
      abel
    | suspend =>
      have heq : { putStack { ff with saved := ff.sp } with suspended := true } = ff' := by
        simpa [StackState.exec, hs] using h
      subst heq
      simp only [StackState.target, putStack, StackEvent.change, hs, Bool.false_eq_true, if_false,
        if_true]
      abel
    | resumeOn stack_base => simp [StackState.exec, hs] at h
    | resume => simp [StackState.exec, hs] at h
  · cases e with
    | move change => simp [StackState.exec, hs] at h
    | adjust size =>
      obtain rfl := Option.some.inj h
      simp only [StackState.target, adjustStack, StackEvent.change, hs, if_true]
    | suspend => simp [StackState.exec, hs] at h
    | resumeOn stack_base =>
      simp only [StackState.exec, hs, if_true, Option.some.injEq] at h
      subst h
      simp only [StackState.target, resetJumpBuffersForResume, takeStack, StackEvent.change, hs,
        Bool.false_eq_true, if_false, if_true]
      abel
    | resume =>
      simp only [StackState.exec, hs, if_true, Option.some.injEq] at h
      subst h
      simp only [StackState.target, takeStack, StackEvent.change, hs, Bool.false_eq_true, if_false,
        if_true]
      abel

theorem execAll_invariant {ff ff' : StackState} {events : List StackEvent}
    (h : ff.execAll events = some ff') : ff'.target = ff.target + changes events := by
  induction events generalizing ff with
  | nil =>
    obtain rfl := Option.some.inj h
    simp [changes]
  | cons e events ih =>
    obtain ⟨mid, hmid, hrest⟩ := Option.bind_eq_some_iff.mp h
    rw [ih hrest, exec_invariant hmid, changes, changes, List.map_cons, List.sum_cons]
    abel

theorem execAll_append (ff : StackState) (events events' : List StackEvent) :
    ff.execAll (events ++ events') = (ff.execAll events).bind fun ff => ff.execAll events' := by
  induction events generalizing ff with
  | nil => rfl
  | cons e events ih =>
    rcases h : ff.exec e with _ | mid
    · simp [StackState.execAll, h]
    · simp [StackState.execAll, h, ih]

/-- After a suspended sync nothing is left in `sync_sp`. -/
theorem exec_resume {ff ff' : StackState} (h : ff.exec .resume = some ff') :
    ff'.sync_sp = 0 ∧ ff'.suspended = false := by
  simp only [StackState.exec, Option.ite_none_right_eq_some, Option.some.injEq] at h
  obtain ⟨-, rfl⟩ := h
  simp [takeStack]

/--
A frame whose `sync_sp` is null is stolen, and resumed and suspended any number of times
by thieves, wherever their fibers are; when it goes on after a sync, its stack pointer is
the one it had when it was first stolen, and all changes and adjustments since, and
`sync_sp` is null again.
-/
theorem syncSp_telescopes {ff ff' : StackState} {events : List StackEvent}
    (hnull : ff.sync_sp = 0) (hrun : ff.suspended = false)
    (h : ff.execAll (.suspend :: events ++ [.resume]) = some ff') :
    ff'.sp = ff.sp + changes events ∧ ff'.sync_sp = 0 := by
  have htarget := execAll_invariant h
  rw [execAll_append] at h
  obtain ⟨mid, -, hlast⟩ := Option.bind_eq_some_iff.mp h
  obtain ⟨final, hresume, hend⟩ := Option.bind_eq_some_iff.mp hlast
  obtain rfl := Option.some.inj hend
  obtain ⟨hzero, hrunning⟩ := exec_resume hresume
  have hsum : changes (.suspend :: events ++ [.resume]) = changes events := by
    simp [changes, StackEvent.change]
  simp only [StackState.target, hzero, hrunning, hnull, hrun, hsum, Bool.false_eq_true, if_false,
    zero_add] at htarget
  exact ⟨htarget, hzero⟩

/-- The theorem at a frame that is stolen twice, and pushes 32 bytes, frees an array of 16
and pops 8 on the fibers. -/
theorem syncSp_telescopes_twice :
    ∃ ff' : StackState,
      StackState.execAll ⟨0, 0, 0x7fff0000, false⟩
        (.suspend :: [.resumeOn 0x50000000, .move (-32), .adjust 16, .suspend,
          .resumeOn 0x60000000, .move 8, .suspend] ++ [.resume]) = some ff' ∧
      ff'.sp = 0x7fff0000 + changes [.resumeOn 0x50000000, .move (-32), .adjust 16, .suspend,
          .resumeOn 0x60000000, .move 8, .suspend] ∧ ff'.sync_sp = 0 := by
  refine ⟨⟨0, 0x5fffff08, 0x7ffefff8, false⟩, by decide, ?_⟩
  exact @syncSp_telescopes ⟨0, 0, 0x7fff0000, false⟩ _ _ rfl rfl (by decide)

end SwanRuntime.Fibers
