import SwanRuntime.Runtime.Effects

/-!
# The runtime — its moves

Every step of the runtime is a sequence of *moves*, each small enough to be
written down field by field. A worker that gives up a frame first leaves it, and
then counts down or hands over the frame that waits for it: in between the join
counter of that frame is one too high, and the frame is *owed* a count.

`Move` lists the moves. `Simulation` shows that the steps consist of them, and
every invariant of the runtime is shown to be kept by each.
-/

namespace SwanRuntime.Runtime

open Reducers

variable {K : Type} {M : K → Type}

-- ---------------------------------------------------------------------------
-- Ownership
-- ---------------------------------------------------------------------------

/-- The worker owns the full frame: it runs it, or is going to. -/
def Owns (s : State M) (w : WorkerId) (f : FrameId) : Prop :=
  (s.worker w).frameFf = some f ∨ (s.worker w).nextFrameFf = some f

/-- Nobody owns the full frame. -/
def Unowned (s : State M) (f : FrameId) : Prop := ∀ w, ¬ Owns s w f

-- ---------------------------------------------------------------------------
-- Pending frames
-- ---------------------------------------------------------------------------

/-- The state after `w` has taken `pf` from the ready list of `victim`. -/
def readyState (s : State M) (w victim : WorkerId) (pf : PendingFrame) : State M :=
  { s with
    worker := fun u =>
      { s.worker u with
        team := if u = w then some pf.team else (s.worker u).team
        nextFrameFf := if u = w then some pf.frameFf else (s.worker u).nextFrameFf
        lastFullFrame :=
          if u = victim ∧ firstSteal s victim then some pf.frameFf
          else (s.worker u).lastFullFrame
        readyList :=
          if u = victim then (s.worker u).readyList.erase pf else (s.worker u).readyList }
    ff := fun g =>
      if g = pf.frameFf then
        { s.ff g with
          frame := { (s.ff g).frame with stolen := true, detached := true }
          callStack := true
          joinCounter := (s.ff g).joinCounter + 1
          fiberSelf := some s.nextFiber
          syncMaster := if firstSteal s victim then some victim else (s.ff g).syncMaster }
      else s.ff g
    nextFiber := s.nextFiber + 1
    fiberFor := fun x => if x = s.nextFiber then (s.ff pf.frameFf).parent else s.fiberFor x }

-- ---------------------------------------------------------------------------
-- Returning from a spawn
-- ---------------------------------------------------------------------------

/-- The worker changes its phase. -/
def setPhase (s : State M) (w : WorkerId) (phase : Phase M) : State M :=
  { s with
    worker := fun u => if u = w then { s.worker w with phase := phase } else s.worker u }

/-- The worker takes its map in hand, in phase `phase`. -/
def takeInHand (s : State M) (w : WorkerId) (phase : Phase M) : State M :=
  { s with
    worker := fun u =>
      if u = w then { s.worker w with reducerMap := none, phase := phase } else s.worker u }

/-- The maps around the child `d` of `p`, and those in hand, are rearranged. -/
def rearrangeSpawn (s : State M) (w : WorkerId) (p d : FrameId) (phase : Phase M)
    (left right : Option (ReducerMap M)) : State M :=
  setPhase ((s.setSlot left (leftSlotForSpawnReturn s p d)).setSlot right (.rightMap d)) w phase

/-- The fiber of the child `d` is the one that its parent `p` resumes on. -/
def isLeftHolder (s : State M) (p d : FrameId) : Bool :=
  (leftSibling (s.ff p).children d).isNone && (s.ff p).fiberChild.isNone

/-- The state after the child `d` of `p` has been unlinked. -/
def finishReturn (s : State M) (w : WorkerId) (p d : FrameId) : State M :=
  { s with
    worker := fun u =>
      if u = w then
        { s.worker w with
          fiberToFree := if isLeftHolder s p d then none else (s.ff d).fiberSelf
          phase := .spawnReturned }
      else s.worker u
    ff := fun g =>
      if g = d then { s.ff d with fiberSelf := none }
      else if g = p then
        { s.ff p with
          children := (s.ff p).children.erase d
          fiberChild := if isLeftHolder s p d then (s.ff d).fiberSelf else (s.ff p).fiberChild }
      else s.ff g }

-- ---------------------------------------------------------------------------
-- Syncing
-- ---------------------------------------------------------------------------

/-- The worker starts to sync `f`, which will continue with `rest`. -/
def beginSync (s : State M) (w : WorkerId) (f : FrameId) (rest : Code M) : State M :=
  (takeInHand s w (.syncReduction none (s.worker w).reducerMap)).modFrame f fun sf =>
    { sf with code := rest }

/-- The maps to the left of the worker's own, and those in hand, are
rearranged. -/
def rearrangeSync (s : State M) (w : WorkerId) (f : FrameId) (phase : Phase M)
    (left : Option (ReducerMap M)) : State M :=
  setPhase (s.setSlot left (leftSlotForSync s f)) w phase

/-- The frame is suspended at its sync. -/
def suspend (s : State M) (w : WorkerId) (f : FrameId) : State M :=
  { s with
    worker := fun u =>
      if u = w then
        { s.worker w with fiberToFree := (s.ff f).fiberSelf, phase := .synching }
      else s.worker u
    ff := fun g =>
      if g = f then { s.ff f with callStack := true, fiberSelf := none } else s.ff g }

-- ---------------------------------------------------------------------------
-- Leaving a frame
-- ---------------------------------------------------------------------------

/-- The worker releases the fiber that it executed on. -/
def freeFiber (s : State M) (w : WorkerId) : State M :=
  { s with
    worker := fun u => if u = w then { s.worker w with fiberToFree := none } else s.worker u
    released := fun x =>
      if (s.worker w).fiberToFree = some x then s.released x + 1 else s.released x }

/-- The worker gives up its frame and enters the scheduling loop. -/
def leaveFf (s : State M) (w : WorkerId) : State M :=
  { s with
    worker := fun u =>
      if u = w then { s.worker w with frameFf := none, phase := .scheduling } else s.worker u }

/-- The full frame loses its owner and is destroyed. -/
def dropFf (s : State M) (d : FrameId) : State M :=
  { s with
    ff := fun g =>
      if g = d then { s.ff d with joinCounter := (s.ff d).joinCounter - 1 } else s.ff g
    live := fun g => if g = d then false else s.live g }

/-- The frame that was left to wait for the worker goes on with it. -/
def takeBack (s : State M) (w : WorkerId) (f : FrameId) : State M :=
  { s with
    worker := fun u =>
      if u = w then { s.worker w with nextFrameFf := some f } else s.worker u }

-- ---------------------------------------------------------------------------
-- Returning from a call, and resuming
-- ---------------------------------------------------------------------------

/-- The worker gives up the finished frame `f`, called from its parent. -/
def leaveCall (s : State M) (w : WorkerId) (f : FrameId) : State M :=
  { s with
    worker := fun u =>
      if u = w then { s.worker w with frameFf := none, phase := .callReturning f }
      else s.worker u
    ff := fun g =>
      if g = f then
        { s.ff f with callStack := false, joinCounter := (s.ff f).joinCounter - 1 }
      else s.ff g }

/-- The map with which a worker that holds `m` resumes the frame. -/
def FullFrame.resumeMap (ff : FullFrame M) (m : Option (ReducerMap M)) :
    Option (ReducerMap M) :=
  if ff.frame.unsynched then m else ff.childrenReducerMap.or m

/-- What resuming leaves in the frame. -/
def FullFrame.resumed (ff : FullFrame M) : FullFrame M :=
  { ff with
    callStack := false
    childrenReducerMap := if ff.frame.unsynched then ff.childrenReducerMap else none }

/-- The worker resumes `f`. -/
def resumeState (s : State M) (w : WorkerId) (f : FrameId) : State M :=
  { s with
    worker := fun u =>
      if u = w then
        { s.worker w with
          frameFf := some f
          nextFrameFf := none
          stack := []
          reducerMap := (s.ff f).resumeMap (s.worker w).reducerMap
          phase := .running }
      else s.worker u
    ff := fun g => if g = f then (s.ff f).resumed else s.ff g }

/-- The worker goes on with `p`, from which the finished `d` was called. -/
def finishCall (s : State M) (w : WorkerId) (p d : FrameId) : State M :=
  { s with
    worker := fun u =>
      if u = w then
        { s.worker w with
          frameFf := some p
          stack := []
          reducerMap := (s.ff p).resumeMap (s.worker w).reducerMap
          phase := .running }
      else s.worker u
    ff := fun g =>
      if g = d then { s.ff d with fiberSelf := none }
      else if g = p then
        { (s.ff p).resumed with
          children := (s.ff p).children.erase d
          fiberSelf := (s.ff d).fiberSelf }
      else s.ff g
    live := fun g => if g = d then false else s.live g }

/-- The initial frame `f` of a user worker has returned. -/
def returnInitial (s : State M) (w : WorkerId) (f : FrameId) : State M :=
  { s with
    worker := fun u =>
      if u = w then
        { s.worker w with type := .free, frameFf := none, reducerMap := none, phase := .unbound }
      else s.worker u
    ff := fun g => if g = f then { s.ff f with fiberSelf := none } else s.ff g
    live := fun g => if g = f then false else s.live g
    released := fun x =>
      if (s.ff f).fiberSelf = some x then s.released x + 1 else s.released x }

-- ---------------------------------------------------------------------------
-- The other steps, field by field
-- ---------------------------------------------------------------------------

section Closed

theorem countDown_closed (s : State M) (f : FrameId) : countDown s f =
    { s with
      ff := fun g =>
        if g = f then { s.ff f with joinCounter := (s.ff f).joinCounter - 1 } else s.ff g } := by
  refine State.ext_of (fun _ => rfl) (fun g => ?_) (fun _ => rfl) rfl rfl rfl rfl fun _ => rfl
  by_cases hg : g = f
  · subst hg
    simp [countDown]
  · simp [countDown, hg]

/-- Leaving a spawned frame changes nothing but its counter. -/
theorem leaveSpawn_ff (s : State M) (w : WorkerId) (d g : FrameId) :
    ((dropFf (leaveFf s w) d).ff g).frame = (s.ff g).frame ∧
      ((dropFf (leaveFf s w) d).ff g).callStack = (s.ff g).callStack ∧
      ((dropFf (leaveFf s w) d).ff g).parent = (s.ff g).parent ∧
      ((dropFf (leaveFf s w) d).ff g).isCallChild = (s.ff g).isCallChild ∧
      ((dropFf (leaveFf s w) d).ff g).children = (s.ff g).children := by
  by_cases hg : g = d
  · subst hg
    simp [dropFf, leaveFf]
  · simp [dropFf, leaveFf, hg]

theorem beginSync_closed (s : State M) (w : WorkerId) (f : FrameId) (rest : Code M) :
    beginSync s w f rest =
    { s with
      worker := fun u =>
        if u = w then
          { s.worker w with
            reducerMap := none
            phase := .syncReduction none (s.worker w).reducerMap }
        else s.worker u
      ff := fun g =>
        if g = f then { s.ff f with frame := { (s.ff f).frame with code := rest } }
        else s.ff g } := by
  refine State.ext_of (fun _ => rfl) (fun g => ?_) (fun _ => rfl) rfl rfl rfl rfl fun _ => rfl
  by_cases hg : g = f
  · subst hg
    simp [beginSync, takeInHand, State.modFrame]
  · simp [beginSync, takeInHand, State.modFrame, hg]

theorem makeReady_closed (s : State M) (w : WorkerId) (pf : PendingFrame) : makeReady s w pf =
    { s with
      worker := fun u =>
        if u = w then { s.worker w with readyList := (s.worker w).readyList ++ [pf] }
        else s.worker u
      pending := s.pending.erase pf } := by
  refine State.ext_of (fun u => ?_) (fun _ => rfl) (fun _ => rfl) rfl rfl rfl rfl fun _ => rfl
  by_cases hu : u = w
  · subst hu
    simp [makeReady]
  · simp [makeReady, hu]

variable [∀ k, Monoid (M k)]

/-- The frame of a thread that has been bound. -/
def initialFrame (u : WorkerId) (code : Code M) (init : ∀ k, M k) (x : FiberId) : FullFrame M :=
  { FullFrame.make
      { code := code, unsynched := false, stolen := false, detached := false, last := true,
        entry := init, leads := true, done := 1, home := some u } false with
    fiberSelf := some x
    joinCounter := 1 }

theorem bindThread_closed (s : State M) (u : WorkerId) (code : Code M) (init : ∀ k, M k) :
    bindThread s u code init =
    { s with
      worker := fun v =>
        if v = u then
          { s.worker u with
            type := .user
            team := some u
            frameFf := some s.nextFrame
            stack := []
            reducerMap := some { leftmost := some init, elems := ∅ }
            phase := .running }
        else s.worker v
      ff := fun g => if g = s.nextFrame then initialFrame u code init s.nextFiber else s.ff g
      live := fun g => if g = s.nextFrame then true else s.live g
      nextFrame := s.nextFrame + 1
      nextFiber := s.nextFiber + 1 } := by
  refine State.ext_of (fun v => ?_) (fun g => ?_) (fun g => ?_) rfl rfl rfl rfl fun _ => rfl
  · by_cases hv : v = u
    · subst hv
      simp [bindThread, makeFullFrame]
    · simp [bindThread, makeFullFrame, hv]
  · by_cases hg : g = s.nextFrame
    · subst hg
      simp [bindThread, initialFrame, makeFullFrame]
    · simp [bindThread, makeFullFrame, hg]
  · simp [bindThread, makeFullFrame, Function.update_apply]

/-- The frame of a task that has been detached. -/
def pendingFrame (code : Code M) (parent : FrameId) : FullFrame M :=
  { FullFrame.make
      { code := code, unsynched := false, stolen := false, detached := false, last := false,
        entry := 1, leads := false, done := 1, home := none } false with
    parent := some parent }

theorem detachPending_closed (s : State M) (w : WorkerId) (f : FrameId) (code : Code M)
    (hlt : f < s.nextFrame) :
    detachPending s w f code =
    { s with
      ff := fun g =>
        if g = s.nextFrame then pendingFrame code f
        else if g = f then
          { s.ff f with
            joinCounter := (s.ff f).joinCounter + 1
            frame := { (s.ff f).frame with unsynched := true }
            children := (s.ff f).children ++ [s.nextFrame] }
        else s.ff g
      live := fun g => if g = s.nextFrame then true else s.live g
      nextFrame := s.nextFrame + 1
      pending := ⟨s.nextFrame, (s.worker w).team.getD w⟩ :: s.pending } := by
  have hne : f ≠ s.nextFrame := Nat.ne_of_lt hlt
  refine State.ext_of (fun _ => rfl) (fun g => ?_) (fun g => ?_) rfl rfl rfl rfl fun _ => rfl
  · by_cases hg : g = s.nextFrame
    · subst hg
      simp [detachPending, pendingFrame, makeFullFrame, State.modFrame, incjoin, pushChild, hne.symm]
    · by_cases hgf : g = f
      · subst hgf
        simp [detachPending, makeFullFrame, State.modFrame, incjoin, pushChild, hg]
      · simp [detachPending, makeFullFrame, State.modFrame, incjoin, pushChild, hg, hgf]
  · simp [detachPending, makeFullFrame, State.modFrame, incjoin, pushChild, Function.update_apply]

end Closed

-- ---------------------------------------------------------------------------
-- Moves
-- ---------------------------------------------------------------------------

variable [DecidableEq K] [∀ k, Monoid (M k)]

/-- A move from a state to the next, with the frame that is owed a count before
and after it. Steals are simulated only in `force_reduce` mode. -/
inductive Move (force : Bool) : Option FrameId → State M → Option FrameId → State M → Prop
  | bind {s : State M} {u : WorkerId} {code : Code M} {init : ∀ k, M k}
      (hfree : (s.worker u).type = .free) :
      Move force none s none (bindThread s u code init)
  | update {s : State M} {w : WorkerId} {sf : StackFrame M} {k : K} {x : M k} {rest : Code M}
      (h : Executing s w sf) (hcode : sf.code = .update k x rest) :
      Move force none s none ((updateReducer s w k x).modCurrent w fun sf =>
        sf.advance (Pi.mulSingle k x) rest)
  | enter {s : State M} {w : WorkerId} {sf : StackFrame M} {child rest : Code M}
      {detached : Bool} (h : Executing s w sf)
      (hcode : sf.code = if detached then .spawn child rest else .call child rest) :
      Move force none s none (pushStackFrame
        (s.modCurrent w fun sf => sf.advance child.product rest) w (enterFrame s w child detached))
  | skip {s : State M} {w : WorkerId} {sf : StackFrame M} {rest : Code M}
      (h : Executing s w sf) (hcode : sf.code = .sync rest) (hsync : sf.unsynched = false) :
      Move force none s none (s.modCurrent w fun sf => sf.advance 1 rest)
  | exit {s : State M} {w : WorkerId} {sf : StackFrame M} (h : Executing s w sf)
      (hcode : sf.code = .ret) (hstack : (s.worker w).stack ≠ []) :
      Move force none s none (s.modWorker w fun wk => { wk with stack := wk.stack.dropLast })
  | detachPending {s : State M} {w : WorkerId} {f : FrameId} {sf : StackFrame M}
      {child rest : Code M} (h : Executing s w sf) (hcode : sf.code = .pending child rest)
      (hstack : (s.worker w).stack = []) (hf : (s.worker w).frameFf = some f)
      (hsim : (s.ff f).simulatedStolen = false) :
      Move force none s none (Runtime.detachPending
        (s.modCurrent w fun sf => sf.advance child.product rest) w f child)
  | makeReady {s : State M} {w : WorkerId} {pf : PendingFrame}
      (h : (s.worker w).phase = .running) (hpf : pf ∈ s.pending) :
      Move force none s none (Runtime.makeReady s w pf)
  | promoteCall {s : State M} {victim : WorkerId} {f : FrameId} {sf : StackFrame M}
      {young : List (StackFrame M)} (hrun : (s.worker victim).phase = .running)
      (hf : (s.worker victim).frameFf = some f) (hstack : (s.worker victim).stack = sf :: young)
      (hsf : sf.detached = false) :
      Move force none s none (promoteCall s victim f sf young)
  | steal {s : State M} {w victim : WorkerId} {f : FrameId} {sf : StackFrame M}
      {young : List (StackFrame M)} (hne : w ≠ victim) (hteam : mayStealFrom s w victim)
      (htype : (s.worker w).type = .system ∨ (s.worker w).team = some w)
      (hw : (s.worker w).phase = .scheduling) (hnext : (s.worker w).nextFrameFf = none)
      (hrun : (s.worker victim).phase = .running) (hf : (s.worker victim).frameFf = some f)
      (hstack : (s.worker victim).stack = sf :: young) (hsf : sf.detached = true)
      (hsim : (s.ff f).simulatedStolen = false) :
      Move force none s none (stealState { s with nextFiber := s.nextFiber + 1 } w victim f sf young
        (.fiber s.nextFiber))
  | promote {s : State M} {w : WorkerId} {f : FrameId} {sf : StackFrame M}
      {young : List (StackFrame M)} (hrun : (s.worker w).phase = .running)
      (hf : (s.worker w).frameFf = some f) (hstack : (s.worker w).stack = sf :: young)
      (hsf : sf.detached = true) (hjoin : (s.ff f).joinCounter = 1) (hforce : force = true) :
      Move force none s none (stealState s w w f sf young .placeholder)
  | readySteal {s : State M} {w victim : WorkerId} {pf : PendingFrame}
      (hteam : w ≠ victim → mayStealFrom s w victim)
      (htype : (s.worker w).type = .system ∨ (s.worker w).team = some w)
      (hw : (s.worker w).phase = .scheduling) (hnext : (s.worker w).nextFrameFf = none)
      (hpf : pf ∈ (s.worker victim).readyList) :
      Move force none s none (readyState s w victim pf)
  | beginReturn {s : State M} {w : WorkerId} {d p : FrameId}
      (hrun : (s.worker w).phase = .running) (hstack : (s.worker w).stack = [])
      (hd : (s.worker w).frameFf = some d) (hp : (s.ff d).parent = some p)
      (hdet : (s.ff d).frame.detached = true) (hcode : (s.ff d).frame.code = .ret)
      (hsync : (s.ff d).frame.unsynched = false) :
      Move force none s none (takeInHand s w (.spawnReduction none (s.worker w).reducerMap none))
  | rearrangeSpawn {s : State M} {w : WorkerId} {d p : FrameId}
      {left middle right left' l' m' r' right' : Option (ReducerMap M)}
      (hphase : (s.worker w).phase = .spawnReduction left middle right)
      (hd : (s.worker w).frameFf = some d) (hp : (s.ff d).parent = some p)
      (hre : Rearranged
        [s.slot (leftSlotForSpawnReturn s p d), left, middle, right, (s.ff d).rightReducerMap]
        [left', l', m', r', right']) :
      Move force none s none (rearrangeSpawn s w p d (.spawnReduction l' m' r') left' right')
  | finishReturn {s : State M} {w : WorkerId} {d p : FrameId}
      (hphase : (s.worker w).phase = .spawnReduction none none none)
      (hd : (s.worker w).frameFf = some d) (hp : (s.ff d).parent = some p)
      (hright : (s.ff d).rightReducerMap = none) :
      Move force none s none (finishReturn s w p d)
  | beginSync {s : State M} {w : WorkerId} {f : FrameId} {rest : Code M}
      (hrun : (s.worker w).phase = .running) (hstack : (s.worker w).stack = [])
      (hf : (s.worker w).frameFf = some f) (hsync : (s.ff f).frame.unsynched = true)
      (hcode : (s.ff f).frame.code = .sync rest ∨ (s.ff f).frame.code = .ret ∧ rest = .ret) :
      Move force none s none (beginSync s w f rest)
  | rearrangeSync {s : State M} {w : WorkerId} {f : FrameId}
      {left middle left' l' m' : Option (ReducerMap M)}
      (hphase : (s.worker w).phase = .syncReduction left middle)
      (hf : (s.worker w).frameFf = some f)
      (hre : Rearranged [s.slot (leftSlotForSync s f), left, middle] [left', l', m']) :
      Move force none s none (rearrangeSync s w f (.syncReduction l' m') left')
  | suspend {s : State M} {w : WorkerId} {f : FrameId}
      (hphase : (s.worker w).phase = .syncReduction none none)
      (hf : (s.worker w).frameFf = some f) :
      Move force none s none (suspend s w f)
  | freeFiber {s : State M} {w : WorkerId}
      (hphase : (s.worker w).phase = .spawnReturned ∨ (s.worker w).phase = .synching) :
      Move force none s none (freeFiber s w)
  | leaveSync {s : State M} {w : WorkerId} {f : FrameId}
      (hphase : (s.worker w).phase = .synching) (hf : (s.worker w).frameFf = some f) :
      Move force none s (some f) (leaveFf s w)
  | leaveSpawn {s : State M} {w : WorkerId} {d p : FrameId}
      (hphase : (s.worker w).phase = .spawnReturned) (hd : (s.worker w).frameFf = some d)
      (hp : (s.ff d).parent = some p) :
      Move force none s (some p) (dropFf (leaveFf s w) d)
  | countDown {s : State M} {f : FrameId} (hjoin : (s.ff f).joinCounter ≠ 1) :
      Move force (some f) s none (countDown s f)
  | handOver {s : State M} {w t : WorkerId} {f : FrameId}
      (hjoin : (s.ff f).joinCounter = 1) (ht : receiver s w f = .ok t)
      (hself : (s.ff f).fiberSelf = none) :
      Move force (some f) s none (handOver s f t)
  | takeBack {s : State M} {w : WorkerId} {f : FrameId} (hnext : (s.worker w).nextFrameFf = none)
      (hjoin : (s.ff f).joinCounter = 1) (hsim : (s.ff f).simulatedStolen = true)
      (hforce : force = true) :
      Move force (some f) s none (takeBack s w f)
  | leaveCall {s : State M} {w : WorkerId} {f : FrameId}
      (hrun : (s.worker w).phase = .running) (hstack : (s.worker w).stack = [])
      (hf : (s.worker w).frameFf = some f) (hjoin : (s.ff f).joinCounter = 1)
      (hcall : (s.ff f).isCallChild = true) (hcode : (s.ff f).frame.code = .ret)
      (hsync : (s.ff f).frame.unsynched = false) :
      Move force none s none (leaveCall s w f)
  | finishCall {s : State M} {w : WorkerId} {d p : FrameId}
      (hphase : (s.worker w).phase = .callReturning d) (hp : (s.ff d).parent = some p)
      (hnext : (s.worker w).nextFrameFf = none) (hchildren : (s.ff d).children = [])
      (hlast : (s.ff p).children.getLast? = some d) (hmap : (s.ff d).childrenReducerMap = none)
      (hright : (s.ff d).rightReducerMap = none) (hfiber : (s.ff d).fiberChild = none)
      (hself : (s.ff p).fiberSelf = none)
      (hsync : (s.ff p).frame.unsynched = false → (s.ff p).childrenReducerMap.isSome →
        (s.worker w).reducerMap = none) :
      Move force none s none (finishCall s w p d)
  | resume {s : State M} {w : WorkerId} {f : FrameId}
      (hphase : (s.worker w).phase = .scheduling) (hnext : (s.worker w).nextFrameFf = some f) :
      Move force none s none (resumeState s w f)
  | returnInitial {s : State M} {w : WorkerId} {f : FrameId}
      (hrun : (s.worker w).phase = .running) (hstack : (s.worker w).stack = [])
      (hf : (s.worker w).frameFf = some f) (hlast : (s.ff f).frame.last = true)
      (hcode : (s.ff f).frame.code = .ret) (hsync : (s.ff f).frame.unsynched = false)
      (hjoin : (s.ff f).joinCounter = 1) :
      Move force none s none (returnInitial s w f)
  | loseTeam {s : State M} {w : WorkerId} (h : (s.worker w).phase = .scheduling)
      (htype : (s.worker w).type ≠ .user) (hready : (s.worker w).readyList = []) :
      Move force none s none (s.modWorker w fun wk => { wk with team := none })

end SwanRuntime.Runtime
