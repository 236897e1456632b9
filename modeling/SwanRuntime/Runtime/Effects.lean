import SwanRuntime.Runtime.Machine

/-!
# The runtime — what its functions do

Every function of the scheduler, in closed form: the assertions that can stop
it, and the state it leaves, written field by field. The invariants of the
runtime are proved against these forms and never unfold the functions.

A steal of a whole call chain is reduced to the steal of a single frame: the
promotion of the oldest frame of the chain to a full frame of its own is a step
that the victim could have made itself.

## Results

* `provablyGoodSteal_eq`   — the last one to arrive hands the frame over.
* `takeLoot_eq`            — a thief takes a single frame.
* `detachForSteal_chain`   — stealing a call chain.
* `readyListSteal_eq`      — a thief takes a pending frame.
* `setupForExecution_eq`   — a worker resumes a frame.
-/

namespace SwanRuntime.Runtime

open Reducers Checked

variable {K : Type} {M : K → Type}

/-- Two states are equal when all their components are. -/
theorem State.ext_of {s t : State M} (hworker : ∀ w, s.worker w = t.worker w)
    (hff : ∀ f, s.ff f = t.ff f) (hlive : ∀ f, s.live f = t.live f)
    (hnextFrame : s.nextFrame = t.nextFrame) (hnextFiber : s.nextFiber = t.nextFiber)
    (hpending : s.pending = t.pending) (hreleased : s.released = t.released)
    (hfiberFor : ∀ x, s.fiberFor x = t.fiberFor x) : s = t := by
  obtain ⟨worker, ff, live, nextFrame, nextFiber, pending, released, fiberFor⟩ := s
  obtain rfl : worker = t.worker := funext hworker
  obtain rfl : ff = t.ff := funext hff
  obtain rfl : live = t.live := funext hlive
  obtain rfl : fiberFor = t.fiberFor := funext hfiberFor
  subst hnextFrame hnextFiber hpending hreleased
  rfl

-- ---------------------------------------------------------------------------
-- Counting down and handing over
-- ---------------------------------------------------------------------------

/-- One of the frame's children, or its owner, has arrived at the sync. -/
def countDown (s : State M) (f : FrameId) : State M :=
  s.modFf f fun ff => { ff with joinCounter := ff.joinCounter - 1 }

theorem decjoin_eq {s : State M} {f : FrameId} (h : 0 < (s.ff f).joinCounter) :
    decjoin s f = .ok ((s.ff f).joinCounter - 1, countDown s f) := by
  simp [decjoin, h, countDown]

/-- The frame is synched, and `t` is to resume it. -/
def handOver (s : State M) (f : FrameId) (t : WorkerId) : State M :=
  { s with
    worker := fun u =>
      if u = t then
        { s.worker t with
          nextFrameFf := some f
          lastFullFrame :=
            if (s.ff f).syncMaster.isSome then none else (s.worker t).lastFullFrame }
      else s.worker u
    ff := fun g =>
      if g = f then
        { s.ff f with
          frame := { (s.ff f).frame with unsynched := false }
          joinCounter := 1
          simulatedStolen := false
          fiberSelf := (s.ff f).fiberChild
          fiberChild := none
          syncMaster := none
          stolenFrom := none }
      else s.ff g }

/-- Who resumes a synched frame: its sync master, which must be the team leader,
or else the worker that arrived last. -/
def receiver (s : State M) (w : WorkerId) (f : FrameId) : Checked WorkerId :=
  match (s.ff f).syncMaster with
  | none => do
    assert (s.worker w).nextFrameFf.isNone "!w->l->next_frame_ff"
    return w
  | some u =>
    match (s.worker w).team with
    | none => throw "w->l->team"
    | some t => do
      assert ((s.worker t).type = .user) "WORKER_USER == w->l->type"
      assert (u = t) "ff->sync_master == w"
      assert (s.worker t).nextFrameFf.isNone "!w->l->next_frame_ff"
      return t

/-- `provably_good_steal`: when the counter does not reach zero nothing else
happens, and otherwise the frame is handed over. -/
theorem provablyGoodSteal_eq {s : State M} {w : WorkerId} {f : FrameId}
    (h : 0 < (s.ff f).joinCounter) :
    provablyGoodSteal s w f =
      if (s.ff f).joinCounter = 1 then do
        assert (s.ff f).fiberSelf.isNone "NULL == ff->fiber_self"
        let t ← receiver s w f
        return handOver s f t
      else .ok (countDown s f) := by
  simp only [provablyGoodSteal, decjoin_eq h, ok_bind]
  by_cases hone : (s.ff f).joinCounter = 1
  · rw [if_pos hone, if_pos (by omega)]
    cases hself : (s.ff f).fiberSelf with
    | some x => simp [provablyGoodStealStacks, countDown, hself]
    | none =>
      simp only [provablyGoodStealStacks, countDown, hself, markSynched, receiver, modFf_ff_self,
        modFf_worker, Option.isNone_none, assert_true, ok_bind, pure_eq]
      -- without a sync master the frame goes to the worker itself
      cases hmaster : (s.ff f).syncMaster with
      | none =>
        cases hnext : (s.worker w).nextFrameFf with
        | some g => simp [pushNextFrame, hnext]
        | none =>
          simp only [pushNextFrame, hnext, incjoin, modFf_worker, Option.isNone_none,
            Option.isSome_none, Bool.false_eq_true, if_false, assert_true, ok_bind, pure_eq]
          congr 1
          refine State.ext_of (fun u => ?_) (fun g => ?_) (fun _ => rfl) rfl rfl rfl rfl
            fun _ => rfl
          · by_cases hu : u = w
            · subst hu
              simp [handOver, hmaster]
            · simp [handOver, hu]
          · by_cases hg : g = f
            · subst hg
              simp [handOver, hone, hmaster]
            · simp [handOver, hg]
      | some u =>
        cases hteam : (s.worker w).team with
        | none => simp
        | some t =>
          by_cases htype : (s.worker t).type = .user
          · by_cases hut : u = t
            · subst hut
              cases hnext : (s.worker u).nextFrameFf with
              | some g => simp [unsetSyncMaster, hmaster, htype, pushNextFrame, hnext]
              | none =>
                simp only [unsetSyncMaster, hmaster, htype, pushNextFrame, hnext, incjoin,
                  modFf_ff_self, modFf_worker, modWorker_worker_self, Option.isNone_none,
                  Option.isSome_some, decide_true, if_true, assert_true, ok_bind, pure_eq]
                congr 1
                refine State.ext_of (fun v => ?_) (fun g => ?_) (fun _ => rfl) rfl rfl rfl rfl
                  fun _ => rfl
                · by_cases hv : v = u
                  · subst hv
                    simp [handOver, hmaster]
                  · simp [handOver, hv]
                · by_cases hg : g = f
                  · subst hg
                    simp [handOver, hone]
                  · simp [handOver, hg]
            · simp [unsetSyncMaster, hmaster, htype, hut]
          · simp [unsetSyncMaster, htype]
  · rw [if_neg hone, if_neg (by omega)]
    rfl

-- ---------------------------------------------------------------------------
-- Stealing a single frame
-- ---------------------------------------------------------------------------

/-- The steal would be the first one from a user worker since its team was last
fully synched. -/
def firstSteal (s : State M) (victim : WorkerId) : Bool :=
  decide ((s.worker victim).type = .user ∧ (s.worker victim).lastFullFrame = none)

/-- What becomes of the full frame when its continuation is taken: it goes on on
`fiber`, or, when the steal is simulated, stays behind. -/
def FullFrame.looted (ff : FullFrame M) (child : FrameId) (fiber : Option FiberId)
    (master : Option WorkerId) (simulated : Bool) : FullFrame M :=
  { ff with
    frame := { ff.frame with stolen := true, unsynched := true }
    callStack := true
    joinCounter := if simulated then ff.joinCounter else ff.joinCounter + 1
    children := ff.children ++ [child]
    simulatedStolen := ff.simulatedStolen || simulated
    fiberSelf := fiber
    syncMaster := master
    stolenFrom := ff.stolenFrom.or ff.fiberSelf }

/-- The full frame made for a spawned child when its parent is stolen. -/
def FullFrame.spawned (sf : StackFrame M) (parent : FrameId) (fiber : Option FiberId) :
    FullFrame M :=
  { FullFrame.make sf false with parent := some parent, fiberSelf := fiber, joinCounter := 1 }

/-- What becomes of the victim: it goes on with the child. -/
def Worker.robbed (wk : Worker M) (loot child : FrameId) (young : List (StackFrame M))
    (first : Bool) : Worker M :=
  { wk with
    frameFf := some child
    stack := young
    lastFullFrame := if first then some loot else wk.lastFullFrame }

/-- The state after `w` has taken the continuation of the full frame `f` from
`victim`, whose oldest stack frame is the spawned `sf`. -/
def stealState (s : State M) (w victim : WorkerId) (f : FrameId) (sf : StackFrame M)
    (young : List (StackFrame M)) (fiber : FiberArg) : State M :=
  { s with
    worker := fun u =>
      if u = victim then (s.worker victim).robbed f s.nextFrame young (firstSteal s victim)
      else if u = w then
        { s.worker w with team := (s.worker victim).team, nextFrameFf := some f }
      else s.worker u
    ff := fun g =>
      if g = s.nextFrame then FullFrame.spawned sf f (s.ff f).fiberSelf
      else if g = f then
        (s.ff f).looted s.nextFrame fiber.toOption
          (if firstSteal s victim then some victim else (s.ff f).syncMaster) (w = victim)
      else s.ff g
    live := fun g => if g = s.nextFrame then true else s.live g
    nextFrame := s.nextFrame + 1
    fiberFor := fun y => if fiber = .fiber y then some f else s.fiberFor y }

/-- The state in which the victim's call stack is unrolled: the thief has joined
the team, and `f` is no longer referenced by the victim. What the victim's own
fields hold does not matter, since they are about to change. -/
def releaseLoot (s : State M) (w victim : WorkerId) (f : FrameId) (a : Option FrameId)
    (l : List (StackFrame M)) : State M :=
  { s with
    worker := fun u =>
      if u = victim then { s.worker victim with frameFf := a, stack := l }
      else if u = w then { s.worker w with team := (s.worker victim).team }
      else s.worker u
    ff := fun g =>
      if g = f then { s.ff f with joinCounter := (s.ff f).joinCounter - 1 } else s.ff g }

/-- The state in which the loot is taken. -/
def suspendLoot (s : State M) (w victim : WorkerId) (f : FrameId) (a : Option FrameId)
    (l : List (StackFrame M)) : State M :=
  { releaseLoot s w victim f a l with
    ff := fun g =>
      if g = f then
        { s.ff f with
          frame := { (s.ff f).frame with stolen := true }
          callStack := true
          joinCounter := (s.ff f).joinCounter - 1 }
      else s.ff g }

section Loot

variable {s : State M} {w victim : WorkerId} {f : FrameId} {sf : StackFrame M}
  {young l : List (StackFrame M)} {a : Option FrameId}

/-- A thief takes the loot. -/
theorem takeLoot_eq {x : FiberId} (hne : w ≠ victim) (hjoin : 0 < (s.ff f).joinCounter)
    (hlt : f < s.nextFrame) :
    takeLoot (suspendLoot s w victim f a l) w victim f sf young (.fiber x) = do
      assert (s.worker w).nextFrameFf.isNone "!w->l->next_frame_ff"
      return stealState s w victim f sf young (.fiber x) := by
  have hff : f ≠ s.nextFrame := Nat.ne_of_lt hlt
  cases hnext : (s.worker w).nextFrameFf with
  | some g =>
    by_cases hfirst : (s.worker victim).type = .user ∧ (s.worker victim).lastFullFrame = none
    all_goals
      simp [takeLoot, suspendLoot, releaseLoot, State.modFrame, hne, hfirst, setSyncMaster,
        pushNextFrame, hnext]
  | none =>
    by_cases hfirst : (s.worker victim).type = .user ∧ (s.worker victim).lastFullFrame = none
    all_goals
      simp only [takeLoot, suspendLoot, releaseLoot, State.modFrame, modFf_worker, hne.symm, hfirst, and_self,
        if_true, if_false, hne, setSyncMaster, pushNextFrame, modWorker_worker_ne _ _ hne, hnext,
        Option.isNone_none, assert_true, ok_bind, pure_eq, noteSteal, makeChild, makeFullFrame,
        pushChild, incjoin, makeRunnable, modFf_ff, modWorker_ff, modFf_nextFrame,
        modWorker_nextFrame, Function.update_self, Function.update_of_ne hff]
      congr 1
      refine State.ext_of (fun u => ?_) (fun g => ?_) (fun g => ?_) rfl rfl rfl rfl
        fun y => ?_
      · -- the workers, the full frames, the call stacks and the fibers
        by_cases hu : u = victim
        · subst hu
          simp [stealState, Worker.robbed, firstSteal, hfirst, hne.symm]
        · by_cases huw : u = w
          · subst huw
            simp [stealState, hu]
          · simp [stealState, hu, huw]
      · by_cases hg : g = s.nextFrame
        · subst hg
          simp [stealState, FullFrame.spawned, hff.symm, FullFrame.make]
        · by_cases hgf : g = f
          · subst hgf
            simp [stealState, FullFrame.looted, hg, firstSteal, hfirst, FiberArg.toOption, hne]
            omega
          · simp [stealState, hg, hgf]
      · simp [stealState, Function.update_apply]
      · by_cases hy : y = x
        · subst hy
          simp [stealState]
        · simp [stealState, hy, Ne.symm hy]

end Loot

/-- The state after a full frame has been suspended and the oldest stack frame
of its owner, called from it, promoted to a full frame that the owner goes on
with. -/
def promoteCall (s : State M) (victim : WorkerId) (f : FrameId) (sf : StackFrame M)
    (young : List (StackFrame M)) : State M :=
  { s with
    worker := fun u =>
      if u = victim then { s.worker victim with frameFf := some s.nextFrame, stack := young }
      else s.worker u
    ff := fun g =>
      if g = s.nextFrame then
        { FullFrame.spawned sf f (s.ff f).fiberSelf with isCallChild := true }
      else if g = f then
        { s.ff f with
          frame := { (s.ff f).frame with stolen := true }
          callStack := true
          children := (s.ff f).children ++ [s.nextFrame]
          fiberSelf := none }
      else s.ff g
    live := fun g => if g = s.nextFrame then true else s.live g
    nextFrame := s.nextFrame + 1 }

/-- The same for a whole call chain, oldest frame first. Also returns the full
frame of the youngest. -/
def promoteChain (s : State M) (victim : WorkerId) : FrameId → List (StackFrame M) →
    List (StackFrame M) → State M × FrameId
  | f, [], _ => (s, f)
  | f, sf :: chain, young =>
    promoteChain (promoteCall s victim f sf (chain ++ young)) victim s.nextFrame chain young

/-- Unrolling a chain, one frame. -/
def unrolled (s : State M) (f : FrameId) (sf : StackFrame M) : State M :=
  { s with
    ff := fun g =>
      if g = s.nextFrame then
        { FullFrame.make sf true with
          parent := some f
          isCallChild := true
          fiberSelf := (s.ff f).fiberSelf }
      else if g = f then
        { s.ff f with
          frame := { (s.ff f).frame with stolen := true }
          callStack := true
          joinCounter := (s.ff f).joinCounter + 1
          children := (s.ff f).children ++ [s.nextFrame]
          fiberSelf := none }
      else s.ff g
    live := fun g => if g = s.nextFrame then true else s.live g
    nextFrame := s.nextFrame + 1 }

theorem unrollCallStack_cons {s : State M} {f : FrameId} (hlt : f < s.nextFrame)
    (sf : StackFrame M) (chain : List (StackFrame M)) :
    unrollCallStack s f (sf :: chain) = unrollCallStack (unrolled s f sf) s.nextFrame chain := by
  have hff : f ≠ s.nextFrame := Nat.ne_of_lt hlt
  simp only [unrollCallStack, makeChild, makeUnrunnable, makeFullFrame, pushChild, incjoin,
    modFf_ff, modFf_nextFrame, modFf_live, Function.update_self, Function.update_of_ne hff,
    assert_true, ok_bind, pure_eq]
  congr 1
  refine State.ext_of (fun u => rfl) (fun g => ?_) (fun g => ?_) rfl rfl rfl rfl fun _ => rfl
  · by_cases hg : g = s.nextFrame
    · subst hg
      simp [unrolled, FullFrame.make, hff.symm]
    · by_cases hgf : g = f
      · subst hgf
        simp [unrolled, hg, FiberArg.toOption]
      · simp [unrolled, hg, hgf]
  · simp [unrolled, Function.update_apply]

/-- Unrolling starts by making the frame unrunnable. -/
theorem unrollCallStack_makeUnrunnable (s : State M) (f : FrameId)
    (chain : List (StackFrame M)) :
    unrollCallStack (makeUnrunnable s f) f chain = unrollCallStack s f chain := by
  have hidem : makeUnrunnable (makeUnrunnable s f) f = makeUnrunnable s f := by
    simp [makeUnrunnable, State.modFf]
  cases chain with
  | nil => simp [unrollCallStack, hidem]
  | cons sf chain => simp [unrollCallStack, hidem]

/-- Promoting a call is what unrolling does, up to the suspension of the new
frame. -/
theorem makeUnrunnable_unrolled {s : State M} {w victim : WorkerId} {f : FrameId}
    {sf : StackFrame M} {young l : List (StackFrame M)} {a : Option FrameId}
    (hlt : f < s.nextFrame) (hjoin : 0 < (s.ff f).joinCounter) :
    makeUnrunnable (unrolled (releaseLoot s w victim f a l) f sf) s.nextFrame =
      makeUnrunnable (releaseLoot (promoteCall s victim f sf young) w victim s.nextFrame a l)
        s.nextFrame := by
  have hff : f ≠ s.nextFrame := Nat.ne_of_lt hlt
  refine State.ext_of (fun u => ?_) (fun g => ?_) (fun _ => rfl) rfl rfl rfl rfl fun _ => rfl
  · by_cases hu : u = victim
    · subst hu
      simp [makeUnrunnable, unrolled, releaseLoot, promoteCall]
    · by_cases huw : u = w
      · subst huw
        simp [makeUnrunnable, unrolled, releaseLoot, promoteCall, hu]
      · simp [makeUnrunnable, unrolled, releaseLoot, promoteCall, hu, huw]
  · by_cases hg : g = s.nextFrame
    · subst hg
      simp [makeUnrunnable, unrolled, releaseLoot, promoteCall, FullFrame.spawned,
        FullFrame.make]
    · by_cases hgf : g = f
      · subst hgf
        simp [makeUnrunnable, unrolled, releaseLoot, promoteCall, State.modFf, hg]
        omega
      · simp [makeUnrunnable, unrolled, releaseLoot, promoteCall, State.modFf, hg, hgf]

/-- Unrolling a chain suspends what its promotion leaves to the victim. -/
theorem unrollCallStack_eq {s : State M} {w victim : WorkerId} {f : FrameId}
    {l : List (StackFrame M)} {a : Option FrameId} (chain young : List (StackFrame M))
    (hlt : f < s.nextFrame) (hjoin : 0 < (s.ff f).joinCounter) :
    unrollCallStack (releaseLoot s w victim f a l) f chain =
      .ok ((promoteChain s victim f chain young).2,
        suspendLoot (promoteChain s victim f chain young).1 w victim
          (promoteChain s victim f chain young).2 a l) := by
  induction chain generalizing s f with
  | nil =>
    simp only [unrollCallStack, promoteChain, pure_eq]
    congr 2
    refine State.ext_of (fun _ => rfl) (fun g => ?_) (fun _ => rfl) rfl rfl rfl rfl fun _ => rfl
    by_cases hg : g = f
    · subst hg
      simp [makeUnrunnable, releaseLoot, suspendLoot]
    · simp [makeUnrunnable, releaseLoot, suspendLoot, State.modFf, hg]
  | cons sf chain ih =>
    have hnew : 0 < ((promoteCall s victim f sf (chain ++ young)).ff s.nextFrame).joinCounter := by
      simp [promoteCall, FullFrame.spawned]
    calc unrollCallStack (releaseLoot s w victim f a l) f (sf :: chain)
        = unrollCallStack (unrolled (releaseLoot s w victim f a l) f sf) s.nextFrame chain :=
          unrollCallStack_cons (s := releaseLoot s w victim f a l) hlt sf chain
      _ = unrollCallStack (makeUnrunnable (unrolled (releaseLoot s w victim f a l) f sf)
            s.nextFrame) s.nextFrame chain := (unrollCallStack_makeUnrunnable ..).symm
      _ = unrollCallStack (makeUnrunnable (releaseLoot (promoteCall s victim f sf
            (chain ++ young)) w victim s.nextFrame a l) s.nextFrame) s.nextFrame chain := by
          rw [makeUnrunnable_unrolled hlt hjoin]
      _ = unrollCallStack (releaseLoot (promoteCall s victim f sf (chain ++ young)) w victim
            s.nextFrame a l) s.nextFrame chain := unrollCallStack_makeUnrunnable ..
      _ = _ := ih (Nat.lt_succ_self _) hnew

/-- The last frame of a promoted chain can be taken. -/
theorem promoteChain_spec (s : State M) (victim : WorkerId) (f : FrameId)
    (chain young : List (StackFrame M)) (hlt : f < s.nextFrame)
    (hjoin : 0 < (s.ff f).joinCounter) :
    (promoteChain s victim f chain young).2 < (promoteChain s victim f chain young).1.nextFrame ∧
      0 < ((promoteChain s victim f chain young).1.ff
        (promoteChain s victim f chain young).2).joinCounter ∧
      ∀ u ≠ victim, (promoteChain s victim f chain young).1.worker u = s.worker u := by
  induction chain generalizing s f with
  | nil => exact ⟨hlt, hjoin, fun _ _ => rfl⟩
  | cons sf chain ih =>
    obtain ⟨h₁, h₂, h₃⟩ := ih (promoteCall s victim f sf (chain ++ young)) s.nextFrame
      (Nat.lt_succ_self _) (by simp [promoteCall, FullFrame.spawned])
    exact ⟨h₁, h₂, fun u hu => by rw [promoteChain, h₃ u hu]; simp [promoteCall, hu]⟩

/-- The chain of frames that a steal unrolls, and what stays with the victim. -/
theorem takeWhile_dropWhile {chain : List (StackFrame M)} {sf : StackFrame M}
    (young : List (StackFrame M)) (hchain : ∀ c ∈ chain, c.detached = false) (hsf : sf.detached = true) :
    (chain ++ sf :: young).takeWhile (!·.detached) = chain ∧
      (chain ++ sf :: young).dropWhile (!·.detached) = sf :: young := by
  induction chain with
  | nil => simp [hsf]
  | cons c chain ih =>
    obtain ⟨h₁, h₂⟩ := ih fun c hc => hchain c (List.mem_cons_of_mem _ hc)
    have hc : c.detached = false := hchain c List.mem_cons_self
    simp [hc, h₁, h₂]

/-- `detach_for_steal` by a thief: first the call chain is promoted, then its
last frame is taken. -/
theorem detachForSteal_eq {s : State M} {w victim : WorkerId} {f : FrameId}
    {chain young : List (StackFrame M)} {sf : StackFrame M} {x : FiberId} (hne : w ≠ victim)
    (hidle : (s.worker w).frameFf = none) (hf : (s.worker victim).frameFf = some f)
    (hstack : (s.worker victim).stack = chain ++ sf :: young)
    (hchain : ∀ c ∈ chain, c.detached = false) (hsf : sf.detached = true)
    (hlt : f < s.nextFrame) (hjoin : 0 < (s.ff f).joinCounter) :
    detachForSteal s w victim (.fiber x) = do
      assert (s.worker w).nextFrameFf.isNone "!w->l->next_frame_ff"
      let (s', loot) := promoteChain s victim f chain (sf :: young)
      return stealState s' w victim loot sf young (.fiber x) := by
  obtain ⟨htake, hdrop⟩ := takeWhile_dropWhile young hchain hsf
  obtain ⟨hlt', hjoin', hworker⟩ := promoteChain_spec s victim f chain (sf :: young) hlt hjoin
  have hstate : countDown (s.modWorker w fun wk => { wk with team := (s.worker victim).team }) f =
      releaseLoot s w victim f (some f) (chain ++ sf :: young) := by
    refine State.ext_of (fun u => ?_) (fun g => ?_) (fun _ => rfl) rfl rfl rfl rfl fun _ => rfl
    · by_cases hu : u = victim
      · subst hu
        simp [countDown, releaseLoot, hne.symm, ← hf, ← hstack]
      · simp [countDown, releaseLoot, hu, State.modWorker, Function.update_apply]
    · simp [countDown, releaseLoot, State.modFf, Function.update_apply]
  simp only [detachForSteal, modWorker_worker_self, hidle, modWorker_worker_ne _ _ hne.symm, hf,
    hstack, htake, hdrop, Option.isNone_none, Bool.true_or, assert_true, ok_bind]
  rw [decjoin_eq (by exact hjoin)]
  simp only [ok_bind, hstate, unrollCallStack_eq chain (sf :: young) hlt hjoin,
    takeLoot_eq hne hjoin' hlt', hworker w hne]

end SwanRuntime.Runtime
