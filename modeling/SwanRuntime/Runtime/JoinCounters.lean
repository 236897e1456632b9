import SwanRuntime.Runtime.Steps
import SwanRuntime.Runtime.TeamDiscipline

/-!
# The runtime — join counters at work

With `force_reduce` off, the counter of a frame is the number of its children plus one
for its owner, so `decjoin` never fails, and a frame that is suspended at a sync has a
child that has not finished. It stays as it is until the last of them finishes, or the
worker that has suspended it leaves it after that. This step gives it to one worker,
and that worker resumes it.

## Results

* `Step.avoids`     — the assertion of `decjoin` does not fail.
* `Awaited.move`    — a frame that is suspended has a count.
* `AtSync.strides`  — a step leaves a frame at its sync, or the frame passes it.
* `joinCounters`    — all that, in every run.
-/

namespace SwanRuntime.Runtime

open Reducers Checked

variable {K : Type} [DecidableEq K] {M : K → Type} [∀ k, Monoid (M k)]

-- ---------------------------------------------------------------------------
-- Counting down never fails
-- ---------------------------------------------------------------------------

section Avoids

variable {s : State M} {w victim : WorkerId} {f d p : FrameId} {pf : PendingFrame}

/-- The assertion of `decjoin`. -/
def decjoinText : String := "ff->join_counter > 0"

omit [DecidableEq K] [∀ k, Monoid (M k)]

theorem decjoin_avoids (h : 0 < (s.ff f).joinCounter) : Avoids (decjoin s f) decjoinText := by
  rw [decjoin_eq h]
  exact .ok

theorem receiver_avoids : Avoids (receiver s w f) decjoinText := by
  unfold receiver
  split
  · exact .assert_bind (by decide) fun _ => .pure
  · split
    · exact .throw (by decide)
    · exact .assert_bind (by decide) fun _ => .assert_bind (by decide) fun _ =>
        .assert_bind (by decide) fun _ => .pure

theorem provablyGoodSteal_avoids (hpos : 0 < (s.ff f).joinCounter) :
    Avoids (provablyGoodSteal s w f) decjoinText := by
  rw [provablyGoodSteal_eq hpos]
  exact .ite (fun _ => .assert_bind (by decide) fun _ => .bind receiver_avoids fun _ _ => .pure)
    fun _ => .ok

theorem setupForExecution_avoids : Avoids (setupForExecution s w f) decjoinText := by
  unfold setupForExecution setupForExecutionReducers
  refine .bind (.ite (fun _ => .pure) fun _ => .assert_bind (by decide) fun _ => ?_)
    fun _ _ => .pure
  split
  · exact .pure
  · exact .assert_bind (by decide) fun _ => .pure

theorem destroyFullFrame_avoids : Avoids (destroyFullFrame s f) decjoinText := by
  unfold destroyFullFrame
  exact .assert_bind (by decide) fun _ => .assert_bind (by decide) fun _ => .pure

theorem finishSpawnReturnOnUserStack_avoids :
    Avoids (finishSpawnReturnOnUserStack s w p d) decjoinText := by
  unfold finishSpawnReturnOnUserStack
  refine .assert_bind (by decide) fun _ => ?_
  dsimp only
  exact .ite (fun _ => .assert_bind (by decide) fun _ => .pure) fun _ => .pure

theorem slowPathReductionsForSpawnReturn_avoids :
    Avoids (slowPathReductionsForSpawnReturn s w p d) decjoinText := by
  unfold slowPathReductionsForSpawnReturn
  exact .ite (fun _ => .bind finishSpawnReturnOnUserStack_avoids fun _ _ => .pure) fun _ => .pure

theorem executeReductionsForSpawnReturn_avoids :
    Avoids (executeReductionsForSpawnReturn s w) decjoinText := by
  unfold executeReductionsForSpawnReturn
  split
  · exact .throw (by decide)
  · split
    · exact .throw (by decide)
    · split
      · exact .bind finishSpawnReturnOnUserStack_avoids fun _ _ => .pure
      · exact slowPathReductionsForSpawnReturn_avoids

theorem cSync_avoids {rest : Code M} : Avoids (cSync s w rest) decjoinText := by
  unfold cSync
  refine .assert_bind (by decide) fun _ => ?_
  split
  · exact .throw (by decide)
  · dsimp only
    split
    · exact .pure
    · exact .pure

theorem cReturnFromInitial_avoids : Avoids (cReturnFromInitial s w) decjoinText := by
  unfold cReturnFromInitial
  refine .assert_bind (by decide) fun _ => ?_
  split
  · exact .throw (by decide)
  · exact .assert_bind (by decide) fun _ => .assert_bind (by decide) fun _ =>
      .bind destroyFullFrame_avoids fun _ _ => .pure

theorem cilkrtsReturn_avoids : Avoids (cilkrtsReturn s w) decjoinText := by
  unfold cilkrtsReturn
  split
  · exact .throw (by decide)
  · refine .assert_bind (by decide) fun hjoin => .assert_bind (by decide) fun _ =>
      .bind (decjoin_avoids ?_) fun _ _ => .pure
    simp [of_decide_eq_true hjoin]

theorem leaveFrame_avoids {sf : StackFrame M} : Avoids (leaveFrame s w sf) decjoinText := by
  unfold leaveFrame
  exact .ite (fun _ => .ite (fun _ => executeReductionsForSpawnReturn_avoids) fun _ =>
    .ite (fun _ => cReturnFromInitial_avoids) fun _ => cilkrtsReturn_avoids) fun _ => .pure

theorem finishCilkrtsReturn_avoids (hparent : ∀ p, (s.ff d).parent = some p → p ≠ d)
    (hjoin : ∀ p, (s.ff d).parent = some p → 0 < (s.ff p).joinCounter) :
    Avoids (finishCilkrtsReturn s w d) decjoinText := by
  unfold finishCilkrtsReturn
  split
  · exact .throw (by decide)
  · rename_i p hp
    have hne := hparent p hp
    have hpos := hjoin p hp
    -- the one decrement is that of the caller, when it had been suspended
    have hfinalize : Avoids (finalizeChildForCall s w p d) decjoinText := by
      unfold finalizeChildForCall spliceStacksForCall unconditionalSteal
      refine .assert_bind (by decide) fun _ => .assert_bind (by decide) fun _ =>
        .assert_bind (by decide) fun _ => .assert_bind (by decide) fun _ =>
        .assert_bind (by decide) fun _ => .assert_bind (by decide) fun _ =>
        .bind (.assert_bind (by decide) fun _ => .assert_bind (by decide) fun _ =>
          .assert_bind (by decide) fun _ => .pure) fun u hu =>
        .bind (.bind (decjoin_avoids ?_) fun _ _ => .assert_bind (by decide) fun _ => .pure)
          fun _ _ => destroyFullFrame_avoids
      -- what runs before it only unlinks the child
      obtain ⟨_, -, hu⟩ := bind_eq_ok.mp hu
      obtain ⟨_, -, hu⟩ := bind_eq_ok.mp hu
      obtain ⟨_, -, hu⟩ := bind_eq_ok.mp hu
      obtain rfl := pure_eq_ok.mp hu
      simpa [unlinkChild, modFf_ff_ne _ _ hne] using hpos
    refine .bind hfinalize fun u _ => .assert_bind (by decide) fun _ => ?_
    split
    · exact .pure
    · exact .assert_bind (by decide) fun _ => .bind setupForExecution_avoids fun _ _ => .pure

theorem resumeNextFrame_avoids : Avoids (resumeNextFrame s w) decjoinText := by
  unfold resumeNextFrame
  refine .assert_bind (by decide) fun _ => ?_
  dsimp only
  split
  · exact .throw (by decide)
  · exact .assert_bind (by decide) fun _ => .bind setupForExecution_avoids fun _ _ =>
      .assert_bind (by decide) fun _ => .pure

theorem readyListSteal_avoids : Avoids (readyListSteal s w victim pf) decjoinText := by
  unfold readyListSteal stealFromReadyList makeChildFromPending pushNextFrame
  exact .assert_bind (by decide) fun _ => .assert_bind (by decide) fun _ =>
    .bind (.assert_bind (by decide) fun _ => .pure) fun _ _ =>
      .assert_bind (by decide) fun _ => .pure

/-- Entering the runtime, if the function that is called does not fail. -/
theorem longjmpIntoRuntime_avoids {P : Nat} {fcn : SchedulingStackFcn}
    (hf : (s.worker w).frameFf = some f)
    (hcall : ∀ t : State M, t.ff = s.ff → Avoids (fcn.call t w f) decjoinText) :
    Avoids (longjmpIntoRuntime P s w fcn) decjoinText := by
  unfold longjmpIntoRuntime
  rw [hf]
  refine .ite (fun _ => .bind (hcall s rfl) fun u _ => ?_) fun _ => ?_
  · dsimp only
    split
    · exact .throw (by decide)
    · exact .bind setupForExecution_avoids fun _ _ => .pure
  · exact .assert_bind (by decide) fun _ => .assert_bind (by decide) fun _ =>
      .bind (hcall _ rfl) fun _ _ => .assert_bind (by decide) fun _ => .pure

theorem doSync_avoids {t : State M} (ht : t.ff = s.ff) (hpos : 0 < (s.ff f).joinCounter) :
    Avoids (doSync t w f) decjoinText := by
  unfold doSync
  exact .assert_bind (by decide) fun _ => .assert_bind (by decide) fun _ =>
    provablyGoodSteal_avoids (by rwa [ht])

theorem doReturnFromSpawn_avoids {t : State M} (ht : t.ff = s.ff) (hp : (s.ff d).parent = some p)
    (hne : p ≠ d) (hsim : (s.ff p).simulatedStolen = false) (hown : 0 < (s.ff d).joinCounter)
    (hpos : 0 < (s.ff p).joinCounter) : Avoids (doReturnFromSpawn t w d) decjoinText := by
  have hparent : (countDown t d).ff p = s.ff p := by
    rw [countDown, modFf_ff_ne _ _ hne, ht]
  unfold doReturnFromSpawn
  rw [decjoin_eq (by rwa [ht]), ht, hp]
  refine .assert_bind (by decide) fun _ => ?_
  dsimp only
  rw [ok_bind]
  dsimp only
  rw [hparent, hsim]
  exact .bind (provablyGoodSteal_avoids (by rwa [hparent])) fun _ _ => destroyFullFrame_avoids

end Avoids

section Reduce

variable {s : State M} {w : WorkerId}

theorem mergeReducerMaps_avoids {left right : Option (ReducerMap M)} :
    Avoids (mergeReducerMaps left right) decjoinText := by
  unfold mergeReducerMaps ReducerMap.merge
  split
  · exact .pure
  · exact .pure
  · exact .ite (fun _ => .bind (.assert_bind (by decide) fun _ => .pure) fun _ _ => .pure)
      fun _ => .bind (.assert_bind (by decide) fun _ => .pure) fun _ _ => .pure

theorem reduceForSpawnReturn_avoids {left middle right : Option (ReducerMap M)} :
    Avoids (reduceForSpawnReturn s w left middle right) decjoinText := by
  unfold reduceForSpawnReturn
  refine .bind mergeReducerMaps_avoids fun _ _ => .bind mergeReducerMaps_avoids fun _ _ => ?_
  dsimp only
  split
  · exact .throw (by decide)
  · split
    · exact .throw (by decide)
    · exact slowPathReductionsForSpawnReturn_avoids

theorem reduceForSync_avoids {left middle : Option (ReducerMap M)} :
    Avoids (reduceForSync s w left middle) decjoinText := by
  unfold reduceForSync
  refine .bind mergeReducerMaps_avoids fun _ _ => ?_
  split
  · exact .throw (by decide)
  · exact .pure

end Reduce

section Steps

variable {g : Settings} {s : State M} {site : FrameId → Site} {w victim : WorkerId}

omit [DecidableEq K] [∀ k, Monoid (M k)] in
theorem randomSteal_avoids (hs : Shape s site none) (hphase : (s.worker w).phase = .scheduling)
    (hne : w ≠ victim) (hdeque : canSteal s victim = true) :
    Avoids (randomSteal s w victim) decjoinText := by
  obtain ⟨f, chain, sf, young, -, hf, hsite, hstack, hchain, hsf, hjoin⟩ := hs.exists_spawned hdeque
  have hlive : site f ≠ .gone := by
    rw [hsite]
    simp
  have hidle : (s.worker w).frameFf = none := hs.workers.idle (by rw [hphase]; rfl)
  unfold randomSteal cilkFiberAllocate
  refine .assert_bind (by decide) fun _ => ?_
  dsimp only
  rw [detachForSteal_eq (s := { s with nextFiber := s.nextFiber + 1 }) hne hidle hf hstack hchain
    hsf (hs.placed.fresh f hlive) hjoin]
  exact .assert_bind (by decide) fun _ => .pure

/-- Without `force_reduce`, `decjoin` is never called for a counter that is 0. -/
theorem Step.avoids (hs : Shape s site none) (hforce : g.forceReduce = false)
    (hsim : ∀ f, site f ≠ .gone → (s.ff f).simulatedStolen = false) {e : Event M}
    {x : Checked (State M)} (h : Step g s e x) : Avoids x decjoinText := by
  have hlive : ∀ {w f}, (s.worker w).frameFf = some f → site f ≠ .gone := by
    intro w f hf
    rw [(hs.placed.running w f).mp hf]
    simp
  -- steps that decrement no counter, and those whose frame is counted
  cases h with
  | bind | update | call | spawn | detachPending | makeReady | syncNothing | loseTeam => exact .ok
  | sync | retSync => exact cSync_avoids
  | ret => exact leaveFrame_avoids
  | reducedSpawn => exact reduceForSpawnReturn_avoids
  | reducedSync => exact reduceForSync_avoids
  | @spawnReturned w hphase =>
    -- the child is on the left of its parent’s continuation, which is still counted
    have hactive := hs.workers.active w
    rw [hphase] at hactive
    obtain ⟨d, hd⟩ := Option.isSome_iff_exists.mp hactive
    have hsite : site d = .running w := (hs.placed.running w d).mp hd
    obtain ⟨hdet, -⟩ := hs.linked.leaving w d hsite (by rw [hphase]; rfl)
    obtain ⟨p, hp⟩ := Option.isSome_iff_exists.mp (hs.linked.detached d (hlive hd) hdet).2
    obtain ⟨hplive, hlt⟩ := hs.linked.parent d p (hlive hd) hp
    exact longjmpIntoRuntime_avoids hd fun t ht => doReturnFromSpawn_avoids ht hp
      (Nat.ne_of_lt hlt) (hsim p hplive) (hs.counter_pos_of_running hsite)
      (hs.counter_pos_of_parent (hlive hd) hp)
  | @synching w hphase =>
    have hactive := hs.workers.active w
    rw [hphase] at hactive
    obtain ⟨f, hf⟩ := Option.isSome_iff_exists.mp hactive
    have hsite : site f = .running w := (hs.placed.running w f).mp hf
    exact longjmpIntoRuntime_avoids hf fun t ht =>
      doSync_avoids ht (hs.counter_pos_of_running hsite)
  | @callReturned w d hphase =>
    have hsite : site d = .carried w := (hs.placed.carried w d).mp hphase
    have hdlive : site d ≠ .gone := by
      rw [hsite]
      simp
    exact finishCilkrtsReturn_avoids
      (fun p hp => Nat.ne_of_lt (hs.linked.parent d p hdlive hp).2)
      (fun p hp => hs.counter_pos_of_parent hdlive hp)
  | resume => exact resumeNextFrame_avoids
  | steal hphase hne _ hdeque => exact randomSteal_avoids hs hphase hne hdeque
  | stealOwnReady | stealReady => exact readyListSteal_avoids
  -- a worker promotes its own deque only to force reductions
  | promote hforce' => exact absurd (hforce.symm.trans hforce') (by simp)

end Steps

-- ---------------------------------------------------------------------------
-- Frames at a sync
-- ---------------------------------------------------------------------------

/-- The frame is suspended at a sync: it has been stolen since the last one, and is not
waiting for a call to return. -/
def AtSync (s : State M) (f : FrameId) : Prop :=
  s.live f = true ∧ (s.ff f).callStack = true ∧ (s.ff f).frame.unsynched = true ∧
    (∀ w, (s.worker w).nextFrameFf ≠ some f) ∧
    ∀ d, s.live d = true → (s.ff d).parent = some f → (s.ff d).isCallChild = false

/-- The worker has been given the frame, and is to resume it after the sync. -/
structure HandedOver (s : State M) (w : WorkerId) (f : FrameId) : Prop where
  next    : (s.worker w).nextFrameFf = some f
  live    : s.live f = true
  synched : (s.ff f).frame.unsynched = false
  kids    : (s.kids f).card = 0

/-- The counter of a frame that is suspended is not 0. -/
def Awaited (s : State M) (site : FrameId → Site) : Prop :=
  ∀ f, site f = .suspended → 0 < (s.ff f).joinCounter

/-- No frame is the loot of a simulated steal. -/
def Unsimulated (s : State M) : Prop := ∀ f, s.live f = true → (s.ff f).simulatedStolen = false

section Moves

variable {s r : State M} {site : FrameId → Site} {owed owed' : Option FrameId} {f g : FrameId}
  {d : FrameId} {w t : WorkerId}

omit [DecidableEq K] [∀ k, Monoid (M k)] in
/-- The state says where the frames are. -/
theorem Placed.unique {site' : FrameId → Site} (h : Placed s site) (h' : Placed s site') :
    site = site' := by
  funext f
  cases hsite : site f with
  | gone =>
    have hdead : ¬ s.live f = true := fun hlive => (h.live f).mp hlive hsite
    exact (by_contra fun hne => hdead ((h'.live f).mpr (Ne.symm hne)))
  | running w => exact ((h'.running w f).mp ((h.running w f).mpr hsite)).symm
  | given w => exact ((h'.given w f).mp ((h.given w f).mpr hsite)).symm
  | waiting a => exact ((h'.waiting a f).mp ((h.waiting a f).mpr hsite)).symm
  | carried w => exact ((h'.carried w f).mp ((h.carried w f).mpr hsite)).symm
  | suspended =>
    cases hsite' : site' f with
    | gone =>
      have hlive := (h.live f).mpr (by simp [hsite])
      exact absurd hsite' ((h'.live f).mp hlive)
    | running w => exact nomatch hsite.symm.trans ((h.running w f).mp ((h'.running w f).mpr hsite'))
    | given w => exact nomatch hsite.symm.trans ((h.given w f).mp ((h'.given w f).mpr hsite'))
    | waiting a => exact nomatch hsite.symm.trans ((h.waiting a f).mp ((h'.waiting a f).mpr hsite'))
    | carried w => exact nomatch hsite.symm.trans ((h.carried w f).mp ((h'.carried w f).mpr hsite'))
    | suspended => rfl

omit [DecidableEq K] [∀ k, Monoid (M k)] in
theorem AtSync.of_alike (ha : Alike s r) : AtSync r f ↔ AtSync s f := by
  unfold AtSync
  simp only [ha.live, ha.callStack, ha.unsynched, ha.nextFrameFf, ha.parent, ha.isCallChild]

omit [DecidableEq K] [∀ k, Monoid (M k)] in
/-- A frame stays at its sync if no frame becomes its child, and nobody is given it. -/
theorem AtSync.of_links (h : AtSync s f) (hlive : ∀ d, r.live d = true → s.live d = true)
    (hf : s.live f = true → r.live f = true)
    (hlinks : ∀ d, (r.ff d).parent = (s.ff d).parent ∧ (r.ff d).isCallChild = (s.ff d).isCallChild)
    (hsame : (r.ff f).callStack = (s.ff f).callStack ∧
      (r.ff f).frame.unsynched = (s.ff f).frame.unsynched)
    (hnext : ∀ v, (r.worker v).nextFrameFf = some f → (s.worker v).nextFrameFf = some f) :
    AtSync r f := by
  obtain ⟨hlivef, hcallStack, hunsynched, hungiven, hcalled⟩ := h
  refine ⟨hf hlivef, hsame.1.trans hcallStack, hsame.2.trans hunsynched,
    fun v hv => hungiven v (hnext v hv), fun d hd hp => ?_⟩
  rw [(hlinks d).1] at hp
  rw [(hlinks d).2]
  exact hcalled d (hlive d hd) hp

omit [DecidableEq K] [∀ k, Monoid (M k)] in
/-- The same when a frame is made that is not called from it. -/
theorem AtSync.make (h : AtSync s f) (hfresh : f ≠ s.nextFrame)
    (hlive : ∀ d, r.live d = if d = s.nextFrame then true else s.live d)
    (hlinks : ∀ d, d ≠ s.nextFrame →
      (r.ff d).parent = (s.ff d).parent ∧ (r.ff d).isCallChild = (s.ff d).isCallChild)
    (hnew : (r.ff s.nextFrame).parent = some f → (r.ff s.nextFrame).isCallChild = false)
    (hsame : (r.ff f).callStack = (s.ff f).callStack ∧
      (r.ff f).frame.unsynched = (s.ff f).frame.unsynched)
    (hnext : ∀ v, (r.worker v).nextFrameFf = some f → (s.worker v).nextFrameFf = some f) :
    AtSync r f := by
  obtain ⟨hlivef, hcallStack, hunsynched, hungiven, hcalled⟩ := h
  refine ⟨?_, hsame.1.trans hcallStack, hsame.2.trans hunsynched,
    fun v hv => hungiven v (hnext v hv), fun d hd hp => ?_⟩
  · rwa [hlive, if_neg hfresh]
  · by_cases hd' : d = s.nextFrame
    · subst hd'
      exact hnew hp
    · rw [hlive, if_neg hd'] at hd
      rw [(hlinks d hd').1] at hp
      rw [(hlinks d hd').2]
      exact hcalled d hd hp

omit [DecidableEq K] [∀ k, Monoid (M k)] in
/-- Only one worker has changed, and it has not been given the frame. -/
theorem given_of_ite {wk : Worker M}
    (hworker : ∀ v, r.worker v = if v = w then wk else s.worker v)
    (hwk : wk.nextFrameFf = some f → (s.worker w).nextFrameFf = some f) (v : WorkerId)
    (hv : (r.worker v).nextFrameFf = some f) : (s.worker v).nextFrameFf = some f := by
  rw [hworker] at hv
  by_cases hvw : v = w
  · subst hvw
    rw [if_pos rfl] at hv
    exact hwk hv
  · rwa [if_neg hvw] at hv

omit [DecidableEq K] [∀ k, Monoid (M k)] in
/-- A frame stays at its sync when one worker changes, and one other frame. -/
theorem AtSync.of_ite {wk : Worker M} {ff : FullFrame M} (h : AtSync s f) (hlive : r.live = s.live)
    (hworker : ∀ v, r.worker v = if v = w then wk else s.worker v)
    (hwk : wk.nextFrameFf = some f → (s.worker w).nextFrameFf = some f)
    (hff : ∀ d, r.ff d = if d = g then ff else s.ff d)
    (hlinks : ff.parent = (s.ff g).parent ∧ ff.isCallChild = (s.ff g).isCallChild) (hne : f ≠ g) :
    AtSync r f := by
  refine h.of_links (fun d hd => hlive ▸ hd) (fun hf => hlive ▸ hf) (fun d => ?_) ?_
    (given_of_ite hworker hwk)
  · rw [hff]
    by_cases hd : d = g
    · subst hd
      rwa [if_pos rfl]
    · rw [if_neg hd]
      exact ⟨rfl, rfl⟩
  · rw [hff, if_neg hne]
    exact ⟨rfl, rfl⟩

omit [DecidableEq K] [∀ k, Monoid (M k)] in
theorem handedOver_handOver (hs : Shape s site (some f)) (hjoin : (s.ff f).joinCounter = 1) :
    HandedOver (handOver s f t) t f := by
  obtain ⟨hsite, hkids⟩ := hs.last_count hjoin
  have hparent : ∀ d, ((handOver s f t).ff d).parent = (s.ff d).parent := by
    intro d
    by_cases hd : d = f
    · rw [hd]
      simp [handOver]
    · simp [handOver, hd]
  refine ⟨congrArg Worker.nextFrameFf (if_pos rfl), (hs.placed.live f).mpr (by simp [hsite]),
    by simp [handOver], ?_⟩
  have hsame : (handOver s f t).kids f = s.kids f := kids_congr rfl rfl hparent
  rwa [hsame]

omit [DecidableEq K] [∀ k, Monoid (M k)] in
/-- Where a frame at its sync is not. -/
theorem AtSync.elsewhere (hs : Shape s site owed) (h : AtSync s f) :
    (∀ v, (s.worker v).frameFf = some f → (s.worker v).phase = .synching) ∧ f ≠ s.nextFrame ∧
      (∀ a, f ∉ (s.place a).map (·.frameFf)) ∧ ∀ v, (s.worker v).phase ≠ .callReturning f := by
  obtain ⟨hlive, hcallStack, -⟩ := h
  refine ⟨fun v hv => ?_, ?_, fun a ha => ?_, fun v hv => ?_⟩
  · exact (hs.linked.current v f ((hs.placed.running v f).mp hv)).mp hcallStack
  · exact Nat.ne_of_lt (hs.placed.fresh f ((hs.placed.live f).mp hlive))
  · have hno := (hs.linked.waiting a f ((hs.placed.waiting a f).mp ha)).2.1
    exact absurd (hno.symm.trans hcallStack) (by simp)
  · have hno := (hs.linked.carried v f ((hs.placed.carried v f).mp hv)).2.1
    exact absurd (hno.symm.trans hcallStack) (by simp)

omit [DecidableEq K] [∀ k, Monoid (M k)] in
theorem atSync_promoteCall {sf : StackFrame M} {young : List (StackFrame M)} (h : AtSync s f)
    (hfresh : f ≠ s.nextFrame) (hne : f ≠ g) : AtSync (promoteCall s w g sf young) f := by
  refine h.make hfresh (fun _ => rfl) (fun d hd => ?_) (fun hparent => ?_) ?_
    (given_of_ite (fun _ => rfl) id)
  · by_cases hdg : d = g
    · subst hdg
      simp [promoteCall, hd]
    · simp [promoteCall, hd, hdg]
  · have heq : some g = some f := by simpa [promoteCall, FullFrame.spawned] using hparent
    exact absurd (Option.some.inj heq).symm hne
  · simp [promoteCall, hfresh, hne]

omit [DecidableEq K] [∀ k, Monoid (M k)] in
theorem atSync_steal {victim : WorkerId} {sf : StackFrame M} {young : List (StackFrame M)}
    {fiber : FiberArg} (h : AtSync s f) (hfresh : f ≠ s.nextFrame) (hne : f ≠ g) :
    AtSync (stealState s w victim g sf young fiber) f := by
  refine h.make hfresh (fun _ => rfl) (fun d hd => ?_) (fun _ => ?_) ?_ fun v hv => ?_
  · by_cases hdg : d = g
    · subst hdg
      simp [stealState, hd, FullFrame.looted]
    · simp [stealState, hd, hdg]
  · simp [stealState, FullFrame.spawned, FullFrame.make]
  · simp [stealState, hfresh, hne]
  · by_cases hvictim : v = victim
    · subst hvictim
      simpa [stealState, Worker.robbed] using hv
    · by_cases hvw : v = w
      · subst hvw
        have heq : g = f := by simpa [stealState, hvictim] using hv
        exact absurd heq.symm hne
      · simpa [stealState, hvictim, hvw] using hv

omit [DecidableEq K] [∀ k, Monoid (M k)] in
theorem atSync_readySteal {victim : WorkerId} {pf : PendingFrame} (h : AtSync s f)
    (hne : f ≠ pf.frameFf) : AtSync (readyState s w victim pf) f := by
  refine h.of_links (fun _ => id) id (fun d => ?_) ?_ fun v hv => ?_
  · by_cases hd : d = pf.frameFf
    · simp [readyState, hd]
    · simp [readyState, hd]
  · simp [readyState, hne]
  · by_cases hvw : v = w
    · subst hvw
      have heq : pf.frameFf = f := by simpa [readyState] using hv
      exact absurd heq.symm hne
    · simpa [readyState, hvw] using hv

omit [DecidableEq K] [∀ k, Monoid (M k)] in
theorem atSync_finishReturn (h : AtSync s f) : AtSync (finishReturn s w g d) f := by
  have hsame : ∀ a, ((finishReturn s w g d).ff a).parent = (s.ff a).parent ∧
      ((finishReturn s w g d).ff a).isCallChild = (s.ff a).isCallChild ∧
      ((finishReturn s w g d).ff a).callStack = (s.ff a).callStack ∧
      ((finishReturn s w g d).ff a).frame.unsynched = (s.ff a).frame.unsynched := by
    intro a
    by_cases had : a = d
    · subst had
      simp [finishReturn]
    · by_cases hag : a = g
      · subst hag
        simp [finishReturn, had]
      · simp [finishReturn, had, hag]
  exact h.of_links (fun _ => id) id (fun a => ⟨(hsame a).1, (hsame a).2.1⟩) (hsame f).2.2
    (given_of_ite (fun _ => rfl) id)

omit [DecidableEq K] [∀ k, Monoid (M k)] in
theorem atSync_finishCall (h : AtSync s f) (hd : f ≠ d) (hg : f ≠ g) :
    AtSync (finishCall s w g d) f := by
  refine h.of_links (fun a ha => ?_) (fun hlive => ?_) (fun a => ?_) ?_
    (given_of_ite (fun _ => rfl) id)
  · by_cases had : a = d
    · simp [finishCall, had] at ha
    · simpa [finishCall, had] using ha
  · simpa [finishCall, hd] using hlive
  · by_cases had : a = d
    · subst had
      simp [finishCall]
    · by_cases hag : a = g
      · subst hag
        simp [finishCall, had, FullFrame.resumed]
      · simp [finishCall, had, hag]
  · simp [finishCall, hd, hg]

omit [DecidableEq K] [∀ k, Monoid (M k)] in
theorem atSync_leaveSpawn (h : AtSync s f) (hne : f ≠ d) :
    AtSync (dropFf (leaveFf s w) d) f := by
  refine h.of_links (fun a ha => ?_) (fun hlive => ?_) (fun a => ?_) ?_
    (given_of_ite (fun _ => rfl) id)
  · by_cases had : a = d
    · simp [dropFf, had] at ha
    · simpa [dropFf, leaveFf, had] using ha
  · simpa [dropFf, leaveFf, hne] using hlive
  · exact ⟨(leaveSpawn_ff s w d a).2.2.1, (leaveSpawn_ff s w d a).2.2.2.1⟩
  · exact ⟨(leaveSpawn_ff s w d f).2.1, by rw [(leaveSpawn_ff s w d f).1]⟩

omit [DecidableEq K] [∀ k, Monoid (M k)] in
theorem atSync_returnInitial (h : AtSync s f) (hne : f ≠ g) : AtSync (returnInitial s w g) f := by
  refine h.of_links (fun a ha => ?_) (fun hlive => ?_) (fun a => ?_) ?_
    (given_of_ite (fun _ => rfl) id)
  · by_cases hag : a = g
    · simp [returnInitial, hag] at ha
    · simpa [returnInitial, hag] using ha
  · simpa [returnInitial, hne] using hlive
  · by_cases hag : a = g
    · simp [returnInitial, hag]
    · simp [returnInitial, hag]
  · simp [returnInitial, hne]

/-- A move leaves a frame at its sync, unless it hands the frame over. -/
theorem AtSync.move (hs : Shape s site owed) (hmove : Move false owed s owed' r)
    (h : AtSync s f) : AtSync r f ∨ owed = some f ∧ ∃ t, HandedOver r t f := by
  -- the one move after which the frame is not at its sync
  have hhanded : ∀ {f t}, owed = some f → (s.ff f).joinCounter = 1 →
      HandedOver (handOver s f t) t f := by
    rintro f t rfl hjoin
    exact handedOver_handOver hs hjoin
  obtain ⟨hrunning, hfresh, hwaiting, hcarried⟩ := h.elsewhere hs
  -- the frame of a worker that runs is not at a sync
  have hne : ∀ {v g}, (s.worker v).frameFf = some g → (s.worker v).phase ≠ .synching → f ≠ g := by
    rintro v g hv hphase rfl
    exact hphase (hrunning v hv)
  have hnext := h.2.2.2.1
  have hcalled := h.2.2.2.2
  have hlivef := h.1
  -- one case for each move; most of them only concern other frames
  cases hmove with
  | @bind _ u code init hfree =>
    rw [bindThread_closed]
    refine .inl (h.make hfresh (fun _ => rfl) (fun d hd => ?_) (fun hp => ?_) ?_
      (given_of_ite (fun _ => rfl) id))
    · simp [hd]
    · simp [initialFrame, FullFrame.make] at hp
    · simp [hfresh]
  | update hexec hcode => exact .inl ((AtSync.of_alike (alike_update hexec.1)).mpr h)
  | enter hexec hcode => exact .inl ((AtSync.of_alike (alike_enter hexec.1)).mpr h)
  | @skip _ w _ rest hexec hcode hsync =>
    have halike : Alike s (s.modCurrent w fun sf => sf.advance 1 rest) :=
      alike_modCurrent hexec.1 fun _ => ⟨rfl, rfl, rfl⟩
    exact .inl ((AtSync.of_alike halike).mpr h)
  | exit hexec hcode hstack => exact .inl ((AtSync.of_alike (alike_exit hexec.1)).mpr h)
  | @detachPending _ w p _ child rest hexec hcode hstack hp hsim =>
    have halike : Alike s (s.modCurrent w fun sf => sf.advance child.product rest) :=
      alike_modCurrent hexec.1 fun _ => ⟨rfl, rfl, rfl⟩
    have hfp := hne hp (by simp [hexec.1])
    have hlt : p < s.nextFrame := by
      refine hs.placed.fresh p ?_
      rw [(hs.placed.running w p).mp hp]
      simp
    -- the code moves on, and the pending frame is a new child of another frame
    have h' := (AtSync.of_alike halike).mpr h
    have hfresh' : f ≠ (s.modCurrent w fun sf => sf.advance child.product rest).nextFrame := by
      rwa [halike.nextFrame]
    rw [detachPending_closed _ _ _ _ (halike.nextFrame ▸ hlt)]
    refine .inl (h'.make hfresh' (fun _ => rfl) (fun d hd => ?_) (fun hp => ?_) ?_ fun _ => id)
    · by_cases hdp : d = p
      · subst hdp
        simp [hd]
      · simp [hd, hdp]
    · simp [pendingFrame, FullFrame.make]
    · simp [hfresh', hfp]
  | makeReady hrun hpf =>
    rw [makeReady_closed]
    exact .inl (h.of_links (fun _ => id) id (fun _ => ⟨rfl, rfl⟩) ⟨rfl, rfl⟩
      (given_of_ite (fun _ => rfl) id))
  | promoteCall hrun hp hstack hsf =>
    exact .inl (atSync_promoteCall h hfresh (hne hp (by simp [hrun])))
  | @steal _ w victim p _ _ hne' hteam htype hw' hnext hrun hp hstack hsf hsim =>
    have hfiber : AtSync { s with nextFiber := s.nextFiber + 1 } f :=
      (AtSync.of_alike alike_nextFiber).mpr h
    exact .inl (atSync_steal hfiber hfresh (hne hp (by simp [hrun])))
  | promote hrun hf hstack hsf hjoin hforce => exact absurd hforce (by simp)
  | @readySteal _ w victim pf hteam htype hw' hnext hpf =>
    refine .inl (atSync_readySteal h ?_)
    rintro rfl
    exact hwaiting (some victim) (List.mem_map_of_mem hpf)
  | beginReturn hrun hstack hd hp hdet hcode hsync =>
    exact .inl (h.of_links (fun _ => id) id (fun _ => ⟨rfl, rfl⟩) ⟨rfl, rfl⟩
      (given_of_ite (fun _ => rfl) id))
  | rearrangeSpawn hphase hd hp hre =>
    exact .inl ((AtSync.of_alike (alike_rearrangeSpawn hphase)).mpr h)
  | finishReturn hphase hd hp hright => exact .inl (atSync_finishReturn h)
  | @beginSync _ w p rest hrun hstack hp hsync hcode =>
    rw [beginSync_closed]
    exact .inl (h.of_ite rfl (fun _ => rfl) id (fun _ => rfl) ⟨rfl, rfl⟩ (hne hp (by simp [hrun])))
  | rearrangeSync hphase hf hre =>
    exact .inl ((AtSync.of_alike (alike_rearrangeSync hphase)).mpr h)
  | suspend hphase hp =>
    exact .inl (h.of_ite rfl (fun _ => rfl) id (fun _ => rfl) ⟨rfl, rfl⟩
      (hne hp (by simp [hphase])))
  | freeFiber hphase =>
    exact .inl (h.of_links (fun _ => id) id (fun _ => ⟨rfl, rfl⟩) ⟨rfl, rfl⟩
      (given_of_ite (fun _ => rfl) id))
  | leaveSync hphase hf =>
    exact .inl (h.of_links (fun _ => id) id (fun _ => ⟨rfl, rfl⟩) ⟨rfl, rfl⟩
      (given_of_ite (fun _ => rfl) id))
  | leaveSpawn hphase hd hp => exact .inl (atSync_leaveSpawn h (hne hd (by simp [hphase])))
  | @countDown _ p hjoin =>
    rw [countDown_closed]
    refine .inl (h.of_links (fun _ => id) id (fun d => ?_) ?_ fun _ => id)
    · by_cases hdp : d = p
      · simp [hdp]
      · simp [hdp]
    · by_cases hfp : f = p
      · simp [hfp]
      · simp [hfp]
  | @handOver _ w t p hjoin ht hself =>
    -- either this frame is handed over, or another one
    by_cases hfp : f = p
    · subst hfp
      exact .inr ⟨rfl, t, hhanded rfl hjoin⟩
    · exact .inl (h.of_ite rfl (fun _ => rfl) (fun heq => absurd (Option.some.inj heq).symm hfp)
        (fun _ => rfl) ⟨rfl, rfl⟩ hfp)
  | takeBack hnext hjoin hsim hforce => exact absurd hforce (by simp)
  | leaveCall hrun hstack hp hjoin hcall hcode hsync =>
    exact .inl (h.of_ite rfl (fun _ => rfl) id (fun _ => rfl) ⟨rfl, rfl⟩ (hne hp (by simp [hrun])))
  | @finishCall _ w d p hphase hp hnext hchildren hlast hmap hright hfiber hself hsync =>
    have hsite := (hs.placed.carried w d).mp hphase
    have hdlive : site d ≠ .gone := by
      rw [hsite]
      simp
    refine .inl (atSync_finishCall h ?_ ?_)
    · -- a frame on a ready list is not at a sync
      rintro rfl
      exact hcarried w hphase
    · rintro rfl
      -- a called child is carried back to a caller that is not at a sync
      exact absurd ((hcalled d ((hs.placed.live d).mpr hdlive) hp).symm.trans
        (hs.linked.carried w d hsite).1) (by simp)
  | @resume _ w p hphase hnext' =>
    have hfp : f ≠ p := by
      rintro rfl
      exact hnext w hnext'
    exact .inl (h.of_ite rfl (fun _ => rfl) (fun hno => absurd hno (by simp)) (fun _ => rfl)
      ⟨rfl, rfl⟩ hfp)
  | returnInitial hrun hstack hp hlast hcode hsync hjoin =>
    exact .inl (atSync_returnInitial h (hne hp (by simp [hrun])))
  | loseTeam hphase htype hready => exact .inl ((AtSync.of_alike alike_loseTeam).mpr h)

/-- A frame that a worker leaves has its count, and one that is counted down has
another. -/
theorem Awaited.move (hs : Shape s site owed) (hmove : Move false owed s owed' r)
    (h : Awaited s site) : ∃ site', Shape r site' owed' ∧ Awaited r site' := by
  obtain ⟨site', hs'⟩ := hs.move hmove
  refine ⟨site', hs', ?_⟩
  -- the counter of a frame that runs holds at least the owner’s count
  have hrunning : ∀ {v g}, (s.worker v).frameFf = some g → 0 < (s.ff g).joinCounter := by
    intro v g hv
    have hsite := (hs.placed.running v g).mp hv
    rw [hs.counted g (by simp [hsite]), hsite, Site.count]
    omega
  -- moves after which the tree is as before
  have halike : Alike s r → Awaited r site' := by
    intro ha f hf
    rw [(hs'.placed.unique (hs.alike ha).placed)] at hf
    rw [ha.joinCounter]
    exact h f hf
  have hp := hs.placed
  have hnew := hp.nextFrame
  -- in the others the places are known, and one counter or none changes
  cases hmove with
  | bind hfree =>
    rw [hs'.placed.unique (placed_bind hp hs.workers hfree), bindThread_closed]
    intro f₁ hf₁
    have hold := h f₁
    grind
  | update hexec hcode => exact halike (alike_update hexec.1)
  | enter hexec hcode => exact halike (alike_enter hexec.1)
  | skip hexec hcode hsync => exact halike (alike_modCurrent hexec.1 fun _ => ⟨rfl, rfl, rfl⟩)
  | exit hexec hcode hstack => exact halike (alike_exit hexec.1)
  | @detachPending _ w f _ child rest hexec hcode hstack hf hsim =>
    have hadvance : Alike s (s.modCurrent w fun sf => sf.advance child.product rest) :=
      alike_modCurrent hexec.1 fun _ => ⟨rfl, rfl, rfl⟩
    have hp' := (hs.alike hadvance).placed
    have hf' := (hadvance.frameFf w).trans hf
    have hsite : site f ≠ .gone := by
      rw [(hp.running w f).mp hf]
      simp
    rw [hs'.placed.unique (placed_detachPending hp' hf'),
      detachPending_closed _ _ _ _ (hp'.fresh f hsite)]
    intro f₁ hf₁
    have hold := h f₁
    have hcount := hadvance.joinCounter f₁
    grind
  | makeReady hrun hpf =>
    rw [hs'.placed.unique (placed_makeReady hp hpf), makeReady_closed]
    intro f₁ hf₁
    have hold := h f₁
    grind
  | promoteCall hrun hf hstack hsf =>
    have hf' := hrunning hf
    rw [hs'.placed.unique (placed_promoteCall hp hf)]
    intro f₁ hf₁
    have hold := h f₁
    grind [promoteCall]
  | steal hne hteam htype hw' hnext hrun hf hstack hsf hsim =>
    have hfiber := alike_nextFiber (s := s)
    have hp' := (hs.alike hfiber).placed
    rw [hs'.placed.unique (placed_steal hp' hne hnext hf)]
    intro f₁ hf₁
    have hold := h f₁
    grind [stealState, FullFrame.looted]
  | promote hrun hf hstack hsf hjoin hforce => exact absurd hforce (by simp)
  | readySteal hteam htype hw' hnext hpf =>
    rw [hs'.placed.unique (placed_readySteal hp hnext hpf)]
    intro f₁ hf₁
    have hold := h f₁
    grind [readyState]
  | beginReturn hrun hstack hd hp' hdet hcode hsync =>
    rw [hs'.placed.unique (placed_beginReturn hp hrun)]
    intro f₁ hf₁
    have hold := h f₁
    grind [takeInHand]
  | rearrangeSpawn hphase hd hp hre => exact halike (alike_rearrangeSpawn hphase)
  | finishReturn hphase hd hp' hright =>
    rw [hs'.placed.unique (placed_finishReturn hp hphase)]
    intro f₁ hf₁
    have hold := h f₁
    grind [finishReturn]
  | beginSync hrun hstack hf hsync hcode =>
    rw [hs'.placed.unique (placed_beginSync hp hrun), beginSync_closed]
    intro f₁ hf₁
    have hold := h f₁
    grind
  | rearrangeSync hphase hf hre => exact halike (alike_rearrangeSync hphase)
  | suspend hphase hf =>
    rw [hs'.placed.unique (placed_suspend hp hphase)]
    intro f₁ hf₁
    have hold := h f₁
    grind [suspend]
  | freeFiber hphase => exact halike alike_freeFiber
  | leaveSync hphase hf =>
    have hf' := hrunning hf
    rw [hs'.placed.unique (placed_leaveSync hp hphase hf)]
    intro f₁ hf₁
    have hold := h f₁
    grind [leaveFf]
  | @leaveSpawn _ w d p hphase hd hp' =>
    rw [hs'.placed.unique (placed_leaveSpawn hp hphase hd)]
    intro f₁ hf₁
    -- the child is gone, and counted no more
    have hne : f₁ ≠ d := by
      rintro rfl
      rw [Function.update_self] at hf₁
      exact absurd hf₁ (by simp)
    rw [Function.update_of_ne hne] at hf₁
    have hff : (dropFf (leaveFf s w) d).ff f₁ = s.ff f₁ := if_neg hne
    rw [hff]
    exact h f₁ hf₁
  | countDown hjoin =>
    rw [hs'.placed.unique (placed_countDown hp), countDown_closed]
    intro f₁ hf₁
    have hold := h f₁
    grind
  | handOver hjoin ht hself =>
    rw [hs'.placed.unique (placed_handOver hp (hs.last_count hjoin).1 (receiver_free ht))]
    intro f₁ hf₁
    have hold := h f₁
    grind [handOver]
  | takeBack hnext hjoin hsim hforce => exact absurd hforce (by simp)
  | leaveCall hrun hstack hf hjoin hcall hcode hsync =>
    rw [hs'.placed.unique (placed_leaveCall hp hrun hf)]
    intro f₁ hf₁
    have hold := h f₁
    grind [leaveCall]
  | @finishCall _ w d p hphase hp' hnext hchildren hlast hmap hright hfiber hself hsync =>
    have hd : site d = .carried w := (hp.carried w d).mp hphase
    have hlive : site d ≠ .gone := by
      rw [hd]
      simp
    have hpsite := hs.linked.caller d p hlive (hs.linked.carried w d hd).1 hp'
    have hne : p ≠ d := Nat.ne_of_lt (hs.linked.parent d p hlive hp').2
    rw [hs'.placed.unique (placed_finishCall hp hs.workers hd hpsite hne)]
    intro f₁ hf₁
    have hold := h f₁
    grind [finishCall]
  | resume hphase hnext =>
    rw [hs'.placed.unique (placed_resume hp hs.workers hphase hnext)]
    intro f₁ hf₁
    have hold := h f₁
    grind [resumeState]
  | returnInitial hrun hstack hf hlast hcode hsync hjoin =>
    rw [hs'.placed.unique (placed_returnInitial hp hrun hf)]
    intro f₁ hf₁
    have hold := h f₁
    grind [returnInitial]
  | loseTeam hphase htype hready => exact halike alike_loseTeam

omit [DecidableEq K] [∀ k, Monoid (M k)] in
theorem Unsimulated.congr (h : Unsimulated s) (hlive : r.live = s.live)
    (hsim : ∀ f, (r.ff f).simulatedStolen = (s.ff f).simulatedStolen) : Unsimulated r :=
  fun f hf => (hsim f).trans (h f (hlive ▸ hf))

omit [DecidableEq K] [∀ k, Monoid (M k)] in
theorem Unsimulated.modCurrent {g : StackFrame M → StackFrame M} (h : Unsimulated s) :
    Unsimulated (s.modCurrent w g) := by
  unfold State.modCurrent
  split
  · exact h
  · split
    · refine h.congr rfl fun f₁ => ?_
      unfold State.modFrame
      rw [modFf_ff, Function.update_apply]
      split
      · rename_i heq
        rw [heq]
      · rfl
    · exact h

omit [DecidableEq K] [∀ k, Monoid (M k)] in
theorem Unsimulated.setSlot {m : Option (ReducerMap M)} {a : MapSlot} (h : Unsimulated s) :
    Unsimulated (s.setSlot m a) := by
  cases a with
  | childrenMap f =>
    refine h.congr rfl fun f₁ => ?_
    rw [State.setSlot, modFf_ff, Function.update_apply]
    split
    · rename_i heq
      rw [heq]
    · rfl
  | rightMap f =>
    refine h.congr rfl fun f₁ => ?_
    rw [State.setSlot, modFf_ff, Function.update_apply]
    split
    · rename_i heq
      rw [heq]
    · rfl

/-- Only simulated steals simulate steals. -/
theorem Unsimulated.move (hs : Shape s site owed) (hmove : Move false owed s owed' r)
    (h : Unsimulated s) : Unsimulated r := by
  -- no move sets the flag; new frames are made without it
  cases hmove with
  | bind hfree =>
    rw [bindThread_closed]
    intro f₁ hf₁
    have hold := h f₁
    grind [initialFrame, FullFrame.make]
  | update hexec hcode => exact Unsimulated.modCurrent h
  | enter hexec hcode => exact h.modCurrent (w := _)
  | skip hexec hcode hsync => exact h.modCurrent
  | exit hexec hcode hstack => exact h
  | @detachPending _ w f _ child rest hexec hcode hstack hf hsim =>
    have hadvance : Alike s (s.modCurrent w fun sf => sf.advance child.product rest) :=
      alike_modCurrent hexec.1 fun _ => ⟨rfl, rfl, rfl⟩
    have hsite : site f ≠ .gone := by
      rw [(hs.placed.running w f).mp hf]
      simp
    rw [detachPending_closed _ _ _ _ ((hs.alike hadvance).placed.fresh f hsite)]
    have h' : Unsimulated (s.modCurrent w fun sf => sf.advance child.product rest) := h.modCurrent
    intro f₁ hf₁
    have hold := h' f₁
    have hold' := h' f
    grind [pendingFrame, FullFrame.make]
  | makeReady hrun hpf => exact h
  | promoteCall hrun hf hstack hsf =>
    intro f₁ hf₁
    have hold := h f₁
    grind [promoteCall, FullFrame.spawned, FullFrame.make]
  | steal hne hteam htype hw' hnext hrun hf hstack hsf hsim =>
    intro f₁ hf₁
    have hold := h f₁
    grind [stealState, FullFrame.looted, FullFrame.spawned, FullFrame.make]
  | promote hrun hf hstack hsf hjoin hforce => exact absurd hforce (by simp)
  | readySteal hteam htype hw' hnext hpf =>
    intro f₁ hf₁
    have hold := h f₁
    grind [readyState]
  | beginReturn hrun hstack hd hp' hdet hcode hsync => exact h
  | @rearrangeSpawn _ w d p _ _ _ left' _ _ _ right' hphase hd hp hre =>
    have hslots : Unsimulated ((s.setSlot left' (leftSlotForSpawnReturn s p d)).setSlot right'
        (.rightMap d)) := h.setSlot.setSlot
    exact hslots.congr rfl fun _ => rfl
  | finishReturn hphase hd hp' hright =>
    intro f₁ hf₁
    have hold := h f₁
    grind [finishReturn]
  | beginSync hrun hstack hf hsync hcode =>
    rw [beginSync_closed]
    intro f₁ hf₁
    have hold := h f₁
    grind
  | @rearrangeSync _ w f _ _ left' _ _ hphase hf hre =>
    have hslot : Unsimulated (s.setSlot left' (leftSlotForSync s f)) := h.setSlot
    exact hslot.congr rfl fun _ => rfl
  | suspend hphase hf =>
    intro f₁ hf₁
    have hold := h f₁
    grind [suspend]
  | freeFiber hphase => exact h
  | leaveSync hphase hf => exact h
  | leaveSpawn hphase hd hp' =>
    intro f₁ hf₁
    have hold := h f₁
    simp only [dropFf, leaveFf] at hf₁ ⊢
    grind
  | countDown hjoin =>
    rw [countDown_closed]
    intro f₁ hf₁
    have hold := h f₁
    grind
  | handOver hjoin ht hself =>
    intro f₁ hf₁
    have hold := h f₁
    grind [handOver]
  | takeBack hnext hjoin hsim hforce => exact absurd hforce (by simp)
  | leaveCall hrun hstack hf hjoin hcall hcode hsync =>
    intro f₁ hf₁
    have hold := h f₁
    grind [leaveCall]
  | finishCall =>
    intro f₁ hf₁
    have hold := h f₁
    grind [finishCall, FullFrame.resumed]
  | resume hphase hnext =>
    intro f₁ hf₁
    have hold := h f₁
    grind [resumeState, FullFrame.resumed]
  | returnInitial hrun hstack hf hlast hcode hsync hjoin =>
    intro f₁ hf₁
    have hold := h f₁
    grind [returnInitial]
  | loseTeam hphase htype hready => exact h

end Moves

-- ---------------------------------------------------------------------------
-- What every step keeps
-- ---------------------------------------------------------------------------

/-- The tree of frames is in order, a frame that is suspended is waited for, and no
steal has been simulated. -/
def InOrder (s : State M) (owed : Option FrameId) : Prop :=
  Unsimulated s ∧ ∃ site, Shape s site owed ∧ Awaited s site

/-- The worker resumes the frame. -/
def Resumed (s : State M) (w : WorkerId) (f : FrameId) : Prop :=
  (s.worker w).frameFf = some f ∧ (s.worker w).phase = .running

/-- The frame passes its sync, since all its children have finished. It is given to one
worker, which resumes it at once if there is no other. -/
structure PassesSync (P : Nat) (s : State M) (w : WorkerId) (f : FrameId) : Prop where
  given : (s.worker w).nextFrameFf = some f ∨ P = 1 ∧ Resumed s w f
  alone : ∀ v, Owns s v f → v = w
  live  : s.live f = true
  kids  : (s.kids f).card = 0

section Kept

variable {s r : State M} {site : FrameId → Site} {owed owed' : Option FrameId} {f g : FrameId}
  {w v : WorkerId} {P : Nat} {force : Bool}

omit [DecidableEq K] [∀ k, Monoid (M k)] in
/-- A frame has one owner. -/
theorem Placed.owner_unique (h : Placed s site) (hv : Owns s v f) (hw : Owns s w f) : v = w := by
  rcases hv with hv | hv
  · have hsite := (h.running v f).mp hv
    rcases hw with hw | hw
    · exact Site.running.inj (hsite.symm.trans ((h.running w f).mp hw))
    · exact absurd (hsite.symm.trans ((h.given w f).mp hw)) (by simp)
  · have hsite := (h.given v f).mp hv
    rcases hw with hw | hw
    · exact absurd (hsite.symm.trans ((h.running w f).mp hw)) (by simp)
    · exact Site.given.inj (hsite.symm.trans ((h.given w f).mp hw))

theorem InOrder.move (h : InOrder s owed) (hmove : Move false owed s owed' r) :
    InOrder r owed' := by
  obtain ⟨hsim, site, hs, hawaited⟩ := h
  exact ⟨hsim.move hs hmove, hawaited.move hs hmove⟩

theorem InOrder.quiet (h : InOrder s none) (hquiet : Quiet false s r) : InOrder r none := by
  induction hquiet with
  | refl => exact h
  | head hmove _ _ ih => exact ih (h.move hmove)

omit [DecidableEq K] [∀ k, Monoid (M k)] in
theorem InOrder.owner_unique (h : InOrder s owed) (hv : Owns s v f) (hw : Owns s w f) :
    v = w := by
  obtain ⟨-, site, hs, -⟩ := h
  exact hs.placed.owner_unique hv hw

/-- Unless a frame is counted down, all frames stay at their syncs. -/
theorem AtSync.stays (h : InOrder s none) (hmove : Move false none s owed' r)
    (hf : AtSync s f) : AtSync r f := by
  obtain ⟨-, site, hs, -⟩ := h
  rcases hf.move hs hmove with hf | ⟨howed, -⟩
  · exact hf
  · exact absurd howed (by simp)

theorem AtSync.quiet (h : InOrder s none) (hquiet : Quiet false s r) (hf : AtSync s f) :
    AtSync r f := by
  induction hquiet with
  | refl => exact hf
  | head hmove _ _ ih => exact ih (h.move hmove) (hf.stays h hmove)

theorem Quiet.keepsGiven (h : Quiet force s r) : KeepsGiven s r := by
  induction h with
  | refl => exact .refl
  | head _ hkept _ ih => exact hkept.trans ih

/-- Leaving a frame does not touch the frames that have been given. -/
theorem keepsGiven_leave (h : Move force none s (some f) r) : KeepsGiven s r := by
  cases h with
  | leaveSync => exact .of_ite (fun _ => rfl) rfl
  | leaveSpawn => exact .of_ite (fun _ => rfl) rfl

/-- The worker that a frame is handed to had no other. -/
theorem keepsGiven_settle (h : Move false (some f) s none r) : KeepsGiven s r := by
  cases h with
  | countDown =>
    rw [countDown_closed]
    exact .of_eq fun _ => rfl
  | @handOver _ w t f hjoin ht hself =>
    intro v g hg
    have hv : v ≠ t := by
      rintro rfl
      exact absurd ((receiver_free ht).symm.trans hg) (by simp)
    simpa [handOver, hv] using hg
  | takeBack _ _ _ hforce => exact absurd hforce (by simp)

omit [DecidableEq K] [∀ k, Monoid (M k)] in
/-- The worker that resumes its frame is the one it was given to. -/
theorem given_resume (hnext : (s.worker w).nextFrameFf = some g)
    (hgiven : (s.worker v).nextFrameFf = some f) :
    ((resumeState s w g).worker v).nextFrameFf = some f ∨ Resumed (resumeState s w g) v f := by
  by_cases hv : v = w
  · subst hv
    obtain rfl := Option.some.inj (hnext.symm.trans hgiven)
    exact .inr ⟨congrArg Worker.frameFf (if_pos rfl), congrArg Worker.phase (if_pos rfl)⟩
  · refine .inl ?_
    rw [show (resumeState s w g).worker v = s.worker v from if_neg hv]
    exact hgiven

theorem InOrder.strides (h : InOrder s none) (hstrides : Strides P false s r) :
    InOrder r none := by
  cases hstrides with
  | quiet hquiet => exact h.quiet hquiet
  | resume hphase hnext => exact h.move (.resume hphase hnext)
  | settle hquiet hleave hsettle => exact ((h.quiet hquiet).move hleave).move hsettle
  | settleResume _ hquiet hleave hsettle hphase hnext =>
    exact (((h.quiet hquiet).move hleave).move hsettle).move (.resume hphase hnext)

/-- A frame that has been given stays given until it is resumed. -/
theorem Strides.given (hstrides : Strides P false s r)
    (hgiven : (s.worker w).nextFrameFf = some f) :
    (r.worker w).nextFrameFf = some f ∨ Resumed r w f := by
  cases hstrides with
  | quiet hquiet => exact .inl (hquiet.keepsGiven w f hgiven)
  | resume hphase hnext => exact given_resume hnext hgiven
  | settle hquiet hleave hsettle =>
    exact .inl ((hquiet.keepsGiven.trans ((keepsGiven_leave hleave).trans
      (keepsGiven_settle hsettle))) w f hgiven)
  | settleResume _ hquiet hleave hsettle hphase hnext =>
    exact given_resume hnext ((hquiet.keepsGiven.trans ((keepsGiven_leave hleave).trans
      (keepsGiven_settle hsettle))) w f hgiven)

/-- A frame stays at its sync until it passes it. -/
theorem AtSync.strides (h : InOrder s none) (hstrides : Strides P false s r) (hf : AtSync s f) :
    AtSync r f ∨ ∃ w, PassesSync P r w f := by
  have hr := h.strides hstrides
  -- a worker leaves a frame, settles what it owes, and may resume at once
  cases hstrides with
  | quiet hquiet => exact .inl (hf.quiet h hquiet)
  | resume hphase hnext => exact .inl (hf.stays h (.resume hphase hnext))
  | settle hquiet hleave hsettle =>
    obtain ⟨-, site, hs, -⟩ := (h.quiet hquiet).move hleave
    rcases ((hf.quiet h hquiet).stays (h.quiet hquiet) hleave).move hs hsettle with
      hr' | ⟨-, t, hgiven⟩
    · exact .inl hr'
    · -- handed over: the worker that gets it is its only owner
      exact .inr ⟨t, .inl hgiven.next, fun v hv => hr.owner_unique hv (.inr hgiven.next),
        hgiven.live, hgiven.kids⟩
  | @settleResume _ _ v _ g w hP hquiet hleave hsettle hphase hnext =>
    have hleft := (h.quiet hquiet).move hleave
    obtain ⟨-, site, hs, -⟩ := hleft
    rcases ((hf.quiet h hquiet).stays (h.quiet hquiet) hleave).move hs hsettle with
      hr' | ⟨-, t, hgiven⟩
    · exact .inl (hr'.stays (((h.quiet hquiet).move hleave).move hsettle) (.resume hphase hnext))
    · refine .inr ⟨t, ?_⟩
      -- the frame is resumed in the same stride; its children are still the same
      have hparent : ∀ d, ((resumeState v w g).ff d).parent = (v.ff d).parent := by
        intro d
        by_cases hd : d = g
        · subst hd
          show (if d = d then (v.ff d).resumed else v.ff d).parent = _
          rw [if_pos rfl]
          rfl
        · exact congrArg FullFrame.parent (if_neg hd)
      have hkids : (resumeState v w g).kids f = v.kids f := kids_congr rfl rfl hparent
      have hlive : (resumeState v w g).live f = true := hgiven.live
      rcases given_resume hnext hgiven.next with hnext' | hresumed
      · exact ⟨.inl hnext', fun u hu => hr.owner_unique hu (.inr hnext'), hlive,
          hkids ▸ hgiven.kids⟩
      · exact ⟨.inr ⟨hP, hresumed⟩, fun u hu => hr.owner_unique hu (.inl hresumed.1), hlive,
          hkids ▸ hgiven.kids⟩

end Kept

-- ---------------------------------------------------------------------------
-- Runs
-- ---------------------------------------------------------------------------

/-- The counter of the frame is the number of its children, and one more if it has an
owner. It has at most one. -/
def Counts (s : State M) (f : FrameId) : Prop :=
  ∃ owners : Finset WorkerId, owners.card ≤ 1 ∧ (∀ w, w ∈ owners ↔ Owns s w f) ∧
    (s.ff f).joinCounter = owners.card + (s.kids f).card

/-- What the join counters are for. -/
structure JoinCounters (g : Settings) (s : State M) : Prop where
  /-- A counter counts the children of a frame and its owner. -/
  counts  : ∀ f, s.live f = true → Counts s f
  /-- No step counts down a counter that is 0. -/
  avoids  : ∀ e m, Step g s e (.error m) → m ≠ decjoinText
  /-- A frame at its sync has a count, and without an owner it has a child. -/
  awaited : ∀ f, AtSync s f → 0 < (s.ff f).joinCounter ∧ (Unowned s f → 0 < (s.kids f).card)
  /-- In every run it stays at its sync until it is given to a worker, with no children
  left, and stays given until this worker resumes it. -/
  passes  : ∀ f, AtSync s f → ∀ tr, (system M g).IsPath s tr →
    LTS.Until (AtSync · f) (fun t tr' => ∃ w, PassesSync g.P t w f ∧ (Resumed t w f ∨
      LTS.Until (fun u => (u.worker w).nextFrameFf = some f) (fun u _ => Resumed u w f) tr')) tr

section Start

variable {g : Settings} {s t : State M} {e : Event M} {f : FrameId} {w : WorkerId}

omit [DecidableEq K] [∀ k, Monoid (M k)]

theorem initial_placed (h : Initial g s) : Placed s fun _ => .gone := by
  obtain ⟨hworker, hlive, -, -, hpending, -⟩ := h
  have hplace : ∀ a, s.place a = [] := by
    intro a
    cases a with
    | none => exact hpending
    | some w =>
      rw [State.place, hworker]
      rfl
  refine ⟨fun f => ?_, fun f hf => absurd rfl hf, fun w f => ?_, fun w f => ?_, fun w f => ?_,
    fun a f => ?_, fun a => ?_⟩
  · simp [hlive]
  · simp [hworker, initialWorker]
  · simp [hworker, initialWorker]
  · by_cases hw : w + 1 < g.P
    · simp [hworker, initialWorker, hw]
    · simp [hworker, initialWorker, hw]
  · simp [hplace]
  · simp [hplace]

theorem initial_workersOk (h : Initial g s) : WorkersOk s := by
  have hworker : ∀ w, s.worker w = initialWorker g.P w := fun w => congrFun h.1 w
  refine ⟨fun w => ?_, fun w => ?_, fun w _ => ?_, fun w sf hsf => ?_, fun w _ => ?_⟩
  · by_cases hw : w + 1 < g.P
    · simp [hworker, initialWorker, hw]
    · simp [hworker, initialWorker, hw]
  · by_cases hw : w + 1 < g.P
    · simp [hworker, initialWorker, hw, Phase.active]
    · simp [hworker, initialWorker, hw, Phase.active]
  · rw [hworker]
    rfl
  · rw [hworker] at hsf
    exact absurd hsf List.not_mem_nil
  · rw [hworker]
    rfl

theorem linked_gone : Linked s (fun _ => .gone) none where
  current _ _ h := nomatch h
  leaving _ _ h := nomatch h
  syncing _ _ h := nomatch h
  given _ _ h := nomatch h
  waiting _ _ h := nomatch h
  carried _ _ h := nomatch h
  suspended _ h := nomatch h
  parent _ _ h := absurd rfl h
  detached _ h := absurd rfl h
  called _ h := absurd rfl h
  caller _ _ h := absurd rfl h
  callOnce _ _ _ h := absurd rfl h
  spawned _ _ h := absurd rfl h
  initial _ h := absurd rfl h
  owed _ h := nomatch h

/-- Before the runtime starts there are no frames. -/
theorem initial_inOrder (h : Initial g s) : InOrder s none := by
  refine ⟨fun f hf => ?_, fun _ => .gone, ⟨initial_placed h, initial_workersOk h, linked_gone,
    ⟨fun p d hp => absurd rfl hp, fun p hp => absurd rfl hp⟩, fun f hf => absurd rfl hf⟩,
    fun f hf => ?_⟩
  · rw [h.2.1] at hf
    exact absurd hf Bool.false_ne_true
  · exact absurd hf (by simp)

end Start

section Runs

variable {g : Settings} {s t : State M} {e : Event M} {f : FrameId} {w : WorkerId}

theorem Step.inOrder (h : InOrder s none) (hforce : g.forceReduce = false)
    (hstep : Step g s e (.ok t)) : Strides g.P false s t := by
  obtain ⟨hsim, site, hs, -⟩ := h
  have hstrides := hstep.strides hs hforce fun f hf => hsim f ((hs.placed.live f).mpr hf)
  rwa [hforce] at hstrides

theorem reachable_inOrder (hforce : g.forceReduce = false) (h : (system M g).Reachable s) :
    InOrder s none :=
  LTS.Reachable.invariant (T := system M g) (P := fun s => InOrder s none)
    (fun _ hinit => initial_inOrder hinit)
    (fun _ _ _ hs hstep => hs.strides (Step.inOrder hs hforce hstep)) h

/-- A worker keeps the frame that it has been given until it resumes it. -/
theorem given_along (hforce : g.forceReduce = false) (hreach : (system M g).Reachable s)
    (hgiven : (s.worker w).nextFrameFf = some f) {tr : List (Event M × State M)}
    (htr : (system M g).IsPath s tr) :
    LTS.Until (fun t => (t.worker w).nextFrameFf = some f) (fun t _ => Resumed t w f) tr := by
  refine LTS.until_along (T := system M g) (Q := fun t => Resumed t w f) ?_ ?_ hreach hgiven htr
  · intro a e b ha hgiven hstep
    exact (Step.inOrder (reachable_inOrder hforce ha) hforce hstep).given hgiven
  · exact fun _ _ _ hresumed _ => hresumed

omit [DecidableEq K] [∀ k, Monoid (M k)] in
theorem InOrder.counts (h : InOrder s none) (hf : s.live f = true) : Counts s f := by
  obtain ⟨-, site, hs, -⟩ := h
  have hcount := hs.counted f ((hs.placed.live f).mp hf)
  -- the owner of a frame can be read off its place
  have howns : ∀ w, Owns s w f ↔ site f = .running w ∨ site f = .given w := fun w =>
    or_congr (hs.placed.running w f) (hs.placed.given w f)
  have hone : ∀ w, (∀ v, Owns s v f ↔ v = w) → (site f).count = 1 → Counts s f := by
    intro w hw hsite
    refine ⟨{w}, by simp, fun v => by rw [hw v, Finset.mem_singleton], ?_⟩
    rw [hcount, hsite]
    rfl
  have hnone : (∀ v, ¬ Owns s v f) → (site f).count = 0 → Counts s f := by
    intro hw hsite
    refine ⟨∅, by simp, fun v => by simp [hw v], ?_⟩
    rw [hcount, hsite]
    rfl
  -- one owner in two places, none in the others
  cases hsite : site f with
  | running w => exact hone w (fun v => by rw [howns, hsite]; simp [eq_comm]) (by rw [hsite]; rfl)
  | given w => exact hone w (fun v => by rw [howns, hsite]; simp [eq_comm]) (by rw [hsite]; rfl)
  | gone => exact hnone (fun v => by rw [howns, hsite]; simp) (by rw [hsite]; rfl)
  | waiting a => exact hnone (fun v => by rw [howns, hsite]; simp) (by rw [hsite]; rfl)
  | carried w => exact hnone (fun v => by rw [howns, hsite]; simp) (by rw [hsite]; rfl)
  | suspended => exact hnone (fun v => by rw [howns, hsite]; simp) (by rw [hsite]; rfl)

omit [DecidableEq K] [∀ k, Monoid (M k)] in
/-- A frame at its sync that its worker has left is suspended, and has a child. -/
theorem AtSync.awaited (h : InOrder s none) (hf : AtSync s f) :
    0 < (s.ff f).joinCounter ∧ (Unowned s f → 0 < (s.kids f).card) := by
  obtain ⟨-, site, hs, hawaited⟩ := h
  have hlive := (hs.placed.live f).mp hf.1
  have hcount := hs.counted f hlive
  obtain ⟨hrunning, -, hwaiting, hcarried⟩ := hf.elsewhere hs
  -- at a sync a frame is with its worker, or suspended
  cases hsite : site f with
  | gone => exact absurd hsite hlive
  | running w =>
    refine ⟨?_, fun hno => absurd (.inl ((hs.placed.running w f).mpr hsite)) (hno w)⟩
    rw [hcount, hsite, Site.count]
    omega
  | given w => exact absurd ((hs.placed.given w f).mpr hsite) (hf.2.2.2.1 w)
  | waiting a => exact absurd ((hs.placed.waiting a f).mpr hsite) (hwaiting a)
  | carried w => exact absurd ((hs.placed.carried w f).mpr hsite) (hcarried w)
  | suspended =>
    have hpos := hawaited f hsite
    refine ⟨hpos, fun _ => ?_⟩
    -- nobody is owed the count, so children hold it
    have hsuspended : (site f).count = 0 := by
      rw [hsite]
      rfl
    have howed : owedTo none f = 0 := if_neg (by simp)
    omega

/-- **Join counters.** Without `force_reduce`, they are right in every state that the
runtime can be in. -/
theorem joinCounters (hforce : g.forceReduce = false) (hreach : (system M g).Reachable s) :
    JoinCounters g s := by
  have h := reachable_inOrder hforce hreach
  refine ⟨fun f hf => h.counts hf, fun e m hstep => ?_, fun f hf => hf.awaited h,
    fun f hf tr htr => ?_⟩
  · obtain ⟨hsim, site, hs, -⟩ := h
    rintro rfl
    exact hstep.avoids hs hforce (fun f hf => hsim f ((hs.placed.live f).mpr hf)) rfl
  · refine LTS.until_along (T := system M g) (Q := fun t => ∃ w, PassesSync g.P t w f) ?_ ?_
      hreach hf htr
    · intro a e b ha hfa hstep
      have ha := reachable_inOrder hforce ha
      exact hfa.strides ha (hstep.inOrder ha hforce)
    · rintro t tr' ht ⟨w, hpasses⟩ htr'
      refine ⟨w, hpasses, ?_⟩
      rcases hpasses.given with hgiven | ⟨-, hresumed⟩
      · exact .inr (given_along hforce ht hgiven htr')
      · exact .inl hresumed

end Runs

section Example

/-- User worker 2 has left its frame, which waits for a pending frame. -/
theorem exampleWaiting_atSync : AtSync exampleWaiting 1 := by
  refine ⟨by decide, by decide, by decide, fun w => ?_, fun d hd => ?_⟩
  · rcases w with _ | _ | _ | w
    · decide
    · decide
    · decide
    · exact nofun
  · rcases d with _ | _ | _ | _ | d
    · decide
    · decide
    · decide
    · decide
    · exact nomatch hd

theorem joinCounters_exampleWaiting :
    JoinCounters exampleSettings exampleWaiting ∧ AtSync exampleWaiting 1 :=
  ⟨joinCounters rfl (LTS.reachable_of_isPath (.init exampleStart_initial) exampleRun_isPath
    (.enterRuntime 2, exampleWaiting) (by simp [exampleRun])), exampleWaiting_atSync⟩

end Example

end SwanRuntime.Runtime
