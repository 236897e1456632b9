import SwanRuntime.Runtime.Reductions

/-!
# The runtime — steps are sequences of moves

Resuming a frame, returning to one, and leaving one at a sync or at the end of a
spawned function, as sequences of moves. A worker that leaves a frame counts down, or
hands over, the one frame that waits for it, and with a single worker resumes it at
once; the other functions here do nothing of the kind.

## Results

* `finishCilkrtsReturn_quiet`          — returning to a caller.
* `doSync_strides`, `doReturnFromSpawn_strides` — leaving a frame.
-/

namespace SwanRuntime.Runtime

open Reducers Checked

variable {K : Type} [DecidableEq K] {M : K → Type} [∀ k, Monoid (M k)]

/-- The moves of one step: quiet ones, of which the last may be that a worker leaves a
frame and another frame is settled; or resuming a frame, which may have just been handed
over. -/
inductive Strides (P : Nat) (force : Bool) : State M → State M → Prop
  | quiet {s t : State M} (h : Quiet force s t) : Strides P force s t
  | resume {s : State M} {w : WorkerId} {f : FrameId} (hphase : (s.worker w).phase = .scheduling)
      (hnext : (s.worker w).nextFrameFf = some f) : Strides P force s (resumeState s w f)
  | settle {s t u v : State M} {f : FrameId} (h : Quiet force s t)
      (hleave : Move force none t (some f) u) (hsettle : Move force (some f) u none v) :
      Strides P force s v
  | settleResume {s t u v : State M} {f g : FrameId} {w : WorkerId} (hP : P = 1)
      (h : Quiet force s t)
      (hleave : Move force none t (some f) u) (hsettle : Move force (some f) u none v)
      (hphase : (v.worker w).phase = .scheduling) (hnext : (v.worker w).nextFrameFf = some g) :
      Strides P force s (resumeState v w g)

theorem Strides.of_eq {P : Nat} {force : Bool} {s t r : State M} (heq : r = t)
    (h : Strides P force s t) : Strides P force s r := heq ▸ h

theorem Strides.moves {P : Nat} {force : Bool} {s t : State M} (h : Strides P force s t) :
    Moves force none s none t := by
  cases h with
  | quiet h => exact h.moves
  | resume hphase hnext => exact .single (.resume hphase hnext)
  | settle h hleave hsettle => exact h.moves.trans (.head hleave (.single hsettle))
  | settleResume hP h hleave hsettle hphase hnext =>
    exact h.moves.trans (.head hleave (.head hsettle (.single (.resume hphase hnext))))

-- ---------------------------------------------------------------------------
-- Resuming a frame, and returning to it
-- ---------------------------------------------------------------------------

section Resume

variable {force : Bool} {s : State M} {w t : WorkerId} {f p d : FrameId}

/-- The state in which the worker is set up to run the frame. -/
def setUp (s : State M) (w : WorkerId) (f : FrameId) : State M :=
  { s with
    worker := fun u =>
      if u = w then
        { s.worker w with
          frameFf := some f
          stack := []
          reducerMap := (s.ff f).resumeMap (s.worker w).reducerMap }
      else s.worker u
    ff := fun g => if g = f then (s.ff f).resumed else s.ff g }

omit [DecidableEq K] [∀ k, Monoid (M k)] in
theorem setupForExecution_ok {r : State M} (h : setupForExecution s w f = .ok r) : r = setUp s w f ∧
    ((s.ff f).frame.unsynched = false → (s.ff f).childrenReducerMap.isSome →
      (s.worker w).reducerMap = none) := by
  unfold setupForExecution setupForExecutionReducers at h
  obtain ⟨u, hu, h⟩ := bind_eq_ok.mp h
  obtain rfl := pure_eq_ok.mp h
  split at hu
  · rename_i hsync
    obtain rfl := pure_eq_ok.mp hu
    refine ⟨?_, fun hno => nomatch hno.symm.trans hsync⟩
    refine State.ext_of (fun u => ?_) (fun g => ?_) (fun _ => rfl) rfl rfl rfl rfl fun _ => rfl
    · by_cases hu : u = w
      · subst hu
        simp [setUp, makeRunnable, FullFrame.resumeMap, hsync]
      · simp [setUp, makeRunnable, hu]
    · by_cases hg : g = f
      · subst hg
        simp [setUp, makeRunnable, FullFrame.resumed, hsync]
      · simp [setUp, makeRunnable, hg]
  · rename_i hsync
    have hsync : (s.ff f).frame.unsynched = false := by simpa using hsync
    obtain ⟨_, -, hu⟩ := bind_eq_ok.mp hu
    split at hu
    · rename_i hmap
      obtain rfl := pure_eq_ok.mp hu
      refine ⟨?_, fun _ hno => by simp [hmap] at hno⟩
      refine State.ext_of (fun u => ?_) (fun g => ?_) (fun _ => rfl) rfl rfl rfl rfl fun _ => rfl
      · by_cases hu : u = w
        · subst hu
          simp [setUp, makeRunnable, FullFrame.resumeMap, hsync, hmap]
        · simp [setUp, makeRunnable, hu]
      · by_cases hg : g = f
        · subst hg
          simp [setUp, makeRunnable, FullFrame.resumed, hsync, hmap]
        · simp [setUp, makeRunnable, hg]
    · rename_i m hmap
      obtain ⟨_, hnone, hu⟩ := bind_eq_ok.mp hu
      obtain rfl := pure_eq_ok.mp hu
      have hnone := Option.isNone_iff_eq_none.mp (assert_eq_ok.mp hnone)
      refine ⟨?_, fun _ _ => hnone⟩
      refine State.ext_of (fun u => ?_) (fun g => ?_) (fun _ => rfl) rfl rfl rfl rfl fun _ => rfl
      · by_cases hu : u = w
        · subst hu
          simp [setUp, makeRunnable, FullFrame.resumeMap, hsync, hmap]
        · simp [setUp, makeRunnable, hu]
      · by_cases hg : g = f
        · subst hg
          simp [setUp, makeRunnable, FullFrame.resumed, hsync]
        · simp [setUp, makeRunnable, hg]

omit [DecidableEq K] [∀ k, Monoid (M k)] in
/-- Setting up a frame that the worker was given is resuming it. -/
theorem resumeState_eq : setPhase (setUp (s.modWorker w fun wk => { wk with nextFrameFf := none }) w f)
    w .running = resumeState s w f := by
  refine State.ext_of (fun u => ?_) (fun g => ?_) (fun _ => rfl) rfl rfl rfl rfl fun _ => rfl
  · by_cases hu : u = w
    · subst hu
      simp [setUp, setPhase, resumeState]
    · simp [setUp, setPhase, resumeState, hu]
  · by_cases hg : g = f
    · subst hg
      simp [setUp, setPhase, resumeState]
    · simp [setUp, setPhase, resumeState, hg]

/-- The scheduling loop resumes a frame. -/
theorem resumeNextFrame_strides {P : Nat} {r : State M}
    (hphase : (s.worker w).phase = .scheduling) (h : resumeNextFrame s w = .ok r) :
    Strides P force s r := by
  unfold resumeNextFrame popNextFrame at h
  obtain ⟨_, -, h⟩ := bind_eq_ok.mp h
  dsimp only at h
  split at h
  · exact nomatch h
  · rename_i g hnext
    obtain ⟨_, -, h⟩ := bind_eq_ok.mp h
    obtain ⟨u, hu, h⟩ := bind_eq_ok.mp h
    obtain ⟨_, -, h⟩ := bind_eq_ok.mp h
    obtain rfl := pure_eq_ok.mp h
    obtain ⟨rfl, -⟩ := setupForExecution_ok hu
    rw [← setPhase_eq, resumeState_eq]
    exact .resume hphase hnext

omit [DecidableEq K] [∀ k, Monoid (M k)] in
theorem releaseFiber_eq (s : State M) (a : Option FiberId) : releaseFiber s a =
    { s with released := fun x => if a = some x then s.released x + 1 else s.released x } := by
  cases a with
  | none =>
    exact State.ext_of (fun _ => rfl) (fun _ => rfl) (fun _ => rfl) rfl rfl rfl
      (by simp [releaseFiber]) fun _ => rfl
  | some x =>
    refine State.ext_of (fun _ => rfl) (fun _ => rfl) (fun _ => rfl) rfl rfl rfl
      (funext fun y => ?_) fun _ => rfl
    by_cases hy : y = x
    · subst hy
      simp [releaseFiber]
    · simp [releaseFiber, hy, Ne.symm hy]

/-- The frame of a user worker returns for good. -/
theorem cReturnFromInitial_quiet {r : State M} (hrun : (s.worker w).phase = .running)
    (hstack : (s.worker w).stack = []) (hf : (s.worker w).frameFf = some f)
    (hlast : (s.ff f).frame.last = true) (hcode : (s.ff f).frame.code = .ret)
    (hsync : (s.ff f).frame.unsynched = false) (h : cReturnFromInitial s w = .ok r) :
    Quiet force s r := by
  unfold cReturnFromInitial at h
  rw [hf] at h
  simp only [releaseFiber_eq] at h
  obtain ⟨_, -, h⟩ := bind_eq_ok.mp h
  obtain ⟨_, hjoin, h⟩ := bind_eq_ok.mp h
  obtain ⟨_, -, h⟩ := bind_eq_ok.mp h
  obtain ⟨u, hu, h⟩ := bind_eq_ok.mp h
  obtain rfl := pure_eq_ok.mp h
  unfold destroyFullFrame at hu
  obtain ⟨_, -, hu⟩ := bind_eq_ok.mp hu
  obtain ⟨_, -, hu⟩ := bind_eq_ok.mp hu
  obtain rfl := pure_eq_ok.mp hu
  have hjoin : (s.ff f).joinCounter = 1 := by simpa using assert_eq_ok.mp hjoin
  refine .of_eq ?_ (.single (.returnInitial hrun hstack hf hlast hcode hsync hjoin)
    (.of_ite (fun _ => rfl) rfl))
  refine State.ext_of (fun u => ?_) (fun g => ?_) (fun g => ?_) rfl rfl rfl
    (funext fun x => ?_) fun _ => rfl
  · by_cases hu : u = w
    · subst hu
      simp [returnInitial]
    · simp [returnInitial, hu]
  · by_cases hg : g = f
    · subst hg
      simp [returnInitial]
    · simp [returnInitial, hg]
  · simp [returnInitial, Function.update_apply]
  · by_cases hx : (s.ff f).fiberSelf = some x
    · simp [returnInitial, hx]
    · simp [returnInitial, hx]

/-- A worker returns from a call, up to where it gives up the lock. -/
theorem cilkrtsReturn_quiet {r : State M} (hrun : (s.worker w).phase = .running)
    (hstack : (s.worker w).stack = []) (hf : (s.worker w).frameFf = some f)
    (hcode : (s.ff f).frame.code = .ret) (hsync : (s.ff f).frame.unsynched = false)
    (h : cilkrtsReturn s w = .ok r) : Quiet force s r := by
  unfold cilkrtsReturn at h
  rw [hf] at h
  dsimp only at h
  obtain ⟨_, hjoin, h⟩ := bind_eq_ok.mp h
  obtain ⟨_, hcall, h⟩ := bind_eq_ok.mp h
  have hjoin : (s.ff f).joinCounter = 1 := by simpa using assert_eq_ok.mp hjoin
  have hcall : (s.ff f).isCallChild = true := assert_eq_ok.mp hcall
  rw [decjoin_eq (by simp [hjoin])] at h
  obtain rfl := pure_eq_ok.mp h
  refine .of_eq ?_ (.single (.leaveCall hrun hstack hf hjoin hcall hcode hsync)
    (.of_ite (fun _ => rfl) rfl))
  refine State.ext_of (fun u => ?_) (fun g => ?_) (fun _ => rfl) rfl rfl rfl rfl fun _ => rfl
  · by_cases hu : u = w
    · subst hu
      simp [leaveCall, countDown]
    · simp [leaveCall, countDown, hu]
  · by_cases hg : g = f
    · subst hg
      simp [leaveCall, countDown]
    · simp [leaveCall, countDown, hg]

/-- A worker goes on with the frame that it has returned to. -/
theorem finishCilkrtsReturn_quiet {r : State M} (hphase : (s.worker w).phase = .callReturning d)
    (hparent : ∀ p, (s.ff d).parent = some p → p ≠ d)
    (hjoin : ∀ p, (s.ff d).parent = some p → 0 < (s.ff p).joinCounter)
    (h : finishCilkrtsReturn s w d = .ok r) : Quiet force s r := by
  unfold finishCilkrtsReturn at h
  split at h
  · cases h
  · rename_i p hp
    have hne := hparent p hp
    have hpos := hjoin p hp
    obtain ⟨u, hu, h⟩ := bind_eq_ok.mp h
    unfold finalizeChildForCall at hu
    obtain ⟨_, hcall, hu⟩ := bind_eq_ok.mp hu
    obtain ⟨_, hzero, hu⟩ := bind_eq_ok.mp hu
    obtain ⟨_, hchildren, hu⟩ := bind_eq_ok.mp hu
    obtain ⟨_, hlast, hu⟩ := bind_eq_ok.mp hu
    obtain ⟨_, hmap, hu⟩ := bind_eq_ok.mp hu
    obtain ⟨_, hright, hu⟩ := bind_eq_ok.mp hu
    obtain ⟨u1, hu1, hu⟩ := bind_eq_ok.mp hu
    obtain ⟨u2, hu2, hu⟩ := bind_eq_ok.mp hu
    -- the assertions on the way say what the move asks for
    unfold spliceStacksForCall at hu1
    obtain ⟨_, hfiber, hu1⟩ := bind_eq_ok.mp hu1
    obtain ⟨_, -, hu1⟩ := bind_eq_ok.mp hu1
    obtain ⟨_, hself, hu1⟩ := bind_eq_ok.mp hu1
    obtain rfl := pure_eq_ok.mp hu1
    unfold unconditionalSteal pushNextFrame at hu2
    rw [decjoin_eq, ok_bind] at hu2
    · dsimp only at hu2
      obtain ⟨_, hnext, hu2⟩ := bind_eq_ok.mp hu2
      obtain rfl := pure_eq_ok.mp hu2
      unfold destroyFullFrame at hu
      obtain ⟨_, -, hu⟩ := bind_eq_ok.mp hu
      obtain ⟨_, -, hu⟩ := bind_eq_ok.mp hu
      obtain rfl := pure_eq_ok.mp hu
      unfold popNextFrame at h
      dsimp only at h
      obtain ⟨_, -, h⟩ := bind_eq_ok.mp h
      split at h
      · rename_i hno
        simp at hno
      · rename_i q hq
        -- what is popped is the frame that was pushed
        have hq : q = p := by simpa using hq.symm
        subst hq
        obtain ⟨_, -, h⟩ := bind_eq_ok.mp h
        obtain ⟨v, hv, h⟩ := bind_eq_ok.mp h
        obtain rfl := pure_eq_ok.mp h
        obtain ⟨rfl, hkeep⟩ := setupForExecution_ok hv
        have hnext : (s.worker w).nextFrameFf = none :=
          Option.isNone_iff_eq_none.mp (assert_eq_ok.mp hnext)
        have hself : (s.ff q).fiberSelf = none := by simpa using assert_eq_ok.mp hself
        have hfiber : (s.ff d).fiberChild = none := by simpa using assert_eq_ok.mp hfiber
        have hright : (s.ff d).rightReducerMap = none := by simpa using assert_eq_ok.mp hright
        have hmap : (s.ff d).childrenReducerMap = none := by simpa using assert_eq_ok.mp hmap
        have hlast : (s.ff q).children.getLast? = some d := by simpa using assert_eq_ok.mp hlast
        have hchildren : (s.ff d).children = [] := by simpa using assert_eq_ok.mp hchildren
        refine .of_eq ?_ (.single (.finishCall hphase hp hnext hchildren hlast hmap hright hfiber
          hself fun hsync hsome => ?_) (.of_ite (fun _ => rfl) rfl))
        · refine State.ext_of (fun v => ?_) (fun g => ?_) (fun g => ?_) rfl rfl rfl rfl
            fun _ => rfl
          · by_cases hv : v = w
            · subst hv
              simp [finishCall, setUp, unlinkChild, incjoin, countDown, FullFrame.resumeMap, hnext,
                modFf_ff_ne _ _ hne]
            · simp [finishCall, setUp, unlinkChild, incjoin, countDown, hv]
          · by_cases hg : g = d
            · subst hg
              simp [finishCall, setUp, unlinkChild, incjoin, countDown, hne.symm]
            · by_cases hgp : g = q
              · subst hgp
                simp [finishCall, setUp, unlinkChild, incjoin, countDown, hg, FullFrame.resumed]
                omega
              · simp [finishCall, setUp, unlinkChild, incjoin, countDown, hg, hgp]
          · simp [finishCall, setUp, unlinkChild, incjoin, countDown, Function.update_apply]
        · have hkeep := hkeep
          simp [unlinkChild, incjoin, countDown, modFf_ff_ne _ _ hne] at hkeep
          exact hkeep hsync hsome
    · simpa [unlinkChild, modFf_ff_ne _ _ hne] using hpos

end Resume
-- ---------------------------------------------------------------------------
-- Leaving a frame
-- ---------------------------------------------------------------------------

section Leaving

variable {force : Bool} {s : State M} {w t : WorkerId} {f p d : FrameId}

/-- What is left of a frame is counted down, or handed over. -/
theorem provablyGoodSteal_move {r : State M} (hpos : 0 < (s.ff f).joinCounter)
    (h : provablyGoodSteal s w f = .ok r) : Move force (some f) s none r := by
  rw [provablyGoodSteal_eq hpos] at h
  split at h
  · rename_i hjoin
    obtain ⟨_, hself, h⟩ := bind_eq_ok.mp h
    obtain ⟨t, ht, h⟩ := bind_eq_ok.mp h
    obtain rfl := pure_eq_ok.mp h
    exact .handOver hjoin ht (Option.isNone_iff_eq_none.mp (assert_eq_ok.mp hself))
  · rename_i hjoin
    obtain rfl := Except.ok.inj h
    exact .countDown hjoin

omit [DecidableEq K] [∀ k, Monoid (M k)] in
/-- What counting down a frame leaves alone. -/
theorem provablyGoodSteal_kept {r : State M} (hpos : 0 < (s.ff f).joinCounter)
    (h : provablyGoodSteal s w f = .ok r) : r.released = s.released ∧ r.live = s.live ∧
      ∀ v, (r.worker v).frameFf = (s.worker v).frameFf := by
  rw [provablyGoodSteal_eq hpos] at h
  split at h
  · obtain ⟨_, -, h⟩ := bind_eq_ok.mp h
    obtain ⟨t, -, h⟩ := bind_eq_ok.mp h
    obtain rfl := pure_eq_ok.mp h
    refine ⟨rfl, rfl, fun v => ?_⟩
    by_cases hv : v = t
    · subst hv
      simp [handOver]
    · simp [handOver, hv]
  · obtain rfl := Except.ok.inj h
    exact ⟨rfl, rfl, fun _ => rfl⟩

/-- The worker is elsewhere, and other frames and fibers are in use. -/
def elsewhere (s : State M) (w : WorkerId) (a : Option FrameId) (phase : Phase M)
    (live : FrameId → Bool) (released : FiberId → Nat) : State M :=
  { s with
    worker := fun u =>
      if u = w then { s.worker w with frameFf := a, phase := phase } else s.worker u
    live := live
    released := released }

omit [DecidableEq K] [∀ k, Monoid (M k)] in
/-- Nothing of that matters to the frame that is counted down. -/
theorem provablyGoodSteal_elsewhere {r : State M} (hpos : 0 < (s.ff f).joinCounter)
    (a : Option FrameId) (phase : Phase M) (live : FrameId → Bool) (released : FiberId → Nat)
    (h : provablyGoodSteal s w f = .ok r) :
    provablyGoodSteal (elsewhere s w a phase live released) w f =
      .ok (elsewhere r w a phase live released) := by
  have hworker : ∀ v, ((elsewhere s w a phase live released).worker v).nextFrameFf =
        (s.worker v).nextFrameFf ∧
      ((elsewhere s w a phase live released).worker v).team = (s.worker v).team ∧
      ((elsewhere s w a phase live released).worker v).type = (s.worker v).type := by
    intro v
    by_cases hv : v = w
    · subst hv
      simp [elsewhere]
    · simp [elsewhere, hv]
  have hff : (elsewhere s w a phase live released).ff = s.ff := rfl
  have hreceiver : receiver (elsewhere s w a phase live released) w f = receiver s w f := by
    unfold receiver
    simp only [hff, hworker]
  rw [provablyGoodSteal_eq hpos] at h
  rw [provablyGoodSteal_eq (s := elsewhere s w a phase live released) hpos, hff, hreceiver]
  split at h
  · rename_i hjoin
    obtain ⟨_, hself, h⟩ := bind_eq_ok.mp h
    obtain ⟨t, ht, h⟩ := bind_eq_ok.mp h
    obtain rfl := pure_eq_ok.mp h
    rw [if_pos hjoin, hself, ok_bind, ht, ok_bind]
    refine congrArg Except.ok (State.ext_of (fun u => ?_) (fun _ => rfl) (fun _ => rfl) rfl rfl rfl
      rfl fun _ => rfl)
    by_cases ht : t = w
    · subst ht
      by_cases hu : u = t
      · subst hu
        simp [elsewhere, handOver]
      · simp [elsewhere, handOver, hu]
    · by_cases hu : u = w
      · subst hu
        simp [elsewhere, handOver, Ne.symm ht]
      · simp [elsewhere, handOver, hu, ht]
  · rename_i hjoin
    obtain rfl := Except.ok.inj h
    rw [if_neg hjoin]
    rfl

omit [DecidableEq K] [∀ k, Monoid (M k)] in
/-- The frame that a worker leaves does not matter to the one that it resumes. -/
theorem resumeState_elsewhere (u : State M) (a b : Option FrameId) (phase : Phase M)
    (live : FrameId → Bool) (released : FiberId → Nat) :
    setPhase (setUp ({ u with live := live, released := released }.modWorker w fun wk =>
        { wk with frameFf := b, nextFrameFf := none }) w f) w .running =
      resumeState (elsewhere u w a phase live released) w f := by
  refine State.ext_of (fun v => ?_) (fun g => ?_) (fun _ => rfl) rfl rfl rfl rfl fun _ => rfl
  · by_cases hv : v = w
    · subst hv
      simp [setUp, setPhase, resumeState, elsewhere]
    · simp [setUp, setPhase, resumeState, elsewhere, hv]
  · by_cases hg : g = f
    · subst hg
      simp [setUp, setPhase, resumeState, elsewhere]
    · simp [setUp, setPhase, resumeState, elsewhere, hg]

omit [DecidableEq K] [∀ k, Monoid (M k)] in
/-- The worker has released its fiber and left its frame. -/
theorem elsewhere_leave : elsewhere (s.modWorker w fun wk =>
      { wk with fiberToFree := none, frameFf := none }) w none .scheduling s.live
        (freeFiber s w).released = leaveFf (freeFiber s w) w := by
  refine State.ext_of (fun v => ?_) (fun _ => rfl) (fun _ => rfl) rfl rfl rfl rfl fun _ => rfl
  by_cases hv : v = w
  · subst hv
    simp [elsewhere, leaveFf, freeFiber]
  · simp [elsewhere, leaveFf, freeFiber, hv]

omit [DecidableEq K] [∀ k, Monoid (M k)] in
/-- The fiber may as well be released when the frame has been counted down. -/
theorem released_elsewhere {u : State M} {live : FrameId → Bool}
    (hframe : (u.worker w).frameFf = none) (hlive : u.live = live)
    (hreleased : u.released = s.released) :
    (releaseFiber u (s.worker w).fiberToFree).modWorker w (fun wk => { wk with phase := .scheduling }) =
      elsewhere u w none .scheduling live (freeFiber s w).released := by
  rw [releaseFiber_eq]
  refine State.ext_of (fun v => ?_) (fun _ => rfl) (fun g => ?_) rfl rfl rfl (funext fun x => ?_)
    fun _ => rfl
  · by_cases hv : v = w
    · subst hv
      simp [elsewhere, hframe]
    · simp [elsewhere, hv]
  · exact congrFun hlive g
  · show (if _ then u.released x + 1 else u.released x) = _
    rw [hreleased]
    by_cases hx : (s.worker w).fiberToFree = some x
    · simp [elsewhere, freeFiber, hx]
    · simp [elsewhere, freeFiber, hx]

/-- A worker leaves a frame at its sync. -/
theorem doSync_strides {P : Nat} {r : State M} (hphase : (s.worker w).phase = .synching)
    (hf : (s.worker w).frameFf = some f) (hpos : 0 < (s.ff f).joinCounter)
    (h : longjmpIntoRuntime P s w .doSync = .ok r) : Strides P force s r := by
  unfold longjmpIntoRuntime at h
  rw [hf] at h
  dsimp only at h
  split at h
  · rename_i hP
    obtain ⟨u, hu, h⟩ := bind_eq_ok.mp h
    unfold SchedulingStackFcn.call doSync at hu
    obtain ⟨_, -, hu⟩ := bind_eq_ok.mp hu
    obtain ⟨_, -, hu⟩ := bind_eq_ok.mp hu
    rw [if_pos rfl] at h
    unfold popNextFrame at h
    dsimp only at h
    split at h
    · exact nomatch h
    · rename_i g hg
      obtain ⟨v, hv, h⟩ := bind_eq_ok.mp h
      obtain rfl := pure_eq_ok.mp h
      obtain ⟨rfl, -⟩ := setupForExecution_ok hv
      have hdown := provablyGoodSteal_elsewhere hpos none .scheduling s.live s.released hu
      obtain ⟨hreleased, hlive, -⟩ := provablyGoodSteal_kept hpos hu
      have hnext : (u.worker w).nextFrameFf = some g := by simpa using hg
      refine .of_eq ?_ (.settleResume (w := w) (g := g) hP .refl (.leaveSync hphase hf)
        (provablyGoodSteal_move (s := leaveFf s w) hpos hdown) ?_ ?_)
      · rw [← resumeState_elsewhere u none none, ← hreleased, ← hlive, modWorker_modWorker, setPhase_eq]
      · simp [elsewhere]
      · simp [elsewhere, hnext]
  · obtain ⟨_, -, h⟩ := bind_eq_ok.mp h
    obtain ⟨_, -, h⟩ := bind_eq_ok.mp h
    obtain ⟨u, hu, h⟩ := bind_eq_ok.mp h
    obtain ⟨_, -, h⟩ := bind_eq_ok.mp h
    obtain rfl := pure_eq_ok.mp h
    unfold SchedulingStackFcn.call doSync at hu
    obtain ⟨_, -, hu⟩ := bind_eq_ok.mp hu
    obtain ⟨_, -, hu⟩ := bind_eq_ok.mp hu
    obtain ⟨hreleased, hlive, hframe⟩ := provablyGoodSteal_kept
      (s := s.modWorker w fun wk => { wk with fiberToFree := none, frameFf := none }) hpos hu
    have hdown := provablyGoodSteal_elsewhere
      (s := s.modWorker w fun wk => { wk with fiberToFree := none, frameFf := none }) hpos none
      .scheduling s.live (freeFiber s w).released hu
    rw [elsewhere_leave] at hdown
    have hphase' : ((freeFiber s w).worker w).phase = .synching :=
      (congrArg Worker.phase (if_pos rfl)).trans hphase
    have hf' : ((freeFiber s w).worker w).frameFf = some f :=
      (congrArg Worker.frameFf (if_pos rfl)).trans hf
    refine .of_eq ?_ (.settle (.single (.freeFiber (Or.inr hphase)) (.of_ite (fun _ => rfl) rfl))
      (.leaveSync hphase' hf') (provablyGoodSteal_move hpos hdown))
    exact released_elsewhere (hframe w |>.trans (by rw [modWorker_worker_self])) hlive hreleased

omit [DecidableEq K] [∀ k, Monoid (M k)] in
/-- The child is destroyed, and its parent counted down. -/
theorem doReturnFromSpawn_ok {u : State M} (hp : (s.ff d).parent = some p) (hne : p ≠ d)
    (hsim : (s.ff p).simulatedStolen = false) (hpos : 0 < (s.ff d).joinCounter)
    (h : doReturnFromSpawn s w d = .ok u) : ∃ v, provablyGoodSteal (countDown s d) w p = .ok v ∧
      u = { v with live := fun g => if g = d then false else v.live g } := by
  unfold doReturnFromSpawn at h
  obtain ⟨_, -, h⟩ := bind_eq_ok.mp h
  rw [hp] at h
  dsimp only at h
  rw [decjoin_eq hpos, ok_bind] at h
  dsimp only at h
  have hsim : ((countDown s d).ff p).simulatedStolen = false := by
    rw [countDown, modFf_ff_ne _ _ hne, hsim]
  rw [hsim] at h
  obtain ⟨v, hv, h⟩ := bind_eq_ok.mp h
  unfold destroyFullFrame at h
  obtain ⟨_, -, h⟩ := bind_eq_ok.mp h
  obtain ⟨_, -, h⟩ := bind_eq_ok.mp h
  obtain rfl := pure_eq_ok.mp h
  refine ⟨v, hv, State.ext_of (fun _ => rfl) (fun _ => rfl) (fun g => ?_) rfl rfl rfl rfl
    fun _ => rfl⟩
  simp [Function.update_apply]

omit [DecidableEq K] [∀ k, Monoid (M k)] in
/-- The worker has left the child. -/
theorem elsewhere_leaveSpawn :
    elsewhere (countDown s d) w none .scheduling (fun g => if g = d then false else s.live g)
      s.released = dropFf (leaveFf s w) d := by
  refine State.ext_of (fun v => ?_) (fun g => ?_) (fun _ => rfl) rfl rfl rfl rfl fun _ => rfl
  · by_cases hv : v = w
    · subst hv
      simp [elsewhere, leaveFf, dropFf, countDown]
    · simp [elsewhere, leaveFf, dropFf, countDown, hv]
  · by_cases hg : g = d
    · subst hg
      simp [elsewhere, leaveFf, dropFf, countDown]
    · simp [elsewhere, leaveFf, dropFf, countDown, hg]

omit [DecidableEq K] [∀ k, Monoid (M k)] in
/-- The worker has released its fiber and left the child. -/
theorem elsewhere_leaveSpawn_freed : elsewhere (countDown (s.modWorker w fun wk =>
      { wk with fiberToFree := none, frameFf := none }) d) w none .scheduling
        (fun g => if g = d then false else s.live g) (freeFiber s w).released =
      dropFf (leaveFf (freeFiber s w) w) d := by
  refine State.ext_of (fun v => ?_) (fun g => ?_) (fun _ => rfl) rfl rfl rfl rfl fun _ => rfl
  · by_cases hv : v = w
    · subst hv
      simp [elsewhere, leaveFf, dropFf, countDown, freeFiber]
    · simp [elsewhere, leaveFf, dropFf, countDown, freeFiber, hv]
  · by_cases hg : g = d
    · subst hg
      simp [elsewhere, leaveFf, dropFf, countDown, freeFiber]
    · simp [elsewhere, leaveFf, dropFf, countDown, freeFiber, hg]

/-- A worker leaves a frame that it has returned from. -/
theorem doReturnFromSpawn_strides {P : Nat} {r : State M}
    (hphase : (s.worker w).phase = .spawnReturned) (hd : (s.worker w).frameFf = some d)
    (hp : (s.ff d).parent = some p) (hne : p ≠ d) (hsim : (s.ff p).simulatedStolen = false)
    (hown : 0 < (s.ff d).joinCounter) (hpos : 0 < (s.ff p).joinCounter)
    (h : longjmpIntoRuntime P s w .doReturnFromSpawn = .ok r) : Strides P force s r := by
  have hcount : ∀ t : State M, t.ff = s.ff → 0 < ((countDown t d).ff p).joinCounter := by
    intro t ht
    rw [countDown, modFf_ff_ne _ _ hne, ht]
    exact hpos
  unfold longjmpIntoRuntime at h
  rw [hd] at h
  dsimp only at h
  split at h
  · -- a single worker leaves the frame and goes on with its next one at once
    rename_i hP
    obtain ⟨u, hu, h⟩ := bind_eq_ok.mp h
    obtain ⟨v, hv, rfl⟩ := doReturnFromSpawn_ok hp hne hsim hown hu
    rw [if_neg (by decide)] at h
    unfold popNextFrame at h
    dsimp only at h
    split at h
    · cases h
    · rename_i g hg
      obtain ⟨x, hx, h⟩ := bind_eq_ok.mp h
      obtain rfl := pure_eq_ok.mp h
      obtain ⟨rfl, -⟩ := setupForExecution_ok hx
      have hdown := provablyGoodSteal_elsewhere (hcount s rfl) none .scheduling
        (fun g => if g = d then false else s.live g) s.released hv
      obtain ⟨hreleased, hlive, -⟩ := provablyGoodSteal_kept (hcount s rfl) hv
      rw [elsewhere_leaveSpawn] at hdown
      have hnext : (v.worker w).nextFrameFf = some g := hg
      have hparent : (dropFf (leaveFf s w) d).ff p = s.ff p := if_neg hne
      refine .of_eq ?_ (.settleResume (w := w) (g := g) hP .refl (.leaveSpawn hphase hd hp)
        (provablyGoodSteal_move (s := dropFf (leaveFf s w) d) (hparent ▸ hpos) hdown) ?_ ?_)
      · have hreleased : v.released = s.released := hreleased
        have hlive : v.live = s.live := hlive
        rw [← resumeState_elsewhere v none (v.worker w).frameFf, setPhase_eq, ← hreleased, ← hlive]
        rfl
      · simp [elsewhere]
      · simp [elsewhere, hnext]
  · obtain ⟨_, -, h⟩ := bind_eq_ok.mp h
    obtain ⟨_, -, h⟩ := bind_eq_ok.mp h
    obtain ⟨u, hu, h⟩ := bind_eq_ok.mp h
    obtain ⟨_, -, h⟩ := bind_eq_ok.mp h
    obtain rfl := pure_eq_ok.mp h
    -- on the scheduler's stack the fiber is freed before the frame is left
    obtain ⟨v, hv, rfl⟩ := doReturnFromSpawn_ok
      (s := s.modWorker w fun wk => { wk with fiberToFree := none, frameFf := none }) hp hne hsim
      hown hu
    have hcount := hcount (s.modWorker w fun wk => { wk with fiberToFree := none, frameFf := none })
      rfl
    obtain ⟨hreleased, hlive, hframe⟩ := provablyGoodSteal_kept hcount hv
    have hdown := provablyGoodSteal_elsewhere hcount none .scheduling
      (fun g => if g = d then false else s.live g) (freeFiber s w).released hv
    rw [elsewhere_leaveSpawn_freed] at hdown
    have hphase' : ((freeFiber s w).worker w).phase = .spawnReturned :=
      (congrArg Worker.phase (if_pos rfl)).trans hphase
    have hd' : ((freeFiber s w).worker w).frameFf = some d :=
      (congrArg Worker.frameFf (if_pos rfl)).trans hd
    have hparent : (dropFf (leaveFf (freeFiber s w) w) d).ff p = s.ff p := if_neg hne
    refine .of_eq ?_ (.settle (.single (.freeFiber (Or.inl hphase)) (.of_ite (fun _ => rfl) rfl))
      (.leaveSpawn hphase' hd' hp) (provablyGoodSteal_move (hparent ▸ hpos) hdown))
    have hframe : (v.worker w).frameFf = none := (hframe w).trans (by simp [countDown])
    have hlive : v.live = s.live := hlive
    have hreleased : v.released = s.released := hreleased
    exact released_elsewhere (u := { v with live := fun g => if g = d then false else v.live g })
      hframe (by rw [hlive]) hreleased

end Leaving

end SwanRuntime.Runtime
