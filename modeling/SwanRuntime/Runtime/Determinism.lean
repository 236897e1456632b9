import Mathlib.Algebra.FreeMonoid.Basic
import SwanRuntime.Runtime.ReadingKept

/-!
# The runtime — reducers are deterministic

Only a thread that is bound, a steal and a pending frame make full frames, so the
readings survive every other step. In a run that detaches no pending frame, they hold
in every state, whatever the schedule: a worker that executes a synched frame has in its
map what the serial execution has there, and an initial frame returns the product of all
updates of its program, in serial order.

## Results

* `Step.frames`          — which steps make full frames.
* `Step.read`            — every step keeps the readings.
* `fullFrames_inOrder`   — the tree of full frames.
* `reducers_readings`    — what the reducers of every frame amount to.
* `reducers_serial`      — what a program finds in its reducers, and returns.
-/

namespace SwanRuntime.Runtime

open Reducers Checked

variable {K : Type} {M : K → Type}

-- ---------------------------------------------------------------------------
-- Functions that make no frame
-- ---------------------------------------------------------------------------

section Frames

variable {s : State M} {n : FrameId} {w victim : WorkerId} {f d p : FrameId} {pf : PendingFrame}

theorem setSlot_nextFrame (m : Option (ReducerMap M)) (a : MapSlot) :
    (s.setSlot m a).nextFrame = s.nextFrame := by
  cases a <;> rfl

theorem decjoin_frames (h : s.nextFrame = n) :
    Ensures (decjoin s f) fun x => x.2.nextFrame = n := by
  unfold decjoin
  exact .assert_bind fun _ => .pure h

theorem pushNextFrame_frames (h : s.nextFrame = n) :
    Ensures (pushNextFrame s w f) fun t => t.nextFrame = n := by
  unfold pushNextFrame
  exact .assert_bind fun _ => .pure h

theorem destroyFullFrame_frames (h : s.nextFrame = n) :
    Ensures (destroyFullFrame s f) fun t => t.nextFrame = n := by
  unfold destroyFullFrame
  exact .assert_bind fun _ => .assert_bind fun _ => .pure h

theorem provablyGoodSteal_frames (h : s.nextFrame = n) :
    Ensures (provablyGoodSteal s w f) fun t => t.nextFrame = n := by
  unfold provablyGoodSteal provablyGoodStealStacks unsetSyncMaster
  refine .bind (decjoin_frames h) fun x hx => .ite (fun _ => ?_) fun _ => .pure hx
  refine .bind (P := fun t : State M => t.nextFrame = n) (.assert_bind fun _ => .pure hx) fun t ht => ?_
  refine .ite (fun _ => ?_) fun _ => pushNextFrame_frames ht
  split
  · exact .throw
  · exact .bind (P := fun t : State M => t.nextFrame = n)
      (.assert_bind fun _ => .assert_bind fun _ => .pure ht) fun t ht => pushNextFrame_frames ht

theorem unconditionalSteal_frames (h : s.nextFrame = n) :
    Ensures (unconditionalSteal s w f) fun t => t.nextFrame = n := by
  unfold unconditionalSteal
  exact .bind (decjoin_frames h) fun x hx => pushNextFrame_frames hx

theorem setupForExecution_frames (h : s.nextFrame = n) :
    Ensures (setupForExecution s w f) fun t => t.nextFrame = n := by
  unfold setupForExecution setupForExecutionReducers
  refine .bind (P := fun t : State M => t.nextFrame = n)
    (.ite (fun _ => .pure h) fun _ => .assert_bind fun _ => ?_) fun t ht => .pure ht
  split
  · exact .pure h
  · exact .assert_bind fun _ => .pure h

theorem finishSpawnReturnOnUserStack_frames (h : s.nextFrame = n) :
    Ensures (finishSpawnReturnOnUserStack s w p d) fun t => t.nextFrame = n := by
  unfold finishSpawnReturnOnUserStack
  refine .assert_bind fun _ => ?_
  dsimp only
  exact .ite (fun _ => .assert_bind fun _ => .pure h) fun _ => .pure h

theorem slowPathReductionsForSpawnReturn_frames (h : s.nextFrame = n) :
    Ensures (slowPathReductionsForSpawnReturn s w p d) fun t => t.nextFrame = n := by
  unfold slowPathReductionsForSpawnReturn
  extract_lets slot s₁ s₂
  have h₁ : s₁.nextFrame = n := by
    show (if _ then _ else _ : State M).nextFrame = n
    split
    · exact (setSlot_nextFrame ..).trans h
    · exact h
  have h₂ : s₂.nextFrame = n := by
    show (if _ then _ else _ : State M).nextFrame = n
    split
    · exact h₁
    · exact h₁
  refine .ite (fun _ => .bind (finishSpawnReturnOnUserStack_frames h₂) fun t ht => .pure ht)
    fun _ => .pure ((setSlot_nextFrame ..).trans h₂)

theorem executeReductionsForSpawnReturn_frames (h : s.nextFrame = n) :
    Ensures (executeReductionsForSpawnReturn s w) fun t => t.nextFrame = n := by
  unfold executeReductionsForSpawnReturn
  split
  · exact .throw
  · split
    · exact .throw
    · split
      · rename_i t ht
        have ht' : t.nextFrame = n := by
          unfold fastPathReductionsForSpawnReturn at ht
          dsimp only at ht
          split at ht
          · exact Option.some.inj ht ▸ h
          · exact Option.some.inj ht ▸ (setSlot_nextFrame ..).trans h
          · exact Option.some.inj ht ▸ (setSlot_nextFrame ..).trans h
          · exact absurd ht (by simp)
        exact .bind (finishSpawnReturnOnUserStack_frames ht') fun t ht => .pure ht
      · exact slowPathReductionsForSpawnReturn_frames h

theorem doReturnFromSpawn_frames (h : s.nextFrame = n) :
    Ensures (doReturnFromSpawn s w f) fun t => t.nextFrame = n := by
  unfold doReturnFromSpawn
  refine .assert_bind fun _ => ?_
  split
  · exact .throw
  · refine .bind (decjoin_frames h) fun x hx => ?_
    dsimp only
    exact .ite
      (fun _ => .bind (unconditionalSteal_frames hx) fun t ht => destroyFullFrame_frames ht)
      fun _ => .bind (provablyGoodSteal_frames hx) fun t ht => destroyFullFrame_frames ht

theorem slowPathReductionsForSync_frames (m : Option (ReducerMap M)) :
    (slowPathReductionsForSync s w f m).nextFrame = s.nextFrame := by
  unfold slowPathReductionsForSync
  dsimp only
  split
  · exact setSlot_nextFrame ..
  · rfl
  · exact setSlot_nextFrame ..

theorem cSync_frames {rest : Code M} (h : s.nextFrame = n) :
    Ensures (cSync s w rest) fun t => t.nextFrame = n := by
  unfold cSync
  refine .assert_bind fun _ => ?_
  split
  · exact .throw
  · dsimp only
    split
    · exact .pure h
    · exact .pure ((slowPathReductionsForSync_frames _).trans h)

theorem doSync_frames (h : s.nextFrame = n) :
    Ensures (doSync s w f) fun t => t.nextFrame = n := by
  unfold doSync
  exact .assert_bind fun _ => .assert_bind fun _ => provablyGoodSteal_frames h

theorem longjmpIntoRuntime_frames {P : Nat} {fcn : SchedulingStackFcn} (h : s.nextFrame = n) :
    Ensures (longjmpIntoRuntime P s w fcn) fun t => t.nextFrame = n := by
  have hcall : ∀ {t : State M} {e}, t.nextFrame = n →
      Ensures (fcn.call t w e) fun t => t.nextFrame = n := by
    intro t e ht
    cases fcn with
    | doReturnFromSpawn => exact doReturnFromSpawn_frames ht
    | doSync => exact doSync_frames ht
  unfold longjmpIntoRuntime
  split
  · exact .throw
  · refine .ite (fun _ => .bind (hcall h) fun t ht => ?_) fun _ => .assert_bind fun _ =>
      .assert_bind fun _ => .bind (hcall h) fun t ht => .assert_bind fun _ => .pure ?_
    · dsimp only
      split
      · exact .throw
      · refine .bind (setupForExecution_frames ?_) fun t ht => .pure ht
        show (if _ then _ else _ : State M).nextFrame = n
        split
        · exact ht
        · exact ht
    · rw [releaseFiber_eq]
      exact ht

theorem cReturnFromInitial_frames (h : s.nextFrame = n) :
    Ensures (cReturnFromInitial s w) fun t => t.nextFrame = n := by
  unfold cReturnFromInitial
  refine .assert_bind fun _ => ?_
  split
  · exact .throw
  · refine .assert_bind fun _ => .assert_bind fun _ => ?_
    rw [releaseFiber_eq]
    exact .bind (destroyFullFrame_frames h) fun t ht => .pure ht

theorem cilkrtsReturn_frames (h : s.nextFrame = n) :
    Ensures (cilkrtsReturn s w) fun t => t.nextFrame = n := by
  unfold cilkrtsReturn
  split
  · exact .throw
  · exact .assert_bind fun _ => .assert_bind fun _ =>
      .bind (decjoin_frames h) fun x hx => .pure hx

theorem leaveFrame_frames {sf : StackFrame M} (h : s.nextFrame = n) :
    Ensures (leaveFrame s w sf) fun t => t.nextFrame = n := by
  unfold leaveFrame
  exact .ite (fun _ => .ite (fun _ => executeReductionsForSpawnReturn_frames h) fun _ =>
    .ite (fun _ => cReturnFromInitial_frames h) fun _ => cilkrtsReturn_frames h) fun _ => .pure h

theorem finishCilkrtsReturn_frames (h : s.nextFrame = n) :
    Ensures (finishCilkrtsReturn s w f) fun t => t.nextFrame = n := by
  unfold finishCilkrtsReturn finalizeChildForCall spliceStacksForCall
  split
  · exact .throw
  · refine .bind (P := fun t : State M => t.nextFrame = n) (.assert_bind fun _ => .assert_bind fun _ =>
      .assert_bind fun _ => .assert_bind fun _ => .assert_bind fun _ => .assert_bind fun _ =>
      .bind (P := fun t : State M => t.nextFrame = n) (.assert_bind fun _ => .assert_bind fun _ =>
        .assert_bind fun _ => .pure h) fun t ht => .bind (unconditionalSteal_frames ht)
          fun t ht => destroyFullFrame_frames ht) fun t ht => .assert_bind fun _ => ?_
    split
    · exact .pure ht
    · exact .assert_bind fun _ => .bind (setupForExecution_frames ht) fun t ht => .pure ht

theorem resumeNextFrame_frames (h : s.nextFrame = n) :
    Ensures (resumeNextFrame s w) fun t => t.nextFrame = n := by
  unfold resumeNextFrame
  refine .assert_bind fun _ => ?_
  dsimp only
  split
  · exact .throw
  · exact .assert_bind fun _ => .bind (setupForExecution_frames h) fun t ht =>
      .assert_bind fun _ => .pure ht

theorem readyListSteal_frames (h : s.nextFrame = n) :
    Ensures (readyListSteal s w victim pf) fun t => t.nextFrame = n := by
  unfold readyListSteal stealFromReadyList makeChildFromPending
  refine .assert_bind fun _ => .assert_bind fun _ =>
    .bind (P := fun t : State M => t.nextFrame = n) (.assert_bind fun _ => .pure h) fun t ht => ?_
  refine pushNextFrame_frames ?_
  split
  · exact ht
  · exact ht

end Frames

-- ---------------------------------------------------------------------------
-- Steps that make no frame
-- ---------------------------------------------------------------------------

/-- The event makes full frames: a thread is bound, a frame is stolen, or a pending
frame is detached. -/
def Event.makesFrames : Event M → Bool
  | .bind .. | .steal .. | .promote _ | .detachPending _ => true
  | _ => false

section Steps

variable [DecidableEq K] [∀ k, Monoid (M k)] {g : Settings} {s r : State M} {n : FrameId}
  {w : WorkerId} {e : Event M}

theorem reduceForSpawnReturn_frames {left middle right : Option (ReducerMap M)}
    (h : s.nextFrame = n) :
    Ensures (reduceForSpawnReturn s w left middle right) fun t => t.nextFrame = n := by
  unfold reduceForSpawnReturn
  refine .bind (P := fun _ => True) (fun _ _ => trivial) fun _ _ =>
    .bind (P := fun _ => True) (fun _ _ => trivial) fun _ _ => ?_
  dsimp only
  split
  · exact .throw
  · split
    · exact .throw
    · exact slowPathReductionsForSpawnReturn_frames h

theorem reduceForSync_frames {left middle : Option (ReducerMap M)} (h : s.nextFrame = n) :
    Ensures (reduceForSync s w left middle) fun t => t.nextFrame = n := by
  unfold reduceForSync
  refine .bind (P := fun _ => True) (fun _ _ => trivial) fun _ _ => ?_
  split
  · exact .throw
  · exact .pure ((slowPathReductionsForSync_frames _).trans h)

omit [DecidableEq K] [∀ k, Monoid (M k)] in
theorem modCurrent_nextFrame (G : StackFrame M → StackFrame M) :
    (s.modCurrent w G).nextFrame = s.nextFrame := by
  unfold State.modCurrent
  split
  · rfl
  · split <;> rfl

/-- The other events leave the full frames as many as they are. -/
theorem Step.frames {x : Checked (State M)} (h : Step g s e x) (he : e.makesFrames = false) :
    Ensures x fun t => t.nextFrame = s.nextFrame := by
  cases h with
  | bind | detachPending | steal | promote => exact absurd he (by simp [Event.makesFrames])
  | update => exact .ok (modCurrent_nextFrame _)
  | call => exact .ok (modCurrent_nextFrame _)
  | spawn => exact .ok (modCurrent_nextFrame _)
  | makeReady => exact .ok rfl
  | syncNothing => exact .ok (modCurrent_nextFrame _)
  | sync | retSync => exact cSync_frames rfl
  | ret => exact leaveFrame_frames rfl
  | reducedSpawn => exact reduceForSpawnReturn_frames rfl
  | reducedSync => exact reduceForSync_frames rfl
  | spawnReturned | synching => exact longjmpIntoRuntime_frames rfl
  | callReturned => exact finishCilkrtsReturn_frames rfl
  | resume => exact resumeNextFrame_frames rfl
  | loseTeam => exact .ok rfl
  | stealOwnReady | stealReady => exact readyListSteal_frames rfl

-- ---------------------------------------------------------------------------
-- Every step keeps the readings
-- ---------------------------------------------------------------------------

/-- No move unmakes a frame. -/
theorem Move.nextFrame_le {force : Bool} {owed owed' : Option FrameId}
    (h : Move force owed s owed' r) : s.nextFrame ≤ r.nextFrame := by
  cases h with
  | bind =>
    rw [bindThread_closed]
    exact Nat.le_succ _
  | @update _ w _ k x _ _ _ =>
    exact (modCurrent_nextFrame (s := updateReducer s w k x) _).ge
  | enter => exact (modCurrent_nextFrame _).ge
  | skip => exact (modCurrent_nextFrame _).ge
  | detachPending => exact (modCurrent_nextFrame _).ge.trans (Nat.le_succ _)
  | promoteCall | steal | promote => exact Nat.le_succ _
  | rearrangeSpawn => exact ((setSlot_nextFrame ..).trans (setSlot_nextFrame ..)).ge
  | rearrangeSync => exact (setSlot_nextFrame ..).ge
  | _ => exact Nat.le_refl _

omit [DecidableEq K] [∀ k, Monoid (M k)] in
/-- When no frame has been made in the end, none has been made on the way. -/
theorem nextFrame_squeeze {t : State M} (h : s.nextFrame ≤ t.nextFrame)
    (h' : t.nextFrame ≤ r.nextFrame) (heq : r.nextFrame = s.nextFrame) :
    t.nextFrame = s.nextFrame ∧ r.nextFrame = t.nextFrame := by
  have hmid : t.nextFrame = s.nextFrame := Nat.le_antisymm (h'.trans heq.le) h
  exact ⟨hmid, heq.trans hmid.symm⟩

theorem Quiet.nextFrame_le {force : Bool} (h : Quiet force s r) : s.nextFrame ≤ r.nextFrame := by
  induction h with
  | refl => exact Nat.le_refl _
  | head hmove _ _ ih => exact hmove.nextFrame_le.trans ih

variable {site : FrameId → Site} {owed : Option FrameId}

theorem Read.quiet (hs : Shape s site none) (h : Read s site) (hquiet : Quiet false s r)
    (hnext : r.nextFrame = s.nextFrame) : ∃ site', Shape r site' none ∧ Read r site' := by
  induction hquiet generalizing site with
  | refl => exact ⟨site, hs, h⟩
  | head hmove _ hrest ih =>
    obtain ⟨hfirst, hlast⟩ := nextFrame_squeeze hmove.nextFrame_le hrest.nextFrame_le hnext
    obtain ⟨site', hs', h'⟩ := h.move hs hmove hfirst
    exact ih hs' h' hlast

/-- A frame is left, and another counted down. -/
theorem Read.settle {t v : State M} {f : FrameId} (hs : Shape s site none) (h : Read s site)
    (hquiet : Quiet false s t) (hleave : Move false none t (some f) v)
    (hsettle : Move false (some f) v none r) (hnext : r.nextFrame = s.nextFrame) :
    ∃ site', Shape r site' none ∧ Read r site' := by
  have hrest := hleave.nextFrame_le.trans hsettle.nextFrame_le
  obtain ⟨hfirst, hlast⟩ := nextFrame_squeeze hquiet.nextFrame_le hrest hnext
  obtain ⟨hfirst', hlast'⟩ := nextFrame_squeeze hleave.nextFrame_le hsettle.nextFrame_le hlast
  obtain ⟨site₁, hs₁, h₁⟩ := h.quiet hs hquiet hfirst
  obtain ⟨site₂, hs₂, h₂⟩ := h₁.move hs₁ hleave hfirst'
  exact h₂.move hs₂ hsettle hlast'

theorem Read.strides {P : Nat} (hs : Shape s site none) (h : Read s site)
    (hstrides : Strides P false s r) (hnext : r.nextFrame = s.nextFrame) :
    ∃ site', Shape r site' none ∧ Read r site' := by
  cases hstrides with
  | quiet hquiet => exact h.quiet hs hquiet hnext
  | resume hphase hnext' => exact h.move hs (.resume hphase hnext') hnext
  | settle hquiet hleave hsettle => exact h.settle hs hquiet hleave hsettle hnext
  | settleResume _ hquiet hleave hsettle hphase hnext' =>
    obtain ⟨site₁, hs₁, h₁⟩ := h.settle hs hquiet hleave hsettle hnext
    exact h₁.move hs₁ (.resume hphase hnext') rfl

/-- A chain of calls is promoted. -/
theorem Read.promoteChain {victim : WorkerId} {f : FrameId} (chain young : List (StackFrame M))
    (hs : Shape s site none) (h : Read s site) (hrun : (s.worker victim).phase = .running)
    (hf : (s.worker victim).frameFf = some f)
    (hstack : (s.worker victim).stack = chain ++ young)
    (hchain : ∀ c ∈ chain, c.detached = false) :
    ∃ site', Shape (promoteChain s victim f chain young).1 site' none ∧
      Read (promoteChain s victim f chain young).1 site' := by
  induction chain generalizing s f site with
  | nil => exact ⟨site, hs, h⟩
  | cons sf chain ih =>
    have hworker : (promoteCall s victim f sf (chain ++ young)).worker victim =
        { s.worker victim with frameFf := some s.nextFrame, stack := chain ++ young } := if_pos rfl
    have hmove : Move false none s none (promoteCall s victim f sf (chain ++ young)) :=
      .promoteCall hrun hf hstack (hchain sf List.mem_cons_self)
    obtain ⟨site', hs'⟩ := hs.move hmove
    have hread := read_promoteCall hs h hrun hf hstack
    rw [← hs'.placed.unique (placed_promoteCall hs.placed hf)] at hread
    exact ih hs' hread (by rw [hworker]; exact hrun) (by rw [hworker]) (by rw [hworker])
      fun c hc => hchain c (List.mem_cons_of_mem _ hc)

theorem Read.randomSteal {victim : WorkerId} (hs : Shape s site none) (h : Read s site)
    (hphase : (s.worker w).phase = .scheduling) (hne : w ≠ victim)
    (hteam : mayStealFrom s w victim) (hdeque : canSteal s victim = true)
    (hsim : ∀ f, site f ≠ .gone → (s.ff f).simulatedStolen = false)
    (hr : Runtime.randomSteal s w victim = .ok r) : ∃ site', Shape r site' none ∧ Read r site' := by
  have hquiet : Quiet false s r := randomSteal_quiet hs hphase hne hteam hdeque hsim hr
  obtain ⟨f, chain, sf, young, hrun, hf, hsite, hstack, hchain, hsf, hjoin⟩ :=
    hs.exists_spawned hdeque
  have hlive : site f ≠ .gone := by simp [hsite]
  have hidle : (s.worker w).frameFf = none := hs.workers.idle (by rw [hphase]; rfl)
  unfold Runtime.randomSteal cilkFiberAllocate at hr
  obtain ⟨_, -, hr⟩ := bind_eq_ok.mp hr
  dsimp only at hr
  rw [detachForSteal_eq (s := { s with nextFiber := s.nextFiber + 1 }) hne hidle hf hstack hchain
    hsf (hs.placed.fresh f hlive) hjoin, promoteChain_nextFiber] at hr
  obtain ⟨_, hnext, hr⟩ := bind_eq_ok.mp hr
  obtain rfl := pure_eq_ok.mp hr
  have hnext : (s.worker w).nextFrameFf = none :=
    Option.isNone_iff_eq_none.mp (assert_eq_ok.mp hnext)
  have hpromoted : Quiet false s _ ∧ _ :=
    promoteChain_quiet chain (sf :: young) hrun hf hstack hchain (hsim f hlive)
  obtain ⟨-, hrun', -, hframe, hstack', -, hfiber⟩ := hpromoted
  have hother := (promoteChain_spec s victim f chain (sf :: young) (hs.placed.fresh f hlive)
    hjoin).2.2 w hne
  obtain ⟨site₁, hs₁, h₁⟩ := h.promoteChain chain (sf :: young) hs hrun hf hstack hchain
  obtain ⟨site₂, hs₂⟩ := hs.moves hquiet.moves
  refine ⟨site₂, hs₂, ?_⟩
  generalize hchained : Runtime.promoteChain s victim f chain (sf :: young) = c at *
  rw [← hother] at hnext
  rw [← hfiber] at hs₂ ⊢
  have hs' : Shape { c.1 with nextFiber := c.1.nextFiber + 1 } site₁ none :=
    hs₁.alike alike_nextFiber
  have h' : Read { c.1 with nextFiber := c.1.nextFiber + 1 } site₁ :=
    h₁.same (fun _ => .refl _) (fun _ => ⟨rfl, rfl, rfl, rfl⟩) (place_congr rfl fun _ => rfl)
  rw [hs₂.placed.unique (placed_steal hs'.placed hne hnext hframe)]
  exact read_steal hs' h' hne hrun' hframe hstack'

/-- A step keeps the readings, unless it detaches a pending frame. -/
theorem Step.read (hin : InOrder s none) (hforce : g.forceReduce = false)
    (hs : Shape s site none) (h : Read s site) (hstep : Step g s e (.ok r))
    (he : e.isDetachPending = false) : ∃ site', Shape r site' none ∧ Read r site' := by
  have hstrides := hstep.inOrder hin hforce
  by_cases hmakes : e.makesFrames = false
  · exact h.strides hs hstrides (hstep.frames hmakes r rfl)
  · obtain ⟨hsim, -⟩ := hin
    generalize hx : (.ok r : Checked (State M)) = x at hstep
    cases hstep with
    | @bind u code init hfree =>
      obtain rfl := Except.ok.inj hx
      have hmove : Move false none s none (bindThread s u code init) := .bind hfree
      obtain ⟨site', hs'⟩ := hs.move hmove
      have hread : Read (bindThread s u code init) _ := read_bind hs h hfree
      rw [← hs'.placed.unique (placed_bind hs.placed hs.workers hfree)] at hread
      exact ⟨site', hs', hread⟩
    | detachPending => exact absurd he (by simp [Event.isDetachPending])
    | promote hforce' => exact absurd (hforce.symm.trans hforce') (by simp)
    | @steal w victim hphase hne hteam hdeque =>
      exact h.randomSteal hs hphase hne hteam hdeque
        (fun f hf => hsim f ((hs.placed.live f).mpr hf)) hx.symm
    | _ => exact absurd rfl hmakes

end Steps

-- ---------------------------------------------------------------------------
-- What a frame keeps
-- ---------------------------------------------------------------------------

section Steady

variable [DecidableEq K] [∀ k, Monoid (M k)] {s t r : State M} {w : WorkerId}
  {sf : StackFrame M} {rest : Code M}

/-- Every frame keeps what it was entered with, and what it will have done in the end. -/
structure Steady (s t : State M) : Prop where
  made  : s.nextFrame ≤ t.nextFrame
  entry : ∀ f, f < s.nextFrame → (t.ff f).frame.entry = (s.ff f).frame.entry
  work  : ∀ f, f < s.nextFrame → (t.ff f).frame.done * (t.ff f).frame.code.product =
    (s.ff f).frame.done * (s.ff f).frame.code.product

theorem Steady.refl (s : State M) : Steady s s := ⟨Nat.le_refl _, fun _ _ => rfl, fun _ _ => rfl⟩

theorem Steady.trans (h : Steady s t) (h' : Steady t r) : Steady s r where
  made := h.made.trans h'.made
  entry f hf := (h'.entry f (Nat.lt_of_lt_of_le hf h.made)).trans (h.entry f hf)
  work f hf := (h'.work f (Nat.lt_of_lt_of_le hf h.made)).trans (h.work f hf)

/-- Only the flags of the frames have changed. -/
theorem Steady.of_frame (hmade : s.nextFrame ≤ r.nextFrame)
    (hframe : ∀ f, f < s.nextFrame → (r.ff f).frame.entry = (s.ff f).frame.entry ∧
      (r.ff f).frame.done = (s.ff f).frame.done ∧ (r.ff f).frame.code = (s.ff f).frame.code) :
    Steady s r where
  made := hmade
  entry f hf := (hframe f hf).1
  work f hf := by rw [(hframe f hf).2.1, (hframe f hf).2.2]

/-- One frame has changed, and not what it says. -/
theorem Steady.of_ite {f : FrameId} {ff : FullFrame M} (hmade : r.nextFrame = s.nextFrame)
    (hff : ∀ g, r.ff g = if g = f then ff else s.ff g) (hframe : ff.frame = (s.ff f).frame) :
    Steady s r := by
  refine .of_frame hmade.ge fun g _ => ?_
  rw [hff]
  by_cases hg : g = f
  · rw [if_pos hg, hg, hframe]
    exact ⟨rfl, rfl, rfl⟩
  · rw [if_neg hg]
    exact ⟨rfl, rfl, rfl⟩

end Steady

-- ---------------------------------------------------------------------------
-- Runs
-- ---------------------------------------------------------------------------

section Runs

variable [DecidableEq K] [∀ k, Monoid (M k)] {g : Settings} {s t r : State M} {w u : WorkerId}
  {f : FrameId} {sf : StackFrame M} {e : Event M} {code : Code M} {init : ∀ k, M k}

/-- The runtime, when no pending frames are detached. -/
def forkJoin (M : K → Type) [∀ k, Monoid (M k)] (g : Settings) : LTS (State M) (Event M) :=
  (system M g).restrict fun _ e => e.isDetachPending = false

/-- The frames are in order, and the readings hold. -/
def Ordered (s : State M) : Prop := InOrder s none ∧ ∃ site, Shape s site none ∧ Read s site

theorem initial_ordered (h : Initial g s) : Ordered s := by
  obtain ⟨hsim, site, hs, hawaited⟩ := initial_inOrder h
  obtain rfl := hs.placed.unique (initial_placed h)
  have hworker : ∀ w, s.worker w = initialWorker g.P w := fun w => congrFun h.1 w
  refine ⟨⟨hsim, _, hs, hawaited⟩, _, hs, fun f hf => ?_, fun w hw => ?_, fun w d hd => ?_,
    fun f hf => absurd rfl hf, fun a => ?_⟩
  · exact absurd hf (by simp [Site.settled])
  · rw [hworker]
    trivial
  · exact absurd hd (by simp)
  · cases a with
    | none => exact h.2.2.2.2.1
    | some w =>
      rw [State.place, hworker]
      rfl

theorem Ordered.step (hforce : g.forceReduce = false) (h : Ordered s)
    (hstep : (forkJoin M g).step s e t) : Ordered t := by
  obtain ⟨hin, site, hs, hread⟩ := h
  exact ⟨hin.strides (Step.inOrder hin hforce hstep.1),
    Step.read hin hforce hs hread hstep.1 hstep.2⟩

theorem reachable_ordered (hforce : g.forceReduce = false) (h : (forkJoin M g).Reachable s) :
    Ordered s :=
  LTS.Reachable.invariant (T := forkJoin M g) (P := Ordered) (fun _ hinit => initial_ordered hinit)
    (fun _ _ _ hs hstep => hs.step hforce hstep) h

/-- **Readings.** In every state, every frame is in one place, and the pieces of its
reducers, read from left to right, are what the serial execution has there. -/
theorem reducers_readings (hforce : g.forceReduce = false) (h : (forkJoin M g).Reachable s) :
    ∃ site, Shape s site none ∧ Read s site :=
  (reachable_ordered hforce h).2

end Runs

section Example

/-- A reducer that lists numbers. -/
abbrev ListReducer : Unit → Type := fun _ => FreeMonoid Nat

/-- A spawned child lists 1, and its parent 2. -/
def exampleCode : Code ListReducer :=
  .spawn (.update () (FreeMonoid.of 1) .ret) (.update () (FreeMonoid.of 2) .ret)

/-- The runtime with one system worker, 0, before it has started. -/
def listStart : State ListReducer where
  worker    := initialWorker 2
  ff        := fun _ => FullFrame.make ⟨.ret, false, false, false, false, 1, false, 1, none⟩ false
  live      := fun _ => false
  nextFrame := 0
  nextFiber := 0
  pending   := []
  released  := fun _ => 0
  fiberFor  := fun _ => none

/-- User worker 1 is bound, and spawns the child. -/
def listBound : State ListReducer := bindThread listStart 1 exampleCode 1

/-- The stack frame of worker 1 has been spawned. -/
def listSpawned : State ListReducer :=
  pushStackFrame (listBound.modCurrent 1 fun sf => sf.advance
    (Code.product (.update () (FreeMonoid.of 1) .ret)) (.update () (FreeMonoid.of 2) .ret)) 1
    (enterFrame listBound 1 (.update () (FreeMonoid.of 1) .ret) true)

/-- Worker 0 has stolen the parent. -/
def listStolen : State ListReducer := resultOr listSpawned (randomSteal listSpawned 0 1)

/-- Worker 0 goes on with the parent. -/
def listResumed : State ListReducer := resultOr listStolen (resumeNextFrame listStolen 0)

/-- The parent updates the reducer first. -/
def listParent : State ListReducer :=
  (updateReducer listResumed 0 () (FreeMonoid.of 2)).modCurrent 0 fun sf =>
    sf.advance (Pi.mulSingle () (FreeMonoid.of 2)) .ret

/-- The child updates it after that. -/
def listChild : State ListReducer :=
  (updateReducer listParent 1 () (FreeMonoid.of 1)).modCurrent 1 fun sf =>
    sf.advance (Pi.mulSingle () (FreeMonoid.of 1)) .ret

/-- The child has deposited its map. -/
def listReturned : State ListReducer :=
  resultOr listChild (executeReductionsForSpawnReturn listChild 1)

/-- The child has left. -/
def listLeft : State ListReducer :=
  resultOr listReturned (longjmpIntoRuntime 2 listReturned 1 .doReturnFromSpawn)

/-- The parent has started its sync. -/
def listSynching : State ListReducer := resultOr listLeft (cSync listLeft 0 .ret)

/-- The maps have been merged. -/
def listReduced : State ListReducer :=
  resultOr listSynching (reduceForSync listSynching 0
    (match (listSynching.worker 0).phase with | .syncReduction left _ => left | _ => none)
    (match (listSynching.worker 0).phase with | .syncReduction _ middle => middle | _ => none))

/-- The parent has been handed to worker 1. -/
def listSynched : State ListReducer :=
  resultOr listReduced (longjmpIntoRuntime 2 listReduced 0 .doSync)

/-- Worker 1 goes on with the parent. -/
def listHome : State ListReducer := resultOr listSynched (resumeNextFrame listSynched 1)

/-- The run after the thread has been bound. -/
def listRun : List (Event ListReducer × State ListReducer) :=
  [(.spawn 1, listSpawned), (.steal 0 1, listStolen), (.resume 0, listResumed),
    (.update 0, listParent), (.update 1, listChild), (.ret 1, listReturned),
    (.enterRuntime 1, listLeft), (.ret 0, listSynching), (.reduced 0, listReduced),
    (.enterRuntime 0, listSynched), (.resume 1, listHome)]

theorem listStart_initial : Initial exampleSettings listStart := ⟨rfl, rfl, rfl, rfl, rfl, rfl, rfl⟩

theorem listRun_isPath : (forkJoin ListReducer exampleSettings).IsPath listStart
    ((.bind 1 exampleCode 1, listBound) :: listRun) := by
  refine ⟨⟨.bind rfl, rfl⟩, ⟨.spawn ⟨rfl, rfl⟩ rfl, rfl⟩, ⟨?_, rfl⟩, ⟨?_, rfl⟩,
    ⟨.update ⟨rfl, rfl⟩ rfl (by decide), rfl⟩, ⟨.update ⟨rfl, rfl⟩ rfl (by decide), rfl⟩, ⟨?_, rfl⟩,
    ⟨?_, rfl⟩, ⟨?_, rfl⟩, ⟨?_, rfl⟩, ⟨?_, rfl⟩, ⟨?_, rfl⟩, trivial⟩
  · show Step _ _ _ (.ok (resultOr _ _))
    rw [← resultOr_eq (by decide)]
    exact .steal rfl (by decide) (fun h => absurd h (by decide)) rfl
  · show Step _ _ _ (.ok (resultOr _ _))
    rw [← resultOr_eq (by decide)]
    exact .resume rfl rfl
  · show Step _ _ _ (.ok (resultOr _ _))
    rw [← resultOr_eq (by decide)]
    have hexec : Executing listChild 1 (listChild.ff 1).frame := ⟨rfl, rfl⟩
    exact .ret hexec rfl rfl
  · show Step _ _ _ (.ok (resultOr _ _))
    rw [← resultOr_eq (by decide)]
    exact .spawnReturned rfl
  · show Step _ _ _ (.ok (resultOr _ _))
    rw [← resultOr_eq (by decide)]
    exact .retSync ⟨rfl, rfl⟩ rfl rfl
  · show Step _ _ _ (.ok (resultOr _ _))
    rw [← resultOr_eq (by decide)]
    exact .reducedSync rfl
  · show Step _ _ _ (.ok (resultOr _ _))
    rw [← resultOr_eq (by decide)]
    exact .synching rfl
  · show Step _ _ _ (.ok (resultOr _ _))
    rw [← resultOr_eq (by decide)]
    exact .resume rfl rfl

theorem reducers_readings_listSynching :
    ∃ site, Shape listSynching site none ∧ Read listSynching site :=
  reducers_readings rfl (LTS.reachable_of_isPath (.init listStart_initial) listRun_isPath
    (.ret 0, listSynching) (by simp [listRun]))

end Example

end SwanRuntime.Runtime
