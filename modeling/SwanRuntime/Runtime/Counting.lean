import SwanRuntime.Runtime.Siblings

/-!
# The runtime — join counters

The join counter of a frame is the number of its children, plus one for its
owner, plus one while a count is owed: a move that makes a child or gives the
frame to a worker adds one, and a move that destroys a child or takes the frame
from its worker leaves one to be counted down.

## Results

* `Shape.move`  — every move keeps the shape of the tree.
-/

namespace SwanRuntime.Runtime

open Reducers

variable {K : Type} {M : K → Type} {s r : State M} {site : FrameId → Site}
  {w victim t u : WorkerId} {f d p : FrameId} {sf : StackFrame M} {young : List (StackFrame M)}
  {x : FiberId} {owed owed' : Option FrameId} {pf : PendingFrame} {rest child code : Code M}
  {init : ∀ k, M k}

-- ---------------------------------------------------------------------------
-- Children
-- ---------------------------------------------------------------------------

theorem Placed.mem_kids (h : Placed s site) :
    d ∈ s.kids p ↔ site d ≠ .gone ∧ (s.ff d).parent = some p := by
  unfold State.kids
  rw [Finset.mem_filter, Finset.mem_range, h.live]
  exact ⟨fun hd => hd.2, fun hd => ⟨h.fresh d hd.1, hd⟩⟩

/-- A frame whose counter is used up by its owner, or by what it is owed, has no
children. -/
theorem Placed.no_kids (h : Placed s site) (hkids : (s.kids p).card = 0) (d : FrameId)
    (hd : site d ≠ .gone) : (s.ff d).parent ≠ some p := by
  intro hp
  have hmem : d ∈ s.kids p := h.mem_kids.mpr ⟨hd, hp⟩
  rw [Finset.card_eq_zero.mp hkids] at hmem
  exact absurd hmem (Finset.notMem_empty d)

/-- A new frame is one more child of its parent, and has no children itself. -/
theorem kids_new {q : Option FrameId} (hs : Placed s site) (h : Linked s site none)
    (hq : ∀ p, q = some p → site p ≠ .gone) (hnext : r.nextFrame = s.nextFrame + 1)
    (hlive : ∀ g, r.live g = if g = s.nextFrame then true else s.live g)
    (hold : ∀ g, g ≠ s.nextFrame → (r.ff g).parent = (s.ff g).parent)
    (hnew : (r.ff s.nextFrame).parent = q) (g : FrameId) :
    (r.kids g).card = if g = s.nextFrame then 0 else
      (s.kids g).card + if q = some g then 1 else 0 := by
  -- the children after the step: the new frame, if it is a child of `g`, and the old ones
  have hmem : ∀ d, d ∈ r.kids g ↔
      d = s.nextFrame ∧ q = some g ∨ site d ≠ .gone ∧ (s.ff d).parent = some g := by
    intro d
    unfold State.kids
    rw [Finset.mem_filter, Finset.mem_range, hnext, hlive]
    by_cases hd : d = s.nextFrame
    · subst hd
      simp [hnew, hs.nextFrame]
    · rw [hold d hd, if_neg hd, hs.live]
      exact ⟨fun hd' => Or.inr hd'.2, fun hd' => (hd'.resolve_left fun h' => hd h'.1).elim
        fun h₁ h₂ => ⟨Nat.lt_succ_of_lt (hs.fresh d h₁), h₁, h₂⟩⟩
  by_cases hgn : g = s.nextFrame
  · rw [if_pos hgn, Finset.card_eq_zero, Finset.eq_empty_iff_forall_notMem]
    -- nothing can be a child of a frame that was not there before
    intro d hd
    rcases (hmem d).mp hd with ⟨-, hqg⟩ | ⟨hd', hg⟩
    · exact hq g hqg (hgn ▸ hs.nextFrame)
    · exact (h.parent d g hd' hg).1 (hgn ▸ hs.nextFrame)
  · rw [if_neg hgn]
    by_cases hgp : q = some g
    · -- the frame is the parent of the new one
      have hinsert : r.kids g = insert s.nextFrame (s.kids g) := by
        ext d
        rw [hmem, Finset.mem_insert, hs.mem_kids]
        exact or_congr_left (and_iff_left hgp)
      rw [if_pos hgp, hinsert, Finset.card_insert_of_notMem]
      exact fun hin => (hs.mem_kids.mp hin).1 hs.nextFrame
    · rw [if_neg hgp, Nat.add_zero]
      congr 1
      ext d
      rw [hmem, hs.mem_kids]
      exact or_iff_right fun h' => hgp h'.2

/-- A destroyed frame is one child less of its parent. -/
theorem kids_drop (hs : Placed s site) (hd : site d ≠ .gone)
    (hnext : r.nextFrame = s.nextFrame)
    (hlive : ∀ g, r.live g = if g = d then false else s.live g)
    (hparent : ∀ g, (r.ff g).parent = (s.ff g).parent) (g : FrameId) :
    (r.kids g).card + (if (s.ff d).parent = some g then 1 else 0) = (s.kids g).card := by
  have hmem : ∀ e, e ∈ r.kids g ↔ e ≠ d ∧ e ∈ s.kids g := by
    intro e
    unfold State.kids
    rw [Finset.mem_filter, Finset.mem_filter, Finset.mem_range, hnext, hlive, hparent]
    by_cases he : e = d
    · simp [he]
    · simp [he]
  -- `g` loses `d`, if it had it
  have herase : r.kids g = (s.kids g).erase d := by
    ext e
    rw [hmem, Finset.mem_erase]
  rw [herase]
  by_cases hg : (s.ff d).parent = some g
  · rw [if_pos hg]
    exact Finset.card_erase_add_one (hs.mem_kids.mpr ⟨hd, hg⟩)
  · rw [if_neg hg, Finset.erase_eq_of_notMem fun hin => hg (hs.mem_kids.mp hin).2, Nat.add_zero]

-- ---------------------------------------------------------------------------
-- Counters
-- ---------------------------------------------------------------------------

theorem owedTo_of_ne {f g : FrameId} (hg : g ≠ f) : owedTo (some f) g = 0 :=
  if_neg fun heq => hg (Option.some.inj heq).symm

theorem owedTo_self (f : FrameId) : owedTo (some f) f = 1 := if_pos rfl

/-- A field of the frames stays when one frame changes, and keeps it. -/
theorem frame_same {β : Type*} {ff : FullFrame M} {g : FrameId} (field : FullFrame M → β)
    (hr : r.ff g = if g = f then ff else s.ff g) (hff : field ff = field (s.ff f)) :
    field (r.ff g) = field (s.ff g) := by
  rw [hr]
  by_cases hg : g = f
  · rw [if_pos hg, hg]
    exact hff
  · rw [if_neg hg]

/-- No frame appears or disappears, and no counter changes. -/
theorem Counted.same (hc : Counted s site owed) (hnext : r.nextFrame = s.nextFrame)
    (hlive : r.live = s.live) (hparent : ∀ g, (r.ff g).parent = (s.ff g).parent)
    (hjoin : ∀ g, (r.ff g).joinCounter = (s.ff g).joinCounter) : Counted r site owed := by
  intro g hg
  rw [hjoin, kids_congr hnext hlive hparent]
  exact hc g hg

/-- A frame changes its place, and its counter what its owner and what it is owed
ask for. -/
theorem Counted.relocate {y : Site} (hc : Counted s site owed)
    (hnext : r.nextFrame = s.nextFrame) (hlive : r.live = s.live)
    (hparent : ∀ g, (r.ff g).parent = (s.ff g).parent) (hf : site f ≠ .gone)
    (hother : ∀ g, g ≠ f → (r.ff g).joinCounter = (s.ff g).joinCounter ∧
      owedTo owed' g = owedTo owed g)
    (hself : (r.ff f).joinCounter + ((site f).count + owedTo owed f) =
      (s.ff f).joinCounter + (y.count + owedTo owed' f)) :
    Counted r (Function.update site f y) owed' := by
  intro g hg
  rw [kids_congr hnext hlive hparent]
  by_cases hgf : g = f
  · subst hgf
    rw [Function.update_self]
    have hcount := hc g hf
    omega
  · rw [Function.update_of_ne hgf] at hg ⊢
    rw [(hother g hgf).1, (hother g hgf).2]
    exact hc g hg

/-- The frame `f` of a worker is put at `y` and gets a new child, which has no
children itself. -/
theorem Counted.addChild {y z : Site} (hs : Placed s site) (h : Linked s site none)
    (hc : Counted s site none) (hf : (s.worker w).frameFf = some f)
    (hnext : r.nextFrame = s.nextFrame + 1)
    (hlive : ∀ g, r.live g = if g = s.nextFrame then true else s.live g)
    (hold : ∀ g, g ≠ s.nextFrame → (r.ff g).parent = (s.ff g).parent)
    (hnew : (r.ff s.nextFrame).parent = some f)
    (hother : ∀ g, g ≠ f → g ≠ s.nextFrame → (r.ff g).joinCounter = (s.ff g).joinCounter)
    (hself : (r.ff f).joinCounter = (s.ff f).joinCounter + y.count)
    (hchild : (r.ff s.nextFrame).joinCounter = z.count) :
    Counted r (Function.update (Function.update site f y) s.nextFrame z) none := by
  have hsite : site f = .running w := (hs.running w f).mp hf
  have hflive := hs.running_live hf
  have hkids := kids_new hs h (fun p hp => Option.some.inj hp ▸ hflive) hnext hlive hold hnew
  intro g hg
  rw [hkids]
  by_cases hgn : g = s.nextFrame
  · rw [hgn, if_pos rfl, Function.update_self]
    exact hchild
  · rw [Function.update_of_ne hgn] at hg ⊢
    rw [if_neg hgn]
    by_cases hgf : g = f
    · subst hgf
      -- the child makes up for the owner
      have hcount := hc g hflive
      rw [hsite, show Site.count (.running w) = 1 from rfl] at hcount
      rw [Function.update_self, if_pos rfl, hself]
      omega
    · rw [Function.update_of_ne hgf] at hg ⊢
      rw [if_neg fun heq => hgf (Option.some.inj heq).symm, hother g hgf hgn]
      exact hc g hg

/-- A frame is destroyed, and its parent owed a count. -/
theorem Counted.drop (hs : Placed s site) (hc : Counted s site none) (hd : site d ≠ .gone)
    (hnext : r.nextFrame = s.nextFrame)
    (hlive : ∀ g, r.live g = if g = d then false else s.live g)
    (hparent : ∀ g, (r.ff g).parent = (s.ff g).parent)
    (hjoin : ∀ g, g ≠ d → (r.ff g).joinCounter = (s.ff g).joinCounter) :
    Counted r (Function.update site d .gone) (s.ff d).parent := by
  intro g hg
  have hgd : g ≠ d := by
    rintro rfl
    exact hg (Function.update_self ..)
  rw [Function.update_of_ne hgd] at hg ⊢
  have hkids := kids_drop hs hd hnext hlive hparent g
  have hcount : (s.ff g).joinCounter = (site g).count + (s.kids g).card + 0 := hc g hg
  rw [hjoin g hgd, owedTo]
  omega

-- ---------------------------------------------------------------------------
-- The counters under the moves
-- ---------------------------------------------------------------------------

/-- A frame is suspended and its oldest stack frame promoted. -/
theorem counted_promoteCall (hs : Placed s site) (h : Linked s site none)
    (hc : Counted s site none) (hf : (s.worker victim).frameFf = some f) : Counted
    (promoteCall s victim f sf young)
    (Function.update (Function.update site f .suspended) s.nextFrame (.running victim)) none := by
  have hne := hs.ne_nextFrame (hs.running_live hf)
  have hself : (promoteCall s victim f sf young).ff f = _ := (if_neg hne).trans (if_pos rfl)
  have hnew : (promoteCall s victim f sf young).ff s.nextFrame = _ := if_pos rfl
  refine Counted.addChild hs h hc hf rfl (fun _ => rfl)
    (fun g hg => frame_same FullFrame.parent (if_neg hg) rfl) ?_
    (fun g hgf hgn => congrArg FullFrame.joinCounter ((if_neg hgn).trans (if_neg hgf))) ?_ ?_
  · rw [hnew]
    rfl
  · rw [hself]
    rfl
  · rw [hnew]
    rfl

/-- The continuation of the frame of a worker is taken, which goes on with a new
child. -/
theorem counted_stealState {fiber : FiberArg} {y : Site} (hs : Placed s site)
    (h : Linked s site none) (hc : Counted s site none) (hf : (s.worker victim).frameFf = some f)
    (hy : (if w = victim then 0 else 1) = y.count) : Counted
    (stealState s w victim f sf young fiber)
    (Function.update (Function.update site f y) s.nextFrame (.running victim)) none := by
  have hne := hs.ne_nextFrame (hs.running_live hf)
  have hself : (stealState s w victim f sf young fiber).ff f = _ :=
    (if_neg hne).trans (if_pos rfl)
  have hnew : (stealState s w victim f sf young fiber).ff s.nextFrame = _ := if_pos rfl
  refine Counted.addChild hs h hc hf rfl (fun _ => rfl)
    (fun g hg => frame_same FullFrame.parent (if_neg hg) rfl) ?_
    (fun g hgf hgn => congrArg FullFrame.joinCounter ((if_neg hgn).trans (if_neg hgf))) ?_ ?_
  · rw [hnew]
    rfl
  · -- a thief becomes one more owner, a simulated steal leaves the frame without
    rw [hself, ← hy, FullFrame.looted]
    by_cases hw : w = victim
    · simp [hw]
    · simp [hw]
  · rw [hnew]
    rfl

/-- A thief takes the frame of a worker, which goes on with a new child. -/
theorem counted_steal (hs : Placed s site) (h : Linked s site none) (hc : Counted s site none)
    (hne : w ≠ victim) (hf : (s.worker victim).frameFf = some f) : Counted
    (stealState s w victim f sf young (.fiber x))
    (Function.update (Function.update site f (.given w)) s.nextFrame (.running victim)) none :=
  counted_stealState hs h hc hf (if_neg hne)

/-- A simulated steal suspends the frame. -/
theorem counted_promote (hs : Placed s site) (h : Linked s site none) (hc : Counted s site none)
    (hf : (s.worker w).frameFf = some f) : Counted (stealState s w w f sf young .placeholder)
    (Function.update (Function.update site f .suspended) s.nextFrame (.running w)) none :=
  counted_stealState hs h hc hf (if_pos rfl)

/-- A worker starts to return from a spawned frame. -/
theorem counted_beginReturn (hc : Counted s site none) : Counted
    (takeInHand s w (.spawnReduction none (s.worker w).reducerMap none)) site none :=
  hc.same rfl rfl (fun _ => rfl) fun _ => rfl

/-- A spawned frame has been unlinked. -/
theorem counted_finishReturn (hc : Counted s site none) :
    Counted (finishReturn s w p d) site none := by
  have hff : ∀ g, ((finishReturn s w p d).ff g).parent = (s.ff g).parent ∧
      ((finishReturn s w p d).ff g).joinCounter = (s.ff g).joinCounter := by
    intro g
    by_cases hg : g = d
    · subst hg
      simp [finishReturn]
    · by_cases hgp : g = p
      · subst hgp
        simp [finishReturn, hg]
      · simp [finishReturn, hg, hgp]
  exact hc.same rfl rfl (fun g => (hff g).1) fun g => (hff g).2

/-- A worker starts to sync. -/
theorem counted_beginSync (hc : Counted s site none) :
    Counted (beginSync s w f rest) site none := by
  rw [beginSync_closed]
  exact hc.same rfl rfl (fun _ => frame_same FullFrame.parent rfl rfl)
    (fun _ => frame_same FullFrame.joinCounter rfl rfl)

/-- The frame of a worker is suspended at its sync. -/
theorem counted_suspend (hc : Counted s site none) : Counted (suspend s w f) site none :=
  hc.same rfl rfl (fun _ => frame_same FullFrame.parent rfl rfl)
    (fun _ => frame_same FullFrame.joinCounter rfl rfl)

/-- A worker gives up the frame it has suspended. -/
theorem counted_leaveSync (hs : Placed s site) (hc : Counted s site none)
    (hf : (s.worker w).frameFf = some f) : Counted (leaveFf s w)
    (Function.update site f .suspended) (some f) := by
  refine hc.relocate rfl rfl (fun _ => rfl) (hs.running_live hf)
    (fun g hg => ⟨rfl, owedTo_of_ne hg⟩) ?_
  rw [(hs.running w f).mp hf, owedTo_self]
  rfl

/-- A worker gives up the frame that has returned. -/
theorem counted_leaveSpawn (hs : Placed s site) (hc : Counted s site none)
    (hd : (s.worker w).frameFf = some d) (hp : (s.ff d).parent = some p) : Counted
    (dropFf (leaveFf s w) d) (Function.update site d .gone) (some p) := by
  rw [← hp]
  exact Counted.drop hs hc (hs.running_live hd) rfl (fun _ => rfl)
    (fun _ => frame_same FullFrame.parent rfl rfl)
    fun g hg => congrArg FullFrame.joinCounter (if_neg hg)

/-- A frame is counted down. -/
theorem counted_countDown (h : Linked s site (some f)) (hc : Counted s site (some f)) :
    Counted (countDown s f) site none := by
  have hlive := (h.owed f rfl).1
  have hcount := hc f hlive
  rw [countDown_closed, ← Function.update_eq_self f site]
  refine hc.relocate rfl rfl (fun _ => frame_same FullFrame.parent rfl rfl) hlive
    (fun g hg => ⟨congrArg FullFrame.joinCounter (if_neg hg), (owedTo_of_ne hg).symm⟩) ?_
  rw [owedTo_self] at hcount ⊢
  show (if f = f then _ else s.ff f).joinCounter + _ = _
  rw [if_pos rfl, show owedTo none f = 0 from rfl]
  -- what it is owed is in the counter
  show (s.ff f).joinCounter - 1 + _ = _
  omega

/-- A synched frame is given to a worker. -/
theorem counted_handOver (hc : Counted s site (some f)) (hsite : site f = .suspended)
    (hjoin : (s.ff f).joinCounter = 1) : Counted (handOver s f t)
    (Function.update site f (.given t)) none := by
  refine hc.relocate rfl rfl (fun _ => frame_same FullFrame.parent rfl rfl)
    (by simp [hsite])
    (fun g hg => ⟨congrArg FullFrame.joinCounter (if_neg hg), (owedTo_of_ne hg).symm⟩) ?_
  rw [show ((handOver s f t).ff f).joinCounter = 1 from
    congrArg FullFrame.joinCounter (if_pos rfl), hjoin, hsite, owedTo_self]
  rfl

/-- A worker is given the frame that waited for it. -/
theorem counted_takeBack (hc : Counted s site (some f)) (hsite : site f = .suspended) : Counted
    (takeBack s w f) (Function.update site f (.given w)) none := by
  refine hc.relocate rfl rfl (fun _ => rfl) (by simp [hsite])
    (fun g hg => ⟨rfl, (owedTo_of_ne hg).symm⟩) ?_
  rw [hsite, owedTo_self]
  rfl

/-- A worker carries a frame that has returned from a call. -/
theorem counted_leaveCall (hs : Placed s site) (hc : Counted s site none)
    (hf : (s.worker w).frameFf = some f) (hjoin : (s.ff f).joinCounter = 1) : Counted
    (leaveCall s w f) (Function.update site f (.carried w)) none := by
  refine hc.relocate rfl rfl (fun _ => frame_same FullFrame.parent rfl rfl)
    (hs.running_live hf)
    (fun g hg => ⟨congrArg FullFrame.joinCounter (if_neg hg), rfl⟩) ?_
  rw [show ((leaveCall s w f).ff f).joinCounter = (s.ff f).joinCounter - 1 from
    congrArg FullFrame.joinCounter (if_pos rfl), hjoin, (hs.running w f).mp hf]
  rfl

/-- A worker goes on with the caller of the frame it carries. -/
theorem counted_finishCall (hs : Placed s site) (h : Linked s site none)
    (hc : Counted s site none) (hphase : (s.worker w).phase = .callReturning d)
    (hp : (s.ff d).parent = some p) : Counted (finishCall s w p d)
    (Function.update (Function.update site d .gone) p (.running w)) none := by
  have hsite : site d = .carried w := (hs.carried w d).mp hphase
  have hlive : site d ≠ .gone := by simp [hsite]
  have hne : p ≠ d := Nat.ne_of_lt (h.parent d p hlive hp).2
  have hpsite := h.caller d p hlive (h.carried w d hsite).1 hp
  have hff : ∀ g, ((finishCall s w p d).ff g).parent = (s.ff g).parent ∧
      ((finishCall s w p d).ff g).joinCounter = (s.ff g).joinCounter := by
    intro g
    by_cases hg : g = d
    · subst hg
      simp [finishCall]
    · by_cases hgp : g = p
      · subst hgp
        simp [finishCall, FullFrame.resumed, hg]
      · simp [finishCall, hg, hgp]
  -- the caller is owed the count of the finished frame, and takes it for its owner
  have hgone : Counted (finishCall s w p d) (Function.update site d .gone) (some p) := by
    rw [← hp]
    exact Counted.drop hs hc hlive rfl (fun _ => rfl) (fun g => (hff g).1) fun g _ => (hff g).2
  have hmid : Function.update site d .gone p = .suspended := by
    rw [Function.update_of_ne hne]
    exact hpsite
  refine hgone.relocate rfl rfl (fun _ => rfl) (by simp [hmid])
    (fun g hg => ⟨rfl, (owedTo_of_ne hg).symm⟩) ?_
  rw [hmid, owedTo_self]
  rfl

/-- A worker resumes the frame it has been given. -/
theorem counted_resume (hs : Placed s site) (hc : Counted s site none)
    (hnext : (s.worker w).nextFrameFf = some f) : Counted (resumeState s w f)
    (Function.update site f (.running w)) none := by
  have hsite : site f = .given w := (hs.given w f).mp hnext
  refine hc.relocate rfl rfl (fun _ => frame_same FullFrame.parent rfl rfl)
    (by simp [hsite])
    (fun g hg => ⟨congrArg FullFrame.joinCounter (if_neg hg), rfl⟩) ?_
  have hjoin : ((resumeState s w f).ff f).joinCounter = (s.ff f).joinCounter :=
    frame_same FullFrame.joinCounter rfl rfl
  rw [hjoin, hsite]
  rfl

/-- An initial frame has returned. -/
theorem counted_returnInitial (hs : Placed s site) (hc : Counted s site none)
    (hf : (s.worker w).frameFf = some f) (hparent : (s.ff f).parent = none) : Counted
    (returnInitial s w f) (Function.update site f .gone) none := by
  rw [← hparent]
  exact Counted.drop hs hc (hs.running_live hf) rfl (fun _ => rfl)
    (fun _ => frame_same FullFrame.parent rfl rfl)
    fun g hg => congrArg FullFrame.joinCounter (if_neg hg)

/-- A thread has been bound. -/
theorem counted_bind [∀ k, Monoid (M k)] (hs : Placed s site) (h : Linked s site none)
    (hc : Counted s site none) : Counted (bindThread s u code init)
    (Function.update site s.nextFrame (.running u)) none := by
  rw [bindThread_closed]
  intro g hg
  rw [kids_new (q := none) hs h (fun _ hp => nomatch hp) rfl (fun _ => rfl)
    (fun g hg => congrArg FullFrame.parent (if_neg hg)) (congrArg FullFrame.parent (if_pos rfl))]
  by_cases hgn : g = s.nextFrame
  · subst hgn
    rw [if_pos rfl, Function.update_self]
    exact congrArg FullFrame.joinCounter (if_pos rfl)
  · rw [Function.update_of_ne hgn] at hg ⊢
    rw [if_neg hgn, if_neg (by simp)]
    exact (congrArg FullFrame.joinCounter (if_neg hgn)).trans (hc g hg)

/-- A task has been detached. -/
theorem counted_detachPending [∀ k, Monoid (M k)] (hs : Placed s site) (h : Linked s site none)
    (hc : Counted s site none) (hf : (s.worker w).frameFf = some f) : Counted
    (detachPending s w f child) (Function.update site s.nextFrame (.waiting none)) none := by
  have hlive := hs.running_live hf
  have hne := hs.ne_nextFrame hlive
  rw [detachPending_closed s w f child (hs.fresh f hlive), ← Function.update_eq_self f site]
  refine Counted.addChild hs h hc hf rfl (fun _ => rfl)
    (fun g hg => frame_same FullFrame.parent (if_neg hg) rfl)
    (congrArg FullFrame.parent (if_pos rfl))
    (fun g hgf hgn => congrArg FullFrame.joinCounter ((if_neg hgn).trans (if_neg hgf))) ?_
    (congrArg FullFrame.joinCounter (if_pos rfl))
  rw [(hs.running w f).mp hf]
  exact congrArg FullFrame.joinCounter ((if_neg hne).trans (if_pos rfl))

/-- A pending frame is put on a ready list. -/
theorem counted_makeReady (hs : Placed s site) (hc : Counted s site none) (hpf : pf ∈ s.pending) :
    Counted (makeReady s w pf) (Function.update site pf.frameFf (.waiting (some w))) none := by
  have hsite : site pf.frameFf = .waiting none :=
    (hs.waiting none _).mp (List.mem_map_of_mem hpf)
  refine hc.relocate rfl rfl (fun _ => rfl) (by simp [hsite])
    (fun _ _ => ⟨rfl, rfl⟩) ?_
  rw [hsite]
  rfl

/-- A thief takes a frame from a ready list. -/
theorem counted_readySteal (hs : Placed s site) (hc : Counted s site none)
    (hpf : pf ∈ (s.worker victim).readyList) : Counted (readyState s w victim pf)
    (Function.update site pf.frameFf (.given w)) none := by
  have hsite : site pf.frameFf = .waiting (some victim) :=
    (hs.waiting (some victim) _).mp (List.mem_map_of_mem hpf)
  refine hc.relocate rfl rfl (fun g => ?_) (by simp [hsite])
    (fun g hg => ⟨congrArg FullFrame.joinCounter (if_neg hg), rfl⟩) ?_
  · show (if g = pf.frameFf then _ else s.ff g).parent = (s.ff g).parent
    split
    · rfl
    · rfl
  rw [show ((readyState s w victim pf).ff pf.frameFf).joinCounter =
    (s.ff pf.frameFf).joinCounter + 1 from congrArg FullFrame.joinCounter (if_pos rfl), hsite]
  rfl

-- ---------------------------------------------------------------------------
-- Moves
-- ---------------------------------------------------------------------------

section Move

variable [DecidableEq K] [∀ k, Monoid (M k)]

omit [DecidableEq K] [∀ k, Monoid (M k)] in
/-- Changing the code of the current stack frame changes nothing else. -/
theorem alike_modCurrent {g : StackFrame M → StackFrame M} (hrun : (s.worker w).phase = .running)
    (hg : ∀ sf : StackFrame M, (g sf).unsynched = sf.unsynched ∧ (g sf).detached = sf.detached ∧
      (g sf).last = sf.last) : Alike s (s.modCurrent w g) := by
  unfold State.modCurrent
  split
  · -- the current frame is the youngest one on the stack
    rename_i sf hlast
    refine alike_modWorker rfl rfl rfl rfl (Phase.Alike.refl _) (fun hw => absurd hrun hw)
      (fun hall e he => ?_) fun _ => rfl
    rcases List.mem_append.mp he with he | he
    · exact hall e (List.dropLast_subset _ he)
    · obtain rfl := List.mem_singleton.mp he
      obtain ⟨hunsynched, -, hlast'⟩ := hg sf
      rw [hunsynched, hlast']
      exact hall sf (List.mem_of_getLast? hlast)
  · split
    · -- the stack is empty: it is the one of the full frame
      rename_i f hf
      exact alike_modFf rfl rfl rfl rfl rfl (hg _).1 (hg _).2.1 (hg _).2.2
    · exact ⟨rfl, rfl, fun _ => rfl, fun _ => rfl, fun _ => rfl, fun _ => rfl,
        fun _ => Phase.Alike.refl _, fun _ _ => rfl, fun _ => id, fun _ _ => rfl, fun _ => rfl,
        fun _ => rfl, fun _ => rfl, fun _ => rfl, fun _ => rfl, fun _ => rfl, fun _ => rfl,
        fun _ => rfl⟩

omit [DecidableEq K] [∀ k, Monoid (M k)] in
theorem modCurrent_phase (g : StackFrame M → StackFrame M) (v : WorkerId) :
    ((s.modCurrent w g).worker v).phase = (s.worker v).phase := by
  unfold State.modCurrent
  split
  · by_cases hv : v = w
    · subst hv
      rw [modWorker_worker_self]
    · rw [modWorker_worker_ne _ _ hv]
  · split <;> rfl

omit [DecidableEq K] [∀ k, Monoid (M k)] in
theorem alike_pushStackFrame {sf : StackFrame M} (hrun : (s.worker w).phase = .running)
    (hsf : sf.unsynched = false ∧ sf.last = false) : Alike s (pushStackFrame s w sf) := by
  refine alike_modWorker rfl rfl rfl rfl (Phase.Alike.refl _) (fun hw => absurd hrun hw)
    (fun hall e he => ?_) fun _ => rfl
  rcases List.mem_append.mp he with he | he
  · exact hall e he
  · obtain rfl := List.mem_singleton.mp he
    exact hsf

omit [DecidableEq K] [∀ k, Monoid (M k)] in
theorem alike_setSlot (m : Option (ReducerMap M)) (a : MapSlot) : Alike s (s.setSlot m a) := by
  cases a with
  | childrenMap f =>
    show Alike s (s.modFf f fun ff => { ff with childrenReducerMap := m })
    exact alike_modFf rfl rfl rfl rfl rfl rfl rfl rfl
  | rightMap f =>
    show Alike s (s.modFf f fun ff => { ff with rightReducerMap := m })
    exact alike_modFf rfl rfl rfl rfl rfl rfl rfl rfl

omit [DecidableEq K] [∀ k, Monoid (M k)] in
theorem setSlot_worker (m : Option (ReducerMap M)) (a : MapSlot) :
    (s.setSlot m a).worker = s.worker := by
  cases a <;> rfl

omit [DecidableEq K] [∀ k, Monoid (M k)] in
theorem setPhase_eq (phase : Phase M) :
    setPhase s w phase = s.modWorker w fun wk => { wk with phase := phase } := by
  refine State.ext_of (fun u => ?_) (fun _ => rfl) (fun _ => rfl) rfl rfl rfl rfl fun _ => rfl
  by_cases hu : u = w
  · subst hu
    rw [modWorker_worker_self]
    exact if_pos rfl
  · rw [modWorker_worker_ne _ _ hu]
    exact if_neg hu

omit [DecidableEq K] [∀ k, Monoid (M k)] in
/-- Only the maps in hand have changed. -/
theorem alike_setPhase {phase : Phase M} (hphase : Phase.Alike phase (s.worker w).phase) :
    Alike s (setPhase s w phase) := by
  rw [setPhase_eq]
  exact alike_modWorker rfl rfl rfl rfl hphase (fun _ => rfl) id fun _ => rfl

omit [DecidableEq K] [∀ k, Monoid (M k)] in
theorem alike_freeFiber : Alike s (freeFiber s w) := by
  have hworker : ∀ v, (freeFiber s w).worker v =
      if v = w then { s.worker w with fiberToFree := none } else s.worker v := fun _ => rfl
  refine ⟨rfl, rfl, place_congr rfl fun v => ?_, fun v => ?_, fun v => ?_, fun v => ?_, fun v => ?_,
    fun v _ => ?_, fun v => ?_, fun v _ => ?_, fun _ => rfl, fun _ => rfl, fun _ => rfl,
    fun _ => rfl, fun _ => rfl, fun _ => rfl, fun _ => rfl, fun _ => rfl⟩
  -- only `fiberToFree` of `w` changes, which no clause reads
  all_goals
    rw [hworker]
    by_cases hv : v = w
    · subst hv
      rw [if_pos rfl]
      try first
        | exact Phase.Alike.refl _
        | exact id
    · rw [if_neg hv]
      try first
        | exact Phase.Alike.refl _
        | exact id

omit [DecidableEq K] [∀ k, Monoid (M k)] in
theorem alike_exit (hrun : (s.worker w).phase = .running) :
    Alike s (s.modWorker w fun wk => { wk with stack := wk.stack.dropLast }) := by
  refine alike_modWorker rfl rfl rfl rfl (Phase.Alike.refl _) (fun hno => absurd hrun hno)
    (fun hall e he => ?_) fun _ => rfl
  exact hall e (List.dropLast_subset _ he)

omit [DecidableEq K] [∀ k, Monoid (M k)] in
theorem alike_loseTeam : Alike s (s.modWorker w fun wk => { wk with team := none }) :=
  alike_modWorker rfl rfl rfl rfl (Phase.Alike.refl _) (fun _ => rfl) id fun _ => rfl

omit [DecidableEq K] [∀ k, Monoid (M k)] in
theorem alike_nextFiber : Alike s { s with nextFiber := s.nextFiber + 1 } :=
  ⟨rfl, rfl, fun _ => rfl, fun _ => rfl, fun _ => rfl, fun _ => rfl, fun _ => Phase.Alike.refl _,
    fun _ _ => rfl, fun _ => id, fun _ _ => rfl, fun _ => rfl, fun _ => rfl, fun _ => rfl,
    fun _ => rfl, fun _ => rfl, fun _ => rfl, fun _ => rfl, fun _ => rfl⟩

/-- Executing user code leaves the tree alone. -/
theorem alike_update {k : K} {x : M k} (hrun : (s.worker w).phase = .running) :
    Alike s ((updateReducer s w k x).modCurrent w fun sf =>
      sf.advance (Pi.mulSingle k x) rest) := by
  have hupdate : Alike s (updateReducer s w k x) :=
    alike_modWorker rfl rfl rfl rfl (Phase.Alike.refl _) (fun _ => rfl) id
      fun hno => absurd hrun hno
  have hphase : ∀ v, ((updateReducer s w k x).worker v).phase = (s.worker v).phase := by
    intro v
    by_cases hv : v = w
    · subst hv
      rw [updateReducer, modWorker_worker_self]
    · rw [updateReducer, modWorker_worker_ne _ _ hv]
  exact hupdate.trans (alike_modCurrent ((hphase w).trans hrun) fun _ => ⟨rfl, rfl, rfl⟩) hphase

theorem alike_enter {detached : Bool} (hrun : (s.worker w).phase = .running) :
    Alike s (pushStackFrame (s.modCurrent w fun sf => sf.advance child.product rest) w
      (enterFrame s w child detached)) := by
  have hadvance := alike_modCurrent (g := fun sf => sf.advance child.product rest) hrun
    fun _ => ⟨rfl, rfl, rfl⟩
  refine hadvance.trans (alike_pushStackFrame ?_ ⟨rfl, rfl⟩) (modCurrent_phase _)
  rw [modCurrent_phase]
  exact hrun

omit [DecidableEq K] [∀ k, Monoid (M k)] in
/-- So does rearranging maps. -/
theorem alike_rearrangeSpawn {left middle right left' l' m' r' right' : Option (ReducerMap M)}
    (hphase : (s.worker w).phase = .spawnReduction left middle right) :
    Alike s (rearrangeSpawn s w p d (.spawnReduction l' m' r') left' right') := by
  have hleft := alike_setSlot (s := s) left' (leftSlotForSpawnReturn s p d)
  have hright := alike_setSlot (s := s.setSlot left' (leftSlotForSpawnReturn s p d)) right'
    (.rightMap d)
  have hslots := hleft.trans hright fun v => by rw [setSlot_worker]
  refine hslots.trans (alike_setPhase ?_) fun v => ?_
  · rw [setSlot_worker, setSlot_worker, hphase]
    trivial
  · rw [setSlot_worker, setSlot_worker]

omit [DecidableEq K] [∀ k, Monoid (M k)] in
theorem alike_rearrangeSync {left middle left' l' m' : Option (ReducerMap M)}
    (hphase : (s.worker w).phase = .syncReduction left middle) :
    Alike s (rearrangeSync s w f (.syncReduction l' m') left') := by
  refine (alike_setSlot _ _).trans (alike_setPhase ?_) fun v => by rw [setSlot_worker]
  rw [setSlot_worker, hphase]
  trivial

omit [DecidableEq K] [∀ k, Monoid (M k)] in
/-- A frame whose counter holds nothing but the count it is owed is suspended, and
has no children. -/
theorem Shape.last_count (h : Shape s site (some f)) (hjoin : (s.ff f).joinCounter = 1) :
    site f = .suspended ∧ (s.kids f).card = 0 := by
  obtain ⟨hlive, hunsynched⟩ := h.linked.owed f rfl
  have hcount := h.counted f hlive
  rw [hjoin, owedTo, if_pos rfl] at hcount
  refine ⟨?_, by omega⟩
  -- any other place has a count of its own, or a frame that is not at a sync
  cases hsite : site f with
  | gone => exact absurd hsite hlive
  | running w =>
    rw [hsite, Site.count] at hcount
    omega
  | given w =>
    rw [hsite, Site.count] at hcount
    omega
  | waiting a => exact nomatch (h.linked.waiting a f hsite).2.2.2.symm.trans hunsynched
  | carried w => exact nomatch (h.linked.carried w f hsite).2.2.symm.trans hunsynched
  | suspended => rfl

omit [DecidableEq K] [∀ k, Monoid (M k)] in
/-- A worker is given the frame only if it has no other. -/
theorem receiver_free (ht : receiver s w f = .ok t) : (s.worker t).nextFrameFf = none := by
  unfold receiver at ht
  split at ht
  · obtain ⟨_, hfree, ht⟩ := Checked.bind_eq_ok.mp ht
    obtain rfl := Checked.pure_eq_ok.mp ht
    exact Option.isNone_iff_eq_none.mp (Checked.assert_eq_ok.mp hfree)
  · split at ht
    · exact nomatch ht
    · obtain ⟨_, -, ht⟩ := Checked.bind_eq_ok.mp ht
      obtain ⟨_, -, ht⟩ := Checked.bind_eq_ok.mp ht
      obtain ⟨_, hfree, ht⟩ := Checked.bind_eq_ok.mp ht
      obtain rfl := Checked.pure_eq_ok.mp ht
      exact Option.isNone_iff_eq_none.mp (Checked.assert_eq_ok.mp hfree)

/-- A move keeps the shape of the tree. -/
theorem Shape.move {force : Bool} {owed owed' : Option FrameId} (h : Shape s site owed)
    (hmove : Move force owed s owed' r) : ∃ site', Shape r site' owed' := by
  obtain ⟨hs, hw, hl, hsib, hc⟩ := h
  -- one case for each move: where the frames are after it, and what each part of `Shape` says there
  cases hmove with
  | bind hfree =>
    exact ⟨_, placed_bind hs hw hfree, workersOk_bind hw, linked_bind hs hw hl hfree,
      siblings_bind hs hw hl hsib hfree, counted_bind hs hl hc⟩
  | update hexec hcode => exact ⟨site, Shape.alike ⟨hs, hw, hl, hsib, hc⟩ (alike_update hexec.1)⟩
  | enter hexec hcode => exact ⟨site, Shape.alike ⟨hs, hw, hl, hsib, hc⟩ (alike_enter hexec.1)⟩
  | skip hexec hcode hsync =>
    exact ⟨site, Shape.alike ⟨hs, hw, hl, hsib, hc⟩
      (alike_modCurrent hexec.1 fun _ => ⟨rfl, rfl, rfl⟩)⟩
  | exit hexec hcode hstack => exact ⟨site, Shape.alike ⟨hs, hw, hl, hsib, hc⟩ (alike_exit hexec.1)⟩
  | @detachPending _ w f _ child rest hexec hcode hstack hf hsim =>
    -- first the code moves on, then the pending frame is made
    have hadvance := alike_modCurrent (g := fun sf => sf.advance child.product rest) hexec.1
      fun _ => ⟨rfl, rfl, rfl⟩
    obtain ⟨hs, hw, hl, hsib, hc⟩ := Shape.alike ⟨hs, hw, hl, hsib, hc⟩ hadvance
    have hrun : ((s.modCurrent w fun sf => sf.advance child.product rest).worker w).phase =
        .running := by
      rw [modCurrent_phase]
      exact hexec.1
    have hf := (hadvance.frameFf w).trans hf
    exact ⟨_, placed_detachPending hs hf, workersOk_detachPending hw,
      linked_detachPending hs hl hf hrun,
      siblings_detachPending hs hl hsib hf, counted_detachPending hs hl hc hf⟩
  | makeReady hrun hpf =>
    exact ⟨_, placed_makeReady hs hpf, workersOk_makeReady hw, linked_makeReady hs hl hpf,
      siblings_makeReady hs hsib hpf, counted_makeReady hs hc hpf⟩
  | promoteCall hrun hf hstack hsf =>
    have hlast := (hw.entered _ _ (hstack ▸ List.mem_cons_self)).2
    exact ⟨_, placed_promoteCall hs hf, workersOk_promoteCall hw hrun hstack,
      linked_promoteCall hs hl hrun hf hsf hlast,
      siblings_promoteCall hs hl hsib hf hrun, counted_promoteCall hs hl hc hf⟩
  | steal hne hteam htype hw' hnext hrun hf hstack hsf hsim =>
    have hlast := (hw.entered _ _ (hstack ▸ List.mem_cons_self)).2
    obtain ⟨hs, hw, hl, hsib, hc⟩ := Shape.alike ⟨hs, hw, hl, hsib, hc⟩ alike_nextFiber
    exact ⟨_, placed_steal hs hne hnext hf, workersOk_stealState hw hrun hstack,
      linked_steal hs hl hf hrun hlast,
      siblings_steal hs hl hsib hf hrun, counted_steal hs hl hc hne hf⟩
  | promote hrun hf hstack hsf hjoin hforce =>
    have hlast := (hw.entered _ _ (hstack ▸ List.mem_cons_self)).2
    exact ⟨_, placed_promote hs hf, workersOk_stealState hw hrun hstack,
      linked_promote hs hl hf hrun hlast,
      siblings_promote hs hl hsib hf hrun, counted_promote hs hl hc hf⟩
  | readySteal hteam htype hw' hnext hpf =>
    exact ⟨_, placed_readySteal hs hnext hpf, workersOk_readySteal hw, linked_readySteal hs hl hpf,
      siblings_readySteal hs hsib hpf, counted_readySteal hs hc hpf⟩
  | beginReturn hrun hstack hd hp hdet hcode hsync =>
    exact ⟨_, placed_beginReturn hs hrun, workersOk_beginReturn hw hrun hstack,
      linked_beginReturn hs hl hrun hd hdet hsync,
      siblings_beginReturn hsib hrun, counted_beginReturn hc⟩
  | rearrangeSpawn hphase hd hp hre =>
    exact ⟨site, Shape.alike ⟨hs, hw, hl, hsib, hc⟩ (alike_rearrangeSpawn hphase)⟩
  | finishReturn hphase hd hp hright =>
    exact ⟨_, placed_finishReturn hs hphase, workersOk_finishReturn hw hphase,
      linked_finishReturn hs hl hphase hd,
      siblings_finishReturn hs hl hsib hd hp, counted_finishReturn hc⟩
  | beginSync hrun hstack hf hsync hcode =>
    exact ⟨_, placed_beginSync hs hrun, workersOk_beginSync hw hrun hstack,
      linked_beginSync hs hl hrun hf hsync,
      siblings_beginSync hsib hrun, counted_beginSync hc⟩
  | rearrangeSync hphase hf hre =>
    exact ⟨site, Shape.alike ⟨hs, hw, hl, hsib, hc⟩ (alike_rearrangeSync hphase)⟩
  | suspend hphase hf =>
    exact ⟨_, placed_suspend hs hphase, workersOk_suspend hw hphase, linked_suspend hs hl hphase hf,
      siblings_suspend hsib hphase, counted_suspend hc⟩
  | freeFiber hphase => exact ⟨site, Shape.alike ⟨hs, hw, hl, hsib, hc⟩ alike_freeFiber⟩
  | leaveSync hphase hf =>
    exact ⟨_, placed_leaveSync hs hphase hf, workersOk_leaveSync hw hphase,
      linked_leaveSync hs hl hphase hf,
      siblings_leaveSync hs hsib hphase hf, counted_leaveSync hs hc hf⟩
  | leaveSpawn hphase hd hp =>
    exact ⟨_, placed_leaveSpawn hs hphase hd, workersOk_leaveSpawn hw hphase,
      linked_leaveSpawn hs hl hphase hd hp,
      siblings_leaveSpawn hs hsib hphase hd, counted_leaveSpawn hs hc hd hp⟩
  | countDown hjoin =>
    exact ⟨_, placed_countDown hs, workersOk_countDown hw, linked_countDown hl,
      siblings_countDown hsib, counted_countDown hl hc⟩
  | handOver hjoin ht hself =>
    -- the count that is handed over is the last one, so the frame is suspended and childless
    obtain ⟨hsite, hkids⟩ := Shape.last_count ⟨hs, hw, hl, hsib, hc⟩ hjoin
    have hno := hs.no_kids hkids
    exact ⟨_, placed_handOver hs hsite (receiver_free ht), workersOk_handOver hw,
      linked_handOver hl hsite hno,
      siblings_handOver hsib hsite, counted_handOver hc hsite hjoin⟩
  | takeBack hnext hjoin hsim hforce =>
    obtain ⟨hsite, hkids⟩ := Shape.last_count ⟨hs, hw, hl, hsib, hc⟩ hjoin
    have hno := hs.no_kids hkids
    exact ⟨_, placed_takeBack hs hsite hnext, workersOk_takeBack hw,
      linked_takeBack hl hsite hno,
      siblings_takeBack hsib hsite, counted_takeBack hc hsite⟩
  | leaveCall hrun hstack hf hjoin hcall hcode hsync =>
    exact ⟨_, placed_leaveCall hs hrun hf, workersOk_leaveCall hw hrun hstack,
      linked_leaveCall hs hl hf hcall hsync,
      siblings_leaveCall hs hsib hrun hf, counted_leaveCall hs hc hf hjoin⟩
  | @finishCall _ w d p hphase hp hnext hchildren hlast hmap hright hfiber hself hsync =>
    have hd : site d = .carried w := (hs.carried w d).mp hphase
    have hlive : site d ≠ .gone := by simp [hd]
    have hpsite := hl.caller d p hlive (hl.carried w d hd).1 hp
    have hne : p ≠ d := Nat.ne_of_lt (hl.parent d p hlive hp).2
    exact ⟨_, placed_finishCall hs hw hd hpsite hne, workersOk_finishCall hw hphase,
      linked_finishCall hs hw hl hphase hp,
      siblings_finishCall hs hl hsib hphase hp, counted_finishCall hs hl hc hphase hp⟩
  | resume hphase hnext =>
    exact ⟨_, placed_resume hs hw hphase hnext, workersOk_resume hw hphase,
      linked_resume hs hw hl hphase hnext,
      siblings_resume hs hw hsib hphase hnext, counted_resume hs hc hnext⟩
  | @returnInitial _ w f hrun hstack hf hlast hcode hsync hjoin =>
    have hsite : site f = .running w := (hs.running w f).mp hf
    have hlive : site f ≠ .gone := by simp [hsite]
    -- the counter is the owner’s alone
    have hkids : (s.kids f).card = 0 := by
      have hcount := hc f hlive
      rw [hjoin, hsite, Site.count] at hcount
      omega
    exact ⟨_, placed_returnInitial hs hrun hf, workersOk_returnInitial hw hstack,
      linked_returnInitial hs hl hf (hs.no_kids hkids),
      siblings_returnInitial hs hsib hf (hl.initial f hlive hlast),
      counted_returnInitial hs hc hf (hl.initial f hlive hlast)⟩
  | loseTeam hphase htype hready =>
    exact ⟨site, Shape.alike ⟨hs, hw, hl, hsib, hc⟩ alike_loseTeam⟩

end Move

end SwanRuntime.Runtime
