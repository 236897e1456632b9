import SwanRuntime.Runtime.Placement

/-!
# The runtime — what the workers do, and how the frames are linked

Every move keeps what the phase of a worker says about its fields, and the links
between frames, their parents and their children.
-/

namespace SwanRuntime.Runtime

open Reducers

variable {K : Type} {M : K → Type} {s r : State M} {site : FrameId → Site}
  {w victim t u : WorkerId} {f d p : FrameId} {sf : StackFrame M} {young : List (StackFrame M)}
  {x : FiberId} {owed : Option FrameId} {pf : PendingFrame} {rest child code : Code M}
  {init : ∀ k, M k}

-- ---------------------------------------------------------------------------
-- What the workers do
-- ---------------------------------------------------------------------------

/-- What one worker is doing shows in its fields. -/
structure WorkerOk (wk : Worker M) : Prop where
  free     : wk.type = .free ↔ wk.phase = .unbound
  active   : wk.frameFf.isSome = wk.phase.active
  stackNil : wk.phase ≠ .running → wk.stack = []
  entered  : ∀ sf ∈ wk.stack, sf.unsynched = false ∧ sf.last = false
  mapless  : wk.phase.mapless = true → wk.reducerMap = none

theorem workersOk_iff : WorkersOk s ↔ ∀ w, WorkerOk (s.worker w) :=
  ⟨fun h w => ⟨h.free w, h.active w, h.stackNil w, h.entered w, h.mapless w⟩, fun h =>
    ⟨fun w => (h w).free, fun w => (h w).active, fun w => (h w).stackNil, fun w => (h w).entered,
      fun w => (h w).mapless⟩⟩

/-- A move changes one worker. -/
theorem WorkersOk.change {wk : Worker M} (h : WorkersOk s)
    (hr : ∀ v, r.worker v = if v = w then wk else s.worker v)
    (hwk : WorkerOk (s.worker w) → WorkerOk wk) : WorkersOk r := by
  rw [workersOk_iff] at h ⊢
  intro v
  rw [hr]
  split
  · exact hwk (h w)
  · exact h v

section WorkerOk

variable {wk : Worker M} {phase : Phase M}

theorem WorkerOk.not_free (h : WorkerOk wk) (hphase : wk.phase ≠ .unbound) : wk.type ≠ .free :=
  mt h.free.mp hphase

/-- The worker goes on with another frame, and with less on its stack. -/
theorem WorkerOk.goOn (h : WorkerOk wk) (hrun : wk.phase = .running)
    (hstack : wk.stack = sf :: young) (g : FrameId) (last : Option FrameId) :
    WorkerOk { wk with frameFf := some g, stack := young, lastFullFrame := last } where
  free     := h.free
  active   := by
    show true = wk.phase.active
    rw [hrun]
    rfl
  stackNil := fun hno => absurd hrun hno
  entered  := fun a ha => h.entered a (hstack ▸ List.mem_cons_of_mem sf ha)
  mapless  := h.mapless

/-- The worker takes its map in hand. -/
theorem WorkerOk.inHand (h : WorkerOk wk) (hrun : wk.phase = .running) (hstack : wk.stack = [])
    (hbound : phase ≠ .unbound) (hactive : phase.active = true) :
    WorkerOk { wk with reducerMap := none, phase := phase } where
  free     := iff_of_false (h.not_free (by rw [hrun]; exact nofun)) hbound
  active   := by
    have hold := h.active
    rw [hrun] at hold
    exact hold.trans hactive.symm
  stackNil := fun _ => hstack
  entered  := h.entered
  mapless  := fun _ => rfl

/-- The worker is done with its maps, and about to enter the runtime. -/
theorem WorkerOk.done (h : WorkerOk wk) (hbound : wk.phase ≠ .unbound)
    (hrun : wk.phase ≠ .running) (hmapless : wk.phase.mapless = true) (phase : Phase M)
    (hbound' : phase ≠ .unbound) (hactive : phase.active = wk.phase.active)
    (fiber : Option FiberId) : WorkerOk { wk with fiberToFree := fiber, phase := phase } where
  free     := iff_of_false (h.not_free hbound) hbound'
  active   := h.active.trans hactive.symm
  stackNil := fun _ => h.stackNil hrun
  entered  := h.entered
  mapless  := fun _ => h.mapless hmapless

/-- The worker gives up its frame. -/
theorem WorkerOk.leave (h : WorkerOk wk) (hbound : wk.phase ≠ .unbound) (hstack : wk.stack = [])
    (hbound' : phase ≠ .unbound) (hactive : phase.active = false)
    (hmap : phase.mapless = true → wk.reducerMap = none) :
    WorkerOk { wk with frameFf := none, phase := phase } where
  free     := iff_of_false (h.not_free hbound) hbound'
  active   := hactive.symm
  stackNil := fun _ => hstack
  entered  := h.entered
  mapless  := hmap

/-- The worker resumes a frame. -/
theorem WorkerOk.resume (h : WorkerOk wk) (hbound : wk.phase ≠ .unbound) (g : FrameId)
    (next : Option FrameId) (m : Option (ReducerMap M)) :
    WorkerOk { wk with
      frameFf := some g, nextFrameFf := next, stack := [], reducerMap := m
      phase := .running } where
  free     := iff_of_false (h.not_free hbound) nofun
  active   := rfl
  stackNil := fun _ => rfl
  entered  := fun _ ha => absurd ha List.not_mem_nil
  mapless  := nofun

end WorkerOk

theorem workersOk_promoteCall (h : WorkersOk s) (hrun : (s.worker victim).phase = .running)
    (hstack : (s.worker victim).stack = sf :: young) :
    WorkersOk (promoteCall s victim f sf young) :=
  h.change (fun _ => rfl) fun h => h.goOn hrun hstack _ _

theorem workersOk_stealState {fiber : FiberArg} (h : WorkersOk s)
    (hrun : (s.worker victim).phase = .running) (hstack : (s.worker victim).stack = sf :: young) :
    WorkersOk (stealState s w victim f sf young fiber) := by
  rw [workersOk_iff] at h ⊢
  intro v
  show WorkerOk (if v = victim then _ else if v = w then _ else s.worker v)
  split
  · exact (h victim).goOn hrun hstack _ _
  · split
    · exact ⟨(h w).free, (h w).active, (h w).stackNil, (h w).entered, (h w).mapless⟩
    · exact h v

theorem workersOk_beginReturn (h : WorkersOk s) (hrun : (s.worker w).phase = .running)
    (hstack : (s.worker w).stack = []) : WorkersOk
    (takeInHand s w (.spawnReduction none (s.worker w).reducerMap none)) :=
  h.change (fun _ => rfl) fun h => h.inHand hrun hstack nofun rfl

theorem workersOk_finishReturn (h : WorkersOk s)
    (hphase : (s.worker w).phase = .spawnReduction none none none) :
    WorkersOk (finishReturn s w p d) :=
  h.change (fun _ => rfl) fun h => h.done (by rw [hphase]; exact nofun)
    (by rw [hphase]; exact nofun) (by rw [hphase]; rfl) .spawnReturned nofun
    (by rw [hphase]; rfl) _

theorem workersOk_beginSync (h : WorkersOk s) (hrun : (s.worker w).phase = .running)
    (hstack : (s.worker w).stack = []) : WorkersOk (beginSync s w f rest) :=
  h.change (fun _ => rfl) fun h => h.inHand hrun hstack nofun rfl

theorem workersOk_suspend (h : WorkersOk s)
    (hphase : (s.worker w).phase = .syncReduction none none) : WorkersOk (suspend s w f) :=
  h.change (fun _ => rfl) fun h => h.done (by rw [hphase]; exact nofun)
    (by rw [hphase]; exact nofun) (by rw [hphase]; rfl) .synching nofun (by rw [hphase]; rfl) _

theorem workersOk_leaveSync (h : WorkersOk s) (hphase : (s.worker w).phase = .synching) :
    WorkersOk (leaveFf s w) :=
  h.change (fun _ => rfl) fun h => h.leave (by rw [hphase]; exact nofun)
    (h.stackNil (by rw [hphase]; exact nofun)) nofun rfl fun _ => h.mapless (by rw [hphase]; rfl)

theorem workersOk_leaveSpawn (h : WorkersOk s) (hphase : (s.worker w).phase = .spawnReturned) :
    WorkersOk (dropFf (leaveFf s w) d) :=
  h.change (fun _ => rfl) fun h => h.leave (by rw [hphase]; exact nofun)
    (h.stackNil (by rw [hphase]; exact nofun)) nofun rfl fun _ => h.mapless (by rw [hphase]; rfl)

theorem workersOk_countDown (h : WorkersOk s) : WorkersOk (countDown s f) :=
  ⟨h.free, h.active, h.stackNil, h.entered, h.mapless⟩

theorem workersOk_handOver (h : WorkersOk s) : WorkersOk (handOver s f t) :=
  h.change (fun _ => rfl) fun h => ⟨h.free, h.active, h.stackNil, h.entered, h.mapless⟩

theorem workersOk_takeBack (h : WorkersOk s) : WorkersOk (takeBack s w f) :=
  h.change (fun _ => rfl) fun h => ⟨h.free, h.active, h.stackNil, h.entered, h.mapless⟩

theorem workersOk_leaveCall (h : WorkersOk s) (hrun : (s.worker w).phase = .running)
    (hstack : (s.worker w).stack = []) : WorkersOk (leaveCall s w f) :=
  h.change (fun _ => rfl) fun h => h.leave (by rw [hrun]; exact nofun) hstack nofun rfl nofun

theorem workersOk_finishCall (h : WorkersOk s) (hphase : (s.worker w).phase = .callReturning d) :
    WorkersOk (finishCall s w p d) :=
  h.change (fun _ => rfl) fun h => h.resume (by rw [hphase]; exact nofun) _ _ _

theorem workersOk_resume (h : WorkersOk s) (hphase : (s.worker w).phase = .scheduling) :
    WorkersOk (resumeState s w f) :=
  h.change (fun _ => rfl) fun h => h.resume (by rw [hphase]; exact nofun) _ _ _

theorem workersOk_returnInitial (h : WorkersOk s) (hstack : (s.worker w).stack = []) :
    WorkersOk (returnInitial s w f) :=
  h.change (fun _ => rfl) fun h =>
    ⟨iff_of_true rfl rfl, rfl, fun _ => hstack, h.entered, fun _ => rfl⟩

theorem workersOk_bind [∀ k, Monoid (M k)] (h : WorkersOk s) : WorkersOk
    (bindThread s u code init) := by
  rw [bindThread_closed]
  exact h.change (fun _ => rfl) fun _ => ⟨iff_of_false nofun nofun, rfl, fun _ => rfl,
    fun _ ha => absurd ha List.not_mem_nil, nofun⟩

theorem workersOk_detachPending [∀ k, Monoid (M k)] (h : WorkersOk s) : WorkersOk
    (detachPending s w f child) :=
  ⟨h.free, h.active, h.stackNil, h.entered, h.mapless⟩

theorem workersOk_makeReady (h : WorkersOk s) : WorkersOk (makeReady s w pf) := by
  rw [makeReady_closed]
  exact h.change (fun _ => rfl) fun h => ⟨h.free, h.active, h.stackNil, h.entered, h.mapless⟩

theorem workersOk_readySteal (h : WorkersOk s) : WorkersOk (readyState s w victim pf) :=
  ⟨h.free, h.active, h.stackNil, h.entered, h.mapless⟩

-- ---------------------------------------------------------------------------
-- Links
-- ---------------------------------------------------------------------------

/-- How a frame came to be shows in its fields. -/
structure Rooted (ff : FullFrame M) : Prop where
  detached : ff.frame.detached = true → ff.isCallChild = false ∧ ff.parent.isSome = true
  called   : ff.isCallChild = true → ff.parent.isSome = true
  initial  : ff.frame.last = true → ff.parent = none

/-- The place of a frame, and the phase of the worker that runs it, show in its
fields. -/
def Fits (s : State M) (ff : FullFrame M) : Site → Prop
  | .gone => True
  | .running w => (ff.callStack = true ↔ (s.worker w).phase = .synching) ∧
      ((s.worker w).phase.leaving = true →
        ff.frame.detached = true ∧ ff.frame.unsynched = false) ∧
      ((s.worker w).phase.syncing = true → ff.frame.unsynched = true)
  | .given _ => ff.callStack = true
  | .waiting _ => ff.isCallChild = false ∧ ff.callStack = false ∧ ff.parent.isSome = true ∧
      ff.frame.unsynched = false
  | .carried _ => ff.isCallChild = true ∧ ff.callStack = false ∧ ff.frame.unsynched = false
  | .suspended => ff.callStack = true

/-- The frame with the fields `pp`, at `y`, can be the parent of that with the
fields `dd`. -/
structure Fosters (pp dd : FullFrame M) (y : Site) : Prop where
  live    : y ≠ .gone
  caller  : dd.isCallChild = true → y = .suspended
  spawned : dd.isCallChild = false → pp.frame.unsynched = true

theorem Linked.rooted (h : Linked s site owed) (hd : site d ≠ .gone) : Rooted (s.ff d) :=
  ⟨h.detached d hd, h.called d hd, h.initial d hd⟩

theorem Linked.fits (h : Linked s site owed) (f : FrameId) : Fits s (s.ff f) (site f) := by
  cases hsite : site f with
  | gone => exact trivial
  | running w => exact ⟨h.current w f hsite, h.leaving w f hsite, h.syncing w f hsite⟩
  | given w => exact h.given w f hsite
  | waiting a => exact h.waiting a f hsite
  | carried w => exact h.carried w f hsite
  | suspended => exact h.suspended f hsite

theorem Linked.fosters (h : Linked s site owed) (hd : site d ≠ .gone)
    (hp : (s.ff d).parent = some p) : Fosters (s.ff p) (s.ff d) (site p) :=
  ⟨(h.parent d p hd hp).1, fun hcall => h.caller d p hd hcall hp, h.spawned d p hd hp⟩

/-- The links hold when they hold of each frame, and of each frame and its parent. -/
theorem Linked.of (hrooted : ∀ f, site f ≠ .gone → Rooted (s.ff f))
    (hfits : ∀ f, Fits s (s.ff f) (site f))
    (hparent : ∀ d p, site d ≠ .gone → (s.ff d).parent = some p →
      p < d ∧ Fosters (s.ff p) (s.ff d) (site p))
    (honce : ∀ d e p, site d ≠ .gone → (s.ff d).isCallChild = true → (s.ff d).parent = some p →
      site e ≠ .gone → (s.ff e).isCallChild = true → (s.ff e).parent = some p → d = e)
    (howed : ∀ f, owed = some f → site f ≠ .gone ∧ (s.ff f).frame.unsynched = true) :
    Linked s site owed := by
  have hat : ∀ {f y}, site f = y → Fits s (s.ff f) y := fun hsite => hsite ▸ hfits _
  exact
    { current := fun w f hsite => (hat hsite).1
      leaving := fun w f hsite => (hat hsite).2.1
      syncing := fun w f hsite => (hat hsite).2.2
      given := fun w f hsite => hat hsite
      waiting := fun a f hsite => hat hsite
      carried := fun w f hsite => hat hsite
      suspended := fun f hsite => hat hsite
      parent := fun d p hd hp => ⟨(hparent d p hd hp).2.live, (hparent d p hd hp).1⟩
      detached := fun d hd => (hrooted d hd).detached
      called := fun d hd => (hrooted d hd).called
      caller := fun d p hd hcall hp => (hparent d p hd hp).2.caller hcall
      callOnce := honce
      spawned := fun d p hd hp => (hparent d p hd hp).2.spawned
      initial := fun d hd => (hrooted d hd).initial
      owed := howed }

/-- Two frames have the same links. -/
structure SameLinks (ff gg : FullFrame M) : Prop where
  parent      : gg.parent = ff.parent
  isCallChild : gg.isCallChild = ff.isCallChild
  callStack   : gg.callStack = ff.callStack
  detached    : gg.frame.detached = ff.frame.detached
  unsynched   : gg.frame.unsynched = ff.frame.unsynched
  last        : gg.frame.last = ff.frame.last

theorem SameLinks.of_eq {ff gg : FullFrame M} (h : gg = ff) : SameLinks ff gg := by
  subst h
  exact ⟨rfl, rfl, rfl, rfl, rfl, rfl⟩

theorem SameLinks.rooted {ff gg : FullFrame M} (h : SameLinks ff gg) (hff : Rooted ff) :
    Rooted gg := by
  constructor
  · rw [h.detached, h.isCallChild, h.parent]
    exact hff.detached
  · rw [h.isCallChild, h.parent]
    exact hff.called
  · rw [h.last, h.parent]
    exact hff.initial

/-- A frame fits its place as long as the worker that runs it keeps its phase. -/
theorem SameLinks.fits {ff gg : FullFrame M} {y : Site} (h : SameLinks ff gg) (hff : Fits s ff y)
    (hphase : ∀ v, y = .running v → (r.worker v).phase = (s.worker v).phase) : Fits r gg y := by
  cases y with
  | gone => exact trivial
  | running w =>
    rw [Fits, hphase w rfl, h.callStack, h.detached, h.unsynched]
    exact hff
  | given w => exact h.callStack.trans hff
  | waiting a =>
    rw [Fits, h.isCallChild, h.callStack, h.parent, h.unsynched]
    exact hff
  | carried w =>
    rw [Fits, h.isCallChild, h.callStack, h.unsynched]
    exact hff
  | suspended => exact h.callStack.trans hff

/-- A frame that has synched, and waits for no call, has no children. -/
theorem Linked.childless (h : Linked s site owed) (hp : site p ≠ .suspended)
    (hsync : (s.ff p).frame.unsynched = false) (hd : site d ≠ .gone) :
    (s.ff d).parent ≠ some p := by
  intro hparent
  have hfosters := h.fosters hd hparent
  cases hcall : (s.ff d).isCallChild with
  | false => exact absurd (hfosters.spawned hcall) (by rw [hsync]; exact Bool.false_ne_true)
  | true => exact hp (hfosters.caller hcall)

/-- The frame `f` changes its fields, and its place. -/
theorem Linked.relocate {ff : FullFrame M} {y : Site} {owed' : Option FrameId}
    (h : Linked s site owed) (hlive : site f ≠ .gone)
    (hother : ∀ g, g ≠ f → SameLinks (s.ff g) (r.ff g))
    (hphase : ∀ v g, g ≠ f → site g = .running v → (r.worker v).phase = (s.worker v).phase)
    (hself : r.ff f = ff) (hparent : ff.parent = (s.ff f).parent)
    (hcall : ff.isCallChild = (s.ff f).isCallChild) (hrooted : Rooted ff) (hfits : Fits r ff y)
    (hkids : ∀ d, site d ≠ .gone → (s.ff d).parent = some f → Fosters ff (s.ff d) y)
    (howed : ∀ g, owed' = some g →
      Function.update site f y g ≠ .gone ∧ (r.ff g).frame.unsynched = true) :
    Linked r (Function.update site f y) owed' := by
  subst hself
  -- the frames that are there now were there before, as the same children
  have hold : ∀ g, Function.update site f y g ≠ .gone → site g ≠ .gone := by
    intro g hg
    by_cases hgf : g = f
    · rwa [hgf]
    · rwa [Function.update_of_ne hgf] at hg
  have hchild : ∀ g, (r.ff g).parent = (s.ff g).parent ∧
      (r.ff g).isCallChild = (s.ff g).isCallChild := by
    intro g
    by_cases hgf : g = f
    · rw [hgf]
      exact ⟨hparent, hcall⟩
    · exact ⟨(hother g hgf).parent, (hother g hgf).isCallChild⟩
  refine Linked.of (fun g hg => ?_) (fun g => ?_) (fun d p hd hp => ?_)
    (fun d e p hd hdcall hdp he hecall hep => ?_) howed
  · by_cases hgf : g = f
    · subst hgf
      exact hrooted
    · exact (hother g hgf).rooted (h.rooted (hold g hg))
  · by_cases hgf : g = f
    · rw [hgf, Function.update_self]
      exact hfits
    · rw [Function.update_of_ne hgf]
      exact (hother g hgf).fits (h.fits g) fun v => hphase v g hgf
  · rw [(hchild d).1] at hp
    have hlt := (h.parent d p (hold d hd) hp).2
    refine ⟨hlt, ?_⟩
    have hfosters : Fosters (r.ff p) (s.ff d) (Function.update site f y p) := by
      by_cases hpf : p = f
      · rw [hpf] at hp hlt ⊢
        rw [Function.update_self]
        exact hkids d (hold d hd) hp
      · have hfosters := h.fosters (hold d hd) hp
        rw [Function.update_of_ne hpf]
        exact ⟨hfosters.live, hfosters.caller, fun hno =>
          (hother p hpf).unsynched.trans (hfosters.spawned hno)⟩
    exact ⟨hfosters.live, fun hd' => hfosters.caller ((hchild d).2.symm.trans hd'),
      fun hd' => hfosters.spawned ((hchild d).2.symm.trans hd')⟩
  · rw [(hchild d).1] at hdp
    rw [(hchild e).1] at hep
    rw [(hchild d).2] at hdcall
    rw [(hchild e).2] at hecall
    exact h.callOnce d e p (hold d hd) hdcall hdp (hold e he) hecall hep

/-- The children of a frame that is not suspended stay with it. -/
theorem Linked.keepKids {y : Site} {ff : FullFrame M} (h : Linked s site owed)
    (hf : site f = .suspended → y = .suspended) (hy : y ≠ .gone)
    (hsync : (s.ff f).frame.unsynched = true → ff.frame.unsynched = true) (d : FrameId)
    (hd : site d ≠ .gone) (hp : (s.ff d).parent = some f) : Fosters ff (s.ff d) y :=
  ⟨hy, fun hcall => hf ((h.fosters hd hp).caller hcall), fun hno =>
    hsync ((h.fosters hd hp).spawned hno)⟩

/-- A new frame `n` is made, at `y`. -/
theorem Linked.birth {n : FrameId} {y : Site} (h : Linked s site none) (hgone : site n = .gone)
    (hfresh : ∀ g, site g ≠ .gone → g < n) (hold : ∀ g, g ≠ n → r.ff g = s.ff g)
    (hphase : ∀ v g, site g = .running v → (r.worker v).phase = (s.worker v).phase)
    (hrooted : Rooted (r.ff n)) (hfits : Fits r (r.ff n) y)
    (hparent : ∀ p, (r.ff n).parent = some p → Fosters (s.ff p) (r.ff n) (site p))
    (hcaller : ∀ p, (r.ff n).isCallChild = true → (r.ff n).parent = some p →
      ∀ e, site e ≠ .gone → (s.ff e).isCallChild = true → (s.ff e).parent ≠ some p) :
    Linked r (Function.update site n y) none := by
  have hlive : ∀ {g}, g ≠ n → Function.update site n y g ≠ .gone → site g ≠ .gone := by
    intro g hgn hg
    rwa [Function.update_of_ne hgn] at hg
  refine Linked.of (fun g hg => ?_) (fun g => ?_) (fun d p hd hp => ?_)
    (fun d e p hd hdcall hdp he hecall hep => ?_) nofun
  · by_cases hgn : g = n
    · rw [hgn]
      exact hrooted
    · rw [hold g hgn]
      exact h.rooted (hlive hgn hg)
  · by_cases hgn : g = n
    · rw [hgn, Function.update_self]
      exact hfits
    · rw [Function.update_of_ne hgn]
      exact (SameLinks.of_eq (hold g hgn)).fits (h.fits g) fun v => hphase v g
  · -- nobody was a child of the new frame
    have hne : ∀ {q}, site q ≠ .gone → q ≠ n := fun hq hqn => hq (hqn ▸ hgone)
    by_cases hdn : d = n
    · subst hdn
      have hfosters := hparent p hp
      have hpn := hne hfosters.live
      rw [Function.update_of_ne hpn, hold p hpn]
      exact ⟨hfresh p hfosters.live, hfosters⟩
    · rw [hold d hdn] at hp ⊢
      have hfosters := h.fosters (hlive hdn hd) hp
      have hpn := hne hfosters.live
      rw [Function.update_of_ne hpn, hold p hpn]
      exact ⟨(h.parent d p (hlive hdn hd) hp).2, hfosters⟩
  · by_cases hdn : d = n
    · by_cases hen : e = n
      · rw [hdn, hen]
      · rw [hdn] at hdcall hdp
        rw [hold e hen] at hecall hep
        exact absurd hep (hcaller p hdcall hdp e (hlive hen he) hecall)
    · rw [hold d hdn] at hdcall hdp
      by_cases hen : e = n
      · rw [hen] at hecall hep
        exact absurd hdp (hcaller p hecall hep d (hlive hdn hd) hdcall)
      · rw [hold e hen] at hecall hep
        exact h.callOnce d e p (hlive hdn hd) hdcall hdp (hlive hen he) hecall hep

/-- The frame `f` changes its fields where it is. -/
theorem Linked.stay {ff : FullFrame M} (h : Linked s site owed) (hlive : site f ≠ .gone)
    (hother : ∀ g, g ≠ f → SameLinks (s.ff g) (r.ff g))
    (hphase : ∀ v g, g ≠ f → site g = .running v → (r.worker v).phase = (s.worker v).phase)
    (hself : r.ff f = ff) (hparent : ff.parent = (s.ff f).parent)
    (hcall : ff.isCallChild = (s.ff f).isCallChild)
    (hsync : (s.ff f).frame.unsynched = true → ff.frame.unsynched = true)
    (hrooted : Rooted ff) (hfits : Fits r ff (site f)) : Linked r site none := by
  have hmove : Linked r (Function.update site f (site f)) none :=
    h.relocate hlive hother hphase hself hparent hcall hrooted hfits
      (h.keepKids id hlive hsync) nofun
  rwa [Function.update_eq_self] at hmove

/-- The frame `f` of a worker gets a new child. -/
theorem Linked.addChild {ff dd : FullFrame M} {y z : Site} (hs : Placed s site)
    (h : Linked s site none) (hf : (s.worker w).frameFf = some f)
    (hold : ∀ g, g ≠ f → g ≠ s.nextFrame → r.ff g = s.ff g)
    (hphase : ∀ v, (r.worker v).phase = (s.worker v).phase)
    (hself : r.ff f = ff) (hparent : ff.parent = (s.ff f).parent)
    (hcall : ff.isCallChild = (s.ff f).isCallChild)
    (hsync : (s.ff f).frame.unsynched = true → ff.frame.unsynched = true)
    (hrooted : Rooted ff) (hfits : Fits r ff y) (hchild : r.ff s.nextFrame = dd)
    (hnew : dd.parent = some f) (hfosters : Fosters ff dd y) (hrooted' : Rooted dd)
    (hfits' : Fits r dd z) :
    Linked r (Function.update (Function.update site f y) s.nextFrame z) none := by
  subst hself hchild
  have hsite : site f = .running w := (hs.running w f).mp hf
  have hlive : site f ≠ .gone := by
    rw [hsite]
    exact nofun
  have hnext : s.nextFrame ≠ f := fun heq => hlive (heq ▸ hs.nextFrame)
  -- first the parent changes, then the child is made
  let q : State M := { s with ff := fun g => if g = f then r.ff f else s.ff g }
  have hq_self : q.ff f = r.ff f := if_pos rfl
  have hother : ∀ g, g ≠ f → q.ff g = s.ff g := fun g hg => if_neg hg
  have hq : Linked q (Function.update site f y) none := by
    refine h.relocate hlive (fun g hg => .of_eq (hother g hg)) (fun _ _ _ _ => rfl)
      hq_self hparent hcall hrooted ?_ ?_ nofun
    · exact (SameLinks.of_eq rfl).fits hfits fun v _ => (hphase v).symm
    · exact h.keepKids (fun hno => absurd (hsite.symm.trans hno) nofun) hfosters.live hsync
  refine hq.birth ?_ (fun g hg => ?_) (fun g hg => ?_) (fun v _ _ => hphase v) hrooted' hfits'
    (fun p hp => ?_) (fun p _ hp e he hecall => ?_)
  · rw [Function.update_of_ne hnext]
    exact hs.nextFrame
  · by_cases hgf : g = f
    · rw [hgf]
      exact hs.fresh f hlive
    · rw [Function.update_of_ne hgf] at hg
      exact hs.fresh g hg
  · by_cases hgf : g = f
    · rw [hgf, hq_self]
    · rw [hother g hgf]
      exact hold g hgf hg
  · obtain rfl : f = p := Option.some.inj (hnew.symm.trans hp)
    rw [hq_self, Function.update_self]
    exact hfosters
  · -- a frame that a worker runs waits for no call
    obtain rfl : f = p := Option.some.inj (hnew.symm.trans hp)
    intro hep
    have hef : e ≠ f := by
      rintro rfl
      exact Nat.lt_irrefl _ (hq.parent e e he hep).2
    rw [hother e hef] at hecall hep
    rw [Function.update_of_ne hef] at he
    exact absurd (hsite.symm.trans ((h.fosters he hep).caller hecall)) nofun

-- ---------------------------------------------------------------------------
-- The links under the moves
-- ---------------------------------------------------------------------------

theorem Fits.of_phase {ff : FullFrame M} (phase : Phase M) (hphase : (r.worker w).phase = phase)
    (hcall : ff.callStack = true ↔ phase = .synching)
    (hleaving : phase.leaving = true → ff.frame.detached = true ∧ ff.frame.unsynched = false)
    (hsyncing : phase.syncing = true → ff.frame.unsynched = true) : Fits r ff (.running w) := by
  rw [Fits, hphase]
  exact ⟨hcall, hleaving, hsyncing⟩

theorem Fits.of_running {ff : FullFrame M} (hrun : (r.worker w).phase = .running)
    (hcall : ff.callStack = false) : Fits r ff (.running w) :=
  of_phase .running hrun (iff_of_false (Bool.eq_false_iff.mp hcall) nofun) nofun
    nofun

/-- A worker runs no other frame than its own. -/
theorem Placed.elsewhere (hs : Placed s site) (hf : (s.worker w).frameFf = some f) {v : WorkerId}
    {g : FrameId} (hg : g ≠ f) (hv : site g = .running v) : v ≠ w := by
  rintro rfl
  exact hg (Option.some.inj (((hs.running v g).mpr hv).symm.trans hf))

/-- A worker without a frame runs none. -/
theorem Placed.not_running (hs : Placed s site) (hidle : (s.worker w).frameFf = none)
    {v : WorkerId} {g : FrameId} (hv : site g = .running v) : v ≠ w := by
  rintro rfl
  exact absurd (hidle.symm.trans ((hs.running v g).mpr hv)) nofun

theorem Placed.ne_nextFrame (hs : Placed s site) (hf : site f ≠ .gone) : f ≠ s.nextFrame :=
  fun heq => hf (heq ▸ hs.nextFrame)

/-- The call stack of a frame that is run is empty, until the frame is suspended. -/
theorem Linked.no_callStack (h : Linked s site owed) (hsite : site f = .running w)
    (hphase : (s.worker w).phase ≠ .synching) : (s.ff f).callStack = false :=
  Bool.eq_false_iff.mpr fun hcall => hphase ((h.current w f hsite).mp hcall)

/-- A frame is suspended and its oldest stack frame promoted. -/
theorem linked_promoteCall (hs : Placed s site) (h : Linked s site none)
    (hrun : (s.worker victim).phase = .running) (hf : (s.worker victim).frameFf = some f)
    (hsf : sf.detached = false) (hlast : sf.last = false) : Linked
    (promoteCall s victim f sf young)
    (Function.update (Function.update site f .suspended) s.nextFrame (.running victim)) none := by
  have hlive := hs.running_live hf
  have hold := h.rooted hlive
  have hphase : ∀ v, ((promoteCall s victim f sf young).worker v).phase = (s.worker v).phase :=
    field_same Worker.phase (fun _ => rfl) rfl
  refine Linked.addChild hs h hf (fun g hgf hgn => (if_neg hgn).trans (if_neg hgf)) hphase
    ((if_neg (hs.ne_nextFrame hlive)).trans (if_pos rfl)) rfl rfl id
    ⟨hold.detached, hold.called, hold.initial⟩ rfl (if_pos rfl) rfl
    ⟨nofun, fun _ => rfl, nofun⟩ ?_ (Fits.of_running ((hphase victim).trans hrun) rfl)
  exact ⟨fun hdet => absurd (hsf.symm.trans hdet) nofun, fun _ => rfl, fun hno =>
    absurd (hlast.symm.trans hno) nofun⟩

/-- The continuation of the frame of a worker is taken, which goes on with a new
child. -/
theorem linked_stealState {fiber : FiberArg} {y : Site} (hs : Placed s site)
    (h : Linked s site none) (hf : (s.worker victim).frameFf = some f)
    (hrun : (s.worker victim).phase = .running) (hlast : sf.last = false) (hy : y ≠ .gone)
    (hfits : ∀ {ff : FullFrame M}, ff.callStack = true →
      Fits (stealState s w victim f sf young fiber) ff y) :
    Linked (stealState s w victim f sf young fiber)
    (Function.update (Function.update site f y) s.nextFrame (.running victim)) none := by
  have hlive := hs.running_live hf
  have hold := h.rooted hlive
  have hphase : ∀ v, ((stealState s w victim f sf young fiber).worker v).phase =
      (s.worker v).phase :=
    stealState_same Worker.phase (fun _ _ _ _ _ => rfl) fun _ _ _ => rfl
  refine Linked.addChild hs h hf (fun g hgf hgn => (if_neg hgn).trans (if_neg hgf)) hphase
    ((if_neg (hs.ne_nextFrame hlive)).trans (if_pos rfl)) rfl rfl (fun _ => rfl)
    ⟨hold.detached, hold.called, hold.initial⟩ (hfits rfl) (if_pos rfl) rfl
    ⟨hy, nofun, fun _ => rfl⟩ ?_ (Fits.of_running ((hphase victim).trans hrun) rfl)
  exact ⟨fun _ => ⟨rfl, rfl⟩, nofun, fun hno => absurd (hlast.symm.trans hno) nofun⟩

/-- A thief takes the frame of a worker, which goes on with a new child. -/
theorem linked_steal (hs : Placed s site) (h : Linked s site none)
    (hf : (s.worker victim).frameFf = some f) (hrun : (s.worker victim).phase = .running)
    (hlast : sf.last = false) : Linked (stealState s w victim f sf young (.fiber x))
    (Function.update (Function.update site f (.given w)) s.nextFrame (.running victim)) none :=
  linked_stealState hs h hf hrun hlast nofun id

/-- A simulated steal suspends the frame. -/
theorem linked_promote (hs : Placed s site) (h : Linked s site none)
    (hf : (s.worker w).frameFf = some f) (hrun : (s.worker w).phase = .running)
    (hlast : sf.last = false) : Linked (stealState s w w f sf young .placeholder)
    (Function.update (Function.update site f .suspended) s.nextFrame (.running w)) none :=
  linked_stealState hs h hf hrun hlast nofun id

/-- A worker starts to return from a spawned frame. -/
theorem linked_beginReturn (hs : Placed s site) (h : Linked s site none)
    (hrun : (s.worker w).phase = .running) (hd : (s.worker w).frameFf = some d)
    (hdet : (s.ff d).frame.detached = true) (hsync : (s.ff d).frame.unsynched = false) : Linked
    (takeInHand s w (.spawnReduction none (s.worker w).reducerMap none)) site none := by
  have hsite : site d = .running w := (hs.running w d).mp hd
  have hlive := hs.running_live hd
  have hcall := h.no_callStack hsite (by rw [hrun]; exact nofun)
  refine h.stay hlive (fun _ _ => .of_eq rfl)
    (fun v g hg hv => congrArg Worker.phase (if_neg (hs.elsewhere hd hg hv))) rfl rfl rfl id
    (h.rooted hlive) ?_
  rw [hsite]
  exact Fits.of_phase (.spawnReduction none (s.worker w).reducerMap none)
    (congrArg Worker.phase (if_pos rfl))
    (iff_of_false (Bool.eq_false_iff.mp hcall) nofun) (fun _ => ⟨hdet, hsync⟩) nofun

/-- A spawned frame has been unlinked. -/
theorem linked_finishReturn (hs : Placed s site) (h : Linked s site none)
    (hphase : (s.worker w).phase = .spawnReduction none none none)
    (hd : (s.worker w).frameFf = some d) : Linked (finishReturn s w p d) site none := by
  have hsite : site d = .running w := (hs.running w d).mp hd
  have hlive := hs.running_live hd
  have hold := h.rooted hlive
  have hcall := h.no_callStack hsite (by rw [hphase]; exact nofun)
  have hleaving := h.leaving w d hsite (by rw [hphase]; rfl)
  have hother : ∀ g, g ≠ d → SameLinks (s.ff g) ((finishReturn s w p d).ff g) := by
    intro g hg
    by_cases hgp : g = p
    · subst hgp
      rw [show (finishReturn s w g d).ff g = _ from (if_neg hg).trans (if_pos rfl)]
      exact ⟨rfl, rfl, rfl, rfl, rfl, rfl⟩
    · exact .of_eq ((if_neg hg).trans (if_neg hgp))
  refine h.stay hlive hother
    (fun v g hg hv => congrArg Worker.phase (if_neg (hs.elsewhere hd hg hv))) (if_pos rfl) rfl rfl
    id ⟨hold.detached, hold.called, hold.initial⟩ ?_
  rw [hsite]
  exact Fits.of_phase .spawnReturned (congrArg Worker.phase (if_pos rfl))
    (iff_of_false (Bool.eq_false_iff.mp hcall) nofun) (fun _ => hleaving) nofun

/-- A worker starts to sync. -/
theorem linked_beginSync (hs : Placed s site) (h : Linked s site none)
    (hrun : (s.worker w).phase = .running) (hf : (s.worker w).frameFf = some f)
    (hsync : (s.ff f).frame.unsynched = true) : Linked (beginSync s w f rest) site none := by
  have hsite : site f = .running w := (hs.running w f).mp hf
  have hlive := hs.running_live hf
  have hold := h.rooted hlive
  have hcall := h.no_callStack hsite (by rw [hrun]; exact nofun)
  rw [beginSync_closed]
  refine h.stay hlive (fun g hg => .of_eq (if_neg hg))
    (fun v g hg hv => congrArg Worker.phase (if_neg (hs.elsewhere hf hg hv))) (if_pos rfl) rfl rfl
    id ⟨hold.detached, hold.called, hold.initial⟩ ?_
  rw [hsite]
  exact Fits.of_phase (.syncReduction none (s.worker w).reducerMap)
    (congrArg Worker.phase (if_pos rfl))
    (iff_of_false (Bool.eq_false_iff.mp hcall) nofun) nofun (fun _ => hsync)

/-- The frame of a worker is suspended at its sync. -/
theorem linked_suspend (hs : Placed s site) (h : Linked s site none)
    (hphase : (s.worker w).phase = .syncReduction none none) (hf : (s.worker w).frameFf = some f)
    : Linked (suspend s w f) site none := by
  have hsite : site f = .running w := (hs.running w f).mp hf
  have hlive := hs.running_live hf
  have hold := h.rooted hlive
  have hsync := h.syncing w f hsite (by rw [hphase]; rfl)
  refine h.stay hlive (fun g hg => .of_eq (if_neg hg))
    (fun v g hg hv => congrArg Worker.phase (if_neg (hs.elsewhere hf hg hv))) (if_pos rfl) rfl rfl
    id ⟨hold.detached, hold.called, hold.initial⟩ ?_
  rw [hsite]
  exact Fits.of_phase .synching (congrArg Worker.phase (if_pos rfl)) (iff_of_true rfl rfl) nofun
    (fun _ => hsync)

/-- A worker gives up the frame it has suspended. -/
theorem linked_leaveSync (hs : Placed s site) (h : Linked s site none)
    (hphase : (s.worker w).phase = .synching) (hf : (s.worker w).frameFf = some f) : Linked
    (leaveFf s w) (Function.update site f .suspended) (some f) := by
  have hsite : site f = .running w := (hs.running w f).mp hf
  have hlive := hs.running_live hf
  refine h.relocate hlive (fun _ _ => .of_eq rfl)
    (fun v g hg hv => congrArg Worker.phase (if_neg (hs.elsewhere hf hg hv))) rfl rfl rfl
    (h.rooted hlive) ((h.current w f hsite).mpr hphase)
    (h.keepKids (fun _ => rfl) nofun id) fun g hg => ?_
  obtain rfl := Option.some.inj hg
  rw [Function.update_self]
  exact ⟨nofun, h.syncing w f hsite (by rw [hphase]; rfl)⟩

/-- A worker gives up the frame that has returned. -/
theorem linked_leaveSpawn (hs : Placed s site) (h : Linked s site none)
    (hphase : (s.worker w).phase = .spawnReturned) (hd : (s.worker w).frameFf = some d)
    (hp : (s.ff d).parent = some p) : Linked (dropFf (leaveFf s w) d)
    (Function.update site d .gone) (some p) := by
  have hsite : site d = .running w := (hs.running w d).mp hd
  have hlive := hs.running_live hd
  have hold := h.rooted hlive
  have hleaving := h.leaving w d hsite (by rw [hphase]; rfl)
  have hfosters := h.fosters hlive hp
  have hne : p ≠ d := Nat.ne_of_lt (h.parent d p hlive hp).2
  refine h.relocate hlive (fun g hg => .of_eq (if_neg hg))
    (fun v g hg hv => congrArg Worker.phase (if_neg (hs.elsewhere hd hg hv))) (if_pos rfl) rfl rfl
    ⟨hold.detached, hold.called, hold.initial⟩ trivial (fun e he hed => ?_) fun g hg => ?_
  · -- a frame that returns has synched, so it has no children
    exact absurd hed (h.childless (by rw [hsite]; exact nofun) hleaving.2 he)
  · obtain rfl := Option.some.inj hg
    rw [Function.update_of_ne hne]
    rw [show (dropFf (leaveFf s w) d).ff p = s.ff p from if_neg hne]
    exact ⟨hfosters.live, hfosters.spawned (hold.detached hleaving.1).1⟩

/-- A frame is counted down. -/
theorem linked_countDown (h : Linked s site (some f)) : Linked (countDown s f) site none := by
  have hlive := (h.owed f rfl).1
  have hold := h.rooted hlive
  rw [countDown_closed]
  exact h.stay hlive (fun g hg => .of_eq (if_neg hg)) (fun _ _ _ _ => rfl) (if_pos rfl) rfl rfl id
    ⟨hold.detached, hold.called, hold.initial⟩
    (SameLinks.fits ⟨rfl, rfl, rfl, rfl, rfl, rfl⟩ (h.fits f) fun _ _ => rfl)

/-- A synched frame is given to a worker. -/
theorem linked_handOver (h : Linked s site (some f)) (hsite : site f = .suspended)
    (hkids : ∀ d, site d ≠ .gone → (s.ff d).parent ≠ some f) :
    Linked (handOver s f t) (Function.update site f (.given t)) none := by
  have hlive := (h.owed f rfl).1
  have hold := h.rooted hlive
  have hphase : ∀ v, ((handOver s f t).worker v).phase = (s.worker v).phase :=
    field_same Worker.phase (fun _ => rfl) rfl
  exact h.relocate hlive (fun g hg => .of_eq (if_neg hg)) (fun v _ _ _ => hphase v) (if_pos rfl)
    rfl rfl ⟨hold.detached, hold.called, hold.initial⟩ (h.suspended f hsite)
    (fun d hd hp => absurd hp (hkids d hd)) nofun

/-- A worker is given the frame that waited for it. -/
theorem linked_takeBack (h : Linked s site (some f)) (hsite : site f = .suspended)
    (hkids : ∀ d, site d ≠ .gone → (s.ff d).parent ≠ some f) :
    Linked (takeBack s w f) (Function.update site f (.given w)) none := by
  have hlive := (h.owed f rfl).1
  have hphase : ∀ v, ((takeBack s w f).worker v).phase = (s.worker v).phase :=
    field_same Worker.phase (fun _ => rfl) rfl
  exact h.relocate hlive (fun _ _ => .of_eq rfl) (fun v _ _ _ => hphase v) rfl rfl rfl
    (h.rooted hlive) (h.suspended f hsite) (fun d hd hp => absurd hp (hkids d hd)) nofun

/-- A worker carries a frame that has returned from a call. -/
theorem linked_leaveCall (hs : Placed s site) (h : Linked s site none)
    (hf : (s.worker w).frameFf = some f) (hcall : (s.ff f).isCallChild = true)
    (hsync : (s.ff f).frame.unsynched = false) : Linked
    (leaveCall s w f) (Function.update site f (.carried w)) none := by
  have hsite : site f = .running w := (hs.running w f).mp hf
  have hlive := hs.running_live hf
  have hold := h.rooted hlive
  exact h.relocate hlive (fun g hg => .of_eq (if_neg hg))
    (fun v g hg hv => congrArg Worker.phase (if_neg (hs.elsewhere hf hg hv))) (if_pos rfl) rfl rfl
    ⟨hold.detached, hold.called, hold.initial⟩ ⟨hcall, rfl, hsync⟩
    (fun d hd hp => absurd hp (h.childless (by rw [hsite]; exact nofun) hsync hd)) nofun

/-- A worker goes on with the caller of the frame it carries. -/
theorem linked_finishCall (hs : Placed s site) (hwk : WorkersOk s) (h : Linked s site none)
    (hphase : (s.worker w).phase = .callReturning d) (hp : (s.ff d).parent = some p) : Linked
    (finishCall s w p d) (Function.update (Function.update site d .gone) p (.running w)) none :=
    by
  have hsite : site d = .carried w := (hs.carried w d).mp hphase
  have hidle : (s.worker w).frameFf = none := hwk.idle (by rw [hphase]; rfl)
  have hdead : site d ≠ .gone := by
    rw [hsite]
    exact nofun
  have hcarried := h.carried w d hsite
  have hfosters := h.fosters hdead hp
  have hne : p ≠ d := Nat.ne_of_lt (h.parent d p hdead hp).2
  have hold := h.rooted hfosters.live
  -- first the finished frame goes, which has synched, and so has no children
  have hgone : Linked s (Function.update site d .gone) none :=
    h.relocate hdead (fun _ _ => .of_eq rfl) (fun _ _ _ _ => rfl) rfl rfl rfl (h.rooted hdead)
      trivial (fun e he hed =>
        absurd hed (h.childless (by rw [hsite]; exact nofun) hcarried.2.2 he)) nofun
  -- then the caller is resumed, which has called nobody else
  refine hgone.relocate (by rw [Function.update_of_ne hne]; exact hfosters.live)
    (fun g hg => ?_) (fun v g _ hv => ?_) ((if_neg hne).trans (if_pos rfl)) rfl rfl
    ⟨hold.detached, hold.called, hold.initial⟩
    (Fits.of_running (congrArg Worker.phase (if_pos rfl)) rfl) (fun e he hep => ?_) nofun
  · by_cases hgd : g = d
    · subst hgd
      rw [show (finishCall s w p g).ff g = _ from if_pos rfl]
      exact ⟨rfl, rfl, rfl, rfl, rfl, rfl⟩
    · exact .of_eq ((if_neg hgd).trans (if_neg hg))
  · have hgd : g ≠ d := by
      rintro rfl
      rw [Function.update_self] at hv
      exact absurd hv nofun
    rw [Function.update_of_ne hgd] at hv
    exact congrArg Worker.phase (if_neg (hs.not_running hidle hv))
  · have hed : e ≠ d := by
      rintro rfl
      exact he (Function.update_self ..)
    rw [Function.update_of_ne hed] at he
    refine ⟨nofun, fun hecall => ?_, (h.fosters he hep).spawned⟩
    exact absurd (h.callOnce e d p he hecall hep hdead hcarried.1 hp) hed

/-- A worker resumes the frame it has been given. -/
theorem linked_resume (hs : Placed s site) (hwk : WorkersOk s) (h : Linked s site none)
    (hphase : (s.worker w).phase = .scheduling) (hnext : (s.worker w).nextFrameFf = some f) :
    Linked (resumeState s w f) (Function.update site f (.running w)) none := by
  have hidle : (s.worker w).frameFf = none := hwk.idle (by rw [hphase]; rfl)
  have hsite : site f = .given w := (hs.given w f).mp hnext
  have hlive : site f ≠ .gone := by
    rw [hsite]
    exact nofun
  have hold := h.rooted hlive
  exact h.relocate hlive (fun g hg => .of_eq (if_neg hg))
    (fun v g _ hv => congrArg Worker.phase (if_neg (hs.not_running hidle hv))) (if_pos rfl) rfl rfl
    ⟨hold.detached, hold.called, hold.initial⟩
    (Fits.of_running (congrArg Worker.phase (if_pos rfl)) rfl)
    (h.keepKids (fun hno => absurd (hsite.symm.trans hno) nofun) nofun id) nofun

/-- An initial frame has returned. -/
theorem linked_returnInitial (hs : Placed s site) (h : Linked s site none)
    (hf : (s.worker w).frameFf = some f) (hkids : ∀ d, site d ≠ .gone → (s.ff d).parent ≠ some f)
    : Linked (returnInitial s w f) (Function.update site f .gone) none := by
  have hlive := hs.running_live hf
  have hold := h.rooted hlive
  exact h.relocate hlive (fun g hg => .of_eq (if_neg hg))
    (fun v g hg hv => congrArg Worker.phase (if_neg (hs.elsewhere hf hg hv))) (if_pos rfl) rfl rfl
    ⟨hold.detached, hold.called, hold.initial⟩ trivial
    (fun d hd hp => absurd hp (hkids d hd)) nofun

/-- A thread has been bound. -/
theorem linked_bind [∀ k, Monoid (M k)] (hs : Placed s site) (hwk : WorkersOk s)
    (h : Linked s site none) (hfree : (s.worker u).type = .free) : Linked
    (bindThread s u code init) (Function.update site s.nextFrame (.running u)) none := by
  have hphase : (s.worker u).phase = .unbound := (hwk.free u).mp hfree
  have hidle : (s.worker u).frameFf = none := hwk.idle (by rw [hphase]; rfl)
  have hnew : (bindThread s u code init).ff s.nextFrame = initialFrame u code init s.nextFiber := by
    rw [bindThread_closed]
    exact if_pos rfl
  refine h.birth hs.nextFrame hs.fresh (fun g hg => ?_) (fun v g hv => ?_) ?_ ?_ ?_ ?_
  · rw [bindThread_closed]
    exact if_neg hg
  · rw [bindThread_closed]
    exact congrArg Worker.phase (if_neg (hs.not_running hidle hv))
  · rw [hnew]
    exact ⟨nofun, nofun, fun _ => rfl⟩
  · rw [hnew]
    refine Fits.of_running ?_ rfl
    rw [bindThread_closed]
    exact congrArg Worker.phase (if_pos rfl)
  · rw [hnew]
    exact nofun
  · rw [hnew]
    exact nofun

/-- A task has been detached. -/
theorem linked_detachPending [∀ k, Monoid (M k)] (hs : Placed s site) (h : Linked s site none)
    (hf : (s.worker w).frameFf = some f) (hrun : (s.worker w).phase = .running) : Linked
    (detachPending s w f child) (Function.update site s.nextFrame (.waiting none)) none := by
  have hsite : site f = .running w := (hs.running w f).mp hf
  have hlive := hs.running_live hf
  have hold := h.rooted hlive
  have hcall := h.no_callStack hsite (by rw [hrun]; exact nofun)
  rw [detachPending_closed s w f child (hs.fresh f hlive), ← Function.update_eq_self f site]
  refine Linked.addChild hs h hf (fun g hgf hgn => (if_neg hgn).trans (if_neg hgf))
    (fun _ => rfl) ((if_neg (hs.ne_nextFrame hlive)).trans (if_pos rfl)) rfl rfl (fun _ => rfl)
    ⟨hold.detached, hold.called, hold.initial⟩ ?_ (if_pos rfl) rfl
    ⟨hlive, nofun, fun _ => rfl⟩ ⟨nofun, nofun, nofun⟩ ⟨rfl, rfl, rfl, rfl⟩
  rw [hsite]
  exact Fits.of_running hrun hcall

/-- A pending frame is put on a ready list. -/
theorem linked_makeReady (hs : Placed s site) (h : Linked s site none) (hpf : pf ∈ s.pending) :
    Linked (makeReady s w pf) (Function.update site pf.frameFf (.waiting (some w))) none := by
  have hsite : site pf.frameFf = .waiting none :=
    (hs.waiting none _).mp (List.mem_map_of_mem hpf)
  have hlive : site pf.frameFf ≠ .gone := by
    rw [hsite]
    exact nofun
  have hphase : ∀ v, ((makeReady s w pf).worker v).phase = (s.worker v).phase := by
    rw [makeReady_closed]
    exact field_same Worker.phase (fun _ => rfl) rfl
  exact h.relocate hlive (fun _ _ => .of_eq rfl) (fun v _ _ _ => hphase v) rfl rfl rfl
    (h.rooted hlive) (h.waiting none _ hsite)
    (h.keepKids (fun hno => absurd (hsite.symm.trans hno) nofun) nofun id) nofun

/-- A thief takes a frame from a ready list. -/
theorem linked_readySteal (hs : Placed s site) (h : Linked s site none)
    (hpf : pf ∈ (s.worker victim).readyList) : Linked (readyState s w victim pf)
    (Function.update site pf.frameFf (.given w)) none := by
  have hsite : site pf.frameFf = .waiting (some victim) :=
    (hs.waiting (some victim) _).mp (List.mem_map_of_mem hpf)
  have hlive : site pf.frameFf ≠ .gone := by
    rw [hsite]
    exact nofun
  have hwaiting := h.waiting (some victim) _ hsite
  have hold := h.rooted hlive
  -- the frame is marked as detached, so that it returns like a spawned one
  exact h.relocate hlive (fun g hg => .of_eq (if_neg hg)) (fun _ _ _ _ => rfl) (if_pos rfl) rfl rfl
    ⟨fun _ => ⟨hwaiting.1, hwaiting.2.2.1⟩, hold.called, hold.initial⟩ rfl
    (h.keepKids (fun hno => absurd (hsite.symm.trans hno) nofun) nofun id) nofun

end SwanRuntime.Runtime
