import Mathlib.Data.Finset.Card
import SwanRuntime.Runtime.Moves

/-!
# The runtime — the tree of full frames

Which frames exist, who owns them, what each worker is doing with its frame, and
what the join counters count.

A frame is in one of five places: a worker runs it, a worker has been given it,
it waits for its objects or on a ready list, a worker that returns from a call
carries it, or it is suspended. `Shape` says that these exclude each other, how
they show in the fields of the frame, and that the join counter of a frame is the
number of its children plus one for its owner.

## Results

* `Shape.step`  — every move keeps the shape.
-/

namespace SwanRuntime.Runtime

open Reducers

variable {K : Type} {M : K → Type}

-- ---------------------------------------------------------------------------
-- Phases
-- ---------------------------------------------------------------------------

/-- The worker has a current full frame. -/
def Phase.active : Phase M → Bool
  | .unbound | .scheduling | .callReturning _ => false
  | _ => true

/-- The worker returns from a spawned frame. -/
def Phase.leaving : Phase M → Bool
  | .spawnReduction .. | .spawnReturned => true
  | _ => false

/-- The worker syncs its frame. -/
def Phase.syncing : Phase M → Bool
  | .syncReduction .. | .synching => true
  | _ => false

/-- The worker has unlinked its frame from the parent. -/
def Phase.returned : Phase M → Bool
  | .spawnReturned => true
  | _ => false

/-- The worker keeps no reducer map. -/
def Phase.mapless : Phase M → Bool
  | .running | .callReturning _ => false
  | _ => true

/-- The pending frames that wait for their objects, or on the ready list of a
worker. -/
def State.place (s : State M) : Option WorkerId → List PendingFrame
  | none => s.pending
  | some w => (s.worker w).readyList

-- ---------------------------------------------------------------------------
-- Where a frame is
-- ---------------------------------------------------------------------------

/-- Where a full frame is. -/
inductive Site
  /-- Destroyed, or not made yet. -/
  | gone
  /-- `frame_ff` of a worker. -/
  | running (w : WorkerId)
  /-- `next_frame_ff` of a worker. -/
  | given (w : WorkerId)
  /-- Waiting for its objects, or on the ready list of a worker. -/
  | waiting (a : Option WorkerId)
  /-- Finished, and carried by a worker that returns to its caller. -/
  | carried (w : WorkerId)
  /-- Suspended until its children have returned. -/
  | suspended
deriving DecidableEq

/-- The frame has been unlinked from its parent. -/
def Site.returned (s : State M) : Site → Bool
  | .running w => (s.worker w).phase.returned
  | _ => false

/-- `site` is where the frames are, and each is in one place. -/
structure Placed (s : State M) (site : FrameId → Site) : Prop where
  live    : ∀ f, s.live f = true ↔ site f ≠ .gone
  fresh   : ∀ f, site f ≠ .gone → f < s.nextFrame
  running : ∀ w f, (s.worker w).frameFf = some f ↔ site f = .running w
  given   : ∀ w f, (s.worker w).nextFrameFf = some f ↔ site f = .given w
  carried : ∀ w f, (s.worker w).phase = .callReturning f ↔ site f = .carried w
  waiting : ∀ a f, f ∈ (s.place a).map (·.frameFf) ↔ site f = .waiting a
  nodup   : ∀ a, ((s.place a).map (·.frameFf)).Nodup

/-- What a worker is doing shows in its fields. -/
structure WorkersOk (s : State M) : Prop where
  free     : ∀ w, (s.worker w).type = .free ↔ (s.worker w).phase = .unbound
  active   : ∀ w, (s.worker w).frameFf.isSome = (s.worker w).phase.active
  stackNil : ∀ w, (s.worker w).phase ≠ .running → (s.worker w).stack = []
  entered  : ∀ w, ∀ sf ∈ (s.worker w).stack, sf.unsynched = false ∧ sf.last = false
  mapless  : ∀ w, (s.worker w).phase.mapless = true → (s.worker w).reducerMap = none

/-- Frames, parents and children fit together, and their fields say where they
are. The frame `owed` is about to be counted down, or resumed. -/
structure Linked (s : State M) (site : FrameId → Site) (owed : Option FrameId) : Prop where
  current   : ∀ w f, site f = .running w →
    ((s.ff f).callStack = true ↔ (s.worker w).phase = .synching)
  leaving   : ∀ w f, site f = .running w → (s.worker w).phase.leaving = true →
    (s.ff f).frame.detached = true ∧ (s.ff f).frame.unsynched = false
  syncing   : ∀ w f, site f = .running w → (s.worker w).phase.syncing = true →
    (s.ff f).frame.unsynched = true
  given     : ∀ w f, site f = .given w → (s.ff f).callStack = true
  waiting   : ∀ a f, site f = .waiting a → (s.ff f).isCallChild = false ∧
    (s.ff f).callStack = false ∧ (s.ff f).parent.isSome = true ∧ (s.ff f).frame.unsynched = false
  carried   : ∀ w f, site f = .carried w → (s.ff f).isCallChild = true ∧
    (s.ff f).callStack = false ∧ (s.ff f).frame.unsynched = false
  suspended : ∀ f, site f = .suspended → (s.ff f).callStack = true
  parent    : ∀ d p, site d ≠ .gone → (s.ff d).parent = some p → site p ≠ .gone ∧ p < d
  detached  : ∀ d, site d ≠ .gone → (s.ff d).frame.detached = true →
    (s.ff d).isCallChild = false ∧ (s.ff d).parent.isSome = true
  called    : ∀ d, site d ≠ .gone → (s.ff d).isCallChild = true → (s.ff d).parent.isSome = true
  caller    : ∀ d p, site d ≠ .gone → (s.ff d).isCallChild = true → (s.ff d).parent = some p →
    site p = .suspended
  callOnce  : ∀ d e p, site d ≠ .gone → (s.ff d).isCallChild = true → (s.ff d).parent = some p →
    site e ≠ .gone → (s.ff e).isCallChild = true → (s.ff e).parent = some p → d = e
  spawned   : ∀ d p, site d ≠ .gone → (s.ff d).parent = some p → (s.ff d).isCallChild = false →
    (s.ff p).frame.unsynched = true
  initial   : ∀ d, site d ≠ .gone → (s.ff d).frame.last = true → (s.ff d).parent = none
  owed      : ∀ f, owed = some f → site f ≠ .gone ∧ (s.ff f).frame.unsynched = true

/-- The list of children of a frame holds its live children, without those that
have been unlinked. -/
structure Siblings (s : State M) (site : FrameId → Site) : Prop where
  mem   : ∀ p d, site p ≠ .gone → (d ∈ (s.ff p).children ↔
    site d ≠ .gone ∧ (s.ff d).parent = some p ∧ (site d).returned s = false)
  nodup : ∀ p, site p ≠ .gone → (s.ff p).children.Nodup

-- ---------------------------------------------------------------------------
-- Counting
-- ---------------------------------------------------------------------------

/-- The children that have not decremented the join counter of their parent. -/
def State.kids (s : State M) (f : FrameId) : Finset FrameId :=
  (Finset.range s.nextFrame).filter fun d => s.live d = true ∧ (s.ff d).parent = some f

/-- One for a frame that a worker owns. -/
def Site.count : Site → Nat
  | .running _ | .given _ => 1
  | _ => 0

/-- One for the frame that is owed a count. -/
def owedTo (owed : Option FrameId) (f : FrameId) : Nat := if owed = some f then 1 else 0

/-- The join counter of a frame is the number of its children, plus one for its
owner. -/
def Counted (s : State M) (site : FrameId → Site) (owed : Option FrameId) : Prop :=
  ∀ f, site f ≠ .gone →
    (s.ff f).joinCounter = (site f).count + (s.kids f).card + owedTo owed f

/-- The tree of frames is in order. -/
structure Shape (s : State M) (site : FrameId → Site) (owed : Option FrameId) : Prop where
  placed   : Placed s site
  workers  : WorkersOk s
  linked   : Linked s site owed
  siblings : Siblings s site
  counted  : Counted s site owed

section Basics

variable {s : State M} {site : FrameId → Site} {w : WorkerId}

/-- A worker that is not active runs no frame. -/
theorem WorkersOk.idle (h : WorkersOk s) (hw : (s.worker w).phase.active = false) :
    (s.worker w).frameFf = none := by
  have hactive := h.active w
  rw [hw] at hactive
  exact Option.not_isSome_iff_eq_none.mp (by rw [hactive]; exact Bool.false_ne_true)

/-- The next frame is not used yet. -/
theorem Placed.nextFrame (h : Placed s site) : site s.nextFrame = .gone := by
  by_contra hne
  exact Nat.lt_irrefl _ (h.fresh _ hne)

end Basics

-- ---------------------------------------------------------------------------
-- Moves that leave the tree alone
-- ---------------------------------------------------------------------------

section Alike

variable {s t : State M} {site : FrameId → Site} {owed : Option FrameId}

theorem place_congr (hpending : t.pending = s.pending)
    (hready : ∀ w, (t.worker w).readyList = (s.worker w).readyList) (a : Option WorkerId) :
    t.place a = s.place a := by
  cases a with
  | none => exact hpending
  | some w => exact hready w

/-- The two phases differ at most in the maps that are in hand. -/
def Phase.Alike : Phase M → Phase M → Prop
  | .spawnReduction .., .spawnReduction .. => True
  | .syncReduction .., .syncReduction .. => True
  | a, b => a = b

theorem Phase.Alike.refl (a : Phase M) : Phase.Alike a a := by
  cases a <;> trivial

theorem Phase.Alike.same {a b : Phase M} (h : Phase.Alike a b) :
    a.active = b.active ∧ a.leaving = b.leaving ∧ a.syncing = b.syncing ∧
      (a = .unbound ↔ b = .unbound) ∧ (a = .running ↔ b = .running) ∧
      (a = .synching ↔ b = .synching) ∧ (∀ f, a = .callReturning f ↔ b = .callReturning f) ∧
      a.returned = b.returned ∧ a.mapless = b.mapless := by
  unfold Phase.Alike at h
  split at h
  · simp [Phase.active, Phase.leaving, Phase.syncing, Phase.returned, Phase.mapless]
  · simp [Phase.active, Phase.leaving, Phase.syncing, Phase.returned, Phase.mapless]
  · subst h
    simp

/-- The two states have the same frames in the same places, with the same links. -/
structure Alike (s t : State M) : Prop where
  live        : t.live = s.live
  nextFrame   : t.nextFrame = s.nextFrame
  place       : ∀ a, t.place a = s.place a
  type        : ∀ w, (t.worker w).type = (s.worker w).type
  frameFf     : ∀ w, (t.worker w).frameFf = (s.worker w).frameFf
  nextFrameFf : ∀ w, (t.worker w).nextFrameFf = (s.worker w).nextFrameFf
  phase       : ∀ w, Phase.Alike (t.worker w).phase (s.worker w).phase
  stack       : ∀ w, (s.worker w).phase ≠ .running → (t.worker w).stack = (s.worker w).stack
  entered     : ∀ w, (∀ sf ∈ (s.worker w).stack, sf.unsynched = false ∧ sf.last = false) →
    ∀ sf ∈ (t.worker w).stack, sf.unsynched = false ∧ sf.last = false
  reducerMap  : ∀ w, (s.worker w).phase ≠ .running →
    (t.worker w).reducerMap = (s.worker w).reducerMap
  callStack   : ∀ f, (t.ff f).callStack = (s.ff f).callStack
  joinCounter : ∀ f, (t.ff f).joinCounter = (s.ff f).joinCounter
  parent      : ∀ f, (t.ff f).parent = (s.ff f).parent
  children    : ∀ f, (t.ff f).children = (s.ff f).children
  isCallChild : ∀ f, (t.ff f).isCallChild = (s.ff f).isCallChild
  unsynched   : ∀ f, (t.ff f).frame.unsynched = (s.ff f).frame.unsynched
  detached    : ∀ f, (t.ff f).frame.detached = (s.ff f).frame.detached
  last        : ∀ f, (t.ff f).frame.last = (s.ff f).frame.last

theorem kids_congr {f : FrameId} (hnext : t.nextFrame = s.nextFrame) (hlive : t.live = s.live)
    (hparent : ∀ d, (t.ff d).parent = (s.ff d).parent) : t.kids f = s.kids f := by
  unfold State.kids
  rw [hnext, hlive]
  exact Finset.filter_congr fun d _ => by rw [hparent]

theorem Shape.alike (h : Shape s site owed) (ha : Alike s t) : Shape t site owed := by
  have hactive := fun w => (ha.phase w).same.1
  have hleaving := fun w => (ha.phase w).same.2.1
  have hsyncing := fun w => (ha.phase w).same.2.2.1
  have hunbound := fun w => (ha.phase w).same.2.2.2.1
  have hrunning := fun w => (ha.phase w).same.2.2.2.2.1
  have hsynching := fun w => (ha.phase w).same.2.2.2.2.2.1
  have hreturning := fun w => (ha.phase w).same.2.2.2.2.2.2.1
  have hreturned := fun w => (ha.phase w).same.2.2.2.2.2.2.2.1
  have hmapless := fun w => (ha.phase w).same.2.2.2.2.2.2.2.2
  obtain ⟨⟨live, fresh, running, given, carried, waiting, nodup⟩, ⟨free, active, stackNil, entered,
    mapless⟩, linked, ⟨mem, siblings⟩, counted⟩ := h
  refine ⟨⟨?_, ?_, ?_, ?_, ?_, ?_, ?_⟩, ⟨?_, ?_, ?_, ?_, ?_⟩, ?_, ⟨?_, ?_⟩, ?_⟩
  · rwa [ha.live]
  · rwa [ha.nextFrame]
  · simpa only [ha.frameFf] using running
  · simpa only [ha.nextFrameFf] using given
  · simpa only [hreturning] using carried
  · simpa only [ha.place] using waiting
  · simpa only [ha.place] using nodup
  · simpa only [ha.type, hunbound] using free
  · simpa only [ha.frameFf, hactive] using active
  · intro w hw
    have hw' : (s.worker w).phase ≠ .running := fun h' => hw ((hrunning w).mpr h')
    exact (ha.stack w hw').trans (stackNil w hw')
  · exact fun w => ha.entered w (entered w)
  · intro w hw
    rw [hmapless] at hw
    refine (ha.reducerMap w fun hrun => ?_).trans (mapless w hw)
    rw [hrun] at hw
    exact Bool.false_ne_true hw
  · obtain ⟨h1, h2, h3, h4, h5, h6, h7, h8, h9, h10, h11, h12, h13, h14, h15⟩ := linked
    constructor <;> simpa only [ha.callStack, hsynching, hleaving, hsyncing, ha.parent,
      ha.isCallChild, ha.unsynched, ha.detached, ha.last]
  · have hreturned' : ∀ a : Site, a.returned t = a.returned s := by
      intro a
      cases a with
      | running w => exact hreturned w
      | _ => rfl
    simpa only [ha.children, ha.parent, hreturned'] using mem
  · simpa only [ha.children] using siblings
  · intro f hf
    rw [ha.joinCounter, kids_congr ha.nextFrame ha.live ha.parent]
    exact counted f hf

theorem Alike.trans {r : State M} (h : Alike s t) (h' : Alike t r)
    (hphase : ∀ w, (t.worker w).phase = (s.worker w).phase) : Alike s r where
  live := h'.live.trans h.live
  nextFrame := h'.nextFrame.trans h.nextFrame
  place a := (h'.place a).trans (h.place a)
  type w := (h'.type w).trans (h.type w)
  frameFf w := (h'.frameFf w).trans (h.frameFf w)
  nextFrameFf w := (h'.nextFrameFf w).trans (h.nextFrameFf w)
  phase w := hphase w ▸ h'.phase w
  stack w hw := (h'.stack w (by rwa [hphase w])).trans (h.stack w hw)
  entered w hw := h'.entered w (h.entered w hw)
  reducerMap w hw := (h'.reducerMap w (by rwa [hphase w])).trans (h.reducerMap w hw)
  callStack f := (h'.callStack f).trans (h.callStack f)
  joinCounter f := (h'.joinCounter f).trans (h.joinCounter f)
  parent f := (h'.parent f).trans (h.parent f)
  children f := (h'.children f).trans (h.children f)
  isCallChild f := (h'.isCallChild f).trans (h.isCallChild f)
  unsynched f := (h'.unsynched f).trans (h.unsynched f)
  detached f := (h'.detached f).trans (h.detached f)
  last f := (h'.last f).trans (h.last f)

/-- Only other fields of a worker have changed. -/
theorem alike_modWorker {w : WorkerId} {g : Worker M → Worker M}
    (htype : (g (s.worker w)).type = (s.worker w).type)
    (hframe : (g (s.worker w)).frameFf = (s.worker w).frameFf)
    (hnext : (g (s.worker w)).nextFrameFf = (s.worker w).nextFrameFf)
    (hready : (g (s.worker w)).readyList = (s.worker w).readyList)
    (hphase : Phase.Alike (g (s.worker w)).phase (s.worker w).phase)
    (hstack : (s.worker w).phase ≠ .running → (g (s.worker w)).stack = (s.worker w).stack)
    (hentered : (∀ sf ∈ (s.worker w).stack, sf.unsynched = false ∧ sf.last = false) →
      ∀ sf ∈ (g (s.worker w)).stack, sf.unsynched = false ∧ sf.last = false)
    (hmap : (s.worker w).phase ≠ .running →
      (g (s.worker w)).reducerMap = (s.worker w).reducerMap) :
    Alike s (s.modWorker w g) := by
  have hself : (s.modWorker w g).worker w = g (s.worker w) := modWorker_worker_self ..
  have hother : ∀ v, v ≠ w → (s.modWorker w g).worker v = s.worker v := fun v hv =>
    modWorker_worker_ne _ _ hv
  have hplace := place_congr (t := s.modWorker w g) (s := s) rfl fun v => by
    by_cases hv : v = w
    · rw [hv, hself, hready]
    · rw [hother v hv]
  refine ⟨rfl, rfl, hplace, ?_, ?_, ?_, ?_, ?_, ?_, ?_, fun _ => rfl, fun _ => rfl, fun _ => rfl,
    fun _ => rfl, fun _ => rfl, fun _ => rfl, fun _ => rfl, fun _ => rfl⟩
  all_goals
    intro v
    by_cases hv : v = w
    · subst hv
      simpa only [hself]
    · rw [hother v hv]
      try first
        | exact Phase.Alike.refl _
        | exact fun _ => rfl
        | exact id

/-- Only other fields of a frame have changed. -/
theorem alike_modFf {f : FrameId} {g : FullFrame M → FullFrame M}
    (hcall : (g (s.ff f)).callStack = (s.ff f).callStack)
    (hjoin : (g (s.ff f)).joinCounter = (s.ff f).joinCounter)
    (hparent : (g (s.ff f)).parent = (s.ff f).parent)
    (hchildren : (g (s.ff f)).children = (s.ff f).children)
    (hchild : (g (s.ff f)).isCallChild = (s.ff f).isCallChild)
    (hunsynched : (g (s.ff f)).frame.unsynched = (s.ff f).frame.unsynched)
    (hdetached : (g (s.ff f)).frame.detached = (s.ff f).frame.detached)
    (hlast : (g (s.ff f)).frame.last = (s.ff f).frame.last) : Alike s (s.modFf f g) := by
  have hself : (s.modFf f g).ff f = g (s.ff f) := modFf_ff_self ..
  have hother : ∀ e, e ≠ f → (s.modFf f g).ff e = s.ff e := fun e he => modFf_ff_ne _ _ he
  refine ⟨rfl, rfl, place_congr rfl fun _ => rfl, fun _ => rfl, fun _ => rfl, fun _ => rfl,
    fun _ => Phase.Alike.refl _, fun _ _ => rfl, fun _ => id, fun _ _ => rfl, ?_, ?_, ?_, ?_, ?_,
    ?_, ?_, ?_⟩
  all_goals
    intro e
    by_cases he : e = f
    · subst he
      simpa only [hself]
    · rw [hother e he]

end Alike

end SwanRuntime.Runtime
