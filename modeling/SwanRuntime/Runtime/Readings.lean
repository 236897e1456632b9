import Mathlib.Algebra.BigOperators.Group.List.Basic
import SwanRuntime.Runtime.JoinCounters

/-!
# The runtime — reading the reducers

A reducer has one value, but the runtime keeps it in pieces: in the map of the worker
that runs a frame, in the maps to the left of its children and to the right of each,
in the maps that a worker holds in hand while it reduces, and in the views of the
children that have not finished. `State.reading` reads the pieces of one frame from
left to right. `Read` says that what is read is what the serial execution holds at
this point of the frame, for every frame, and every move keeps it.

A child that has not finished is read as what it will hold at its end. The equation of
the child itself says that it will.

## Results

* `Read.advance`, `Read.split`, `Read.resume`  — running, promoting, resuming frames.
* `Read.move`  — every move that makes no frame keeps the readings.
-/

namespace SwanRuntime.Runtime

open Reducers

variable {K : Type} [DecidableEq K] {M : K → Type} [∀ k, Monoid (M k)]

-- ---------------------------------------------------------------------------
-- What a frame should hold
-- ---------------------------------------------------------------------------

/-- What the reducers hold at this point of the serial execution. -/
def StackFrame.sofar (sf : StackFrame M) : ∀ k, M k := sf.entry * sf.done

/-- What they hold when the frame returns. -/
def StackFrame.total (sf : StackFrame M) : ∀ k, M k := sf.sofar * sf.code.product

omit [DecidableEq K] in
theorem advance_sofar (sf : StackFrame M) (x : ∀ k, M k) (rest : Code M) :
    (sf.advance x rest).sofar = sf.sofar * x :=
  (mul_assoc sf.entry sf.done x).symm

/-- Passing over an instruction does not change where the frame will get to. -/
theorem advance_total {sf : StackFrame M} {x : ∀ k, M k} {rest : Code M}
    (hcode : sf.code.product = x * rest.product) : (sf.advance x rest).total = sf.total := by
  unfold StackFrame.total
  rw [advance_sofar, hcode, mul_assoc]
  rfl

theorem total_ret {sf : StackFrame M} (hcode : sf.code = .ret) : sf.total = sf.sofar := by
  unfold StackFrame.total
  rw [hcode]
  exact mul_one _

-- ---------------------------------------------------------------------------
-- The frames on a stack
-- ---------------------------------------------------------------------------

/-- What the caller of the frames on a stack gets, when the last of them holds `v`. -/
def heldOf : List (StackFrame M) → (∀ k, M k) → ∀ k, M k
  | [], v => v
  | sf :: _, _ => sf.total

/-- Each frame on a stack has got to what its callee will return. -/
def Fed : List (StackFrame M) → (∀ k, M k) → Prop
  | [], _ => True
  | sf :: l, v => sf.sofar = heldOf l v ∧ Fed l v

theorem heldOf_append (l l' : List (StackFrame M)) (v : ∀ k, M k) :
    heldOf (l ++ l') v = heldOf l (heldOf l' v) := by
  cases l <;> rfl

theorem fed_append (l l' : List (StackFrame M)) (v : ∀ k, M k) :
    Fed (l ++ l') v ↔ Fed l (heldOf l' v) ∧ Fed l' v := by
  induction l with
  | nil => simp [Fed]
  | cons a l ih => simp only [List.cons_append, Fed, ih, heldOf_append, and_assoc]

-- ---------------------------------------------------------------------------
-- The pieces
-- ---------------------------------------------------------------------------

/-- What a worker has for the frame that it runs: the rightmost piece of the frame. -/
def Worker.held (wk : Worker M) : ∀ k, M k :=
  match wk.phase with
  | .running => heldOf wk.stack (value wk.reducerMap)
  | .syncReduction left middle => valueOf [left, middle]
  | _ => 1

/-- What a worker has for the parent of its frame, which will hold `x` at its end. -/
def Worker.inHand (wk : Worker M) (x : ∀ k, M k) : ∀ k, M k :=
  match wk.phase with
  | .spawnReduction left middle right => valueOf [left, middle, right]
  | _ => x

/-- The rightmost piece of a frame. -/
def State.own (s : State M) : Site → ∀ k, M k
  | .running w => (s.worker w).held
  | _ => 1

@[simp] theorem own_given (s : State M) (w : WorkerId) : s.own (.given w) = 1 := rfl

@[simp] theorem own_suspended (s : State M) : s.own .suspended = 1 := rfl

/-- The piece of a child that will hold `x` at its end. -/
def State.hand (s : State M) (x : ∀ k, M k) : Site → ∀ k, M k
  | .running w => (s.worker w).inHand x
  | _ => x

/-- The pieces of a child and to its right. -/
def State.share (s : State M) (site : FrameId → Site) (d : FrameId) : ∀ k, M k :=
  s.hand (s.ff d).frame.total (site d) * value (s.ff d).rightReducerMap

/-- The pieces of a frame, from left to right. -/
def State.reading (s : State M) (site : FrameId → Site) (f : FrameId) : ∀ k, M k :=
  value (s.ff f).childrenReducerMap * ((s.ff f).children.map (s.share site)).prod *
    s.own (site f)

/-- The frame is executed, or is going to be, and nobody is returning from it. -/
def Site.settled (s : State M) : Site → Bool
  | .running w => !(s.worker w).phase.leaving
  | .given _ | .suspended => true
  | _ => false

/-- No reducer map is lost, or read twice, or in the wrong place. -/
structure Read (s : State M) (site : FrameId → Site) : Prop where
  frame     : ∀ f, (site f).settled s = true → s.reading site f = (s.ff f).frame.sofar
  stack     : ∀ w, (s.worker w).phase = .running →
    Fed (s.worker w).stack (value (s.worker w).reducerMap)
  carried   : ∀ w d, site d = .carried w → (s.ff d).frame.total = value (s.worker w).reducerMap
  cleared   : ∀ f, site f ≠ .gone → (∀ w, site f ≠ .given w) →
    (s.ff f).frame.unsynched = false → (s.ff f).childrenReducerMap = none
  noPending : ∀ a, s.place a = []

-- ---------------------------------------------------------------------------
-- What a move leaves alone
-- ---------------------------------------------------------------------------

section Others

variable {s r : State M} {site site' : FrameId → Site} {f d : FrameId} {a b : Site}

theorem own_congr (hsite : b = a)
    (hworker : ∀ v, a = .running v → (r.worker v).held = (s.worker v).held) :
    r.own b = s.own a := by
  subst hsite
  cases b with
  | running v => exact hworker v rfl
  | _ => rfl

theorem hand_congr {x y : ∀ k, M k} (hsite : b = a) (hxy : y = x)
    (hworker : ∀ v, a = .running v → (r.worker v).inHand x = (s.worker v).inHand x) :
    r.hand y b = s.hand x a := by
  subst hsite hxy
  cases b with
  | running v => exact hworker v rfl
  | _ => rfl

omit [DecidableEq K] [∀ k, Monoid (M k)] in
theorem settled_congr (hsite : b = a)
    (hworker : ∀ v, a = .running v → (r.worker v).phase.leaving = (s.worker v).phase.leaving) :
    b.settled r = a.settled s := by
  subst hsite
  cases b with
  | running v => exact congrArg not (hworker v rfl)
  | _ => rfl

theorem reading_congr (hmap : (r.ff f).childrenReducerMap = (s.ff f).childrenReducerMap)
    (hchildren : (r.ff f).children = (s.ff f).children)
    (hshare : ∀ d ∈ (s.ff f).children, r.share site' d = s.share site d)
    (hown : r.own (site' f) = s.own (site f)) : r.reading site' f = s.reading site f := by
  unfold State.reading
  rw [hmap, hchildren, hown, List.map_congr_left hshare]

/-- The worker has the same pieces. -/
def Worker.Same (wk wk' : Worker M) : Prop :=
  wk'.phase = wk.phase ∧ wk'.stack = wk.stack ∧ wk'.reducerMap = wk.reducerMap

theorem inHand_congr {wk wk' : Worker M} (hphase : wk'.phase = wk.phase) (x : ∀ k, M k) :
    wk'.inHand x = wk.inHand x := by
  unfold Worker.inHand
  rw [hphase]

theorem Worker.Same.held {wk wk' : Worker M} (h : wk.Same wk') : wk'.held = wk.held := by
  unfold Worker.held
  rw [h.1, h.2.1, h.2.2]

/-- The frames in `T` apart, only what the readings do not look at has changed, and what
is to the right of a frame. -/
structure Apart (s r : State M) (site site' : FrameId → Site) (T : List FrameId) : Prop where
  stays  : ∀ g, g ∉ T → site' g = site g
  worker : ∀ g, g ∉ T → ∀ v, site g = .running v ∨ site g = .carried v →
    (s.worker v).Same (r.worker v)
  frame  : ∀ g, g ∉ T → (r.ff g).frame = (s.ff g).frame
  map    : ∀ g, g ∉ T → (r.ff g).childrenReducerMap = (s.ff g).childrenReducerMap
  child  : ∀ g, g ∉ T → (r.ff g).children = (s.ff g).children

theorem Apart.share {T : List FrameId} (ha : Apart s r site site' T) (hd : d ∉ T)
    (hright : (r.ff d).rightReducerMap = (s.ff d).rightReducerMap) :
    r.share site' d = s.share site d := by
  unfold State.share
  rw [hright, hand_congr (ha.stays d hd) (congrArg StackFrame.total (ha.frame d hd))
    fun v hv => inHand_congr (ha.worker d hd v (.inl hv)).1 _]

/-- It remains to look at the frames in `T`. -/
theorem Read.apart {T : List FrameId} (h : Read s site) (ha : Apart s r site site' T)
    (hshare : ∀ g, g ∉ T → site g ≠ .gone → ∀ d ∈ (s.ff g).children,
      r.share site' d = s.share site d)
    (hframe : ∀ g ∈ T, (site' g).settled r = true → r.reading site' g = (r.ff g).frame.sofar)
    (hstack : ∀ v, (r.worker v).phase = .running → (s.worker v).Same (r.worker v) ∨
      Fed (r.worker v).stack (value (r.worker v).reducerMap))
    (hcarried : ∀ d ∈ T, ∀ v, site' d = .carried v →
      (r.ff d).frame.total = value (r.worker v).reducerMap)
    (hcleared : ∀ g ∈ T, site' g ≠ .gone → (∀ w, site' g ≠ .given w) →
      (r.ff g).frame.unsynched = false → (r.ff g).childrenReducerMap = none)
    (hplace : ∀ a, r.place a = s.place a) : Read r site' := by
  refine ⟨fun g hg => ?_, fun v hv => ?_, fun v d hd => ?_, fun g hg hgiven hsync => ?_,
    fun a => (hplace a).trans (h.noPending a)⟩
  · by_cases hT : g ∈ T
    · exact hframe g hT hg
    · rw [settled_congr (ha.stays g hT)
        fun v hv => congrArg Phase.leaving (ha.worker g hT v (.inl hv)).1] at hg
      have hlive : site g ≠ .gone := by
        intro hgone
        rw [hgone] at hg
        exact Bool.false_ne_true hg
      rw [reading_congr (ha.map g hT) (ha.child g hT) (hshare g hT hlive)
        (own_congr (ha.stays g hT) fun v hv => (ha.worker g hT v (.inl hv)).held), h.frame g hg,
        ha.frame g hT]
  · rcases hstack v hv with hsame | hfed
    · rw [hsame.2.1, hsame.2.2]
      exact h.stack v (hsame.1 ▸ hv)
    · exact hfed
  · by_cases hT : d ∈ T
    · exact hcarried d hT v hd
    · rw [ha.stays d hT] at hd
      rw [ha.frame d hT, (ha.worker d hT v (.inr hd)).2.2]
      exact h.carried v d hd
  · by_cases hT : g ∈ T
    · exact hcleared g hT hg hgiven hsync
    · rw [ha.stays g hT] at hg hgiven
      rw [ha.frame g hT] at hsync
      rw [ha.map g hT]
      exact h.cleared g hg hgiven hsync

end Others

-- ---------------------------------------------------------------------------
-- Running a frame
-- ---------------------------------------------------------------------------

section Advance

variable {s r : State M} {site : FrameId → Site} {owed : Option FrameId} {w : WorkerId}
  {f : FrameId}

/-- The worker gets on with its frame, in the frame itself or on its stack. -/
theorem Read.advance {a : StackFrame M} {l : List (StackFrame M)}
    {m : Option (ReducerMap M)} (hs : Shape s site owed) (h : Read s site)
    (hrun : (s.worker w).phase = .running) (hf : (s.worker w).frameFf = some f)
    (hworker : ∀ v, r.worker v =
      if v = w then { s.worker w with stack := l, reducerMap := m } else s.worker v)
    (hff : ∀ g, r.ff g = if g = f then { s.ff f with frame := a } else s.ff g)
    (hpending : r.pending = s.pending)
    (hunsynched : a.unsynched = (s.ff f).frame.unsynched)
    (htotal : a.total = (s.ff f).frame.total)
    (hheld : ∀ x, x * heldOf (s.worker w).stack (value (s.worker w).reducerMap) =
      (s.ff f).frame.sofar → x * heldOf l (value m) = a.sofar)
    (hfed : Fed (s.worker w).stack (value (s.worker w).reducerMap) → Fed l (value m)) :
    Read r site := by
  have hsite : site f = .running w := (hs.placed.running w f).mp hf
  have hself : r.worker w = { s.worker w with stack := l, reducerMap := m } := by
    rw [hworker, if_pos rfl]
  have hother : ∀ v, v ≠ w → r.worker v = s.worker v := fun v hv => by rw [hworker, if_neg hv]
  have hphase : ∀ v, (r.worker v).phase = (s.worker v).phase := by
    intro v
    by_cases hv : v = w
    · rw [hv, hself]
    · rw [hother v hv]
  have hframe : ∀ g, (r.ff g).frame.total = (s.ff g).frame.total ∧
      (r.ff g).frame.unsynched = (s.ff g).frame.unsynched ∧
      (r.ff g).childrenReducerMap = (s.ff g).childrenReducerMap ∧
      (r.ff g).rightReducerMap = (s.ff g).rightReducerMap ∧
      (r.ff g).children = (s.ff g).children := by
    intro g
    rw [hff]
    by_cases hg : g = f
    · rw [if_pos hg, hg]
      exact ⟨htotal, hunsynched, rfl, rfl, rfl⟩
    · rw [if_neg hg]
      exact ⟨rfl, rfl, rfl, rfl, rfl⟩
  -- what a frame counts for its parent is not changed by getting on
  have hshare : ∀ d, r.share site d = s.share site d := by
    intro d
    unfold State.share
    rw [(hframe d).2.2.2.1,
      hand_congr rfl (hframe d).1 fun v _ => inHand_congr (hphase v) _]
  refine ⟨fun g hg => ?_, fun v hv => ?_, fun v d hd => ?_, fun g hg hgiven hsync => ?_,
    fun b => ?_⟩
  · rw [settled_congr rfl fun v _ => congrArg Phase.leaving (hphase v)] at hg
    have hold := h.frame g hg
    by_cases hgf : g = f
    · subst hgf
      unfold State.reading at hold ⊢
      rw [(hframe g).2.2.1, (hframe g).2.2.2.2, List.map_congr_left fun d _ => hshare d, hsite,
        State.own, hself, Worker.held, hff, if_pos rfl]
      rw [hsite, State.own, Worker.held, hrun] at hold
      simp only [hrun]
      exact hheld _ hold
    · rw [reading_congr (hframe g).2.2.1 (hframe g).2.2.2.2 (fun d _ => hshare d)
        (own_congr rfl fun v hv => ?_), hold, hff, if_neg hgf]
      -- another frame is run by another worker
      rw [hother v]
      rintro rfl
      exact hgf (Option.some.inj (((hs.placed.running v g).mpr hv).symm.trans hf))
  · rw [hphase] at hv
    by_cases hvw : v = w
    · subst hvw
      rw [hself]
      exact hfed (h.stack v hv)
    · rw [hother v hvw]
      exact h.stack v hv
  · have hvw : v ≠ w := by
      rintro rfl
      exact absurd (((hs.placed.carried v d).mpr hd).symm.trans hrun) (by simp)
    rw [(hframe d).1, hother v hvw]
    exact h.carried v d hd
  · rw [(hframe g).2.1] at hsync
    rw [(hframe g).2.2.1]
    exact h.cleared g hg hgiven hsync
  · refine (place_congr hpending (fun v => ?_) b).trans (h.noPending b)
    by_cases hvw : v = w
    · rw [hvw, hself]
    · rw [hother v hvw]

end Advance

-- ---------------------------------------------------------------------------
-- Frames that have nothing to wait for
-- ---------------------------------------------------------------------------

section Ends

variable {s : State M} {site : FrameId → Site} {owed : Option FrameId} {w : WorkerId}
  {f d p : FrameId}

omit [DecidableEq K] [∀ k, Monoid (M k)] in
/-- The children of a frame are its own. -/
theorem Shape.parent_of_mem (hs : Shape s site owed) (hp : site p ≠ .gone)
    (hd : d ∈ (s.ff p).children) : site d ≠ .gone ∧ (s.ff d).parent = some p :=
  ⟨((hs.siblings.mem p d hp).mp hd).1, ((hs.siblings.mem p d hp).mp hd).2.1⟩

omit [DecidableEq K] [∀ k, Monoid (M k)] in
/-- A synched frame has no children, unless it waits for a call to return. -/
theorem Shape.no_children (hs : Shape s site owed) (hlive : site f ≠ .gone)
    (hsite : site f ≠ .suspended) (hsync : (s.ff f).frame.unsynched = false) :
    (s.ff f).children = [] := by
  refine List.eq_nil_iff_forall_not_mem.mpr fun d hd => ?_
  obtain ⟨hdlive, hparent⟩ := hs.parent_of_mem hlive hd
  cases hcall : (s.ff d).isCallChild with
  | true => exact hsite (hs.linked.caller d f hdlive hcall hparent)
  | false =>
    have hunsynched := hs.linked.spawned d f hdlive hparent hcall
    rw [hsync] at hunsynched
    exact Bool.false_ne_true hunsynched

/-- A worker that runs a synched frame has everything in its map. -/
theorem Read.synched (hs : Shape s site owed) (h : Read s site)
    (hrun : (s.worker w).phase = .running) (hf : (s.worker w).frameFf = some f)
    (hsync : (s.ff f).frame.unsynched = false) :
    heldOf (s.worker w).stack (value (s.worker w).reducerMap) = (s.ff f).frame.sofar := by
  have hsite : site f = .running w := (hs.placed.running w f).mp hf
  have hlive : site f ≠ .gone := by simp [hsite]
  have hmap := h.cleared f hlive (by simp [hsite]) hsync
  have hchildren := hs.no_children hlive (by simp [hsite]) hsync
  have hframe := h.frame f (by simp [hsite, Site.settled, hrun, Phase.leaving])
  unfold State.reading at hframe
  rw [hmap, hchildren, hsite, State.own, Worker.held, hrun, value_none, List.map_nil,
    List.prod_nil, one_mul, one_mul] at hframe
  exact hframe

/-- When a frame returns, it is all there. -/
theorem Read.ends (hs : Shape s site owed) (h : Read s site)
    (hrun : (s.worker w).phase = .running) (hstack : (s.worker w).stack = [])
    (hf : (s.worker w).frameFf = some f) (hcode : (s.ff f).frame.code = .ret)
    (hsync : (s.ff f).frame.unsynched = false) :
    (s.ff f).frame.total = value (s.worker w).reducerMap := by
  have hheld := h.synched hs hrun hf hsync
  rw [hstack] at hheld
  rw [total_ret hcode, ← hheld]
  rfl

end Ends

-- ---------------------------------------------------------------------------
-- Moves that take a frame from a worker, or give it one
-- ---------------------------------------------------------------------------

section Moves

variable {s r : State M} {site : FrameId → Site} {owed : Option FrameId} {w victim : WorkerId}
  {f d p : FrameId} {sf : StackFrame M} {young : List (StackFrame M)}

omit [DecidableEq K] [∀ k, Monoid (M k)] in
theorem Worker.Same.refl (wk : Worker M) : wk.Same wk := ⟨rfl, rfl, rfl⟩

omit [DecidableEq K] [∀ k, Monoid (M k)] in
/-- The worker that runs a frame, or carries it, is not the one that runs another. -/
theorem Placed.apart (hs : Placed s site) (hf : site f = .running w)
    (hrun : ∀ e, (s.worker w).phase ≠ .callReturning e) {g : FrameId} (hg : g ≠ f) {v : WorkerId}
    (hv : site g = .running v ∨ site g = .carried v) : v ≠ w := by
  rintro rfl
  rcases hv with hv | hv
  · exact hg (Option.some.inj (((hs.running v g).mpr hv).symm.trans ((hs.running v f).mpr hf)))
  · exact hrun g ((hs.carried v g).mpr hv)

/-- A frame is suspended or given away, and its owner goes on with the oldest frame on
its stack, as a new child. -/
theorem Read.split {b : Site} (hs : Shape s site owed) (h : Read s site)
    (hrun : (s.worker victim).phase = .running) (hf : (s.worker victim).frameFf = some f)
    (hstack : (s.worker victim).stack = sf :: young) (hb : b = .suspended ∨ ∃ w, b = .given w)
    (hvictim : (r.worker victim).phase = .running ∧ (r.worker victim).stack = young ∧
      (r.worker victim).reducerMap = (s.worker victim).reducerMap)
    (hother : ∀ v, v ≠ victim → (s.worker v).Same (r.worker v))
    (hnew : (r.ff s.nextFrame).frame = sf ∧ (r.ff s.nextFrame).childrenReducerMap = none ∧
      (r.ff s.nextFrame).rightReducerMap = none ∧ (r.ff s.nextFrame).children = [])
    (hsofar : (r.ff f).frame.sofar = (s.ff f).frame.sofar)
    (htotal : (r.ff f).frame.total = (s.ff f).frame.total)
    (hsync : (r.ff f).frame.unsynched = false → (s.ff f).frame.unsynched = false)
    (hmap : (r.ff f).childrenReducerMap = (s.ff f).childrenReducerMap)
    (hright : (r.ff f).rightReducerMap = (s.ff f).rightReducerMap)
    (hchildren : (r.ff f).children = (s.ff f).children ++ [s.nextFrame])
    (hff : ∀ g, g ≠ s.nextFrame → g ≠ f → r.ff g = s.ff g)
    (hplace : ∀ a, r.place a = s.place a) :
    Read r (Function.update (Function.update site f b) s.nextFrame (.running victim)) := by
  have hsite : site f = .running victim := (hs.placed.running victim f).mp hf
  have hlive : site f ≠ .gone := by simp [hsite]
  have hgone : site s.nextFrame = .gone := hs.placed.nextFrame
  have hne : f ≠ s.nextFrame := by
    rintro heq
    exact hlive (heq ▸ hgone)
  have hvictim' : (Function.update (Function.update site f b) s.nextFrame (.running victim))
      s.nextFrame = .running victim := Function.update_self ..
  have hsite' : (Function.update (Function.update site f b) s.nextFrame (.running victim)) f = b := by
    rw [Function.update_of_ne hne, Function.update_self]
  have hstays : ∀ g, g ∉ [f, s.nextFrame] →
      (Function.update (Function.update site f b) s.nextFrame (.running victim)) g = site g := by
    intro g hg
    simp only [List.mem_cons, List.not_mem_nil, or_false, not_or] at hg
    rw [Function.update_of_ne hg.2, Function.update_of_ne hg.1]
  have hapart : Apart s r site
      (Function.update (Function.update site f b) s.nextFrame (.running victim))
      [f, s.nextFrame] := by
    have hsame : ∀ g, g ∉ [f, s.nextFrame] → r.ff g = s.ff g := by
      intro g hg
      simp only [List.mem_cons, List.not_mem_nil, or_false, not_or] at hg
      exact hff g hg.2 hg.1
    refine ⟨hstays, fun g hg v hv => ?_, fun g hg => by rw [hsame g hg],
      fun g hg => by rw [hsame g hg], fun g hg => by rw [hsame g hg]⟩
    refine hother v (hs.placed.apart hsite (by simp [hrun]) ?_ hv)
    rintro rfl
    exact hg List.mem_cons_self
  -- the suspended frame counts for its parent as before
  have hshare : ∀ d, site d ≠ .gone →
      r.share (Function.update (Function.update site f b) s.nextFrame (.running victim)) d =
        s.share site d := by
    intro d hd
    have hdnew : d ≠ s.nextFrame := by
      rintro rfl
      exact hd hgone
    by_cases hdf : d = f
    · subst hdf
      unfold State.share
      rw [hright, hsite', hsite, htotal]
      congr 1
      show _ = (s.worker victim).inHand _
      unfold Worker.inHand
      rw [hrun]
      rcases hb with rfl | ⟨w, rfl⟩
      · rfl
      · rfl
    · refine hapart.share (by simp [hdf, hdnew]) ?_
      rw [hff d hdnew hdf]
  have hold := h.frame f (by simp [hsite, Site.settled, hrun, Phase.leaving])
  have hfed := h.stack victim hrun
  rw [hstack] at hfed
  refine h.apart hapart (fun g hg hlive' d hd => hshare d (hs.parent_of_mem hlive' hd).1)
    (fun g hg hsettled => ?_) (fun v hv => ?_) (fun d hd v hv => ?_)
    (fun g hg hglive hgiven hgsync => ?_) hplace
  · rcases List.mem_cons.mp hg with rfl | hg
    · unfold State.reading at hold ⊢
      -- the new child counts with all that its code comes to
      have hnewshare : r.share
          (Function.update (Function.update site g b) s.nextFrame (.running victim)) s.nextFrame =
            sf.total := by
        unfold State.share
        rw [hnew.1, hnew.2.2.1, hvictim', value_none, mul_one, State.hand, Worker.inHand, hvictim.1]
      -- the frame itself has no worker any more, and holds nothing
      have hown : r.own b = 1 := by rcases hb with rfl | ⟨w, rfl⟩ <;> rfl
      rw [hsite, State.own, Worker.held, hrun, hstack] at hold
      rw [hmap, hchildren, List.map_append, List.prod_append, List.map_cons, List.map_nil,
        List.prod_singleton, hnewshare, hsite', hown, mul_one, ← mul_assoc, hsofar,
        List.map_congr_left fun d hd => hshare d (hs.parent_of_mem hlive hd).1]
      exact hold
    · obtain rfl := List.mem_singleton.mp hg
      unfold State.reading
      rw [hnew.1, hnew.2.1, hnew.2.2.2, hvictim', value_none, List.map_nil, List.prod_nil, one_mul,
        one_mul, State.own, Worker.held, hvictim.1]
      simp only
      rw [hvictim.2.1, hvictim.2.2]
      exact hfed.1.symm
  · by_cases hvv : v = victim
    · subst hvv
      rw [hvictim.2.1, hvictim.2.2]
      exact .inr hfed.2
    · exact .inl (hother v hvv)
  · rcases List.mem_cons.mp hd with rfl | hd
    · rw [hsite'] at hv
      rcases hb with rfl | ⟨w, rfl⟩
      · exact absurd hv (by simp)
      · exact absurd hv (by simp)
    · obtain rfl := List.mem_singleton.mp hd
      rw [hvictim'] at hv
      exact absurd hv (by simp)
  · rcases List.mem_cons.mp hg with rfl | hg
    · rw [hmap]
      exact h.cleared g hlive (by simp [hsite]) (hsync hgsync)
    · obtain rfl := List.mem_singleton.mp hg
      exact hnew.2.1

/-- One frame changes, and what its worker has for it. -/
theorem Read.focus {site' : FrameId → Site} (h : Read s site)
    (hsite : ∀ g, g ≠ f → site' g = site g)
    (hworker : ∀ g, g ≠ f → ∀ v, site g = .running v ∨ site g = .carried v →
      (s.worker v).Same (r.worker v))
    (hff : ∀ g, g ≠ f → r.ff g = s.ff g)
    (hshare : ∀ g, site g ≠ .gone → f ∈ (s.ff g).children → r.share site' f = s.share site f)
    (hframe : (site' f).settled r = true →
      (site f ≠ .gone → ∀ d ∈ (s.ff f).children, r.share site' d = s.share site d) →
      r.reading site' f = (r.ff f).frame.sofar)
    (hstack : ∀ v, (r.worker v).phase = .running → (s.worker v).Same (r.worker v) ∨
      Fed (r.worker v).stack (value (r.worker v).reducerMap))
    (hcarried : ∀ v, site' f = .carried v →
      (r.ff f).frame.total = value (r.worker v).reducerMap)
    (hcleared : site' f ≠ .gone → (∀ w, site' f ≠ .given w) →
      (r.ff f).frame.unsynched = false → (r.ff f).childrenReducerMap = none)
    (hplace : ∀ a, r.place a = s.place a) : Read r site' := by
  have hapart : Apart s r site site' [f] := by
    have hne : ∀ g, g ∉ [f] → g ≠ f := fun g hg => by simpa using hg
    exact ⟨fun g hg => hsite g (hne g hg), fun g hg => hworker g (hne g hg),
      fun g hg => by rw [hff g (hne g hg)], fun g hg => by rw [hff g (hne g hg)],
      fun g hg => by rw [hff g (hne g hg)]⟩
  have hall : ∀ g, site g ≠ .gone → ∀ d ∈ (s.ff g).children,
      r.share site' d = s.share site d := by
    intro g hg d hd
    by_cases hdf : d = f
    · subst hdf
      exact hshare g hg hd
    · exact hapart.share (by simpa using hdf) (by rw [hff d hdf])
  refine h.apart hapart (fun g _ hg => hall g hg) (fun g hg hsettled => ?_) hstack
    (fun d hd v hv => ?_) (fun g hg => ?_) hplace
  · obtain rfl := List.mem_singleton.mp hg
    exact hframe hsettled fun hlive => hall g hlive
  · obtain rfl := List.mem_singleton.mp hd
    exact hcarried v hv
  · obtain rfl := List.mem_singleton.mp hg
    exact hcleared

omit [DecidableEq K] [∀ k, Monoid (M k)] in
theorem place_ite {wk : Worker M} (hpending : r.pending = s.pending)
    (hworker : ∀ v, r.worker v = if v = w then wk else s.worker v)
    (hready : wk.readyList = (s.worker w).readyList) (a : Option WorkerId) :
    r.place a = s.place a := by
  refine place_congr hpending (fun v => ?_) a
  rw [hworker]
  by_cases hv : v = w
  · rw [if_pos hv, hv, hready]
  · rw [if_neg hv]

omit [DecidableEq K] [∀ k, Monoid (M k)] in
/-- No frame has changed. -/
theorem ff_ite (f g : FrameId) : s.ff g = if g = f then s.ff f else s.ff g := by
  by_cases hg : g = f
  · rw [if_pos hg, hg]
  · rw [if_neg hg]

/-- The same when it keeps its children, and only its worker changes. -/
theorem Read.focusOf {wk : Worker M} {ff : FullFrame M} {b : Site} (h : Read s site)
    (hlive : site f ≠ .gone)
    (hne : ∀ g, g ≠ f → ∀ v, site g = .running v ∨ site g = .carried v → v ≠ w)
    (hworker : ∀ v, r.worker v = if v = w then wk else s.worker v)
    (hff : ∀ g, r.ff g = if g = f then ff else s.ff g)
    (hchildren : ff.children = (s.ff f).children)
    (hshare : ∀ g, site g ≠ .gone → f ∈ (s.ff g).children →
      r.hand ff.frame.total b * value ff.rightReducerMap = s.share site f)
    (hframe : b.settled r = true → value ff.childrenReducerMap *
      ((s.ff f).children.map (s.share site)).prod * r.own b = ff.frame.sofar)
    (hstack : wk.phase = .running → Fed wk.stack (value wk.reducerMap))
    (hcarried : ∀ v, b = .carried v → v = w ∧ ff.frame.total = value wk.reducerMap)
    (hcleared : b ≠ .gone → (∀ w, b ≠ .given w) → ff.frame.unsynched = false →
      ff.childrenReducerMap = none)
    (hpending : r.pending = s.pending) (hready : wk.readyList = (s.worker w).readyList) :
    Read r (Function.update site f b) := by
  have hother : ∀ v, v ≠ w → (s.worker v).Same (r.worker v) := by
    intro v hv
    rw [hworker, if_neg hv]
    exact .refl _
  have hself : r.ff f = ff := by rw [hff, if_pos rfl]
  have hb : Function.update site f b f = b := Function.update_self ..
  refine h.focus (fun g hg => Function.update_of_ne hg ..) (fun g hg v hv => hother v (hne g hg v hv))
    (fun g hg => by rw [hff, if_neg hg]) (fun g hg hmem => ?_) (fun hsettled hall => ?_)
    (fun v hv => ?_) (fun v hv => ?_) (fun hgone hgiven hsync => ?_)
    (place_ite hpending hworker hready)
  · rw [← hshare g hg hmem, State.share, hb, hself]
  · rw [hb] at hsettled
    unfold State.reading
    rw [hself, hb, hchildren, List.map_congr_left (hall hlive)]
    exact hframe hsettled
  · by_cases hvw : v = w
    · subst hvw
      rw [hworker, if_pos rfl] at hv ⊢
      exact .inr (hstack hv)
    · exact .inl (hother v hvw)
  · rw [hb] at hv
    obtain ⟨rfl, htotal⟩ := hcarried v hv
    rw [hself, hworker, if_pos rfl]
    exact htotal
  · rw [hb] at hgone hgiven
    rw [hself] at hsync ⊢
    exact hcleared hgone hgiven hsync

/-- A worker that is not reducing for the parent of its frame leaves the frame as it is. -/
theorem share_plain (hplain : ∀ v, site d = .running v → ∀ a b c,
      (s.worker v).phase ≠ .spawnReduction a b c) :
    s.share site d = (s.ff d).frame.total * value (s.ff d).rightReducerMap := by
  unfold State.share
  congr 1
  cases hsite : site d with
  | running v =>
    show (s.worker v).inHand _ = _
    unfold Worker.inHand
    split
    · rename_i hphase
      exact absurd hphase (hplain v hsite _ _ _)
    · rfl
  | _ => rfl

/-- Nothing that the readings look at has changed. -/
theorem Read.same (h : Read s site) (hworker : ∀ v, (s.worker v).Same (r.worker v))
    (hff : ∀ g, (r.ff g).frame = (s.ff g).frame ∧
      (r.ff g).childrenReducerMap = (s.ff g).childrenReducerMap ∧
      (r.ff g).rightReducerMap = (s.ff g).rightReducerMap ∧
      (r.ff g).children = (s.ff g).children)
    (hplace : ∀ a, r.place a = s.place a) : Read r site := by
  have hapart : Apart s r site site [] :=
    ⟨fun _ _ => rfl, fun _ _ v _ => hworker v, fun g _ => (hff g).1, fun g _ => (hff g).2.1,
      fun g _ => (hff g).2.2.2⟩
  exact h.apart hapart (fun _ _ _ d _ => hapart.share List.not_mem_nil (hff d).2.2.1)
    (fun _ hg => absurd hg List.not_mem_nil) (fun v _ => .inl (hworker v))
    (fun _ hd => absurd hd List.not_mem_nil) (fun _ hg => absurd hg List.not_mem_nil) hplace

omit [DecidableEq K] [∀ k, Monoid (M k)] in
theorem same_ite {wk : Worker M} (hworker : ∀ v, r.worker v = if v = w then wk else s.worker v)
    (hwk : (s.worker w).Same wk) (v : WorkerId) : (s.worker v).Same (r.worker v) := by
  rw [hworker]
  by_cases hv : v = w
  · rw [if_pos hv, hv]
    exact hwk
  · rw [if_neg hv]
    exact .refl _

end Moves

end SwanRuntime.Runtime
