import SwanRuntime.Runtime.Frames

/-!
# The runtime — where the frames are

Every move takes a frame from one place to another, makes a frame or destroys
one. Each lemma here names the new places.

A worker holds frames in three fields: the frame it runs, the one it is given,
and the one it carries. Each of them tracks the frames that have a seat of its
kind, and a move fills it, empties it or leaves it alone.
-/

namespace SwanRuntime.Runtime

open Reducers

variable {K : Type} {M : K → Type} {s r : State M} {site : FrameId → Site}
  {w victim t u : WorkerId} {f d p : FrameId} {sf : StackFrame M} {young : List (StackFrame M)}
  {x : FiberId} {pf : PendingFrame} {rest child code : Code M} {init : ∀ k, M k}

-- ---------------------------------------------------------------------------
-- Fields that hold a frame
-- ---------------------------------------------------------------------------

section Tracks

variable {held held' : WorkerId → Option FrameId} {seat : Site → Option WorkerId} {y z : Site}

/-- The field `held` of a worker holds exactly the frames that have their seat with
the worker. -/
def Tracks (held : WorkerId → Option FrameId) (seat : Site → Option WorkerId)
    (site : FrameId → Site) : Prop :=
  ∀ w f, held w = some f ↔ seat (site f) = some w

theorem Tracks.same (h : Tracks held seat site) (hsame : ∀ v, held' v = held v) :
    Tracks held' seat site := by
  intro v g
  rw [hsame]
  exact h v g

/-- The frame has no seat, before and after. -/
theorem Tracks.aside (h : Tracks held seat site) (hsame : ∀ v, held' v = held v)
    (hsite : site f = z) (hold : seat z = none) (hnew : seat y = none) :
    Tracks held' seat (Function.update site f y) := by
  intro v g
  rw [hsame, h v g]
  by_cases hg : g = f
  · rw [hg, Function.update_self, hsite, hold, hnew]
  · rw [Function.update_of_ne hg]

/-- The frame leaves the worker. -/
theorem Tracks.leave (h : Tracks held seat site) (hw : held' w = none)
    (hother : ∀ v, v ≠ w → held' v = held v) (hsite : site f = z) (hold : seat z = some w)
    (hnew : seat y = none) : Tracks held' seat (Function.update site f y) := by
  have hheld : held w = some f := (h w f).mpr (hsite ▸ hold)
  intro v g
  by_cases hg : g = f
  · -- only the worker itself could hold the frame
    rw [hg, Function.update_self, hnew]
    refine iff_of_false (fun hv => ?_) (Option.some_ne_none v).symm
    by_cases hvw : v = w
    · rw [hvw, hw] at hv
      exact Option.some_ne_none f hv.symm
    · rw [hother v hvw, h v f, hsite, hold] at hv
      exact hvw (Option.some.inj hv).symm
  · rw [Function.update_of_ne hg, ← h v g]
    by_cases hvw : v = w
    · rw [hvw, hw, hheld]
      exact iff_of_false (Option.some_ne_none g).symm fun hfg => hg (Option.some.inj hfg).symm
    · rw [hother v hvw]

/-- The worker, which holds no frame, gets one. -/
theorem Tracks.enter (h : Tracks held seat site) (hfree : held w = none) (hw : held' w = some f)
    (hother : ∀ v, v ≠ w → held' v = held v) (hsite : site f = z) (hold : seat z = none)
    (hnew : seat y = some w) : Tracks held' seat (Function.update site f y) := by
  intro v g
  by_cases hg : g = f
  · rw [hg, Function.update_self, hnew]
    by_cases hvw : v = w
    · rw [hvw, hw]
      exact iff_of_true rfl rfl
    · rw [hother v hvw, h v f, hsite, hold]
      exact iff_of_false (Option.some_ne_none v).symm fun heq => hvw (Option.some.inj heq).symm
  · rw [Function.update_of_ne hg, ← h v g]
    by_cases hvw : v = w
    · rw [hvw, hw, hfree]
      exact iff_of_false (fun hfg => hg (Option.some.inj hfg).symm) (Option.some_ne_none g).symm
    · rw [hother v hvw]

/-- The frame that the worker holds is replaced by one that had no seat. -/
theorem Tracks.replace {n : FrameId} {y' z' : Site} (h : Tracks held seat site)
    (hw : held' w = some n) (hother : ∀ v, v ≠ w → held' v = held v) (hsite : site f = z)
    (hold : seat z = some w) (hnew : seat y = none) (hsite' : site n = z')
    (hold' : seat z' = none) (hnew' : seat y' = some w) :
    Tracks held' seat (Function.update (Function.update site f y) n y') := by
  -- the worker gives up its frame, and gets the other
  let none' : WorkerId → Option FrameId := fun v => if v = w then none else held v
  have hleft : Tracks none' seat (Function.update site f y) :=
    h.leave (if_pos rfl) (fun v hv => if_neg hv) hsite hold hnew
  refine hleft.enter (if_pos rfl) hw (fun v hv => (hother v hv).trans (if_neg hv).symm) rfl ?_
    hnew'
  by_cases hnf : n = f
  · rw [hnf, Function.update_self]
    exact hnew
  · rw [Function.update_of_ne hnf, hsite']
    exact hold'

end Tracks

/-- The frame that a worker carries. -/
def Phase.carries : Phase M → Option FrameId
  | .callReturning f => some f
  | _ => none

theorem Phase.carries_eq_some {phase : Phase M} :
    phase.carries = some f ↔ phase = .callReturning f := by
  cases phase <;> simp [carries]

/-- The worker that runs a frame at this place. -/
def Site.runner : Site → Option WorkerId
  | .running w => some w
  | _ => none

/-- The worker that has been given a frame at this place. -/
def Site.receiver : Site → Option WorkerId
  | .given w => some w
  | _ => none

/-- The worker that carries a frame at this place. -/
def Site.carrier : Site → Option WorkerId
  | .carried w => some w
  | _ => none

/-- The list on which a frame at this place waits. -/
def Site.queue : Site → Option (Option WorkerId)
  | .waiting a => some a
  | _ => none

theorem Site.runner_eq_some {y : Site} : y.runner = some w ↔ y = .running w := by
  cases y <;> simp [runner]

theorem Site.receiver_eq_some {y : Site} : y.receiver = some w ↔ y = .given w := by
  cases y <;> simp [receiver]

theorem Site.carrier_eq_some {y : Site} : y.carrier = some w ↔ y = .carried w := by
  cases y <;> simp [carrier]

theorem Site.queue_eq_some {y : Site} {a : Option WorkerId} :
    y.queue = some a ↔ y = .waiting a := by
  cases y <;> simp [queue]

theorem Placed.tracksRunning (h : Placed s site) :
    Tracks (fun v => (s.worker v).frameFf) Site.runner site := fun w f =>
  (h.running w f).trans Site.runner_eq_some.symm

theorem Placed.tracksGiven (h : Placed s site) :
    Tracks (fun v => (s.worker v).nextFrameFf) Site.receiver site := fun w f =>
  (h.given w f).trans Site.receiver_eq_some.symm

theorem Placed.tracksCarried (h : Placed s site) :
    Tracks (fun v => (s.worker v).phase.carries) Site.carrier site := fun w f =>
  (Phase.carries_eq_some.trans (h.carried w f)).trans Site.carrier_eq_some.symm

/-- A field of the workers stays when one worker changes, and keeps it. -/
theorem field_same {β : Type*} {wk : Worker M} (field : Worker M → β)
    (hr : ∀ v, r.worker v = if v = w then wk else s.worker v)
    (hwk : field wk = field (s.worker w)) (v : WorkerId) :
    field (r.worker v) = field (s.worker v) := by
  rw [hr]
  by_cases hv : v = w
  · rw [if_pos hv, hv]
    exact hwk
  · rw [if_neg hv]

theorem place_same {wk : Worker M} (hpending : r.pending = s.pending)
    (hr : ∀ v, r.worker v = if v = w then wk else s.worker v)
    (hwk : wk.readyList = (s.worker w).readyList) (a : Option WorkerId) :
    r.place a = s.place a :=
  place_congr hpending (field_same Worker.readyList hr hwk) a

-- ---------------------------------------------------------------------------
-- Lists of pending frames, and the frames that exist
-- ---------------------------------------------------------------------------

section Lists

variable {place place' : Option WorkerId → List PendingFrame} {live live' : FrameId → Bool}
  {n : ℕ} {y z : Site}

/-- The lists of pending frames hold exactly the frames that wait there. -/
def Lists (place : Option WorkerId → List PendingFrame) (site : FrameId → Site) : Prop :=
  ∀ a f, f ∈ (place a).map (·.frameFf) ↔ (site f).queue = some a

/-- The frame is in no list, before and after. -/
theorem Lists.aside (h : Lists place site) (hsame : ∀ a, place' a = place a)
    (hsite : site f = z) (hold : z.queue = none) (hnew : y.queue = none) :
    Lists place' (Function.update site f y) := by
  intro a g
  rw [hsame, h a g]
  by_cases hg : g = f
  · rw [hg, Function.update_self, hsite, hold, hnew]
  · rw [Function.update_of_ne hg]

theorem mem_map_erase {l : List PendingFrame} (hl : (l.map (·.frameFf)).Nodup) (hpf : pf ∈ l) :
    f ∈ (l.erase pf).map (·.frameFf) ↔ f ∈ l.map (·.frameFf) ∧ f ≠ pf.frameFf := by
  have hnodup : l.Nodup := hl.of_map
  constructor
  · intro hf
    obtain ⟨qf, hqf, rfl⟩ := List.mem_map.mp hf
    obtain ⟨hne, hmem⟩ := hnodup.mem_erase_iff.mp hqf
    exact ⟨List.mem_map_of_mem hmem, fun heq => hne (List.inj_on_of_nodup_map hl hmem hpf heq)⟩
  · rintro ⟨hf, hne⟩
    obtain ⟨qf, hqf, rfl⟩ := List.mem_map.mp hf
    exact List.mem_map_of_mem (hnodup.mem_erase_iff.mpr ⟨fun heq => hne (congrArg _ heq), hqf⟩)

theorem nodup_map_erase {l : List PendingFrame} (hl : (l.map (·.frameFf)).Nodup)
    (pf : PendingFrame) : ((l.erase pf).map (·.frameFf)).Nodup :=
  hl.sublist (List.erase_sublist.map _)

/-- A pending frame is taken from the list `b`. -/
theorem Lists.erase {b : Option WorkerId} (h : Lists place site)
    (hnodup : ((place b).map (·.frameFf)).Nodup) (hpf : pf ∈ place b)
    (hb : place' b = (place b).erase pf) (hother : ∀ a, a ≠ b → place' a = place a)
    (hnew : y.queue = none) : Lists place' (Function.update site pf.frameFf y) := by
  have hsite : (site pf.frameFf).queue = some b := (h b _).mp (List.mem_map_of_mem hpf)
  intro a g
  by_cases hg : g = pf.frameFf
  · rw [hg, Function.update_self, hnew]
    refine iff_of_false (fun hmem => ?_) (Option.some_ne_none a).symm
    by_cases hab : a = b
    · rw [hab, hb] at hmem
      exact ((mem_map_erase hnodup hpf).mp hmem).2 rfl
    · rw [hother a hab, h a, hsite] at hmem
      exact hab (Option.some.inj hmem).symm
  · rw [Function.update_of_ne hg, ← h a g]
    by_cases hab : a = b
    · rw [hab, hb, mem_map_erase hnodup hpf]
      exact and_iff_left hg
    · rw [hother a hab]

/-- A pending frame is put on the list `b`. -/
theorem Lists.add {b : Option WorkerId} (h : Lists place site) (hsite : site f = z)
    (hold : z.queue = none)
    (hb : ∀ g, g ∈ (place' b).map (·.frameFf) ↔ g = f ∨ g ∈ (place b).map (·.frameFf))
    (hother : ∀ a, a ≠ b → place' a = place a) :
    Lists place' (Function.update site f (.waiting b)) := by
  intro a g
  by_cases hg : g = f
  · rw [hg, Function.update_self]
    by_cases hab : a = b
    · rw [hab, hb]
      exact iff_of_true (Or.inl rfl) rfl
    · rw [hother a hab, h a f, hsite, hold]
      exact iff_of_false (Option.some_ne_none a).symm fun heq => hab (Option.some.inj heq).symm
  · rw [Function.update_of_ne hg, ← h a g]
    by_cases hab : a = b
    · rw [hab, hb]
      exact or_iff_right hg
    · rw [hother a hab]

/-- `live` marks the frames that have a place. -/
def Lives (live : FrameId → Bool) (site : FrameId → Site) : Prop :=
  ∀ f, live f = true ↔ site f ≠ .gone

theorem Lives.relocate (h : Lives live site) (hf : site f ≠ .gone) (hy : y ≠ .gone) :
    Lives live (Function.update site f y) := by
  intro g
  rw [h g]
  by_cases hg : g = f
  · rw [hg, Function.update_self]
    exact iff_of_true hf hy
  · rw [Function.update_of_ne hg]

theorem Lives.make (h : Lives live site) (hr : ∀ g, live' g = if g = f then true else live g)
    (hy : y ≠ .gone) : Lives live' (Function.update site f y) := by
  intro g
  rw [hr]
  by_cases hg : g = f
  · rw [hg, if_pos rfl, Function.update_self]
    exact iff_of_true rfl hy
  · rw [if_neg hg, Function.update_of_ne hg]
    exact h g

theorem Lives.drop (h : Lives live site) (hr : ∀ g, live' g = if g = f then false else live g) :
    Lives live' (Function.update site f .gone) := by
  intro g
  rw [hr]
  by_cases hg : g = f
  · rw [hg, if_pos rfl, Function.update_self]
    exact iff_of_false Bool.false_ne_true fun hne => hne rfl
  · rw [if_neg hg, Function.update_of_ne hg]
    exact h g

/-- The frames that have a place are numbered below `n`. -/
def Below (n : ℕ) (site : FrameId → Site) : Prop := ∀ f, site f ≠ .gone → f < n

theorem Below.relocate (h : Below n site) (hf : f < n) : Below n (Function.update site f y) := by
  intro g hg
  by_cases hgf : g = f
  · rwa [hgf]
  · rw [Function.update_of_ne hgf] at hg
    exact h g hg

theorem Below.make (h : Below n site) : Below (n + 1) (Function.update site n y) := by
  intro g hg
  by_cases hgn : g = n
  · rw [hgn]
    exact Nat.lt_succ_self n
  · rw [Function.update_of_ne hgn] at hg
    exact Nat.lt_succ_of_lt (h g hg)

end Lists

/-- The places are right when they are right for every field. -/
theorem Placed.of (hlive : Lives s.live site) (hfresh : Below s.nextFrame site)
    (hrunning : Tracks (fun v => (s.worker v).frameFf) Site.runner site)
    (hgiven : Tracks (fun v => (s.worker v).nextFrameFf) Site.receiver site)
    (hcarried : Tracks (fun v => (s.worker v).phase.carries) Site.carrier site)
    (hwaiting : Lists s.place site) (hnodup : ∀ a, ((s.place a).map (·.frameFf)).Nodup) :
    Placed s site where
  live    := hlive
  fresh   := hfresh
  running := fun w f => (hrunning w f).trans Site.runner_eq_some
  given   := fun w f => (hgiven w f).trans Site.receiver_eq_some
  carried := fun w f =>
    Phase.carries_eq_some.symm.trans ((hcarried w f).trans Site.carrier_eq_some)
  waiting := fun a f => (hwaiting a f).trans Site.queue_eq_some
  nodup   := hnodup

theorem Placed.lives (h : Placed s site) : Lives s.live site := h.live

theorem Placed.below (h : Placed s site) : Below s.nextFrame site := h.fresh

theorem Placed.lists (h : Placed s site) : Lists s.place site := fun a f =>
  (h.waiting a f).trans Site.queue_eq_some.symm

theorem Placed.nodup_same (h : Placed s site) (hplace : ∀ a, r.place a = s.place a)
    (a : Option WorkerId) : ((r.place a).map (·.frameFf)).Nodup := by
  rw [hplace]
  exact h.nodup a

theorem Placed.running_live (h : Placed s site) (hf : (s.worker w).frameFf = some f) :
    site f ≠ .gone := by
  simp [(h.running w f).mp hf]

/-- A worker changes, but none of its fields that say where the frames are. -/
theorem Placed.change {wk : Worker M} (h : Placed s site)
    (hr : ∀ v, r.worker v = if v = w then wk else s.worker v) (hlive : r.live = s.live)
    (hnext : r.nextFrame = s.nextFrame) (hpending : r.pending = s.pending)
    (hframe : wk.frameFf = (s.worker w).frameFf)
    (hgiven : wk.nextFrameFf = (s.worker w).nextFrameFf)
    (hcarried : wk.phase.carries = (s.worker w).phase.carries)
    (hready : wk.readyList = (s.worker w).readyList) : Placed r site := by
  have hplace : ∀ a, r.place a = s.place a := place_same hpending hr hready
  refine .of ?_ ?_ (h.tracksRunning.same (field_same Worker.frameFf hr hframe))
    (h.tracksGiven.same (field_same Worker.nextFrameFf hr hgiven))
    (h.tracksCarried.same (field_same (fun wk => wk.phase.carries) hr hcarried)) (fun a g => ?_)
    (h.nodup_same hplace)
  · rw [hlive]
    exact h.lives
  · rw [hnext]
    exact h.below
  · rw [hplace]
    exact h.lists a g

/-- A frame changes its place, and stays off the lists of pending frames. -/
theorem Placed.relocate {y z : Site} (h : Placed s site) (hf : site f ≠ .gone) (hy : y ≠ .gone)
    (hlive : r.live = s.live) (hnext : r.nextFrame = s.nextFrame)
    (hrunning : Tracks (fun v => (r.worker v).frameFf) Site.runner (Function.update site f y))
    (hgiven : Tracks (fun v => (r.worker v).nextFrameFf) Site.receiver (Function.update site f y))
    (hcarried : Tracks (fun v => (r.worker v).phase.carries) Site.carrier
      (Function.update site f y))
    (hplace : ∀ a, r.place a = s.place a) (hsite : site f = z) (hold : z.queue = none)
    (hnew : y.queue = none) : Placed r (Function.update site f y) := by
  refine .of ?_ ?_ hrunning hgiven hcarried (h.lists.aside hplace hsite hold hnew)
    (h.nodup_same hplace)
  · rw [hlive]
    exact h.lives.relocate hf hy
  · rw [hnext]
    exact h.below.relocate (h.fresh f hf)

/-- A worker gives up its frame, which is destroyed. -/
theorem Placed.destroy {wk : Worker M} (h : Placed s site) (hf : (s.worker w).frameFf = some f)
    (hr : ∀ v, r.worker v = if v = w then wk else s.worker v)
    (hlive : ∀ g, r.live g = if g = f then false else s.live g)
    (hnext : r.nextFrame = s.nextFrame) (hpending : r.pending = s.pending)
    (hframe : wk.frameFf = none) (hgiven : wk.nextFrameFf = (s.worker w).nextFrameFf)
    (hcarried : wk.phase.carries = (s.worker w).phase.carries)
    (hready : wk.readyList = (s.worker w).readyList) : Placed r (Function.update site f .gone) := by
  have hsite : site f = .running w := (h.running w f).mp hf
  have hplace : ∀ a, r.place a = s.place a := place_same hpending hr hready
  refine .of (h.lives.drop hlive) ?_ ?_ ?_ ?_ (h.lists.aside hplace hsite rfl rfl)
    (h.nodup_same hplace)
  · rw [hnext]
    exact h.below.relocate (h.fresh f (h.running_live hf))
  · refine h.tracksRunning.leave ?_ (fun v hv => ?_) hsite rfl rfl
    · rw [hr, if_pos rfl]
      exact hframe
    · rw [hr, if_neg hv]
  · exact h.tracksGiven.aside (field_same Worker.nextFrameFf hr hgiven) hsite rfl rfl
  · exact h.tracksCarried.aside (field_same (fun wk => wk.phase.carries) hr hcarried) hsite rfl rfl

/-- A suspended frame is given to a worker. -/
theorem Placed.give {wk : Worker M} (h : Placed s site) (hsite : site f = .suspended)
    (ht : (s.worker t).nextFrameFf = none)
    (hr : ∀ v, r.worker v = if v = t then wk else s.worker v) (hlive : r.live = s.live)
    (hnext : r.nextFrame = s.nextFrame) (hpending : r.pending = s.pending)
    (hframe : wk.frameFf = (s.worker t).frameFf) (hgiven : wk.nextFrameFf = some f)
    (hcarried : wk.phase.carries = (s.worker t).phase.carries)
    (hready : wk.readyList = (s.worker t).readyList) :
    Placed r (Function.update site f (.given t)) := by
  refine h.relocate (by simp [hsite]) (by simp) hlive hnext ?_ ?_ ?_
    (place_same hpending hr hready) hsite rfl rfl
  · exact h.tracksRunning.aside (field_same Worker.frameFf hr hframe) hsite rfl rfl
  · refine h.tracksGiven.enter ht ?_ (fun v hv => ?_) hsite rfl rfl
    · rw [hr, if_pos rfl]
      exact hgiven
    · rw [hr, if_neg hv]
  · exact h.tracksCarried.aside (field_same (fun wk => wk.phase.carries) hr hcarried) hsite rfl rfl

/-- The frame `f` of a worker is put at `y`, and the worker goes on with a new
frame. -/
theorem Placed.fork {y : Site} (h : Placed s site) (hf : (s.worker w).frameFf = some f)
    (hlive : ∀ g, r.live g = if g = s.nextFrame then true else s.live g)
    (hnext : r.nextFrame = s.nextFrame + 1) (hframe : (r.worker w).frameFf = some s.nextFrame)
    (hother : ∀ v, v ≠ w → (r.worker v).frameFf = (s.worker v).frameFf)
    (hgiven : Tracks (fun v => (r.worker v).nextFrameFf) Site.receiver (Function.update site f y))
    (hcarried : ∀ v, (r.worker v).phase.carries = (s.worker v).phase.carries)
    (hplace : ∀ a, r.place a = s.place a) (hy : y ≠ .gone) (hyr : y.runner = none)
    (hyc : y.carrier = none) (hyw : y.queue = none) :
    Placed r (Function.update (Function.update site f y) s.nextFrame (.running w)) := by
  have hsite : site f = .running w := (h.running w f).mp hf
  have hold := h.running_live hf
  have hne : s.nextFrame ≠ f := fun heq => hold (heq ▸ h.nextFrame)
  have hnew : Function.update site f y s.nextFrame = .gone := by
    rw [Function.update_of_ne hne]
    exact h.nextFrame
  refine .of ((h.lives.relocate hold hy).make hlive (by simp)) ?_ ?_ ?_ ?_ ?_ (h.nodup_same hplace)
  · rw [hnext]
    exact (h.below.relocate (h.fresh f hold)).make
  · exact h.tracksRunning.replace hframe hother hsite rfl hyr h.nextFrame rfl rfl
  · exact hgiven.aside (fun _ => rfl) hnew rfl rfl
  · have hmid := h.tracksCarried.aside hcarried hsite rfl hyc
    exact hmid.aside (fun _ => rfl) hnew rfl rfl
  · have hmid := h.lists.aside hplace hsite rfl hyw
    exact hmid.aside (fun _ => rfl) hnew rfl rfl

-- ---------------------------------------------------------------------------
-- Pending frames change places
-- ---------------------------------------------------------------------------

/-- A new frame waits for its objects. -/
theorem placed_detachPending [∀ k, Monoid (M k)] (hs : Placed s site)
    (hf : (s.worker w).frameFf = some f) :
    Placed (detachPending s w f child) (Function.update site s.nextFrame (.waiting none)) := by
  have hlive := hs.running_live hf
  rw [detachPending_closed s w f child (hs.fresh f hlive)]
  have hnew : site s.nextFrame = .gone := hs.nextFrame
  refine .of (hs.lives.make (fun _ => rfl) (by simp)) hs.below.make ?_ ?_ ?_ ?_ fun a => ?_
  · exact hs.tracksRunning.aside (fun _ => rfl) hnew rfl rfl
  · exact hs.tracksGiven.aside (fun _ => rfl) hnew rfl rfl
  · exact hs.tracksCarried.aside (fun _ => rfl) hnew rfl rfl
  · refine hs.lists.add hnew rfl (fun g => ?_) (fun a ha => ?_)
    · exact List.mem_cons
    · cases a with
      | none => exact absurd rfl ha
      | some v => rfl
  · cases a with
    | none =>
      have hnot : s.nextFrame ∉ s.pending.map (·.frameFf) := by
        intro hmem
        have hwaiting := (hs.waiting none _).mp hmem
        simp [hnew] at hwaiting
      exact List.nodup_cons.mpr ⟨hnot, hs.nodup none⟩
    | some v => exact hs.nodup (some v)

/-- A pending frame is put on a ready list. -/
theorem placed_makeReady (hs : Placed s site) (hpf : pf ∈ s.pending) :
    Placed (makeReady s w pf) (Function.update site pf.frameFf (.waiting (some w))) := by
  have hsite : site pf.frameFf = .waiting none :=
    (hs.waiting none _).mp (List.mem_map_of_mem hpf)
  have hlive : site pf.frameFf ≠ .gone := by simp [hsite]
  have hready : (makeReady s w pf).place (some w) = s.place (some w) ++ [pf] := by
    simp [State.place, makeReady]
  have hother : ∀ v, v ≠ w → (makeReady s w pf).place (some v) = s.place (some v) := by
    intro v hv
    simp [State.place, makeReady, hv]
  have hworker : ∀ v, (makeReady s w pf).worker v =
      if v = w then { s.worker w with readyList := (s.worker w).readyList ++ [pf] }
      else s.worker v := by
    intro v
    rw [makeReady_closed]
  refine .of (hs.lives.relocate hlive (by simp)) (hs.below.relocate (hs.fresh _ hlive)) ?_ ?_ ?_ ?_
    fun a => ?_
  · exact hs.tracksRunning.aside (field_same Worker.frameFf hworker rfl) hsite rfl rfl
  · exact hs.tracksGiven.aside (field_same Worker.nextFrameFf hworker rfl) hsite rfl rfl
  · exact hs.tracksCarried.aside (field_same (fun wk => wk.phase.carries) hworker rfl) hsite rfl rfl
  · -- the frame leaves the list of those that wait, and is then put on the other
    let mid : Option WorkerId → List PendingFrame := fun a =>
      if a = none then s.pending.erase pf else s.place a
    have hmid : Lists mid (Function.update site pf.frameFf .suspended) :=
      hs.lists.erase (hs.nodup none) hpf (if_pos rfl) (fun a ha => if_neg ha) rfl
    have hadd : Lists (makeReady s w pf).place (Function.update
        (Function.update site pf.frameFf .suspended) pf.frameFf (.waiting (some w))) := by
      refine hmid.add (Function.update_self ..) rfl (fun g => ?_) (fun a ha => ?_)
      · rw [hready, List.map_append, List.mem_append, or_comm]
        exact or_congr_left List.mem_singleton
      · cases a with
        | none => rfl
        | some v => exact hother v fun hv => ha (congrArg some hv)
    rwa [Function.update_idem] at hadd
  · cases a with
    | none => exact nodup_map_erase (hs.nodup none) pf
    | some v =>
      by_cases hv : v = w
      · subst hv
        have hnot : pf.frameFf ∉ (s.place (some v)).map (·.frameFf) := by
          intro hmem
          have hwaiting := (hs.waiting (some v) _).mp hmem
          simp [hsite] at hwaiting
        rw [hready, List.map_append]
        exact (hs.nodup (some v)).append (List.nodup_singleton _)
          (List.disjoint_singleton.mpr hnot)
      · rw [hother v hv]
        exact hs.nodup (some v)

/-- A thief takes a frame from a ready list. -/
theorem placed_readySteal (hs : Placed s site) (hnext : (s.worker w).nextFrameFf = none)
    (hpf : pf ∈ (s.worker victim).readyList) :
    Placed (readyState s w victim pf) (Function.update site pf.frameFf (.given w)) := by
  have hsite : site pf.frameFf = .waiting (some victim) :=
    (hs.waiting (some victim) _).mp (List.mem_map_of_mem hpf)
  have hlive : site pf.frameFf ≠ .gone := by simp [hsite]
  have hvictim : (readyState s w victim pf).place (some victim) =
      (s.place (some victim)).erase pf := if_pos rfl
  have hother : ∀ a, a ≠ some victim → (readyState s w victim pf).place a = s.place a := by
    intro a ha
    cases a with
    | none => rfl
    | some v => exact if_neg fun hv => ha (congrArg some hv)
  refine .of (hs.lives.relocate hlive (by simp)) (hs.below.relocate (hs.fresh _ hlive)) ?_ ?_ ?_ ?_
    fun a => ?_
  · exact hs.tracksRunning.aside (fun _ => rfl) hsite rfl rfl
  · exact hs.tracksGiven.enter hnext (if_pos rfl) (fun v hv => if_neg hv) hsite rfl rfl
  · exact hs.tracksCarried.aside (fun _ => rfl) hsite rfl rfl
  · exact hs.lists.erase (hs.nodup (some victim)) hpf hvictim hother rfl
  · by_cases ha : a = some victim
    · rw [ha, hvictim]
      exact nodup_map_erase (hs.nodup (some victim)) pf
    · rw [hother a ha]
      exact hs.nodup a

-- ---------------------------------------------------------------------------
-- The other frames change places
-- ---------------------------------------------------------------------------

/-- A frame is suspended and its oldest stack frame promoted. -/
theorem placed_promoteCall (hs : Placed s site) (hf : (s.worker victim).frameFf = some f) : Placed
    (promoteCall s victim f sf young)
    (Function.update (Function.update site f .suspended) s.nextFrame (.running victim)) := by
  have hsite : site f = .running victim := (hs.running victim f).mp hf
  refine hs.fork hf (fun _ => rfl) rfl (congrArg Worker.frameFf (if_pos rfl))
    (fun v hv => congrArg Worker.frameFf (if_neg hv)) ?_ ?_ ?_ (by simp) rfl rfl rfl
  · exact hs.tracksGiven.aside (field_same Worker.nextFrameFf (fun _ => rfl) rfl) hsite rfl rfl
  · exact field_same (fun wk => wk.phase.carries) (fun _ => rfl) rfl
  · exact place_same rfl (fun _ => rfl) rfl

/-- Stealing changes of a worker only its frames, its stack and its team. -/
theorem stealState_same {β : Type*} {fiber : FiberArg} (field : Worker M → β)
    (hvictim : ∀ wk loot child young first,
      field (Worker.robbed wk loot child young first) = field wk)
    (hthief : ∀ wk team next, field { wk with team := team, nextFrameFf := next } = field wk)
    (v : WorkerId) :
    field ((stealState s w victim f sf young fiber).worker v) = field (s.worker v) := by
  by_cases hv : v = victim
  · rw [show (stealState s w victim f sf young fiber).worker v = _ from if_pos hv, hv]
    exact hvictim ..
  · by_cases hvw : v = w
    · rw [show (stealState s w victim f sf young fiber).worker v = _ from
        (if_neg hv).trans (if_pos hvw), hvw]
      exact hthief ..
    · rw [show (stealState s w victim f sf young fiber).worker v = _ from
        (if_neg hv).trans (if_neg hvw)]

/-- A thief takes the frame of a worker, which goes on with a new child. -/
theorem placed_steal (hs : Placed s site) (hne : w ≠ victim)
    (hnext : (s.worker w).nextFrameFf = none) (hf : (s.worker victim).frameFf = some f) : Placed
    (stealState s w victim f sf young (.fiber x))
    (Function.update (Function.update site f (.given w)) s.nextFrame (.running victim)) := by
  have hsite : site f = .running victim := (hs.running victim f).mp hf
  refine hs.fork hf (fun _ => rfl) rfl (congrArg Worker.frameFf (if_pos rfl)) (fun v hv => ?_) ?_
    (stealState_same (fun wk => wk.phase.carries) (fun _ _ _ _ _ => rfl) fun _ _ _ => rfl)
    (place_congr rfl (stealState_same Worker.readyList (fun _ _ _ _ _ => rfl) fun _ _ _ => rfl))
    (by simp) rfl rfl rfl
  · by_cases hvw : v = w
    · subst hvw
      simp [stealState, hv]
    · simp [stealState, hv, hvw]
  · refine hs.tracksGiven.enter hnext
      (congrArg Worker.nextFrameFf ((if_neg hne).trans (if_pos rfl))) (fun v hvw => ?_)
      hsite rfl rfl
    by_cases hv : v = victim
    · subst hv
      simp [stealState, Worker.robbed]
    · simp [stealState, hv, hvw]

/-- A simulated steal suspends the frame. -/
theorem placed_promote (hs : Placed s site) (hf : (s.worker w).frameFf = some f) : Placed
    (stealState s w w f sf young .placeholder)
    (Function.update (Function.update site f .suspended) s.nextFrame (.running w)) := by
  have hsite : site f = .running w := (hs.running w f).mp hf
  refine hs.fork hf (fun _ => rfl) rfl (congrArg Worker.frameFf (if_pos rfl)) (fun v hv => ?_) ?_
    (stealState_same (fun wk => wk.phase.carries) (fun _ _ _ _ _ => rfl) fun _ _ _ => rfl)
    (place_congr rfl (stealState_same Worker.readyList (fun _ _ _ _ _ => rfl) fun _ _ _ => rfl))
    (by simp) rfl rfl rfl
  · simp [stealState, hv]
  · refine hs.tracksGiven.aside (fun v => ?_) hsite rfl rfl
    by_cases hv : v = w
    · subst hv
      simp [stealState, Worker.robbed]
    · simp [stealState, hv]

/-- A worker starts to return from a spawned frame. -/
theorem placed_beginReturn (hs : Placed s site) (hrun : (s.worker w).phase = .running) : Placed
    (takeInHand s w (.spawnReduction none (s.worker w).reducerMap none)) site :=
  hs.change (fun _ => rfl) rfl rfl rfl rfl rfl (by rw [hrun]; rfl) rfl

/-- A spawned frame has been unlinked. -/
theorem placed_finishReturn (hs : Placed s site)
    (hphase : (s.worker w).phase = .spawnReduction none none none) : Placed (finishReturn s w p d)
    site :=
  hs.change (fun _ => rfl) rfl rfl rfl rfl rfl (by rw [hphase]; rfl) rfl

/-- A worker starts to sync. -/
theorem placed_beginSync (hs : Placed s site) (hrun : (s.worker w).phase = .running) : Placed
    (beginSync s w f rest) site := by
  rw [beginSync_closed]
  exact hs.change (fun _ => rfl) rfl rfl rfl rfl rfl (by rw [hrun]; rfl) rfl

/-- The frame of a worker is suspended at its sync. -/
theorem placed_suspend (hs : Placed s site)
    (hphase : (s.worker w).phase = .syncReduction none none) : Placed (suspend s w f) site :=
  hs.change (fun _ => rfl) rfl rfl rfl rfl rfl (by rw [hphase]; rfl) rfl

/-- A worker gives up the frame it has suspended. -/
theorem placed_leaveSync (hs : Placed s site) (hphase : (s.worker w).phase = .synching)
    (hf : (s.worker w).frameFf = some f) : Placed (leaveFf s w)
    (Function.update site f .suspended) := by
  have hsite : site f = .running w := (hs.running w f).mp hf
  refine hs.relocate (hs.running_live hf) (by simp) rfl rfl ?_ ?_ ?_
    (place_same rfl (fun _ => rfl) rfl) hsite rfl rfl
  · exact hs.tracksRunning.leave (congrArg Worker.frameFf (if_pos rfl))
      (fun v hv => congrArg Worker.frameFf (if_neg hv)) hsite rfl rfl
  · exact hs.tracksGiven.aside (field_same Worker.nextFrameFf (fun _ => rfl) rfl) hsite rfl rfl
  · exact hs.tracksCarried.aside
      (field_same (fun wk => wk.phase.carries) (fun _ => rfl) (by rw [hphase]; rfl))
      hsite rfl rfl

/-- A worker gives up the frame that has returned. -/
theorem placed_leaveSpawn (hs : Placed s site) (hphase : (s.worker w).phase = .spawnReturned)
    (hd : (s.worker w).frameFf = some d) : Placed (dropFf (leaveFf s w) d)
    (Function.update site d .gone) :=
  hs.destroy hd (fun _ => rfl) (fun _ => rfl) rfl rfl rfl rfl (by rw [hphase]; rfl) rfl

theorem placed_countDown (hs : Placed s site) : Placed (countDown s f) site :=
  ⟨hs.live, hs.fresh, hs.running, hs.given, hs.carried, hs.waiting, hs.nodup⟩

/-- A synched frame is given to a worker. -/
theorem placed_handOver (hs : Placed s site) (hsite : site f = .suspended)
    (ht : (s.worker t).nextFrameFf = none) : Placed (handOver s f t)
    (Function.update site f (.given t)) :=
  hs.give hsite ht (fun _ => rfl) rfl rfl rfl rfl rfl rfl rfl

/-- A worker is given the frame that waited for it. -/
theorem placed_takeBack (hs : Placed s site) (hsite : site f = .suspended)
    (hnext : (s.worker w).nextFrameFf = none) : Placed (takeBack s w f)
    (Function.update site f (.given w)) :=
  hs.give hsite hnext (fun _ => rfl) rfl rfl rfl rfl rfl rfl rfl

/-- A worker carries a frame that has returned from a call. -/
theorem placed_leaveCall (hs : Placed s site) (hrun : (s.worker w).phase = .running)
    (hf : (s.worker w).frameFf = some f) : Placed (leaveCall s w f)
    (Function.update site f (.carried w)) := by
  have hsite : site f = .running w := (hs.running w f).mp hf
  refine hs.relocate (hs.running_live hf) (by simp) rfl rfl ?_ ?_ ?_
    (place_same rfl (fun _ => rfl) rfl) hsite rfl rfl
  · exact hs.tracksRunning.leave (congrArg Worker.frameFf (if_pos rfl))
      (fun v hv => congrArg Worker.frameFf (if_neg hv)) hsite rfl rfl
  · exact hs.tracksGiven.aside (field_same Worker.nextFrameFf (fun _ => rfl) rfl) hsite rfl rfl
  · exact hs.tracksCarried.enter (by rw [hrun]; rfl)
      (congrArg (fun wk : Worker M => wk.phase.carries) (if_pos rfl))
      (fun v hv => congrArg (fun wk : Worker M => wk.phase.carries) (if_neg hv))
      hsite rfl rfl

/-- A worker goes on with the caller of the frame it carries. -/
theorem placed_finishCall (hs : Placed s site) (hwk : WorkersOk s) (hd : site d = .carried w)
    (hpsite : site p = .suspended) (hne : p ≠ d) : Placed (finishCall s w p d)
    (Function.update (Function.update site d .gone) p (.running w)) := by
  have hphase : (s.worker w).phase = .callReturning d := (hs.carried w d).mpr hd
  have hidle : (s.worker w).frameFf = none := hwk.idle (by rw [hphase]; rfl)
  have hdead : site d ≠ .gone := by simp [hd]
  -- the finished frame is gone when the caller is resumed
  have hmid : Function.update site d .gone p = .suspended := by
    rw [Function.update_of_ne hne]
    exact hpsite
  have hplive : Function.update site d .gone p ≠ .gone := by simp [hmid]
  have hplace : ∀ a, (finishCall s w p d).place a = s.place a :=
    place_same rfl (fun _ => rfl) rfl
  have hlives : Lives (finishCall s w p d).live (Function.update site d .gone) :=
    hs.lives.drop fun _ => rfl
  have hbelow : Below s.nextFrame (Function.update site d .gone) :=
    hs.below.relocate (hs.fresh d hdead)
  refine .of (hlives.relocate hplive (by simp)) (hbelow.relocate (hbelow p hplive)) ?_ ?_ ?_ ?_
    (hs.nodup_same hplace)
  · have hleft : Tracks (fun v => (s.worker v).frameFf) Site.runner
        (Function.update site d .gone) :=
      hs.tracksRunning.aside (fun _ => rfl) hd rfl rfl
    exact hleft.enter hidle (congrArg Worker.frameFf (if_pos rfl))
      (fun v hv => congrArg Worker.frameFf (if_neg hv)) hmid rfl rfl
  · have hleft : Tracks (fun v => ((finishCall s w p d).worker v).nextFrameFf) Site.receiver
        (Function.update site d .gone) :=
      hs.tracksGiven.aside (field_same Worker.nextFrameFf (fun _ => rfl) rfl) hd rfl rfl
    exact hleft.aside (fun _ => rfl) hmid rfl rfl
  · have hleft : Tracks (fun v => ((finishCall s w p d).worker v).phase.carries) Site.carrier
        (Function.update site d .gone) :=
      hs.tracksCarried.leave (congrArg (fun wk : Worker M => wk.phase.carries) (if_pos rfl))
        (fun v hv => congrArg (fun wk : Worker M => wk.phase.carries) (if_neg hv)) hd rfl rfl
    exact hleft.aside (fun _ => rfl) hmid rfl rfl
  · have hleft : Lists (finishCall s w p d).place (Function.update site d .gone) :=
      hs.lists.aside hplace hd rfl rfl
    exact hleft.aside (fun _ => rfl) hmid rfl rfl

/-- A worker resumes the frame it has been given. -/
theorem placed_resume (hs : Placed s site) (hwk : WorkersOk s)
    (hphase : (s.worker w).phase = .scheduling) (hnext : (s.worker w).nextFrameFf = some f) :
    Placed (resumeState s w f) (Function.update site f (.running w)) := by
  have hidle : (s.worker w).frameFf = none := hwk.idle (by rw [hphase]; rfl)
  have hsite : site f = .given w := (hs.given w f).mp hnext
  refine hs.relocate (by simp [hsite]) (by simp) rfl rfl ?_ ?_ ?_
    (place_same rfl (fun _ => rfl) rfl) hsite rfl rfl
  · exact hs.tracksRunning.enter hidle (congrArg Worker.frameFf (if_pos rfl))
      (fun v hv => congrArg Worker.frameFf (if_neg hv)) hsite rfl rfl
  · exact hs.tracksGiven.leave (congrArg Worker.nextFrameFf (if_pos rfl))
      (fun v hv => congrArg Worker.nextFrameFf (if_neg hv)) hsite rfl rfl
  · exact hs.tracksCarried.aside
      (field_same (fun wk => wk.phase.carries) (fun _ => rfl) (by rw [hphase]; rfl))
      hsite rfl rfl

/-- An initial frame has returned. -/
theorem placed_returnInitial (hs : Placed s site) (hrun : (s.worker w).phase = .running)
    (hf : (s.worker w).frameFf = some f) : Placed (returnInitial s w f)
    (Function.update site f .gone) :=
  hs.destroy hf (fun _ => rfl) (fun _ => rfl) rfl rfl rfl rfl (by rw [hrun]; rfl) rfl

/-- A thread has been bound. -/
theorem placed_bind [∀ k, Monoid (M k)] (hs : Placed s site) (hwk : WorkersOk s)
    (hfree : (s.worker u).type = .free) : Placed (bindThread s u code init)
    (Function.update site s.nextFrame (.running u)) := by
  have hphase : (s.worker u).phase = .unbound := (hwk.free u).mp hfree
  have hidle : (s.worker u).frameFf = none := hwk.idle (by rw [hphase]; rfl)
  have hnew : site s.nextFrame = .gone := hs.nextFrame
  rw [bindThread_closed]
  refine .of (hs.lives.make (fun _ => rfl) (by simp)) hs.below.make ?_ ?_ ?_
    (hs.lists.aside (place_same rfl (fun _ => rfl) rfl) hnew rfl rfl)
    (hs.nodup_same (place_same rfl (fun _ => rfl) rfl))
  · exact hs.tracksRunning.enter hidle (congrArg Worker.frameFf (if_pos rfl))
      (fun v hv => congrArg Worker.frameFf (if_neg hv)) hnew rfl rfl
  · exact hs.tracksGiven.aside (field_same Worker.nextFrameFf (fun _ => rfl) rfl) hnew rfl rfl
  · exact hs.tracksCarried.aside
      (field_same (fun wk => wk.phase.carries) (fun _ => rfl) (by rw [hphase]; rfl))
      hnew rfl rfl

end SwanRuntime.Runtime
