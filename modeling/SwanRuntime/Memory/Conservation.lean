import SwanRuntime.Memory.FrameMalloc
import SwanRuntime.Library.Transition

/-!
# Conservation of frames

Workers allocate and free frames in any order, each frame possibly on another
worker than the one that has allocated it. What a worker does to its own lists and
what it does under the lock of the global pool are separate steps, between which
other workers run. A worker that has been cleaned up is destroyed.

## Results

* `Conserved.step`           — a step keeps every frame in exactly one place, and
  the count of the bytes that are not on the global lists.
* `frameMalloc_conserved`    — so it is in every state of a run, and no leak is
  reported when everything has been freed.
-/

namespace SwanRuntime.Memory

open scoped BigOperators

-- ---------------------------------------------------------------------------
-- The system
-- ---------------------------------------------------------------------------

/-- Where a worker is: between calls, in the loop of `__cilkrts_frame_malloc`,
before `gc_bucket`, or in `__cilkrts_frame_malloc_per_worker_cleanup`. -/
inductive Phase
  | idle
  | allocating (size : Nat)
  | collecting (bucket : Bucket)
  | cleaning (next : Nat)
deriving DecidableEq

structure Worker where
  freeList        : Bucket → List Nat
  bucketPotential : Bucket → Nat
  phase           : Phase

/-- `__cilkrts_frame_malloc_per_worker_init`. -/
def Worker.init : Worker := ⟨fun _ => [], fun _ => 0, .idle⟩

/-- A frame in use, with the size that it was asked for. -/
structure Live where
  addr   : Nat
  size   : Nat
  bucket : Bucket
deriving DecidableEq

structure State where
  global  : Global
  workers : List Worker
  live    : List Live

/-- What a worker can do next. -/
inductive Action
  | malloc (size : Nat)
  | pop
  | allocateBatch
  | free (frame : Live) (size : Nat)
  | gcBucket
  | cleanup
  | moveBucket

/-- One step of a worker. -/
def WorkerStep (os : List Nat → Nat) (g : Global) (live : List Live) (w : Worker) :
    Action → Global → List Live → Worker → Prop
  | .malloc size, g', live', w' =>
    w.phase = .idle ∧ g' = g ∧ live' = live ∧
      -- if too large, fall back to `__cilkrts_malloc`
      w' = if size > frameMallocMaxSize then w else { w with phase := .allocating size }
  | .pop, g', live', w' =>
    ∃ size bucket mem rest, w.phase = .allocating size ∧ bucketOfSize size = some bucket ∧
      w.freeList bucket = mem :: rest ∧ g' = g ∧ live' = ⟨mem, size, bucket⟩ :: live ∧
      w' = { w with freeList := Function.update w.freeList bucket rest, phase := .idle }
  | .allocateBatch, g', live', w' =>
    ∃ size bucket freeList potential, w.phase = .allocating size ∧
      bucketOfSize size = some bucket ∧ w.freeList bucket = [] ∧ live' = live ∧
      g.allocateBatch os bucket 0 [] (w.bucketPotential bucket) = .ok (g', freeList, potential) ∧
      w' = { w with
        freeList := Function.update w.freeList bucket freeList
        bucketPotential := Function.update w.bucketPotential bucket potential }
  | .free frame size, g', live', w' =>
    w.phase = .idle ∧ frame ∈ live ∧ bucketOfSize size = some frame.bucket ∧ g' = g ∧
      live' = live.erase frame ∧
      let potential := w.bucketPotential frame.bucket + bucketToSize frame.bucket
      w' = {
        freeList := Function.update w.freeList frame.bucket
          (frame.addr :: w.freeList frame.bucket)
        bucketPotential := Function.update w.bucketPotential frame.bucket potential
        phase := if potential > potentialLimit then .collecting frame.bucket else .idle }
  | .gcBucket, g', live', w' =>
    ∃ bucket, w.phase = .collecting bucket ∧ live' = live ∧
      let out := g.gcBucket bucket (w.freeList bucket) (w.bucketPotential bucket)
      g' = out.1 ∧ w' = {
        freeList := Function.update w.freeList bucket out.2.1
        bucketPotential := Function.update w.bucketPotential bucket out.2.2
        phase := .idle }
  | .cleanup, g', live', w' =>
    w.phase = .idle ∧ g' = g ∧ live' = live ∧ w' = { w with phase := .cleaning 0 }
  | .moveBucket, g', live', w' =>
    -- the list of the worker is not reset, but nothing reads it any more
    ∃ bucket : Bucket, w.phase = .cleaning bucket ∧ live' = live ∧
      g' = g.globalFreeAll bucket (w.freeList bucket) ∧ w' = {
        freeList := Function.update w.freeList bucket []
        bucketPotential := Function.update w.bucketPotential bucket 0
        phase := .cleaning (bucket + 1) }

/-- A new worker, a step of a worker, or the end of one that has been cleaned up. -/
inductive Event
  | makeWorker
  | act (i : Nat) (action : Action)
  | destroyWorker (i : Nat)

def Step (os : List Nat → Nat) (s : State) : Event → State → Prop
  | .makeWorker, t => t = { s with workers := s.workers ++ [.init] }
  | .act i action, t =>
    ∃ before w after w', s.workers = before ++ w :: after ∧ before.length = i ∧
      WorkerStep os s.global s.live w action t.global t.live w' ∧
      t.workers = before ++ w' :: after
  | .destroyWorker i, t =>
    ∃ before w after, s.workers = before ++ w :: after ∧ before.length = i ∧
      w.phase = .cleaning 6 ∧ t = { s with workers := before ++ after }

/-- The allocator with any number of workers, before anything has been
allocated. -/
def system (os : List Nat → Nat) : LTS State Event where
  init s := ∃ n, s = ⟨.init, List.replicate n .init, []⟩
  step := Step os

-- ---------------------------------------------------------------------------
-- The property
-- ---------------------------------------------------------------------------

/-- The frames of a bucket that are in use. -/
def liveOf (live : List Live) (b : Bucket) : List Nat :=
  (live.filter fun x => x.bucket = b).map (·.addr)

/-- The frames of a bucket that are not on the global list. -/
def State.outside (s : State) (b : Bucket) : List Nat :=
  s.workers.flatMap (·.freeList b) ++ liveOf s.live b

/-- The frames that have been cut are those on the global lists, those on the
lists of the workers and those in use, each in one place; their bytes are
accounted for. -/
structure Conserved (s : State) : Prop where
  pool      : Pool s.global
  union     : ∀ b, (s.global.carved b).Perm (s.global.globalFreeList b ++ s.outside b)
  fits      : ∀ x ∈ s.live, x.size ≤ bucketToSize x.bucket
  allocated : s.global.allocatedFromGlobalPool =
    (∑ b : Bucket, bucketToSize b * (s.outside b).length : Nat)

/-- A worker whose cleanup has passed a bucket has no frames left there. -/
def Worker.Emptied (w : Worker) : Prop :=
  ∀ k, w.phase = .cleaning k → ∀ b : Bucket, b.val < k → w.freeList b = []

/-- What is kept by a step. -/
structure Kept (s : State) : Prop extends Conserved s where
  emptied : ∀ w ∈ s.workers, w.Emptied

-- ---------------------------------------------------------------------------
-- One step
-- ---------------------------------------------------------------------------

section Step

variable {os : List Nat → Nat} {s t : State}

/-- The frames outside of the global list, one worker's first. -/
theorem outside_perm {before after : List Worker} {w : Worker}
    (hs : s.workers = before ++ w :: after) (b : Bucket) :
    (s.outside b).Perm
      (w.freeList b ++ ((before ++ after).flatMap (·.freeList b) ++ liveOf s.live b)) := by
  unfold State.outside
  rw [hs, ← List.append_assoc]
  refine List.Perm.append_right _ ?_
  simp only [List.flatMap_append, List.flatMap_cons]
  exact List.perm_append_comm_assoc _ _ _

/-- A step that concerns one bucket. -/
theorem Conserved.of_bucket (h : Conserved s) (b : Bucket) (hpool : Pool t.global)
    (hother : ∀ b', b' ≠ b → t.global.carved b' = s.global.carved b' ∧
      t.global.globalFreeList b' = s.global.globalFreeList b' ∧
      (t.outside b').Perm (s.outside b'))
    (hunion : (t.global.carved b).Perm (t.global.globalFreeList b ++ t.outside b))
    (hfits : ∀ x ∈ t.live, x.size ≤ bucketToSize x.bucket)
    (halloc : t.global.allocatedFromGlobalPool + (bucketToSize b * (s.outside b).length : Nat) =
      s.global.allocatedFromGlobalPool + (bucketToSize b * (t.outside b).length : Nat)) :
    Conserved t := by
  refine ⟨hpool, fun b' => ?_, hfits, ?_⟩
  · by_cases hb : b' = b
    · rw [hb]
      exact hunion
    · obtain ⟨hcarved, hfree, hout⟩ := hother b' hb
      rw [hcarved, hfree]
      exact (h.union b').trans (hout.symm.append_left _)
  · have hsum := @sum_change (fun b => bucketToSize b * (s.outside b).length)
      (fun b => bucketToSize b * (t.outside b).length) b fun b' hb' => by
        simp only [(hother b' hb').2.2.length_eq]
    have hold := h.allocated
    omega

/-- A step that moves frames between places outside of the global list. -/
theorem Conserved.of_outside (h : Conserved s) (hglobal : t.global = s.global)
    (hout : ∀ b, (t.outside b).Perm (s.outside b))
    (hfits : ∀ x ∈ t.live, x.size ≤ bucketToSize x.bucket) : Conserved t := by
  refine ⟨hglobal ▸ h.pool, fun b => ?_, hfits, ?_⟩
  · rw [hglobal]
    exact (h.union b).trans ((hout b).symm.append_left _)
  · rw [hglobal, h.allocated]
    simp only [(hout _).length_eq]

/-- A worker takes or gives frames of a bucket. -/
theorem Conserved.of_worker (h : Conserved s) {before after : List Worker} {w w' : Worker}
    (hs : s.workers = before ++ w :: after) (ht : t.workers = before ++ w' :: after)
    (hlive : t.live = s.live) (b : Bucket) (hpool : Pool t.global)
    (hother : ∀ b', b' ≠ b → t.global.carved b' = s.global.carved b' ∧
      t.global.globalFreeList b' = s.global.globalFreeList b' ∧ w'.freeList b' = w.freeList b')
    (hunion : ∀ rest, (s.global.carved b).Perm
        (s.global.globalFreeList b ++ (w.freeList b ++ rest)) →
      (t.global.carved b).Perm (t.global.globalFreeList b ++ (w'.freeList b ++ rest)))
    (halloc : t.global.allocatedFromGlobalPool + (bucketToSize b * (w.freeList b).length : Nat) =
      s.global.allocatedFromGlobalPool + (bucketToSize b * (w'.freeList b).length : Nat)) :
    Conserved t := by
  refine h.of_bucket b hpool (fun b' hb' => ?_) ?_ (hlive ▸ h.fits) ?_
  · obtain ⟨hcarved, hfree, hlist⟩ := hother b' hb'
    refine ⟨hcarved, hfree, (outside_perm ht b').trans ?_⟩
    rw [hlist, hlive]
    exact (outside_perm hs b').symm
  · have hold := (h.union b).trans ((outside_perm hs b).append_left _)
    refine (hunion _ hold).trans (List.Perm.append_left _ ?_)
    rw [← hlive]
    exact (outside_perm ht b).symm
  · have hlen := (outside_perm hs b).length_eq
    have hlen' := (outside_perm ht b).length_eq
    rw [List.length_append] at hlen hlen'
    rw [hlive] at hlen'
    rw [hlen, hlen', Nat.mul_add, Nat.mul_add]
    omega

theorem liveOf_cons (x : Live) (live : List Live) (b : Bucket) :
    liveOf (x :: live) b = if x.bucket = b then x.addr :: liveOf live b else liveOf live b := by
  unfold liveOf
  by_cases hb : x.bucket = b <;> simp [hb]

theorem liveOf_perm {live live' : List Live} (h : live.Perm live') (b : Bucket) :
    (liveOf live b).Perm (liveOf live' b) := (h.filter _).map _

/-- A frame goes from a worker's list into use. -/
theorem take_perm {lists : Bucket → List Nat} {rest : List Nat} {x : Live}
    (hlist : lists x.bucket = x.addr :: rest) (others : List Nat) (live : List Live) (b : Bucket) :
    (Function.update lists x.bucket rest b ++ (others ++ liveOf (x :: live) b)).Perm
      (lists b ++ (others ++ liveOf live b)) := by
  rw [liveOf_cons]
  by_cases hb : x.bucket = b
  · subst hb
    rw [Function.update_self, if_pos rfl, hlist, List.cons_append, ← List.append_assoc,
      ← List.append_assoc]
    exact List.perm_middle
  · rw [Function.update_of_ne (Ne.symm hb), if_neg hb]

/-- A step of a worker keeps every frame in its place or moves it to another. -/
theorem Conserved.act (h : Conserved s) (hos : FreshChunks os) {before after : List Worker}
    {w w' : Worker} {action : Action} (hs : s.workers = before ++ w :: after)
    (hstep : WorkerStep os s.global s.live w action t.global t.live w')
    (ht : t.workers = before ++ w' :: after) : Conserved t := by
  -- a step after which the worker has the same frames
  have hsame : t.global = s.global → t.live = s.live → w'.freeList = w.freeList → Conserved t := by
    intro hglobal hlive hlist
    refine h.of_outside hglobal (fun b => ?_) (hlive ▸ h.fits)
    refine (outside_perm ht b).trans ?_
    rw [hlist, hlive]
    exact (outside_perm hs b).symm
  cases action with
  | malloc size =>
    obtain ⟨-, hglobal, hlive, rfl⟩ := hstep
    refine hsame hglobal hlive ?_
    split <;> rfl
  | pop =>
    -- from the list of the worker to those in use
    obtain ⟨size, bucket, mem, rest, -, hbucket, hlist, hglobal, hlive, rfl⟩ := hstep
    refine h.of_outside hglobal (fun b => ?_) fun x hx => ?_
    · refine ((outside_perm ht b).trans ?_).trans (outside_perm hs b).symm
      rw [hlive]
      exact @take_perm _ rest ⟨mem, size, bucket⟩ hlist _ s.live b
    · rw [hlive] at hx
      rcases List.mem_cons.mp hx with rfl | hx
      · exact bucketOfSize_spec hbucket
      · exact h.fits x hx
  | allocateBatch =>
    -- from the global pool to the empty list of the worker
    obtain ⟨size, bucket, freeList, potential, -, -, hempty, hlive, hrun, rfl⟩ := hstep
    obtain ⟨g', frames, potential', hrun', -, hpool, htakes⟩ :=
      allocateBatch_ok h.pool hos bucket 0 [] (w.bucketPotential bucket)
    obtain ⟨hg, hout⟩ := Prod.mk.inj (Except.ok.inj (hrun.symm.trans hrun'))
    obtain ⟨rfl, rfl⟩ := Prod.mk.inj hout
    subst hg
    refine h.of_worker hs ht hlive bucket hpool (fun b' hb' => ?_) (fun rest hperm => ?_) ?_
    · exact ⟨(htakes.other b' hb').1, (htakes.other b' hb').2, Function.update_of_ne hb' _ _⟩
    · rw [hempty] at hperm
      show (t.global.carved bucket).Perm (t.global.globalFreeList bucket ++
        (Function.update w.freeList bucket (frames ++ []) bucket ++ rest))
      rw [Function.update_self, List.append_nil]
      exact htakes.union rest hperm
    · show t.global.allocatedFromGlobalPool + _ = s.global.allocatedFromGlobalPool +
        (bucketToSize bucket *
          (Function.update w.freeList bucket (frames ++ []) bucket).length : Nat)
      rw [Function.update_self, List.append_nil, hempty, htakes.allocated]
      simp
  | free frame size =>
    -- from those in use to the list of the worker
    obtain ⟨-, hmem, -, hglobal, hlive, rfl⟩ := hstep
    refine h.of_outside hglobal (fun b => ?_) fun x hx => ?_
    · refine ((outside_perm ht b).trans ?_).trans (outside_perm hs b).symm
      rw [hlive]
      have hback := @take_perm
        (Function.update w.freeList frame.bucket (frame.addr :: w.freeList frame.bucket)) _ frame
        (Function.update_self _ _ _) ((before ++ after).flatMap (·.freeList b))
        (s.live.erase frame) b
      rw [Function.update_idem, Function.update_eq_self] at hback
      refine hback.symm.trans ?_
      exact ((liveOf_perm (List.perm_cons_erase hmem).symm b).append_left _).append_left _
    · rw [hlive] at hx
      exact h.fits x (List.mem_of_mem_erase hx)
  | gcBucket =>
    obtain ⟨bucket, -, hlive, hg, rfl⟩ := hstep
    -- from the list of the worker to the global one, in part
    obtain ⟨freed, hsplit, hgives⟩ := gcBucket_gives s.global bucket (w.freeList bucket)
      (w.bucketPotential bucket)
    rw [← hg] at hgives
    generalize (s.global.gcBucket bucket (w.freeList bucket) (w.bucketPotential bucket)).2 = out
      at hsplit ht
    refine h.of_worker hs ht hlive bucket (hgives.pool h.pool) (fun b' hb' => ?_)
      (fun rest hperm => ?_) ?_
    · exact ⟨congrFun hgives.carved b', hgives.other b' hb', Function.update_of_ne hb' _ _⟩
    · show (t.global.carved bucket).Perm (t.global.globalFreeList bucket ++
        (Function.update w.freeList bucket out.1 bucket ++ rest))
      rw [Function.update_self]
      refine hgives.union _ (hperm.trans (List.Perm.append_left _ ?_))
      rw [hsplit, List.append_assoc]
      exact List.perm_append_comm_assoc _ _ _
    · show t.global.allocatedFromGlobalPool + _ = s.global.allocatedFromGlobalPool +
        (bucketToSize bucket * (Function.update w.freeList bucket out.1 bucket).length : Nat)
      rw [Function.update_self, ← hgives.allocated, hsplit, List.length_append, Nat.mul_add]
      omega
  | cleanup =>
    obtain ⟨-, hglobal, hlive, rfl⟩ := hstep
    exact hsame hglobal hlive rfl
  | moveBucket =>
    obtain ⟨bucket, -, hlive, hg, rfl⟩ := hstep
    -- from the list of the worker to the global one, all of it
    have hgives := globalFreeAll_gives s.global bucket (w.freeList bucket)
    rw [← hg] at hgives
    refine h.of_worker hs ht hlive bucket (hgives.pool h.pool) (fun b' hb' => ?_)
      (fun rest hperm => ?_) ?_
    · exact ⟨congrFun hgives.carved b', hgives.other b' hb', Function.update_of_ne hb' _ _⟩
    · show (t.global.carved bucket).Perm (t.global.globalFreeList bucket ++
        (Function.update w.freeList bucket [] bucket ++ rest))
      rw [Function.update_self, List.nil_append]
      exact hgives.union rest hperm
    · show t.global.allocatedFromGlobalPool + _ = s.global.allocatedFromGlobalPool +
        (bucketToSize bucket * (Function.update w.freeList bucket [] bucket).length : Nat)
      rw [Function.update_self, hgives.allocated]
      simp

theorem WorkerStep.emptied {g g' : Global} {live live' : List Live} {w w' : Worker}
    {action : Action} (h : w.Emptied) (hstep : WorkerStep os g live w action g' live' w') :
    w'.Emptied := by
  intro k hk b hb
  cases action with
  | malloc size =>
    obtain ⟨hidle, -, -, rfl⟩ := hstep
    split at hk
    · exact nomatch hidle.symm.trans hk
    · exact nomatch hk
  | pop =>
    obtain ⟨_, _, _, _, -, -, -, -, -, rfl⟩ := hstep
    exact nomatch hk
  | allocateBatch =>
    obtain ⟨_, _, _, _, hphase, -, -, -, -, rfl⟩ := hstep
    exact nomatch hphase.symm.trans hk
  | free frame size =>
    obtain ⟨-, -, -, -, -, rfl⟩ := hstep
    dsimp only at hk
    split at hk <;> exact nomatch hk
  | gcBucket =>
    obtain ⟨_, -, -, -, rfl⟩ := hstep
    exact nomatch hk
  | cleanup =>
    obtain ⟨-, -, -, rfl⟩ := hstep
    obtain rfl := Phase.cleaning.inj hk
    exact absurd hb (Nat.not_lt_zero _)
  | moveBucket =>
    obtain ⟨bucket, hphase, -, -, rfl⟩ := hstep
    obtain rfl := Phase.cleaning.inj hk
    show Function.update w.freeList bucket [] b = []
    by_cases heq : b = bucket
    · rw [heq, Function.update_self]
    · rw [Function.update_of_ne heq]
      have hne : b.val ≠ bucket.val := fun hval => heq (Fin.ext hval)
      exact h bucket hphase b (by omega)

theorem Conserved.outside_nodup (h : Conserved s) (b : Bucket) : (s.outside b).Nodup :=
  ((h.union b).nodup_iff.mp (h.pool.nodup b)).of_append_right

/-- A step keeps every frame in one place. -/
theorem Kept.step (h : Kept s) (hos : FreshChunks os) {e : Event} (hstep : Step os s e t) :
    Kept t := by
  cases e with
  | makeWorker =>
    obtain rfl := hstep
    refine ⟨h.toConserved.of_outside rfl (fun b => ?_) h.fits, fun w hw => ?_⟩
    · simp [State.outside, Worker.init]
    · rcases List.mem_append.mp hw with hw | hw
      · exact h.emptied w hw
      · rw [List.mem_singleton.mp hw]
        exact nofun
  | act i action =>
    obtain ⟨before, w, after, w', hs, -, hact, ht⟩ := hstep
    refine ⟨h.toConserved.act hos hs hact ht, fun x hx => ?_⟩
    have hold : ∀ x, x ∈ before ∨ x = w ∨ x ∈ after → x.Emptied := by
      intro x hx
      refine h.emptied x ?_
      rw [hs, List.mem_append, List.mem_cons]
      exact hx
    rw [ht, List.mem_append, List.mem_cons] at hx
    rcases hx with hx | rfl | hx
    · exact hold x (Or.inl hx)
    · exact hact.emptied (hold w (Or.inr (Or.inl rfl)))
    · exact hold x (Or.inr (Or.inr hx))
  | destroyWorker i =>
    obtain ⟨before, w, after, hs, -, hphase, rfl⟩ := hstep
    have hw : w.Emptied := h.emptied w (by simp [hs])
    have hnone : ∀ b, w.freeList b = [] := fun b => hw 6 hphase b b.isLt
    refine ⟨h.toConserved.of_outside rfl (fun b => ?_) h.fits, fun x hx => h.emptied x ?_⟩
    · have hperm := outside_perm hs b
      rw [hnone, List.nil_append] at hperm
      exact hperm.symm
    · rw [hs]
      rcases List.mem_append.mp hx with hx | hx
      · exact List.mem_append_left _ hx
      · exact List.mem_append_right _ (List.mem_cons_of_mem _ hx)

/-- No two frames in use overlap. -/
theorem Conserved.live_apart (h : Conserved s) : s.live.Pairwise fun x y =>
    Apart x.addr (bucketToSize x.bucket) y.addr (bucketToSize y.bucket) := by
  have hcarved : ∀ x ∈ s.live, x.addr ∈ s.global.carved x.bucket := by
    intro x hx
    refine (h.union x.bucket).mem_iff.mpr (List.mem_append_right _ (List.mem_append_right _ ?_))
    exact List.mem_map.mpr ⟨x, List.mem_filter.mpr ⟨hx, by simp⟩, rfl⟩
  have hnodup : ∀ b, (liveOf s.live b).Nodup := fun b => (h.outside_nodup b).of_append_right
  -- no frame is in use twice
  have hapart : s.live.Pairwise fun x y => x.bucket = y.bucket → x.addr ≠ y.addr := by
    generalize s.live = live at hnodup
    induction live with
    | nil => exact List.Pairwise.nil
    | cons x live ih =>
      refine List.Pairwise.cons (fun y hy hbucket haddr => ?_) (ih fun b => ?_)
      · have hx := hnodup x.bucket
        rw [liveOf_cons, if_pos rfl, List.nodup_cons] at hx
        refine hx.1 (List.mem_map.mpr ⟨y, List.mem_filter.mpr ⟨hy, ?_⟩, haddr.symm⟩)
        exact decide_eq_true hbucket.symm
      · have hx := hnodup b
        rw [liveOf_cons] at hx
        split at hx
        · exact (List.nodup_cons.mp hx).2
        · exact hx
  refine List.Pairwise.imp_of_mem (fun {x y} hx hy hne => ?_) hapart
  rcases h.pool.disjoint x.bucket y.bucket x.addr y.addr (hcarved x hx) (hcarved y hy) with
    ⟨haddr, hbucket⟩ | hdisjoint
  · exact absurd haddr (hne hbucket)
  · exact hdisjoint

end Step

-- ---------------------------------------------------------------------------
-- Whole runs
-- ---------------------------------------------------------------------------

section Runs

variable {os : List Nat → Nat} {s : State}

theorem kept_init (h : (system os).init s) : Kept s := by
  obtain ⟨n, rfl⟩ := h
  have hout : ∀ b, State.outside ⟨.init, List.replicate n .init, []⟩ b = [] := by
    intro b
    have hlists : (List.replicate n Worker.init).flatMap (·.freeList b) = [] := by
      rw [List.flatMap_eq_nil_iff]
      intro w hw
      rw [(List.mem_replicate.mp hw).2]
      rfl
    unfold State.outside
    rw [hlists]
    rfl
  refine ⟨⟨pool_init, fun b => ?_, nofun, ?_⟩, fun w hw => ?_⟩
  · rw [hout]
    exact List.Perm.refl _
  · simp only [hout, List.length_nil, Nat.mul_zero, Finset.sum_const_zero]
    rfl
  · rw [(List.mem_replicate.mp hw).2]
    exact nofun

/-- When everything has been freed and all workers are gone, no leak is reported. -/
theorem Conserved.cleanup_ok (h : Conserved s) (hlive : s.live = []) (hworkers : s.workers = []) :
    s.global.allocatedFromGlobalPool = 0 ∧ s.global.cleanup = .ok () := by
  have hout : ∀ b, s.outside b = [] := by
    intro b
    unfold State.outside
    rw [hlive, hworkers]
    rfl
  have hzero : s.global.allocatedFromGlobalPool = 0 := by
    rw [h.allocated]
    simp only [hout, List.length_nil, Nat.mul_zero, Finset.sum_const_zero]
    rfl
  have hcount : s.global.countMemoryInGlobalList ≤ s.global.allocatedFromOs := by
    have hlen : ∀ b, (s.global.globalFreeList b).length = (s.global.carved b).length := by
      intro b
      rw [(h.union b).length_eq, hout, List.append_nil]
    have hbytes := h.pool.bytes
    unfold Global.countMemoryInGlobalList
    simp only [hlen]
    omega
  refine ⟨hzero, ?_⟩
  unfold Global.cleanup
  rw [if_neg (Nat.not_lt.mpr hcount), hzero]
  rfl

/-- In every state of every run, the frames cut from the chunks are those on the
global lists, on the lists of the workers and in use, each in one place; the frames
in use do not overlap and are large enough; and the bytes not on the global lists
are counted. When all frames and workers are gone, the count is 0 and the cleanup
reports nothing. -/
theorem frameMalloc_conserved (hos : FreshChunks os) {tr : List (Event × State)}
    (hinit : (system os).init s) (hpath : (system os).IsPath s tr) :
    ∀ p ∈ tr, Conserved p.2 ∧
      (p.2.live.Pairwise fun x y =>
        Apart x.addr (bucketToSize x.bucket) y.addr (bucketToSize y.bucket)) ∧
      (p.2.live = [] → p.2.workers = [] →
        p.2.global.allocatedFromGlobalPool = 0 ∧ p.2.global.cleanup = .ok ()) := by
  intro p hp
  have hkept := LTS.invariant_along (P := Kept) (fun _ _ _ h hstep => h.step hos hstep)
    (kept_init hinit) hpath p hp
  exact ⟨hkept.toConserved, hkept.live_apart, hkept.cleanup_ok⟩

end Runs

/-- A `malloc` that puts every chunk behind those before it. -/
def nextChunk (chunks : List Nat) : Nat := chunks.foldr max 0 + frameMallocChunk

theorem nextChunk_fresh : FreshChunks nextChunk := by
  intro chunks c hc
  right
  have hle : c ≤ chunks.foldr max 0 := by
    induction chunks with
    | nil => exact absurd hc List.not_mem_nil
    | cons d chunks ih =>
      rcases List.mem_cons.mp hc with rfl | hc
      · exact Nat.le_max_left _ _
      · exact Nat.le_trans (ih hc) (Nat.le_max_right _ _)
  unfold nextChunk
  omega

/-- The loop of `allocate_batch`, for at most `fuel` frames. -/
def batchExec (os : List Nat → Nat) (bucket : Bucket) :
    Nat → Global → Nat → List Nat → Nat → Option (Global × List Nat × Nat)
  | 0, _, _, _, _ => none
  | fuel + 1, g, bytesAllocated, freeList, potential =>
    match g.globalAlloc os bucket with
    | .error _ => none
    | .ok (mem, g) =>
      if bytesAllocated + bucketToSize bucket < batchSize then
        batchExec os bucket fuel g (bytesAllocated + bucketToSize bucket) (mem :: freeList)
          (potential + bucketToSize bucket)
      else some (g, mem :: freeList, potential + bucketToSize bucket)

theorem allocateBatch_of_exec {os : List Nat → Nat} {bucket : Bucket} {fuel : Nat} {g : Global}
    {bytesAllocated : Nat} {freeList : List Nat} {potential : Nat}
    {out : Global × List Nat × Nat}
    (h : batchExec os bucket fuel g bytesAllocated freeList potential = some out) :
    g.allocateBatch os bucket bytesAllocated freeList potential = .ok out := by
  induction fuel generalizing g bytesAllocated freeList potential with
  | zero => cases h
  | succ fuel ih =>
    unfold batchExec at h
    rw [Global.allocateBatch]
    cases hmem : g.globalAlloc os bucket with
    | error e =>
      rw [hmem] at h
      cases h
    | ok r =>
      rw [hmem] at h
      rw [Checked.ok_bind]
      dsimp only at h ⊢
      by_cases hmore : bytesAllocated + bucketToSize bucket < batchSize
      · rw [if_pos hmore] at h ⊢
        exact ih h
      · rw [if_neg hmore] at h ⊢
        exact congrArg Except.ok (Option.some.inj h)

/-- A step of a worker. -/
def workerExec (os : List Nat → Nat) (g : Global) (live : List Live) (w : Worker) :
    Action → Option (Global × List Live × Worker)
  | .malloc size =>
    if w.phase = .idle then
      some (g, live, if size > frameMallocMaxSize then w else { w with phase := .allocating size })
    else none
  | .pop =>
    match w.phase with
    | .allocating size => do
      let bucket ← bucketOfSize size
      match w.freeList bucket with
      | [] => none
      | mem :: rest =>
        some (g, ⟨mem, size, bucket⟩ :: live,
          { w with freeList := Function.update w.freeList bucket rest, phase := .idle })
    | _ => none
  | .allocateBatch =>
    match w.phase with
    | .allocating size => do
      let bucket ← bucketOfSize size
      if w.freeList bucket = [] then
        let (g, freeList, potential) ← batchExec os bucket 126 g 0 [] (w.bucketPotential bucket)
        some (g, live, { w with
          freeList := Function.update w.freeList bucket freeList
          bucketPotential := Function.update w.bucketPotential bucket potential })
      else none
    | _ => none
  | .free frame size =>
    let potential := w.bucketPotential frame.bucket + bucketToSize frame.bucket
    if w.phase = .idle ∧ frame ∈ live ∧ bucketOfSize size = some frame.bucket then
      some (g, live.erase frame, {
        freeList := Function.update w.freeList frame.bucket
          (frame.addr :: w.freeList frame.bucket)
        bucketPotential := Function.update w.bucketPotential frame.bucket potential
        phase := if potential > potentialLimit then .collecting frame.bucket else .idle })
    else none
  | .gcBucket =>
    match w.phase with
    | .collecting bucket =>
      let (g, freeList, potential) :=
        g.gcBucket bucket (w.freeList bucket) (w.bucketPotential bucket)
      some (g, live, {
        freeList := Function.update w.freeList bucket freeList
        bucketPotential := Function.update w.bucketPotential bucket potential
        phase := .idle })
    | _ => none
  | .cleanup =>
    if w.phase = .idle then some (g, live, { w with phase := .cleaning 0 }) else none
  | .moveBucket =>
    match w.phase with
    | .cleaning next =>
      if h : next < 6 then
        let bucket : Bucket := ⟨next, h⟩
        some (g.globalFreeAll bucket (w.freeList bucket), live, {
          freeList := Function.update w.freeList bucket []
          bucketPotential := Function.update w.bucketPotential bucket 0
          phase := .cleaning (bucket + 1) })
      else none
    | _ => none

theorem workerExec_step {os : List Nat → Nat} {g g' : Global} {live live' : List Live}
    {w w' : Worker} {action : Action} (h : workerExec os g live w action = some (g', live', w')) :
    WorkerStep os g live w action g' live' w' := by
  cases action with
  | malloc size =>
    simp only [workerExec] at h
    split at h
    · rename_i hidle
      obtain ⟨rfl, rfl, rfl⟩ : g = g' ∧ live = live' ∧ _ = w' := by simpa using h
      exact ⟨hidle, rfl, rfl, rfl⟩
    · cases h
  | pop =>
    simp only [workerExec] at h
    split at h
    · rename_i size hphase
      obtain ⟨bucket, hbucket, h⟩ := Option.bind_eq_some_iff.mp h
      split at h
      · cases h
      · rename_i mem rest hlist
        obtain ⟨rfl, rfl, rfl⟩ : g = g' ∧ _ = live' ∧ _ = w' := by simpa using h
        exact ⟨size, bucket, mem, rest, hphase, hbucket, hlist, rfl, rfl, rfl⟩
    · cases h
  | allocateBatch =>
    simp only [workerExec] at h
    split at h
    · rename_i size hphase
      obtain ⟨bucket, hbucket, h⟩ := Option.bind_eq_some_iff.mp h
      split at h
      · rename_i hnil
        obtain ⟨⟨g₁, freeList, potential⟩, hbatch, h⟩ := Option.bind_eq_some_iff.mp h
        obtain ⟨rfl, rfl, rfl⟩ : g₁ = g' ∧ live = live' ∧ _ = w' := by simpa using h
        exact ⟨size, bucket, freeList, potential, hphase, hbucket, hnil, rfl,
          allocateBatch_of_exec hbatch, rfl⟩
      · cases h
    · cases h
  | free frame size =>
    simp only [workerExec] at h
    split at h
    · rename_i hcan
      obtain ⟨rfl, rfl, rfl⟩ : g = g' ∧ live.erase frame = live' ∧ _ = w' := by simpa using h
      exact ⟨hcan.1, hcan.2.1, hcan.2.2, rfl, rfl, rfl⟩
    · cases h
  | gcBucket =>
    simp only [workerExec] at h
    split at h
    · rename_i bucket hphase
      obtain ⟨rfl, rfl, rfl⟩ : _ = g' ∧ live = live' ∧ _ = w' := by simpa using h
      exact ⟨bucket, hphase, rfl, rfl, rfl⟩
    · cases h
  | cleanup =>
    simp only [workerExec] at h
    split at h
    · rename_i hidle
      obtain ⟨rfl, rfl, rfl⟩ : g = g' ∧ live = live' ∧ _ = w' := by simpa using h
      exact ⟨hidle, rfl, rfl, rfl⟩
    · cases h
  | moveBucket =>
    simp only [workerExec] at h
    split at h
    · rename_i next hphase
      split at h
      · rename_i hlt
        obtain ⟨rfl, rfl, rfl⟩ : _ = g' ∧ live = live' ∧ _ = w' := by simpa using h
        exact ⟨⟨next, hlt⟩, hphase, rfl, rfl, rfl⟩
      · cases h
    · cases h

/-- A step of one of the workers. -/
def exec (os : List Nat → Nat) (s : State) : Event → Option State
  | .act i action =>
    match s.workers.drop i with
    | [] => none
    | w :: after => do
      let (g, live, w) ← workerExec os s.global s.live w action
      some ⟨g, s.workers.take i ++ w :: after, live⟩
  | .makeWorker => some { s with workers := s.workers ++ [.init] }
  | .destroyWorker i =>
    match s.workers.drop i with
    | [] => none
    | w :: after =>
      if w.phase = .cleaning 6 then some { s with workers := s.workers.take i ++ after } else none

/-- A worker, with those before and behind it. -/
theorem workers_split {s : State} {i : Nat} {w : Worker} {after : List Worker}
    (h : s.workers.drop i = w :: after) :
    s.workers = s.workers.take i ++ w :: after ∧ (s.workers.take i).length = i := by
  have hlt : i < s.workers.length := by
    rw [← not_le, ← List.drop_eq_nil_iff, h]
    exact List.cons_ne_nil w after
  rw [← h, List.take_append_drop, List.length_take]
  exact ⟨rfl, by omega⟩

theorem exec_step {os : List Nat → Nat} (s : State) (e : Event) (t : State)
    (h : exec os s e = some t) : (system os).step s e t := by
  cases e with
  | makeWorker => exact (Option.some.inj h).symm
  | act i action =>
    simp only [exec] at h
    split at h
    · cases h
    · rename_i w after hdrop
      obtain ⟨⟨g, live, w'⟩, hstep, h⟩ := Option.bind_eq_some_iff.mp h
      obtain rfl := Option.some.inj h
      obtain ⟨hsplit, hlen⟩ := workers_split hdrop
      exact ⟨_, w, after, w', hsplit, hlen, workerExec_step hstep, rfl⟩
  | destroyWorker i =>
    simp only [exec] at h
    split at h
    · cases h
    · rename_i w after hdrop
      split at h
      · rename_i hphase
        obtain ⟨hsplit, hlen⟩ := workers_split hdrop
        exact ⟨_, w, after, hsplit, hlen, hphase, (Option.some.inj h).symm⟩
      · cases h

/-- The frames of 2048 bytes that worker 0 gets, in order: batches of four, the
last one of a chunk first. The sixteenth frame is cut from a new chunk. -/
def exampleFrames : List Live :=
  [38784, 36736, 34688, 32640, 46976, 44928, 42880, 40832, 55168, 53120, 51072, 49024, 65280,
    61312, 59264, 57216].map fun addr => ⟨addr, 2048, 5⟩

/-- Worker 0 gets the frames, and worker 1 frees them one after the other. -/
def handOver : List Live → Nat → List Event
  | [], _ => []
  | frame :: frames, k =>
    .act 0 (.malloc 2048) :: (if k % 4 = 0 then [.act 0 .allocateBatch] else []) ++
      [.act 0 .pop, .act 1 (.free frame 2048)] ++ handOver frames (k + 1)

/-- Then worker 1 collects its list, and worker 0 gets two frames of what has been
given back to the global list. -/
def exampleCollect : List Event :=
  [.act 1 .gcBucket, .act 0 (.malloc 1500), .act 0 .allocateBatch, .act 0 .pop,
    .act 0 (.malloc 2048), .act 0 .pop]

/-- Both are freed, and the workers are cleaned up and destroyed. -/
def exampleCleanup : List Event :=
  [.act 1 (.free ⟨32640, 1500, 5⟩ 1500), .act 0 (.free ⟨34688, 2048, 5⟩ 2048),
    .act 0 .gcBucket] ++
    (.act 0 .cleanup :: List.replicate 6 (.act 0 .moveBucket)) ++
    (.act 1 .cleanup :: List.replicate 6 (.act 1 .moveBucket)) ++
    [.destroyWorker 1, .destroyWorker 0]

/-- The run of these events, with two workers. -/
def exampleRun : List (Event × State) :=
  LTS.run (exec nextChunk) ⟨.init, [.init, .init], []⟩
    (handOver exampleFrames 0 ++ exampleCollect ++ exampleCleanup)

/-- Before the cleanup two frames are in use, three are on the global list and
eleven on those of the workers. -/
example : exampleRun[57]?.map (fun p => (p.2.live, p.2.global.globalFreeList 5,
      p.2.workers.map (·.freeList 5))) =
    some ([⟨34688, 2048, 5⟩, ⟨32640, 1500, 5⟩], [46976, 44928, 42880],
      [[36736, 38784], [57216, 59264, 61312, 65280, 49024, 51072, 53120, 55168, 40832]]) := by
  decide +kernel

theorem frameMalloc_conserved_exampleRun :
    (exampleRun.getLast?.map fun p => (p.2.live, p.2.workers.length,
      (p.2.global.globalFreeList 5).length)) = some ([], 0, 16) ∧
    ∀ p ∈ exampleRun, Conserved p.2 ∧
      (p.2.live.Pairwise fun x y =>
        Apart x.addr (bucketToSize x.bucket) y.addr (bucketToSize y.bucket)) ∧
      (p.2.live = [] → p.2.workers = [] →
        p.2.global.allocatedFromGlobalPool = 0 ∧ p.2.global.cleanup = .ok ()) :=
  ⟨by decide +kernel,
    frameMalloc_conserved nextChunk_fresh ⟨2, rfl⟩ (LTS.isPath_run exec_step _ _)⟩

end SwanRuntime.Memory
