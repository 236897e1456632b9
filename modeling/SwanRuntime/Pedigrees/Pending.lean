import Mathlib.Logic.Function.Basic
import Mathlib.Tactic.Common

/-!
# Pedigrees of pending tasks

A pedigree is a chain of ranks: the worker holds the last one and a pointer to
the node of the spawn helper that it runs in, which holds the one before it, and
so on. A spawn gives the helper's node the pedigree of the worker and starts at
rank 0 behind it.

A task whose objects are not ready is spawned as a pending frame. The pedigree
is saved in the frame, and the worker goes on with the next rank. The task is
later started on a new fiber, in a stack frame that the runtime makes up there.

The saved pedigree is never copied to that stack frame. The thief takes what it
finds in the frame for the pedigree of a stolen parent, so the task starts with
whatever the fiber's stack holds, one rank further.

## Results

* `seesDirect`, `seesPending` — the chains that the body sees on the two ways.
* `pending_keeps_iff`         — when the two are equal.
* `parent_same`               — the spawner goes on with the same pedigree.
-/

namespace SwanRuntime.Pedigrees

-- ---------------------------------------------------------------------------
-- Nodes
-- ---------------------------------------------------------------------------

/-- The address of a `__cilkrts_pedigree`. -/
abbrev NodeId := Nat

/-- `__cilkrts_pedigree`. -/
structure Pedigree where
  rank   : UInt64
  parent : Option NodeId
deriving DecidableEq, Repr

/-- The nodes in memory. The fields `spawn_helper_pedigree` and
`parent_pedigree` of a stack frame are one node. -/
abbrev Memory := NodeId → Pedigree

/-- The ranks that are seen from a pedigree, from the last one to the first. -/
inductive Sees (m : Memory) : Pedigree → List UInt64 → Prop
  | root (r : UInt64) : Sees m ⟨r, none⟩ [r]
  | node (r : UInt64) {a : NodeId} {l : List UInt64} (h : Sees m (m a) l) :
    Sees m ⟨r, some a⟩ (r :: l)

/-- The node is on the chain that starts at a pointer. -/
inductive OnChain (m : Memory) : Option NodeId → NodeId → Prop
  | here (a : NodeId) : OnChain m (some a) a
  | above {a b : NodeId} (h : OnChain m (m b).parent a) : OnChain m (some b) a

-- ---------------------------------------------------------------------------
-- The code
-- ---------------------------------------------------------------------------

/-- The fields of `__cilkrts_stack_frame` that have to do with pedigrees: the
version in `flags`, the flag `CILK_FRAME_SF_PEDIGREE_UNSYNCHED` and the address
of the node. -/
structure StackFrame where
  version   : UInt8
  unsynched : Bool
  node      : NodeId

/-- The field `pedigree` of a worker, with `work_stolen`. -/
structure Worker where
  pedigree   : Pedigree
  workStolen : Bool

/-- `__cilkrts_detach` in the spawn helper `self`: its node and that of its
parent get the worker's pedigree. -/
def detach (m : Memory) (w : Worker) (self parent : NodeId) : Memory × Worker :=
  (Function.update (Function.update m self w.pedigree) parent w.pedigree,
    { w with pedigree := ⟨0, some self⟩ })

/-- `update_pedigree_on_leave_frame`. -/
def updatePedigreeOnLeaveFrame (m : Memory) (w : Worker) (sf : StackFrame) : Worker :=
  if 1 ≤ sf.version then
    { w with pedigree := ⟨(m sf.node).rank + 1, (m sf.node).parent⟩ }
  else w

/-- `__cilkrts_bump_worker_rank`. -/
def bumpWorkerRank (w : Worker) : Worker :=
  { w with pedigree := { w.pedigree with rank := w.pedigree.rank + 1 } }

/-- `__cilkrts_pending_frame`, as far as its pedigree goes. -/
structure PendingFrame where
  spawnHelperPedigree : Pedigree

/-- `__cilkrts_detach_pending`. -/
def detachPending (w : Worker) : PendingFrame × Worker :=
  (⟨w.pedigree⟩, bumpWorkerRank w)

/-- `make_child_from_pending`: a stack frame of version 1 at the address `sf` on
a fiber, in which nothing of the pending frame's pedigree is stored. -/
def makeChildFromPending (w : Worker) (_ : PendingFrame) (sf : NodeId) : StackFrame × Worker :=
  (⟨1, false, sf⟩, { w with pedigree := ⟨0, some sf⟩ })

/-- `setup_for_execution_pedigree`. -/
def setupForExecutionPedigree (m : Memory) (w : Worker) (sf : StackFrame) : StackFrame × Worker :=
  if sf.version = 0 then (sf, w)
  else
    let pedigreeUnsynched := sf.unsynched
    let sf := { sf with unsynched := false }
    let w :=
      if w.workStolen || pedigreeUnsynched then
        if w.workStolen then
          { w with pedigree := { w.pedigree with rank := (m sf.node).rank + 1 } }
        else { w with pedigree := { w.pedigree with rank := (m sf.node).rank } }
      else w
    (sf, { w with
      pedigree   := { w.pedigree with parent := (m sf.node).parent }
      workStolen := false })

/-- A steal from a ready list, up to the start of the task: the frame is made,
and the worker that has succeeded in a steal sets itself up for it. -/
def startPending (m : Memory) (thief : Worker) (pf : PendingFrame) (sf : NodeId) : Worker :=
  let (frame, thief) := makeChildFromPending thief pf sf
  (setupForExecutionPedigree m { thief with workStolen := true } frame).2

-- ---------------------------------------------------------------------------
-- The property
-- ---------------------------------------------------------------------------

/-- Where a task is spawned: the worker, the memory, the frame of the helper that
would run it directly and the frame that spawns it. The helper is entered for
this spawn, and the chain runs through the nodes of helpers further up, to the
root. -/
structure Site where
  m      : Memory
  w      : Worker
  self   : NodeId
  parent : NodeId
  chain  : ∃ l, Sees m w.pedigree l
  fresh  : ¬ OnChain m w.pedigree.parent self
  apart  : ¬ OnChain m w.pedigree.parent parent
  ne     : self ≠ parent

/-- What the body sees when the task is run directly. -/
def Site.Direct (s : Site) (l : List UInt64) : Prop :=
  Sees (detach s.m s.w s.self s.parent).1 (detach s.m s.w s.self s.parent).2.pedigree l

/-- What the body sees when the task is started by `thief` in a frame at `sf`,
where memory is `m`. -/
def Site.Pending (s : Site) (m : Memory) (thief : Worker) (sf : NodeId) (l : List UInt64) : Prop :=
  Sees m (startPending m thief (detachPending s.w).1 sf).pedigree l

/-- The spawner's pedigree behind the spawn, in the two cases: the helper of
version `v` has returned, or the task was made pending. -/
def Site.after (s : Site) (v : UInt8) : Pedigree × Pedigree :=
  let (m, w) := detach s.m s.w s.self s.parent
  ((updatePedigreeOnLeaveFrame m w ⟨v, false, s.self⟩).pedigree, (detachPending s.w).2.pedigree)

/-- The task keeps its pedigree, and so does the spawner. -/
def Site.Keeps (s : Site) (m : Memory) (thief : Worker) (sf : NodeId) : Prop :=
  (∀ l, s.Direct l ↔ s.Pending m thief sf l) ∧ (s.after 1).1 = (s.after 1).2

-- ---------------------------------------------------------------------------
-- Chains
-- ---------------------------------------------------------------------------

theorem sees_none {m : Memory} {r : UInt64} {l : List UInt64} :
    Sees m ⟨r, none⟩ l ↔ l = [r] := by
  constructor
  · intro h
    cases h
    rfl
  · rintro rfl
    exact .root r

theorem sees_some {m : Memory} {r : UInt64} {a : NodeId} {l : List UInt64} :
    Sees m ⟨r, some a⟩ l ↔ ∃ l', l = r :: l' ∧ Sees m (m a) l' := by
  constructor
  · intro h
    cases h with
    | node _ h => exact ⟨_, rfl, h⟩
  · rintro ⟨l', rfl, h⟩
    exact .node r h

/-- A store to a node that is not on the chain does not change what is seen. -/
theorem Sees.update {m : Memory} {p : Pedigree} {l : List UInt64} (h : Sees m p l) {a : NodeId}
    (ha : ¬ OnChain m p.parent a) (q : Pedigree) : Sees (Function.update m a q) p l := by
  induction h with
  | root r => exact .root r
  | @node r b l h ih =>
    have hne : b ≠ a := by
      rintro rfl
      exact ha (.here b)
    refine .node r ?_
    rw [Function.update_of_ne hne]
    exact ih fun hb => ha (.above hb)

theorem OnChain.of_update {m : Memory} {p : Option NodeId} {a b : NodeId} {q : Pedigree}
    (h : OnChain (Function.update m a q) p b) (ha : ¬ OnChain m p a) : OnChain m p b := by
  induction h with
  | here c => exact .here c
  | @above b c h ih =>
    have hne : c ≠ a := by
      rintro rfl
      exact ha (.here c)
    rw [Function.update_of_ne hne] at ih
    exact .above (ih fun hc => ha (.above hc))

theorem sees_update {m : Memory} {p : Pedigree} {l : List UInt64} {a : NodeId}
    (ha : ¬ OnChain m p.parent a) (q : Pedigree) :
    Sees (Function.update m a q) p l ↔ Sees m p l := by
  constructor
  · intro h
    have ha' : ¬ OnChain (Function.update m a q) p.parent a := fun hb => ha (hb.of_update ha)
    have h := h.update ha' (m a)
    rwa [Function.update_idem, Function.update_eq_self] at h
  · intro h
    exact h.update ha q

theorem Sees.ne_nil {m : Memory} {p : Pedigree} {l : List UInt64} (h : Sees m p l) : l ≠ [] := by
  cases h <;> simp

/-- There is one chain. -/
theorem Sees.unique {m : Memory} {p : Pedigree} {l l' : List UInt64} (h : Sees m p l)
    (h' : Sees m p l') : l = l' := by
  induction h generalizing l' with
  | root r =>
    cases h' with
    | root => rfl
  | node r h ih =>
    obtain ⟨t, rfl, ht⟩ := sees_some.mp h'
    rw [ih ht]

-- ---------------------------------------------------------------------------
-- The two ways
-- ---------------------------------------------------------------------------

section Ways

variable (s : Site) (m : Memory) (thief : Worker) (sf : NodeId)

/-- A task that is run directly sees rank 0 behind the spawner's pedigree. -/
theorem seesDirect (l : List UInt64) :
    s.Direct l ↔ ∃ l', l = 0 :: l' ∧ Sees s.m s.w.pedigree l' := by
  have hself : (detach s.m s.w s.self s.parent).1 s.self = s.w.pedigree := by
    show Function.update (Function.update s.m s.self s.w.pedigree) s.parent s.w.pedigree s.self = _
    rw [Function.update_of_ne s.ne, Function.update_self]
  have hparent : ¬ OnChain (Function.update s.m s.self s.w.pedigree) s.w.pedigree.parent s.parent :=
    fun h => s.apart (h.of_update s.fresh)
  show Sees (detach s.m s.w s.self s.parent).1 ⟨0, some s.self⟩ l ↔ _
  rw [sees_some, hself]
  refine exists_congr fun l' => and_congr_right fun _ => ?_
  show Sees (Function.update (Function.update s.m s.self s.w.pedigree) s.parent s.w.pedigree)
    s.w.pedigree l' ↔ _
  rw [sees_update hparent, sees_update s.fresh]

/-- A task that is started from a pending frame sees what the node in its stack
frame holds, one rank further. -/
theorem seesPending (l : List UInt64) :
    s.Pending m thief sf l ↔ Sees m ⟨(m sf).rank + 1, (m sf).parent⟩ l := by
  show Sees m (startPending m thief (detachPending s.w).1 sf).pedigree l ↔ _
  simp [startPending, makeChildFromPending, setupForExecutionPedigree]

/-- The spawner goes on with the next rank in both cases. -/
theorem parent_same : (s.after 1).1 = (s.after 1).2 := by
  have hself : (detach s.m s.w s.self s.parent).1 s.self = s.w.pedigree := by
    show Function.update (Function.update s.m s.self s.w.pedigree) s.parent s.w.pedigree s.self = _
    rw [Function.update_of_ne s.ne, Function.update_self]
  show (updatePedigreeOnLeaveFrame (detach s.m s.w s.self s.parent).1
    (detach s.m s.w s.self s.parent).2 ⟨1, false, s.self⟩).pedigree = _
  rw [updatePedigreeOnLeaveFrame, if_pos (by show (1 : UInt8) ≤ 1; decide), hself]
  rfl

/-- A pending task keeps its pedigree iff the stack of the fiber holds, by
accident, the rank before 0 and a pointer to a chain like the spawner's. -/
theorem pending_keeps_iff :
    s.Keeps m thief sf ↔
      (m sf).rank + 1 = 0 ∧
        ∃ a l, (m sf).parent = some a ∧ Sees m (m a) l ∧ Sees s.m s.w.pedigree l := by
  constructor
  · rintro ⟨hsame, -⟩
    obtain ⟨l, hl⟩ := s.chain
    -- read off from the chain that the spawned frame sees, of rank 0
    have hpending := (hsame (0 :: l)).mp ((seesDirect s _).mpr ⟨l, rfl, hl⟩)
    rw [seesPending] at hpending
    cases hp : (m sf).parent with
    | none =>
      rw [hp, sees_none] at hpending
      exact absurd (List.cons.inj hpending).2 hl.ne_nil
    | some a =>
      rw [hp, sees_some] at hpending
      obtain ⟨l', heq, hl'⟩ := hpending
      obtain ⟨hrank, rfl⟩ := List.cons.inj heq
      exact ⟨hrank.symm, a, l, rfl, hl', hl⟩
  · rintro ⟨hrank, a, l, hp, ha, hl⟩
    refine ⟨fun k => ?_, parent_same s⟩
    rw [seesDirect, seesPending, hrank, hp, sees_some]
    refine exists_congr fun k' => and_congr_right fun _ => ?_
    constructor
    · intro hk
      rwa [hk.unique hl]
    · intro hk
      rwa [hk.unique ha]

end Ways

/-- A worker at the root of its pedigree spawns a task. -/
def rootSite : Site where
  m _    := ⟨0, none⟩
  w      := ⟨⟨5, none⟩, false⟩
  self   := 1
  parent := 0
  chain  := ⟨[5], .root 5⟩
  fresh  := nofun
  apart  := nofun
  ne     := by decide

/-- Spawned at rank 5 the task should see the ranks 0 and 5; it sees what is on
the stack of the fiber. -/
theorem rootSite_not_keeps : ¬ rootSite.Keeps (fun _ => ⟨7, none⟩) ⟨⟨0, none⟩, false⟩ 2 := by
  rintro ⟨hsame, -⟩
  have hdirect : rootSite.Direct [0, 5] :=
    (seesDirect rootSite _).mpr ⟨[5], rfl, .root 5⟩
  have hpending := (hsame [0, 5]).mp hdirect
  rw [seesPending, sees_none] at hpending
  exact absurd hpending (by decide)

end SwanRuntime.Pedigrees
