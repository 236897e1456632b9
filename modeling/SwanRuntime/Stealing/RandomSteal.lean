import SwanRuntime.Deque.Definitions
import SwanRuntime.ReadyList.Definitions
import SwanRuntime.Replay.Orphans
import SwanRuntime.Runtime.State

/-!
# Steal attempts

`random_steal`: the thief picks a victim, or reads it from its replay log, locks
it, and takes a frame from its ready list or the head of its deque. The deque is
first claimed with `dekker_protocol`, which moves `exc`; after that the attempt
may still be called off, because the frame at the head is not the one that was
stolen when the log was recorded, or because it must run on another NUMA node.

A thief that comes away with nothing should leave everything as it was. The test
against the log consumes the thief's entry when it succeeds, and each of the two
tests moves `exc` back when it fails. So two outcomes leave a trace: a frame
that matches the log but not the node, and one that matches neither.

## Results

* `randomSteal_of_reaches`          — what an attempt does from the two tests on.
* `randomSteal_unchanged`           — an attempt that does not get to them leaves
  no trace.
* `randomSteal_leavesNoTrace_iff`   — when exactly a failed attempt leaves no
  trace.
* `randomSteal_leavesTrace`         — an attempt for each of the two outcomes.
-/

namespace SwanRuntime.Stealing

open Checked Replay
open SwanRuntime.Runtime (WorkerType FrameId)

-- ---------------------------------------------------------------------------
-- State
-- ---------------------------------------------------------------------------

/-- `record_replay_t`. -/
inductive RecordOrReplay
  | none
  | recordLog
  | replayLog
deriving DecidableEq, Repr

/-- The fields of `__cilkrts_stack_frame` that a thief reads: `CILK_FRAME_NUMA`
of `flags`, the range of nodes and the ranks of `parent_pedigree`. -/
structure StackFrame where
  numa           : Bool
  numaLow        : UInt32
  numaHigh       : UInt32
  parentPedigree : List Nat

/-- `match_numa_sf`. -/
def matchNumaSf (myNuma : Int32) (sf : StackFrame) : Bool :=
  if sf.numa then matchNumaRange myNuma sf.numaLow.toInt32 sf.numaHigh.toInt32 else true

/-- `__cilkrts_worker` with its `local_state`; `replay_list_entry` is an index
into the worker's log. -/
structure Worker where
  type            : WorkerType
  team            : Option WorkerId
  numaNode        : Int32
  deque           : Deque StackFrame
  frameFf         : Option FrameId
  nextFrameFf     : Option FrameId
  lastFullFrame   : Option FrameId
  workStolen      : Bool
  replayList      : List ReplayEntry
  replayListEntry : Nat

/-- The workers and the memory of their ready lists, with the team of each
pending frame. -/
structure State where
  worker     : WorkerId → Worker
  readyLists : ReadyList.Memory
  pfTeam     : PfId → Option WorkerId

/-- Change one worker. -/
def State.modWorker (s : State) (w : WorkerId) (g : Worker → Worker) : State :=
  { s with worker := Function.update s.worker w (g (s.worker w)) }

/-- The fields of `global_state_t` that `random_steal` reads. -/
structure Globals where
  totalWorkers     : Nat
  stealingDisabled : Bool
  recordOrReplay   : RecordOrReplay

/-- What `random_steal` draws or is given: the number returned by `myrand`,
whether there is a fiber, whether the lock of the victim is free, how long the
search through a ready list may take, and the full frames that are made when it
succeeds. -/
structure Chance where
  random : Nat
  fiber  : Bool
  lock   : Bool
  fuel   : Nat
  loot   : FrameId
  child  : FrameId

-- ---------------------------------------------------------------------------
-- The code
-- ---------------------------------------------------------------------------

/-- `can_steal_from_rl`. -/
def canStealFromRl (s : State) (victim : WorkerId) : Bool :=
  (s.worker victim).deque.canStealFrom || (s.readyLists.next (.head (.worker victim))).isSome

/-- `replay_get_next_recorded_victim`; `none` stands for -1. A log that has been
loaded names workers only. -/
def replayGetNextRecordedVictim (g : Globals) (wk : Worker) (id : WorkerId) : Option WorkerId :=
  if g.recordOrReplay = .replayLog then
    match wk.replayList[wk.replayListEntry]? with
    | some e => if e.type ≠ .steal ∨ e.value = -1 then none else some e.value.toNat
    | none => none
  else some id

/-- The frame that `victim->head` points to. -/
def headFrame (s : State) (victim : WorkerId) : StackFrame :=
  (s.worker victim).deque.ltq (s.worker victim).deque.head

/-- The entry of the thief's log is a STEAL of the frame at the victim's
head. -/
def recorded (s : State) (w victim : WorkerId) : Bool :=
  (s.worker w).replayList[(s.worker w).replayListEntry]?.any
    fun e => e.match .steal (headFrame s victim).parentPedigree victim

/-- `replay_match_victim_pedigree`. -/
def replayMatchVictimPedigree (g : Globals) (s : State) (w victim : WorkerId) : Bool × State :=
  if g.recordOrReplay = .replayLog then
    if recorded s w victim then
      (true, s.modWorker w fun wk =>
        { wk with replayListEntry := nextEntry wk.replayList wk.replayListEntry })
    else (false, s)
  else (true, s)

/-- `set_sync_master`, for a user worker that has no last full frame. -/
def setSyncMaster (ff : FrameId) (wk : Worker) : Worker :=
  if wk.type = .user ∧ wk.lastFullFrame = none then { wk with lastFullFrame := some ff } else wk

/-- `__cilkrts_push_next_frame`. -/
def pushNextFrame (s : State) (w : WorkerId) (ff : FrameId) : Checked State := do
  assert (s.worker w).nextFrameFf.isNone "!w->l->next_frame_ff"
  return s.modWorker w fun wk => { wk with nextFrameFf := some ff }

/-- `detach_for_steal`, as far as the two workers are concerned. -/
def detachForSteal (s : State) (c : Chance) (w victim : WorkerId) : Checked State := do
  let s := s.modWorker w fun wk => { wk with team := (s.worker victim).team }
  assert ((s.worker w).frameFf.isNone || w == victim) "w->l->frame_ff == 0 || w == victim"
  let s := s.modWorker victim fun wk =>
    { wk with deque := { wk.deque with head := wk.deque.head + 1 } }
  let s := s.modWorker victim (setSyncMaster c.loot)
  let s ← if w = victim then pure s else pushNextFrame s w c.loot
  return s.modWorker victim fun wk => { wk with frameFf := some c.child }

/-- `steal_from_ready_list`, as far as the two workers and the list are
concerned; `none` while the search runs. -/
def stealFromReadyList (s : State) (c : Chance) (w victim : WorkerId) :
    Checked (Option (Bool × State)) := do
  assert ((s.worker w).frameFf.isNone || w == victim) "w->l->frame_ff == 0 || w == victim"
  match ReadyList.stealFromReadyList s.readyLists c.fuel victim (s.worker w).numaNode with
  | none => return none
  | some (none, m) => return some (false, { s with readyLists := m })
  | some (some pf, m) =>
    let s := { s with readyLists := m }
    let s := s.modWorker w fun wk => { wk with team := s.pfTeam pf }
    let s := s.modWorker victim (setSyncMaster c.loot)
    return some (true, ← pushNextFrame s w c.loot)

/-- `random_steal` once `dekker_protocol` has returned 1. -/
def stealFromDeque (g : Globals) (s : State) (c : Chance) (w victim : WorkerId) :
    Checked (Option (Bool × State)) := do
  let (proceed₁, s) := replayMatchVictimPedigree g s w victim
  let s := if proceed₁ then s else s.modWorker victim fun wk =>
    { wk with deque := wk.deque.decrementE }
  let proceed₂ := matchNumaSf (s.worker w).numaNode (headFrame s victim)
  let s := if proceed₂ then s else s.modWorker victim fun wk =>
    { wk with deque := wk.deque.decrementE }
  if proceed₁ && proceed₂ then return some (true, ← detachForSteal s c w victim)
  else return some (false, s)

/-- `random_steal` while it holds the victim's lock. -/
def stealLocked (g : Globals) (s : State) (c : Chance) (w victim : WorkerId) :
    Checked (Option (Bool × State)) := do
  if (s.worker w).type = .user ∧ (s.worker victim).team ≠ some w then return some (false, s)
  else if (s.readyLists.next (.head (.worker victim))).isSome then stealFromReadyList s c w victim
  else if (s.worker victim).frameFf.isSome then
    let (success, d) := (s.worker victim).deque.dekkerProtocol
    let s := s.modWorker victim fun wk => { wk with deque := d }
    if success then stealFromDeque g s c w victim
    else return some (false, s)
  else return some (false, s)

/-- The number of the victim: any worker but the thief. -/
def drawVictim (g : Globals) (c : Chance) (w : WorkerId) : WorkerId :=
  let n := c.random % (g.totalWorkers - 1)
  if n ≥ w then n + 1 else n

/-- `random_steal`: whether it has succeeded, and the state after it. -/
def randomSteal (g : Globals) (c : Chance) (w : WorkerId) (s : State) :
    Checked (Option (Bool × State)) := do
  let s := s.modWorker w fun wk => { wk with workStolen := false }
  if g.stealingDisabled then return some (false, s)
  assert ((s.worker w).type = .system || (s.worker w).team = some w)
    "w->l->type == WORKER_SYSTEM || w->l->team == w"
  assert (decide (1 < g.totalWorkers)) "w->g->total_workers > 1"
  match replayGetNextRecordedVictim g (s.worker w) (drawVictim g c w) with
  | none => return some (false, s)
  | some victim =>
    if ¬ c.fiber then return some (false, s)
    assert (victim ≠ w) "victim != w"
    if ¬ canStealFromRl s victim then return some (false, s)
    let r ← if c.lock then stealLocked g s c w victim else pure (some (false, s))
    return r.map fun (success, s) =>
      (success, s.modWorker w fun wk => { wk with workStolen := success })

-- ---------------------------------------------------------------------------
-- The property
-- ---------------------------------------------------------------------------

/-- What the thief `w` must leave as it is, if it comes away with nothing. -/
structure Unchanged (w : WorkerId) (s t : State) : Prop where
  head       : ∀ v, (t.worker v).deque.head = (s.worker v).deque.head
  tail       : ∀ v, (t.worker v).deque.tail = (s.worker v).deque.tail
  exc        : ∀ v, (s.worker v).deque.exc ≠ .infinity →
    (t.worker v).deque.exc = (s.worker v).deque.exc
  readyLists : t.readyLists = s.readyLists
  frameFf    : ∀ v, (t.worker v).frameFf = (s.worker v).frameFf
  entry      : (t.worker w).replayListEntry = (s.worker w).replayListEntry

/-- A failed attempt leaves no trace. -/
def LeavesNoTrace (g : Globals) (c : Chance) (w : WorkerId) (s : State) : Prop :=
  ∀ t, randomSteal g c w s = .ok (some (false, t)) → Unchanged w s t

/-- The attempt gets as far as the tests of the frame at the victim's head. -/
structure Reaches (g : Globals) (c : Chance) (w : WorkerId) (s : State) (victim : WorkerId) :
    Prop where
  enabled  : g.stealingDisabled = false
  ownTeam  : (s.worker w).type = .system ∨ (s.worker w).team = some w
  parallel : 1 < g.totalWorkers
  chosen   : replayGetNextRecordedVictim g (s.worker w) (drawVictim g c w) = some victim
  fiber    : c.fiber = true
  other    : victim ≠ w
  lock     : c.lock = true
  team     : ¬ ((s.worker w).type = .user ∧ (s.worker victim).team ≠ some w)
  noReady  : s.readyLists.next (.head (.worker victim)) = none
  frameFf  : (s.worker victim).frameFf.isSome = true
  steal    : (s.worker victim).deque.canStealFrom = true

-- ---------------------------------------------------------------------------
-- Changes that leave no trace
-- ---------------------------------------------------------------------------

@[simp] theorem State.modWorker_readyLists (s : State) (w : WorkerId) (g : Worker → Worker) :
    (s.modWorker w g).readyLists = s.readyLists := rfl

@[simp] theorem State.modWorker_self (s : State) (w : WorkerId) (g : Worker → Worker) :
    (s.modWorker w g).worker w = g (s.worker w) := by
  simp [State.modWorker]

@[simp] theorem State.modWorker_ne (s : State) {w v : WorkerId} (h : v ≠ w)
    (g : Worker → Worker) : (s.modWorker w g).worker v = s.worker v := by
  simp [State.modWorker, h]

theorem Unchanged.refl (w : WorkerId) (s : State) : Unchanged w s s :=
  ⟨fun _ => rfl, fun _ => rfl, fun _ _ => rfl, rfl, fun _ => rfl, rfl⟩

/-- A change of one worker that keeps its deque, its frame and its place in the
log leaves no trace. -/
theorem Unchanged.modWorker {w : WorkerId} {s t : State} (h : Unchanged w s t) (v : WorkerId)
    (g : Worker → Worker) (deque : (g (t.worker v)).deque = (t.worker v).deque)
    (frameFf : (g (t.worker v)).frameFf = (t.worker v).frameFf)
    (entry : (g (t.worker v)).replayListEntry = (t.worker v).replayListEntry) :
    Unchanged w s (t.modWorker v g) := by
  have same : ∀ u, ((t.modWorker v g).worker u).deque = (t.worker u).deque ∧
      ((t.modWorker v g).worker u).frameFf = (t.worker u).frameFf ∧
      ((t.modWorker v g).worker u).replayListEntry = (t.worker u).replayListEntry := by
    intro u
    by_cases hu : u = v
    · subst hu
      simp [deque, frameFf, entry]
    · simp [hu]
  refine ⟨fun u => ?_, fun u => ?_, fun u hu => ?_, h.readyLists, fun u => ?_, ?_⟩
  · rw [(same u).1, h.head u]
  · rw [(same u).1, h.tail u]
  · rw [(same u).1, h.exc u hu]
  · rw [(same u).2.1, h.frameFf u]
  · rw [(same w).2.2, h.entry]

/-- The flag that an attempt clears first. -/
def cleared (s : State) (w : WorkerId) : State :=
  s.modWorker w fun wk => { wk with workStolen := false }

/-- The state after the victim's deque has been claimed. -/
def claimed (s : State) (victim : WorkerId) : State :=
  s.modWorker victim fun wk => { wk with deque := wk.deque.incrementE }

theorem unchanged_cleared (s : State) (w : WorkerId) : Unchanged w s (cleared s w) :=
  (Unchanged.refl w s).modWorker w _ rfl rfl rfl

/-- Clearing the flag changes nothing that an attempt reads. -/
theorem cleared_worker (s : State) (w v : WorkerId) :
    (cleared s w).worker v = s.worker v ∨
      (cleared s w).worker v = { s.worker v with workStolen := false } := by
  by_cases h : v = w
  · subst h
    exact Or.inr (by simp [cleared])
  · exact Or.inl (by simp [cleared, h])

@[simp] theorem cleared_type (s : State) (w v : WorkerId) :
    ((cleared s w).worker v).type = (s.worker v).type := by
  rcases cleared_worker s w v with h | h <;> rw [h]

@[simp] theorem cleared_team (s : State) (w v : WorkerId) :
    ((cleared s w).worker v).team = (s.worker v).team := by
  rcases cleared_worker s w v with h | h <;> rw [h]

@[simp] theorem cleared_numaNode (s : State) (w v : WorkerId) :
    ((cleared s w).worker v).numaNode = (s.worker v).numaNode := by
  rcases cleared_worker s w v with h | h <;> rw [h]

@[simp] theorem cleared_deque (s : State) (w v : WorkerId) :
    ((cleared s w).worker v).deque = (s.worker v).deque := by
  rcases cleared_worker s w v with h | h <;> rw [h]

@[simp] theorem cleared_frameFf (s : State) (w v : WorkerId) :
    ((cleared s w).worker v).frameFf = (s.worker v).frameFf := by
  rcases cleared_worker s w v with h | h <;> rw [h]

@[simp] theorem cleared_replayList (s : State) (w v : WorkerId) :
    ((cleared s w).worker v).replayList = (s.worker v).replayList := by
  rcases cleared_worker s w v with h | h <;> rw [h]

@[simp] theorem cleared_replayListEntry (s : State) (w v : WorkerId) :
    ((cleared s w).worker v).replayListEntry = (s.worker v).replayListEntry := by
  rcases cleared_worker s w v with h | h <;> rw [h]

@[simp] theorem cleared_readyLists (s : State) (w : WorkerId) :
    (cleared s w).readyLists = s.readyLists := rfl

/-- A search that finds no frame for the thief's node leaves the list as it is. -/
theorem readyList_refused {m m' : ReadyList.Memory} {fuel : Nat} {victim : WorkerId}
    {myNuma : Int32} (h : ReadyList.stealFromReadyList m fuel victim myNuma = some (none, m')) :
    m' = m := by
  unfold ReadyList.stealFromReadyList at h
  split at h
  · exact absurd h (by simp)
  · split at h
    · exact absurd h (by simp)
    · split at h
      · exact absurd h (by simp)
      · simpa using h.symm
      · exact absurd h (by simp)

theorem stealFromReadyList_fails {s t : State} {c : Chance} {w victim : WorkerId}
    (h : stealFromReadyList s c w victim = .ok (some (false, t))) : t = s := by
  unfold stealFromReadyList at h
  obtain ⟨_, -, h⟩ := bind_eq_ok.mp h
  split at h
  · exact absurd h (by simp)
  · rename_i m hm
    obtain rfl := readyList_refused hm
    have ht : (false, s) = (false, t) := Option.some.inj (pure_eq_ok.mp h)
    exact (congrArg Prod.snd ht).symm
  · obtain ⟨_, -, h⟩ := bind_eq_ok.mp h
    exact absurd h (by simp)

-- ---------------------------------------------------------------------------
-- The tests of the frame at the victim's head
-- ---------------------------------------------------------------------------

/-- The state after an attempt has been called off: the thief's entry has been
consumed if its log names the frame, and `exc` has been moved back for each test
that failed. -/
def calledOff (g : Globals) (s : State) (w victim : WorkerId) (proceed₁ proceed₂ : Bool) : State :=
  let s := (replayMatchVictimPedigree g s w victim).2
  let s := if proceed₁ then s else s.modWorker victim fun wk =>
    { wk with deque := wk.deque.decrementE }
  if proceed₂ then s else s.modWorker victim fun wk => { wk with deque := wk.deque.decrementE }

/-- The test against the log does not change the thief's node or the deques. -/
theorem replayMatch_worker (g : Globals) (s : State) (w victim v : WorkerId) :
    (((replayMatchVictimPedigree g s w victim).2.worker v).deque = (s.worker v).deque) ∧
      (((replayMatchVictimPedigree g s w victim).2.worker v).numaNode = (s.worker v).numaNode) ∧
      (((replayMatchVictimPedigree g s w victim).2.worker v).frameFf = (s.worker v).frameFf) := by
  unfold replayMatchVictimPedigree
  split
  · split
    · by_cases hv : v = w
      · subst hv
        simp
      · simp [hv]
    · exact ⟨rfl, rfl, rfl⟩
  · exact ⟨rfl, rfl, rfl⟩

/-- The test of the node sees the node and the frame that were there before the
test against the log. -/
theorem numaTest_eq (g : Globals) (s : State) (w victim : WorkerId) (proceed : Bool) :
    let r := (replayMatchVictimPedigree g s w victim).2
    let r := if proceed then r else r.modWorker victim fun wk =>
      { wk with deque := wk.deque.decrementE }
    (r.worker w).numaNode = (s.worker w).numaNode ∧ headFrame r victim = headFrame s victim := by
  obtain ⟨hdeque, -, -⟩ := replayMatch_worker g s w victim victim
  obtain ⟨-, hnuma, -⟩ := replayMatch_worker g s w victim w
  cases proceed with
  | true =>
    refine ⟨hnuma, ?_⟩
    simp only [headFrame, if_true, hdeque]
  | false =>
    refine ⟨?_, ?_⟩
    · by_cases hw : w = victim
      · subst hw
        simpa using hnuma
      · simpa [hw] using hnuma
    · simp [headFrame, hdeque, Deque.decrementE]

/-- An attempt that is called off ends in the state `calledOff`. -/
theorem stealFromDeque_fails {g : Globals} {s t : State} {c : Chance} {w victim : WorkerId} :
    stealFromDeque g s c w victim = .ok (some (false, t)) ↔
      ((replayMatchVictimPedigree g s w victim).1 &&
        matchNumaSf (s.worker w).numaNode (headFrame s victim)) = false ∧
      t = calledOff g s w victim (replayMatchVictimPedigree g s w victim).1
        (matchNumaSf (s.worker w).numaNode (headFrame s victim)) := by
  obtain ⟨hnuma, hhead⟩ := numaTest_eq g s w victim (replayMatchVictimPedigree g s w victim).1
  unfold stealFromDeque calledOff
  simp only [hnuma, hhead]
  split
  · rename_i hboth
    refine ⟨fun h => ?_, fun h => absurd hboth (by simp [h.1])⟩
    obtain ⟨_, -, h⟩ := bind_eq_ok.mp h
    exact absurd h (by simp)
  · rename_i hnot
    refine ⟨fun h => ⟨by simpa using hnot, ?_⟩, fun h => by rw [h.2]; rfl⟩
    exact (congrArg Prod.snd (Option.some.inj (pure_eq_ok.mp h))).symm

theorem stealLocked_fails {g : Globals} {s t : State} {c : Chance} {w victim : WorkerId}
    (h : stealLocked g s c w victim = .ok (some (false, t))) :
    t = s ∨
      ¬ ((s.worker w).type = .user ∧ (s.worker victim).team ≠ some w) ∧
      s.readyLists.next (.head (.worker victim)) = none ∧
      (s.worker victim).frameFf.isSome = true ∧
      (s.worker victim).deque.canStealFrom = true ∧
      stealFromDeque g (claimed s victim) c w victim = .ok (some (false, t)) := by
  have same : (false, s) = (false, t) → t = s := fun ht => (congrArg Prod.snd ht).symm
  unfold stealLocked at h
  split at h
  · exact Or.inl (same (Option.some.inj (pure_eq_ok.mp h)))
  · rename_i hteam
    split at h
    · exact Or.inl (stealFromReadyList_fails h)
    · rename_i hready
      split at h
      · rename_i hframe
        rw [Deque.dekkerProtocol_eq] at h
        by_cases hsteal : (s.worker victim).deque.canStealFrom = true
        · rw [if_pos hsteal] at h
          exact Or.inr ⟨hteam, by simpa using hready, hframe, hsteal, h⟩
        · rw [if_neg hsteal] at h
          have hs : (s.modWorker victim fun wk =>
              { wk with deque := (s.worker victim).deque }) = s := by
            simp [State.modWorker]
          simp only [Bool.false_eq_true, if_false, hs] at h
          exact Or.inl (same (Option.some.inj (pure_eq_ok.mp h)))
      · exact Or.inl (same (Option.some.inj (pure_eq_ok.mp h)))

theorem stealLocked_of_claim {g : Globals} {s : State} {c : Chance} {w victim : WorkerId}
    (hteam : ¬ ((s.worker w).type = .user ∧ (s.worker victim).team ≠ some w))
    (hready : s.readyLists.next (.head (.worker victim)) = none)
    (hframe : (s.worker victim).frameFf.isSome = true)
    (hsteal : (s.worker victim).deque.canStealFrom = true) :
    stealLocked g s c w victim = stealFromDeque g (claimed s victim) c w victim := by
  unfold stealLocked
  rw [if_neg hteam, hready, Option.isSome_none, if_neg Bool.false_ne_true, if_pos hframe,
    Deque.dekkerProtocol_eq, if_pos hsteal]
  rfl

-- ---------------------------------------------------------------------------
-- A whole attempt
-- ---------------------------------------------------------------------------

/-- The flag that an attempt sets last. -/
def finished (w : WorkerId) (r : Bool × State) : Bool × State :=
  (r.1, r.2.modWorker w fun wk => { wk with workStolen := r.1 })

/-- Clearing the flag does not change the choice of a victim. -/
@[simp] theorem replayGetNextRecordedVictim_cleared (g : Globals) (s : State) (w : WorkerId)
    (n : WorkerId) : replayGetNextRecordedVictim g ((cleared s w).worker w) n =
      replayGetNextRecordedVictim g (s.worker w) n := by
  simp only [replayGetNextRecordedVictim, cleared_replayList, cleared_replayListEntry]

/-- From the two tests on, an attempt is `stealFromDeque` on the claimed deque. -/
theorem randomSteal_of_reaches {g : Globals} {c : Chance} {w victim : WorkerId} {s : State}
    (h : Reaches g c w s victim) :
    randomSteal g c w s =
      (stealFromDeque g (claimed (cleared s w) victim) c w victim).map
        (Option.map (finished w)) := by
  have hrl : canStealFromRl (cleared s w) victim = true := by
    simp [canStealFromRl, h.steal]
  have hlocked : stealLocked g (cleared s w) c w victim =
      stealFromDeque g (claimed (cleared s w) victim) c w victim :=
    stealLocked_of_claim (by simpa using h.team) (by simpa using h.noReady)
      (by simpa using h.frameFf) (by simpa using h.steal)
  have htype : (decide (((cleared s w).worker w).type = .system) ||
      decide (((cleared s w).worker w).team = some w)) = true := by
    simpa using h.ownTeam
  have hchosen : replayGetNextRecordedVictim g ((cleared s w).worker w) (drawVictim g c w) =
      some victim := by
    rw [replayGetNextRecordedVictim_cleared, h.chosen]
  unfold randomSteal
  simp only [show (s.modWorker w fun wk => { wk with workStolen := false }) = cleared s w from rfl,
    h.enabled, htype, hchosen, h.parallel, h.fiber, h.other, h.lock, hrl, hlocked,
    Bool.false_eq_true, if_false, decide_true, assert_true, ok_bind, not_true_eq_false,
    ne_eq, not_false_eq_true, if_true]
  rfl

/-- A failed attempt has failed before the flag was set. -/
theorem map_finished_fails {w : WorkerId} {r : Option (Bool × State)} {t : State}
    (h : r.map (finished w) = some (false, t)) :
    ∃ t', r = some (false, t') ∧ t = t'.modWorker w fun wk => { wk with workStolen := false } := by
  obtain ⟨⟨success, t'⟩, rfl, ht⟩ := Option.map_eq_some_iff.mp h
  obtain rfl : success = false := congrArg Prod.fst ht
  exact ⟨t', rfl, (congrArg Prod.snd ht).symm⟩

/-- An attempt that does not get to the two tests leaves no trace. -/
theorem randomSteal_unchanged {g : Globals} {c : Chance} {w : WorkerId} {s t : State}
    (hno : ∀ victim, ¬ Reaches g c w s victim)
    (hrun : randomSteal g c w s = .ok (some (false, t))) : Unchanged w s t := by
  have hc := unchanged_cleared s w
  have done : (pure (some (false, cleared s w)) : Checked (Option (Bool × State))) =
      .ok (some (false, t)) → Unchanged w s t := by
    intro h
    have ht : (false, cleared s w) = (false, t) := Option.some.inj (pure_eq_ok.mp h)
    have ht' : cleared s w = t := congrArg Prod.snd ht
    rwa [ht'] at hc
  unfold randomSteal at hrun
  simp only [show (s.modWorker w fun wk => { wk with workStolen := false }) = cleared s w from rfl]
    at hrun
  split at hrun
  · exact done hrun
  · rename_i henabled
    obtain ⟨_, htype, hrun⟩ := bind_eq_ok.mp hrun
    obtain ⟨_, hparallel, hrun⟩ := bind_eq_ok.mp hrun
    split at hrun
    · exact done hrun
    · rename_i victim hchosen
      split at hrun
      · exact done hrun
      · rename_i hfiber
        obtain ⟨_, hother, hrun⟩ := bind_eq_ok.mp hrun
        split at hrun
        · exact done hrun
        · split at hrun
          · rename_i hlock
            obtain ⟨r, hr, hrun⟩ := bind_eq_ok.mp hrun
            obtain ⟨t', rfl, rfl⟩ := map_finished_fails (pure_eq_ok.mp hrun)
            -- behind the lock an attempt fails early, or it gets to the two tests
            rcases stealLocked_fails hr with rfl | ⟨hteam, hready, hframe, hsteal, -⟩
            · exact hc.modWorker w _ rfl rfl rfl
            · refine absurd ⟨by simpa using henabled, by simpa using assert_eq_ok.mp htype,
                by simpa using assert_eq_ok.mp hparallel, by simpa using hchosen,
                by simpa using hfiber, by simpa using assert_eq_ok.mp hother, hlock,
                by simpa using hteam, by simpa using hready, by simpa using hframe,
                by simpa using hsteal⟩ (hno victim)
          · obtain ⟨r, hr, hrun⟩ := bind_eq_ok.mp hrun
            obtain rfl := pure_eq_ok.mp hr
            obtain ⟨t', ht', rfl⟩ := map_finished_fails (pure_eq_ok.mp hrun)
            have ht'' : cleared s w = t' := congrArg Prod.snd (Option.some.inj ht')
            rw [ht''] at hc
            exact hc.modWorker w _ rfl rfl rfl

-- ---------------------------------------------------------------------------
-- What an attempt that is called off leaves behind
-- ---------------------------------------------------------------------------

/-- The log names the frame, or no log is replayed. -/
def proceeds (g : Globals) (s : State) (w victim : WorkerId) : Bool :=
  decide (g.recordOrReplay ≠ .replayLog) || recorded s w victim

/-- Claiming the deque changes neither the log nor the frame at the head. -/
theorem recorded_claimed (s : State) (w victim : WorkerId) :
    recorded (claimed (cleared s w) victim) w victim = recorded s w victim ∧
      headFrame (claimed (cleared s w) victim) victim = headFrame s victim ∧
      ((claimed (cleared s w) victim).worker w).numaNode = (s.worker w).numaNode := by
  have hhead : headFrame (claimed (cleared s w) victim) victim = headFrame s victim := by
    simp [headFrame, claimed, Deque.incrementE]
  by_cases hw : w = victim
  · subst hw
    refine ⟨?_, hhead, by simp [claimed]⟩
    unfold recorded
    rw [hhead]
    simp [claimed]
  · refine ⟨?_, hhead, by simp [claimed, hw]⟩
    unfold recorded
    rw [hhead]
    simp [claimed, hw]

theorem replayMatch_claimed (g : Globals) (s : State) (w victim : WorkerId) :
    (replayMatchVictimPedigree g (claimed (cleared s w) victim) w victim).1 =
      proceeds g s w victim := by
  unfold replayMatchVictimPedigree proceeds
  rw [(recorded_claimed s w victim).1]
  by_cases hreplay : g.recordOrReplay = .replayLog
  · cases hrec : recorded s w victim <;> simp [hreplay]
  · simp [hreplay]

/-- The test against the log moves the thief's entry iff the log names the
frame. -/
theorem replayMatch_entry (g : Globals) (s : State) (w victim : WorkerId) :
    ((replayMatchVictimPedigree g (claimed (cleared s w) victim) w victim).2.worker
        w).replayListEntry =
      if g.recordOrReplay = .replayLog ∧ recorded s w victim = true then
        nextEntry (s.worker w).replayList (s.worker w).replayListEntry
      else (s.worker w).replayListEntry := by
  have hentry : ((claimed (cleared s w) victim).worker w).replayListEntry =
        (s.worker w).replayListEntry ∧
      ((claimed (cleared s w) victim).worker w).replayList = (s.worker w).replayList := by
    by_cases hw : w = victim
    · subst hw
      simp [claimed]
    · simp [claimed, hw]
  unfold replayMatchVictimPedigree
  rw [(recorded_claimed s w victim).1]
  by_cases hreplay : g.recordOrReplay = .replayLog
  · cases hrec : recorded s w victim <;> simp [hreplay, hentry.1, hentry.2]
  · simp [hreplay, hentry.1]

/-- The deque after `exc` has been moved up once, and down for each test that
failed. -/
def restored (d : Deque StackFrame) (proceed₁ proceed₂ : Bool) : Deque StackFrame :=
  let d := d.incrementE
  let d := if proceed₁ then d else d.decrementE
  if proceed₂ then d else d.decrementE

/-- Moving `exc` back changes nothing but the victim's deque. -/
theorem calledOff_worker (g : Globals) (s : State) (w victim v : WorkerId)
    (proceed₁ proceed₂ : Bool) :
    let r := (replayMatchVictimPedigree g s w victim).2
    let t := calledOff g s w victim proceed₁ proceed₂
    (v ≠ victim → (t.worker v).deque = (r.worker v).deque) ∧
      (t.worker v).frameFf = (r.worker v).frameFf ∧
      (t.worker v).replayListEntry = (r.worker v).replayListEntry ∧
      t.readyLists = r.readyLists := by
  by_cases hv : v = victim
  · subst hv
    cases proceed₁ <;> cases proceed₂ <;> simp [calledOff]
  · cases proceed₁ <;> cases proceed₂ <;> simp [calledOff, hv]

theorem calledOff_deque (g : Globals) (s : State) (w victim : WorkerId)
    (proceed₁ proceed₂ : Bool) :
    ((calledOff g (claimed (cleared s w) victim) w victim proceed₁ proceed₂).worker
        victim).deque = restored (s.worker victim).deque proceed₁ proceed₂ := by
  have hd := (replayMatch_worker g (claimed (cleared s w) victim) w victim victim).1
  have hc : ((claimed (cleared s w) victim).worker victim).deque =
      (s.worker victim).deque.incrementE := by
    simp [claimed]
  cases proceed₁ <;> cases proceed₂ <;> simp [calledOff, restored, hd, hc]

theorem readyLists_calledOff (g : Globals) (s : State) (w victim : WorkerId) :
    (replayMatchVictimPedigree g (claimed (cleared s w) victim) w victim).2.readyLists =
      s.readyLists := by
  unfold replayMatchVictimPedigree
  split
  · split <;> rfl
  · rfl

/-- What a failed attempt leaves behind, once it has got to the two tests. -/
theorem randomSteal_fails_iff {g : Globals} {c : Chance} {w victim : WorkerId} {s t : State}
    (h : Reaches g c w s victim) :
    randomSteal g c w s = .ok (some (false, t)) ↔
      (proceeds g s w victim &&
        matchNumaSf (s.worker w).numaNode (headFrame s victim)) = false ∧
      t = (calledOff g (claimed (cleared s w) victim) w victim (proceeds g s w victim)
        (matchNumaSf (s.worker w).numaNode (headFrame s victim))).modWorker w
          fun wk => { wk with workStolen := false } := by
  obtain ⟨-, hhead, hnuma⟩ := recorded_claimed s w victim
  have hmatch := replayMatch_claimed g s w victim
  have hsteal : ∀ t', stealFromDeque g (claimed (cleared s w) victim) c w victim =
        .ok (some (false, t')) ↔ _ := fun t' => stealFromDeque_fails
  simp only [hmatch, hnuma, hhead] at hsteal
  rw [randomSteal_of_reaches h]
  constructor
  · intro hrun
    obtain ⟨r, hr, hrun⟩ : ∃ r, stealFromDeque g (claimed (cleared s w) victim) c w victim =
        .ok r ∧ r.map (finished w) = some (false, t) := by
      cases hx : stealFromDeque g (claimed (cleared s w) victim) c w victim with
      | error e => rw [hx] at hrun; exact absurd hrun nofun
      | ok r => rw [hx] at hrun; exact ⟨r, rfl, Except.ok.inj hrun⟩
    obtain ⟨t', rfl, rfl⟩ := map_finished_fails hrun
    obtain ⟨hfail, rfl⟩ := (hsteal t').mp hr
    exact ⟨hfail, rfl⟩
  · rintro ⟨hfail, rfl⟩
    rw [(hsteal _).mpr ⟨hfail, rfl⟩]
    rfl

/-- Moving `exc` back twice is once too often. -/
theorem restored_eq (d : Deque StackFrame) (proceed₁ proceed₂ : Bool) :
    restored d proceed₁ proceed₂ =
      if proceed₁ && proceed₂ then d.incrementE
      else if proceed₁ || proceed₂ then d
      else d.decrementE := by
  cases proceed₁ <;> cases proceed₂ <;> simp [restored, Deque.decrementE_incrementE]

theorem decrementE_exc_eq (d : Deque StackFrame) : d.decrementE.exc = d.exc ↔ d.exc = .infinity := by
  cases hexc : d.exc with
  | slot i =>
    have hne : i + -1 ≠ i := by omega
    simp [Deque.decrementE, hexc, Exc.moved, hne]
  | infinity => simp [Deque.decrementE, hexc, Exc.moved]

/-- The entry of a STEAL record that is consumed is left behind. -/
theorem nextEntry_ne {log : List ReplayEntry} {i : Nat} {e : ReplayEntry}
    (hi : log[i]? = some e) (he : e.type = .steal) : nextEntry log i ≠ i := by
  simp [nextEntry, hi, he]
  omega

theorem Reaches.entry {g : Globals} {c : Chance} {w victim : WorkerId} {s : State}
    (h : Reaches g c w s victim) (hreplay : g.recordOrReplay = .replayLog) :
    ∃ e, (s.worker w).replayList[(s.worker w).replayListEntry]? = some e ∧ e.type = .steal := by
  have hchosen := h.chosen
  unfold replayGetNextRecordedVictim at hchosen
  rw [if_pos hreplay] at hchosen
  split at hchosen
  · rename_i e he
    refine ⟨e, he, ?_⟩
    by_contra htype
    rw [if_pos (Or.inl htype)] at hchosen
    exact absurd hchosen (by simp)
  · exact absurd hchosen (by simp)

-- ---------------------------------------------------------------------------
-- When a failed attempt leaves no trace
-- ---------------------------------------------------------------------------

/-- The frame at the victim's head must run on another node than the thief's
while a log is replayed, and either the log names the frame, or `exc` can be
moved back once too often. -/
structure Traced (g : Globals) (c : Chance) (w : WorkerId) (s : State) (victim : WorkerId) :
    Prop where
  reaches  : Reaches g c w s victim
  replay   : g.recordOrReplay = .replayLog
  mismatch : matchNumaSf (s.worker w).numaNode (headFrame s victim) = false
  visible  : recorded s w victim = true ∨ (s.worker victim).deque.exc ≠ .infinity

/-- An attempt that gets to the tests and is not traced leaves no trace. -/
theorem Reaches.unchanged {g : Globals} {c : Chance} {w victim : WorkerId} {s t : State}
    (h : Reaches g c w s victim) (hno : ¬ Traced g c w s victim)
    (hrun : randomSteal g c w s = .ok (some (false, t))) : Unchanged w s t := by
  obtain ⟨hfail, rfl⟩ := (randomSteal_fails_iff h).mp hrun
  set proceed₁ := proceeds g s w victim with hp₁
  set proceed₂ := matchNumaSf (s.worker w).numaNode (headFrame s victim) with hp₂
  -- The entry is consumed only if the log names the frame, and then the node is wrong.
  have hentry : ¬ (g.recordOrReplay = .replayLog ∧ recorded s w victim = true) := by
    rintro ⟨hreplay, hrec⟩
    have hone : proceed₁ = true := by simp [hp₁, proceeds, hrec]
    rw [hone, Bool.true_and] at hfail
    exact hno ⟨h, hreplay, hp₂ ▸ hfail, Or.inl hrec⟩
  -- `exc` is moved back twice only if both tests fail, and then it is infinite.
  have hexc : (proceed₁ || proceed₂) = true ∨ (s.worker victim).deque.exc = .infinity := by
    by_cases hor : (proceed₁ || proceed₂) = true
    · exact Or.inl hor
    · rw [Bool.not_eq_true, Bool.or_eq_false_iff] at hor
      refine Or.inr (by_contra fun hne => hno ⟨h, ?_, hp₂ ▸ hor.2, Or.inr hne⟩)
      have hone := hor.1
      rw [hp₁, proceeds, Bool.or_eq_false_iff] at hone
      simpa using hone.1
  have hdeque := calledOff_deque g s w victim proceed₁ proceed₂
  rw [restored_eq, hfail, if_neg Bool.false_ne_true] at hdeque
  have hother := fun v => calledOff_worker g (claimed (cleared s w) victim) w victim v
    proceed₁ proceed₂
  have hsame : ∀ v, v ≠ victim →
      ((calledOff g (claimed (cleared s w) victim) w victim proceed₁ proceed₂).worker v).deque =
        (s.worker v).deque := by
    intro v hv
    rw [(hother v).1 hv, (replayMatch_worker g _ w victim v).1]
    simp [claimed, hv]
  refine Unchanged.modWorker (t := calledOff g _ w victim proceed₁ proceed₂) ?_ w _ rfl rfl rfl
  refine ⟨fun v => ?_, fun v => ?_, fun v hv => ?_, ?_, fun v => ?_, ?_⟩
  · by_cases hvv : v = victim
    · subst hvv
      rw [hdeque]
      split <;> rfl
    · rw [hsame v hvv]
  · by_cases hvv : v = victim
    · subst hvv
      rw [hdeque]
      split <;> rfl
    · rw [hsame v hvv]
  · by_cases hvv : v = victim
    · subst hvv
      rw [hdeque]
      rcases hexc with hor | hinf
      · rw [if_pos hor]
      · exact absurd hinf hv
    · rw [hsame v hvv]
  · rw [(hother victim).2.2.2, readyLists_calledOff]
  · rw [(hother v).2.1, (replayMatch_worker g _ w victim v).2.2]
    by_cases hvv : v = victim
    · subst hvv
      simp [claimed]
    · simp [claimed, hvv]
  · rw [(hother w).2.2.1, replayMatch_entry, if_neg hentry]

/-- A traced attempt fails, and one can tell. -/
theorem Traced.changed {g : Globals} {c : Chance} {w victim : WorkerId} {s : State}
    (h : Traced g c w s victim) :
    ∃ t, randomSteal g c w s = .ok (some (false, t)) ∧ ¬ Unchanged w s t := by
  have hfail : (proceeds g s w victim &&
      matchNumaSf (s.worker w).numaNode (headFrame s victim)) = false := by
    rw [h.mismatch, Bool.and_false]
  refine ⟨_, (randomSteal_fails_iff h.reaches).mpr ⟨hfail, rfl⟩, fun hsame => ?_⟩
  have hentry := hsame.entry
  have hexc := hsame.exc victim
  rw [State.modWorker_self] at hentry
  rw [show ∀ r : State, (((r.modWorker w fun wk => { wk with workStolen := false }).worker
      victim).deque = (r.worker victim).deque) from fun r => by
        rw [State.modWorker_ne r h.reaches.other]] at hexc
  simp only [(calledOff_worker g _ w victim w _ _).2.2.1, replayMatch_entry] at hentry
  rw [calledOff_deque, restored_eq, hfail, if_neg Bool.false_ne_true, h.mismatch,
    Bool.or_false] at hexc
  cases hrec : recorded s w victim with
  | true =>
    rw [if_pos ⟨h.replay, hrec⟩] at hentry
    obtain ⟨e, he, htype⟩ := h.reaches.entry h.replay
    exact nextEntry_ne he htype hentry
  | false =>
    have hne := h.visible.resolve_left (by simp [hrec])
    have hzero : proceeds g s w victim = false := by simp [proceeds, h.replay, hrec]
    rw [hzero, if_neg Bool.false_ne_true] at hexc
    exact hne ((decrementE_exc_eq _).mp (hexc hne))

/-- A failed attempt leaves no trace iff the frame at the victim's head may run on
the thief's node, or no log is replayed, or the log does not name the frame and
`exc` is infinite. -/
theorem randomSteal_leavesNoTrace_iff (g : Globals) (c : Chance) (w : WorkerId) (s : State) :
    LeavesNoTrace g c w s ↔ ¬ ∃ victim, Traced g c w s victim := by
  constructor
  · rintro hleaves ⟨victim, h⟩
    obtain ⟨t, hrun, hne⟩ := h.changed
    exact hne (hleaves t hrun)
  · intro hno t hrun
    by_cases hreach : ∃ victim, Reaches g c w s victim
    · obtain ⟨victim, h⟩ := hreach
      exact h.unchanged (fun ht => hno ⟨victim, ht⟩) hrun
    · exact randomSteal_unchanged (fun victim h => hreach ⟨victim, h⟩) hrun

/-- Worker 0 replays a log whose next entry is the steal of a frame with pedigree
5 from worker 1. The frame at the head of worker 1 has pedigree `rank` and must
run on node 1; worker 0 is on node 0. -/
def replayingThief (rank : Nat) : State where
  worker w :=
    { type := .system, team := some 0, numaNode := 0
      deque :=
        { head := 0, tail := 1, protectedTail := 8, exc := .slot 0
          ltq := fun _ => ⟨true, 1, 2, [rank]⟩ }
      frameFf := if w = 0 then none else some 0
      nextFrameFf := none, lastFullFrame := none, workStolen := false
      replayList := [⟨[5], .steal, 1, 1⟩, ⟨[], .last, 0, 0⟩]
      replayListEntry := 0 }
  readyLists := ReadyList.Memory.initial fun _ => ⟨0, 0⟩
  pfTeam _ := none

def twoWorkers : Globals := ⟨2, false, .replayLog⟩

def freeVictim : Chance where
  random := 0
  fiber := true
  lock := true
  fuel := 0
  loot := 1
  child := 2

theorem replayingThief_reaches (rank : Nat) :
    Reaches twoWorkers freeVictim 0 (replayingThief rank) 1 where
  enabled := rfl
  ownTeam := Or.inl rfl
  parallel := by decide
  chosen := rfl
  fiber := rfl
  other := by decide
  lock := rfl
  team := fun h => absurd h.1 (by show ¬ WorkerType.system = .user; decide)
  noReady := rfl
  frameFf := rfl
  steal := rfl

/-- The thief's entry is consumed when the log names the frame, and `exc` is
moved below the head when it does not. -/
theorem randomSteal_leavesTrace :
    (¬ LeavesNoTrace twoWorkers freeVictim 0 (replayingThief 5)) ∧
      ¬ LeavesNoTrace twoWorkers freeVictim 0 (replayingThief 6) := by
  refine ⟨fun hleaves => ?_, fun hleaves => ?_⟩
  · have traced : Traced twoWorkers freeVictim 0 (replayingThief 5) 1 :=
      ⟨replayingThief_reaches 5, rfl, by decide, Or.inl (by decide)⟩
    obtain ⟨t, hrun, hne⟩ := traced.changed
    exact hne (hleaves t hrun)
  · have traced : Traced twoWorkers freeVictim 0 (replayingThief 6) 1 :=
      ⟨replayingThief_reaches 6, rfl, by decide, Or.inr nofun⟩
    obtain ⟨t, hrun, hne⟩ := traced.changed
    exact hne (hleaves t hrun)

end SwanRuntime.Stealing
