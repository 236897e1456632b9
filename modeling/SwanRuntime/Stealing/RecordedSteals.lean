import SwanRuntime.Replay.RoundTrip
import SwanRuntime.Stealing.RandomSteal

/-!
# Recorded steals

While a run is recorded, a worker that has stolen a frame writes a STEAL record
with the pedigree of the frame and the number of the victim. Two routines do so:
`random_steal`, which takes a frame from the deque or from the ready list of
another worker, and `own_ready_list_steal`, which takes one from the worker's
own ready list. In the replay of the log only `random_steal` reads the records.

`random_steal` asserts that the victim is another worker, and it consumes a
record only when it takes a frame from a deque. So the records of the two kinds
of steals from a ready list cannot be replayed. Nor can that of a steal from a deque
when its line is not read back as it was recorded.

## Results

* `randomSteal_succeeds`       — what a successful attempt on a deque has found.
* `StealRecord.load_eq`        — the entry that is loaded from a record.
* `Reaches.reproduces`         — a steal whose record survives can be reproduced.
* `Survives.of_reproduces`     — and only such a steal from a deque.
* `recordedSteals_iff`         — which runs can be replayed.
-/

namespace SwanRuntime.Stealing

open Checked Replay

-- ---------------------------------------------------------------------------
-- The code
-- ---------------------------------------------------------------------------

/-- `own_ready_list_steal`. -/
def ownReadyListSteal (g : Globals) (c : Chance) (w : WorkerId) (s : State) :
    Checked (Option (Bool × State)) := do
  let s := s.modWorker w fun wk => { wk with workStolen := false }
  if g.stealingDisabled then return some (false, s)
  assert ((s.worker w).type = .system || (s.worker w).team = some w)
    "w->l->type == WORKER_SYSTEM || w->l->team == w"
  assert (decide (1 < g.totalWorkers)) "w->g->total_workers > 1"
  if ¬ c.fiber then return some (false, s)
  if (s.readyLists.next (.head (.worker w))).isNone then return some (false, s)
  let r ← stealFromReadyList s c w w
  return r.map fun (success, s) =>
    (success, s.modWorker w fun wk => { wk with workStolen := success })

/-- A STEAL record, with the state in which the steal was made and the chance
that it was given. -/
structure StealRecord where
  pedigree : List Nat
  victim   : WorkerId
  before   : State
  chance   : Chance

/-- The runtime while it records, and the STEAL records of each worker's log. -/
structure RecordState where
  run : State
  log : WorkerId → List StealRecord

/-- `replay_record_steal`. -/
def RecordState.record (s : RecordState) (w : WorkerId) (t : State) (r : StealRecord) :
    RecordState :=
  ⟨t, Function.update s.log w (s.log w ++ [r])⟩

/-- Where a stolen frame came from. -/
inductive Source
  | deque
  | readyList
  | ownReadyList
deriving DecidableEq, Repr

/-- A pedigree node, `&call_stack->parent_pedigree`, with those above it. Ranks are
64 bits wide. -/
structure PedigreeChain (node : List Nat) : Prop where
  ne_nil : node ≠ []
  ranks  : ∀ rank ∈ node, rank < 2 ^ 64

inductive RecordEvent
  /-- The workers do something else. -/
  | other
  /-- Worker `w` steals from `victim`. -/
  | steal (w victim : WorkerId) (source : Source)

/-- A run that is recorded. The frame that is taken from a ready list stands on
the stack of a fiber, and its pedigree may be anything. -/
inductive RecordStep (g : Globals) (s : RecordState) : RecordEvent → RecordState → Prop
  | other (t : State) : RecordStep g s .other { s with run := t }
  | deque {w : WorkerId} {c : Chance} {t : State}
      (empty : s.run.readyLists.next (.head (.worker (drawVictim g c w))) = none)
      (node : PedigreeChain (headFrame s.run (drawVictim g c w)).parentPedigree)
      (stolen : randomSteal g c w s.run = .ok (some (true, t))) :
    RecordStep g s (.steal w (drawVictim g c w) .deque)
      (s.record w t ⟨(headFrame s.run (drawVictim g c w)).parentPedigree, drawVictim g c w,
        s.run, c⟩)
  | readyList {w : WorkerId} {c : Chance} {t : State} {pedigree : List Nat}
      (ready : s.run.readyLists.next (.head (.worker (drawVictim g c w))) ≠ none)
      (stolen : randomSteal g c w s.run = .ok (some (true, t))) :
    RecordStep g s (.steal w (drawVictim g c w) .readyList)
      (s.record w t ⟨pedigree, drawVictim g c w, s.run, c⟩)
  | ownReadyList {w : WorkerId} {c : Chance} {t : State} {pedigree : List Nat}
      (stolen : ownReadyListSteal g c w s.run = .ok (some (true, t))) :
    RecordStep g s (.steal w w .ownReadyList) (s.record w t ⟨pedigree, w, s.run, c⟩)

/-- A run that starts with empty logs. -/
def recordSystem (g : Globals) : LTS RecordState RecordEvent where
  init s := ∀ w, s.log w = []
  step := RecordStep g

-- ---------------------------------------------------------------------------
-- The property
-- ---------------------------------------------------------------------------

/-- The entry that is loaded from the line of a STEAL record. -/
def StealRecord.load (lits : Literals) (buf : List Char) (r : StealRecord) :
    Checked ReplayEntry := do
  let line ← lits.writeToReplayLog buf .steal r.pedigree r.victim (-1)
  let (fields, _) ← scanRecord line
  return Replay.load fields.type fields.pedigree fields.i1

/-- The state before the steal, in a replay that has come to its entry. -/
def StealRecord.replay (r : StealRecord) (w : WorkerId) (e : ReplayEntry) : State :=
  r.before.modWorker w fun wk =>
    { wk with replayList := [e, ⟨[], .last, 0, 0⟩], replayListEntry := 0 }

/-- An entry is loaded from the record, and in the replay `random_steal` takes the victim
from it, makes the steal and consumes it. No assertion fails. -/
def StealRecord.Reproduces (lits : Literals) (r : StealRecord) (g : Globals) (w : WorkerId) :
    Prop :=
  ∀ buf : List Char, buf.length = pedigreeBuffSize →
    ∃ e t, r.load lits buf = .ok e ∧
      replayGetNextRecordedVictim { g with recordOrReplay := .replayLog } ((r.replay w e).worker w)
        (drawVictim g r.chance w) = some r.victim ∧
      randomSteal { g with recordOrReplay := .replayLog } r.chance w (r.replay w e) =
        .ok (some (true, t)) ∧
      (t.worker w).replayListEntry = 1

/-- Each record names another worker, as it is written and as it is loaded. -/
def NamesOthers (s : RecordState) : Prop :=
  ∀ w, ∀ r ∈ s.log w, r.victim ≠ w ∧ toInt16 r.victim ≠ w

/-- Each recorded steal can be reproduced. -/
def AllReproduce (lits : Literals) (g : Globals) (s : RecordState) : Prop :=
  ∀ w, ∀ r ∈ s.log w, r.Reproduces lits g w

/-- The step does not steal from the worker's own ready list, nor from a worker whose
number is the thief's when it is cut to 16 bits. -/
def NotOwnList (_ : RecordState) (e : RecordEvent) : Prop :=
  ∀ w v source, e = .steal w v source → source ≠ .ownReadyList ∧ toInt16 v ≠ w

/-- The line of the record is read back as it was recorded. -/
structure Survives (lits : Literals) (node : List Nat) (victim : WorkerId) : Prop where
  fits    : Fits node
  counted : lits.Counted node
  ranks   : ∀ rank ∈ node, rank < 2 ^ 63
  victim  : victim < 2 ^ 15

/-- The step does not steal from a ready list, and takes no frame from a deque whose
record does not survive. -/
def FromDeque (lits : Literals) (s : RecordState) (e : RecordEvent) : Prop :=
  ∀ w v source, e = .steal w v source →
    source = .deque ∧ Survives lits (headFrame s.run v).parentPedigree v

-- ---------------------------------------------------------------------------
-- Steals that succeed
-- ---------------------------------------------------------------------------

/-- An attempt on a deque succeeds iff the log and the node allow it and the
thief has no frame. -/
theorem stealFromDeque_succeeds {g : Globals} {s t : State} {c : Chance} {w victim : WorkerId} :
    stealFromDeque g s c w victim = .ok (some (true, t)) ↔
      (replayMatchVictimPedigree g s w victim).1 = true ∧
      matchNumaSf (s.worker w).numaNode (headFrame s victim) = true ∧
      detachForSteal (replayMatchVictimPedigree g s w victim).2 c w victim = .ok t := by
  obtain ⟨hnuma, hhead⟩ := numaTest_eq g s w victim (replayMatchVictimPedigree g s w victim).1
  unfold stealFromDeque
  simp only [hnuma, hhead]
  cases h₁ : (replayMatchVictimPedigree g s w victim).1 with
  | false =>
    refine ⟨fun h => ?_, fun h => absurd h.1 Bool.false_ne_true⟩
    exact absurd (congrArg Prod.fst (Option.some.inj (pure_eq_ok.mp h))) Bool.false_ne_true
  | true =>
    cases h₂ : matchNumaSf (s.worker w).numaNode (headFrame s victim) with
    | false =>
      refine ⟨fun h => ?_, fun h => absurd h.2.1 Bool.false_ne_true⟩
      exact absurd (congrArg Prod.fst (Option.some.inj (pure_eq_ok.mp h))) Bool.false_ne_true
    | true =>
      constructor
      · intro h
        obtain ⟨t', ht', h⟩ := bind_eq_ok.mp h
        have hsame := congrArg Prod.snd (Option.some.inj (pure_eq_ok.mp h))
        exact ⟨rfl, rfl, by rw [← (show t' = t from hsame)]; exact ht'⟩
      · rintro ⟨-, -, h⟩
        rw [if_pos rfl] at *
        exact bind_eq_ok.mpr ⟨t, h, rfl⟩

theorem pushNextFrame_ok {s t : State} {w : WorkerId} {ff : Runtime.FrameId}
    (h : pushNextFrame s w ff = .ok t) :
    (s.worker w).nextFrameFf = none ∧
      t = s.modWorker w fun wk => { wk with nextFrameFf := some ff } := by
  obtain ⟨_, hnext, h⟩ := bind_eq_ok.mp h
  exact ⟨by simpa using assert_eq_ok.mp hnext, (pure_eq_ok.mp h).symm⟩

@[simp] theorem setSyncMaster_entry (ff : Runtime.FrameId) (wk : Worker) :
    (setSyncMaster ff wk).replayListEntry = wk.replayListEntry := by
  unfold setSyncMaster
  split <;> rfl

/-- A thief that detaches has had neither a frame nor a next frame, and keeps its
place in the log. -/
theorem detachForSteal_ok {s t : State} {c : Chance} {w victim : WorkerId} (hne : victim ≠ w)
    (h : detachForSteal s c w victim = .ok t) :
    (s.worker w).frameFf = none ∧ (s.worker w).nextFrameFf = none ∧
      (t.worker w).replayListEntry = (s.worker w).replayListEntry := by
  unfold detachForSteal at h
  obtain ⟨_, hframe, h⟩ := bind_eq_ok.mp h
  rw [if_neg hne.symm] at h
  obtain ⟨u, hpush, h⟩ := bind_eq_ok.mp h
  obtain ⟨hnext, rfl⟩ := pushNextFrame_ok hpush
  obtain rfl := pure_eq_ok.mp h
  refine ⟨by simpa [hne.symm] using assert_eq_ok.mp hframe, by simpa [hne.symm] using hnext, ?_⟩
  simp [hne.symm]

theorem detachForSteal_returns {s : State} {c : Chance} {w victim : WorkerId} (hne : victim ≠ w)
    (hframe : (s.worker w).frameFf = none) (hnext : (s.worker w).nextFrameFf = none) :
    ∃ t, detachForSteal s c w victim = .ok t := by
  unfold detachForSteal pushNextFrame
  simp [hframe, hnext, hne.symm]

/-- A steal from a ready list keeps the thief's place in the log. -/
theorem stealFromReadyList_entry {s t : State} {c : Chance} {w victim : WorkerId} {b : Bool}
    (h : stealFromReadyList s c w victim = .ok (some (b, t))) :
    (t.worker w).replayListEntry = (s.worker w).replayListEntry := by
  unfold stealFromReadyList at h
  obtain ⟨_, -, h⟩ := bind_eq_ok.mp h
  split at h
  · exact absurd h (by simp)
  · have ht := congrArg Prod.snd (Option.some.inj (pure_eq_ok.mp h))
    rw [← (show _ = t from ht)]
  · obtain ⟨u, hpush, h⟩ := bind_eq_ok.mp h
    obtain ⟨-, rfl⟩ := pushNextFrame_ok hpush
    have ht := congrArg Prod.snd (Option.some.inj (pure_eq_ok.mp h))
    rw [← (show _ = t from ht)]
    by_cases hw : w = victim
    · subst hw
      simp
    · simp [hw]

theorem stealLocked_succeeds {g : Globals} {s t : State} {c : Chance} {w victim : WorkerId}
    (hempty : s.readyLists.next (.head (.worker victim)) = none)
    (h : stealLocked g s c w victim = .ok (some (true, t))) :
    ¬ ((s.worker w).type = .user ∧ (s.worker victim).team ≠ some w) ∧
      (s.worker victim).frameFf.isSome = true ∧
      (s.worker victim).deque.canStealFrom = true := by
  have hfalse : ∀ u, (pure (some (false, u)) : Checked (Option (Bool × State))) ≠
      .ok (some (true, t)) := by
    intro u h
    exact Bool.false_ne_true (congrArg Prod.fst (Option.some.inj (pure_eq_ok.mp h)))
  unfold stealLocked at h
  rw [hempty, Option.isSome_none, if_neg Bool.false_ne_true] at h
  split at h
  · exact absurd h (hfalse _)
  · rename_i hteam
    split at h
    · rename_i hframe
      refine ⟨hteam, hframe, ?_⟩
      by_contra hsteal
      rw [Deque.dekkerProtocol_eq, if_neg hsteal] at h
      exact absurd h (hfalse _)
    · exact absurd h (hfalse _)

/-- An attempt that succeeds with an empty ready list has got to the tests of the
frame at the victim's head. -/
theorem randomSteal_succeeds {g : Globals} {c : Chance} {w victim : WorkerId} {s t : State}
    (hchosen : replayGetNextRecordedVictim g (s.worker w) (drawVictim g c w) = some victim)
    (hempty : s.readyLists.next (.head (.worker victim)) = none)
    (hrun : randomSteal g c w s = .ok (some (true, t))) : Reaches g c w s victim := by
  have hfalse : ∀ u, (pure (some (false, u)) : Checked (Option (Bool × State))) ≠
      .ok (some (true, t)) := by
    intro u h
    exact Bool.false_ne_true (congrArg Prod.fst (Option.some.inj (pure_eq_ok.mp h)))
  unfold randomSteal at hrun
  simp only [show (s.modWorker w fun wk => { wk with workStolen := false }) = cleared s w from rfl]
    at hrun
  split at hrun
  · exact absurd hrun (hfalse _)
  · rename_i henabled
    obtain ⟨_, htype, hrun⟩ := bind_eq_ok.mp hrun
    obtain ⟨_, hparallel, hrun⟩ := bind_eq_ok.mp hrun
    rw [replayGetNextRecordedVictim_cleared, hchosen] at hrun
    simp only at hrun
    split at hrun
    · exact absurd hrun (hfalse _)
    · rename_i hfiber
      obtain ⟨_, hother, hrun⟩ := bind_eq_ok.mp hrun
      split at hrun
      · exact absurd hrun (hfalse _)
      · split at hrun
        · rename_i hlock
          obtain ⟨r, hr, hrun⟩ := bind_eq_ok.mp hrun
          obtain ⟨t', rfl⟩ : ∃ t', r = some (true, t') := by
            obtain ⟨⟨b, t'⟩, rfl, ht⟩ := Option.map_eq_some_iff.mp (pure_eq_ok.mp hrun)
            exact ⟨t', by rw [show b = true from congrArg Prod.fst ht]⟩
          -- the ready list is empty, so the deque was tried
          obtain ⟨hteam, hframe, hsteal⟩ := stealLocked_succeeds (by simpa using hempty) hr
          exact ⟨by simpa using henabled, by simpa using assert_eq_ok.mp htype,
            by simpa using assert_eq_ok.mp hparallel, hchosen, by simpa using hfiber,
            by simpa using assert_eq_ok.mp hother, hlock, by simpa using hteam, hempty,
            by simpa using hframe, by simpa using hsteal⟩
        · obtain ⟨r, hr, hrun⟩ := bind_eq_ok.mp hrun
          obtain rfl := pure_eq_ok.mp hr
          exact absurd hrun (hfalse _)

-- ---------------------------------------------------------------------------
-- The replay of one steal
-- ---------------------------------------------------------------------------

section Replay

variable {g : Globals} {c : Chance} {w victim : WorkerId} {s t : State}

/-- While a log is recorded the victim is drawn and the pedigree is not looked
at. -/
theorem replayGetNextRecordedVictim_record (hg : g.recordOrReplay = .recordLog) (wk : Worker)
    (n : WorkerId) : replayGetNextRecordedVictim g wk n = some n := by
  simp [replayGetNextRecordedVictim, hg]

theorem replayMatch_record (hg : g.recordOrReplay = .recordLog) :
    replayMatchVictimPedigree g s w victim = (true, s) := by
  simp [replayMatchVictimPedigree, hg]

section Entry

variable (r : StealRecord) (w : WorkerId) (e : ReplayEntry)

/-- The replay changes nothing but the log. -/
theorem replay_worker (v : WorkerId) :
    (r.replay w e).worker v =
      { r.before.worker v with
        replayList := ((r.replay w e).worker v).replayList
        replayListEntry := ((r.replay w e).worker v).replayListEntry } := by
  by_cases hv : v = w
  · subst hv
    simp [StealRecord.replay]
  · simp [StealRecord.replay, hv]

theorem headFrame_replay (v : WorkerId) :
    headFrame (r.replay w e) v = headFrame r.before v := by
  unfold headFrame
  rw [replay_worker]

/-- The entry is compared with the frame that was stolen. -/
theorem recorded_replay :
    recorded (r.replay w e) w r.victim =
      e.match .steal (headFrame r.before r.victim).parentPedigree r.victim := by
  have hentry : ((r.replay w e).worker w).replayList[((r.replay w e).worker w).replayListEntry]? =
      some e := by
    simp [StealRecord.replay]
  unfold recorded
  rw [hentry, headFrame_replay, Option.any_some]

/-- The victim in the replay is the value of the entry. -/
theorem replayGetNextRecordedVictim_replay (hg : g.recordOrReplay = .replayLog) (n : WorkerId) :
    replayGetNextRecordedVictim g ((r.replay w e).worker w) n =
      if e.type ≠ .steal ∨ e.value = -1 then none else some e.value.toNat := by
  simp [replayGetNextRecordedVictim, hg, StealRecord.replay]

/-- The replay gets to the frame at the victim's head where the recorded run
did. -/
theorem Reaches.replay (h : Reaches g r.chance w r.before r.victim)
    (chosen : replayGetNextRecordedVictim { g with recordOrReplay := .replayLog }
      ((r.replay w e).worker w) (drawVictim g r.chance w) = some r.victim) :
    Reaches { g with recordOrReplay := .replayLog } r.chance w (r.replay w e) r.victim where
  enabled := h.enabled
  ownTeam := by rw [replay_worker]; exact h.ownTeam
  parallel := h.parallel
  chosen := chosen
  fiber := h.fiber
  other := h.other
  lock := h.lock
  team := by rw [replay_worker, replay_worker r w e r.victim]; exact h.team
  noReady := h.noReady
  frameFf := by rw [replay_worker]; exact h.frameFf
  steal := by rw [replay_worker]; exact h.steal

end Entry

/-- The entry that is loaded, with ranks that are clamped and a victim that is cut. -/
theorem StealRecord.load_eq (lits : Literals) {r : StealRecord} (hnode : PedigreeChain r.pedigree)
    (hfits : Fits r.pedigree) (hcounted : lits.Counted r.pedigree) {buf : List Char}
    (hbuf : buf.length = pedigreeBuffSize) :
    r.load lits buf =
      .ok ⟨r.pedigree.map clampRank, .steal, r.pedigree.length, toInt16 r.victim⟩ := by
  have hload := load_written (.inl rfl) hnode.ne_nil hfits r.victim
  rw [recordedValue, if_pos rfl] at hload
  rw [StealRecord.load, Literals.writeToReplayLog_eq hnode.ne_nil hnode.ranks hfits hcounted hbuf,
    ok_bind, scanRecord_writeToReplayLog (.inl rfl) hnode.ne_nil, ok_bind]
  simp only [pure_eq, hload, if_pos]

/-- A record that survives is loaded as it was written. -/
theorem Survives.load_eq {lits : Literals} {r : StealRecord} (h : Survives lits r.pedigree r.victim)
    (hnode : PedigreeChain r.pedigree) {buf : List Char} (hbuf : buf.length = pedigreeBuffSize) :
    r.load lits buf = .ok ⟨r.pedigree, .steal, r.pedigree.length, r.victim⟩ := by
  have hranks : r.pedigree.map clampRank = r.pedigree :=
    (List.map_congr_left fun rank hrank => clampRank_eq_iff.mpr (h.ranks rank hrank)).trans
      (List.map_id' _)
  have hvictim : toInt16 r.victim = r.victim :=
    (toInt16_eq_iff (by omega)).mpr (by exact_mod_cast h.victim)
  rw [StealRecord.load_eq lits hnode h.fits h.counted hbuf, hranks, hvictim]

/-- An entry is loaded only from a pedigree that fits the buffer and whose formats are
counted right. -/
theorem StealRecord.fits_of_load {lits : Literals} {r : StealRecord}
    (hnode : PedigreeChain r.pedigree) {buf : List Char} (hbuf : buf.length = pedigreeBuffSize)
    {e : ReplayEntry} (h : r.load lits buf = .ok e) :
    Fits r.pedigree ∧ lits.Counted r.pedigree := by
  obtain ⟨line, hline, h⟩ := bind_eq_ok.mp h
  obtain ⟨fields, hfields, -⟩ := bind_eq_ok.mp h
  by_cases hcounted : lits.Counted r.pedigree
  · refine ⟨?_, hcounted⟩
    by_contra hfits
    rw [Literals.writeToReplayLog_overflow hnode.ne_nil hnode.ranks hfits hcounted hbuf] at hline
    cases hline
  · rw [Literals.writeToReplayLog_unread (.inl rfl) hnode.ne_nil hnode.ranks hcounted hbuf hline]
      at hfields
    cases hfields

/-- The thief's own fields in the claimed state. -/
theorem claimed_thief (s : State) {w victim : WorkerId} (hne : victim ≠ w) :
    ((claimed (cleared s w) victim).worker w).frameFf = (s.worker w).frameFf ∧
      ((claimed (cleared s w) victim).worker w).nextFrameFf = (s.worker w).nextFrameFf := by
  simp [claimed, cleared, hne.symm]

/-- What a steal from a deque has found is enough for the replay to make it, and
to consume the record, if that survives. -/
theorem Reaches.reproduces {lits : Literals} (r : StealRecord)
    (h : Reaches g r.chance w r.before r.victim) (hnode : PedigreeChain r.pedigree)
    (hped : r.pedigree = (headFrame r.before r.victim).parentPedigree)
    (hsurvives : Survives lits r.pedigree r.victim)
    (hnuma : matchNumaSf (r.before.worker w).numaNode (headFrame r.before r.victim) = true)
    (hframe : (r.before.worker w).frameFf = none)
    (hnext : (r.before.worker w).nextFrameFf = none) : r.Reproduces lits g w := by
  intro buf hbuf
  set e : ReplayEntry := ⟨r.pedigree, .steal, r.pedigree.length, r.victim⟩ with he
  have hload : r.load lits buf = .ok e := hsurvives.load_eq hnode hbuf
  have hchosen : replayGetNextRecordedVictim { g with recordOrReplay := .replayLog }
      ((r.replay w e).worker w) (drawVictim g r.chance w) = some r.victim := by
    have hne : (r.victim : Int) ≠ -1 := by omega
    rw [replayGetNextRecordedVictim_replay r w e rfl, if_neg (by simp [he, hne]),
      Int.toNat_natCast]
  -- the replay draws the recorded victim, and gets as far as the recorded run
  have hreplay := h.replay r w e hchosen
  set g' : Globals := { g with recordOrReplay := .replayLog } with hg'
  -- the pedigree that is loaded is the one at the victim's head
  have hrecorded : recorded (r.replay w e) w r.victim = true := by
    rw [recorded_replay, match_iff rfl]
    exact ⟨rfl, fun _ => rfl, hped.symm⟩
  obtain ⟨-, hhead, hthief⟩ := recorded_claimed (r.replay w e) w r.victim
  have hmatch : (replayMatchVictimPedigree g' (claimed (cleared (r.replay w e) w) r.victim) w
      r.victim).1 = true := by
    rw [replayMatch_claimed, proceeds, hrecorded, Bool.or_true]
  obtain ⟨t, ht⟩ : ∃ t, detachForSteal (replayMatchVictimPedigree g'
      (claimed (cleared (r.replay w e) w) r.victim) w r.victim).2 r.chance w r.victim = .ok t := by
    obtain ⟨hf, hn⟩ := claimed_thief (r.replay w e) h.other
    refine detachForSteal_returns h.other ?_ ?_
    · rw [(replayMatch_worker g' _ w r.victim w).2.2, hf, replay_worker]
      exact hframe
    · have hkeep : ((replayMatchVictimPedigree g' (claimed (cleared (r.replay w e) w) r.victim) w
          r.victim).2.worker w).nextFrameFf =
            ((claimed (cleared (r.replay w e) w) r.victim).worker w).nextFrameFf := by
        unfold replayMatchVictimPedigree
        split
        · split
          · simp
          · rfl
        · rfl
      rw [hkeep, hn, replay_worker]
      exact hnext
  have hsteal := stealFromDeque_succeeds.mpr ⟨hmatch, by
    rw [hthief, hhead, headFrame_replay, replay_worker]
    exact hnuma, ht⟩
  refine ⟨e, (finished w (true, t)).2, hload, hchosen, ?_, ?_⟩
  · rw [randomSteal_of_reaches hreplay, hsteal]
    rfl
  · simp only [finished, State.modWorker_self]
    rw [(detachForSteal_ok h.other ht).2.2, replayMatch_entry, if_pos ⟨rfl, hrecorded⟩]
    simp [StealRecord.replay, nextEntry, ReplayEntry.skipped]

/-- An attempt that succeeds on a claimed deque. -/
theorem stealFromDeque_of_map {x : Checked (Option (Bool × State))}
    (h : x.map (Option.map (finished w)) = .ok (some (true, t))) :
    ∃ t', x = .ok (some (true, t')) ∧ t = t'.modWorker w fun wk => { wk with workStolen := true } := by
  cases x with
  | error e => exact absurd h (by simp [Except.map])
  | ok x =>
    obtain ⟨⟨b, t'⟩, rfl, ht⟩ := Option.map_eq_some_iff.mp (Except.ok.inj h)
    obtain rfl : b = true := congrArg Prod.fst ht
    exact ⟨t', rfl, (congrArg Prod.snd ht).symm⟩

/-- A steal from a deque that is reproduced has found its frame in the log, so the record
has survived: the entry that was loaded accepts what was recorded. -/
theorem Survives.of_reproduces {lits : Literals} (r : StealRecord)
    (hnode : PedigreeChain r.pedigree)
    (hped : r.pedigree = (headFrame r.before r.victim).parentPedigree)
    (empty : r.before.readyLists.next (.head (.worker r.victim)) = none)
    (h : r.Reproduces lits g w) : Survives lits r.pedigree r.victim := by
  have hbuf : (List.replicate pedigreeBuffSize '\x00').length = pedigreeBuffSize :=
    List.length_replicate
  obtain ⟨e, t, hload, hchosen, hrun, -⟩ := h _ hbuf
  obtain ⟨hfits, hcounted⟩ := StealRecord.fits_of_load hnode hbuf hload
  rw [StealRecord.load_eq lits hnode hfits hcounted hbuf] at hload
  obtain rfl := Except.ok.inj hload
  have hreach := randomSteal_succeeds hchosen empty hrun
  rw [randomSteal_of_reaches hreach] at hrun
  obtain ⟨t', hsteal, -⟩ := stealFromDeque_of_map hrun
  obtain ⟨hmatch, -, -⟩ := stealFromDeque_succeeds.mp hsteal
  rw [replayMatch_claimed, proceeds, recorded_replay, ← hped] at hmatch
  rw [decide_eq_false (not_not.mpr rfl), Bool.false_or] at hmatch
  have hlen : (r.pedigree.length : Int) = (r.pedigree.map clampRank).length := by
    rw [List.length_map]
  obtain ⟨-, hvictim, hranks⟩ := (match_iff (by exact hlen)).mp hmatch
  refine ⟨hfits, hcounted, fun rank hrank => ?_, ?_⟩
  · have hmap : r.pedigree.map clampRank = r.pedigree.map id := by
      rw [List.map_id]
      exact hranks.symm
    have hrank : clampRank rank = id rank := List.map_inj_left.mp hmap rank hrank
    rw [id_eq] at hrank
    exact clampRank_eq_iff.mp hrank
  · have hcut := hvictim rfl
    dsimp only at hcut
    have hlt := (toInt16_eq_iff (Int.natCast_nonneg r.victim)).mp hcut.symm
    exact_mod_cast hlt

/-- A steal from a deque can be reproduced exactly if its record survives. -/
theorem reproduces_iff_of_deque {lits : Literals} (hg : g.recordOrReplay = .recordLog)
    (empty : s.readyLists.next (.head (.worker (drawVictim g c w))) = none)
    (node : PedigreeChain (headFrame s (drawVictim g c w)).parentPedigree)
    (stolen : randomSteal g c w s = .ok (some (true, t))) :
    (drawVictim g c w ≠ w) ∧ (StealRecord.Reproduces lits
      ⟨(headFrame s (drawVictim g c w)).parentPedigree, drawVictim g c w, s, c⟩ g w ↔
      Survives lits (headFrame s (drawVictim g c w)).parentPedigree (drawVictim g c w)) := by
  have hreach : Reaches g c w s (drawVictim g c w) :=
    randomSteal_succeeds (replayGetNextRecordedVictim_record hg _ _) empty stolen
  rw [randomSteal_of_reaches hreach] at stolen
  obtain ⟨t', hsteal, -⟩ := stealFromDeque_of_map stolen
  obtain ⟨-, hnuma, hdetach⟩ := stealFromDeque_succeeds.mp hsteal
  rw [replayMatch_record hg] at hdetach
  obtain ⟨hframe, hnext, -⟩ := detachForSteal_ok hreach.other hdetach
  obtain ⟨-, hhead, hthief⟩ := recorded_claimed s w (drawVictim g c w)
  obtain ⟨hf, hn⟩ := claimed_thief s hreach.other
  rw [hhead, hthief] at hnuma
  rw [hf] at hframe
  rw [hn] at hnext
  refine ⟨hreach.other, fun h => Survives.of_reproduces _ node rfl empty h, fun h => ?_⟩
  exact Reaches.reproduces ⟨_, drawVictim g c w, s, c⟩ hreach node rfl h hnuma hframe hnext

/-- A worker that has stolen while a log is recorded has stolen from another. -/
theorem randomSteal_other (hg : g.recordOrReplay = .recordLog)
    (hrun : randomSteal g c w s = .ok (some (true, t))) : drawVictim g c w ≠ w := by
  have hfalse : (pure (some (false, cleared s w)) : Checked (Option (Bool × State))) ≠
      .ok (some (true, t)) := by
    intro h
    exact Bool.false_ne_true (congrArg Prod.fst (Option.some.inj (pure_eq_ok.mp h)))
  unfold randomSteal at hrun
  simp only [show (s.modWorker w fun wk => { wk with workStolen := false }) = cleared s w from rfl,
    replayGetNextRecordedVictim_record hg] at hrun
  split at hrun
  · exact absurd hrun hfalse
  · obtain ⟨_, -, hrun⟩ := bind_eq_ok.mp hrun
    obtain ⟨_, -, hrun⟩ := bind_eq_ok.mp hrun
    split at hrun
    · exact absurd hrun hfalse
    · obtain ⟨_, hother, -⟩ := bind_eq_ok.mp hrun
      simpa using assert_eq_ok.mp hother

/-- A steal from a ready list consumes no record. -/
theorem randomSteal_entry {b : Bool}
    (hchosen : replayGetNextRecordedVictim g (s.worker w) (drawVictim g c w) = some victim)
    (ready : s.readyLists.next (.head (.worker victim)) ≠ none)
    (hrun : randomSteal g c w s = .ok (some (b, t))) :
    (t.worker w).replayListEntry = (s.worker w).replayListEntry := by
  have hpure : (pure (some (false, cleared s w)) : Checked (Option (Bool × State))) =
      .ok (some (b, t)) → (t.worker w).replayListEntry = (s.worker w).replayListEntry := by
    intro h
    have ht : cleared s w = t := congrArg Prod.snd (Option.some.inj (pure_eq_ok.mp h))
    rw [← ht, cleared_replayListEntry]
  unfold randomSteal at hrun
  simp only [show (s.modWorker w fun wk => { wk with workStolen := false }) = cleared s w from rfl]
    at hrun
  split at hrun
  · exact hpure hrun
  · obtain ⟨_, -, hrun⟩ := bind_eq_ok.mp hrun
    obtain ⟨_, -, hrun⟩ := bind_eq_ok.mp hrun
    rw [replayGetNextRecordedVictim_cleared, hchosen] at hrun
    simp only at hrun
    split at hrun
    · exact hpure hrun
    · obtain ⟨_, -, hrun⟩ := bind_eq_ok.mp hrun
      split at hrun
      · exact hpure hrun
      · obtain ⟨r, hr, ht⟩ : ∃ r, (stealLocked g (cleared s w) c w victim = .ok r ∨
            pure (some (false, cleared s w)) = Except.ok (ε := String) r) ∧
              r.map (finished w) = some (b, t) := by
          split at hrun
          · obtain ⟨r, hr, hrun⟩ := bind_eq_ok.mp hrun
            exact ⟨r, Or.inl hr, pure_eq_ok.mp hrun⟩
          · obtain ⟨r, hr, hrun⟩ := bind_eq_ok.mp hrun
            exact ⟨r, Or.inr hr, pure_eq_ok.mp hrun⟩
        obtain ⟨⟨b', t'⟩, rfl, hfin⟩ := Option.map_eq_some_iff.mp ht
        have hkeep : (t'.worker w).replayListEntry = ((cleared s w).worker w).replayListEntry := by
          rcases hr with hr | hr
          · unfold stealLocked at hr
            rw [cleared_readyLists, Option.isSome_iff_ne_none.mpr ready, if_pos rfl] at hr
            split at hr
            · have hu := congrArg Prod.snd (Option.some.inj (pure_eq_ok.mp hr))
              rw [← (show cleared s w = t' from hu)]
            · exact stealFromReadyList_entry hr
          · have hu := congrArg Prod.snd (Option.some.inj (pure_eq_ok.mp hr))
            rw [← (show cleared s w = t' from hu)]
        have ht' : (finished w (b', t')).2 = t := by rw [hfin]
        rw [← ht']
        simp only [finished, State.modWorker_self]
        rw [hkeep, cleared_replayListEntry]

/-- A steal from a ready list cannot be reproduced. -/
theorem not_reproduces_of_readyList {lits : Literals} (r : StealRecord)
    (ready : r.before.readyLists.next (.head (.worker r.victim)) ≠ none) :
    ¬ r.Reproduces lits g w := by
  intro h
  obtain ⟨e, t, -, hchosen, hrun, hone⟩ := h (List.replicate pedigreeBuffSize '\x00')
    List.length_replicate
  have hentry := randomSteal_entry hchosen ready hrun
  rw [hone] at hentry
  simp [StealRecord.replay] at hentry

/-- A worker that has stolen from its own ready list has found a frame there. -/
theorem ownReadyListSteal_ready (h : ownReadyListSteal g c w s = .ok (some (true, t))) :
    s.readyLists.next (.head (.worker w)) ≠ none := by
  have hfalse : (pure (some (false, cleared s w)) : Checked (Option (Bool × State))) ≠
      .ok (some (true, t)) := by
    intro h
    exact Bool.false_ne_true (congrArg Prod.fst (Option.some.inj (pure_eq_ok.mp h)))
  intro hnone
  unfold ownReadyListSteal at h
  simp only [show (s.modWorker w fun wk => { wk with workStolen := false }) = cleared s w from rfl,
    cleared_readyLists, hnone, Option.isNone_none, if_true] at h
  split at h
  · exact hfalse h
  · obtain ⟨_, -, h⟩ := bind_eq_ok.mp h
    obtain ⟨_, -, h⟩ := bind_eq_ok.mp h
    split at h
    · exact hfalse h
    · exact hfalse h

end Replay

-- ---------------------------------------------------------------------------
-- Whole runs
-- ---------------------------------------------------------------------------

section Runs

variable {g : Globals}

/-- A property of the records holds after a step iff it held before and the step
records one with it. -/
theorem forall_record {P : WorkerId → StealRecord → Prop} (s : RecordState) (w : WorkerId)
    (t : State) (r : StealRecord) :
    (∀ v, ∀ r' ∈ (s.record w t r).log v, P v r') ↔ (∀ v, ∀ r' ∈ s.log v, P v r') ∧ P w r := by
  constructor
  · intro h
    refine ⟨fun v r' hr' => ?_, ?_⟩
    · by_cases hv : v = w
      · subst hv
        exact h v r' (by simp [RecordState.record, hr'])
      · exact h v r' (by simpa [RecordState.record, hv] using hr')
    · exact h w r (by simp [RecordState.record])
  · rintro ⟨hold, hnew⟩ v r' hr'
    by_cases hv : v = w
    · subst hv
      have hmem : r' ∈ s.log v ∨ r' = r := by simpa [RecordState.record] using hr'
      rcases hmem with hmem | rfl
      · exact hold v r' hmem
      · exact hnew
    · exact hold v r' (by simpa [RecordState.record, hv] using hr')

/-- A step keeps that all records name others iff it does not steal from the
worker's own ready list, and the victim's number is not cut to the thief's. -/
theorem namesOthers_step (hg : g.recordOrReplay = .recordLog) {s t : RecordState}
    {e : RecordEvent} (h : NamesOthers s) (hstep : RecordStep g s e t) :
    NamesOthers t ↔ NotOwnList s e := by
  -- What is recorded names another worker if the record does, as it is loaded.
  have hsteal : ∀ (w : WorkerId) (u : State) (r : StealRecord) (source : Source),
      (r.victim ≠ w ↔ source ≠ .ownReadyList) →
      (NamesOthers (s.record w u r) ↔ NotOwnList s (.steal w r.victim source)) := by
    intro w u r source hvictim
    unfold NamesOthers
    rw [forall_record (P := fun v r => r.victim ≠ v ∧ toInt16 r.victim ≠ v), hvictim]
    constructor
    · rintro ⟨-, hnew⟩ w' v source' he
      obtain ⟨rfl, rfl, rfl⟩ := RecordEvent.steal.inj he
      exact hnew
    · exact fun hnot => ⟨h, hnot _ _ _ rfl⟩
  cases hstep with
  | other u =>
    refine ⟨fun _ _ _ _ he => ?_, fun _ => h⟩
    cases he
  | deque empty node stolen =>
    have hother := randomSteal_other hg stolen
    exact hsteal _ _ _ .deque (iff_of_true hother (by decide))
  | readyList ready stolen =>
    have hother := randomSteal_other hg stolen
    exact hsteal _ _ _ .readyList (iff_of_true hother (by decide))
  | ownReadyList stolen =>
    exact hsteal _ _ _ .ownReadyList (iff_of_false (fun hne => hne rfl) (fun hne => hne rfl))

/-- A step keeps that all records can be reproduced iff it does not steal from a
ready list, and what it records survives. -/
theorem allReproduce_step {lits : Literals} (hg : g.recordOrReplay = .recordLog)
    {s t : RecordState} {e : RecordEvent} (h : AllReproduce lits g s)
    (hstep : RecordStep g s e t) : AllReproduce lits g t ↔ FromDeque lits s e := by
  cases hstep with
  | other u =>
    refine ⟨fun _ _ _ _ he => ?_, fun _ => h⟩
    cases he
  | deque empty node stolen =>
    unfold AllReproduce
    rw [forall_record (P := fun v r => r.Reproduces lits g v),
      (reproduces_iff_of_deque hg empty node stolen).2]
    constructor
    · rintro ⟨-, hsurvives⟩ w v source he
      obtain ⟨rfl, rfl, rfl⟩ := RecordEvent.steal.inj he
      exact ⟨rfl, hsurvives⟩
    · exact fun hdeque => ⟨h, (hdeque _ _ _ rfl).2⟩
  | readyList ready stolen =>
    unfold AllReproduce
    rw [forall_record (P := fun v r => r.Reproduces lits g v)]
    exact ⟨fun hnew => absurd hnew.2 (not_reproduces_of_readyList _ ready),
      fun hdeque => absurd (hdeque _ _ _ rfl).1 (by decide)⟩
  | ownReadyList stolen =>
    have hready := ownReadyListSteal_ready stolen
    unfold AllReproduce
    rw [forall_record (P := fun v r => r.Reproduces lits g v)]
    exact ⟨fun hnew => absurd hnew.2 (not_reproduces_of_readyList _ hready),
      fun hdeque => absurd (hdeque _ _ _ rfl).1 (by decide)⟩

/--
Along a recorded run all records name another worker than the log's owner iff nobody
steals from its own ready list, and no victim's number becomes the thief's when it is
loaded. All recorded steals can be reproduced iff all take a frame from a deque and
their records survive.
-/
theorem recordedSteals_iff (lits : Literals) (hg : g.recordOrReplay = .recordLog)
    {s : RecordState} {tr : List (RecordEvent × RecordState)} (hinit : (recordSystem g).init s)
    (hpath : (recordSystem g).IsPath s tr) :
    ((∀ p ∈ tr, NamesOthers p.2) ↔ LTS.AllSteps NotOwnList s tr) ∧
      ((∀ p ∈ tr, AllReproduce lits g p.2) ↔ LTS.AllSteps (FromDeque lits) s tr) := by
  have hempty : ∀ w, s.log w = [] := hinit
  constructor
  · refine LTS.forall_states_iff_steps (T := recordSystem g) (P := NamesOthers) (C := NotOwnList)
      (fun _ h => h) (fun _ _ _ h hstep => (namesOthers_step hg h hstep).mpr)
      (fun _ _ _ h hstep => (namesOthers_step hg h hstep).mp) ?_ hpath
    intro w r hr
    simp [hempty w] at hr
  · refine LTS.forall_states_iff_steps (T := recordSystem g) (P := AllReproduce lits g)
      (C := FromDeque lits)
      (fun _ h => h) (fun _ _ _ h hstep => (allReproduce_step hg h hstep).mpr)
      (fun _ _ _ h hstep => (allReproduce_step hg h hstep).mp) ?_ hpath
    intro w r hr
    simp [hempty w] at hr

end Runs

-- ---------------------------------------------------------------------------
-- Two workers
-- ---------------------------------------------------------------------------

/-- Two workers that record a log. Worker 0 has a frame on its deque, with the pedigree
3 of a child of 7; if `pending`, it has none, and a frame on its ready list. -/
def twoRecording (pending : Bool) : State where
  worker w :=
    { type := .system, team := some 0, numaNode := 0
      deque :=
        { head := 0, tail := if w = 0 ∧ ¬ pending then 1 else 0, protectedTail := 8, exc := .slot 0
          ltq := fun _ => ⟨false, 0, 0, [3, 7]⟩ }
      frameFf := if w = 0 ∧ ¬ pending then some 5 else none
      nextFrameFf := none, lastFullFrame := none, workStolen := false
      replayList := [], replayListEntry := 0 }
  readyLists :=
    let empty := ReadyList.Memory.initial fun _ => ⟨0, 0⟩
    if pending then ReadyList.addPendingToReadyList empty 0 7 else empty
  pfTeam _ := some 0

def recordingWorkers : Globals := ⟨2, false, .recordLog⟩

/-- Nothing is recorded yet. -/
def beforeSteals : RecordState := ⟨twoRecording false, fun _ => []⟩

/-- Worker 1 has stolen the frame on worker 0's deque. -/
def afterSteal : RecordState :=
  beforeSteals.record 1
    (match randomSteal recordingWorkers freeVictim 1 beforeSteals.run with
      | .ok (some (_, t)) => t
      | _ => beforeSteals.run)
    ⟨[3, 7], 0, beforeSteals.run, freeVictim⟩

theorem afterSteal_step :
    RecordStep recordingWorkers beforeSteals (.steal 1 0 .deque) afterSteal :=
  .deque (c := freeVictim) rfl ⟨List.cons_ne_nil _ _, by decide⟩ rfl

/-- Later worker 0 has nothing to do but the frame on its own ready list. -/
def beforeOwnSteal : RecordState := { afterSteal with run := twoRecording true }

/-- It has stolen that. -/
def afterOwnSteal : RecordState :=
  beforeOwnSteal.record 0
    (match ownReadyListSteal recordingWorkers freeVictim 0 beforeOwnSteal.run with
      | .ok (some (_, t)) => t
      | _ => beforeOwnSteal.run)
    ⟨[4, 7], 0, beforeOwnSteal.run, freeVictim⟩

theorem afterOwnSteal_step :
    RecordStep recordingWorkers beforeOwnSteal (.steal 0 0 .ownReadyList) afterOwnSteal :=
  .ownReadyList (c := freeVictim) rfl

def recordedRun : List (RecordEvent × RecordState) :=
  [(.steal 1 0 .deque, afterSteal), (.other, beforeOwnSteal),
    (.steal 0 0 .ownReadyList, afterOwnSteal)]

theorem recordedRun_isPath : (recordSystem recordingWorkers).IsPath beforeSteals recordedRun :=
  ⟨afterSteal_step, .other _, afterOwnSteal_step, trivial⟩

theorem survives_example : Survives inOrder [3, 7] 0 :=
  ⟨by unfold Fits; decide, inOrder_counted _, by decide, by decide⟩

/-- The first record names another worker and is reproduced, the second one neither. -/
theorem recordedSteals_iff_recordedRun :
    (∀ p ∈ recordedRun.take 2, NamesOthers p.2 ∧ AllReproduce inOrder recordingWorkers p.2) ∧
      (¬ ∀ p ∈ recordedRun, NamesOthers p.2) ∧
      ¬ ∀ p ∈ recordedRun, AllReproduce inOrder recordingWorkers p.2 := by
  have hpath := recordedRun_isPath
  have hfront := recordedSteals_iff inOrder (g := recordingWorkers) rfl (s := beforeSteals)
    (fun _ => rfl) (show LTS.IsPath _ _ (recordedRun.take 2) from ⟨hpath.1, hpath.2.1, trivial⟩)
  have hrun := recordedSteals_iff inOrder (g := recordingWorkers) rfl (s := beforeSteals)
    (fun _ => rfl) hpath
  have hothers : LTS.AllSteps NotOwnList beforeSteals (recordedRun.take 2) := by
    refine ⟨fun w v source he => ?_, fun w v source he => ?_, trivial⟩
    · obtain ⟨rfl, rfl, rfl⟩ := RecordEvent.steal.inj he
      exact ⟨by decide, by decide⟩
    · cases he
  have hdeque : LTS.AllSteps (FromDeque inOrder) beforeSteals (recordedRun.take 2) := by
    refine ⟨fun w v source he => ?_, fun w v source he => ?_, trivial⟩
    · obtain ⟨rfl, rfl, rfl⟩ := RecordEvent.steal.inj he
      exact ⟨rfl, survives_example⟩
    · cases he
  refine ⟨fun p hp => ⟨hfront.1.mpr hothers p hp, hfront.2.mpr hdeque p hp⟩, ?_, ?_⟩
  · intro hall
    exact ((hrun.1.mp hall).2.2.1 0 0 .ownReadyList rfl).1 rfl
  · intro hall
    exact absurd ((hrun.2.mp hall).2.2.1 0 0 .ownReadyList rfl).1 (by decide)

/-- The log of a worker that steals from itself names it as the victim, and no replay
makes the steal. -/
theorem ownReadyList_not_replayable :
    ¬ ∀ s, (recordSystem recordingWorkers).Reachable s →
      NamesOthers s ∧ AllReproduce inOrder recordingWorkers s := by
  intro hall
  have hinit : (recordSystem recordingWorkers).Reachable beforeSteals := .init fun _ => rfl
  have hreach := ((hinit.step afterSteal_step).step (.other (twoRecording true))).step
    afterOwnSteal_step
  have hothers := (hall _ hreach).1 0 _ (show _ ∈ afterOwnSteal.log 0 from List.mem_singleton.mpr rfl)
  exact hothers.1 rfl

end SwanRuntime.Stealing
