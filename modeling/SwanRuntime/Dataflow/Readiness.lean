import SwanRuntime.Dataflow.Invariant

/-!
# Dataflow — the test whether a task may run at once

A spawn asks `ini_ready` for each object, without a lock, and if all agree it
runs the task directly. The task is then issued only if its parent is stolen,
with a null frame, and `add_task` takes it for granted that the object admits
it. So the test must agree with the classification that `add_task` makes for a
task with a frame, and the short path must leave the fields as the long one
would.

One object is followed here, through any calls. The 32-bit `num_gens` sets the
limit again: with `2 ^ 32` live tasks it may be 0 while tasks wait.

## Results

* `objectSystem_represented` — what the fields stand for in every state.
* `iniReady_agrees`          — the test and the two paths agree.
* `overflow_disagrees`       — they do not once `num_gens` has wrapped around.
-/

namespace SwanRuntime.Dataflow

-- ---------------------------------------------------------------------------
-- One object
-- ---------------------------------------------------------------------------

/-- The metadata of an object, and the number of tasks that have been added and
have not called wakeup. -/
structure ObjState where
  md   : Metadata
  live : Nat

inductive ObjEvent
  | addTask (t : TaskId) (g : Group)
  /-- The spawn has found the object ready and runs the task without a frame. -/
  | addNull (g : Group)
  | wakeup
deriving DecidableEq, Repr

/-- The calls on one object. Each holds the lock of the object. A task that
waits in the list does not call `wakeup`. -/
inductive ObjStep (s : ObjState) : ObjEvent → ObjState → Prop
  | addTask (t : TaskId) (g : Group) :
    ObjStep s (.addTask t g) ⟨(addTask (some t) s.md g.bits).1, s.live + 1⟩
  | addNull (g : Group) (ready : iniReady s.md g.bits = true) :
    ObjStep s (.addNull g) ⟨(addTask none s.md g.bits).1, s.live + 1⟩
  | wakeup (running : s.md.tasks.length < s.live) :
    ObjStep s .wakeup ⟨(Dataflow.wakeup s.md).1, s.live - 1⟩

def objectSystem : LTS ObjState ObjEvent where
  init s := s = ⟨.initial, 0⟩
  step := ObjStep

/-- The call leaves fewer than `2 ^ 32` tasks live. -/
def ObjRoom (s : ObjState) : ObjEvent → Prop
  | .addTask _ _ | .addNull _ => s.live + 1 < 2 ^ 32
  | .wakeup => True

/-- `ini_ready` holds iff `add_task` would count no object of the task as
incoming, iff it would leave the list alone; and then it does to the fields
what it does without a frame. -/
structure ReadyAgrees (md : Metadata) (g : Group) : Prop where
  incoming : ∀ t, iniReady md g.bits = true ↔ (addTask (some t) md g.bits).2 = 0
  list     : ∀ t, iniReady md g.bits = true ↔ (addTask (some t) md g.bits).1.tasks = md.tasks
  fields   : iniReady md g.bits = true →
    ∀ t, (addTask none md g.bits).1 = (addTask (some t) md g.bits).1

-- ---------------------------------------------------------------------------
-- What the fields stand for
-- ---------------------------------------------------------------------------

/-- The fields stand for a view of the live tasks, and no counter has wrapped
around. -/
def ObjRepresented (s : ObjState) : Prop :=
  ∃ v, Represents s.md v ∧ v.oldest + v.waiting.flatten.length = s.live ∧ s.live < 2 ^ 32

theorem ObjRepresented.of {md : Metadata} {live : Nat} {v : View} (h : Represents md v)
    (hcount : v.oldest + v.waiting.flatten.length = live) (hlt : live < 2 ^ 32) :
    ObjRepresented ⟨md, live⟩ := ⟨v, h, hcount, hlt⟩

theorem length_waiting {md : Metadata} {v : View} (h : Represents md v) :
    v.waiting.flatten.length = md.tasks.length := by
  rw [← h.waiting, gens_flatten, List.length_map]

/-- The counts of a view are bounded by the number of live tasks. -/
theorem Represents.fits {md : Metadata} {v : View} (h : Represents md v)
    (hlt : v.oldest + v.waiting.flatten.length < 2 ^ 32) :
    v.Fits ∧ v.waiting.length ≤ v.oldest + v.waiting.flatten.length - 1 := by
  have hgens : v.waiting.length ≤ v.waiting.flatten.length := by
    refine length_le_flatten fun G hG => ?_
    rw [← h.waiting] at hG
    exact ne_nil_of_mem_gens hG
  have hroom : v.waiting.length ≤ v.oldest + v.waiting.flatten.length - 1 := by
    by_cases h0 : v.oldest = 0
    · rw [h.idle h0]
      exact Nat.zero_le _
    · omega
  refine ⟨⟨by omega, ?_, fun G hG => ?_⟩, hroom⟩
  · by_cases h0 : v.oldest = 0
    · rw [h.idle h0]
      decide
    · omega
  · have := length_mem_le_flatten hG
    omega

/-- A task more. -/
theorem View.count_add (v : View) (t : TaskId) (g : Group) :
    (v.add t g).oldest + (v.add t g).waiting.flatten.length =
      v.oldest + v.waiting.flatten.length + 1 := by
  unfold View.add
  by_cases ha : v.Admits g
  · simp only [if_pos ha]
    omega
  · by_cases hj : v.Joins g
    · simp only [if_neg ha, if_pos hj, flatten_appendLast, List.length_append]
      rfl
    · simp only [if_neg ha, if_neg hj, List.flatten_append, List.length_append]
      rfl

/-- A task less. -/
theorem View.count_wakeup {v : View} (h0 : v.oldest ≠ 0) :
    v.wakeup.oldest + v.wakeup.waiting.flatten.length =
      v.oldest + v.waiting.flatten.length - 1 := by
  unfold View.wakeup
  by_cases h1 : 1 < v.oldest
  · rw [if_pos h1]
    show v.oldest - 1 + v.waiting.flatten.length = _
    omega
  · rw [if_neg h1]
    cases hw : v.waiting with
    | nil =>
      show 0 + 0 = v.oldest + 0 - 1
      omega
    | cons G gs =>
      show G.length + gs.flatten.length = v.oldest + (G ++ gs.flatten).length - 1
      rw [List.length_append]
      omega

/-- Every call keeps the representation. -/
theorem ObjRepresented.step {s t : ObjState} {e : ObjEvent} (h : ObjRepresented s)
    (hstep : ObjStep s e t) (hroom : ObjRoom s e) : ObjRepresented t := by
  obtain ⟨v, hrep, hcount, hlt⟩ := h
  obtain ⟨hfits, hlen⟩ := hrep.fits (by omega)
  -- the abstract view makes the same step
  cases hstep with
  | addTask t g =>
    have hroom : s.live + 1 < 2 ^ 32 := hroom
    have hadd := (addTask_represents hrep hfits (by omega) t g).1
    refine ⟨v.add t g, hadd, ?_, hroom⟩
    rw [View.count_add, hcount]
  | addNull g ready =>
    have hroom : s.live + 1 < 2 ^ 32 := hroom
    have ha := (hrep.iniReady_iff g).mp ready
    refine ⟨_, addNull_represents hrep hfits ha, ?_, hroom⟩
    rw [ha.1] at hcount
    show v.oldest + 1 + 0 = s.live + 1
    have : v.oldest + 0 = s.live := hcount
    omega
  | wakeup running =>
    rw [← length_waiting hrep] at running
    -- somebody is active, since not all live tasks wait
    have h0 : v.oldest ≠ 0 := by omega
    have hwake := (wakeup_represents hrep hfits h0).1
    refine .of hwake ?_ ?_
    · rw [View.count_wakeup h0, hcount]
    · omega

theorem objectSystem_represented {s : ObjState}
    (h : (objectSystem.restrict ObjRoom).Reachable s) : ObjRepresented s := by
  refine LTS.Reachable.invariant (T := objectSystem.restrict ObjRoom) ?_ ?_ h
  · rintro s rfl
    exact ⟨⟨0, [], none⟩, represents_initial, rfl, Nat.two_pow_pos 32⟩
  · intro s e t hs hstep
    exact hs.step hstep.1 hstep.2

-- ---------------------------------------------------------------------------
-- The test
-- ---------------------------------------------------------------------------

theorem length_setLast (l : List Node) (b : Bool) : (setLast l b).length = l.length := by
  induction l with
  | nil => rfl
  | cons n l ih =>
    cases l with
    | nil => rfl
    | cons m l => rw [setLast, List.length_cons, ih]; rfl

/-- The three masks agree on what a view stands for. -/
theorem Represents.readyAgrees {md : Metadata} {v : View} (h : Represents md v) (g : Group) :
    ReadyAgrees md g := by
  have hini := h.iniReady_iff g
  have hready := h.ready_eq g
  refine ⟨fun t => ?_, fun t => ?_, fun hr t => ?_⟩
  · rw [hini]
    simp only [addTask, hready]
    by_cases ha : v.Admits g <;> simp [ha]
  · rw [hini]
    simp only [addTask, hready]
    by_cases ha : v.Admits g
    · simp [ha]
    · -- the list has become longer
      have hne : setLast md.tasks (pushg md g.bits) ++ [⟨t, false⟩] ≠ md.tasks := by
        intro he
        have hlen := congrArg List.length he
        rw [List.length_append, length_setLast, List.length_singleton] at hlen
        omega
      simp [ha, hne]
  · have ha := hini.mp hr
    have hgens : (md.numGens + (pushg md g.bits).toNat) % 2 ^ 32 = 1 := by
      rw [h.numGens, h.pushg_eq]
      rcases ha.2 with h0 | hj
      · -- the object is idle, and the task starts a generation
        have hj : ¬ v.Joins g := by
          rintro ⟨hy, -⟩
          rw [h.empty.mp h0] at hy
          exact absurd hy (by simp)
        simp [h0, hj]
      · -- the task joins the only generation
        have h0 : v.oldest ≠ 0 := by
          rw [Ne, h.empty, hj.1]
          simp
        simp [h0, hj, ha.1]
    simp only [addTask, hready, ha, decide_true, if_true, hgens, Bool.toNat_true]

/-- In every state reached while fewer than `2 ^ 32` tasks are live, the test
without the lock, `add_task` with a frame and `add_task` without one agree. -/
theorem iniReady_agrees {s : ObjState} (h : (objectSystem.restrict ObjRoom).Reachable s)
    (g : Group) : ReadyAgrees s.md g := by
  obtain ⟨v, hrep, -, -⟩ := objectSystem_represented h
  exact hrep.readyAgrees g

/-- An object that two readers hold. -/
def exampleReaders : ObjState :=
  ⟨(addTask (some 1) (addTask (some 0) .initial Group.read.bits).1 Group.read.bits).1, 2⟩

/-- A writer and a commutative update wait behind the readers. -/
def exampleQueue : ObjState :=
  ⟨(addTask (some 3) (addTask (some 2) exampleReaders.md Group.write.bits).1
    Group.commut.bits).1, 4⟩

theorem exampleReaders_reachable : (objectSystem.restrict ObjRoom).Reachable exampleReaders :=
  .step (.step (.init rfl) ⟨.addTask 0 .read, show 0 + 1 < 2 ^ 32 by decide⟩)
    ⟨.addTask 1 .read, show 1 + 1 < 2 ^ 32 by decide⟩

theorem exampleQueue_reachable : (objectSystem.restrict ObjRoom).Reachable exampleQueue :=
  .step (.step exampleReaders_reachable ⟨.addTask 2 .write, show 2 + 1 < 2 ^ 32 by decide⟩)
    ⟨.addTask 3 .commut, show 3 + 1 < 2 ^ 32 by decide⟩

/-- A third reader may run beside the two, and nothing may run past the queue. -/
theorem iniReady_agrees_exampleQueue :
    (iniReady exampleReaders.md Group.read.bits = true ∧
      ReadyAgrees exampleReaders.md .read ∧ ReadyAgrees exampleReaders.md .write ∧
      ReadyAgrees exampleReaders.md .commut) ∧
    (exampleQueue.md.oldestNumTasks = 2 ∧ exampleQueue.md.numGens = 3 ∧
      exampleQueue.md.tasks = [⟨2, true⟩, ⟨3, false⟩]) ∧
    ReadyAgrees exampleQueue.md .read ∧ ReadyAgrees exampleQueue.md .write ∧
      ReadyAgrees exampleQueue.md .commut :=
  ⟨⟨by decide, iniReady_agrees exampleReaders_reachable .read,
      iniReady_agrees exampleReaders_reachable .write,
      iniReady_agrees exampleReaders_reachable .commut⟩,
    by decide,
    iniReady_agrees exampleQueue_reachable .read, iniReady_agrees exampleQueue_reachable .write,
    iniReady_agrees exampleQueue_reachable .commut⟩

-- ---------------------------------------------------------------------------
-- Beyond the counter
-- ---------------------------------------------------------------------------

/-- `n + 1` writers, of which all but the first wait. -/
theorem exists_queued_writers (n : Nat) : ∃ s, objectSystem.Reachable s ∧
    s.md.numGens = (n + 1) % 2 ^ 32 ∧ s.md.youngestGroup = Group.write.bits := by
  induction n with
  | zero => exact ⟨_, .step (.init rfl) (.addTask 0 .write), rfl, rfl⟩
  | succ n ih =>
    obtain ⟨s, hr, hgens, hyoung⟩ := ih
    have hpush : pushg s.md Group.write.bits = true := by
      rw [pushg, hyoung]
      decide
    refine ⟨_, hr.step (.addTask (n + 1) .write), ?_, rfl⟩
    show (s.md.numGens + (pushg s.md Group.write.bits).toNat) % 2 ^ 32 = (n + 1 + 1) % 2 ^ 32
    rw [hgens, hpush]
    show ((n + 1) % 2 ^ 32 + 1) % 2 ^ 32 = _
    omega

/-- With `2 ^ 32` writers `num_gens` is 0: the test says that a further writer may
run at once, and `add_task` would have it wait. -/
theorem overflow_disagrees :
    ¬ ∀ s, objectSystem.Reachable s → ∀ g, ReadyAgrees s.md g := by
  intro h
  obtain ⟨s, hr, hgens, hyoung⟩ := exists_queued_writers (2 ^ 32 - 1)
  have hzero : s.md.numGens = 0 := hgens.trans (by decide)
  have hini : iniReady s.md Group.write.bits = true := by simp [iniReady, hzero]
  have hjoins : joins s.md Group.write.bits = false := by
    rw [joins, hyoung]
    decide
  have hin := ((h s hr .write).incoming 0).mp hini
  simp [addTask, hjoins] at hin

end SwanRuntime.Dataflow
