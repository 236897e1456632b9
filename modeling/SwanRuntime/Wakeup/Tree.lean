import Mathlib.Logic.Function.Basic
import SwanRuntime.Library.Transition

/-!
# The wake-up tree

The system workers form a binary tree in which a worker tells its children to run
or to wait; the root is told by the users' threads. A message stores a flag, and a
message to run posts a semaphore after it. A worker that is told to wait tells its
children first, waits until its flag is set again, and wakes its children then.

A step is one access to a flag, a semaphore or `work_done`. What a worker does
while it runs is left open, but for messages to its children, which it also sends
when it starts a static loop.

## Results

* `Linked.step`    — what a step keeps.
* `parent_unique`, `message_from_parent`
                   — who sends messages to whom.
* `wakeup_tree`    — no wake-up is lost, and the tree sleeps or is awake as a whole.
-/

namespace SwanRuntime.Wakeup

-- ---------------------------------------------------------------------------
-- The code
-- ---------------------------------------------------------------------------

/-- Where a system worker is. -/
inductive Pc
  | checking                    -- `signal_node_should_wait` in `signal_node_wait`
  | blocked                     -- `wait_on_cilk_semaphore`
  | storeRun (child : Fin 2)    -- the store of a message in `notify_children_run`
  | post (child : Fin 2)        -- its post
  | running
  | runnable                    -- in `worker_runnable`, `work_done` was not set
  | storeWait (child : Fin 2)   -- `notify_children_wait`
  | exited
deriving DecidableEq

/-- Where the thread that holds the global lock is: it may be sending the message to
run, or stopping the workers. -/
inductive UserPc
  | idle
  | store
  | post
  | stopStore
  | stopPost
  | stopped
deriving DecidableEq

/-- `run` and `sem` are those of the signal nodes. -/
structure State where
  run      : Nat → Bool
  sem      : Nat → Nat
  pc       : Nat → Pc
  workDone : Bool
  Q        : Nat
  user     : UserPc

/-- The children of worker `n` are `2n + 1` and `2n + 2`. -/
def child (n : Nat) (k : Fin 2) : Nat := 2 * n + 1 + k

/-- What a system worker does next, where it has a choice. `failed` is whether
`steal_failure_count` exceeds its bound, which only the root asks. -/
inductive Action
  | continue
  | work
  | startStatic
  | signal (failed : Bool)
deriving DecidableEq

/-- A step of system worker `i` of `n`. -/
def act (n : Nat) (s : State) (i : Nat) (a : Action) : Option State :=
  match s.pc i, a with
  -- `signal_node_wait`
  | .checking, .continue =>
    if s.run i then some { s with pc := Function.update s.pc i (.storeRun 0) }
    else some { s with pc := Function.update s.pc i .blocked }
  | .blocked, .continue =>
    if s.sem i = 0 then none
    else some { s with
      sem := Function.update s.sem i (s.sem i - 1)
      pc := Function.update s.pc i .checking }
  -- `notify_children`
  | .storeRun k, .continue =>
    if child i k < n then some { s with
      run := Function.update s.run (child i k) true
      pc := Function.update s.pc i (.post k) }
    else some { s with pc := Function.update s.pc i .running }
  | .post k, .continue => some { s with
      sem := Function.update s.sem (child i k) (s.sem (child i k) + 1)
      pc := Function.update s.pc i (if k = 0 then .storeRun 1 else .running) }
  | .storeWait k, .continue =>
    if child i k < n then some { s with
      run := Function.update s.run (child i k) false
      pc := Function.update s.pc i (if k = 0 then .storeWait 1 else .checking) }
    else some { s with pc := Function.update s.pc i .checking }
  -- `search_until_work_found_or_done`
  | .running, .work => some s
  | .running, .startStatic => some { s with pc := Function.update s.pc i (.storeRun 0) }
  | .running, .continue =>
    if s.workDone then some { s with pc := Function.update s.pc i .exited }
    else some { s with pc := Function.update s.pc i .runnable }
  | .runnable, .signal failed =>
    if i = 0 ∧ failed = false ∨ s.run i = true then
      some { s with pc := Function.update s.pc i .running }
    else some { s with pc := Function.update s.pc i (.storeWait 0) }
  | _, _ => none

/-- A step of the users: `__cilkrts_enter_cilk`, `__cilkrts_leave_cilk` and
`__cilkrts_stop_workers`, and the rest of a message. -/
inductive UserAction
  | enter
  | leave
  | stop
  | continue
deriving DecidableEq

def userAct (s : State) (a : UserAction) : Option State :=
  match s.user, a with
  | .idle, .enter => some { s with
      Q := s.Q + 1
      user := if s.Q = 0 then .store else .idle }
  | .idle, .leave =>
    if s.Q = 0 then none
    else some { s with
      Q := s.Q - 1
      run := if s.Q - 1 = 0 then Function.update s.run 0 false else s.run }
  | .idle, .stop =>
    if s.Q = 0 then some { s with workDone := true, user := .stopStore } else none
  | .store, .continue => some { s with run := Function.update s.run 0 true, user := .post }
  | .post, .continue => some { s with
      sem := Function.update s.sem 0 (s.sem 0 + 1)
      user := .idle }
  | .stopStore, .continue =>
    some { s with run := Function.update s.run 0 true, user := .stopPost }
  | .stopPost, .continue => some { s with
      sem := Function.update s.sem 0 (s.sem 0 + 1)
      user := .stopped }
  | _, _ => none

/-- A step of a system worker or of the users. -/
inductive Event
  | worker (i : Nat) (a : Action)
  | user (a : UserAction)
deriving DecidableEq

/-- The runtime with `P` workers, of which `P - 1` are system workers. -/
def system (P : Nat) : LTS State Event where
  init s := s = ⟨fun _ => false, fun _ => 0, fun _ => .checking, false, 0, .idle⟩
  step s e t :=
    match e with
    | .worker i a => i < P - 1 ∧ act (P - 1) s i a = some t
    | .user a => userAct s a = some t

-- ---------------------------------------------------------------------------
-- The property
-- ---------------------------------------------------------------------------

/-- A message to run is between its store and its post. -/
def State.Pending (s : State) (n j : Nat) : Prop :=
  (j = 0 ∧ (s.user = .post ∨ s.user = .stopPost)) ∨
    ∃ i < n, ∃ k, child i k = j ∧ s.pc i = .post k

/-- No system worker can take a step, and no message is under way. -/
def State.Quiet (s : State) (n : Nat) : Prop :=
  (∀ i < n, ∀ a, act n s i a = none) ∧ (s.user = .idle ∨ s.user = .stopped)

/-- No wake-up is lost, a worker that has exited leaves its children awake, and when
nothing moves, all workers sleep or none does. -/
structure WakeupOk (n : Nat) (s : State) : Prop where
  kept   : ∀ j < n, s.pc j = .blocked → s.sem j = 0 → s.run j = false ∨ s.Pending n j
  left   : ∀ i < n, s.pc i = .exited → ∀ k, child i k < n → s.run (child i k) = true
  quiet  : s.Quiet n → (∀ i < n, s.pc i = .blocked ∧ s.run i = false) ∨
    ∀ i < n, s.pc i ≠ .blocked
  joined : s.Quiet n → s.user = .stopped → ∀ i < n, s.pc i = .exited

-- ---------------------------------------------------------------------------
-- The tree
-- ---------------------------------------------------------------------------

theorem child_inj {i i' : Nat} {k k' : Fin 2} (h : child i k = child i' k') : i = i' ∧ k = k' := by
  unfold child at h
  have hk := k.isLt
  have hk' := k'.isLt
  exact ⟨by omega, Fin.ext (by omega)⟩

theorem lt_child (i : Nat) (k : Fin 2) : i < child i k := by
  unfold child
  omega

/-- Each worker but the root has one parent, which is a system worker too. -/
theorem parent_unique {n j : Nat} (hj : 0 < j) (hn : j < n) :
    ∃! i, i < n ∧ ∃ k, child i k = j := by
  refine ⟨(j - 1) / 2, ⟨by omega, ⟨(j - 1) % 2, Nat.mod_lt _ (by decide)⟩, ?_⟩, ?_⟩
  · unfold child
    simp only
    omega
  · rintro i ⟨-, k, rfl⟩
    have hk := k.isLt
    unfold child
    omega

-- ---------------------------------------------------------------------------
-- One step
-- ---------------------------------------------------------------------------

/-- At this point the worker has told the child to run, and not to wait since. -/
def Pc.Signalled : Pc → Fin 2 → Prop
  | .running, _ | .runnable, _ | .exited, _ => True
  | .storeRun c, k => c = 1 ∧ k = 0
  | .post c, k => k ≤ c
  | _, _ => False

/-- What a step keeps. -/
structure Linked (n : Nat) (s : State) : Prop where
  kept     : ∀ j < n, s.pc j = .blocked → s.run j = true → 0 < s.sem j ∨ s.Pending n j
  children : ∀ i < n, ∀ k, child i k < n → (s.pc i).Signalled k → s.run (child i k) = true
  exited   : ∀ i < n, s.pc i = .exited → s.workDone = true
  stopping : s.workDone = true →
    s.user = .stopStore ∨ s.user = .stopPost ∨ s.user = .stopped
  root     : s.user = .stopPost ∨ s.user = .stopped → s.run 0 = true

/-- In `t` worker `i` has gone on to `pc`. -/
structure Moves (s : State) (i : Nat) (pc : Pc) (t : State) : Prop where
  self     : t.pc i = pc
  other    : ∀ j, j ≠ i → t.pc j = s.pc j
  workDone : t.workDone = s.workDone
  user     : t.user = s.user

section Step

variable {n i : Nat} {pc : Pc} {s t : State}

theorem Moves.of_update {run : Nat → Bool} {sem : Nat → Nat} :
    Moves s i pc { s with run := run, sem := sem, pc := Function.update s.pc i pc } :=
  ⟨Function.update_self _ _ _, fun _ hj => Function.update_of_ne hj _ _, rfl, rfl⟩

/-- A message that worker `i` does not post stays under way. -/
theorem Moves.pending (hm : Moves s i pc t) {j : Nat} (h : s.Pending n j)
    (hpost : ∀ k, s.pc i = .post k → child i k ≠ j) : t.Pending n j := by
  rcases h with ⟨hj, huser⟩ | ⟨p, hp, k, hchild, hpc⟩
  · exact Or.inl ⟨hj, by rw [hm.user]; exact huser⟩
  · refine Or.inr ⟨p, hp, k, hchild, ?_⟩
    have hpi : p ≠ i := by
      rintro rfl
      exact hpost k hpc hchild
    exact (hm.other p hpi).trans hpc

/-- What has to be shown when a worker goes on. -/
theorem Linked.of_moves (h : Linked n s) (hm : Moves s i pc t)
    (hkept : ∀ j < n, t.pc j = .blocked → t.run j = true → 0 < t.sem j ∨ t.Pending n j)
    (hself : ∀ k, child i k < n → pc.Signalled k → t.run (child i k) = true)
    (hother : ∀ j k, j ≠ i → t.run (child j k) = s.run (child j k)) (hroot : t.run 0 = s.run 0)
    (hexited : pc = .exited → s.workDone = true) : Linked n t := by
  refine ⟨hkept, fun j hj k hk hsig => ?_, fun j hj hpc => ?_, fun hdone => ?_, fun huser => ?_⟩
  · by_cases hji : j = i
    · subst hji
      exact hself k hk (hm.self ▸ hsig)
    · rw [hother j k hji]
      exact h.children j hj k hk (hm.other j hji ▸ hsig)
  · rw [hm.workDone]
    by_cases hji : j = i
    · subst hji
      exact hexited (hm.self.symm.trans hpc)
    · exact h.exited j hj ((hm.other j hji).symm.trans hpc)
  · rw [hm.user]
    exact h.stopping (hm.workDone.symm.trans hdone)
  · rw [hroot]
    exact h.root (by rw [← hm.user]; exact huser)

/-- A worker goes on without sending or consuming anything. -/
theorem Linked.move (h : Linked n s) (hpost : ∀ k, s.pc i ≠ .post k)
    (hblocked : pc = .blocked → s.run i = false)
    (hchildren : ∀ k, child i k < n → pc.Signalled k → s.run (child i k) = true)
    (hexited : pc = .exited → s.workDone = true) :
    Linked n { s with pc := Function.update s.pc i pc } := by
  have hm : Moves s i pc { s with pc := Function.update s.pc i pc } := .of_update
  refine h.of_moves hm (fun j hj hpc hrun => ?_) hchildren (fun _ _ _ => rfl) rfl hexited
  by_cases hji : j = i
  · subst hji
    exact absurd ((hblocked (hm.self.symm.trans hpc)).symm.trans hrun) Bool.false_ne_true
  · rcases h.kept j hj ((hm.other j hji).symm.trans hpc) hrun with hsem | hpending
    · exact Or.inl hsem
    · exact Or.inr (hm.pending hpending fun k hk => absurd hk (hpost k))

/-- A worker consumes a post. -/
theorem Linked.wait (h : Linked n s) (hpc : s.pc i = .blocked) :
    Linked n { s with
      sem := Function.update s.sem i (s.sem i - 1)
      pc := Function.update s.pc i .checking } := by
  have hm : Moves s i .checking { s with
      sem := Function.update s.sem i (s.sem i - 1)
      pc := Function.update s.pc i .checking } := .of_update
  refine h.of_moves hm (fun j hj hpcj hrun => ?_) (fun k _ hsig => absurd hsig id)
    (fun _ _ _ => rfl) rfl nofun
  by_cases hji : j = i
  · subst hji
    exact nomatch hm.self.symm.trans hpcj
  · rcases h.kept j hj ((hm.other j hji).symm.trans hpcj) hrun with hsem | hpending
    · left
      show 0 < Function.update s.sem i (s.sem i - 1) j
      rw [Function.update_of_ne hji]
      exact hsem
    · exact Or.inr (hm.pending hpending fun k hk => nomatch hpc.symm.trans hk)

/-- A worker stores a message to a child. -/
theorem Linked.store (h : Linked n s) {k : Fin 2} (hi : i < n) (hpost : ∀ k, s.pc i ≠ .post k)
    (msg : Bool) (hblocked : pc ≠ .blocked) (hexited : pc ≠ .exited)
    (hpending : msg = true → pc = .post k)
    (hchildren : ∀ k', child i k' < n → pc.Signalled k' →
      if k' = k then msg = true else s.run (child i k') = true) :
    Linked n { s with
      run := Function.update s.run (child i k) msg
      pc := Function.update s.pc i pc } := by
  have hm : Moves s i pc { s with
      run := Function.update s.run (child i k) msg
      pc := Function.update s.pc i pc } := .of_update
  refine h.of_moves hm (fun j hj hpcj hrun => ?_) (fun k' hk' hsig => ?_) (fun j k' hji => ?_) ?_
    fun hpc => absurd hpc hexited
  · by_cases hchild : j = child i k
    · subst hchild
      have hmsg : msg = true := (Function.update_self _ _ _).symm.trans hrun
      exact Or.inr (Or.inr ⟨i, hi, k, rfl, hm.self.trans (hpending hmsg)⟩)
    · have hrun' : s.run j = true := (Function.update_of_ne hchild _ _).symm.trans hrun
      by_cases hji : j = i
      · subst hji
        exact absurd (hm.self.symm.trans hpcj) hblocked
      · rcases h.kept j hj ((hm.other j hji).symm.trans hpcj) hrun' with hsem | hpend
        · exact Or.inl hsem
        · exact Or.inr (hm.pending hpend fun k hk => absurd hk (hpost k))
  · have hres := hchildren k' hk' hsig
    show Function.update s.run (child i k) msg (child i k') = true
    by_cases hkk : k' = k
    · subst hkk
      rw [if_pos rfl] at hres
      rw [Function.update_self, hres]
    · rw [if_neg hkk] at hres
      rw [Function.update_of_ne fun heq => hkk (child_inj heq).2]
      exact hres
  · exact Function.update_of_ne (fun heq => hji (child_inj heq).1) _ _
  · have hzero : (0 : Nat) ≠ child i k := Nat.ne_of_lt (Nat.zero_lt_of_lt (lt_child i k))
    exact Function.update_of_ne hzero _ _

/-- A worker posts the semaphore of a child. -/
theorem Linked.post (h : Linked n s) {k : Fin 2} (hi : i < n) (hpc : s.pc i = .post k) :
    Linked n { s with
      sem := Function.update s.sem (child i k) (s.sem (child i k) + 1)
      pc := Function.update s.pc i (if k = 0 then .storeRun 1 else .running) } := by
  generalize hnext : (if k = 0 then Pc.storeRun 1 else .running) = pc
  have hnot : pc ≠ .blocked ∧ pc ≠ .exited ∧ ∀ k', pc.Signalled k' → k' ≤ k := by
    have hk := k.isLt
    by_cases h0 : k = 0
    · rw [if_pos h0] at hnext
      subst hnext
      refine ⟨nofun, nofun, fun k' hsig => ?_⟩
      rw [hsig.2]
      exact Fin.zero_le _
    · rw [if_neg h0] at hnext
      subst hnext
      refine ⟨nofun, nofun, fun k' _ => ?_⟩
      have hk' := k'.isLt
      have hval : k.val ≠ 0 := fun hval => h0 (Fin.ext hval)
      exact Fin.le_def.mpr (by omega)
  have hm : Moves s i pc { s with
      sem := Function.update s.sem (child i k) (s.sem (child i k) + 1)
      pc := Function.update s.pc i pc } := .of_update
  refine h.of_moves hm (fun j hj hpcj hrun => ?_) (fun k' hk' hsig => ?_) (fun _ _ _ => rfl) rfl
    fun hpc => absurd hpc hnot.2.1
  · show 0 < Function.update s.sem (child i k) (s.sem (child i k) + 1) j ∨ _
    -- the child has its message now, and the others are as before
    by_cases hchild : j = child i k
    · left
      rw [hchild, Function.update_self]
      exact Nat.succ_pos _
    · by_cases hji : j = i
      · subst hji
        exact absurd (hm.self.symm.trans hpcj) hnot.1
      · rw [Function.update_of_ne hchild]
        rcases h.kept j hj ((hm.other j hji).symm.trans hpcj) hrun with hsem | hpend
        · exact Or.inl hsem
        · refine Or.inr (hm.pending hpend fun k' hk' heq => ?_)
          obtain rfl := Pc.post.inj (hpc.symm.trans hk')
          exact hchild heq.symm
  · refine h.children i hi k' hk' ?_
    rw [hpc]
    exact hnot.2.2 k' hsig

/-- A step of a worker keeps the links. -/
theorem Linked.act (h : Linked n s) (hi : i < n) {a : Action} (hstep : act n s i a = some t) :
    Linked n t := by
  -- nothing is known of the children before the messages to them
  have hfirst : ∀ k, child i k < n → (Pc.storeRun 0).Signalled k → s.run (child i k) = true :=
    fun k _ hsig => absurd hsig.1 (by decide)
  unfold Wakeup.act at hstep
  split at hstep
  · -- `signal_node_wait`: the node is checked
    rename_i hpc
    split at hstep
    · obtain rfl := Option.some.inj hstep
      exact h.move (fun k => by rw [hpc]; exact nofun) nofun hfirst nofun
    · rename_i hrun
      obtain rfl := Option.some.inj hstep
      exact h.move (fun k => by rw [hpc]; exact nofun) (fun _ => Bool.eq_false_iff.mpr hrun)
        (fun k _ hsig => absurd hsig id) nofun
  · -- blocked, until a message has come
    rename_i hpc
    split at hstep
    · exact nomatch hstep
    · obtain rfl := Option.some.inj hstep
      exact h.wait hpc
  · -- `notify_children`: the store of the first half of a message
    rename_i k hpc
    have hpost : ∀ k', s.pc i ≠ .post k' := fun k' => by rw [hpc]; exact nofun
    split at hstep
    · obtain rfl := Option.some.inj hstep
      refine h.store hi hpost true nofun nofun (fun _ => rfl) fun k' hk' hsig => ?_
      by_cases hkk : k' = k
      · rw [if_pos hkk]
      · -- the second message comes after the first
        rw [if_neg hkk]
        have hle : k' ≤ k := hsig
        refine h.children i hi k' hk' ?_
        rw [hpc]
        have hlt : k'.val < k.val :=
          Nat.lt_of_le_of_ne (Fin.le_def.mp hle) fun hval => hkk (Fin.ext hval)
        have hk := k.isLt
        exact ⟨Fin.ext (by show k.val = 1; omega), Fin.ext (by show k'.val = 0; omega)⟩
    · rename_i hnone
      obtain rfl := Option.some.inj hstep
      refine h.move hpost nofun (fun k' hk' _ => ?_) nofun
      refine h.children i hi k' hk' ?_
      rw [hpc]
      -- only the second child can be missing when the first is there
      unfold child at hnone hk'
      have hk := k.isLt
      exact ⟨Fin.ext (by show k.val = 1; omega), Fin.ext (by show k'.val = 0; omega)⟩
  · -- the post that completes it
    rename_i k hpc
    obtain rfl := Option.some.inj hstep
    exact h.post hi hpc
  · -- the store that makes a child wait
    rename_i k hpc
    have hpost : ∀ k', s.pc i ≠ .post k' := fun k' => by rw [hpc]; exact nofun
    split at hstep
    · obtain rfl := Option.some.inj hstep
      refine h.store hi hpost false ?_ ?_ nofun fun k' _ hsig => ?_
      · split <;> exact nofun
      · split <;> exact nofun
      · split at hsig <;> exact absurd hsig id
    · obtain rfl := Option.some.inj hstep
      exact h.move hpost nofun (fun k _ hsig => absurd hsig id) nofun
  · obtain rfl := Option.some.inj hstep
    exact h
  · rename_i hpc
    obtain rfl := Option.some.inj hstep
    exact h.move (fun k => by rw [hpc]; exact nofun) nofun hfirst nofun
  · rename_i hpc
    -- a running worker has signalled its children
    have hall : ∀ k, child i k < n → s.run (child i k) = true :=
      fun k hk => h.children i hi k hk (by rw [hpc]; trivial)
    split at hstep
    · rename_i hdone
      obtain rfl := Option.some.inj hstep
      exact h.move (fun k => by rw [hpc]; exact nofun) nofun (fun k hk _ => hall k hk)
        fun _ => hdone
    · obtain rfl := Option.some.inj hstep
      exact h.move (fun k => by rw [hpc]; exact nofun) nofun (fun k hk _ => hall k hk) nofun
  · rename_i hpc
    have hall : ∀ k, child i k < n → s.run (child i k) = true :=
      fun k hk => h.children i hi k hk (by rw [hpc]; trivial)
    split at hstep
    · obtain rfl := Option.some.inj hstep
      exact h.move (fun k => by rw [hpc]; exact nofun) nofun (fun k hk _ => hall k hk) nofun
    · obtain rfl := Option.some.inj hstep
      exact h.move (fun k => by rw [hpc]; exact nofun) nofun (fun k _ hsig => absurd hsig id) nofun
  · exact nomatch hstep

/-- The root's flag is no child's. -/
theorem update_zero_child (run : Nat → Bool) (b : Bool) (j : Nat) (k : Fin 2) :
    Function.update run 0 b (child j k) = run (child j k) := by
  have hne : child j k ≠ 0 := Nat.ne_of_gt (Nat.zero_lt_of_lt (lt_child j k))
  exact Function.update_of_ne hne _ _

/-- The users store a message to the root, and post it later if it is one to run. -/
theorem Linked.userStore (h : Linked n s) (msg : Bool) (user : UserPc) (Q : Nat)
    (hmsg : if msg = true then user = .post ∨ user = .stopPost else user = .idle)
    (hdone : s.workDone = true → user = .stopPost) :
    Linked n { s with run := Function.update s.run 0 msg, user := user, Q := Q } := by
  refine ⟨fun j hj hpc hrun => ?_, fun j hj k hk hsig => ?_, h.exited,
    fun hd => Or.inr (Or.inl (hdone hd)), fun huser => ?_⟩
  · by_cases hzero : j = 0
    · subst hzero
      have hstored : Function.update s.run 0 msg 0 = true := hrun
      rw [Function.update_self] at hstored
      rw [if_pos hstored] at hmsg
      exact Or.inr (Or.inl ⟨rfl, hmsg⟩)
    · rcases h.kept j hj hpc ((Function.update_of_ne hzero _ _).symm.trans hrun) with
        hsem | ⟨hj0, -⟩ | hworker
      · exact Or.inl hsem
      · exact absurd hj0 hzero
      · exact Or.inr (Or.inr hworker)
  · exact (update_zero_child s.run msg j k).trans (h.children j hj k hk hsig)
  · show Function.update s.run 0 msg 0 = true
    rw [Function.update_self]
    cases msg with
    | true => rfl
    | false =>
      obtain rfl := hmsg
      rcases huser with huser | huser <;> exact nomatch huser

/-- The users post the message to the root. -/
theorem Linked.userPost (h : Linked n s) (user : UserPc)
    (hold : s.user = .post ∧ user = .idle ∨ s.user = .stopPost ∧ user = .stopped) :
    Linked n { s with sem := Function.update s.sem 0 (s.sem 0 + 1), user := user } := by
  refine ⟨fun j hj hpc hrun => ?_, h.children, h.exited, fun hdone => ?_, fun huser => ?_⟩
  · show 0 < Function.update s.sem 0 (s.sem 0 + 1) j ∨ _
    by_cases hzero : j = 0
    · left
      rw [hzero, Function.update_self]
      exact Nat.succ_pos _
    · rw [Function.update_of_ne hzero]
      rcases h.kept j hj hpc hrun with hsem | ⟨hj0, -⟩ | hworker
      · exact Or.inl hsem
      · exact absurd hj0 hzero
      · exact Or.inr (Or.inr hworker)
  · rcases hold with ⟨hpost, -⟩ | ⟨-, hstopped⟩
    · rcases h.stopping hdone with hs | hs | hs <;> exact nomatch hpost.symm.trans hs
    · exact Or.inr (Or.inr hstopped)
  · rcases hold with ⟨-, rfl⟩ | ⟨hpost, -⟩
    · rcases huser with huser | huser <;> exact nomatch huser
    · exact h.root (Or.inl hpost)

/-- The users go on without touching a signal node. -/
theorem Linked.userMove (h : Linked n s) (Q : Nat) (workDone : Bool) (user : UserPc)
    (hold : s.user = .idle) (hmove : workDone = s.workDone ∧ (user = .idle ∨ user = .store) ∨
      workDone = true ∧ user = .stopStore) :
    Linked n { s with Q := Q, workDone := workDone, user := user } := by
  have hnotDone : s.workDone = false := by
    cases hdone : s.workDone with
    | false => rfl
    | true => rcases h.stopping hdone with hs | hs | hs <;> exact nomatch hold.symm.trans hs
  refine ⟨fun j hj hpc hrun => ?_, h.children, fun j hj hpc => ?_, fun hdone => ?_, fun huser => ?_⟩
  · rcases h.kept j hj hpc hrun with hsem | ⟨-, huser⟩ | hworker
    · exact Or.inl hsem
    · rcases huser with huser | huser <;> exact nomatch hold.symm.trans huser
    · exact Or.inr (Or.inr hworker)
  · exact absurd (hnotDone.symm.trans (h.exited j hj hpc)) Bool.false_ne_true
  · rcases hmove with ⟨rfl, -⟩ | ⟨-, hstop⟩
    · exact absurd (hnotDone.symm.trans hdone) Bool.false_ne_true
    · exact Or.inl hstop
  · rcases hmove with ⟨-, rfl | rfl⟩ | ⟨-, rfl⟩ <;> rcases huser with huser | huser <;>
      exact nomatch huser

theorem Linked.notDone (h : Linked n s) (hold : s.user = .idle ∨ s.user = .store) :
    s.workDone = true → False := by
  intro hdone
  rcases h.stopping hdone with hs | hs | hs <;> rcases hold with hold | hold <;>
    exact nomatch hold.symm.trans hs

/-- A step of the users keeps the links. -/
theorem Linked.userAct (h : Linked n s) {a : UserAction} (hstep : userAct s a = some t) :
    Linked n t := by
  unfold Wakeup.userAct at hstep
  split at hstep
  · rename_i huser
    obtain rfl := Option.some.inj hstep
    refine h.userMove (s.Q + 1) s.workDone _ huser (Or.inl ⟨rfl, ?_⟩)
    split
    · exact Or.inr rfl
    · exact Or.inl rfl
  · rename_i huser
    split at hstep
    · exact nomatch hstep
    · obtain rfl := Option.some.inj hstep
      have hidle := h.notDone (Or.inl huser)
      split
      · have hres := h.userStore false .idle (s.Q - 1) rfl
          fun hdone => (hidle hdone).elim
        rw [← huser] at hres
        exact hres
      · have hres := h.userMove (s.Q - 1) s.workDone .idle huser (Or.inl ⟨rfl, Or.inl rfl⟩)
        rw [← huser] at hres
        exact hres
  · rename_i huser
    split at hstep
    · obtain rfl := Option.some.inj hstep
      exact h.userMove s.Q true .stopStore huser (Or.inr ⟨rfl, rfl⟩)
    · exact nomatch hstep
  · rename_i huser
    obtain rfl := Option.some.inj hstep
    exact h.userStore true .post s.Q
      (Or.inl rfl) fun hdone => (h.notDone (Or.inr huser) hdone).elim
  · rename_i huser
    obtain rfl := Option.some.inj hstep
    exact h.userPost .idle (Or.inl ⟨huser, rfl⟩)
  · rename_i huser
    obtain rfl := Option.some.inj hstep
    exact h.userStore true .stopPost s.Q
      (Or.inr rfl) fun _ => rfl
  · rename_i huser
    obtain rfl := Option.some.inj hstep
    exact h.userPost .stopped (Or.inr ⟨huser, rfl⟩)
  · exact nomatch hstep

theorem linked_init : Linked n ⟨fun _ => false, fun _ => 0, fun _ => .checking, false, 0, .idle⟩ :=
  ⟨nofun, fun _ _ _ _ hsig => absurd hsig id, nofun, nofun, fun h => by
    rcases h with h | h <;> exact nomatch h⟩

/-- A message to a worker that is not the root comes from its parent. -/
theorem message_from_parent {P : Nat} {e : Event} (hstep : (system P).step s e t) {j : Nat}
    (hj : 0 < j) (hchange : t.run j ≠ s.run j ∨ s.sem j < t.sem j) :
    ∃ i a, e = .worker i a ∧ i < P - 1 ∧ ∃ k, child i k = j := by
  have hzero : j ≠ 0 := Nat.ne_of_gt hj
  cases e with
  | user a =>
    exfalso
    -- the users store to the root's node only
    have hsame : t.run j = s.run j ∧ t.sem j = s.sem j := by
      change Wakeup.userAct s a = some t at hstep
      unfold Wakeup.userAct at hstep
      split at hstep
      · obtain rfl := Option.some.inj hstep
        exact ⟨rfl, rfl⟩
      · split at hstep
        · exact nomatch hstep
        · obtain rfl := Option.some.inj hstep
          refine ⟨?_, rfl⟩
          dsimp only
          split
          · exact Function.update_of_ne hzero _ _
          · rfl
      · split at hstep
        · obtain rfl := Option.some.inj hstep
          exact ⟨rfl, rfl⟩
        · exact nomatch hstep
      · obtain rfl := Option.some.inj hstep
        exact ⟨Function.update_of_ne hzero _ _, rfl⟩
      · obtain rfl := Option.some.inj hstep
        exact ⟨rfl, Function.update_of_ne hzero _ _⟩
      · obtain rfl := Option.some.inj hstep
        exact ⟨Function.update_of_ne hzero _ _, rfl⟩
      · obtain rfl := Option.some.inj hstep
        exact ⟨rfl, Function.update_of_ne hzero _ _⟩
      · exact nomatch hstep
    rcases hchange with hchange | hchange
    · exact hchange hsame.1
    · rw [hsame.2] at hchange
      exact Nat.lt_irrefl _ hchange
  | worker i a =>
    obtain ⟨hi, hact⟩ := hstep
    refine ⟨i, a, rfl, hi, ?_⟩
    by_contra hnone
    have hne : ∀ k, j ≠ child i k := fun k heq => hnone ⟨k, heq.symm⟩
    -- a worker stores to its children's nodes only, and consumes from its own
    have hsame : t.run j = s.run j ∧ t.sem j ≤ s.sem j := by
      have hrefl : s.run j = s.run j ∧ s.sem j ≤ s.sem j := ⟨rfl, Nat.le_refl _⟩
      unfold Wakeup.act at hact
      split at hact
      · split at hact <;> obtain rfl := Option.some.inj hact <;> exact hrefl
      · split at hact
        · exact nomatch hact
        · obtain rfl := Option.some.inj hact
          refine ⟨rfl, ?_⟩
          show Function.update s.sem i (s.sem i - 1) j ≤ s.sem j
          by_cases hji : j = i
          · rw [hji, Function.update_self]
            exact Nat.sub_le _ _
          · exact Nat.le_of_eq (Function.update_of_ne hji _ _)
      · split at hact
        · obtain rfl := Option.some.inj hact
          exact ⟨Function.update_of_ne (hne _) _ _, Nat.le_refl _⟩
        · obtain rfl := Option.some.inj hact
          exact hrefl
      · obtain rfl := Option.some.inj hact
        exact ⟨rfl, Nat.le_of_eq (Function.update_of_ne (hne _) _ _)⟩
      · split at hact
        · obtain rfl := Option.some.inj hact
          exact ⟨Function.update_of_ne (hne _) _ _, Nat.le_refl _⟩
        · obtain rfl := Option.some.inj hact
          exact hrefl
      · obtain rfl := Option.some.inj hact
        exact hrefl
      · obtain rfl := Option.some.inj hact
        exact hrefl
      · split at hact <;> obtain rfl := Option.some.inj hact <;> exact hrefl
      · split at hact <;> obtain rfl := Option.some.inj hact <;> exact hrefl
      · exact nomatch hact
    rcases hchange with hchange | hchange
    · exact hchange hsame.1
    · exact absurd hsame.2 (Nat.not_le.mpr hchange)

end Step

-- ---------------------------------------------------------------------------
-- Whole runs
-- ---------------------------------------------------------------------------

section Runs

variable {n : Nat} {s : State}

/-- A worker that cannot take a step is blocked without posts, or has exited. -/
theorem stuck {i : Nat} (h : ∀ a, act n s i a = none) :
    s.pc i = .blocked ∧ s.sem i = 0 ∨ s.pc i = .exited := by
  have hcontinue := h .continue
  have hwork := h .work
  have hsignal := h (.signal false)
  unfold act at hcontinue hwork hsignal
  cases hpc : s.pc i with
  | exited => exact Or.inr rfl
  | blocked =>
    left
    refine ⟨rfl, ?_⟩
    rw [hpc] at hcontinue
    by_contra hsem
    simp only [if_neg hsem] at hcontinue
    exact nomatch hcontinue
  | running =>
    rw [hpc] at hwork
    exact nomatch hwork
  | runnable =>
    rw [hpc] at hsignal
    dsimp only at hsignal
    split at hsignal <;> exact nomatch hsignal
  | post k =>
    rw [hpc] at hcontinue
    exact nomatch hcontinue
  | checking =>
    rw [hpc] at hcontinue
    dsimp only at hcontinue
    split at hcontinue <;> exact nomatch hcontinue
  | storeRun k =>
    rw [hpc] at hcontinue
    dsimp only at hcontinue
    split at hcontinue <;> exact nomatch hcontinue
  | storeWait k =>
    rw [hpc] at hcontinue
    dsimp only at hcontinue
    split at hcontinue <;> exact nomatch hcontinue

/-- When nothing moves, a blocked worker has been told to wait. -/
theorem Linked.blocked_waits (h : Linked n s) (hquiet : s.Quiet n) {i : Nat} (hi : i < n)
    (hpc : s.pc i = .blocked) : s.run i = false := by
  rcases stuck (hquiet.1 i hi) with ⟨-, hsem⟩ | hexited
  · by_contra hrun
    rcases h.kept i hi hpc (Bool.eq_false_iff.not_left.mp hrun) with hpos | ⟨-, huser⟩ |
      ⟨p, hp, k, -, hpost⟩
    · omega
    · rcases huser with huser | huser <;> rcases hquiet.2 with hidle | hidle <;>
        exact nomatch huser.symm.trans hidle
    · rcases stuck (hquiet.1 p hp) with ⟨hb, -⟩ | he
      · exact nomatch hb.symm.trans hpost
      · exact nomatch he.symm.trans hpost
  · exact nomatch hpc.symm.trans hexited

/-- After the workers have been stopped, all of them exit: the root has been woken,
and each worker has woken its children. -/
theorem Linked.all_exited (h : Linked n s) (hquiet : s.Quiet n) (hstopped : s.user = .stopped)
    (i : Nat) (hi : i < n) : s.pc i = .exited := by
  have hawake : s.run i = true → s.pc i = .exited := by
    intro hrun
    rcases stuck (hquiet.1 i hi) with ⟨hb, -⟩ | he
    · exact absurd ((h.blocked_waits hquiet hi hb).symm.trans hrun) Bool.false_ne_true
    · exact he
  induction i using Nat.strongRecOn with
  | _ i ih =>
    by_cases hzero : i = 0
    · subst hzero
      exact hawake (h.root (Or.inr hstopped))
    · obtain ⟨p, ⟨hp, k, rfl⟩, -⟩ := parent_unique (Nat.pos_of_ne_zero hzero) hi
      have hparent : s.pc p = .exited := by
        refine ih p (lt_child p k) hp fun hrun => ?_
        rcases stuck (hquiet.1 p hp) with ⟨hb, -⟩ | he
        · exact absurd ((h.blocked_waits hquiet hp hb).symm.trans hrun) Bool.false_ne_true
        · exact he
      exact hawake (h.children p hp k hi (by rw [hparent]; trivial))

theorem Linked.wakeupOk (h : Linked n s) : WakeupOk n s := by
  refine ⟨fun j hj hpc hsem => ?_, fun i hi hpc k hk => ?_, fun hquiet => ?_, fun hquiet hstopped =>
    h.all_exited hquiet hstopped⟩
  · cases hrun : s.run j with
    | false => exact Or.inl rfl
    | true =>
      rcases h.kept j hj hpc hrun with hpos | hpending
      · omega
      · exact Or.inr hpending
  · exact h.children i hi k hk (by rw [hpc]; trivial)
  · rcases hquiet.2 with hidle | hstopped
    · left
      intro i hi
      rcases stuck (hquiet.1 i hi) with ⟨hb, -⟩ | he
      · exact ⟨hb, h.blocked_waits hquiet hi hb⟩
      · exact (h.notDone (Or.inl hidle) (h.exited i hi he)).elim
    · right
      intro i hi hb
      exact nomatch hb.symm.trans (h.all_exited hquiet hstopped i hi)

/-- In every run, each system worker but the root has one parent and gets messages
from it only, no wake-up is lost, a worker that exits has woken its children, and
when nothing moves the workers sleep or are awake together; after they have been
stopped, they have exited. -/
theorem wakeup_tree {P : Nat} (hP : 2 ≤ P) {tr : List (Event × State)}
    (hinit : (system P).init s) (hpath : (system P).IsPath s tr) :
    (∀ j, 0 < j → j < P - 1 → ∃! i, i < P - 1 ∧ ∃ k, child i k = j) ∧
      (∀ s e t, (system P).step s e t → ∀ j, 0 < j → t.run j ≠ s.run j ∨ s.sem j < t.sem j →
        ∃ i a, e = .worker i a ∧ i < P - 1 ∧ ∃ k, child i k = j) ∧
      (0 < P - 1 ∧ ∀ p ∈ tr, WakeupOk (P - 1) p.2) := by
  refine ⟨fun j hj hn => parent_unique hj hn,
    fun s e t hstep j hj hchange => message_from_parent hstep hj hchange, by omega, fun p hp => ?_⟩
  have hstep : ∀ s e t, Linked (P - 1) s → (system P).step s e t → Linked (P - 1) t := by
    intro s e t h hstep
    cases e with
    | worker i a => exact h.act hstep.1 hstep.2
    | user a => exact h.userAct hstep
  obtain rfl := hinit
  exact (LTS.invariant_along (P := Linked (P - 1)) hstep linked_init hpath p hp).wakeupOk

end Runs

/-- What `act` and `userAct` do for an event. -/
def exec (P : Nat) (s : State) : Event → Option State
  | .worker i a => if i < P - 1 then act (P - 1) s i a else none
  | .user a => userAct s a

theorem exec_step {P : Nat} (s : State) (e : Event) (t : State) (h : exec P s e = some t) :
    (system P).step s e t := by
  cases e with
  | worker i a =>
    simp only [exec] at h
    by_cases hi : i < P - 1
    · rw [if_pos hi] at h
      exact ⟨hi, h⟩
    · rw [if_neg hi] at h
      cases h
  | user a => exact h

/-- The runtime with three system workers. -/
def exampleStart : State :=
  ⟨fun _ => false, fun _ => 0, fun _ => .checking, false, 0, .idle⟩

/-- The workers go to sleep. -/
def exampleSleep : List Event :=
  [.worker 0 .continue, .worker 1 .continue, .worker 2 .continue]

/-- Worker 0 wakes up and tells its children, which wake up and find that they
have none. -/
def exampleWake : List Event :=
  List.replicate 6 (.worker 0 .continue) ++ List.replicate 3 (.worker 1 .continue) ++
    List.replicate 3 (.worker 2 .continue)

/-- The workers go to sleep, and a first user wakes them. -/
def exampleEnter : List Event :=
  exampleSleep ++ [.user .enter, .user .continue, .user .continue] ++ exampleWake

/-- The user leaves; worker 0 finds that it has to wait and tells its children,
and all go to sleep. -/
def exampleLeave : List Event :=
  [.user .leave, .worker 0 .continue, .worker 0 (.signal true)] ++
    List.replicate 3 (.worker 0 .continue) ++
    [.worker 1 .continue, .worker 1 (.signal false), .worker 1 .continue, .worker 1 .continue,
      .worker 2 .continue, .worker 2 (.signal false), .worker 2 .continue, .worker 2 .continue]

/-- The workers are stopped: they wake up and exit. -/
def exampleStop : List Event :=
  [.user .stop, .user .continue, .user .continue] ++ exampleWake ++ exampleSleep

/-- The steps up to the last exit. -/
def exampleRun : List (Event × State) :=
  LTS.run (exec 4) exampleStart (exampleEnter ++ exampleLeave ++ exampleStop)

/-- The states in which all run, all sleep again, and all have exited. -/
example : ((LTS.run (exec 4) exampleStart exampleEnter).getLast?.map fun p =>
      [p.2.pc 0, p.2.pc 1, p.2.pc 2]) = some [.running, .running, .running] ∧
    ((LTS.run (exec 4) exampleStart (exampleEnter ++ exampleLeave)).getLast?.map fun p =>
      [p.2.pc 0, p.2.pc 1, p.2.pc 2]) = some [.blocked, .blocked, .blocked] := by
  decide

theorem wakeup_tree_exampleRun :
    (exampleRun.getLast?.map fun p => (p.2.user, [p.2.pc 0, p.2.pc 1, p.2.pc 2])) =
      some (.stopped, [.exited, .exited, .exited]) ∧
    (∀ j, 0 < j → j < 4 - 1 → ∃! i, i < 4 - 1 ∧ ∃ k, child i k = j) ∧
      (∀ s e t, (system 4).step s e t → ∀ j, 0 < j → t.run j ≠ s.run j ∨ s.sem j < t.sem j →
        ∃ i a, e = .worker i a ∧ i < 4 - 1 ∧ ∃ k, child i k = j) ∧
      (0 < 4 - 1 ∧ ∀ p ∈ exampleRun, WakeupOk (4 - 1) p.2) :=
  ⟨by decide, wakeup_tree (by decide) rfl (LTS.isPath_run exec_step _ _)⟩

end SwanRuntime.Wakeup
