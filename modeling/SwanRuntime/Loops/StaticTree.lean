import Mathlib.Data.List.Nodup
import Mathlib.Data.Nat.BinaryRec
import Mathlib.Data.Nat.Factorization.Basic
import Mathlib.Tactic.Ring
import SwanRuntime.Library.ForkJoin

/-!
# Loops — the tree of a static loop

A static loop that runs on one NUMA domain is forked to the system threads of the
domain along a tree. Thread `i` calls the threads `i | 2^(p-1)` for every `p` such
that the low `p` bits of `i` are clear. A user worker that is the master calls
thread 0. A system worker that is the master, thread `r`, takes the place of the
root: it calls thread 0 and then its own children, and the thread that would call
it skips it (`rewire`).

The threads then run the protocol of `Library.ForkJoin`: `xid` of a thread's slot
is set by its caller and cleared by the thread.

## Results

* `mem_targets`         — whom a thread calls.
* `wellFormed`          — no thread is called by two others.
* `below_root`          — every thread is called.
* `staticTree_forkJoin` — each thread is called once, works once, and is finished
  after its subtree; when the master goes on all slots are clear.
-/

namespace SwanRuntime.Loops

open CallTree

-- ---------------------------------------------------------------------------
-- The code
-- ---------------------------------------------------------------------------

/-- `for( int n=num_threads-1; n != 0; n>>=1 ) { ++log_threads; }`, from `n` on;
the loop ends in `fuel` rounds when `n ≤ fuel`. -/
def countShifts : (fuel n : Nat) → Nat
  | 0, _ => 0
  | fuel + 1, n => if n = 0 then 0 else countShifts fuel (n >>> 1) + 1

/-- `log_threads`. -/
def logThreads (numThreads : Nat) : Nat := countShifts numThreads (numThreads - 1)

/-- The threads that thread `myIdx` calls, and waits for, in the loop that runs
from `p` down to 1. `rewire` is `none` for −1, and in the loops of the master. -/
def targets (numThreads : Nat) (rewire : Option Nat) (myIdx : Nat) : Nat → List Nat
  | 0 => []
  | p + 1 =>
    let mask := 2 ^ (p + 1) - 1
    let dstIdx := myIdx ||| 2 ^ p
    if myIdx &&& mask = 0 ∧ dstIdx < numThreads ∧ some dstIdx ≠ rewire then
      dstIdx :: targets numThreads rewire myIdx p
    else targets numThreads rewire myIdx p

/-- `cilk_for_root_static`: whom the master calls. A system worker is given by its
`numa_local_self`. -/
def masterFork (numThreads : Nat) : Option Nat → List Nat
  | none => [0]
  | some myIdx =>
    (if myIdx ≠ 0 then [0] else []) ++ targets numThreads none myIdx (logThreads numThreads)

/-- `cilk_for_root_static`: for whom the master waits. -/
def masterJoin (numThreads : Nat) : Option Nat → List Nat
  | none => [0]
  | some myIdx =>
    targets numThreads none myIdx (logThreads numThreads) ++ (if myIdx ≠ 0 then [0] else [])

/-- `static_numa_scheduler_once`: whom a thread calls, and for whom it waits. A
system worker that is the master is not in the scheduler. -/
def threadFork (numThreads : Nat) (master : Option Nat) (myIdx : Nat) : List Nat :=
  if some myIdx = master then []
  else targets numThreads master myIdx (logThreads numThreads)

/-- The master, and the system threads of the domain. -/
abbrev Party := Option Nat

/-- The tree of a loop: `none` is the master, `some i` is thread `i`. -/
def staticTree (numThreads : Nat) (master : Option Nat) : CallTree Party where
  root := none
  fork
    | none => (masterFork numThreads master).map some
    | some myIdx => (threadFork numThreads master myIdx).map some
  join
    | none => (masterJoin numThreads master).map some
    | some myIdx => (threadFork numThreads master myIdx).map some

-- ---------------------------------------------------------------------------
-- The edges
-- ---------------------------------------------------------------------------

theorem lt_two_pow_countShifts {fuel n : Nat} (h : n ≤ fuel) : n < 2 ^ countShifts fuel n := by
  induction fuel generalizing n with
  | zero =>
    obtain rfl := Nat.le_zero.mp h
    decide
  | succ fuel ih =>
    by_cases hn : n = 0
    · simp [countShifts, hn]
    · rw [countShifts, if_neg hn, Nat.pow_succ, Nat.shiftRight_one]
      have hhalf := ih (n := n / 2) (by omega)
      omega

theorem or_two_pow {i q : Nat} (h : 2 ^ (q + 1) ∣ i) : i ||| 2 ^ q = i + 2 ^ q := by
  obtain ⟨a, rfl⟩ := h
  exact (Nat.two_pow_add_eq_or_of_lt (Nat.pow_lt_pow_right (by decide) (by omega)) a).symm

/-- A thread calls those whose index differs in one bit below its lowest set bit. -/
theorem mem_targets {n : Nat} {rewire : Option Nat} {i d : Nat} {p : Nat} :
    d ∈ targets n rewire i p ↔
      ∃ q < p, 2 ^ (q + 1) ∣ i ∧ d = i + 2 ^ q ∧ d < n ∧ some d ≠ rewire := by
  have hand : ∀ q, i &&& 2 ^ q - 1 = 0 ↔ 2 ^ q ∣ i := by
    intro q
    rw [Nat.and_two_pow_sub_one_eq_mod, Nat.dvd_iff_mod_eq_zero]
  induction p with
  | zero => simp [targets]
  | succ p ih =>
    simp only [targets, hand]
    constructor
    · intro hd
      split at hd
      · rename_i hcond
        rw [or_two_pow hcond.1] at hcond
        rcases List.mem_cons.mp hd with rfl | hd
        · rw [or_two_pow hcond.1]
          exact ⟨p, by omega, hcond.1, rfl, hcond.2⟩
        · obtain ⟨q, hq, hrest⟩ := ih.mp hd
          exact ⟨q, by omega, hrest⟩
      · obtain ⟨q, hq, hrest⟩ := ih.mp hd
        exact ⟨q, by omega, hrest⟩
    · rintro ⟨q, hq, hdvd, rfl, hlt, hne⟩
      by_cases hqp : q = p
      · subst hqp
        rw [or_two_pow hdvd, if_pos ⟨hdvd, hlt, hne⟩]
        exact List.mem_cons_self
      · have hmem := ih.mpr ⟨q, by omega, hdvd, rfl, hlt, hne⟩
        split
        · exact List.mem_cons_of_mem _ hmem
        · exact hmem

/-- The caller of a thread is determined by the lowest set bit of its index. -/
theorem eq_of_add_two_pow {i j p q : Nat} (hi : 2 ^ (p + 1) ∣ i) (hj : 2 ^ (q + 1) ∣ j)
    (h : i + 2 ^ p = j + 2 ^ q) : i = j ∧ p = q := by
  -- the lower of the two powers would divide the other side once more
  have hlow : ∀ {i j p q : Nat}, 2 ^ (p + 1) ∣ i → 2 ^ (q + 1) ∣ j → i + 2 ^ p = j + 2 ^ q →
      ¬ p < q := by
    intro i j p q hi hj h hlt
    have hdvd : 2 ^ (p + 1) ∣ i + 2 ^ p := by
      rw [h]
      exact Nat.dvd_add ((Nat.pow_dvd_pow 2 (by omega)).trans hj) (Nat.pow_dvd_pow 2 hlt)
    have hle := (Nat.pow_dvd_pow_iff_le_right (by decide)).mp ((Nat.dvd_add_right hi).mp hdvd)
    omega
  have hpq : p = q :=
    Nat.le_antisymm (Nat.not_lt.mp (hlow hj hi h.symm)) (Nat.not_lt.mp (hlow hi hj h))
  subst hpq
  exact ⟨Nat.add_right_cancel h, rfl⟩

theorem targets_nodup (n : Nat) (rewire : Option Nat) (i p : Nat) :
    (targets n rewire i p).Nodup := by
  induction p with
  | zero => exact List.nodup_nil
  | succ p ih =>
    simp only [targets]
    split
    · rename_i hcond
      refine List.nodup_cons.mpr ⟨fun hmem => ?_, ih⟩
      rw [Nat.and_two_pow_sub_one_eq_mod, ← Nat.dvd_iff_mod_eq_zero] at hcond
      obtain ⟨q, hq, hdvd, hd, -⟩ := mem_targets.mp hmem
      rw [or_two_pow hcond.1] at hd
      have := (eq_of_add_two_pow hcond.1 hdvd hd).2
      omega
    · exact ih

/-- Every index but 0 is in the loop of exactly one other. -/
theorem exists_caller {n d : Nat} (hd : d ≠ 0) (hlt : d < n) :
    ∃ i q, q < logThreads n ∧ 2 ^ (q + 1) ∣ i ∧ d = i + 2 ^ q ∧ i < d := by
  obtain ⟨q, m, ⟨a, rfl⟩, hdm⟩ := Nat.exists_eq_two_pow_mul_odd hd
  have hpos : 0 < 2 ^ q := Nat.two_pow_pos q
  have hsum : d = 2 ^ (q + 1) * a + 2 ^ q := by
    rw [hdm, Nat.pow_succ]
    ring
  refine ⟨2 ^ (q + 1) * a, q, ?_, Nat.dvd_mul_right .., hsum, by omega⟩
  have hlog := lt_two_pow_countShifts (Nat.sub_le n 1)
  have hq : 2 ^ q < 2 ^ logThreads n := by
    rw [logThreads]
    omega
  exact (Nat.pow_lt_pow_iff_right (by decide)).mp hq

-- ---------------------------------------------------------------------------
-- The tree
-- ---------------------------------------------------------------------------

section Tree

variable {n : Nat} {master : Option Nat}

/-- The children of the master, and of a thread. -/
theorem mem_fork_master {d : Party} : d ∈ (staticTree n master).fork none ↔
    ∃ k, d = some k ∧ k ∈ masterFork n master := by
  simp [staticTree, eq_comm, and_comm]

theorem mem_fork_thread {i : Nat} {d : Party} : d ∈ (staticTree n master).fork (some i) ↔
    ∃ k, d = some k ∧ k ∈ threadFork n master i := by
  simp [staticTree, eq_comm, and_comm]

theorem mem_masterFork {d : Nat} : d ∈ masterFork n master ↔
    (d = 0 ∧ master ≠ some 0) ∨
      ∃ r, master = some r ∧ d ∈ targets n none r (logThreads n) := by
  cases master with
  | none => simp [masterFork]
  | some r =>
    by_cases hr : r = 0
    · simp [masterFork, hr]
    · simp [masterFork, hr]

theorem mem_threadFork {i d : Nat} : d ∈ threadFork n master i ↔
    some i ≠ master ∧ d ∈ targets n master i (logThreads n) := by
  unfold threadFork
  split <;> simp_all

theorem targets_pos {rewire : Option Nat} {i d p : Nat} (h : d ∈ targets n rewire i p) :
    i < d ∧ d < n := by
  obtain ⟨q, -, -, rfl, hlt, -⟩ := mem_targets.mp h
  have := Nat.two_pow_pos q
  omega

/-- The tree of a loop is one. -/
theorem wellFormed (n : Nat) (master : Option Nat) : (staticTree n master).WellFormed where
  nodup i := by
    cases i with
    | none =>
      refine List.Nodup.map (fun a b h => Option.some.inj h) ?_
      cases master with
      | none => simp [masterFork]
      | some r =>
        by_cases hr : r = 0
        · simpa [masterFork, hr] using targets_nodup ..
        · simp only [masterFork, if_pos hr, List.singleton_append]
          exact List.nodup_cons.mpr ⟨fun h => absurd (targets_pos h).1 (by omega),
            targets_nodup ..⟩
    | some i =>
      refine List.Nodup.map (fun a b h => Option.some.inj h) ?_
      unfold threadFork
      split
      · exact List.nodup_nil
      · exact targets_nodup ..
  mem_join i d := by
    cases i with
    | none => cases master <;> simp [staticTree, masterFork, masterJoin, or_comm]
    | some i => rfl
  unique i j d hi hj := by
    -- thread 0 is called by the master only, another one by its caller, and by the
    -- master in its place
    have hthread : ∀ {i d : Nat}, d ∈ threadFork n master i → some i ≠ master ∧
        some d ≠ master ∧ i < d ∧ ∃ q, 2 ^ (q + 1) ∣ i ∧ d = i + 2 ^ q := by
      intro i d hd
      obtain ⟨hne, hd⟩ := mem_threadFork.mp hd
      obtain ⟨q, -, hdvd, hdq, -, hnot⟩ := mem_targets.mp hd
      exact ⟨hne, hnot, (targets_pos hd).1, q, hdvd, hdq⟩
    have hmixed : ∀ {i d : Nat}, d ∈ masterFork n master → d ∉ threadFork n master i := by
      intro i d hd hd'
      obtain ⟨hne, -, hlt, q, hdvd, hdq⟩ := hthread hd'
      rcases mem_masterFork.mp hd with ⟨rfl, -⟩ | ⟨r, rfl, hr⟩
      · omega
      · obtain ⟨q', -, hdvd', hdq', -⟩ := mem_targets.mp hr
        exact hne (congrArg some (eq_of_add_two_pow hdvd hdvd' (hdq.symm.trans hdq')).1)
    cases i with
    | none =>
      obtain ⟨k, rfl, hk⟩ := mem_fork_master.mp hi
      cases j with
      | none => rfl
      | some j =>
        obtain ⟨k', hk', hkj⟩ := mem_fork_thread.mp hj
        obtain rfl := Option.some.inj hk'
        exact absurd hkj (hmixed hk)
    | some i =>
      obtain ⟨k, rfl, hk⟩ := mem_fork_thread.mp hi
      cases j with
      | none =>
        obtain ⟨k', hk', hkj⟩ := mem_fork_master.mp hj
        obtain rfl := Option.some.inj hk'
        exact absurd hk (hmixed hkj)
      | some j =>
        obtain ⟨k', hk', hkj⟩ := mem_fork_thread.mp hj
        obtain rfl := Option.some.inj hk'
        obtain ⟨-, -, -, q, hdvd, hdq⟩ := hthread hk
        -- the caller is the thread without the lowest bit that is set
        obtain ⟨-, -, -, q', hdvd', hdq'⟩ := hthread hkj
        rw [(eq_of_add_two_pow hdvd hdvd' (hdq.symm.trans hdq')).1]
  root_notMem i h := by
    cases i with
    | none =>
      obtain ⟨k, hk, -⟩ := mem_fork_master.mp h
      cases hk
    | some i =>
      obtain ⟨k, hk, -⟩ := mem_fork_thread.mp h
      cases hk

/-- Every thread but the master is called. -/
theorem below_root {d : Nat} (hd : d < n) (hne : some d ≠ master) :
    (staticTree n master).Below none (some d) := by
  induction d using Nat.strong_induction_on with
  | _ d ih =>
    by_cases hd0 : d = 0
    · subst hd0
      exact .single (mem_fork_master.mpr ⟨0, rfl, mem_masterFork.mpr (.inl ⟨rfl, hne.symm⟩)⟩)
    · obtain ⟨i, q, hq, hdvd, hdq, hlt⟩ := exists_caller hd0 hd
      by_cases hi : some i = master
      · have hmem : d ∈ targets n none i (logThreads n) :=
          mem_targets.mpr ⟨q, hq, hdvd, hdq, hd, nofun⟩
        exact .single (mem_fork_master.mpr ⟨d, rfl, mem_masterFork.mpr (.inr ⟨i, hi.symm, hmem⟩)⟩)
      · have hmem : d ∈ targets n master i (logThreads n) :=
          mem_targets.mpr ⟨q, hq, hdvd, hdq, hd, hne⟩
        exact .tail (ih i hlt (by omega) hi)
          (mem_fork_thread.mpr ⟨d, rfl, mem_threadFork.mpr ⟨hi, hmem⟩⟩)

/-- How far a party is from the leaves, at most. -/
def height (n : Nat) : Party → Nat
  | none => n + 1
  | some i => n - i

theorem wellFounded (n : Nat) (master : Option Nat) :
    WellFounded fun d i => d ∈ (staticTree n master).fork i := by
  refine Subrelation.wf (r := InvImage (· < ·) (height n)) (fun {d i} h => ?_)
    (InvImage.wf _ Nat.lt_wfRel.wf)
  cases i with
  | none =>
    obtain ⟨k, rfl, -⟩ := mem_fork_master.mp h
    simp only [InvImage, height]
    omega
  | some i =>
    obtain ⟨k, rfl, hk⟩ := mem_fork_thread.mp h
    have := targets_pos (mem_threadFork.mp hk).2
    simp only [InvImage, height]
    omega

end Tree

-- ---------------------------------------------------------------------------
-- The protocol
-- ---------------------------------------------------------------------------

/-- Threads are called at most once and by one other, work at most once, and clear
their slots only after their subtrees have; when the master goes on, each has
worked once and all slots are clear. Until then the loop is never stuck. -/
structure ForkJoin (n : Nat) (master : Option Nat) (s : CallTree.State Party) : Prop where
  once     : ∀ i, (s.calledBy i).length ≤ 1
  subtree  : ∀ i d, Finished s (some i) → (staticTree n master).Below (some i) d → Finished s d
  complete : s.pc none = .done → s.executed none = 1 ∧ (∀ i < n, s.slot (some i) = false) ∧
    ∀ i < n, some i ≠ master → (s.calledBy (some i)).length = 1 ∧ s.executed (some i) = 1
  progress : s.pc none ≠ .done → ∃ i t, (staticTree n master).next s i = some t

/-- The master that is a system thread is called by nobody. -/
theorem master_not_called {n : Nat} {master : Option Nat} {r : Nat} (hr : master = some r)
    (i : Party) : some r ∉ (staticTree n master).fork i := by
  subst hr
  cases i with
  | none =>
    intro h
    obtain ⟨k, hk, hmem⟩ := mem_fork_master.mp h
    obtain rfl := Option.some.inj hk
    rcases mem_masterFork.mp hmem with ⟨rfl, hne⟩ | ⟨r', hr', hmem⟩
    · exact hne rfl
    · obtain rfl := Option.some.inj hr'
      exact absurd (targets_pos hmem).1 (Nat.lt_irrefl _)
  | some i =>
    intro h
    obtain ⟨k, hk, hmem⟩ := mem_fork_thread.mp h
    obtain rfl := Option.some.inj hk
    obtain ⟨q, -, -, -, -, hne⟩ := mem_targets.mp (mem_threadFork.mp hmem).2
    exact hne rfl

/-- For every number of threads and every master, in every interleaving. -/
theorem staticTree_forkJoin {n : Nat} {master : Option Nat}
    {s : CallTree.State Party} (h : (staticTree n master).machine.Reachable s) :
    ForkJoin n master s := by
  have hT := wellFormed n master
  have hinv := inv_of_reachable hT h
  refine ⟨Reachable.once hT h, fun i d hf hd => Reachable.subtree hT h (Option.some_ne_none i) hf hd,
    fun hdone => ?_, Reachable.progress hT (wellFounded n master) h⟩
  have hcomplete : ∀ i < n, some i ≠ master →
      (s.calledBy (some i)).length = 1 ∧ Finished s (some i) :=
    fun i hi hne => Reachable.complete hT h hdone (below_root hi hne)
  refine ⟨?_, fun i hi => ?_, fun i hi hne => ⟨(hcomplete i hi hne).1, (hcomplete i hi hne).2.1⟩⟩
  · have hroot := hinv.root
    rw [show s.pc (staticTree n master).root = .done from hdone] at hroot
    exact hroot
  · by_cases hne : some i = master
    · -- the slot of the master is not used
      have hnot : s.calledBy (some i) = [] := by
        rcases hinv.calledBy_cases (some i) with hc | ⟨j, hj, -⟩
        · exact hc
        · exact absurd hj (master_not_called hne.symm j)
      exact (hinv.uncalled (Option.some_ne_none i) hnot).2.1
    · exact (hcomplete i hi hne).2.2

/-- A run with three threads, of which number 1 is the master. -/
def exampleSchedule : List Party :=
  [none, none, some 0, some 0, some 0, some 2, some 2, some 2, some 0, some 0, none, none]

theorem staticTree_forkJoin_three :
    ∃ s, (staticTree 3 (some 1)).run (staticTree 3 (some 1)).initial exampleSchedule = some s ∧
      s.pc none = .done ∧ ForkJoin 3 (some 1) s := by
  have hdone : ((staticTree 3 (some 1)).run (staticTree 3 (some 1)).initial exampleSchedule).any
      (fun s => s.pc none = .done) = true := by decide
  cases hrun : (staticTree 3 (some 1)).run (staticTree 3 (some 1)).initial exampleSchedule with
  | none =>
    rw [hrun] at hdone
    cases hdone
  | some s =>
    rw [hrun] at hdone
    exact ⟨s, rfl, of_decide_eq_true hdone, staticTree_forkJoin (reachable_run (.init rfl) hrun)⟩

end SwanRuntime.Loops
