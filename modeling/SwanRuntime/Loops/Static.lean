import Mathlib.Data.List.Nodup
import Mathlib.Data.List.Perm.Basic
import SwanRuntime.Library.Ranges
import SwanRuntime.Loops.Dynamic
import SwanRuntime.Loops.StaticTree

/-!
# Static loops

`cilk_for_root_static` allocates the NUMA nodes that it can get until it has the
threads that the grain size asks for, numbers their threads, and has thread
number `k` execute the `k`-th tile of the range. A user worker that is the master
takes a number behind the threads of its own node.

The numbers of a node are written when the node is allocated. The master reads
those of its own node in any case, also when the node was left out, or when no
node at all could be allocated; then the size of a tile is a division by zero. A
master that is a system worker calls its own node only, with the number of all
threads.

## Results

* `allocSystemWide_spec`   — the nodes that are allocated and their numbers.
* `Numbered.wellFormed`    — the calls form a tree when a system worker has its
  own node only.
* `Numbered.executed_perm` — each number is executed once.
* `staticLoop_exact`       — when a static loop covers its range.
-/

namespace SwanRuntime.Loops

open Ranges CallTree

-- ---------------------------------------------------------------------------
-- The code
-- ---------------------------------------------------------------------------

/-- A call of `cilk_for_root_static`, and what it reads: the global state, its
worker and the frame. `threads` is `numa_node_threads`, `allocated` says where
`numa_allocate` is not 0, and `won` where the compare-and-swap on it succeeds. The
master is a system worker with the given `numa_local_self`, or a user worker. -/
structure StaticLoop (ct : CountType) where
  P         : Nat
  numaNodes : Nat
  threads   : Nat → Nat
  allocated : Nat → Bool
  won       : Nat → Bool
  master    : Option Nat
  node      : Nat
  numa      : Bool
  count     : BitVec ct.bits
  grain     : BitVec 32
  node_lt   : node < numaNodes
  self_lt   : ∀ r, master = some r → r < threads node
  count_pos : 0 < count.toNat

namespace StaticLoop

variable {ct : CountType} (x : StaticLoop ct)

/-- `req_threads`, with the conversions of `count_t`. -/
def reqThreads : Int :=
  let grain := (if x.grain = 0 then 1 else x.grain).signExtend ct.bits
  (((x.count + grain - 1) / grain).setWidth 32).toInt

/-- The loop is executed by its master alone. -/
def Sequential : Prop := x.P = 1 ∨ x.reqThreads < x.threads x.node

instance : Decidable x.Sequential := inferInstanceAs (Decidable (_ ∨ _))

/-- `numa_node_cum_threads`, as the workers have set it up. -/
def cumThreads (i : Nat) : Nat := ((List.range i).map x.threads).sum

/-- `numa_nodes`, `work_items` as far as they are written, and `num_threads`. -/
structure Allocation where
  numaNodes  : List Nat
  workItems  : Nat → Option Nat
  numThreads : Nat

/-- A node that is not left out is allocated if no other loop is faster, and a
user worker adds itself. -/
def takeNode (i : Nat) (a : Allocation) : Allocation :=
  let a :=
    if x.won i then
      { numaNodes  := a.numaNodes ++ [i]
        workItems  := Function.update a.workItems i (some a.numThreads)
        numThreads := a.numThreads + x.threads i }
    else a
  if x.master = none ∧ x.node = i then { a with numThreads := a.numThreads + 1 } else a

/-- The system-wide allocation, from the given nodes on. -/
def allocSystemWide : List Nat → Allocation → Allocation
  | [], a => a
  | i :: rest, a =>
    if x.allocated i = true ∨ x.threads i = 0 then allocSystemWide rest a
    else
      let a := x.takeNode i a
      if x.reqThreads ≤ a.numThreads then a else allocSystemWide rest a

/-- The allocation for a frame with NUMA restrictions. -/
def allocNode : Allocation :=
  let a : Allocation := ⟨[], Function.update (fun _ => none) x.node (some 0), 0⟩
  let a :=
    if x.allocated x.node = false ∧ x.won x.node = true then
      { a with numaNodes := [x.node], numThreads := x.threads x.node }
    else a
  if x.master = none then { a with numThreads := a.numThreads + 1 } else a

def allocation : Allocation :=
  if x.numa then x.allocNode
  else x.allocSystemWide (List.range x.numaNodes) ⟨[], fun _ => none, 0⟩

abbrev numThreads : Nat := x.allocation.numThreads

/-- `delta`. -/
def delta : BitVec ct.bits :=
  (x.count + BitVec.ofNat ct.bits x.numThreads - 1) / BitVec.ofNat ct.bits x.numThreads

/-- `std::min`. -/
def stdMin (a b : BitVec ct.bits) : BitVec ct.bits := if b < a then b else a

/-- `static_execute_capture`: the range of thread number `work`. -/
def executeCapture (work : Nat) : BitVec ct.bits × BitVec ct.bits :=
  (stdMin (x.delta * BitVec.ofNat ct.bits work) x.count,
    stdMin (x.delta * (BitVec.ofNat ct.bits work + 1)) x.count)

/-- The number that the master executes. -/
def masterWork : Option Nat :=
  (x.allocation.workItems x.node).map fun base => base + match x.master with
    | none => if x.numThreads = 1 then 0 else x.threads x.node
    | some r => r

/-- The thread that a slot of `pp_exec_c` belongs to: its node and its index. -/
def slotOwner (slot : Nat) : Option (Nat × Nat) :=
  ((List.range x.numaNodes).find? fun i =>
    x.cumThreads i ≤ slot ∧ slot < x.cumThreads i + x.threads i).map
      fun i => (i, slot - x.cumThreads i)

/-- The master, and the threads of all nodes. -/
abbrev LoopParty := Option (Nat × Nat)

/-- The slots through which the master calls. -/
def masterSlots : List Nat :=
  match x.master with
  | none => x.allocation.numaNodes.map x.cumThreads
  | some r => (masterFork x.numThreads (some r)).map (x.cumThreads x.node + ·)

/-- The slots for which the master waits. -/
def masterWaits : List Nat :=
  match x.master with
  | none => x.allocation.numaNodes.map x.cumThreads
  | some r => (masterJoin x.numThreads (some r)).map (x.cumThreads x.node + ·)

/-- The slots through which thread `j` of node `i` calls, and for which it waits. -/
def threadSlots (i j : Nat) : List Nat :=
  if x.node = i ∧ x.master = some j then []
  else (targets (x.threads i) x.master j (logThreads (x.threads i))).map (x.cumThreads i + ·)

/-- The calls of the loop. -/
def tree : CallTree LoopParty where
  root := none
  fork
    | none => (x.masterSlots.filterMap x.slotOwner).map some
    | some (i, j) => ((x.threadSlots i j).filterMap x.slotOwner).map some
  join
    | none => (x.masterWaits.filterMap x.slotOwner).map some
    | some (i, j) => ((x.threadSlots i j).filterMap x.slotOwner).map some

/-- The number that a party executes. -/
def work : LoopParty → Option Nat
  | none => x.masterWork
  | some (i, j) => (x.allocation.workItems i).map (· + j)

-- ---------------------------------------------------------------------------
-- The property
-- ---------------------------------------------------------------------------

/-- The threads of all nodes. -/
def allThreads : List (Nat × Nat) :=
  (List.range x.numaNodes).flatMap fun i => (List.range (x.threads i)).map fun j => (i, j)

/-- The ranges that the body was called with by a party. -/
def rangesOf (s : State LoopParty) (p : LoopParty) : List (Nat × Nat) :=
  match x.work p with
  | some k => List.replicate (s.executed p)
      ((x.executeCapture k).1.toNat, (x.executeCapture k).2.toNat)
  | none => []

/-- The ranges that the body was called with by all parties. -/
def executed (s : State LoopParty) : List (Nat × Nat) :=
  (none :: x.allThreads.map some).flatMap (x.rangesOf s)

/-- A static loop covers its range: it does not divide by zero, reads no number
that is not written, nothing wraps, and when the master is done each index has
been executed once. -/
structure Exact : Prop where
  threads : x.numThreads ≠ 0
  written : x.masterWork.isSome ∧ ∀ s, x.tree.machine.Reachable s → ∀ p, s.executed p ≠ 0 →
    (x.work p).isSome
  noWrap  : x.count.toNat + x.numThreads - 1 < 2 ^ ct.bits ∧
    ∀ s, x.tree.machine.Reachable s → ∀ p k, s.executed p ≠ 0 → x.work p = some k →
      x.delta.toNat * (k + 1) < 2 ^ ct.bits
  covers  : ∀ s, x.tree.machine.Reachable s → s.pc none = .done →
    Covers (x.executed s) x.count.toNat

-- ---------------------------------------------------------------------------
-- The condition
-- ---------------------------------------------------------------------------

/-- A node that is left out. -/
def Skipped (i : Nat) : Prop := x.allocated i = true ∨ x.threads i = 0

/-- The threads that a node adds when it is reached, with a user worker's own. -/
def share (i : Nat) : Nat :=
  if x.allocated i = true ∨ x.threads i = 0 then 0
  else (if x.won i then x.threads i else 0) + if x.master = none ∧ x.node = i then 1 else 0

/-- The threads that all nodes below `i` add. -/
def before (i : Nat) : Nat := ((List.range i).map x.share).sum

/-- The system-wide allocation reaches node `i`: it has not had enough threads
before. -/
def Reached (i : Nat) : Prop := (∀ k < i, x.Skipped k) ∨ (x.before i : Int) < x.reqThreads

/-- A node is allocated by this loop. -/
def Taken (i : Nat) : Prop :=
  x.allocated i = false ∧ x.won i = true ∧
    if x.numa then i = x.node else x.threads i ≠ 0 ∧ x.Reached i

/-- The threads that take part. -/
noncomputable def participants : Nat :=
  open Classical in
  if x.numa then
    (if x.Taken x.node then x.threads x.node else 0) + if x.master = none then 1 else 0
  else ((List.range x.numaNodes).map fun i => if x.Reached i then x.share i else 0).sum

/-- A master that is a system worker allocates other nodes too, or a user worker
calls a node that has no threads. -/
def SignalsElsewhere : Prop :=
  (∃ r, x.master = some r ∧ ∃ i < x.numaNodes, i ≠ x.node ∧ x.Taken i) ∨
    (x.master = none ∧ x.numa = true ∧ x.Taken x.node ∧ x.threads x.node = 0)

/-- The master gets its own node, which only a user worker with NUMA restrictions
can do without, and the count can be rounded up. -/
def GetsThreads : Prop :=
  (x.Taken x.node ∨ (x.master = none ∧ x.numa = true)) ∧
    x.count.toNat + x.participants ≤ 2 ^ ct.bits

-- ---------------------------------------------------------------------------
-- Slots
-- ---------------------------------------------------------------------------

theorem cumThreads_succ (i : Nat) : x.cumThreads (i + 1) = x.cumThreads i + x.threads i := by
  simp [cumThreads, List.range_succ]

theorem cumThreads_mono {i j : Nat} (h : i ≤ j) : x.cumThreads i ≤ x.cumThreads j := by
  induction h with
  | refl => exact Nat.le_refl _
  | step _ ih =>
    rw [cumThreads_succ]
    omega

/-- A slot lies in one node. -/
theorem eq_of_slot (i j slot : Nat) (hi : x.cumThreads i ≤ slot)
    (hi' : slot < x.cumThreads i + x.threads i) (hj : x.cumThreads j ≤ slot)
    (hj' : slot < x.cumThreads j + x.threads j) : i = j := by
  rw [← cumThreads_succ] at hi' hj'
  by_contra hne
  rcases Nat.lt_or_gt_of_ne hne with h | h
  · have : x.cumThreads (i + 1) ≤ x.cumThreads j := x.cumThreads_mono h
    omega
  · have : x.cumThreads (j + 1) ≤ x.cumThreads i := x.cumThreads_mono h
    omega

theorem slotOwner_eq_some {slot i j : Nat} :
    x.slotOwner slot = some (i, j) ↔
      i < x.numaNodes ∧ j < x.threads i ∧ slot = x.cumThreads i + j := by
  unfold slotOwner
  constructor
  · intro h
    obtain ⟨k, hk, hkj⟩ := Option.map_eq_some_iff.mp h
    obtain ⟨rfl, rfl⟩ := Prod.mk.inj hkj
    have hmem := List.mem_of_find?_eq_some hk
    have hcond := List.find?_some hk
    simp only [decide_eq_true_eq] at hcond
    exact ⟨List.mem_range.mp hmem, by omega, by omega⟩
  · rintro ⟨hi, hj, rfl⟩
    have hsome : ((List.range x.numaNodes).find? fun k =>
        x.cumThreads k ≤ x.cumThreads i + j ∧
          x.cumThreads i + j < x.cumThreads k + x.threads k).isSome := by
      rw [List.find?_isSome]
      exact ⟨i, List.mem_range.mpr hi, by simp [hj]⟩
    obtain ⟨k, hk⟩ := Option.isSome_iff_exists.mp hsome
    have hcond := List.find?_some hk
    simp only [decide_eq_true_eq] at hcond
    obtain rfl := x.eq_of_slot k i _ hcond.1 hcond.2 (Nat.le_add_right ..) (by omega)
    rw [hk, Option.map_some]
    simp

-- ---------------------------------------------------------------------------
-- The allocation
-- ---------------------------------------------------------------------------

/-- A node that is allocated if it is reached. -/
def available (i : Nat) : Bool := !x.allocated i && x.threads i != 0 && x.won i

theorem before_succ (i : Nat) : x.before (i + 1) = x.before i + x.share i := by
  simp [before, List.range_succ]

theorem before_mono {i j : Nat} (h : i ≤ j) : x.before i ≤ x.before j := by
  induction h with
  | refl => exact Nat.le_refl _
  | step _ ih =>
    rw [before_succ]
    omega

/-- The nodes below `e` have been dealt with. -/
structure AllocatedTo (e : Nat) (a : Allocation) : Prop where
  nodes : a.numaNodes = (List.range e).filter x.available
  items : ∀ i, a.workItems i = if i < e ∧ x.available i = true then some (x.before i) else none
  total : a.numThreads = x.before e

/-- One node that is not left out. -/
theorem AllocatedTo.takeNode {i : Nat} {a : Allocation} (h : x.AllocatedTo i a)
    (hskip : ¬ x.Skipped i) : x.AllocatedTo (i + 1) (x.takeNode i a) := by
  have hfree : x.allocated i = false ∧ x.threads i ≠ 0 := by
    simpa [Skipped, not_or] using hskip
  have havail : x.available i = x.won i := by simp [available, hfree.1, hfree.2]
  have hshare : x.share i = (if x.won i then x.threads i else 0) +
      if x.master = none ∧ x.node = i then 1 else 0 := if_neg hskip
  have hnodes : (x.takeNode i a).numaNodes = if x.won i then a.numaNodes ++ [i] else a.numaNodes := by
    simp only [StaticLoop.takeNode]
    split <;> split <;> rfl
  have hitems : (x.takeNode i a).workItems =
      if x.won i then Function.update a.workItems i (some a.numThreads) else a.workItems := by
    simp only [StaticLoop.takeNode]
    split <;> split <;> rfl
  -- the threads of the node, and the master if it is his
  have htotal : (x.takeNode i a).numThreads = a.numThreads + x.share i := by
    rw [hshare]
    by_cases hwon : x.won i = true <;> by_cases huser : x.master = none ∧ x.node = i <;>
      simp [StaticLoop.takeNode, hwon, huser]
    omega
  refine ⟨?_, fun k => ?_, ?_⟩
  · rw [hnodes, List.range_succ, List.filter_append, ← h.nodes]
    cases hwon : x.won i <;> simp [havail, hwon]
  · rw [hitems]
    by_cases hk : k = i
    · subst hk
      have hold : a.workItems k = none := by simp [h.items]
      cases hwon : x.won k <;> simp [havail, hwon, h.total, hold]
    · have hlt : k < i + 1 ↔ k < i := by omega
      simp only [hlt]
      refine Eq.trans ?_ (h.items k)
      split
      · rw [Function.update_of_ne hk]
      · rfl
  · rw [htotal, h.total, before_succ]

/-- A node that is left out. -/
theorem AllocatedTo.skip {i : Nat} {a : Allocation} (h : x.AllocatedTo i a) (hskip : x.Skipped i) :
    x.AllocatedTo (i + 1) a := by
  have hshare : x.share i = 0 := if_pos hskip
  have hnot : x.available i = false := by
    rcases hskip with hskip | hskip <;> simp [available, hskip]
  refine ⟨?_, fun k => ?_, ?_⟩
  · rw [List.range_succ, List.filter_append, h.nodes]
    simp [hnot]
  · rw [h.items]
    by_cases hk : k = i
    · simp [hk, hnot]
    · have : k < i + 1 ↔ k < i := by omega
      simp only [this]
  · rw [h.total, before_succ, hshare, Nat.add_zero]

/-- The nodes are dealt with up to the first that is not reached. -/
theorem allocSystemWide_spec (n : Nat) {i : Nat} {a : Allocation} (h : x.AllocatedTo i a)
    (hreached : ∀ k ≤ i, x.Reached k) :
    ∃ e, e ≤ i + n ∧ x.AllocatedTo e (x.allocSystemWide (List.range' i n) a) ∧
      (∀ k < e, x.Reached k) ∧ ∀ k, e ≤ k → k < i + n → ¬ x.Reached k := by
  induction n generalizing i a with
  | zero =>
    exact ⟨i, by omega, h, fun k hk => hreached k (by omega), fun k hk hk' => by omega⟩
  | succ n ih =>
    have hgo : ∀ {b : Allocation}, x.AllocatedTo (i + 1) b → x.Reached (i + 1) →
        ∃ e, e ≤ i + (n + 1) ∧ x.AllocatedTo e (x.allocSystemWide (List.range' (i + 1) n) b) ∧
          (∀ k < e, x.Reached k) ∧ ∀ k, e ≤ k → k < i + (n + 1) → ¬ x.Reached k := by
      intro b hb hnext
      have hall : ∀ k ≤ i + 1, x.Reached k := by
        intro k hk
        by_cases hki : k = i + 1
        · exact hki ▸ hnext
        · exact hreached k (by omega)
      obtain ⟨e, he, hrest⟩ := ih hb hall
      exact ⟨e, by omega, hrest.1, hrest.2.1, fun k hk hk' => hrest.2.2 k hk (by omega)⟩
    rw [List.range'_succ, allocSystemWide]
    split
    · rename_i hskip
      refine hgo (h.skip x hskip) ?_
      rcases hreached i (Nat.le_refl _) with hall | hlt
      · refine .inl fun j hj => ?_
        rcases Nat.lt_succ_iff_lt_or_eq.mp hj with hj | rfl
        · exact hall j hj
        · exact hskip
      · refine .inr ?_
        rw [before_succ, show x.share i = 0 from if_pos hskip, Nat.add_zero]
        exact hlt
    · rename_i hskip
      have hnext := h.takeNode x hskip
      simp only
      split
      · -- enough threads: what is behind is not reached
        rename_i hreq
        rw [hnext.total] at hreq
        refine ⟨i + 1, by omega, hnext, fun k hk => hreached k (by omega), fun k hk _ => ?_⟩
        rintro (hall | hlt)
        · exact hskip (hall i (by omega))
        · have := x.before_mono hk
          omega
      · rename_i hreq
        rw [hnext.total] at hreq
        exact hgo hnext (.inr (by omega))

/-- The system-wide allocation. -/
theorem allocation_systemWide (h : x.numa = false) :
    ∃ e, e ≤ x.numaNodes ∧ x.AllocatedTo e x.allocation ∧
      ∀ k < x.numaNodes, x.Reached k ↔ k < e := by
  obtain ⟨e, he, halloc, hin, hout⟩ := x.allocSystemWide_spec x.numaNodes (i := 0)
    (a := ⟨[], fun _ => none, 0⟩) ⟨rfl, fun _ => by simp, rfl⟩
    (fun k hk => .inl fun j hj => by omega)
  rw [Nat.zero_add] at he hout
  refine ⟨e, he, ?_, fun k hk => ⟨fun hr => ?_, hin k⟩⟩
  · rw [allocation, h, if_neg (by decide), List.range_eq_range']
    exact halloc
  · by_contra hnot
    exact hout k (by omega) hk hr

theorem allocation_numa (h : x.numa = true) : x.allocation = x.allocNode := by
  rw [allocation, h, if_pos rfl]

/-- The allocation on one node. -/
theorem allocNode_spec (h : x.numa = true) :
    (x.Taken x.node → x.allocation.numaNodes = [x.node]) ∧
      (¬ x.Taken x.node → x.allocation.numaNodes = []) ∧
      x.allocation.workItems x.node = some 0 ∧ x.numThreads = x.participants := by
  have htaken : x.Taken x.node ↔ x.allocated x.node = false ∧ x.won x.node = true := by
    simp [Taken, h]
  rw [numThreads, participants, if_pos h, allocation_numa x h]
  by_cases ht : x.allocated x.node = false ∧ x.won x.node = true <;>
    by_cases hm : x.master = none <;> simp [allocNode, htaken, ht, hm]

/-- The threads of the nodes that are reached. -/
theorem sum_reached {e : Nat} (n : Nat) (h : ∀ k < n, x.Reached k ↔ k < e) :
    open Classical in
    ((List.range n).map fun i => if x.Reached i then x.share i else 0).sum = x.before (min n e) := by
  classical
  induction n with
  | zero => simp [before]
  | succ n ih =>
    rw [List.range_succ, List.map_append, List.sum_append, ih fun k hk => h k (by omega)]
    by_cases hn : n < e
    · rw [show min (n + 1) e = min n e + 1 by omega, before_succ, show min n e = n by omega]
      simp [(h n (by omega)).mpr hn]
    · rw [show min (n + 1) e = min n e by omega]
      simp [mt (h n (by omega)).mp hn]

theorem numThreads_eq : x.numThreads = x.participants := by
  cases h : x.numa with
  | true => exact (x.allocNode_spec h).2.2.2
  | false =>
    obtain ⟨e, he, halloc, hreached⟩ := x.allocation_systemWide h
    rw [participants, if_neg (by simp [h]), x.sum_reached x.numaNodes hreached,
      Nat.min_eq_right he]
    exact halloc.total

/-- The nodes that are allocated. -/
theorem mem_numaNodes {i : Nat} : i ∈ x.allocation.numaNodes ↔ i < x.numaNodes ∧ x.Taken i := by
  cases h : x.numa with
  | true =>
    have hspec := x.allocNode_spec h
    have htaken : x.Taken i → i = x.node := by
      intro ht
      have := ht.2.2
      rwa [if_pos h] at this
    by_cases ht : x.Taken x.node
    · rw [hspec.1 ht, List.mem_singleton]
      exact ⟨fun hi => hi ▸ ⟨x.node_lt, ht⟩, fun hi => htaken hi.2⟩
    · rw [hspec.2.1 ht]
      refine ⟨nofun, fun hi => absurd ?_ ht⟩
      exact htaken hi.2 ▸ hi.2
  | false =>
    obtain ⟨e, he, halloc, hreached⟩ := x.allocation_systemWide h
    rw [halloc.nodes, List.mem_filter, List.mem_range]
    have htaken : x.Taken i ↔ x.available i = true ∧ x.Reached i := by
      simp [Taken, available, h, and_assoc, and_comm, and_left_comm]
    rw [htaken]
    constructor
    · rintro ⟨hi, havail⟩
      exact ⟨by omega, havail, (hreached i (by omega)).mpr hi⟩
    · rintro ⟨hi, havail, hr⟩
      exact ⟨(hreached i hi).mp hr, havail⟩

-- ---------------------------------------------------------------------------
-- The numbers
-- ---------------------------------------------------------------------------

/-- The numbers of the threads that take part, those of node `i` from `base i` on,
and of the master. -/
structure Numbered (base : Nat → Nat) (m : Nat) : Prop where
  items  : ∀ i ∈ x.allocation.numaNodes, x.allocation.workItems i = some (base i)
  master : x.masterWork = some m
  nodup  : x.allocation.numaNodes.Nodup
  lt     : ∀ i ∈ x.allocation.numaNodes, i < x.numaNodes
  pos    : ∀ i ∈ x.allocation.numaNodes, x.threads i ≠ 0
  self   : ∀ r, x.master = some r → x.allocation.numaNodes = [x.node] ∧
    x.numThreads = x.threads x.node ∧ base x.node = 0 ∧ m = r
  perm   : x.master = none → (m :: x.allocation.numaNodes.flatMap fun i =>
    (List.range (x.threads i)).map (base i + ·)).Perm (List.range x.numThreads)

/-- The numbers of the nodes below `e`, with the master's. -/
theorem perm_before (hmaster : x.master = none) (havail : x.available x.node = true) (e : Nat) :
    ((if x.node < e then [x.before x.node + x.threads x.node] else []) ++
      ((List.range e).filter x.available).flatMap fun i =>
        (List.range (x.threads i)).map (x.before i + ·)).Perm (List.range (x.before e)) := by
  induction e with
  | zero => simp [before]
  | succ e ih =>
    have hnode : x.available e = true → x.share e = x.threads e + if x.node = e then 1 else 0 := by
      intro h
      simp only [available, Bool.and_eq_true, Bool.not_eq_true', bne_iff_ne] at h
      simp [share, h.1.1, h.1.2, h.2, hmaster]
    -- a node that is not available is not the master's, and takes no number
    have hnone : x.available e = false → x.share e = 0 ∧ x.node ≠ e := by
      intro h
      have hne : x.node ≠ e := by
        rintro rfl
        rw [havail] at h
        cases h
      refine ⟨?_, hne⟩
      by_cases hskip : x.allocated e = true ∨ x.threads e = 0
      · rw [share, if_pos hskip]
      · have hwon : x.won e = false := by
          rw [not_or] at hskip
          simpa [available, hskip.1, hskip.2] using h
        simp [share, hwon, hne]
    rw [before_succ, List.range_succ, List.filter_append, List.flatMap_append]
    cases hav : x.available e with
    | false =>
      obtain ⟨hshare, hne⟩ := hnone hav
      have hlt : x.node < e + 1 ↔ x.node < e := by omega
      simp only [hlt]
      simpa [hav, hshare] using ih
    | true =>
      rw [hnode hav, ← Nat.add_assoc, List.range_add, List.range_add]
      by_cases hne : x.node = e
      · subst hne
        rw [if_neg (Nat.lt_irrefl _)] at ih
        simp only [List.nil_append] at ih
        simp only [hav, Nat.lt_succ_self, if_true, List.filter_cons_of_pos, List.filter_nil,
          List.flatMap_cons, List.flatMap_nil, List.append_nil, List.singleton_append,
          List.range_one, List.map_cons, List.map_nil, Nat.add_zero]
        refine (List.perm_append_singleton _ _).symm.trans ?_
        exact (ih.append_right _).append_right _
      · have hlt : x.node < e + 1 ↔ x.node < e := by omega
        simp only [hlt]
        simp only [hav, hne, if_false, List.filter_cons_of_pos, List.filter_nil,
          List.flatMap_cons, List.flatMap_nil, List.append_nil, List.range_zero, List.map_nil]
        rw [← List.append_assoc]
        exact ih.append_right _

/-- A node that no other loop holds is available. -/
theorem Taken.available {i : Nat} (h : x.Taken i) (hnuma : x.numa = false) :
    x.available i = true := by
  obtain ⟨hfree, hwon, hrest⟩ := h
  rw [if_neg (by simp [hnuma])] at hrest
  simp [StaticLoop.available, hfree, hwon, hrest.1]

/-- A user worker that gets its own node, system-wide. -/
theorem numbered_user (hnuma : x.numa = false) (hmaster : x.master = none)
    (htaken : x.Taken x.node) :
    x.Numbered x.before (x.before x.node + x.threads x.node) := by
  obtain ⟨e, he, halloc, hreached⟩ := x.allocation_systemWide hnuma
  have havail := htaken.available x hnuma
  have hlt : x.node < e :=
    (hreached x.node x.node_lt).mp (by
      have := htaken.2.2
      rw [if_neg (by simp [hnuma])] at this
      exact this.2)
  have hitem : x.allocation.workItems x.node = some (x.before x.node) := by
    rw [halloc.items, if_pos ⟨hlt, havail⟩]
  have hpos : ∀ i, x.available i = true → x.threads i ≠ 0 := by
    intro i hi
    simp only [available, Bool.and_eq_true, bne_iff_ne] at hi
    exact hi.1.2
  have hperm := x.perm_before hmaster havail e
  rw [if_pos hlt, List.singleton_append, ← halloc.nodes, ← halloc.total] at hperm
  have hmany : x.numThreads ≠ 1 := by
    -- the master and at least one thread of its node
    have hlen := hperm.length_eq
    have hmem : x.node ∈ x.allocation.numaNodes := (x.mem_numaNodes).mpr ⟨x.node_lt, htaken⟩
    have hsub : x.before x.node + 0 ∈ x.allocation.numaNodes.flatMap fun i =>
        (List.range (x.threads i)).map (x.before i + ·) :=
      List.mem_flatMap.mpr ⟨x.node, hmem,
        List.mem_map_of_mem (List.mem_range.mpr (Nat.pos_of_ne_zero (hpos _ havail)))⟩
    have hone := List.length_pos_of_mem hsub
    rw [List.length_cons, List.length_range] at hlen
    rw [numThreads]
    omega
  refine ⟨fun i hi => ?_, ?_, ?_, fun i hi => ((x.mem_numaNodes).mp hi).1, fun i hi => ?_,
    fun r hr => ?_, fun _ => hperm⟩
  · rw [halloc.nodes, List.mem_filter, List.mem_range] at hi
    rw [halloc.items, if_pos hi]
  · rw [masterWork, hitem, hmaster]
    simp [hmany]
  · rw [halloc.nodes]
    exact List.nodup_range.filter _
  · rw [halloc.nodes, List.mem_filter] at hi
    exact hpos i hi.2
  · rw [hmaster] at hr
    cases hr

/-- A system worker that gets its own node and no other, system-wide. -/
theorem numbered_system (hnuma : x.numa = false) {r : Nat} (hmaster : x.master = some r)
    (htaken : x.Taken x.node) (honly : ∀ i < x.numaNodes, x.Taken i → i = x.node) :
    x.Numbered x.before r := by
  obtain ⟨e, he, halloc, hreached⟩ := x.allocation_systemWide hnuma
  have havail := htaken.available x hnuma
  have hlt : x.node < e :=
    (hreached x.node x.node_lt).mp (by
      have := htaken.2.2
      rw [if_neg (by simp [hnuma])] at this
      exact this.2)
  have hnodup : x.allocation.numaNodes.Nodup := by
    rw [halloc.nodes]
    exact List.nodup_range.filter _
  have hnodes : x.allocation.numaNodes = [x.node] := by
    refine List.perm_singleton.mp ((List.perm_ext_iff_of_nodup hnodup (by simp)).mpr fun i => ?_)
    rw [x.mem_numaNodes, List.mem_singleton]
    exact ⟨fun hi => honly i hi.1 hi.2, fun hi => hi ▸ ⟨x.node_lt, htaken⟩⟩
  have hpos : x.threads x.node ≠ 0 := by
    have := htaken.2.2
    rw [if_neg (by simp [hnuma])] at this
    exact this.1
  -- the other nodes add nothing
  have hbefore : ∀ k ≤ e, x.before k = if x.node < k then x.threads x.node else 0 := by
    intro k hk
    induction k with
    | zero => rfl
    | succ k ih =>
      rw [before_succ, ih (by omega)]
      by_cases hkn : k = x.node
      · subst hkn
        simp only [available, Bool.and_eq_true, Bool.not_eq_true', bne_iff_ne] at havail
        simp [share, havail.1.1, havail.1.2, havail.2, hmaster]
      · have hnot : x.available k = false := by
          by_contra hav
          refine hkn (honly k (by omega) ?_)
          have hmem : k ∈ x.allocation.numaNodes := by
            rw [halloc.nodes, List.mem_filter, List.mem_range]
            exact ⟨hk, by simpa using hav⟩
          exact ((x.mem_numaNodes).mp hmem).2
        have hshare : x.share k = 0 := by
          by_cases hskip : x.allocated k = true ∨ x.threads k = 0
          · rw [share, if_pos hskip]
          · have hwon : x.won k = false := by
              rw [not_or] at hskip
              simpa [available, hskip.1, hskip.2] using hnot
            simp [share, hwon, hmaster]
        have : x.node < k + 1 ↔ x.node < k := by omega
        simp only [hshare, this, Nat.add_zero]
  have hzero : x.before x.node = 0 := by
    rw [hbefore x.node (by omega), if_neg (Nat.lt_irrefl _)]
  have hitem : x.allocation.workItems x.node = some (x.before x.node) := by
    rw [halloc.items, if_pos ⟨hlt, havail⟩]
  refine ⟨fun i hi => ?_, ?_, hnodup, fun i hi => ((x.mem_numaNodes).mp hi).1, fun i hi => ?_,
    fun r' hr' => ?_, fun h => ?_⟩
  · rw [hnodes, List.mem_singleton] at hi
    rw [hi, hitem]
  · rw [masterWork, hitem, hmaster, hzero]
    simp
  · rw [hnodes, List.mem_singleton] at hi
    exact hi ▸ hpos
  · rw [hmaster] at hr'
    obtain rfl := Option.some.inj hr'
    refine ⟨hnodes, ?_, hzero, rfl⟩
    rw [numThreads, halloc.total, hbefore e (Nat.le_refl _), if_pos hlt]
  · rw [hmaster] at h
    cases h

/-- On one node. -/
theorem numbered_numa (hnuma : x.numa = true)
    (hnode : x.Taken x.node ∨ x.master = none)
    (hpos : x.master = none → x.Taken x.node → x.threads x.node ≠ 0) :
    ∃ m, x.Numbered (fun _ => 0) m := by
  obtain ⟨hin, hout, hitem, htotal⟩ := x.allocNode_spec hnuma
  rw [participants, if_pos hnuma] at htotal
  cases hmaster : x.master with
  | none =>
    rw [hmaster, if_pos rfl] at htotal
    by_cases ht : x.Taken x.node
    · have hT := hpos hmaster ht
      rw [if_pos ht] at htotal
      have hnodes := hin ht
      refine ⟨x.threads x.node, ?_, ?_, ?_, ?_, ?_, ?_, fun _ => ?_⟩
      · simpa [hnodes] using hitem
      · rw [masterWork, hitem, hmaster]
        simp [htotal, hT]
      · simp [hnodes]
      · simp [hnodes, x.node_lt]
      · simpa [hnodes] using hT
      · intro r hr
        rw [hmaster] at hr
        cases hr
      · rw [hnodes, htotal, List.range_succ]
        simpa using (List.perm_append_singleton _ _).symm
    · rw [if_neg ht] at htotal
      have hnodes := hout ht
      refine ⟨0, ?_, ?_, ?_, ?_, ?_, ?_, fun _ => ?_⟩
      · simp [hnodes]
      · rw [masterWork, hitem, hmaster]
        simp [htotal]
      · simp [hnodes]
      · simp [hnodes]
      · simp [hnodes]
      · intro r hr
        rw [hmaster] at hr
        cases hr
      · simp [hnodes, htotal]
  | some r =>
    have ht : x.Taken x.node := by
      rcases hnode with h | h
      · exact h
      · rw [hmaster] at h
        cases h
    have hr := x.self_lt r hmaster
    have hnodes := hin ht
    rw [hmaster, if_pos ht] at htotal
    refine ⟨r, ?_, ?_, ?_, ?_, ?_, ?_, ?_⟩
    · simpa [hnodes] using hitem
    · rw [masterWork, hitem, hmaster]
      simp
    · simp [hnodes]
    · simp [hnodes, x.node_lt]
    · simp only [hnodes, List.mem_singleton, forall_eq]
      omega
    · intro r' hr'
      rw [hmaster] at hr'
      exact ⟨hnodes, by simpa using htotal, rfl, Option.some.inj hr'⟩
    · intro h
      rw [hmaster] at h
      cases h

/-- A loop that gets its threads and calls no others. -/
theorem exists_numbered (h : x.GetsThreads) (helse : ¬ x.SignalsElsewhere) :
    ∃ base m, x.Numbered base m := by
  rw [SignalsElsewhere, not_or] at helse
  obtain ⟨hother, hempty⟩ := helse
  cases hnuma : x.numa with
  | true =>
    have hnode : x.Taken x.node ∨ x.master = none := h.1.imp id (·.1)
    obtain ⟨m, hm⟩ := x.numbered_numa hnuma hnode
      fun hm ht hzero => hempty ⟨hm, hnuma, ht, hzero⟩
    exact ⟨_, m, hm⟩
  | false =>
    have htaken : x.Taken x.node := by
      rcases h.1 with h | h
      · exact h
      · rw [hnuma] at h
        cases h.2
    cases hmaster : x.master with
    | none => exact ⟨_, _, x.numbered_user hnuma hmaster htaken⟩
    | some r =>
      refine ⟨_, r, x.numbered_system hnuma hmaster htaken fun i hi ht => ?_⟩
      by_contra hne
      exact hother ⟨r, hmaster, i, hi, hne, ht⟩

-- ---------------------------------------------------------------------------
-- The calls
-- ---------------------------------------------------------------------------

/-- The threads that thread `j` of node `i` calls are on its node. -/
theorem mem_fork_thread {i j i' d : Nat} : some (i', d) ∈ x.tree.fork (some (i, j)) ↔
    i' = i ∧ i < x.numaNodes ∧ ¬ (x.node = i ∧ x.master = some j) ∧
      d ∈ targets (x.threads i) x.master j (logThreads (x.threads i)) := by
  have hmem : some (i', d) ∈ x.tree.fork (some (i, j)) ↔
      ∃ slot ∈ x.threadSlots i j, x.slotOwner slot = some (i', d) := by
    simp [tree]
  rw [hmem]
  constructor
  · rintro ⟨slot, hslot, howner⟩
    rw [threadSlots] at hslot
    split at hslot
    · cases hslot
    · obtain ⟨t, ht, rfl⟩ := List.mem_map.mp hslot
      obtain ⟨hi', hd, heq⟩ := (x.slotOwner_eq_some).mp howner
      have hlt := (targets_pos ht).2
      obtain rfl := x.eq_of_slot i i' (x.cumThreads i + t)
        (by omega) (by omega) (by omega) (by omega)
      obtain rfl : t = d := by omega
      exact ⟨rfl, hi', ‹_›, ht⟩
  · rintro ⟨rfl, hi, hnot, ht⟩
    refine ⟨x.cumThreads i' + d, ?_, (x.slotOwner_eq_some).mpr ⟨hi, (targets_pos ht).2, rfl⟩⟩
    rw [threadSlots, if_neg hnot]
    exact List.mem_map_of_mem ht

section Numbered

variable {x} {base : Nat → Nat} {m : Nat}

/-- A user worker calls the first thread of each node. -/
theorem Numbered.mem_fork_user (h : x.Numbered base m) (hmaster : x.master = none) {i d : Nat} :
    some (i, d) ∈ x.tree.fork none ↔ i ∈ x.allocation.numaNodes ∧ d = 0 := by
  have hmem : some (i, d) ∈ x.tree.fork none ↔
      ∃ k ∈ x.allocation.numaNodes, x.slotOwner (x.cumThreads k) = some (i, d) := by
    simp [tree, masterSlots, hmaster]
  rw [hmem]
  constructor
  · rintro ⟨k, hk, howner⟩
    have hpos := h.pos k hk
    obtain ⟨-, hd, heq⟩ := (x.slotOwner_eq_some).mp howner
    obtain rfl := x.eq_of_slot k i (x.cumThreads k)
      (by omega) (by omega) (by omega) (by omega)
    exact ⟨hk, by omega⟩
  · rintro ⟨hi, rfl⟩
    exact ⟨i, hi, (x.slotOwner_eq_some).mpr
      ⟨h.lt i hi, Nat.pos_of_ne_zero (h.pos i hi), rfl⟩⟩

/-- A system worker calls threads of its node. -/
theorem Numbered.mem_fork_system (h : x.Numbered base m) {r : Nat} (hmaster : x.master = some r)
    {i d : Nat} : some (i, d) ∈ x.tree.fork none ↔
      i = x.node ∧ d ∈ masterFork (x.threads x.node) (some r) := by
  have hmem : some (i, d) ∈ x.tree.fork none ↔
      ∃ t ∈ masterFork (x.threads x.node) (some r),
        x.slotOwner (x.cumThreads x.node + t) = some (i, d) := by
    simp [tree, masterSlots, hmaster, (h.self r hmaster).2.1]
  have hr := x.self_lt r hmaster
  have hlt : ∀ t ∈ masterFork (x.threads x.node) (some r), t < x.threads x.node := by
    intro t ht
    rcases mem_masterFork.mp ht with ⟨rfl, -⟩ | ⟨r', -, ht⟩
    · omega
    · exact (targets_pos ht).2
  rw [hmem]
  constructor
  · rintro ⟨t, ht, howner⟩
    have := hlt t ht
    obtain ⟨-, hd, heq⟩ := (x.slotOwner_eq_some).mp howner
    obtain rfl := x.eq_of_slot x.node i (x.cumThreads x.node + t)
      (by omega) (by omega) (by omega) (by omega)
    obtain rfl : t = d := by omega
    exact ⟨rfl, ht⟩
  · rintro ⟨rfl, hd⟩
    exact ⟨d, hd, (x.slotOwner_eq_some).mpr ⟨x.node_lt, hlt d hd, rfl⟩⟩

/-- A slot belongs to one thread. -/
theorem slotOwner_inj {a b : Nat} {p : Nat × Nat} (ha : p ∈ x.slotOwner a)
    (hb : p ∈ x.slotOwner b) : a = b := by
  obtain ⟨i, j⟩ := p
  rw [((x.slotOwner_eq_some).mp ha).2.2, ((x.slotOwner_eq_some).mp hb).2.2]

/-- The calls form a tree. -/
theorem Numbered.wellFormed (h : x.Numbered base m) : x.tree.WellFormed where
  nodup i := by
    have hsome : ∀ {slots : List Nat}, slots.Nodup →
        ((slots.filterMap x.slotOwner).map some).Nodup := fun hslots =>
      (hslots.filterMap fun a b p ha hb => slotOwner_inj ha hb).map fun _ _ => Option.some.inj
    rcases i with _ | ⟨i, j⟩
    · refine hsome ?_
      cases hmaster : x.master with
      | none =>
        simp only [masterSlots, hmaster]
        refine h.nodup.map_on fun i hi j hj hij => ?_
        have h₁ := h.pos i hi
        have h₂ := h.pos j hj
        exact x.eq_of_slot i j (x.cumThreads i) (by omega) (by omega) (by omega) (by omega)
      | some r =>
        simp only [masterSlots, hmaster]
        have hnodup := (Loops.wellFormed x.numThreads (some r)).nodup none
        exact (List.Nodup.of_map some hnodup).map fun a b hab => by omega
    · refine hsome ?_
      rw [threadSlots]
      split
      · exact List.nodup_nil
      · exact (targets_nodup ..).map fun a b hab => by omega
  mem_join i d := by
    rcases i with _ | ⟨i, j⟩
    · cases hmaster : x.master with
      | none => simp [tree, masterSlots, masterWaits, hmaster]
      | some r =>
        have hjoin : ∀ t, t ∈ masterJoin x.numThreads (some r) ↔
            t ∈ masterFork x.numThreads (some r) := by
          intro t
          have := (Loops.wellFormed x.numThreads (some r)).mem_join none (some t)
          simpa [staticTree] using this
        simp [tree, masterSlots, masterWaits, hmaster, hjoin]
    · rfl
  unique i j d hi hj := by
    have hroot : ∀ {i' k i j : Nat}, some (i', k) ∈ x.tree.fork none →
        some (i', k) ∉ x.tree.fork (some (i, j)) := by
      intro i' k i j hnone hthread
      obtain ⟨rfl, -, hnot, hk⟩ := x.mem_fork_thread.mp hthread
      cases hmaster : x.master with
      | none =>
        have := (targets_pos hk).1
        have := ((h.mem_fork_user hmaster).mp hnone).2
        omega
      | some r =>
        obtain ⟨rfl, hkm⟩ := (h.mem_fork_system hmaster).mp hnone
        have hne : some j ≠ some r := fun heq => hnot ⟨rfl, hmaster.trans heq.symm⟩
        rw [hmaster] at hk
        have hunique := (Loops.wellFormed (x.threads x.node) (some r)).unique none (some j) (some k)
          (mem_fork_master.mpr ⟨k, rfl, hkm⟩)
          (Loops.mem_fork_thread.mpr ⟨k, rfl, mem_threadFork.mpr ⟨hne, hk⟩⟩)
        cases hunique
    rcases d with _ | ⟨i', k⟩
    · rcases i with _ | ⟨i, j'⟩
      · rcases j with _ | ⟨i, j⟩
        · rfl
        · simp [tree] at hj
      · simp [tree] at hi
    rcases i with _ | ⟨i, j'⟩
    · rcases j with _ | ⟨i, j⟩
      · rfl
      · exact absurd hj (hroot hi)
    · rcases j with _ | ⟨i₂, j₂⟩
      · exact absurd hi (hroot hj)
      · obtain ⟨rfl, -, -, hk⟩ := x.mem_fork_thread.mp hi
        obtain ⟨rfl, -, -, hk₂⟩ := x.mem_fork_thread.mp hj
        obtain ⟨q, -, hdvd, hq, -⟩ := mem_targets.mp hk
        obtain ⟨q₂, -, hdvd₂, hq₂, -⟩ := mem_targets.mp hk₂
        rw [(eq_of_add_two_pow hdvd hdvd₂ (hq.symm.trans hq₂)).1]
  root_notMem i hi := by
    rcases i with _ | ⟨i, j⟩
    · simp [tree] at hi
    · simp [tree] at hi

/-- The threads that take part. -/
def TakesPart (x : StaticLoop ct) (p : Nat × Nat) : Prop :=
  p.1 ∈ x.allocation.numaNodes ∧ p.2 < x.threads p.1 ∧ ¬ (x.node = p.1 ∧ x.master = some p.2)

/-- The threads that take part are called. -/
theorem Numbered.below (h : x.Numbered base m) {p : Nat × Nat} (hp : x.TakesPart p) :
    x.tree.Below none (some p) := by
  obtain ⟨i, j⟩ := p
  obtain ⟨hi, hj, hnot⟩ := hp
  have hnode : ∀ r, x.master = some r → i = x.node := by
    intro r hr
    rw [(h.self r hr).1] at hi
    exact List.mem_singleton.mp hi
  have hne : some j ≠ x.master := by
    intro heq
    exact hnot ⟨(hnode j heq.symm).symm, heq.symm⟩
  have hbelow : (staticTree (x.threads i) x.master).Below none (some j) := below_root hj hne
  refine Relation.TransGen.lift (Option.map fun j => (i, j)) (fun a d hd => ?_) _ _ hbelow
  cases a with
  | none =>
    obtain ⟨k, rfl, hk⟩ := mem_fork_master.mp hd
    cases hmaster : x.master with
    | none =>
      rw [hmaster] at hk
      refine (h.mem_fork_user hmaster).mpr ⟨hi, ?_⟩
      simpa [masterFork] using hk
    | some r =>
      rw [hmaster] at hk
      have hin := hnode r hmaster
      exact (h.mem_fork_system hmaster).mpr ⟨hin, hin ▸ hk⟩
  | some a =>
    obtain ⟨k, rfl, hk⟩ := Loops.mem_fork_thread.mp hd
    obtain ⟨hka, hk⟩ := mem_threadFork.mp hk
    exact x.mem_fork_thread.mpr ⟨rfl, h.lt i hi, fun hm => hka hm.2.symm, hk⟩

/-- Only threads that take part are called. -/
theorem Numbered.takesPart (h : x.Numbered base m) {p : LoopParty} (hp : x.tree.Below none p) :
    ∃ q, p = some q ∧ x.TakesPart q := by
  induction hp with
  | @single p hp =>
    match p with
    | none => exact absurd hp (h.wellFormed.root_notMem none)
    | some (i, k) =>
      cases hmaster : x.master with
      | none =>
        obtain ⟨hi, rfl⟩ := (h.mem_fork_user hmaster).mp hp
        exact ⟨_, rfl, hi, Nat.pos_of_ne_zero (h.pos i hi), by simp [hmaster]⟩
      | some r =>
        obtain ⟨rfl, hk⟩ := (h.mem_fork_system hmaster).mp hp
        have hr := x.self_lt r hmaster
        have hne : k ≠ r := by
          rintro rfl
          exact master_not_called rfl none (mem_fork_master.mpr ⟨k, rfl, hk⟩)
        refine ⟨_, rfl, ?_, ?_, ?_⟩
        · simp [(h.self r hmaster).1]
        · rcases mem_masterFork.mp hk with ⟨rfl, -⟩ | ⟨r', -, hk⟩
          · exact Nat.lt_of_le_of_lt (Nat.zero_le _) hr
          · exact (targets_pos hk).2
        · rw [hmaster]
          exact fun hm => hne (Option.some.inj hm.2).symm
  | @tail p q _ hq ih =>
    obtain ⟨⟨i, j⟩, rfl, hi, -, -⟩ := ih
    match q with
    | none => exact absurd hq (h.wellFormed.root_notMem _)
    | some (i', k) =>
      obtain ⟨rfl, -, -, hk⟩ := x.mem_fork_thread.mp hq
      obtain ⟨-, -, -, -, hlt, hne⟩ := mem_targets.mp hk
      exact ⟨_, rfl, hi, hlt, fun hm => hne hm.2.symm⟩

/-- Nobody else works. -/
theorem Numbered.executed_cases (h : x.Numbered base m) {s : State LoopParty}
    (hs : x.tree.machine.Reachable s) {p : LoopParty} (hp : s.executed p ≠ 0) :
    p = none ∨ ∃ q, p = some q ∧ x.TakesPart q := by
  by_cases hnone : p = none
  · exact .inl hnone
  · refine .inr (h.takesPart (Reachable.below h.wellFormed hs fun hc => hp ?_))
    exact ((inv_of_reachable h.wellFormed hs).uncalled hnone hc).2.2

-- ---------------------------------------------------------------------------
-- The ranges
-- ---------------------------------------------------------------------------

theorem mem_pairs {l : List Nat} {f : Nat → Nat} {i j : Nat} :
    (i, j) ∈ (l.flatMap fun i => (List.range (f i)).map fun j => (i, j)) ↔ i ∈ l ∧ j < f i := by
  simp [List.mem_flatMap]

theorem nodup_pairs {l : List Nat} (h : l.Nodup) (f : Nat → Nat) :
    (l.flatMap fun i => (List.range (f i)).map fun j => (i, j)).Nodup := by
  refine List.nodup_flatMap.mpr ⟨fun i _ => ?_, h.imp fun {i k} hne => ?_⟩
  · exact List.nodup_range.map fun a b hab => (Prod.mk.inj hab).2
  · intro p hp hp'
    obtain ⟨_, -, rfl⟩ := List.mem_map.mp hp
    obtain ⟨_, -, heq⟩ := List.mem_map.mp hp'
    exact hne (Prod.mk.inj heq).1.symm

open Classical in
/-- The threads that take part, with the master, have all numbers. -/
theorem Numbered.perm_works (h : x.Numbered base m) :
    (m :: (x.allThreads.filter fun p => decide (x.TakesPart p)).map fun p => base p.1 + p.2).Perm
      (List.range x.numThreads) := by
  have hnodup : (x.allThreads.filter fun p => decide (x.TakesPart p)).Nodup :=
    (nodup_pairs List.nodup_range _).filter _
  have hmem : ∀ i j, (i, j) ∈ (x.allThreads.filter fun p => decide (x.TakesPart p)) ↔
      x.TakesPart (i, j) := by
    intro i j
    rw [List.mem_filter, allThreads, mem_pairs, List.mem_range, decide_eq_true_eq]
    exact ⟨(·.2), fun hp => ⟨⟨h.lt i hp.1, hp.2.1⟩, hp⟩⟩
  cases hmaster : x.master with
  | none =>
    have hperm : (x.allThreads.filter fun p => decide (x.TakesPart p)).Perm
        (x.allocation.numaNodes.flatMap fun i =>
          (List.range (x.threads i)).map fun j => (i, j)) := by
      refine (List.perm_ext_iff_of_nodup hnodup (nodup_pairs h.nodup _)).mpr fun p => ?_
      obtain ⟨i, j⟩ := p
      rw [hmem, mem_pairs]
      simp [TakesPart, hmaster]
    refine ((hperm.map _).cons m).trans ?_
    refine List.Perm.trans ?_ (h.perm hmaster)
    rw [List.map_flatMap]
    simp [Function.comp_def]
  | some r =>
    obtain ⟨hnodes, htotal, hbase, rfl⟩ := h.self r hmaster
    have hr := x.self_lt m hmaster
    have hperm : (x.allThreads.filter fun p => decide (x.TakesPart p)).Perm
        (((List.range (x.threads x.node)).filter (· ≠ m)).map fun j => (x.node, j)) := by
      refine (List.perm_ext_iff_of_nodup hnodup ?_).mpr fun p => ?_
      · exact (List.nodup_range.filter _).map fun a b hab => (Prod.mk.inj hab).2
      · obtain ⟨i, j⟩ := p
        rw [hmem]
        simp only [TakesPart, hnodes, hmaster, List.mem_singleton, List.mem_map, List.mem_filter,
          List.mem_range, decide_eq_true_eq, Prod.mk.injEq, Option.some.injEq]
        constructor
        · rintro ⟨rfl, hj, hne⟩
          exact ⟨j, ⟨hj, fun heq => hne ⟨rfl, heq.symm⟩⟩, rfl, rfl⟩
        · rintro ⟨k, ⟨hk, hne⟩, rfl, rfl⟩
          exact ⟨rfl, hk, fun heq => hne heq.2.symm⟩
    refine ((hperm.map _).cons m).trans ?_
    simp only [List.map_map, Function.comp_def, hbase, Nat.zero_add, List.map_id']
    rw [htotal]
    refine (List.perm_ext_iff_of_nodup ?_ List.nodup_range).mpr fun k => ?_
    · exact List.nodup_cons.mpr ⟨by simp, List.nodup_range.filter _⟩
    · simp only [List.mem_cons, List.mem_filter, List.mem_range, decide_eq_true_eq]
      constructor
      · rintro (rfl | hk)
        · exact hr
        · exact hk.1
      · intro hk
        by_cases hkm : k = m
        · exact .inl hkm
        · exact .inr ⟨hk, hkm⟩

/-- The number of a party that works. -/
theorem Numbered.work_lt (h : x.Numbered base m) {s : State LoopParty}
    (hs : x.tree.machine.Reachable s) {p : LoopParty} (hp : s.executed p ≠ 0) :
    ∃ k, x.work p = some k ∧ k < x.numThreads := by
  classical
  have hperm := h.perm_works
  rcases h.executed_cases hs hp with rfl | ⟨⟨i, j⟩, rfl, hpart⟩
  · exact ⟨m, h.master, List.mem_range.mp (hperm.mem_iff.mp List.mem_cons_self)⟩
  · refine ⟨base i + j, ?_, List.mem_range.mp (hperm.mem_iff.mp (List.mem_cons_of_mem _ ?_))⟩
    · simp [work, h.items i hpart.1]
    · refine List.mem_map.mpr ⟨(i, j), List.mem_filter.mpr ⟨?_, by simpa using hpart⟩, rfl⟩
      exact mem_pairs.mpr ⟨List.mem_range.mpr (h.lt i hpart.1), hpart.2.1⟩

theorem flatMap_if {α β : Type} (P : α → Prop) [DecidablePred P] (g : α → β) (l : List α) :
    (l.flatMap fun a => if P a then [g a] else []) = (l.filter fun a => decide (P a)).map g := by
  induction l with
  | nil => rfl
  | cons a l ih =>
    rw [List.flatMap_cons, ih]
    by_cases ha : P a <;> simp [ha]

/-- When the master is done the body was called once for each number. -/
theorem Numbered.executed_perm (h : x.Numbered base m) {s : State LoopParty}
    (hs : x.tree.machine.Reachable s) (hdone : s.pc none = .done) :
    (x.executed s).Perm ((List.range x.numThreads).map fun k =>
      ((x.executeCapture k).1.toNat, (x.executeCapture k).2.toNat)) := by
  classical
  have hinv := inv_of_reachable h.wellFormed hs
  have hroot : s.executed none = 1 := by
    have := hinv.root
    rw [show s.pc x.tree.root = .done from hdone] at this
    exact this
  have hmaster : x.rangesOf s none =
      [((x.executeCapture m).1.toNat, (x.executeCapture m).2.toNat)] := by
    simp [rangesOf, work, h.master, hroot]
  have hthread : ∀ p ∈ x.allThreads, x.rangesOf s (some p) = if x.TakesPart p then
      [((x.executeCapture (base p.1 + p.2)).1.toNat,
        (x.executeCapture (base p.1 + p.2)).2.toNat)] else [] := by
    rintro ⟨i, j⟩ -
    by_cases hp : x.TakesPart (i, j)
    · have hone := (Reachable.complete h.wellFormed hs hdone (h.below hp)).2.1
      simp [rangesOf, work, h.items i hp.1, hone, hp]
    · have hzero : s.executed (some (i, j)) = 0 := by
        by_contra hne
        rcases h.executed_cases hs hne with hnone | ⟨q, hq, hpart⟩
        · cases hnone
        · exact hp (Option.some.inj hq ▸ hpart)
      simp only [rangesOf, hzero, List.replicate_zero, if_neg hp]
      split <;> rfl
  have heq : x.executed s = (m :: (x.allThreads.filter fun p => decide (x.TakesPart p)).map
      fun p => base p.1 + p.2).map fun k =>
        ((x.executeCapture k).1.toNat, (x.executeCapture k).2.toNat) := by
    rw [executed, List.flatMap_cons, hmaster, List.flatMap_map, List.map_cons, List.map_map,
      List.singleton_append]
    refine congrArg _ (Eq.trans ?_ (flatMap_if x.TakesPart _ _))
    exact List.flatMap_congr hthread
  rw [heq]
  exact h.perm_works.map _

end Numbered

theorem stdMin_toNat {a b : BitVec ct.bits} : (stdMin a b).toNat = min a.toNat b.toNat := by
  rw [stdMin]
  split
  · rename_i h
    have : b.toNat < a.toNat := h
    omega
  · rename_i h
    have : ¬ b.toNat < a.toNat := h
    omega

section Tiles

variable {x} (hwrap : x.count.toNat + x.numThreads - 1 < 2 ^ ct.bits)

include hwrap

theorem numThreads_toNat : (BitVec.ofNat ct.bits x.numThreads).toNat = x.numThreads := by
  have hcount := x.count_pos
  rw [BitVec.toNat_ofNat]
  exact Nat.mod_eq_of_lt (by omega)

/-- The size of a tile, when the rounding does not wrap. -/
theorem delta_toNat :
    x.delta.toNat = (x.count.toNat + x.numThreads - 1) / x.numThreads := by
  have hcount := x.count_pos
  have hsub : (x.count + BitVec.ofNat ct.bits x.numThreads - 1).toNat =
      x.count.toNat + x.numThreads - 1 := by
    rw [BitVec.toNat_sub, BitVec.toNat_add, numThreads_toNat hwrap, toNat_one]
    by_cases hlt : x.count.toNat + x.numThreads < 2 ^ ct.bits
    · rw [Nat.mod_eq_of_lt hlt, show 2 ^ ct.bits - 1 + (x.count.toNat + x.numThreads) =
        x.count.toNat + x.numThreads - 1 + 2 ^ ct.bits by omega, Nat.add_mod_right,
        Nat.mod_eq_of_lt hwrap]
    · -- the sum is exactly the bound
      have heq : x.count.toNat + x.numThreads = 2 ^ ct.bits := by omega
      rw [heq, Nat.mod_self, Nat.add_zero]
      exact Nat.mod_eq_of_lt (by omega)
  rw [delta, BitVec.toNat_udiv, hsub, numThreads_toNat hwrap]

/-- No tile reaches beyond the type. -/
theorem delta_mul_lt {k : Nat} (hk : k ≤ x.numThreads) : x.delta.toNat * k < 2 ^ ct.bits := by
  rw [delta_toNat hwrap]
  calc (x.count.toNat + x.numThreads - 1) / x.numThreads * k
      _ ≤ (x.count.toNat + x.numThreads - 1) / x.numThreads * x.numThreads :=
        Nat.mul_le_mul_left _ hk
      _ ≤ x.count.toNat + x.numThreads - 1 := Nat.div_mul_le_self ..
      _ < 2 ^ ct.bits := hwrap

/-- The tiles cover the range. -/
theorem count_le_delta_mul (h : x.numThreads ≠ 0) :
    x.count.toNat ≤ x.delta.toNat * x.numThreads := by
  rw [delta_toNat hwrap]
  have hdiv := Nat.div_add_mod (x.count.toNat + x.numThreads - 1) x.numThreads
  have hmod := Nat.mod_lt (x.count.toNat + x.numThreads - 1) (Nat.pos_of_ne_zero h)
  rw [Nat.mul_comm] at hdiv
  omega

/-- Thread number `k` executes the `k`-th tile. -/
theorem executeCapture_toNat {k : Nat} (hk : k < x.numThreads) :
    ((x.executeCapture k).1.toNat, (x.executeCapture k).2.toNat) =
      tile x.delta.toNat x.count.toNat k := by
  have hcount := x.count_pos
  have hlow := delta_mul_lt hwrap (Nat.le_of_lt hk)
  have hhigh := delta_mul_lt hwrap (Nat.succ_le_of_lt hk)
  have hkNat : (BitVec.ofNat ct.bits k).toNat = k := by
    rw [BitVec.toNat_ofNat]
    exact Nat.mod_eq_of_lt (by omega)
  have hsucc : (BitVec.ofNat ct.bits k + 1).toNat = k + 1 := by
    rw [BitVec.toNat_add, hkNat, toNat_one]
    exact Nat.mod_eq_of_lt (by omega)
  simp only [executeCapture, stdMin_toNat, tile, BitVec.toNat_mul, hkNat, hsucc]
  rw [Nat.mod_eq_of_lt hlow, Nat.mod_eq_of_lt hhigh]

end Tiles

/-- A loop that gets its threads and calls no others covers its range. -/
theorem exact_of_getsThreads (h : x.GetsThreads) (helse : ¬ x.SignalsElsewhere) : x.Exact := by
  obtain ⟨base, m, hnum⟩ := x.exists_numbered h helse
  classical
  have hperm := hnum.perm_works
  have hthreads : x.numThreads ≠ 0 := by
    intro hzero
    have hlen := hperm.length_eq
    rw [hzero] at hlen
    simp at hlen
  have hcount := x.count_pos
  have hwrap : x.count.toNat + x.numThreads - 1 < 2 ^ ct.bits := by
    have := h.2
    rw [← numThreads_eq] at this
    omega
  refine ⟨hthreads, ⟨by rw [hnum.master]; rfl, fun s hs p hp => ?_⟩,
    ⟨hwrap, fun s hs p k hp hk => ?_⟩, fun s hs hdone => ?_⟩
  · obtain ⟨k, hk, -⟩ := hnum.work_lt hs hp
    rw [hk]
    rfl
  · obtain ⟨k', hk', hlt⟩ := hnum.work_lt hs hp
    obtain rfl := Option.some.inj (hk.symm.trans hk')
    exact delta_mul_lt hwrap hlt
  · refine Covers.perm ?_ (hnum.executed_perm hs hdone).symm
    rw [List.map_congr_left fun k hk => executeCapture_toNat hwrap (List.mem_range.mp hk)]
    exact covers_tiles (count_le_delta_mul hwrap hthreads)

/-- A loop that covers its range gets its threads. -/
theorem getsThreads_of_exact (h : x.Exact) : x.GetsThreads := by
  have hcount := x.count_pos
  have hwrap : x.count.toNat + x.participants ≤ 2 ^ ct.bits := by
    have := h.noWrap.1
    rw [numThreads_eq] at this
    omega
  refine ⟨?_, hwrap⟩
  cases hnuma : x.numa with
  | true =>
    cases hmaster : x.master with
    | none => exact .inr ⟨rfl, rfl⟩
    | some r =>
      by_contra hnot
      rw [not_or] at hnot
      refine h.threads ?_
      rw [numThreads_eq, participants, if_pos hnuma, if_neg hnot.1]
      simp [hmaster]
  | false =>
    -- the master reads the number of its node
    refine .inl ?_
    obtain ⟨e, he, halloc, hreached⟩ := x.allocation_systemWide hnuma
    have hwritten := h.written.1
    rw [masterWork, Option.isSome_map, halloc.items] at hwritten
    split at hwritten
    · rename_i hcond
      have hmem : x.node ∈ x.allocation.numaNodes := by
        rw [halloc.nodes, List.mem_filter, List.mem_range]
        exact hcond
      exact ((x.mem_numaNodes).mp hmem).2
    · cases hwritten

/-- What a static loop is to do. -/
def Correct : Prop :=
  (x.Sequential → Covers [((0 : BitVec ct.bits).toNat, x.count.toNat)] x.count.toNat) ∧
    (¬ x.Sequential → x.Exact)

end StaticLoop

/-- A static loop that is not executed by its master alone covers its range if it
gets its threads and calls no others, and only if it gets its threads. -/
theorem staticLoop_exact {ct : CountType} (x : StaticLoop ct) :
    (x.Sequential ∨ (x.GetsThreads ∧ ¬ x.SignalsElsewhere) → x.Correct) ∧
      (x.Correct → x.Sequential ∨ x.GetsThreads) := by
  have hcount := x.count_pos
  refine ⟨fun h => ⟨fun _ => ?_, fun hpar => ?_⟩, fun h => ?_⟩
  · refine ⟨fun r hr => ?_, fun i hi => ?_⟩
    · rw [List.mem_singleton.mp hr]
      simp
    · simp [hi]
  · rcases h with h | h
    · exact absurd h hpar
    · exact x.exact_of_getsThreads h.1 h.2
  · by_cases hseq : x.Sequential
    · exact .inl hseq
    · exact .inr (x.getsThreads_of_exact (h.2 hseq))

/-- Two threads on one node, which another loop has allocated; the master is
one of them, and its frame has NUMA restrictions. -/
def exampleHeld : StaticLoop .cilk32_t where
  P         := 3
  numaNodes := 1
  threads i := if i = 0 then 2 else 0
  allocated := fun _ => true
  won       := fun _ => false
  master    := some 0
  node      := 0
  numa      := true
  count     := 100
  grain     := 0
  node_lt   := by decide
  self_lt   := by decide
  count_pos := by decide

/-- No thread can be allocated, and the number of threads is a divisor. -/
theorem staticLoop_not_correct : ¬ ∀ x : StaticLoop .cilk32_t, x.Correct := by
  intro h
  have hpar : ¬ exampleHeld.Sequential := by decide
  exact ((h exampleHeld).2 hpar).threads rfl

end SwanRuntime.Loops
