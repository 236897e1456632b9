import SwanRuntime.Library.Numbering
import SwanRuntime.Library.Transition

/-!
# Workers — numbering by NUMA nodes

When a system worker starts, it looks up its NUMA node, takes a number on that node,
adds itself to the sums of all nodes behind, and reports that it has done so. All
workers do so at once, with atomic increments. The static scheduler, which waits for
the last report, gives each worker the slot that is the sum for its node plus its
number there.

## Results

* `NumaCounts.step`   — a step keeps the counts.
* `numaSlots_numbered` — the slots when all workers have reported.
-/

namespace SwanRuntime.Workers

open SwanRuntime.Numbering

-- ---------------------------------------------------------------------------
-- The code
-- ---------------------------------------------------------------------------

/-- What the workers find: `numa_nodes`, of which there is at least one, and the
number of system workers. -/
structure Topology where
  numaNodes     : ℕ
  systemWorkers : ℕ
  pos           : 0 < numaNodes

/-- How far a worker has come in `worker_scheduler_init_function`: it has not looked
up its node, it has, it has taken the number `self` there and goes on with the sum of
node `i`, or it has reported. -/
inductive InitPhase
  | start
  | located (node : ℕ)
  | summing (node self i : ℕ)
  | ready (node self : ℕ)
deriving DecidableEq, Repr

/-- `numa_node_threads`, `numa_node_cum_threads` and `numa_P_init`, and the phase of
each worker. -/
structure NumaState where
  threads    : ℕ → ℕ
  cumThreads : ℕ → ℕ
  pInit      : ℕ
  phase      : ℕ → InitPhase

/-- The node that `numa_node_of_cpu` returns, if there is such a node. -/
def Topology.checkNode (T : Topology) (node : ℤ) : ℕ :=
  if node < 0 then 0 else if node ≥ T.numaNodes then 0 else node.toNat

/-- The next step of worker `w`, with the node that is returned to it if it asks. -/
def NumaStep (T : Topology) (s : NumaState) (w : ℕ) (node : ℤ) (t : NumaState) : Prop :=
  match s.phase w with
  | .start => t = { s with phase := Function.update s.phase w (.located (T.checkNode node)) }
  | .located d => t = { s with
      threads := Function.update s.threads d (s.threads d + 1)
      phase := Function.update s.phase w (.summing d (s.threads d) (d + 1)) }
  | .summing d self i =>
    if i < T.numaNodes then
      t = { s with
        cumThreads := Function.update s.cumThreads i (s.cumThreads i + 1)
        phase := Function.update s.phase w (.summing d self (i + 1)) }
    else
      t = { s with
        pInit := s.pInit + 1
        phase := Function.update s.phase w (.ready d self) }
  | .ready _ _ => False

/-- All system workers start, in any order of their steps. -/
def numaSystem (T : Topology) : LTS NumaState (ℕ × ℤ) where
  init s := s = ⟨fun _ => 0, fun _ => 0, 0, fun _ => .start⟩
  step s e t := e.1 < T.systemWorkers ∧ NumaStep T s e.1 e.2 t

/-- `numa_node`, once it is set. -/
def InitPhase.node : InitPhase → ℕ
  | .start => 0
  | .located d | .summing d _ _ | .ready d _ => d

/-- `numa_local_self`, once it is set. -/
def InitPhase.self : InitPhase → ℕ
  | .start | .located _ => 0
  | .summing _ self _ | .ready _ self => self

/-- The slot that `static_numa_scheduler_once` computes for a worker. -/
def NumaState.slot (s : NumaState) (w : ℕ) : ℕ :=
  s.cumThreads (s.phase w).node + (s.phase w).self

-- ---------------------------------------------------------------------------
-- The counts
-- ---------------------------------------------------------------------------

namespace InitPhase

/-- The worker has taken a number on node `d`. -/
def inNode (d : ℕ) : InitPhase → Bool
  | summing e _ _ | ready e _ => e = d
  | _ => false

/-- The worker has added itself to the sum of node `d`. -/
def summed (d : ℕ) : InitPhase → Bool
  | summing e _ i => e < d ∧ d < i
  | ready e _ => e < d
  | _ => false

/-- The worker has reported. -/
def reported : InitPhase → Bool
  | ready _ _ => true
  | _ => false

theorem exists_ready {x : InitPhase} (h : x.reported = true) : ∃ d self, x = ready d self := by
  cases x with
  | ready d self => exact ⟨d, self, rfl⟩
  | _ => exact absurd h Bool.false_ne_true

end InitPhase

/-- The counters count what the workers have done, and the numbers on each node are
those that have been taken from its counter. -/
structure NumaCounts (T : Topology) (s : NumaState) : Prop where
  threads : ∀ d, s.threads d = count T.systemWorkers (InitPhase.inNode d) s.phase
  cum     : ∀ d < T.numaNodes,
    s.cumThreads d = count T.systemWorkers (InitPhase.summed d) s.phase
  pInit   : s.pInit = count T.systemWorkers InitPhase.reported s.phase
  node    : ∀ w, (s.phase w).node < T.numaNodes
  lt      : ∀ w d, (s.phase w).inNode d = true → (s.phase w).self < s.threads d
  inj     : ∀ v w d, (s.phase v).inNode d = true → (s.phase w).inNode d = true →
    (s.phase v).self = (s.phase w).self → v = w
  next    : ∀ w d self i, s.phase w = .summing d self i → d < i

section Step

variable {T : Topology} {s t : NumaState} {w : ℕ}

theorem checkNode_lt (T : Topology) (node : ℤ) : T.checkNode node < T.numaNodes := by
  have hpos := T.pos
  unfold Topology.checkNode
  split
  · exact hpos
  · split
    · exact hpos
    · omega

theorem numaCounts_init (T : Topology) :
    NumaCounts T ⟨fun _ => 0, fun _ => 0, 0, fun _ => .start⟩ where
  threads _ := Finset.sum_const_zero.symm
  cum _ _ := Finset.sum_const_zero.symm
  pInit := Finset.sum_const_zero.symm
  node _ := T.pos
  lt _ _ h := nomatch h
  inj _ _ _ h := nomatch h
  next _ _ _ _ h := nomatch h

/-- What holds of the old phases and of the new one of `w` holds of all. -/
theorem forall_update {P : ℕ → InitPhase → Prop} {f : ℕ → InitPhase} {x : InitPhase}
    (h : ∀ v, P v (f v)) (hx : P w x) : ∀ v, P v (Function.update f w x v) := by
  intro v
  by_cases hv : v = w
  · subst hv
    rw [Function.update_self]
    exact hx
  · rw [Function.update_of_ne hv]
    exact h v

/-- A step of a worker that takes no number: the sums and the reports change with its
phase. -/
theorem NumaCounts.advance (h : NumaCounts T s) (hw : w < T.systemWorkers) {x : InitPhase}
    {cum : ℕ → ℕ} {pInit : ℕ} (hin : ∀ d, x.inNode d = (s.phase w).inNode d)
    (hself : x.self = (s.phase w).self) (hnode : x.node < T.numaNodes)
    (hnext : ∀ d self i, x = .summing d self i → d < i)
    (hcum : ∀ d < T.numaNodes,
      cum d + ((s.phase w).summed d).toNat = s.cumThreads d + (x.summed d).toNat)
    (hpInit : pInit + (s.phase w).reported.toNat = s.pInit + x.reported.toNat) :
    NumaCounts T { s with
      cumThreads := cum
      pInit := pInit
      phase := Function.update s.phase w x } := by
  have hinAll : ∀ d v, (Function.update s.phase w x v).inNode d = (s.phase v).inNode d := fun d =>
    forall_update (P := fun v y => y.inNode d = (s.phase v).inNode d) (fun _ => rfl) (hin d)
  have hselfAll : ∀ v, (Function.update s.phase w x v).self = (s.phase v).self :=
    forall_update (P := fun v y => y.self = (s.phase v).self) (fun _ => rfl) hself
  constructor
  case threads =>
    intro d
    rw [h.threads d]
    exact Finset.sum_congr rfl fun v _ => by rw [hinAll]
  case cum =>
    intro d hd
    have hcount := count_update (p := InitPhase.summed d) (f := s.phase) hw x
    have hold := h.cum d hd
    have hnew := hcum d hd
    dsimp only
    omega
  case pInit =>
    have hcount := count_update (p := InitPhase.reported) (f := s.phase) hw x
    have hold := h.pInit
    dsimp only
    omega
  case node => exact forall_update (P := fun _ y => y.node < T.numaNodes) h.node hnode
  case lt =>
    intro v d hv
    rw [hinAll] at hv
    rw [hselfAll]
    exact h.lt v d hv
  case inj =>
    intro v v' d hv hv' heq
    rw [hinAll] at hv hv'
    rw [hselfAll, hselfAll] at heq
    exact h.inj v v' d hv hv' heq
  case next =>
    exact forall_update (P := fun _ y => ∀ d self i, y = .summing d self i → d < i) h.next hnext

/-- A worker takes the next number on its node: no other worker there has it. -/
theorem NumaCounts.fetch (h : NumaCounts T s) (hw : w < T.systemWorkers) {d : ℕ}
    (hphase : s.phase w = .located d) :
    NumaCounts T { s with
      threads := Function.update s.threads d (s.threads d + 1)
      phase := Function.update s.phase w (.summing d (s.threads d) (d + 1)) } := by
  have hnode : d < T.numaNodes := by
    have hlt := h.node w
    rwa [hphase] at hlt
  have hle : ∀ e, s.threads e ≤ Function.update s.threads d (s.threads d + 1) e := by
    intro e
    by_cases he : e = d
    · subst he
      rw [Function.update_self]
      exact Nat.le_succ _
    · rw [Function.update_of_ne he]
  -- the number is greater than those that have been taken
  have hfresh : ∀ v e, v ≠ w → (s.phase v).inNode e = true →
      (InitPhase.summing d (s.threads d) (d + 1)).inNode e = true →
      (s.phase v).self ≠ s.threads d := by
    intro v e _ hv he
    obtain rfl : d = e := of_decide_eq_true he
    exact Nat.ne_of_lt (h.lt v d hv)
  constructor
  case threads =>
    intro e
    have hcount := count_update (p := InitPhase.inNode e) (f := s.phase) hw
      (.summing d (s.threads d) (d + 1))
    have hold := h.threads e
    rw [hphase] at hcount
    dsimp only
    by_cases he : e = d
    · subst he
      have hin : (InitPhase.summing e (s.threads e) (e + 1)).inNode e = true := decide_eq_true rfl
      rw [hin] at hcount
      rw [Function.update_self]
      change _ + 0 = _ + 1 at hcount
      omega
    · have hout : (InitPhase.summing d (s.threads d) (d + 1)).inNode e = false :=
        decide_eq_false (Ne.symm he)
      rw [hout] at hcount
      rw [Function.update_of_ne he]
      change _ + 0 = _ + 0 at hcount
      omega
  case cum =>
    intro e he
    have hcount := count_update (p := InitPhase.summed e) (f := s.phase) hw
      (.summing d (s.threads d) (d + 1))
    have hout : (InitPhase.summing d (s.threads d) (d + 1)).summed e = false :=
      decide_eq_false fun hlt => by omega
    rw [hphase, hout] at hcount
    exact (h.cum e he).trans hcount.symm
  case pInit =>
    have hcount := count_update (p := InitPhase.reported) (f := s.phase) hw
      (.summing d (s.threads d) (d + 1))
    rw [hphase] at hcount
    exact h.pInit.trans hcount.symm
  case node => exact forall_update (P := fun _ y => y.node < T.numaNodes) h.node hnode
  case lt =>
    refine forall_update (P := fun _ y => ∀ e, y.inNode e = true →
      y.self < Function.update s.threads d (s.threads d + 1) e) ?_ ?_
    · exact fun v e hv => Nat.lt_of_lt_of_le (h.lt v e hv) (hle e)
    · intro e he
      obtain rfl : d = e := of_decide_eq_true he
      rw [Function.update_self]
      exact Nat.lt_succ_self _
  case inj =>
    intro v v' e hv hv' heq
    dsimp only at hv hv' heq
    -- two workers with one number: neither is the one that has just taken it
    by_cases hvw : v = w
    · by_cases hvw' : v' = w
      · exact hvw.trans hvw'.symm
      · rw [hvw, Function.update_self] at hv heq
        rw [Function.update_of_ne hvw'] at hv' heq
        exact absurd heq.symm (hfresh v' e hvw' hv' hv)
    · rw [Function.update_of_ne hvw] at hv heq
      by_cases hvw' : v' = w
      · rw [hvw', Function.update_self] at hv' heq
        exact absurd heq (hfresh v e hvw hv hv')
      · rw [Function.update_of_ne hvw'] at hv' heq
        exact h.inj v v' e hv hv' heq
  case next =>
    refine forall_update (P := fun _ y => ∀ d self i, y = .summing d self i → d < i) h.next ?_
    intro d' self i heq
    obtain ⟨rfl, -, rfl⟩ := InitPhase.summing.inj heq
    exact Nat.lt_succ_self _

/-- A step keeps the counts. -/
theorem NumaCounts.step (h : NumaCounts T s) (hw : w < T.systemWorkers) {node : ℤ}
    (hstep : NumaStep T s w node t) : NumaCounts T t := by
  unfold NumaStep at hstep
  cases hphase : s.phase w with
  | start =>
    rw [hphase] at hstep
    obtain rfl := hstep
    refine h.advance hw ?_ ?_ (checkNode_lt T node) nofun ?_ ?_ <;> rw [hphase] <;> intros <;> rfl
  | located d =>
    rw [hphase] at hstep
    obtain rfl := hstep
    exact h.fetch hw hphase
  | summing d self i =>
    have hnode : d < T.numaNodes := by
      have hlt := h.node w
      rwa [hphase] at hlt
    have hdi := h.next w d self i hphase
    rw [hphase] at hstep
    dsimp only at hstep
    split at hstep
    · rename_i hi
      obtain rfl := hstep
      refine h.advance hw ?_ ?_ hnode ?_ ?_ ?_
      · exact fun e => by rw [hphase]; rfl
      · rw [hphase]; rfl
      · intro d' self' i' heq
        obtain ⟨rfl, -, rfl⟩ := InitPhase.summing.inj heq
        exact Nat.lt_succ_of_lt hdi
      · -- the node `i` is counted from now on, and no other one
        intro e he
        rw [hphase]
        by_cases hei : e = i
        · subst hei
          have hold : (InitPhase.summing d self e).summed e = false :=
            decide_eq_false fun hlt => absurd hlt.2 (Nat.lt_irrefl e)
          have hnew : (InitPhase.summing d self (e + 1)).summed e = true :=
            decide_eq_true ⟨hdi, Nat.lt_succ_self e⟩
          rw [Function.update_self, hold, hnew]
          rfl
        · have hsame : (InitPhase.summing d self i).summed e =
              (InitPhase.summing d self (i + 1)).summed e := decide_eq_decide.mpr (by omega)
          rw [Function.update_of_ne hei, hsame]
      · rw [hphase]; rfl
    · rename_i hi
      obtain rfl := hstep
      refine h.advance hw ?_ ?_ hnode nofun ?_ ?_
      · exact fun e => by rw [hphase]; rfl
      · rw [hphase]; rfl
      · intro e he
        have hsame : (InitPhase.summing d self i).summed e = (InitPhase.ready d self).summed e :=
          decide_eq_decide.mpr (by omega)
        rw [hphase, hsame]
      · rw [hphase]; rfl
  | ready d self =>
    rw [hphase] at hstep
    exact hstep.elim

end Step

-- ---------------------------------------------------------------------------
-- The slots
-- ---------------------------------------------------------------------------

section Slots

variable {T : Topology} {s : NumaState}

theorem numaCounts_reachable (h : (numaSystem T).Reachable s) : NumaCounts T s := by
  refine h.invariant (P := NumaCounts T) (fun u hu => ?_) fun u e v hu hstep => ?_
  · obtain rfl := hu
    exact numaCounts_init T
  · obtain ⟨hw, hstep⟩ := hstep
    exact hu.step hw hstep

/-- The node of a worker, and its number there. -/
def NumaState.node (s : NumaState) (w : ℕ) : ℕ := (s.phase w).node

def NumaState.self (s : NumaState) (w : ℕ) : ℕ := (s.phase w).self

/-- When all workers have reported, the counters are those of a numbering by nodes. -/
theorem NumaCounts.numbered (h : NumaCounts T s) (hall : s.pInit = T.systemWorkers) :
    (∀ d, s.threads d = size (Finset.range T.systemWorkers) s.node d) ∧
      (∀ d < T.numaNodes, s.cumThreads d = before (Finset.range T.systemWorkers) s.node d) ∧
      Numbered (Finset.range T.systemWorkers) s.node s.self := by
  have hready : ∀ w < T.systemWorkers, (s.phase w).reported = true :=
    forall_of_count (h.pInit.symm.trans hall)
  have hin : ∀ w < T.systemWorkers, ∀ d, (s.phase w).inNode d = true ↔ s.node w = d := by
    intro w hw d
    obtain ⟨e, self, hphase⟩ := InitPhase.exists_ready (hready w hw)
    unfold NumaState.node
    rw [hphase]
    exact decide_eq_true_iff
  have hsummed : ∀ w < T.systemWorkers, ∀ d, (s.phase w).summed d = true ↔ s.node w < d := by
    intro w hw d
    obtain ⟨e, self, hphase⟩ := InitPhase.exists_ready (hready w hw)
    unfold NumaState.node
    rw [hphase]
    exact decide_eq_true_iff
  have hthreads : ∀ d, s.threads d = size (Finset.range T.systemWorkers) s.node d := by
    intro d
    rw [h.threads d, count_eq_card]
    exact congrArg Finset.card
      (Finset.filter_congr fun w hw => hin w (Finset.mem_range.mp hw) d)
  refine ⟨hthreads, fun d hd => ?_, fun w hw => ?_, fun v hv w hw hnode hself => ?_⟩
  · rw [h.cum d hd, count_eq_card]
    exact congrArg Finset.card
      (Finset.filter_congr fun w hw => hsummed w (Finset.mem_range.mp hw) d)
  · rw [← hthreads]
    exact h.lt w _ ((hin w (Finset.mem_range.mp hw) _).mpr rfl)
  · exact h.inj v w (s.node v) ((hin v (Finset.mem_range.mp hv) _).mpr rfl)
      ((hin w (Finset.mem_range.mp hw) _).mpr hnode.symm) hself

/-- When all workers have reported, their slots are different and are the first
`systemWorkers` numbers, the workers of a node have as many consecutive slots as it
has workers, and the nodes follow each other. -/
theorem numaSlots_numbered (T : Topology) (s : NumaState) (h : (numaSystem T).Reachable s)
    (hall : s.pInit = T.systemWorkers) :
    (∀ v < T.systemWorkers, ∀ w < T.systemWorkers, s.slot v = s.slot w → v = w) ∧
      (Finset.range T.systemWorkers).image s.slot = Finset.range T.systemWorkers ∧
      ∀ d < T.numaNodes,
        ((Finset.range T.systemWorkers).filter (s.node · = d)).image s.slot =
          Finset.Ico (s.cumThreads d) (s.cumThreads d + s.threads d) ∧
        s.cumThreads d = ∑ e ∈ Finset.range d, s.threads e := by
  have hcounts := numaCounts_reachable h
  obtain ⟨hthreads, hcum, hnumbered⟩ := hcounts.numbered hall
  have hslot : s.slot = slot (Finset.range T.systemWorkers) s.node s.self := by
    funext w
    exact congrArg (· + s.self w) (hcum _ (hcounts.node w))
  rw [hslot]
  refine ⟨fun v hv w hw heq => ?_, ?_, fun d hd => ⟨?_, ?_⟩⟩
  · exact slot_injOn hnumbered (Finset.mem_coe.mpr (Finset.mem_range.mpr hv))
      (Finset.mem_coe.mpr (Finset.mem_range.mpr hw)) heq
  · rw [image_slot hnumbered, Finset.card_range]
  · rw [image_slot_block hnumbered, hcum d hd, hthreads]
  · rw [hcum d hd, before_eq_sum]
    exact Finset.sum_congr rfl fun e _ => (hthreads e).symm

/-- Two workers on two nodes, the first of which finds itself on the second node. -/
theorem numaSlots_two :
    let T : Topology := ⟨2, 2, by decide⟩
    ∃ s, (numaSystem T).Reachable s ∧ s.pInit = T.systemWorkers ∧ s.slot 0 = 1 ∧ s.slot 1 = 0 ∧
      (∀ v < T.systemWorkers, ∀ w < T.systemWorkers, s.slot v = s.slot w → v = w) ∧
        (Finset.range T.systemWorkers).image s.slot = Finset.range T.systemWorkers ∧
        ∀ d < T.numaNodes,
          ((Finset.range T.systemWorkers).filter (s.node · = d)).image s.slot =
            Finset.Ico (s.cumThreads d) (s.cumThreads d + s.threads d) ∧
          s.cumThreads d = ∑ e ∈ Finset.range d, s.threads e := by
  intro T
  have h₀ : (numaSystem T).Reachable _ := .init rfl
  have h₁ : (numaSystem T).Reachable _ := .step (e := (0, 1)) h₀ ⟨by decide, rfl⟩
  have h₂ : (numaSystem T).Reachable _ := .step (e := (1, 0)) h₁ ⟨by decide, rfl⟩
  have h₃ : (numaSystem T).Reachable _ := .step (e := (1, 0)) h₂ ⟨by decide, rfl⟩
  have h₄ : (numaSystem T).Reachable _ := .step (e := (0, 0)) h₃ ⟨by decide, rfl⟩
  have h₅ : (numaSystem T).Reachable _ := .step (e := (1, 0)) h₄ ⟨by decide, rfl⟩
  have h₆ : (numaSystem T).Reachable _ := .step (e := (0, 0)) h₅ ⟨by decide, rfl⟩
  have h₇ : (numaSystem T).Reachable _ := .step (e := (1, 0)) h₆ ⟨by decide, rfl⟩
  exact ⟨_, h₇, rfl, rfl, rfl, numaSlots_numbered T _ h₇ rfl⟩

end Slots

end SwanRuntime.Workers
