import Mathlib.Algebra.Group.Nat.Defs
import Mathlib.Data.List.Basic
import SwanRuntime.Library.Transition

/-!
# Dataflow — object metadata

`__cilkrts_obj_metadata` orders the tasks that access one object. Tasks are
grouped in generations: consecutive readers form one, as do consecutive
commutative updates, and a writer is one on its own. The tasks of the oldest
generation are only counted; those of the others wait in the list `tasks`,
where a bit in each node tells whether it is the last one of its generation.

Counters wrap around as the code's own types do: `oldest_num_tasks` is 64 bits
wide, `num_gens` and `new_tasks` are 32.

`View` is what the fields stand for: how many tasks of the oldest generation
are left, the generations behind it, and the group of the youngest one.
`addTask` and `wakeup` are proved to act on it as one would expect.

## Results

* `gens_setLast_push`, `gens_setLast_join` — what appending a node does to the
  generations.
* `popGeneration_spec` — the loop of a wakeup removes exactly one generation.
* `addTask_represents`, `addNull_represents`, `wakeup_represents` — the code
  refines the view.
-/

namespace SwanRuntime.Dataflow

abbrev TaskId := Nat

/-! ## The code -/

/-- The access groups `CILK_OBJ_GROUP_READ`, `_WRITE` and `_COMMUT`. -/
inductive Group
  | read
  | write
  | commut
deriving DecidableEq, Repr

def Group.bits : Group → Nat
  | .read => 2
  | .write => 4
  | .commut => 8

/-- `CILK_OBJ_GROUP_EMPTY` -/
def groupEmpty : Nat := 1

/-- `CILK_OBJ_GROUP_NOT_WRITE` -/
def groupNotWrite : Nat := 15 - Group.write.bits

/-- `__cilkrts_task_list_node`; `last` is the low bit of `st_task_and_last`. -/
structure Node where
  task : TaskId
  last : Bool
deriving DecidableEq, Repr

/-- `__cilkrts_obj_metadata`. -/
structure Metadata where
  oldestNumTasks : Nat
  youngestGroup  : Nat
  numGens        : Nat
  tasks          : List Node
deriving DecidableEq, Repr

/-- `__cilkrts_obj_metadata_init`. -/
def Metadata.initial : Metadata where
  oldestNumTasks := 0
  youngestGroup := groupEmpty
  numGens := 0
  tasks := []

/-- The test whether a task of group `g` belongs to the youngest generation. -/
def joins (md : Metadata) (g : Nat) : Bool :=
  md.youngestGroup &&& ((g ||| groupEmpty) &&& groupNotWrite) != 0

/-- The test whether it starts a generation. -/
def pushg (md : Metadata) (g : Nat) : Bool :=
  g &&& (md.youngestGroup &&& groupNotWrite) == 0

/-- `__cilkrts_obj_metadata_ini_ready`. -/
def iniReady (md : Metadata) (grp : Nat) : Bool :=
  if md.numGens == 1 && joins md grp then true
  else md.numGens == 0

/-- The store to the old tail's `st_task_and_last`. With an empty list it goes
to the sentinel, whose bit is never read. -/
def setLast : List Node → Bool → List Node
  | [], _ => []
  | [n], b => [{ n with last := b }]
  | n :: m :: l, b => n :: setLast (m :: l) b

/-- `__cilkrts_obj_metadata_add_task` for the pending frame `t`, or for a task
that is running already. Also returns what is added to `t->incoming_count`. -/
def addTask (t : Option TaskId) (md : Metadata) (g : Nat) : Metadata × Nat :=
  match t with
  | none =>
    ({ md with
        numGens := 1
        oldestNumTasks := (md.oldestNumTasks + 1) % 2 ^ 64
        youngestGroup := g }, 0)
  | some t =>
    let ready := joins md g && decide (md.numGens ≤ 1)
    ({ numGens := (md.numGens + (pushg md g).toNat) % 2 ^ 32
       oldestNumTasks := (md.oldestNumTasks + ready.toNat) % 2 ^ 64
       youngestGroup := g
       tasks := if ready then md.tasks else setLast md.tasks (pushg md g) ++ [⟨t, false⟩] },
      (!ready).toNat)

/-- The loop of `wakeup_hard` over the list: the nodes up to the first one
marked last, and the nodes behind it. -/
def popGeneration : List Node → List Node × List Node
  | [] => ([], [])
  | n :: l => if n.last then ([n], l) else (n :: (popGeneration l).1, (popGeneration l).2)

/-- `__cilkrts_obj_metadata_wakeup_hard`; the second component lists the tasks
whose `incoming_count` the loop decrements. -/
def wakeupHard (md : Metadata) : Metadata × List TaskId :=
  let (popped, rest) := popGeneration md.tasks
  let numGens := (md.numGens + (2 ^ 32 - 1)) % 2 ^ 32
  ({ oldestNumTasks := popped.length % 2 ^ 32
     numGens := numGens
     youngestGroup := if rest = [] ∧ numGens = 0 then groupEmpty else md.youngestGroup
     tasks := rest },
    popped.map Node.task)

/-- `__cilkrts_obj_metadata_wakeup`. -/
def wakeup (md : Metadata) : Metadata × List TaskId :=
  let md₁ := { md with oldestNumTasks := (md.oldestNumTasks + (2 ^ 64 - 1)) % 2 ^ 64 }
  if 0 < md₁.oldestNumTasks then (md₁, [])
  else if md.numGens = 1 then
    ({ md₁ with numGens := 0, youngestGroup := groupEmpty }, [])
  else wakeupHard md₁

/-! ## Generations -/

/-- The generations that a list of nodes encodes. The bit of the final node
does not matter: it is overwritten before a node is appended. -/
def gens : List Node → List (List TaskId)
  | [] => []
  | n :: l =>
    if n.last then [n.task] :: gens l
    else
      match gens l with
      | [] => [[n.task]]
      | G :: gs => (n.task :: G) :: gs

/-- `t` added to the last generation. -/
def appendLast : List (List TaskId) → TaskId → List (List TaskId)
  | [], t => [[t]]
  | [G], t => [G ++ [t]]
  | G :: H :: gs, t => G :: appendLast (H :: gs) t

theorem gens_cons_of_last {n : Node} (h : n.last = true) (l : List Node) :
    gens (n :: l) = [n.task] :: gens l := by
  rw [gens, if_pos h]

theorem gens_cons_of_not_last {n : Node} (h : n.last = false) {l : List Node}
    {G : List TaskId} {gs : List (List TaskId)} (hl : gens l = G :: gs) :
    gens (n :: l) = (n.task :: G) :: gs := by
  rw [gens, h, hl]
  rfl

theorem gens_singleton (n : Node) : gens [n] = [[n.task]] := by
  rw [gens]
  split <;> rfl

theorem gens_ne_nil {n : Node} {l : List Node} : gens (n :: l) ≠ [] := by
  rw [gens]
  split
  · simp
  · split <;> simp

theorem gens_eq_nil_iff {l : List Node} : gens l = [] ↔ l = [] := by
  cases l with
  | nil => simp [gens]
  | cons n l => simp [gens_ne_nil]

/-- The generations list the tasks of the nodes in order. -/
theorem gens_flatten (l : List Node) : (gens l).flatten = l.map Node.task := by
  induction l with
  | nil => rfl
  | cons n l ih =>
    rw [gens]
    split
    · simp [ih]
    · cases hl : gens l with
      | nil =>
        rw [gens_eq_nil_iff] at hl
        simp [hl]
      | cons G gs =>
        rw [hl] at ih
        simp only [List.flatten_cons] at ih
        simp [ih]

theorem ne_nil_of_mem_gens {l : List Node} {G : List TaskId} (h : G ∈ gens l) : G ≠ [] := by
  induction l generalizing G with
  | nil => cases h
  | cons n l ih =>
    rw [gens] at h
    split at h
    · rcases List.mem_cons.mp h with rfl | h
      · simp
      · exact ih h
    · cases hl : gens l with
      | nil =>
        rw [hl] at h
        simp only [List.mem_singleton] at h
        simp [h]
      | cons H gs =>
        rw [hl] at h
        rcases List.mem_cons.mp h with rfl | h
        · simp
        · exact ih (hl ▸ List.mem_cons_of_mem _ h)

/-- Appending a node behind a marked one starts a generation. -/
theorem gens_setLast_push (l : List Node) (t : TaskId) :
    gens (setLast l true ++ [⟨t, false⟩]) = gens l ++ [[t]] := by
  induction l with
  | nil => rfl
  | cons n l ih =>
    cases l with
    | nil =>
      rw [setLast, gens_singleton, List.singleton_append, gens_cons_of_last rfl, gens_singleton]
      rfl
    | cons m l =>
      rw [setLast, List.cons_append]
      by_cases hn : n.last = true
      · rw [gens_cons_of_last hn, gens_cons_of_last hn, ih]
        rfl
      · rw [Bool.not_eq_true] at hn
        obtain ⟨G, gs, hG⟩ := List.exists_cons_of_ne_nil (gens_ne_nil (n := m) (l := l))
        rw [gens_cons_of_not_last hn hG]
        rw [hG] at ih
        rw [gens_cons_of_not_last hn ih]
        rfl

/-- Appending a node behind an unmarked one extends the last generation. -/
theorem gens_setLast_join (l : List Node) (t : TaskId) :
    gens (setLast l false ++ [⟨t, false⟩]) = appendLast (gens l) t := by
  induction l with
  | nil => rfl
  | cons n l ih =>
    cases l with
    | nil =>
      rw [setLast, gens_singleton, List.singleton_append,
        gens_cons_of_not_last rfl (gens_singleton _)]
      rfl
    | cons m l =>
      rw [setLast, List.cons_append]
      obtain ⟨G, gs, hG⟩ := List.exists_cons_of_ne_nil (gens_ne_nil (n := m) (l := l))
      by_cases hn : n.last = true
      · rw [gens_cons_of_last hn, gens_cons_of_last hn, ih, hG]
        rfl
      · rw [Bool.not_eq_true] at hn
        rw [gens_cons_of_not_last hn hG]
        rw [hG] at ih
        cases gs with
        | nil => rw [gens_cons_of_not_last hn ih]; rfl
        | cons H gs => rw [gens_cons_of_not_last hn ih]; rfl

/-- The loop of a wakeup pops the first generation. -/
theorem popGeneration_spec {l : List Node} {G : List TaskId} {gs : List (List TaskId)}
    (h : gens l = G :: gs) :
    (popGeneration l).1.map Node.task = G ∧ gens (popGeneration l).2 = gs := by
  induction l generalizing G gs with
  | nil => cases h
  | cons n l ih =>
    by_cases hn : n.last = true
    · rw [gens_cons_of_last hn] at h
      obtain ⟨rfl, rfl⟩ := List.cons.inj h
      simp [popGeneration, hn]
    · rw [Bool.not_eq_true] at hn
      cases hl : gens l with
      | nil =>
        rw [gens_eq_nil_iff] at hl
        subst hl
        rw [gens_singleton] at h
        obtain ⟨rfl, rfl⟩ := List.cons.inj h
        simp [popGeneration, hn, gens]
      | cons H hs =>
        rw [gens_cons_of_not_last hn hl] at h
        obtain ⟨rfl, rfl⟩ := List.cons.inj h
        simpa [popGeneration, hn] using ih hl

/-! ## The view -/

/-- What the metadata of an object stand for. -/
structure View where
  oldest   : Nat
  waiting  : List (List TaskId)
  youngest : Option Group

/-- A task of group `g` joins the youngest generation. -/
def View.Joins (v : View) (g : Group) : Prop := v.youngest = some g ∧ g ≠ .write

instance (v : View) (g : Group) : Decidable (v.Joins g) := inferInstanceAs (Decidable (_ ∧ _))

/-- A task of group `g` may run at once. -/
def View.Admits (v : View) (g : Group) : Prop :=
  v.waiting = [] ∧ (v.oldest = 0 ∨ v.Joins g)

instance (v : View) (g : Group) : Decidable (v.Admits g) := inferInstanceAs (Decidable (_ ∧ _))

def View.add (v : View) (t : TaskId) (g : Group) : View where
  oldest := if v.Admits g then v.oldest + 1 else v.oldest
  waiting :=
    if v.Admits g then v.waiting
    else if v.Joins g then appendLast v.waiting t
    else v.waiting ++ [[t]]
  youngest := some g

def View.wakeup (v : View) : View :=
  if 1 < v.oldest then { v with oldest := v.oldest - 1 }
  else
    match v.waiting with
    | [] => ⟨0, [], none⟩
    | G :: gs => { v with oldest := G.length, waiting := gs }

/-- The tasks released by the wakeup. -/
def View.released (v : View) : List TaskId :=
  if 1 < v.oldest then [] else v.waiting.headD []

def youngestBits : Option Group → Nat
  | none => groupEmpty
  | some g => g.bits

/-- The fields of `md` stand for `v`. -/
structure Represents (md : Metadata) (v : View) : Prop where
  oldest   : md.oldestNumTasks = v.oldest
  waiting  : gens md.tasks = v.waiting
  youngest : md.youngestGroup = youngestBits v.youngest
  numGens  : md.numGens = if v.oldest = 0 then 0 else 1 + v.waiting.length
  idle     : v.oldest = 0 → v.waiting = []
  empty    : v.oldest = 0 ↔ v.youngest = none

/-- No counter has wrapped around. -/
structure View.Fits (v : View) : Prop where
  oldest : v.oldest < 2 ^ 32
  gens   : v.waiting.length + 1 < 2 ^ 32
  tasks  : ∀ G ∈ v.waiting, G.length < 2 ^ 32

theorem represents_initial : Represents .initial ⟨0, [], none⟩ :=
  ⟨rfl, rfl, rfl, rfl, fun _ => rfl, by simp⟩

/-- The two masks of `add_task` in terms of groups. -/
theorem masks (y : Option Group) (g : Group) :
    (youngestBits y &&& ((g.bits ||| groupEmpty) &&& groupNotWrite) ≠ 0 ↔
        y = none ∨ y = some g ∧ g ≠ .write) ∧
      (g.bits &&& (youngestBits y &&& groupNotWrite) = 0 ↔ ¬ (y = some g ∧ g ≠ .write)) := by
  cases y with
  | none => cases g <;> decide
  | some h => cases h <;> cases g <;> decide

theorem length_appendLast (gs : List (List TaskId)) (t : TaskId) :
    (appendLast gs t).length = max 1 gs.length := by
  induction gs with
  | nil => rfl
  | cons G gs ih =>
    cases gs with
    | nil => rfl
    | cons H gs =>
      simp only [appendLast, List.length_cons] at ih ⊢
      omega

section Refinement

variable {md : Metadata} {v : View}

theorem Represents.joins_iff (h : Represents md v) (g : Group) :
    joins md g.bits = true ↔ v.oldest = 0 ∨ v.Joins g := by
  rw [joins, bne_iff_ne, h.youngest, (masks v.youngest g).1, h.empty]
  rfl

theorem Represents.pushg_iff (h : Represents md v) (g : Group) :
    pushg md g.bits = true ↔ ¬ v.Joins g := by
  rw [pushg, beq_iff_eq, h.youngest, (masks v.youngest g).2]
  rfl

theorem Represents.numGens_le_one (h : Represents md v) :
    md.numGens ≤ 1 ↔ v.waiting = [] := by
  rw [h.numGens]
  split
  · rename_i h0
    simp [h.idle h0]
  · rw [← List.length_eq_zero_iff]
    omega

/-- The test `ready` of `add_task`. -/
theorem Represents.ready_eq (h : Represents md v) (g : Group) :
    (joins md g.bits && decide (md.numGens ≤ 1)) = decide (v.Admits g) := by
  rw [Bool.eq_iff_iff, Bool.and_eq_true, decide_eq_true_iff, decide_eq_true_iff, h.joins_iff,
    h.numGens_le_one]
  exact and_comm

theorem Represents.pushg_eq (h : Represents md v) (g : Group) :
    pushg md g.bits = !decide (v.Joins g) := by
  rw [Bool.eq_iff_iff, h.pushg_iff]
  simp

/-- `ini_ready` tells whether a task may run at once. -/
theorem Represents.iniReady_iff (h : Represents md v) (g : Group) :
    iniReady md g.bits = true ↔ v.Admits g := by
  have hn := h.numGens
  unfold iniReady
  by_cases h0 : v.oldest = 0
  · rw [if_pos h0] at hn
    simp [hn, View.Admits, h0, h.idle h0]
  · rw [if_neg h0] at hn
    have hone : md.numGens = 1 ↔ v.waiting = [] := by
      rw [hn, ← List.length_eq_zero_iff]
      omega
    have hzero : (md.numGens == 0) = false := by
      rw [beq_eq_false_iff_ne]
      omega
    rw [hzero, Bool.if_true_left, Bool.or_false, decide_eq_true_iff, Bool.and_eq_true,
      beq_iff_eq, hone, h.joins_iff]
    rfl

/-- `add_task` adds the task to the oldest generation if it may run at once,
else to the list, and counts it as incoming in the second case. -/
theorem addTask_represents (h : Represents md v) (hfits : v.Fits)
    (hroom : v.waiting.length + 2 < 2 ^ 32) (t : TaskId) (g : Group) :
    Represents (addTask (some t) md g.bits).1 (v.add t g) ∧
      (addTask (some t) md g.bits).2 = if v.Admits g then 0 else 1 := by
  have hn := h.numGens
  have hold := h.oldest
  have hfo := hfits.oldest
  simp only [addTask, h.ready_eq, h.pushg_eq, View.add]
  by_cases ha : v.Admits g
  · -- it may run at once, in the oldest generation or as the first task of all
    simp only [ha, decide_true, if_true, Bool.toNat_true, Bool.not_true, Bool.toNat_false,
      and_true]
    refine ⟨by simp only; omega, h.waiting, rfl, ?_, fun _ => ha.1, by simp⟩
    simp only [hn, ha.1, List.length_nil]
    -- `num_gens` counts the oldest generation, too: it is new only when the object was idle
    rcases ha.2 with h0 | hj
    · have hj : ¬ v.Joins g := by
        rintro ⟨hy, -⟩
        rw [h.empty.mp h0] at hy
        cases hy
      simp [h0, hj]
    · have h0 : v.oldest ≠ 0 := by
        rw [Ne, h.empty, hj.1]
        simp
      simp [h0, hj]
  · -- it waits: the object is busy
    have h0 : v.oldest ≠ 0 := fun h0 => ha ⟨h.idle h0, .inl h0⟩
    rw [if_neg h0] at hn
    simp only [ha, decide_false, Bool.false_eq_true, if_false, Bool.toNat_false, Bool.not_false,
      Bool.toNat_true, and_true]
    refine ⟨by simp only; omega, ?_, rfl, ?_, fun he => absurd he h0, by simp [h0]⟩
    · -- the bit on the last task tells the generations apart
      by_cases hj : v.Joins g
      · simp only [hj, decide_true, Bool.not_true, if_true]
        rw [gens_setLast_join, h.waiting]
      · simp only [hj, decide_false, Bool.not_false, if_false]
        rw [gens_setLast_push, h.waiting]
    · simp only [if_neg h0]
      by_cases hj : v.Joins g
      · -- a task that joins has somebody to join
        have hne : v.waiting ≠ [] := fun he => ha ⟨he, .inr hj⟩
        have := List.length_pos_iff.mpr hne
        simp only [hj, decide_true, Bool.not_true, Bool.toNat_false, if_true, length_appendLast]
        omega
      · simp only [hj, decide_false, Bool.not_false, Bool.toNat_true, if_false,
          List.length_append, List.length_singleton]
        omega

/-- `add_task` for a running task, which the object admits. -/
theorem addNull_represents (h : Represents md v) (hfits : v.Fits) {g : Group}
    (ha : v.Admits g) :
    Represents (addTask none md g.bits).1 ⟨v.oldest + 1, [], some g⟩ := by
  have hfo := hfits.oldest
  refine ⟨?_, ?_, rfl, ?_, by simp, by simp⟩
  · simp only [addTask, h.oldest]
    omega
  · simp [addTask, h.waiting, ha.1]
  · simp [addTask]

/-- `wakeup` takes one task off the oldest generation, and makes the next one
the oldest when none is left. -/
theorem wakeup_represents (h : Represents md v) (hfits : v.Fits) (h0 : v.oldest ≠ 0) :
    Represents (wakeup md).1 v.wakeup ∧ (wakeup md).2 = v.released := by
  have hfo := hfits.oldest
  -- the decrement does not wrap around: a task is active
  have hold : (md.oldestNumTasks + (2 ^ 64 - 1)) % 2 ^ 64 = v.oldest - 1 := by
    rw [h.oldest]
    omega
  have hn := h.numGens
  rw [if_neg h0] at hn
  have hy : v.youngest ≠ none := fun he => h0 (h.empty.mpr he)
  unfold wakeup
  simp only [hold]
  -- other tasks of its generation are still active, or the next generation follows
  by_cases h1 : 1 < v.oldest
  · rw [if_pos (by omega), View.wakeup, View.released, if_pos h1, if_pos h1]
    refine ⟨⟨rfl, h.waiting, h.youngest, ?_, ?_, ?_⟩, rfl⟩
    · simp only [hn]
      rw [if_neg (by omega)]
    · intro he
      simp only at he
      omega
    · simp only [hy, iff_false]
      omega
  · rw [if_neg (by omega), View.wakeup, View.released, if_neg h1, if_neg h1]
    cases hw : v.waiting with
    | nil =>
      rw [hw] at hn
      -- nobody waits: `num_gens` is back at 0
      rw [if_pos (by simpa using hn)]
      have htasks : md.tasks = [] := by
        rw [← gens_eq_nil_iff, h.waiting, hw]
      refine ⟨⟨?_, by simp [htasks, gens], rfl, rfl, fun _ => rfl, by simp⟩, rfl⟩
      show v.oldest - 1 = 0
      omega
    | cons G gs =>
      have hlen : G.length < 2 ^ 32 := hfits.tasks G (by simp [hw])
      have hG : G ≠ [] := ne_nil_of_mem_gens (l := md.tasks) (by simp [h.waiting, hw])
      have hGlen := List.length_pos_iff.mpr hG
      have hfg := hfits.gens
      rw [hw, List.length_cons] at hn hfg
      rw [if_neg (by omega)]
      -- the oldest generation of the list becomes the active one
      obtain ⟨hpop, hrest⟩ := popGeneration_spec (h.waiting.trans hw)
      have hcount : (popGeneration md.tasks).1.length = G.length := by
        rw [← hpop, List.length_map]
      have hngens : (md.numGens + (2 ^ 32 - 1)) % 2 ^ 32 = 1 + gs.length := by
        rw [hn]
        omega
      refine ⟨⟨?_, hrest, ?_, ?_, ?_, ?_⟩, hpop⟩
      · simp only [wakeupHard, hcount]
        omega
      · simp only [wakeupHard, hngens]
        rw [if_neg (by omega)]
        exact h.youngest
      · simp only [wakeupHard, hngens]
        rw [if_neg (by omega)]
      · intro he
        simp only at he
        omega
      · simp only [hy, iff_false]
        omega

end Refinement

end SwanRuntime.Dataflow
