import SwanRuntime.Dataflow.Tasks
import SwanRuntime.Library.Checked
import SwanRuntime.Library.LinkedList

/-!
# Dataflow — the task list in memory

The waiting tasks of an object are linked through the nodes that the tasks
bring along. The list has a sentinel, `tasks.head`, so that a node is appended
by one store behind `tasks.tail` and the generation bit of the node before it is
written without a test.

`Encodes m ns md` says that the fields in memory are those of `md` and that the
list runs through the nodes `ns`.

## Results

* `wakeupLoop_spec`              — the loop of a wakeup.
* `addTaskMem_encodes`, `wakeupMem_encodes` — the code on memory refines the
  code on lists.
-/

namespace SwanRuntime.Dataflow

open Checked LinkedList

-- ---------------------------------------------------------------------------
-- The code
-- ---------------------------------------------------------------------------

/-- The address of a task list node that a task brings along. -/
abbrev NodeId := Nat

/-- The address of a node: one that a task brings along, or the sentinel. -/
abbrev NodeCell := Option NodeId

/-- `__cilkrts_obj_metadata`, with the nodes that its list is linked through.
`task` and `last` are the pointer and the low bit of `st_task_and_last`. -/
structure ObjMetadata where
  oldestNumTasks : Nat
  youngestGroup  : Nat
  numGens        : Nat
  itNext         : NodeCell → Option NodeId
  task           : NodeCell → Option TaskId
  last           : NodeCell → Bool
  tail           : NodeCell

/-- `__cilkrts_obj_metadata_init`, whatever the memory holds. -/
def objMetadataInit (m : ObjMetadata) : ObjMetadata where
  oldestNumTasks := 0
  youngestGroup  := groupEmpty
  numGens        := 0
  itNext         := Function.update m.itNext none none
  task           := Function.update m.task none none
  last           := Function.update m.last none false
  tail           := none

/-- `__cilkrts_obj_metadata_ini_ready`. -/
def iniReadyMem (m : ObjMetadata) (grp : Nat) : Bool :=
  if m.numGens == 1 && m.youngestGroup &&& ((grp ||| groupEmpty) &&& groupNotWrite) != 0 then true
  else m.numGens == 0

/-- `tags->st_task_and_last = t`. -/
def storeTask (t : Option TaskId) (m : ObjMetadata) (tags : NodeId) : ObjMetadata :=
  { m with
    task := Function.update m.task (some tags) t
    last := Function.update m.last (some tags) false }

/-- The stores of `add_task` that append a node behind `tail`. -/
def appendNode (m : ObjMetadata) (tags : NodeId) (pushg : Bool) : ObjMetadata :=
  { m with
    itNext := Function.update (Function.update m.itNext (some tags) none) m.tail (some tags)
    last   := Function.update m.last m.tail pushg
    tail   := some tags }

/-- `add_task` for a pending frame, up to the assertions at its end. -/
def addFrame (m : ObjMetadata) (tags : NodeId) (g : Nat) : ObjMetadata × Bool :=
  let joins := m.youngestGroup &&& ((g ||| groupEmpty) &&& groupNotWrite) != 0
  let pushg := g &&& (m.youngestGroup &&& groupNotWrite) == 0
  let ready := joins && decide (m.numGens ≤ 1)
  let m := { m with
    numGens := (m.numGens + pushg.toNat) % 2 ^ 32
    oldestNumTasks := (m.oldestNumTasks + ready.toNat) % 2 ^ 64
    youngestGroup := g }
  (if ready then m else appendNode m tags pushg, ready)

/-- `__cilkrts_obj_metadata_add_task`. Also returns what is added to
`t->incoming_count`. -/
def addTaskMem (t : Option TaskId) (m : ObjMetadata) (tags : NodeId) (g : Nat) :
    Checked (ObjMetadata × Nat) :=
  let m := storeTask t m tags
  if t = none then
    return ({ m with
      numGens := 1
      oldestNumTasks := (m.oldestNumTasks + 1) % 2 ^ 64
      youngestGroup := g }, 0)
  else do
    let (m, ready) := addFrame m tags g
    assert (decide (m.numGens ≤ 1) == decide (m.itNext none = none))
      "(meta->num_gens <= 1) == (meta->tasks.head.it_next == 0)"
    assert (decide (0 < m.numGens)) "meta->num_gens > 0"
    return (m, (!ready).toNat)

/-- What the loop of `wakeup_hard` works on: the counts of the frames, the ready
list of the caller and `new_tasks`, and the nodes seen so far. -/
structure Wake where
  incoming : TaskId → Nat
  rlist    : List TaskId
  newTasks : Nat
  seen     : List NodeId

/-- The body of the loop, for the frame `t` of node `i`. -/
def Wake.visit (w : Wake) (i : NodeId) (t : TaskId) : Wake where
  incoming := Function.update w.incoming t ((w.incoming t + (2 ^ 32 - 1)) % 2 ^ 32)
  rlist    := if w.incoming t = 1 then w.rlist ++ [t] else w.rlist
  newTasks := (w.newTasks + 1) % 2 ^ 32
  seen     := w.seen ++ [i]

/-- The loop of `wakeup_hard`, for at most `fuel` iterations, with the final
`i_next`. -/
def wakeupLoop (m : ObjMetadata) : Nat → Option NodeId → Wake → Checked (Wake × Option NodeId)
  | _, none, w => return (w, none)
  | 0, some _, _ => throw "still running"
  | fuel + 1, some i, w =>
    match m.task (some i) with
    | none => throw "NULL == t"
    | some t =>
      if m.last (some i) then return (w.visit i t, m.itNext (some i))
      else wakeupLoop m fuel (m.itNext (some i)) (w.visit i t)

/-- `__cilkrts_obj_metadata_wakeup_hard`. -/
def wakeupHardMem (fuel : Nat) (m : ObjMetadata) (incoming : TaskId → Nat) (rlist : List TaskId) :
    Checked (ObjMetadata × Wake) := do
  let (w, iNext) ← wakeupLoop m fuel (m.itNext none) ⟨incoming, rlist, 0, []⟩
  let m := { m with
    oldestNumTasks := w.newTasks
    numGens := (m.numGens + (2 ^ 32 - 1)) % 2 ^ 32 }
  match iNext with
  | some i => return ({ m with itNext := Function.update m.itNext none (some i) }, w)
  | none =>
    return ({ m with
      itNext := Function.update m.itNext none none
      tail := none
      youngestGroup := if m.numGens = 0 then groupEmpty else m.youngestGroup }, w)

/-- `__cilkrts_obj_metadata_wakeup`. -/
def wakeupMem (fuel : Nat) (m : ObjMetadata) (incoming : TaskId → Nat) (rlist : List TaskId) :
    Checked (ObjMetadata × Wake) :=
  let m := { m with oldestNumTasks := (m.oldestNumTasks + (2 ^ 64 - 1)) % 2 ^ 64 }
  if 0 < m.oldestNumTasks then return (m, ⟨incoming, rlist, 0, []⟩)
  else if m.numGens = 1 then
    return ({ m with numGens := 0, youngestGroup := groupEmpty }, ⟨incoming, rlist, 0, []⟩)
  else wakeupHardMem fuel m incoming rlist

-- ---------------------------------------------------------------------------
-- The list
-- ---------------------------------------------------------------------------

/-- The contents of a node. -/
def ObjMetadata.node (m : ObjMetadata) (i : NodeId) : Node :=
  ⟨(m.task (some i)).getD 0, m.last (some i)⟩

/-- The memory `m` holds the metadata `md`, with the list linked through `ns`. -/
structure Encodes (m : ObjMetadata) (ns : List NodeId) (md : Metadata) : Prop where
  oldest   : m.oldestNumTasks = md.oldestNumTasks
  youngest : m.youngestGroup = md.youngestGroup
  numGens  : m.numGens = md.numGens
  chain    : Chain some m.itNext none ns
  tail     : m.tail = lastCell some none ns
  nodup    : ns.Nodup
  frames   : ∀ i ∈ ns, (m.task (some i)).isSome
  tasks    : md.tasks = ns.map m.node

theorem objMetadataInit_encodes (m : ObjMetadata) : Encodes (objMetadataInit m) [] .initial where
  oldest   := rfl
  youngest := rfl
  numGens  := rfl
  chain    := by simp [chain_nil, objMetadataInit]
  tail     := rfl
  nodup    := List.nodup_nil
  frames   := nofun
  tasks    := rfl

theorem nodup_cells {ns : List NodeId} (h : ns.Nodup) : (none :: ns.map some).Nodup := by
  rw [List.nodup_cons]
  exact ⟨by simp, h.map (Option.some_injective _)⟩

section Encodes

variable {m : ObjMetadata} {ns : List NodeId} {md : Metadata}

/-- Writing the bit behind the tail is writing it in the last node. -/
theorem setLast_map (ns : List NodeId) (hnd : ns.Nodup) (c : NodeCell)
    (hc : c ∉ ns.map some) (b : Bool) :
    setLast (ns.map m.node) b =
      ns.map { m with last := Function.update m.last (lastCell some c ns) b }.node := by
  induction ns generalizing c with
  | nil => rfl
  | cons i ns ih =>
    obtain ⟨hi, hnd⟩ := List.nodup_cons.mp hnd
    cases ns with
    | nil => simp [setLast, ObjMetadata.node]
    | cons j ns =>
      have hne : (some i : NodeCell) ≠ lastCell some (some j) ns := by
        intro h
        have := lastCell_mem some (some j) ns
        rw [← h] at this
        exact hi (by simpa using this)
      have ih := ih hnd (some i) (by simpa using hi)
      rw [List.map_cons, List.map_cons, setLast, ← List.map_cons, ih]
      simp [ObjMetadata.node, Function.update_of_ne hne]

/-- The nodes of the list are those that its memory keeps. -/
theorem map_node_congr {m' : ObjMetadata} (htask : ∀ i ∈ ns, m'.task (some i) = m.task (some i))
    (hlast : ∀ i ∈ ns, m'.last (some i) = m.last (some i)) :
    ns.map m'.node = ns.map m.node := by
  refine List.map_congr_left fun i hi => ?_
  rw [ObjMetadata.node, ObjMetadata.node, htask i hi, hlast i hi]

/-- The head of the list is empty iff the list is. -/
theorem Encodes.head_eq_none (h : Encodes m ns md) : m.itNext none = none ↔ ns = [] := by
  cases ns with
  | nil => simpa using chain_nil.mp h.chain
  | cons i ns => simp [(chain_cons.mp h.chain).1]

/-- The store to the node of the new task is outside the list. -/
theorem Encodes.storeTask (h : Encodes m ns md) {tags : NodeId} (htags : tags ∉ ns)
    (t : Option TaskId) : Encodes (storeTask t m tags) ns md := by
  have hne : ∀ i ∈ ns, (some i : NodeCell) ≠ some tags :=
    fun i hi he => htags (Option.some.inj he ▸ hi)
  refine ⟨h.oldest, h.youngest, h.numGens, h.chain, h.tail, h.nodup, fun i hi => ?_, ?_⟩
  · show (Function.update m.task (some tags) t (some i)).isSome
    rw [Function.update_of_ne (hne i hi)]
    exact h.frames i hi
  · rw [h.tasks]
    refine (map_node_congr (fun i hi => ?_) (fun i hi => ?_)).symm
    · exact Function.update_of_ne (hne i hi) ..
    · exact Function.update_of_ne (hne i hi) ..

/-- Appending a node that holds the frame `t` and is not in the list. -/
theorem Encodes.appendNode (h : Encodes m ns md) {tags : NodeId} (htags : tags ∉ ns) {t : TaskId}
    (ht : m.task (some tags) = some t) (hbit : m.last (some tags) = false) (b : Bool) :
    Encodes (appendNode m tags b) (ns ++ [tags])
      { md with tasks := setLast md.tasks b ++ [⟨t, false⟩] } := by
  have hnd : (ns ++ [tags]).Nodup := by
    rw [List.nodup_append]
    exact ⟨h.nodup, List.nodup_singleton _, by
      rintro i hi _ hj rfl
      exact htags (List.mem_singleton.mp hj ▸ hi)⟩
  -- the sentinel or a node of the list
  have htail : m.tail ≠ some tags := by
    rw [h.tail]
    intro he
    have := lastCell_mem some none ns
    rw [he] at this
    exact htags (by simpa using this)
  refine ⟨h.oldest, h.youngest, h.numGens, ?_, by simp [Dataflow.appendNode], hnd, ?_, ?_⟩
  · have hempty : Chain some (Function.update m.itNext (some tags) none) (some tags) [] := by
      simp [chain_nil]
    -- the old chain is kept, and its last link leads to the new node
    have hkeep : Chain some (Function.update m.itNext (some tags) none) none ns :=
      h.chain.update (by simpa using htags) none
    have hlink := hkeep.link hempty (nodup_cells hnd)
    rw [← h.tail] at hlink
    exact hlink
  · intro i hi
    rcases List.mem_append.mp hi with hi | hi
    · exact h.frames i hi
    · rw [List.mem_singleton.mp hi]
      show (m.task (some tags)).isSome
      simp [ht]
  · rw [List.map_append, List.map_singleton, h.tasks, setLast_map ns h.nodup none (by simp) b,
      ← h.tail]
    have hlast : Function.update m.last m.tail b (some tags) = false := by
      rw [Function.update_of_ne htail.symm, hbit]
    simp [ObjMetadata.node, Dataflow.appendNode, ht, hlast]

/-- `add_task` for a frame. -/
theorem Encodes.addFrame (h : Encodes m ns md) {tags : NodeId} (htags : tags ∉ ns) {t : TaskId}
    (ht : m.task (some tags) = some t) (hbit : m.last (some tags) = false) (g : Nat) :
    Encodes (addFrame m tags g).1 (if joins md g && decide (md.numGens ≤ 1) then ns
        else ns ++ [tags]) (addTask (some t) md g).1 ∧
      (addFrame m tags g).2 = (joins md g && decide (md.numGens ≤ 1)) := by
  have hjoins : (m.youngestGroup &&& ((g ||| groupEmpty) &&& groupNotWrite) != 0) = joins md g := by
    rw [h.youngest]
    rfl
  have hpushg : (g &&& (m.youngestGroup &&& groupNotWrite) == 0) = pushg md g := by
    rw [h.youngest]
    rfl
  simp only [Dataflow.addFrame, addTask, hjoins, hpushg, h.numGens, h.oldest, and_true]
  -- the counters first, then the list
  have hcount : ∀ r : Nat, Encodes { m with
      numGens := (md.numGens + (pushg md g).toNat) % 2 ^ 32
      oldestNumTasks := (md.oldestNumTasks + r) % 2 ^ 64
      youngestGroup := g } ns { md with
      numGens := (md.numGens + (pushg md g).toNat) % 2 ^ 32
      oldestNumTasks := (md.oldestNumTasks + r) % 2 ^ 64
      youngestGroup := g } :=
    fun r => ⟨rfl, rfl, rfl, h.chain, h.tail, h.nodup, h.frames, h.tasks⟩
  cases joins md g && decide (md.numGens ≤ 1) with
  | true => exact hcount _
  | false => exact (hcount _).appendNode htags ht hbit _

/-- `add_task` on memory does what it does on lists, if the assertions at its
end hold. -/
theorem addTaskMem_encodes (h : Encodes m ns md) {tags : NodeId} (htags : tags ∉ ns)
    (t : Option TaskId) (g : Nat)
    (hassert : t ≠ none → ((addTask t md g).1.numGens ≤ 1 ↔ (addTask t md g).1.tasks = []) ∧
      0 < (addTask t md g).1.numGens) :
    ∃ m', addTaskMem t m tags g = .ok (m', (addTask t md g).2) ∧
      Encodes m' (if t = none ∨ (joins md g && decide (md.numGens ≤ 1)) = true then ns
        else ns ++ [tags]) (addTask t md g).1 := by
  have hstore := h.storeTask htags t
  cases t with
  | none =>
    refine ⟨_, rfl, ?_⟩
    rw [if_pos (.inl rfl)]
    exact ⟨by simp [addTask, hstore.oldest], rfl, rfl, hstore.chain, hstore.tail, hstore.nodup,
      hstore.frames, hstore.tasks⟩
  | some t =>
    obtain ⟨hgens, hpos⟩ := hassert (by simp)
    obtain ⟨henc, hready⟩ := hstore.addFrame htags (t := t) (by simp [Dataflow.storeTask])
      (by simp [Dataflow.storeTask]) g
    refine ⟨_, ?_, by simpa using henc⟩
    -- both assertions compare the count with the list after the call
    have hnil : (addTask (some t) md g).1.tasks = [] ↔
        (if joins md g && decide (md.numGens ≤ 1) then ns else ns ++ [tags]) = [] := by
      rw [henc.tasks, List.map_eq_nil_iff]
    have hfirst : (decide ((Dataflow.addFrame (Dataflow.storeTask (some t) m tags) tags g).1.numGens ≤ 1) ==
        decide ((Dataflow.addFrame (Dataflow.storeTask (some t) m tags) tags g).1.itNext none =
          none)) = true := by
      rw [beq_iff_eq, decide_eq_decide, henc.numGens, henc.head_eq_none, hgens, hnil]
    have hsecond : decide (0 < (Dataflow.addFrame (Dataflow.storeTask (some t) m tags) tags g).1.numGens)
        = true := by
      rw [decide_eq_true_iff, henc.numGens]
      exact hpos
    simp only [addTaskMem, reduceCtorEq, if_false, hfirst, hsecond, assert_true, ok_bind, pure_eq,
      hready]
    rfl

/-- The loop of a wakeup visits the nodes of one generation. -/
theorem wakeupLoop_spec {c : NodeCell} (hchain : Chain some m.itNext c ns)
    (hframes : ∀ i ∈ ns, (m.task (some i)).isSome) {fuel : Nat} (hfuel : ns.length ≤ fuel)
    (w : Wake) (hw : w.newTasks < 2 ^ 32) :
    wakeupLoop m fuel (m.itNext c) w =
      .ok (⟨(decIncoming ((popGeneration (ns.map m.node)).1.map Node.task) w.incoming).1,
          w.rlist ++ (decIncoming ((popGeneration (ns.map m.node)).1.map Node.task) w.incoming).2,
          (w.newTasks + (popGeneration (ns.map m.node)).1.length) % 2 ^ 32,
          w.seen ++ ns.take (popGeneration (ns.map m.node)).1.length⟩,
        (ns.drop (popGeneration (ns.map m.node)).1.length).head?) := by
  induction ns generalizing c fuel w with
  | nil =>
    rw [chain_nil.mp hchain]
    have hmod : w.newTasks % 2 ^ 32 = w.newTasks := Nat.mod_eq_of_lt hw
    cases fuel <;> simp only [wakeupLoop, popGeneration, decIncoming, List.map_nil,
      List.length_nil, Nat.add_zero, hmod, List.append_nil, List.take_nil, List.drop_nil,
      List.head?_nil, Checked.pure_eq]
  | cons i ns ih =>
    obtain ⟨hi, hrest⟩ := chain_cons.mp hchain
    obtain ⟨t, ht⟩ := Option.isSome_iff_exists.mp (hframes i List.mem_cons_self)
    obtain ⟨fuel, rfl⟩ : ∃ n, fuel = n + 1 := ⟨fuel - 1, by simp at hfuel; omega⟩
    have hnode : m.node i = ⟨t, m.last (some i)⟩ := by simp [ObjMetadata.node, ht]
    have hnext : m.itNext (some i) = ns.head? := by
      cases ns with
      | nil => exact chain_nil.mp hrest
      | cons j ns => exact (chain_cons.mp hrest).1
    rw [hi, List.map_cons, hnode]
    simp only [wakeupLoop, ht, popGeneration]
    cases hlast : m.last (some i) with
    | true =>
      by_cases hone : w.incoming t = 1 <;> simp [hnext, Wake.visit, decIncoming, hone]
    | false =>
      have hvisit : (w.visit i t).newTasks < 2 ^ 32 := Nat.mod_lt _ (by decide)
      rw [if_neg (by simp), ih hrest (fun j hj => hframes j (List.mem_cons_of_mem _ hj))
        (by simpa using hfuel) (w.visit i t) hvisit]
      -- the tasks are counted modulo the width of the counter
      by_cases hone : w.incoming t = 1 <;> simp [Wake.visit, decIncoming, hone] <;> omega

theorem popGeneration_append (l : List Node) : (popGeneration l).1 ++ (popGeneration l).2 = l := by
  induction l with
  | nil => rfl
  | cons n l ih =>
    rw [popGeneration]
    split
    · rfl
    · simp [ih]

/-- What is left of the list behind the nodes that were visited. -/
theorem popGeneration_snd (m : ObjMetadata) (ns : List NodeId) :
    (popGeneration (ns.map m.node)).2 =
      (ns.drop (popGeneration (ns.map m.node)).1.length).map m.node := by
  have happ := popGeneration_append (ns.map m.node)
  have hdrop := congrArg (List.drop (popGeneration (ns.map m.node)).1.length) happ
  rw [List.drop_left] at hdrop
  rw [hdrop, List.map_drop]

/-- The nodes are unlinked. -/
theorem Chain.drop {next : NodeCell → Option NodeId} {ns : List NodeId}
    (h : Chain some next none ns) (k : Nat) :
    Chain some (Function.update next none (ns.drop k).head?) none (ns.drop k) := by
  cases hdrop : ns.drop k with
  | nil => simp [chain_nil]
  | cons j rest =>
    have hsplit : ns.take k ++ j :: rest = ns := by rw [← hdrop, List.take_append_drop]
    rw [← hsplit, chain_append] at h
    have hj := (chain_cons.mp h.2).2
    rw [chain_cons]
    exact ⟨by simp, hj.update (by simp) _⟩

/-- The tail stays the last node unless all nodes are unlinked. -/
theorem lastCell_drop {ns : List NodeId} {k : Nat} {j : NodeId} {rest : List NodeId}
    (h : ns.drop k = j :: rest) : lastCell some none ns = lastCell some none (j :: rest) := by
  have hsplit : ns.take k ++ j :: rest = ns := by rw [← h, List.take_append_drop]
  rw [← hsplit, lastCell_append]
  rfl

theorem Encodes.wakeupHard (h : Encodes m ns md) {fuel : Nat} (hfuel : ns.length ≤ fuel)
    (incoming : TaskId → Nat) (rlist : List TaskId) :
    ∃ m' w, wakeupHardMem fuel m incoming rlist = .ok (m', w) ∧
      Encodes m' (ns.drop (Dataflow.wakeupHard md).2.length) (Dataflow.wakeupHard md).1 ∧
      w.seen = ns.take (Dataflow.wakeupHard md).2.length ∧
      w.incoming = (decIncoming (Dataflow.wakeupHard md).2 incoming).1 ∧
      w.rlist = rlist ++ (decIncoming (Dataflow.wakeupHard md).2 incoming).2 := by
  have hloop := wakeupLoop_spec h.chain h.frames hfuel ⟨incoming, rlist, 0, []⟩ (Nat.two_pow_pos 32)
  have hchain := Chain.drop h.chain (popGeneration (ns.map m.node)).1.length
  have hrest := popGeneration_snd m ns
  have hframes : ∀ i ∈ ns.drop (popGeneration (ns.map m.node)).1.length,
      (m.task (some i)).isSome := fun i hi => h.frames i (List.mem_of_mem_drop hi)
  have hnd : (ns.drop (popGeneration (ns.map m.node)).1.length).Nodup :=
    h.nodup.sublist (List.drop_sublist _ _)
  simp only [wakeupHardMem, hloop, ok_bind, Dataflow.wakeupHard, h.tasks, List.length_map, hrest,
    h.numGens, Nat.zero_add, List.nil_append, pure_eq]
  cases hdrop : ns.drop (popGeneration (ns.map m.node)).1.length with
  | nil =>
    refine ⟨_, _, rfl, ⟨rfl, ?_, rfl, by simp [chain_nil], rfl, List.nodup_nil, by simp, rfl⟩,
      rfl, rfl, rfl⟩
    simp [h.youngest]
  | cons j rest =>
    rw [hdrop] at hchain hframes hnd
    refine ⟨_, _, rfl, ⟨rfl, ?_, rfl, hchain, ?_, hnd, hframes, rfl⟩, rfl, rfl, rfl⟩
    · simp [h.youngest]
    · rw [← lastCell_drop hdrop, ← h.tail]

theorem Encodes.withOldest (h : Encodes m ns md) (k : Nat) :
    Encodes { m with oldestNumTasks := k } ns { md with oldestNumTasks := k } :=
  ⟨rfl, h.youngest, h.numGens, h.chain, h.tail, h.nodup, h.frames, h.tasks⟩

/-- The end of the only generation. -/
theorem Encodes.finish (h : Encodes m ns md) :
    Encodes { m with numGens := 0, youngestGroup := groupEmpty } ns
      { md with numGens := 0, youngestGroup := groupEmpty } :=
  ⟨h.oldest, rfl, rfl, h.chain, h.tail, h.nodup, h.frames, h.tasks⟩

/-- `wakeup` on memory does what it does on lists, and returns. -/
theorem wakeupMem_encodes (h : Encodes m ns md) {fuel : Nat} (hfuel : ns.length ≤ fuel)
    (incoming : TaskId → Nat) (rlist : List TaskId) :
    ∃ m' w, wakeupMem fuel m incoming rlist = .ok (m', w) ∧
      Encodes m' (ns.drop (wakeup md).2.length) (wakeup md).1 ∧
      w.seen = ns.take (wakeup md).2.length ∧
      w.incoming = (decIncoming (wakeup md).2 incoming).1 ∧
      w.rlist = rlist ++ (decIncoming (wakeup md).2 incoming).2 := by
  simp only [wakeupMem, wakeup, h.oldest, h.numGens]
  have hdec := h.withOldest ((md.oldestNumTasks + (2 ^ 64 - 1)) % 2 ^ 64)
  rw [h.numGens] at hdec
  split
  · exact ⟨_, _, rfl, hdec, by simp, by simp [decIncoming], by simp [decIncoming]⟩
  · split
    · exact ⟨_, _, rfl, hdec.finish, by simp, by simp [decIncoming], by simp [decIncoming]⟩
    · exact hdec.wakeupHard hfuel incoming rlist

end Encodes

end SwanRuntime.Dataflow
