import Mathlib.Data.Finset.Card
import Mathlib.Data.Finset.Dedup
import SwanRuntime.Dataflow.TaskList

/-!
# Dataflow — what the metadata of an object represent

The tasks that have been added to an object and have not called wakeup are its
*live* tasks. They are kept in issue order, each with the number of its
generation, which goes up by one whenever a task does not belong with the one
issued before it: consecutive readers belong together, as do consecutive
commutative updates.

`num_gens` counts generations in 32 bits, so all this holds as long as fewer
than `2 ^ 32` tasks are live.

## Results

* `popGeneration_encode`   — the loop of a wakeup takes the next generation.
* `Rep.addTask`, `Rep.wakeup` — a call keeps the representation.
* `taskList_represents`    — what the fields stand for in every state.
-/

namespace SwanRuntime.Dataflow

open Checked LinkedList

-- ---------------------------------------------------------------------------
-- One object
-- ---------------------------------------------------------------------------

/-- A task that was added and has not called wakeup. It waits from an
`add_task` that finds it not ready until the `wakeup` that takes its node off
the list. -/
structure Ticket where
  node    : NodeId
  task    : Option TaskId
  group   : Group
  gen     : Nat
  waiting : Bool
deriving DecidableEq, Repr

/-- The task starts or is readied. -/
def Ticket.start (tk : Ticket) : Ticket := { tk with waiting := false }

/-- The metadata of an object, the counts of the frames and the ready list that
the wakeups of the object fill. `live`, `lastGroup` and `lastGen` record what
was issued. -/
structure ListState where
  md        : ObjMetadata
  incoming  : TaskId → Nat
  rlist     : List TaskId
  live      : List Ticket
  lastGroup : Option Group
  lastGen   : Nat

/-- The generation of a task of group `g` that is issued next. -/
def ListState.nextGen (s : ListState) (g : Group) : Nat :=
  if s.lastGroup = some g ∧ g ≠ .write then s.lastGen else s.lastGen + 1

/-- The calls on one object: a task is added, with its frame unless it runs
already, and the `k`-th live task calls wakeup. -/
inductive ListEvent
  | addTask (t : Option TaskId) (tags : NodeId) (g : Group)
  | wakeup (k : Nat)

/-- A frame is null only when `ini_ready` holds, the node of a task is not that
of another live task, and only tasks that do not wait call wakeup. -/
def Allowed (s : ListState) : ListEvent → Prop
  | .addTask t tags g =>
    (∀ tk ∈ s.live, tk.node ≠ tags) ∧ (t = none → iniReadyMem s.md g.bits = true)
  | .wakeup k => ∃ tk, s.live[k]? = some tk ∧ tk.waiting = false

/-- A call. -/
def exec (fuel : Nat) (s : ListState) : ListEvent → Checked ListState
  | .addTask t tags g => do
    let (md, added) ← addTaskMem t s.md tags g.bits
    return {
      md        := md
      incoming  := match t with
        | none => s.incoming
        | some t => Function.update s.incoming t ((s.incoming t + added) % 2 ^ 32)
      rlist     := s.rlist
      live      := s.live ++ [⟨tags, t, g, s.nextGen g, decide (added = 1)⟩]
      lastGroup := some g
      lastGen   := s.nextGen g }
  | .wakeup k => do
    let (md, w) ← wakeupMem fuel s.md s.incoming s.rlist
    return { s with
      md       := md
      incoming := w.incoming
      rlist    := w.rlist
      live     := (s.live.eraseIdx k).map fun tk => if tk.node ∈ w.seen then tk.start else tk }

def taskListSystem : LTS ListState ListEvent where
  init s := (∃ m, s.md = objMetadataInit m) ∧ s.live = [] ∧ s.lastGroup = none
  step s e t := Allowed s e ∧ ∃ fuel, exec fuel s e = .ok t

/-- Fewer than `2 ^ 32` tasks are live. -/
def RoomForTask (s : ListState) : ListEvent → Prop
  | .addTask _ _ _ => s.live.length + 1 < 2 ^ 32
  | .wakeup _ => True

-- ---------------------------------------------------------------------------
-- The property
-- ---------------------------------------------------------------------------

/-- The live tasks that wait, in issue order. -/
def ListState.waiting (s : ListState) : List Ticket := s.live.filter (·.waiting)

/-- What the fields stand for. -/
structure MetadataOk (s : ListState) : Prop where
  sorted   : s.live.Pairwise fun a b => a.gen ≤ b.gen
  started  : ∀ tk ∈ s.live, tk.waiting = false ↔ ∀ u ∈ s.live, tk.gen ≤ u.gen
  oldest   : s.md.oldestNumTasks = (s.live.filter (!·.waiting)).length
  numGens  : s.md.numGens = (s.live.map (·.gen)).toFinset.card
  list     : Chain some s.md.itNext none (s.waiting.map (·.node))
  frames   : ∀ tk ∈ s.waiting, tk.task.isSome ∧ s.md.task (some tk.node) = tk.task
  bits     : ∀ i tk, s.waiting[i]? = some tk →
    (s.md.last (some tk.node) = true ↔ ∃ u, s.waiting[i + 1]? = some u ∧ u.gen ≠ tk.gen)
  tail     : s.md.tail = lastCell some none (s.waiting.map (·.node))
  youngest : ∀ tk, s.live.getLast? = some tk → s.md.youngestGroup = tk.group.bits
  empty    : s.md.youngestGroup = groupEmpty ↔ s.md.numGens = 0

/-- The frames that the wakeup of the `k`-th live task takes off the list: none
while another task of the oldest generation is left, else the next
generation. -/
def ListState.nextGeneration (s : ListState) (k : Nat) : List Ticket :=
  if (s.live.eraseIdx k).any (!·.waiting) then []
  else (s.live.eraseIdx k).filter fun tk => (s.live.eraseIdx k).all fun u => tk.gen ≤ u.gen

/-- The wakeup decrements the counts of these frames in issue order, and moves
those whose count drops to 0 to the ready list. -/
def WakesNext (s : ListState) (k : Nat) (t : ListState) : Prop :=
  let next := s.nextGeneration k
  t.incoming = (decIncoming (next.filterMap (·.task)) s.incoming).1 ∧
    t.rlist = s.rlist ++ (decIncoming (next.filterMap (·.task)) s.incoming).2 ∧
    t.live = (s.live.eraseIdx k).map fun tk => if tk ∈ next then tk.start else tk

-- ---------------------------------------------------------------------------
-- The nodes of the waiting tasks
-- ---------------------------------------------------------------------------

/-- The contents of the nodes: a bit marks the last task of a generation that
another one follows. -/
def encode : List Ticket → List Node
  | [] => []
  | [w] => [⟨w.task.getD 0, false⟩]
  | w :: w' :: l => ⟨w.task.getD 0, decide (w.gen ≠ w'.gen)⟩ :: encode (w' :: l)

theorem encode_cons_cons (w w' : Ticket) (l : List Ticket) :
    encode (w :: w' :: l) = ⟨w.task.getD 0, decide (w.gen ≠ w'.gen)⟩ :: encode (w' :: l) := rfl

theorem encode_ne_nil (w : Ticket) (l : List Ticket) : encode (w :: l) ≠ [] := by
  cases l <;> simp [encode]

theorem encode_eq_nil_iff {W : List Ticket} : encode W = [] ↔ W = [] := by
  cases W with
  | nil => simp [encode]
  | cons w l => simp [encode_ne_nil]

/-- A node is appended behind the last one, whose bit tells whether the
generation goes on. -/
theorem encode_append (W : List Ticket) (tk : Ticket) (b : Bool)
    (hb : ∀ w, W.getLast? = some w → b = decide (w.gen ≠ tk.gen)) :
    encode (W ++ [tk]) = setLast (encode W) b ++ [⟨tk.task.getD 0, false⟩] := by
  induction W with
  | nil => rfl
  | cons w l ih =>
    cases l with
    | nil =>
      rw [hb w rfl]
      rfl
    | cons w' l =>
      have ih := ih fun u hu => hb u (by rwa [List.getLast?_cons_cons])
      have hset : ∀ n, setLast (n :: encode (w' :: l)) b = n :: setLast (encode (w' :: l)) b := by
        intro n
        obtain ⟨m, l', hm⟩ := List.exists_cons_of_ne_nil (encode_ne_nil w' l)
        rw [hm]
        rfl
      simp only [List.cons_append] at ih ⊢
      rw [encode_cons_cons, encode_cons_cons, hset, ih]
      rfl

/-- The loop of a wakeup takes one generation. -/
theorem popGeneration_encode (w : Ticket) (l : List Ticket) :
    (popGeneration (encode (w :: l))).1.map Node.task =
        ((w :: l).takeWhile (·.gen = w.gen)).map (·.task.getD 0) ∧
      (popGeneration (encode (w :: l))).2 = encode ((w :: l).dropWhile (·.gen = w.gen)) := by
  induction l generalizing w with
  | nil => simp [encode, popGeneration]
  | cons w' l ih =>
    rw [encode_cons_cons, popGeneration]
    by_cases hgen : w.gen = w'.gen
    · obtain ⟨hfst, hsnd⟩ := ih w'
      simp only [hgen, ne_eq, not_true, decide_false, Bool.false_eq_true, if_false, List.map_cons,
        hfst, hsnd]
      simp [hgen]
    · have hgen' : ¬ w'.gen = w.gen := fun h => hgen h.symm
      simp [hgen, hgen']

/-- Its bits. -/
theorem getElem?_encode (W : List Ticket) (i : Nat) :
    (encode W)[i]? = W[i]?.map fun w =>
      ⟨w.task.getD 0, W[i + 1]?.any fun u => decide (w.gen ≠ u.gen)⟩ := by
  induction W generalizing i with
  | nil => rfl
  | cons w l ih =>
    cases l with
    | nil => cases i <;> simp [encode]
    | cons w' l =>
      rw [encode_cons_cons]
      cases i with
      | zero => simp
      | succ i => simpa using ih i

/-- In a sorted list the first generation is the least one. -/
theorem takeWhile_eq_filter (w : Ticket) (l : List Ticket)
    (h : (w :: l).Pairwise fun a b => a.gen ≤ b.gen) :
    (w :: l).takeWhile (·.gen = w.gen) =
      (w :: l).filter fun tk => (w :: l).all fun u => tk.gen ≤ u.gen := by
  have hiff : ∀ tk ∈ w :: l, ((w :: l).all fun u => tk.gen ≤ u.gen) = decide (tk.gen = w.gen) := by
    intro tk htk
    rw [Bool.eq_iff_iff, List.all_eq_true, decide_eq_true_iff]
    have hle : w.gen ≤ tk.gen := by
      rcases List.mem_cons.mp htk with rfl | htk
      · exact le_rfl
      · exact (List.pairwise_cons.mp h).1 tk htk
    constructor
    · intro hall
      have := of_decide_eq_true (hall w List.mem_cons_self)
      omega
    · intro heq u hu
      rw [decide_eq_true_iff, heq]
      rcases List.mem_cons.mp hu with rfl | hu
      · exact le_rfl
      · exact (List.pairwise_cons.mp h).1 u hu
  rw [List.filter_congr hiff]
  -- behind the first other generation there are only later ones
  have hsorted : ∀ (l : List Ticket) (g : Nat), l.Pairwise (fun a b => a.gen ≤ b.gen) →
      (∀ u ∈ l, g ≤ u.gen) → l.takeWhile (·.gen = g) = l.filter (·.gen = g) := by
    intro l g hl hg
    induction l with
    | nil => rfl
    | cons u l ih =>
      obtain ⟨hu, hl⟩ := List.pairwise_cons.mp hl
      by_cases hgen : u.gen = g
      · simp [hgen, ih hl fun v hv => hg v (List.mem_cons_of_mem _ hv)]
      · have hgt := hg u List.mem_cons_self
        have hnone : l.filter (·.gen = g) = [] := by
          refine List.filter_eq_nil_iff.mpr fun v hv => ?_
          have := hu v hv
          simp only [decide_eq_true_iff]
          omega
        simp [hgen, hnone]
  refine hsorted _ _ h fun u hu => ?_
  rcases List.mem_cons.mp hu with rfl | hu
  · exact le_rfl
  · exact (List.pairwise_cons.mp h).1 u hu

-- ---------------------------------------------------------------------------
-- The representation
-- ---------------------------------------------------------------------------

/-- The generations of a list of tasks. -/
def genSet (l : List Ticket) : Finset Nat := (l.map (·.gen)).toFinset

@[simp] theorem genSet_nil : genSet [] = ∅ := rfl

@[simp] theorem mem_genSet {l : List Ticket} {n : Nat} : n ∈ genSet l ↔ ∃ tk ∈ l, tk.gen = n := by
  simp [genSet]

theorem genSet_append (l l' : List Ticket) : genSet (l ++ l') = genSet l ∪ genSet l' := by
  simp [genSet]

theorem genSet_cons (tk : Ticket) (l : List Ticket) : genSet (tk :: l) = insert tk.gen (genSet l) := by
  simp [genSet]

theorem card_genSet_le (l : List Ticket) : (genSet l).card ≤ l.length :=
  (List.toFinset_card_le _).trans_eq (List.length_map _)

theorem genSet_congr {l l' : List Ticket} (h : l.map (·.gen) = l'.map (·.gen)) :
    genSet l = genSet l' := by
  rw [genSet, h, genSet]

/-- The live tasks are the started ones `A`, which form the oldest generation,
followed by the waiting ones `W`, and the metadata `md` count and list them. -/
structure Rep (s : ListState) (md : Metadata) (A W : List Ticket) : Prop where
  live     : s.live = A ++ W
  started  : ∀ a ∈ A, a.waiting = false
  waiting  : ∀ w ∈ W, w.waiting = true
  frames   : ∀ w ∈ W, w.task.isSome
  distinct : (s.live.map (·.node)).Nodup
  sameGen  : ∀ a ∈ A, ∀ b ∈ A, a.gen = b.gen
  before   : ∀ a ∈ A, ∀ w ∈ W, a.gen < w.gen
  sorted   : W.Pairwise fun a b => a.gen ≤ b.gen
  idle     : A = [] → W = []
  newest   : ∀ tk, s.live.getLast? = some tk → tk.gen = s.lastGen ∧ s.lastGroup = some tk.group
  bound    : ∀ tk ∈ s.live, tk.gen ≤ s.lastGen
  groups   : ∀ tk ∈ s.live, tk.gen = s.lastGen → s.lastGroup = some tk.group
  oldest   : md.oldestNumTasks = A.length
  numGens  : md.numGens = (genSet s.live).card
  youngest : md.youngestGroup = youngestBits (s.live.getLast?.map (·.group))
  tasks    : md.tasks = encode W
  fits     : s.live.length < 2 ^ 32

section Rep

variable {s : ListState} {md : Metadata} {A W : List Ticket}

/-- A list that holds no task. -/
theorem rep_nil (hlive : s.live = []) (holdest : md.oldestNumTasks = 0) (hgens : md.numGens = 0)
    (hyoungest : md.youngestGroup = groupEmpty) (htasks : md.tasks = encode []) :
    Rep s md [] [] where
  live := hlive
  started := by simp
  waiting := by simp
  frames := by simp
  distinct := by simp [hlive]
  sameGen := by simp
  before := by simp
  sorted := .nil
  idle _ := rfl
  newest := by simp [hlive]
  bound := by simp [hlive]
  groups := by simp [hlive]
  oldest := holdest
  numGens := by simp [hgens, hlive, genSet]
  youngest := by
    rw [hyoungest, hlive]
    rfl
  tasks := htasks
  fits := by simp [hlive]

theorem Rep.live_eq_nil (h : Rep s md A W) : s.live = [] ↔ A = [] := by
  rw [h.live, List.append_eq_nil_iff]
  exact ⟨fun h => h.1, fun hA => ⟨hA, h.idle hA⟩⟩

theorem Rep.numGens_eq_zero (h : Rep s md A W) : md.numGens = 0 ↔ s.live = [] := by
  rw [h.numGens, Finset.card_eq_zero]
  cases hl : s.live <;> simp [genSet]

/-- There is one generation, or none, iff no task waits. -/
theorem Rep.numGens_le_one (h : Rep s md A W) : md.numGens ≤ 1 ↔ W = [] := by
  rw [h.numGens]
  constructor
  · intro hcard
    by_contra hW
    obtain ⟨w, hw⟩ := List.exists_mem_of_ne_nil W hW
    obtain ⟨a, ha⟩ := List.exists_mem_of_ne_nil A fun hA => hW (h.idle hA)
    have hne := h.before a ha w hw
    have heq := Finset.card_le_one.mp hcard a.gen (by simp [h.live]; exact ⟨a, .inl ha, rfl⟩) w.gen
      (by simp [h.live]; exact ⟨w, .inr hw, rfl⟩)
    omega
  · intro hW
    refine Finset.card_le_one.mpr fun x hx y hy => ?_
    rw [h.live, hW, List.append_nil] at hx hy
    obtain ⟨a, ha, rfl⟩ := mem_genSet.mp hx
    obtain ⟨b, hb, rfl⟩ := mem_genSet.mp hy
    exact h.sameGen a ha b hb

/-- The youngest group is that of the last task issued, unless none is live. -/
theorem Rep.joins_iff (h : Rep s md A W) (g : Group) :
    joins md g.bits = true ↔ s.live = [] ∨ (s.lastGroup = some g ∧ g ≠ .write) := by
  rw [joins, bne_iff_ne, h.youngest, (masks _ g).1]
  cases hlast : s.live.getLast? with
  | none => simp [List.getLast?_eq_none_iff.mp hlast]
  | some tk =>
    have hne : s.live ≠ [] := by
      intro he
      simp [he] at hlast
    simp [hne, (h.newest tk hlast).2]

theorem Rep.pushg_iff (h : Rep s md A W) (g : Group) :
    pushg md g.bits = true ↔ s.live = [] ∨ ¬ (s.lastGroup = some g ∧ g ≠ .write) := by
  rw [pushg, beq_iff_eq, h.youngest, (masks _ g).2]
  cases hlast : s.live.getLast? with
  | none => simp [List.getLast?_eq_none_iff.mp hlast]
  | some tk =>
    have hne : s.live ≠ [] := by
      intro he
      simp [he] at hlast
    simp [hne, (h.newest tk hlast).2]

/-- A task starts a generation iff `add_task` pushes one. -/
theorem Rep.nextGen_mem (h : Rep s md A W) (g : Group) :
    s.nextGen g ∈ genSet s.live ↔ pushg md g.bits = false := by
  rw [← Bool.not_eq_true, h.pushg_iff, not_or, not_not, mem_genSet, ListState.nextGen]
  constructor
  · rintro ⟨tk, htk, heq⟩
    refine ⟨List.ne_nil_of_mem htk, ?_⟩
    by_contra hno
    rw [if_neg hno] at heq
    have := h.bound tk htk
    omega
  · rintro ⟨hne, hjoin⟩
    rw [if_pos hjoin]
    obtain ⟨tk, htk⟩ := Option.ne_none_iff_exists'.mp (mt List.getLast?_eq_none_iff.mp hne)
    exact ⟨tk, List.mem_of_getLast? htk, (h.newest tk htk).1⟩

theorem Rep.card_add (h : Rep s md A W) (g : Group) :
    (insert (s.nextGen g) (genSet s.live)).card = md.numGens + (pushg md g.bits).toNat := by
  rw [h.numGens]
  cases hpush : pushg md g.bits with
  | false =>
    rw [Finset.insert_eq_of_mem ((h.nextGen_mem g).mpr hpush)]
    rfl
  | true =>
    rw [Finset.card_insert_of_notMem]
    · rfl
    · rw [h.nextGen_mem, hpush]
      simp

/-- The state after a task has been issued. -/
def ListState.issue (s : ListState) (tags : NodeId) (t : Option TaskId)
    (g : Group) (waiting : Bool) : ListState :=
  { s with
    live      := s.live ++ [⟨tags, t, g, s.nextGen g, waiting⟩]
    lastGroup := some g
    lastGen   := s.nextGen g }

/-- The memory and the counts of the frames may change. -/
theorem Rep.withMd (h : Rep s md A W) (m : ObjMetadata) (incoming : TaskId → Nat)
    (rlist : List TaskId) :
    Rep { s with md := m, incoming := incoming, rlist := rlist } md A W :=
  ⟨h.live, h.started, h.waiting, h.frames, h.distinct, h.sameGen, h.before, h.sorted, h.idle,
    h.newest, h.bound, h.groups, h.oldest, h.numGens, h.youngest, h.tasks, h.fits⟩

theorem lastGen_le_nextGen (s : ListState) (g : Group) : s.lastGen ≤ s.nextGen g := by
  unfold ListState.nextGen
  split <;> omega

theorem genSet_issue (s : ListState) (tags : NodeId) (t : Option TaskId) (g : Group) (b : Bool) :
    genSet (s.issue tags t g b).live = insert (s.nextGen g) (genSet s.live) := by
  rw [ListState.issue, genSet_append, genSet_cons, genSet_nil, Finset.union_comm]
  rfl

/-- The last task issued without a waiting one before it is of the oldest
generation. -/
theorem Rep.gen_eq_lastGen (h : Rep s md A W) (hW : W = []) : ∀ a ∈ A, a.gen = s.lastGen := by
  intro a ha
  have hlive : s.live = A := by rw [h.live, hW, List.append_nil]
  obtain ⟨tk, htk⟩ := Option.ne_none_iff_exists'.mp
    (mt List.getLast?_eq_none_iff.mp (hlive ▸ List.ne_nil_of_mem ha))
  rw [h.sameGen a ha tk (hlive ▸ List.mem_of_getLast? htk), (h.newest tk htk).1]

/-- What holds of the live tasks once a task has been issued. -/
theorem Rep.issue_distinct (h : Rep s md A W) {tags : NodeId}
    (hfresh : ∀ tk ∈ s.live, tk.node ≠ tags) (t : Option TaskId) (g : Group) (b : Bool) :
    ((s.issue tags t g b).live.map (·.node)).Nodup := by
  rw [ListState.issue, List.map_append, List.nodup_append]
  refine ⟨h.distinct, List.nodup_singleton _, ?_⟩
  rintro _ hx _ hy rfl
  obtain ⟨tk, htk, heq⟩ := List.mem_map.mp hx
  exact hfresh tk htk (heq.trans (List.mem_singleton.mp hy))

theorem Rep.issue_newest (tags : NodeId) (t : Option TaskId) (g : Group) (b : Bool) (tk : Ticket)
    (htk : (s.issue tags t g b).live.getLast? = some tk) :
    tk.gen = (s.issue tags t g b).lastGen ∧ (s.issue tags t g b).lastGroup = some tk.group := by
  rw [ListState.issue, List.getLast?_concat] at htk
  obtain rfl := Option.some.inj htk
  exact ⟨rfl, rfl⟩

theorem Rep.issue_bound (h : Rep s md A W) (tags : NodeId) (t : Option TaskId) (g : Group)
    (b : Bool) : ∀ tk ∈ (s.issue tags t g b).live, tk.gen ≤ (s.issue tags t g b).lastGen := by
  intro tk htk
  rcases List.mem_append.mp htk with htk | htk
  · exact (h.bound tk htk).trans (lastGen_le_nextGen s g)
  · rw [List.mem_singleton.mp htk]
    exact le_rfl

theorem Rep.issue_groups (h : Rep s md A W) (tags : NodeId) (t : Option TaskId) (g : Group)
    (b : Bool) : ∀ tk ∈ (s.issue tags t g b).live, tk.gen = (s.issue tags t g b).lastGen →
      (s.issue tags t g b).lastGroup = some tk.group := by
  intro tk htk hgen
  rcases List.mem_append.mp htk with htk | htk
  · have hle := h.bound tk htk
    simp only [ListState.issue, ListState.nextGen] at hgen ⊢
    split at hgen
    · rename_i hj
      rw [← hj.1, h.groups tk htk hgen]
    · omega
  · rw [List.mem_singleton.mp htk]
    rfl

/-- A task is added to the oldest generation. -/
theorem Rep.admit (h : Rep s md A W) (hW : W = []) {g : Group}
    (hjoin : s.live = [] ∨ (s.lastGroup = some g ∧ g ≠ .write)) {tags : NodeId}
    (hfresh : ∀ tk ∈ s.live, tk.node ≠ tags) (hroom : s.live.length + 1 < 2 ^ 32)
    (t : Option TaskId) (md' : Metadata) (hold : md'.oldestNumTasks = A.length + 1)
    (hgens : md'.numGens = md.numGens + (pushg md g.bits).toNat)
    (hyoung : md'.youngestGroup = g.bits) (htasks : md'.tasks = []) :
    Rep (s.issue tags t g false) md' (A ++ [⟨tags, t, g, s.nextGen g, false⟩]) [] := by
  have hsame : ∀ a ∈ A, a.gen = s.nextGen g := by
    intro a ha
    have hlive : s.live ≠ [] := mt h.live_eq_nil.mp (List.ne_nil_of_mem ha)
    rw [h.gen_eq_lastGen hW a ha, ListState.nextGen, if_pos (hjoin.resolve_left hlive)]
  refine
    { live := by rw [ListState.issue, h.live, hW]; simp
      started := fun a ha => ?_
      waiting := nofun
      frames := nofun
      distinct := h.issue_distinct hfresh t g false
      sameGen := fun a ha b hb => ?_
      before := fun _ _ _ hw => nomatch hw
      sorted := .nil
      idle := fun _ => rfl
      newest := Rep.issue_newest tags t g false
      bound := h.issue_bound tags t g false
      groups := h.issue_groups tags t g false
      oldest := by simpa using hold
      numGens := by rw [genSet_issue, h.card_add, hgens]
      youngest := by simp [ListState.issue, hyoung, youngestBits]
      tasks := htasks
      fits := by simpa [ListState.issue] using hroom }
  · rcases List.mem_append.mp ha with ha | ha
    · exact h.started a ha
    · rw [List.mem_singleton.mp ha]
  · have hgen : ∀ a ∈ A ++ [⟨tags, t, g, s.nextGen g, false⟩], a.gen = s.nextGen g := by
      intro a ha
      rcases List.mem_append.mp ha with ha | ha
      · exact hsame a ha
      · rw [List.mem_singleton.mp ha]
    rw [hgen a ha, hgen b hb]

/-- A frame is appended to the list. -/
theorem Rep.append (h : Rep s md A W) (hne : s.live ≠ []) {g : Group}
    (hbusy : s.lastGroup = some g ∧ g ≠ .write → W ≠ []) {tags : NodeId}
    (hfresh : ∀ tk ∈ s.live, tk.node ≠ tags) (hroom : s.live.length + 1 < 2 ^ 32)
    (t : TaskId) (md' : Metadata) (hold : md'.oldestNumTasks = A.length)
    (hgens : md'.numGens = md.numGens + (pushg md g.bits).toNat)
    (hyoung : md'.youngestGroup = g.bits)
    (htasks : md'.tasks = setLast md.tasks (pushg md g.bits) ++ [⟨t, false⟩]) :
    Rep (s.issue tags (some t) g true) md' A (W ++ [⟨tags, some t, g, s.nextGen g, true⟩]) := by
  have hlast : ∀ w, W.getLast? = some w → w.gen = s.lastGen := by
    intro w hw
    refine (h.newest w ?_).1
    rw [h.live, List.getLast?_append, hw]
    rfl
  refine
    { live := by rw [ListState.issue, h.live]; simp
      started := h.started
      waiting := fun w hw => ?_
      frames := fun w hw => ?_
      distinct := h.issue_distinct hfresh (some t) g true
      sameGen := h.sameGen
      before := fun a ha w hw => ?_
      sorted := ?_
      idle := fun hA => absurd (h.live_eq_nil.mpr hA) hne
      newest := Rep.issue_newest tags (some t) g true
      bound := h.issue_bound tags (some t) g true
      groups := h.issue_groups tags (some t) g true
      oldest := hold
      numGens := by rw [genSet_issue, h.card_add, hgens]
      youngest := by simp [ListState.issue, hyoung, youngestBits]
      tasks := ?_
      fits := by simpa [ListState.issue] using hroom }
  · rcases List.mem_append.mp hw with hw | hw
    · exact h.waiting w hw
    · rw [List.mem_singleton.mp hw]
  · rcases List.mem_append.mp hw with hw | hw
    · exact h.frames w hw
    · rw [List.mem_singleton.mp hw]
      rfl
  · -- the generation of the new ticket is newer than those that run
    rcases List.mem_append.mp hw with hw | hw
    · exact h.before a ha w hw
    · rw [List.mem_singleton.mp hw]
      by_cases hj : s.lastGroup = some g ∧ g ≠ .write
      · -- the last task of the list is of the same generation
        obtain ⟨v, hv⟩ := Option.ne_none_iff_exists'.mp (mt List.getLast?_eq_none_iff.mp (hbusy hj))
        have := h.before a ha v (List.mem_of_getLast? hv)
        rw [hlast v hv] at this
        simpa [ListState.nextGen, hj] using this
      · have := h.bound a (by rw [h.live]; exact List.mem_append_left _ ha)
        simp only [ListState.nextGen, if_neg hj]
        omega
  · rw [List.pairwise_append]
    refine ⟨h.sorted, List.pairwise_singleton _ _, fun w hw u hu => ?_⟩
    rw [List.mem_singleton.mp hu]
    have := h.bound w (by rw [h.live]; exact List.mem_append_right _ hw)
    exact this.trans (lastGen_le_nextGen s g)
  · -- the bit of the node that was the last one: does a generation end there
    rw [htasks, h.tasks]
    refine (encode_append W ⟨tags, some t, g, s.nextGen g, true⟩ _ fun w hw => ?_).symm
    rw [Bool.eq_iff_iff, h.pushg_iff, decide_eq_true_iff, hlast w hw, ListState.nextGen]
    by_cases hj : s.lastGroup = some g ∧ g ≠ .write
    · simp [hj, hne]
    · simp [hj]

theorem Rep.notMem (h : Rep s md A W) {tags : NodeId} (hfresh : ∀ tk ∈ s.live, tk.node ≠ tags) :
    tags ∉ W.map (·.node) := by
  intro hmem
  obtain ⟨w, hw, heq⟩ := List.mem_map.mp hmem
  exact hfresh w (by rw [h.live]; exact List.mem_append_right _ hw) heq

theorem Rep.iniReady (h : Rep s md A W) (henc : Encodes s.md (W.map (·.node)) md) {g : Group}
    (hready : iniReadyMem s.md g.bits = true) :
    W = [] ∧ (s.live = [] ∨ (s.lastGroup = some g ∧ g ≠ .write)) := by
  have hini : Dataflow.iniReady md g.bits = true := by
    rw [← hready, iniReadyMem, henc.numGens, henc.youngest]
    rfl
  unfold Dataflow.iniReady at hini
  by_cases hzero : md.numGens = 0
  · exact ⟨h.numGens_le_one.mp (by omega), .inl (h.numGens_eq_zero.mp hzero)⟩
  · simp only [beq_iff_eq, Bool.if_true_left, Bool.and_eq_true] at hini
    have hone : md.numGens = 1 ∧ joins md g.bits = true := by simpa [hzero] using hini
    exact ⟨h.numGens_le_one.mp (by omega), (h.joins_iff g).mp hone.2⟩

/-- Adding a task returns, and keeps the representation. -/
theorem Rep.addTask (h : Rep s md A W) (henc : Encodes s.md (W.map (·.node)) md)
    {t : Option TaskId} {tags : NodeId} {g : Group} (hallow : Allowed s (.addTask t tags g))
    (hroom : s.live.length + 1 < 2 ^ 32) :
    ∃ u md' A' W', (∀ fuel, exec fuel s (.addTask t tags g) = .ok u) ∧ Rep u md' A' W' ∧
      Encodes u.md (W'.map (·.node)) md' := by
  obtain ⟨hfresh, hnull⟩ := hallow
  have hnot := h.notMem hfresh
  have hAlen : A.length ≤ s.live.length := by simp [h.live]
  have hcard : md.numGens ≤ s.live.length := by rw [h.numGens]; exact card_genSet_le _
  cases t with
  | none =>
    -- the task runs already: it joins the only generation
    obtain ⟨hW, hjoin⟩ := h.iniReady henc (hnull rfl)
    obtain ⟨m', hok, henc'⟩ := addTaskMem_encodes henc hnot none g.bits (fun hne => absurd rfl hne)
    -- the count of generations is set to one, which is what it comes to
    have hgens : (1 : Nat) = md.numGens + (pushg md g.bits).toNat := by
      have hp := h.pushg_iff g
      rcases hjoin with hnil | hjoin
      · simp [hp.mpr (.inl hnil), h.numGens_eq_zero.mpr hnil]
      · by_cases hnil : s.live = []
        · simp [hp.mpr (.inl hnil), h.numGens_eq_zero.mpr hnil]
        · have hno : pushg md g.bits = false := by
            rw [← Bool.not_eq_true, hp]
            tauto
          have := h.numGens_le_one.mpr hW
          have := mt h.numGens_eq_zero.mp hnil
          rw [hno]
          simp only [Bool.toNat_false]
          omega
    have hrep := h.admit hW hjoin hfresh hroom none (Dataflow.addTask none md g.bits).1
      (by simp only [Dataflow.addTask, h.oldest]; omega) hgens rfl
      (by simp [Dataflow.addTask, h.tasks, hW, encode])
    refine ⟨_, _, _, _, fun fuel => ?_, hrep.withMd m' s.incoming s.rlist, ?_⟩
    · simp only [exec, hok, ok_bind, Dataflow.addTask]
      rfl
    · simpa [hW] using henc'
  | some t =>
    have hready : (joins md g.bits && decide (md.numGens ≤ 1)) = true ↔
        (s.live = [] ∨ (s.lastGroup = some g ∧ g ≠ .write)) ∧ W = [] := by
      rw [Bool.and_eq_true, decide_eq_true_iff, h.joins_iff, h.numGens_le_one]
    have hgens : (Dataflow.addTask (some t) md g.bits).1.numGens =
        md.numGens + (pushg md g.bits).toNat := by
      simp only [Dataflow.addTask]
      cases pushg md g.bits <;> simp <;> omega
    have hpos : 0 < md.numGens + (pushg md g.bits).toNat := by
      rw [← h.card_add g, Finset.card_pos]
      exact Finset.insert_nonempty _ _
    -- the frame is readied at once, or a node for it is appended
    by_cases hr : (s.live = [] ∨ (s.lastGroup = some g ∧ g ≠ .write)) ∧ W = []
    · have hrep := h.admit hr.2 hr.1 hfresh hroom (some t)
        (Dataflow.addTask (some t) md g.bits).1
        (by simp only [Dataflow.addTask, hready.mpr hr, Bool.toNat_true, h.oldest]; omega) hgens rfl
        (by simp [Dataflow.addTask, hready.mpr hr, h.tasks, hr.2, encode])
      obtain ⟨m', hok, henc'⟩ := addTaskMem_encodes henc hnot (some t) g.bits
        fun _ => ⟨by rw [hrep.numGens_le_one, hrep.tasks, encode_eq_nil_iff], by omega⟩
      refine ⟨_, _, _, _, fun fuel => ?_, hrep.withMd m'
        (Function.update s.incoming t ((s.incoming t + 0) % 2 ^ 32)) s.rlist, ?_⟩
      · simp only [exec, hok, ok_bind, Dataflow.addTask, hready.mpr hr]
        rfl
      · simpa [hready.mpr hr, hr.2] using henc'
    · have hno : (joins md g.bits && decide (md.numGens ≤ 1)) = false := by
        rw [← Bool.not_eq_true, hready]
        exact hr
      have hne : s.live ≠ [] := fun hnil => hr ⟨.inl hnil, h.idle (h.live_eq_nil.mp hnil)⟩
      have hrep := h.append hne (fun hj hW => hr ⟨.inr hj, hW⟩) hfresh hroom t
        (Dataflow.addTask (some t) md g.bits).1
        (by simp only [Dataflow.addTask, hno, Bool.toNat_false, h.oldest]; omega) hgens rfl
        (by simp [Dataflow.addTask, hno])
      obtain ⟨m', hok, henc'⟩ := addTaskMem_encodes henc hnot (some t) g.bits
        fun _ => ⟨by rw [hrep.numGens_le_one, hrep.tasks, encode_eq_nil_iff], by omega⟩
      refine ⟨_, _, _, _, fun fuel => ?_, hrep.withMd m'
        (Function.update s.incoming t ((s.incoming t + 1) % 2 ^ 32)) s.rlist, ?_⟩
      · simp only [exec, hok, ok_bind, Dataflow.addTask, hno]
        rfl
      · simpa [hno] using henc'

/-- The youngest group as the metadata have it. -/
theorem Rep.getLast?_group (h : Rep s md A W) (hne : s.live ≠ []) :
    s.live.getLast?.map (·.group) = s.lastGroup := by
  obtain ⟨tk, htk⟩ := Option.ne_none_iff_exists'.mp (mt List.getLast?_eq_none_iff.mp hne)
  rw [htk, (h.newest tk htk).2]
  rfl

/-- A task that calls wakeup is one of the oldest generation. -/
theorem Rep.eraseIdx (h : Rep s md A W) {k : Nat} (hallow : Allowed s (.wakeup k)) :
    k < A.length ∧ s.live.eraseIdx k = A.eraseIdx k ++ W := by
  obtain ⟨tk, htk, hstart⟩ := hallow
  have hk : k < A.length := by
    by_contra hk
    rw [h.live, List.getElem?_append_right (by omega)] at htk
    have := h.waiting tk (List.mem_of_getElem? htk)
    rw [hstart] at this
    cases this
  exact ⟨hk, by rw [h.live, List.eraseIdx_append_of_lt_length hk]⟩

/-- A task of the oldest generation is done, and others of it are left. -/
theorem Rep.erase (h : Rep s md A W) {k : Nat} (hk : k < A.length) (hmore : 1 < A.length) :
    Rep { s with live := A.eraseIdx k ++ W } { md with oldestNumTasks := A.length - 1 }
      (A.eraseIdx k) W := by
  have hsub : (A.eraseIdx k ++ W).Sublist s.live := by
    rw [h.live]
    exact (List.eraseIdx_sublist A k).append_right W
  have hmem : ∀ tk ∈ A.eraseIdx k, tk ∈ A := fun tk htk => (List.eraseIdx_sublist A k).subset htk
  have hlen : (A.eraseIdx k).length = A.length - 1 := List.length_eraseIdx_of_lt hk
  have hne : A.eraseIdx k ≠ [] := by
    rw [← List.length_pos_iff]
    omega
  -- the generation stays, since a task of it is left
  have hgens : genSet (A.eraseIdx k) = genSet A := by
    ext n
    obtain ⟨b, hb⟩ := List.exists_mem_of_ne_nil _ hne
    simp only [mem_genSet]
    constructor
    · rintro ⟨a, ha, rfl⟩
      exact ⟨a, hmem a ha, rfl⟩
    · rintro ⟨a, ha, rfl⟩
      exact ⟨b, hb, h.sameGen b (hmem b hb) a ha⟩
  have hnewest : ∀ tk, (A.eraseIdx k ++ W).getLast? = some tk →
      tk.gen = s.lastGen ∧ s.lastGroup = some tk.group := by
    intro tk htk
    have htklive := hsub.subset (List.mem_of_getLast? htk)
    have hgen : tk.gen = s.lastGen := by
      -- the last ticket may be another one, of the same generation
      cases hW : W.getLast? with
      | none =>
        rw [List.getLast?_eq_none_iff] at hW
        rw [hW, List.append_nil] at htk
        exact h.gen_eq_lastGen hW tk (hmem tk (List.mem_of_getLast? htk))
      | some w =>
        rw [List.getLast?_append, hW] at htk
        obtain rfl := Option.some.inj htk
        refine (h.newest w ?_).1
        rw [h.live, List.getLast?_append, hW]
        rfl
    exact ⟨hgen, h.groups tk htklive hgen⟩
  have hlive : s.live ≠ [] := by
    intro hnil
    rw [h.live_eq_nil.mp hnil] at hk
    exact absurd hk (Nat.not_lt_zero k)
  refine
    { live := rfl
      started := fun a ha => h.started a (hmem a ha)
      waiting := h.waiting
      frames := h.frames
      distinct := h.distinct.sublist (hsub.map _)
      sameGen := fun a ha b hb => h.sameGen a (hmem a ha) b (hmem b hb)
      before := fun a ha => h.before a (hmem a ha)
      sorted := h.sorted
      idle := fun hnil => absurd hnil hne
      newest := hnewest
      bound := fun tk htk => h.bound tk (hsub.subset htk)
      groups := fun tk htk => h.groups tk (hsub.subset htk)
      oldest := hlen.symm
      numGens := ?_
      youngest := ?_
      tasks := h.tasks
      fits := Nat.lt_of_le_of_lt hsub.length_le h.fits }
  · show md.numGens = (genSet (A.eraseIdx k ++ W)).card
    rw [genSet_append, hgens, ← genSet_append, ← h.live, h.numGens]
  · show md.youngestGroup = youngestBits ((A.eraseIdx k ++ W).getLast?.map (·.group))
    obtain ⟨tk, htk⟩ := Option.ne_none_iff_exists'.mp
      (mt List.getLast?_eq_none_iff.mp (List.append_ne_nil_of_left_ne_nil hne W))
    rw [h.youngest, h.getLast?_group hlive, htk, (hnewest tk htk).2]
    rfl

end Rep

/-- The live tasks once the generation of the first waiting one has been
readied. -/
def readied (w : Ticket) (l : List Ticket) : List Ticket :=
  ((w :: l).takeWhile (·.gen = w.gen)).map Ticket.start ++ (w :: l).dropWhile (·.gen = w.gen)

/-- Only the marks change. -/
theorem map_readied {α : Type*} (f : Ticket → α) (hf : ∀ tk, f tk.start = f tk) (w : Ticket)
    (l : List Ticket) : (readied w l).map f = (w :: l).map f := by
  have hstart : f ∘ Ticket.start = f := funext hf
  rw [readied, List.map_append, List.map_map, hstart, ← List.map_append,
    List.takeWhile_append_dropWhile]

/-- Behind the first generation all tasks are of later ones. -/
theorem lt_of_mem_dropWhile {w : Ticket} {l : List Ticket}
    (h : (w :: l).Pairwise fun a b => a.gen ≤ b.gen) :
    ∀ r ∈ (w :: l).dropWhile (·.gen = w.gen), w.gen < r.gen := by
  intro r hr
  have hsub := List.dropWhile_sublist (fun tk : Ticket => decide (tk.gen = w.gen)) (l := w :: l)
  have hsorted := h.sublist hsub
  cases hdrop : (w :: l).dropWhile (·.gen = w.gen) with
  | nil =>
    rw [hdrop] at hr
    cases hr
  | cons r₀ R =>
    have hfirst : ¬ r₀.gen = w.gen := by
      have := List.head?_dropWhile_not (fun tk : Ticket => decide (tk.gen = w.gen)) (w :: l)
      rw [hdrop] at this
      simpa using this
    have hle : w.gen ≤ r₀.gen := by
      have hmem : r₀ ∈ w :: l := hsub.subset (by rw [hdrop]; exact List.mem_cons_self)
      rcases List.mem_cons.mp hmem with heq | hmem
      · rw [heq]
      · exact (List.pairwise_cons.mp h).1 r₀ hmem
    rw [hdrop] at hr hsorted
    rcases List.mem_cons.mp hr with rfl | hr
    · omega
    · have := (List.pairwise_cons.mp hsorted).1 r hr
      omega

section Rep

variable {s : ListState} {md : Metadata} {a w : Ticket} {l : List Ticket}

theorem length_pop (w : Ticket) (l : List Ticket) :
    (popGeneration (encode (w :: l))).1.length = ((w :: l).takeWhile (·.gen = w.gen)).length := by
  rw [← List.length_map Node.task, (popGeneration_encode w l).1, List.length_map]

/-- The last task of the oldest generation is done, and the next generation is
readied. -/
theorem Rep.pop (h : Rep s md [a] (w :: l)) :
    Rep { s with live := readied w l } (wakeupHard { md with oldestNumTasks := 0 }).1
      (((w :: l).takeWhile (·.gen = w.gen)).map Ticket.start)
      ((w :: l).dropWhile (·.gen = w.gen)) := by
  have hsub : ((w :: l).dropWhile (·.gen = w.gen)).Sublist (w :: l) := List.dropWhile_sublist _
  have hfits := h.fits
  have hgen : ∀ b ∈ ((w :: l).takeWhile (·.gen = w.gen)).map Ticket.start, b.gen = w.gen := by
    intro b hb
    obtain ⟨tk, htk, rfl⟩ := List.mem_map.mp hb
    exact of_decide_eq_true (List.all_eq_true.mp List.all_takeWhile tk htk)
  have hlen : ((w :: l).takeWhile (·.gen = w.gen)).length ≤ (w :: l).length :=
    (List.takeWhile_sublist _).length_le
  -- a ticket that is readied keeps its generation and its group
  have hkeep : ∀ tk ∈ readied w l, ∃ u ∈ w :: l, u.gen = tk.gen ∧ u.group = tk.group := by
    intro tk htk
    have hmap := map_readied (fun tk : Ticket => (tk.gen, tk.group)) (fun _ => rfl) w l
    have hmem : (tk.gen, tk.group) ∈ (readied w l).map fun tk => (tk.gen, tk.group) :=
      List.mem_map_of_mem htk
    rw [hmap] at hmem
    obtain ⟨u, hu, heq⟩ := List.mem_map.mp hmem
    exact ⟨u, hu, (Prod.mk.inj heq).1, (Prod.mk.inj heq).2⟩
  have hlive : s.live = a :: w :: l := h.live
  have hnewest : ∀ tk, (readied w l).getLast? = some tk →
      tk.gen = s.lastGen ∧ s.lastGroup = some tk.group := by
    intro tk htk
    have hmap := map_readied (fun tk : Ticket => (tk.gen, tk.group)) (fun _ => rfl) w l
    have hlast := congrArg List.getLast? hmap
    rw [List.getLast?_map, List.getLast?_map, htk] at hlast
    obtain ⟨u, hu, heq⟩ := Option.map_eq_some_iff.mp hlast.symm
    have hu' : s.live.getLast? = some u := by
      rw [hlive, List.getLast?_cons_cons, hu]
    have := h.newest u hu'
    rw [(Prod.mk.inj heq).1, (Prod.mk.inj heq).2] at this
    exact this
  have hgens : genSet (readied w l) = genSet (w :: l) :=
    genSet_congr (map_readied (·.gen) (fun _ => rfl) w l)
  -- the generation of `a` is older than every other, so one less remains
  have hcard : md.numGens = (genSet (readied w l)).card + 1 := by
    rw [h.numGens, hlive, genSet_cons, Finset.card_insert_of_notMem, hgens]
    rw [mem_genSet]
    rintro ⟨u, hu, heq⟩
    have := h.before a (List.mem_singleton_self a) u hu
    omega
  have hpos : 0 < (genSet (readied w l)).card := by
    rw [hgens, genSet_cons, Finset.card_pos]
    exact Finset.insert_nonempty _ _
  -- the decrement is an addition modulo the width
  have hmod : (md.numGens + (2 ^ 32 - 1)) % 2 ^ 32 = (genSet (readied w l)).card := by
    have := card_genSet_le s.live
    rw [← h.numGens] at this
    omega
  have hne : readied w l ≠ [] := by simp [readied]
  refine
    { live := rfl
      started := fun b hb => ?_
      waiting := fun r hr => h.waiting r (hsub.subset hr)
      frames := fun r hr => h.frames r (hsub.subset hr)
      distinct := ?_
      sameGen := fun b hb c hc => by rw [hgen b hb, hgen c hc]
      before := fun b hb r hr => by rw [hgen b hb]; exact lt_of_mem_dropWhile h.sorted r hr
      sorted := h.sorted.sublist hsub
      idle := by simp
      newest := hnewest
      bound := fun tk htk => ?_
      groups := fun tk htk htkgen => ?_
      oldest := ?_
      numGens := by simp only [wakeupHard]; exact hmod
      youngest := ?_
      tasks := ?_
      fits := ?_ }
  · obtain ⟨tk, -, rfl⟩ := List.mem_map.mp hb
    rfl
  · show ((readied w l).map (·.node)).Nodup
    rw [map_readied (·.node) (fun _ => rfl)]
    have := h.distinct
    rw [hlive, List.map_cons, List.nodup_cons] at this
    exact this.2
  · obtain ⟨u, hu, heq, -⟩ := hkeep tk htk
    rw [← heq]
    exact h.bound u (by rw [hlive]; exact List.mem_cons_of_mem _ hu)
  · obtain ⟨u, hu, heq, hgroup⟩ := hkeep tk htk
    rw [← hgroup]
    exact h.groups u (by rw [hlive]; exact List.mem_cons_of_mem _ hu) (heq.trans htkgen)
  · simp only [wakeupHard, h.tasks, length_pop, List.length_map]
    rw [hlive, List.length_cons] at hfits
    exact Nat.mod_eq_of_lt (by omega)
  · -- the youngest group is emptied with the last generation only
    obtain ⟨tk, htk⟩ := Option.ne_none_iff_exists'.mp (mt List.getLast?_eq_none_iff.mp hne)
    have hno : ¬ ((popGeneration md.tasks).2 = [] ∧ (md.numGens + (2 ^ 32 - 1)) % 2 ^ 32 = 0) := by
      rw [hmod]
      omega
    simp only [wakeupHard, if_neg hno]
    rw [h.youngest, h.getLast?_group (by simp [hlive]), htk, (hnewest tk htk).2]
    rfl
  · simp only [wakeupHard, h.tasks]
    exact (popGeneration_encode w l).2
  · have hlen' : (readied w l).length = (w :: l).length := by
      rw [← List.length_map (·.gen), map_readied (·.gen) (fun _ => rfl), List.length_map]
    show (readied w l).length < 2 ^ 32
    rw [hlen']
    rw [hlive, List.length_cons] at hfits
    omega

end Rep

section Calls

variable {s : ListState} {md : Metadata} {A W : List Ticket}

/-- A wakeup decrements the counts of the frames that it takes off the list, and
marks their tasks. -/
theorem exec_wakeup (henc : Encodes s.md (W.map (·.node)) md) {fuel : Nat}
    (hfuel : W.length ≤ fuel) (k : Nat) {md' : Metadata} {woken : List TaskId}
    (hwake : wakeup md = (md', woken)) :
    ∃ m', exec fuel s (.wakeup k) = .ok {
        md        := m'
        incoming  := (decIncoming woken s.incoming).1
        rlist     := s.rlist ++ (decIncoming woken s.incoming).2
        live      := (s.live.eraseIdx k).map fun tk =>
          if tk.node ∈ (W.take woken.length).map (·.node) then tk.start else tk
        lastGroup := s.lastGroup
        lastGen   := s.lastGen } ∧
      Encodes m' ((W.drop woken.length).map (·.node)) md' := by
  obtain ⟨m', w, hok, henc', hseen, hinc, hrlist⟩ := wakeupMem_encodes henc
    (by simpa using hfuel) s.incoming s.rlist
  rw [hwake] at henc' hseen hinc hrlist
  refine ⟨m', ?_, by rwa [List.map_drop]⟩
  simp only [exec, hok, ok_bind, hinc, hrlist, hseen, List.map_take]
  rfl

theorem filterMap_task {l : List Ticket} (h : ∀ tk ∈ l, tk.task.isSome) :
    l.filterMap (·.task) = l.map (·.task.getD 0) := by
  induction l with
  | nil => rfl
  | cons tk l ih =>
    obtain ⟨t, ht⟩ := Option.isSome_iff_exists.mp (h tk List.mem_cons_self)
    rw [List.filterMap_cons_some ht, List.map_cons, ht,
      ih fun u hu => h u (List.mem_cons_of_mem _ hu)]
    rfl

theorem take_drop_of_append {P R L : List Ticket} (h : P ++ R = L) :
    L.take P.length = P ∧ L.drop P.length = R := by
  subst h
  exact ⟨List.take_left, List.drop_left⟩

/-- Marking the first tasks of a list, by their nodes or as they are. -/
theorem map_start {P R : List Ticket} (hnd : ((P ++ R).map (·.node)).Nodup) :
    ((P ++ R).map fun tk => if tk.node ∈ P.map (·.node) then tk.start else tk) =
        P.map Ticket.start ++ R ∧
      ((P ++ R).map fun tk => if tk ∈ P then tk.start else tk) = P.map Ticket.start ++ R := by
  rw [List.map_append, List.nodup_append] at hnd
  have hR : ∀ r ∈ R, r.node ∉ P.map (·.node) := fun r hr hmem =>
    hnd.2.2 _ hmem _ (List.mem_map_of_mem hr) rfl
  rw [List.map_append, List.map_append]
  constructor
  · congr 1
    · exact List.map_congr_left fun p hp => if_pos (List.mem_map_of_mem hp)
    · rw [List.map_congr_left fun r hr => if_neg (hR r hr), List.map_id']
  · congr 1
    · exact List.map_congr_left fun p hp => if_pos hp
    · rw [List.map_congr_left fun r hr =>
        if_neg fun hmem => hR r hr (List.mem_map_of_mem (f := (·.node)) hmem), List.map_id']

theorem wakesNext_of {t : ListState} {k : Nat} {next : List Ticket}
    (hnext : s.nextGeneration k = next)
    (hincoming : t.incoming = (decIncoming (next.filterMap (·.task)) s.incoming).1)
    (hrlist : t.rlist = s.rlist ++ (decIncoming (next.filterMap (·.task)) s.incoming).2)
    (hlive : t.live = (s.live.eraseIdx k).map fun tk => if tk ∈ next then tk.start else tk) :
    WakesNext s k t := by
  subst hnext
  exact ⟨hincoming, hrlist, hlive⟩

/-- `wakeup` by the number of tasks that are left of the oldest generation. -/
theorem wakeup_eq {n : Nat} (hold : (md.oldestNumTasks + (2 ^ 64 - 1)) % 2 ^ 64 = n) :
    wakeup md =
      if 0 < n then ({ md with oldestNumTasks := n }, [])
      else if md.numGens = 1 then
        ({ md with oldestNumTasks := n, numGens := 0, youngestGroup := groupEmpty }, [])
      else wakeupHard { md with oldestNumTasks := n } := by
  simp only [wakeup, hold]

/-- Calling wakeup returns, keeps the representation, and readies the next
generation when the oldest one is done. -/
theorem Rep.wakeup (h : Rep s md A W) (henc : Encodes s.md (W.map (·.node)) md) {k : Nat}
    (hallow : Allowed s (.wakeup k)) {fuel : Nat} (hfuel : W.length ≤ fuel) :
    ∃ u md' A' W', exec fuel s (.wakeup k) = .ok u ∧ Rep u md' A' W' ∧
      Encodes u.md (W'.map (·.node)) md' ∧ WakesNext s k u := by
  obtain ⟨hk, herase⟩ := h.eraseIdx hallow
  have hAlen : A.length < 2 ^ 32 := by
    have := h.fits
    rw [h.live, List.length_append] at this
    omega
  have hold : (md.oldestNumTasks + (2 ^ 64 - 1)) % 2 ^ 64 = A.length - 1 := by
    rw [h.oldest]
    omega
  have hcard := card_genSet_le s.live
  by_cases hmore : 1 < A.length
  · -- others of the oldest generation are left
    have hwake : Dataflow.wakeup md = ({ md with oldestNumTasks := A.length - 1 }, []) := by
      rw [wakeup_eq hold, if_pos (by omega)]
    obtain ⟨b, hb⟩ := List.exists_mem_of_length_pos
      (by rw [List.length_eraseIdx_of_lt hk]; omega : 0 < (A.eraseIdx k).length)
    -- a running task is left, so no generation is next
    have hnext : s.nextGeneration k = [] := by
      have hb' := h.started b ((List.eraseIdx_sublist A k).subset hb)
      rw [ListState.nextGeneration, herase, if_pos]
      exact List.any_eq_true.mpr ⟨b, List.mem_append_left _ hb, by rw [hb']; rfl⟩
    obtain ⟨m', hok, henc'⟩ := exec_wakeup henc hfuel k hwake
    rw [herase] at hok
    simp only [List.length_nil, List.take_zero, List.map_nil, List.not_mem_nil, if_false,
      List.map_id', decIncoming, List.append_nil, List.drop_zero] at hok henc'
    refine ⟨_, _, _, _, hok, (h.erase hk hmore).withMd m' s.incoming s.rlist, henc', ?_⟩
    simp [WakesNext, hnext, decIncoming, herase]
  · -- the oldest generation is done
    obtain ⟨a, rfl⟩ : ∃ a, A = [a] := List.length_eq_one_iff.mp (by omega)
    obtain rfl : k = 0 := by simpa using hk
    have hleft : [a].length - 1 = 0 := rfl
    rw [hleft] at hold
    have herase' : s.live.eraseIdx 0 = W := by simpa using herase
    cases W with
    | nil =>
      -- the object becomes empty
      have hone : md.numGens = 1 := by
        have h₁ := h.numGens_le_one.mpr rfl
        have h₂ := mt h.numGens_eq_zero.mp (by simp [h.live])
        omega
      have hwake : Dataflow.wakeup md =
          ({ md with oldestNumTasks := 0, numGens := 0, youngestGroup := groupEmpty }, []) := by
        rw [wakeup_eq hold, if_neg (Nat.lt_irrefl 0), if_pos hone]
      have hnext : s.nextGeneration 0 = [] := by simp [ListState.nextGeneration, herase']
      obtain ⟨m', hok, henc'⟩ := exec_wakeup henc hfuel 0 hwake
      simp only [herase', List.map_nil, decIncoming, List.append_nil] at hok henc'
      refine ⟨_, _, [], [], hok, ?_, by simpa using henc', ?_⟩
      · exact rep_nil rfl rfl rfl rfl h.tasks
      · simp [WakesNext, hnext, decIncoming, herase']
    | cons w l =>
      have hgens : md.numGens ≠ 1 := by
        intro hone
        have := h.numGens_le_one.mp (by omega)
        cases this
      -- the head of the list is readied
      have hwoken : (Dataflow.wakeupHard { md with oldestNumTasks := 0 }).2 =
          ((w :: l).takeWhile (·.gen = w.gen)).map (·.task.getD 0) := by
        simp only [Dataflow.wakeupHard, h.tasks]
        exact (popGeneration_encode w l).1
      have hwake : Dataflow.wakeup md =
          ((Dataflow.wakeupHard { md with oldestNumTasks := 0 }).1,
            ((w :: l).takeWhile (·.gen = w.gen)).map (·.task.getD 0)) := by
        rw [wakeup_eq hold, if_neg (Nat.lt_irrefl 0), if_neg hgens, ← hwoken]
      obtain ⟨m', hok, henc'⟩ := exec_wakeup henc hfuel 0 hwake
      have hsplit : (w :: l).takeWhile (·.gen = w.gen) ++ (w :: l).dropWhile (·.gen = w.gen) =
          w :: l := List.takeWhile_append_dropWhile
      obtain ⟨htake, hdrop⟩ := take_drop_of_append hsplit
      have hnd : ((w :: l).map (·.node)).Nodup := by
        have := h.distinct
        rw [h.live, List.singleton_append, List.map_cons, List.nodup_cons] at this
        exact this.2
      -- the loop marks the tickets of the nodes that it has seen
      have hmark := map_start (by rw [hsplit]; exact hnd)
      rw [hsplit, ← readied] at hmark
      have hnext : s.nextGeneration 0 = (w :: l).takeWhile (·.gen = w.gen) := by
        have hno : (w :: l).any (!·.waiting) = false := by
          rw [List.any_eq_false]
          intro tk htk
          simp [h.waiting tk htk]
        rw [ListState.nextGeneration, herase', hno, if_neg (by simp), takeWhile_eq_filter w l h.sorted]
      have hframes : ∀ tk ∈ (w :: l).takeWhile (·.gen = w.gen), tk.task.isSome := fun tk htk =>
        h.frames tk ((List.takeWhile_sublist _).subset htk)
      rw [herase', List.length_map, htake, hmark.1, ← filterMap_task hframes] at hok
      rw [List.length_map, hdrop] at henc'
      refine ⟨_, _, _, _, hok, h.pop.withMd m' _ _, henc', wakesNext_of hnext rfl rfl ?_⟩
      rw [herase', hmark.2]

end Calls

-- ---------------------------------------------------------------------------
-- Runs
-- ---------------------------------------------------------------------------

/-- More iterations do not change what a loop that ends returns. -/
theorem wakeupLoop_mono {m : ObjMetadata} {fuel fuel' : Nat} (h : fuel ≤ fuel')
    {i : Option NodeId} {w : Wake} {r : Wake × Option NodeId}
    (hr : wakeupLoop m fuel i w = .ok r) : wakeupLoop m fuel' i w = .ok r := by
  induction fuel generalizing fuel' i w with
  | zero =>
    cases i with
    | none => cases fuel' <;> exact hr
    | some i => cases hr
  | succ fuel ih =>
    obtain ⟨fuel', rfl⟩ : ∃ n, fuel' = n + 1 := ⟨fuel' - 1, by omega⟩
    cases i with
    | none => exact hr
    | some i =>
      simp only [wakeupLoop] at hr ⊢
      cases ht : m.task (some i) with
      | none =>
        rw [ht] at hr
        cases hr
      | some t =>
        simp only [ht] at hr ⊢
        split at hr
        · rw [if_pos ‹_›]
          exact hr
        · rw [if_neg ‹_›]
          exact ih (by omega) hr

theorem wakeupHardMem_mono {fuel fuel' : Nat} (h : fuel ≤ fuel') {m : ObjMetadata}
    {incoming : TaskId → Nat} {rlist : List TaskId} {r : ObjMetadata × Wake}
    (hr : wakeupHardMem fuel m incoming rlist = .ok r) :
    wakeupHardMem fuel' m incoming rlist = .ok r := by
  unfold wakeupHardMem at hr ⊢
  obtain ⟨p, hp, hr⟩ := bind_eq_ok.mp hr
  exact bind_eq_ok.mpr ⟨p, wakeupLoop_mono h hp, hr⟩

theorem exec_mono {fuel fuel' : Nat} (h : fuel ≤ fuel') {s t : ListState} {e : ListEvent}
    (ht : exec fuel s e = .ok t) : exec fuel' s e = .ok t := by
  cases e with
  | addTask => exact ht
  | wakeup k =>
    simp only [exec] at ht ⊢
    obtain ⟨p, hp, ht⟩ := bind_eq_ok.mp ht
    refine bind_eq_ok.mpr ⟨p, ?_, ht⟩
    simp only [wakeupMem] at hp ⊢
    split at hp
    · rw [if_pos ‹_›]
      exact hp
    · rw [if_neg ‹_›]
      split at hp
      · rw [if_pos ‹_›]
        exact hp
      · rw [if_neg ‹_›]
        exact wakeupHardMem_mono h hp

/-- The representation, with some metadata and some split of the live tasks. -/
def Represented (s : ListState) : Prop :=
  ∃ md A W, Rep s md A W ∧ Encodes s.md (W.map (·.node)) md

/-- Every allowed call returns and keeps the representation. -/
theorem Represented.exec {s : ListState} (h : Represented s) {e : ListEvent} (hallow : Allowed s e)
    (hroom : RoomForTask s e) : ∃ fuel₀, ∀ fuel ≥ fuel₀, ∃ u, exec fuel s e = .ok u ∧
      Represented u ∧ ∀ k, e = .wakeup k → WakesNext s k u := by
  obtain ⟨md, A, W, hrep, henc⟩ := h
  refine ⟨W.length, fun fuel hfuel => ?_⟩
  cases e with
  | addTask t tags g =>
    obtain ⟨u, md', A', W', hok, hrep', henc'⟩ := hrep.addTask henc hallow hroom
    exact ⟨u, hok fuel, ⟨md', A', W', hrep', henc'⟩, nofun⟩
  | wakeup k =>
    obtain ⟨u, md', A', W', hok, hrep', henc', hwakes⟩ := hrep.wakeup henc hallow hfuel
    refine ⟨u, hok, ⟨md', A', W', hrep', henc'⟩, ?_⟩
    rintro _ ⟨⟩
    exact hwakes

theorem Represented.step {s t : ListState} {e : ListEvent} (h : Represented s)
    (hstep : taskListSystem.step s e t) (hroom : RoomForTask s e) :
    Represented t ∧ ∀ k, e = .wakeup k → WakesNext s k t := by
  obtain ⟨hallow, fuel, hok⟩ := hstep
  obtain ⟨fuel₀, hret⟩ := h.exec hallow hroom
  obtain ⟨u, hu, hrest⟩ := hret (max fuel fuel₀) (Nat.le_max_right ..)
  rw [exec_mono (Nat.le_max_left ..) hok] at hu
  obtain rfl := Except.ok.inj hu
  exact hrest

theorem represented_init {s : ListState} (h : taskListSystem.init s) : Represented s := by
  obtain ⟨⟨m, hm⟩, hlive, hgroup⟩ := h
  refine ⟨.initial, [], [], ?_, by rw [hm]; exact objMetadataInit_encodes m⟩
  exact
    { live := hlive
      started := nofun
      waiting := nofun
      frames := nofun
      distinct := by simp [hlive]
      sameGen := nofun
      before := nofun
      sorted := .nil
      idle := fun _ => rfl
      newest := by simp [hlive]
      bound := by simp [hlive]
      groups := by simp [hlive]
      oldest := rfl
      numGens := by simp [hlive, Metadata.initial]
      youngest := by simp [hlive, Metadata.initial, youngestBits]
      tasks := rfl
      fits := by simp [hlive] }

/-- What the representation says about the fields. -/
theorem Represented.metadataOk {s : ListState} (h : Represented s) : MetadataOk s := by
  obtain ⟨md, A, W, hrep, henc⟩ := h
  -- the waiting and the running tickets of the list are the two halves
  have hW : s.waiting = W := by
    rw [ListState.waiting, hrep.live, List.filter_append,
      List.filter_eq_nil_iff.mpr fun a ha => by simp [hrep.started a ha],
      List.filter_eq_self.mpr fun w hw => hrep.waiting w hw, List.nil_append]
  have hA : s.live.filter (!·.waiting) = A := by
    rw [hrep.live, List.filter_append, List.filter_eq_self.mpr fun a ha => by simp [hrep.started a ha],
      List.filter_eq_nil_iff.mpr fun w hw => by simp [hrep.waiting w hw], List.append_nil]
  have hle : ∀ a ∈ A, ∀ u ∈ s.live, a.gen ≤ u.gen := by
    intro a ha u hu
    rw [hrep.live] at hu
    rcases List.mem_append.mp hu with hu | hu
    · exact Nat.le_of_eq (hrep.sameGen a ha u hu)
    · exact Nat.le_of_lt (hrep.before a ha u hu)
  -- the node of a ticket holds its frame and the end of its generation
  have hnode : ∀ i w, W[i]? = some w → s.md.node w.node =
      ⟨w.task.getD 0, W[i + 1]?.any fun u => decide (w.gen ≠ u.gen)⟩ := by
    intro i w hw
    have htasks := congrArg (·[i]?) (hrep.tasks.symm.trans henc.tasks)
    simp only [getElem?_encode, List.getElem?_map, hw, Option.map_some, Option.some.injEq] at htasks
    exact htasks.symm
  refine
    { sorted := ?_
      started := fun tk htk => ⟨fun hstart => ?_, fun hall => ?_⟩
      oldest := by rw [henc.oldest, hrep.oldest, hA]
      numGens := by rw [henc.numGens, hrep.numGens, genSet]
      list := by rw [hW]; exact henc.chain
      frames := fun tk htk => ?_
      bits := fun i tk htk => ?_
      tail := by rw [hW]; exact henc.tail
      youngest := fun tk htk => ?_
      empty := ?_ }
  · rw [hrep.live, List.pairwise_append]
    refine ⟨?_, hrep.sorted, fun a ha w hw => Nat.le_of_lt (hrep.before a ha w hw)⟩
    exact List.pairwise_of_forall_mem_list fun a ha b hb => Nat.le_of_eq (hrep.sameGen a ha b hb)
  · rw [hrep.live] at htk
    rcases List.mem_append.mp htk with hA' | hW'
    · exact hle tk hA'
    · rw [hrep.waiting tk hW'] at hstart
      cases hstart
  · -- a waiting ticket is newer than a running one, so not the oldest
    have htk' := htk
    rw [hrep.live] at htk'
    rcases List.mem_append.mp htk' with hA' | hW'
    · exact hrep.started tk hA'
    · obtain ⟨a, ha⟩ := List.exists_mem_of_ne_nil A fun hnil =>
        List.ne_nil_of_mem hW' (hrep.idle hnil)
      have hlt := hrep.before a ha tk hW'
      have := hall a (by rw [hrep.live]; exact List.mem_append_left _ ha)
      omega
  · rw [hW] at htk
    refine ⟨hrep.frames tk htk, ?_⟩
    obtain ⟨i, hi⟩ := List.mem_iff_getElem?.mp htk
    have htask := congrArg Node.task (hnode i tk hi)
    obtain ⟨t, ht⟩ := Option.isSome_iff_exists.mp (hrep.frames tk htk)
    obtain ⟨t', ht'⟩ := Option.isSome_iff_exists.mp
      (henc.frames tk.node (List.mem_map_of_mem htk))
    simp only [ObjMetadata.node, ht, ht', Option.getD_some] at htask
    rw [ht, ht', htask]
  · rw [hW] at htk ⊢
    have hlast := congrArg Node.last (hnode i tk htk)
    simp only [ObjMetadata.node] at hlast
    rw [hlast]
    cases W[i + 1]? with
    | none => simp
    | some u =>
      simp only [Option.any_some, decide_eq_true_eq, Option.some.injEq, exists_eq_left']
      exact ne_comm
  · rw [henc.youngest, hrep.youngest, htk]
    rfl
  · rw [henc.youngest, henc.numGens, hrep.numGens_eq_zero, hrep.youngest]
    cases hlast : s.live.getLast? with
    | none => simp [List.getLast?_eq_none_iff.mp hlast, youngestBits]
    | some tk =>
      have hne : s.live ≠ [] := by
        intro hnil
        simp [hnil] at hlast
      have hbits : tk.group.bits ≠ groupEmpty := by cases tk.group <;> decide
      simp [hne, youngestBits, hbits]

/--
In every state reached while fewer than `2 ^ 32` tasks are live, the fields
stand for the live tasks, every allowed call returns without failing an
assertion, and a wakeup readies exactly the next generation when the oldest one
is done.
-/
theorem taskList_represents {s : ListState} (h : (taskListSystem.restrict RoomForTask).Reachable s) :
    MetadataOk s ∧
      (∀ e, Allowed s e → RoomForTask s e → ∃ t, taskListSystem.step s e t) ∧
      ∀ k t, taskListSystem.step s (.wakeup k) t → WakesNext s k t := by
  have hrep : Represented s :=
    LTS.Reachable.invariant (T := taskListSystem.restrict RoomForTask)
      (fun _ hinit => represented_init hinit)
      (fun _ _ _ hu hstep => (hu.step hstep.1 hstep.2).1) h
  refine ⟨hrep.metadataOk, fun e hallow hroom => ?_, fun k t hstep => ?_⟩
  · obtain ⟨fuel, hret⟩ := hrep.exec hallow hroom
    obtain ⟨u, hu, -⟩ := hret fuel le_rfl
    exact ⟨u, hallow, fuel, hu⟩
  · exact (hrep.step hstep trivial).2 k rfl

-- ---------------------------------------------------------------------------
-- Writers without end
-- ---------------------------------------------------------------------------

/-- A memory that holds no list. -/
def exampleMemory : ObjMetadata where
  oldestNumTasks := 0
  youngestGroup  := 0
  numGens        := 0
  itNext _       := none
  task _         := none
  last _         := false
  tail           := none

/-- An object on which no task has been issued. -/
def exampleList : ListState where
  md        := objMetadataInit exampleMemory
  incoming _ := 1
  rlist     := []
  live      := []
  lastGroup := none
  lastGen   := 0

theorem exampleList_init : taskListSystem.init exampleList := ⟨⟨exampleMemory, rfl⟩, rfl, rfl⟩

/-- The state after a call that returns. -/
def ListState.call (s : ListState) (e : ListEvent) : ListState :=
  match exec 4 s e with
  | .ok t => t
  | .error _ => s

theorem reachable_call {s : ListState} {e : ListEvent}
    (hs : (taskListSystem.restrict RoomForTask).Reachable s) (hallow : Allowed s e)
    (hroom : RoomForTask s e) (hok : (exec 4 s e).isOk = true) :
    (taskListSystem.restrict RoomForTask).Reachable (s.call e) := by
  refine hs.step (e := e) ⟨⟨hallow, 4, ?_⟩, hroom⟩
  unfold ListState.call
  split
  · assumption
  · rename_i herr
    rw [herr] at hok
    cases hok

/-- A writer runs, two readers wait behind it, and another writer behind them. -/
def exampleWriters : ListState :=
  (((exampleList.call (.addTask (some 0) 0 .write)).call (.addTask (some 1) 1 .read)).call
    (.addTask (some 2) 2 .read)).call (.addTask (some 3) 3 .write)

theorem exampleWriters_reachable :
    (taskListSystem.restrict RoomForTask).Reachable exampleWriters := by
  have hroom : ∀ n : Nat, n < 8 → n + 1 < 2 ^ 32 := by omega
  refine reachable_call (reachable_call (reachable_call (reachable_call (.init exampleList_init)
    ?_ (hroom 0 (by decide)) rfl) ?_ (hroom 1 (by decide)) rfl) ?_ (hroom 2 (by decide)) rfl)
    ?_ (hroom 3 (by decide)) rfl
  · exact ⟨by decide, fun h => absurd h (by simp)⟩
  · exact ⟨by decide, fun h => absurd h (by simp)⟩
  · exact ⟨by decide, fun h => absurd h (by simp)⟩
  · exact ⟨by decide, fun h => absurd h (by simp)⟩

/-- The wakeup of the first writer starts the two readers. -/
theorem taskList_represents_exampleWriters :
    (exampleWriters.waiting.map fun tk => (tk.node, tk.gen)) = [(1, 2), (2, 2), (3, 3)] ∧
      (exampleWriters.nextGeneration 0).map (·.node) = [1, 2] ∧
      MetadataOk exampleWriters ∧
      ∃ t, taskListSystem.step exampleWriters (.wakeup 0) t ∧ WakesNext exampleWriters 0 t := by
  obtain ⟨hok, hstep, hwakes⟩ := taskList_represents exampleWriters_reachable
  obtain ⟨t, ht⟩ := hstep (.wakeup 0) ⟨⟨0, some 0, .write, 1, false⟩, rfl, rfl⟩ trivial
  exact ⟨by decide, by decide, hok, t, ht, hwakes 0 t ht⟩

/-- Writers are issued one after the other, and each starts a generation. -/
theorem exists_writers (n : Nat) (hn : n < 2 ^ 32) : ∃ s, taskListSystem.Reachable s ∧
    Represented s ∧ s.live.length = n ∧ s.md.numGens = n ∧ ∀ tk ∈ s.live, tk.node < n := by
  induction n with
  | zero =>
    exact ⟨exampleList, .init exampleList_init, represented_init exampleList_init, rfl, rfl, nofun⟩
  | succ n ih =>
    obtain ⟨s, hreach, hrep, hlen, hgens, hnode⟩ := ih (by omega)
    have hallow : Allowed s (.addTask (some n) n .write) :=
      ⟨fun tk htk => Nat.ne_of_lt (hnode tk htk), nofun⟩
    have hroom : RoomForTask s (.addTask (some n) n .write) := by
      show s.live.length + 1 < 2 ^ 32
      omega
    obtain ⟨fuel, hret⟩ := hrep.exec hallow hroom
    obtain ⟨u, hu, hrepu, -⟩ := hret fuel le_rfl
    obtain ⟨p, -, hp⟩ := bind_eq_ok.mp hu
    obtain ⟨tk, htk, hulive⟩ : ∃ tk : Ticket, (tk.node = n ∧ tk.gen = s.lastGen + 1) ∧
        u.live = s.live ++ [tk] := by
      obtain rfl := Except.ok.inj hp
      exact ⟨_, ⟨rfl, by simp [ListState.nextGen]⟩, rfl⟩
    refine ⟨u, hreach.step ⟨hallow, fuel, hu⟩, hrepu, by simp [hulive, hlen], ?_, fun v hv => ?_⟩
    · -- the new generation is behind all others
      have hbound : tk.gen ∉ genSet s.live := by
        obtain ⟨md, A, W, hr, -⟩ := hrep
        rw [mem_genSet]
        rintro ⟨v, hv, heq⟩
        have := hr.bound v hv
        omega
      have hcard := hrepu.metadataOk.numGens
      have hcards := hrep.metadataOk.numGens
      change u.md.numGens = (genSet u.live).card at hcard
      change s.md.numGens = (genSet s.live).card at hcards
      rw [hcard, hulive, genSet_append, genSet_cons, genSet_nil, Finset.union_comm]
      show (insert tk.gen (genSet s.live)).card = n + 1
      rw [Finset.card_insert_of_notMem hbound, ← hcards, hgens]
    · rw [hulive] at hv
      rcases List.mem_append.mp hv with hv | hv
      · exact Nat.lt_succ_of_lt (hnode v hv)
      · rw [List.mem_singleton.mp hv, htk.1]
        exact Nat.lt_succ_self n

/-- A writer always starts a generation. -/
theorem addFrame_write_numGens (m : ObjMetadata) (tags : NodeId) :
    (addFrame m tags Group.write.bits).1.numGens = (m.numGens + 1) % 2 ^ 32 := by
  have hpush : (Group.write.bits &&& (m.youngestGroup &&& groupNotWrite) == 0) = true := by
    rw [Nat.and_comm m.youngestGroup, ← Nat.and_assoc, beq_iff_eq]
    exact Nat.zero_and _
  simp only [addFrame, hpush]
  split <;> rfl

/-- When the number of live generations no longer fits `num_gens`, the assertion
at the end of `add_task` fails. -/
theorem assertion_fails : ¬ ∀ s, taskListSystem.Reachable s → ∀ e, Allowed s e →
    ∃ t, taskListSystem.step s e t := by
  intro h
  obtain ⟨s, tags, hreach, hgens, htags⟩ : ∃ s tags, taskListSystem.Reachable s ∧
      (s.md.numGens + 1) % 2 ^ 32 = 0 ∧ ∀ tk ∈ s.live, tk.node ≠ tags := by
    obtain ⟨s, hreach, -, -, hgens, hnode⟩ := exists_writers (2 ^ 32 - 1) (by decide)
    have hwrap : (2 ^ 32 - 1 + 1) % 2 ^ 32 = 0 := by decide
    exact ⟨s, _, hreach, (congrArg (fun n => (n + 1) % 2 ^ 32) hgens).trans hwrap,
      fun tk htk => Nat.ne_of_lt (hnode tk htk)⟩
  obtain ⟨t, -, fuel, hok⟩ := h s hreach (.addTask (some 0) tags .write) ⟨htags, nofun⟩
  obtain ⟨p, hp, -⟩ := bind_eq_ok.mp hok
  simp only [addTaskMem, reduceCtorEq, if_false] at hp
  obtain ⟨_, -, hp⟩ := bind_eq_ok.mp hp
  obtain ⟨_, hpos, -⟩ := bind_eq_ok.mp hp
  have hpos := of_decide_eq_true (assert_eq_ok.mp hpos)
  rw [addFrame_write_numGens, storeTask, hgens] at hpos
  exact Nat.lt_irrefl 0 hpos

end SwanRuntime.Dataflow
