import SwanRuntime.Workers.NumaSlots

/-!
# Workers — the NUMA node of a worker

`make_worker` leaves `numa_node` as `malloc` has returned it. A system worker sets it
when it enters the scheduler, before it does anything else. The user workers enter the
scheduler through the same function, which does not set it for them, and nothing else
does; some never enter the scheduler. But they read it like the system workers do,
when they look for a frame with a range of nodes, and when they execute a loop.

## Results

* `WorkersOk.step`     — a step keeps what is known about the workers.
* `numaNode_defined_iff` — which reads find a node.
-/

namespace SwanRuntime.Workers

-- ---------------------------------------------------------------------------
-- The code
-- ---------------------------------------------------------------------------

/-- `worker_type`. -/
inductive WorkerType
  | free
  | system
  | user
deriving DecidableEq, Repr

/-- A worker: `none` is what has not been assigned since `make_worker`. `scheduling`
says that it has entered the scheduler. -/
structure Worker where
  type       : WorkerType
  numaNode   : Option ℕ
  scheduling : Bool
deriving DecidableEq, Repr

/-- `make_worker`. -/
def makeWorker : Worker := ⟨.free, none, false⟩

/-- `make_worker_system`. -/
def makeWorkerSystem (w : Worker) : Worker := { w with type := .system }

/-- The workers that the global state knows, and those that have been made because
all of these were in use. -/
structure WorkersState where
  workers  : List Worker
  overflow : List Worker
deriving DecidableEq, Repr

/-- `init_workers`, with as many places for user workers. -/
def initWorkers (T : Topology) (userWorkers : ℕ) : WorkersState where
  workers := List.replicate T.systemWorkers (makeWorkerSystem makeWorker) ++
    List.replicate userWorkers makeWorker
  overflow := []

/-- The part of `worker_scheduler_init_function` about the node, with the node that is
returned to the worker if it asks. -/
def workerSchedulerInitFunction (T : Topology) (node : ℤ) (w : Worker) : Worker :=
  { w with
    numaNode := if w.type = .system then some (T.checkNode node) else w.numaNode
    scheduling := true }

/-- The loop of `find_free_worker`. -/
def bindFirstFree : List Worker → Option (List Worker)
  | [] => none
  | w :: ws =>
    if w.type = .free then some ({ w with type := .user } :: ws)
    else (bindFirstFree ws).map (w :: ·)

/-- `find_free_worker`. -/
def findFreeWorker (s : WorkersState) : WorkersState :=
  match bindFirstFree s.workers with
  | some workers => { s with workers := workers }
  | none => { s with overflow := s.overflow ++ [{ makeWorker with type := .user }] }

/-- `__cilkrts_get_worker_numa`. -/
def getWorkerNuma (w : Worker) : Option ℕ := w.numaNode

/-- `match_numa_range`. -/
def matchNumaRange (w : Worker) (numaLow numaHigh : ℤ) : Option Bool :=
  (getWorkerNuma w).map fun myNuma => numaLow ≤ myNuma ∧ myNuma < numaHigh

/-- `match_numa_sf`, where `numa` says that `CILK_FRAME_NUMA` is set. -/
def matchNumaSf (w : Worker) (numa : Bool) (numaLow numaHigh : ℤ) : Option Bool :=
  if numa then matchNumaRange w numaLow numaHigh else some true

/-- `match_numa_pf`. -/
def matchNumaPf (w : Worker) (numaLow numaHigh : ℤ) : Option Bool :=
  if numaLow ≠ numaHigh then matchNumaRange w numaLow numaHigh else some true

-- ---------------------------------------------------------------------------
-- The system
-- ---------------------------------------------------------------------------

/-- A pointer to a worker. -/
inductive WorkerRef
  | worker (i : ℕ)
  | overflow (i : ℕ)
deriving DecidableEq, Repr

def WorkersState.get? (s : WorkersState) : WorkerRef → Option Worker
  | .worker i => s.workers[i]?
  | .overflow i => s.overflow[i]?

def WorkersState.set (s : WorkersState) (ref : WorkerRef) (w : Worker) : WorkersState :=
  match ref with
  | .worker i => { s with workers := s.workers.set i w }
  | .overflow i => { s with overflow := s.overflow.set i w }

/-- A thread is bound to a worker, or unbound; a worker enters the scheduler; it looks
at a stack frame or a pending frame that it might steal; it enters
`cilk_for_root_static`; or it splits a range in `cilk_for_numa_recursive`. -/
inductive WorkerEvent
  | bind
  | unbind (ref : WorkerRef)
  | schedule (ref : WorkerRef) (node : ℤ)
  | matchSf (ref : WorkerRef) (numa : Bool) (numaLow numaHigh : ℤ)
  | matchPf (ref : WorkerRef) (numaLow numaHigh : ℤ)
  | rootStatic (ref : WorkerRef)
  | numaSplit (ref : WorkerRef)
deriving DecidableEq, Repr

/-- The worker whose `numa_node` is read. A test reads it if it has no result for a worker
without a node. -/
def WorkerEvent.reads : WorkerEvent → Option WorkerRef
  | .matchSf ref numa numaLow numaHigh =>
    if (matchNumaSf makeWorker numa numaLow numaHigh).isNone then some ref else none
  | .matchPf ref numaLow numaHigh =>
    if (matchNumaPf makeWorker numaLow numaHigh).isNone then some ref else none
  | .rootStatic ref | .numaSplit ref => some ref
  | _ => none

/-- What happens. A system worker enters the scheduler once; a user worker that the
global state knows may do so while it is bound. Frames are stolen in the scheduler,
and loops are executed by user workers and by those that have stolen something. -/
def WorkerStep (T : Topology) (s : WorkersState) : WorkerEvent → WorkersState → Prop
  | .bind, t => t = findFreeWorker s
  | .unbind (.worker i), t =>
    ∃ w, s.get? (.worker i) = some w ∧ w.type = .user ∧
      t = s.set (.worker i) { w with type := .free }
  | .unbind (.overflow i), t =>
    ∃ w, s.get? (.overflow i) = some w ∧ t = { s with overflow := s.overflow.eraseIdx i }
  | .schedule (.worker i) node, t =>
    ∃ w, s.get? (.worker i) = some w ∧
      (w.type = .system ∧ w.scheduling = false ∨ w.type = .user) ∧
      t = s.set (.worker i) (workerSchedulerInitFunction T node w)
  | .schedule (.overflow _) _, _ => False
  | .matchSf ref _ _ _, t | .matchPf ref _ _, t =>
    (∃ w, s.get? ref = some w ∧ w.scheduling = true) ∧ t = s
  | .rootStatic ref, t | .numaSplit ref, t =>
    (∃ w, s.get? ref = some w ∧ (w.type = .user ∨ w.scheduling = true)) ∧ t = s

def workerSystem (T : Topology) (userWorkers : ℕ) : LTS WorkersState WorkerEvent where
  init s := s = initWorkers T userWorkers
  step := WorkerStep T

/-- The read finds a node that has been assigned, and that there is. -/
def Defined (T : Topology) (s : WorkersState) (e : WorkerEvent) : Prop :=
  ∀ ref, e.reads = some ref →
    ∃ w node, s.get? ref = some w ∧ getWorkerNuma w = some node ∧ node < T.numaNodes

/-- The reader is a system worker. -/
def BySystem (s : WorkersState) (e : WorkerEvent) : Prop :=
  ∀ ref, e.reads = some ref → ∀ w, s.get? ref = some w → w.type = .system

-- ---------------------------------------------------------------------------
-- Runs
-- ---------------------------------------------------------------------------

/-- A system worker in the scheduler has a node, a user worker never has. -/
structure WorkerOk (T : Topology) (w : Worker) : Prop where
  system : w.type = .system → w.scheduling = true →
    ∃ node, getWorkerNuma w = some node ∧ node < T.numaNodes
  user   : w.type ≠ .system → getWorkerNuma w = none

/-- All workers are as they should be. -/
def WorkersOk (T : Topology) (s : WorkersState) : Prop :=
  ∀ ref w, s.get? ref = some w → WorkerOk T w

section Runs

variable {T : Topology} {s t : WorkersState} {w : Worker} {ref : WorkerRef} {e : WorkerEvent}

/-- The type of a worker that is no system worker changes. -/
theorem WorkerOk.setType (h : WorkerOk T w) (hold : w.type ≠ .system) {type : WorkerType}
    (hnew : type ≠ .system) : WorkerOk T { w with type := type } :=
  ⟨fun heq => absurd heq hnew, fun _ => h.user hold⟩

theorem WorkerOk.schedule (h : WorkerOk T w) (node : ℤ) :
    WorkerOk T (workerSchedulerInitFunction T node w) := by
  unfold workerSchedulerInitFunction
  by_cases hsystem : w.type = .system
  · rw [if_pos hsystem]
    exact ⟨fun _ _ => ⟨_, rfl, checkNode_lt T node⟩, fun hne => absurd hsystem hne⟩
  · rw [if_neg hsystem]
    exact ⟨fun heq => absurd heq hsystem, fun _ => h.user hsystem⟩

theorem workerOk_makeWorker (T : Topology) {type : WorkerType} :
    WorkerOk T { makeWorker with type := type } :=
  ⟨fun _ hscheduling => absurd hscheduling Bool.false_ne_true, fun _ => rfl⟩

theorem bindFirstFree_ok {ws ws' : List Worker} (h : bindFirstFree ws = some ws')
    (hok : ∀ w ∈ ws, WorkerOk T w) : ∀ w ∈ ws', WorkerOk T w := by
  induction ws generalizing ws' with
  | nil => exact nomatch h
  | cons w ws ih =>
    obtain ⟨hw, hws⟩ := List.forall_mem_cons.mp hok
    unfold bindFirstFree at h
    split at h
    · rename_i hfree
      obtain rfl := Option.some.inj h
      refine List.forall_mem_cons.mpr ⟨hw.setType ?_ ?_, hws⟩
      · rw [hfree]
        decide
      · decide
    · obtain ⟨rest, hrest, rfl⟩ := Option.map_eq_some_iff.mp h
      exact List.forall_mem_cons.mpr ⟨hw, ih hrest hws⟩

theorem workersOk_iff : WorkersOk T s ↔
    (∀ w ∈ s.workers, WorkerOk T w) ∧ ∀ w ∈ s.overflow, WorkerOk T w := by
  constructor
  · intro h
    refine ⟨fun w hw => ?_, fun w hw => ?_⟩
    · obtain ⟨i, hi⟩ := List.mem_iff_getElem?.mp hw
      exact h (.worker i) w hi
    · obtain ⟨i, hi⟩ := List.mem_iff_getElem?.mp hw
      exact h (.overflow i) w hi
  · rintro ⟨hworkers, hoverflow⟩ ref w hw
    cases ref with
    | worker i => exact hworkers w (List.mem_of_getElem? hw)
    | overflow i => exact hoverflow w (List.mem_of_getElem? hw)

theorem WorkersOk.set (h : WorkersOk T s) (hw : WorkerOk T w) : WorkersOk T (s.set ref w) := by
  obtain ⟨hworkers, hoverflow⟩ := workersOk_iff.mp h
  cases ref with
  | worker i =>
    refine workersOk_iff.mpr ⟨fun v hv => ?_, hoverflow⟩
    rcases List.mem_or_eq_of_mem_set hv with hv | rfl
    · exact hworkers v hv
    · exact hw
  | overflow i =>
    refine workersOk_iff.mpr ⟨hworkers, fun v hv => ?_⟩
    rcases List.mem_or_eq_of_mem_set hv with hv | rfl
    · exact hoverflow v hv
    · exact hw

/-- A step keeps what is known about the workers. -/
theorem WorkersOk.step (h : WorkersOk T s) (hstep : WorkerStep T s e t) : WorkersOk T t := by
  obtain ⟨hworkers, hoverflow⟩ := workersOk_iff.mp h
  cases e with
  | bind =>
    obtain rfl := hstep
    unfold findFreeWorker
    cases hfirst : bindFirstFree s.workers with
    | some workers => exact workersOk_iff.mpr ⟨bindFirstFree_ok hfirst hworkers, hoverflow⟩
    | none =>
      refine workersOk_iff.mpr ⟨hworkers, fun v hv => ?_⟩
      rcases List.mem_append.mp hv with hv | hv
      · exact hoverflow v hv
      · obtain rfl := List.mem_singleton.mp hv
        exact workerOk_makeWorker T
  | unbind ref =>
    cases ref with
    | worker i =>
      obtain ⟨w, hget, huser, rfl⟩ := hstep
      refine h.set ((h _ w hget).setType ?_ ?_)
      · rw [huser]
        decide
      · decide
    | overflow i =>
      obtain ⟨w, -, rfl⟩ := hstep
      exact workersOk_iff.mpr ⟨hworkers, fun v hv => hoverflow v (List.mem_of_mem_eraseIdx hv)⟩
  | schedule ref node =>
    cases ref with
    | worker i =>
      obtain ⟨w, hget, -, rfl⟩ := hstep
      exact h.set ((h _ w hget).schedule node)
    | overflow i => exact hstep.elim
  | matchSf | matchPf | rootStatic | numaSplit =>
    obtain ⟨-, rfl⟩ := hstep
    exact h

/-- A worker that reads its node is a user worker or in the scheduler. -/
theorem reader_of_step (hstep : WorkerStep T s e t) (hreads : e.reads = some ref) :
    ∃ w, s.get? ref = some w ∧ (w.type = .user ∨ w.scheduling = true) := by
  cases e with
  | bind | unbind | schedule => exact nomatch hreads
  | matchSf ref' numa =>
    obtain ⟨⟨w, hget, hscheduling⟩, -⟩ := hstep
    cases numa with
    | false => cases hreads
    | true =>
      obtain rfl : ref' = ref := Option.some.inj hreads
      exact ⟨w, hget, .inr hscheduling⟩
  | matchPf ref' numaLow numaHigh =>
    obtain ⟨⟨w, hget, hscheduling⟩, -⟩ := hstep
    unfold WorkerEvent.reads at hreads
    dsimp only at hreads
    split at hreads
    · obtain rfl := Option.some.inj hreads
      exact ⟨w, hget, .inr hscheduling⟩
    · cases hreads
  | rootStatic ref' | numaSplit ref' =>
    obtain ⟨⟨w, hget, hruns⟩, -⟩ := hstep
    obtain rfl : ref' = ref := Option.some.inj hreads
    exact ⟨w, hget, hruns⟩

/-- A read finds a node iff the reader is a system worker. -/
theorem WorkersOk.defined_iff (h : WorkersOk T s) (hstep : WorkerStep T s e t) :
    Defined T s e ↔ BySystem s e := by
  constructor
  · intro hdefined ref hreads w hget
    obtain ⟨w', node, hget', hnode, -⟩ := hdefined ref hreads
    obtain rfl := Option.some.inj (hget.symm.trans hget')
    by_contra huser
    exact nomatch hnode.symm.trans ((h ref w hget).user huser)
  · intro hsystem ref hreads
    obtain ⟨w, hget, hruns⟩ := reader_of_step hstep hreads
    have htype := hsystem ref hreads w hget
    have hscheduling : w.scheduling = true := by
      refine hruns.resolve_left fun huser => ?_
      rw [htype] at huser
      exact absurd huser (by decide)
    obtain ⟨node, hnode, hlt⟩ := (h ref w hget).system htype hscheduling
    exact ⟨w, node, hget, hnode, hlt⟩

theorem workersOk_init (T : Topology) (userWorkers : ℕ) :
    WorkersOk T (initWorkers T userWorkers) := by
  refine workersOk_iff.mpr ⟨fun w hw => ?_, nofun⟩
  rcases List.mem_append.mp hw with hw | hw
  · obtain ⟨-, rfl⟩ := List.mem_replicate.mp hw
    exact workerOk_makeWorker T
  · obtain ⟨-, rfl⟩ := List.mem_replicate.mp hw
    exact workerOk_makeWorker T

/-- In a run of any number of workers, all reads find a node iff all readers are
system workers. -/
theorem numaNode_defined_iff (T : Topology) (userWorkers : ℕ) (s : WorkersState)
    (tr : List (WorkerEvent × WorkersState)) (hinit : (workerSystem T userWorkers).init s)
    (hpath : (workerSystem T userWorkers).IsPath s tr) :
    LTS.AllSteps (Defined T) s tr ↔ LTS.AllSteps BySystem s tr := by
  obtain rfl := hinit
  exact LTS.allSteps_iff (P := WorkersOk T) (fun _ _ _ h hstep => h.step hstep)
    (fun _ _ _ h hstep => h.defined_iff hstep) (workersOk_init T userWorkers) hpath

/-- A system worker starts and looks at a frame for its node. -/
theorem numaNode_defined_system :
    let T : Topology := ⟨2, 1, by decide⟩
    let s : WorkersState := ⟨[⟨.system, some 1, true⟩, makeWorker], []⟩
    let tr : List (WorkerEvent × WorkersState) :=
      [(.schedule (.worker 0) 1, s), (.matchPf (.worker 0) 1 2, s)]
    LTS.AllSteps (Defined T) (initWorkers T 1) tr ↔ LTS.AllSteps BySystem (initWorkers T 1) tr :=
  numaNode_defined_iff _ 1 _ _ rfl
    ⟨⟨_, rfl, .inl ⟨rfl, rfl⟩, rfl⟩, ⟨⟨_, rfl, rfl⟩, rfl⟩, trivial⟩

/-- A thread that is bound enters `cilk_for_root_static` with no node. -/
theorem numaNode_undefined :
    let T : Topology := ⟨2, 1, by decide⟩
    let s : WorkersState := ⟨[⟨.system, none, false⟩, ⟨.user, none, false⟩], []⟩
    (workerSystem T 1).IsPath (initWorkers T 1)
        [(.bind, s), (.rootStatic (.worker 1), s)] ∧
      ¬ LTS.AllSteps (Defined T) (initWorkers T 1) [(.bind, s), (.rootStatic (.worker 1), s)] := by
  refine ⟨⟨rfl, ⟨⟨_, rfl, .inl rfl⟩, rfl⟩, trivial⟩, ?_⟩
  rintro ⟨-, hread, -⟩
  obtain ⟨w, node, hget, hnode, -⟩ := hread (.worker 1) rfl
  obtain rfl := Option.some.inj hget
  exact nomatch hnode

end Runs

end SwanRuntime.Workers
