import SwanRuntime.Fibers.Accounting
import SwanRuntime.Settings.Parameters

/-!
# Fibers — configurations of the pools

The sizes of the pools come from the settings. When there is a limit on the number
of stacks, every pool has at least one place. Without one, the user's size of the
workers' pools is taken as it is, and 0 is accepted: the first fiber that is
released then finds its pool full with no fiber in it, the number of fibers to keep,
one less than the size, wraps around, and the assertion that there is now room
fails.

## Results

* `releaseChild_ok`         — releasing a fiber to a pool that has a place.
* `configuration_usable_iff` — which configurations can be used.
-/

namespace SwanRuntime.Fibers

open Settings

-- ---------------------------------------------------------------------------
-- The system
-- ---------------------------------------------------------------------------

/-- A call that a worker makes: it allocates from its own pool, releases to it, or
to the heap, and its pool is destroyed at the end. -/
def Event.ByWorker : Event → Prop
  | .allocate (.child _) _ _ | .removeReference _ (.child _) | .removeReference _ .null
  | .destroy _ => True
  | _ => False

/-- The pools that `init_workers` makes from the settings. -/
def initWorkers (g : UserSettings) : State where
  root := .init g.globalFiberPoolSize.toNat (if g.maxStacks ≠ 0 then g.maxStacks else intMax)
  children := List.replicate g.totalWorkers.toNat (.init g.fiberPoolSize.toNat 0)
  inUse := []

/-- The pools of the workers in use. -/
def workerPools (g : UserSettings) : LTS State Event where
  init s := s = initWorkers g
  step s e t := e.ByWorker ∧ Step s e t

/-- No assertion about the pools fails at the next call, whoever makes it, and the
numbers of fibers to keep have not wrapped around. -/
structure Usable (s : State) : Prop where
  release : ∀ pool ∈ s.children, ∀ fiber ∈ s.inUse,
    ∃ out, pool.deallocateSelfChild s.root fiber = .ok out
  destroy : ∀ pool ∈ s.children, ∃ out, pool.destroy s.root = .ok out
  root    : ∃ out, s.root.freeFibersFromPool 0 none = .ok out
  keep    : ∀ pool ∈ s.children, s.inUse ≠ [] → pool.maxSize ≤ pool.size →
    ((FiberPool.lessOne pool.maxSize : Nat) : Int) = pool.maxSize - 1 ∧
      pool.maxSize / 2 + pool.maxSize / 4 < 2 ^ 32

-- ---------------------------------------------------------------------------
-- Sizes
-- ---------------------------------------------------------------------------

namespace FiberPool

/-- Moving fibers keeps the sizes. -/
theorem moveFibersToParentPool_sizes (pool parent : FiberPool) (numToKeep : Nat)
    (hparent : parent.size ≤ parent.maxSize) :
    let out := pool.moveFibersToParentPool parent numToKeep
    out.1.maxSize = pool.maxSize ∧ out.1.size ≤ pool.size ∧
      out.2.maxSize = parent.maxSize ∧ out.2.size ≤ parent.maxSize := by
  unfold moveFibersToParentPool
  by_cases hfull : parent.size ≥ parent.maxSize
  · rw [if_pos hfull]
    exact ⟨rfl, Nat.le_refl _, rfl, hparent⟩
  · rw [if_neg hfull]
    obtain ⟨-, hlen, hlen'⟩ := moveFibers_spec parent.maxSize numToKeep pool.fibers parent.fibers
    unfold size at *
    dsimp only
    split
    · refine ⟨rfl, ?_, rfl, ?_⟩ <;> dsimp only <;> omega
    · refine ⟨rfl, ?_, rfl, ?_⟩ <;> dsimp only <;> omega

/-- Freeing fibers keeps the size, when there is a place for the one returned. -/
theorem freeFibersFromPool_sizes (pool : FiberPool) (numToKeep : Nat) (fiber : Fiber)
    (hroom : numToKeep < pool.maxSize) :
    ∃ pool' freed, pool.freeFibersFromPool numToKeep (some fiber) = .ok (pool', freed) ∧
      pool'.maxSize = pool.maxSize ∧ pool'.size ≤ pool.maxSize := by
  refine ⟨_, _, freeFibersFromPool_ok pool numToKeep fun _ => hroom, rfl, ?_⟩
  show (fiber :: pool.fibers.drop _).length ≤ pool.maxSize
  rw [List.length_cons, List.length_drop]
  unfold size
  omega

/-- A fiber that is released finds a place, if the pool has one at all, whatever the
size of the global pool. -/
theorem releaseChild_ok (pool parent : FiberPool) (fiber : Fiber) (h : pool.Fits)
    (hparent : parent.size ≤ parent.maxSize) :
    ∃ pool' parent' freed,
      pool.deallocateSelfChild parent fiber = .ok (pool', parent', freed) ∧
      pool'.maxSize = pool.maxSize ∧ pool'.Fits ∧ parent'.size ≤ parent'.maxSize := by
  have hpos := h.pos
  unfold deallocateSelfChild
  by_cases hspace : pool.size < pool.maxSize
  · rw [if_pos hspace]
    exact ⟨_, _, _, rfl, rfl, ⟨hpos, hspace⟩, hparent⟩
  · rw [if_neg hspace]
    obtain ⟨hmax, hsize, hmax', hsize'⟩ :=
      moveFibersToParentPool_sizes pool parent (pool.maxSize / 2 + pool.maxSize / 4) hparent
    dsimp only
    generalize pool.moveFibersToParentPool parent (pool.maxSize / 2 + pool.maxSize / 4) = moved
      at hmax hsize hmax' hsize' ⊢
    obtain ⟨pool₁, parent₁⟩ := moved
    dsimp only at *
    obtain ⟨pool', freed, hrun, hsame, hfits⟩ :=
      freeFibersFromPool_sizes pool₁ (lessOne pool₁.maxSize) fiber (by
        rw [lessOne_of_pos (by omega)]
        omega)
    refine ⟨pool', parent₁, freed, ?_, hsame.trans hmax, ⟨by omega, by omega⟩, by omega⟩
    rw [hrun]
    rfl

/-- A pool without places takes no fiber. -/
theorem freeFibersFromPool_error (pool : FiberPool) (numToKeep : Nat) (fiber : Fiber)
    (hmax : pool.maxSize = 0) (hempty : pool.size = 0) :
    pool.freeFibersFromPool numToKeep (some fiber) = .error "pool->size < pool->max_size" := by
  have hsize := takeBatch_size pool numToKeep
  have hmax' : (pool.takeBatch numToKeep).1.maxSize = 0 := hmax
  have hfull : decide ((pool.takeBatch numToKeep).1.size < (pool.takeBatch numToKeep).1.maxSize) =
      false := by
    rw [hmax']
    exact decide_eq_false (Nat.not_lt_zero _)
  rw [freeFibersFromPool, if_pos (by omega)]
  dsimp only
  rw [hfull, Checked.assert_false]
  rfl

/-- So the assertion fails for every fiber that is released to it. -/
theorem releaseChild_error (pool parent : FiberPool) (fiber : Fiber) (hmax : pool.maxSize = 0)
    (hempty : pool.size = 0) (hparent : parent.size ≤ parent.maxSize) :
    pool.deallocateSelfChild parent fiber = .error "pool->size < pool->max_size" := by
  obtain ⟨hmax', hsize', -, -⟩ :=
    moveFibersToParentPool_sizes pool parent (pool.maxSize / 2 + pool.maxSize / 4) hparent
  unfold deallocateSelfChild
  rw [if_neg (by omega)]
  dsimp only
  rw [freeFibersFromPool_error _ _ fiber (hmax'.trans hmax) (by omega)]
  rfl

/-- Destroying a pool never fails. -/
theorem destroy_sizes (pool parent : FiberPool) (hparent : parent.size ≤ parent.maxSize) :
    ∃ pool' parent' freed, pool.destroy parent = .ok (pool', parent', freed) ∧
      parent'.size ≤ parent'.maxSize := by
  obtain ⟨hmax, hsize, hmax', hsize'⟩ := moveFibersToParentPool_sizes pool parent 0 hparent
  unfold destroy
  generalize pool.moveFibersToParentPool parent 0 = moved at hmax hsize hmax' hsize' ⊢
  obtain ⟨pool₁, parent₁⟩ := moved
  dsimp only at *
  rw [@freeFibersFromPool_ok pool₁ 0 none fun h => absurd rfl h]
  exact ⟨_, parent₁, _, rfl, by omega⟩

/-- Allocating keeps the sizes. -/
theorem allocate_sizes (pool : FiberPool) (heap : Option Fiber) :
    (pool.allocate heap).2.maxSize = pool.maxSize ∧ (pool.allocate heap).2.size ≤ pool.size := by
  obtain ⟨hmax, -, ⟨fiber, -, hfibers, -⟩ | ⟨fiber, -, -, hfibers, -⟩ | ⟨-, hfibers, -⟩⟩ :=
    allocate_cases pool heap
  · refine ⟨hmax, ?_⟩
    unfold size
    rw [hfibers]
    exact Nat.le_succ _
  · exact ⟨hmax, by unfold size; rw [hfibers]⟩
  · exact ⟨hmax, by unfold size; rw [hfibers]⟩

end FiberPool

-- ---------------------------------------------------------------------------
-- Runs
-- ---------------------------------------------------------------------------

/-- The workers' pools have `n` places, and no pool has more fibers than places. -/
structure Configured (n : Nat) (s : State) : Prop where
  children : ∀ pool ∈ s.children, pool.maxSize = n ∧ pool.Fits
  root     : s.root.size ≤ s.root.maxSize

section Runs

variable {n : Nat} {s t : State} {e : Event}

/-- Replacing a pool by one that fits. -/
theorem Configured.replace (h : Configured n s) {before after : List FiberPool}
    {pool pool' root : FiberPool} {inUse : List Fiber}
    (hchildren : s.children = before ++ pool :: after)
    (hpool : pool'.maxSize = n ∧ pool'.Fits) (hroot : root.size ≤ root.maxSize) :
    Configured n ⟨root, before ++ pool' :: after, inUse⟩ := by
  refine ⟨fun other hother => ?_, hroot⟩
  rcases List.mem_append.mp hother with hbefore | hafter
  · exact h.children other (hchildren ▸ List.mem_append_left _ hbefore)
  · rcases List.mem_cons.mp hafter with rfl | hafter
    · exact hpool
    · exact h.children other
        (hchildren ▸ List.mem_append_right _ (List.mem_cons_of_mem _ hafter))

theorem Configured.step (h : Configured n s) (hworker : e.ByWorker) (hstep : Step s e t) :
    Configured n t := by
  cases e with
  | makeChild maxSize => exact hworker.elim
  | allocate pool heap parentHeap =>
    cases pool with
    | null => exact hworker.elim
    | root => exact hworker.elim
    | child i =>
      obtain ⟨-, -, before, pool, after, hchildren, -, hcase⟩ := hstep
      have hmem : pool ∈ s.children := hchildren ▸ List.mem_append_right _ List.mem_cons_self
      obtain ⟨hmax, hfits⟩ := h.children pool hmem
      obtain ⟨hsame, hsize⟩ := pool.allocate_sizes heap
      obtain ⟨hrootSame, hrootSize⟩ := s.root.allocate_sizes parentHeap
      have hpool : (pool.allocate heap).2.maxSize = n ∧ (pool.allocate heap).2.Fits :=
        ⟨hsame.trans hmax, ⟨hsame ▸ hfits.pos, hsame ▸ hsize.trans hfits.size⟩⟩
      have hroot : (s.root.allocate parentHeap).2.size ≤ (s.root.allocate parentHeap).2.maxSize :=
        hrootSame ▸ hrootSize.trans h.root
      generalize pool.allocate heap = out at hcase hpool
      obtain ⟨got, pool'⟩ := out
      cases got with
      | some fiber =>
        obtain rfl := hcase
        exact h.replace hchildren hpool h.root
      | none =>
        obtain rfl := hcase
        exact h.replace hchildren hpool hroot
  | removeReference fiber pool =>
    cases pool with
    | null =>
      obtain ⟨-, rfl⟩ := hstep
      exact ⟨h.children, h.root⟩
    | root => exact hworker.elim
    | child i =>
      obtain ⟨-, before, pool, after, hchildren, -, pool', root, freed, hrun, rfl⟩ := hstep
      have hmem : pool ∈ s.children := hchildren ▸ List.mem_append_right _ List.mem_cons_self
      obtain ⟨hmax, hfits⟩ := h.children pool hmem
      obtain ⟨_, _, _, hrun', hsame, hfits', hroot⟩ :=
        pool.releaseChild_ok s.root fiber hfits h.root
      obtain ⟨rfl, rfl, rfl⟩ : _ = pool' ∧ _ = root ∧ _ = freed := by
        simpa using Except.ok.inj (hrun'.symm.trans hrun)
      exact h.replace hchildren ⟨hsame.trans hmax, hfits'⟩ hroot
  | destroy i =>
    obtain ⟨before, pool, after, hchildren, -, pool', root, freed, hrun, rfl⟩ := hstep
    obtain ⟨_, _, _, hrun', hroot⟩ := pool.destroy_sizes s.root h.root
    obtain ⟨rfl, rfl, rfl⟩ : _ = pool' ∧ _ = root ∧ _ = freed := by
      simpa using Except.ok.inj (hrun'.symm.trans hrun)
    refine ⟨fun other hother => h.children other ?_, hroot⟩
    rw [hchildren]
    exact (List.mem_append.mp hother).elim (List.mem_append_left _)
      fun hafter => List.mem_append_right _ (List.mem_cons_of_mem _ hafter)

theorem Configured.usable (h : Configured n s) (hn : n < 2 ^ 32) : Usable s where
  release pool hpool fiber _ := by
    obtain ⟨_, _, _, hrun, -⟩ :=
      pool.releaseChild_ok s.root fiber (h.children pool hpool).2 h.root
    exact ⟨_, hrun⟩
  destroy pool _ := by
    obtain ⟨_, _, _, hrun, -⟩ := pool.destroy_sizes s.root h.root
    exact ⟨_, hrun⟩
  root := ⟨_, FiberPool.freeFibersFromPool_ok s.root 0 fun hnone => absurd rfl hnone⟩
  keep pool hpool _ _ := by
    obtain ⟨hmax, hfits⟩ := h.children pool hpool
    have hpos := hfits.pos
    rw [FiberPool.lessOne_of_pos hpos]
    exact ⟨by omega, by omega⟩

/-- The workers' pools have a place each iff there is a limit on the stacks or the
user has not set their size to 0. -/
theorem fiberPoolSize_pos_iff {p : Platform} {s : SettingsState} (h : SettingsInRange p s) :
    0 < (cilkgInitGlobalState s.settings).fiberPoolSize ↔
      0 < s.settings.maxStacks ∨ 0 < s.settings.fiberPoolSize := by
  obtain ⟨hlocal, -⟩ := h.localStacks
  unfold cilkgInitGlobalState
  by_cases hlimit : s.settings.maxStacks > 0
  · rw [if_pos hlimit]
    dsimp only
    exact ⟨fun _ => .inl hlimit, fun _ => by split <;> omega⟩
  · rw [if_neg hlimit]
    exact ⟨.inr, fun hor => hor.resolve_left hlimit⟩

/-- There is at least one worker. -/
theorem totalWorkers_pos {p : Platform} {s : SettingsState} (h : SettingsInRange p s) :
    0 < (cilkgInitGlobalState s.settings).totalWorkers := by
  obtain ⟨hP, -⟩ := h.nworkers
  unfold cilkgInitGlobalState calcMaxUserWorkers
  dsimp only
  by_cases hlimit : s.settings.maxStacks > 0
  · rw [if_pos hlimit]
    dsimp only
    split <;> omega
  · rw [if_neg hlimit]
    split <;> omega

/-- No fiber exists at first. -/
theorem live_initWorkers (g : UserSettings) : (initWorkers g).live = [] := by
  have hfibers : ∀ pool ∈ (initWorkers g).children, pool.fibers = [] := by
    intro pool hpool
    obtain ⟨-, rfl⟩ := List.mem_replicate.mp hpool
    rfl
  exact List.flatMap_eq_nil_iff.mpr hfibers

/-- The first worker can allocate a fiber when nothing has happened yet. -/
theorem exists_allocated {g : UserSettings} (hworkers : 0 < g.totalWorkers)
    (hstacks : 0 ≤ g.maxStacks) :
    ∃ t, (workerPools g).Reachable t ∧ .init g.fiberPoolSize.toNat 0 ∈ t.children ∧
      t.root.size = 0 ∧ 0 ∈ t.inUse := by
  obtain ⟨m, hm⟩ : ∃ m, g.totalWorkers.toNat = m + 1 := ⟨g.totalWorkers.toNat - 1, by omega⟩
  -- no limit on the stacks is the largest one
  have hlimit : 0 < if g.maxStacks ≠ 0 then g.maxStacks else intMax := by
    unfold intMax
    split <;> omega
  have hchild : (FiberPool.init g.fiberPoolSize.toNat 0).allocate none =
      (none, .init g.fiberPoolSize.toNat 0) := rfl
  have hroot : (initWorkers g).root.allocate (some 0) =
      (some 0, (initWorkers g).root.incrementTotal) := if_pos hlimit
  have hempty : (initWorkers g).root.incrementTotal.size = 0 := by
    unfold FiberPool.incrementTotal FiberPool.size
    dsimp only
    split <;> rfl
  refine ⟨⟨((initWorkers g).root.allocate (some 0)).2, .init g.fiberPoolSize.toNat 0 ::
      List.replicate m (.init g.fiberPoolSize.toNat 0),
    ((initWorkers g).root.allocate (some 0)).1.toList⟩, ?_, List.mem_cons_self, ?_, ?_⟩
  · -- the pool of the worker is empty and may not ask the heap, so the global one does
    refine .step (e := .allocate (.child 0) none (some 0)) (.init rfl) ⟨trivial, nofun, ?_, [],
      .init g.fiberPoolSize.toNat 0, List.replicate m (.init g.fiberPoolSize.toNat 0), ?_, rfl, ?_⟩
    · rw [State.Fresh, live_initWorkers]
      exact fun f _ => List.not_mem_nil
    · show List.replicate g.totalWorkers.toNat _ = _
      rw [hm, List.replicate_succ]
      rfl
    · rw [hchild]
      exact congrArg (State.mk _ _) (List.append_nil _).symm
  · rw [hroot]
    exact hempty
  · rw [hroot]
    exact List.mem_cons_self

/-- With settings that have been accepted, the pools can be used for ever iff there
is a limit on the stacks or the size of the workers' pools is not 0. -/
theorem configuration_usable_iff (p : Platform) (s : SettingsState)
    (h : (settingsSystem p).Reachable s) :
    (∀ t, (workerPools (cilkgInitGlobalState s.settings)).Reachable t → Usable t) ↔
      0 < s.settings.maxStacks ∨ 0 < s.settings.fiberPoolSize := by
  have hrange := settings_reachable h
  rw [← fiberPoolSize_pos_iff hrange]
  obtain ⟨-, hsmall⟩ := (hrange.start true).localStacks
  obtain ⟨hstacks, -⟩ := (hrange.start true).nstacks
  dsimp only at hsmall hstacks
  have hworkers := totalWorkers_pos hrange
  generalize cilkgInitGlobalState s.settings = g at hsmall hstacks hworkers ⊢
  constructor
  · intro husable
    by_contra hzero
    have hsize : g.fiberPoolSize.toNat = 0 := by
      omega
    -- the first fiber that is released finds no place
    obtain ⟨t, ht, hchild, hroot, hfiber⟩ := exists_allocated hworkers hstacks
    obtain ⟨out, hrun⟩ := (husable t ht).release _ hchild 0 hfiber
    rw [FiberPool.releaseChild_error _ t.root 0 hsize rfl (by omega)] at hrun
    exact nomatch hrun
  · intro hpos t ht
    -- every pool has room for a fiber for ever
    have hconf : Configured g.fiberPoolSize.toNat t := by
      refine ht.invariant (P := Configured g.fiberPoolSize.toNat) (fun u hu => ?_)
        fun u e v hu hstep => ?_
      · obtain rfl := hu
        refine ⟨fun pool hpool => ?_, Nat.zero_le _⟩
        obtain ⟨-, rfl⟩ := List.mem_replicate.mp hpool
        exact ⟨rfl, ⟨show 1 ≤ g.fiberPoolSize.toNat by omega, Nat.zero_le _⟩⟩
      · obtain ⟨hworker, hstep⟩ := hstep
        exact hu.step hworker hstep
    exact hconf.usable (by omega)

/-- The user has set `nstacks` to 0 and `local stacks` to 2, on four processors: the pools
of the workers can be used. -/
theorem configuration_usable_localStacks :
    let p : Platform := ⟨4, false, false, false, by decide, by decide⟩
    let g₀ := cilkgGetUserSettableValues p (fun _ => none) []
    let g₁ := { g₀ with maxStacks := 0 }
    let g₂ := { g₁ with fiberPoolSize := 2 }
    (settingsSystem p).Reachable ⟨g₂, false⟩ ∧
      ∀ t, (workerPools (cilkgInitGlobalState g₂)).Reachable t → Usable t := by
  intro p g₀ g₁ g₂
  have h₀ : (settingsSystem p).Reachable ⟨g₀, false⟩ := .init ⟨_, _, rfl⟩
  have hnstacks : setParamImp p false g₀ (some "nstacks") (some "0".toList) = (.success, g₁) := by
    decide +kernel
  have hlocal : setParamImp p false g₁ (some "local stacks") (some "2".toList) =
      (.success, g₂) := by
    decide +kernel
  have h₁ : (settingsSystem p).Reachable ⟨g₁, false⟩ :=
    h₀.step (e := .setParam (some "nstacks") (some "0".toList))
      (congrArg (SettingsState.mk · false) (congrArg Prod.snd hnstacks).symm)
  have h₂ : (settingsSystem p).Reachable ⟨g₂, false⟩ :=
    h₁.step (e := .setParam (some "local stacks") (some "2".toList))
      (congrArg (SettingsState.mk · false) (congrArg Prod.snd hlocal).symm)
  exact ⟨h₂, (configuration_usable_iff p _ h₂).mpr (.inr (show (0 : Int) < 2 by decide))⟩

/-- With `nstacks` and `local stacks` set to 0, the first worker allocates a fiber
and cannot release it. -/
theorem configuration_assertion_fails :
    let p : Platform := ⟨4, false, false, false, by decide, by decide⟩
    let g₀ := cilkgGetUserSettableValues p (fun _ => none) []
    let g₁ := { g₀ with maxStacks := 0 }
    let g₂ := { g₁ with fiberPoolSize := 0 }
    setParamImp p false g₀ (some "nstacks") (some "0".toList) = (.success, g₁) ∧
      setParamImp p false g₁ (some "local stacks") (some "0".toList) = (.success, g₂) ∧
      ∃ t, (workerPools (cilkgInitGlobalState g₂)).Reachable t ∧
        ∃ pool ∈ t.children, ∃ fiber ∈ t.inUse,
          pool.deallocateSelfChild t.root fiber = .error "pool->size < pool->max_size" := by
  refine ⟨by decide +kernel, by decide +kernel, ?_⟩
  obtain ⟨t, ht, hchild, hroot, hfiber⟩ := exists_allocated
    (g := cilkgInitGlobalState
      { cilkgGetUserSettableValues ⟨4, false, false, false, by decide, by decide⟩ (fun _ => none) []
        with maxStacks := 0, fiberPoolSize := 0 })
    (by decide +kernel) (by decide +kernel)
  exact ⟨t, ht, _, hchild, 0, hfiber,
    FiberPool.releaseChild_error _ t.root 0 (by decide +kernel) rfl (by omega)⟩

end Runs

end SwanRuntime.Fibers
