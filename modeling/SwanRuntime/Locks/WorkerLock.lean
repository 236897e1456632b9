import Mathlib.Data.List.Induction
import SwanRuntime.Library.Transition
import SwanRuntime.Locks.Mutex

/-!
# The lock of a worker

A worker takes its own lock with `__cilkrts_worker_lock`, thieves with
`worker_trylock_other`. The worker first sets `do_not_steal`; a thief competes with the
other thieves for `steal_lock`, tests the flag, and tries the lock while it still has
`steal_lock`. Every access to memory is a step of its own, the stores of the owners
and the reads of the assertions included.

`bypassed` counts the thieves that have acquired the lock since the worker has set the
flag.

## Results

* `Inv.workerStep`, `Inv.thiefStep` — the invariant is kept by every step.
* `boundedBypass`                   — exclusion, at most one bypass, and no failure.
-/

namespace SwanRuntime.Locks

-- ---------------------------------------------------------------------------
-- The state
-- ---------------------------------------------------------------------------

/-- A party to the locks. -/
inductive Party (τ : Type)
  | worker
  | thief (t : τ)
deriving DecidableEq

/-- The worker, by its next access. -/
inductive WorkerPc
  | idle               -- assert do_not_steal == 0
  | setDoNotSteal
  | acquire            -- `TRY_ACQUIRE(lock)`
  | spin               -- read the lock word
  | assertFree         -- assert owner == 0
  | setOwner
  | critical           -- assert owner == w
  | clearOwner
  | release
  | assertDoNotSteal   -- assert do_not_steal == 1
  | clearDoNotSteal
deriving DecidableEq

/-- A thief, by its next access. `status` is what `worker_trylock_other` returns. -/
inductive ThiefPc
  | idle                               -- `TRY_ACQUIRE(steal_lock)`
  | stealAssertFree
  | stealSetOwner
  | testDoNotSteal
  | tryLock                            -- `TRY_ACQUIRE(lock)`
  | assertFree
  | setOwner
  | stealAssertOwner (status : Bool)
  | stealClearOwner (status : Bool)
  | stealRelease (status : Bool)
  | critical                           -- assert owner == w
  | clearOwner
  | release
deriving DecidableEq

/-- The local state of the worker, and where everyone is. -/
structure State (τ : Type) where
  do_not_steal : Bool
  lock         : Mutex (Party τ)
  steal_lock   : Mutex (Party τ)
  worker       : WorkerPc
  thief        : τ → ThiefPc
  bypassed     : Nat
  failed       : Bool

def State.init (τ : Type) : State τ where
  do_not_steal := false
  lock := Mutex.init
  steal_lock := Mutex.init
  worker := .idle
  thief _ := .idle
  bypassed := 0
  failed := false

-- ---------------------------------------------------------------------------
-- The code
-- ---------------------------------------------------------------------------

variable {τ : Type} [DecidableEq τ]

/-- `CILK_ASSERT`. -/
def State.assert (s : State τ) (cond : Bool) : State τ := { s with failed := s.failed || !cond }

/-- The next access of the worker, in `__cilkrts_worker_lock` or
`__cilkrts_worker_unlock`. -/
def workerStep (s : State τ) : State τ :=
  match s.worker with
  | .idle => { s.assert (s.do_not_steal == false) with worker := .setDoNotSteal }
  | .setDoNotSteal => { s with do_not_steal := true, bypassed := 0, worker := .acquire }
  | .acquire =>
    if s.lock.lock then { s with worker := .spin }
    else { s with lock := { s.lock with lock := true }, worker := .assertFree }
  | .spin => { s with worker := if s.lock.lock then .spin else .acquire }
  | .assertFree => { s.assert (s.lock.owner == none) with worker := .setOwner }
  | .setOwner =>
    { s with lock := { s.lock with owner := some .worker }, worker := .critical }
  | .critical => { s.assert (s.lock.owner == some .worker) with worker := .clearOwner }
  | .clearOwner => { s with lock := { s.lock with owner := none }, worker := .release }
  | .release => { s with lock := { s.lock with lock := false }, worker := .assertDoNotSteal }
  | .assertDoNotSteal => { s.assert (s.do_not_steal == true) with worker := .clearDoNotSteal }
  | .clearDoNotSteal => { s with do_not_steal := false, worker := .idle }

/-- The worker has set the flag and does not have the lock yet. -/
def WorkerPc.waits : WorkerPc → Bool
  | .acquire | .spin => true
  | _ => false

def State.goto (s : State τ) (t : τ) (pc : ThiefPc) : State τ :=
  { s with thief := Function.update s.thief t pc }

/-- The next access of a thief, in `worker_trylock_other` or `worker_unlock_other`. -/
def thiefStep (s : State τ) (t : τ) : State τ :=
  match s.thief t with
  | .idle =>
    if s.steal_lock.lock then s
    else { s with steal_lock := { s.steal_lock with lock := true } }.goto t .stealAssertFree
  | .stealAssertFree => (s.assert (s.steal_lock.owner == none)).goto t .stealSetOwner
  | .stealSetOwner =>
    { s with steal_lock := { s.steal_lock with owner := some (.thief t) } }.goto t .testDoNotSteal
  | .testDoNotSteal =>
    s.goto t (if s.do_not_steal then .stealAssertOwner false else .tryLock)
  | .tryLock =>
    if s.lock.lock then s.goto t (.stealAssertOwner false)
    else
      { s with
        lock := { s.lock with lock := true }
        bypassed := if s.worker.waits then s.bypassed + 1 else s.bypassed }.goto t .assertFree
  | .assertFree => (s.assert (s.lock.owner == none)).goto t .setOwner
  | .setOwner =>
    { s with lock := { s.lock with owner := some (.thief t) } }.goto t (.stealAssertOwner true)
  | .stealAssertOwner status =>
    (s.assert (s.steal_lock.owner == some (.thief t))).goto t (.stealClearOwner status)
  | .stealClearOwner status =>
    { s with steal_lock := { s.steal_lock with owner := none } }.goto t (.stealRelease status)
  | .stealRelease status =>
    { s with steal_lock := { s.steal_lock with lock := false } }.goto t
      (if status then .critical else .idle)
  | .critical => (s.assert (s.lock.owner == some (.thief t))).goto t .clearOwner
  | .clearOwner => { s with lock := { s.lock with owner := none } }.goto t .release
  | .release => { s with lock := { s.lock with lock := false } }.goto t .idle

def next (s : State τ) : Party τ → State τ
  | .worker => workerStep s
  | .thief t => thiefStep s t

/-- The worker and its thieves, any of which makes the next access. -/
def system (τ : Type) [DecidableEq τ] : LTS (State τ) (Party τ) where
  init s := s = State.init τ
  step s p s' := s' = next s p

-- ---------------------------------------------------------------------------
-- The invariant
-- ---------------------------------------------------------------------------

def WorkerPc.holds : WorkerPc → Bool
  | .assertFree | .setOwner | .critical | .clearOwner | .release => true
  | _ => false

def WorkerPc.owns : WorkerPc → Bool
  | .critical | .clearOwner => true
  | _ => false

/-- The flag is up from its store to its release. -/
def WorkerPc.flag : WorkerPc → Bool
  | .idle | .setDoNotSteal => false
  | _ => true

def ThiefPc.holds : ThiefPc → Bool
  | .assertFree | .setOwner | .critical | .clearOwner | .release => true
  | .stealAssertOwner status | .stealClearOwner status | .stealRelease status => status
  | _ => false

def ThiefPc.owns : ThiefPc → Bool
  | .critical | .clearOwner => true
  | .stealAssertOwner status | .stealClearOwner status | .stealRelease status => status
  | _ => false

def ThiefPc.holdsSteal : ThiefPc → Bool
  | .idle | .critical | .clearOwner | .release => false
  | _ => true

def ThiefPc.ownsSteal : ThiefPc → Bool
  | .testDoNotSteal | .tryLock | .assertFree | .setOwner => true
  | .stealAssertOwner _ | .stealClearOwner _ => true
  | _ => false

/-- A party's part of the state, read off the program counters. -/
def State.at (s : State τ) (worker : WorkerPc → Bool) (thief : ThiefPc → Bool) : Party τ → Bool
  | .worker => worker s.worker
  | .thief t => thief (s.thief t)

structure Inv (s : State τ) : Prop where
  lock      : s.lock.Held (s.at WorkerPc.holds ThiefPc.holds) (s.at WorkerPc.owns ThiefPc.owns)
  stealLock : s.steal_lock.Held (s.at (fun _ => false) ThiefPc.holdsSteal)
    (s.at (fun _ => false) ThiefPc.ownsSteal)
  flag      : s.do_not_steal = s.worker.flag
  -- The one thief that may bypass the worker has tested the flag before it was set.
  bypass    : s.worker.waits = true →
    s.bypassed = 0 ∨ s.bypassed = 1 ∧ ∀ t, s.thief t ≠ .tryLock
  ok        : s.failed = false

omit [DecidableEq τ] in
theorem Inv.init : Inv (State.init τ) where
  lock := Mutex.held_init (by rintro (_ | _) <;> rfl) (by rintro (_ | _) <;> rfl)
  stealLock := Mutex.held_init (by rintro (_ | _) <;> rfl) (by rintro (_ | _) <;> rfl)
  flag := rfl
  bypass := by simp [State.init, WorkerPc.waits]
  ok := rfl

/-- The party that has moved is the only one whose part changes. -/
theorem at_goto (s : State τ) (w : WorkerPc → Bool) (f : ThiefPc → Bool) (t : τ) (pc : ThiefPc) :
    (s.goto t pc).at w f = Function.update (s.at w f) (.thief t) (f pc) := by
  funext p
  rcases p with _ | t'
  · rfl
  · by_cases h : t' = t
    · subst h
      simp [State.at, State.goto]
    · have hne : Party.thief t' ≠ Party.thief t := by simpa using h
      simp [State.at, State.goto, Function.update_of_ne h, Function.update_of_ne hne]

theorem at_worker (s : State τ) (w : WorkerPc → Bool) (f : ThiefPc → Bool) (pc : WorkerPc) :
    { s with worker := pc }.at w f = Function.update (s.at w f) .worker (w pc) := by
  funext p
  rcases p with _ | t
  · simp [State.at]
  · simp [State.at]

-- ---------------------------------------------------------------------------
-- The steps of the worker
-- ---------------------------------------------------------------------------

/-- What a step of the worker has to keep. -/
theorem Inv.worker {s : State τ} (h : Inv s) (pc : WorkerPc) {flag : Bool}
    {m : Mutex (Party τ)} {bypassed : Nat} {failed : Bool}
    (hlock : m.Held (Function.update (s.at WorkerPc.holds ThiefPc.holds) .worker pc.holds)
      (Function.update (s.at WorkerPc.owns ThiefPc.owns) .worker pc.owns))
    (hflag : flag = pc.flag)
    (hbypass : pc.waits = true → bypassed = 0 ∨ bypassed = 1 ∧ ∀ t, s.thief t ≠ .tryLock)
    (hok : failed = false) :
    Inv { s with
      do_not_steal := flag, lock := m, worker := pc, bypassed := bypassed, failed := failed } where
  lock := by
    rw [← at_worker, ← at_worker] at hlock
    exact hlock
  stealLock := by
    have hsteal : s.steal_lock.Held (Function.update _ .worker false)
        (Function.update _ .worker false) := h.stealLock.stay rfl rfl
    rw [← at_worker s (fun _ => false) _ pc, ← at_worker s (fun _ => false) _ pc] at hsteal
    exact hsteal
  flag := hflag
  bypass := hbypass
  ok := hok

omit [DecidableEq τ] in
/-- An assertion that holds fails nothing. -/
theorem Inv.assert_ok {s : State τ} (h : Inv s) {cond : Bool} (hcond : cond = true) :
    (s.assert cond).failed = false := by
  simp [State.assert, h.ok, hcond]

omit [DecidableEq τ] in
/-- The worker's part of its lock, where it is. -/
theorem at_worker_eq {s : State τ} {pc : WorkerPc} (hpc : s.worker = pc) (w : WorkerPc → Bool)
    (f : ThiefPc → Bool) : s.at w f .worker = w pc := by
  rw [← hpc]
  rfl

theorem Inv.workerStep {s : State τ} (h : Inv s) : Inv (workerStep s) := by
  have hnot : ∀ {pc : WorkerPc}, pc.waits = false → pc.waits = true →
      s.bypassed = 0 ∨ s.bypassed = 1 ∧ ∀ t, s.thief t ≠ .tryLock := by
    intro pc hpc hwaits
    rw [hpc] at hwaits
    cases hwaits
  have hflag := h.flag
  cases hpc : s.worker with
  | idle =>
    have hstay := h.lock.stay (at_worker_eq hpc _ _) (at_worker_eq hpc _ _)
    rw [hpc] at hflag
    simp only [Locks.workerStep, hpc]
    exact h.worker .setDoNotSteal hstay hflag (hnot rfl) (h.assert_ok (by simp [hflag, WorkerPc.flag]))
  | setDoNotSteal =>
    have hstay := h.lock.stay (at_worker_eq hpc _ _) (at_worker_eq hpc _ _)
    simp only [Locks.workerStep, hpc]
    exact h.worker .acquire hstay rfl (fun _ => .inl rfl) h.ok
  -- the worker and the thieves compete for the lock here only
  | acquire =>
    rw [hpc] at hflag
    simp only [Locks.workerStep, hpc]
    cases hfree : s.lock.lock with
    | true =>
      have hstay := h.lock.stay (at_worker_eq hpc _ _) (at_worker_eq hpc _ _)
      exact h.worker .spin hstay hflag (fun _ => h.bypass (by rw [hpc]; rfl)) h.ok
    | false =>
      exact h.worker .assertFree (h.lock.acquire hfree .worker) hflag (hnot rfl) h.ok
  | spin =>
    have hstay := h.lock.stay (at_worker_eq hpc _ _) (at_worker_eq hpc _ _)
    have hbypass := h.bypass (by rw [hpc]; rfl)
    rw [hpc] at hflag
    simp only [Locks.workerStep, hpc]
    cases s.lock.lock with
    | true => exact h.worker .spin hstay hflag (fun _ => hbypass) h.ok
    | false => exact h.worker .acquire hstay hflag (fun _ => hbypass) h.ok
  -- the holder has not entered itself, so nobody is the owner
  | assertFree =>
    have hstay := h.lock.stay (at_worker_eq hpc _ _) (at_worker_eq hpc _ _)
    have hnone := h.lock.owner_none (at_worker_eq hpc _ _) (at_worker_eq hpc _ _)
    rw [hpc] at hflag
    simp only [Locks.workerStep, hpc]
    exact h.worker .setOwner hstay hflag (hnot rfl) (h.assert_ok (by simp [hnone]))
  | setOwner =>
    have hown := h.lock.setOwner (at_worker_eq hpc _ _) (at_worker_eq hpc _ _)
    rw [hpc] at hflag
    simp only [Locks.workerStep, hpc]
    exact h.worker .critical hown hflag (hnot rfl) h.ok
  | critical =>
    have hstay := h.lock.stay (at_worker_eq hpc _ _) (at_worker_eq hpc _ _)
    have hself := h.lock.owner_self (at_worker_eq hpc _ _)
    rw [hpc] at hflag
    simp only [Locks.workerStep, hpc]
    exact h.worker .clearOwner hstay hflag (hnot rfl) (h.assert_ok (by simp [hself]))
  | clearOwner =>
    have hdisown := h.lock.clearOwner (at_worker_eq hpc _ _)
    rw [hpc] at hflag
    simp only [Locks.workerStep, hpc]
    exact h.worker .release hdisown hflag (hnot rfl) h.ok
  | release =>
    have hfree := h.lock.release (at_worker_eq hpc _ _) (at_worker_eq hpc _ _)
    rw [hpc] at hflag
    simp only [Locks.workerStep, hpc]
    exact h.worker .assertDoNotSteal hfree hflag (hnot rfl) h.ok
  | assertDoNotSteal =>
    have hstay := h.lock.stay (at_worker_eq hpc _ _) (at_worker_eq hpc _ _)
    rw [hpc] at hflag
    simp only [Locks.workerStep, hpc]
    exact h.worker .clearDoNotSteal hstay hflag (hnot rfl)
      (h.assert_ok (by simp [hflag, WorkerPc.flag]))
  | clearDoNotSteal =>
    have hstay := h.lock.stay (at_worker_eq hpc _ _) (at_worker_eq hpc _ _)
    simp only [Locks.workerStep, hpc]
    exact h.worker .idle hstay rfl (hnot rfl) h.ok

-- ---------------------------------------------------------------------------
-- The steps of a thief
-- ---------------------------------------------------------------------------

/-- What a step of a thief has to keep. -/
theorem Inv.thief {s : State τ} (h : Inv s) (t : τ) (pc : ThiefPc) {m n : Mutex (Party τ)}
    {bypassed : Nat} {failed : Bool}
    (hlock : m.Held (Function.update (s.at WorkerPc.holds ThiefPc.holds) (.thief t) pc.holds)
      (Function.update (s.at WorkerPc.owns ThiefPc.owns) (.thief t) pc.owns))
    (hsteal : n.Held
      (Function.update (s.at (fun _ => false) ThiefPc.holdsSteal) (.thief t) pc.holdsSteal)
      (Function.update (s.at (fun _ => false) ThiefPc.ownsSteal) (.thief t) pc.ownsSteal))
    (hbypass : s.worker.waits = true →
      bypassed = 0 ∨ bypassed = 1 ∧ ∀ t', Function.update s.thief t pc t' ≠ .tryLock)
    (hok : failed = false) :
    Inv ({ s with lock := m, steal_lock := n, bypassed := bypassed, failed := failed }.goto t pc) where
  lock := by
    rw [← at_goto, ← at_goto] at hlock
    exact hlock
  stealLock := by
    rw [← at_goto, ← at_goto] at hsteal
    exact hsteal
  flag := h.flag
  bypass := hbypass
  ok := hok

omit [DecidableEq τ] in
theorem at_thief_eq {s : State τ} {t : τ} {pc : ThiefPc} (hpc : s.thief t = pc)
    (w : WorkerPc → Bool) (f : ThiefPc → Bool) : s.at w f (.thief t) = f pc := by
  rw [← hpc]
  rfl

/-- A thief that does not go to `tryLock` leaves the bypasses as they are. -/
theorem Inv.bypass_goto {s : State τ} (h : Inv s) (t : τ) {pc : ThiefPc} (hpc : pc ≠ .tryLock) :
    s.worker.waits = true →
      s.bypassed = 0 ∨ s.bypassed = 1 ∧ ∀ t', Function.update s.thief t pc t' ≠ .tryLock := by
  intro hwaits
  refine (h.bypass hwaits).imp_right (And.imp_right fun hother t' => ?_)
  by_cases ht : t' = t
  · rw [ht, Function.update_self]
    exact hpc
  · rw [Function.update_of_ne ht]
    exact hother t'

/-- A thief that acquires the lock past the waiting worker is the only one that can. -/
theorem Inv.bypass_acquire {s : State τ} (h : Inv s) {t : τ} (hpc : s.thief t = .tryLock) :
    s.worker.waits = true → (if s.worker.waits then s.bypassed + 1 else s.bypassed) = 0 ∨
      (if s.worker.waits then s.bypassed + 1 else s.bypassed) = 1 ∧
        ∀ t', Function.update s.thief t .assertFree t' ≠ .tryLock := by
  intro hwaits
  rw [if_pos hwaits]
  rcases h.bypass hwaits with hzero | ⟨-, hother⟩
  · refine .inr ⟨by rw [hzero], fun t' => ?_⟩
    by_cases ht : t' = t
    · rw [ht, Function.update_self]
      decide
    · rw [Function.update_of_ne ht]
      intro hpc'
      have heq := h.stealLock.unique (.thief t') (.thief t) (at_thief_eq hpc' _ _)
        (at_thief_eq hpc _ _)
      cases heq
      exact ht rfl
  · exact absurd hpc (hother t)

theorem Inv.thiefStep {s : State τ} (h : Inv s) (t : τ) : Inv (thiefStep s t) := by
  cases hpc : s.thief t with
  | idle =>
    have hstay := h.lock.stay (at_thief_eq hpc _ _) (at_thief_eq hpc _ _)
    simp only [Locks.thiefStep, hpc]
    cases hfree : s.steal_lock.lock with
    | true => exact h
    | false =>
      exact h.thief t .stealAssertFree hstay (h.stealLock.acquire hfree (.thief t))
        (h.bypass_goto t (by decide)) h.ok
  | stealAssertFree =>
    have hstay := h.lock.stay (at_thief_eq hpc _ _) (at_thief_eq hpc _ _)
    have hsteal := h.stealLock.stay (at_thief_eq hpc _ _) (at_thief_eq hpc _ _)
    have hnone := h.stealLock.owner_none (at_thief_eq hpc _ _) (at_thief_eq hpc _ _)
    simp only [Locks.thiefStep, hpc]
    exact h.thief t .stealSetOwner hstay hsteal (h.bypass_goto t (by decide))
      (h.assert_ok (by simp [hnone]))
  | stealSetOwner =>
    have hstay := h.lock.stay (at_thief_eq hpc _ _) (at_thief_eq hpc _ _)
    have hown := h.stealLock.setOwner (at_thief_eq hpc _ _) (at_thief_eq hpc _ _)
    simp only [Locks.thiefStep, hpc]
    exact h.thief t .testDoNotSteal hstay hown (h.bypass_goto t (by decide)) h.ok
  | testDoNotSteal =>
    have hstay := h.lock.stay (at_thief_eq hpc _ _) (at_thief_eq hpc _ _)
    have hsteal := h.stealLock.stay (at_thief_eq hpc _ _) (at_thief_eq hpc _ _)
    simp only [Locks.thiefStep, hpc]
    cases hflag : s.do_not_steal with
    | true =>
      exact h.thief t (.stealAssertOwner false) hstay hsteal (h.bypass_goto t (by decide)) h.ok
    | false =>
      refine h.thief t .tryLock hstay hsteal (fun hwaits => ?_) h.ok
      -- The flag is up while the worker waits.
      have hup := h.flag
      rw [hflag] at hup
      cases hworker : s.worker <;> simp [hworker, WorkerPc.waits, WorkerPc.flag] at hwaits hup
  | tryLock =>
    have hsteal := h.stealLock.stay (at_thief_eq hpc _ _) (at_thief_eq hpc _ _)
    simp only [Locks.thiefStep, hpc]
    cases hfree : s.lock.lock with
    | true =>
      have hstay := h.lock.stay (at_thief_eq hpc _ _) (at_thief_eq hpc _ _)
      exact h.thief t (.stealAssertOwner false) hstay hsteal (h.bypass_goto t (by decide)) h.ok
    | false =>
      -- this is the one thief that may pass the worker
      exact h.thief t .assertFree (h.lock.acquire hfree (.thief t)) hsteal
        (h.bypass_acquire hpc) h.ok
  | assertFree =>
    have hstay := h.lock.stay (at_thief_eq hpc _ _) (at_thief_eq hpc _ _)
    have hsteal := h.stealLock.stay (at_thief_eq hpc _ _) (at_thief_eq hpc _ _)
    have hnone := h.lock.owner_none (at_thief_eq hpc _ _) (at_thief_eq hpc _ _)
    simp only [Locks.thiefStep, hpc]
    exact h.thief t .setOwner hstay hsteal (h.bypass_goto t (by decide))
      (h.assert_ok (by simp [hnone]))
  | setOwner =>
    have hown := h.lock.setOwner (at_thief_eq hpc _ _) (at_thief_eq hpc _ _)
    have hsteal := h.stealLock.stay (at_thief_eq hpc _ _) (at_thief_eq hpc _ _)
    simp only [Locks.thiefStep, hpc]
    exact h.thief t (.stealAssertOwner true) hown hsteal (h.bypass_goto t (by decide)) h.ok
  | stealAssertOwner status =>
    have hstay := h.lock.stay (at_thief_eq hpc _ _) (at_thief_eq hpc _ _)
    have hsteal := h.stealLock.stay (at_thief_eq hpc _ _) (at_thief_eq hpc _ _)
    have hself := h.stealLock.owner_self (at_thief_eq hpc _ _)
    simp only [Locks.thiefStep, hpc]
    exact h.thief t (.stealClearOwner status) hstay hsteal (h.bypass_goto t (by simp))
      (h.assert_ok (by simp [hself]))
  | stealClearOwner status =>
    have hstay := h.lock.stay (at_thief_eq hpc _ _) (at_thief_eq hpc _ _)
    have hdisown := h.stealLock.clearOwner (at_thief_eq hpc _ _)
    simp only [Locks.thiefStep, hpc]
    exact h.thief t (.stealRelease status) hstay hdisown (h.bypass_goto t (by simp)) h.ok
  | stealRelease status =>
    have hstay := h.lock.stay (at_thief_eq hpc _ _) (at_thief_eq hpc _ _)
    have hfree := h.stealLock.release (at_thief_eq hpc _ _) (at_thief_eq hpc _ _)
    simp only [Locks.thiefStep, hpc]
    cases status with
    | true => exact h.thief t .critical hstay hfree (h.bypass_goto t (by decide)) h.ok
    | false => exact h.thief t .idle hstay hfree (h.bypass_goto t (by decide)) h.ok
  | critical =>
    have hstay := h.lock.stay (at_thief_eq hpc _ _) (at_thief_eq hpc _ _)
    have hsteal := h.stealLock.stay (at_thief_eq hpc _ _) (at_thief_eq hpc _ _)
    have hself := h.lock.owner_self (at_thief_eq hpc _ _)
    simp only [Locks.thiefStep, hpc]
    exact h.thief t .clearOwner hstay hsteal (h.bypass_goto t (by decide))
      (h.assert_ok (by simp [hself]))
  | clearOwner =>
    have hdisown := h.lock.clearOwner (at_thief_eq hpc _ _)
    have hsteal := h.stealLock.stay (at_thief_eq hpc _ _) (at_thief_eq hpc _ _)
    simp only [Locks.thiefStep, hpc]
    exact h.thief t .release hdisown hsteal (h.bypass_goto t (by decide)) h.ok
  | release =>
    have hfree := h.lock.release (at_thief_eq hpc _ _) (at_thief_eq hpc _ _)
    have hsteal := h.stealLock.stay (at_thief_eq hpc _ _) (at_thief_eq hpc _ _)
    simp only [Locks.thiefStep, hpc]
    exact h.thief t .idle hfree hsteal (h.bypass_goto t (by decide)) h.ok

-- ---------------------------------------------------------------------------
-- Bounded bypass
-- ---------------------------------------------------------------------------

theorem reachable_inv {s : State τ} (h : (system τ).Reachable s) : Inv s := by
  refine h.invariant ?_ ?_
  · rintro s rfl
    exact Inv.init
  · rintro s (_ | t) s' hinv rfl
    · exact hinv.workerStep
    · exact hinv.thiefStep t

/--
In every state that is reached, the worker and the thieves exclude each other while
they hold the lock; at most one thief has acquired it since the waiting worker has set
`do_not_steal`; and no assertion has failed.
-/
theorem boundedBypass {τ : Type} [DecidableEq τ] :
    ∀ s : State τ, (system τ).Reachable s →
      (s.worker.holds = true → ∀ t, (s.thief t).holds = false) ∧
      (∀ t t', (s.thief t).holds = true → (s.thief t').holds = true → t = t') ∧
      (s.worker.waits = true → s.bypassed ≤ 1) ∧
      s.failed = false := by
  intro s hs
  have hinv := reachable_inv hs
  refine ⟨?_, ?_, ?_, hinv.ok⟩
  · intro hworker t
    by_contra ht
    have heq := hinv.lock.unique .worker (.thief t) hworker (eq_true_of_ne_false ht)
    cases heq
  · intro t t' ht ht'
    have heq := hinv.lock.unique (.thief t) (.thief t') ht ht'
    cases heq
    rfl
  · intro hwaits
    rcases hinv.bypass hwaits with hzero | ⟨hone, -⟩
    · omega
    · omega

/-- Any order of the parties gives a state that is reached. -/
theorem reachable_foldl (parties : List (Party τ)) :
    (system τ).Reachable (parties.foldl next (State.init τ)) := by
  induction parties using List.reverseRecOn with
  | nil => exact .init rfl
  | append_singleton parties p ih =>
    rw [List.foldl_append]
    exact ih.step (e := p) rfl

/-- The thief that has tested the flag before it is set acquires the lock after. -/
def bypassRun : List (Party Unit) :=
  List.replicate 4 (.thief ()) ++ [.worker, .worker, .thief ()]

/-- The theorem at the end of this run: the worker waits, and has been bypassed once. -/
theorem boundedBypass_once :
    let s := bypassRun.foldl next (State.init Unit)
    s.worker.waits = true ∧ s.bypassed = 1 ∧
      (s.worker.holds = true → ∀ t, (s.thief t).holds = false) ∧
      (∀ t t', (s.thief t).holds = true → (s.thief t').holds = true → t = t') ∧
      (s.worker.waits = true → s.bypassed ≤ 1) ∧
      s.failed = false :=
  ⟨by decide, by decide, boundedBypass _ (reachable_foldl bypassRun)⟩

end SwanRuntime.Locks
