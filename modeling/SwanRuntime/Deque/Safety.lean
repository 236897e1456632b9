import Mathlib.Data.List.Perm.Basic
import Mathlib.Data.List.Range
import SwanRuntime.Deque.Definitions

/-!
# The THE protocol — safety

Thieves exclude each other by the victim's lock, so the only race is between
the thief inside and a victim that pops without the lock. The thief announces
itself by `exc = head + 1` before it compares `head` with `tail`; the victim
lowers `tail` before it compares with `exc`. `Won` is what a thief knows once
its comparison has succeeded: the frame at `head` is still there, or the victim
has lowered `tail` past it and is bound for the exception check, where it waits
for the lock.

## Results

* `Inv.victimStep`, `Inv.thiefStep` — every load and store keeps the invariant.
* `reachable_inv`                   — the invariant holds in every reachable state.
* `protocol_safe`                   — frames are consumed once, oldest first by
  thieves, and `exc` and the pops stay at or above `head`.
-/

namespace SwanRuntime.THE

open Deque

/-! ## The invariant -/

/-- The victim's steps that need the lock. -/
def VictimPc.holds : VictimPc → Bool
  | .checkHead | .checkExc _ | .checkReadHead | .checkReadTail _ | .checkTail
  | .checkTailStore _ | .checkUnlock _ | .setupTail | .setupHead | .setupReadHead
  | .setupExc _ | .setupUnlock => true
  | _ => false

/-- The victim has lowered `tail` and not settled yet whether the frame there
is its own: 1 if so, else 0. -/
def VictimPc.popping : VictimPc → Int
  | .popExc _ | .checkLock | .checkHead | .checkExc _ | .checkReadHead | .checkReadTail _
  | .checkTail | .checkTailStore _ | .checkUnlock false => 1
  | _ => 0

theorem VictimPc.popping_nonneg (pc : VictimPc) : 0 ≤ pc.popping := by
  unfold VictimPc.popping
  split <;> decide

/-- The thief's comparison of `head` with `tail` has succeeded. -/
def Won (s : State) : Prop :=
  s.head < s.tail ∨ s.head = s.tail ∧ (s.victim = .popExc s.head ∨ s.victim = .checkLock)

/-- What thief `k` knows at each of its steps. -/
def ThiefOk (s : State) : ThiefPc → Prop
  | .outside => True
  | .incE => s.exc = .slot s.head
  | .incEStore tmp => s.exc = .slot s.head ∧ tmp = s.exc
  | .readHead => s.exc = .slot (s.head + 1)
  | .readTail h => s.exc = .slot (s.head + 1) ∧ h = s.head
  | .readHeadAgain => s.exc = .slot (s.head + 1) ∧ Won s
  | .readProtected h => s.exc = .slot (s.head + 1) ∧ h = s.head ∧ Won s
  | .decE => s.exc = .slot (s.head + 1)
  | .decEStore tmp => s.exc = .slot (s.head + 1) ∧ tmp = s.exc
  | .detachHead => s.exc = .slot (s.head + 1) ∧ Won s
  | .detachStore h => s.exc = .slot (s.head + 1) ∧ h = s.head ∧ Won s
  | .detachFrame h => s.exc = .slot s.head ∧ s.head = h + 1
  | .unlock => s.exc = .slot s.head

/-- What the victim knows of its deque at each of its steps. -/
def VictimOk (s : State) : VictimPc → Prop
  | .working => s.head ≤ s.tail
  | .pushSlot t => t = s.tail ∧ s.head ≤ s.tail
  | .pushTail t => t = s.tail ∧ s.head ≤ s.tail ∧ s.ltq t = s.pushed
  | .popTail t => t = s.tail ∧ s.head ≤ s.tail
  | .popExc t => t = s.tail ∧ s.head ≤ s.tail + 1
  | .checkLock => s.head ≤ s.tail + 1
  | .checkHead => s.head ≤ s.tail + 1 ∧ s.exc = .slot s.head
  | .checkExc h => h = s.head ∧ s.head ≤ s.tail + 1
  | .checkReadHead => s.head ≤ s.tail + 1 ∧ s.exc = .slot s.head
  | .checkReadTail h => h = s.head ∧ s.head ≤ s.tail + 1 ∧ s.exc = .slot s.head
  | .checkTail => s.head = s.tail + 1 ∧ s.exc = .slot s.head
  | .checkTailStore t => t = s.tail ∧ s.head = s.tail + 1 ∧ s.exc = .slot s.head
  | .checkUnlock true => s.head = s.tail ∧ s.exc = .slot s.head
  | .checkUnlock false => s.head ≤ s.tail ∧ s.exc = .slot s.head
  | .abandoned => s.head = s.tail
  | .setupTail => s.head = s.tail
  | .setupHead => s.tail = 0
  | .setupReadHead => s.tail = 0 ∧ s.head = 0
  | .setupExc h => s.tail = 0 ∧ s.head = 0 ∧ h = 0
  | .setupUnlock => s.tail = 0 ∧ s.head = 0 ∧ s.exc = .slot 0

/-- The frame that the thief inside has passed with `head` and not read yet. -/
def loot (s : State) : List Nat :=
  match s.lock with
  | some (.thief k) =>
    match s.thief k with
    | .detachFrame h => [s.ltq h]
    | _ => []
  | _ => []

/-- The frames `q` are those on the deque, oldest first. -/
structure Frames (s : State) (q : List Nat) : Prop where
  slots   : ∀ i (hi : i < q.length), s.ltq (s.head + i) = q.get ⟨i, hi⟩
  top     : s.victim ≠ .setupHead → s.head + q.length = s.tail + s.victim.popping
  reset   : s.victim = .setupHead → q = []
  account : (s.consumed.map Prod.snd ++ (loot s ++ q)).Perm (List.range s.pushed)
  sorted  : (loot s ++ q).Pairwise (· < ·)

structure Inv (s : State) : Prop where
  thiefLock  : ∀ k, s.thief k ≠ .outside ↔ s.lock = some (.thief k)
  victimLock : s.victim.holds = true ↔ s.lock = some .victim
  free       : s.lock = none → s.exc = .slot s.head
  thiefOk    : ∀ k, ThiefOk s (s.thief k)
  victimOk   : VictimOk s s.victim
  frames     : ∃ q, Frames s q

theorem inv_init {s : State} (h : system.init s) : Inv s := by
  obtain ⟨p, ltq, rfl⟩ := h
  refine ⟨by simp, by simp [VictimPc.holds], by simp, fun k => trivial, ?_, [], ?_⟩
  · simp [VictimOk]
  · exact ⟨by simp, by simp [VictimPc.popping], by simp, by simp [loot], by simp [loot]⟩

/-! ## The victim's steps -/

section Victim

variable {s t : State}

/-- What a thief knows is about `exc`, `head` and `Won` only. -/
theorem ThiefOk.mono {pc : ThiefPc} (h : ThiefOk s pc) (hexc : t.exc = s.exc)
    (hhead : t.head = s.head) (hwon : s.exc = .slot (s.head + 1) → Won s → Won t) :
    ThiefOk t pc := by
  cases pc <;> simp only [ThiefOk, hexc, hhead] at h ⊢ <;> try exact h
  · exact ⟨h.1, hwon h.1 h.2⟩
  · exact ⟨h.1, h.2.1, hwon h.1 h.2.2⟩
  · exact ⟨h.1, hwon h.1 h.2⟩
  · exact ⟨h.1, h.2.1, hwon h.1 h.2.2⟩

/-- A thief without the lock is outside. -/
theorem Inv.outside (h : Inv s) {k : Nat} (hk : s.lock ≠ some (.thief k)) :
    s.thief k = .outside := by
  by_contra hne
  exact hk ((h.thiefLock k).mp hne)

/-- While no thief has the lock, whatever the victim does to the deque is fine
with them. -/
theorem Inv.thiefOk_of_outside (h : Inv s) (hk : ∀ k, s.lock ≠ some (.thief k)) (k : Nat) :
    ThiefOk t (s.thief k) := by
  rw [h.outside (hk k)]
  trivial

theorem loot_of_no_thief (hk : ∀ k, s.lock ≠ some (.thief k)) : loot s = [] := by
  unfold loot
  split
  · rename_i k hlock
    exact absurd hlock (hk k)
  · rfl

/-- Without the victim's hand on it, `exc` is at `head` or announces one
thief. -/
theorem Inv.exc_cases (h : Inv s) (hv : s.victim.holds = false) :
    s.exc = .slot s.head ∨ s.exc = .slot (s.head + 1) := by
  cases hlock : s.lock with
  | none => exact .inl (h.free hlock)
  | some p =>
    cases p with
    | victim =>
      rw [← h.victimLock] at hlock
      rw [hlock] at hv
      cases hv
    | thief k =>
      have hk := h.thiefOk k
      have hne := (h.thiefLock k).mpr hlock
      cases hpc : s.thief k <;> rw [hpc] at hk hne <;> simp only [ThiefOk] at hk
      case outside => exact absurd rfl hne
      all_goals simp [hk]

/-- Steps of the victim that move its `tail` and itself only. -/
theorem Inv.move (h : Inv s) {t : Int} {pc : VictimPc} (hholds : pc.holds = s.victim.holds)
    (hset : s.victim ≠ .setupHead) (hset' : pc ≠ .setupHead)
    (hpop : t + pc.popping = s.tail + s.victim.popping)
    (hwon : s.exc = .slot (s.head + 1) → Won s → Won { s with tail := t, victim := pc })
    (hok : VictimOk { s with tail := t, victim := pc } pc) :
    Inv { s with tail := t, victim := pc } := by
  obtain ⟨q, hq⟩ := h.frames
  refine ⟨h.thiefLock, ?_, h.free, fun k => (h.thiefOk k).mono rfl rfl hwon, hok, q,
    hq.slots, fun _ => ?_, fun he => absurd he hset', hq.account, hq.sorted⟩
  · show pc.holds = true ↔ _
    rw [hholds]
    exact h.victimLock
  · show s.head + q.length = t + pc.popping
    rw [hpop]
    exact hq.top hset

/-- A pop takes the youngest frame. -/
theorem Frames.pop {q : List Nat} (hq : Frames s q) (hset : s.victim ≠ .setupHead)
    {i : Int} (hi : s.head ≤ i) (htop : i + 1 = s.tail + s.victim.popping) :
    ∃ q', s.head + q'.length = i ∧ q = q' ++ [s.ltq i] := by
  have hlen := hq.top hset
  have hne : q ≠ [] := by
    rintro rfl
    simp only [List.length_nil] at hlen
    omega
  refine ⟨q.dropLast, ?_, ?_⟩
  · have := List.length_pos_iff.mpr hne
    rw [List.length_dropLast]
    omega
  · have hlast := hq.slots (q.length - 1) (by have := List.length_pos_iff.mpr hne; omega)
    have hidx : s.head + ((q.length - 1 : Nat) : Int) = i := by
      have := List.length_pos_iff.mpr hne
      omega
    rw [hidx] at hlast
    rw [hlast]
    conv_lhs => rw [← List.dropLast_append_getLast hne]
    rw [List.getLast_eq_getElem]
    rfl

/-- The frames after a pop of the youngest one. -/
theorem Frames.popped {q' : List Nat} {i : Int} (hq : Frames s (q' ++ [s.ltq i]))
    (hlen : s.head + q'.length = i) (hset : t.victim ≠ .setupHead)
    (hhead : t.head = s.head) (hltq : t.ltq = s.ltq) (hpushed : t.pushed = s.pushed)
    (hcons : t.consumed = (.victim, s.ltq i) :: s.consumed) (hloot : loot t = loot s)
    (htop : t.tail + t.victim.popping = i) : Frames t q' := by
  refine ⟨fun j hj => ?_, fun _ => ?_, fun he => absurd he hset, ?_, ?_⟩
  · have := hq.slots j (by simp; omega)
    rw [hltq, hhead, this]
    simp [List.getElem_append_left hj]
  · rw [hhead, htop, hlen]
  · have hperm := hq.account
    rw [hcons, hloot, hpushed]
    refine List.Perm.trans ?_ hperm
    rw [List.map_cons, List.cons_append, ← List.append_assoc, ← List.append_assoc,
      ← List.append_assoc]
    exact (List.perm_append_singleton _ _).symm
  · have := hq.sorted
    rw [hloot]
    rw [← List.append_assoc] at this
    exact (List.pairwise_append.mp this).1

theorem Inv.no_thief_of_holds (h : Inv s) (hv : s.victim.holds = true) (k : Nat) :
    s.lock ≠ some (.thief k) := by
  rw [h.victimLock.mp hv]
  simp

/-- The slot stored by a push is beyond every frame on the deque, and beyond
the one a thief is about to read. -/
theorem Inv.pushSlot (h : Inv s) {t : Int} (pc : s.victim = .pushSlot t) :
    Inv { s with ltq := Function.update s.ltq t s.pushed, victim := .pushTail t } := by
  have hok := h.victimOk
  rw [pc] at hok
  obtain ⟨rfl, hle⟩ := hok
  -- a thief that has won still has: no pointer moves
  have hwon : Won s → Won { s with
      ltq := Function.update s.ltq s.tail s.pushed, victim := .pushTail s.tail } := by
    rintro (hlt | ⟨-, hbad | hbad⟩)
    · exact .inl hlt
    · rw [pc] at hbad; cases hbad
    · rw [pc] at hbad; cases hbad
  -- its loot is below `tail`, so the store misses it
  have hloot : loot { s with
      ltq := Function.update s.ltq s.tail s.pushed, victim := .pushTail s.tail } = loot s := by
    unfold loot
    cases hlock : s.lock with
    | none => rfl
    | some p =>
      cases p with
      | victim => rfl
      | thief k =>
        have hk := h.thiefOk k
        cases hpc : s.thief k <;> rw [hpc] at hk <;> simp only [hpc]
        rw [Function.update_of_ne]
        have := hk.2
        omega
  obtain ⟨q, hq⟩ := h.frames
  refine ⟨h.thiefLock, ?_, h.free, fun k => (h.thiefOk k).mono rfl rfl fun _ => hwon,
    ⟨rfl, hle, Function.update_self ..⟩, q, fun i hi => ?_, fun _ => ?_, fun he => ?_, ?_, ?_⟩
  · rw [← h.victimLock, pc]
    simp [VictimPc.holds]
  · have htop := hq.top (by simp [pc])
    simp only [pc, VictimPc.popping] at htop
    rw [← hq.slots i hi]
    exact Function.update_of_ne (show s.head + i ≠ s.tail by omega) ..
  · have htop := hq.top (by simp [pc])
    simpa [pc, VictimPc.popping] using htop
  · cases he
  · rw [hloot]
    exact hq.account
  · rw [hloot]
    exact hq.sorted

/-- A push makes the frame stored in the slot at `tail` the youngest. -/
theorem Inv.pushTail (h : Inv s) {t : Int} (pc : s.victim = .pushTail t) :
    Inv { s with tail := t + 1, pushed := s.pushed + 1, victim := .working } := by
  have hok := h.victimOk
  rw [pc] at hok
  obtain ⟨rfl, hle, hslot⟩ := hok
  have hwon : Won s → Won { s with
      tail := s.tail + 1, pushed := s.pushed + 1, victim := .working } := by
    rintro (hlt | ⟨-, hbad | hbad⟩)
    · exact .inl (show s.head < s.tail + 1 by omega)
    · rw [pc] at hbad; cases hbad
    · rw [pc] at hbad; cases hbad
  obtain ⟨q, hq⟩ := h.frames
  have htop : s.head + q.length = s.tail := by
    simpa [pc, VictimPc.popping] using hq.top (by simp [pc])
  refine ⟨h.thiefLock, ?_, h.free, fun k => (h.thiefOk k).mono rfl rfl fun _ => hwon, ?_,
    q ++ [s.pushed], fun i hi => ?_, fun _ => ?_, fun he => ?_, ?_, ?_⟩
  · rw [← h.victimLock, pc]
    simp [VictimPc.holds]
  · exact Int.le_add_one hle
  · -- the new frame is in the slot that the store before has filled
    by_cases hlt : i < q.length
    · rw [hq.slots i hlt]
      simp [List.getElem_append_left hlt]
    · have hi' : i < q.length + 1 := by simpa using hi
      obtain rfl : i = q.length := by omega
      rw [htop, hslot]
      simp
  · simp only [List.length_append, List.length_singleton, VictimPc.popping]
    omega
  · cases he
  · show (s.consumed.map Prod.snd ++ (loot s ++ (q ++ [s.pushed]))).Perm _
    rw [List.range_succ, ← List.append_assoc, ← List.append_assoc]
    rw [List.append_assoc _ (loot s)]
    exact hq.account.append_right _
  · show (loot s ++ (q ++ [s.pushed])).Pairwise _
    rw [← List.append_assoc, List.pairwise_append]
    refine ⟨hq.sorted, List.pairwise_singleton _ _, ?_⟩
    -- it is younger than all others
    intro a ha b hb
    rw [List.mem_singleton.mp hb]
    have : a ∈ List.range s.pushed := hq.account.subset (List.mem_append_right _ ha)
    simpa using this

/-- Taking the free lock. -/
theorem Inv.lockVictim (h : Inv s) (free : s.lock = none) {pc : VictimPc}
    (hv' : pc.holds = true) (hset : s.victim ≠ .setupHead)
    (hset' : pc ≠ .setupHead) (hpop : pc.popping = s.victim.popping)
    (hok : VictimOk { s with lock := some .victim, victim := pc } pc) :
    Inv { s with lock := some .victim, victim := pc } := by
  have hno : ∀ k, s.lock ≠ some (.thief k) := by simp [free]
  obtain ⟨q, hq⟩ := h.frames
  have hloot : loot s = [] := loot_of_no_thief hno
  refine ⟨fun k => ?_, by simp [hv'], by simp, fun k => h.thiefOk_of_outside hno k, hok, q,
    hq.slots, fun _ => ?_, fun he => absurd he hset', ?_, ?_⟩
  · simp [h.outside (hno k)]
  · show s.head + q.length = s.tail + pc.popping
    rw [hpop]
    exact hq.top hset
  · have := hq.account
    rw [hloot] at this
    exact this
  · have := hq.sorted
    rw [hloot] at this
    exact this

/-- Stores under the lock. `head` only moves when the deque is empty. -/
theorem Inv.locked (h : Inv s) (hv : s.victim.holds = true) {hd tl : Int} {ex : Exc}
    {pc : VictimPc} (hv' : pc.holds = true)
    (hhead : hd = s.head ∨ s.victim = .setupHead)
    (htop : ∀ q : List Nat, (s.victim ≠ .setupHead → s.head + q.length = s.tail + s.victim.popping) →
      (s.victim = .setupHead → q = []) →
      (pc ≠ .setupHead → hd + q.length = tl + pc.popping) ∧ (pc = .setupHead → q = []))
    (hok : VictimOk { s with head := hd, tail := tl, exc := ex, victim := pc } pc) :
    Inv { s with head := hd, tail := tl, exc := ex, victim := pc } := by
  have hlock := h.victimLock.mp hv
  -- the victim holds the lock, so no thief is inside and there is no loot
  have hno : ∀ k, s.lock ≠ some (.thief k) := by simp [hlock]
  obtain ⟨q, hq⟩ := h.frames
  have hloot : loot s = [] := loot_of_no_thief hno
  obtain ⟨htop', hreset'⟩ := htop q hq.top hq.reset
  refine ⟨h.thiefLock, by simp [hlock, hv'], by simp [hlock],
    fun k => h.thiefOk_of_outside hno k, hok, q, fun i hi => ?_, htop', hreset', ?_, ?_⟩
  · rcases hhead with rfl | hset
    · exact hq.slots i hi
    · -- `head` goes back to 0 only when there are no frames
      obtain rfl := hq.reset hset
      exact absurd hi (Nat.not_lt_zero i)
  · have := hq.account
    rw [hloot] at this
    rw [loot_of_no_thief (by exact hno)]
    exact this
  · have := hq.sorted
    rw [hloot] at this
    rw [loot_of_no_thief (by exact hno)]
    exact this

/-- Releasing the lock. -/
theorem Inv.unlockVictim (h : Inv s) (hv : s.victim.holds = true) {pc : VictimPc}
    {cs : List (Party × Nat)} (hv' : pc.holds = false) (hexc : s.exc = .slot s.head)
    (hok : VictimOk { s with lock := none, consumed := cs, victim := pc } pc)
    (hframes : ∃ q, Frames { s with lock := none, consumed := cs, victim := pc } q) :
    Inv { s with lock := none, consumed := cs, victim := pc } := by
  have hno := h.no_thief_of_holds hv
  refine ⟨fun k => ?_, by simp [hv'], fun _ => hexc, fun k => h.thiefOk_of_outside hno k, hok,
    hframes⟩
  simp [h.outside (hno k)]

/-- Releasing the lock with all frames in place. -/
theorem Inv.frames_unlock (h : Inv s) (hv : s.victim.holds = true) {pc : VictimPc}
    (hset : s.victim ≠ .setupHead) (hset' : pc ≠ .setupHead)
    (hpop : pc.popping = s.victim.popping) :
    ∃ q, Frames { s with lock := none, consumed := s.consumed, victim := pc } q := by
  obtain ⟨q, hq⟩ := h.frames
  have hloot : loot s = [] := loot_of_no_thief (h.no_thief_of_holds hv)
  refine ⟨q, hq.slots, fun _ => ?_, fun he => absurd he hset', ?_, ?_⟩
  · show s.head + q.length = s.tail + pc.popping
    rw [hpop]
    exact hq.top hset
  · have := hq.account
    rw [hloot] at this
    exact this
  · have := hq.sorted
    rw [hloot] at this
    exact this

/-- The victim's store to `tail` takes the youngest frame out of a thief's sight, unless
that thief has won already. -/
theorem Inv.popTail (h : Inv s) {t : Int} (pc : s.victim = .popTail t) :
    Inv { s with tail := t - 1, victim := .popExc (t - 1) } := by
  have hok := h.victimOk
  rw [pc] at hok
  obtain ⟨rfl, hle⟩ := hok
  refine h.move (t := s.tail - 1) ?_ ?_ ?_ ?_ ?_ ⟨rfl, by simpa using hle⟩
  · simp [pc, VictimPc.holds]
  · simp [pc]
  · simp
  · simp [pc, VictimPc.popping]
  · -- the thief has seen a longer deque: it and the victim may want the same frame
    rintro - (hlt | ⟨-, hbad | hbad⟩)
    · by_cases heq : s.head = s.tail - 1
      · exact .inr ⟨heq, .inl (by simp [heq])⟩
      · exact .inl (show s.head < s.tail - 1 by omega)
    · rw [pc] at hbad; cases hbad
    · rw [pc] at hbad; cases hbad

/-- The pop without the lock: `exc` shows that no thief has won the frame. -/
theorem Inv.popFast (h : Inv s) {t : Int} (pc : s.victim = .popExc t)
    (habove : s.exc.isAbove t = false) :
    Inv { s with consumed := (.victim, s.ltq t) :: s.consumed, victim := .working } := by
  have hok := h.victimOk
  rw [pc] at hok
  obtain ⟨rfl, hle⟩ := hok
  have hv : s.victim.holds = false := by rw [pc]; rfl
  have hset : s.victim ≠ .setupHead := by simp [pc]
  -- the victim has compared `exc` with its own `tail`, and not found it above
  have hhead : s.head ≤ s.tail := by
    rcases h.exc_cases hv with he | he <;> rw [he] at habove <;>
      simp only [Exc.isAbove, decide_eq_false_iff_not] at habove <;> omega
  have hwon : s.exc = .slot (s.head + 1) → s.head < s.tail := by
    intro he
    rw [he] at habove
    simp only [Exc.isAbove, decide_eq_false_iff_not] at habove
    omega
  obtain ⟨q, hq⟩ := h.frames
  obtain ⟨q', hlen, rfl⟩ := hq.pop hset hhead (by simp [pc, VictimPc.popping])
  refine ⟨h.thiefLock, ?_, h.free,
    fun k => (h.thiefOk k).mono rfl rfl fun he _ => .inl (hwon he), hhead, q', ?_⟩
  · rw [← h.victimLock, hv]
    simp [VictimPc.holds]
  · exact hq.popped hlen (by simp) rfl rfl rfl rfl rfl (by simp [VictimPc.popping])

/-- The pop under the lock. -/
theorem Inv.popChecked (h : Inv s) (pc : s.victim = .checkUnlock false) :
    Inv { s with
      lock := none
      consumed := (.victim, s.ltq s.tail) :: s.consumed
      victim := .working } := by
  have hok := h.victimOk
  rw [pc] at hok
  obtain ⟨hle, hexc⟩ := hok
  have hv : s.victim.holds = true := by rw [pc]; rfl
  obtain ⟨q, hq⟩ := h.frames
  obtain ⟨q', hlen, rfl⟩ := hq.pop (by simp [pc]) hle (by simp [pc, VictimPc.popping])
  refine h.unlockVictim hv rfl hexc hle ⟨q', ?_⟩
  refine hq.popped hlen (by simp) rfl rfl rfl rfl ?_ (by simp [VictimPc.popping])
  rw [loot_of_no_thief (h.no_thief_of_holds hv)]
  rfl

/-- Every load and store of the victim keeps the invariant. -/
theorem Inv.victimStep {e : Event} (h : Inv s) (hs : VictimStep s e t) : Inv t := by
  have hok := h.victimOk
  -- loads and stores outside the lock by `move`, those under it by `locked`
  cases hs with
  | pushLoad pc =>
    rw [pc] at hok
    refine h.move (t := s.tail) ?_ ?_ ?_ ?_ ?_ ⟨rfl, hok⟩ <;>
      simp [pc, VictimPc.holds, VictimPc.popping, Won]
  | pushSlot pc => exact h.pushSlot pc
  | pushTail pc => exact h.pushTail pc
  | popLoad pc =>
    rw [pc] at hok
    refine h.move (t := s.tail) ?_ ?_ ?_ ?_ ?_ ⟨rfl, hok⟩ <;>
      simp [pc, VictimPc.holds, VictimPc.popping, Won]
  | popTail pc => exact h.popTail pc
  | popFast pc habove => exact h.popFast pc habove
  | @popSlow t pc habove =>
    rw [pc] at hok
    obtain ⟨rfl, hle⟩ := hok
    refine h.move (t := s.tail) ?_ ?_ ?_ ?_ ?_ hle
    · simp [pc, VictimPc.holds]
    · simp [pc]
    · simp
    · simp [pc, VictimPc.popping]
    · rintro - (hlt | ⟨heq, -⟩)
      · exact .inl hlt
      · exact .inr ⟨heq, .inr rfl⟩
  | checkLock pc free =>
    rw [pc] at hok
    refine h.lockVictim free rfl ?_ (by simp) ?_ ⟨hok, h.free free⟩ <;>
      simp [pc, VictimPc.popping]
  | checkHead pc =>
    rw [pc] at hok
    exact h.locked (by rw [pc]; rfl) rfl (.inl rfl)
      (by simp [pc, VictimPc.popping]) ⟨rfl, hok.1⟩
  | @checkExc hd pc =>
    rw [pc] at hok
    obtain ⟨rfl, hle⟩ := hok
    exact h.locked (by rw [pc]; rfl) rfl (.inl rfl)
      (by simp [pc, VictimPc.popping]) ⟨hle, rfl⟩
  | checkReadHead pc =>
    rw [pc] at hok
    exact h.locked (by rw [pc]; rfl) rfl (.inl rfl)
      (by simp [pc, VictimPc.popping]) ⟨rfl, hok⟩
  | @checkNotStolen hd pc lt =>
    rw [pc] at hok
    obtain ⟨rfl, -, hexc⟩ := hok
    exact h.locked (by rw [pc]; rfl) rfl (.inl rfl)
      (by simp [pc, VictimPc.popping]) ⟨Int.le_of_lt_add_one lt, hexc⟩
  | @checkStolen hd pc ge =>
    rw [pc] at hok
    obtain ⟨rfl, hle, hexc⟩ := hok
    have heq : s.head = s.tail + 1 := by omega
    exact h.locked (by rw [pc]; rfl) rfl (.inl rfl)
      (by simp [pc, VictimPc.popping]) ⟨heq, hexc⟩
  | checkTail pc =>
    rw [pc] at hok
    exact h.locked (by rw [pc]; rfl) rfl (.inl rfl)
      (by simp [pc, VictimPc.popping]) ⟨rfl, hok⟩
  | @checkTailStore tl pc =>
    rw [pc] at hok
    obtain ⟨rfl, heq, hexc⟩ := hok
    exact h.locked (by rw [pc]; rfl) rfl (.inl rfl)
      (by simp [pc, VictimPc.popping]) ⟨heq, hexc⟩
  | popChecked pc => exact h.popChecked pc
  | popStolen pc =>
    rw [pc] at hok
    have hv : s.victim.holds = true := by rw [pc]; rfl
    exact h.unlockVictim hv rfl hok.2 hok.1
      (h.frames_unlock hv (by simp [pc]) (by simp) (by simp [pc, VictimPc.popping]))
  | reductions pc =>
    rw [pc] at hok
    refine h.move (t := s.tail) ?_ ?_ ?_ ?_ ?_ (Int.le_of_eq hok) <;>
      simp [pc, VictimPc.holds, VictimPc.popping, Won]
  | setupLock pc free =>
    rw [pc] at hok
    refine h.lockVictim free rfl ?_ (by simp) ?_ hok <;>
      simp [pc, VictimPc.popping]
  | setupTail pc =>
    rw [pc] at hok
    refine h.locked (by rw [pc]; rfl) rfl (.inl rfl) (fun q htop _ => ⟨by simp, fun _ => ?_⟩) rfl
    have hlen := htop (by simp [pc])
    simp only [pc, VictimPc.popping] at hlen
    have heq : s.head = s.tail := hok
    exact List.length_eq_zero_iff.mp (by omega)
  | setupHead pc =>
    rw [pc] at hok
    have htail : s.tail = 0 := hok
    refine h.locked (by rw [pc]; rfl) rfl (.inr pc) (fun q _ hq => ⟨fun _ => ?_, by simp⟩)
      ⟨htail, rfl⟩
    simp [hq pc, htail, VictimPc.popping]
  | setupReadHead pc =>
    rw [pc] at hok
    exact h.locked (by rw [pc]; rfl) rfl (.inl rfl)
      (by simp [pc, VictimPc.popping]) ⟨hok.1, hok.2, hok.2⟩
  | @setupExc hd pc =>
    rw [pc] at hok
    obtain ⟨htail, hhead, rfl⟩ := hok
    exact h.locked (by rw [pc]; rfl) rfl (.inl rfl)
      (by simp [pc, VictimPc.popping]) ⟨htail, hhead, rfl⟩
  | setupUnlock pc =>
    rw [pc] at hok
    obtain ⟨htail, hhead, hexc⟩ := hok
    have hv : s.victim.holds = true := by rw [pc]; rfl
    refine h.unlockVictim hv rfl (by rw [hexc, hhead]) ?_
      (h.frames_unlock hv (by simp [pc]) (by simp) (by simp [pc, VictimPc.popping]))
    show s.head ≤ s.tail
    omega

end Victim

/-! ## The thieves' steps -/

section Thief

variable {s t : State} {k : Nat}

/-- Without the lock, what the victim knows is about `head` and its own fields
only. -/
theorem VictimOk.mono {pc : VictimPc} (h : VictimOk s pc) (hv : pc.holds = false)
    (hhead : t.head = s.head) (htail : t.tail = s.tail) (hltq : t.ltq = s.ltq)
    (hpushed : t.pushed = s.pushed) : VictimOk t pc := by
  cases pc <;> simp only [VictimPc.holds, Bool.true_eq_false] at hv <;>
    simpa only [VictimOk, hhead, htail, hltq, hpushed] using h

theorem Inv.lock_of_inside (h : Inv s) (hk : s.thief k ≠ .outside) :
    s.lock = some (.thief k) ∧ s.victim.holds = false := by
  have hlock := (h.thiefLock k).mp hk
  refine ⟨hlock, ?_⟩
  by_contra hv
  rw [Bool.not_eq_false, h.victimLock, hlock] at hv
  cases hv

/-- While thief `k` is inside, the others are outside and stay there. -/
theorem Inv.thiefLock_at (h : Inv s) (hk : s.thief k ≠ .outside) {pc : ThiefPc}
    (hpc : pc ≠ .outside) (j : Nat) :
    Function.update s.thief k pc j ≠ .outside ↔ s.lock = some (.thief j) := by
  have hlock := (h.lock_of_inside hk).1
  by_cases hj : j = k
  · subst hj
    simp [hlock, hpc]
  · rw [Function.update_of_ne hj, hlock]
    have hout := h.outside (k := j) (by simp [hlock, Ne.symm hj])
    simp [hout, Ne.symm hj]

theorem Inv.thiefOk_at (h : Inv s) (hk : s.thief k ≠ .outside) {pc : ThiefPc}
    (hok : ThiefOk t pc) (j : Nat) : ThiefOk t (Function.update s.thief k pc j) := by
  by_cases hj : j = k
  · subst hj
    rwa [Function.update_self]
  · have hlock := (h.lock_of_inside hk).1
    rw [Function.update_of_ne hj, h.outside (k := j) (by simp [hlock, Ne.symm hj])]
    trivial

theorem loot_eq_nil (hlock : s.lock = some (.thief k)) (hpc : ∀ h, s.thief k ≠ .detachFrame h) :
    loot s = [] := by
  simp only [loot, hlock]

/-- The thief's steps that move `exc` and itself only. -/
theorem Inv.inside (h : Inv s) {e : Exc} {pc : ThiefPc} (hk : s.thief k ≠ .outside)
    (hk' : ∀ i, s.thief k ≠ .detachFrame i) (hpc : pc ≠ .outside)
    (hpc' : ∀ i, pc ≠ .detachFrame i) (hok : ThiefOk ({ s with exc := e }.at k pc) pc) :
    Inv ({ s with exc := e }.at k pc) := by
  obtain ⟨hlock, hv⟩ := h.lock_of_inside hk
  obtain ⟨q, hq⟩ := h.frames
  have hloot : loot s = [] := loot_eq_nil hlock hk'
  have hloot' : loot ({ s with exc := e }.at k pc) = [] :=
    loot_eq_nil hlock (by simpa [State.at] using hpc')
  refine ⟨h.thiefLock_at hk hpc, h.victimLock, fun he => ?_, h.thiefOk_at hk hok,
    h.victimOk.mono hv rfl rfl rfl rfl, q, hq.slots, hq.top, hq.reset, ?_, ?_⟩
  · have hfree : s.lock = none := he
    rw [hlock] at hfree
    cases hfree
  · rw [hloot', ← hloot]
    exact hq.account
  · rw [hloot', ← hloot]
    exact hq.sorted

/-- The thief advances `head`: the frame there, the oldest, is its loot now. -/
theorem Inv.detachStore (h : Inv s) {hd : Int} (pc : s.thief k = .detachStore hd) :
    Inv ({ s with head := hd + 1 }.at k (.detachFrame hd)) := by
  have hk : s.thief k ≠ .outside := by simp [pc]
  obtain ⟨hlock, hv⟩ := h.lock_of_inside hk
  have hok := h.thiefOk k
  rw [pc] at hok
  obtain ⟨hexc, rfl, hwon⟩ := hok
  obtain ⟨q, hq⟩ := h.frames
  have hloot : loot s = [] := loot_eq_nil hlock (by simp [pc])
  have hset : s.victim ≠ .setupHead := by
    rintro he
    rw [he] at hv
    cases hv
  have htop := hq.top hset
  -- the victim is past its comparison with `exc` only if it leaves the frame
  have hvok : VictimOk ({ s with head := s.head + 1 }.at k (.detachFrame s.head)) s.victim := by
    have hvok := h.victimOk
    rcases hwon with hlt | ⟨heq, hpop | hcheck⟩
    · cases hpc : s.victim <;> rw [hpc] at hv hvok <;>
        simp only [VictimPc.holds, Bool.true_eq_false] at hv <;>
        simp only [VictimOk, State.at] at hvok ⊢ <;> omega
    · rw [hpop] at hvok ⊢
      simp only [VictimOk, State.at] at hvok ⊢
      omega
    · rw [hcheck]
      simp only [VictimOk, State.at]
      omega
  have hlen : 0 < q.length := by
    rcases hwon with hlt | ⟨heq, hpop | hcheck⟩
    · have := s.victim.popping_nonneg
      omega
    · simp only [hpop, VictimPc.popping] at htop
      omega
    · simp only [hcheck, VictimPc.popping] at htop
      omega
  -- the deque is not empty: its oldest frame is the loot now
  obtain ⟨f, q, rfl⟩ := List.exists_cons_of_length_pos hlen
  have hslot : s.ltq s.head = f := by simpa using hq.slots 0 hlen
  have hloot' : loot ({ s with head := s.head + 1 }.at k (.detachFrame s.head)) = [f] := by
    simp [loot, State.at, hlock, hslot]
  refine ⟨h.thiefLock_at hk (by simp), h.victimLock, fun he => ?_,
    h.thiefOk_at hk ⟨hexc, rfl⟩, hvok, q, fun i hi => ?_, fun _ => ?_, fun he => absurd he hset,
    ?_, ?_⟩
  · have hfree : s.lock = none := he
    rw [hlock] at hfree
    cases hfree
  · have := hq.slots (i + 1) (by simpa using hi)
    simp only [State.at]
    rw [show s.head + 1 + (i : Int) = s.head + ((i + 1 : Nat) : Int) by omega, this]
    simp
  · simp only [State.at]
    rw [List.length_cons] at htop
    omega
  · rw [hloot']
    have := hq.account
    rw [hloot] at this
    exact this
  · rw [hloot']
    have := hq.sorted
    rw [hloot] at this
    exact this

/-- The thief reads its loot, the oldest frame not consumed yet. -/
theorem Inv.detachFrame (h : Inv s) {hd : Int} (pc : s.thief k = .detachFrame hd) :
    Inv ({ s with consumed := (.thief k, s.ltq hd) :: s.consumed }.at k .unlock) := by
  have hk : s.thief k ≠ .outside := by simp [pc]
  obtain ⟨hlock, hv⟩ := h.lock_of_inside hk
  have hok := h.thiefOk k
  rw [pc] at hok
  obtain ⟨q, hq⟩ := h.frames
  -- what was loot is consumed
  have hloot : loot s = [s.ltq hd] := by simp [loot, hlock, pc]
  have hloot' : loot ({ s with consumed := (.thief k, s.ltq hd) :: s.consumed }.at k .unlock)
      = [] := loot_eq_nil hlock (by simp [State.at])
  refine ⟨h.thiefLock_at hk (by simp), h.victimLock, fun he => ?_,
    h.thiefOk_at hk hok.1, h.victimOk.mono hv rfl rfl rfl rfl, q, hq.slots, hq.top, hq.reset,
    ?_, ?_⟩
  · have hfree : s.lock = none := he
    rw [hlock] at hfree
    cases hfree
  · rw [hloot']
    have := hq.account
    rw [hloot] at this
    refine List.Perm.trans ?_ this
    exact List.perm_middle.symm
  · rw [hloot']
    have := hq.sorted
    rw [hloot] at this
    exact (List.pairwise_cons.mp this).2

/-- Taking the lock. -/
theorem Inv.lockThief (h : Inv s) (pc : s.thief k = .outside) (free : s.lock = none) :
    Inv ({ s with lock := some (.thief k) }.at k .incE) := by
  obtain ⟨q, hq⟩ := h.frames
  -- the lock was free, so nobody was inside
  have hout : ∀ j, s.thief j = .outside := fun j => h.outside (by simp [free])
  have hv : s.victim.holds = false := by
    by_contra hv
    rw [Bool.not_eq_false, h.victimLock, free] at hv
    cases hv
  have hloot : loot s = [] := loot_of_no_thief (by simp [free])
  have hloot' : loot ({ s with lock := some (.thief k) }.at k .incE) = [] :=
    loot_eq_nil (k := k) rfl (by simp [State.at])
  refine ⟨fun j => ?_, ?_, fun he => (by cases he), fun j => ?_,
    h.victimOk.mono hv rfl rfl rfl rfl, q, hq.slots, hq.top, hq.reset, ?_, ?_⟩
  · by_cases hj : j = k
    · subst hj
      simp [State.at]
    · simp [State.at, Function.update_of_ne hj, hout j, Ne.symm hj]
  · simp [State.at, hv]
  · by_cases hj : j = k
    · subst hj
      simp only [State.at, Function.update_self]
      exact h.free free
    · simp only [State.at, Function.update_of_ne hj, hout j]
      trivial
  · rw [hloot', ← hloot]
    exact hq.account
  · rw [hloot', ← hloot]
    exact hq.sorted

/-- Releasing it. -/
theorem Inv.unlockThief (h : Inv s) (pc : s.thief k = .unlock) :
    Inv ({ s with lock := none }.at k .outside) := by
  have hk : s.thief k ≠ .outside := by simp [pc]
  obtain ⟨hlock, hv⟩ := h.lock_of_inside hk
  have hok := h.thiefOk k
  rw [pc] at hok
  obtain ⟨q, hq⟩ := h.frames
  have hloot : loot s = [] := loot_eq_nil hlock (by simp [pc])
  -- this thief was the only one inside
  have hout : ∀ j, Function.update s.thief k .outside j = .outside := by
    intro j
    by_cases hj : j = k
    · subst hj
      exact Function.update_self ..
    · rw [Function.update_of_ne hj]
      exact h.outside (by simp [hlock, Ne.symm hj])
  have hloot' : loot ({ s with lock := none }.at k .outside) = [] := rfl
  refine ⟨fun j => ?_, ?_, fun _ => hok, fun j => ?_, h.victimOk.mono hv rfl rfl rfl rfl, q,
    hq.slots, hq.top, hq.reset, ?_, ?_⟩
  · simp [State.at, hout j]
  · simp [State.at, hv]
  · simp only [State.at, hout j]
    trivial
  · rw [hloot', ← hloot]
    exact hq.account
  · rw [hloot', ← hloot]
    exact hq.sorted

/-- Every load and store of a thief keeps the invariant. -/
theorem Inv.thiefStep {e : Event} (h : Inv s) (hs : ThiefStep s k e t) : Inv t := by
  have hok := h.thiefOk k
  cases hs with
  | lock pc free => exact h.lockThief pc free
  | incE pc =>
    rw [pc] at hok
    exact h.inside (e := s.exc) (by simp [pc]) (by simp [pc]) (by simp) (by simp) ⟨hok, rfl⟩
  | @incEStore tmp pc =>
    rw [pc] at hok
    obtain ⟨hexc, rfl⟩ := hok
    refine h.inside (by simp [pc]) (by simp [pc]) (by simp) (by simp) ?_
    simp [ThiefOk, State.at, hexc, Exc.moved]
  | readHead pc =>
    rw [pc] at hok
    exact h.inside (e := s.exc) (by simp [pc]) (by simp [pc]) (by simp) (by simp) ⟨hok, rfl⟩
  | @readTail hd pc lt =>
    rw [pc] at hok
    obtain ⟨hexc, rfl⟩ := hok
    exact h.inside (e := s.exc) (by simp [pc]) (by simp [pc]) (by simp) (by simp)
      ⟨hexc, .inl lt⟩
  | @emptyDeque hd pc ge =>
    rw [pc] at hok
    exact h.inside (e := s.exc) (by simp [pc]) (by simp [pc]) (by simp) (by simp) hok.1
  | readHeadAgain pc =>
    rw [pc] at hok
    exact h.inside (e := s.exc) (by simp [pc]) (by simp [pc]) (by simp) (by simp)
      ⟨hok.1, rfl, hok.2⟩
  | @readProtected hd pc lt =>
    rw [pc] at hok
    exact h.inside (e := s.exc) (by simp [pc]) (by simp [pc]) (by simp) (by simp)
      ⟨hok.1, hok.2.2⟩
  | @isProtected hd pc ge =>
    rw [pc] at hok
    exact h.inside (e := s.exc) (by simp [pc]) (by simp [pc]) (by simp) (by simp) hok.1
  | decE pc =>
    rw [pc] at hok
    exact h.inside (e := s.exc) (by simp [pc]) (by simp [pc]) (by simp) (by simp) ⟨hok, rfl⟩
  | @decEStore tmp pc =>
    rw [pc] at hok
    obtain ⟨hexc, rfl⟩ := hok
    refine h.inside (by simp [pc]) (by simp [pc]) (by simp) (by simp) ?_
    simp only [ThiefOk, State.at, hexc, Exc.moved, Exc.slot.injEq]
    omega
  | detachHead pc =>
    rw [pc] at hok
    exact h.inside (e := s.exc) (by simp [pc]) (by simp [pc]) (by simp) (by simp)
      ⟨hok.1, rfl, hok.2⟩
  | detachStore pc => exact h.detachStore pc
  | detachFrame pc => exact h.detachFrame pc
  | unlock pc => exact h.unlockThief pc

end Thief

/-! ## Reachable states -/

theorem inv_step {s t : State} {e : Event} (h : Inv s) (hs : Step s e t) : Inv t := by
  cases hs with
  | victim hs => exact h.victimStep hs
  | thief hs => exact h.thiefStep hs
  | protect =>
    obtain ⟨q, hq⟩ := h.frames
    exact ⟨h.thiefLock, h.victimLock, h.free,
      fun k => (h.thiefOk k).mono rfl rfl fun _ hwon => hwon, h.victimOk, q,
      hq.slots, hq.top, hq.reset, hq.account, hq.sorted⟩

theorem reachable_inv {s : State} (h : system.Reachable s) : Inv s :=
  h.invariant (fun _ => inv_init) fun _ _ _ => inv_step

/-- A frame that a thief takes is older than every frame not consumed yet. -/
theorem Inv.takes_oldest {s t : State} {k f : Nat} (h : Inv s) (hs : Step s (.takes k f) t) :
    f < s.pushed ∧ f ∉ s.consumed.map Prod.snd ∧
      ∀ g, g < f → g ∈ s.consumed.map Prod.snd := by
  have hthief : ∃ hd, s.thief k = .detachFrame hd ∧ s.ltq hd = f := by
    rcases hs with hs | hs | _
    · cases hs
    · cases hs with
      | detachFrame pc => exact ⟨_, pc, rfl⟩
  obtain ⟨hd, pc, rfl⟩ := hthief
  obtain ⟨hlock, -⟩ := h.lock_of_inside (k := k) (by simp [pc])
  obtain ⟨q, hq⟩ := h.frames
  have hloot : loot s = [s.ltq hd] := by simp [loot, hlock, pc]
  have hperm := hq.account
  have hsorted := hq.sorted
  rw [hloot] at hperm hsorted
  have hnd := hperm.nodup_iff.mpr List.nodup_range
  refine ⟨by simpa using hperm.subset (List.mem_append_right _ List.mem_cons_self), ?_, ?_⟩
  · intro hin
    exact (List.nodup_append.mp hnd).2.2 _ hin _ List.mem_cons_self rfl
  · intro g hg
    have hmem : s.ltq hd ∈ List.range s.pushed :=
      hperm.subset (List.mem_append_right _ List.mem_cons_self)
    have hgr : g ∈ List.range s.pushed := by
      simp only [List.mem_range] at hmem ⊢
      omega
    rcases List.mem_append.mp (hperm.symm.subset hgr) with hin | hin
    · exact hin
    · exfalso
      rcases List.mem_cons.mp hin with rfl | hin
      · omega
      · have := (List.pairwise_cons.mp hsorted).1 g hin
        omega

/-- A pop never returns an index below `head`. -/
theorem Inv.popReturns_ge {s t : State} {i : Int} (h : Inv s) (hs : Step s (.popReturns i) t) :
    s.head ≤ i := by
  have hok := h.victimOk
  rcases hs with hs | hs | _
  · cases hs with
    | popFast pc habove =>
      have hv : s.victim.holds = false := by rw [pc]; rfl
      rcases h.exc_cases hv with he | he <;> rw [he] at habove <;>
        simp only [Exc.isAbove, decide_eq_false_iff_not] at habove <;> omega
    | popChecked pc =>
      rw [pc] at hok
      exact hok.1
  · cases hs

/--
In every reachable state no frame has been consumed twice; a thief only takes
the oldest frame left; while the lock is free `exc` is not below `head`; and a
pop only returns frames at or above `head`.
-/
theorem protocol_safe {s : State} (h : system.Reachable s) :
    (s.consumed.map Prod.snd).Nodup ∧
      (∀ f ∈ s.consumed.map Prod.snd, f < s.pushed) ∧
      (∀ k f t, system.step s (.takes k f) t →
        f < s.pushed ∧ f ∉ s.consumed.map Prod.snd ∧
          ∀ g, g < f → g ∈ s.consumed.map Prod.snd) ∧
      (s.lock = none → ∃ e, s.exc = .slot e ∧ s.head ≤ e) ∧
      (∀ i t, system.step s (.popReturns i) t → s.head ≤ i) := by
  have hinv := reachable_inv h
  obtain ⟨q, hq⟩ := hinv.frames
  have hnd := hq.account.nodup_iff.mpr List.nodup_range
  refine ⟨(List.nodup_append.mp hnd).1, fun f hf => ?_, fun k f t => hinv.takes_oldest,
    fun hfree => ⟨s.head, hinv.free hfree, Int.le_refl _⟩, fun i t => hinv.popReturns_ge⟩
  simpa using hq.account.subset (List.mem_append_left _ hf)

/-- A fresh worker. -/
def exampleFresh : State where
  head := 0
  tail := 0
  protectedTail := 8
  exc := .slot 0
  ltq := fun _ => 0
  lock := none
  victim := .working
  thief := fun _ => .outside
  pushed := 0
  consumed := []

/-- The worker has pushed two frames, and thief 7 has stolen the older one. -/
theorem example_stolen :
    ∃ s, system.Reachable s ∧ s.head = 1 ∧ s.tail = 2 ∧ s.exc = .slot 1 ∧ s.ltq 1 = 1 ∧
      s.lock = none ∧ s.victim = .working ∧ s.thief 9 = .outside ∧
      s.consumed = [(.thief 7, 0)] := by
  have h₀ : system.Reachable exampleFresh := .init ⟨8, fun _ => 0, rfl⟩
  have h₁ := h₀.step (.victim (.pushLoad rfl))
  have h₂ := h₁.step (.victim (.pushSlot rfl))
  have h₃ := h₂.step (.victim (.pushTail rfl))
  have h₄ := h₃.step (.victim (.pushLoad rfl))
  have h₅ := h₄.step (.victim (.pushSlot rfl))
  have h₆ := h₅.step (.victim (.pushTail rfl))
  have h₇ := h₆.step (.thief (.lock (k := 7) rfl rfl))
  have h₈ := h₇.step (.thief (.incE (k := 7) rfl))
  have h₉ := h₈.step (.thief (.incEStore (k := 7) rfl))
  have h₁₀ := h₉.step (.thief (.readHead (k := 7) rfl))
  have h₁₁ := h₁₀.step (.thief (.readTail (k := 7) rfl (by decide)))
  have h₁₂ := h₁₁.step (.thief (.readHeadAgain (k := 7) rfl))
  have h₁₃ := h₁₂.step (.thief (.readProtected (k := 7) rfl (by decide)))
  have h₁₄ := h₁₃.step (.thief (.detachHead (k := 7) rfl))
  have h₁₅ := h₁₄.step (.thief (.detachStore (k := 7) rfl))
  have h₁₆ := h₁₅.step (.thief (.detachFrame (k := 7) rfl))
  have h₁₇ := h₁₆.step (.thief (.unlock (k := 7) rfl))
  exact ⟨_, h₁₇, rfl, rfl, rfl, rfl, rfl, rfl, rfl, rfl⟩

/-- While the worker pops the other one, thief 9 has announced itself: the worker waits for
the lock, the thief finds nothing, and the worker gets its frame. -/
theorem example_popped :
    ∃ s, system.Reachable s ∧ s.lock = none ∧ s.consumed = [(.victim, 1), (.thief 7, 0)] := by
  obtain ⟨s, hr, hhead, htail, hexc, hslot, hlock, hvictim, hthief, hcons⟩ := example_stolen
  obtain ⟨⟨head, tail, protectedTail, exc, ltq⟩, lock, victim, thief, pushed, consumed⟩ := s
  simp only at hhead htail hexc hslot hlock hvictim hthief hcons
  subst hhead htail hexc hlock hvictim hcons
  have h₁ := hr.step (.victim (.popLoad rfl))
  have h₂ := h₁.step (.thief (.lock (k := 9) hthief rfl))
  have h₃ := h₂.step (.thief (.incE (k := 9) rfl))
  have h₄ := h₃.step (.thief (.incEStore (k := 9) rfl))
  have h₅ := h₄.step (.victim (.popTail rfl))
  have h₆ := h₅.step (.victim (.popSlow rfl rfl))
  have h₇ := h₆.step (.thief (.readHead (k := 9) rfl))
  have h₈ := h₇.step (.thief (.emptyDeque (k := 9) rfl (show ¬ (1 : Int) < 1 by decide)))
  have h₉ := h₈.step (.thief (.decE (k := 9) rfl))
  have h₁₀ := h₉.step (.thief (.decEStore (k := 9) rfl))
  have h₁₁ := h₁₀.step (.thief (.unlock (k := 9) rfl))
  have h₁₂ := h₁₁.step (.victim (.checkLock rfl rfl))
  have h₁₃ := h₁₂.step (.victim (.checkHead rfl))
  have h₁₄ := h₁₃.step (.victim (.checkExc rfl))
  have h₁₅ := h₁₄.step (.victim (.checkReadHead rfl))
  have h₁₆ := h₁₅.step (.victim (.checkNotStolen rfl (show (1 : Int) < 1 + 1 by decide)))
  have h₁₇ := h₁₆.step (.victim (.popChecked rfl))
  exact ⟨_, h₁₇, rfl, congrArg (fun f => [(Party.victim, f), (.thief 7, 0)]) hslot⟩

/-- A frame has been stolen and one has been popped, while another thief failed. -/
theorem protocol_safe_examplePopped :
    ∃ s, system.Reachable s ∧ s.consumed = [(.victim, 1), (.thief 7, 0)] ∧
      (s.consumed.map Prod.snd).Nodup ∧ (∀ f ∈ s.consumed.map Prod.snd, f < s.pushed) ∧
      ∃ e, s.exc = .slot e ∧ s.head ≤ e := by
  obtain ⟨s, hr, hlock, hcons⟩ := example_popped
  obtain ⟨hnd, hpushed, -, hexc, -⟩ := protocol_safe hr
  exact ⟨s, hr, hcons, hnd, hpushed, hexc hlock⟩

end SwanRuntime.THE
