import Mathlib.Logic.Function.Basic
import Mathlib.Tactic.Common

/-!
# Mutexes and their owners

A mutex is a lock word and the owner, which is stored after the lock has been taken
and removed before it is released. Who holds the lock, and who of these has entered
itself as the owner, is told by the program counters of the parties: `Held` connects
the two with the mutex, and there is one lemma for each access.

## Results

* `Held.acquire`, `Held.release`       — exchanging the lock word.
* `Held.owner_none`, `Held.owner_self` — what the assertions on the owner read.
* `Held.setOwner`, `Held.clearOwner`   — storing the owner.
-/

namespace SwanRuntime

/-- A mutex between parties `P`: the lock word is 1, and the owner. -/
structure Mutex (P : Type) where
  lock  : Bool
  owner : Option P

namespace Mutex

variable {P : Type}

/-- A free mutex. -/
def init : Mutex P where
  lock := false
  owner := none

/-- The mutex is held by the party, if any, that `holds` is true of; `owns` is true of
it between the stores of the owner. -/
structure Held (m : Mutex P) (holds owns : P → Bool) : Prop where
  lock   : m.lock = true ↔ ∃ p, holds p = true
  unique : ∀ p q, holds p = true → holds q = true → p = q
  owner  : ∀ p, m.owner = some p ↔ owns p = true
  owns   : ∀ p, owns p = true → holds p = true

variable {m : Mutex P} {holds owns : P → Bool}

theorem held_init {holds owns : P → Bool} (hholds : ∀ p, holds p = false)
    (howns : ∀ p, owns p = false) : Held init holds owns where
  lock := by simp [init, hholds]
  unique p q hp := by simp [hholds] at hp
  owner p := by simp [init, howns]
  owns p hp := by simp [howns] at hp

theorem Held.lock_of_holds (h : Held m holds owns) {p : P} (hp : holds p = true) :
    m.lock = true :=
  h.lock.mpr ⟨p, hp⟩

/-- A party that holds the lock but does not own it yet, or any more, finds no owner. -/
theorem Held.owner_none (h : Held m holds owns) {p : P} (hp : holds p = true)
    (hnot : owns p = false) : m.owner = none := by
  rcases hm : m.owner with _ | q
  · rfl
  · have hq : owns q = true := (h.owner q).mp hm
    obtain rfl := h.unique p q hp (h.owns q hq)
    rw [hnot] at hq
    cases hq

theorem Held.owner_self (h : Held m holds owns) {p : P} (hp : owns p = true) :
    m.owner = some p :=
  (h.owner p).mpr hp

variable [DecidableEq P]

/-- A step that changes nothing for `p`. -/
theorem Held.stay (h : Held m holds owns) {p : P} {hp op : Bool} (hhp : holds p = hp)
    (hop : owns p = op) : Held m (Function.update holds p hp) (Function.update owns p op) := by
  rwa [← hhp, ← hop, Function.update_eq_self, Function.update_eq_self]

theorem Held.acquire (h : Held m holds owns) (hfree : m.lock = false) (p : P) :
    Held { m with lock := true } (Function.update holds p true) (Function.update owns p false) := by
  have hnone : ∀ q, holds q = false := fun q => by
    by_contra hq
    rw [h.lock_of_holds (eq_true_of_ne_false hq)] at hfree
    cases hfree
  have hnot : owns p = false := by
    by_contra hp
    have hheld := h.owns p (eq_true_of_ne_false hp)
    rw [hnone] at hheld
    cases hheld
  have heq : ∀ q, Function.update holds p true q = true → q = p := fun q hq => by
    by_contra hne
    rw [Function.update_of_ne hne, hnone] at hq
    cases hq
  rw [show Function.update owns p false = owns by rw [← hnot, Function.update_eq_self]]
  refine ⟨?_, ?_, h.owner, ?_⟩
  · simpa using ⟨p, Function.update_self p true holds⟩
  · intro q r hq hr
    rw [heq q hq, heq r hr]
  · intro q hq
    have hheld := h.owns q hq
    rw [hnone] at hheld
    cases hheld

theorem Held.setOwner (h : Held m holds owns) {p : P} (hp : holds p = true)
    (hnot : owns p = false) :
    Held { m with owner := some p } (Function.update holds p true)
      (Function.update owns p true) := by
  rw [show Function.update holds p true = holds by rw [← hp, Function.update_eq_self]]
  refine ⟨h.lock, h.unique, ?_, ?_⟩
  · intro q
    by_cases hq : q = p
    · subst hq
      simp
    · have hnone : owns q = false := by
        by_contra hown
        exact hq (h.unique q p (h.owns q (eq_true_of_ne_false hown)) hp)
      simp [Function.update_of_ne hq, hnone, Ne.symm hq]
  · intro q hq
    by_cases hqp : q = p
    · rw [hqp, hp]
    · rw [Function.update_of_ne hqp] at hq
      exact h.owns q hq

theorem Held.clearOwner (h : Held m holds owns) {p : P} (hp : owns p = true) :
    Held { m with owner := none } (Function.update holds p true)
      (Function.update owns p false) := by
  have hheld := h.owns p hp
  rw [show Function.update holds p true = holds by rw [← hheld, Function.update_eq_self]]
  refine ⟨h.lock, h.unique, ?_, ?_⟩
  · intro q
    by_cases hq : q = p
    · subst hq
      simp
    · have hnone : owns q = false := by
        by_contra hown
        exact hq (h.unique q p (h.owns q (eq_true_of_ne_false hown)) hheld)
      simp [Function.update_of_ne hq, hnone]
  · intro q hq
    by_cases hqp : q = p
    · rw [hqp, hheld]
    · rw [Function.update_of_ne hqp] at hq
      exact h.owns q hq

theorem Held.release (h : Held m holds owns) {p : P} (hp : holds p = true)
    (hnot : owns p = false) :
    Held { m with lock := false } (Function.update holds p false)
      (Function.update owns p false) := by
  have hnone : ∀ q, Function.update holds p false q = false := fun q => by
    by_cases hq : q = p
    · rw [hq, Function.update_self]
    · by_contra hheld
      rw [Function.update_of_ne hq] at hheld
      exact hq (h.unique q p (eq_true_of_ne_false hheld) hp)
  rw [show Function.update owns p false = owns by rw [← hnot, Function.update_eq_self]]
  refine ⟨?_, ?_, h.owner, ?_⟩
  · simp [hnone]
  · intro q r hq hr
    rw [hnone] at hq
    cases hq
  · intro q hq
    by_cases hqp : q = p
    · rw [hqp, hnot] at hq
      cases hq
    · rw [Function.update_of_ne hqp]
      exact h.owns q hq

end Mutex

end SwanRuntime
