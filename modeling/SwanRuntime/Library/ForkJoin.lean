import Mathlib.Logic.Function.Basic
import Mathlib.Logic.Relation
import Mathlib.Tactic.Common
import SwanRuntime.Library.Transition

/-!
# A fork and a join along a tree

Parties are arranged in a tree. A party that is called calls its children one
after the other, does its own work once, waits for its children one after the
other and then clears the slot through which it was called. The root starts by
itself.

The fork and the join of a party may visit the children in different orders.

## Results

* `CallTree.Reachable.below`      — only parties of the tree are called.
* `CallTree.Reachable.once`       — no party is called twice.
* `CallTree.Reachable.subtree`    — a party is finished only after its subtree.
* `CallTree.Reachable.complete`   — when the root is done all parties are
  finished and all slots clear.
* `CallTree.Reachable.progress`   — no state before that is stuck.
-/

namespace SwanRuntime

/-- Whom each party calls, and in which order it waits for them. -/
structure CallTree (ν : Type*) where
  root : ν
  fork : ν → List ν
  join : ν → List ν

namespace CallTree

variable {ν : Type*} [DecidableEq ν] (T : CallTree ν)

/-- Every party is called by one other at most, and never the root. -/
structure WellFormed : Prop where
  nodup      : ∀ i, (T.fork i).Nodup
  mem_join   : ∀ i d, d ∈ T.join i ↔ d ∈ T.fork i
  unique     : ∀ i j d, d ∈ T.fork i → d ∈ T.fork j → i = j
  root_notMem : ∀ i, T.root ∉ T.fork i

/-- `d` is in the subtree of `i`. -/
def Below (i d : ν) : Prop := Relation.TransGen (fun i d => d ∈ T.fork i) i d

/-- What a party does, with the children that are still to be called, or waited
for. -/
inductive Pc (ν : Type*)
  | waiting
  | fork (todo : List ν)
  | join (todo : List ν)
  | done
deriving DecidableEq, Repr

/-- The slots, and who called whom and how often each party has worked. -/
structure State (ν : Type*) where
  pc       : ν → Pc ν
  slot     : ν → Bool
  calledBy : ν → List ν
  executed : ν → Nat

/-- A party makes one step. -/
def next (s : State ν) (i : ν) : Option (State ν) :=
  match s.pc i with
  | .waiting =>
    if s.slot i then some { s with pc := Function.update s.pc i (.fork (T.fork i)) } else none
  | .fork (d :: todo) => some { s with
      pc       := Function.update s.pc i (.fork todo)
      slot     := Function.update s.slot d true
      calledBy := Function.update s.calledBy d (i :: s.calledBy d) }
  | .fork [] => some { s with
      pc       := Function.update s.pc i (.join (T.join i))
      executed := Function.update s.executed i (s.executed i + 1) }
  | .join (d :: todo) =>
    if s.slot d then none else some { s with pc := Function.update s.pc i (.join todo) }
  | .join [] =>
    if i = T.root then some { s with pc := Function.update s.pc i .done }
    else some { s with
      pc   := Function.update s.pc i .waiting
      slot := Function.update s.slot i false }
  | .done => none

/-- All slots are clear, and the root starts. -/
def initial : State ν where
  pc       := Function.update (fun _ => .waiting) T.root (.fork (T.fork T.root))
  slot     := fun _ => false
  calledBy := fun _ => []
  executed := fun _ => 0

def machine : LTS (State ν) ν where
  init s := s = T.initial
  step s i t := T.next s i = some t

/-- The parties of a schedule make one step each. -/
def run : State ν → List ν → Option (State ν)
  | s, [] => some s
  | s, i :: schedule => (T.next s i).bind fun t => run t schedule

/-- The party has worked and cleared its slot. -/
def Finished (s : State ν) (i : ν) : Prop := s.executed i = 1 ∧ s.slot i = false

-- ---------------------------------------------------------------------------
-- The invariant
-- ---------------------------------------------------------------------------

/-- What a party other than the root has done. -/
def PartyOk (s : State ν) (i : ν) : Pc ν → Prop
  | .waiting =>
    (s.calledBy i = [] ∧ s.slot i = false ∧ s.executed i = 0) ∨
      (s.calledBy i ≠ [] ∧ s.slot i = true ∧ s.executed i = 0) ∨
      (s.calledBy i ≠ [] ∧ s.slot i = false ∧ s.executed i = 1)
  | .fork todo =>
    s.calledBy i ≠ [] ∧ s.slot i = true ∧ s.executed i = 0 ∧ todo.Nodup ∧ todo ⊆ T.fork i
  | .join todo => s.calledBy i ≠ [] ∧ s.slot i = true ∧ s.executed i = 1 ∧ todo ⊆ T.fork i
  | .done => False

/-- What the root has done. -/
def RootOk (s : State ν) : Pc ν → Prop
  | .waiting => False
  | .fork todo => s.executed T.root = 0 ∧ todo.Nodup ∧ todo ⊆ T.fork T.root
  | .join todo => s.executed T.root = 1 ∧ todo ⊆ T.fork T.root
  | .done => s.executed T.root = 1

/-- What a party knows of its child `d`. -/
def ChildOk (s : State ν) (i d : ν) : Pc ν → Prop
  | .waiting => if s.executed i = 0 then s.calledBy d = [] else s.calledBy d = [i] ∧ Finished s d
  | .fork todo => if d ∈ todo then s.calledBy d = [] else s.calledBy d = [i]
  | .join todo => s.calledBy d = [i] ∧ (d ∉ todo → Finished s d)
  | .done => s.calledBy d = [i] ∧ Finished s d

structure Inv (s : State ν) : Prop where
  party  : ∀ i, i ≠ T.root → PartyOk T s i (s.pc i)
  root   : RootOk T s (s.pc T.root)
  free   : s.calledBy T.root = [] ∧ s.slot T.root = false
  child  : ∀ i d, d ∈ T.fork i → ChildOk s i d (s.pc i)
  caller : ∀ i d, i ∈ s.calledBy d → d ∈ T.fork i

variable {T}

theorem inv_initial (hT : T.WellFormed) : Inv T T.initial := by
  refine ⟨fun i hi => ?_, ?_, ⟨rfl, rfl⟩, fun i d hd => ?_, nofun⟩
  · simp only [initial, Function.update_of_ne hi]
    exact .inl ⟨rfl, rfl, rfl⟩
  · simp only [initial, Function.update_self]
    exact ⟨rfl, hT.nodup _, fun _ h => h⟩
  · by_cases hi : i = T.root
    · subst hi
      simp only [initial, Function.update_self]
      simp [ChildOk, hd]
    · simp only [initial, Function.update_of_ne hi]
      simp [ChildOk]

section Inv

variable {s t : State ν} {i j d : ν} {todo : List ν}

omit [DecidableEq ν] in
theorem PartyOk.congr {pc : Pc ν} (h : PartyOk T s i pc) (h₁ : t.calledBy i = s.calledBy i)
    (h₂ : t.slot i = s.slot i) (h₃ : t.executed i = s.executed i) : PartyOk T t i pc := by
  cases pc <;> simp only [PartyOk, h₁, h₂, h₃] at h ⊢ <;> exact h

theorem ChildOk.congr {pc : Pc ν} (h : ChildOk s i d pc) (h₁ : t.calledBy d = s.calledBy d)
    (h₂ : t.executed i = s.executed i) (h₃ : Finished s d → Finished t d) :
    ChildOk t i d pc := by
  cases pc with
  | waiting =>
    simp only [ChildOk, h₁, h₂] at h ⊢
    split at h <;> simp_all
  | fork todo => simpa only [ChildOk, h₁] using h
  | join todo => exact ⟨h₁.trans h.1, fun hd => h₃ (h.2 hd)⟩
  | done => exact ⟨h₁.trans h.1, h₃ h.2⟩

/-- A party that is not called has done nothing. -/
theorem Inv.uncalled (h : Inv T s) (hi : i ≠ T.root) (hc : s.calledBy i = []) :
    s.pc i = .waiting ∧ s.slot i = false ∧ s.executed i = 0 := by
  have hparty := h.party i hi
  cases hpc : s.pc i with
  | waiting =>
    rw [hpc] at hparty
    rcases hparty with hp | hp | hp
    · exact ⟨rfl, hp.2⟩
    · exact absurd hc hp.1
    · exact absurd hc hp.1
  | fork todo => rw [hpc] at hparty; exact absurd hc hparty.1
  | join todo => rw [hpc] at hparty; exact absurd hc hparty.1
  | done => rw [hpc] at hparty; exact hparty.elim

/-- A party that was called and whose slot is clear is finished. -/
theorem Inv.finished (h : Inv T s) (hi : i ≠ T.root) (hc : s.calledBy i ≠ [])
    (hslot : s.slot i = false) : Finished s i := by
  have hparty := h.party i hi
  cases hpc : s.pc i with
  | waiting =>
    rw [hpc] at hparty
    rcases hparty with hp | hp | hp
    · exact absurd hp.1 hc
    · rw [hslot] at hp
      exact absurd hp.2.1 (by decide)
    · exact ⟨hp.2.2, hslot⟩
  | fork todo => rw [hpc, PartyOk, hslot] at hparty; exact absurd hparty.2.1 (by decide)
  | join todo => rw [hpc, PartyOk, hslot] at hparty; exact absurd hparty.2.1 (by decide)
  | done => rw [hpc] at hparty; exact hparty.elim

theorem Inv.ne_root (h : Inv T s) (hpc : s.pc i = .waiting) : i ≠ T.root := by
  rintro rfl
  have := h.root
  rw [hpc] at this
  exact this

/-- The root or not, a party that forks has not worked. -/
theorem Inv.fork_todo (h : Inv T s) (hpc : s.pc i = .fork todo) :
    s.executed i = 0 ∧ todo.Nodup ∧ todo ⊆ T.fork i := by
  by_cases hi : i = T.root
  · have hroot := h.root
    rw [← hi, hpc] at hroot
    exact hi ▸ hroot
  · have hparty := h.party i hi
    rw [hpc] at hparty
    exact hparty.2.2

/-- The root or not, a party that joins has worked. -/
theorem Inv.join_todo (h : Inv T s) (hpc : s.pc i = .join todo) :
    s.executed i = 1 ∧ todo ⊆ T.fork i := by
  by_cases hi : i = T.root
  · have hroot := h.root
    rw [← hi, hpc] at hroot
    exact hi ▸ hroot
  · have hparty := h.party i hi
    rw [hpc] at hparty
    exact hparty.2.2

omit [DecidableEq ν] in
theorem WellFormed.ne_root (hT : T.WellFormed) (hd : d ∈ T.fork i) : d ≠ T.root := by
  rintro rfl
  exact hT.root_notMem i hd

/-- A party finds its slot set. -/
theorem Inv.start (hT : T.WellFormed) (h : Inv T s) (hpc : s.pc i = .waiting)
    (hslot : s.slot i = true) :
    Inv T { s with pc := Function.update s.pc i (.fork (T.fork i)) } := by
  have hi := h.ne_root hpc
  have hparty := h.party i hi
  rw [hpc] at hparty
  have hcalled : s.calledBy i ≠ [] ∧ s.executed i = 0 := by
    rcases hparty with hp | hp | hp
    · rw [hslot] at hp
      exact absurd hp.2.1 (by decide)
    · exact ⟨hp.1, hp.2.2⟩
    · rw [hslot] at hp
      exact absurd hp.2.1 (by decide)
  refine ⟨fun j hj => ?_, ?_, h.free, fun j d hd => ?_, h.caller⟩
  · by_cases hji : j = i
    · subst hji
      simp only [Function.update_self]
      exact ⟨hcalled.1, hslot, hcalled.2, hT.nodup j, fun _ h => h⟩
    · simp only [Function.update_of_ne hji]
      exact (h.party j hj).congr rfl rfl rfl
  · simp only [Function.update_of_ne hi.symm]
    exact h.root
  · by_cases hji : j = i
    · subst hji
      have hchild := h.child j d hd
      rw [hpc, ChildOk, if_pos hcalled.2] at hchild
      simp only [Function.update_self, ChildOk, if_pos hd]
      exact hchild
    · simp only [Function.update_of_ne hji]
      exact (h.child j d hd).congr rfl rfl id

/-- A party calls a child. -/
theorem Inv.call (hT : T.WellFormed) (h : Inv T s) (hpc : s.pc i = .fork (d :: todo)) :
    Inv T { s with
      pc       := Function.update s.pc i (.fork todo)
      slot     := Function.update s.slot d true
      calledBy := Function.update s.calledBy d (i :: s.calledBy d) } := by
  have htodo := (h.fork_todo hpc).2
  have hd : d ∈ T.fork i := htodo.2 List.mem_cons_self
  have hdroot := hT.ne_root hd
  -- the child is still to be called, so nobody has called it
  have hcalled : s.calledBy d = [] := by
    have := h.child i d hd
    rw [hpc, ChildOk, if_pos List.mem_cons_self] at this
    exact this
  obtain ⟨hdpc, hdslot, hdexec⟩ := h.uncalled hdroot hcalled
  have hid : i ≠ d := by
    rintro rfl
    rw [hpc] at hdpc
    cases hdpc
  refine ⟨fun j hj => ?_, ?_, ?_, fun j e he => ?_, fun j e he => ?_⟩
  · by_cases hji : j = i
    · subst hji
      have hparty := h.party j hj
      rw [hpc] at hparty
      simp only [Function.update_self]
      refine PartyOk.congr (s := s) ⟨hparty.1, hparty.2.1, hparty.2.2.1, ?_, ?_⟩
        (Function.update_of_ne hid ..) (Function.update_of_ne hid ..) rfl
      · exact (List.nodup_cons.mp htodo.1).2
      · exact fun e he => htodo.2 (List.mem_cons_of_mem _ he)
    · simp only [Function.update_of_ne hji]
      by_cases hjd : j = d
      · subst hjd
        rw [hdpc]
        exact .inr (.inl ⟨by simp, by simp, hdexec⟩)
      · exact (h.party j hj).congr (Function.update_of_ne hjd ..) (Function.update_of_ne hjd ..) rfl
  · by_cases hi : i = T.root
    · have hroot := h.root
      rw [← hi, hpc] at hroot
      simp only [← hi, Function.update_self]
      subst hi
      exact ⟨hroot.1, (List.nodup_cons.mp htodo.1).2,
        fun e he => htodo.2 (List.mem_cons_of_mem _ he)⟩
    · simp only [Function.update_of_ne (Ne.symm hi)]
      have hroot := h.root
      cases hrpc : s.pc T.root <;> rw [hrpc] at hroot <;> exact hroot
  · exact ⟨(Function.update_of_ne hdroot.symm ..).trans h.free.1,
      (Function.update_of_ne hdroot.symm ..).trans h.free.2⟩
  · by_cases hed : e = d
    · -- only `i` has `d` as a child
      subst hed
      obtain rfl := hT.unique j i e he hd
      simp only [Function.update_self, ChildOk, hcalled,
        if_neg (List.nodup_cons.mp htodo.1).1]
    · have hfin : Finished s e → Finished { s with
          pc       := Function.update s.pc i (.fork todo)
          slot     := Function.update s.slot d true
          calledBy := Function.update s.calledBy d (i :: s.calledBy d) } e :=
        fun hf => ⟨hf.1, (Function.update_of_ne hed ..).trans hf.2⟩
      by_cases hji : j = i
      · subst hji
        have hchild := h.child j e he
        rw [hpc] at hchild
        simp only [Function.update_self]
        refine ChildOk.congr (s := s) ?_ (Function.update_of_ne hed ..) rfl hfin
        simpa only [ChildOk, List.mem_cons, hed, false_or] using hchild
      · simp only [Function.update_of_ne hji]
        exact (h.child j e he).congr (Function.update_of_ne hed ..) rfl hfin
  · by_cases hed : e = d
    · subst hed
      simp only [Function.update_self, hcalled, List.mem_singleton] at he
      exact he ▸ hd
    · simp only [Function.update_of_ne hed] at he
      exact h.caller j e he

/-- A party works. -/
theorem Inv.execute (hT : T.WellFormed) (h : Inv T s) (hpc : s.pc i = .fork []) :
    Inv T { s with
      pc       := Function.update s.pc i (.join (T.join i))
      executed := Function.update s.executed i (s.executed i + 1) } := by
  have hexec := (h.fork_todo hpc).1
  have hfin : ∀ e, Finished s e → Finished { s with
      pc       := Function.update s.pc i (.join (T.join i))
      executed := Function.update s.executed i (s.executed i + 1) } e := by
    intro e hf
    -- a finished party has worked already
    have hei : e ≠ i := by
      rintro rfl
      exact absurd (hexec.symm.trans hf.1) (by decide)
    exact ⟨(Function.update_of_ne hei ..).trans hf.1, hf.2⟩
  have hjoin : T.join i ⊆ T.fork i := fun e he => (hT.mem_join i e).mp he
  refine ⟨fun j hj => ?_, ?_, h.free, fun j e he => ?_, h.caller⟩
  · by_cases hji : j = i
    · subst hji
      have hparty := h.party j hj
      rw [hpc] at hparty
      simp only [Function.update_self]
      exact ⟨hparty.1, hparty.2.1, by simp [hexec], hjoin⟩
    · simp only [Function.update_of_ne hji]
      exact (h.party j hj).congr rfl rfl (Function.update_of_ne hji ..)
  · by_cases hi : i = T.root
    · subst hi
      simp only [Function.update_self]
      exact ⟨by simp [hexec], hjoin⟩
    · have hroot := h.root
      have hupd : Function.update s.executed i (s.executed i + 1) T.root = s.executed T.root :=
        Function.update_of_ne (Ne.symm hi) ..
      simp only [Function.update_of_ne (Ne.symm hi)]
      cases hrpc : s.pc T.root <;> rw [hrpc] at hroot <;> simp only [RootOk, hupd] at hroot ⊢ <;>
        exact hroot
  · by_cases hji : j = i
    · subst hji
      have hchild := h.child j e he
      rw [hpc] at hchild
      simp only [Function.update_self]
      refine ⟨hchild, fun hnot => absurd ((hT.mem_join j e).mpr he) hnot⟩
    · simp only [Function.update_of_ne hji]
      exact (h.child j e he).congr rfl (Function.update_of_ne hji ..) (hfin e)

/-- A party finds the slot of a child clear. -/
theorem Inv.wait (hT : T.WellFormed) (h : Inv T s) (hpc : s.pc i = .join (d :: todo))
    (hslot : s.slot d = false) :
    Inv T { s with pc := Function.update s.pc i (.join todo) } := by
  have htodo := (h.join_todo hpc).2
  have hd : d ∈ T.fork i := htodo List.mem_cons_self
  refine ⟨fun j hj => ?_, ?_, h.free, fun j e he => ?_, h.caller⟩
  · by_cases hji : j = i
    · subst hji
      have hparty := h.party j hj
      rw [hpc] at hparty
      simp only [Function.update_self]
      exact ⟨hparty.1, hparty.2.1, hparty.2.2.1, fun e he => htodo (List.mem_cons_of_mem _ he)⟩
    · simp only [Function.update_of_ne hji]
      exact (h.party j hj).congr rfl rfl rfl
  · have hroot := h.root
    by_cases hi : i = T.root
    · rw [← hi, hpc] at hroot
      subst hi
      simp only [Function.update_self]
      exact ⟨hroot.1, fun e he => htodo (List.mem_cons_of_mem _ he)⟩
    · simp only [Function.update_of_ne (Ne.symm hi)]
      exact hroot
  · by_cases hji : j = i
    · subst hji
      have hchild := h.child j e he
      rw [hpc] at hchild
      simp only [Function.update_self]
      refine ⟨hchild.1, fun hnot => ?_⟩
      by_cases hed : e = d
      · subst hed
        -- a child that was called and whose slot is clear is finished
        exact h.finished (hT.ne_root he) (by rw [hchild.1]; simp) hslot
      · exact hchild.2 (by simp [hed, hnot])
    · simp only [Function.update_of_ne hji]
      exact (h.child j e he).congr rfl rfl id

/-- A party other than the root is done and clears its slot. -/
theorem Inv.clear (h : Inv T s) (hpc : s.pc i = .join []) (hi : i ≠ T.root) :
    Inv T { s with
      pc   := Function.update s.pc i .waiting
      slot := Function.update s.slot i false } := by
  have hparty := h.party i hi
  rw [hpc] at hparty
  have hfin : ∀ e, Finished s e → Finished { s with
      pc   := Function.update s.pc i .waiting
      slot := Function.update s.slot i false } e := by
    intro e hf
    -- the slot of a finished party is clear already
    have hei : e ≠ i := by
      rintro rfl
      exact absurd (hparty.2.1.symm.trans hf.2) (by decide)
    exact ⟨hf.1, (Function.update_of_ne hei ..).trans hf.2⟩
  refine ⟨fun j hj => ?_, ?_, ⟨h.free.1, ?_⟩, fun j e he => ?_, h.caller⟩
  · by_cases hji : j = i
    · subst hji
      simp only [Function.update_self]
      exact .inr (.inr ⟨hparty.1, by simp, hparty.2.2.1⟩)
    · simp only [Function.update_of_ne hji]
      exact (h.party j hj).congr rfl (Function.update_of_ne hji ..) rfl
  · simp only [Function.update_of_ne (Ne.symm hi)]
    have hroot := h.root
    cases hrpc : s.pc T.root <;> rw [hrpc] at hroot <;> exact hroot
  · exact (Function.update_of_ne (Ne.symm hi) ..).trans h.free.2
  · by_cases hji : j = i
    · subst hji
      have hchild := h.child j e he
      rw [hpc] at hchild
      simp only [Function.update_self, ChildOk]
      rw [if_neg (by rw [hparty.2.2.1]; decide)]
      exact ⟨hchild.1, hfin e (hchild.2 List.not_mem_nil)⟩
    · simp only [Function.update_of_ne hji]
      exact (h.child j e he).congr rfl rfl (hfin e)

/-- The root is done. -/
theorem Inv.complete (h : Inv T s) (hpc : s.pc T.root = .join []) :
    Inv T { s with pc := Function.update s.pc T.root .done } := by
  have hroot := h.root
  rw [hpc] at hroot
  refine ⟨fun j hj => ?_, ?_, h.free, fun j e he => ?_, h.caller⟩
  · simp only [Function.update_of_ne hj]
    exact (h.party j hj).congr rfl rfl rfl
  · simp only [Function.update_self]
    exact hroot.1
  · by_cases hj : j = T.root
    · subst hj
      have hchild := h.child T.root e he
      rw [hpc] at hchild
      simp only [Function.update_self]
      exact ⟨hchild.1, hchild.2 List.not_mem_nil⟩
    · simp only [Function.update_of_ne hj]
      exact (h.child j e he).congr rfl rfl id

/-- Every step keeps the invariant. -/
theorem Inv.next (hT : T.WellFormed) (h : Inv T s) (hs : T.next s i = some t) : Inv T t := by
  unfold CallTree.next at hs
  split at hs
  · split at hs
    · obtain rfl := Option.some.inj hs
      exact h.start hT ‹_› ‹_›
    · cases hs
  · obtain rfl := Option.some.inj hs
    exact h.call hT ‹_›
  · obtain rfl := Option.some.inj hs
    exact h.execute hT ‹_›
  · split at hs
    · cases hs
    · obtain rfl := Option.some.inj hs
      exact h.wait hT ‹_› (Bool.eq_false_iff.mpr ‹_›)
  · rename_i hpc
    split at hs
    · obtain rfl := Option.some.inj hs
      rename_i hi
      subst hi
      exact h.complete hpc
    · obtain rfl := Option.some.inj hs
      exact h.clear hpc ‹_›
  · cases hs

theorem reachable_run {schedule : List ν} (h : T.machine.Reachable s)
    (hrun : T.run s schedule = some t) : T.machine.Reachable t := by
  induction schedule generalizing s with
  | nil => exact Option.some.inj hrun ▸ h
  | cons i schedule ih =>
    obtain ⟨u, hu, hrun⟩ := Option.bind_eq_some_iff.mp hrun
    exact ih (h.step hu) hrun

theorem inv_of_reachable (hT : T.WellFormed) (h : T.machine.Reachable s) : Inv T s := by
  refine LTS.Reachable.invariant (P := Inv T) (fun s hs => ?_) (fun s e t hinv hst => ?_) h
  · rw [hs]
    exact inv_initial hT
  · exact hinv.next hT hst

-- ---------------------------------------------------------------------------
-- What holds in every reachable state
-- ---------------------------------------------------------------------------

theorem Inv.calledBy_cases (h : Inv T s) (d : ν) :
    s.calledBy d = [] ∨ ∃ i, d ∈ T.fork i ∧ s.calledBy d = [i] := by
  cases hc : s.calledBy d with
  | nil => exact .inl rfl
  | cons i l =>
    have hd := h.caller i d (by simp [hc])
    have hchild := h.child i d hd
    refine .inr ⟨i, hd, ?_⟩
    cases hpc : s.pc i with
    | waiting =>
      simp only [hpc, ChildOk, hc] at hchild
      split at hchild
      · cases hchild
      · exact hchild.1
    | fork todo =>
      simp only [hpc, ChildOk, hc] at hchild
      split at hchild
      · cases hchild
      · exact hchild
    | join todo => rw [hpc, ChildOk, hc] at hchild; exact hchild.1
    | done => rw [hpc, ChildOk, hc] at hchild; exact hchild.1

/-- Only parties of the tree are called. -/
theorem Reachable.below (hT : T.WellFormed) (h : T.machine.Reachable s) (hd : s.calledBy d ≠ []) :
    T.Below T.root d := by
  induction h generalizing d with
  | init hs =>
    rw [hs] at hd
    exact absurd rfl hd
  | @step s t i h hs ih =>
    have hinv := inv_of_reachable hT h
    have hsame : t.calledBy = s.calledBy → T.Below T.root d := fun heq => ih (heq ▸ hd)
    unfold machine CallTree.next at hs
    simp only at hs
    split at hs
    · split at hs
      · exact hsame (by rw [← Option.some.inj hs])
      · cases hs
    · rename_i e todo hpc
      by_cases hde : d = e
      · -- a party that calls another is the root, or was called itself
        subst hde
        have hmem : d ∈ T.fork i := (hinv.fork_todo hpc).2.2 List.mem_cons_self
        by_cases hi : i = T.root
        · exact .single (hi ▸ hmem)
        · have hparty := hinv.party i hi
          rw [hpc] at hparty
          exact (ih hparty.1).tail hmem
      · refine ih ?_
        rw [← Option.some.inj hs] at hd
        simpa only [Function.update_of_ne hde] using hd
    · exact hsame (by rw [← Option.some.inj hs])
    · split at hs
      · cases hs
      · exact hsame (by rw [← Option.some.inj hs])
    · split at hs <;> exact hsame (by rw [← Option.some.inj hs])
    · cases hs

/-- No party is called twice. -/
theorem Reachable.once (hT : T.WellFormed) (h : T.machine.Reachable s) (d : ν) :
    (s.calledBy d).length ≤ 1 := by
  rcases (inv_of_reachable hT h).calledBy_cases d with hc | ⟨i, -, hc⟩ <;> simp [hc]

/-- The children of a finished party are finished. -/
theorem Inv.finished_child (h : Inv T s) (hi : i ≠ T.root) (hf : Finished s i)
    (hd : d ∈ T.fork i) : Finished s d := by
  have hparty := h.party i hi
  have hchild := h.child i d hd
  cases hpc : s.pc i with
  | waiting =>
    rw [hpc, ChildOk, if_neg (by rw [hf.1]; decide)] at hchild
    exact hchild.2
  | fork todo => rw [hpc, PartyOk, hf.2] at hparty; exact absurd hparty.2.1 (by decide)
  | join todo => rw [hpc, PartyOk, hf.2] at hparty; exact absurd hparty.2.1 (by decide)
  | done => rw [hpc] at hparty; exact hparty.elim

/-- A party is finished only after its subtree. -/
theorem Reachable.subtree (hT : T.WellFormed) (h : T.machine.Reachable s) (hi : i ≠ T.root)
    (hf : Finished s i) (hd : T.Below i d) : Finished s d := by
  have hinv := inv_of_reachable hT h
  induction hd with
  | single hd => exact hinv.finished_child hi hf hd
  | tail hb hd ih =>
    refine hinv.finished_child ?_ ih hd
    cases hb with
    | single hb => exact hT.ne_root hb
    | tail _ hb => exact hT.ne_root hb

/-- When the root is done every party has been called once, has worked once and
has cleared its slot. -/
theorem Reachable.complete (hT : T.WellFormed) (h : T.machine.Reachable s)
    (hdone : s.pc T.root = .done) (hd : T.Below T.root d) :
    (s.calledBy d).length = 1 ∧ Finished s d := by
  have hinv := inv_of_reachable hT h
  have hfin : Finished s d ∧ d ≠ T.root := by
    induction hd with
    | single hd =>
      have hchild := hinv.child _ _ hd
      rw [hdone] at hchild
      exact ⟨hchild.2, hT.ne_root hd⟩
    | tail _ hd ih => exact ⟨hinv.finished_child ih.2 ih.1 hd, hT.ne_root hd⟩
  refine ⟨?_, hfin.1⟩
  rcases hinv.calledBy_cases d with hc | ⟨i, -, hc⟩
  · have := (hinv.uncalled hfin.2 hc).2.2
    exact absurd (this.symm.trans hfin.1.1) (by decide)
  · rw [hc]
    rfl

/-- A party whose slot is set, and the root, are never stuck. -/
theorem Inv.active (h : Inv T s) (hwf : WellFounded fun d i => d ∈ T.fork i) (i : ν)
    (hi : s.slot i = true ∨ (i = T.root ∧ s.pc i ≠ .done)) : ∃ j t, T.next s j = some t := by
  induction i using hwf.induction with
  | _ i ih =>
    cases hpc : s.pc i with
    | waiting =>
      rcases hi with hslot | ⟨rfl, -⟩
      · exact ⟨i, by simp [CallTree.next, hpc, hslot]⟩
      · exact absurd rfl (h.ne_root hpc)
    | fork todo =>
      cases todo with
      | nil => exact ⟨i, by simp [CallTree.next, hpc]⟩
      | cons d todo => exact ⟨i, by simp [CallTree.next, hpc]⟩
    | join todo =>
      cases todo with
      | nil =>
        by_cases hroot : i = T.root
        · exact ⟨i, by simp only [CallTree.next, hpc, if_pos hroot]; exact ⟨_, rfl⟩⟩
        · exact ⟨i, by simp only [CallTree.next, hpc, if_neg hroot]; exact ⟨_, rfl⟩⟩
      | cons d todo =>
        cases hslot : s.slot d with
        | false => exact ⟨i, by simp [CallTree.next, hpc, hslot]⟩
        | true =>
          -- what it waits for can go on
          have hd : d ∈ T.fork i := (h.join_todo hpc).2 List.mem_cons_self
          exact ih d hd (.inl hslot)
    | done =>
      rcases hi with hslot | ⟨-, hne⟩
      · by_cases hroot : i = T.root
        · rw [hroot, h.free.2] at hslot
          cases hslot
        · have := h.party i hroot
          rw [hpc] at this
          exact this.elim
      · exact absurd hpc hne

/-- Until the root is done some party can make a step. -/
theorem Reachable.progress (hT : T.WellFormed) (hwf : WellFounded fun d i => d ∈ T.fork i)
    (h : T.machine.Reachable s) (hdone : s.pc T.root ≠ .done) : ∃ j t, T.next s j = some t :=
  (inv_of_reachable hT h).active hwf T.root (.inr ⟨rfl, hdone⟩)

end Inv

end CallTree

end SwanRuntime
