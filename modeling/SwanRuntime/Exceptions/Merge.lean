import Mathlib.Algebra.BigOperators.Group.List.Basic
import SwanRuntime.Library.Checked

/-!
# Exceptions — merging two records

A strand that ends or suspends leaves a record of its exception state: the
active exception, whether the exception caught last is to be rethrown, the
exceptions that are caught and the number of uncaught ones. Records of adjacent
strands are merged, the left one being serially earlier.

The state that a record holds is a `Content`. Contents form a monoid, and a
merge whose assertions hold multiplies them; no record at all stands for the
unit, as does a record in which nothing is set.

## Results

* `merge_eq_ok_iff`  — when a merge returns.
* `merge_content`    — a merge multiplies contents.
* `mergeLaws`        — what one merge does to the fields.
-/

namespace SwanRuntime.Exceptions

open Checked

variable {Exc : Type}

-- ---------------------------------------------------------------------------
-- The code
-- ---------------------------------------------------------------------------

/-- `pending_exception_info`. -/
structure PendingExceptionInfo (Exc : Type) where
  active             : Option Exc
  rethrow            : Bool
  caughtExceptions   : List Exc
  uncaughtExceptions : BitVec 32
deriving DecidableEq, Repr

/-- `pending_exception_info::empty`. -/
def PendingExceptionInfo.empty (e : PendingExceptionInfo Exc) : Bool :=
  e.active.isNone && !e.rethrow && e.caughtExceptions.isEmpty && e.uncaughtExceptions == 0

/-- `pending_exception_info::destruct`: the exceptions that are deleted. -/
def PendingExceptionInfo.destruct (e : PendingExceptionInfo Exc) : List Exc :=
  e.active.toList ++ e.caughtExceptions

/-- `__cilkrts_merge_pending_exceptions`, with the exceptions that it deletes. -/
def mergePendingExceptions (left right : Option (PendingExceptionInfo Exc)) :
    Checked (Option (PendingExceptionInfo Exc) × List Exc) :=
  match left, right with
  | none, right => return (right, [])
  | some left, none => return (some left, [])
  | some left, some right => do
    let (left, right) ←
      if left.caughtExceptions ≠ [] then do
        assert right.caughtExceptions.isEmpty "!right->runtime_state.caughtExceptions"
        pure (left, right)
      else do
        assert (!left.rethrow) "!left->rethrow"
        pure ({ left with rethrow := right.rethrow, caughtExceptions := right.caughtExceptions },
          { right with caughtExceptions := [] })
    let rightUncaught := right.uncaughtExceptions
    let (left, right) :=
      if left.active.isNone then
        ({ left with
            active := right.active
            uncaughtExceptions := left.uncaughtExceptions + rightUncaught },
          { right with active := none })
      else
        ({ left with uncaughtExceptions := left.uncaughtExceptions +
            (rightUncaught - if right.active.isSome then 1 else 0) }, right)
    let deleted := right.destruct
    if left.empty then return (none, deleted ++ left.destruct)
    else return (some left, deleted)

-- ---------------------------------------------------------------------------
-- Contents
-- ---------------------------------------------------------------------------

/-- The state that a record holds. -/
abbrev Content (Exc : Type) := PendingExceptionInfo Exc

/-- The active exception that is deleted when two records are merged. -/
def superseded (a b : Content Exc) : List Exc :=
  if a.active.isSome then b.active.toList else []

instance : One (Content Exc) := ⟨⟨none, false, [], 0⟩⟩

/-- The state of two adjacent strands. -/
instance : Mul (Content Exc) where
  mul a b :=
    { active             := a.active.or b.active
      rethrow            := if a.caughtExceptions = [] then a.rethrow || b.rethrow else a.rethrow
      caughtExceptions   :=
        if a.caughtExceptions = [] then b.caughtExceptions else a.caughtExceptions
      uncaughtExceptions := a.uncaughtExceptions + b.uncaughtExceptions -
        BitVec.ofNat 32 (superseded a b).length }

@[simp] theorem one_active : (1 : Content Exc).active = none := rfl
@[simp] theorem one_rethrow : (1 : Content Exc).rethrow = false := rfl
@[simp] theorem one_caught : (1 : Content Exc).caughtExceptions = [] := rfl
@[simp] theorem one_uncaught : (1 : Content Exc).uncaughtExceptions = 0 := rfl

@[simp] theorem mul_active (a b : Content Exc) : (a * b).active = a.active.or b.active := rfl

@[simp] theorem mul_rethrow (a b : Content Exc) : (a * b).rethrow =
    if a.caughtExceptions = [] then a.rethrow || b.rethrow else a.rethrow := rfl

@[simp] theorem mul_caught (a b : Content Exc) : (a * b).caughtExceptions =
    if a.caughtExceptions = [] then b.caughtExceptions else a.caughtExceptions := rfl

@[simp] theorem mul_uncaught (a b : Content Exc) : (a * b).uncaughtExceptions =
    a.uncaughtExceptions + b.uncaughtExceptions - BitVec.ofNat 32 (superseded a b).length := rfl

theorem content_ext {a b : Content Exc} (h₁ : a.active = b.active) (h₂ : a.rethrow = b.rethrow)
    (h₃ : a.caughtExceptions = b.caughtExceptions)
    (h₄ : a.uncaughtExceptions = b.uncaughtExceptions) : a = b := by
  cases a
  cases b
  simp_all

/-- The number of deleted exceptions does not depend on the order of the
merges. -/
theorem length_superseded (a b c : Content Exc) :
    (superseded a b).length + (superseded (a * b) c).length =
      (superseded b c).length + (superseded a (b * c)).length := by
  cases ha : a.active <;> cases hb : b.active <;> cases hc : c.active <;>
    simp [superseded, ha, hb, hc]

instance : Monoid (Content Exc) where
  mul_assoc a b c := by
    refine content_ext ?_ ?_ ?_ ?_
    · simp [Option.or_assoc]
    · simp only [mul_rethrow, mul_caught]
      by_cases ha : a.caughtExceptions = []
      · by_cases hb : b.caughtExceptions = [] <;> simp [ha, hb, Bool.or_assoc]
      · simp [ha]
    · simp only [mul_caught]
      by_cases ha : a.caughtExceptions = [] <;> simp [ha]
    · have hlen := congrArg (BitVec.ofNat 32) (length_superseded a b c)
      rw [BitVec.ofNat_add, BitVec.ofNat_add] at hlen
      simp only [mul_uncaught]
      grind
  one_mul a := by
    refine content_ext ?_ ?_ ?_ ?_ <;> simp [superseded]
  mul_one a := by
    refine content_ext ?_ ?_ ?_ ?_
    · simp
    · simp
    · by_cases ha : a.caughtExceptions = [] <;> simp [ha]
    · cases ha : a.active <;> simp [superseded, ha]

/-- The content of a record, or of no record. -/
def content (e : Option (PendingExceptionInfo Exc)) : Content Exc := e.getD 1

theorem empty_iff (e : PendingExceptionInfo Exc) : e.empty = true ↔ e = 1 := by
  constructor
  · intro h
    simp only [PendingExceptionInfo.empty, Bool.and_eq_true, Option.isNone_iff_eq_none,
      Bool.not_eq_true', List.isEmpty_iff, beq_iff_eq] at h
    exact content_ext h.1.1.1 h.1.1.2 h.1.2 h.2
  · rintro rfl
    rfl

-- ---------------------------------------------------------------------------
-- A merge
-- ---------------------------------------------------------------------------

/-- The assertions of a merge hold. -/
def Mergeable : Option (PendingExceptionInfo Exc) → Option (PendingExceptionInfo Exc) → Prop
  | some left, some right =>
    if left.caughtExceptions ≠ [] then right.caughtExceptions = [] else left.rethrow = false
  | _, _ => True

/-- The record that is left of a content. -/
def toRecord (a : Content Exc) : Option (PendingExceptionInfo Exc) :=
  if a.empty then none else some a

theorem content_toRecord (a : Content Exc) : content (toRecord a) = a := by
  unfold toRecord
  split
  · rw [(empty_iff a).mp ‹_›]
    rfl
  · rfl

theorem empty_destruct {e : PendingExceptionInfo Exc} (h : e.empty = true) : e.destruct = [] := by
  rw [(empty_iff e).mp h]
  rfl

/-- The fields of the left record after it has taken over the right one. -/
theorem merge_fields {left right : PendingExceptionInfo Exc}
    (h : Mergeable (some left) (some right)) :
    mergePendingExceptions (some left) (some right) =
      if (left * right).empty then .ok (none, superseded left right ++ (left * right).destruct)
      else .ok (some (left * right), superseded left right) := by
  by_cases hcaught : left.caughtExceptions = []
  · have hrethrow : left.rethrow = false := by simpa [Mergeable, hcaught] using h
    -- the left record has no exception caught, so its fields come from the right
    cases hactive : left.active with
    | none =>
      have hmul : left * right = ⟨right.active, right.rethrow, right.caughtExceptions,
          left.uncaughtExceptions + right.uncaughtExceptions⟩ :=
        content_ext (by simp [hactive]) (by simp [hcaught, hrethrow]) (by simp [hcaught])
          (by simp [superseded, hactive])
      simp [mergePendingExceptions, hcaught, hrethrow, hactive, hmul, superseded,
        PendingExceptionInfo.destruct]
    | some x =>
      have hmul : left * right = ⟨some x, right.rethrow, right.caughtExceptions,
          left.uncaughtExceptions + (right.uncaughtExceptions -
            if right.active.isSome then 1 else 0)⟩ := by
        refine content_ext (by simp [hactive]) (by simp [hcaught, hrethrow]) (by simp [hcaught]) ?_
        cases hright : right.active <;> simp [superseded, hactive, hright]
        grind
      simp [mergePendingExceptions, hcaught, hrethrow, hactive, hmul, superseded,
        PendingExceptionInfo.destruct]
  · have hright : right.caughtExceptions = [] := by simpa [Mergeable, hcaught] using h
    cases hactive : left.active with
    | none =>
      have hmul : left * right = ⟨right.active, left.rethrow, left.caughtExceptions,
          left.uncaughtExceptions + right.uncaughtExceptions⟩ :=
        content_ext (by simp [hactive]) (by simp [hcaught]) (by simp [hcaught])
          (by simp [superseded, hactive])
      simp [mergePendingExceptions, hcaught, hright, hactive, hmul, superseded,
        PendingExceptionInfo.destruct]
    | some x =>
      have hmul : left * right = ⟨some x, left.rethrow, left.caughtExceptions,
          left.uncaughtExceptions + (right.uncaughtExceptions -
            if right.active.isSome then 1 else 0)⟩ := by
        refine content_ext (by simp [hactive]) (by simp [hcaught]) (by simp [hcaught]) ?_
        cases hractive : right.active <;> simp [superseded, hactive, hractive]
        grind
      simp [mergePendingExceptions, hcaught, hright, hactive, hmul, superseded,
        PendingExceptionInfo.destruct]

/-- What a merge of two records returns. -/
theorem merge_some {left right : PendingExceptionInfo Exc} (h : Mergeable (some left) (some right)) :
    mergePendingExceptions (some left) (some right) =
      .ok (toRecord (left * right), superseded left right) := by
  rw [merge_fields h, toRecord]
  split
  · rw [empty_destruct ‹_›, List.append_nil]
  · rfl

/-- The record that a merge leaves. -/
def joined : Option (PendingExceptionInfo Exc) → Option (PendingExceptionInfo Exc) →
    Option (PendingExceptionInfo Exc)
  | none, right => right
  | some left, none => some left
  | some left, some right => toRecord (left * right)

theorem content_joined (left right : Option (PendingExceptionInfo Exc)) :
    content (joined left right) = content left * content right := by
  cases left with
  | none => exact (one_mul _).symm
  | some left =>
    cases right with
    | none => exact (mul_one left).symm
    | some right => exact content_toRecord _

theorem superseded_one (a : Content Exc) : superseded a 1 = [] := by
  simp [superseded]

/-- A merge returns iff its assertions hold, and then it multiplies contents and
deletes the active exception that is superseded. -/
theorem merge_eq_ok_iff {left right : Option (PendingExceptionInfo Exc)}
    {p : Option (PendingExceptionInfo Exc) × List Exc} :
    mergePendingExceptions left right = .ok p ↔
      Mergeable left right ∧ p = (joined left right, superseded (content left) (content right)) := by
  cases left with
  | none =>
    have hnone : superseded (content none) (content right) = [] := rfl
    rw [hnone]
    exact ⟨fun h => ⟨trivial, (Except.ok.inj h).symm⟩, fun h => by rw [h.2]; rfl⟩
  | some left =>
    cases right with
    | none =>
      have hnone : superseded (content (some left)) (content none) = [] := superseded_one left
      rw [hnone]
      exact ⟨fun h => ⟨trivial, (Except.ok.inj h).symm⟩, fun h => by rw [h.2]; rfl⟩
    | some right =>
      by_cases h : Mergeable (some left) (some right)
      · rw [merge_some h]
        exact ⟨fun heq => ⟨h, (Except.ok.inj heq).symm⟩, fun heq => by rw [heq.2]; rfl⟩
      · refine ⟨fun heq => ?_, fun heq => absurd heq.1 h⟩
        by_cases hcaught : left.caughtExceptions = []
        · have hrethrow : left.rethrow = true := by simpa [Mergeable, hcaught] using h
          simp [mergePendingExceptions, hcaught, hrethrow] at heq
        · have hright : right.caughtExceptions ≠ [] := by simpa [Mergeable, hcaught] using h
          have hempty : right.caughtExceptions.isEmpty = false := by simpa using hright
          simp [mergePendingExceptions, hcaught, hempty] at heq

/-- What one merge does. -/
structure MergeLaws (Exc : Type) : Prop where
  /-- Up to the identity of records, and the one between no record and one in
  which nothing is set, the order of merges does not matter. -/
  assoc : ∀ (a b c ab bc l r : Option (PendingExceptionInfo Exc)) (d₁ d₂ d₃ d₄ : List Exc),
    mergePendingExceptions a b = .ok (ab, d₁) → mergePendingExceptions ab c = .ok (l, d₂) →
    mergePendingExceptions b c = .ok (bc, d₃) → mergePendingExceptions a bc = .ok (r, d₄) →
    content l = content r ∧ (d₁ ++ d₂).Perm (d₃ ++ d₄)
  active : ∀ (l r m : Option (PendingExceptionInfo Exc)) (d : List Exc),
    mergePendingExceptions l r = .ok (m, d) →
    (content m).active = (content l).active.or (content r).active
  /-- The active exceptions are kept or deleted, each once. -/
  deleted : ∀ (l r m : Option (PendingExceptionInfo Exc)) (d : List Exc),
    mergePendingExceptions l r = .ok (m, d) →
    (content m).active.toList ++ d = (content l).active.toList ++ (content r).active.toList
  uncaught : ∀ (l r m : Option (PendingExceptionInfo Exc)) (d : List Exc),
    mergePendingExceptions l r = .ok (m, d) →
    (content m).uncaughtExceptions =
      (content l).uncaughtExceptions + (content r).uncaughtExceptions - BitVec.ofNat 32 d.length
  null : ∀ (l r : PendingExceptionInfo Exc) (m : Option (PendingExceptionInfo Exc)) (d : List Exc),
    mergePendingExceptions (some l) (some r) = .ok (m, d) → (m = none ↔ content m = 1)
  nullLeft : ∀ r : Option (PendingExceptionInfo Exc), mergePendingExceptions none r = .ok (r, [])
  nullRight : ∀ l : Option (PendingExceptionInfo Exc), mergePendingExceptions l none = .ok (l, [])

theorem active_append_superseded (a b : Content Exc) :
    (a * b).active.toList ++ superseded a b = a.active.toList ++ b.active.toList := by
  cases ha : a.active <;> simp [superseded, ha]

theorem perm_superseded (a b c : Content Exc) :
    (superseded a b ++ superseded (a * b) c).Perm (superseded b c ++ superseded a (b * c)) := by
  cases ha : a.active <;> cases hb : b.active <;> cases hc : c.active <;>
    simp [superseded, ha, hb, hc]
  exact List.Perm.swap ..

theorem mergeLaws (Exc : Type) : MergeLaws Exc where
  assoc a b c ab bc l r d₁ d₂ d₃ d₄ h₁ h₂ h₃ h₄ := by
    obtain ⟨rfl, rfl⟩ := Prod.mk.inj (merge_eq_ok_iff.mp h₁).2
    obtain ⟨rfl, rfl⟩ := Prod.mk.inj (merge_eq_ok_iff.mp h₂).2
    obtain ⟨rfl, rfl⟩ := Prod.mk.inj (merge_eq_ok_iff.mp h₃).2
    obtain ⟨rfl, rfl⟩ := Prod.mk.inj (merge_eq_ok_iff.mp h₄).2
    simp only [content_joined]
    exact ⟨mul_assoc .., perm_superseded ..⟩
  active l r m d h := by
    obtain ⟨rfl, rfl⟩ := Prod.mk.inj (merge_eq_ok_iff.mp h).2
    rw [content_joined, mul_active]
  deleted l r m d h := by
    obtain ⟨rfl, rfl⟩ := Prod.mk.inj (merge_eq_ok_iff.mp h).2
    rw [content_joined, active_append_superseded]
  uncaught l r m d h := by
    obtain ⟨rfl, rfl⟩ := Prod.mk.inj (merge_eq_ok_iff.mp h).2
    rw [content_joined, mul_uncaught]
  null l r m d h := by
    obtain ⟨rfl, rfl⟩ := Prod.mk.inj (merge_eq_ok_iff.mp h).2
    have hjoin : joined (some l) (some r) = toRecord (l * r) := rfl
    rw [hjoin, content_toRecord, ← empty_iff, toRecord]
    split <;> simp_all
  nullLeft _ := rfl
  nullRight l := by cases l <;> rfl

/-- A merge of no record with one in which nothing is set leaves the latter. -/
theorem merge_keeps_empty : ¬ ∀ (l r m : Option (PendingExceptionInfo Nat)) (d : List Nat),
    mergePendingExceptions l r = .ok (m, d) → (m = none ↔ content m = 1) := by
  intro h
  have := (h none (some 1) (some 1) [] rfl).mpr rfl
  cases this

end SwanRuntime.Exceptions
