import Mathlib.Algebra.BigOperators.Intervals
import Mathlib.Order.Interval.Finset.Nat

/-!
# Numbering by blocks

The elements of a finite set belong to blocks, and are numbered in each block from
0 on. Together with the number of elements in the blocks before, this is a numbering
of the whole set, in which every block has a range of its own.

## Results

* `before_eq_sum`    — the elements in the blocks before, as a sum of sizes.
* `slot_injOn`       — no number is given twice.
* `image_slot_block` — the numbers of a block.
* `image_slot`       — all numbers.
* `count_update`     — counting when one element changes.
-/

namespace SwanRuntime.Numbering

variable {ι : Type*} (s : Finset ι) (block index : ι → ℕ)

/-- How many elements a block has. -/
def size (d : ℕ) : ℕ := (s.filter (block · = d)).card

/-- How many elements the blocks before it have. -/
def before (d : ℕ) : ℕ := (s.filter (block · < d)).card

/-- The number of an element. -/
def slot (i : ι) : ℕ := before s block (block i) + index i

/-- Every block is numbered from 0 on. -/
structure Numbered : Prop where
  lt  : ∀ i ∈ s, index i < size s block (block i)
  inj : ∀ i ∈ s, ∀ j ∈ s, block i = block j → index i = index j → i = j

variable {s block index}

theorem before_succ (d : ℕ) : before s block (d + 1) = before s block d + size s block d := by
  have hsplit := Finset.card_filter_add_card_filter_not (s := s.filter (block · < d + 1)) (block · < d)
  have hlow : (s.filter (block · < d + 1)).filter (block · < d) = s.filter (block · < d) := by
    rw [Finset.filter_filter]
    exact Finset.filter_congr fun i _ => ⟨And.right, fun hi => ⟨Nat.lt_succ_of_lt hi, hi⟩⟩
  have hhigh : (s.filter (block · < d + 1)).filter (¬ block · < d) = s.filter (block · = d) := by
    rw [Finset.filter_filter]
    exact Finset.filter_congr fun i _ => by omega
  unfold before size
  rw [← hsplit, hlow, hhigh]

theorem before_mono {d d' : ℕ} (h : d ≤ d') : before s block d ≤ before s block d' :=
  Finset.card_le_card (Finset.monotone_filter_right s fun _ _ hi => Nat.lt_of_lt_of_le hi h)

/-- The blocks before have their elements together. -/
theorem before_eq_sum (d : ℕ) : before s block d = ∑ j ∈ Finset.range d, size s block j := by
  induction d with
  | zero => simp [before]
  | succ d ih => rw [before_succ, ih, Finset.sum_range_succ]

theorem before_le_card (d : ℕ) : before s block d ≤ s.card := Finset.card_filter_le _ _

/-- The number of an element is in the range of its block. -/
theorem slot_mem (h : Numbered s block index) {i : ι} (hi : i ∈ s) :
    before s block (block i) ≤ slot s block index i ∧
      slot s block index i < before s block (block i + 1) := by
  have hlt := h.lt i hi
  have hsucc : before s block (block i + 1) = _ := before_succ (block i)
  unfold slot
  omega

/-- No number is given twice: elements of two blocks have numbers in two ranges. -/
theorem slot_injOn (h : Numbered s block index) : Set.InjOn (slot s block index) s := by
  intro i hi j hj heq
  obtain ⟨hlow, hhigh⟩ := slot_mem h hi
  obtain ⟨hlow', hhigh'⟩ := slot_mem h hj
  have hblock : block i = block j := by
    rcases Nat.lt_trichotomy (block i) (block j) with hlt | hsame | hlt
    · have hmono : before s block (block i + 1) ≤ before s block (block j) := before_mono hlt
      omega
    · exact hsame
    · have hmono : before s block (block j + 1) ≤ before s block (block i) := before_mono hlt
      omega
  refine h.inj i hi j hj hblock ?_
  unfold slot at heq
  rw [hblock] at heq
  exact Nat.add_left_cancel heq

/-- The numbers of a block are a range. -/
theorem image_slot_block (h : Numbered s block index) (d : ℕ) :
    (s.filter (block · = d)).image (slot s block index) =
      Finset.Ico (before s block d) (before s block d + size s block d) := by
  refine Finset.eq_of_subset_of_card_le (fun k hk => ?_) ?_
  · obtain ⟨i, hi, rfl⟩ := Finset.mem_image.mp hk
    obtain ⟨hmem, rfl⟩ := Finset.mem_filter.mp hi
    rw [Finset.mem_Ico, ← before_succ]
    exact slot_mem h hmem
  · have hinj : Set.InjOn (slot s block index) (s.filter (block · = d)) :=
      (slot_injOn h).mono fun i hi => (Finset.mem_filter.mp hi).1
    rw [Finset.card_image_of_injOn hinj, Nat.card_Ico, Nat.add_sub_cancel_left]
    exact Nat.le_refl _

/-- All numbers together are a range. -/
theorem image_slot (h : Numbered s block index) :
    s.image (slot s block index) = Finset.range s.card := by
  refine Finset.eq_of_subset_of_card_le (fun k hk => ?_) ?_
  · obtain ⟨i, hi, rfl⟩ := Finset.mem_image.mp hk
    rw [Finset.mem_range]
    exact Nat.lt_of_lt_of_le (slot_mem h hi).2 (before_le_card _)
  · rw [Finset.card_range, Finset.card_image_of_injOn (slot_injOn h)]

section Count

variable {α : Type*} {n w : ℕ} {p : α → Bool} {f : ℕ → α}

/-- How many of the first `n` values have the property. -/
def count (n : ℕ) (p : α → Bool) (f : ℕ → α) : ℕ := ∑ i ∈ Finset.range n, (p (f i)).toNat

/-- Counting when one value changes. -/
theorem count_update (hw : w < n) (x : α) :
    count n p (Function.update f w x) + (p (f w)).toNat = count n p f + (p x).toNat := by
  have hmem : w ∈ Finset.range n := Finset.mem_range.mpr hw
  have hold := Finset.sum_sdiff (f := fun i => (p (f i)).toNat) (Finset.singleton_subset_iff.mpr hmem)
  have hnew := Finset.sum_update_of_mem hmem (fun i => (p (f i)).toNat) (p x).toNat
  have happly : count n p (Function.update f w x) =
      (Finset.range n).sum (Function.update (fun i => (p (f i)).toNat) w (p x).toNat) :=
    Finset.sum_congr rfl fun i _ => Function.apply_update (fun _ a => (p a).toNat) f w x i
  rw [Finset.sum_singleton] at hold
  rw [happly, hnew]
  unfold count
  omega

theorem count_eq_card (n : ℕ) (p : α → Bool) (f : ℕ → α) :
    count n p f = ((Finset.range n).filter fun i => p (f i) = true).card := by
  unfold count
  rw [Finset.card_filter]
  exact Finset.sum_congr rfl fun i _ => by cases p (f i) <;> rfl

/-- All values have the property when it is counted `n` times. -/
theorem forall_of_count (h : count n p f = n) : ∀ i < n, p (f i) = true := by
  rw [count_eq_card] at h
  have hall := Finset.filter_card_eq (h.trans (Finset.card_range n).symm)
  exact fun i hi => hall i (Finset.mem_range.mpr hi)

end Count

end SwanRuntime.Numbering
