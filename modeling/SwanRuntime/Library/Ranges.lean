import Mathlib.Tactic.Common

/-!
# Ranges that cover an interval

A loop over `[0, n)` is executed in pieces `[low, high)`. The pieces partition
the interval when none is empty, none reaches beyond it, and every index lies in
exactly one.

## Results

* `hits_split`             — a range may be split at any point.
* `Partitions.hits_le_one` — no index lies in two pieces.
* `Partitions.perm`        — the order of the pieces does not matter.
* `partitions_singleton`   — one range is a partition.
* `Partitions.split`       — splitting one piece keeps a partition.
* `covers_tiles`           — tiles of one size cover the interval.
-/

namespace SwanRuntime.Ranges

/-- The pieces that contain an index. -/
def hits (i : Nat) (rs : List (Nat × Nat)) : Nat := rs.countP fun r => r.1 ≤ i ∧ i < r.2

/-- The ranges partition `[0, n)`. -/
structure Partitions (rs : List (Nat × Nat)) (n : Nat) : Prop where
  nonempty : ∀ r ∈ rs, r.1 < r.2
  within   : ∀ r ∈ rs, r.2 ≤ n
  once     : ∀ i < n, hits i rs = 1

@[simp] theorem hits_nil (i : Nat) : hits i [] = 0 := rfl

@[simp] theorem hits_cons (i : Nat) (r : Nat × Nat) (rs : List (Nat × Nat)) :
    hits i (r :: rs) = hits i rs + if r.1 ≤ i ∧ i < r.2 then 1 else 0 := by
  simp [hits, List.countP_cons]

@[simp] theorem hits_append (i : Nat) (rs rs' : List (Nat × Nat)) :
    hits i (rs ++ rs') = hits i rs + hits i rs' := List.countP_append

theorem hits_perm {rs rs' : List (Nat × Nat)} (h : rs.Perm rs') (i : Nat) :
    hits i rs = hits i rs' := h.countP_eq _

/-- Two adjacent ranges contain the indices of their union. -/
theorem hits_split {low mid high : Nat} (hlow : low ≤ mid) (hhigh : mid ≤ high) (i : Nat) :
    hits i [(low, mid), (mid, high)] = hits i [(low, high)] := by
  simp only [hits_cons, hits_nil]
  split_ifs <;> omega

/-- No index lies in two pieces. -/
theorem Partitions.hits_le_one {rs : List (Nat × Nat)} {n : Nat} (h : Partitions rs n) (i : Nat) :
    hits i rs ≤ 1 := by
  by_cases hi : i < n
  · exact Nat.le_of_eq (h.once i hi)
  · have hnone : hits i rs = 0 := by
      refine List.countP_eq_zero.mpr fun r hr => ?_
      have := h.within r hr
      simp only [decide_eq_true_eq]
      omega
    omega

theorem Partitions.perm {rs rs' : List (Nat × Nat)} {n : Nat} (h : Partitions rs n)
    (hperm : rs.Perm rs') : Partitions rs' n where
  nonempty r hr := h.nonempty r (hperm.mem_iff.mpr hr)
  within r hr   := h.within r (hperm.mem_iff.mpr hr)
  once i hi     := by rw [← hits_perm hperm, h.once i hi]

theorem partitions_singleton {n : Nat} (h : 0 < n) : Partitions [(0, n)] n where
  nonempty r hr := by
    rw [List.mem_singleton.mp hr]
    exact h
  within r hr   := by simp [List.mem_singleton.mp hr]
  once i hi     := by simp [hi]

/-- A piece is split in two. -/
theorem Partitions.split {rs rs' : List (Nat × Nat)} {low high n : Nat}
    (h : Partitions (rs ++ (low, high) :: rs') n) (mid : Nat) (hlow : low < mid) (hhigh : mid < high) :
    Partitions (rs ++ (low, mid) :: (mid, high) :: rs') n := by
  have hwithin := h.within (low, high) (by simp)
  refine ⟨fun r hr => ?_, fun r hr => ?_, fun i hi => ?_⟩
  · simp only [List.mem_append, List.mem_cons] at hr
    rcases hr with hr | rfl | rfl | hr
    · exact h.nonempty r (by simp [hr])
    · exact hlow
    · exact hhigh
    · exact h.nonempty r (by simp [hr])
  · simp only [List.mem_append, List.mem_cons] at hr
    rcases hr with hr | rfl | rfl | hr
    · exact h.within r (by simp [hr])
    · exact Nat.le_of_lt (Nat.lt_of_lt_of_le hhigh hwithin)
    · exact hwithin
    · exact h.within r (by simp [hr])
  · rw [← h.once i hi]
    have hsplit := hits_split (Nat.le_of_lt hlow) (Nat.le_of_lt hhigh) i
    simp only [hits_append, hits_cons, hits_nil] at hsplit ⊢
    omega

/-- The ranges cover `[0, n)` exactly; some may be empty. -/
structure Covers (rs : List (Nat × Nat)) (n : Nat) : Prop where
  within : ∀ r ∈ rs, r.1 ≤ r.2 ∧ r.2 ≤ n
  once   : ∀ i < n, hits i rs = 1

theorem Covers.perm {rs rs' : List (Nat × Nat)} {n : Nat} (h : Covers rs n)
    (hperm : rs.Perm rs') : Covers rs' n where
  within r hr := h.within r (hperm.mem_iff.mpr hr)
  once i hi   := by rw [← hits_perm hperm, h.once i hi]

/-- The `k`-th tile of size `d` in `[0, n)`. -/
def tile (d n k : Nat) : Nat × Nat := (min (d * k) n, min (d * (k + 1)) n)

theorem hits_tiles (d n m i : Nat) :
    hits i ((List.range m).map (tile d n)) = if i < min (d * m) n then 1 else 0 := by
  induction m with
  | zero => simp
  | succ m ih =>
    have hle : d * m ≤ d * (m + 1) := Nat.mul_le_mul_left d (Nat.le_succ m)
    rw [List.range_succ, List.map_append, hits_append, ih]
    simp only [List.map_cons, List.map_nil, hits_cons, hits_nil, tile]
    split_ifs <;> omega

/-- Enough tiles cover the interval. -/
theorem covers_tiles {d n m : Nat} (h : n ≤ d * m) :
    Covers ((List.range m).map (tile d n)) n where
  within r hr := by
    obtain ⟨k, -, rfl⟩ := List.mem_map.mp hr
    have hle : d * k ≤ d * (k + 1) := Nat.mul_le_mul_left d (Nat.le_succ k)
    simp only [tile]
    omega
  once i hi := by
    rw [hits_tiles, if_pos (by omega)]

end SwanRuntime.Ranges
