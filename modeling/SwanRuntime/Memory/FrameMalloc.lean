import Mathlib.Algebra.BigOperators.Fin
import Mathlib.Data.List.Nodup
import SwanRuntime.Library.Checked

/-!
# The frame allocator

Frames of a few sizes are cut from chunks of memory. Each size has a bucket: a
list of free frames, one for every worker and a global one. A worker without free
frames gets a batch from the global list, or from the chunk that is being cut,
and gives frames back when its list has become too long.

`os` is the system's `malloc`, which only knows the chunks that it has given; the
memory that is cut off is logged in `carved`. A list of free frames is modelled by
the list of their addresses.

## Results

* `globalAlloc_ok`, `allocateBatch_ok`, `globalFreeAll_moves`
                    — frames that move between the global and another list.
* `Pool.disjoint`   — frames do not overlap.
-/

namespace SwanRuntime.Memory

open scoped BigOperators

-- ---------------------------------------------------------------------------
-- The code
-- ---------------------------------------------------------------------------

/-- There are `FRAME_MALLOC_NBUCKETS` of them. -/
abbrev Bucket := Fin 6

/-- `__cilkrts_bucket_sizes`. -/
def bucketToSize : Bucket → Nat := ![64, 128, 256, 512, 1024, 2048]

def frameMallocMaxSize : Nat := 2048

def frameMallocChunk : Nat := 32 * 1024 - 128

def batchSize : Nat := 8000

def potentialLimit : Nat := 4 * batchSize

/-- `frame_malloc` of the global state. -/
structure Global where
  poolList                : List Nat
  poolBegin               : Nat
  poolEnd                 : Nat
  globalFreeList          : Bucket → List Nat
  allocatedFromOs         : Nat
  allocatedFromGlobalPool : Int
  wasted                  : Nat
  carved                  : Bucket → List Nat

/-- `__cilkrts_frame_malloc_global_init`. -/
def Global.init : Global := ⟨[], 0, 0, fun _ => [], 0, 0, 0, fun _ => []⟩

/-- `extend_global_pool`. -/
def Global.extendGlobalPool (os : List Nat → Nat) (g : Global) : Global :=
  { g with
    poolBegin := os g.poolList
    poolEnd := os g.poolList + frameMallocChunk
    allocatedFromOs := g.allocatedFromOs + frameMallocChunk
    poolList := os g.poolList :: g.poolList }

/-- `global_alloc`. -/
def Global.globalAlloc (os : List Nat → Nat) (g : Global) (bucket : Bucket) :
    Checked (Nat × Global) :=
  let size := bucketToSize bucket
  let g := { g with allocatedFromGlobalPool := g.allocatedFromGlobalPool + size }
  match g.globalFreeList bucket with
  | mem :: rest =>
    return (mem, { g with globalFreeList := Function.update g.globalFreeList bucket rest })
  | [] => do
    Checked.assert (g.poolBegin ≤ g.poolEnd)
      "g->frame_malloc.pool_begin <= g->frame_malloc.pool_end"
    let g :=
      if g.poolBegin + size > g.poolEnd then
        -- we waste the fragment of pool
        { g with wasted := g.wasted + (g.poolEnd - g.poolBegin) }.extendGlobalPool os
      else g
    return (g.poolBegin, { g with
      poolBegin := g.poolBegin + size
      carved := Function.update g.carved bucket (g.poolBegin :: g.carved bucket) })

/-- `global_free`. -/
def Global.globalFree (g : Global) (bucket : Bucket) (mem : Nat) : Global :=
  { g with
    allocatedFromGlobalPool := g.allocatedFromGlobalPool - bucketToSize bucket
    globalFreeList :=
      Function.update g.globalFreeList bucket (mem :: g.globalFreeList bucket) }

/-- The loop that frees one element of a list after the other. -/
def Global.globalFreeAll (g : Global) (bucket : Bucket) : List Nat → Global
  | [] => g
  | mem :: rest => (g.globalFree bucket mem).globalFreeAll bucket rest

theorem bucketToSize_bounds : ∀ b : Bucket, 64 ≤ bucketToSize b ∧ bucketToSize b ≤ 2048 := by
  decide

/-- The loop of `allocate_batch` on the free list and the potential of a worker,
after `bytesAllocated`. -/
def Global.allocateBatch (os : List Nat → Nat) (g : Global) (bucket : Bucket)
    (bytesAllocated : Nat) (freeList : List Nat) (potential : Nat) :
    Checked (Global × List Nat × Nat) := do
  let (mem, g) ← g.globalAlloc os bucket
  if bytesAllocated + bucketToSize bucket < batchSize then
    g.allocateBatch os bucket (bytesAllocated + bucketToSize bucket) (mem :: freeList)
      (potential + bucketToSize bucket)
  else
    return (g, mem :: freeList, potential + bucketToSize bucket)
termination_by batchSize - bytesAllocated
decreasing_by
  have hpos := bucketToSize_bounds bucket
  omega

/-- The walk of `gc_bucket` over a free list: the new potential, the elements that
the walk has passed, and the rest. -/
def gcScan (size pot newpot : Nat) : List Nat → Nat × List Nat × List Nat
  | [] => (newpot, [], [])
  | p :: rest =>
    if 2 * newpot < pot then
      let (newpot, kept, left) := gcScan size pot (newpot + size) rest
      (newpot, p :: kept, left)
    else
      (newpot, [], p :: rest)

/-- `gc_bucket`: the global state, and the free list and the potential of the
worker. -/
def Global.gcBucket (g : Global) (bucket : Bucket) (freeList : List Nat) (pot : Nat) :
    Global × List Nat × Nat :=
  match gcScan (bucketToSize bucket) pot 0 freeList with
  | (newpot, kept, []) => (g, kept, newpot)
  | (newpot, kept, p :: rest) => (g.globalFreeAll bucket rest, kept ++ [p], newpot)

/-- `bucket_of_size`. -/
def bucketOfSize (size : Nat) : Option Bucket :=
  (List.finRange 6).find? fun b => size ≤ bucketToSize b

/-- `count_memory_in_global_list`. -/
def Global.countMemoryInGlobalList (g : Global) : Nat :=
  ∑ b : Bucket, bucketToSize b * (g.globalFreeList b).length

/-- The checks of `__cilkrts_frame_malloc_global_cleanup`. -/
def Global.cleanup (g : Global) : Checked Unit := do
  if g.countMemoryInGlobalList > g.allocatedFromOs then
    throw "The Cilk runtime data structures may have been corrupted."
  if g.allocatedFromGlobalPool ≠ 0 then
    throw "MEMORY LEAK DETECTED!!!"

-- ---------------------------------------------------------------------------
-- What the system promises, and what the allocator keeps
-- ---------------------------------------------------------------------------

/-- Two pieces of memory do not overlap. -/
def Apart (a n b m : Nat) : Prop := a + n ≤ b ∨ b + m ≤ a

/-- `malloc` gives memory that does not overlap with what it has given before. -/
def FreshChunks (os : List Nat → Nat) : Prop :=
  ∀ chunks, ∀ c ∈ chunks, Apart (os chunks) frameMallocChunk c frameMallocChunk

/-- The frames that have been cut lie in the chunks and do not overlap with each
other or with what can still be cut. -/
structure Pool (g : Global) : Prop where
  current  : (g.poolList = [] ∧ g.poolEnd = g.poolBegin) ∨ ∃ c rest, g.poolList = c :: rest ∧
    c ≤ g.poolBegin ∧ g.poolBegin ≤ g.poolEnd ∧ g.poolEnd = c + frameMallocChunk
  inside   : ∀ b, ∀ a ∈ g.carved b,
    ∃ c ∈ g.poolList, c ≤ a ∧ a + bucketToSize b ≤ c + frameMallocChunk
  uncut    : ∀ b, ∀ a ∈ g.carved b, a + bucketToSize b ≤ g.poolBegin ∨ g.poolEnd ≤ a
  disjoint : ∀ b b' a a', a ∈ g.carved b → a' ∈ g.carved b' → (a = a' ∧ b = b') ∨
    Apart a (bucketToSize b) a' (bucketToSize b')
  nodup    : ∀ b, (g.carved b).Nodup
  bytes    : g.allocatedFromOs =
    ∑ b : Bucket, bucketToSize b * (g.carved b).length + g.wasted + (g.poolEnd - g.poolBegin)

/-- `frames` have moved from the global list of a bucket, or been cut, to
somewhere else. -/
structure Takes (g : Global) (bucket : Bucket) (frames : List Nat) (g' : Global) : Prop where
  other     : ∀ b, b ≠ bucket →
    g'.carved b = g.carved b ∧ g'.globalFreeList b = g.globalFreeList b
  union     : ∀ outside, (g.carved bucket).Perm (g.globalFreeList bucket ++ outside) →
    (g'.carved bucket).Perm (g'.globalFreeList bucket ++ (frames ++ outside))
  allocated : g'.allocatedFromGlobalPool =
    g.allocatedFromGlobalPool + (bucketToSize bucket * frames.length : Nat)

/-- A sum that changes in one bucket only. -/
theorem sum_change {f f' : Bucket → Nat} (b : Bucket) (h : ∀ b', b' ≠ b → f' b' = f b') :
    ∑ b, f' b + f b = ∑ b, f b + f' b := by
  have hsum : ∀ f : Bucket → Nat, ∑ b, f b = f b + ∑ b' ∈ Finset.univ.erase b, f b' :=
    fun f => (Finset.add_sum_erase _ f (Finset.mem_univ b)).symm
  have hrest : ∑ b' ∈ Finset.univ.erase b, f' b' = ∑ b' ∈ Finset.univ.erase b, f b' :=
    Finset.sum_congr rfl fun b' hb' => h b' (Finset.ne_of_mem_erase hb')
  rw [hsum f, hsum f', hrest]
  omega

theorem pool_init : Pool .init := by
  refine ⟨Or.inl ⟨rfl, rfl⟩, nofun, nofun, nofun, fun _ => List.nodup_nil, ?_⟩
  simp [Global.init]

section Alloc

variable {os : List Nat → Nat} {g : Global} {bucket : Bucket}

/-- A new chunk. -/
theorem Pool.extend (h : Pool g) (hos : FreshChunks os) :
    Pool ({ g with wasted := g.wasted + (g.poolEnd - g.poolBegin) }.extendGlobalPool os) := by
  have hin : ∀ b, ∀ a ∈ g.carved b, a + bucketToSize b ≤ os g.poolList ∨
      os g.poolList + frameMallocChunk ≤ a := by
    intro b a ha
    obtain ⟨c, hc, hle, hle'⟩ := h.inside b a ha
    rcases hos g.poolList c hc with hapart | hapart <;> omega
  refine ⟨Or.inr ⟨_, _, rfl, Nat.le_refl _, Nat.le_add_right _ _, rfl⟩, fun b a ha => ?_, hin,
    h.disjoint, h.nodup, ?_⟩
  · obtain ⟨c, hc, hbounds⟩ := h.inside b a ha
    exact ⟨c, List.mem_cons_of_mem _ hc, hbounds⟩
  · have hbytes := h.bytes
    show g.allocatedFromOs + frameMallocChunk =
      ∑ b : Bucket, bucketToSize b * (g.carved b).length +
        (g.wasted + (g.poolEnd - g.poolBegin)) +
          (os g.poolList + frameMallocChunk - os g.poolList)
    omega

/-- A frame is cut off. -/
theorem Pool.cut (h : Pool g) (hfits : g.poolBegin + bucketToSize bucket ≤ g.poolEnd) :
    Pool { g with
      poolBegin := g.poolBegin + bucketToSize bucket
      carved := Function.update g.carved bucket (g.poolBegin :: g.carved bucket) } := by
  have hpos := (bucketToSize_bounds bucket).1
  have hpos' : ∀ b, 0 < bucketToSize b := fun b => by
    have hb := (bucketToSize_bounds b).1
    omega
  have hmem : ∀ b a, a ∈ Function.update g.carved bucket (g.poolBegin :: g.carved bucket) b →
      a ∈ g.carved b ∨ (b = bucket ∧ a = g.poolBegin) := by
    intro b a ha
    by_cases hb : b = bucket
    · subst hb
      rw [Function.update_self, List.mem_cons] at ha
      rcases ha with ha | ha
      · exact Or.inr ⟨rfl, ha⟩
      · exact Or.inl ha
    · rw [Function.update_of_ne hb] at ha
      exact Or.inl ha
  -- the chunk that is being cut
  obtain ⟨c, rest, hlist, hle, hle', hend⟩ : ∃ c rest, g.poolList = c :: rest ∧
      c ≤ g.poolBegin ∧ g.poolBegin ≤ g.poolEnd ∧ g.poolEnd = c + frameMallocChunk := by
    rcases h.current with ⟨-, hempty⟩ | hchunk
    · omega
    · exact hchunk
  refine ⟨Or.inr ⟨c, rest, hlist, Nat.le_add_right_of_le hle, hfits, hend⟩, fun b a ha => ?_,
    fun b a ha => ?_, fun b b' a a' ha ha' => ?_, fun b => ?_, ?_⟩
  · rcases hmem b a ha with ha | ⟨rfl, rfl⟩
    · exact h.inside b a ha
    · exact ⟨c, hlist ▸ List.mem_cons_self, hle, by omega⟩
  · rcases hmem b a ha with ha | ⟨rfl, rfl⟩
    · rcases h.uncut b a ha with huncut | huncut
      · exact Or.inl (Nat.le_add_right_of_le huncut)
      · exact Or.inr huncut
    · exact Or.inl (Nat.le_refl _)
  · -- the new frame against an old one: that was cut before, or lies in another chunk
    rcases hmem b a ha with hin | hin <;> rcases hmem b' a' ha' with hin' | hin'
    · exact h.disjoint b b' a a' hin hin'
    · obtain ⟨rfl, rfl⟩ := hin'
      right
      rcases h.uncut b a hin with huncut | huncut
      · exact Or.inl huncut
      · exact Or.inr (by omega)
    · obtain ⟨rfl, rfl⟩ := hin
      right
      rcases h.uncut b' a' hin' with huncut | huncut
      · exact Or.inr huncut
      · exact Or.inl (by omega)
    · exact Or.inl ⟨hin.2.trans hin'.2.symm, hin.1.trans hin'.1.symm⟩
  · by_cases hb : b = bucket
    · subst hb
      show (Function.update g.carved b (g.poolBegin :: g.carved b) b).Nodup
      rw [Function.update_self, List.nodup_cons]
      refine ⟨fun hin => ?_, h.nodup b⟩
      rcases h.uncut b _ hin with huncut | huncut <;> omega
    · show (Function.update g.carved bucket (g.poolBegin :: g.carved bucket) b).Nodup
      rw [Function.update_of_ne hb]
      exact h.nodup b
  · have hsum := @sum_change (fun b => bucketToSize b * (g.carved b).length)
      (fun b => bucketToSize b *
        (Function.update g.carved bucket (g.poolBegin :: g.carved bucket) b).length) bucket
      (fun b' hb' => by simp only [Function.update_of_ne hb'])
    simp only [Function.update_self, List.length_cons, Nat.mul_add, Nat.mul_one] at hsum
    have hbytes := h.bytes
    show g.allocatedFromOs = ∑ b : Bucket, bucketToSize b *
      (Function.update g.carved bucket (g.poolBegin :: g.carved bucket) b).length + g.wasted +
        (g.poolEnd - (g.poolBegin + bucketToSize bucket))
    omega

/-- `global_alloc` takes one frame. -/
theorem globalAlloc_ok (h : Pool g) (hos : FreshChunks os) (bucket : Bucket) :
    ∃ mem g', g.globalAlloc os bucket = .ok (mem, g') ∧ Pool g' ∧ Takes g bucket [mem] g' := by
  have hsize : ((bucketToSize bucket * [0].length : Nat) : Int) = bucketToSize bucket := by
    simp
  unfold Global.globalAlloc
  dsimp only
  cases hlist : g.globalFreeList bucket with
  | cons mem rest =>
    refine ⟨_, _, rfl, ⟨h.current, h.inside, h.uncut, h.disjoint, h.nodup, h.bytes⟩,
      fun b hb => ⟨rfl, Function.update_of_ne hb _ _⟩, fun outside hperm => ?_, ?_⟩
    · rw [hlist] at hperm
      show (g.carved bucket).Perm (Function.update g.globalFreeList bucket rest bucket ++ _)
      rw [Function.update_self]
      exact hperm.trans List.perm_middle.symm
    · simp
  | nil =>
    have hle : decide (g.poolBegin ≤ g.poolEnd) = true := by
      rw [decide_eq_true_eq]
      rcases h.current with ⟨-, hempty⟩ | ⟨c, rest, -, -, hle, -⟩
      · exact Nat.le_of_eq hempty.symm
      · exact hle
    rw [hle, Checked.assert_true, Checked.ok_bind]
    -- the pool has room, after an extension if need be
    have hready : ∀ g₁ : Global, Pool g₁ → g₁.poolBegin + bucketToSize bucket ≤ g₁.poolEnd →
        g₁.carved = g.carved → g₁.globalFreeList = g.globalFreeList →
        g₁.allocatedFromGlobalPool = g.allocatedFromGlobalPool + bucketToSize bucket →
        Takes g bucket [g₁.poolBegin] { g₁ with
          poolBegin := g₁.poolBegin + bucketToSize bucket
          carved := Function.update g₁.carved bucket (g₁.poolBegin :: g₁.carved bucket) } := by
      intro g₁ _ _ hcarved hfree halloc
      refine ⟨fun b hb => ⟨?_, congrFun hfree b⟩, fun outside hperm => ?_, ?_⟩
      · show Function.update g₁.carved bucket _ b = _
        rw [Function.update_of_ne hb, hcarved]
      · show (Function.update g₁.carved bucket _ bucket).Perm (g₁.globalFreeList bucket ++ _)
        rw [Function.update_self, hcarved, hfree, hlist]
        rw [hlist] at hperm
        exact hperm.cons _
      · show g₁.allocatedFromGlobalPool = _
        rw [halloc]
        simp
    have hcharged : Pool { g with
        allocatedFromGlobalPool := g.allocatedFromGlobalPool + bucketToSize bucket } :=
      ⟨h.current, h.inside, h.uncut, h.disjoint, h.nodup, h.bytes⟩
    by_cases hextend : g.poolBegin + bucketToSize bucket > g.poolEnd
    · -- a fresh chunk, which holds at least one frame
      rw [if_pos hextend]
      have hpool := hcharged.extend hos
      have hroom : os g.poolList + bucketToSize bucket ≤ os g.poolList + frameMallocChunk := by
        have hbound := (bucketToSize_bounds bucket).2
        unfold frameMallocChunk
        omega
      exact ⟨_, _, rfl, hpool.cut hroom, hready _ hpool hroom rfl rfl rfl⟩
    · rw [if_neg hextend]
      have hroom : g.poolBegin + bucketToSize bucket ≤ g.poolEnd := Nat.le_of_not_gt hextend
      exact ⟨_, _, rfl, hcharged.cut hroom, hready _ hcharged hroom rfl rfl rfl⟩

theorem Takes.trans {g₁ g₂ : Global} {frames more : List Nat} (h : Takes g bucket frames g₁)
    (h' : Takes g₁ bucket more g₂) : Takes g bucket (more ++ frames) g₂ := by
  refine ⟨fun b hb => ?_, fun outside hperm => ?_, ?_⟩
  · exact ⟨(h'.other b hb).1.trans (h.other b hb).1, (h'.other b hb).2.trans (h.other b hb).2⟩
  · rw [List.append_assoc]
    exact h'.union _ (h.union _ hperm)
  · rw [h'.allocated, h.allocated, List.length_append, Nat.mul_add]
    omega

/-- `allocate_batch` takes at least one frame, and puts them on the list of the
worker. -/
theorem allocateBatch_ok (h : Pool g) (hos : FreshChunks os) (bucket : Bucket)
    (bytesAllocated : Nat) (freeList : List Nat) (potential : Nat) :
    ∃ g' frames potential', g.allocateBatch os bucket bytesAllocated freeList potential =
        .ok (g', frames ++ freeList, potential') ∧
      frames ≠ [] ∧ Pool g' ∧ Takes g bucket frames g' := by
  induction hbytes : batchSize - bytesAllocated using Nat.strongRecOn
    generalizing g bytesAllocated freeList potential with
  | _ n ih =>
    obtain ⟨mem, g₁, hrun, hpool, htakes⟩ := globalAlloc_ok h hos bucket
    rw [Global.allocateBatch, hrun, Checked.ok_bind]
    dsimp only
    -- the bytes that are still wanted decrease
    by_cases hmore : bytesAllocated + bucketToSize bucket < batchSize
    · rw [if_pos hmore]
      have hless : batchSize - (bytesAllocated + bucketToSize bucket) < n := by
        have hpos := (bucketToSize_bounds bucket).1
        omega
      obtain ⟨g', frames, potential', hrun', hne, hpool', htakes'⟩ :=
        ih _ hless hpool (bytesAllocated + bucketToSize bucket) (mem :: freeList)
          (potential + bucketToSize bucket) rfl
      refine ⟨g', frames ++ [mem], potential', ?_, ?_, hpool', htakes.trans htakes'⟩
      · rw [hrun', List.append_assoc]
        rfl
      · exact List.append_ne_nil_of_right_ne_nil _ nofun
    · rw [if_neg hmore]
      exact ⟨g₁, [mem], _, rfl, nofun, hpool, htakes⟩

end Alloc

-- ---------------------------------------------------------------------------
-- Frames that are given back
-- ---------------------------------------------------------------------------

/-- `frames` have moved to the global list of a bucket. -/
structure Gives (g : Global) (bucket : Bucket) (frames : List Nat) (g' : Global) : Prop where
  other     : ∀ b, b ≠ bucket → g'.globalFreeList b = g.globalFreeList b
  carved    : g'.carved = g.carved
  union     : ∀ outside, (g.carved bucket).Perm (g.globalFreeList bucket ++ (frames ++ outside)) →
    (g'.carved bucket).Perm (g'.globalFreeList bucket ++ outside)
  allocated : g'.allocatedFromGlobalPool + (bucketToSize bucket * frames.length : Nat) =
    g.allocatedFromGlobalPool
  pool      : Pool g → Pool g'

theorem globalFreeAll_gives (g : Global) (bucket : Bucket) (frames : List Nat) :
    Gives g bucket frames (g.globalFreeAll bucket frames) := by
  induction frames generalizing g with
  | nil => exact ⟨fun _ _ => rfl, rfl, fun _ hperm => hperm, by simp [Global.globalFreeAll], id⟩
  | cons mem rest ih =>
    obtain ⟨hother, hcarved, hunion, hallocated, hpool⟩ := ih (g.globalFree bucket mem)
    refine ⟨fun b hb => ?_, hcarved, fun outside hperm => hunion outside ?_, ?_, fun h => ?_⟩
    · exact (hother b hb).trans (Function.update_of_ne hb _ _)
    · show (g.carved bucket).Perm (Function.update g.globalFreeList bucket _ bucket ++ _)
      rw [Function.update_self]
      exact hperm.trans List.perm_middle
    · have hone : (g.globalFree bucket mem).allocatedFromGlobalPool =
          g.allocatedFromGlobalPool - bucketToSize bucket := rfl
      show ((g.globalFree bucket mem).globalFreeAll bucket rest).allocatedFromGlobalPool + _ = _
      rw [List.length_cons, Nat.mul_add, Nat.mul_one]
      omega
    · exact hpool ⟨h.current, h.inside, h.uncut, h.disjoint, h.nodup, h.bytes⟩

theorem gcScan_append (size pot newpot : Nat) (freeList : List Nat) :
    (gcScan size pot newpot freeList).2.1 ++ (gcScan size pot newpot freeList).2.2 = freeList := by
  induction freeList generalizing newpot with
  | nil => rfl
  | cons p rest ih =>
    unfold gcScan
    by_cases hmore : 2 * newpot < pot
    · rw [if_pos hmore]
      exact congrArg (p :: ·) (ih (newpot + size))
    · rw [if_neg hmore]
      rfl

/-- `gc_bucket` cuts a list in two and gives the second part back. -/
theorem gcBucket_gives (g : Global) (bucket : Bucket) (freeList : List Nat) (pot : Nat) :
    ∃ freed, freeList = (g.gcBucket bucket freeList pot).2.1 ++ freed ∧
      Gives g bucket freed (g.gcBucket bucket freeList pot).1 := by
  have hsplit := gcScan_append (bucketToSize bucket) pot 0 freeList
  unfold Global.gcBucket
  generalize gcScan (bucketToSize bucket) pot 0 freeList = scan at hsplit ⊢
  obtain ⟨newpot, kept, left⟩ := scan
  cases left with
  | nil => exact ⟨[], hsplit.symm, globalFreeAll_gives g bucket []⟩
  | cons p rest =>
    refine ⟨rest, ?_, globalFreeAll_gives g bucket rest⟩
    show freeList = kept ++ [p] ++ rest
    rw [← hsplit, List.append_assoc]
    rfl

theorem bucketOfSize_spec {size : Nat} {bucket : Bucket} (h : bucketOfSize size = some bucket) :
    size ≤ bucketToSize bucket := by
  have hfound := List.find?_some h
  simpa using hfound

end SwanRuntime.Memory
