import SwanRuntime.Loops.Dynamic

/-!
# NUMA-aware dynamic loops

`cilk_for_numa_recursive` splits a range like `cilk_for_recursive`, but it goes on
with the half that does not contain the NUMA node of the worker, and it keeps in
its frame the range of nodes that may steal the frame. There are two versions of
the split, of which the preprocessor takes one.

A strand is a call of the function, or the continuation of one behind a spawn,
which can be stolen. An event says which strand runs next and on which node.

The version for GCC spawns the lower half whatever the node, and leaves the range
in the frame as it was. The other version is right, as long as the bounds fit the
32 bits that the frame has for them.

## Results

* `NumaOk.step_iff`     — when a step keeps the ranges right.
* `numaLoop_length`     — every schedule ends.
* `numaLoop_exact_iff`  — which runs are exact.
-/

namespace SwanRuntime.Loops

open Ranges

-- ---------------------------------------------------------------------------
-- The code
-- ---------------------------------------------------------------------------

/-- The two branches of the preprocessor. -/
inductive NumaVariant
  | gcc
  | other
deriving DecidableEq, Repr

/-- A call of `cilk_for_numa_recursive` that has `[low, high)` left: `numa_low`
and `numa_high` of its frame, and whether it waits behind a spawn. -/
structure NumaStrand (ct : CountType) where
  low       : BitVec ct.bits
  high      : BitVec ct.bits
  numaLow   : BitVec 32
  numaHigh  : BitVec 32
  stealable : Bool

variable {ct : CountType}

/-- The entry of `cilk_for_numa_recursive`, which writes the range to the frame. -/
def NumaStrand.enter (low high : BitVec ct.bits) : NumaStrand ct :=
  ⟨low, high, low.setWidth 32, high.setWidth 32, false⟩

/-- The strands that are left, and the ranges that the body was called with. -/
structure NumaPool (ct : CountType) where
  strands  : List (NumaStrand ct)
  executed : List (BitVec ct.bits × BitVec ct.bits)

/-- What `cilk_for_numa_recursive_spawn_helper` is called with, on node `numaW`. -/
def numaSpawned (v : NumaVariant) (x : NumaStrand ct) (mid numaW : BitVec ct.bits) :
    NumaStrand ct :=
  match v with
  | .gcc => .enter x.low mid
  | .other => if numaW < mid then .enter x.low mid else .enter mid x.high

/-- The frame when it is detached: one version writes the remainder to it. -/
def numaDetached (v : NumaVariant) (x : NumaStrand ct) (mid numaW : BitVec ct.bits) :
    NumaStrand ct :=
  match v with
  | .gcc => x
  | .other =>
    if numaW < mid then { x with numaLow := mid.setWidth 32 }
    else { x with numaHigh := mid.setWidth 32 }

/-- The call behind the spawn. -/
def numaKept (v : NumaVariant) (x : NumaStrand ct) (mid numaW : BitVec ct.bits) : NumaStrand ct :=
  let x := { numaDetached v x mid numaW with stealable := true }
  if numaW < mid then { x with low := mid } else { x with high := mid }

/-- The strand is longer than the grain. -/
def NumaStrand.Splits (x : NumaStrand ct) (grain : BitVec 32) : Prop :=
  grain.signExtend ct.bits < x.high - x.low

instance (x : NumaStrand ct) (grain : BitVec 32) : Decidable (x.Splits grain) :=
  inferInstanceAs (Decidable (_ < _))

def NumaStrand.mid (x : NumaStrand ct) : BitVec ct.bits := x.low + (x.high - x.low) / 2

/-- One pass of `cilk_for_numa_recursive` by the strand between `before` and
`after`, on node `numa`. -/
def cilkForNumaRecursive (v : NumaVariant) (grain : BitVec 32) (s : NumaPool ct)
    (before after : List (NumaStrand ct)) (x : NumaStrand ct) (numa : BitVec 32) : NumaPool ct :=
  if x.Splits grain then
    let numaW := numa.signExtend ct.bits
    { s with strands := before ++ numaSpawned v x x.mid numaW :: numaKept v x x.mid numaW :: after }
  else
    { strands := before ++ after, executed := s.executed ++ [(x.low, x.high)] }

/-- A call of `cilk_for_numa_recursive` for `[low, high)`. An event is the strand
that runs next and the node it runs on. -/
def numaSystem (v : NumaVariant) (grain : BitVec 32) (low high : BitVec ct.bits) :
    LTS (NumaPool ct) (Nat × BitVec 32) where
  init s := s = ⟨[.enter low high], []⟩
  step s e t := ∃ before x after, s.strands = before ++ x :: after ∧ before.length = e.1 ∧
    t = cilkForNumaRecursive v grain s before after x e.2

-- ---------------------------------------------------------------------------
-- The property
-- ---------------------------------------------------------------------------

/-- The ranges that are left or have been executed. -/
def NumaPool.ranges (s : NumaPool ct) : List (Nat × Nat) :=
  toNats ((s.strands.map fun x => (x.low, x.high)) ++ s.executed)

/-- No index of `[low, high)` is lost or done twice, and the frames that can be
stolen hold the range that they have left. -/
structure NumaExact (low high : BitVec ct.bits) (s : NumaPool ct) : Prop where
  nonempty : ∀ r ∈ s.ranges, r.1 < r.2
  once     : ∀ i, hits i s.ranges = hits i [(low.toNat, high.toNat)]
  frames   : ∀ x ∈ s.strands, x.stealable = true →
    x.numaLow.toNat = x.low.toNat ∧ x.numaHigh.toNat = x.high.toNat

/-- The step does not split a strand, or it does so in the right version, and the
range that the strand keeps ends below `2 ^ 32`. -/
def NumaKeeps (v : NumaVariant) (grain : BitVec 32) (s : NumaPool ct) (e : Nat × BitVec 32) :
    Prop :=
  ∀ x, s.strands[e.1]? = some x → x.Splits grain → v = .other ∧
    (if e.2.signExtend ct.bits < x.mid then x.high else x.mid).toNat < 2 ^ 32

instance (v : NumaVariant) (grain : BitVec 32) (s : NumaPool ct) (e : Nat × BitVec 32) :
    Decidable (NumaKeeps v grain s e) :=
  inferInstanceAs (Decidable (∀ x ∈ s.strands[e.1]?, x.Splits grain → v = .other ∧
    (if e.2.signExtend ct.bits < x.mid then x.high else x.mid).toNat < 2 ^ 32))

-- ---------------------------------------------------------------------------
-- One step
-- ---------------------------------------------------------------------------

/-- The ranges are right, and each frame holds the low halves of its bounds. -/
structure NumaOk (low high : BitVec ct.bits) (s : NumaPool ct) : Prop extends
    NumaExact low high s where
  stored : ∀ x ∈ s.strands, x.numaLow = x.low.setWidth 32 ∧ x.numaHigh = x.high.setWidth 32

theorem toNat_setWidth_eq_iff {n : Nat} (b : BitVec n) :
    (b.setWidth 32).toNat = b.toNat ↔ b.toNat < 2 ^ 32 := by
  rw [BitVec.toNat_setWidth]
  constructor
  · intro h
    omega
  · intro h
    exact Nat.mod_eq_of_lt h

/-- A strand that splits has a middle inside. -/
theorem NumaStrand.mid_lt {x : NumaStrand ct} {grain : BitVec 32} (hgrain : 1 ≤ grain.toInt)
    (hlt : x.low.toNat < x.high.toNat) (hsplit : x.Splits grain) :
    x.low.toNat < x.mid.toNat ∧ x.mid.toNat < x.high.toNat ∧
      x.mid.toNat = x.low.toNat + (x.high.toNat - x.low.toNat) / 2 := by
  have hmid : x.mid.toNat = _ := toNat_mid hlt
  have hlong : grain.toNat < x.high.toNat - x.low.toNat := by
    unfold NumaStrand.Splits at hsplit
    rw [BitVec.lt_def, signExtend_toNat hgrain, toNat_high_sub hlt] at hsplit
    exact hsplit
  have hpos := BitVec.toInt_eq_toNat_of_msb (msb_of_pos hgrain)
  omega

section Step

variable {v : NumaVariant} {grain : BitVec 32} {low high : BitVec ct.bits} {s : NumaPool ct}
  {before after : List (NumaStrand ct)} {x : NumaStrand ct} {numa : BitVec 32}

theorem NumaExact.lt (h : NumaExact low high s) (hx : x ∈ s.strands) :
    x.low.toNat < x.high.toNat := by
  refine h.nonempty (x.low.toNat, x.high.toNat) ?_
  unfold NumaPool.ranges
  rw [toNats_append, List.mem_append]
  left
  unfold toNats
  rw [List.map_map, List.mem_map]
  exact ⟨x, hx, rfl⟩

/-- The ranges of strands. -/
def strandRanges (xs : List (NumaStrand ct)) : List (Nat × Nat) :=
  xs.map fun x => (x.low.toNat, x.high.toNat)

theorem ranges_eq (s : NumaPool ct) :
    s.ranges = strandRanges s.strands ++ toNats s.executed := by
  simp [NumaPool.ranges, strandRanges, toNats]

@[simp] theorem strandRanges_append (xs ys : List (NumaStrand ct)) :
    strandRanges (xs ++ ys) = strandRanges xs ++ strandRanges ys := List.map_append

@[simp] theorem strandRanges_cons (x : NumaStrand ct) (xs : List (NumaStrand ct)) :
    strandRanges (x :: xs) = (x.low.toNat, x.high.toNat) :: strandRanges xs := rfl

@[simp] theorem strandRanges_nil : strandRanges ([] : List (NumaStrand ct)) = [] := rfl

/-- A strand that is not split is executed. -/
theorem NumaOk.execute (h : NumaOk low high s) (hs : s.strands = before ++ x :: after) :
    NumaOk low high ⟨before ++ after, s.executed ++ [(x.low, x.high)]⟩ := by
  have hperm : List.Perm s.ranges
      (NumaPool.mk (before ++ after) (s.executed ++ [(x.low, x.high)])).ranges := by
    simp only [ranges_eq, hs, strandRanges_append, strandRanges_cons, toNats_append, toNats_cons,
      toNats_nil, List.append_assoc]
    refine List.Perm.append_left _ ?_
    rw [List.cons_append, ← List.append_assoc]
    exact (List.perm_append_singleton _ _).symm
  have hmem : ∀ y ∈ before ++ after, y ∈ s.strands := by
    intro y hy
    rw [hs]
    rcases List.mem_append.mp hy with hy | hy
    · exact List.mem_append_left _ hy
    · exact List.mem_append_right _ (List.mem_cons_of_mem _ hy)
  refine ⟨⟨fun r hr => h.nonempty r (hperm.mem_iff.mpr hr), fun i => ?_, fun y hy => ?_⟩,
    fun y hy => ?_⟩
  · rw [← hits_perm hperm, h.once]
  · exact h.frames y (hmem y hy)
  · exact h.stored y (hmem y hy)

/-- The ranges of a split strand, in the version that spawns the half that it
does not keep. -/
theorem numaSplit_other (numaW : BitVec ct.bits) :
    (numaSpawned .other x x.mid numaW = .enter x.low x.mid ∧
        numaKept .other x x.mid numaW =
          ⟨x.mid, x.high, x.mid.setWidth 32, x.numaHigh, true⟩ ∧ numaW < x.mid) ∨
      (numaSpawned .other x x.mid numaW = .enter x.mid x.high ∧
        numaKept .other x x.mid numaW =
          ⟨x.low, x.mid, x.numaLow, x.mid.setWidth 32, true⟩ ∧ ¬ numaW < x.mid) := by
  unfold numaSpawned numaKept numaDetached
  by_cases hnode : numaW < x.mid
  · exact Or.inl (by simp [hnode])
  · exact Or.inr (by simp [hnode])

/-- Two strands take the place of one, and share its range. -/
theorem NumaOk.replace (h : NumaOk low high s) (hs : s.strands = before ++ x :: after)
    {y z : NumaStrand ct}
    (hits_eq : ∀ i, hits i (strandRanges [y, z]) = hits i (strandRanges [x]))
    (hy : y.low.toNat < y.high.toNat ∧ y.stealable = false ∧
      y.numaLow = y.low.setWidth 32 ∧ y.numaHigh = y.high.setWidth 32)
    (hz : z.low.toNat < z.high.toNat ∧ z.numaLow = z.low.setWidth 32 ∧
      z.numaHigh = z.high.setWidth 32)
    (hfit : z.high.toNat < 2 ^ 32) :
    NumaOk low high { s with strands := before ++ y :: z :: after } := by
  have hcases : ∀ u ∈ before ++ y :: z :: after, u ∈ s.strands ∨ u = y ∨ u = z := by
    intro u hu
    rw [hs]
    simp only [List.mem_append, List.mem_cons] at hu ⊢
    rcases hu with hu | rfl | rfl | hu
    · exact Or.inl (Or.inl hu)
    · exact Or.inr (Or.inl rfl)
    · exact Or.inr (Or.inr rfl)
    · exact Or.inl (Or.inr (Or.inr hu))
  refine ⟨⟨fun r hr => ?_, fun i => ?_, fun u hu hsteal => ?_⟩, fun u hu => ?_⟩
  · rw [ranges_eq, List.mem_append] at hr
    rcases hr with hr | hr
    · obtain ⟨u, hu, rfl⟩ := List.mem_map.mp hr
      rcases hcases u hu with hu | rfl | rfl
      · exact h.lt hu
      · exact hy.1
      · exact hz.1
    · exact h.nonempty r (by rw [ranges_eq]; exact List.mem_append_right _ hr)
  · -- every index is hit by the two where it was hit by the one
    have hold := h.once i
    have hnew := hits_eq i
    rw [ranges_eq, hs] at hold
    rw [ranges_eq]
    simp only [strandRanges_append, strandRanges_cons, strandRanges_nil, hits_append, hits_cons,
      hits_nil] at hold hnew ⊢
    omega
  · rcases hcases u hu with hu | rfl | rfl
    · exact h.frames u hu hsteal
    · rw [hy.2.1] at hsteal
      exact absurd hsteal Bool.false_ne_true
    · rw [hz.2.1, hz.2.2]
      have hlow : u.low.toNat < 2 ^ 32 := Nat.lt_trans hz.1 hfit
      exact ⟨(toNat_setWidth_eq_iff _).mpr hlow, (toNat_setWidth_eq_iff _).mpr hfit⟩
  · rcases hcases u hu with hu | rfl | rfl
    · exact h.stored u hu
    · exact hy.2.2
    · exact hz.2

/-- A split in the right version keeps the ranges right, if what is kept fits
the frame. -/
theorem NumaOk.split (h : NumaOk low high s) (hgrain : 1 ≤ grain.toInt)
    (hs : s.strands = before ++ x :: after) (hsplit : x.Splits grain)
    (hfit : (if numa.signExtend ct.bits < x.mid then x.high else x.mid).toNat < 2 ^ 32) :
    NumaOk low high (cilkForNumaRecursive .other grain s before after x numa) := by
  have hmem : x ∈ s.strands := by simp [hs]
  have hlt := h.lt hmem
  obtain ⟨hstoredLow, hstoredHigh⟩ := h.stored x hmem
  obtain ⟨hlow, hhigh, -⟩ := x.mid_lt hgrain hlt hsplit
  unfold cilkForNumaRecursive
  rw [if_pos hsplit]
  show NumaOk low high { s with strands := before ++ _ :: _ :: after }
  rcases numaSplit_other (x := x) (numa.signExtend ct.bits) with
    ⟨hspawned, hkept, hnode⟩ | ⟨hspawned, hkept, hnode⟩
  · -- the node is in the lower half, which is spawned
    rw [if_pos hnode] at hfit
    rw [hspawned, hkept]
    refine h.replace hs (fun i => ?_) ⟨hlow, rfl, rfl, rfl⟩ ⟨hhigh, rfl, hstoredHigh⟩ hfit
    exact hits_split (Nat.le_of_lt hlow) (Nat.le_of_lt hhigh) i
  · -- the node is in the upper half, which is spawned
    rw [if_neg hnode] at hfit
    rw [hspawned, hkept]
    refine h.replace hs (fun i => ?_) ⟨hhigh, rfl, rfl, rfl⟩ ⟨hlow, hstoredLow, rfl⟩ hfit
    have hboth := hits_split (Nat.le_of_lt hlow) (Nat.le_of_lt hhigh) i
    simp only [strandRanges, List.map_cons, List.map_nil, hits_cons, hits_nil,
      NumaStrand.enter] at hboth ⊢
    omega

/-- A split that keeps the ranges right is one in the right version, and what it
keeps fits the frame. -/
theorem NumaOk.of_split (h : NumaOk low high s) (hgrain : 1 ≤ grain.toInt)
    (hs : s.strands = before ++ x :: after) (hsplit : x.Splits grain)
    (ht : NumaExact low high (cilkForNumaRecursive v grain s before after x numa)) :
    v = .other ∧
      (if numa.signExtend ct.bits < x.mid then x.high else x.mid).toNat < 2 ^ 32 := by
  have hmem : x ∈ s.strands := by simp [hs]
  have hlt := h.lt hmem
  obtain ⟨hstoredLow, hstoredHigh⟩ := h.stored x hmem
  obtain ⟨hlow, hhigh, -⟩ := x.mid_lt hgrain hlt hsplit
  unfold cilkForNumaRecursive at ht
  rw [if_pos hsplit] at ht
  change NumaExact low high
    ⟨before ++ numaSpawned v x x.mid (numa.signExtend ct.bits) ::
      numaKept v x x.mid (numa.signExtend ct.bits) :: after, s.executed⟩ at ht
  have hframe := ht.frames (numaKept v x x.mid (numa.signExtend ct.bits)) (by simp)
  cases v with
  | other =>
    -- what is kept is stolen with the bounds in the frame, so they fit
    refine ⟨rfl, ?_⟩
    rcases numaSplit_other (x := x) (numa.signExtend ct.bits) with
      ⟨-, hkept, hnode⟩ | ⟨-, hkept, hnode⟩
    · rw [if_pos hnode]
      rw [hkept] at hframe
      have hfits := (hframe rfl).2
      simp only [hstoredHigh] at hfits
      exact (toNat_setWidth_eq_iff _).mp hfits
    · rw [if_neg hnode]
      rw [hkept] at hframe
      exact (toNat_setWidth_eq_iff _).mp (hframe rfl).2
  | gcc =>
    exfalso
    by_cases hnode : numa.signExtend ct.bits < x.mid
    · -- the frame still holds the lower bound of the whole range
      have hkept : numaKept .gcc x x.mid (numa.signExtend ct.bits) =
          { x with stealable := true, low := x.mid } := by
        simp [numaKept, numaDetached, hnode]
      rw [hkept] at hframe
      have hbound := (hframe rfl).1
      simp only [hstoredLow, BitVec.toNat_setWidth] at hbound
      have hle := Nat.mod_le x.low.toNat (2 ^ 32)
      omega
    · -- the lower half is spawned and kept
      have hkept : numaKept .gcc x x.mid (numa.signExtend ct.bits) =
          { x with stealable := true, high := x.mid } := by
        simp [numaKept, numaDetached, hnode]
      have hold := h.once x.low.toNat
      have hnew := ht.once x.low.toNat
      rw [ranges_eq, hs] at hold
      rw [ranges_eq, hkept] at hnew
      simp only [strandRanges_append, strandRanges_cons, hits_append, hits_cons, hits_nil,
        numaSpawned, NumaStrand.enter] at hold hnew
      have hin : x.low.toNat ≤ x.low.toNat ∧ x.low.toNat < x.mid.toNat := ⟨Nat.le_refl _, hlow⟩
      have hin' : x.low.toNat ≤ x.low.toNat ∧ x.low.toNat < x.high.toNat := ⟨Nat.le_refl _, hlt⟩
      rw [if_pos hin'] at hold
      rw [if_pos hin] at hnew
      omega

/-- A step keeps the ranges right iff it does not split a strand, or in the right
version and with a frame that the rest of the range fits. -/
theorem NumaOk.step_iff (h : NumaOk low high s) (hgrain : 1 ≤ grain.toInt)
    {e : Nat × BitVec 32} {t : NumaPool ct} (hstep : (numaSystem v grain low high).step s e t) :
    (NumaKeeps v grain s e → NumaOk low high t) ∧ (NumaExact low high t → NumaKeeps v grain s e) := by
  obtain ⟨before, x, after, hs, hk, rfl⟩ := hstep
  have hget : s.strands[e.1]? = some x := by
    rw [hs, ← hk]
    simp
  constructor
  · intro hkeeps
    by_cases hsplit : x.Splits grain
    · obtain ⟨rfl, hfit⟩ := hkeeps x hget hsplit
      exact h.split hgrain hs hsplit hfit
    · unfold cilkForNumaRecursive
      rw [if_neg hsplit]
      exact h.execute hs
  · intro ht y hy hsplit
    obtain rfl := Option.some.inj (hget.symm.trans hy)
    exact h.of_split hgrain hs hsplit ht

end Step

-- ---------------------------------------------------------------------------
-- Whole runs
-- ---------------------------------------------------------------------------

section Runs

variable {v : NumaVariant} {grain : BitVec 32} {low high : BitVec ct.bits}

theorem numaOk_init (hlt : low.toNat < high.toNat) :
    NumaOk low high ⟨[.enter low high], []⟩ := by
  refine ⟨⟨fun r hr => ?_, fun i => rfl, fun x hx hsteal => ?_⟩, fun x hx => ?_⟩
  · rw [show r = (low.toNat, high.toNat) from List.mem_singleton.mp hr]
    exact hlt
  · rw [List.mem_singleton.mp hx] at hsteal
    exact absurd hsteal Bool.false_ne_true
  · rw [List.mem_singleton.mp hx]
    exact ⟨rfl, rfl⟩

/-- The halves of a split strand, in whichever way they are chosen, leave fewer
steps than the strand. -/
theorem numaSplit_weight {x : NumaStrand ct} (hgrain : 1 ≤ grain.toInt)
    (hlt : x.low.toNat < x.high.toNat) (hsplit : x.Splits grain) (numaW : BitVec ct.bits) :
    (numaSpawned v x x.mid numaW).low.toNat < (numaSpawned v x x.mid numaW).high.toNat ∧
      (numaKept v x x.mid numaW).low.toNat < (numaKept v x x.mid numaW).high.toNat ∧
      weight (strandRanges [numaSpawned v x x.mid numaW, numaKept v x x.mid numaW]) <
        weight (strandRanges [x]) := by
  obtain ⟨hlow, hhigh, hmid⟩ := x.mid_lt hgrain hlt hsplit
  by_cases hnode : numaW < x.mid
  · cases v <;> simp only [numaSpawned, numaKept, numaDetached, hnode, if_true, NumaStrand.enter,
      strandRanges, List.map_cons, List.map_nil, weight, List.sum_cons, List.sum_nil] <;>
      refine ⟨?_, ?_, ?_⟩ <;> omega
  · cases v <;> simp only [numaSpawned, numaKept, numaDetached, hnode, if_false, NumaStrand.enter,
      strandRanges, List.map_cons, List.map_nil, weight, List.sum_cons, List.sum_nil] <;>
      refine ⟨?_, ?_, ?_⟩ <;> omega

/-- A pass lowers the weight of the strands, and leaves no empty one. -/
theorem numaStep_weight {s t : NumaPool ct} {e : Nat × BitVec 32} (hgrain : 1 ≤ grain.toInt)
    (hlt : ∀ x ∈ s.strands, x.low.toNat < x.high.toNat)
    (hstep : (numaSystem v grain low high).step s e t) :
    (∀ x ∈ t.strands, x.low.toNat < x.high.toNat) ∧
      weight (strandRanges t.strands) < weight (strandRanges s.strands) := by
  obtain ⟨before, x, after, hs, -, rfl⟩ := hstep
  have hx := hlt x (by simp [hs])
  have hbefore : ∀ y ∈ before, y.low.toNat < y.high.toNat := fun y hy => hlt y (by simp [hs, hy])
  have hafter : ∀ y ∈ after, y.low.toNat < y.high.toNat := fun y hy => hlt y (by simp [hs, hy])
  unfold cilkForNumaRecursive
  by_cases hsplit : x.Splits grain
  · rw [if_pos hsplit]
    obtain ⟨hspawned, hkept, hweight⟩ :=
      numaSplit_weight (v := v) hgrain hx hsplit (e.2.signExtend ct.bits)
    refine ⟨fun y hy => ?_, ?_⟩
    · simp only [List.mem_append, List.mem_cons] at hy
      rcases hy with hy | rfl | rfl | hy
      · exact hbefore y hy
      · exact hspawned
      · exact hkept
      · exact hafter y hy
    · rw [hs]
      simp only [strandRanges_append, strandRanges_cons, strandRanges_nil, weight_append,
        weight_cons] at hweight ⊢
      omega
  · rw [if_neg hsplit]
    refine ⟨fun y hy => ?_, ?_⟩
    · rcases List.mem_append.mp hy with hy | hy
      · exact hbefore y hy
      · exact hafter y hy
    · rw [hs]
      simp only [strandRanges_append, strandRanges_cons, weight_append, weight_cons]
      omega

/-- Every schedule ends, in either version. -/
theorem numaLoop_length {s : NumaPool ct} {tr : List ((Nat × BitVec 32) × NumaPool ct)}
    (hgrain : 1 ≤ grain.toInt) (hlt : ∀ x ∈ s.strands, x.low.toNat < x.high.toNat)
    (hpath : (numaSystem v grain low high).IsPath s tr) :
    tr.length ≤ weight (strandRanges s.strands) := by
  induction tr generalizing s with
  | nil => exact Nat.zero_le _
  | cons p tr ih =>
    obtain ⟨e, t⟩ := p
    obtain ⟨ht, hless⟩ := numaStep_weight hgrain hlt hpath.1
    have hlen := ih ht hpath.2
    simp only [List.length_cons]
    omega

/-- A run is exact throughout iff it splits no strand, or all in the right version
and with frames that the rests fit. Then the ranges that the body was called with
cover `[low, high)` exactly when no strand is left. Every run ends. -/
theorem numaLoop_exact_iff (v : NumaVariant) (hgrain : 1 ≤ grain.toInt)
    (hlt : low.toNat < high.toNat) {tr : List ((Nat × BitVec 32) × NumaPool ct)}
    (hpath : (numaSystem v grain low high).IsPath ⟨[.enter low high], []⟩ tr) :
    ((∀ p ∈ tr, NumaExact low high p.2) ↔
        LTS.AllSteps (NumaKeeps v grain) ⟨[.enter low high], []⟩ tr) ∧
      (∀ p ∈ tr, NumaExact low high p.2 → p.2.strands = [] →
        (∀ r ∈ toNats p.2.executed, r.1 < r.2) ∧
          ∀ i, hits i (toNats p.2.executed) = if low.toNat ≤ i ∧ i < high.toNat then 1 else 0) ∧
      tr.length < 2 * (high.toNat - low.toNat) := by
  refine ⟨?_, fun p _ hexact hdone => ?_, ?_⟩
  · exact LTS.forall_states_iff_steps (P := NumaOk low high) (fun _ h => h.toNumaExact)
      (fun _ _ _ h hstep => (h.step_iff hgrain hstep).1)
      (fun _ _ _ h hstep => (h.step_iff hgrain hstep).2) (numaOk_init hlt) hpath
  · have hranges : p.2.ranges = toNats p.2.executed := by
      rw [ranges_eq, hdone]
      rfl
    refine ⟨fun r hr => hexact.nonempty r (hranges ▸ hr), fun i => ?_⟩
    rw [← hranges, hexact.once, hits_cons, hits_nil, Nat.zero_add]
  · have hlen := numaLoop_length hgrain (fun x hx => by
      rw [List.mem_singleton.mp hx]
      exact hlt) hpath
    simp only [strandRanges_cons, strandRanges_nil, NumaStrand.enter, weight_cons] at hlen
    simp only [weight, List.map_nil, List.sum_nil] at hlen
    omega

end Runs

/-- One pass by the strand that the event names. -/
def numaExec (v : NumaVariant) (grain : BitVec 32) (s : NumaPool ct) (e : Nat × BitVec 32) :
    Option (NumaPool ct) :=
  match s.strands.drop e.1 with
  | [] => none
  | x :: after => some (cilkForNumaRecursive v grain s (s.strands.take e.1) after x e.2)

theorem numaExec_step {v : NumaVariant} {grain : BitVec 32} {low high : BitVec ct.bits}
    (s : NumaPool ct) (e : Nat × BitVec 32) (t : NumaPool ct) (h : numaExec v grain s e = some t) :
    (numaSystem v grain low high).step s e t := by
  unfold numaExec at h
  cases hs : s.strands.drop e.1 with
  | nil =>
    rw [hs] at h
    cases h
  | cons x after =>
    rw [hs] at h
    have hlt : e.1 < s.strands.length := by
      rw [← not_le, ← List.drop_eq_nil_iff, hs]
      exact List.cons_ne_nil x after
    refine ⟨s.strands.take e.1, x, after, ?_, ?_, (Option.some.inj h).symm⟩
    · rw [← hs, List.take_append_drop]
    · rw [List.length_take]
      omega

/-- Four indices with grain 1. The range is split on node 1, its lower half on
node 0 and its upper half on node 3; each of the splits goes on with the half that
its node is in. -/
def exampleNuma : List ((Nat × BitVec 32) × NumaPool .cilk32_t) :=
  LTS.run (numaExec .other 1) ⟨[.enter 0 4], []⟩
    [(0, 1), (0, 0), (1, 2), (0, 0), (0, 3), (0, 0), (0, 0)]

theorem exampleNuma_keeps :
    LTS.AllSteps (@NumaKeeps .cilk32_t .other 1) ⟨[.enter 0 4], []⟩ exampleNuma :=
  ⟨by decide, by decide, by decide, by decide, by decide, by decide, by decide, trivial⟩

theorem numaLoop_exact_iff_exampleNuma :
    (LTS.AllSteps (@NumaKeeps .cilk32_t .other 1) ⟨[.enter 0 4], []⟩ exampleNuma ∧
      exampleNuma.getLast?.map (fun p => (p.2.strands.length, toNats p.2.executed)) =
        some (0, [(1, 2), (0, 1), (3, 4), (2, 3)])) ∧
    ((∀ p ∈ exampleNuma, @NumaExact .cilk32_t 0 4 p.2) ↔
        LTS.AllSteps (@NumaKeeps .cilk32_t .other 1) ⟨[.enter 0 4], []⟩ exampleNuma) ∧
      (∀ p ∈ exampleNuma, @NumaExact .cilk32_t 0 4 p.2 → p.2.strands = [] →
          (∀ r ∈ toNats p.2.executed, r.1 < r.2) ∧
            ∀ i, hits i (toNats p.2.executed) =
              if (0 : BitVec 32).toNat ≤ i ∧ i < (4 : BitVec 32).toNat then 1 else 0) ∧
      exampleNuma.length < 2 * ((4 : BitVec 32).toNat - (0 : BitVec 32).toNat) :=
  ⟨⟨exampleNuma_keeps, by decide⟩,
    @numaLoop_exact_iff .cilk32_t 1 0 4 .other (by decide) (by decide) exampleNuma
      (LTS.isPath_run numaExec_step _ _)⟩

/-- Four indices, grain 1, on node 3: the version for GCC spawns `[0, 2)` and goes
on with `[0, 2)`. -/
theorem numaLoop_gcc_not_exact : ¬ ∀ (v : NumaVariant) (ct : CountType) (grain : BitVec 32)
    (low high : BitVec ct.bits), 1 ≤ grain.toInt → low.toNat < high.toNat →
    ∀ tr, (numaSystem v grain low high).IsPath ⟨[.enter low high], []⟩ tr →
      ∀ p ∈ tr, NumaExact low high p.2 := by
  intro h
  have hstep : (@numaSystem .cilk32_t .gcc 1 0 4).step ⟨[.enter 0 4], []⟩ (0, 3)
      (cilkForNumaRecursive .gcc 1 ⟨[.enter 0 4], []⟩ [] [] (.enter 0 4) 3) :=
    ⟨[], .enter 0 4, [], rfl, rfl, rfl⟩
  have hexact := h .gcc .cilk32_t 1 0 4 (by decide) (by decide) [((0, 3), _)] ⟨hstep, trivial⟩ _
    (List.mem_singleton_self _)
  have hkeeps := ((numaOk_init (by decide)).step_iff (by decide) hstep).2 hexact
  obtain ⟨hother, -⟩ := hkeeps (.enter 0 4) rfl (by decide)
  exact nomatch hother

end SwanRuntime.Loops
