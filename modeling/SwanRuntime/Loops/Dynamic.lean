import Mathlib.Tactic.Ring
import SwanRuntime.Library.Ranges
import SwanRuntime.Library.Transition

/-!
# Dynamic loops

`cilk_for_root` computes a grain size and hands the whole range to
`cilk_for_recursive`, which spawns a call for the lower half of a range that is
longer than the grain, continues with the upper half, and calls the body for a
range that is not.

The spawned calls and the continuations that are left are *strands*. A steal
schedule decides which strand runs next.

The default grain size is the count divided by eight times the number of
workers, rounded up. Near the top of the count's type the rounding wraps, and
the grain size is 0.

## Results

* `grainsize_pos_iff`      — when the grain size is at least 1.
* `Partitioned.step`       — a strand takes one step.
* `dynamicLoop_exact_iff`  — when a dynamic loop is total and exact.
-/

namespace SwanRuntime.Loops

open Ranges

-- ---------------------------------------------------------------------------
-- The code
-- ---------------------------------------------------------------------------

/-- The types of a trip count. -/
inductive CountType
  | cilk32_t
  | cilk64_t
deriving DecidableEq, Repr

/-- Their width. -/
abbrev CountType.bits : CountType → Nat
  | .cilk32_t => 32
  | .cilk64_t => 64

/-- What `grainsize` reads of the global state. -/
structure Settings where
  P          : BitVec 32
  underPtool : Bool
deriving DecidableEq, Repr

/-- `const int Px8 = g->P * 8`, as the arithmetic of `count_t` takes it. -/
def Settings.px8 (g : Settings) (ct : CountType) : BitVec ct.bits :=
  (g.P * 8).signExtend ct.bits

/-- `grainsize`. Without a result, it divides by zero. -/
def grainsize (g : Settings) {ct : CountType} (req : BitVec 32) (count : BitVec ct.bits) :
    Option (BitVec 32) :=
  if 0 < req.toInt then some req
  else if count < 1 then some 1
  else if g.underPtool then some 1
  else if g.px8 ct = 0 then none
  else
    let n := (count + g.px8 ct - 1) / g.px8 ct
    if 2048 < n then some 2048 else some (n.setWidth 32)

/-- The strands that are left of a loop, in serial order, and the ranges that
its body was called with. -/
structure Pool (ct : CountType) where
  strands  : List (BitVec ct.bits × BitVec ct.bits)
  executed : List (BitVec ct.bits × BitVec ct.bits)

/-- One pass of `cilk_for_recursive` by the strand between `before` and
`after`. -/
def cilkForRecursive {ct : CountType} (grain : BitVec 32) (s : Pool ct)
    (before after : List (BitVec ct.bits × BitVec ct.bits)) (low high : BitVec ct.bits) : Pool ct :=
  let count := high - low
  if grain.signExtend ct.bits < count then
    let mid := low + count / 2
    { s with strands := before ++ (low, mid) :: (mid, high) :: after }
  else
    { strands := before ++ after, executed := s.executed ++ [(low, high)] }

/-- `cilk_for_root` after the grain size has been computed. An event is the
strand that runs next. -/
def loopSystem {ct : CountType} (grain : BitVec 32) (count : BitVec ct.bits) :
    LTS (Pool ct) Nat where
  init s := s = ⟨[(0, count)], []⟩
  step s k t := ∃ before low high after, s.strands = before ++ (low, high) :: after ∧
    before.length = k ∧ t = cilkForRecursive grain s before after low high

-- ---------------------------------------------------------------------------
-- The property
-- ---------------------------------------------------------------------------

/-- The ranges of a list as numbers. -/
def toNats {w : Nat} (rs : List (BitVec w × BitVec w)) : List (Nat × Nat) :=
  rs.map fun r => (r.1.toNat, r.2.toNat)

/-- A loop is total and exact: the grain size is at least 1, every schedule ends,
the body is called with non-empty ranges no longer than the grain, no index is
executed twice, and when no strand is left the ranges partition `[0, count)`. -/
def DynamicLoopExact (g : Settings) {ct : CountType} (req : BitVec 32) (count : BitVec ct.bits) :
    Prop :=
  ∃ grain, grainsize g req count = some grain ∧ 1 ≤ grain.toInt ∧
    ∀ tr, (loopSystem grain count).IsPath ⟨[(0, count)], []⟩ tr →
      tr.length < 2 * count.toNat ∧
      ∀ p ∈ tr,
        (∀ r ∈ toNats p.2.executed, r.1 < r.2 ∧ r.2 ≤ count.toNat ∧
          ((r.2 - r.1 : Nat) : Int) ≤ max grain.toInt 1) ∧
        (∀ i, hits i (toNats p.2.executed) ≤ 1) ∧
        (p.2.strands = [] → Partitions (toNats p.2.executed) count.toNat)

/-- The rounding in `grainsize` does not wrap. -/
def RoundsUp (g : Settings) {ct : CountType} (count : BitVec ct.bits) : Prop :=
  g.px8 ct ≠ 0 ∧ count.toNat + (g.px8 ct).toNat ≤ 2 ^ ct.bits

-- ---------------------------------------------------------------------------
-- The grain size
-- ---------------------------------------------------------------------------

@[simp] theorem toNat_one (ct : CountType) : (1 : BitVec ct.bits).toNat = 1 := by
  cases ct <;> rfl

/-- The sum that is divided is at least the divisor unless it wraps. -/
theorem px8_le_iff {ct : CountType} {count u : BitVec ct.bits} (hcount : 0 < count.toNat)
    (hu : 0 < u.toNat) :
    u.toNat ≤ (count + u - 1).toNat ↔ count.toNat + u.toNat ≤ 2 ^ ct.bits := by
  have hclt := count.isLt
  have hult := u.isLt
  rw [BitVec.toNat_sub, BitVec.toNat_add, toNat_one]
  cases ct <;> simp only [CountType.bits] at * <;> omega

theorem toInt_setWidth {ct : CountType} {n : BitVec ct.bits} (h : ¬ 2048 < n) :
    (n.setWidth 32).toInt = n.toNat := by
  have hle : n.toNat ≤ 2048 := by
    cases ct <;> simpa [BitVec.lt_def, CountType.bits] using h
  have hset : (n.setWidth 32).toNat = n.toNat := by
    rw [BitVec.toNat_setWidth, Nat.mod_eq_of_lt (by omega)]
  rw [BitVec.toInt_eq_toNat_of_lt (by omega), hset]

/-- The grain size is at least 1 if it is requested, if the program runs under a
tool, or if the rounding does not wrap. -/
theorem grainsize_pos_iff (g : Settings) {ct : CountType} (req : BitVec 32)
    {count : BitVec ct.bits} (hcount : 0 < count.toNat) :
    (∃ grain, grainsize g req count = some grain ∧ 1 ≤ grain.toInt) ↔
      0 < req.toInt ∨ g.underPtool = true ∨ RoundsUp g count := by
  have hone : ¬ count < 1 := by
    cases ct <;> simp [BitVec.lt_def] <;> omega
  have hpos : 1 ≤ (2048 : BitVec 32).toInt := by decide
  unfold grainsize
  rw [if_neg hone]
  by_cases hreq : 0 < req.toInt
  · simp [hreq]
    omega
  by_cases htool : g.underPtool = true
  · simp [hreq, htool]
  rw [if_neg hreq, if_neg htool]
  by_cases hzero : g.px8 ct = 0
  · simp [hreq, htool, hzero, RoundsUp]
  have hu : 0 < (g.px8 ct).toNat := by
    rw [Nat.pos_iff_ne_zero]
    intro h
    exact hzero (BitVec.eq_of_toNat_eq h)
  -- the rounded quotient is 0 when the sum has wrapped below the divisor
  have hdiv : 0 < ((count + g.px8 ct - 1) / g.px8 ct).toNat ↔ RoundsUp g count := by
    rw [BitVec.toNat_udiv, Nat.div_pos_iff, px8_le_iff hcount hu]
    exact ⟨fun h => ⟨hzero, h.2⟩, fun h => ⟨hu, h.2⟩⟩
  rw [if_neg hzero]
  by_cases hbig : 2048 < (count + g.px8 ct - 1) / g.px8 ct
  · have hnpos : 0 < ((count + g.px8 ct - 1) / g.px8 ct).toNat :=
      Nat.lt_of_le_of_lt (Nat.zero_le _) (BitVec.lt_def.mp hbig)
    rw [if_pos hbig]
    exact ⟨fun _ => .inr (.inr (hdiv.mp hnpos)), fun _ => ⟨_, rfl, hpos⟩⟩
  · rw [if_neg hbig]
    constructor
    · rintro ⟨grain, hgrain, hpos⟩
      obtain rfl := Option.some.inj hgrain
      rw [toInt_setWidth hbig] at hpos
      exact .inr (.inr (hdiv.mp (by omega)))
    · rintro (h | h | h)
      · exact absurd h hreq
      · exact absurd h htool
      · refine ⟨_, rfl, ?_⟩
        rw [toInt_setWidth hbig]
        have := hdiv.mpr h
        omega

-- ---------------------------------------------------------------------------
-- The recursion
-- ---------------------------------------------------------------------------

theorem msb_of_pos {grain : BitVec 32} (h : 1 ≤ grain.toInt) : grain.msb = false := by
  by_contra hmsb
  have := BitVec.toInt_neg_of_msb_true (by simpa using hmsb)
  omega

/-- The comparison with the grain is one of numbers. -/
theorem signExtend_toNat {ct : CountType} {grain : BitVec 32} (h : 1 ≤ grain.toInt) :
    (grain.signExtend ct.bits).toNat = grain.toNat := by
  have hlt := grain.isLt
  rw [BitVec.signExtend_eq_setWidth_of_msb_false (msb_of_pos h), BitVec.toNat_setWidth, Nat.mod_eq_of_lt]
  cases ct <;> simp only [CountType.bits] <;> omega

theorem toNat_high_sub {ct : CountType} {low high : BitVec ct.bits}
    (h : low.toNat < high.toNat) : (high - low).toNat = high.toNat - low.toNat :=
  BitVec.toNat_sub_of_le (BitVec.le_def.mpr (Nat.le_of_lt h))

/-- The middle of a range. -/
theorem toNat_mid {ct : CountType} {low high : BitVec ct.bits} (h : low.toNat < high.toNat) :
    (low + (high - low) / 2).toNat = low.toNat + (high.toNat - low.toNat) / 2 := by
  have htwo : (2 : BitVec ct.bits).toNat = 2 := by cases ct <;> rfl
  have hhigh := high.isLt
  rw [BitVec.toNat_add, BitVec.toNat_udiv, toNat_high_sub h, htwo, Nat.mod_eq_of_lt]
  omega

/-- The steps that the strands can still take. -/
def weight (rs : List (Nat × Nat)) : Nat := (rs.map fun r => 2 * (r.2 - r.1) - 1).sum

@[simp] theorem weight_append (rs rs' : List (Nat × Nat)) :
    weight (rs ++ rs') = weight rs + weight rs' := by
  simp [weight]

@[simp] theorem weight_cons (r : Nat × Nat) (rs : List (Nat × Nat)) :
    weight (r :: rs) = 2 * (r.2 - r.1) - 1 + weight rs := by
  simp [weight]

@[simp] theorem toNats_append {w : Nat} (rs rs' : List (BitVec w × BitVec w)) :
    toNats (rs ++ rs') = toNats rs ++ toNats rs' := List.map_append

@[simp] theorem toNats_cons {w : Nat} (r : BitVec w × BitVec w) (rs : List (BitVec w × BitVec w)) :
    toNats (r :: rs) = (r.1.toNat, r.2.toNat) :: toNats rs := rfl

@[simp] theorem toNats_nil {w : Nat} : toNats ([] : List (BitVec w × BitVec w)) = [] := rfl

/-- The strands and the executed ranges partition the interval, and the executed
ones are no longer than the grain. -/
structure Partitioned {ct : CountType} (grain : BitVec 32) (count : BitVec ct.bits)
    (s : Pool ct) : Prop where
  parts : Partitions (toNats s.strands ++ toNats s.executed) count.toNat
  short : ∀ r ∈ toNats s.executed, r.2 - r.1 ≤ grain.toNat

/-- One pass splits a strand or executes it, and lowers the weight. -/
theorem Partitioned.step {ct : CountType} {grain : BitVec 32} {count : BitVec ct.bits}
    {s : Pool ct} {before after : List (BitVec ct.bits × BitVec ct.bits)}
    {low high : BitVec ct.bits} (h : Partitioned grain count s) (hgrain : 1 ≤ grain.toInt)
    (hs : s.strands = before ++ (low, high) :: after) :
    Partitioned grain count (cilkForRecursive grain s before after low high) ∧
      weight (toNats (cilkForRecursive grain s before after low high).strands) <
        weight (toNats s.strands) := by
  have hparts : Partitions (toNats before ++ (low.toNat, high.toNat) ::
      (toNats after ++ toNats s.executed)) count.toNat := by
    simpa [hs] using h.parts
  have hlt : low.toNat < high.toNat := hparts.nonempty (low.toNat, high.toNat) (by simp)
  unfold cilkForRecursive
  by_cases hlong : grain.signExtend ct.bits < high - low
  · rw [if_pos hlong]
    have hlong : grain.toNat < high.toNat - low.toNat := by
      rw [BitVec.lt_def, signExtend_toNat hgrain, toNat_high_sub hlt] at hlong
      exact hlong
    have hpos : 1 ≤ grain.toNat := by
      have := BitVec.toInt_eq_toNat_of_msb (msb_of_pos hgrain)
      omega
    -- the middle lies within, so both halves are shorter
    have hmid := toNat_mid hlt
    refine ⟨⟨?_, h.short⟩, ?_⟩
    · have hsplit := hparts.split (low + (high - low) / 2).toNat (by omega) (by omega)
      simpa using hsplit
    · rw [hs]
      simp only [toNats_append, toNats_cons, weight_append, weight_cons, hmid]
      omega
  · rw [if_neg hlong]
    -- the whole strand is executed
    have hshort : high.toNat - low.toNat ≤ grain.toNat := by
      rw [BitVec.lt_def, signExtend_toNat hgrain, toNat_high_sub hlt] at hlong
      omega
    refine ⟨⟨?_, fun r hr => ?_⟩, ?_⟩
    · refine hparts.perm ?_
      simp only [toNats_append, toNats_cons, toNats_nil, List.append_assoc]
      refine List.Perm.append_left _ ?_
      rw [← List.append_assoc]
      exact (List.perm_append_singleton _ _).symm
    · simp only [toNats_append, toNats_cons, toNats_nil, List.mem_append, List.mem_singleton] at hr
      rcases hr with hr | rfl
      · exact h.short r hr
      · exact hshort
    · rw [hs]
      simp only [toNats_append, toNats_cons, weight_append, weight_cons]
      omega

/-- Along a schedule the partition is kept, and no schedule is longer than the
weight. -/
theorem Partitioned.along {ct : CountType} {grain : BitVec 32} {count : BitVec ct.bits}
    {s : Pool ct} {tr : List (Nat × Pool ct)} (hgrain : 1 ≤ grain.toInt)
    (h : Partitioned grain count s) (hpath : (loopSystem grain count).IsPath s tr) :
    tr.length ≤ weight (toNats s.strands) ∧ ∀ p ∈ tr, Partitioned grain count p.2 := by
  induction tr generalizing s with
  | nil => exact ⟨Nat.zero_le _, nofun⟩
  | cons p tr ih =>
    obtain ⟨k, t⟩ := p
    obtain ⟨⟨before, low, high, after, hs, -, rfl⟩, hpath⟩ := hpath
    obtain ⟨ht, hlt⟩ := h.step hgrain hs
    obtain ⟨hlen, hall⟩ := ih ht hpath
    refine ⟨?_, fun q hq => ?_⟩
    · simp only [List.length_cons]
      omega
    · rcases List.mem_cons.mp hq with rfl | hq
      · exact ht
      · exact hall q hq

/-- A dynamic loop is total and exact if and only if its grain is requested, or
the program runs under a tool, or the rounding of the default does not wrap. -/
theorem dynamicLoop_exact_iff (g : Settings) {ct : CountType} (req : BitVec 32)
    (count : BitVec ct.bits) (hcount : 0 < count.toNat) :
    DynamicLoopExact g req count ↔
      0 < req.toInt ∨ g.underPtool = true ∨ RoundsUp g count := by
  rw [← grainsize_pos_iff g req hcount]
  constructor
  · rintro ⟨grain, hgrain, hpos, -⟩
    exact ⟨grain, hgrain, hpos⟩
  · rintro ⟨grain, hgrain, hpos⟩
    refine ⟨grain, hgrain, hpos, fun tr hpath => ?_⟩
    have hstart : Partitioned grain count ⟨[(0, count)], []⟩ :=
      ⟨by simpa using partitions_singleton hcount, nofun⟩
    obtain ⟨hlen, hall⟩ := hstart.along hpos hpath
    refine ⟨?_, fun p hp => ⟨fun r hr => ?_, fun i => ?_, fun hdone => ?_⟩⟩
    · simp [weight] at hlen
      omega
    · have hp := hall p hp
      refine ⟨hp.parts.nonempty r (by simp [hr]), hp.parts.within r (by simp [hr]), ?_⟩
      have hshort := hp.short r hr
      have hmax := BitVec.toInt_eq_toNat_of_msb (msb_of_pos hpos)
      omega
    · have hle := (hall p hp).parts.hits_le_one i
      rw [hits_append] at hle
      omega
    · have hparts := (hall p hp).parts
      rw [hdone] at hparts
      exact hparts

/-- Eight workers, and a count that takes the default grain size. -/
theorem dynamicLoop_exact_iff_hundred :
    @DynamicLoopExact ⟨8, false⟩ .cilk32_t 0 100 ↔
      0 < (0 : BitVec 32).toInt ∨ false = true ∨ @RoundsUp ⟨8, false⟩ .cilk32_t 100 :=
  @dynamicLoop_exact_iff ⟨8, false⟩ .cilk32_t 0 100 (by decide)

/-- One worker and the largest 32-bit count: the default grain size is 0. -/
theorem dynamicLoop_not_exact : ¬ ∀ (g : Settings) (ct : CountType) (req : BitVec 32)
    (count : BitVec ct.bits), 1 ≤ g.P.toInt → 0 < count.toNat → DynamicLoopExact g req count := by
  intro h
  obtain ⟨grain, hgrain, hpos, -⟩ := h ⟨1, false⟩ .cilk32_t 0 (-1) (by decide) (by decide)
  have hzero : @grainsize ⟨1, false⟩ .cilk32_t 0 (-1) = some 0 := by decide
  rw [hzero] at hgrain
  obtain rfl := Option.some.inj hgrain
  exact absurd hpos (by decide)

end SwanRuntime.Loops
