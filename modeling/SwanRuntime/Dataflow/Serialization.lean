import SwanRuntime.Dataflow.Issuing
import SwanRuntime.Dataflow.Waking

/-!
# Dataflow — serialization

Every step keeps the invariant, and what follows from it: generations of an
object run one after the other in program order, every frame becomes ready once,
and none is left behind.

## Results

* `inv_step`             — every step keeps the invariant.
* `dataflow_serialized`  — the three guarantees.
* `overflow_loses_tasks` — they fail beyond the range of the counters.
-/

namespace SwanRuntime.Dataflow

variable {Obj : Type*} [DecidableEq Obj] {prog : TaskId → List (Access Obj)} {s : State Obj}

/-! ## Runs -/

theorem inv_init : Inv prog (State.initial : State Obj) := by
  have hun : ∀ t, (State.initial : State Obj).phase t = .unissued := fun _ => rfl
  refine ⟨⟨fun t => ?_, fun t h => ?_, fun t rem h => ?_, fun t rem h => ?_, fun t rem h => ?_,
    fun t => rfl, fun t h => ?_, fun t h => ?_⟩, fun o => ⟨∅, ⟨0, [], none⟩, ?_⟩, fun t => ?_, fun t h => ?_,
    fun t h => ?_, fun t rem h => ?_, fun o => ?_⟩
  · simp [State.initial]
  · cases h
  · cases h
  · cases h
  · cases h
  · cases h
  · cases h
  · exact ⟨represents_initial, rfl, fun t => by simp [liveOn, hun, Phase.live], by simp,
      by simp, by simp, by simp, by simp, by simp, by simp⟩
  · rw [waits_eq_zero fun o => by simp [State.initial, Metadata.initial, waitingOn]]
    rfl
  · cases h
  · cases h
  · cases h
  · exact lt_of_le_of_lt (Finset.card_filter_le _ _) (by simp [State.initial])

/-- Every step within the counters' range keeps the invariant. -/
theorem inv_step (hnd : ∀ t, (objs (prog t)).Nodup) {s' : State Obj} {e : Event Obj}
    (h : Inv prog s) (hs : Step prog s e s') (hfits : Fits prog s e) : Inv prog s' := by
  cases hs with
  | create idle =>
    have hkeep := h.create idle (.inl ⟨rfl, rfl⟩) (fun _ => hfits) (by simp)
    rw [← h.unissued_facts.2.2.2.1, Function.update_eq_self] at hkeep
    exact hkeep
  | createDirect idle ready =>
    have hkeep := h.create idle (.inr ⟨rfl, rfl⟩) (by simp)
      fun _ => h.createDirect hnd idle ready
    have hzero : (Phase.direct (prog s.next)).isIssuing.toNat = s.incoming s.next := by
      rw [h.unissued_facts.2.2.1]
      rfl
    rw [hzero, Function.update_eq_self] at hkeep
    exact hkeep
  | addTask pc => exact inv_addTask h hnd pc hfits
  | addNull pc => exact inv_addNull h hnd pc hfits
  | issuedReady pc last => exact inv_issuedReady h pc last
  | issuedPending pc more => exact inv_issuedPending h pc more
  | @issuedDirect t pc =>
    refine inv_running h (fun o => ?_) (fun o => ?_) ?_ rfl rfl (by simp) (by simp)
      (.inr (h.direct t _ pc).2)
    · simp [pc, Phase.live, objs]
    · simp [pc, Phase.woken]
    · rw [pc]; rfl
  | @start t pc =>
    refine inv_running h (fun o => ?_) (fun o => ?_) ?_ rfl rfl (by simp) (by simp) (.inl ?_) <;>
      simp [pc, Phase.live, Phase.woken, Phase.admitted, Phase.handedOut]
  | @finish t pc =>
    refine inv_running h (fun o => ?_) (fun o => ?_) ?_ rfl rfl (by simp) (fun rem he => ?_)
      (.inl ?_)
    · simp [pc, Phase.live]
    · simp [pc, Phase.woken]
    · rw [pc]; rfl
    · obtain rfl := Phase.releasing.inj he
      exact List.Sublist.refl _
    · rw [pc]; rfl
  | wakeup pc mem => exact inv_wakeup h hnd pc mem

theorem reachable_inv (hnd : ∀ t, (objs (prog t)).Nodup)
    (h : ((system prog).restrict (Fits prog)).Reachable s) : Inv prog s := by
  refine h.invariant (P := Inv prog) ?_ ?_
  · rintro s rfl
    exact inv_init
  · intro s e s' hI hs
    exact inv_step hnd hI hs.1 hs.2

/-! ## The guarantees -/

/-- Nothing of the task is under way: it waits, or it is done. -/
def Phase.busy : Phase Obj → Bool
  | .unissued | .pending | .releasing [] => false
  | _ => true

/-- No task is running, ready or half-issued. -/
def Quiescent (s : State Obj) : Prop := ∀ t, (s.phase t).busy = false

/-- A task that has been admitted only shares its objects with tasks of its own
generation: older ones of other generations are done with them. -/
theorem Inv.older_woken (h : Inv prog s) {t u : TaskId} {o : Obj} (htu : t < u)
    (ht : o ∈ objs (prog t)) (hu : o ∈ objs (prog u)) (hsame : ¬ SameGen prog o t u)
    (hadm : (s.phase u).admitted = true) : wokenOn prog s o t = true := by
  have hunext : u < s.next := by
    refine h.lt_next fun he => ?_
    rw [he] at hadm
    cases hadm
  have htissued : liveOn prog s o t = true ∨ wokenOn prog s o t = true := by
    refine h.issued (lt_trans htu hunext) ?_ ht
    by_contra hne
    have hnext := h.half t (by simpa using hne)
    rw [← hnext] at hunext
    exact absurd hunext (Nat.not_lt.mpr htu)
  refine htissued.resolve_left fun hlive => hsame ?_
  -- where `u` is with respect to `o`
  have hcase : (∃ rem, s.phase u = .direct rem ∧ o ∈ objs rem) ∨
      liveOn prog s o u = true ∨ wokenOn prog s o u = true := by
    by_cases hhalf : (s.phase u).halfIssued = true
    · cases hp : s.phase u with
      | direct rem =>
        by_cases hrem : o ∈ objs rem
        · exact .inl ⟨rem, rfl, hrem⟩
        · exact .inr (.inl (by simp [liveOn, hp, Phase.live, hu, hrem]))
      | unissued => rw [hp] at hhalf; cases hhalf
      | issuing rem => rw [hp] at hadm; cases hadm
      | pending => rw [hp] at hhalf; cases hhalf
      | ready => rw [hp] at hhalf; cases hhalf
      | running => rw [hp] at hhalf; cases hhalf
      | releasing rem => rw [hp] at hhalf; cases hhalf
    · exact .inr (h.issued hunext (by simpa using hhalf) hu)
  rcases hcase with ⟨rem, hp, hrem⟩ | hissued
  · obtain ⟨a, ha, rfl⟩ := List.mem_map.mp hrem
    exact (h.admits u rem hp a ha).2 t hlive
  · obtain ⟨A, v, hok⟩ := h.objOk o
    have huw := h.notMem_waitingOn (h.free u hadm) o
    rw [hok.waitingOn_eq] at huw
    have huA : u ∈ A ∨ wokenOn prog s o u = true := by
      rcases hissued with hl | hl
      · exact .inl (((hok.live u).mp hl).resolve_right huw)
      · exact .inr hl
    rcases (hok.live t).mp hlive with htA | htW
    · exact hok.same u huA t htA htu
    · exact absurd (hok.older u huA t htW) (lt_asymm htu)

/-- When nothing is under way, every task is done. -/
theorem Inv.all_done (h : Inv prog s) (hq : Quiescent s) (t : TaskId) (ht : t < s.next) :
    s.phase t = .releasing [] := by
  induction t using Nat.strong_induction_on with
  | _ t ih =>
    have hbusy := hq t
    cases hp : s.phase t with
    | unissued =>
      rw [h.unissued] at hp
      exact absurd ht (Nat.not_lt.mpr hp)
    | pending =>
      -- the oldest task left cannot wait: an active one would be older still
      exfalso
      have hw := h.parked t hp
      rw [waits, Ne, List.countP_eq_zero] at hw
      push Not at hw
      obtain ⟨a, -, hin⟩ := hw
      rw [decide_eq_true_eq] at hin
      obtain ⟨A, v, hok⟩ := h.objOk a.obj
      rw [hok.waitingOn_eq] at hin
      have h0 : v.oldest ≠ 0 := by
        intro h0
        rw [hok.rep.idle h0] at hin
        cases hin
      rw [hok.card, Finset.card_ne_zero] at h0
      obtain ⟨x, hx⟩ := h0
      have hxt : x < t := hok.older x (.inl hx) t hin
      have hlive := (hok.live x).mpr (.inl hx)
      have hdone := ih x hxt (lt_trans hxt ht)
      simp [liveOn, hdone, Phase.live, objs] at hlive
    | releasing rem =>
      cases rem with
      | nil => rfl
      | cons a rem => rw [hp] at hbusy; cases hbusy
    | issuing rem => rw [hp] at hbusy; cases hbusy
    | direct rem => rw [hp] at hbusy; cases hbusy
    | ready => rw [hp] at hbusy; cases hbusy
    | running => rw [hp] at hbusy; cases hbusy

/-- When every task is done, every object is as it was at first. -/
theorem Inv.all_idle (h : Inv prog s) (hdone : ∀ t, t < s.next → s.phase t = .releasing [])
    (o : Obj) : s.objMeta o = .initial := by
  obtain ⟨A, v, hok⟩ := h.objOk o
  have hnolive : ∀ t, liveOn prog s o t = false := by
    intro t
    by_contra hl
    have hl : liveOn prog s o t = true := by simpa using hl
    have hd := hdone t (h.lt_next_of_live (.inl hl))
    simp [liveOn, hd, Phase.live, objs] at hl
  have hA : A = ∅ := by
    refine Finset.eq_empty_of_forall_notMem fun t ht => ?_
    have := (hok.live t).mpr (.inl ht)
    rw [hnolive] at this
    cases this
  have h0 : v.oldest = 0 := by rw [hok.card, hA]; rfl
  have htasks : (s.objMeta o).tasks = [] := by
    rw [← gens_eq_nil_iff, hok.rep.waiting, hok.rep.idle h0]
  have hold := hok.rep.oldest
  have hyoung := hok.rep.youngest
  have hgens := hok.rep.numGens
  rw [h0] at hold
  rw [hok.rep.empty.mp h0] at hyoung
  rw [if_pos h0] at hgens
  cases hm : s.objMeta o
  simp only [hm] at hold hyoung hgens htasks
  simp [Metadata.initial, hold, hyoung, hgens, htasks, youngestBits]

/--
Within the counters' range: an admitted task finds its objects released by all
older tasks of other generations; a task never runs together with one of
another generation; a frame is put on a ready list exactly once, when it is
handed out; and when nothing is running, ready or half-issued, every task is
done and every object idle.
-/
theorem dataflow_serialized (hnd : ∀ t, (objs (prog t)).Nodup)
    (h : ((system prog).restrict (Fits prog)).Reachable s) :
    (∀ t u o, t < u → o ∈ objs (prog t) → o ∈ objs (prog u) → ¬ SameGen prog o t u →
      (s.phase u).admitted = true →
        wokenOn prog s o t = true ∧ s.phase t ≠ .ready ∧ s.phase t ≠ .running) ∧
    (∀ t, s.readied.count t = if (s.phase t).handedOut = true ∧ s.direct t = false then 1 else 0) ∧
    (Quiescent s → (∀ t, t < s.next → s.phase t = .releasing []) ∧
      ∀ o, s.objMeta o = .initial) := by
  have hI := reachable_inv hnd h
  refine ⟨fun t u o htu ht hu hsame hadm => ?_, fun t => ?_, fun hq => ?_⟩
  · have hwoken := hI.older_woken htu ht hu hsame hadm
    refine ⟨hwoken, ?_, ?_⟩ <;>
    · intro he
      rw [wokenOn, he] at hwoken
      cases hwoken
  · rw [hI.readied]
    cases (s.phase t).handedOut <;> cases s.direct t <;> rfl
  · have hdone := hI.all_done hq
    exact ⟨hdone, hI.all_idle hdone⟩

/-! ## Beyond the counters' range

All tasks write one object. Each starts a generation, and all but the first
wait: `num_gens` counts them modulo `2 ^ 32`. -/

section Overflow

def writers (_ : TaskId) : List (Access Unit) := [⟨(), .write⟩]

/-- `n` writers have been issued and the first one is ready. -/
structure Queued (n : Nat) (s : State Unit) : Prop where
  next     : s.next = n
  first    : s.phase 0 = .ready
  waiting  : ∀ t, 0 < t → t < n → s.phase t = .pending
  unissued : ∀ t, n ≤ t → s.phase t = .unissued
  oldest   : (s.objMeta ()).oldestNumTasks = 1
  youngest : (s.objMeta ()).youngestGroup = Group.write.bits
  numGens  : (s.objMeta ()).numGens = n % 2 ^ 32

theorem writers_nodup (t : TaskId) : (objs (writers t)).Nodup := by simp [objs, writers]

theorem queued_one : ∃ s, (system writers).Reachable s ∧ Queued 1 s := by
  have h₀ : (system writers).Reachable .initial := .init rfl
  have h₁ := h₀.step (.create fun _ => rfl)
  have h₂ := h₁.step (.addTask (t := 0) (a := ⟨(), .write⟩) rfl)
  have h₃ := h₂.step (.issuedReady (t := 0) rfl rfl)
  refine ⟨_, h₃, rfl, rfl, fun t h0 h1 => ?_, fun t ht => ?_, rfl, rfl, rfl⟩
  · exact absurd h1 (Nat.not_lt.mpr h0)
  · have hne : t ≠ 0 := Nat.ne_of_gt ht
    simp [State.initial, hne]

/-- A further writer starts a generation and waits. -/
theorem addTask_writer {md : Metadata} (h : md.youngestGroup = Group.write.bits) (t : TaskId) :
    (addTask (some t) md Group.write.bits).1.oldestNumTasks = md.oldestNumTasks % 2 ^ 64 ∧
      (addTask (some t) md Group.write.bits).1.youngestGroup = Group.write.bits ∧
      (addTask (some t) md Group.write.bits).1.numGens = (md.numGens + 1) % 2 ^ 32 ∧
      (addTask (some t) md Group.write.bits).2 = 1 := by
  have hj : joins md Group.write.bits = false := by rw [joins, h]; decide
  have hp : pushg md Group.write.bits = true := by rw [pushg, h]; decide
  simp [addTask, hj, hp]

theorem Queued.not_busy {n : Nat} {s : State Unit} (h : Queued n s) {t : TaskId} (h0 : 0 < t) :
    s.phase t = .pending ∨ s.phase t = .unissued := by
  rcases Nat.lt_or_ge t n with hlt | hle
  · exact .inl (h.waiting t h0 hlt)
  · exact .inr (h.unissued t hle)

theorem queued_succ {n : Nat} (hn : 0 < n) {s : State Unit}
    (hr : (system writers).Reachable s) (h : Queued n s) :
    ∃ s', (system writers).Reachable s' ∧ Queued (n + 1) s' := by
  have hidle : ∀ t, (s.phase t).halfIssued = false := by
    intro t
    rcases Nat.eq_zero_or_pos t with rfl | h0
    · rw [h.first]
      rfl
    · rcases h.not_busy h0 with hp | hp <;> rw [hp] <;> rfl
  have h₁ := hr.step (.create hidle)
  have hpc : Function.update s.phase s.next (.issuing (writers s.next)) s.next =
      .issuing (⟨(), .write⟩ :: []) := by
    rw [Function.update_self]
    rfl
  have h₂ := h₁.step (.addTask hpc)
  obtain ⟨hold, hyoung, hgens, hadd⟩ := addTask_writer h.youngest s.next
  have h₃ := h₂.step (.issuedPending (t := s.next) (by simp) (by simp [hadd]))
  have hne : s.next ≠ 0 := by rw [h.next]; omega
  refine ⟨_, h₃, by rw [h.next], ?_, fun t h0 h1 => ?_, fun t ht => ?_, ?_, ?_, ?_⟩
  · simpa [Ne.symm hne] using h.first
  · rcases eq_or_ne t s.next with rfl | htn
    · simp
    · have hlt : t < n := Nat.lt_of_le_of_ne (Nat.le_of_lt_succ h1) (h.next ▸ htn)
      simpa [htn] using h.waiting t h0 hlt
  · have htn : t ≠ s.next := by
      rw [h.next]
      exact Nat.ne_of_gt ht
    simpa [htn] using h.unissued t (Nat.le_of_succ_le ht)
  · simp [hold, h.oldest]
  · simp [hyoung]
  · simp only [Function.update_self]
    rw [hgens, h.numGens]
    omega

theorem queued_reachable (n : Nat) : ∃ s, (system writers).Reachable s ∧ Queued (n + 1) s := by
  induction n with
  | zero => exact queued_one
  | succ n ih =>
    obtain ⟨s, hr, h⟩ := ih
    exact queued_succ (Nat.succ_pos n) hr h

/-- When `num_gens` is 1 again, the first writer's wakeup takes the object to
be idle, and all the others wait forever. -/
theorem Queued.first_done {n : Nat} {s : State Unit} (h : Queued n s)
    (hr : (system writers).Reachable s) (hn : n % 2 ^ 32 = 1) :
    ∃ s', (system writers).Reachable s' ∧ Quiescent s' ∧ s'.next = n ∧
      (s'.objMeta ()).numGens = 0 ∧ ∀ t, 0 < t → t < n → s'.phase t = .pending := by
  have h₁ := hr.step (.start h.first)
  have h₂ := h₁.step (.finish (t := 0) (by simp))
  have hpc : Function.update (Function.update s.phase 0 .running) 0 (.releasing (writers 0)) 0 =
      .releasing (⟨(), .write⟩ :: []) := by
    rw [Function.update_self]
    rfl
  have h₃ := h₂.step (.wakeup (t := 0) (a := ⟨(), .write⟩) hpc List.mem_cons_self)
  have hgens := h.numGens
  rw [hn] at hgens
  have hwake : wakeup (s.objMeta ()) =
      ({ s.objMeta () with oldestNumTasks := 0, numGens := 0, youngestGroup := groupEmpty }, []) := by
    simp [wakeup, h.oldest, hgens]
  have hphase : ∀ t, 0 < t → markReady (Function.update (Function.update
      (Function.update s.phase 0 .running) 0 (.releasing (writers 0))) 0
      (.releasing ([⟨(), .write⟩].erase ⟨(), .write⟩))) [] t = s.phase t := by
    intro t h0
    simp [markReady, Nat.ne_of_gt h0]
  simp only [hwake, decIncoming] at h₃
  refine ⟨_, h₃, fun t => ?_, h.next, by simp, fun t h0 h1 => ?_⟩
  · rcases Nat.eq_zero_or_pos t with rfl | h0
    · simp [markReady, Phase.busy]
    · simp only [hphase t h0]
      rcases h.not_busy h0 with hp | hp <;> rw [hp] <;> rfl
  · simp only [hphase t h0]
    exact h.waiting t h0 h1

/-- While fewer tasks than the counters hold have been created, all steps fit. -/
theorem fits_writers {s : State Unit} (hnext : s.next + 1 < 2 ^ 32) (e : Event Unit) :
    Fits writers s e := by
  cases e with
  | create t => simp [Fits, writers]
  | addTask t o =>
    refine lt_of_le_of_lt (Nat.add_le_add_right (Finset.card_filter_le _ _) 1) ?_
    rw [Finset.card_range]
    exact hnext
  | _ => trivial

/-- Two writers, of two generations: the first one is about to release the object, for
which the second one waits. -/
theorem second_waits :
    ∃ s, ((system writers).restrict (Fits writers)).Reachable s ∧
      s.next = 2 ∧ s.phase 0 = .releasing [⟨(), .write⟩] ∧ s.phase 1 = .pending ∧
      (∀ t, s.phase (t + 2) = .unissued) ∧ s.incoming 1 = 1 ∧ s.direct 1 = false ∧
      (wakeup (s.objMeta ())).2 = [1] ∧ wakeup (wakeup (s.objMeta ())).1 = (.initial, []) := by
  have h₀ : ((system writers).restrict (Fits writers)).Reachable .initial := .init rfl
  have h₁ := h₀.step ⟨.create fun _ => rfl, fits_writers (by decide) _⟩
  have h₂ := h₁.step ⟨.addTask (t := 0) (a := ⟨(), .write⟩) rfl, fits_writers (by decide) _⟩
  have h₃ := h₂.step ⟨.issuedReady (t := 0) rfl rfl, trivial⟩
  have hidle : ∀ t : TaskId, t = 0 ∨ ∃ u, t = u + 1 := fun t => by
    cases t with
    | zero => exact .inl rfl
    | succ t => exact .inr ⟨t, rfl⟩
  have h₄ := h₃.step ⟨.create fun t => by obtain rfl | ⟨t, rfl⟩ := hidle t <;> rfl,
    fits_writers (by decide) _⟩
  have h₅ := h₄.step ⟨.addTask (t := 1) (a := ⟨(), .write⟩) rfl, fits_writers (by decide) _⟩
  have h₆ := h₅.step ⟨.issuedPending (t := 1) rfl (by decide), trivial⟩
  have h₇ := h₆.step ⟨.start (t := 0) rfl, trivial⟩
  have h₈ := h₇.step ⟨.finish (t := 0) rfl, trivial⟩
  exact ⟨_, h₈, rfl, rfl, rfl, fun _ => rfl, rfl, rfl, by decide, by decide⟩

/-- Once the first writer has released the object, the second one is put on a ready list,
once. When it is done as well, the object is idle. -/
theorem dataflow_serialized_two :
    ∃ s t, ((system writers).restrict (Fits writers)).Reachable s ∧
      (s.phase 1 = .ready ∧ wokenOn writers s () 0 = true ∧ s.readied.count 1 = 1) ∧
      ((system writers).restrict (Fits writers)).Reachable t ∧
      t.phase 1 = .releasing [] ∧ t.objMeta () = .initial := by
  obtain ⟨s₀, hr₀, hnext, hfirst, hsecond, hrest, hcount, hdirect, hwake, hwake'⟩ := second_waits
  have hr := hr₀.step ⟨.wakeup (t := 0) hfirst List.mem_cons_self, trivial⟩
  rw [hwake] at hr
  have hdec : decIncoming [1] s₀.incoming = (Function.update s₀.incoming 1 0, [1]) := by
    simp [decIncoming, hcount]
  rw [hdec] at hr
  have hfinished := (hr.step ⟨.start (t := 1) rfl, trivial⟩).step
    ⟨.finish (t := 1) (by simp), trivial⟩
  have hpc : Function.update (Function.update (markReady (Function.update s₀.phase 0
      (.releasing ([⟨(), .write⟩].erase ⟨(), .write⟩))) [1]) 1 .running) 1
      (.releasing (writers 1)) 1 = .releasing [⟨(), .write⟩] := by
    rw [Function.update_self]
    rfl
  have hdone := hfinished.step
    ⟨.wakeup (t := 1) (a := ⟨(), .write⟩) hpc List.mem_cons_self, trivial⟩
  simp only [Function.update_self, hwake'] at hdone
  obtain ⟨holder, hcount, -⟩ := dataflow_serialized writers_nodup hr
  obtain ⟨-, -, hquiet⟩ := dataflow_serialized writers_nodup hdone
  have hend := hquiet fun t => by
    rcases t with _ | _ | t
    · simp [decIncoming, markReady, Phase.busy]
    · simp [decIncoming, markReady, Phase.busy]
    · simp [decIncoming, markReady, hrest, Phase.busy]
  have hwoken := (holder 0 1 () (by decide) (by simp [objs, writers]) (by simp [objs, writers])
    (by
      rintro ⟨g, hg, h0, -⟩
      exact hg (Option.some.inj h0).symm)
    (by simp [markReady, Phase.admitted])).1
  refine ⟨_, _, hr, ⟨by simp [markReady], hwoken, ?_⟩, hdone, ?_⟩
  · rw [hcount]
    simp [markReady, Phase.handedOut, hdirect]
  · exact ⟨hend.1 1 (by simp [hnext]), hend.2 ()⟩

/-- With `2 ^ 32 + 1` writers queued all but the first are lost. -/
theorem overflow_loses_tasks :
    ∃ s, (system writers).Reachable s ∧ Quiescent s ∧ s.next = 2 ^ 32 + 1 ∧
      ∀ t, 0 < t → t < s.next → s.phase t = .pending := by
  obtain ⟨n, hn⟩ : ∃ n : Nat, n = 2 ^ 32 := ⟨_, rfl⟩
  obtain ⟨s, hr, h⟩ := queued_reachable n
  obtain ⟨s', hr', hq, hnext, -, hpending⟩ := h.first_done hr (by omega)
  refine ⟨s', hr', hq, by rw [hnext, hn], ?_⟩
  rw [hnext]
  exact hpending

end Overflow

end SwanRuntime.Dataflow
