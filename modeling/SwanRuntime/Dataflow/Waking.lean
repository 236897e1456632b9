import SwanRuntime.Dataflow.Invariant

/-!
# Dataflow — waking up

A task is done with one of its objects. The tasks that the object lets go wait on one
object less; those that waited on no other become ready, which takes the decrements of
`wakeup_hard`. `Releases` says what changes, and each clause of the invariant follows
from it.

## Results

* `decIncoming_spec`         — the decrements, and the frames they take to 0.
* `Inv.releases`             — what `wakeup` changes.
* `Releases.liveOn_eq`, `Releases.wokenOn_eq`, `Releases.waits_eq` — for whom.
* `inv_wakeup`               — the invariant is kept.
-/

namespace SwanRuntime.Dataflow

variable {Obj : Type*} [DecidableEq Obj] {prog : TaskId → List (Access Obj)} {s : State Obj}

/-! ## The decrements -/

/-- The decrements of a wakeup, and the frames whose count they take to 0. -/
theorem decIncoming_spec {ts : List TaskId} {c : TaskId → Nat} (hnd : ts.Nodup)
    (hc : ∀ t ∈ ts, 0 < c t ∧ c t < 2 ^ 32) :
    (∀ u, (decIncoming ts c).1 u = c u - if u ∈ ts then 1 else 0) ∧
      (decIncoming ts c).2 = ts.filter fun t => decide (c t = 1) := by
  induction ts generalizing c with
  | nil => simp [decIncoming]
  | cons t ts ih =>
    obtain ⟨hnotin, hnd⟩ := List.nodup_cons.mp hnd
    obtain ⟨hpos, hlt⟩ := hc t List.mem_cons_self
    have hne : ∀ u ∈ ts, u ≠ t := fun u hu he => hnotin (he ▸ hu)
    have hdec : (c t + (2 ^ 32 - 1)) % 2 ^ 32 = c t - 1 := by omega
    obtain ⟨hcount, hready⟩ := ih (c := Function.update c t (c t - 1)) hnd fun u hu => by
      rw [Function.update_of_ne (hne u hu)]
      exact hc u (List.mem_cons_of_mem _ hu)
    rw [decIncoming, hdec]
    refine ⟨fun u => ?_, ?_⟩
    · rw [hcount]
      rcases eq_or_ne u t with rfl | hut
      · simp [hnotin]
      · simp [hut]
    · have hfilter : (ts.filter fun u => decide (Function.update c t (c t - 1) u = 1)) =
          ts.filter fun u => decide (c u = 1) := by
        refine List.filter_congr fun u hu => ?_
        rw [Function.update_of_ne (hne u hu)]
      simp only [hready, hfilter, List.filter_cons, decide_eq_true_eq]

omit [DecidableEq Obj] in
/-- Frames that become ready were waiting. -/
theorem PhaseOk.becomeReady (h : PhaseOk prog s) (incoming : TaskId → Nat)
    (ready : List TaskId) (hnd : ready.Nodup)
    (hpending : ∀ u ∈ ready, s.phase u = .pending) :
    PhaseOk prog { s with
      incoming := incoming
      phase := markReady s.phase ready
      readied := ready ++ s.readied } := by
  have hphase : ∀ u, markReady s.phase ready u = .ready ∧ u ∈ ready ∧ s.phase u = .pending ∨
      markReady s.phase ready u = s.phase u ∧ u ∉ ready := by
    intro u
    by_cases hu : u ∈ ready
    · exact .inl ⟨by simp [markReady, hu], hu, hpending u hu⟩
    · exact .inr ⟨by simp [markReady, hu], hu⟩
  refine ⟨fun u => ?_, fun u hu => ?_, fun u rem hu => ?_, fun u rem hu => ?_,
    fun u rem hu => ?_, fun u => ?_, fun u hu => ?_, h.args⟩ <;>
    rcases hphase u with ⟨hm, hin, hp⟩ | ⟨hm, hin⟩ <;> simp only [hm] at *
  · rw [← h.unissued, hp]
    simp
  · exact h.unissued u
  · cases hu
  · exact h.half u hu
  · cases hu
  · exact h.issuing u rem hu
  · cases hu
  · exact h.direct u rem hu
  · cases hu
  · exact h.releasing u rem hu
  · have hdir : s.direct u = false := by
      by_contra hd
      have := (h.framed u (by simpa using hd)).1
      rw [hp] at this
      cases this
    have hcount := h.readied u
    rw [hp] at hcount
    rw [List.count_append, hcount, List.count_eq_one_of_mem hnd hin, hdir]
    rfl
  · rw [List.count_append, List.count_eq_zero_of_not_mem hin, Nat.zero_add]
    exact h.readied u
  · have := (h.framed u hu).1
    rw [hp] at this
    cases this
  · exact h.framed u hu

/-! ## What changes -/

/-- Task `t` is done with the object of `a`, which becomes `md` and lets the tasks of
`released` go. -/
def State.wakeOn (s : State Obj) (t : TaskId) (a : Access Obj) (rem : List (Access Obj))
    (md : Metadata) (released : List TaskId) : State Obj :=
  { s with
    objMeta := Function.update s.objMeta a.obj md
    incoming := (decIncoming released s.incoming).1
    phase := markReady (Function.update s.phase t (.releasing (rem.erase a)))
      (decIncoming released s.incoming).2
    readied := (decIncoming released s.incoming).2 ++ s.readied }

variable (prog) in
/-- The task is one of those that run, and still has the object to release; those it
lets go waited on it. -/
structure Releases (s : State Obj) (t : TaskId) (a : Access Obj) (rem : List (Access Obj))
    (md : Metadata) (released : List TaskId) : Prop where
  phase   : s.phase t = .releasing rem
  mem     : a ∈ rem
  objOk   : ∃ A v, ObjOk prog a.obj md (Function.update (liveOn prog s a.obj) t false)
    (Function.update (wokenOn prog s a.obj) t true) A v
  nodup   : released.Nodup
  waited  : ∀ u ∈ released, u ∈ waitingOn (s.objMeta a.obj)
  waiting : ∀ u, u ∈ waitingOn md ↔ u ∈ waitingOn (s.objMeta a.obj) ∧ u ∉ released

section Releases

variable {t : TaskId} {a : Access Obj} {rem : List (Access Obj)} {md : Metadata}
  {released : List TaskId}

/-- A task in its run releases an object, and with it the oldest tasks that wait there. -/
theorem Inv.releases (h : Inv prog s) (pc : s.phase t = .releasing rem) (mem : a ∈ rem) :
    Releases prog s t a rem (wakeup (s.objMeta a.obj)).1 (wakeup (s.objMeta a.obj)).2 := by
  obtain ⟨A, v, hok⟩ := h.objOk a.obj
  obtain ⟨hfits, -⟩ := h.viewFits hok
  have hadm : (s.phase t).admitted = true := by rw [pc]; rfl
  have htw := h.notMem_waitingOn (h.free t hadm) a.obj
  -- the task is one of the object's active ones
  have htA : t ∈ A := by
    have hlive : liveOn prog s a.obj t = true := by
      rw [liveOn, pc, Phase.live, decide_eq_true_eq]
      exact List.mem_map_of_mem mem
    rw [hok.waitingOn_eq] at htw
    exact ((hok.live t).mp hlive).resolve_right htw
  have h0 : v.oldest ≠ 0 := by
    rw [hok.card]
    exact Finset.card_ne_zero_of_mem htA
  obtain ⟨hrep, hrel⟩ := wakeup_represents hok.rep hfits h0
  obtain ⟨A', hok', -, hflat⟩ := hok.done htA hrep
  have hnd : v.waiting.flatten.Nodup := hok.sorted.imp fun hlt => Nat.ne_of_lt hlt
  rw [hflat] at hnd
  rw [hrel]
  refine ⟨pc, mem, ⟨A', _, hok'⟩, (List.nodup_append.mp hnd).1, fun u hu => ?_, fun u => ?_⟩
  · rw [hok.waitingOn_eq, hflat]
    exact List.mem_append_left _ hu
  · rw [hok'.waitingOn_eq, hok.waitingOn_eq, hflat, List.mem_append]
    constructor
    · intro hu
      exact ⟨.inr hu, fun hin => (List.nodup_append.mp hnd).2.2 u hin u hu rfl⟩
    · rintro ⟨hin | hin, hnot⟩
      · exact absurd hin hnot
      · exact hin

theorem Releases.waits_ne_zero (h : Inv prog s) (hr : Releases prog s t a rem md released)
    {u : TaskId} (hu : u ∈ released) : waits prog s u ≠ 0 :=
  fun hz => h.notMem_waitingOn hz a.obj (hr.waited u hu)

/-- A task that waits has a frame, whose count is in range. -/
theorem Releases.incoming_pos (h : Inv prog s) (hr : Releases prog s t a rem md released)
    {u : TaskId} (hu : u ∈ released) : 0 < s.incoming u ∧ s.incoming u < 2 ^ 32 := by
  have hw := hr.waits_ne_zero h hu
  have hdir : s.direct u = false := by
    by_contra hd
    exact hw (h.free u (h.framed u (by simpa using hd)).1)
  have hargs := h.args u (h.lt_next_of_live (.inl (h.live_of_mem (hr.waited u hu)))) hdir
  have hle := waits_le prog s u
  have hinc := h.incoming u
  have hbit : (s.phase u).isIssuing.toNat ≤ 1 := Bool.toNat_le _
  omega

theorem Releases.counts (h : Inv prog s) (hr : Releases prog s t a rem md released) :
    (∀ u, (decIncoming released s.incoming).1 u = s.incoming u - if u ∈ released then 1 else 0) ∧
      (decIncoming released s.incoming).2 = released.filter fun u => decide (s.incoming u = 1) :=
  decIncoming_spec hr.nodup fun _ hu => hr.incoming_pos h hu

/-- The frames that become ready waited, on this object only. -/
theorem Releases.ready (h : Inv prog s) (hr : Releases prog s t a rem md released) {u : TaskId}
    (hu : u ∈ (decIncoming released s.incoming).2) :
    s.phase u = .pending ∧ u ∈ released ∧ waits prog s u = 1 := by
  rw [(hr.counts h).2, List.mem_filter, decide_eq_true_eq] at hu
  obtain ⟨hin, hone⟩ := hu
  have hw := hr.waits_ne_zero h hin
  have hinc := h.incoming u
  have hlive := h.live_of_mem (hr.waited u hin)
  have hnadm : (s.phase u).admitted = false := by
    by_contra hne
    exact hw (h.free u (by simpa using hne))
  cases hp : s.phase u with
  | unissued => simp [liveOn, hp, Phase.live] at hlive
  | issuing r =>
    -- the issuer's own count is still there
    rw [hp] at hinc
    simp only [Phase.isIssuing, Bool.toNat_true] at hinc
    omega
  | pending =>
    rw [hp] at hinc
    simp only [Phase.isIssuing, Bool.toNat_false] at hinc
    exact ⟨rfl, hin, by omega⟩
  | direct r => rw [hp] at hnadm; cases hnadm
  | ready => rw [hp] at hnadm; cases hnadm
  | running => rw [hp] at hnadm; cases hnadm
  | releasing r => rw [hp] at hnadm; cases hnadm

theorem Releases.notMem_ready (h : Inv prog s) (hr : Releases prog s t a rem md released) :
    t ∉ (decIncoming released s.incoming).2 := by
  intro hin
  have hp := (hr.ready h hin).1
  rw [hr.phase] at hp
  cases hp

/-- The phases after the step. -/
theorem Releases.phase_eq (h : Inv prog s) (hr : Releases prog s t a rem md released)
    (u : TaskId) :
    (s.wakeOn t a rem md released).phase u =
      if u = t then .releasing (rem.erase a)
      else if u ∈ (decIncoming released s.incoming).2 then .ready else s.phase u := by
  rcases eq_or_ne u t with rfl | hut
  · simp [State.wakeOn, markReady, hr.notMem_ready h]
  · simp [State.wakeOn, markReady, hut]

/-- The arguments still to be released: no object is accessed twice. -/
theorem Releases.mem_erase (h : Inv prog s) (hr : Releases prog s t a rem md released)
    (hnd : ∀ t, (objs (prog t)).Nodup) (o : Obj) :
    o ∈ objs (rem.erase a) ↔ o ∈ objs rem ∧ o ≠ a.obj := by
  have hobjs : (objs rem).Nodup := (hnd t).sublist ((h.releasing t rem hr.phase).map _)
  have hrem : rem.Nodup := List.Nodup.of_map _ hobjs
  rw [objs, objs, List.mem_map, List.mem_map]
  constructor
  · rintro ⟨b, hb, rfl⟩
    obtain ⟨hne, hbrem⟩ := (hrem.mem_erase_iff).mp hb
    refine ⟨⟨b, hbrem, rfl⟩, fun he => hne ?_⟩
    exact List.inj_on_of_nodup_map hobjs hbrem hr.mem he
  · rintro ⟨⟨b, hb, rfl⟩, hne⟩
    exact ⟨b, (hrem.mem_erase_iff).mpr ⟨fun he => hne (he ▸ rfl), hb⟩, rfl⟩

/-- The task is no longer live on the object, and nothing else changes: a frame that
becomes ready stays live. -/
theorem Releases.liveOn_eq (h : Inv prog s) (hr : Releases prog s t a rem md released)
    (hnd : ∀ t, (objs (prog t)).Nodup) (o : Obj) :
    liveOn prog (s.wakeOn t a rem md released) o =
      if o = a.obj then Function.update (liveOn prog s o) t false else liveOn prog s o := by
  funext u
  have herase := hr.mem_erase h hnd o
  rw [liveOn, hr.phase_eq h]
  rcases eq_or_ne u t with rfl | hut
  · by_cases ho : o = a.obj
    · simp [ho, Phase.live, hr.mem_erase h hnd]
    · simp [ho, Phase.live, herase, liveOn, hr.phase]
  · have hsame : (if u ∈ (decIncoming released s.incoming).2 then .ready
        else s.phase u).live (prog u) o = liveOn prog s o u := by
      split
      · rename_i hin
        rw [liveOn, (hr.ready h hin).1]
        rfl
      · rfl
    rw [if_neg hut, hsame]
    split
    · rw [Function.update_of_ne hut]
    · rfl

theorem Releases.wokenOn_eq (h : Inv prog s) (hr : Releases prog s t a rem md released)
    (hnd : ∀ t, (objs (prog t)).Nodup) (o : Obj) :
    wokenOn prog (s.wakeOn t a rem md released) o =
      if o = a.obj then Function.update (wokenOn prog s o) t true else wokenOn prog s o := by
  funext u
  have herase := hr.mem_erase h hnd o
  rw [wokenOn, hr.phase_eq h]
  rcases eq_or_ne u t with rfl | hut
  · by_cases ho : o = a.obj
    · have hin : a.obj ∈ objs (prog u) :=
        List.mem_map_of_mem ((h.releasing u rem hr.phase).subset hr.mem)
      simp [ho, Phase.woken, hr.mem_erase h hnd, hin]
    · simp [ho, Phase.woken, herase, wokenOn, hr.phase]
  · have hsame : (if u ∈ (decIncoming released s.incoming).2 then .ready
        else s.phase u).woken (prog u) o = wokenOn prog s o u := by
      split
      · rename_i hin
        rw [wokenOn, (hr.ready h hin).1]
        rfl
      · rfl
    rw [if_neg hut, hsame]
    split
    · rw [Function.update_of_ne hut]
    · rfl

theorem Releases.mem_waitingOn (hr : Releases prog s t a rem md released) (u : TaskId) (o : Obj) :
    u ∈ waitingOn ((s.wakeOn t a rem md released).objMeta o) ↔
      u ∈ waitingOn (s.objMeta o) ∧ ¬ (o = a.obj ∧ u ∈ released) := by
  by_cases ho : o = a.obj
  · subst ho
    simp [State.wakeOn, hr.waiting]
  · simp [State.wakeOn, ho]

/-- Released tasks wait on one object less. -/
theorem Releases.waits_eq (h : Inv prog s) (hr : Releases prog s t a rem md released)
    (hnd : ∀ t, (objs (prog t)).Nodup) (u : TaskId) :
    waits prog s u =
      waits prog (s.wakeOn t a rem md released) u + if u ∈ released then 1 else 0 := by
  by_cases hu : u ∈ released
  · have hin := hr.waited u hu
    obtain ⟨b, hb, hbo⟩ := List.mem_map.mp (h.mem_objs_of_live (h.live_of_mem hin))
    rw [if_pos hu]
    refine countP_change (hnd u) hb (fun c hc => ?_) ?_ ?_
    · rw [hbo] at hc
      simp [hr.mem_waitingOn, hc]
    · simp [hr.mem_waitingOn, hbo, hu]
    · simpa [hbo] using hin
  · rw [if_neg hu, Nat.add_zero]
    refine List.countP_congr fun b _ => ?_
    simp [hr.mem_waitingOn, hu]

/-! ## The clauses of the invariant -/

/-- First the task moves on, then the frames become ready. -/
theorem Releases.phaseOk (h : Inv prog s) (hr : Releases prog s t a rem md released) :
    PhaseOk prog (s.wakeOn t a rem md released) := by
  have hmove : PhaseOk prog { s with
      objMeta := Function.update s.objMeta a.obj md
      incoming := s.incoming
      phase := Function.update s.phase t (.releasing (rem.erase a))
      readied := s.readied } := by
    refine h.toPhaseOk.move (by simp [hr.phase]) (by simp) (by simp [Phase.halfIssued]) (by simp)
      (by simp) (fun r he => ?_) (fun u => ?_) (fun _ => ⟨rfl, by simp⟩)
    · obtain rfl := Phase.releasing.inj he
      exact List.erase_sublist.trans (h.releasing t rem hr.phase)
    · rcases eq_or_ne u t with rfl | hut
      · rw [if_pos rfl, h.readied, hr.phase]
        rfl
      · rw [if_neg hut]
  refine hmove.becomeReady _ _ ?_ fun u hu => ?_
  · rw [(hr.counts h).2]
    exact hr.nodup.filter _
  · have hut : u ≠ t := fun he => hr.notMem_ready h (he ▸ hu)
    simpa [Function.update_of_ne hut] using (hr.ready h hu).1

theorem Releases.objOk_wakeOn (h : Inv prog s) (hr : Releases prog s t a rem md released)
    (hnd : ∀ t, (objs (prog t)).Nodup) (o : Obj) :
    ∃ A v, ObjOk prog o ((s.wakeOn t a rem md released).objMeta o)
      (liveOn prog (s.wakeOn t a rem md released) o)
      (wokenOn prog (s.wakeOn t a rem md released) o) A v := by
  rw [hr.liveOn_eq h hnd, hr.wokenOn_eq h hnd]
  by_cases ho : o = a.obj
  · subst ho
    rw [if_pos rfl, if_pos rfl]
    simpa only [State.wakeOn, Function.update_self] using hr.objOk
  · rw [if_neg ho, if_neg ho]
    simpa only [State.wakeOn, Function.update_of_ne ho] using h.objOk o

/-- No task begins or ends being issued. -/
theorem Releases.isIssuing_eq (h : Inv prog s) (hr : Releases prog s t a rem md released)
    (u : TaskId) : ((s.wakeOn t a rem md released).phase u).isIssuing = (s.phase u).isIssuing := by
  rw [hr.phase_eq h]
  split
  · rename_i he
    rw [he, hr.phase]
    rfl
  · split
    · rename_i hin
      rw [(hr.ready h hin).1]
      rfl
    · rfl

theorem Releases.incoming_eq (h : Inv prog s) (hr : Releases prog s t a rem md released)
    (hnd : ∀ t, (objs (prog t)).Nodup) (u : TaskId) :
    (s.wakeOn t a rem md released).incoming u =
      waits prog (s.wakeOn t a rem md released) u +
        ((s.wakeOn t a rem md released).phase u).isIssuing.toNat := by
  have hinc := h.incoming u
  rw [hr.waits_eq h hnd] at hinc
  rw [hr.isIssuing_eq h]
  show (decIncoming released s.incoming).1 u = _
  rw [(hr.counts h).1]
  omega

/-- A frame that still waits is not one whose count was 1. -/
theorem Releases.parked (h : Inv prog s) (hr : Releases prog s t a rem md released)
    (hnd : ∀ t, (objs (prog t)).Nodup) (u : TaskId)
    (hu : (s.wakeOn t a rem md released).phase u = .pending) :
    waits prog (s.wakeOn t a rem md released) u ≠ 0 := by
  rw [hr.phase_eq h] at hu
  split at hu
  · cases hu
  · split at hu
    · cases hu
    · rename_i hnot
      have hw := h.parked u hu
      have hwaits := hr.waits_eq h hnd u
      by_cases hin : u ∈ released
      · have hone : s.incoming u ≠ 1 := by
          intro hone
          refine hnot ?_
          rw [(hr.counts h).2, List.mem_filter, decide_eq_true_eq]
          exact ⟨hin, hone⟩
        have hinc := h.incoming u
        rw [hu] at hinc
        simp only [Phase.isIssuing, Bool.toNat_false] at hinc
        rw [if_pos hin] at hwaits
        omega
      · rw [if_neg hin] at hwaits
        omega

theorem Releases.free (h : Inv prog s) (hr : Releases prog s t a rem md released)
    (hnd : ∀ t, (objs (prog t)).Nodup) (u : TaskId)
    (hu : ((s.wakeOn t a rem md released).phase u).admitted = true) :
    waits prog (s.wakeOn t a rem md released) u = 0 := by
  have hwaits := hr.waits_eq h hnd u
  rw [hr.phase_eq h] at hu
  split at hu
  · rename_i he
    have hw := h.free u (by rw [he, hr.phase]; rfl)
    omega
  · split at hu
    · -- it waited on this object only
      rename_i hin
      obtain ⟨-, hrel, hone⟩ := hr.ready h hin
      rw [if_pos hrel] at hwaits
      omega
    · have hw := h.free u hu
      omega

/-- A task that is live after the step was so before. -/
theorem Releases.live_of_live (h : Inv prog s) (hr : Releases prog s t a rem md released)
    (hnd : ∀ t, (objs (prog t)).Nodup) {o : Obj} {u : TaskId}
    (hu : liveOn prog (s.wakeOn t a rem md released) o u = true) : liveOn prog s o u = true := by
  rw [hr.liveOn_eq h hnd] at hu
  split at hu
  · rcases eq_or_ne u t with rfl | hut
    · rw [Function.update_self] at hu
      cases hu
    · rwa [Function.update_of_ne hut] at hu
  · exact hu

theorem Releases.admits (h : Inv prog s) (hr : Releases prog s t a rem md released)
    (hnd : ∀ t, (objs (prog t)).Nodup) (u : TaskId) (r : List (Access Obj))
    (hu : (s.wakeOn t a rem md released).phase u = .direct r) (b : Access Obj) (hb : b ∈ r) :
    waitingOn ((s.wakeOn t a rem md released).objMeta b.obj) = [] ∧
      ∀ x, liveOn prog (s.wakeOn t a rem md released) b.obj x = true → SameGen prog b.obj x u := by
  have hdirect : s.phase u = .direct r := by
    rw [hr.phase_eq h] at hu
    split at hu
    · cases hu
    · split at hu
      · cases hu
      · exact hu
  obtain ⟨hempty, hsame⟩ := h.admits u r hdirect b hb
  refine ⟨List.eq_nil_iff_forall_not_mem.mpr fun x hx => ?_,
    fun x hx => hsame x (hr.live_of_live h hnd hx)⟩
  have hin := ((hr.mem_waitingOn x b.obj).mp hx).1
  rw [hempty] at hin
  cases hin

theorem Releases.fits (h : Inv prog s) (hr : Releases prog s t a rem md released)
    (hnd : ∀ t, (objs (prog t)).Nodup) (o : Obj) :
    liveCount prog (s.wakeOn t a rem md released) o < 2 ^ 32 := by
  refine lt_of_le_of_lt (liveCount_le fun u hu => ?_) (h.fits o)
  have hlive : liveOn prog s o u = true := hr.live_of_live h hnd hu
  exact ⟨hlive, h.lt_next_of_live (.inl hlive)⟩

/-- A task is done with one of its objects. -/
theorem inv_wakeup (h : Inv prog s) (hnd : ∀ t, (objs (prog t)).Nodup)
    (pc : s.phase t = .releasing rem) (mem : a ∈ rem) :
    Inv prog (s.wakeOn t a rem (wakeup (s.objMeta a.obj)).1 (wakeup (s.objMeta a.obj)).2) := by
  have hr := h.releases pc mem
  exact {
    toPhaseOk := hr.phaseOk h
    objOk     := hr.objOk_wakeOn h hnd
    incoming  := hr.incoming_eq h hnd
    parked    := hr.parked h hnd
    free      := hr.free h hnd
    admits    := hr.admits h hnd
    fits      := hr.fits h hnd }

end Releases

end SwanRuntime.Dataflow
