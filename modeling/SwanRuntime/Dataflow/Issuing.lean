import SwanRuntime.Dataflow.Invariant

/-!
# Dataflow — issuing

A task is issued on one of its objects, through its pending frame or, when its
parent runs it, with a null frame. Either way it becomes live on the object, and
perhaps waits there; no other object and no other task notices. `Issues` says
this once, and each clause of the invariant follows from it.

## Results

* `Issues.liveOn_eq`, `Issues.wokenOn_eq`, `Issues.waits_eq` — what changes.
* `Inv.issue`                  — the invariant is kept.
* `inv_addTask`, `inv_addNull` — the two ways to issue a task.
-/

namespace SwanRuntime.Dataflow

variable {Obj : Type*} [DecidableEq Obj] {prog : TaskId → List (Access Obj)} {s : State Obj}

/-- An argument still to be issued is not live. -/
theorem not_live_of_half {l rem : List (Access Obj)} {p : Phase Obj} {a : Access Obj}
    (hp : p = .issuing (a :: rem) ∨ p = .direct (a :: rem)) :
    p.live l a.obj = false ∧ p.woken l a.obj = false := by
  rcases hp with rfl | rfl <;> simp [Phase.live, Phase.woken, objs]

/-! ## What changes -/

/-- Task `t` is issued on the object of its argument `a`, and moves on to `p`. -/
def State.issueOn (s : State Obj) (t : TaskId) (a : Access Obj) (p : Phase Obj) (md : Metadata)
    (wait : Bool) : State Obj :=
  { s with
    objMeta := Function.update s.objMeta a.obj md
    incoming := Function.update s.incoming t (s.incoming t + wait.toNat)
    phase := Function.update s.phase t p }

variable (prog) in
/-- The argument `a` is the next one of `t`; the object becomes `md`, on which `t` is
live and waits if `wait`. A task that is already running never waits. -/
structure Issues (s : State Obj) (t : TaskId) (a : Access Obj) (rem : List (Access Obj))
    (p : Phase Obj) (md : Metadata) (wait : Bool) : Prop where
  phase   : s.phase t = .issuing (a :: rem) ∧ p = .issuing rem ∨
    s.phase t = .direct (a :: rem) ∧ p = .direct rem ∧ wait = false
  objOk   : ∃ A v, ObjOk prog a.obj md (Function.update (liveOn prog s a.obj) t true)
    (wokenOn prog s a.obj) A v
  waiting : ∀ u, u ∈ waitingOn md ↔ u ∈ waitingOn (s.objMeta a.obj) ∨ wait = true ∧ u = t

section Issues

variable {t : TaskId} {a : Access Obj} {rem : List (Access Obj)} {p : Phase Obj} {md : Metadata}
  {wait : Bool}

theorem Issues.before (hi : Issues prog s t a rem p md wait) :
    s.phase t = .issuing (a :: rem) ∨ s.phase t = .direct (a :: rem) :=
  hi.phase.imp (·.1) (·.1)

theorem Issues.after (hi : Issues prog s t a rem p md wait) :
    p = .issuing rem ∨ p = .direct rem :=
  hi.phase.imp (·.2) (·.2.1)

theorem Issues.isIssuing_eq (hi : Issues prog s t a rem p md wait) :
    p.isIssuing = (s.phase t).isIssuing := by
  rcases hi.phase with ⟨he, rfl⟩ | ⟨he, rfl, -⟩ <;> rw [he] <;> rfl

/-- The only task that is half issued is `t`. -/
theorem Issues.eq_of_half (h : Inv prog s) (hi : Issues prog s t a rem p md wait) {u : TaskId}
    (hu : (s.phase u).halfIssued = true) : u = t := by
  have hhalf : (s.phase t).halfIssued = true := by
    rcases hi.before with he | he <;> rw [he] <;> rfl
  exact Nat.succ.inj ((h.half u hu).trans (h.half t hhalf).symm)

theorem Issues.suffix (h : Inv prog s) (hi : Issues prog s t a rem p md wait) :
    a :: rem <:+ prog t := by
  rcases hi.before with he | he
  · exact h.issuing t _ he
  · exact (h.direct t _ he).1

/-- No object is accessed twice, so none of the arguments to come is on this one. -/
theorem Issues.notMem_rem (h : Inv prog s) (hi : Issues prog s t a rem p md wait)
    (hnd : ∀ t, (objs (prog t)).Nodup) : a.obj ∉ objs rem := by
  have hsub := (hnd t).sublist ((hi.suffix h).sublist.map Access.obj)
  exact (List.nodup_cons.mp hsub).1

theorem Issues.not_waiting (h : Inv prog s) (hi : Issues prog s t a rem p md wait) :
    t ∉ waitingOn (s.objMeta a.obj) := by
  intro hin
  have hlive := h.live_of_mem hin
  rw [liveOn, (not_live_of_half hi.before).1] at hlive
  cases hlive

/-- The task becomes live on the object, and nothing else does. -/
theorem Issues.liveOn_eq (h : Inv prog s) (hi : Issues prog s t a rem p md wait)
    (hnd : ∀ t, (objs (prog t)).Nodup) (o : Obj) :
    liveOn prog (s.issueOn t a p md wait) o =
      if o = a.obj then Function.update (liveOn prog s o) t true else liveOn prog s o := by
  have hmem : a.obj ∈ objs (prog t) :=
    List.mem_map_of_mem ((hi.suffix h).subset List.mem_cons_self)
  have hrem := hi.notMem_rem h hnd
  refine (live_update s.phase t p o).trans ?_
  split
  · subst o
    have hlive : p.live (prog t) a.obj = true := by
      rcases hi.after with rfl | rfl <;> simp [Phase.live, hmem, hrem]
    rw [hlive]
    rfl
  · rename_i ho
    have hlive : p.live (prog t) o = (s.phase t).live (prog t) o := by
      rcases hi.phase with ⟨he, rfl⟩ | ⟨he, rfl, -⟩ <;> rw [he] <;> simp [Phase.live, objs, ho]
    rw [hlive]
    exact Function.update_eq_self t _

theorem Issues.wokenOn_eq (hi : Issues prog s t a rem p md wait) (o : Obj) :
    wokenOn prog (s.issueOn t a p md wait) o = wokenOn prog s o := by
  have hwoken : p.woken (prog t) o = (s.phase t).woken (prog t) o := by
    rcases hi.phase with ⟨he, rfl⟩ | ⟨he, rfl, -⟩ <;> rw [he] <;> rfl
  refine (woken_update s.phase t p o).trans ?_
  rw [hwoken]
  exact Function.update_eq_self t _

theorem Issues.mem_waitingOn (hi : Issues prog s t a rem p md wait) (u : TaskId) (o : Obj) :
    u ∈ waitingOn ((s.issueOn t a p md wait).objMeta o) ↔
      u ∈ waitingOn (s.objMeta o) ∨ o = a.obj ∧ wait = true ∧ u = t := by
  by_cases ho : o = a.obj
  · subst ho
    simp [State.issueOn, hi.waiting]
  · simp [State.issueOn, ho]

/-- On how many objects a task waits only changes for `t`, by this one. -/
theorem Issues.waits_eq (h : Inv prog s) (hi : Issues prog s t a rem p md wait)
    (hnd : ∀ t, (objs (prog t)).Nodup) (u : TaskId) :
    waits prog (s.issueOn t a p md wait) u = waits prog s u + if u = t then wait.toNat else 0 := by
  by_cases hut : u = t ∧ wait = true
  · obtain ⟨rfl, rfl⟩ := hut
    have ha : a ∈ prog u := (hi.suffix h).subset List.mem_cons_self
    rw [if_pos rfl, Bool.toNat_true]
    refine countP_change (hnd u) ha (fun b hb => ?_) ?_ ?_
    · simp [hi.mem_waitingOn, hb]
    · simpa using hi.not_waiting h
    · simp [hi.mem_waitingOn]
  · have hzero : (if u = t then wait.toNat else 0) = 0 := by
      split
      · rename_i he
        cases wait with
        | false => rfl
        | true => exact absurd ⟨he, rfl⟩ hut
      · rfl
    rw [hzero, Nat.add_zero]
    refine List.countP_congr fun b _ => ?_
    rw [decide_eq_true_eq, decide_eq_true_eq, hi.mem_waitingOn]
    constructor
    · rintro (hb | ⟨-, hw, hu⟩)
      · exact hb
      · exact absurd ⟨hu, hw⟩ hut
    · exact .inl

theorem Issues.waits_le (h : Inv prog s) (hi : Issues prog s t a rem p md wait)
    (hnd : ∀ t, (objs (prog t)).Nodup) : waits prog s t + wait.toNat ≤ (prog t).length := by
  have hwaits := hi.waits_eq h hnd t
  rw [if_pos rfl] at hwaits
  rw [← hwaits]
  exact Dataflow.waits_le prog (s.issueOn t a p md wait) t

/-! ## The clauses of the invariant -/

theorem Issues.phaseOk (h : Inv prog s) (hi : Issues prog s t a rem p md wait) :
    PhaseOk prog (s.issueOn t a p md wait) := by
  have hrem : rem <:+ prog t := (List.suffix_cons a rem).trans (hi.suffix h)
  have hbegun : s.phase t ≠ .unissued := by
    rcases hi.before with he | he <;> simp [he]
  refine h.toPhaseOk.move hbegun ?_ (fun _ => ?_) (fun r he => ?_) (fun r he => ?_)
    (fun r he => ?_) (fun u => ?_) (fun hd => ?_)
  · rcases hi.after with rfl | rfl <;> simp
  · rcases hi.before with he | he <;> rw [he] <;> rfl
  · rcases hi.after with rfl | rfl
    · obtain rfl := Phase.issuing.inj he
      exact hrem
    · cases he
  · rcases hi.phase with ⟨-, rfl⟩ | ⟨hdirect, rfl, -⟩
    · cases he
    · obtain rfl := Phase.direct.inj he
      exact ⟨hrem, (h.direct t _ hdirect).2⟩
  · rcases hi.after with rfl | rfl <;> cases he
  · rcases eq_or_ne u t with rfl | hut
    · rw [if_pos rfl, h.readied]
      rcases hi.phase with ⟨he, rfl⟩ | ⟨he, rfl, -⟩ <;> rw [he] <;> rfl
    · rw [if_neg hut]
  · have hframed := (h.framed t hd).1
    rcases hi.phase with ⟨he, rfl⟩ | ⟨-, rfl, -⟩
    · rw [he] at hframed
      cases hframed
    · exact ⟨rfl, by simp⟩

theorem Issues.objOk_issueOn (h : Inv prog s) (hi : Issues prog s t a rem p md wait)
    (hnd : ∀ t, (objs (prog t)).Nodup) (o : Obj) :
    ∃ A v, ObjOk prog o ((s.issueOn t a p md wait).objMeta o)
      (liveOn prog (s.issueOn t a p md wait) o) (wokenOn prog (s.issueOn t a p md wait) o) A v := by
  rw [hi.liveOn_eq h hnd, hi.wokenOn_eq]
  by_cases ho : o = a.obj
  · subst ho
    rw [if_pos rfl]
    simpa only [State.issueOn, Function.update_self] using hi.objOk
  · rw [if_neg ho]
    simpa only [State.issueOn, Function.update_of_ne ho] using h.objOk o

/-- The count of `t` follows the number of objects it waits on. -/
theorem Issues.incoming_eq (h : Inv prog s) (hi : Issues prog s t a rem p md wait)
    (hnd : ∀ t, (objs (prog t)).Nodup) (u : TaskId) :
    (s.issueOn t a p md wait).incoming u =
      waits prog (s.issueOn t a p md wait) u +
        ((s.issueOn t a p md wait).phase u).isIssuing.toNat := by
  have hinc := h.incoming u
  rw [hi.waits_eq h hnd]
  rcases eq_or_ne u t with rfl | hut
  · simp only [State.issueOn, Function.update_self, if_pos, hi.isIssuing_eq, hinc]
    omega
  · simp only [State.issueOn, Function.update_of_ne hut, if_neg hut, hinc]
    omega

theorem Issues.parked (h : Inv prog s) (hi : Issues prog s t a rem p md wait)
    (hnd : ∀ t, (objs (prog t)).Nodup) (u : TaskId)
    (hu : (s.issueOn t a p md wait).phase u = .pending) :
    waits prog (s.issueOn t a p md wait) u ≠ 0 := by
  rw [hi.waits_eq h hnd]
  rcases eq_or_ne u t with rfl | hut
  · simp only [State.issueOn, Function.update_self] at hu
    rcases hi.after with rfl | rfl <;> cases hu
  · simp only [State.issueOn, Function.update_of_ne hut] at hu
    have hw := h.parked u hu
    omega

theorem Issues.free (h : Inv prog s) (hi : Issues prog s t a rem p md wait)
    (hnd : ∀ t, (objs (prog t)).Nodup) (u : TaskId)
    (hu : ((s.issueOn t a p md wait).phase u).admitted = true) :
    waits prog (s.issueOn t a p md wait) u = 0 := by
  rw [hi.waits_eq h hnd]
  rcases eq_or_ne u t with rfl | hut
  · simp only [State.issueOn, Function.update_self] at hu
    rcases hi.phase with ⟨-, rfl⟩ | ⟨he, rfl, rfl⟩
    · cases hu
    · simp [h.free u (by rw [he]; rfl)]
  · simp only [State.issueOn, Function.update_of_ne hut] at hu
    simp [h.free u hu, hut]

/-- The objects to come still admit a task that is already running: this object was
not one of them. -/
theorem Issues.admits (h : Inv prog s) (hi : Issues prog s t a rem p md wait)
    (hnd : ∀ t, (objs (prog t)).Nodup) (u : TaskId) (r : List (Access Obj))
    (hu : (s.issueOn t a p md wait).phase u = .direct r) (b : Access Obj) (hb : b ∈ r) :
    waitingOn ((s.issueOn t a p md wait).objMeta b.obj) = [] ∧
      ∀ x, liveOn prog (s.issueOn t a p md wait) b.obj x = true → SameGen prog b.obj x u := by
  rcases eq_or_ne u t with rfl | hut
  · simp only [State.issueOn, Function.update_self] at hu
    rcases hi.phase with ⟨-, rfl⟩ | ⟨he, rfl, -⟩
    · cases hu
    · obtain rfl := Phase.direct.inj hu
      have hbo : b.obj ≠ a.obj :=
        fun heq => hi.notMem_rem h hnd (heq ▸ List.mem_map_of_mem hb)
      obtain ⟨hempty, hsame⟩ := h.admits u _ he b (List.mem_cons_of_mem _ hb)
      refine ⟨by simpa only [State.issueOn, Function.update_of_ne hbo] using hempty,
        fun x hx => hsame x ?_⟩
      rwa [hi.liveOn_eq h hnd, if_neg hbo] at hx
  · -- only one task is half issued
    simp only [State.issueOn, Function.update_of_ne hut] at hu
    exact absurd (hi.eq_of_half h (by rw [hu]; rfl)) hut

theorem Issues.fits (h : Inv prog s) (hi : Issues prog s t a rem p md wait)
    (hnd : ∀ t, (objs (prog t)).Nodup) (hroom : liveCount prog s a.obj + 1 < 2 ^ 32) (o : Obj) :
    liveCount prog (s.issueOn t a p md wait) o < 2 ^ 32 := by
  by_cases ho : o = a.obj
  · -- one more task is live on the object, `t`
    subst ho
    refine lt_of_le_of_lt ?_ hroom
    have hsub : ((Finset.range s.next).filter fun u =>
        liveOn prog (s.issueOn t a p md wait) a.obj u = true) ⊆
        insert t ((Finset.range s.next).filter fun u => liveOn prog s a.obj u = true) := by
      intro u hu
      obtain ⟨hrange, hlive⟩ := Finset.mem_filter.mp hu
      rcases eq_or_ne u t with rfl | hut
      · exact Finset.mem_insert_self ..
      · rw [hi.liveOn_eq h hnd, if_pos rfl, Function.update_of_ne hut] at hlive
        exact Finset.mem_insert_of_mem (Finset.mem_filter.mpr ⟨hrange, hlive⟩)
    exact (Finset.card_le_card hsub).trans (Finset.card_insert_le ..)
  · refine lt_of_le_of_lt (liveCount_le fun u hu => ?_) (h.fits o)
    rw [hi.liveOn_eq h hnd, if_neg ho] at hu
    exact ⟨hu, h.lt_next_of_live (.inl hu)⟩

/-- A task is issued on one of its objects. -/
theorem Inv.issue (h : Inv prog s) (hi : Issues prog s t a rem p md wait)
    (hnd : ∀ t, (objs (prog t)).Nodup) (hroom : liveCount prog s a.obj + 1 < 2 ^ 32) :
    Inv prog (s.issueOn t a p md wait) where
  toPhaseOk := hi.phaseOk h
  objOk     := hi.objOk_issueOn h hnd
  incoming  := hi.incoming_eq h hnd
  parked    := hi.parked h hnd
  free      := hi.free h hnd
  admits    := hi.admits h hnd
  fits      := hi.fits h hnd hroom

end Issues

/-! ## The two ways -/

/-- What `add_task` may assume of the other tasks: those on the object are
older, and all older tasks that access it have been issued on it. -/
theorem Inv.issue_order (h : Inv prog s) {t : TaskId} {a : Access Obj}
    {rem : List (Access Obj)} (hphase : s.phase t = .issuing (a :: rem) ∨
      s.phase t = .direct (a :: rem)) :
    (∀ u, liveOn prog s a.obj u = true ∨ wokenOn prog s a.obj u = true → u < t) ∧
      ∀ u, u < t → groupOn prog u a.obj ≠ none →
        liveOn prog s a.obj u = true ∨ wokenOn prog s a.obj u = true := by
  have hhalf : (s.phase t).halfIssued = true := by
    rcases hphase with he | he <;> rw [he] <;> rfl
  have hnext := h.half t hhalf
  obtain ⟨hnotlive, hnotwoken⟩ := not_live_of_half (l := prog t) hphase
  refine ⟨fun u hu => ?_, fun u hut hacc => ?_⟩
  · have hlt : u < t + 1 := hnext ▸ h.lt_next_of_live hu
    refine Nat.lt_of_le_of_ne (Nat.le_of_lt_succ hlt) ?_
    rintro rfl
    simp [liveOn, wokenOn, hnotlive, hnotwoken] at hu
  · refine h.issued (hnext ▸ Nat.lt_succ_of_lt hut) ?_ (mem_objs_of_groupOn hacc)
    by_contra hne
    have := h.half u (by simpa using hne)
    exact absurd (Nat.succ.inj (this.trans hnext.symm)) (Nat.ne_of_lt hut)

/-- A pending frame is issued on one of its objects. -/
theorem inv_addTask (h : Inv prog s) (hnd : ∀ t, (objs (prog t)).Nodup) {t : TaskId}
    {a : Access Obj} {rem : List (Access Obj)} (pc : s.phase t = .issuing (a :: rem))
    (hroom : liveCount prog s a.obj + 1 < 2 ^ 32) :
    Inv prog { s with
      objMeta := Function.update s.objMeta a.obj
        (addTask (some t) (s.objMeta a.obj) a.group.bits).1
      incoming := Function.update s.incoming t
        ((s.incoming t + (addTask (some t) (s.objMeta a.obj) a.group.bits).2) % 2 ^ 32)
      phase := Function.update s.phase t (.issuing rem) } := by
  have ha : a ∈ prog t := (h.issuing t _ pc).subset List.mem_cons_self
  have hg := groupOn_eq (hnd t) ha
  obtain ⟨hlate, hprog⟩ := h.issue_order (.inl pc)
  obtain ⟨A, v, hok⟩ := h.objOk a.obj
  obtain ⟨hfits, hlen⟩ := h.viewFits hok
  obtain ⟨hrep, hadd⟩ := addTask_represents hok.rep hfits (by omega) t a.group
  have hdir : s.direct t = false := by
    by_contra hd
    have := (h.framed t (by simpa using hd)).1
    rw [pc] at this
    cases this
  have hargs := h.args t (h.lt_next (by simp [pc])) hdir
  -- whether it waits, and what the object looks like then
  have hcase : ∃ wait : Bool, (addTask (some t) (s.objMeta a.obj) a.group.bits).2 = wait.toNat ∧
      (∃ A v, ObjOk prog a.obj (addTask (some t) (s.objMeta a.obj) a.group.bits).1
        (Function.update (liveOn prog s a.obj) t true) (wokenOn prog s a.obj) A v) ∧
      ∀ u, u ∈ waitingOn (addTask (some t) (s.objMeta a.obj) a.group.bits).1 ↔
        u ∈ waitingOn (s.objMeta a.obj) ∨ wait = true ∧ u = t := by
    by_cases hadm : v.Admits a.group
    · have hv : v.add t a.group = ⟨v.oldest + 1, [], some a.group⟩ := by
        simp [View.add, hadm, hadm.1]
      have hok' := hok.admit hadm (hv ▸ hrep) hlate hprog hg
      refine ⟨false, by simp [hadd, hadm], ⟨_, _, hok'⟩, fun u => ?_⟩
      rw [hok'.waitingOn_eq, hok.waitingOn_eq, hadm.1]
      simp
    · have hok' := hok.append hadm hrep hlate hprog hg
      refine ⟨true, by simp [hadd, hadm], ⟨_, _, hok'⟩, fun u => ?_⟩
      rw [hok'.waitingOn_eq, hok.waitingOn_eq]
      simp only [View.add, if_neg hadm]
      split
      · simp [flatten_appendLast]
      · simp
  obtain ⟨wait, hw, hok', hwait⟩ := hcase
  have hi : Issues prog s t a rem (.issuing rem)
      (addTask (some t) (s.objMeta a.obj) a.group.bits).1 wait := ⟨.inl ⟨pc, rfl⟩, hok', hwait⟩
  -- the count does not wrap around: it is at most one more than the number of arguments
  have hle := hi.waits_le h hnd
  have hinc := h.incoming t
  rw [pc] at hinc
  simp only [Phase.isIssuing, Bool.toNat_true] at hinc
  rw [hw, Nat.mod_eq_of_lt (by omega)]
  exact h.issue hi hnd hroom

/-- A running task is issued on one of its objects. -/
theorem inv_addNull (h : Inv prog s) (hnd : ∀ t, (objs (prog t)).Nodup) {t : TaskId}
    {a : Access Obj} {rem : List (Access Obj)} (pc : s.phase t = .direct (a :: rem))
    (hroom : liveCount prog s a.obj + 1 < 2 ^ 32) :
    Inv prog { s with
      objMeta := Function.update s.objMeta a.obj
        (addTask none (s.objMeta a.obj) a.group.bits).1
      phase := Function.update s.phase t (.direct rem) } := by
  have ha : a ∈ prog t := (h.direct t _ pc).1.subset List.mem_cons_self
  have hg := groupOn_eq (hnd t) ha
  obtain ⟨hlate, hprog⟩ := h.issue_order (.inr pc)
  obtain ⟨A, v, hok⟩ := h.objOk a.obj
  obtain ⟨hfits, -⟩ := h.viewFits hok
  obtain ⟨hempty, hsame⟩ := h.admits t _ pc a List.mem_cons_self
  have hw : v.waiting = [] := by
    rw [← hok.rep.waiting, gens_eq_nil_iff]
    exact List.map_eq_nil_iff.mp hempty
  -- the object still admits the task: its active tasks are of one generation with it
  have hadm : v.Admits a.group := by
    refine ⟨hw, ?_⟩
    by_cases h0 : v.oldest = 0
    · exact .inl h0
    · right
      have hne : v.youngest ≠ none := fun he => h0 (hok.rep.empty.mpr he)
      obtain ⟨g, hy⟩ := Option.ne_none_iff_exists'.mp hne
      rw [hok.card, ← Ne, Finset.card_ne_zero] at h0
      obtain ⟨u, hu⟩ := h0
      obtain ⟨g', hg', hgu, hgt, -⟩ := hsame u ((hok.live u).mpr (.inl hu))
      have hgu' := hok.groupA hw g hy u hu
      rw [hgu] at hgu'
      rw [hg] at hgt
      obtain rfl := Option.some.inj hgu'
      obtain rfl := Option.some.inj hgt
      exact ⟨hy, hg'⟩
  have hrep := addNull_represents hok.rep hfits hadm
  have hok' := hok.admit hadm hrep hlate hprog hg
  have hi : Issues prog s t a rem (.direct rem)
      (addTask none (s.objMeta a.obj) a.group.bits).1 false := by
    refine ⟨.inr ⟨pc, rfl, rfl⟩, ⟨_, _, hok'⟩, fun u => ?_⟩
    rw [hok'.waitingOn_eq, hok.waitingOn_eq, hw]
    simp
  have hkeep := h.issue hi hnd hroom
  simp only [State.issueOn, Bool.toNat_false, Nat.add_zero, Function.update_eq_self] at hkeep
  exact hkeep

end SwanRuntime.Dataflow
