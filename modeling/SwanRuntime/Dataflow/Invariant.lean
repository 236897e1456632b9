import SwanRuntime.Dataflow.Objects

/-!
# Dataflow — the invariant

What relates all objects, frames and counts: every object is in order
(`ObjOk`), a frame's count is the number of objects it waits on, plus one while
it is being issued, and a task that has been admitted waits nowhere.

The steps in this module leave the objects alone: a task is created, or moves
from one phase to the next without taking any object's lock.

## Results

* `Inv.viewFits`    — no counter of an object has wrapped around.
* `Inv.create`      — a task is created, with a frame or directly.
* `inv_issuedReady`, `inv_issuedPending`, `inv_running` — it moves on.
-/

namespace SwanRuntime.Dataflow

variable {Obj : Type*} [DecidableEq Obj] (prog : TaskId → List (Access Obj))

/-! ## The invariant -/

/-- The tasks in an object's list. -/
def waitingOn (md : Metadata) : List TaskId := md.tasks.map Node.task

/-- On how many of its objects `t` waits. -/
def waits (s : State Obj) (t : TaskId) : Nat :=
  (prog t).countP fun a => decide (t ∈ waitingOn (s.objMeta a.obj))

def liveOn (s : State Obj) (o : Obj) (t : TaskId) : Bool := (s.phase t).live (prog t) o

def wokenOn (s : State Obj) (o : Obj) (t : TaskId) : Bool := (s.phase t).woken (prog t) o

def Phase.isIssuing : Phase Obj → Bool
  | .issuing _ => true
  | _ => false

/-- What the phases of the tasks say of each other. -/
structure PhaseOk (s : State Obj) : Prop where
  unissued  : ∀ t, s.phase t = .unissued ↔ s.next ≤ t
  half      : ∀ t, (s.phase t).halfIssued = true → t + 1 = s.next
  issuing   : ∀ t rem, s.phase t = .issuing rem → rem <:+ prog t
  direct    : ∀ t rem, s.phase t = .direct rem → rem <:+ prog t ∧ s.direct t = true
  releasing : ∀ t rem, s.phase t = .releasing rem → rem.Sublist (prog t)
  readied   : ∀ t, s.readied.count t = ((s.phase t).handedOut && !s.direct t).toNat
  framed    : ∀ t, s.direct t = true → (s.phase t).admitted = true ∧ s.phase t ≠ .ready
  args      : ∀ t, t < s.next → s.direct t = false → (prog t).length + 1 < 2 ^ 32

structure Inv (s : State Obj) : Prop extends PhaseOk prog s where
  objOk    : ∀ o, ∃ A v, ObjOk prog o (s.objMeta o) (liveOn prog s o) (wokenOn prog s o) A v
  incoming : ∀ t, s.incoming t = waits prog s t + (s.phase t).isIssuing.toNat
  parked   : ∀ t, s.phase t = .pending → waits prog s t ≠ 0
  free     : ∀ t, (s.phase t).admitted = true → waits prog s t = 0
  /-- A task issued while it runs is admitted by the objects to come. -/
  admits   : ∀ t rem, s.phase t = .direct rem → ∀ a ∈ rem,
    waitingOn (s.objMeta a.obj) = [] ∧
      ∀ u, liveOn prog s a.obj u = true → SameGen prog a.obj u t
  fits     : ∀ o, liveCount prog s o < 2 ^ 32

section Facts

variable {prog} {s : State Obj}

theorem ObjOk.waitingOn_eq {o : Obj} {md : Metadata} {live woken : TaskId → Bool}
    {A : Finset TaskId} {v : View} (h : ObjOk prog o md live woken A v) :
    waitingOn md = v.waiting.flatten := by
  rw [← h.rep.waiting, gens_flatten]
  rfl

theorem Inv.live_of_mem (h : Inv prog s) {o : Obj} {t : TaskId}
    (ht : t ∈ waitingOn (s.objMeta o)) : liveOn prog s o t = true := by
  obtain ⟨A, v, hok⟩ := h.objOk o
  rw [hok.waitingOn_eq] at ht
  exact (hok.live t).mpr (.inr ht)

theorem Inv.lt_next (h : Inv prog s) {t : TaskId} (ht : s.phase t ≠ .unissued) : t < s.next := by
  rw [Ne, h.unissued, Nat.not_le] at ht
  exact ht

theorem Inv.lt_next_of_live (h : Inv prog s) {o : Obj} {t : TaskId}
    (ht : liveOn prog s o t = true ∨ wokenOn prog s o t = true) : t < s.next := by
  refine h.lt_next fun he => ?_
  simp [liveOn, wokenOn, he, Phase.live, Phase.woken] at ht

theorem Inv.mem_objs_of_live (h : Inv prog s) {o : Obj} {t : TaskId}
    (ht : liveOn prog s o t = true) : o ∈ objs (prog t) := by
  unfold liveOn at ht
  -- a task is only live on its own objects, in every phase
  cases hp : s.phase t with
  | unissued => simp [hp, Phase.live] at ht
  | issuing rem => simp [hp, Phase.live] at ht; exact ht.1
  | direct rem => simp [hp, Phase.live] at ht; exact ht.1
  | pending => simpa [hp, Phase.live] using ht
  | ready => simpa [hp, Phase.live] using ht
  | running => simpa [hp, Phase.live] using ht
  | releasing rem =>
    rw [hp] at ht
    have ho : o ∈ objs rem := by simpa [Phase.live] using ht
    exact ((h.releasing t rem hp).map _).subset ho

/-- A task that waits nowhere is in no object's list. -/
theorem Inv.notMem_waitingOn (h : Inv prog s) {t : TaskId} (hw : waits prog s t = 0) (o : Obj) :
    t ∉ waitingOn (s.objMeta o) := by
  intro hin
  -- if it were, the object would be one of its arguments, and counted
  obtain ⟨a, ha, rfl⟩ := List.mem_map.mp (h.mem_objs_of_live (h.live_of_mem hin))
  rw [waits, List.countP_eq_zero] at hw
  exact hw a ha (by simpa using hin)

omit [DecidableEq Obj] in
/-- A task in no object's list waits nowhere. -/
theorem waits_eq_zero {t : TaskId} (h : ∀ o, t ∉ waitingOn (s.objMeta o)) :
    waits prog s t = 0 := by
  rw [waits, List.countP_eq_zero]
  intro a _
  simpa using h a.obj

omit [DecidableEq Obj] in
theorem waits_le (prog : TaskId → List (Access Obj)) (s : State Obj) (t : TaskId) :
    waits prog s t ≤ (prog t).length := List.countP_le_length

omit [DecidableEq Obj] in
/-- Counting the arguments that meet a condition which changes at one object. -/
theorem countP_change {l : List (Access Obj)} (hnd : (objs l).Nodup) {a : Access Obj}
    (ha : a ∈ l) {p q : Access Obj → Bool} (hpq : ∀ b, b.obj ≠ a.obj → p b = q b)
    (hp : p a = false) (hq : q a = true) : l.countP q = l.countP p + 1 := by
  induction l with
  | nil => cases ha
  | cons b l ih =>
    simp only [objs, List.map_cons, List.nodup_cons] at hnd
    rcases List.mem_cons.mp ha with rfl | hal
    · -- the argument itself: it occurs once, so the rest of the list does not change
      have hsame : l.countP p = l.countP q := by
        refine List.countP_congr fun c hc => ?_
        rw [hpq c]
        intro he
        exact hnd.1 (he ▸ List.mem_map_of_mem hc)
      rw [List.countP_cons_of_pos hq, List.countP_cons_of_neg (by simp [hp]), hsame]
    · have hb : p b = q b := by
        refine hpq b fun he => ?_
        exact hnd.1 (he ▸ List.mem_map_of_mem hal)
      rw [List.countP_cons, List.countP_cons, ih hnd.2 hal, hb]
      omega

/-- The group of one argument of a task. -/
theorem groupOn_eq {t : TaskId} (hnd : (objs (prog t)).Nodup) {a : Access Obj}
    (ha : a ∈ prog t) : groupOn prog t a.obj = some a.group := by
  unfold groupOn
  generalize prog t = l at hnd ha
  -- induction on the arguments; no two are of one object
  induction l with
  | nil => cases ha
  | cons b l ih =>
    simp only [objs, List.map_cons, List.nodup_cons] at hnd
    rw [List.find?_cons]
    rcases List.mem_cons.mp ha with rfl | ha
    · simp
    · have hne : b.obj ≠ a.obj := by
        intro he
        exact hnd.1 (he ▸ List.mem_map_of_mem ha)
      rw [decide_eq_false hne]
      exact ih hnd.2 ha

theorem mem_objs_of_groupOn {t : TaskId} {o : Obj} (h : groupOn prog t o ≠ none) :
    o ∈ objs (prog t) := by
  unfold groupOn at h
  cases hf : (prog t).find? fun a => decide (a.obj = o) with
  | none => simp [hf] at h
  | some a =>
    have hobj := List.find?_some hf
    rw [decide_eq_true_iff] at hobj
    rw [← hobj]
    exact List.mem_map_of_mem (List.mem_of_find?_eq_some hf)

/-- The counts of an object's view are bounded by the number of live tasks. -/
theorem ObjOk.length_le {o : Obj} {A : Finset TaskId} {v : View}
    (h : ObjOk prog o (s.objMeta o) (liveOn prog s o) (wokenOn prog s o) A v)
    (hlt : ∀ t, liveOn prog s o t = true → t < s.next) :
    v.oldest + v.waiting.flatten.length ≤ liveCount prog s o := by
  have hnd : v.waiting.flatten.Nodup := h.sorted.imp (fun h => Nat.ne_of_lt h)
  -- the active tasks and the waiting ones are different tasks, all of them live
  have hdisj : Disjoint A v.waiting.flatten.toFinset := by
    rw [Finset.disjoint_left]
    intro t ht hin
    exact h.disj t ht (List.mem_toFinset.mp hin)
  rw [h.card, ← List.toFinset_card_of_nodup hnd, ← Finset.card_union_of_disjoint hdisj]
  refine Finset.card_le_card fun t ht => ?_
  rw [Finset.mem_union, List.mem_toFinset, ← h.live] at ht
  exact Finset.mem_filter.mpr ⟨Finset.mem_range.mpr (hlt t ht), ht⟩

theorem length_le_flatten {gs : List (List TaskId)} (h : ∀ G ∈ gs, G ≠ []) :
    gs.length ≤ gs.flatten.length := by
  induction gs with
  | nil => exact Nat.le_refl _
  | cons G gs ih =>
    have hG := List.length_pos_iff.mpr (h G List.mem_cons_self)
    have := ih fun H hH => h H (List.mem_cons_of_mem _ hH)
    simp only [List.length_cons, List.flatten_cons, List.length_append]
    omega

theorem length_mem_le_flatten {gs : List (List TaskId)} {G : List TaskId} (h : G ∈ gs) :
    G.length ≤ gs.flatten.length := by
  induction gs with
  | nil => cases h
  | cons H gs ih =>
    simp only [List.flatten_cons, List.length_append]
    rcases List.mem_cons.mp h with rfl | h
    · omega
    · have := ih h
      omega

/-- No counter of the object has wrapped around, and none does when one more
task comes. -/
theorem Inv.viewFits (h : Inv prog s) {o : Obj} {A : Finset TaskId} {v : View}
    (hok : ObjOk prog o (s.objMeta o) (liveOn prog s o) (wokenOn prog s o) A v) :
    v.Fits ∧ v.waiting.length ≤ liveCount prog s o - 1 := by
  have hle := hok.length_le fun t ht => h.lt_next_of_live (.inl ht)
  have hfits := h.fits o
  -- every generation that waits has a task
  have hgens : v.waiting.length ≤ v.waiting.flatten.length := by
    refine length_le_flatten fun G hG => ?_
    rw [← hok.rep.waiting] at hG
    exact ne_nil_of_mem_gens hG
  have hidle := hok.rep.idle
  have hroom : v.waiting.length ≤ liveCount prog s o - 1 := by
    by_cases h0 : v.oldest = 0
    · rw [hidle h0]
      exact Nat.zero_le _
    · omega
  refine ⟨⟨by omega, by omega, fun G hG => ?_⟩, hroom⟩
  have := length_mem_le_flatten hG
  omega

end Facts

/-! ## Steps that only move one task on -/

section Phases

variable {prog} {s : State Obj}

theorem live_update (phase : TaskId → Phase Obj) (t : TaskId) (p : Phase Obj) (o : Obj) :
    (fun u => (Function.update phase t p u).live (prog u) o) =
      Function.update (fun u => (phase u).live (prog u) o) t (p.live (prog t) o) := by
  funext u
  by_cases hu : u = t
  · subst hu
    simp
  · simp [hu]

theorem woken_update (phase : TaskId → Phase Obj) (t : TaskId) (p : Phase Obj) (o : Obj) :
    (fun u => (Function.update phase t p u).woken (prog u) o) =
      Function.update (fun u => (phase u).woken (prog u) o) t (p.woken (prog t) o) := by
  funext u
  by_cases hu : u = t
  · subst hu
    simp
  · simp [hu]

theorem liveCount_le {s' : State Obj} {o : Obj}
    (h : ∀ u, liveOn prog s' o u = true → liveOn prog s o u = true ∧ u < s.next) :
    liveCount prog s' o ≤ liveCount prog s o := by
  refine Finset.card_le_card fun u hu => ?_
  obtain ⟨hlive, hlt⟩ := h u (Finset.mem_filter.mp hu).2
  exact Finset.mem_filter.mpr ⟨Finset.mem_range.mpr hlt, hlive⟩

omit [DecidableEq Obj] in
/-- One task moves on. -/
theorem PhaseOk.move (h : PhaseOk prog s) {t : TaskId} {p : Phase Obj}
    {objMeta : Obj → Metadata} {incoming : TaskId → Nat} {r : List TaskId}
    (hbegun : s.phase t ≠ .unissued) (hp : p ≠ .unissued)
    (hhalf : p.halfIssued = true → (s.phase t).halfIssued = true)
    (hissuing : ∀ rem, p = .issuing rem → rem <:+ prog t)
    (hdirect : ∀ rem, p = .direct rem → rem <:+ prog t ∧ s.direct t = true)
    (hrel : ∀ rem, p = .releasing rem → rem.Sublist (prog t))
    (hr : ∀ u, r.count u = if u = t then (p.handedOut && !s.direct t).toNat else s.readied.count u)
    (hframed : s.direct t = true → p.admitted = true ∧ p ≠ .ready) :
    PhaseOk prog { s with
      objMeta := objMeta
      incoming := incoming
      phase := Function.update s.phase t p
      readied := r } := by
  -- each clause twice: for the task that moves, and for one of the others
  have hlt : t < s.next := Nat.lt_of_not_le fun hle => hbegun ((h.unissued t).mpr hle)
  have hself : Function.update s.phase t p t = p := Function.update_self ..
  have hother : ∀ u, u ≠ t → Function.update s.phase t p u = s.phase u :=
    fun u hu => Function.update_of_ne hu ..
  refine ⟨fun u => ?_, fun u hu => ?_, fun u rem hu => ?_, fun u rem hu => ?_,
    fun u rem hu => ?_, fun u => ?_, fun u hu => ?_, h.args⟩ <;>
    rcases eq_or_ne u t with rfl | hut
  · simpa [hself, hp] using hlt
  · simpa [hother u hut] using h.unissued u
  · exact h.half u (hhalf (by simpa [hself] using hu))
  · exact h.half u (by simpa [hother u hut] using hu)
  · exact hissuing rem (by simpa [hself] using hu)
  · exact h.issuing u rem (by simpa [hother u hut] using hu)
  · exact hdirect rem (by simpa [hself] using hu)
  · exact h.direct u rem (by simpa [hother u hut] using hu)
  · exact hrel rem (by simpa [hself] using hu)
  · exact h.releasing u rem (by simpa [hother u hut] using hu)
  · simp only [hself, hr, if_pos]
  · simp only [hother u hut, hr, if_neg hut]
    exact h.readied u
  · simpa [hself] using hframed hu
  · simpa [hother u hut] using h.framed u hu

/-- A task moves on without any object noticing. -/
theorem Inv.rephase (h : Inv prog s) {t : TaskId} {p : Phase Obj} {c : Nat} {r : List TaskId}
    (hlive : ∀ o, p.live (prog t) o = (s.phase t).live (prog t) o)
    (hwoken : ∀ o, p.woken (prog t) o = (s.phase t).woken (prog t) o)
    (hbegun : s.phase t ≠ .unissued) (hp : p ≠ .unissued) (hhalf : p.halfIssued = false)
    (hrel : ∀ rem, p = .releasing rem → rem.Sublist (prog t))
    (hinc : c = waits prog s t) (hparked : p = .pending → waits prog s t ≠ 0)
    (hfree : p.admitted = true → waits prog s t = 0)
    (hr : ∀ u, r.count u = if u = t then (p.handedOut && !s.direct t).toNat else s.readied.count u)
    (hframed : s.direct t = true → p.admitted = true ∧ p ≠ .ready) :
    Inv prog { s with
      incoming := Function.update s.incoming t c
      phase := Function.update s.phase t p
      readied := r } := by
  -- the objects see the same tasks
  have hliveOn : ∀ o, (fun u => (Function.update s.phase t p u).live (prog u) o) =
      liveOn prog s o := by
    intro o
    rw [live_update, hlive]
    exact Function.update_eq_self t _
  have hwokenOn : ∀ o, (fun u => (Function.update s.phase t p u).woken (prog u) o) =
      wokenOn prog s o := by
    intro o
    rw [woken_update, hwoken]
    exact Function.update_eq_self t _
  -- the task is not half issued any more
  have hnotissuing : ∀ rem, p ≠ .issuing rem := by
    rintro rem rfl
    cases hhalf
  have hnotdirect : ∀ rem, p ≠ .direct rem := by
    rintro rem rfl
    cases hhalf
  refine ⟨h.toPhaseOk.move hbegun hp (by simp [hhalf]) (fun rem he => absurd he (hnotissuing rem))
    (fun rem he => absurd he (hnotdirect rem)) hrel hr hframed, fun o => ?_, fun u => ?_,
    fun u hu => ?_, fun u hu => ?_, fun u rem hu a ha => ?_, fun o => ?_⟩
  · obtain ⟨A, v, hok⟩ := h.objOk o
    refine ⟨A, v, ?_⟩
    rw [← hliveOn o, ← hwokenOn o] at hok
    exact hok
  · show Function.update s.incoming t c u = waits prog s u + _
    by_cases hut : u = t
    · subst hut
      have : p.isIssuing = false := by
        cases p <;> first | rfl | cases hhalf
      simp [hinc, this]
    · simp only [Function.update_of_ne hut]
      exact h.incoming u
  · show waits prog s u ≠ 0
    by_cases hut : u = t
    · subst hut
      exact hparked (by simpa using hu)
    · simp only [Function.update_of_ne hut] at hu
      exact h.parked u hu
  · show waits prog s u = 0
    by_cases hut : u = t
    · subst hut
      exact hfree (by simpa using hu)
    · simp only [Function.update_of_ne hut] at hu
      exact h.free u hu
  · by_cases hut : u = t
    · subst hut
      simp only [Function.update_self] at hu
      exact absurd hu (hnotdirect rem)
    · simp only [Function.update_of_ne hut] at hu
      refine ⟨(h.admits u rem hu a ha).1, fun x hx => (h.admits u rem hu a ha).2 x ?_⟩
      rw [← hliveOn a.obj]
      exact hx
  · refine lt_of_le_of_lt (liveCount_le fun u hu => ?_) (h.fits o)
    have hu' : liveOn prog s o u = true := by
      rw [← hliveOn o]
      exact hu
    exact ⟨hu', h.lt_next_of_live (.inl hu')⟩

/-- The issuer's decrement. -/
theorem inv_issuedReady (h : Inv prog s) {t : TaskId} (pc : s.phase t = .issuing [])
    (last : s.incoming t = 1) :
    Inv prog { s with
      incoming := Function.update s.incoming t 0
      phase := Function.update s.phase t .ready
      readied := t :: s.readied } := by
  -- the last count is the issuer’s own, so the task waits nowhere
  have hinc := h.incoming t
  rw [last, pc] at hinc
  have hw : waits prog s t = 0 := by simpa [Phase.isIssuing] using hinc.symm
  have hdir : s.direct t = false := by
    by_contra hd
    have := (h.framed t (by simpa using hd)).1
    rw [pc] at this
    cases this
  refine h.rephase (fun o => ?_) (fun o => ?_) (by simp [pc]) (by simp) rfl (by simp) hw.symm
    (by simp) (fun _ => hw) (fun u => ?_) (by simp [hdir])
  · simp [pc, Phase.live, objs]
  · simp [pc, Phase.woken]
  · by_cases hut : u = t
    · subst hut
      have := h.readied u
      rw [pc] at this
      simp [this, hdir, Phase.handedOut]
    · simp [hut, Ne.symm hut]

theorem inv_issuedPending (h : Inv prog s) {t : TaskId} (pc : s.phase t = .issuing [])
    (more : s.incoming t ≠ 1) :
    Inv prog { s with
      incoming := Function.update s.incoming t ((s.incoming t + (2 ^ 32 - 1)) % 2 ^ 32)
      phase := Function.update s.phase t .pending } := by
  -- the count is above 1 and within its range: the decrement does not wrap around
  have hinc := h.incoming t
  rw [pc] at hinc
  simp only [Phase.isIssuing, Bool.toNat_true] at hinc
  have hdir : s.direct t = false := by
    by_contra hd
    have := (h.framed t (by simpa using hd)).1
    rw [pc] at this
    cases this
  have hargs := h.args t (h.lt_next (by simp [pc])) hdir
  have hle := waits_le prog s t
  refine h.rephase (fun o => ?_) (fun o => ?_) (by simp [pc]) (by simp) rfl (by simp) ?_
    (fun _ => ?_) (by simp [Phase.admitted]) (fun u => ?_) (by simp [hdir])
  · simp [pc, Phase.live, objs]
  · simp [pc, Phase.woken]
  · omega
  · omega
  · by_cases hut : u = t
    · subst hut
      have := h.readied u
      rw [pc] at this
      simp [this, Phase.handedOut]
    · simp [hut]

/-- A running task is fully issued, or begins or ends its run. -/
theorem inv_running (h : Inv prog s) {t : TaskId} {p : Phase Obj}
    (hlive : ∀ o, p.live (prog t) o = (s.phase t).live (prog t) o)
    (hwoken : ∀ o, p.woken (prog t) o = (s.phase t).woken (prog t) o)
    (hadm : (s.phase t).admitted = true) (hadm' : p.admitted = true) (hhalf : p.halfIssued = false)
    (hready : p ≠ .ready) (hrel : ∀ rem, p = .releasing rem → rem.Sublist (prog t))
    (hout : (s.phase t).handedOut = true ∨ s.direct t = true) :
    Inv prog { s with phase := Function.update s.phase t p } := by
  have hbegun : s.phase t ≠ .unissued := by
    intro he
    rw [he] at hadm
    cases hadm
  have hp : p ≠ .unissued := by
    rintro rfl
    cases hadm'
  -- the task is handed out before and after, so `readied` need not change
  have hout' : p.handedOut = true := by
    cases p <;> simp [Phase.admitted, Phase.halfIssued, Phase.handedOut] at hadm' hhalf ⊢
  have hi : (s.phase t).isIssuing = false := by
    cases hc : s.phase t <;> rw [hc] at hadm <;> first | rfl | cases hadm
  have hinc := h.incoming t
  rw [hi] at hinc
  have hkeep := h.rephase (c := s.incoming t) (r := s.readied) hlive hwoken hbegun hp hhalf hrel
    hinc (by rintro rfl; cases hadm') (fun _ => h.free t hadm) (fun u => ?_)
    (fun _ => ⟨hadm', hready⟩)
  · rw [Function.update_eq_self] at hkeep
    exact hkeep
  · by_cases hut : u = t
    · subst hut
      rw [if_pos rfl, h.readied, hout']
      rcases hout with ho | ho
      · rw [ho]
      · simp [ho]
    · rw [if_neg hut]

end Phases

/-! ## New tasks -/

section Create

variable {prog} {s : State Obj}

/-- A task that is issued completely is live on its objects or done with them. -/
theorem Inv.issued (h : Inv prog s) {t : TaskId} {o : Obj} (ht : t < s.next)
    (hhalf : (s.phase t).halfIssued = false) (ho : o ∈ objs (prog t)) :
    liveOn prog s o t = true ∨ wokenOn prog s o t = true := by
  have hbegun : s.phase t ≠ .unissued := by
    rw [Ne, h.unissued, Nat.not_le]
    exact ht
  unfold liveOn wokenOn
  -- only a half issued task can have an argument that is neither
  cases hp : s.phase t with
  | unissued => exact absurd hp hbegun
  | issuing rem => rw [hp] at hhalf; cases hhalf
  | direct rem => rw [hp] at hhalf; cases hhalf
  | pending => simp [Phase.live, ho]
  | ready => simp [Phase.live, ho]
  | running => simp [Phase.live, ho]
  | releasing rem =>
    by_cases hr : o ∈ objs rem
    · simp [Phase.live, hr]
    · simp [Phase.woken, hr, ho]

theorem Inv.unissued_facts (h : Inv prog s) :
    s.phase s.next = .unissued ∧ waits prog s s.next = 0 ∧ s.incoming s.next = 0 ∧
      s.direct s.next = false ∧ s.readied.count s.next = 0 := by
  have hun : s.phase s.next = .unissued := (h.unissued _).mpr (Nat.le_refl _)
  -- an unissued task is live nowhere, so it waits nowhere
  have hw : waits prog s s.next = 0 := by
    refine waits_eq_zero fun o hin => ?_
    have := h.live_of_mem hin
    simp [liveOn, hun, Phase.live] at this
  have hdir : s.direct s.next = false := by
    by_contra hd
    have := (h.framed s.next (by simpa using hd)).1
    rw [hun] at this
    cases this
  refine ⟨hun, hw, ?_, hdir, ?_⟩
  · have := h.incoming s.next
    rw [hun, hw] at this
    simpa [Phase.isIssuing] using this
  · have := h.readied s.next
    rw [hun] at this
    simpa [Phase.handedOut] using this

omit [DecidableEq Obj] in
/-- The phases and the frames when the next task comes: it is the one being issued. -/
theorem PhaseOk.create (h : PhaseOk prog s) (idle : ∀ t, (s.phase t).halfIssued = false)
    {p : Phase Obj} {d : Bool} (hp : p = .issuing (prog s.next) ∧ d = false ∨
      p = .direct (prog s.next) ∧ d = true)
    (hargs : d = false → (prog s.next).length + 1 < 2 ^ 32)
    (hcount : s.readied.count s.next = 0) (incoming : TaskId → Nat) :
    PhaseOk prog { s with
      phase := Function.update s.phase s.next p
      incoming := incoming
      direct := Function.update s.direct s.next d
      next := s.next + 1 } := by
  have hself : Function.update s.phase s.next p s.next = p := Function.update_self ..
  have hother : ∀ u, u ≠ s.next → Function.update s.phase s.next p u = s.phase u :=
    fun u hu => Function.update_of_ne hu ..
  refine ⟨fun u => ?_, fun u hu => ?_, fun u rem hu => ?_, fun u rem hu => ?_, fun u rem hu => ?_,
    fun u => ?_, fun u hu => ?_, fun u hu hd => ?_⟩ <;>
    rcases eq_or_ne u s.next with rfl | hut
  -- each clause for the new task, and for one of the others
  · rcases hp with ⟨rfl, -⟩ | ⟨rfl, -⟩ <;> simp
  · simp only [hother u hut, h.unissued]
    exact ⟨fun hle => Nat.lt_of_le_of_ne hle (Ne.symm hut), Nat.le_of_succ_le⟩
  · rfl
  · simp only [hother u hut, idle u, Bool.false_eq_true] at hu
  · simp only [hself] at hu
    rcases hp with ⟨rfl, -⟩ | ⟨rfl, -⟩
    · obtain rfl := Phase.issuing.inj hu
      exact List.suffix_refl _
    · cases hu
  · simp only [hother u hut] at hu
    exact h.issuing u rem hu
  · simp only [hself] at hu
    rcases hp with ⟨rfl, -⟩ | ⟨rfl, hd⟩
    · cases hu
    · obtain rfl := Phase.direct.inj hu
      exact ⟨List.suffix_refl _, by simp [hd]⟩
  · simp only [hother u hut] at hu
    simpa only [Function.update_of_ne hut] using h.direct u rem hu
  · simp only [hself] at hu
    rcases hp with ⟨rfl, -⟩ | ⟨rfl, -⟩ <;> cases hu
  · simp only [hother u hut] at hu
    exact h.releasing u rem hu
  · simp only [hself, hcount]
    rcases hp with ⟨rfl, -⟩ | ⟨rfl, -⟩ <;> rfl
  · simp only [hother u hut, Function.update_of_ne hut]
    exact h.readied u
  · simp only [Function.update_self] at hu
    simp only [hself]
    rcases hp with ⟨rfl, hd⟩ | ⟨rfl, -⟩
    · rw [hd] at hu
      cases hu
    · exact ⟨rfl, by simp⟩
  · simp only [Function.update_of_ne hut] at hu
    simp only [hother u hut]
    exact h.framed u hu
  · simp only [Function.update_self] at hd
    exact hargs hd
  · simp only [Function.update_of_ne hut] at hd
    exact h.args u (Nat.lt_of_le_of_ne (Nat.le_of_lt_succ hu) hut) hd

/-- The next task, none of its arguments issued yet. -/
theorem Inv.create (h : Inv prog s) (idle : ∀ t, (s.phase t).halfIssued = false)
    {p : Phase Obj} {d : Bool} (hp : p = .issuing (prog s.next) ∧ d = false ∨
      p = .direct (prog s.next) ∧ d = true)
    (hargs : d = false → (prog s.next).length + 1 < 2 ^ 32)
    (hadmits : d = true → ∀ a ∈ prog s.next, waitingOn (s.objMeta a.obj) = [] ∧
      ∀ u, liveOn prog s a.obj u = true → SameGen prog a.obj u s.next) :
    Inv prog { s with
      phase := Function.update s.phase s.next p
      incoming := Function.update s.incoming s.next p.isIssuing.toNat
      direct := Function.update s.direct s.next d
      next := s.next + 1 } := by
  obtain ⟨hun, hw, -, hdir, hcount⟩ := h.unissued_facts
  -- no object notices: none of the task's arguments has been issued
  have hlive : ∀ o, p.live (prog s.next) o = (s.phase s.next).live (prog s.next) o := by
    intro o
    rcases hp with ⟨rfl, -⟩ | ⟨rfl, -⟩ <;> simp [hun, Phase.live]
  have hwoken : ∀ o, p.woken (prog s.next) o = (s.phase s.next).woken (prog s.next) o := by
    intro o
    rcases hp with ⟨rfl, -⟩ | ⟨rfl, -⟩ <;> simp [hun, Phase.woken]
  have hliveOn : ∀ o, (fun u => (Function.update s.phase s.next p u).live (prog u) o) =
      liveOn prog s o := by
    intro o
    rw [live_update, hlive]
    exact Function.update_eq_self s.next _
  have hwokenOn : ∀ o, (fun u => (Function.update s.phase s.next p u).woken (prog u) o) =
      wokenOn prog s o := by
    intro o
    rw [woken_update, hwoken]
    exact Function.update_eq_self s.next _
  have hself : Function.update s.phase s.next p s.next = p := Function.update_self ..
  have hother : ∀ u, u ≠ s.next → Function.update s.phase s.next p u = s.phase u :=
    fun u hu => Function.update_of_ne hu ..
  refine ⟨h.toPhaseOk.create idle hp hargs hcount _, fun o => ?_, fun u => ?_, fun u hu => ?_,
    fun u hu => ?_, fun u rem hu a ha => ?_, fun o => ?_⟩
  · obtain ⟨A, v, hok⟩ := h.objOk o
    refine ⟨A, v, ?_⟩
    rw [← hliveOn o, ← hwokenOn o] at hok
    exact hok
  · -- the issuer's own count keeps the frame from becoming ready
    show Function.update s.incoming s.next _ u = waits prog s u + _
    rcases eq_or_ne u s.next with rfl | hut
    · simp [hw]
    · simp only [Function.update_of_ne hut]
      exact h.incoming u
  · show waits prog s u ≠ 0
    rcases eq_or_ne u s.next with rfl | hut
    · simp only [hself] at hu
      rcases hp with ⟨rfl, -⟩ | ⟨rfl, -⟩ <;> cases hu
    · simp only [hother u hut] at hu
      exact h.parked u hu
  · show waits prog s u = 0
    rcases eq_or_ne u s.next with rfl | hut
    · exact hw
    · simp only [hother u hut] at hu
      exact h.free u hu
  · have hback : ∀ x, liveOn prog { s with
        phase := Function.update s.phase s.next p
        incoming := Function.update s.incoming s.next p.isIssuing.toNat
        direct := Function.update s.direct s.next d
        next := s.next + 1 } a.obj x = true → liveOn prog s a.obj x = true := by
      intro x hx
      rw [← hliveOn a.obj]
      exact hx
    rcases eq_or_ne u s.next with rfl | hut
    · simp only [hself] at hu
      rcases hp with ⟨rfl, -⟩ | ⟨rfl, hd⟩
      · cases hu
      · obtain rfl := Phase.direct.inj hu
        obtain ⟨hempty, hsame⟩ := hadmits hd a ha
        exact ⟨hempty, fun x hx => hsame x (hback x hx)⟩
    · simp only [hother u hut] at hu
      obtain ⟨hempty, hsame⟩ := h.admits u rem hu a ha
      exact ⟨hempty, fun x hx => hsame x (hback x hx)⟩
  · refine lt_of_le_of_lt (liveCount_le fun u hu => ?_) (h.fits o)
    have hu' : liveOn prog s o u = true := by
      rw [← hliveOn o]
      exact hu
    exact ⟨hu', h.lt_next_of_live (.inl hu')⟩

/-- A task that finds all its objects ready only meets its own generations. -/
theorem Inv.createDirect (h : Inv prog s) (hnd : ∀ t, (objs (prog t)).Nodup)
    (idle : ∀ t, (s.phase t).halfIssued = false)
    (ready : ∀ a ∈ prog s.next, iniReady (s.objMeta a.obj) a.group.bits = true) :
    ∀ a ∈ prog s.next, waitingOn (s.objMeta a.obj) = [] ∧
      ∀ u, liveOn prog s a.obj u = true → SameGen prog a.obj u s.next := by
  intro a ha
  obtain ⟨A, v, hok⟩ := h.objOk a.obj
  -- `ini_ready` holds: nobody waits, and the object is idle or of a generation to join
  obtain ⟨hw, hadm⟩ := (hok.rep.iniReady_iff a.group).mp (ready a ha)
  have hempty : waitingOn (s.objMeta a.obj) = [] := by
    rw [hok.waitingOn_eq, hw]
    rfl
  refine ⟨hempty, fun u hu => ?_⟩
  have huA : u ∈ A := by
    rw [hok.live, hw] at hu
    simpa using hu
  -- an idle object has no active task to compare with
  rcases hadm with h0 | hj
  · rw [hok.card, Finset.card_eq_zero] at h0
    rw [h0] at huA
    cases huA
  · refine hok.same_of_joins hw hj (fun t ht hacc => ?_) (groupOn_eq (hnd _) ha) huA
    exact h.issued ht (idle t) (mem_objs_of_groupOn hacc)

end Create

end SwanRuntime.Dataflow
