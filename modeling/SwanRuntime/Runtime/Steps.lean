import SwanRuntime.Runtime.Simulation

/-!
# The runtime — steps are sequences of moves

Steals, and with them every step of the runtime that does not simulate a steal,
are sequences of moves, so that what every move keeps holds after every step.

## Results

* `randomSteal_quiet`, `readyListSteal_quiet` — steals.
* `Step.strides`                              — every step.
-/

namespace SwanRuntime.Runtime

open Reducers Checked

variable {K : Type} [DecidableEq K] {M : K → Type} [∀ k, Monoid (M k)]

-- ---------------------------------------------------------------------------
-- Steals
-- ---------------------------------------------------------------------------

section Stealing

variable {force : Bool} {s : State M} {w victim : WorkerId} {f : FrameId} {pf : PendingFrame}

omit [DecidableEq K] [∀ k, Monoid (M k)] in
/-- The oldest spawned frame, with the chain of calls below it. -/
theorem exists_oldest_detached {l : List (StackFrame M)} (h : l.any (·.detached) = true) :
    ∃ chain sf young, l = chain ++ sf :: young ∧ (∀ c ∈ chain, c.detached = false) ∧
      sf.detached = true := by
  induction l with
  | nil => exact nomatch h
  | cons a l ih =>
    cases ha : a.detached with
    | true => exact ⟨[], a, l, rfl, fun _ hc => (List.not_mem_nil hc).elim, ha⟩
    | false =>
      rw [List.any_cons, ha, Bool.false_or] at h
      obtain ⟨chain, sf, young, rfl, hchain, hsf⟩ := ih h
      refine ⟨a :: chain, sf, young, rfl, fun c hc => ?_, hsf⟩
      rcases List.mem_cons.mp hc with rfl | hc
      · exact ha
      · exact hchain c hc

omit [DecidableEq K] [∀ k, Monoid (M k)] in
/-- Promoting a chain does not look at the fibers. -/
theorem promoteChain_nextFiber (x : FiberId) (chain young : List (StackFrame M)) :
    promoteChain { s with nextFiber := x } victim f chain young =
      ({ (promoteChain s victim f chain young).1 with nextFiber := x },
        (promoteChain s victim f chain young).2) := by
  induction chain generalizing s f with
  | nil => rfl
  | cons sf chain ih => exact ih (s := promoteCall s victim f sf (chain ++ young)) (f := s.nextFrame)

/-- A chain is promoted frame by frame. -/
theorem promoteChain_quiet (chain young : List (StackFrame M))
    (hrun : (s.worker victim).phase = .running) (hf : (s.worker victim).frameFf = some f)
    (hstack : (s.worker victim).stack = chain ++ young) (hchain : ∀ c ∈ chain, c.detached = false)
    (hsim : (s.ff f).simulatedStolen = false) :
    Quiet force s (promoteChain s victim f chain young).1 ∧
      ((promoteChain s victim f chain young).1.worker victim).phase = .running ∧
      ((promoteChain s victim f chain young).1.worker victim).team = (s.worker victim).team ∧
      ((promoteChain s victim f chain young).1.worker victim).frameFf =
        some (promoteChain s victim f chain young).2 ∧
      ((promoteChain s victim f chain young).1.worker victim).stack = young ∧
      ((promoteChain s victim f chain young).1.ff
        (promoteChain s victim f chain young).2).simulatedStolen = false ∧
      (promoteChain s victim f chain young).1.nextFiber = s.nextFiber := by
  induction chain generalizing s f with
  | nil => exact ⟨.refl, hrun, rfl, hf, hstack, hsim, rfl⟩
  | cons sf chain ih =>
    have hworker : (promoteCall s victim f sf (chain ++ young)).worker victim =
        { s.worker victim with frameFf := some s.nextFrame, stack := chain ++ young } := if_pos rfl
    have hnew : ((promoteCall s victim f sf (chain ++ young)).ff s.nextFrame).simulatedStolen = false := by
      simp [promoteCall, FullFrame.spawned, FullFrame.make]
    obtain ⟨hmoves, hrun', hteam, hrest⟩ := ih (s := promoteCall s victim f sf (chain ++ young))
      (f := s.nextFrame) (by rw [hworker]; exact hrun) (by rw [hworker]) (by rw [hworker])
      (fun c hc => hchain c (List.mem_cons_of_mem _ hc)) hnew
    refine ⟨.head (.promoteCall hrun hf hstack (hchain sf List.mem_cons_self))
      (.of_ite (fun _ => rfl) rfl) hmoves, hrun', ?_, hrest⟩
    rw [show promoteChain s victim f (sf :: chain) young = promoteChain _ victim _ chain young from rfl,
      hteam, hworker]

omit [DecidableEq K] [∀ k, Monoid (M k)] in
/-- The thief had not been given a frame. -/
theorem keepsGiven_steal {sf : StackFrame M} {young : List (StackFrame M)} {fiber : FiberArg}
    (hnext : (s.worker w).nextFrameFf = none) :
    KeepsGiven s (stealState s w victim f sf young fiber) := by
  intro v g hg
  have hv : v ≠ w := by
    rintro rfl
    exact nomatch hnext.symm.trans hg
  by_cases hvictim : v = victim
  · subst hvictim
    simp [stealState, Worker.robbed, hg]
  · simp [stealState, hvictim, hv, hg]

omit [DecidableEq K] [∀ k, Monoid (M k)] in
theorem keepsGiven_ready (hnext : (s.worker w).nextFrameFf = none) :
    KeepsGiven s (readyState s w victim pf) := by
  intro v g hg
  have hv : v ≠ w := by
    rintro rfl
    exact nomatch hnext.symm.trans hg
  simp [readyState, hv, hg]

omit [DecidableEq K] [∀ k, Monoid (M k)] in
/-- The victim of a steal runs a frame, with a spawned frame on its stack. -/
theorem Shape.exists_spawned {site : FrameId → Site} (hs : Shape s site none)
    (hdeque : canSteal s victim = true) :
    ∃ f chain sf young, (s.worker victim).phase = .running ∧
      (s.worker victim).frameFf = some f ∧ site f = .running victim ∧
      (s.worker victim).stack = chain ++ sf :: young ∧ (∀ c ∈ chain, c.detached = false) ∧
      sf.detached = true ∧ 0 < (s.ff f).joinCounter := by
  obtain ⟨chain, sf, young, hstack, hchain, hsf⟩ := exists_oldest_detached hdeque
  have hrun : (s.worker victim).phase = .running := by
    by_contra hno
    have hnil := hs.workers.stackNil victim hno
    rw [hstack] at hnil
    exact List.append_ne_nil_of_right_ne_nil _ (List.cons_ne_nil _ _) hnil
  have hactive := hs.workers.active victim
  rw [hrun] at hactive
  obtain ⟨f, hf⟩ := Option.isSome_iff_exists.mp hactive
  have hsite : site f = .running victim := (hs.placed.running victim f).mp hf
  have hlive : site f ≠ .gone := by
    rw [hsite]
    exact nofun
  refine ⟨f, chain, sf, young, hrun, hf, hsite, hstack, hchain, hsf, ?_⟩
  rw [hs.counted f hlive, hsite, Site.count]
  omega

/-- A thief takes a continuation. -/
theorem randomSteal_quiet {site : FrameId → Site} {r : State M} (hs : Shape s site none)
    (hphase : (s.worker w).phase = .scheduling) (hne : w ≠ victim) (hteam : mayStealFrom s w victim)
    (hdeque : canSteal s victim = true)
    (hsim : ∀ f, site f ≠ .gone → (s.ff f).simulatedStolen = false)
    (h : randomSteal s w victim = .ok r) : Quiet force s r := by
  obtain ⟨f, chain, sf, young, hrun, hf, hsite, hstack, hchain, hsf, hjoin⟩ := hs.exists_spawned hdeque
  have hlive : site f ≠ .gone := by
    rw [hsite]
    exact nofun
  have hidle : (s.worker w).frameFf = none := hs.workers.idle (by rw [hphase]; rfl)
  unfold randomSteal cilkFiberAllocate at h
  obtain ⟨_, htype, h⟩ := bind_eq_ok.mp h
  have htype : (s.worker w).type = .system ∨ (s.worker w).team = some w := by
    simpa using assert_eq_ok.mp htype
  dsimp only at h
  rw [detachForSteal_eq (s := { s with nextFiber := s.nextFiber + 1 }) hne hidle hf hstack hchain hsf (hs.placed.fresh f hlive) hjoin,
    promoteChain_nextFiber] at h
  obtain ⟨_, hnext, h⟩ := bind_eq_ok.mp h
  obtain rfl := pure_eq_ok.mp h
  have hnext : (s.worker w).nextFrameFf = none := Option.isNone_iff_eq_none.mp (assert_eq_ok.mp hnext)
  have hpromoted : Quiet force s _ ∧ _ :=
    promoteChain_quiet chain (sf :: young) hrun hf hstack hchain (hsim f hlive)
  obtain ⟨hmoves, hrun', hteam', hframe, hstack', hsim', hfiber⟩ := hpromoted
  have hother := (promoteChain_spec s victim f chain (sf :: young) (hs.placed.fresh f hlive)
    hjoin).2.2 w hne
  refine hmoves.trans ?_
  rw [← hfiber]
  have hnext' : (((promoteChain s victim f chain (sf :: young)).1).worker w).nextFrameFf = none := by
    rwa [hother]
  refine .single (.steal hne (fun huser => ?_) ?_ ?_ hnext' hrun' hframe hstack' hsf hsim')
    fun v g hg => ?_
  · rw [hteam']
    exact hteam (hother ▸ huser)
  · rwa [hother]
  · rwa [hother]
  · exact keepsGiven_steal (s := { (promoteChain s victim f chain (sf :: young)).1 with
      nextFiber := (promoteChain s victim f chain (sf :: young)).1.nextFiber + 1 }) hnext' v g hg

/-- The thief takes the entry, and joins its team. -/
def takeReady (s : State M) (w victim : WorkerId) (pf : PendingFrame) : State M :=
  (({ s with nextFiber := s.nextFiber + 1 } : State M).modWorker victim
    fun wk => { wk with readyList := wk.readyList.erase pf }).modWorker w
    fun wk => { wk with team := some pf.team }

omit [DecidableEq K] [∀ k, Monoid (M k)] in
theorem takeReady_worker (s : State M) (w victim : WorkerId) (pf : PendingFrame) (u : WorkerId) :
    (takeReady s w victim pf).worker u = { s.worker u with
      team := if u = w then some pf.team else (s.worker u).team
      readyList :=
        if u = victim then (s.worker u).readyList.erase pf else (s.worker u).readyList } := by
  by_cases hu : u = w
  · subst hu
    by_cases hv : u = victim
    · subst hv
      simp [takeReady]
    · simp [takeReady, hv]
  · by_cases hv : u = victim
    · subst hv
      simp [takeReady, hu]
    · simp [takeReady, hu, hv]

omit [DecidableEq K] [∀ k, Monoid (M k)] in
/-- The state in which the frame is given to the thief. -/
theorem readyState_eq (s : State M) (w victim : WorkerId) (pf : PendingFrame) (t : State M)
    (ht : t = (takeReady s w victim pf).modFf pf.frameFf fun ff => { ff with
      fiberSelf := some s.nextFiber
      frame := { ff.frame with stolen := true, detached := true }
      callStack := true }) (t' : State M)
    (ht' : t' = if firstSteal s victim then setSyncMaster { t with
        fiberFor := Function.update t.fiberFor s.nextFiber (t.ff pf.frameFf).parent }
        victim pf.frameFf else { t with
        fiberFor := Function.update t.fiberFor s.nextFiber (t.ff pf.frameFf).parent }) :
    (t'.worker w).nextFrameFf = (s.worker w).nextFrameFf ∧
      readyState s w victim pf = (incjoin t' pf.frameFf).modWorker w
        fun wk => { wk with nextFrameFf := some pf.frameFf } := by
  have hworker : t.worker = (takeReady s w victim pf).worker := by rw [ht, modFf_worker]
  have hff : ∀ g, t.ff g = if g = pf.frameFf then { s.ff g with
      fiberSelf := some s.nextFiber
      frame := { (s.ff g).frame with stolen := true, detached := true }
      callStack := true } else s.ff g := by
    intro g
    rw [ht]
    by_cases hg : g = pf.frameFf
    · subst hg
      simp [takeReady]
    · simp [takeReady, hg]
  have hrest : t.live = s.live ∧ t.nextFrame = s.nextFrame ∧ t.nextFiber = s.nextFiber + 1 ∧
      t.pending = s.pending ∧ t.released = s.released ∧ t.fiberFor = s.fiberFor := by
    rw [ht]
    exact ⟨rfl, rfl, rfl, rfl, rfl, rfl⟩
  obtain ⟨hlive, hnextFrame, hnextFiber, hpending, hreleased, hfiberFor⟩ := hrest
  -- the first steal from a user makes the victim the sync master
  have hworker' : ∀ u, t'.worker u = { t.worker u with
      lastFullFrame := if u = victim ∧ firstSteal s victim then some pf.frameFf
        else (s.worker u).lastFullFrame } := by
    intro u
    have hlast : (t.worker u).lastFullFrame = (s.worker u).lastFullFrame := by
      rw [hworker, takeReady_worker]
    rw [ht']
    split
    · rename_i hfirst
      by_cases hu : u = victim
      · subst hu
        simp [setSyncMaster, hfirst]
      · simp [setSyncMaster, hu, ← hlast]
    · rename_i hfirst
      simp [hfirst, ← hlast]
  have hff' : ∀ g, t'.ff g = if g = pf.frameFf ∧ firstSteal s victim then
      { t.ff g with syncMaster := some victim } else t.ff g := by
    intro g
    rw [ht']
    split
    · rename_i hfirst
      by_cases hg : g = pf.frameFf
      · subst hg
        simp [setSyncMaster, hfirst]
      · simp [setSyncMaster, hg]
    · rename_i hfirst
      simp [hfirst]
  have hrest' : t'.live = t.live ∧ t'.nextFrame = t.nextFrame ∧ t'.nextFiber = t.nextFiber ∧
      t'.pending = t.pending ∧ t'.released = t.released ∧
      t'.fiberFor = Function.update t.fiberFor s.nextFiber (t.ff pf.frameFf).parent := by
    rw [ht']
    split <;> exact ⟨rfl, rfl, rfl, rfl, rfl, rfl⟩
  obtain ⟨hlive', hnextFrame', hnextFiber', hpending', hreleased', hfiberFor'⟩ := hrest'
  constructor
  · rw [hworker', hworker, takeReady_worker]
  · refine State.ext_of (fun u => ?_) (fun g => ?_) (fun _ => ?_) ?_ ?_ ?_ ?_ fun x => ?_
    · by_cases hu : u = w
      · subst hu
        simp [readyState, incjoin, hworker', hworker, takeReady_worker]
      · simp [readyState, incjoin, hworker', hworker, takeReady_worker, hu]
    · by_cases hg : g = pf.frameFf
      · subst hg
        by_cases hfirst : firstSteal s victim = true
        · simp [readyState, incjoin, hff', hff, hfirst]
        · simp [readyState, incjoin, hff', hff, hfirst]
      · simp [readyState, incjoin, hff', hff, hg]
    · exact (congrFun (hlive'.trans hlive) _).symm
    · exact (hnextFrame'.trans hnextFrame).symm
    · exact (hnextFiber'.trans hnextFiber).symm
    · exact (hpending'.trans hpending).symm
    · exact (hreleased'.trans hreleased).symm
    · have hparent : (t.ff pf.frameFf).parent = (s.ff pf.frameFf).parent := by
        rw [hff, if_pos rfl]
      show (if x = s.nextFiber then _ else _) = t'.fiberFor x
      rw [hfiberFor', hfiberFor, hparent, Function.update_apply]

/-- A thief takes a frame from a ready list. -/
theorem readyListSteal_quiet {r : State M} (hphase : (s.worker w).phase = .scheduling)
    (hteam : w ≠ victim → mayStealFrom s w victim) (hpf : pf ∈ (s.worker victim).readyList)
    (h : readyListSteal s w victim pf = .ok r) : Quiet force s r := by
  unfold readyListSteal cilkFiberAllocate at h
  obtain ⟨_, htype, h⟩ := bind_eq_ok.mp h
  have htype : (s.worker w).type = .system ∨ (s.worker w).team = some w := by
    simpa using assert_eq_ok.mp htype
  dsimp only at h
  unfold stealFromReadyList makeChildFromPending pushNextFrame at h
  obtain ⟨_, -, h⟩ := bind_eq_ok.mp h
  obtain ⟨u, hu, h⟩ := bind_eq_ok.mp h
  obtain ⟨_, -, hu⟩ := bind_eq_ok.mp hu
  obtain rfl := pure_eq_ok.mp hu
  obtain ⟨_, hnext, h⟩ := bind_eq_ok.mp h
  obtain rfl := pure_eq_ok.mp h
  have hnext := Option.isNone_iff_eq_none.mp (assert_eq_ok.mp hnext)
  have hfirst : (((takeReady s w victim pf).worker victim).type = .user ∧
      ((takeReady s w victim pf).worker victim).lastFullFrame = none) ↔
      firstSteal s victim = true := by
    rw [takeReady_worker, firstSteal, decide_eq_true_iff]
  obtain ⟨hkept, heq⟩ := readyState_eq s w victim pf _ rfl _ rfl
  have hnext : (s.worker w).nextFrameFf = none := by
    rw [← hkept]
    simp only [← hfirst]
    exact hnext
  refine .of_eq ?_ (.single (.readySteal hteam htype hphase hnext hpf) (keepsGiven_ready hnext))
  rw [heq]
  simp only [← hfirst]
  rfl

end Stealing

-- ---------------------------------------------------------------------------
-- Steps
-- ---------------------------------------------------------------------------

section Steps

variable {g : Settings} {s r : State M} {e : Event M} {site : FrameId → Site} {w : WorkerId}
  {f d p : FrameId} {sf : StackFrame M}

omit [DecidableEq K] [∀ k, Monoid (M k)] in
/-- A frame is not its own left sibling. -/
theorem leftSibling_ne {l : List FrameId} (hl : l.Nodup) {a d : FrameId}
    (h : leftSibling l d = some a) : a ≠ d := by
  induction l with
  | nil => exact nomatch h
  | cons b l ih =>
    cases l with
    | nil => exact nomatch h
    | cons c l =>
      rw [leftSibling] at h
      split at h
      · rename_i hcd
        rintro rfl
        obtain rfl := Option.some.inj h
        exact (List.nodup_cons.mp hl).1 (hcd ▸ List.mem_cons_self)
      · exact ih (List.nodup_cons.mp hl).2 h

omit [DecidableEq K] [∀ k, Monoid (M k)] in
/-- The map to the left of a child is not the one to its right. -/
theorem rightMap_ne_leftSlot (hs : Shape s site none) (hp : site p ≠ .gone) :
    MapSlot.rightMap d ≠ leftSlotForSpawnReturn s p d := by
  unfold leftSlotForSpawnReturn
  split
  · rename_i a ha
    intro h
    exact leftSibling_ne (hs.siblings.nodup p hp) ha (MapSlot.rightMap.inj h).symm
  · exact nofun

omit [DecidableEq K] [∀ k, Monoid (M k)] in
/-- What a worker executes, when it has no stack frames. -/
theorem current_eq (hstack : (s.worker w).stack = []) (hf : (s.worker w).frameFf = some f)
    (h : s.current w = some sf) : (s.ff f).frame = sf := by
  unfold State.current at h
  rw [hstack, hf] at h
  exact Option.some.inj h

omit [DecidableEq K] [∀ k, Monoid (M k)] in
/-- The counter of a frame with an owner or a child is not 0. -/
theorem Shape.counter_pos_of_running (hs : Shape s site none) (hf : site f = .running w) :
    0 < (s.ff f).joinCounter := by
  have hlive : site f ≠ .gone := by
    rw [hf]
    exact nofun
  rw [hs.counted f hlive, hf, Site.count]
  omega

omit [DecidableEq K] [∀ k, Monoid (M k)] in
theorem Shape.counter_pos_of_parent (hs : Shape s site none) (hd : site d ≠ .gone)
    (hp : (s.ff d).parent = some p) : 0 < (s.ff p).joinCounter := by
  have hcard : 0 < (s.kids p).card := Finset.card_pos.mpr ⟨d, hs.placed.mem_kids.mpr ⟨hd, hp⟩⟩
  rw [hs.counted p (hs.linked.parent d p hd hp).1]
  omega

omit [DecidableEq K] [∀ k, Monoid (M k)] in
theorem keepsGiven_modWorker {h : Worker M → Worker M}
    (hnext : (h (s.worker w)).nextFrameFf = (s.worker w).nextFrameFf) :
    KeepsGiven s (s.modWorker w h) :=
  .of_ite (fun _ => by rw [modWorker_worker, Function.update_apply]) hnext

omit [DecidableEq K] [∀ k, Monoid (M k)] in
theorem keepsGiven_modCurrent {t : State M} {h : StackFrame M → StackFrame M}
    (hkept : KeepsGiven s t) : KeepsGiven s (t.modCurrent w h) := by
  refine hkept.trans ?_
  unfold State.modCurrent
  split
  · exact keepsGiven_modWorker rfl
  · split
    · exact .refl
    · exact .refl

omit [DecidableEq K] [∀ k, Monoid (M k)] in
theorem keepsGiven_makeReady {pf : PendingFrame} : KeepsGiven s (makeReady s w pf) := by
  rw [makeReady_closed]
  exact .of_ite (fun _ => rfl) rfl

omit [DecidableEq K] in
theorem keepsGiven_bind {u : WorkerId} {code : Code M} {init : ∀ k, M k} :
    KeepsGiven s (bindThread s u code init) := by
  rw [bindThread_closed]
  exact .of_ite (fun _ => rfl) rfl

/-- Returning from a frame. -/
theorem leaveFrame_quiet {force : Bool} (hs : Shape s site none) (hex : Executing s w sf)
    (hcode : sf.code = .ret) (hsync : sf.unsynched = false) (h : leaveFrame s w sf = .ok r) :
    Quiet force s r := by
  unfold leaveFrame at h
  split at h
  · rename_i hempty
    have hstack := List.isEmpty_iff.mp hempty
    have hactive := hs.workers.active w
    rw [hex.1] at hactive
    obtain ⟨f, hf⟩ := Option.isSome_iff_exists.mp hactive
    have hsite : site f = .running w := (hs.placed.running w f).mp hf
    have hlive : site f ≠ .gone := by
      rw [hsite]
      exact nofun
    have hframe : (s.ff f).frame = sf := current_eq hstack hf hex.2
    rw [← hframe] at hcode hsync h
    split at h
    · rename_i hdet
      obtain ⟨p, hp⟩ := Option.isSome_iff_exists.mp (hs.linked.detached f hlive hdet).2
      obtain ⟨hplive, hlt⟩ := hs.linked.parent f p hlive hp
      exact executeReductionsForSpawnReturn_quiet hex.1 hstack hf hp (Nat.ne_of_lt hlt) hdet hcode
        hsync (rightMap_ne_leftSlot hs hplive) h
    · split at h
      · rename_i hlast
        exact cReturnFromInitial_quiet hex.1 hstack hf hlast hcode hsync h
      · exact cilkrtsReturn_quiet hex.1 hstack hf hcode hsync h
  · rename_i hempty
    obtain rfl := pure_eq_ok.mp h
    exact .single (.exit hex hcode fun hstack => hempty (List.isEmpty_iff.mpr hstack))
      (keepsGiven_modWorker rfl)

/-- Every step that does not simulate a steal is a sequence of moves. -/
theorem Step.strides (hs : Shape s site none) (hforce : g.forceReduce = false)
    (hsim : ∀ f, site f ≠ .gone → (s.ff f).simulatedStolen = false)
    (h : Step g s e (.ok r)) : Strides g.P g.forceReduce s r := by
  have hlive : ∀ {w f}, (s.worker w).frameFf = some f → site f ≠ .gone := by
    intro w f hf
    rw [(hs.placed.running w f).mp hf]
    exact nofun
  have hcurrent : ∀ {w sf}, Executing s w sf → ∀ f, (s.worker w).stack = [] →
      (s.worker w).frameFf = some f → (s.ff f).frame = sf := fun hex f hstack hf =>
    current_eq hstack hf hex.2
  generalize hx : (.ok r : Checked (State M)) = x at h
  cases h with
  | bind hfree =>
    obtain rfl := Except.ok.inj hx
    exact .quiet (.single (.bind hfree) keepsGiven_bind)
  | update hex hcode _ =>
    obtain rfl := Except.ok.inj hx
    exact .quiet (.single (.update hex hcode) (keepsGiven_modCurrent (keepsGiven_modWorker rfl)))
  | call hex hcode =>
    obtain rfl := Except.ok.inj hx
    exact .quiet (.single (.enter hex (by rw [hcode]; rfl))
      ((keepsGiven_modCurrent .refl).trans (keepsGiven_modWorker rfl)))
  | spawn hex hcode =>
    obtain rfl := Except.ok.inj hx
    exact .quiet (.single (.enter hex (by rw [hcode]; rfl))
      ((keepsGiven_modCurrent .refl).trans (keepsGiven_modWorker rfl)))
  | detachPending hex hcode hstack hf =>
    obtain rfl := Except.ok.inj hx
    exact .quiet (.single (.detachPending hex hcode hstack hf (hsim _ (hlive hf)))
      (keepsGiven_modCurrent .refl))
  | makeReady hrun hpf =>
    obtain rfl := Except.ok.inj hx
    exact .quiet (.single (.makeReady hrun hpf) keepsGiven_makeReady)
  | syncNothing hex hcode hsync =>
    obtain rfl := Except.ok.inj hx
    exact .quiet (.single (.skip hex hcode hsync) (keepsGiven_modCurrent .refl))
  -- a sync, also the one of a return, happens in the frame itself
  | sync hex hcode hsync =>
    refine .quiet (cSync_quiet hex.1 (fun f hstack hf => ?_) hx.symm)
    rw [hcurrent hex f hstack hf]
    exact ⟨hsync, .inl hcode⟩
  | retSync hex hcode hsync =>
    refine .quiet (cSync_quiet hex.1 (fun f hstack hf => ?_) hx.symm)
    rw [hcurrent hex f hstack hf]
    exact ⟨hsync, .inr ⟨hcode, rfl⟩⟩
  | ret hex hcode hsync => exact .quiet (leaveFrame_quiet hs hex hcode hsync hx.symm)
  | @reducedSpawn w _ _ _ hphase =>
    refine .quiet (reduceForSpawnReturn_quiet hphase
      (hs.workers.mapless w (by rw [hphase]; rfl)) (fun d p hd hp => ?_) hx.symm)
    obtain ⟨hplive, hlt⟩ := hs.linked.parent d p (hlive hd) hp
    exact ⟨Nat.ne_of_lt hlt, rightMap_ne_leftSlot hs hplive⟩
  | reducedSync hphase => exact .quiet (reduceForSync_quiet hphase hx.symm)
  -- the counters of the frames that are left are positive
  | @spawnReturned w hphase =>
    have hactive := hs.workers.active w
    rw [hphase] at hactive
    obtain ⟨d, hd⟩ := Option.isSome_iff_exists.mp hactive
    have hsite : site d = .running w := (hs.placed.running w d).mp hd
    obtain ⟨hdet, -⟩ := hs.linked.leaving w d hsite (by rw [hphase]; rfl)
    obtain ⟨p, hp⟩ := Option.isSome_iff_exists.mp (hs.linked.detached d (hlive hd) hdet).2
    obtain ⟨hplive, hlt⟩ := hs.linked.parent d p (hlive hd) hp
    exact doReturnFromSpawn_strides hphase hd hp (Nat.ne_of_lt hlt) (hsim p hplive)
      (hs.counter_pos_of_running hsite) (hs.counter_pos_of_parent (hlive hd) hp) hx.symm
  | @synching w hphase =>
    have hactive := hs.workers.active w
    rw [hphase] at hactive
    obtain ⟨f, hf⟩ := Option.isSome_iff_exists.mp hactive
    have hsite : site f = .running w := (hs.placed.running w f).mp hf
    exact doSync_strides hphase hf (hs.counter_pos_of_running hsite) hx.symm
  | @callReturned w d hphase =>
    have hsite : site d = .carried w := (hs.placed.carried w d).mp hphase
    have hdlive : site d ≠ .gone := by
      rw [hsite]
      exact nofun
    exact .quiet (finishCilkrtsReturn_quiet hphase
      (fun p hp => Nat.ne_of_lt (hs.linked.parent d p hdlive hp).2)
      (fun p hp => hs.counter_pos_of_parent hdlive hp) hx.symm)
  | resume hphase _ => exact resumeNextFrame_strides hphase hx.symm
  | loseTeam hphase htype hready =>
    obtain rfl := Except.ok.inj hx
    exact .quiet (.single (.loseTeam hphase htype hready) (keepsGiven_modWorker rfl))
  | steal hphase hne hteam hdeque =>
    exact .quiet (randomSteal_quiet hs hphase hne hteam hdeque hsim hx.symm)
  | stealOwnReady hphase hpf =>
    exact .quiet (readyListSteal_quiet hphase (fun hne => absurd rfl hne) hpf hx.symm)
  | stealReady hphase hne hteam hpf =>
    exact .quiet (readyListSteal_quiet hphase (fun _ => hteam) hpf hx.symm)
  | promote hforce' => exact nomatch hforce.symm.trans hforce'

end Steps

end SwanRuntime.Runtime
