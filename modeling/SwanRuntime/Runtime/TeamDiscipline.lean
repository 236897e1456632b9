import Mathlib.Algebra.Ring.PUnit
import SwanRuntime.Runtime.Machine

/-!
# The runtime — user workers stay on their own team

A user worker is the leader of its team and must never join another one. The
thief's guard looks at the team of the *victim*, while a frame that is taken from
a ready list brings its own team with it: the two differ when tasks of several
teams access the same object.

The discipline holds as long as frames are put on ready lists of workers of
their own team, and nobody changes teams while frames are left on its list.

## Results

* `step_keepsTeams`        — what an event does to teams and ready lists.
* `teamDiscipline_iff`     — a run keeps the discipline iff user workers take
  only frames of their own team from ready lists.
* `teamDiscipline_of_lists` — they take no others while ready lists hold frames
  of one team.
-/

namespace SwanRuntime.Runtime

open Reducers Checked

variable {K : Type} [DecidableEq K] {M : K → Type} [∀ k, Monoid (M k)]

-- ---------------------------------------------------------------------------
-- The property
-- ---------------------------------------------------------------------------

/-- Every user worker is on its own team. -/
def TeamDiscipline (s : State M) : Prop :=
  ∀ u, (s.worker u).type = .user → (s.worker u).team = some u

/-- The step does not make a user worker take a frame of another team from a
ready list. -/
def TakesOwnTeam (s : State M) : Event M → Prop
  | .stealReady w _ pf => (s.worker w).type = .user → pf.team = w
  | _ => True

/-- A frame is put on the ready list of a worker of its own team, and a worker
that joins a team leaves only frames of that team on its list. -/
def ListsOfOneTeam (s : State M) : Event M → Prop
  | .bind u _ _ => ∀ pf ∈ (s.worker u).readyList, pf.team = u
  | .makeReady w pf => (s.worker w).team = some pf.team
  | .steal w victim =>
    ∀ pf ∈ (s.worker w).readyList, (s.worker victim).team = some pf.team
  | .stealReady w _ pf => ∀ pf' ∈ (s.worker w).readyList, pf'.team = pf.team
  | _ => True

/-- The worker keeps its team and its ready list. Its thread may be unbound. -/
structure Worker.OnSameTeam (wk wk' : Worker M) : Prop where
  type      : wk'.type = wk.type ∨ wk.type = .user ∧ wk'.type = .free
  team      : wk'.team = wk.team
  readyList : wk'.readyList = wk.readyList

/-- All workers keep their teams and their ready lists. -/
def KeepsTeams (s t : State M) : Prop := ∀ u, (s.worker u).OnSameTeam (t.worker u)

/-- What an event does to the types and the teams of the workers, and to their
ready lists. -/
def State.reteam (s : State M) : Event M → State M
  | .bind u _ _ => s.modWorker u fun wk => { wk with type := .user, team := some u }
  | .makeReady w pf => s.modWorker w fun wk => { wk with readyList := wk.readyList ++ [pf] }
  | .loseTeam w => s.modWorker w fun wk => { wk with team := none }
  | .steal w victim => s.modWorker w fun wk => { wk with team := (s.worker victim).team }
  | .stealReady w victim pf =>
    (s.modWorker victim fun wk => { wk with readyList := wk.readyList.erase pf }).modWorker w
      fun wk => { wk with team := some pf.team }
  | _ => s

omit [DecidableEq K] [∀ k, Monoid (M k)] in
theorem KeepsTeams.refl (s : State M) : KeepsTeams s s := fun _ => ⟨.inl rfl, rfl, rfl⟩

omit [DecidableEq K] [∀ k, Monoid (M k)] in
theorem KeepsTeams.trans {s t r : State M} (h : KeepsTeams s t) (h' : KeepsTeams t r) :
    KeepsTeams s r := by
  intro u
  obtain ⟨htype, hteam, hlist⟩ := h u
  obtain ⟨htype', hteam', hlist'⟩ := h' u
  refine ⟨?_, hteam'.trans hteam, hlist'.trans hlist⟩
  rcases htype' with htype' | ⟨huser, hfree⟩
  · rw [htype']
    exact htype
  · rcases htype with htype | ⟨-, hfree'⟩
    · exact .inr ⟨htype ▸ huser, hfree⟩
    · rw [hfree'] at huser
      cases huser

omit [DecidableEq K] [∀ k, Monoid (M k)] in
theorem KeepsTeams.discipline {s t : State M} (h : KeepsTeams s t) (hs : TeamDiscipline s) :
    TeamDiscipline t := by
  intro u hu
  obtain ⟨htype | ⟨-, hfree⟩, hteam, -⟩ := h u
  · rw [hteam]
    exact hs u (htype ▸ hu)
  · rw [hfree] at hu
    cases hu

-- ---------------------------------------------------------------------------
-- Access
-- ---------------------------------------------------------------------------

section Access

omit [DecidableEq K] [∀ k, Monoid (M k)]

variable {s t : State M}

/-- Changes elsewhere keep teams. -/
theorem KeepsTeams.of_worker (h : t.worker = s.worker) : KeepsTeams s t := by
  intro u
  rw [h]
  exact ⟨.inl rfl, rfl, rfl⟩

theorem KeepsTeams.modFf (h : KeepsTeams s t) (f : FrameId) (g : FullFrame M → FullFrame M) :
    KeepsTeams s (t.modFf f g) := h.trans (.of_worker rfl)

/-- A change of one worker keeps teams if that worker does. -/
theorem KeepsTeams.modWorker (h : KeepsTeams s t) (w : WorkerId) {g : Worker M → Worker M}
    (hg : (t.worker w).OnSameTeam (g (t.worker w))) : KeepsTeams s (t.modWorker w g) := by
  refine h.trans fun u => ?_
  by_cases huw : u = w
  · subst huw
    rw [modWorker_worker_self]
    exact hg
  · rw [modWorker_worker_ne _ _ huw]
    exact ⟨.inl rfl, rfl, rfl⟩

theorem KeepsTeams.modFrame (h : KeepsTeams s t) (f : FrameId)
    (g : StackFrame M → StackFrame M) : KeepsTeams s (t.modFrame f g) := h.modFf _ _

theorem KeepsTeams.modCurrent (h : KeepsTeams s t) (w : WorkerId)
    (g : StackFrame M → StackFrame M) : KeepsTeams s (t.modCurrent w g) := by
  unfold State.modCurrent
  split
  · exact h.modWorker w ⟨.inl rfl, rfl, rfl⟩
  · split
    · exact h.modFrame _ _
    · exact h

theorem KeepsTeams.setSlot (h : KeepsTeams s t) (m : Option (ReducerMap M)) (slot : MapSlot) :
    KeepsTeams s (t.setSlot m slot) := by
  cases slot <;> exact h.trans (.of_worker rfl)

theorem KeepsTeams.releaseFiber (h : KeepsTeams s t) (x : Option FiberId) :
    KeepsTeams s (releaseFiber t x) := by
  cases x
  · exact h
  · exact h.trans (.of_worker rfl)

end Access

-- ---------------------------------------------------------------------------
-- The functions of the runtime
-- ---------------------------------------------------------------------------

section Functions

omit [DecidableEq K] [∀ k, Monoid (M k)]

variable {s t : State M} {w : WorkerId}

theorem decjoin_keepsTeams (h : KeepsTeams s t) (f : FrameId) :
    Ensures (decjoin t f) fun r => KeepsTeams s r.2 :=
  .assert_bind fun _ => .pure (h.trans (.of_worker rfl))

theorem pushNextFrame_keepsTeams (h : KeepsTeams s t) (w : WorkerId) (f : FrameId) :
    Ensures (pushNextFrame t w f) (KeepsTeams s) :=
  .assert_bind fun _ => .pure ((h.modFf _ _).modWorker _ ⟨.inl rfl, rfl, rfl⟩)

theorem unsetSyncMaster_keepsTeams (h : KeepsTeams s t) (w : WorkerId) (f : FrameId) :
    Ensures (unsetSyncMaster t w f) (KeepsTeams s) :=
  .assert_bind fun _ => .assert_bind fun _ =>
    .pure ((h.modFf _ _).modWorker _ ⟨.inl rfl, rfl, rfl⟩)

theorem setSyncMaster_keepsTeams (h : KeepsTeams s t) (w : WorkerId) (f : FrameId) :
    KeepsTeams s (setSyncMaster t w f) :=
  (h.modWorker _ ⟨.inl rfl, rfl, rfl⟩).modFf _ _

theorem provablyGoodSteal_keepsTeams (h : KeepsTeams s t) (w : WorkerId) (f : FrameId) :
    Ensures (provablyGoodSteal t w f) (KeepsTeams s) := by
  refine (decjoin_keepsTeams h f).bind fun ⟨n, t₁⟩ h₁ => .ite (fun _ => ?_) fun _ => .pure h₁
  refine Ensures.bind (P := KeepsTeams s)
    (.assert_bind fun _ => .pure (h₁.modFf _ _)) fun t₂ h₂ => .ite (fun _ => ?_) fun _ => ?_
  · split
    · exact .throw
    · exact (unsetSyncMaster_keepsTeams (h₂.modFf _ _) _ f).bind fun t₃ h₃ =>
        pushNextFrame_keepsTeams h₃ _ f
  · exact pushNextFrame_keepsTeams (h₂.modFf _ _) w f

theorem unconditionalSteal_keepsTeams (h : KeepsTeams s t) (w : WorkerId) (f : FrameId) :
    Ensures (unconditionalSteal t w f) (KeepsTeams s) :=
  (decjoin_keepsTeams h f).bind fun _ h₁ => pushNextFrame_keepsTeams h₁ w f

theorem popNextFrame_keepsTeams (h : KeepsTeams s t) (w : WorkerId) :
    KeepsTeams s (popNextFrame t w).2 := by
  dsimp only [popNextFrame]
  exact h.modWorker w ⟨.inl rfl, rfl, rfl⟩

theorem setupForExecution_keepsTeams (h : KeepsTeams s t) (w : WorkerId) (f : FrameId) :
    Ensures (setupForExecution t w f) (KeepsTeams s) := by
  refine Ensures.bind (P := KeepsTeams s) ?_ fun t₁ h₁ => .pure
    (((h₁.modWorker _ ⟨.inl rfl, rfl, rfl⟩).modWorker _ ⟨.inl rfl, rfl, rfl⟩).modFf _ _)
  unfold setupForExecutionReducers
  refine .ite (fun _ => .pure h) fun _ => .assert_bind fun _ => ?_
  split
  · exact .pure h
  · exact .assert_bind fun _ => .pure ((h.modWorker _ ⟨.inl rfl, rfl, rfl⟩).modFf _ _)

theorem destroyFullFrame_keepsTeams (h : KeepsTeams s t) (f : FrameId) :
    Ensures (destroyFullFrame t f) (KeepsTeams s) :=
  .assert_bind fun _ => .assert_bind fun _ => .pure (h.trans (.of_worker rfl))

theorem finalizeChildForCall_keepsTeams (h : KeepsTeams s t) (w : WorkerId)
    (parent child : FrameId) :
    Ensures (finalizeChildForCall t w parent child) (KeepsTeams s) := by
  refine .assert_bind fun _ => .assert_bind fun _ => .assert_bind fun _ => .assert_bind fun _ =>
    .assert_bind fun _ => .assert_bind fun _ => ?_
  refine Ensures.bind (P := KeepsTeams s)
    (.assert_bind fun _ => .assert_bind fun _ => .assert_bind fun _ =>
      .pure ((h.modFf _ _).modFf _ _)) fun t₁ h₁ => ?_
  exact (unconditionalSteal_keepsTeams (h₁.modFf _ _) w parent).bind fun t₂ h₂ =>
    destroyFullFrame_keepsTeams h₂ child

theorem finishSpawnReturn_keepsTeams (h : KeepsTeams s t) (w : WorkerId)
    (parent child : FrameId) :
    Ensures (finishSpawnReturnOnUserStack t w parent child) (KeepsTeams s) := by
  refine .assert_bind fun _ => .ite (fun _ => ?_) fun _ => ?_
  · exact .assert_bind fun _ =>
      .pure (((h.modWorker _ ⟨.inl rfl, rfl, rfl⟩).modFf _ _).modFf _ _)
  · exact .pure ((((h.modFf _ _).modWorker _ ⟨.inl rfl, rfl, rfl⟩).modFf _ _).modFf _ _)

theorem makeChild_keepsTeams (h : KeepsTeams s t) (parent : FrameId) (sf : StackFrame M)
    (callStack : Bool) (fiber : FiberArg) :
    Ensures (makeChild t parent sf callStack fiber) fun r => KeepsTeams s r.2 :=
  .assert_bind fun _ => .pure (h.trans (.of_worker rfl))

theorem unrollCallStack_keepsTeams (h : KeepsTeams s t) (f : FrameId)
    (chain : List (StackFrame M)) :
    Ensures (unrollCallStack t f chain) fun r => KeepsTeams s r.2 := by
  induction chain generalizing t f with
  | nil =>
    unfold unrollCallStack
    exact .pure (h.trans (.of_worker rfl))
  | cons sf chain ih =>
    unfold unrollCallStack
    exact (makeChild_keepsTeams (h.modFf _ _) f sf true .null).bind fun r hr => ih hr r.1

theorem noteSteal_keepsTeams (h : KeepsTeams s t) (loot : FrameId) (fiber : FiberArg) :
    KeepsTeams s (noteSteal t loot fiber) := by
  unfold noteSteal
  extract_lets t₁
  have h₁ : KeepsTeams s t₁ := h.modFf _ _
  split
  · exact h₁.trans (.of_worker rfl)
  · exact h₁

theorem takeLoot_keepsTeams (h : KeepsTeams s t) (w victim : WorkerId) (loot : FrameId)
    (sf : StackFrame M) (young : List (StackFrame M)) (fiber : FiberArg) :
    Ensures (takeLoot t w victim loot sf young fiber) (KeepsTeams s) := by
  unfold takeLoot
  extract_lets t₁ t₂
  have h₁ : KeepsTeams s t₁ := h.modFrame _ _
  have h₂ : KeepsTeams s t₂ := by
    unfold t₂
    split
    · exact setSyncMaster_keepsTeams h₁ _ _
    · exact h₁
  have hrun : ∀ r : FrameId × State M, KeepsTeams s r.2 →
      KeepsTeams s (makeRunnable ((incjoin r.2 r.1).modWorker victim fun wk =>
        { wk with stack := young }) victim r.1) := fun r hr =>
    (((hr.modFf _ _).modWorker _ ⟨.inl rfl, rfl, rfl⟩).modWorker _
      ⟨.inl rfl, rfl, rfl⟩).modFf _ _
  refine .ite (fun _ => ?_) fun _ => (pushNextFrame_keepsTeams h₂ w loot).bind fun t₃ h₃ => ?_
  · exact (makeChild_keepsTeams (noteSteal_keepsTeams (h₂.modFf _ _) loot fiber) loot _ false
      fiber).bind fun r hr => .pure (hrun r hr)
  · exact (makeChild_keepsTeams (noteSteal_keepsTeams h₃ loot fiber) loot _ false fiber).bind
      fun r hr => .pure (hrun r hr)

/-- A thief joins the team of its victim. -/
theorem detachForSteal_keepsTeams {victim : WorkerId} {fiber : FiberArg}
    (h : KeepsTeams s (t.modWorker w fun wk => { wk with team := (t.worker victim).team })) :
    Ensures (detachForSteal t w victim fiber) (KeepsTeams s) := by
  refine .assert_bind fun _ => ?_
  extract_lets stack
  split
  · exact (decjoin_keepsTeams h _).bind fun ⟨_, t₂⟩ h₂ =>
      (unrollCallStack_keepsTeams h₂ _ _).bind fun ⟨loot, t₃⟩ h₃ =>
        takeLoot_keepsTeams h₃ w victim loot _ _ fiber
  · exact .throw

/-- A thief joins the team of the frame that it takes from a ready list. -/
theorem stealFromReadyList_keepsTeams {victim : WorkerId} {pf : PendingFrame} {fiber : FiberId}
    (h : KeepsTeams s ((t.modWorker victim fun wk =>
      { wk with readyList := wk.readyList.erase pf }).modWorker w fun wk =>
        { wk with team := some pf.team })) :
    Ensures (stealFromReadyList t w victim pf fiber) (KeepsTeams s) := by
  refine .assert_bind fun _ => ?_
  refine Ensures.bind (P := KeepsTeams s) (.assert_bind fun _ => .pure (h.modFf _ _))
    fun t₂ h₂ => pushNextFrame_keepsTeams ?_ w _
  have h₃ := h₂.trans (KeepsTeams.of_worker (s := t₂) (t := { t₂ with
    fiberFor := Function.update t₂.fiberFor fiber (t₂.ff pf.frameFf).parent }) rfl)
  split
  · exact setSyncMaster_keepsTeams h₃ _ _
  · exact h₃

theorem slowPathSpawnReturn_keepsTeams (h : KeepsTeams s t) (w : WorkerId)
    (parent child : FrameId) :
    Ensures (slowPathReductionsForSpawnReturn t w parent child) (KeepsTeams s) := by
  unfold slowPathReductionsForSpawnReturn
  extract_lets slot t₁ t₂ phase t₃ t₄
  have h₁ : KeepsTeams s t₁ := by
    unfold t₁
    split
    · exact (h.setSlot _ _).modWorker _ ⟨.inl rfl, rfl, rfl⟩
    · exact h
  have h₂ : KeepsTeams s t₂ := by
    unfold t₂
    split
    · exact (h₁.modWorker _ ⟨.inl rfl, rfl, rfl⟩).modFf _ _
    · exact h₁
  refine .ite (fun _ => ?_) fun _ => ?_
  · exact (finishSpawnReturn_keepsTeams h₂ w parent child).bind fun r hr =>
      .pure (hr.modWorker _ ⟨.inl rfl, rfl, rfl⟩)
  · exact .pure (((h₂.setSlot _ _).modWorker _ ⟨.inl rfl, rfl, rfl⟩).modFf _ _)

theorem executeReductions_keepsTeams (h : KeepsTeams s t) (w : WorkerId) :
    Ensures (executeReductionsForSpawnReturn t w) (KeepsTeams s) := by
  unfold executeReductionsForSpawnReturn
  split
  · exact .throw
  · split
    · exact .throw
    · split
      · rename_i r hr
        have hr : KeepsTeams s r := by
          dsimp only [fastPathReductionsForSpawnReturn] at hr
          split at hr
          · exact Option.some.inj hr ▸ h
          · exact Option.some.inj hr ▸ (h.setSlot _ _).modWorker _ ⟨.inl rfl, rfl, rfl⟩
          · exact Option.some.inj hr ▸ (h.setSlot _ _).modFf _ _
          · cases hr
        exact (finishSpawnReturn_keepsTeams hr w _ _).bind fun r' hr' =>
          .pure (hr'.modWorker _ ⟨.inl rfl, rfl, rfl⟩)
      · exact slowPathSpawnReturn_keepsTeams h w _ _

theorem finishReductionsForSync_keepsTeams (h : KeepsTeams s t) (w : WorkerId) (f : FrameId) :
    KeepsTeams s (finishReductionsForSync t w f) := by
  dsimp only [finishReductionsForSync]
  exact ((h.modFf _ _).modWorker _ ⟨.inl rfl, rfl, rfl⟩).modFf _ _

theorem slowPathSync_keepsTeams (h : KeepsTeams s t) (w : WorkerId) (f : FrameId)
    (middle : Option (ReducerMap M)) :
    KeepsTeams s (slowPathReductionsForSync t w f middle) := by
  unfold slowPathReductionsForSync
  extract_lets slot
  split
  · exact finishReductionsForSync_keepsTeams (h.setSlot _ _) w f
  · exact finishReductionsForSync_keepsTeams h w f
  · exact (h.setSlot _ _).modWorker _ ⟨.inl rfl, rfl, rfl⟩

theorem cSync_keepsTeams (h : KeepsTeams s t) (w : WorkerId) (rest : Code M) :
    Ensures (cSync t w rest) (KeepsTeams s) := by
  refine .assert_bind fun _ => ?_
  split
  · exact .throw
  · have h₁ := h.modFrame (by assumption) fun sf => { sf with code := rest }
    extract_lets t₁
    split
    · exact .pure (finishReductionsForSync_keepsTeams h₁ w _)
    · exact .pure (slowPathSync_keepsTeams (h₁.modWorker _ ⟨.inl rfl, rfl, rfl⟩) w _ _)

theorem doReturnFromSpawn_keepsTeams (h : KeepsTeams s t) (w : WorkerId) (f : FrameId) :
    Ensures (doReturnFromSpawn t w f) (KeepsTeams s) := by
  refine .assert_bind fun _ => ?_
  split
  · exact .throw
  · refine (decjoin_keepsTeams h f).bind fun ⟨_, t₁⟩ h₁ => .ite (fun _ => ?_) fun _ => ?_
    · exact (unconditionalSteal_keepsTeams h₁ w _).bind fun t₂ h₂ =>
        destroyFullFrame_keepsTeams h₂ f
    · exact (provablyGoodSteal_keepsTeams h₁ w _).bind fun t₂ h₂ =>
        destroyFullFrame_keepsTeams h₂ f

theorem schedulingStackFcn_keepsTeams (fcn : SchedulingStackFcn) (h : KeepsTeams s t)
    (w : WorkerId) (f : FrameId) : Ensures (fcn.call t w f) (KeepsTeams s) := by
  cases fcn
  · exact doReturnFromSpawn_keepsTeams h w f
  · exact .assert_bind fun _ => .assert_bind fun _ => provablyGoodSteal_keepsTeams h w f

theorem longjmpIntoRuntime_keepsTeams (P : Nat) (s : State M) (w : WorkerId)
    (fcn : SchedulingStackFcn) :
    Ensures (longjmpIntoRuntime P s w fcn) (KeepsTeams s) := by
  unfold longjmpIntoRuntime
  split
  · exact .throw
  · refine .ite (fun _ => ?_) fun _ => ?_
    · refine (schedulingStackFcn_keepsTeams fcn (.refl s) w _).bind fun t₁ h₁ => ?_
      extract_lets t₂
      have h₂ : KeepsTeams s t₂ := by
        unfold t₂
        split
        · exact h₁.modWorker _ ⟨.inl rfl, rfl, rfl⟩
        · exact h₁
      dsimp only [popNextFrame]
      split
      · exact .throw
      · exact (setupForExecution_keepsTeams (popNextFrame_keepsTeams h₂ w) w _).bind fun t₃ h₃ =>
          .pure (h₃.modWorker _ ⟨.inl rfl, rfl, rfl⟩)
    · refine .assert_bind fun _ => .assert_bind fun _ => ?_
      exact (schedulingStackFcn_keepsTeams fcn
        ((KeepsTeams.refl s).modWorker w ⟨.inl rfl, rfl, rfl⟩) w _).bind fun t₁ h₁ =>
          .assert_bind fun _ => .pure ((h₁.releaseFiber _).modWorker _ ⟨.inl rfl, rfl, rfl⟩)

theorem cReturnFromInitial_keepsTeams (s : State M) (w : WorkerId) :
    Ensures (cReturnFromInitial s w) (KeepsTeams s) := by
  refine .assert_bind fun huser => ?_
  split
  · exact .throw
  · refine .assert_bind fun _ => .assert_bind fun _ => ?_
    refine Ensures.bind (P := KeepsTeams s) (destroyFullFrame_keepsTeams ?_ _) fun t₁ h₁ =>
      .pure (h₁.modWorker _ ⟨?_, rfl, rfl⟩)
    · exact (((((KeepsTeams.refl s).modWorker w ⟨.inl rfl, rfl, rfl⟩).releaseFiber _).modFf _ _)
        ).modWorker _ ⟨.inl rfl, rfl, rfl⟩
    · rcases (h₁ w).type with htype | ⟨-, hfree⟩
      · exact .inr ⟨htype.trans (by simpa using huser), rfl⟩
      · exact .inl hfree.symm

theorem cilkrtsReturn_keepsTeams (s : State M) (w : WorkerId) :
    Ensures (cilkrtsReturn s w) (KeepsTeams s) := by
  unfold cilkrtsReturn
  split
  · exact .throw
  · refine .assert_bind fun _ => .assert_bind fun _ => ?_
    exact (decjoin_keepsTeams (((KeepsTeams.refl s).modFf _ _).modWorker _
      ⟨.inl rfl, rfl, rfl⟩) _).bind fun r hr => .pure hr

theorem finishCilkrtsReturn_keepsTeams (s : State M) (w : WorkerId) (f : FrameId) :
    Ensures (finishCilkrtsReturn s w f) (KeepsTeams s) := by
  unfold finishCilkrtsReturn
  split
  · exact .throw
  · refine (finalizeChildForCall_keepsTeams (.refl s) w _ f).bind fun t₁ h₁ =>
      .assert_bind fun _ => ?_
    have h₂ := popNextFrame_keepsTeams h₁ w
    split
    · exact .pure (h₂.modWorker _ ⟨.inl rfl, rfl, rfl⟩)
    · exact .assert_bind fun _ => (setupForExecution_keepsTeams h₂ w _).bind fun t₃ h₃ =>
        .pure (h₃.modWorker _ ⟨.inl rfl, rfl, rfl⟩)

theorem resumeNextFrame_keepsTeams (s : State M) (w : WorkerId) :
    Ensures (resumeNextFrame s w) (KeepsTeams s) := by
  refine .assert_bind fun _ => ?_
  have h₁ := popNextFrame_keepsTeams (.refl s) w
  dsimp only [popNextFrame] at h₁ ⊢
  split
  · exact .throw
  · exact .assert_bind fun _ => (setupForExecution_keepsTeams h₁ w _).bind fun t₂ h₂ =>
      .assert_bind fun _ => .pure (h₂.modWorker _ ⟨.inl rfl, rfl, rfl⟩)

end Functions

-- ---------------------------------------------------------------------------
-- Runs
-- ---------------------------------------------------------------------------

/-- What a step does to teams and ready lists. -/
theorem step_keepsTeams {g : Settings} {s : State M} {e : Event M} {r : Checked (State M)}
    (h : Step g s e r) : Ensures r (KeepsTeams (s.reteam e)) := by
  cases h with
  | bind h =>
    refine .ok fun v => ?_
    rename_i u code init
    by_cases hv : v = u
    · subst hv
      refine ⟨.inl ?_, ?_, ?_⟩ <;> simp [State.reteam, bindThread, makeFullFrame]
    · refine ⟨.inl ?_, ?_, ?_⟩ <;> simp [State.reteam, bindThread, makeFullFrame, hv]
  | update h =>
    refine .ok (KeepsTeams.modCurrent ?_ _ _)
    unfold updateReducer
    exact (KeepsTeams.refl s).modWorker _ ⟨.inl rfl, rfl, rfl⟩
  | call h | spawn h =>
    refine .ok ?_
    unfold pushStackFrame
    exact ((KeepsTeams.refl s).modCurrent _ _).modWorker _ ⟨.inl rfl, rfl, rfl⟩
  | detachPending h => exact .ok (((KeepsTeams.refl s).modCurrent _ _).trans (.of_worker rfl))
  | makeReady h => exact .ok (.of_worker rfl)
  | syncNothing h => exact .ok ((KeepsTeams.refl s).modCurrent _ _)
  | sync h => exact cSync_keepsTeams (.refl s) _ _
  | retSync h => exact cSync_keepsTeams (.refl s) _ _
  | ret h =>
    unfold leaveFrame
    refine .ite (fun _ => .ite (fun _ => ?_) fun _ => .ite (fun _ => ?_) fun _ => ?_) fun _ => ?_
    · exact executeReductions_keepsTeams (.refl s) _
    · exact cReturnFromInitial_keepsTeams s _
    · exact cilkrtsReturn_keepsTeams s _
    · exact .pure ((KeepsTeams.refl s).modWorker _ ⟨.inl rfl, rfl, rfl⟩)
  | reducedSpawn h =>
    refine Ensures.bind (P := fun _ => True) (fun _ _ => trivial) fun m _ =>
      Ensures.bind (P := fun _ => True) (fun _ _ => trivial) fun m' _ => ?_
    extract_lets t₁
    have h₁ : KeepsTeams s t₁ := (KeepsTeams.refl s).modWorker _ ⟨.inl rfl, rfl, rfl⟩
    split
    · exact .throw
    · split
      · exact .throw
      · exact slowPathSpawnReturn_keepsTeams h₁ _ _ _
  | reducedSync h =>
    refine Ensures.bind (P := fun _ => True) (fun _ _ => trivial) fun m _ => ?_
    split
    · exact .throw
    · exact .pure (slowPathSync_keepsTeams (.refl s) _ _ _)
  | spawnReturned h => exact longjmpIntoRuntime_keepsTeams g.P s _ _
  | synching h => exact longjmpIntoRuntime_keepsTeams g.P s _ _
  | callReturned h => exact finishCilkrtsReturn_keepsTeams s _ _
  | resume h => exact resumeNextFrame_keepsTeams s _
  | loseTeam h htype => exact .ok (.refl _)
  | steal h hne hteam =>
    exact .assert_bind fun _ => detachForSteal_keepsTeams (.of_worker rfl)
  | stealOwnReady h hpf | stealReady h hne hteam hpf =>
    exact .assert_bind fun _ => stealFromReadyList_keepsTeams (.of_worker rfl)
  | promote hforce h hcode hdeque =>
    unfold promoteOwnDeque
    extract_lets startingFiber
    exact (detachForSteal_keepsTeams
      ((KeepsTeams.refl s).modWorker _ ⟨.inl rfl, rfl, rfl⟩)).bind fun t₁ h₁ =>
        .assert_bind fun _ => .pure h₁

omit [DecidableEq K] [∀ k, Monoid (M k)] in
theorem initial_teamDiscipline {g : Settings} {s : State M} (h : Initial g s) :
    TeamDiscipline s := by
  intro u hu
  rw [h.1, initialWorker] at hu
  split at hu <;> cases hu

omit [DecidableEq K] [∀ k, Monoid (M k)] in
/-- A worker that takes a frame from a ready list joins the team of the frame. -/
theorem readyListSteal_team {s : State M} {w victim : WorkerId} {pf : PendingFrame} :
    Ensures (readyListSteal s w victim pf) fun t =>
      (t.worker w).type = (s.worker w).type ∧ (t.worker w).team = some pf.team := by
  refine .assert_bind fun _ => .assert_bind fun _ => ?_
  extract_lets t₁ t₂
  have h₂ : (t₂.worker w).type = (s.worker w).type ∧ (t₂.worker w).team = some pf.team := by
    by_cases hw : w = victim
    · subst hw
      simp [t₂, t₁]
    · simp [t₂, t₁, hw]
  refine Ensures.bind (P := fun t => (t.worker w).type = (s.worker w).type ∧
    (t.worker w).team = some pf.team) (.assert_bind fun _ => .pure h₂) fun t₃ h₃ => ?_
  refine .assert_bind fun _ => .pure ?_
  by_cases hw : w = victim
  · subst hw
    split <;> simpa [setSyncMaster, incjoin] using h₃
  · split <;> simpa [setSyncMaster, incjoin, hw] using h₃

omit [DecidableEq K] [∀ k, Monoid (M k)] in
theorem TeamDiscipline.modWorker {s : State M} (h : TeamDiscipline s) (w : WorkerId)
    (f : Worker M → Worker M)
    (hf : (f (s.worker w)).type = .user → (f (s.worker w)).team = some w) :
    TeamDiscipline (s.modWorker w f) := by
  intro u hu
  by_cases huw : u = w
  · subst huw
    rw [modWorker_worker_self] at hu ⊢
    exact hf hu
  · rw [modWorker_worker_ne _ _ huw] at hu ⊢
    exact h u hu

/-- A step in which user workers take only frames of their own team from ready
lists keeps the discipline. -/
theorem teamDiscipline_of_takesOwnTeam {g : Settings} {s t : State M} {e : Event M}
    (h : Step g s e (.ok t)) (hs : TeamDiscipline s) (htake : TakesOwnTeam s e) :
    TeamDiscipline t := by
  refine (step_keepsTeams h t rfl).discipline ?_
  generalize hr : (.ok t : Checked (State M)) = r at h
  cases h <;> dsimp only [State.reteam]
  case bind => exact hs.modWorker _ _ fun _ => rfl
  case makeReady => exact hs.modWorker _ _ (hs _)
  case loseTeam htype _ => exact hs.modWorker _ _ fun hu => absurd hu htype
  case steal hteam _ => exact hs.modWorker _ _ hteam
  case stealOwnReady =>
    exact (hs.modWorker _ _ (hs _)).modWorker _ _ fun hu => congrArg some (htake (by simpa using hu))
  case stealReady hne _ _ =>
    exact (hs.modWorker _ _ (hs _)).modWorker _ _ fun hu =>
      congrArg some (htake (by simpa [hne] using hu))
  all_goals exact hs

/-- A step keeps the discipline only if it does not make a user worker take a
frame of another team from a ready list. -/
theorem takesOwnTeam_of_teamDiscipline {g : Settings} {s t : State M} {e : Event M}
    (h : Step g s e (.ok t)) (ht : TeamDiscipline t) : TakesOwnTeam s e := by
  generalize hr : (.ok t : Checked (State M)) = r at h
  cases h with
  | stealOwnReady | stealReady =>
    intro hu
    obtain ⟨htype, hteam⟩ := readyListSteal_team t hr.symm
    have hown := ht _ (htype.trans hu)
    rw [hteam] at hown
    exact Option.some.inj hown
  | _ => trivial

/-- In a run, every user worker stays on its own team iff no step makes one take
a frame of another team from a ready list. -/
theorem teamDiscipline_iff {g : Settings} {s : State M} (hs : Initial g s)
    {tr : List (Event M × State M)} (h : (system M g).IsPath s tr) :
    (∀ p ∈ tr, TeamDiscipline p.2) ↔ LTS.AllSteps TakesOwnTeam s tr :=
  LTS.forall_states_iff_steps (P := TeamDiscipline) (Q := TeamDiscipline) (fun _ hs => hs)
    (fun _ _ _ hs hst htake => teamDiscipline_of_takesOwnTeam hst hs htake)
    (fun _ _ _ _ hst ht => takesOwnTeam_of_teamDiscipline hst ht)
    (initial_teamDiscipline hs) h

-- ---------------------------------------------------------------------------
-- Ready lists of one team
-- ---------------------------------------------------------------------------

/-- User workers are on their own team, and every frame on a ready list is of
the team of the list's worker. -/
structure OnTeams (s : State M) : Prop where
  user  : TeamDiscipline s
  lists : ∀ w, ∀ pf ∈ (s.worker w).readyList, (s.worker w).team = some pf.team

omit [DecidableEq K] [∀ k, Monoid (M k)] in
theorem initial_onTeams {g : Settings} {s : State M} (h : Initial g s) : OnTeams s := by
  refine ⟨initial_teamDiscipline h, fun w pf hpf => ?_⟩
  rw [h.1] at hpf
  cases hpf

omit [DecidableEq K] [∀ k, Monoid (M k)] in
theorem KeepsTeams.onTeams {s t : State M} (h : KeepsTeams s t) (hs : OnTeams s) : OnTeams t := by
  refine ⟨h.discipline hs.user, fun w pf hpf => ?_⟩
  obtain ⟨-, hteam, hlist⟩ := h w
  rw [hlist] at hpf
  exact hteam.trans (hs.lists w pf hpf)

omit [DecidableEq K] [∀ k, Monoid (M k)] in
theorem OnTeams.modWorker {s : State M} (h : OnTeams s) (w : WorkerId) (f : Worker M → Worker M)
    (huser : (f (s.worker w)).type = .user → (f (s.worker w)).team = some w)
    (hlists : ∀ pf ∈ (f (s.worker w)).readyList, (f (s.worker w)).team = some pf.team) :
    OnTeams (s.modWorker w f) := by
  refine ⟨h.user.modWorker w f huser, fun u pf hpf => ?_⟩
  by_cases huw : u = w
  · subst huw
    rw [modWorker_worker_self] at hpf ⊢
    exact hlists pf hpf
  · rw [modWorker_worker_ne _ _ huw] at hpf ⊢
    exact h.lists u pf hpf

/-- When all ready lists are of one team, user workers take only frames of their
own team. -/
theorem OnTeams.takesOwnTeam {g : Settings} {s : State M} {e : Event M} {r : Checked (State M)}
    (hs : OnTeams s) (h : Step g s e r) : TakesOwnTeam s e := by
  cases h with
  | stealOwnReady _ hpf =>
    intro hu
    have hteam := hs.lists _ _ hpf
    rw [hs.user _ hu] at hteam
    exact (Option.some.inj hteam).symm
  | stealReady _ _ hteam hpf =>
    intro hu
    have hvictim := hs.lists _ _ hpf
    rw [hteam hu] at hvictim
    exact (Option.some.inj hvictim).symm
  | _ => trivial

/-- The ready lists stay of one team. -/
theorem OnTeams.step {g : Settings} {s t : State M} {e : Event M} (hs : OnTeams s)
    (h : Step g s e (.ok t)) (hlists : ListsOfOneTeam s e) : OnTeams t := by
  have htake := hs.takesOwnTeam h
  refine (step_keepsTeams h t rfl).onTeams ?_
  generalize hr : (.ok t : Checked (State M)) = r at h
  -- the list that a frame has been taken from
  have herase : ∀ w pf, OnTeams (s.modWorker w fun wk =>
      { wk with readyList := wk.readyList.erase pf }) := fun w pf =>
    hs.modWorker w _ (hs.user w) fun pf' hpf' => hs.lists w pf' (List.mem_of_mem_erase hpf')
  cases h <;> dsimp only [State.reteam]
  case bind u code init hfree =>
    exact hs.modWorker u _ (fun _ => rfl) fun pf hpf => congrArg some (hlists pf hpf).symm
  case makeReady w pf hphase hpf =>
    refine hs.modWorker w _ (hs.user w) fun pf' hpf' => ?_
    rcases List.mem_append.mp hpf' with hpf' | hpf'
    · exact hs.lists w pf' hpf'
    · rw [List.mem_singleton.mp hpf']
      exact hlists
  case loseTeam w hphase htype hready =>
    refine hs.modWorker w _ (fun hu => absurd hu htype) fun pf hpf => ?_
    rw [hready] at hpf
    cases hpf
  case steal w victim hphase hne hteam hdeque => exact hs.modWorker w _ hteam hlists
  case stealOwnReady w pf hphase hpf =>
    refine (herase w pf).modWorker w _ (fun hu => congrArg some (htake (by simpa using hu)))
      fun pf' hpf' => congrArg some (hlists pf' ?_).symm
    exact List.mem_of_mem_erase (by simpa using hpf')
  case stealReady w victim pf hphase hne hteam hpf =>
    refine (herase victim pf).modWorker w _
      (fun hu => congrArg some (htake (by simpa [hne] using hu)))
      fun pf' hpf' => congrArg some (hlists pf' (by simpa [hne] using hpf')).symm
  all_goals exact hs

/-- In a run in which frames are put on lists of their own team only, and nobody
joins another team while it leaves frames on its list, all user workers stay on
their own team and none takes a frame of another team. -/
theorem teamDiscipline_of_lists (g : Settings) (s : State M) (hs : Initial g s)
    (tr : List (Event M × State M)) (h : (system M g).IsPath s tr)
    (hlists : LTS.AllSteps ListsOfOneTeam s tr) :
    (∀ p ∈ tr, TeamDiscipline p.2) ∧ LTS.AllSteps TakesOwnTeam s tr := by
  have hrestrict := LTS.isPath_restrict (T := system M g) h hlists
  have htake : LTS.AllSteps TakesOwnTeam s tr :=
    (LTS.allSteps_iff (T := (system M g).restrict ListsOfOneTeam) (P := OnTeams)
      (fun _ _ _ hs hst => hs.step hst.1 hst.2)
      (fun _ _ _ hs hst => ⟨fun _ => hs.takesOwnTeam hst.1, fun _ => hst.2⟩)
      (initial_onTeams hs) hrestrict).mp hlists
  exact ⟨(teamDiscipline_iff hs h).mpr htake, htake⟩

-- ---------------------------------------------------------------------------
-- A run that loses the discipline
-- ---------------------------------------------------------------------------

section Example

/-- Two workers, one of them a system worker. -/
def exampleSettings : Settings := ⟨2, false⟩

/-- The runtime before it has started. -/
def exampleStart : State fun _ : Unit => Unit where
  worker    := initialWorker 2
  ff        := fun _ => FullFrame.make ⟨.ret, false, false, false, false, 1, false, 1, none⟩ false
  live      := fun _ => false
  nextFrame := 0
  nextFiber := 0
  pending   := []
  released  := fun _ => 0
  fiberFor  := fun _ => none

/-- The state after a computation, or the one before it if it stops. -/
def resultOr (s : State M) : Checked (State M) → State M
  | .ok t => t
  | .error _ => s

omit [DecidableEq K] [∀ k, Monoid (M k)] in
theorem resultOr_eq {s : State M} {x : Checked (State M)} (h : x.isOk = true) :
    x = .ok (resultOr s x) := by
  cases x with
  | ok t => rfl
  | error e => cases h

/-- User worker 1 is bound. -/
def exampleBound₁ : State fun _ : Unit => Unit :=
  bindThread exampleStart 1 (.pending .ret .ret) 1

/-- User worker 2 is bound. -/
def exampleBound₂ : State fun _ : Unit => Unit :=
  bindThread exampleBound₁ 2 (.pending .ret .ret) 1

/-- Worker 1 detaches a pending frame. -/
def exampleDetached₁ : State fun _ : Unit => Unit :=
  detachPending (exampleBound₂.modCurrent 1 fun sf => sf.advance (Code.product .ret) .ret) 1 0 .ret

/-- Worker 2 detaches a pending frame. -/
def exampleDetached₂ : State fun _ : Unit => Unit :=
  detachPending (exampleDetached₁.modCurrent 2 fun sf => sf.advance (Code.product .ret) .ret) 2 1
    .ret

/-- The pending frame of team 1. -/
def examplePending : PendingFrame := ⟨2, 1⟩

/-- Worker 2 releases the object that the pending frame of team 1 waits for. -/
def exampleReady : State fun _ : Unit => Unit := makeReady exampleDetached₂ 2 examplePending

/-- Worker 2 starts its sync. -/
def exampleSynching : State fun _ : Unit => Unit :=
  resultOr exampleReady (cSync exampleReady 2 .ret)

/-- Worker 2 waits at its sync, in the scheduling loop. -/
def exampleWaiting : State fun _ : Unit => Unit :=
  resultOr exampleSynching (longjmpIntoRuntime 2 exampleSynching 2 .doSync)

/-- Worker 2 takes the pending frame of team 1 from its ready list. -/
def exampleStolen : State fun _ : Unit => Unit :=
  resultOr exampleWaiting (readyListSteal exampleWaiting 2 2 examplePending)

/-- The run up to where worker 2 looks for work. -/
def exampleRun : List (Event (fun _ : Unit => Unit) × State fun _ : Unit => Unit) :=
  [(.bind 1 (.pending .ret .ret) 1, exampleBound₁),
    (.bind 2 (.pending .ret .ret) 1, exampleBound₂),
    (.detachPending 1, exampleDetached₁),
    (.detachPending 2, exampleDetached₂),
    (.makeReady 2 examplePending, exampleReady),
    (.ret 2, exampleSynching),
    (.enterRuntime 2, exampleWaiting)]

theorem exampleStart_initial : Initial exampleSettings exampleStart :=
  ⟨rfl, rfl, rfl, rfl, rfl, rfl, rfl⟩

theorem exampleRun_isPath :
    (system (fun _ : Unit => Unit) exampleSettings).IsPath exampleStart exampleRun := by
  refine ⟨.bind rfl, .bind rfl, .detachPending (f := 0) ⟨rfl, rfl⟩ rfl rfl rfl,
    .detachPending (f := 1) ⟨rfl, rfl⟩ rfl rfl rfl, .makeReady rfl (by decide), ?_, ?_, trivial⟩
  · show Step _ _ _ (.ok (resultOr _ _))
    rw [← resultOr_eq (by decide)]
    exact .retSync ⟨rfl, rfl⟩ rfl rfl
  · show Step _ _ _ (.ok (resultOr _ _))
    rw [← resultOr_eq (by decide)]
    exact .synching rfl

theorem exampleSteal :
    Step exampleSettings exampleWaiting (.stealReady 2 2 examplePending) (.ok exampleStolen) := by
  show Step _ _ _ (.ok (resultOr _ _))
  rw [← resultOr_eq (by decide)]
  exact .stealOwnReady rfl (by decide)

/-- A user worker can lose its team. -/
theorem teamDiscipline_lost :
    ¬ ∀ s, (system (fun _ : Unit => Unit) exampleSettings).Reachable s → TeamDiscipline s := by
  intro h
  have hreach := LTS.reachable_of_isPath (.init exampleStart_initial) exampleRun_isPath
    (.enterRuntime 2, exampleWaiting) (by simp [exampleRun])
  exact absurd (h exampleStolen (hreach.step exampleSteal) 2 (by decide)) (by decide)

/-- The pending frame of team 2. -/
def ownPending : PendingFrame := ⟨3, 2⟩

/-- Worker 2 releases the object that the pending frame of its own team waits
for. -/
def ownReady : State fun _ : Unit => Unit := makeReady exampleDetached₂ 2 ownPending

/-- Worker 2 starts its sync. -/
def ownSynching : State fun _ : Unit => Unit := resultOr ownReady (cSync ownReady 2 .ret)

/-- Worker 2 waits at its sync. -/
def ownWaiting : State fun _ : Unit => Unit :=
  resultOr ownSynching (longjmpIntoRuntime 2 ownSynching 2 .doSync)

/-- Worker 2 takes the pending frame of its own team from its ready list. -/
def ownStolen : State fun _ : Unit => Unit :=
  resultOr ownWaiting (readyListSteal ownWaiting 2 2 ownPending)

/-- A run in which each frame is released by a worker of its team. -/
def ownRun : List (Event (fun _ : Unit => Unit) × State fun _ : Unit => Unit) :=
  [(.bind 1 (.pending .ret .ret) 1, exampleBound₁),
    (.bind 2 (.pending .ret .ret) 1, exampleBound₂),
    (.detachPending 1, exampleDetached₁),
    (.detachPending 2, exampleDetached₂),
    (.makeReady 2 ownPending, ownReady),
    (.ret 2, ownSynching),
    (.enterRuntime 2, ownWaiting),
    (.stealReady 2 2 ownPending, ownStolen)]

theorem ownRun_isPath :
    (system (fun _ : Unit => Unit) exampleSettings).IsPath exampleStart ownRun := by
  refine ⟨.bind rfl, .bind rfl, .detachPending (f := 0) ⟨rfl, rfl⟩ rfl rfl rfl,
    .detachPending (f := 1) ⟨rfl, rfl⟩ rfl rfl rfl, .makeReady rfl (by decide), ?_, ?_, ?_, trivial⟩
  · show Step _ _ _ (.ok (resultOr _ _))
    rw [← resultOr_eq (by decide)]
    exact .retSync ⟨rfl, rfl⟩ rfl rfl
  · show Step _ _ _ (.ok (resultOr _ _))
    rw [← resultOr_eq (by decide)]
    exact .synching rfl
  · show Step _ _ _ (.ok (resultOr _ _))
    rw [← resultOr_eq (by decide)]
    exact .stealOwnReady rfl (by decide)

theorem teamDiscipline_of_lists_ownRun :
    LTS.AllSteps ListsOfOneTeam exampleStart ownRun ∧
      (∀ p ∈ ownRun, TeamDiscipline p.2) ∧ LTS.AllSteps TakesOwnTeam exampleStart ownRun :=
  have hlists : LTS.AllSteps ListsOfOneTeam exampleStart ownRun :=
    ⟨List.forall_mem_nil _, List.forall_mem_nil _, trivial, trivial, rfl, trivial, trivial,
      show ∀ pf ∈ [ownPending], pf.team = 2 by decide, trivial⟩
  ⟨hlists, teamDiscipline_of_lists exampleSettings exampleStart exampleStart_initial ownRun
    ownRun_isPath hlists⟩

end Example

end SwanRuntime.Runtime
