import SwanRuntime.Runtime.Counting

/-!
# The runtime — reductions are sequences of moves

The slow paths of a spawn return and of a sync merge maps without the lock, and
then look again at what their neighbours have deposited. Each iteration is a
rearrangement of the maps around one child, which keeps their product, followed
by the unlinking of the child, or the suspension of the frame, when nothing is
left to reduce.

## Results

* `cSync_quiet`, `reduceForSync_quiet`  — a sync.
* `executeReductionsForSpawnReturn_quiet`, `reduceForSpawnReturn_quiet`  — a
  return from a spawn.
-/

namespace SwanRuntime.Runtime

open Reducers Checked

variable {K : Type} [DecidableEq K] {M : K → Type} [∀ k, Monoid (M k)]

/-- Moves one after the other. -/
inductive Moves (force : Bool) : Option FrameId → State M → Option FrameId → State M → Prop
  | refl {owed : Option FrameId} {s : State M} : Moves force owed s owed s
  | head {owed owed' owed'' : Option FrameId} {s t r : State M} (h : Move force owed s owed' t)
      (h' : Moves force owed' t owed'' r) : Moves force owed s owed'' r

section

variable {force : Bool} {owed owed' owed'' : Option FrameId} {s t r : State M}

theorem Moves.single (h : Move force owed s owed' t) : Moves force owed s owed' t := .head h .refl

theorem Moves.trans (h : Moves force owed s owed' t)
    (h' : Moves force owed' t owed'' r) : Moves force owed s owed'' r := by
  induction h with
  | refl => exact h'
  | head hmove _ ih => exact .head hmove (ih h')

theorem Shape.moves {site : FrameId → Site} (h : Shape s site owed)
    (hm : Moves force owed s owed' t) : ∃ site', Shape t site' owed' := by
  induction hm generalizing site with
  | refl => exact ⟨site, h⟩
  | head hmove _ ih =>
    obtain ⟨site', h'⟩ := h.move hmove
    exact ih h'

end

/-- Every worker keeps the frame that it has been given. -/
def KeepsGiven (s t : State M) : Prop :=
  ∀ v g, (s.worker v).nextFrameFf = some g → (t.worker v).nextFrameFf = some g

/-- Moves that neither count a frame down, nor hand it over, nor resume it. -/
inductive Quiet (force : Bool) : State M → State M → Prop
  | refl {s : State M} : Quiet force s s
  | head {s t r : State M} (h : Move force none s none t) (hkept : KeepsGiven s t)
      (h' : Quiet force t r) : Quiet force s r

section

variable {force : Bool} {s t r : State M}

omit [DecidableEq K] [∀ k, Monoid (M k)] in
theorem KeepsGiven.of_eq (h : ∀ v, (t.worker v).nextFrameFf = (s.worker v).nextFrameFf) :
    KeepsGiven s t := fun v _ hg => (h v).trans hg

omit [DecidableEq K] [∀ k, Monoid (M k)] in
theorem KeepsGiven.refl : KeepsGiven s s := fun _ _ hg => hg

omit [DecidableEq K] [∀ k, Monoid (M k)] in
theorem KeepsGiven.trans (h : KeepsGiven s t) (h' : KeepsGiven t r) : KeepsGiven s r :=
  fun v g hg => h' v g (h v g hg)

theorem Quiet.single (h : Move force none s none t) (hkept : KeepsGiven s t) :
    Quiet force s t := .head h hkept .refl

theorem Quiet.trans (h : Quiet force s t) (h' : Quiet force t r) : Quiet force s r := by
  induction h with
  | refl => exact h'
  | head hmove hkept _ ih => exact .head hmove hkept (ih h')

theorem Quiet.of_eq (heq : r = t) (h : Quiet force s t) : Quiet force s r := heq ▸ h

omit [DecidableEq K] [∀ k, Monoid (M k)] in
/-- Only other fields of a worker have changed. -/
theorem KeepsGiven.of_ite {w : WorkerId} {wk : Worker M}
    (hworker : ∀ v, t.worker v = if v = w then wk else s.worker v)
    (hwk : wk.nextFrameFf = (s.worker w).nextFrameFf) : KeepsGiven s t := by
  refine .of_eq fun v => ?_
  rw [hworker]
  by_cases hv : v = w
  · subst hv
    rw [if_pos rfl, hwk]
  · rw [if_neg hv]

omit [DecidableEq K] [∀ k, Monoid (M k)] in
theorem keepsGiven_setPhase {w : WorkerId} {phase : Phase M} (h : t.worker = s.worker) :
    KeepsGiven s (setPhase t w phase) := by
  have hkept : KeepsGiven t (setPhase t w phase) := .of_ite (fun _ => rfl) rfl
  exact fun v g hg => hkept v g (by rwa [h])

theorem Quiet.moves (h : Quiet force s t) : Moves force none s none t := by
  induction h with
  | refl => exact .refl
  | head hmove _ _ ih => exact .head hmove ih

end

-- ---------------------------------------------------------------------------
-- Merging
-- ---------------------------------------------------------------------------

/-- A merge returns a map iff it is given one, and the result is leftmost iff one of
them is. -/
theorem mergeReducerMaps_cases {left right m : Option (ReducerMap M)}
    (h : mergeReducerMaps left right = .ok m) : left = none ∧ m = right ∨
      right = none ∧ m = left ∨
      left.isSome = true ∧ right.isSome = true ∧ m.isSome = true ∧
        Reducers.isLeftmost m = (Reducers.isLeftmost left || Reducers.isLeftmost right) := by
  cases left with
  | none => exact Or.inl ⟨rfl, (pure_eq_ok.mp h).symm⟩
  | some left =>
    cases right with
    | none => exact Or.inr (Or.inl ⟨rfl, (pure_eq_ok.mp h).symm⟩)
    | some right =>
      refine Or.inr (Or.inr ⟨rfl, rfl, ?_⟩)
      unfold mergeReducerMaps at h
      dsimp only at h
      split at h
      · obtain ⟨m', hm, h⟩ := bind_eq_ok.mp h
        obtain rfl := pure_eq_ok.mp h
        obtain ⟨hleft, hright, -⟩ := merge_spec hm
        simp [Reducers.isLeftmost, ReducerMap.isLeftmost, hleft, hright]
      · rename_i hcase
        obtain ⟨m', hm, h⟩ := bind_eq_ok.mp h
        obtain rfl := pure_eq_ok.mp h
        obtain ⟨hright, hleft, -⟩ := merge_spec hm
        simp [Reducers.isLeftmost, ReducerMap.isLeftmost, hleft, hright]

theorem valueOf_append (ms ms' : List (Option (ReducerMap M))) :
    valueOf (ms ++ ms') = valueOf ms * valueOf ms' := by
  induction ms with
  | nil => exact (one_mul _).symm
  | cons m ms ih =>
    show value m * valueOf (ms ++ ms') = value m * valueOf ms * valueOf ms'
    rw [ih, mul_assoc]

/-- Two neighbouring maps are merged. -/
theorem rearranged_merge {left right m : Option (ReducerMap M)}
    (before after : List (Option (ReducerMap M))) (h : mergeReducerMaps left right = .ok m) :
    Rearranged (before ++ left :: right :: after) (before ++ none :: m :: after) := by
  have hvalue := value_mergeReducerMaps h
  have hcases := mergeReducerMaps_cases h
  refine ⟨?_, ?_, ?_⟩
  · have hsplit : ∀ a b : Option (ReducerMap M), valueOf (before ++ a :: b :: after) =
        valueOf before * (value a * value b * valueOf after) := by
      intro a b
      rw [valueOf_append, mul_assoc]
      rfl
    rw [hsplit, hsplit, value_none, one_mul, hvalue]
  · induction before with
    | nil =>
      rcases hcases with ⟨rfl, rfl⟩ | ⟨rfl, rfl⟩ | ⟨hleft, -, hm, -⟩
      · exact id
      · cases m with
        | none => exact id
        | some m => exact fun hall a ha => hall a (List.mem_cons_of_mem _ ha)
      · obtain ⟨left, rfl⟩ := Option.isSome_iff_exists.mp hleft
        obtain ⟨m, rfl⟩ := Option.isSome_iff_exists.mp hm
        exact fun hall a ha => hall a (List.mem_cons_of_mem _ ha)
    | cons a before ih =>
      cases a with
      | none => exact ih
      | some a =>
        intro hall b hb
        have hb : b ∈ before ∨ b = none ∨ b = m ∨ b ∈ after := by simpa using hb
        have hin : ∀ c, c ∈ before ∨ c = left ∨ c = right ∨ c ∈ after →
            Reducers.isLeftmost c = false := fun c hc => hall c (by simpa using hc)
        rcases hb with hb | rfl | rfl | hb
        · exact hin b (Or.inl hb)
        · rfl
        · rcases hcases with ⟨-, rfl⟩ | ⟨-, rfl⟩ | ⟨-, -, -, hsame⟩
          · exact hin _ (Or.inr (Or.inr (Or.inl rfl)))
          · exact hin _ (Or.inr (Or.inl rfl))
          · rw [hsame, hin _ (Or.inr (Or.inl rfl)), hin _ (Or.inr (Or.inr (Or.inl rfl)))]
            rfl
        · exact hin b (Or.inr (Or.inr (Or.inr hb)))
  · rcases hcases with ⟨rfl, rfl⟩ | ⟨rfl, rfl⟩ | ⟨-, -, -, hsame⟩
    · simp [hasLeftmost]
    · simp [hasLeftmost]
    · simp [hasLeftmost, hsame, Bool.or_assoc]

-- ---------------------------------------------------------------------------
-- Syncing
-- ---------------------------------------------------------------------------

section Sync

variable {force : Bool} {s : State M} {w : WorkerId} {f : FrameId}

omit [DecidableEq K] [∀ k, Monoid (M k)] in
/-- The frame is suspended, whatever the worker's phase was. -/
theorem finishReductionsForSync_eq (phase : Phase M) :
    suspend (setPhase s w phase) w f = finishReductionsForSync s w f := by
  refine State.ext_of (fun u => ?_) (fun g => ?_) (fun _ => rfl) rfl rfl rfl rfl fun _ => rfl
  · by_cases hu : u = w
    · subst hu
      simp [suspend, setPhase, finishReductionsForSync]
    · simp [suspend, setPhase, finishReductionsForSync, hu]
  · by_cases hg : g = f
    · subst hg
      simp [suspend, setPhase, finishReductionsForSync]
    · simp [suspend, setPhase, finishReductionsForSync, hg]

omit [DecidableEq K] [∀ k, Monoid (M k)] in
theorem setSlot_slot (a : MapSlot) : s.setSlot (s.slot a) a = s := by
  cases a with
  | childrenMap f => simp [State.setSlot, State.slot, State.modFf]
  | rightMap f => simp [State.setSlot, State.slot, State.modFf]

omit [DecidableEq K] [∀ k, Monoid (M k)] in
theorem setSlot_setPhase (m : Option (ReducerMap M)) (a : MapSlot) (phase : Phase M) :
    (setPhase s w phase).setSlot m a = setPhase (s.setSlot m a) w phase := by
  cases a <;> rfl

omit [DecidableEq K] [∀ k, Monoid (M k)] in
theorem setPhase_setPhase (phase phase' : Phase M) :
    setPhase (setPhase s w phase) w phase' = setPhase s w phase' := by
  refine State.ext_of (fun u => ?_) (fun _ => rfl) (fun _ => rfl) rfl rfl rfl rfl fun _ => rfl
  by_cases hu : u = w
  · subst hu
    simp [setPhase]
  · simp [setPhase, hu]

omit [DecidableEq K] [∀ k, Monoid (M k)] in
/-- The slow path of a sync does not look at the worker's phase. -/
theorem slowPathReductionsForSync_setPhase (phase : Phase M) (middle : Option (ReducerMap M)) :
    slowPathReductionsForSync (setPhase s w phase) w f middle =
      slowPathReductionsForSync s w f middle := by
  have hslot : leftSlotForSync (setPhase s w phase) f = leftSlotForSync s f := rfl
  have hmap : ∀ a, (setPhase s w phase).slot a = s.slot a := fun a => by cases a <;> rfl
  unfold slowPathReductionsForSync
  simp only [hslot, hmap, setSlot_setPhase]
  split
  · rw [← finishReductionsForSync_eq .running, setPhase_setPhase, finishReductionsForSync_eq]
  · rw [← finishReductionsForSync_eq .running, setPhase_setPhase, finishReductionsForSync_eq]
  · rw [← setPhase_eq, ← setPhase_eq, setPhase_setPhase]

/-- A worker that holds `middle` for its frame deposits it, or takes the map to its
left in hand as well. -/
theorem slowPathReductionsForSync_quiet {left middle held : Option (ReducerMap M)}
    (hphase : (s.worker w).phase = .syncReduction left held)
    (hf : (s.worker w).frameFf = some f)
    (hre : Rearranged [s.slot (leftSlotForSync s f), left, held]
      [s.slot (leftSlotForSync s f), none, middle]) :
    Quiet force s (slowPathReductionsForSync s w f middle) := by
  have hmove : ∀ {left' l' m' : Option (ReducerMap M)},
      Rearranged [s.slot (leftSlotForSync s f), none, middle] [left', l', m'] →
      Move force none s none (rearrangeSync s w f (.syncReduction l' m') left') := fun h =>
    .rearrangeSync hphase hf (hre.trans h)
  have hsuspend : ∀ {l : Option (ReducerMap M)},
      Rearranged [s.slot (leftSlotForSync s f), none, middle] [l, none, none] →
      Quiet force s (finishReductionsForSync (s.setSlot l (leftSlotForSync s f)) w f) := by
    intro l h
    rw [← finishReductionsForSync_eq (.syncReduction none none)]
    refine .head (hmove h) (keepsGiven_setPhase (setSlot_worker _ _))
      (.single (.suspend ?_ ?_) (.of_ite (fun _ => rfl) rfl))
    · exact congrArg Worker.phase (if_pos rfl)
    · show (if w = w then _ else _ : Worker M).frameFf = some f
      rw [if_pos rfl, setSlot_worker]
      exact hf
  unfold slowPathReductionsForSync
  dsimp only
  cases hslot : s.slot (leftSlotForSync s f) with
  | none =>
    refine hsuspend ?_
    rw [hslot]
    refine ⟨?_, ?_, ?_⟩ <;> cases middle <;> simp [valueOf, LeftmostFirst, hasLeftmost]
  | some x =>
    cases middle with
    | none =>
      have hkeep := hsuspend (l := some x) (by rw [hslot]; exact Rearranged.refl _)
      rwa [← hslot, setSlot_slot] at hkeep
    | some middle =>
      dsimp only
      rw [← setPhase_eq]
      refine .single (hmove ?_) (keepsGiven_setPhase (setSlot_worker _ _))
      rw [hslot]
      refine ⟨?_, ?_, ?_⟩ <;> simp [valueOf, LeftmostFirst, hasLeftmost]

/-- A worker reaches a sync. -/
theorem cSync_quiet {rest : Code M} {t : State M} (hrun : (s.worker w).phase = .running)
    (hcurrent : ∀ f, (s.worker w).stack = [] → (s.worker w).frameFf = some f →
      (s.ff f).frame.unsynched = true ∧
        ((s.ff f).frame.code = .sync rest ∨ (s.ff f).frame.code = .ret ∧ rest = .ret))
    (h : cSync s w rest = .ok t) : Quiet force s t := by
  unfold cSync at h
  obtain ⟨_, hstack, h⟩ := bind_eq_ok.mp h
  have hstack : (s.worker w).stack = [] := List.isEmpty_iff.mp (assert_eq_ok.mp hstack)
  split at h
  · exact nomatch h
  · rename_i f hf
    obtain ⟨hsync, hcode⟩ := hcurrent f hstack hf
    refine .head (.beginSync hrun hstack hf hsync hcode) (.of_ite (fun _ => rfl) rfl) ?_
    have hphase : ((beginSync s w f rest).worker w).phase =
        .syncReduction none (s.worker w).reducerMap := congrArg Worker.phase (if_pos rfl)
    have hframe : ((beginSync s w f rest).worker w).frameFf = some f :=
      (congrArg Worker.frameFf (if_pos rfl)).trans hf
    have hbegin : ∀ phase, setPhase (beginSync s w f rest) w phase =
        setPhase ((s.modFrame f fun sf => { sf with code := rest }).modWorker w fun wk =>
          { wk with reducerMap := none }) w phase := by
      intro phase
      refine State.ext_of (fun u => ?_) (fun _ => rfl) (fun _ => rfl) rfl rfl rfl rfl fun _ => rfl
      by_cases hu : u = w
      · subst hu
        simp [setPhase, beginSync, takeInHand, State.modFrame]
      · simp [setPhase, beginSync, takeInHand, State.modFrame, hu]
    dsimp only at h
    split at h
    · -- no map in hand: the worker suspends at once
      rename_i hmiddle
      obtain rfl := pure_eq_ok.mp h
      have hmiddle : (s.worker w).reducerMap = none := hmiddle
      have hsuspend : Quiet force (beginSync s w f rest)
          (suspend (beginSync s w f rest) w f) :=
        .single (.suspend (by rw [hphase, hmiddle]) hframe) (.of_ite (fun _ => rfl) rfl)
      have hsame : (s.modFrame f fun sf => { sf with code := rest }).modWorker w (fun wk =>
          { wk with reducerMap := none }) = s.modFrame f fun sf => { sf with code := rest } := by
        refine State.ext_of (fun u => ?_) (fun _ => rfl) (fun _ => rfl) rfl rfl rfl rfl
          fun _ => rfl
        by_cases hu : u = w
        · subst hu
          rw [modWorker_worker_self, ← hmiddle]
          rfl
        · rw [modWorker_worker_ne _ _ hu]
      rw [← finishReductionsForSync_eq .running, ← hsame, ← hbegin, finishReductionsForSync_eq]
      rw [← finishReductionsForSync_eq ((beginSync s w f rest).worker w).phase]
      have hself : setPhase (beginSync s w f rest) w ((beginSync s w f rest).worker w).phase =
          beginSync s w f rest := by
        refine State.ext_of (fun u => ?_) (fun _ => rfl) (fun _ => rfl) rfl rfl rfl rfl
          fun _ => rfl
        by_cases hu : u = w
        · subst hu
          exact if_pos rfl
        · exact if_neg hu
      rwa [hself]
    · -- the slow path, from the state where the map is taken in hand
      rename_i middle hmiddle
      have hmiddle : (s.worker w).reducerMap = some middle := hmiddle
      obtain rfl := pure_eq_ok.mp h
      rw [hmiddle] at hphase
      rw [← slowPathReductionsForSync_setPhase .running, ← hbegin,
        slowPathReductionsForSync_setPhase]
      exact slowPathReductionsForSync_quiet hphase hframe (Rearranged.refl _)

/-- A worker has finished the reduction of a sync. -/
theorem reduceForSync_quiet {left middle : Option (ReducerMap M)} {t : State M}
    (hphase : (s.worker w).phase = .syncReduction left middle)
    (h : reduceForSync s w left middle = .ok t) : Quiet force s t := by
  unfold reduceForSync at h
  obtain ⟨m, hm, h⟩ := bind_eq_ok.mp h
  split at h
  · exact nomatch h
  · rename_i f hf
    obtain rfl := pure_eq_ok.mp h
    exact slowPathReductionsForSync_quiet hphase hf (rearranged_merge [_] [] hm)

end Sync

-- ---------------------------------------------------------------------------
-- Returning from a spawn
-- ---------------------------------------------------------------------------

section Spawn

variable {force : Bool} {s : State M} {w : WorkerId} {p d : FrameId}

omit [DecidableEq K] [∀ k, Monoid (M k)] in
theorem setSlot_modWorker (m : Option (ReducerMap M)) (a : MapSlot) (g : Worker M → Worker M) :
    (s.modWorker w g).setSlot m a = (s.setSlot m a).modWorker w g := by
  cases a <;> rfl

omit [DecidableEq K] [∀ k, Monoid (M k)] in
theorem slot_modWorker (a : MapSlot) (g : Worker M → Worker M) :
    (s.modWorker w g).slot a = s.slot a := by
  cases a <;> rfl

omit [DecidableEq K] [∀ k, Monoid (M k)] in
theorem modWorker_modWorker (g g' : Worker M → Worker M) :
    (s.modWorker w g).modWorker w g' = s.modWorker w fun wk => g' (g wk) := by
  simp [State.modWorker]

omit [DecidableEq K] [∀ k, Monoid (M k)] in
theorem setSlot_setSlot (m m' : Option (ReducerMap M)) (a : MapSlot) :
    (s.setSlot m a).setSlot m' a = s.setSlot m' a := by
  cases a <;> simp [State.setSlot, State.modFf]

omit [DecidableEq K] [∀ k, Monoid (M k)] in
theorem setSlot_comm {a b : MapSlot} (hne : a ≠ b) (m m' : Option (ReducerMap M)) :
    (s.setSlot m b).setSlot m' a = (s.setSlot m' a).setSlot m b := by
  refine State.ext_of (fun _ => ?_) (fun g => ?_) (fun _ => ?_) ?_ ?_ ?_ ?_ fun _ => ?_
  case refine_2 =>
    cases a with
    | childrenMap f =>
      cases b with
      | childrenMap e =>
        have hfe : f ≠ e := fun heq => hne (congrArg _ heq)
        simp only [State.setSlot, modFf_ff, Function.update_apply]
        split <;> split <;> simp_all
      | rightMap e =>
        simp only [State.setSlot, modFf_ff, Function.update_apply]
        split <;> split <;> simp_all
    | rightMap f =>
      cases b with
      | childrenMap e =>
        simp only [State.setSlot, modFf_ff, Function.update_apply]
        split <;> split <;> simp_all
      | rightMap e =>
        have hfe : f ≠ e := fun heq => hne (congrArg _ heq)
        simp only [State.setSlot, modFf_ff, Function.update_apply]
        split <;> split <;> simp_all
  all_goals cases a <;> cases b <;> rfl

omit [DecidableEq K] [∀ k, Monoid (M k)] in
theorem slot_setSlot_self (m : Option (ReducerMap M)) (a : MapSlot) :
    (s.setSlot m a).slot a = m := by
  cases a <;> simp [State.setSlot, State.slot]

omit [DecidableEq K] [∀ k, Monoid (M k)] in
theorem slot_setSlot_ne {a b : MapSlot} (hne : b ≠ a) (m : Option (ReducerMap M)) :
    (s.setSlot m a).slot b = s.slot b := by
  cases a with
  | childrenMap f =>
    cases b with
    | childrenMap e =>
      have hfe : e ≠ f := fun heq => hne (congrArg _ heq)
      simp [State.setSlot, State.slot, modFf_ff_ne _ _ hfe]
    | rightMap e =>
      by_cases hfe : e = f
      · subst hfe
        simp [State.setSlot, State.slot]
      · simp [State.setSlot, State.slot, modFf_ff_ne _ _ hfe]
  | rightMap f =>
    cases b with
    | rightMap e =>
      have hfe : e ≠ f := fun heq => hne (congrArg _ heq)
      simp [State.setSlot, State.slot, modFf_ff_ne _ _ hfe]
    | childrenMap e =>
      by_cases hfe : e = f
      · subst hfe
        simp [State.setSlot, State.slot]
      · simp [State.setSlot, State.slot, modFf_ff_ne _ _ hfe]

/-- The maps around the child `d`, with its worker's own, once `d` returns from a spawn. -/
def depositAt (s : State M) (w : WorkerId) (p d : FrameId) (left m right : Option (ReducerMap M)) :
    State M :=
  ((s.setSlot left (leftSlotForSpawnReturn s p d)).setSlot right (.rightMap d)).modWorker w
    fun wk => { wk with reducerMap := m }

/-- Slide the middle map left and the right map to the middle, if possible. -/
def slide : Option (ReducerMap M) → Option (ReducerMap M) → Option (ReducerMap M) →
    Option (ReducerMap M) × Option (ReducerMap M) × Option (ReducerMap M)
  | none, m, r => (m, r, none)
  | some l, none, r => (some l, r, none)
  | some l, some m, r => (some l, some m, r)

omit [DecidableEq K] [∀ k, Monoid (M k)] in
/-- One iteration of the slow path: the maps slide, and unless nothing is left
they are taken in hand. -/
theorem slowPathReductionsForSpawnReturn_eq (hne : MapSlot.rightMap d ≠ leftSlotForSpawnReturn s p d) :
    slowPathReductionsForSpawnReturn s w p d =
      match slide (s.slot (leftSlotForSpawnReturn s p d)) (s.worker w).reducerMap
        (s.slot (.rightMap d)) with
      | (l, none, r) => do
        let t ← finishSpawnReturnOnUserStack (depositAt s w p d l none r) w p d
        return setPhase t w .spawnReturned
      | (l, some m, r) => .ok (setPhase (depositAt s w p d none none none) w
          (.spawnReduction l (some m) r)) := by
  have hset : ∀ (t : State M) m, (t.modFf d fun ff => { ff with rightReducerMap := m }) =
      t.setSlot m (.rightMap d) := fun _ _ => rfl
  have hget : ∀ t : State M, (t.ff d).rightReducerMap = t.slot (.rightMap d) := fun _ => rfl
  have hsetOf : ∀ l, s.slot (leftSlotForSpawnReturn s p d) = l →
      s.setSlot l (leftSlotForSpawnReturn s p d) = s := fun l hl => hl ▸ setSlot_slot _
  have hsetRight : ∀ r, s.slot (.rightMap d) = r → s.setSlot r (.rightMap d) = s :=
    fun r hr => hr ▸ setSlot_slot _
  generalize hslot : leftSlotForSpawnReturn s p d = a at *
  unfold slowPathReductionsForSpawnReturn depositAt
  simp only [hslot, hset, hget]
  cases hl : s.slot a with
  | none =>
    cases hr : s.slot (.rightMap d) with
    | none =>
      simp [slide, setSlot_modWorker, modWorker_modWorker, setPhase_eq, slot_modWorker,
        slot_setSlot_ne hne, hr]
    | some r =>
      simp [slide, setSlot_modWorker, modWorker_modWorker, setPhase_eq, slot_modWorker,
        slot_setSlot_ne hne, hr, setSlot_setSlot,
        setSlot_comm hne, slot_setSlot_self]
  | some l =>
    cases hm : (s.worker w).reducerMap with
    | none =>
      cases hr : s.slot (.rightMap d) with
      | none =>
        simp [slide, hm, hr, setSlot_modWorker, setPhase_eq, hsetOf _ hl]
      | some r =>
        simp [slide, hm, hl, hr, setSlot_modWorker, modWorker_modWorker, setPhase_eq,
          slot_modWorker, slot_setSlot_ne hne.symm, setSlot_setSlot, setSlot_comm hne, slot_setSlot_self]
    | some m =>
      simp [hm, hl, slide, setSlot_modWorker, modWorker_modWorker, setPhase_eq]

/-- Sliding maps rearranges them, wherever they are put afterwards. -/
theorem rearranged_slide (l m r : Option (ReducerMap M)) :
    Rearranged [l, none, m, none, r]
      [(slide l m r).1, none, (slide l m r).2.1, none, (slide l m r).2.2] ∧
    Rearranged [l, none, m, none, r]
      [none, (slide l m r).1, (slide l m r).2.1, (slide l m r).2.2, none] := by
  refine ⟨⟨?_, ?_, ?_⟩, ⟨?_, ?_, ?_⟩⟩ <;> cases l <;> cases m <;> cases r <;>
    simp [slide, valueOf, LeftmostFirst, hasLeftmost]

/-- The merged map is the middle one. -/
theorem rearranged_middle (l m r : Option (ReducerMap M)) :
    Rearranged [l, none, none, m, r] [l, none, m, none, r] := by
  refine ⟨?_, ?_, ?_⟩ <;> cases l <;> cases m <;> cases r <;>
    simp [valueOf, LeftmostFirst, hasLeftmost]

omit [DecidableEq K] [∀ k, Monoid (M k)] in
/-- With nothing left in the middle there is nothing left on the right. -/
theorem slide_right {l m r : Option (ReducerMap M)} (h : (slide l m r).2.1 = none) :
    (slide l m r).2.2 = none := by
  cases l <;> cases m <;> cases r <;> simp_all [slide]

omit [DecidableEq K] [∀ k, Monoid (M k)] in
theorem modWorker_id {g : Worker M → Worker M} (h : g (s.worker w) = s.worker w) :
    s.modWorker w g = s := by
  rw [State.modWorker, h, Function.update_eq_self]

omit [DecidableEq K] [∀ k, Monoid (M k)] in
/-- The child is unlinked, whatever the worker's phase was. -/
theorem finishSpawnReturnOnUserStack_ok {t : State M} (phase : Phase M) (hne : p ≠ d)
    (h : finishSpawnReturnOnUserStack s w p d = .ok t) :
    setPhase t w .spawnReturned = finishReturn (setPhase s w phase) w p d := by
  have hholder : isLeftHolder (setPhase s w phase) p d = isLeftHolder s p d := rfl
  unfold finishSpawnReturnOnUserStack at h
  obtain ⟨_, hfree, h⟩ := bind_eq_ok.mp h
  dsimp only at h
  split at h
  · rename_i hif
    obtain ⟨_, -, h⟩ := bind_eq_ok.mp h
    rw [pure_eq, ok_bind] at h
    obtain rfl := pure_eq_ok.mp h
    have hleft : isLeftHolder s p d = false := by
      rw [isLeftHolder]
      cases h1 : leftSibling (s.ff p).children d <;> cases h2 : (s.ff p).fiberChild <;> simp_all
    unfold finishReturn
    simp only [hholder, hleft, Bool.false_eq_true, if_false]
    refine State.ext_of (fun v => ?_) (fun g => ?_) (fun _ => rfl) rfl rfl rfl rfl fun _ => rfl
    · by_cases hv : v = w
      · subst hv
        simp [setPhase, unlinkChild]
      · simp [setPhase, unlinkChild, hv]
    · by_cases hg : g = d
      · subst hg
        simp [setPhase, unlinkChild, hne.symm]
      · by_cases hgp : g = p
        · subst hgp
          simp [setPhase, unlinkChild, hg]
        · simp [setPhase, unlinkChild, hg, hgp]
  · rename_i hif
    rw [pure_eq, ok_bind] at h
    obtain rfl := pure_eq_ok.mp h
    have hleft : isLeftHolder s p d = true := by
      rw [isLeftHolder]
      cases h1 : leftSibling (s.ff p).children d <;> cases h2 : (s.ff p).fiberChild <;> simp_all
    unfold finishReturn
    simp only [hholder, hleft, if_true]
    refine State.ext_of (fun v => ?_) (fun g => ?_) (fun _ => rfl) rfl rfl rfl rfl fun _ => rfl
    · by_cases hv : v = w
      · subst hv
        simp [setPhase, unlinkChild]
      · simp [setPhase, unlinkChild, hv]
    · by_cases hg : g = d
      · subst hg
        simp [setPhase, unlinkChild, hne.symm]
      · by_cases hgp : g = p
        · subst hgp
          simp [setPhase, unlinkChild, hg]
        · simp [setPhase, unlinkChild, hg, hgp]

omit [DecidableEq K] [∀ k, Monoid (M k)] in
theorem mapless_id (hmap : (s.worker w).reducerMap = none) :
    (s.modWorker w fun wk => { wk with reducerMap := none }) = s :=
  modWorker_id (by rw [← hmap])

omit [DecidableEq K] [∀ k, Monoid (M k)] in
/-- The maps around the child are rearranged, and nothing is in hand. -/
theorem rearrangeSpawn_eq (hmap : (s.worker w).reducerMap = none) (phase : Phase M)
    (left right : Option (ReducerMap M)) :
    rearrangeSpawn s w p d phase left right = setPhase (depositAt s w p d left none right) w phase := by
  unfold rearrangeSpawn depositAt
  rw [mapless_id]
  rw [setSlot_worker, setSlot_worker]
  exact hmap

omit [DecidableEq K] [∀ k, Monoid (M k)] in
/-- Depositing commutes with what the worker does to its map and phase. -/
theorem setPhase_depositAt {c : State M} (hc : setPhase (c.modWorker w fun wk =>
      { wk with reducerMap := none }) w .running = setPhase s w .running)
    (hmap : (s.worker w).reducerMap = none) (phase : Phase M) (left right : Option (ReducerMap M)) :
    setPhase (depositAt c w p d left none right) w phase =
      setPhase (depositAt s w p d left none right) w phase := by
  have hff : c.ff = s.ff := by
    have hff := congrArg State.ff hc
    exact hff
  have hslot : leftSlotForSpawnReturn c p d = leftSlotForSpawnReturn s p d := by
    rw [leftSlotForSpawnReturn, hff]
    rfl
  have hdeposit : ∀ t : State M, setPhase (depositAt t w p d left none right) w phase =
      setPhase (((setPhase (t.modWorker w fun wk => { wk with reducerMap := none }) w .running).setSlot
        left (leftSlotForSpawnReturn t p d)).setSlot right (.rightMap d)) w phase := by
    intro t
    rw [setSlot_setPhase, setSlot_setPhase, setPhase_setPhase, setSlot_modWorker, setSlot_modWorker]
    rfl
  rw [hdeposit, hdeposit, hc, hslot, mapless_id hmap]

/-- Nothing is left to reduce, and the child is unlinked. The code runs in a state
that differs from the one the move starts in only in what the worker has in
hand. -/
theorem finishSpawnReturnOnUserStack_quiet {c u : State M}
    {left middle right l : Option (ReducerMap M)}
    (hphase : (s.worker w).phase = .spawnReduction left middle right)
    (hd : (s.worker w).frameFf = some d) (hp : (s.ff d).parent = some p) (hpd : p ≠ d)
    (hmap : (s.worker w).reducerMap = none)
    (hc : setPhase (c.modWorker w fun wk => { wk with reducerMap := none }) w .running =
      setPhase s w .running)
    (hre : Rearranged
      [s.slot (leftSlotForSpawnReturn s p d), left, middle, right, (s.ff d).rightReducerMap]
      [l, none, none, none, none])
    (h : finishSpawnReturnOnUserStack (depositAt c w p d l none none) w p d = .ok u) :
    Quiet force s (setPhase u w .spawnReturned) := by
  rw [finishSpawnReturnOnUserStack_ok (.spawnReduction none none none) hpd h,
    setPhase_depositAt hc hmap, ← rearrangeSpawn_eq hmap]
  refine .head (.rearrangeSpawn hphase hd hp hre) (keepsGiven_setPhase (by rw [setSlot_worker, setSlot_worker]))
    (.single (.finishReturn ?_ ?_ ?_ ?_) (.of_ite (fun _ => rfl) rfl))
  · exact congrArg Worker.phase (if_pos rfl)
  · show (if w = w then _ else _ : Worker M).frameFf = some d
    rw [if_pos rfl, setSlot_worker, setSlot_worker]
    exact hd
  · have hparent := (alike_setSlot (s := s.setSlot l (leftSlotForSpawnReturn s p d)) none
      (.rightMap d)).parent d
    exact hparent.trans (((alike_setSlot l _).parent d).trans hp)
  · exact slot_setSlot_self none (.rightMap d)

/-- A worker slides the maps around its child. The code runs in a state that
differs from the one the move starts in only in what the worker has in hand. -/
theorem slowPathReductionsForSpawnReturn_quiet {c t : State M}
    {left middle right m : Option (ReducerMap M)}
    (hphase : (s.worker w).phase = .spawnReduction left middle right)
    (hd : (s.worker w).frameFf = some d) (hp : (s.ff d).parent = some p) (hpd : p ≠ d)
    (hne : MapSlot.rightMap d ≠ leftSlotForSpawnReturn s p d)
    (hmap : (s.worker w).reducerMap = none)
    (hc : setPhase (c.modWorker w fun wk => { wk with reducerMap := none }) w .running =
      setPhase s w .running)
    (hm : (c.worker w).reducerMap = m)
    (hre : Rearranged
      [s.slot (leftSlotForSpawnReturn s p d), left, middle, right, (s.ff d).rightReducerMap]
      [s.slot (leftSlotForSpawnReturn s p d), none, m, none, (s.ff d).rightReducerMap])
    (h : slowPathReductionsForSpawnReturn c w p d = .ok t) : Quiet force s t := by
  have hff : c.ff = s.ff := by
    have hff := congrArg State.ff hc
    exact hff
  have hslot : leftSlotForSpawnReturn c p d = leftSlotForSpawnReturn s p d := by
    rw [leftSlotForSpawnReturn, hff]
    rfl
  have hget : ∀ a, c.slot a = s.slot a := fun a => by
    cases a <;> simp only [State.slot, hff]
  rw [slowPathReductionsForSpawnReturn_eq (by rwa [hslot]), hslot, hget, hget, hm] at h
  obtain ⟨hslide, htake⟩ := rearranged_slide (s.slot (leftSlotForSpawnReturn s p d)) m
    (s.slot (.rightMap d))
  have hnone := slide_right (l := s.slot (leftSlotForSpawnReturn s p d)) (m := m)
    (r := s.slot (.rightMap d))
  generalize slide (s.slot (leftSlotForSpawnReturn s p d)) m (s.slot (.rightMap d)) = a at *
  obtain ⟨l, m', r⟩ := a
  cases m' with
  | none =>
    obtain rfl : r = none := hnone rfl
    obtain ⟨u, hu, h⟩ := bind_eq_ok.mp h
    obtain rfl := pure_eq_ok.mp h
    exact finishSpawnReturnOnUserStack_quiet hphase hd hp hpd hmap hc (hre.trans hslide) hu
  | some m' =>
    obtain rfl := Except.ok.inj h
    rw [setPhase_depositAt hc hmap, ← rearrangeSpawn_eq hmap]
    exact .single (.rearrangeSpawn hphase hd hp (hre.trans htake)) (keepsGiven_setPhase (by rw [setSlot_worker, setSlot_worker]))

/-- At most one map is left around the child, and it is moved to the left. -/
theorem fastPathReductionsForSpawnReturn_cases {u : State M}
    (hne : MapSlot.rightMap d ≠ leftSlotForSpawnReturn s p d)
    (h : fastPathReductionsForSpawnReturn s w p d = some u) :
    ∃ l, u = depositAt s w p d l none none ∧ Rearranged
      [s.slot (leftSlotForSpawnReturn s p d), none, (s.worker w).reducerMap, none,
        (s.ff d).rightReducerMap] [l, none, none, none, none] := by
  have hset : ∀ (t : State M) m, (t.modFf d fun ff => { ff with rightReducerMap := m }) =
      t.setSlot m (.rightMap d) := fun _ _ => rfl
  have hget : (s.ff d).rightReducerMap = s.slot (.rightMap d) := rfl
  unfold fastPathReductionsForSpawnReturn at h
  unfold depositAt
  simp only [hset, hget] at h ⊢
  -- the fast path is taken with at most one of the three maps
  generalize leftSlotForSpawnReturn s p d = a at *
  have hsetOf : ∀ (t : State M) l b, t.slot b = l → t.setSlot l b = t := fun t l b hl =>
    hl ▸ setSlot_slot b
  have hid : (s.worker w).reducerMap = none → ∀ t : State M, t.worker = s.worker →
      (t.modWorker w fun wk => { wk with reducerMap := none }) = t := fun hm t ht =>
    mapless_id (by rw [ht, hm])
  cases hl : s.slot a with
  | none =>
    cases hm : (s.worker w).reducerMap with
    | none =>
      cases hr : s.slot (.rightMap d) with
      | none =>
        simp only [hl, hm, hr, Option.isSome_none] at h
        obtain rfl := Option.some.inj h
        refine ⟨none, ?_, Rearranged.refl _⟩
        rw [hsetOf _ _ _ hl, hsetOf _ _ _ hr, hid hm _ rfl]
      | some r =>
        simp only [hl, hm, hr, Option.isSome_none, Option.isSome_some] at h
        obtain rfl := Option.some.inj h
        refine ⟨some r, ?_, ?_⟩
        · rw [hid hm]
          rw [setSlot_worker, setSlot_worker]
        · refine ⟨?_, ?_, ?_⟩ <;> simp [valueOf, LeftmostFirst, hasLeftmost]
    | some m =>
      cases hr : s.slot (.rightMap d) with
      | none =>
        simp only [hl, hm, hr, Option.isSome_none, Option.isSome_some] at h
        obtain rfl := Option.some.inj h
        refine ⟨some m, ?_, ?_⟩
        · rw [hsetOf (s.setSlot (some m) a) none (.rightMap d)]
          rw [slot_setSlot_ne hne, hr]
        · refine ⟨?_, ?_, ?_⟩ <;> simp [valueOf, LeftmostFirst, hasLeftmost]
      | some r =>
        simp only [hl, hm, hr, Option.isSome_none, Option.isSome_some] at h
        cases h
  | some l =>
    cases hm : (s.worker w).reducerMap with
    | none =>
      cases hr : s.slot (.rightMap d) with
      | none =>
        simp only [hl, hm, hr, Option.isSome_none, Option.isSome_some] at h
        obtain rfl := Option.some.inj h
        refine ⟨some l, ?_, Rearranged.refl _⟩
        rw [hsetOf _ _ _ hl, hsetOf _ _ _ hr, hid hm _ rfl]
      | some r =>
        simp only [hl, hm, hr, Option.isSome_none, Option.isSome_some] at h
        cases h
    | some m =>
      simp only [hl, hm, Option.isSome_some] at h
      cases h

/-- A worker returns from a spawned frame. -/
theorem executeReductionsForSpawnReturn_quiet {t : State M}
    (hrun : (s.worker w).phase = .running) (hstack : (s.worker w).stack = [])
    (hd : (s.worker w).frameFf = some d) (hp : (s.ff d).parent = some p) (hpd : p ≠ d)
    (hdet : (s.ff d).frame.detached = true) (hcode : (s.ff d).frame.code = .ret)
    (hsync : (s.ff d).frame.unsynched = false)
    (hne : MapSlot.rightMap d ≠ leftSlotForSpawnReturn s p d)
    (h : executeReductionsForSpawnReturn s w = .ok t) : Quiet force s t := by
  refine .head (.beginReturn hrun hstack hd hp hdet hcode hsync) (.of_ite (fun _ => rfl) rfl) ?_
  have hphase : ((takeInHand s w (.spawnReduction none (s.worker w).reducerMap none)).worker
      w).phase = .spawnReduction none (s.worker w).reducerMap none :=
    congrArg Worker.phase (if_pos rfl)
  have hframe : ((takeInHand s w (.spawnReduction none (s.worker w).reducerMap none)).worker
      w).frameFf = some d := (congrArg Worker.frameFf (if_pos rfl)).trans hd
  have hmap : ((takeInHand s w (.spawnReduction none (s.worker w).reducerMap none)).worker
      w).reducerMap = none := congrArg Worker.reducerMap (if_pos rfl)
  have hc : setPhase (s.modWorker w fun wk => { wk with reducerMap := none }) w .running =
      setPhase (takeInHand s w (.spawnReduction none (s.worker w).reducerMap none)) w .running := by
    refine State.ext_of (fun u => ?_) (fun _ => rfl) (fun _ => rfl) rfl rfl rfl rfl fun _ => rfl
    by_cases hu : u = w
    · subst hu
      simp [setPhase, takeInHand]
    · simp [setPhase, takeInHand, hu]
  unfold executeReductionsForSpawnReturn at h
  rw [hd] at h
  dsimp only at h
  rw [hp] at h
  dsimp only at h
  split at h
  · rename_i u hu
    obtain ⟨v, hv, h⟩ := bind_eq_ok.mp h
    obtain rfl := pure_eq_ok.mp h
    obtain ⟨l, rfl, hre⟩ := fastPathReductionsForSpawnReturn_cases hne hu
    rw [← setPhase_eq]
    exact finishSpawnReturnOnUserStack_quiet hphase hframe hp hpd hmap hc hre hv
  · exact slowPathReductionsForSpawnReturn_quiet hphase hframe hp hpd hne hmap hc rfl
      (Rearranged.refl _) h

/-- A worker has finished the reductions of a spawn return. -/
theorem reduceForSpawnReturn_quiet {t : State M} {left middle right : Option (ReducerMap M)}
    (hphase : (s.worker w).phase = .spawnReduction left middle right)
    (hmap : (s.worker w).reducerMap = none)
    (hne : ∀ d p, (s.worker w).frameFf = some d → (s.ff d).parent = some p →
      p ≠ d ∧ MapSlot.rightMap d ≠ leftSlotForSpawnReturn s p d)
    (h : reduceForSpawnReturn s w left middle right = .ok t) : Quiet force s t := by
  unfold reduceForSpawnReturn at h
  obtain ⟨a, ha, h⟩ := bind_eq_ok.mp h
  obtain ⟨m, hm, h⟩ := bind_eq_ok.mp h
  dsimp only at h
  have hframe : ((s.modWorker w fun wk => { wk with reducerMap := m }).worker w).frameFf =
      (s.worker w).frameFf := by rw [modWorker_worker_self]
  split at h
  · exact nomatch h
  · rename_i d hd
    rw [hframe] at hd
    split at h
    · exact nomatch h
    · rename_i p hp
      obtain ⟨hpd, hne⟩ := hne d p hd hp
      refine slowPathReductionsForSpawnReturn_quiet hphase hd hp hpd hne hmap ?_
        (by rw [modWorker_worker_self]) ?_ h
      · rw [modWorker_modWorker]
        exact congrArg (setPhase · w .running) (mapless_id hmap)
      · have h1 := rearranged_merge [s.slot (leftSlotForSpawnReturn s p d)]
          [right, (s.ff d).rightReducerMap] ha
        have h2 := rearranged_merge [s.slot (leftSlotForSpawnReturn s p d), none]
          [(s.ff d).rightReducerMap] hm
        exact (h1.trans h2).trans (rearranged_middle _ m _)

end Spawn

end SwanRuntime.Runtime
