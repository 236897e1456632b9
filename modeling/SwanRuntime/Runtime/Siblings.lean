import SwanRuntime.Runtime.Linking

/-!
# The runtime — lists of children

A new frame is appended to the list of its parent, a child that has returned is
taken from it, and the other moves leave the lists alone.
-/

namespace SwanRuntime.Runtime

open Reducers

variable {K : Type} {M : K → Type} {s r : State M} {site site' : FrameId → Site}
  {w victim t u : WorkerId} {f d p : FrameId} {sf : StackFrame M} {young : List (StackFrame M)}
  {x : FiberId} {pf : PendingFrame} {rest child code : Code M} {init : ∀ k, M k}

-- ---------------------------------------------------------------------------
-- What a move does to the lists
-- ---------------------------------------------------------------------------

theorem Site.returned_iff {a : Site} :
    a.returned s = true ↔ ∃ v, a = .running v ∧ (s.worker v).phase = .spawnReturned := by
  cases a with
  | running v =>
    have hphase : (s.worker v).phase.returned = true ↔ (s.worker v).phase = .spawnReturned := by
      cases (s.worker v).phase <;> simp [Phase.returned]
    exact hphase.trans (by simp)
  | _ => simp [Site.returned]

/-- The frame is unlinked after the move if it was before. -/
theorem returned_congr {a b : Site}
    (h : ∀ v, (a = .running v ∧ (r.worker v).phase = .spawnReturned) ↔
      (b = .running v ∧ (s.worker v).phase = .spawnReturned)) : a.returned r = b.returned s := by
  rw [Bool.eq_iff_iff, Site.returned_iff, Site.returned_iff]
  exact exists_congr h

/-- The lists stay, and so do the frames they hold. -/
theorem Siblings.same (h : Siblings s site) (hgone : ∀ g, site' g = .gone ↔ site g = .gone)
    (hreturned : ∀ g v, (site' g = .running v ∧ (r.worker v).phase = .spawnReturned) ↔
      (site g = .running v ∧ (s.worker v).phase = .spawnReturned))
    (hparent : ∀ g, (r.ff g).parent = (s.ff g).parent)
    (hchildren : ∀ g, (r.ff g).children = (s.ff g).children) : Siblings r site' where
  mem p d hp := by
    rw [hchildren, hparent, returned_congr (hreturned d), ne_eq, hgone d]
    exact h.mem p d fun hp' => hp ((hgone p).mpr hp')
  nodup p hp := by
    rw [hchildren]
    exact h.nodup p fun hp' => hp ((hgone p).mpr hp')

/-- A new frame is appended to the list of its parent. -/
theorem Siblings.new {q : Option FrameId} (hs : Placed s site) (hl : Linked s site none)
    (h : Siblings s site) (hq : ∀ p, q = some p → site p ≠ .gone)
    (hgone : ∀ g, g ≠ s.nextFrame → (site' g = .gone ↔ site g = .gone))
    (hreturned : ∀ g, g ≠ s.nextFrame → ∀ v,
      (site' g = .running v ∧ (r.worker v).phase = .spawnReturned) ↔
      (site g = .running v ∧ (s.worker v).phase = .spawnReturned))
    (hparent : ∀ g, g ≠ s.nextFrame → (r.ff g).parent = (s.ff g).parent)
    (hchildren : ∀ g, g ≠ s.nextFrame → (r.ff g).children =
      if q = some g then (s.ff g).children ++ [s.nextFrame] else (s.ff g).children)
    (hnew : (r.ff s.nextFrame).parent = q) (hnil : (r.ff s.nextFrame).children = [])
    (hsite : site' s.nextFrame ≠ .gone ∧
      ∀ v, ¬ (site' s.nextFrame = .running v ∧ (r.worker v).phase = .spawnReturned)) :
    Siblings r site' := by
  have hfresh : ∀ g, site g ≠ .gone → g ≠ s.nextFrame := fun g hg heq => hg (heq ▸ hs.nextFrame)
  have hnot : ∀ p, site p ≠ .gone → s.nextFrame ∉ (s.ff p).children := fun p hp hin =>
    ((h.mem p _ hp).mp hin).1 hs.nextFrame
  constructor
  · intro p d hp
    -- the new frame has no children, and is at the end of its parent's
    by_cases hpn : p = s.nextFrame
    · rw [hpn, hnil]
      refine iff_of_false List.not_mem_nil ?_
      rintro ⟨hd, hdp, -⟩
      by_cases hdn : d = s.nextFrame
      · rw [hdn, hnew] at hdp
        exact hq _ hdp hs.nextFrame
      · rw [hparent d hdn] at hdp
        exact (hl.parent d _ (fun hd' => hd ((hgone d hdn).mpr hd')) hdp).1 hs.nextFrame
    · have hlive : site p ≠ .gone := fun hp' => hp ((hgone p hpn).mpr hp')
      rw [hchildren p hpn]
      by_cases hdn : d = s.nextFrame
      · subst hdn
        rw [hnew]
        by_cases hqp : q = some p
        · have hfalse : (site' s.nextFrame).returned r = false := by
            rw [← Bool.not_eq_true, Site.returned_iff]
            exact fun ⟨v, hv⟩ => hsite.2 v hv
          rw [if_pos hqp]
          exact iff_of_true (List.mem_append_right _ List.mem_cons_self) ⟨hsite.1, hqp, hfalse⟩
        · rw [if_neg hqp]
          exact iff_of_false (hnot p hlive) fun h' => hqp h'.2.1
      · rw [hparent d hdn, returned_congr (hreturned d hdn), ne_eq, hgone d hdn, ← ne_eq, ← h.mem p d hlive]
        split
        · rw [List.mem_append, List.mem_singleton]
          exact or_iff_left hdn
        · exact Iff.rfl
  · intro p hp
    by_cases hpn : p = s.nextFrame
    · rw [hpn, hnil]
      exact List.nodup_nil
    · have hlive : site p ≠ .gone := fun hp' => hp ((hgone p hpn).mpr hp')
      rw [hchildren p hpn]
      split
      · exact (h.nodup p hlive).append (List.nodup_singleton _)
          (List.disjoint_singleton.mpr (hnot p hlive))
      · exact h.nodup p hlive

/-- A frame that has returned is taken from the list of its parent. -/
theorem Siblings.unlink (h : Siblings s site) (hd : site d ≠ .gone)
    (hp : (s.ff d).parent = some p)
    (hgone : ∀ g, g ≠ d → (site' g = .gone ↔ site g = .gone))
    (hreturned : ∀ g, g ≠ d → ∀ v,
      (site' g = .running v ∧ (r.worker v).phase = .spawnReturned) ↔
      (site g = .running v ∧ (s.worker v).phase = .spawnReturned))
    (hparent : ∀ g, (r.ff g).parent = (s.ff g).parent)
    (hchildren : ∀ g, (r.ff g).children =
      if g = p then (s.ff g).children.erase d else (s.ff g).children)
    (hsite : site' d = .gone ∨ ∃ v, site' d = .running v ∧ (r.worker v).phase = .spawnReturned) : Siblings r site' := by
  have hlive : ∀ g, site' g ≠ .gone → site g ≠ .gone := by
    intro g hg
    by_cases hgd : g = d
    · rwa [hgd]
    · exact fun hg' => hg ((hgone g hgd).mpr hg')
  constructor
  · intro q e hq
    rw [hchildren, hparent]
    by_cases hed : e = d
    · subst hed
      refine iff_of_false ?_ ?_
      · by_cases hqp : q = p
        · rw [if_pos hqp]
          exact fun hin => (List.Nodup.mem_erase_iff (h.nodup q (hlive q hq))).mp hin |>.1 rfl
        · rw [if_neg hqp]
          intro hin
          have hparent' := ((h.mem q e (hlive q hq)).mp hin).2.1
          exact hqp (Option.some.inj (hparent'.symm.trans hp))
      · rintro ⟨hgone', -, hfalse⟩
        rcases hsite with hsite | hsite
        · exact hgone' hsite
        · exact nomatch (Site.returned_iff.mpr hsite).symm.trans hfalse
    · rw [returned_congr (hreturned e hed), ne_eq, hgone e hed, ← ne_eq, ← h.mem q e (hlive q hq)]
      split
      · exact List.mem_erase_of_ne hed
      · exact Iff.rfl
  · intro q hq
    rw [hchildren]
    split
    · exact (h.nodup q (hlive q hq)).erase d
    · exact h.nodup q (hlive q hq)

/-- A frame that is on no list is destroyed. -/
theorem Siblings.drop (h : Siblings s site) (hd : ∀ p, site p ≠ .gone → d ∉ (s.ff p).children)
    (hgone : ∀ g, site' g = .gone ↔ g = d ∨ site g = .gone)
    (hreturned : ∀ g, g ≠ d → ∀ v,
      (site' g = .running v ∧ (r.worker v).phase = .spawnReturned) ↔
      (site g = .running v ∧ (s.worker v).phase = .spawnReturned))
    (hparent : ∀ g, (r.ff g).parent = (s.ff g).parent)
    (hchildren : ∀ g, (r.ff g).children = (s.ff g).children) : Siblings r site' := by
  have hlive : ∀ g, site' g ≠ .gone → site g ≠ .gone := fun g hg hg' =>
    hg ((hgone g).mpr (Or.inr hg'))
  constructor
  · intro q e hq
    rw [hchildren, hparent]
    by_cases hed : e = d
    · subst hed
      exact iff_of_false (hd q (hlive q hq)) fun h' => h'.1 ((hgone e).mpr (Or.inl rfl))
    · rw [returned_congr (hreturned e hed), ne_eq, hgone e, or_iff_right hed]
      exact h.mem q e (hlive q hq)
  · intro q hq
    rw [hchildren]
    exact h.nodup q (hlive q hq)

-- ---------------------------------------------------------------------------
-- The moves
-- ---------------------------------------------------------------------------

theorem siblings_promoteCall (hs : Placed s site) (hl : Linked s site none) (h : Siblings s site)
    (hf : (s.worker victim).frameFf = some f) (hrun : (s.worker victim).phase = .running) :
    Siblings (promoteCall s victim f sf young)
    (Function.update (Function.update site f .suspended) s.nextFrame (.running victim)) := by
  have hsite : site f = .running victim := (hs.running victim f).mp hf
  have hlive : site f ≠ .gone := by
    rw [hsite]
    exact nofun
  refine h.new hs hl (q := some f) (fun p hp => Option.some.inj hp ▸ hlive) ?_ ?_ ?_ ?_ ?_ ?_ ?_
  all_goals grind [promoteCall, FullFrame.spawned, FullFrame.make]

theorem siblings_steal (hs : Placed s site) (hl : Linked s site none) (h : Siblings s site)
    (hf : (s.worker victim).frameFf = some f) (hrun : (s.worker victim).phase = .running) :
    Siblings (stealState s w victim f sf young (.fiber x))
    (Function.update (Function.update site f (.given w)) s.nextFrame (.running victim)) := by
  have hsite : site f = .running victim := (hs.running victim f).mp hf
  have hlive : site f ≠ .gone := by
    rw [hsite]
    exact nofun
  refine h.new hs hl (q := some f) (fun p hp => Option.some.inj hp ▸ hlive) ?_ ?_ ?_ ?_ ?_ ?_ ?_
  all_goals grind [stealState, Worker.robbed, FullFrame.looted, FullFrame.spawned, FullFrame.make]

theorem siblings_promote (hs : Placed s site) (hl : Linked s site none) (h : Siblings s site)
    (hf : (s.worker w).frameFf = some f) (hrun : (s.worker w).phase = .running) : Siblings
    (stealState s w w f sf young .placeholder)
    (Function.update (Function.update site f .suspended) s.nextFrame (.running w)) := by
  have hsite : site f = .running w := (hs.running w f).mp hf
  have hlive : site f ≠ .gone := by
    rw [hsite]
    exact nofun
  refine h.new hs hl (q := some f) (fun p hp => Option.some.inj hp ▸ hlive) ?_ ?_ ?_ ?_ ?_ ?_ ?_
  all_goals grind [stealState, Worker.robbed, FullFrame.looted, FullFrame.spawned, FullFrame.make]

theorem siblings_beginReturn (h : Siblings s site) (hrun : (s.worker w).phase = .running) :
    Siblings (takeInHand s w (.spawnReduction none (s.worker w).reducerMap none)) site := by
  refine h.same ?_ ?_ ?_ ?_
  all_goals grind [takeInHand]

theorem siblings_finishReturn (hs : Placed s site) (hl : Linked s site none) (h : Siblings s site)
    (hd : (s.worker w).frameFf = some d) (hp : (s.ff d).parent = some p) : Siblings
    (finishReturn s w p d) site := by
  have hsite : site d = .running w := (hs.running w d).mp hd
  have hlive : site d ≠ .gone := by
    rw [hsite]
    exact nofun
  have hlt : p < d := (hl.parent d p hlive hp).2
  have honly : ∀ g, site g = .running w → g = d := fun g hg =>
    Option.some.inj (((hs.running w g).mpr hg).symm.trans hd)
  have hworker : ((finishReturn s w p d).worker w).phase = .spawnReturned := by
    simp [finishReturn]
  refine h.unlink hlive hp ?_ ?_ ?_ ?_ (Or.inr ⟨w, hsite, hworker⟩)
  all_goals grind [finishReturn]

theorem siblings_beginSync (h : Siblings s site) (hrun : (s.worker w).phase = .running) : Siblings
    (beginSync s w f rest) site := by
  refine h.same ?_ ?_ ?_ ?_
  all_goals grind [beginSync_closed]

theorem siblings_suspend (h : Siblings s site)
    (hphase : (s.worker w).phase = .syncReduction none none) : Siblings (suspend s w f) site := by
  refine h.same ?_ ?_ ?_ ?_
  all_goals grind [suspend]

theorem siblings_leaveSync (hs : Placed s site) (h : Siblings s site)
    (hphase : (s.worker w).phase = .synching) (hf : (s.worker w).frameFf = some f) : Siblings
    (leaveFf s w) (Function.update site f .suspended) := by
  have hsite : site f = .running w := (hs.running w f).mp hf
  have hrunning := hs.running w
  refine h.same ?_ ?_ ?_ ?_
  all_goals grind [leaveFf]

theorem siblings_leaveSpawn (hs : Placed s site) (h : Siblings s site)
    (hphase : (s.worker w).phase = .spawnReturned) (hd : (s.worker w).frameFf = some d) : Siblings
    (dropFf (leaveFf s w) d) (Function.update site d .gone) := by
  have hsite : site d = .running w := (hs.running w d).mp hd
  have honly : ∀ g, site g = .running w → g = d := fun g hg =>
    Option.some.inj (((hs.running w g).mpr hg).symm.trans hd)
  have hworker : ∀ v, ((dropFf (leaveFf s w) d).worker v) =
      if v = w then { s.worker w with frameFf := none, phase := .scheduling } else s.worker v :=
    fun _ => rfl
  have hff := leaveSpawn_ff s w d
  refine h.drop (d := d) ?_ ?_ ?_ ?_ ?_
  · intro q hq hin
    have hfalse := ((h.mem q d hq).mp hin).2.2
    exact nomatch (Site.returned_iff.mpr ⟨w, hsite, hphase⟩).symm.trans hfalse
  all_goals grind

theorem siblings_countDown (h : Siblings s site) : Siblings (countDown s f) site := by
  refine h.same ?_ ?_ ?_ ?_
  all_goals grind [countDown_closed]

theorem siblings_handOver (h : Siblings s site) (hsite : site f = .suspended) : Siblings
    (handOver s f t) (Function.update site f (.given t)) := by
  refine h.same ?_ ?_ ?_ ?_
  all_goals grind [handOver]

theorem siblings_takeBack (h : Siblings s site) (hsite : site f = .suspended) : Siblings
    (takeBack s w f) (Function.update site f (.given w)) := by
  refine h.same ?_ ?_ ?_ ?_
  all_goals grind [takeBack]

theorem siblings_leaveCall (hs : Placed s site) (h : Siblings s site)
    (hrun : (s.worker w).phase = .running) (hf : (s.worker w).frameFf = some f) : Siblings
    (leaveCall s w f) (Function.update site f (.carried w)) := by
  have hsite : site f = .running w := (hs.running w f).mp hf
  have hrunning := hs.running w
  refine h.same ?_ ?_ ?_ ?_
  all_goals grind [leaveCall]

theorem siblings_finishCall (hs : Placed s site) (hl : Linked s site none) (h : Siblings s site)
    (hphase : (s.worker w).phase = .callReturning d) (hp : (s.ff d).parent = some p) : Siblings
    (finishCall s w p d) (Function.update (Function.update site d .gone) p (.running w)) := by
  have hsite : site d = .carried w := (hs.carried w d).mp hphase
  have hne : site d ≠ .gone := by
    rw [hsite]
    exact nofun
  have hpsite := hl.caller d p hne (hl.carried w d hsite).1 hp
  have hlt : p < d := (hl.parent d p hne hp).2
  have hcarried := hs.carried w
  refine h.unlink hne hp ?_ ?_ ?_ ?_ ?_
  all_goals grind [finishCall, FullFrame.resumed]

theorem siblings_resume (hs : Placed s site) (hwk : WorkersOk s) (h : Siblings s site)
    (hphase : (s.worker w).phase = .scheduling) (hnext : (s.worker w).nextFrameFf = some f) :
    Siblings (resumeState s w f) (Function.update site f (.running w)) := by
  have hsite : site f = .given w := (hs.given w f).mp hnext
  have hrunning := hs.running w
  have hidle : (s.worker w).frameFf = none := hwk.idle (by rw [hphase]; rfl)
  refine h.same ?_ ?_ ?_ ?_
  all_goals grind [resumeState, FullFrame.resumed]

theorem siblings_returnInitial (hs : Placed s site) (h : Siblings s site)
    (hf : (s.worker w).frameFf = some f)
    (hparent : (s.ff f).parent = none) : Siblings (returnInitial s w f)
    (Function.update site f .gone) := by
  have hsite : site f = .running w := (hs.running w f).mp hf
  have hrunning := hs.running w
  refine h.drop (d := f) ?_ ?_ ?_ ?_ ?_
  · intro q hq hin
    exact nomatch hparent.symm.trans ((h.mem q f hq).mp hin).2.1
  all_goals grind [returnInitial]

theorem siblings_bind [∀ k, Monoid (M k)] (hs : Placed s site) (hwk : WorkersOk s)
    (hl : Linked s site none) (h : Siblings s site) (hfree : (s.worker u).type = .free) : Siblings
    (bindThread s u code init) (Function.update site s.nextFrame (.running u)) := by
  have hphase : (s.worker u).phase = .unbound := (hwk.free u).mp hfree
  rw [bindThread_closed]
  refine h.new hs hl (q := none) (fun p hp => nomatch hp) ?_ ?_ ?_ ?_ ?_ ?_ ?_
  all_goals grind [initialFrame, FullFrame.make]

theorem siblings_detachPending [∀ k, Monoid (M k)] (hs : Placed s site) (hl : Linked s site none)
    (h : Siblings s site) (hf : (s.worker w).frameFf = some f) : Siblings
    (detachPending s w f child) (Function.update site s.nextFrame (.waiting none)) := by
  have hsite : site f = .running w := (hs.running w f).mp hf
  have hlive : site f ≠ .gone := by
    rw [hsite]
    exact nofun
  rw [detachPending_closed s w f child (hs.fresh f hlive)]
  refine h.new hs hl (q := some f) (fun p hp => Option.some.inj hp ▸ hlive) ?_ ?_ ?_ ?_ ?_ ?_ ?_
  all_goals grind [pendingFrame, FullFrame.make]

theorem siblings_makeReady (hs : Placed s site) (h : Siblings s site) (hpf : pf ∈ s.pending) :
    Siblings (makeReady s w pf) (Function.update site pf.frameFf (.waiting (some w))) := by
  have hsite : site pf.frameFf = .waiting none :=
    (hs.waiting none _).mp (List.mem_map_of_mem hpf)
  refine h.same ?_ ?_ ?_ ?_
  all_goals grind [makeReady_closed]

theorem siblings_readySteal (hs : Placed s site) (h : Siblings s site)
    (hpf : pf ∈ (s.worker victim).readyList) : Siblings (readyState s w victim pf)
    (Function.update site pf.frameFf (.given w)) := by
  have hsite : site pf.frameFf = .waiting (some victim) :=
    (hs.waiting (some victim) _).mp (List.mem_map_of_mem hpf)
  refine h.same ?_ ?_ ?_ ?_
  all_goals grind [readyState]

end SwanRuntime.Runtime
