import SwanRuntime.Runtime.Readings

/-!
# The runtime — every move keeps the readings

Each move takes a piece from one place and puts it, or what it amounts to, where the
reading has its neighbours: a steal puts a child where its parent was, a return the maps
of the child where the child was, and a sync the map of the parent to the right of its
last child.

## Results

* `Read.move`  — a move that makes no frame keeps the readings.
-/

namespace SwanRuntime.Runtime

open Reducers

variable {K : Type} [DecidableEq K] {M : K → Type} [∀ k, Monoid (M k)]
  {s r : State M} {site : FrameId → Site} {owed : Option FrameId} {w : WorkerId}
  {f d p : FrameId} {rest : Code M}

-- ---------------------------------------------------------------------------
-- Executing user code
-- ---------------------------------------------------------------------------

section Execute

variable {sf : StackFrame M} {x : ∀ k, M k} {m : Option (ReducerMap M)}
  {q l : List (StackFrame M)}

/-- The current frame gets on by `x`: the worker's map is multiplied by it, or a callee
that will return as much is pushed. -/
theorem Read.progress (hs : Shape s site owed) (h : Read s site) (hexec : Executing s w sf)
    (hf : (s.worker w).frameFf = some f) (hcode : sf.code.product = x * rest.product)
    (hheld : heldOf q (value m) = value (s.worker w).reducerMap * x) (hfed : Fed q (value m))
    (hnil : (s.worker w).stack = [] →
      (∀ v, r.worker v = if v = w then { s.worker w with stack := q, reducerMap := m }
        else s.worker v) ∧
      ∀ g, r.ff g = if g = f then { s.ff f with frame := (s.ff f).frame.advance x rest }
        else s.ff g)
    (happ : ∀ l, (s.worker w).stack = l ++ [sf] →
      (∀ v, r.worker v = if v = w then
          { s.worker w with stack := l ++ sf.advance x rest :: q, reducerMap := m }
        else s.worker v) ∧ ∀ g, r.ff g = s.ff g)
    (hpending : r.pending = s.pending) : Read r site := by
  rcases List.eq_nil_or_concat (s.worker w).stack with hstack | ⟨l, a, hstack⟩
  · obtain ⟨hworker, hff⟩ := hnil hstack
    have hframe : (s.ff f).frame = sf := current_eq hstack hf hexec.2
    refine h.advance hs hexec.1 hf hworker hff hpending rfl ?_ (fun y hy => ?_) fun _ => hfed
    · exact advance_total (by rw [hframe, hcode])
    · rw [hstack] at hy
      rw [advance_sofar, hheld, ← hy, mul_assoc]
      rfl
  · rw [List.concat_eq_append] at hstack
    have ha : a = sf := by
      have hcurrent := hexec.2
      rw [State.current, hstack, List.getLast?_append] at hcurrent
      exact Option.some.inj hcurrent
    subst ha
    obtain ⟨hworker, hff⟩ := happ l hstack
    have htotal : (a.advance x rest).total = a.total := advance_total hcode
    refine h.advance (a := (s.ff f).frame) hs hexec.1 hf hworker (fun g => ?_) hpending rfl rfl
      (fun y hy => ?_) fun hold => ?_
    · rw [hff, ← ff_ite]
    · rw [hstack, heldOf_append] at hy
      rw [heldOf_append, heldOf, htotal]
      exact hy
    · rw [hstack, fed_append] at hold
      rw [fed_append, heldOf, htotal, Fed, advance_sofar, hold.2.1, hheld]
      exact ⟨hold.1, rfl, hfed⟩

omit [DecidableEq K] [∀ k, Monoid (M k)] in
theorem modCurrent_nil {G : StackFrame M → StackFrame M} (hstack : (s.worker w).stack = [])
    (hf : (s.worker w).frameFf = some f) : s.modCurrent w G = s.modFrame f G := by
  rw [State.modCurrent, hstack, hf]
  rfl

omit [DecidableEq K] [∀ k, Monoid (M k)] in
theorem modCurrent_append {G : StackFrame M → StackFrame M}
    (hstack : (s.worker w).stack = l ++ [sf]) :
    s.modCurrent w G = s.modWorker w fun wk => { wk with stack := l ++ [G sf] } := by
  have hlast : (s.worker w).stack.getLast? = some sf := by
    rw [hstack, List.getLast?_append]
    rfl
  rw [State.modCurrent, hlast]
  simp only [State.modWorker, hstack, List.dropLast_concat]

omit [DecidableEq K] [∀ k, Monoid (M k)] in
theorem modCurrent_pending (G : StackFrame M → StackFrame M) :
    (s.modCurrent w G).pending = s.pending := by
  unfold State.modCurrent
  split
  · rfl
  · split <;> rfl

theorem read_update {k : K} {y : M k} (hs : Shape s site owed) (h : Read s site)
    (hexec : Executing s w sf) (hf : (s.worker w).frameFf = some f)
    (hcode : sf.code = .update k y rest) :
    Read ((updateReducer s w k y).modCurrent w fun sf => sf.advance (Pi.mulSingle k y) rest)
      site := by
  have hvalue : heldOf [] (value (some (((s.worker w).reducerMap.getD makeReducerMap).update k y))) =
      value (s.worker w).reducerMap * Pi.mulSingle k y := by
    rw [heldOf, value_update]
    cases (s.worker w).reducerMap with
    | none => rw [Option.getD_none, value_makeReducerMap, value_none]
    | some m => rfl
  have hself : (updateReducer s w k y).worker w = { s.worker w with
      reducerMap := some (((s.worker w).reducerMap.getD makeReducerMap).update k y) } :=
    modWorker_worker_self ..
  refine h.progress (q := []) (x := Pi.mulSingle k y)
    (m := some (((s.worker w).reducerMap.getD makeReducerMap).update k y)) hs hexec hf
    (by rw [hcode]; rfl) hvalue trivial (fun hstack => ?_) (fun l hstack => ?_)
    (modCurrent_pending _)
  · rw [modCurrent_nil (f := f) (by rw [hself, hstack]) (by rw [hself, hf])]
    refine ⟨fun v => ?_, fun g => ?_⟩
    · by_cases hv : v = w
      · simp [State.modFrame, hv, hself, hstack]
      · simp [State.modFrame, updateReducer, hv]
    · by_cases hg : g = f
      · simp [State.modFrame, updateReducer, hg]
      · simp [State.modFrame, updateReducer, hg]
  · rw [modCurrent_append (l := l) (by rw [hself, hstack])]
    refine ⟨fun v => ?_, fun g => rfl⟩
    by_cases hv : v = w
    · simp [hv, hself]
    · simp [updateReducer, hv]

theorem read_skip (hs : Shape s site owed) (h : Read s site) (hexec : Executing s w sf)
    (hf : (s.worker w).frameFf = some f) (hcode : sf.code = .sync rest) :
    Read (s.modCurrent w fun sf => sf.advance 1 rest) site := by
  have hproduct : sf.code.product = 1 * rest.product := by
    rw [hcode, one_mul]
    rfl
  refine h.progress (q := []) (m := (s.worker w).reducerMap) hs hexec hf hproduct (mul_one _).symm
    trivial (fun hstack => ?_) (fun l hstack => ?_) (modCurrent_pending _)
  · rw [modCurrent_nil hstack hf]
    refine ⟨fun v => ?_, fun g => ?_⟩
    · by_cases hv : v = w
      · simp [State.modFrame, hv, ← hstack]
      · simp [State.modFrame, hv]
    · by_cases hg : g = f
      · simp [State.modFrame, hg]
      · simp [State.modFrame, hg]
  · rw [modCurrent_append hstack]
    refine ⟨fun v => ?_, fun g => rfl⟩
    by_cases hv : v = w
    · simp [hv]
    · simp [hv]

theorem read_enter {child : Code M} {detached : Bool} (hs : Shape s site owed) (h : Read s site)
    (hexec : Executing s w sf) (hf : (s.worker w).frameFf = some f)
    (hcode : sf.code = if detached then .spawn child rest else .call child rest) :
    Read (pushStackFrame (s.modCurrent w fun sf => sf.advance child.product rest) w
      (enterFrame s w child detached)) site := by
  have hproduct : sf.code.product = child.product * rest.product := by
    rw [hcode]
    cases detached <;> rfl
  have hentry : (enterFrame s w child detached).sofar = value (s.worker w).reducerMap := mul_one _
  refine h.progress (q := [enterFrame s w child detached]) (x := child.product)
    (m := (s.worker w).reducerMap) hs hexec hf hproduct ?_ ⟨hentry, trivial⟩ (fun hstack => ?_)
    (fun l hstack => ?_) (modCurrent_pending _)
  · rw [← hentry]
    rfl
  · rw [modCurrent_nil hstack hf]
    refine ⟨fun v => ?_, fun g => ?_⟩
    · by_cases hv : v = w
      · simp [pushStackFrame, State.modFrame, hv, hstack]
      · simp [pushStackFrame, State.modFrame, hv]
    · by_cases hg : g = f
      · simp [pushStackFrame, State.modFrame, hg]
      · simp [pushStackFrame, State.modFrame, hg]
  · rw [modCurrent_append hstack]
    refine ⟨fun v => ?_, fun g => rfl⟩
    by_cases hv : v = w
    · simp [pushStackFrame, hv]
    · simp [pushStackFrame, hv]

/-- A frame returns to its caller on the stack. -/
theorem read_exit (hs : Shape s site owed) (h : Read s site) (hexec : Executing s w sf)
    (hf : (s.worker w).frameFf = some f) (hcode : sf.code = .ret)
    (hstack : (s.worker w).stack ≠ []) :
    Read (s.modWorker w fun wk => { wk with stack := wk.stack.dropLast }) site := by
  rcases List.eq_nil_or_concat (s.worker w).stack with hnil | ⟨l, a, hl⟩
  · exact absurd hnil hstack
  · rw [List.concat_eq_append] at hl
    have ha : a = sf := by
      have hcurrent := hexec.2
      rw [State.current, hl, List.getLast?_append] at hcurrent
      exact Option.some.inj hcurrent
    subst ha
    have hfed := h.stack w hexec.1
    rw [hl, fed_append] at hfed
    have htotal : a.total = value (s.worker w).reducerMap := (total_ret hcode).trans hfed.2.1
    refine h.advance (a := (s.ff f).frame) (l := l) (m := (s.worker w).reducerMap) hs hexec.1 hf
      (fun v => ?_) (ff_ite f) rfl rfl rfl (fun y hy => ?_) fun _ => ?_
    · by_cases hv : v = w
      · simp [hv, hl]
      · simp [hv]
    · rw [hl, heldOf_append, heldOf, htotal] at hy
      exact hy
    · rw [← htotal]
      exact hfed.1

end Execute

-- ---------------------------------------------------------------------------
-- Returning from a spawn
-- ---------------------------------------------------------------------------

theorem read_beginReturn (hs : Shape s site owed) (h : Read s site)
    (hrun : (s.worker w).phase = .running) (hstack : (s.worker w).stack = [])
    (hd : (s.worker w).frameFf = some d) (hcode : (s.ff d).frame.code = .ret)
    (hsync : (s.ff d).frame.unsynched = false) :
    Read (takeInHand s w (.spawnReduction none (s.worker w).reducerMap none)) site := by
  have hsite : site d = .running w := (hs.placed.running w d).mp hd
  have hlive : site d ≠ .gone := by simp [hsite]
  have htotal := h.ends hs hrun hstack hd hcode hsync
  have hkept : Read (takeInHand s w (.spawnReduction none (s.worker w).reducerMap none))
      (Function.update site d (.running w)) := by
    refine h.focusOf hlive (fun g hg v hv => hs.placed.apart hsite (by simp [hrun]) hg hv)
      (fun _ => rfl) (ff_ite d) rfl (fun g _ _ => ?_) (fun hsettled => ?_) (by simp) (by simp)
      (fun _ hgiven => h.cleared d hlive (by simp [hsite])) rfl rfl
    · rw [share_plain (by simp [hsite, hrun]), htotal]
      congr 1
      simp [State.hand, takeInHand, Worker.inHand, valueOf]
    · simp [Site.settled, takeInHand, Phase.leaving] at hsettled
  rwa [← hsite, Function.update_eq_self] at hkept

omit [DecidableEq K] [∀ k, Monoid (M k)] in
/-- A child that has no left sibling is the first. -/
theorem leftSibling_none {l : List FrameId} (hd : d ∈ l) (h : leftSibling l d = none) :
    ∃ post, l = d :: post := by
  induction l with
  | nil => exact absurd hd List.not_mem_nil
  | cons a l ih =>
    rcases List.mem_cons.mp hd with rfl | hd
    · exact ⟨l, rfl⟩
    · cases l with
      | nil => exact absurd hd List.not_mem_nil
      | cons b l =>
        rw [leftSibling] at h
        split at h
        · exact absurd h (by simp)
        · rename_i hne
          obtain ⟨post, hpost⟩ := ih hd h
          exact absurd (List.cons.inj hpost).1 hne

omit [DecidableEq K] [∀ k, Monoid (M k)] in
/-- A left sibling stands just before the child. -/
theorem leftSibling_some {l : List FrameId} {a : FrameId} (h : leftSibling l d = some a) :
    ∃ pre post, l = pre ++ a :: d :: post := by
  induction l with
  | nil => exact absurd h (by simp [leftSibling])
  | cons b l ih =>
    cases l with
    | nil => exact absurd h (by simp [leftSibling])
    | cons c l =>
      rw [leftSibling] at h
      split at h
      · rename_i hcd
        obtain rfl := Option.some.inj h
        exact ⟨[], l, by rw [hcd]; rfl⟩
      · obtain ⟨pre, post, hl⟩ := ih h
        exact ⟨b :: pre, post, by rw [hl]; rfl⟩

omit [DecidableEq K] in
/-- A child that amounts to nothing can be taken away. -/
theorem prod_erase {l : List FrameId} {F : FrameId → ∀ k, M k} (h : F d = 1) :
    ((l.erase d).map F).prod = (l.map F).prod := by
  induction l with
  | nil => rfl
  | cons a l ih =>
    by_cases had : a = d
    · subst had
      rw [List.erase_cons_head, List.map_cons, List.prod_cons, h, one_mul]
    · rw [List.erase_cons_tail (by simpa using had), List.map_cons, List.map_cons, List.prod_cons,
        List.prod_cons, ih]

section Neighbours

variable {left middle right left' l' m' r' right' : Option (ReducerMap M)}

omit [DecidableEq K] [∀ k, Monoid (M k)] in
theorem setSlot_frame (m : Option (ReducerMap M)) (a : MapSlot) (g : FrameId) :
    ((s.setSlot m a).ff g).frame = (s.ff g).frame := by
  cases a with
  | childrenMap f =>
    by_cases hg : g = f
    · simp [State.setSlot, hg]
    · simp [State.setSlot, hg]
  | rightMap f =>
    by_cases hg : g = f
    · simp [State.setSlot, hg]
    · simp [State.setSlot, hg]

/-- A worker that returns from a child changes what is around it. -/
theorem Read.around (hs : Shape s site owed) (h : Read s site)
    (hd : site d = .running w) (hp : (s.ff d).parent = some p)
    (hphase : (s.worker w).phase.leaving = true) (hphase' : (r.worker w).phase.leaving = true)
    (hother : ∀ v, v ≠ w → (s.worker v).Same (r.worker v))
    (hframe : ∀ g, (r.ff g).frame = (s.ff g).frame)
    (hchildren : ∀ g, g ≠ p → (r.ff g).children = (s.ff g).children)
    (hmap : ∀ g, g ≠ p → (r.ff g).childrenReducerMap = (s.ff g).childrenReducerMap)
    (hright : ∀ e, e ∉ (s.ff p).children → e ≠ d →
      (r.ff e).rightReducerMap = (s.ff e).rightReducerMap)
    (hreading : (∀ e, e ≠ d → (r.ff e).rightReducerMap = (s.ff e).rightReducerMap →
        r.share site e = s.share site e) →
      value (r.ff p).childrenReducerMap * ((r.ff p).children.map (r.share site)).prod =
        value (s.ff p).childrenReducerMap * ((s.ff p).children.map (s.share site)).prod)
    (hplace : ∀ a, r.place a = s.place a) : Read r site := by
  have hlive : site d ≠ .gone := by simp [hd]
  obtain ⟨hplive, hlt⟩ := hs.linked.parent d p hlive hp
  have hne : p ≠ d := Nat.ne_of_lt hlt
  obtain ⟨hdet, -⟩ := hs.linked.leaving w d hd hphase
  have hunsynched := hs.linked.spawned d p hlive hp (hs.linked.detached d hlive hdet).1
  have hnot : ∀ e, (s.worker w).phase ≠ .callReturning e := by
    intro e he
    rw [he] at hphase
    exact Bool.false_ne_true hphase
  have hworker : ∀ g, g ≠ d → ∀ v, site g = .running v ∨ site g = .carried v →
      (s.worker v).Same (r.worker v) := fun g hg v hv =>
    hother v (hs.placed.apart hd hnot hg hv)
  -- the other children have what they had
  have hshare : ∀ e, e ≠ d → (r.ff e).rightReducerMap = (s.ff e).rightReducerMap →
      r.share site e = s.share site e := by
    intro e he hsame
    unfold State.share
    rw [hsame, hand_congr rfl (congrArg StackFrame.total (hframe e))
      fun v hv => inHand_congr (hworker e he v (.inl hv)).1 _]
  have hapart : Apart s r site site [p, d] := by
    refine ⟨fun _ _ => rfl, fun g hg => hworker g ?_, fun g _ => hframe g, fun g hg => hmap g ?_,
      fun g hg => hchildren g ?_⟩
    all_goals
      rintro rfl
      simp at hg
  refine h.apart hapart (fun g hg hglive e he => ?_) (fun g hg hsettled => ?_) (fun v hv => ?_)
    (fun e he v hv => ?_) (fun g hg hgone hgiven hsync => ?_) hplace
  · have hparent := (hs.parent_of_mem hglive he).2
    have hgp : g ≠ p := by
      rintro rfl
      simp at hg
    have hed : e ≠ d := by
      rintro rfl
      exact hgp (Option.some.inj (hparent.symm.trans hp))
    refine hshare e hed (hright e (fun hep => hgp ?_) hed)
    exact Option.some.inj (hparent.symm.trans (hs.parent_of_mem hplive hep).2)
  · rcases List.mem_cons.mp hg with rfl | hg
    · rw [settled_congr rfl fun v hv => congrArg Phase.leaving (hworker g hne v (.inl hv)).1]
        at hsettled
      have hold := h.frame g hsettled
      unfold State.reading at hold ⊢
      rw [hreading hshare, own_congr rfl fun v hv => (hworker g hne v (.inl hv)).held, hold, hframe]
    · obtain rfl := List.mem_singleton.mp hg
      rw [hd, Site.settled, hphase'] at hsettled
      exact absurd hsettled (by simp)
  · by_cases hvw : v = w
    · subst hvw
      rw [hv] at hphase'
      exact absurd hphase' (by simp [Phase.leaving])
    · exact .inl (hother v hvw)
  · rw [hframe, h.carried v e hv]
    rcases List.mem_cons.mp he with rfl | he
    · rw [(hworker e hne v (.inr hv)).2.2]
    · obtain rfl := List.mem_singleton.mp he
      exact absurd (hd.symm.trans hv) (by simp)
  · rw [hframe] at hsync
    rcases List.mem_cons.mp hg with rfl | hg
    · exact absurd (hunsynched.symm.trans hsync) (by simp)
    · obtain rfl := List.mem_singleton.mp hg
      rw [hmap g hne.symm]
      exact h.cleared g hgone hgiven hsync

/-- The maps around a child are rearranged: its parent reads the same. -/
theorem read_rearrangeSpawn (hs : Shape s site none) (h : Read s site)
    (hphase : (s.worker w).phase = .spawnReduction left middle right)
    (hd : (s.worker w).frameFf = some d) (hp : (s.ff d).parent = some p)
    (hre : Rearranged
      [s.slot (leftSlotForSpawnReturn s p d), left, middle, right, (s.ff d).rightReducerMap]
      [left', l', m', r', right']) :
    Read (rearrangeSpawn s w p d (.spawnReduction l' m' r') left' right') site := by
  have hsite : site d = .running w := (hs.placed.running w d).mp hd
  have hlive : site d ≠ .gone := by simp [hsite]
  obtain ⟨hplive, hlt⟩ := hs.linked.parent d p hlive hp
  have hmem : d ∈ (s.ff p).children := by
    refine (hs.siblings.mem p d hplive).mpr ⟨hlive, hp, ?_⟩
    rw [hsite, Site.returned, hphase]
    rfl
  have hnodup := hs.siblings.nodup p hplive
  have hslotne := rightMap_ne_leftSlot (d := d) hs hplive
  generalize ht : rearrangeSpawn s w p d (.spawnReduction l' m' r') left' right' = t
  have hworker : ∀ v, t.worker v =
      if v = w then { s.worker w with phase := .spawnReduction l' m' r' } else s.worker v := by
    intro v
    subst ht
    simp [rearrangeSpawn, setPhase, setSlot_worker]
  have halike : Alike s t := ht ▸ alike_rearrangeSpawn hphase
  have hframe : ∀ g, (t.ff g).frame = (s.ff g).frame := by
    intro g
    subst ht
    exact (setSlot_frame right' (.rightMap d) g).trans (setSlot_frame left' _ g)
  have hslots : ∀ b, b ≠ .rightMap d → b ≠ leftSlotForSpawnReturn s p d → t.slot b = s.slot b := by
    intro b hb hb'
    subst ht
    exact (slot_setSlot_ne hb right').trans (slot_setSlot_ne hb' left')
  have hright : (t.ff d).rightReducerMap = right' := by
    subst ht
    exact slot_setSlot_self (s := s.setSlot left' _) right' (.rightMap d)
  have hleft : t.slot (leftSlotForSpawnReturn s p d) = left' := by
    subst ht
    exact (slot_setSlot_ne hslotne.symm right').trans (slot_setSlot_self left' _)
  -- the five maps around the child amount to the same
  have hfive : value left' * t.share site d =
      value (s.slot (leftSlotForSpawnReturn s p d)) * s.share site d := by
    have hvalue := hre.value
    simp only [valueOf, List.map_cons, List.map_nil, List.prod_cons, List.prod_nil, mul_one]
      at hvalue
    simp only [State.share, hsite, State.hand, Worker.inHand, hworker, if_true, hphase, hright,
      valueOf, List.map_cons, List.map_nil, List.prod_cons, List.prod_nil, mul_one, mul_assoc]
    exact hvalue
  refine h.around hs hsite hp (by rw [hphase]; rfl) (by rw [hworker, if_pos rfl]; rfl)
    (fun v hv => ?_) hframe (fun g _ => halike.children g) (fun g hg => ?_) (fun e he hed => ?_)
    (fun hshare => ?_) halike.place
  · rw [hworker, if_neg hv]
    exact .refl _
  · refine hslots (.childrenMap g) (by simp) ?_
    unfold leftSlotForSpawnReturn
    split
    · simp
    · simpa using hg
  · refine hslots (.rightMap e) (by simpa using hed) ?_
    unfold leftSlotForSpawnReturn
    split
    · rename_i a ha
      obtain ⟨pre, post, hl⟩ := leftSibling_some ha
      rintro heq
      obtain rfl := MapSlot.rightMap.inj heq
      exact he (by simp [hl])
    · simp
  · rw [halike.children]
    have hrights : ∀ e, e ≠ d → .rightMap e ≠ leftSlotForSpawnReturn s p d →
        t.share site e = s.share site e := fun e he hslot =>
      hshare e he (hslots (.rightMap e) (by simpa using he) hslot)
    cases hsibling : leftSibling (s.ff p).children d with
    | none =>
      -- the child is the first one
      have hslot : leftSlotForSpawnReturn s p d = .childrenMap p := by
        rw [leftSlotForSpawnReturn, hsibling]
      rw [hslot] at hleft hfive
      obtain ⟨post, hl⟩ := leftSibling_none hmem hsibling
      rw [hl] at hnodup ⊢
      have hpost : post.map (t.share site) = post.map (s.share site) := by
        refine List.map_congr_left fun e he => hrights e ?_ (by simp [hslot])
        rintro rfl
        exact (List.nodup_cons.mp hnodup).1 he
      have hmap : (t.ff p).childrenReducerMap = left' := hleft
      have hmap' : s.slot (.childrenMap p) = (s.ff p).childrenReducerMap := rfl
      rw [List.map_cons, List.map_cons, List.prod_cons, List.prod_cons, hpost, hmap, ← mul_assoc,
        hfive, hmap', mul_assoc]
    | some a =>
      -- the child has a left sibling
      have hslot : leftSlotForSpawnReturn s p d = .rightMap a := by
        rw [leftSlotForSpawnReturn, hsibling]
      rw [hslot] at hleft hfive
      obtain ⟨pre, post, hl⟩ := leftSibling_some hsibling
      rw [hl] at hnodup ⊢
      obtain ⟨-, htail, hdisjoint⟩ := List.nodup_append.mp hnodup
      have had : a ≠ d := leftSibling_ne (hl ▸ hs.siblings.nodup p hplive) (hl ▸ hsibling)
      have hpre : pre.map (t.share site) = pre.map (s.share site) := by
        refine List.map_congr_left fun e he => hrights e ?_ ?_
        · exact hdisjoint e he d (by simp)
        · rw [hslot]
          exact fun heq => hdisjoint e he a (by simp) (MapSlot.rightMap.inj heq)
      have hpost : post.map (t.share site) = post.map (s.share site) := by
        obtain ⟨hnota, htail⟩ := List.nodup_cons.mp htail
        refine List.map_congr_left fun e he => hrights e ?_ ?_
        · rintro rfl
          exact (List.nodup_cons.mp htail).1 he
        · rw [hslot]
          rintro heq
          obtain rfl := MapSlot.rightMap.inj heq
          exact hnota (List.mem_cons_of_mem _ he)
      have hmap : (t.ff p).childrenReducerMap = (s.ff p).childrenReducerMap :=
        hslots (.childrenMap p) (by simp) (by simp [hslot])
      have hrighta : (t.ff a).rightReducerMap = left' := hleft
      have hrighta' : s.slot (.rightMap a) = (s.ff a).rightReducerMap := rfl
      have hhand : t.hand (t.ff a).frame.total (site a) = s.hand (s.ff a).frame.total (site a) := by
        refine hand_congr rfl (congrArg StackFrame.total (hframe a)) fun v hv => inHand_congr ?_ _
        rw [hworker, if_neg (hs.placed.apart hsite (by simp [hphase]) had (.inl hv))]
      -- the map to the right of the sibling is the one to the left of the child
      have hpair : t.share site a * t.share site d = s.share site a * s.share site d := by
        rw [State.share, hhand, hrighta, mul_assoc, hfive, hrighta', ← mul_assoc]
        rfl
      rw [List.map_append, List.map_append, List.prod_append, List.prod_append, hpre, hmap]
      simp only [List.map_cons, List.prod_cons, hpost]
      rw [← mul_assoc (t.share site a), hpair, mul_assoc]

/-- A child with nothing left is unlinked. -/
theorem read_finishReturn (hs : Shape s site none) (h : Read s site)
    (hphase : (s.worker w).phase = .spawnReduction none none none)
    (hd : (s.worker w).frameFf = some d) (hp : (s.ff d).parent = some p)
    (hright : (s.ff d).rightReducerMap = none) : Read (finishReturn s w p d) site := by
  have hsite : site d = .running w := (hs.placed.running w d).mp hd
  have hlive : site d ≠ .gone := by simp [hsite]
  obtain ⟨hplive, hlt⟩ := hs.linked.parent d p hlive hp
  have hne : p ≠ d := Nat.ne_of_lt hlt
  have hffp : ((finishReturn s w p d).ff p).children = (s.ff p).children.erase d ∧
      ((finishReturn s w p d).ff p).childrenReducerMap = (s.ff p).childrenReducerMap := by
    simp [finishReturn, hne]
  have hff : ∀ g, ((finishReturn s w p d).ff g).frame = (s.ff g).frame ∧
      ((finishReturn s w p d).ff g).childrenReducerMap = (s.ff g).childrenReducerMap ∧
      ((finishReturn s w p d).ff g).rightReducerMap = (s.ff g).rightReducerMap ∧
      (g ≠ p → ((finishReturn s w p d).ff g).children = (s.ff g).children) := by
    intro g
    by_cases hgd : g = d
    · subst hgd
      simp [finishReturn]
    · by_cases hgp : g = p
      · subst hgp
        simp [finishReturn, hgd]
      · simp [finishReturn, hgd, hgp]
  refine h.around hs hsite hp (by rw [hphase]; rfl) (by simp [finishReturn, Phase.leaving])
    (fun v hv => ?_) (fun g => (hff g).1) (fun g => (hff g).2.2.2) (fun g _ => (hff g).2.1)
    (fun e _ _ => (hff e).2.2.1) (fun hshare => ?_) (place_ite rfl (fun _ => rfl) rfl)
  · rw [show (finishReturn s w p d).worker v = s.worker v from if_neg hv]
    exact .refl _
  · have hone : s.share site d = 1 := by
      rw [State.share, hright, hsite, State.hand, Worker.inHand, hphase]
      simp [valueOf]
    have hnodup := hs.siblings.nodup p hplive
    rw [hffp.1, hffp.2, ← prod_erase hone]
    congr 2
    refine List.map_congr_left fun e he => hshare e ?_ (hff e).2.2.1
    rintro rfl
    exact (hnodup.mem_erase_iff.mp he).1 rfl

end Neighbours

theorem read_leaveSpawn (hs : Shape s site owed) (h : Read s site)
    (hphase : (s.worker w).phase = .spawnReturned) (hd : (s.worker w).frameFf = some d) :
    Read (dropFf (leaveFf s w) d) (Function.update site d .gone) := by
  have hsite : site d = .running w := (hs.placed.running w d).mp hd
  have hlive : site d ≠ .gone := by simp [hsite]
  refine h.focusOf hlive (fun g hg v hv => hs.placed.apart hsite (by simp [hphase]) hg hv)
    (fun _ => rfl) (fun _ => rfl) rfl (fun g hg hmem => ?_) (by simp [Site.settled]) (by simp)
    (by simp) (fun hgone => absurd rfl hgone) rfl rfl
  -- its parent has unlinked it
  have hreturned := ((hs.siblings.mem g d hg).mp hmem).2.2
  rw [hsite, Site.returned, hphase] at hreturned
  exact absurd hreturned (by simp [Phase.returned])

-- ---------------------------------------------------------------------------
-- Syncing
-- ---------------------------------------------------------------------------

theorem read_beginSync (hs : Shape s site owed) (h : Read s site)
    (hrun : (s.worker w).phase = .running) (hstack : (s.worker w).stack = [])
    (hf : (s.worker w).frameFf = some f)
    (hcode : (s.ff f).frame.code = .sync rest ∨ (s.ff f).frame.code = .ret ∧ rest = .ret) :
    Read (beginSync s w f rest) site := by
  have hsite : site f = .running w := (hs.placed.running w f).mp hf
  have hlive : site f ≠ .gone := by simp [hsite]
  have hold := h.frame f (by simp [hsite, Site.settled, hrun, Phase.leaving])
  have hproduct : rest.product = (s.ff f).frame.code.product := by
    rcases hcode with hcode | ⟨hcode, rfl⟩
    · rw [hcode]
      rfl
    · rw [hcode]
  have hkept : Read (beginSync s w f rest) (Function.update site f (.running w)) := by
    rw [beginSync_closed]
    refine h.focusOf hlive (fun g hg v hv => hs.placed.apart hsite (by simp [hrun]) hg hv)
      (fun _ => rfl) (fun _ => rfl) rfl (fun g _ _ => ?_) (fun hsettled => ?_) (by simp) (by simp)
      (fun _ _ hsync => h.cleared f hlive (by simp [hsite]) hsync) rfl rfl
    · rw [share_plain (by simp [hsite, hrun])]
      simp [State.hand, Worker.inHand, StackFrame.total, StackFrame.sofar, hproduct]
    · unfold State.reading at hold
      rw [hsite, State.own, Worker.held, hrun, hstack] at hold
      simp only [State.own, Worker.held, if_true, valueOf, List.map_cons, List.map_nil,
        List.prod_cons, List.prod_nil, value_none, one_mul, mul_one]
      exact hold
  rwa [← hsite, Function.update_eq_self] at hkept

theorem read_suspend (hs : Shape s site owed) (h : Read s site)
    (hphase : (s.worker w).phase = .syncReduction none none)
    (hf : (s.worker w).frameFf = some f) : Read (suspend s w f) site := by
  have hsite : site f = .running w := (hs.placed.running w f).mp hf
  have hlive : site f ≠ .gone := by simp [hsite]
  have hold := h.frame f (by simp [hsite, Site.settled, hphase, Phase.leaving])
  have hkept : Read (suspend s w f) (Function.update site f (.running w)) := by
    refine h.focusOf hlive (fun g hg v hv => hs.placed.apart hsite (by simp [hphase]) hg hv)
      (fun _ => rfl) (fun _ => rfl) rfl (fun g _ _ => ?_) (fun hsettled => ?_) (by simp) (by simp)
      (fun _ _ hsync => h.cleared f hlive (by simp [hsite]) hsync) rfl rfl
    · rw [share_plain (by simp [hsite, hphase])]
      simp [State.hand, suspend, Worker.inHand]
    · unfold State.reading at hold
      rw [hsite, State.own, Worker.held, hphase] at hold
      simpa [State.own, suspend, Worker.held, valueOf] using hold
  rwa [← hsite, Function.update_eq_self] at hkept

theorem read_leaveSync (hs : Shape s site owed) (h : Read s site)
    (hphase : (s.worker w).phase = .synching) (hf : (s.worker w).frameFf = some f) :
    Read (leaveFf s w) (Function.update site f .suspended) := by
  have hsite : site f = .running w := (hs.placed.running w f).mp hf
  have hlive : site f ≠ .gone := by simp [hsite]
  have hold := h.frame f (by simp [hsite, Site.settled, hphase, Phase.leaving])
  refine h.focusOf hlive (fun g hg v hv => hs.placed.apart hsite (by simp [hphase]) hg hv)
    (fun _ => rfl) (ff_ite f) rfl (fun g _ _ => ?_) (fun hsettled => ?_) (by simp) (by simp)
    (fun _ _ hsync => h.cleared f hlive (by simp [hsite]) hsync) rfl rfl
  · rw [share_plain (by simp [hsite, hphase])]
    rfl
  · unfold State.reading at hold
    rw [hsite, State.own, Worker.held, hphase] at hold
    exact hold

/-- The maps at the right end of a frame are rearranged. -/
theorem read_rearrangeSync {left middle left' l' m' : Option (ReducerMap M)}
    (hs : Shape s site owed) (h : Read s site)
    (hphase : (s.worker w).phase = .syncReduction left middle)
    (hf : (s.worker w).frameFf = some f)
    (hre : Rearranged [s.slot (leftSlotForSync s f), left, middle] [left', l', m']) :
    Read (rearrangeSync s w f (.syncReduction l' m') left') site := by
  have hsite : site f = .running w := (hs.placed.running w f).mp hf
  have hlive : site f ≠ .gone := by simp [hsite]
  have hunsynched := hs.linked.syncing w f hsite (by rw [hphase]; rfl)
  have hnodup := hs.siblings.nodup f hlive
  have hold := h.frame f (by simp [hsite, Site.settled, hphase, Phase.leaving])
  generalize ht : rearrangeSync s w f (.syncReduction l' m') left' = t
  have hworker : ∀ v, t.worker v =
      if v = w then { s.worker w with phase := .syncReduction l' m' } else s.worker v := by
    intro v
    subst ht
    simp [rearrangeSync, setPhase, setSlot_worker]
  have halike : Alike s t := ht ▸ alike_rearrangeSync hphase
  have hframe : ∀ g, (t.ff g).frame = (s.ff g).frame := by
    intro g
    subst ht
    exact setSlot_frame left' _ g
  have hslots : ∀ b, b ≠ leftSlotForSync s f → t.slot b = s.slot b := by
    intro b hb
    subst ht
    exact slot_setSlot_ne hb left'
  have hleft : t.slot (leftSlotForSync s f) = left' := by
    subst ht
    exact slot_setSlot_self left' _
  have hhand : ∀ v (x : ∀ k, M k), (t.worker v).inHand x = (s.worker v).inHand x := by
    intro v x
    rw [hworker]
    by_cases hv : v = w
    · rw [if_pos hv, hv, Worker.inHand, Worker.inHand, hphase]
    · rw [if_neg hv]
  have hshare : ∀ e, .rightMap e ≠ leftSlotForSync s f → t.share site e = s.share site e := by
    intro e he
    have hright : (t.ff e).rightReducerMap = (s.ff e).rightReducerMap := hslots (.rightMap e) he
    unfold State.share
    rw [hright, hand_congr rfl (congrArg StackFrame.total (hframe e)) fun v _ => hhand v _]
  have hmaps : ∀ g, g ≠ f → (t.ff g).childrenReducerMap = (s.ff g).childrenReducerMap := by
    intro g hg
    refine hslots (.childrenMap g) ?_
    unfold leftSlotForSync
    split
    · simp
    · simpa using hg
  -- the three maps at the end amount to the same
  have hthree : value left' * t.own (site f) =
      value (s.slot (leftSlotForSync s f)) * s.own (site f) := by
    have hvalue := hre.value
    simp only [valueOf, List.map_cons, List.map_nil, List.prod_cons, List.prod_nil, mul_one]
      at hvalue
    simp only [hsite, State.own, Worker.held, hworker, if_true, hphase, valueOf, List.map_cons,
      List.map_nil, List.prod_cons, List.prod_nil, mul_one]
    exact hvalue
  have hapart : Apart s t site site [f] := by
    refine ⟨fun _ _ => rfl, fun g hg v hv => ?_, fun g _ => hframe g,
      fun g hg => hmaps g (by simpa using hg), fun g _ => halike.children g⟩
    rw [hworker, if_neg (hs.placed.apart hsite (by simp [hphase]) (by simpa using hg) hv)]
    exact .refl _
  refine h.apart hapart (fun g hg hglive e he => hshare e ?_) (fun g hg _ => ?_) (fun v hv => ?_)
    (fun e he v hv => ?_) (fun g hg hgone hgiven hsync => ?_) halike.place
  · have hparent := (hs.parent_of_mem hglive he).2
    unfold leftSlotForSync
    split
    · rename_i c hc
      intro heq
      obtain rfl := MapSlot.rightMap.inj heq
      have hparent' := (hs.parent_of_mem hlive (List.mem_of_getLast? hc)).2
      exact hg (by simp [Option.some.inj (hparent.symm.trans hparent')])
    · simp
  · obtain rfl := List.mem_singleton.mp hg
    unfold State.reading at hold ⊢
    rw [halike.children, hframe, ← hold]
    cases hlast : (s.ff g).children.getLast? with
    | none =>
      -- there is no child
      have hslot : leftSlotForSync s g = .childrenMap g := by rw [leftSlotForSync, hlast]
      rw [hslot] at hleft hthree
      have hmap : (t.ff g).childrenReducerMap = left' := hleft
      have hmap' : s.slot (.childrenMap g) = (s.ff g).childrenReducerMap := rfl
      rw [List.getLast?_eq_none_iff.mp hlast, List.map_nil, List.map_nil, List.prod_nil, mul_one,
        mul_one, hmap, hthree, hmap']
    | some c =>
      -- the map belongs to the last child
      have hslot : leftSlotForSync s g = .rightMap c := by rw [leftSlotForSync, hlast]
      rw [hslot] at hleft hthree
      obtain ⟨pre, hl⟩ := List.getLast?_eq_some_iff.mp hlast
      rw [hl] at hnodup ⊢
      have hpre : pre.map (t.share site) = pre.map (s.share site) := by
        refine List.map_congr_left fun e he => hshare e ?_
        rw [hslot]
        rintro heq
        obtain rfl := MapSlot.rightMap.inj heq
        exact (List.nodup_append.mp hnodup).2.2 e he e List.mem_cons_self rfl
      have hmap : (t.ff g).childrenReducerMap = (s.ff g).childrenReducerMap :=
        hslots (.childrenMap g) (by simp [hslot])
      have hrightc : (t.ff c).rightReducerMap = left' := hleft
      have hrightc' : s.slot (.rightMap c) = (s.ff c).rightReducerMap := rfl
      have hpair : t.share site c * t.own (site g) = s.share site c * s.own (site g) := by
        rw [State.share, State.share, hrightc, mul_assoc, hthree, hrightc', ← mul_assoc,
          hand_congr rfl (congrArg StackFrame.total (hframe c)) fun v _ => hhand v _]
      rw [List.map_append, List.map_append, List.prod_append, List.prod_append, hpre, hmap,
        List.map_cons, List.map_nil, List.prod_singleton, List.map_cons, List.map_nil,
        List.prod_singleton, mul_assoc, mul_assoc, hpair]
      simp only [mul_assoc]
  · by_cases hvw : v = w
    · subst hvw
      rw [hworker, if_pos rfl] at hv
      exact absurd hv (by simp)
    · rw [hworker, if_neg hvw]
      exact .inl (.refl _)
  · obtain rfl := List.mem_singleton.mp he
    exact absurd (hsite.symm.trans hv) (by simp)
  · obtain rfl := List.mem_singleton.mp hg
    rw [hframe, hunsynched] at hsync
    exact absurd hsync (by simp)

/-- The frame is synched, and given to a worker. -/
theorem read_handOver {t : WorkerId} (hs : Shape s site (some f)) (h : Read s site)
    (hjoin : (s.ff f).joinCounter = 1) :
    Read (handOver s f t) (Function.update site f (.given t)) := by
  obtain ⟨hsite, -⟩ := hs.last_count hjoin
  have hlive : site f ≠ .gone := by simp [hsite]
  have hold := h.frame f (by simp [hsite, Site.settled])
  have hself : (handOver s f t).ff f = { s.ff f with
      frame := { (s.ff f).frame with unsynched := false }
      joinCounter := 1
      simulatedStolen := false
      fiberSelf := (s.ff f).fiberChild
      fiberChild := none
      syncMaster := none
      stolenFrom := none } := if_pos rfl
  have hsame : ∀ v, (s.worker v).Same ((handOver s f t).worker v) :=
    same_ite (fun _ => rfl) ⟨rfl, rfl, rfl⟩
  refine h.focus (fun g hg => Function.update_of_ne hg ..) (fun g _ v _ => hsame v)
    (fun g hg => if_neg hg) (fun g _ _ => ?_) (fun _ hall => ?_) (fun v _ => .inl (hsame v))
    (fun v hv => ?_) (fun _ hgiven => ?_) (place_ite rfl (fun _ => rfl) rfl)
  · rw [share_plain (s := s) (by simp [hsite]), State.share, Function.update_self, hself]
    rfl
  · unfold State.reading at hold ⊢
    rw [hsite, own_suspended] at hold
    rw [Function.update_self, own_given, hself]
    simp only
    rw [List.map_congr_left (hall hlive)]
    exact hold
  · rw [Function.update_self] at hv
    exact absurd hv (by simp)
  · rw [Function.update_self] at hgiven
    exact absurd rfl (hgiven t)

-- ---------------------------------------------------------------------------
-- Calls
-- ---------------------------------------------------------------------------

theorem read_leaveCall (hs : Shape s site owed) (h : Read s site)
    (hrun : (s.worker w).phase = .running) (hstack : (s.worker w).stack = [])
    (hf : (s.worker w).frameFf = some f) (hcode : (s.ff f).frame.code = .ret)
    (hsync : (s.ff f).frame.unsynched = false) :
    Read (leaveCall s w f) (Function.update site f (.carried w)) := by
  have hsite : site f = .running w := (hs.placed.running w f).mp hf
  have hlive : site f ≠ .gone := by simp [hsite]
  have htotal := h.ends hs hrun hstack hf hcode hsync
  refine h.focusOf hlive (fun g hg v hv => hs.placed.apart hsite (by simp [hrun]) hg hv)
    (fun _ => rfl) (fun _ => rfl) rfl (fun g _ _ => ?_) (by simp [Site.settled]) (by simp)
    (fun v hv => ⟨(Site.carried.inj hv).symm, htotal⟩)
    (fun _ _ hsync => h.cleared f hlive (by simp [hsite]) hsync) rfl rfl
  rw [share_plain (by simp [hsite, hrun])]
  rfl

/-- The worker that returns from a call holds what the frame amounts to. -/
theorem read_finishCall (hs : Shape s site owed) (h : Read s site)
    (hphase : (s.worker w).phase = .callReturning d) (hp : (s.ff d).parent = some p)
    (hlast : (s.ff p).children.getLast? = some d) (hright : (s.ff d).rightReducerMap = none) :
    Read (finishCall s w p d) (Function.update (Function.update site d .gone) p (.running w)) := by
  have hd : site d = .carried w := (hs.placed.carried w d).mp hphase
  have hdlive : site d ≠ .gone := by simp [hd]
  obtain ⟨hplive, hlt⟩ := hs.linked.parent d p hdlive hp
  have hpsite := hs.linked.caller d p hdlive (hs.linked.carried w d hd).1 hp
  have hne : p ≠ d := Nat.ne_of_lt hlt
  have hsite' : ∀ g, g ∉ [p, d] →
      Function.update (Function.update site d .gone) p (.running w) g = site g := by
    intro g hg
    simp only [List.mem_cons, List.not_mem_nil, or_false, not_or] at hg
    rw [Function.update_of_ne hg.1, Function.update_of_ne hg.2]
  have hpsite' : Function.update (Function.update site d .gone) p (.running w) p = .running w :=
    Function.update_self ..
  have hdsite' : Function.update (Function.update site d .gone) p (.running w) d = .gone := by
    rw [Function.update_of_ne hne.symm, Function.update_self]
  have hffd : (finishCall s w p d).ff d = { s.ff d with fiberSelf := none } := if_pos rfl
  have hffp : (finishCall s w p d).ff p = { (s.ff p).resumed with
      children := (s.ff p).children.erase d, fiberSelf := (s.ff d).fiberSelf } := by
    simp [finishCall, hne]
  have hff : ∀ g, g ∉ [p, d] → (finishCall s w p d).ff g = s.ff g := by
    intro g hg
    simp only [List.mem_cons, List.not_mem_nil, or_false, not_or] at hg
    simp [finishCall, hg.1, hg.2]
  have hself : (finishCall s w p d).worker w =
      { s.worker w with
        frameFf := some p
        stack := []
        reducerMap := (s.ff p).resumeMap (s.worker w).reducerMap
        phase := .running } := if_pos rfl
  have hother : ∀ v, v ≠ w → (finishCall s w p d).worker v = s.worker v := fun v hv => if_neg hv
  have hidle : (s.worker w).frameFf = none := hs.workers.idle (by rw [hphase]; rfl)
  have hapart : Apart s (finishCall s w p d) site
      (Function.update (Function.update site d .gone) p (.running w)) [p, d] := by
    refine ⟨hsite', fun g hg v hv => ?_, fun g hg => by rw [hff g hg], fun g hg => by rw [hff g hg],
      fun g hg => by rw [hff g hg]⟩
    rw [hother v]
    · exact .refl _
    · rintro rfl
      rcases hv with hv | hv
      · exact absurd (hidle.symm.trans ((hs.placed.running v g).mpr hv)) (by simp)
      · obtain rfl := Phase.callReturning.inj (hphase.symm.trans ((hs.placed.carried v g).mpr hv))
        simp at hg
  -- the caller counts for its own parent as before
  have hshare : ∀ e, e ≠ d → (finishCall s w p d).share
      (Function.update (Function.update site d .gone) p (.running w)) e = s.share site e := by
    intro e he
    by_cases hep : e = p
    · rw [hep, share_plain (s := s) (by simp [hpsite]), State.share, hffp, hpsite', State.hand, hself]
      rfl
    · refine hapart.share (by simp [hep, he]) ?_
      rw [hff e (by simp [hep, he])]
  obtain ⟨l, hl⟩ : ∃ l, (s.ff p).children = l ++ [d] :=
    List.getLast?_eq_some_iff.mp hlast
  have hnotin : d ∉ l := by
    have hnodup := hs.siblings.nodup p hplive
    rw [hl] at hnodup
    intro hmem
    exact (List.nodup_append.mp hnodup).2.2 d hmem d List.mem_cons_self rfl
  refine h.apart hapart (fun g hg hglive e he => hshare e ?_) (fun g hg hsettled => ?_)
    (fun v hv => ?_) (fun e he v hv => ?_) (fun g hg hgone hgiven hsync => ?_)
    (place_ite rfl (fun _ => rfl) rfl)
  · rintro rfl
    exact hg (by simp [Option.some.inj ((hs.parent_of_mem hglive he).2.symm.trans hp)])
  · rcases List.mem_cons.mp hg with rfl | hg
    · have hold := h.frame g (by simp [hpsite, Site.settled])
      have hcarried := h.carried w d hd
      -- what the child carries becomes what the caller holds
      have hdshare : s.share site d = value (s.worker w).reducerMap := by
        rw [share_plain (by simp [hd]), hcarried, hright, value_none, mul_one]
      have herase : (l ++ [d]).erase d = l := by
        rw [List.erase_append_right _ hnotin]
        simp
      unfold State.reading at hold ⊢
      rw [hpsite, hl, List.map_append, List.prod_append, List.map_cons, List.map_nil,
        List.prod_singleton, hdshare] at hold
      have hprod : (l.map ((finishCall s w g d).share
          (Function.update (Function.update site d .gone) g (.running w)))).prod =
            (l.map (s.share site)).prod := by
        refine congrArg List.prod (List.map_congr_left fun e he => hshare e ?_)
        rintro rfl
        exact hnotin he
      rw [hpsite', hffp, State.own, hself, Worker.held]
      simp only [hl, herase, hprod, heldOf, FullFrame.resumed, FullFrame.resumeMap]
      rw [own_suspended, mul_one, ← mul_assoc] at hold
      cases hsync : (s.ff g).frame.unsynched with
      | true => simpa [hsync] using hold
      | false =>
        have hmap := h.cleared g hplive (by simp [hpsite]) hsync
        rw [hmap] at hold
        simpa [hsync, hmap] using hold
    · obtain rfl := List.mem_singleton.mp hg
      rw [hdsite'] at hsettled
      exact absurd hsettled (by simp [Site.settled])
  · by_cases hvw : v = w
    · subst hvw
      rw [hself]
      exact .inr trivial
    · rw [hother v hvw]
      exact .inl (.refl _)
  · rcases List.mem_cons.mp he with rfl | he
    · rw [hpsite'] at hv
      exact absurd hv (by simp)
    · obtain rfl := List.mem_singleton.mp he
      rw [hdsite'] at hv
      exact absurd hv (by simp)
  · rcases List.mem_cons.mp hg with rfl | hg
    · rw [hffp] at hsync ⊢
      have hsync : (s.ff g).frame.unsynched = false := hsync
      simp [FullFrame.resumed, hsync]
    · obtain rfl := List.mem_singleton.mp hg
      exact absurd hdsite' hgone

theorem read_resume (hs : Shape s site owed) (h : Read s site)
    (hphase : (s.worker w).phase = .scheduling) (hnext : (s.worker w).nextFrameFf = some f) :
    Read (resumeState s w f) (Function.update site f (.running w)) := by
  have hsite : site f = .given w := (hs.placed.given w f).mp hnext
  have hlive : site f ≠ .gone := by simp [hsite]
  have hidle : (s.worker w).frameFf = none := hs.workers.idle (by rw [hphase]; rfl)
  have hmap : (s.worker w).reducerMap = none := hs.workers.mapless w (by rw [hphase]; rfl)
  have hold := h.frame f (by simp [hsite, Site.settled])
  refine h.focusOf hlive (fun g hg v hv => ?_) (fun _ => rfl) (fun _ => rfl) rfl
    (fun g _ _ => ?_) (fun hsettled => ?_) (fun _ => trivial) (by simp) (fun _ _ hsync => ?_) rfl rfl
  · rintro rfl
    rcases hv with hv | hv
    · exact absurd (hidle.symm.trans ((hs.placed.running v g).mpr hv)) (by simp)
    · exact absurd (hphase.symm.trans ((hs.placed.carried v g).mpr hv)) (by simp)
  · rw [share_plain (by simp [hsite])]
    simp [State.hand, resumeState, Worker.inHand, FullFrame.resumed]
  · unfold State.reading at hold
    rw [hsite, own_given, mul_one] at hold
    cases hsync : (s.ff f).frame.unsynched with
    | true =>
      simpa [State.own, resumeState, Worker.held, heldOf, FullFrame.resumed, FullFrame.resumeMap,
        hsync, hmap] using hold
    | false =>
      have hchildren := hs.no_children hlive (by simp [hsite]) hsync
      rw [hchildren] at hold ⊢
      simpa [State.own, resumeState, Worker.held, heldOf, FullFrame.resumed, FullFrame.resumeMap,
        hsync, hmap] using hold
  · have hsync : (s.ff f).frame.unsynched = false := hsync
    simp [FullFrame.resumed, hsync]

theorem read_returnInitial (hs : Shape s site owed) (h : Read s site)
    (hrun : (s.worker w).phase = .running) (hf : (s.worker w).frameFf = some f)
    (hlast : (s.ff f).frame.last = true) :
    Read (returnInitial s w f) (Function.update site f .gone) := by
  have hsite : site f = .running w := (hs.placed.running w f).mp hf
  have hlive : site f ≠ .gone := by simp [hsite]
  refine h.focusOf hlive (fun g hg v hv => hs.placed.apart hsite (by simp [hrun]) hg hv)
    (fun _ => rfl) (fun _ => rfl) rfl (fun g hg hmem => ?_) (by simp [Site.settled]) (by simp)
    (by simp) (fun hgone => absurd rfl hgone) rfl rfl
  -- it has no parent
  have hparent := (hs.parent_of_mem hg hmem).2
  rw [hs.linked.initial f hlive hlast] at hparent
  exact absurd hparent (by simp)

-- ---------------------------------------------------------------------------
-- Moves that make a frame
-- ---------------------------------------------------------------------------

theorem read_bind {u : WorkerId} {code : Code M} {init : ∀ k, M k} (hs : Shape s site owed)
    (h : Read s site) (hfree : (s.worker u).type = .free) :
    Read (bindThread s u code init) (Function.update site s.nextFrame (.running u)) := by
  have hgone := hs.placed.nextFrame
  have hphase : (s.worker u).phase = .unbound := (hs.workers.free u).mp hfree
  have hidle : (s.worker u).frameFf = none := hs.workers.idle (by rw [hphase]; rfl)
  rw [bindThread_closed]
  refine h.focus (fun g hg => Function.update_of_ne hg ..) (fun g _ v hv => ?_)
    (fun g hg => if_neg hg) (fun g hg hmem => ?_) (fun _ _ => ?_) (fun v _ => ?_) (fun v hv => ?_)
    (fun _ _ _ => ?_) (place_ite rfl (fun _ => rfl) rfl)
  · have hvu : v ≠ u := by
      rintro rfl
      rcases hv with hv | hv
      · exact absurd (hidle.symm.trans ((hs.placed.running v g).mpr hv)) (by simp)
      · exact absurd (hphase.symm.trans ((hs.placed.carried v g).mpr hv)) (by simp)
    simp only [if_neg hvu]
    exact .refl _
  · exact absurd hgone (hs.parent_of_mem hg hmem).1
  · rw [State.reading, Function.update_self]
    simp [State.own, Worker.held, heldOf, initialFrame, FullFrame.make, StackFrame.sofar, value]
    rfl
  · by_cases hvu : v = u
    · subst hvu
      simp only [if_true]
      exact .inr trivial
    · simp only [if_neg hvu]
      exact .inl (.refl _)
  · rw [Function.update_self] at hv
    exact absurd hv (by simp)
  · simp [initialFrame, FullFrame.make]

section Split

variable {victim : WorkerId} {sf : StackFrame M} {young : List (StackFrame M)}

theorem read_promoteCall (hs : Shape s site owed) (h : Read s site)
    (hrun : (s.worker victim).phase = .running) (hf : (s.worker victim).frameFf = some f)
    (hstack : (s.worker victim).stack = sf :: young) :
    Read (promoteCall s victim f sf young)
      (Function.update (Function.update site f .suspended) s.nextFrame (.running victim)) := by
  have hne : f ≠ s.nextFrame := by
    have hsite : site f = .running victim := (hs.placed.running victim f).mp hf
    exact Nat.ne_of_lt (hs.placed.fresh f (by simp [hsite]))
  have hff : (promoteCall s victim f sf young).ff f = { s.ff f with
      frame := { (s.ff f).frame with stolen := true }
      callStack := true
      children := (s.ff f).children ++ [s.nextFrame]
      fiberSelf := none } := by
    simp [promoteCall, hne]
  refine h.split hs hrun hf hstack (.inl rfl) (by simp [promoteCall, hrun])
    (fun v hv => by simp [promoteCall, hv, Worker.Same])
    (by simp [promoteCall, FullFrame.spawned, FullFrame.make]) (by rw [hff]; rfl) (by rw [hff]; rfl)
    (fun hsync => by rw [hff] at hsync; exact hsync) (by rw [hff]) (by rw [hff]) (by rw [hff])
    (fun g hg hgf => by simp [promoteCall, hg, hgf]) (place_ite rfl (fun _ => rfl) rfl)

theorem read_steal {x : FiberId} (hs : Shape s site owed) (h : Read s site) (hne : w ≠ victim)
    (hrun : (s.worker victim).phase = .running) (hf : (s.worker victim).frameFf = some f)
    (hstack : (s.worker victim).stack = sf :: young) :
    Read (stealState s w victim f sf young (.fiber x))
      (Function.update (Function.update site f (.given w)) s.nextFrame (.running victim)) := by
  have hnew : f ≠ s.nextFrame := by
    have hsite : site f = .running victim := (hs.placed.running victim f).mp hf
    exact Nat.ne_of_lt (hs.placed.fresh f (by simp [hsite]))
  have hff : (stealState s w victim f sf young (.fiber x)).ff f =
      (s.ff f).looted s.nextFrame (some x)
        (if firstSteal s victim then some victim else (s.ff f).syncMaster) (w = victim) := by
    simp [stealState, hnew, FiberArg.toOption]
  refine h.split hs hrun hf hstack (.inr ⟨w, rfl⟩) (by simp [stealState, Worker.robbed, hrun])
    (fun v hv => ?_) (by simp [stealState, FullFrame.spawned, FullFrame.make])
    (by rw [hff]; rfl) (by rw [hff]; rfl) (fun hsync => ?_) (by rw [hff]; rfl) (by rw [hff]; rfl)
    (by rw [hff]; rfl) (fun g hg hgf => by simp [stealState, hg, hgf]) (place_congr rfl fun v => ?_)
  · by_cases hvw : v = w
    · subst hvw
      simp [stealState, hv, Worker.Same]
    · simp [stealState, hv, hvw, Worker.Same]
  · rw [hff] at hsync
    exact absurd hsync (by simp [FullFrame.looted])
  · by_cases hv : v = victim
    · simp [stealState, Worker.robbed, hv]
    · by_cases hvw : v = w
      · subst hvw
        simp [stealState, hv]
      · simp [stealState, hv, hvw]

end Split

-- ---------------------------------------------------------------------------
-- Every move
-- ---------------------------------------------------------------------------

/-- Every move that makes no frame keeps the readings. -/
theorem Read.move {owed' : Option FrameId} (hs : Shape s site owed) (h : Read s site)
    (hmove : Move false owed s owed' r) (hnext : r.nextFrame = s.nextFrame) :
    ∃ site', Shape r site' owed' ∧ Read r site' := by
  have hruns : ∀ {w sf}, Executing s w sf → ∃ f, (s.worker w).frameFf = some f := by
    intro w sf hexec
    have hactive := hs.workers.active w
    rw [hexec.1] at hactive
    exact Option.isSome_iff_exists.mp hactive
  -- there are no pending frames, so they are made by no move and taken by none
  have hno : ∀ a pf, pf ∉ s.place a := fun a pf hpf => by
    rw [h.noPending a] at hpf
    exact absurd hpf List.not_mem_nil
  have hmoved : ∀ site', Placed r site' → Read r site' → ∃ site', Shape r site' owed' ∧
      Read r site' := by
    intro site' hplaced hread
    obtain ⟨site'', hs'⟩ := hs.move hmove
    rw [← hs'.placed.unique hplaced] at hread
    exact ⟨site'', hs', hread⟩
  have hp := hs.placed
  cases hmove with
  | bind hfree =>
    rw [bindThread_closed] at hnext
    exact absurd hnext (Nat.succ_ne_self _)
  | update hexec hcode =>
    obtain ⟨f, hf⟩ := hruns hexec
    exact ⟨site, hs.alike (alike_update hexec.1), read_update hs h hexec hf hcode⟩
  | enter hexec hcode =>
    obtain ⟨f, hf⟩ := hruns hexec
    exact ⟨site, hs.alike (alike_enter hexec.1), read_enter hs h hexec hf hcode⟩
  | skip hexec hcode hsync =>
    obtain ⟨f, hf⟩ := hruns hexec
    exact ⟨site, hs.alike (alike_modCurrent hexec.1 fun _ => ⟨rfl, rfl, rfl⟩),
      read_skip hs h hexec hf hcode⟩
  | exit hexec hcode hstack =>
    obtain ⟨f, hf⟩ := hruns hexec
    exact ⟨site, hs.alike (alike_exit hexec.1), read_exit hs h hexec hf hcode hstack⟩
  | @detachPending _ w f _ child rest hexec =>
    have halike : Alike s (s.modCurrent w fun sf => sf.advance child.product rest) :=
      alike_modCurrent hexec.1 fun _ => ⟨rfl, rfl, rfl⟩
    have hmade : (s.modCurrent w fun sf => sf.advance child.product rest).nextFrame + 1 =
      s.nextFrame := hnext
    rw [halike.nextFrame] at hmade
    exact absurd hmade (Nat.succ_ne_self _)
  | makeReady hrun hpf => exact absurd hpf (hno none _)
  | promoteCall => exact absurd hnext (Nat.succ_ne_self _)
  | steal => exact absurd hnext (Nat.succ_ne_self _)
  | promote hrun hf hstack hsf hjoin hforce => exact absurd hforce (by simp)
  | @readySteal _ _ victim pf hteam htype hw hnext' hpf => exact absurd hpf (hno (some victim) _)
  | beginReturn hrun hstack hd hp' hdet hcode hsync =>
    exact hmoved site (placed_beginReturn hp hrun) (read_beginReturn hs h hrun hstack hd hcode hsync)
  | rearrangeSpawn hphase hd hp' hre =>
    exact ⟨site, hs.alike (alike_rearrangeSpawn hphase), read_rearrangeSpawn hs h hphase hd hp' hre⟩
  | finishReturn hphase hd hp' hright =>
    exact hmoved site (placed_finishReturn hp hphase) (read_finishReturn hs h hphase hd hp' hright)
  | beginSync hrun hstack hf hsync hcode =>
    exact hmoved site (placed_beginSync hp hrun) (read_beginSync hs h hrun hstack hf hcode)
  | rearrangeSync hphase hf hre =>
    exact ⟨site, hs.alike (alike_rearrangeSync hphase), read_rearrangeSync hs h hphase hf hre⟩
  | suspend hphase hf => exact hmoved site (placed_suspend hp hphase) (read_suspend hs h hphase hf)
  | freeFiber hphase =>
    exact ⟨site, hs.alike alike_freeFiber, h.same (same_ite (fun _ => rfl) ⟨rfl, rfl, rfl⟩)
      (fun _ => ⟨rfl, rfl, rfl, rfl⟩) (place_ite rfl (fun _ => rfl) rfl)⟩
  | leaveSync hphase hf =>
    exact hmoved _ (placed_leaveSync hp hphase hf) (read_leaveSync hs h hphase hf)
  | leaveSpawn hphase hd hp' =>
    exact hmoved _ (placed_leaveSpawn hp hphase hd) (read_leaveSpawn hs h hphase hd)
  | @countDown _ f hjoin =>
    refine hmoved site (placed_countDown hp) ?_
    rw [countDown_closed]
    refine h.same (fun _ => .refl _) (fun g => ?_) fun _ => rfl
    by_cases hg : g = f
    · simp [hg]
    · simp [hg]
  | @handOver _ w t f hjoin ht hself =>
    exact hmoved _ (placed_handOver hp (hs.last_count hjoin).1 (receiver_free ht))
      (read_handOver hs h hjoin)
  | takeBack _ _ _ hforce => exact absurd hforce (by simp)
  | leaveCall hrun hstack hf hjoin hcall hcode hsync =>
    exact hmoved _ (placed_leaveCall hp hrun hf) (read_leaveCall hs h hrun hstack hf hcode hsync)
  | @finishCall _ w d p hphase hp' hnext' hchildren hlast hmap hright hfiber hself hsync =>
    have hd : site d = .carried w := (hp.carried w d).mp hphase
    have hlive : site d ≠ .gone := by simp [hd]
    have hpsite := hs.linked.caller d p hlive (hs.linked.carried w d hd).1 hp'
    have hne : p ≠ d := Nat.ne_of_lt (hs.linked.parent d p hlive hp').2
    exact hmoved _ (placed_finishCall hp hs.workers hd hpsite hne)
      (read_finishCall hs h hphase hp' hlast hright)
  | resume hphase hnext' =>
    exact hmoved _ (placed_resume hp hs.workers hphase hnext') (read_resume hs h hphase hnext')
  | returnInitial hrun hstack hf hlast hcode hsync hjoin =>
    exact hmoved _ (placed_returnInitial hp hrun hf) (read_returnInitial hs h hrun hf hlast)
  | @loseTeam _ w hphase htype hready =>
    refine ⟨site, hs.alike alike_loseTeam, h.same (fun v => ?_) (fun _ => ⟨rfl, rfl, rfl, rfl⟩)
      alike_loseTeam.place⟩
    by_cases hv : v = w
    · rw [hv, modWorker_worker_self]
      exact ⟨rfl, rfl, rfl⟩
    · rw [modWorker_worker_ne _ _ hv]
      exact .refl _

end SwanRuntime.Runtime
