import SwanRuntime.Library.LinkedList
import SwanRuntime.ReadyList.Definitions

/-!
# Ready lists — integrity

What a ready list must be at all times: its tail designates the last slot
reachable from its head, and the frames pushed on it are those handed out plus
those still reachable.

`steal_from_ready_list` keeps this for every frame it can take but one kind: a
frame that is last on the list and not first. The list is then relinked but
`tail` still designates the removed frame, and the next push stores into that
frame and is lost. `integrity_iff` says that this is the only defect: a run
keeps every list intact exactly if no steal in it takes such a frame.

## Results

* `stealFromReadyList_taken`    — which frame a steal takes, and what it stores.
* `MemOk.push`, `MemOk.move`, `MemOk.unlink` — the pushing and removing steps.
* `staleTail_not_integrity`     — taking the last of several frames leaves `tail`
  stale.
* `integrity_iff`               — the exact condition, over runs.
-/

namespace SwanRuntime.ReadyList

open LinkedList

/-! ## Intact lists -/

/-- The chain of frames reachable from the head of list `i`. -/
abbrev ListChain (m : Memory) (i : ListId) (l : List PfId) : Prop :=
  Chain Cell.node m.next (.head i) l

/-- The last slot of a list whose frames are `l`. -/
abbrev lastSlot (i : ListId) (l : List PfId) : Cell := lastCell Cell.node (.head i) l

/-- The ready-list property of one worker: the tail designates the last slot
reachable from the head, and the frames ever pushed are the frames handed out
plus the frames still reachable. -/
def Intact (s : State) (w : WorkerId) : Prop :=
  ∃ l, ListChain s.mem (.worker w) l ∧
    s.mem.tail (.worker w) = lastSlot (.worker w) l ∧
    s.pushed w = s.stolen w + l

/-- All ready lists are intact. -/
def Integrity (s : State) : Prop := ∀ w, Intact s w

/-- The steal takes a frame that is last on the victim's list but not first. -/
def TakesLastBehindHead (s : State) : Event → Prop
  | .stealFromReadyList victim myNuma =>
    ∃ a pre pf, ListChain s.mem (.worker victim) (a :: (pre ++ [pf])) ∧
      (∀ p ∈ a :: pre, matchNumaPf myNuma (s.mem.numa p) = false) ∧
      matchNumaPf myNuma (s.mem.numa pf) = true
  | _ => False

/-- The lists in `live` hold the frames `l`, and no frame is on two of them. -/
structure MemOk (live : ListId → Prop) (m : Memory) (l : ListId → List PfId) : Prop where
  chain    : ∀ i, live i → ListChain m i (l i)
  tail     : ∀ i, live i → m.tail i = lastSlot i (l i)
  nodup    : ∀ i, live i → (l i).Nodup
  disjoint : ∀ i j, live i → live j → i ≠ j → ∀ p ∈ l i, p ∉ l j

/-- The lists that belong to workers. -/
def IsWorker (i : ListId) : Prop := i ≠ .rlist

/-- The invariant of the system: the workers' lists hold the frames pushed and
not yet handed out. -/
def Inv (s : State) : Prop :=
  ∃ l, MemOk IsWorker s.mem l ∧ ∀ w, s.pushed w = s.stolen w + (l (.worker w))

theorem isWorker_worker (w : WorkerId) : IsWorker (.worker w) := by
  simp [IsWorker]

theorem Inv.integrity {s : State} (h : Inv s) : Integrity s := by
  obtain ⟨l, hok, hacc⟩ := h
  exact fun w => ⟨l (.worker w), hok.chain _ (isWorker_worker w),
    hok.tail _ (isWorker_worker w), hacc w⟩

/-- A frame whose pushes have all been handed out is on no list. -/
theorem Detached.notMem {s : State} {pf : PfId} (h : Detached s pf) {l : ListId → List PfId}
    (hacc : ∀ w, s.pushed w = s.stolen w + (l (.worker w))) (i : ListId)
    (hi : IsWorker i) : pf ∉ l i := by
  cases i with
  | rlist => exact absurd rfl hi
  | worker w =>
    have hcount := h w
    rw [hacc w, Multiset.count_add] at hcount
    have hzero : Multiset.count pf (l (.worker w) : Multiset PfId) = 0 := by omega
    simpa using Multiset.count_eq_zero.mp hzero

section Slots

variable {live : ListId → Prop} {m : Memory} {l : ListId → List PfId}

theorem nodup_slots {i : ListId} {k : List PfId} (h : k.Nodup) :
    (Cell.head i :: k.map Cell.node).Nodup := by
  rw [List.nodup_cons]
  refine ⟨by simp, h.map ?_⟩
  intro a b hab
  exact Cell.node.inj hab

/-- The last slot of one list is not a slot of another. -/
theorem MemOk.lastSlot_notMem (h : MemOk live m l) {i j : ListId} (hi : live i)
    (hj : live j) (hij : i ≠ j) :
    lastSlot i (l i) ∉ Cell.head j :: (l j).map Cell.node := by
  intro hmem
  rcases List.mem_cons.mp (lastCell_mem Cell.node (Cell.head i) (l i)) with he | hin
  · rw [lastSlot, he] at hmem
    simp [hij] at hmem
  · obtain ⟨p, hp, he⟩ := List.mem_map.mp hin
    rw [lastSlot, ← he] at hmem
    have hq : p ∈ l j := by simpa using hmem
    exact h.disjoint i j hi hj hij p hp hq

/-! ## Pushing -/

/-- Pushing a frame that is on no list appends it. -/
theorem MemOk.push (h : MemOk live m l) {i : ListId} (hi : live i) {pf : PfId}
    (hpf : ∀ j, live j → pf ∉ l j) :
    MemOk live (push m i pf) (Function.update l i (l i ++ [pf])) := by
  have hclear : ∀ j, live j →
      Chain Cell.node (Function.update m.next (.node pf) none) (.head j) (l j) := by
    intro j hj
    refine (h.chain j hj).update ?_ none
    have := hpf j hj
    simpa using this
  have hnd : (l i ++ [pf]).Nodup := by
    rw [List.nodup_append]
    refine ⟨h.nodup i hi, List.nodup_singleton _, ?_⟩
    intro a ha b hb hab
    rw [List.mem_singleton.mp hb] at hab
    exact hpf i hi (hab ▸ ha)
  refine ⟨fun j hj => ?_, fun j hj => ?_, fun j hj => ?_, fun j k hj hk hjk p hp => ?_⟩
  · by_cases hji : j = i
    · subst hji
      rw [Function.update_self]
      show Chain Cell.node (Function.update _ (m.tail j) (some pf)) _ _
      rw [h.tail j hj]
      refine (hclear j hj).link ?_ (nodup_slots hnd)
      rw [chain_nil, Function.update_self]
    · rw [Function.update_of_ne hji]
      show Chain Cell.node (Function.update _ (m.tail i) (some pf)) _ _
      rw [h.tail i hi]
      exact (hclear j hj).update (h.lastSlot_notMem hi hj (Ne.symm hji)) _
  · by_cases hji : j = i
    · subst hji
      simp [ReadyList.push, lastSlot]
    · simp only [ReadyList.push, Function.update_of_ne hji]
      exact h.tail j hj
  · by_cases hji : j = i
    · subst hji
      simpa using hnd
    · rw [Function.update_of_ne hji]
      exact h.nodup j hj
  · by_cases hji : j = i
    · subst hji
      rw [Function.update_self] at hp
      rw [Function.update_of_ne (Ne.symm hjk)]
      rcases List.mem_append.mp hp with hp | hp
      · exact h.disjoint j k hj hk hjk p hp
      · rw [List.mem_singleton.mp hp]
        exact hpf k hk
    · rw [Function.update_of_ne hji] at hp
      by_cases hki : k = i
      · subst hki
        rw [Function.update_self, List.mem_append, List.mem_singleton]
        rintro (hq | rfl)
        · exact h.disjoint j k hj hk hjk p hp hq
        · exact hpf j hj hp
      · rw [Function.update_of_ne hki]
        exact h.disjoint j k hj hk hjk p hp

/-- An empty local list beside the workers' lists. -/
theorem MemOk.initRlist (h : MemOk IsWorker m l) :
    MemOk (fun _ => True) (initRlist m) (Function.update l .rlist []) := by
  have hw : ∀ i, i ≠ ListId.rlist →
      ListChain (ReadyList.initRlist m) i (l i) ∧
        (ReadyList.initRlist m).tail i = lastSlot i (l i) := by
    intro i hi
    refine ⟨(h.chain i hi).update (by simp [Ne.symm hi]) none, ?_⟩
    simp only [ReadyList.initRlist, Function.update_of_ne hi]
    exact h.tail i hi
  refine ⟨fun i _ => ?_, fun i _ => ?_, fun i _ => ?_, fun i j _ _ hij p hp => ?_⟩
  · by_cases hi : i = .rlist
    · subst hi
      rw [Function.update_self, ListChain, chain_nil]
      simp [ReadyList.initRlist]
    · rw [Function.update_of_ne hi]
      exact (hw i hi).1
  · by_cases hi : i = .rlist
    · subst hi
      simp [ReadyList.initRlist]
    · rw [Function.update_of_ne hi]
      exact (hw i hi).2
  · by_cases hi : i = .rlist
    · subst hi
      simp
    · rw [Function.update_of_ne hi]
      exact h.nodup i hi
  · by_cases hi : i = .rlist
    · subst hi
      simp at hp
    · rw [Function.update_of_ne hi] at hp
      by_cases hj : j = .rlist
      · subst hj
        simp
      · rw [Function.update_of_ne hj]
        exact h.disjoint i j hi hj hij p hp

/-- The local list after the pushes of a wakeup. -/
theorem MemOk.fillRlist (h : MemOk IsWorker m l) {pfs : List PfId} (hnd : pfs.Nodup)
    (hfresh : ∀ pf ∈ pfs, ∀ i, IsWorker i → pf ∉ l i) :
    MemOk (fun _ => True) (fillRlist m pfs) (Function.update l .rlist pfs) := by
  -- the pushes so far have put `done` on the list
  have hgen : ∀ (todo done : List PfId) (m : Memory), (done ++ todo).Nodup →
      (∀ pf ∈ todo, ∀ i, IsWorker i → pf ∉ l i) →
      MemOk (fun _ => True) m (Function.update l .rlist done) →
      MemOk (fun _ => True) (todo.foldl (fun m pf => ReadyList.push m .rlist pf) m)
        (Function.update l .rlist (done ++ todo)) := by
    intro todo
    induction todo with
    | nil =>
      intro done m _ _ hok
      simpa using hok
    | cons pf todo ih =>
      intro done m hnd hfresh hok
      have hnotin : ∀ j, pf ∉ Function.update l ListId.rlist done j := by
        intro j
        by_cases hj : j = .rlist
        · subst hj
          rw [Function.update_self]
          intro hin
          exact (List.nodup_append.mp hnd).2.2 pf hin pf List.mem_cons_self rfl
        · rw [Function.update_of_ne hj]
          exact hfresh pf List.mem_cons_self j hj
      have hstep := hok.push (i := .rlist) trivial (fun j _ => hnotin j)
      rw [Function.update_self, Function.update_idem] at hstep
      have hrest := ih (done ++ [pf]) _ (by simpa using hnd)
        (fun q hq => hfresh q (List.mem_cons_of_mem _ hq)) hstep
      simpa using hrest
  simpa [ReadyList.fillRlist] using
    hgen pfs [] _ (by simpa using hnd) hfresh h.initRlist

/-- Moving the local list appends it to the worker's list. -/
theorem MemOk.move (h : MemOk (fun _ => True) m l) (w : WorkerId) :
    MemOk IsWorker (moveToReadyList m w)
      (Function.update l (.worker w) (l (.worker w) ++ l .rlist)) := by
  have hw := isWorker_worker w
  have hr := h.chain .rlist trivial
  unfold moveToReadyList
  cases hl : l .rlist with
  | nil =>
    rw [hl, ListChain, chain_nil] at hr
    rw [hr, List.append_nil, Function.update_eq_self]
    exact ⟨fun i _ => h.chain i trivial, fun i _ => h.tail i trivial,
      fun i _ => h.nodup i trivial, fun i j _ _ => h.disjoint i j trivial trivial⟩
  | cons pf rest =>
    have hrOrig := hr
    rw [hl, ListChain, chain_cons] at hr
    rw [hr.1]
    have hnd : (l (.worker w) ++ pf :: rest).Nodup := by
      rw [List.nodup_append, ← hl]
      refine ⟨h.nodup _ trivial, h.nodup _ trivial, ?_⟩
      rintro a ha b hb rfl
      exact h.disjoint _ _ trivial trivial hw a ha hb
    refine ⟨fun j hj => ?_, fun j hj => ?_, fun j hj => ?_, fun j k hj hk hjk p hp => ?_⟩
    · show Chain Cell.node (Function.update _ (m.tail (.worker w)) (some pf)) _ _
      rw [h.tail _ trivial]
      by_cases hjw : j = .worker w
      · subst hjw
        rw [Function.update_self]
        exact (h.chain _ trivial).link hr.2 (nodup_slots hnd)
      · rw [Function.update_of_ne hjw]
        exact (h.chain j trivial).update
          (h.lastSlot_notMem trivial trivial (Ne.symm hjw)) _
    · by_cases hjw : j = .worker w
      · subst hjw
        simp only [Function.update_self, lastSlot, lastCell_append, lastCell_cons]
        rw [h.tail .rlist trivial, lastSlot, hl, lastCell_cons]
      · simp only [Function.update_of_ne hjw]
        exact h.tail j trivial
    · by_cases hjw : j = .worker w
      · subst hjw
        simpa using hnd
      · rw [Function.update_of_ne hjw]
        exact h.nodup j trivial
    · rw [← hl] at hp ⊢
      by_cases hjw : j = .worker w
      · subst hjw
        rw [Function.update_self] at hp
        rw [Function.update_of_ne (Ne.symm hjk)]
        rcases List.mem_append.mp hp with hp | hp
        · exact h.disjoint _ k trivial trivial hjk p hp
        · exact h.disjoint .rlist k trivial trivial (Ne.symm hk) p hp
      · rw [Function.update_of_ne hjw] at hp
        by_cases hkw : k = .worker w
        · subst hkw
          rw [Function.update_self, List.mem_append, not_or]
          exact ⟨h.disjoint j _ trivial trivial hjk p hp,
            h.disjoint j .rlist trivial trivial hj p hp⟩
        · rw [Function.update_of_ne hkw]
          exact h.disjoint j k trivial trivial hjk p hp

/-! ## Stealing -/

/-- What the search loop returns: it stops behind a run of mismatches, at a
matching frame or at the end of the list. -/
theorem skipMismatch_spec {myNuma : Int32} {fuel : Nat} {qf q : PfId} {r : Option PfId}
    {k : List PfId} (hk : Chain Cell.node m.next (.node qf) k)
    (h : skipMismatch m myNuma fuel qf (m.next (.node qf)) = some (q, r)) :
    ∃ pre post, k = pre ++ post ∧
      (∀ p ∈ pre, matchNumaPf myNuma (m.numa p) = false) ∧
      Cell.node q = lastCell Cell.node (.node qf) pre ∧ r = post.head? ∧
      (∀ p, r = some p → matchNumaPf myNuma (m.numa p) = true) := by
  induction fuel generalizing qf k with
  | zero =>
    cases k with
    | nil =>
      rw [chain_nil] at hk
      rw [hk, skipMismatch] at h
      obtain ⟨rfl, rfl⟩ : qf = q ∧ none = r := by simpa using h
      exact ⟨[], [], by simp⟩
    | cons a k =>
      rw [chain_cons] at hk
      rw [hk.1, skipMismatch] at h
      cases h
  | succ fuel ih =>
    cases k with
    | nil =>
      rw [chain_nil] at hk
      rw [hk, skipMismatch] at h
      obtain ⟨rfl, rfl⟩ : qf = q ∧ none = r := by simpa using h
      exact ⟨[], [], by simp⟩
    | cons a k =>
      rw [chain_cons] at hk
      rw [hk.1, skipMismatch] at h
      by_cases hm : matchNumaPf myNuma (m.numa a) = true
      · rw [if_pos hm] at h
        obtain ⟨rfl, rfl⟩ : qf = q ∧ some a = r := by simpa using h
        exact ⟨[], a :: k, by simp [hm]⟩
      · rw [if_neg hm] at h
        obtain ⟨pre, post, rfl, hpre, hq, hr, hmatch⟩ := ih hk.2 h
        refine ⟨a :: pre, post, rfl, ?_, hq, hr, hmatch⟩
        intro p hp
        rcases List.mem_cons.mp hp with rfl | hp
        · simpa using hm
        · exact hpre p hp

/-- `resetTail` in terms of the frames left on the list. -/
theorem resetTail_tail {victim : WorkerId} {k : List PfId}
    (hk : ListChain m (.worker victim) k) :
    (resetTail m victim).next = m.next ∧
      (resetTail m victim).numa = m.numa ∧
      (resetTail m victim).tail =
        if k = [] then Function.update m.tail (.worker victim) (.head (.worker victim))
        else m.tail := by
  unfold resetTail
  cases k with
  | nil =>
    rw [ListChain, chain_nil] at hk
    simp [hk]
  | cons a k =>
    rw [ListChain, chain_cons] at hk
    simp [hk.1]

/--
A successful steal takes the first frame that matches the thief's node: it
links the slot before it to the slot after it, and resets the tail if the list
is empty then.
-/
theorem stealFromReadyList_taken {fuel : Nat} {victim : WorkerId} {myNuma : Int32}
    {k : List PfId} {pf : PfId} {m' : Memory} (hk : ListChain m (.worker victim) k)
    (hnd : k.Nodup)
    (h : stealFromReadyList m fuel victim myNuma = some (some pf, m')) :
    ∃ pre post, k = pre ++ pf :: post ∧
      (∀ p ∈ pre, matchNumaPf myNuma (m.numa p) = false) ∧
      matchNumaPf myNuma (m.numa pf) = true ∧
      m'.next = Function.update m.next (lastSlot (.worker victim) pre) (m.next (.node pf)) ∧
      m'.tail = (if pre ++ post = [] then
        Function.update m.tail (.worker victim) (.head (.worker victim)) else m.tail) ∧
      ListChain m' (.worker victim) (pre ++ post) := by
  unfold stealFromReadyList at h
  cases k with
  | nil =>
    rw [ListChain, chain_nil] at hk
    rw [hk] at h
    cases h
  | cons a k =>
    have hhead := (chain_cons.mp hk).1
    have hrest := (chain_cons.mp hk).2
    simp only [hhead] at h
    by_cases hm : matchNumaPf myNuma (m.numa a) = true
    · -- the head itself
      rw [if_pos hm] at h
      have hnew := Chain.unlink (p := []) hk (nodup_slots hnd)
      simp only [Option.some.injEq, Prod.mk.injEq] at h
      obtain ⟨rfl, rfl⟩ := h
      obtain ⟨hnext, -, htail⟩ := resetTail_tail (m := { m with
        next := Function.update m.next (.head (.worker victim)) (m.next (.node a)) }) hnew
      refine ⟨[], k, rfl, by simp, hm, hnext, htail, ?_⟩
      rw [ListChain, hnext]
      exact hnew
    · -- a frame behind it
      rw [if_neg hm] at h
      cases hs : skipMismatch m myNuma fuel a (m.next (.node a)) with
      | none =>
        rw [hs] at h
        cases h
      | some r =>
        obtain ⟨q, r⟩ := r
        rw [hs] at h
        obtain ⟨pre, post, rfl, hpre, hq, hr, hmatch⟩ := skipMismatch_spec hrest hs
        cases r with
        | none => simp at h
        | some ready =>
          cases post with
          | nil => simp at hr
          | cons b post =>
            -- the search stopped at the frame behind the mismatches
            obtain rfl : ready = b := by simpa using hr
            have hnew := Chain.unlink (p := a :: pre) hk (nodup_slots hnd)
            rw [lastCell_cons, ← hq] at hnew
            simp only [Option.some.injEq, Prod.mk.injEq] at h
            obtain ⟨rfl, rfl⟩ := h
            obtain ⟨hnext, -, htail⟩ := resetTail_tail (m := { m with
              next := Function.update m.next (.node q) (m.next (.node ready)) }) hnew
            refine ⟨a :: pre, post, rfl, ?_, hmatch _ rfl, ?_, htail, ?_⟩
            · intro p hp
              rcases List.mem_cons.mp hp with rfl | hp
              · simpa using hm
              · exact hpre p hp
            · rw [hnext, lastSlot, lastCell_cons, ← hq]
            · rw [ListChain, hnext]
              exact hnew

/-- A steal that returns 0 changes nothing. -/
theorem stealFromReadyList_refused {fuel : Nat} {victim : WorkerId} {myNuma : Int32}
    {m' : Memory} (h : stealFromReadyList m fuel victim myNuma = some (none, m')) :
    m' = m := by
  unfold stealFromReadyList at h
  split at h
  · cases h
  · split at h
    · simp at h
    · split at h
      · cases h
      · simpa using h.symm
      · simp at h

/-- Removing a frame keeps the lists, unless it was last and not first. -/
theorem MemOk.unlink (h : MemOk IsWorker m l) {victim : WorkerId} {myNuma : Int32}
    {fuel : Nat} {pf : PfId} {m' : Memory}
    (hs : stealFromReadyList m fuel victim myNuma = some (some pf, m')) :
    ∃ pre post, l (.worker victim) = pre ++ pf :: post ∧
      (∀ p ∈ pre, matchNumaPf myNuma (m.numa p) = false) ∧
      matchNumaPf myNuma (m.numa pf) = true ∧
      ListChain m' (.worker victim) (pre ++ post) ∧
      m'.tail (.worker victim) =
        (if pre ++ post = [] then .head (.worker victim) else
          lastSlot (.worker victim) (pre ++ pf :: post)) ∧
      (pre = [] ∨ post ≠ [] →
        MemOk IsWorker m' (Function.update l (.worker victim) (pre ++ post))) := by
  have hv := isWorker_worker victim
  obtain ⟨pre, post, hl, hpre, hmatch, hnext, htail, hchain⟩ :=
    stealFromReadyList_taken (h.chain _ hv) (h.nodup _ hv) hs
  have hold : m.tail (.worker victim) = lastSlot (.worker victim) (pre ++ pf :: post) := by
    rw [← hl]
    exact h.tail _ hv
  have htailv : m'.tail (.worker victim) = (if pre ++ post = [] then
      .head (.worker victim) else lastSlot (.worker victim) (pre ++ pf :: post)) := by
    rw [htail]
    split
    · exact Function.update_self ..
    · exact hold
  refine ⟨pre, post, hl, hpre, hmatch, hchain, htailv, ?_⟩
  intro hkind
  have hsub : ∀ p ∈ pre ++ post, p ∈ l (.worker victim) := by
    intro p hp
    rw [hl]
    rcases List.mem_append.mp hp with hp | hp
    · exact List.mem_append_left _ hp
    · exact List.mem_append_right _ (List.mem_cons_of_mem _ hp)
  have hother : ∀ j, j ≠ .worker victim → m'.tail j = m.tail j := by
    intro j hj
    rw [htail]
    split
    · exact Function.update_of_ne hj ..
    · rfl
  refine ⟨fun j hj => ?_, fun j hj => ?_, fun j hj => ?_, fun j k hj hk hjk p hp => ?_⟩
  · by_cases hjv : j = .worker victim
    · subst hjv
      rw [Function.update_self]
      exact hchain
    · rw [Function.update_of_ne hjv, ListChain, hnext]
      refine (h.chain j hj).update ?_ _
      -- the slot that is written is on no other list
      intro hmem
      rcases List.mem_cons.mp (lastCell_mem Cell.node
        (Cell.head (.worker victim)) pre) with he | hin
      · rw [lastSlot, he] at hmem
        simp [Ne.symm hjv] at hmem
      · obtain ⟨p, hp, he⟩ := List.mem_map.mp hin
        rw [lastSlot, ← he] at hmem
        have hq : p ∈ l j := by simpa using hmem
        exact h.disjoint _ j hv hj (Ne.symm hjv) p (hsub p (List.mem_append_left _ hp)) hq
  · by_cases hjv : j = .worker victim
    · subst hjv
      rw [Function.update_self, htailv]
      split
      · rename_i he
        rw [he]
        rfl
      · rename_i hne
        -- the old tail is still the last slot when the frame taken was not last
        cases post with
        | nil =>
          rcases hkind with rfl | hp
          · exact absurd rfl hne
          · exact absurd rfl hp
        | cons b post => simp only [lastSlot, lastCell_append, lastCell_cons]
    · rw [Function.update_of_ne hjv, hother j hjv]
      exact h.tail j hj
  · by_cases hjv : j = .worker victim
    · subst hjv
      rw [Function.update_self]
      have hnd := h.nodup _ hv
      rw [hl] at hnd
      exact hnd.sublist (List.Sublist.append_left (List.sublist_cons_self _ _) _)
    · rw [Function.update_of_ne hjv]
      exact h.nodup j hj
  · by_cases hjv : j = .worker victim
    · subst hjv
      rw [Function.update_self] at hp
      rw [Function.update_of_ne (Ne.symm hjk)]
      exact h.disjoint _ k hv hk hjk p (hsub p hp)
    · rw [Function.update_of_ne hjv] at hp
      by_cases hkv : k = .worker victim
      · subst hkv
        rw [Function.update_self]
        exact fun hq => h.disjoint j _ hj hv hjk p hp (hsub p hq)
      · rw [Function.update_of_ne hkv]
        exact h.disjoint j k hj hk hjk p hp

end Slots

/-! ## Runs -/

theorem inv_init {s : State} (h : system.init s) : Inv s := by
  obtain ⟨numa, rfl⟩ := h
  refine ⟨fun _ => [], ⟨fun i _ => ?_, fun i _ => rfl, fun i _ => List.nodup_nil,
    fun i j _ _ _ p hp => by cases hp⟩, fun w => by simp⟩
  rw [ListChain, chain_nil]
  rfl

/-- Pushing `ps` on the list of `w` keeps the account of the frames. -/
theorem account_push {pushed stolen : WorkerId → Multiset PfId} {l : ListId → List PfId}
    (hacc : ∀ w, pushed w = stolen w + (l (.worker w))) (w : WorkerId) (ps : List PfId) :
    ∀ v, Function.update pushed w (Multiset.ofList ps + pushed w) v =
      stolen v + (Function.update l (.worker w) (l (.worker w) ++ ps) (.worker v) : List PfId) := by
  intro v
  by_cases hv : v = w
  · subst hv
    rw [Function.update_self, Function.update_self, hacc, ← Multiset.coe_add,
      Multiset.add_comm, Multiset.add_assoc]
  · rw [Function.update_of_ne hv, Function.update_of_ne (by simpa using hv)]
    exact hacc v

/-- Handing out one frame of the list of `w` keeps the account of the frames. -/
theorem account_steal {pushed stolen : WorkerId → Multiset PfId} {l : ListId → List PfId}
    (hacc : ∀ w, pushed w = stolen w + (l (.worker w))) {w : WorkerId} {pf : PfId}
    {pre post : List PfId} (hl : l (.worker w) = pre ++ pf :: post) :
    ∀ v, pushed v = Function.update stolen w (pf ::ₘ stolen w) v +
      (Function.update l (.worker w) (pre ++ post) (.worker v) : List PfId) := by
  intro v
  by_cases hv : v = w
  · subst hv
    rw [Function.update_self, Function.update_self, hacc, hl, ← Multiset.coe_add,
      ← Multiset.cons_coe, Multiset.cons_add, ← Multiset.coe_add, Multiset.add_cons,
      Multiset.add_cons]
  · rw [Function.update_of_ne hv, Function.update_of_ne (by simpa using hv)]
    exact hacc v

/-- Every step but the taking of a last frame behind the head keeps the
invariant. -/
theorem inv_step {s t : State} {e : Event} (h : Inv s) (hs : Step s e t)
    (hC : ¬ TakesLastBehindHead s e) : Inv t := by
  obtain ⟨l, hok, hacc⟩ := h
  cases hs with
  | @addPending w pf fresh =>
    exact ⟨_, hok.push (isWorker_worker w) (fun j hj => fresh.notMem hacc j hj),
      account_push hacc w [pf]⟩
  | @addPendingToOther w pf range fresh =>
    have hok' : MemOk IsWorker { s.mem with numa := Function.update s.mem.numa pf range } l :=
      ⟨hok.chain, hok.tail, hok.nodup, hok.disjoint⟩
    exact ⟨_, hok'.push (isWorker_worker w) (fun j hj => fresh.notMem hacc j hj),
      account_push hacc w [pf]⟩
  | @moveToReadyList w pfs fresh nodup =>
    -- the frames are chained on a list of their own, which is moved then
    have hfill := hok.fillRlist nodup (fun pf hpf i hi => (fresh pf hpf).notMem hacc i hi)
    have hacc' : ∀ v, s.pushed v =
        s.stolen v + (Function.update l .rlist pfs (.worker v) : List PfId) := by
      intro v
      rw [Function.update_of_ne (by simp)]
      exact hacc v
    have hmove := hfill.move w
    rw [Function.update_self] at hmove
    exact ⟨_, hmove, account_push hacc' w pfs⟩
  | @stolen victim myNuma fuel pf m taken =>
    obtain ⟨pre, post, hl, hpre, hmatch, -, -, hkeep⟩ := hok.unlink taken
    -- the frame is the first one, or another follows it
    have hkind : pre = [] ∨ post ≠ [] := by
      by_contra hbad
      push Not at hbad
      obtain ⟨hne, rfl⟩ := hbad
      obtain ⟨a, pre', rfl⟩ := List.exists_cons_of_ne_nil hne
      refine hC ⟨a, pre', pf, ?_, hpre, hmatch⟩
      have := hok.chain _ (isWorker_worker victim)
      rwa [hl] at this
    exact ⟨_, hkeep hkind, account_steal hacc hl⟩
  | @refused victim myNuma fuel m none_taken =>
    obtain rfl := stealFromReadyList_refused none_taken
    exact ⟨l, hok, hacc⟩

/-- Taking the last of several frames leaves the tail at the removed frame,
which is no longer reachable. -/
theorem staleTail_not_integrity {s t : State} {e : Event} (h : Inv s) (hs : Step s e t)
    (hbad : TakesLastBehindHead s e) : ¬ Integrity t := by
  obtain ⟨l, hok, hacc⟩ := h
  cases hs with
  | addPending => exact hbad.elim
  | addPendingToOther => exact hbad.elim
  | moveToReadyList => exact hbad.elim
  | @refused victim myNuma fuel m none_taken =>
    -- a frame matches, so the steal is not refused
    exfalso
    obtain ⟨a, pre, pf, hchain, hpre, hmatch⟩ := hbad
    have hlist := (hok.chain _ (isWorker_worker victim)).unique hchain
    obtain ⟨hhead, hrest⟩ := chain_cons.mp hchain
    unfold stealFromReadyList at none_taken
    simp only [hhead, hpre a List.mem_cons_self] at none_taken
    cases hsk : skipMismatch s.mem myNuma fuel a (s.mem.next (.node a)) with
    | none => simp [hsk] at none_taken
    | some r =>
      obtain ⟨q, r⟩ := r
      obtain ⟨pre', post, hsplit, hmis, -, hr, -⟩ := skipMismatch_spec hrest hsk
      cases r with
      | some ready => simp [hsk] at none_taken
      | none =>
        obtain rfl : post = [] := by simpa using hr.symm
        have hmem : pf ∈ pre' := by
          rw [List.append_nil] at hsplit
          rw [← hsplit]
          simp
        rw [hmis pf hmem] at hmatch
        cases hmatch
  | @stolen victim myNuma fuel pf' m taken =>
    obtain ⟨a, pre, pf, hchain, hpre, hmatch⟩ := hbad
    have hlist := (hok.chain _ (isWorker_worker victim)).unique hchain
    have hnd := hok.nodup _ (isWorker_worker victim)
    obtain ⟨pre', post, hl, hmis, hmatch', hnew, htail, -⟩ := hok.unlink taken
    -- the frame taken is the one match, at the end of the list
    have hpf : pf' = pf := by
      have hin : pf' ∈ a :: (pre ++ [pf]) := by
        rw [← hlist, hl]
        simp
      rw [← List.cons_append, List.mem_append, List.mem_singleton] at hin
      rcases hin with hin | hin
      · rw [hpre pf' hin] at hmatch'
        cases hmatch'
      · exact hin
    subst hpf
    have hsplit : pre' ++ pf' :: post = (a :: pre) ++ pf' :: [] := by
      rw [← hl, hlist]
      simp
    obtain ⟨rfl, rfl⟩ : pre' = a :: pre ∧ post = [] := by
      rw [hl] at hnd
      have hpre' : pf' ∉ pre' := fun hin =>
        (List.nodup_append.mp hnd).2.2 pf' hin pf' List.mem_cons_self rfl
      have hpost : pf' ∉ post := (List.nodup_cons.mp (List.nodup_append.mp hnd).2.1).1
      obtain ⟨h₁, -, h₂⟩ := (List.append_cons_inj_of_notMem hpre' hpost).mp hsplit
      exact ⟨h₁, h₂⟩
    intro hint
    obtain ⟨k, hk, hktail, -⟩ := hint victim
    obtain rfl := hk.unique hnew
    simp only [List.append_nil, List.cons_ne_nil, if_false] at htail hktail
    rw [htail] at hktail
    -- the stale tail is the slot of the removed frame
    simp only [lastSlot, lastCell_concat] at hktail
    rcases List.mem_cons.mp (lastCell_mem Cell.node
      (Cell.head (.worker victim)) (a :: pre)) with he | hin
    · rw [← hktail] at he
      cases he
    · rw [← hktail] at hin
      have hin' : pf' ∈ a :: pre := by simpa using hin
      rw [hpre pf' hin'] at hmatch'
      cases hmatch'

/-- The lists are intact in all states of a run exactly if no steal in it takes
a frame that is last on its list but not first. -/
theorem integrity_iff {s : State} {tr : List (Event × State)} (h₀ : system.init s)
    (h : system.IsPath s tr) :
    (Integrity s ∧ ∀ p ∈ tr, Integrity p.2) ↔
      LTS.AllSteps (fun s e => ¬ TakesLastBehindHead s e) s tr := by
  have hrun := LTS.forall_states_iff_steps (T := system) (P := Inv)
    (C := fun s e => ¬ TakesLastBehindHead s e) (fun _ => Inv.integrity)
    (fun s e t hI hs hC => inv_step hI hs hC)
    (fun s e t hI hs hQ hbad => staleTail_not_integrity hI hs hbad hQ) (inv_init h₀) h
  rw [← hrun]
  exact and_iff_right (inv_init h₀).integrity

/-! ## Two runs

Frames 0 and 1 are pushed on the list of worker 0. In the first run a thief
takes frame 0, the head; in the second one frame 1, the last. -/

/-- Frame 0 runs on node 1 only, the others on node 0 only. -/
def exampleNuma (pf : PfId) : PendingNuma := if pf = 0 then ⟨1, 2⟩ else ⟨0, 1⟩

def exampleStart : State := ⟨Memory.initial exampleNuma, fun _ => 0, fun _ => 0⟩

def afterPush (s : State) (w : WorkerId) (pf : PfId) : State :=
  { s with
    mem := addPendingToReadyList s.mem w pf
    pushed := Function.update s.pushed w (pf ::ₘ s.pushed w) }

def afterSteal (s : State) (w : WorkerId) (pf : PfId) (m : Memory) : State :=
  { s with
    mem := m
    stolen := Function.update s.stolen w (pf ::ₘ s.stolen w) }

def exampleTwo : State := afterPush (afterPush exampleStart 0 0) 0 1

def exampleFirst : State :=
  afterSteal exampleTwo 0 0
    { exampleTwo.mem with
      next := Function.update exampleTwo.mem.next (.head (.worker 0)) (some 1) }

def exampleLast : State :=
  afterSteal exampleTwo 0 1
    { exampleTwo.mem with next := Function.update exampleTwo.mem.next (.node 0) none }

/-- The push that follows the steal of the last frame. -/
def exampleLost : State := afterPush exampleLast 0 2

theorem detached_of_count_zero {s : State} {w : WorkerId} {pf : PfId}
    (h : (s.pushed w).count pf = 0) (hw : ∀ v, v ≠ w → s.pushed v = 0) :
    Detached s pf := by
  intro v
  by_cases hv : v = w
  · rw [hv, h]
    exact Nat.zero_le _
  · rw [hw v hv]
    exact Nat.zero_le _

theorem exampleTwo_path : system.IsPath exampleStart
    [(.addPending 0 0, afterPush exampleStart 0 0), (.addPending 0 1, exampleTwo)] := by
  refine ⟨Step.addPending (detached_of_count_zero (w := 0) (by decide) fun v _ => rfl),
    Step.addPending (detached_of_count_zero (w := 0) (by decide) fun v hv => ?_), trivial⟩
  simp [afterPush, exampleStart, hv]

theorem integrity_iff_first :
    Integrity exampleStart ∧
      ∀ p ∈ [(Event.addPending 0 0, afterPush exampleStart 0 0), (.addPending 0 1, exampleTwo),
        (.stealFromReadyList 0 1, exampleFirst)], Integrity p.2 := by
  have htaken : stealFromReadyList exampleTwo.mem 0 0 1 = some (some 0, exampleFirst.mem) := rfl
  have hsteal : system.IsPath exampleTwo [(.stealFromReadyList 0 1, exampleFirst)] :=
    ⟨Step.stolen htaken, trivial⟩
  refine (integrity_iff ⟨exampleNuma, rfl⟩ (exampleTwo_path.append hsteal)).mpr
    ⟨id, id, ?_, trivial⟩
  -- the head matches node 1, so the frame taken is the first
  rintro ⟨a, pre, pf, hchain, hmis, -⟩
  have hhead : (some 0 : Option PfId) = some a := (chain_cons.mp hchain).1
  have hnot := hmis a List.mem_cons_self
  rw [← Option.some.inj hhead] at hnot
  exact absurd hnot (by decide)

/-- After the steal of the last frame behind the head, the next push is lost:
frame 2 is neither handed out nor reachable. -/
theorem exampleLost_not_integrity :
    system.init exampleStart ∧
      system.IsPath exampleStart
        [(.addPending 0 0, afterPush exampleStart 0 0), (.addPending 0 1, exampleTwo),
          (.stealFromReadyList 0 0, exampleLast), (.addPending 0 2, exampleLost)] ∧
      exampleLost.pushed 0 = {2, 1, 0} ∧ exampleLost.stolen 0 = {1} ∧
      ListChain exampleLost.mem (.worker 0) [0] ∧
      ¬ Integrity exampleLast ∧ ¬ Integrity exampleLost := by
  have htaken : stealFromReadyList exampleTwo.mem 1 0 0 = some (some 1, exampleLast.mem) := rfl
  have hpush : system.step exampleLast (.addPending 0 2) exampleLost := by
    refine Step.addPending (detached_of_count_zero (w := 0) (by decide) fun v hv => ?_)
    simp [exampleLast, afterSteal, exampleTwo, afterPush, exampleStart, hv]
  have hsteal : system.IsPath exampleTwo
      [(.stealFromReadyList 0 0, exampleLast), (.addPending 0 2, exampleLost)] :=
    ⟨Step.stolen htaken, hpush, trivial⟩
  have hchainLast : ListChain exampleLast.mem (.worker 0) [0] := by
    refine chain_cons.mpr ⟨rfl, ?_⟩
    rw [chain_nil]
    rfl
  have hchainLost : ListChain exampleLost.mem (.worker 0) [0] := by
    refine chain_cons.mpr ⟨rfl, ?_⟩
    rw [chain_nil]
    rfl
  refine ⟨⟨exampleNuma, rfl⟩, exampleTwo_path.append hsteal,
    by decide, by decide, hchainLost, fun hint => ?_, fun hint => ?_⟩
  · obtain ⟨l, hl, htail, -⟩ := hint 0
    obtain rfl := hl.unique hchainLast
    exact absurd htail (by decide)
  · obtain ⟨l, hl, htail, -⟩ := hint 0
    obtain rfl := hl.unique hchainLost
    exact absurd htail (by decide)

end SwanRuntime.ReadyList
