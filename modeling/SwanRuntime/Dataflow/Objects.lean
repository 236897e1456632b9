import SwanRuntime.Dataflow.Tasks

/-!
# Dataflow — one object

The invariant of one object's metadata, against the set of tasks that are
active on it (issued, not waiting in the list, and not done with it) and the
program's order. `woken` tasks are done with the object.

The three ways the metadata change each keep it: a task is admitted at once, a
task is appended to the list, an active task is done.

## Results

* `ObjOk.admit`  — a task joins the active ones.
* `ObjOk.append` — a task waits, in the youngest generation or in a new one.
* `ObjOk.done`   — an active task leaves, and the next generation may follow.
-/

namespace SwanRuntime.Dataflow

variable {Obj : Type*} [DecidableEq Obj] (prog : TaskId → List (Access Obj))

/-- The metadata `md` of `o` stand for the view `v`, with `A` the active tasks. -/
structure ObjOk (o : Obj) (md : Metadata) (live woken : TaskId → Bool) (A : Finset TaskId)
    (v : View) : Prop where
  rep    : Represents md v
  card   : v.oldest = A.card
  live   : ∀ t, live t = true ↔ t ∈ A ∨ t ∈ v.waiting.flatten
  disj   : ∀ t ∈ A, t ∉ v.waiting.flatten
  sorted : v.waiting.flatten.Pairwise (· < ·)
  /-- Waiting tasks are younger than those that are or were active. -/
  older  : ∀ u, u ∈ A ∨ woken u = true → ∀ w ∈ v.waiting.flatten, u < w
  /-- An active task only shares the object with its own generation. -/
  same   : ∀ u, u ∈ A ∨ woken u = true → ∀ t ∈ A, t < u → SameGen prog o t u
  within : ∀ G ∈ v.waiting, G.Pairwise (SameGen prog o)
  groupA : v.waiting = [] → ∀ g, v.youngest = some g → ∀ t ∈ A, groupOn prog t o = some g
  groupW : ∀ G, v.waiting.getLast? = some G → ∀ g, v.youngest = some g →
    ∀ t ∈ G, groupOn prog t o = some g

/-! ## Lists -/

theorem pairwise_of_lt {R : TaskId → TaskId → Prop} {l : List TaskId} (h : l.Pairwise R)
    (hlt : l.Pairwise (· < ·)) {a b : TaskId} (ha : a ∈ l) (hb : b ∈ l) (hab : a < b) :
    R a b := by
  induction l with
  | nil => cases ha
  | cons x l ih =>
    rw [List.pairwise_cons] at h hlt
    rcases List.mem_cons.mp ha with rfl | hal
    · rcases List.mem_cons.mp hb with rfl | hbl
      · exact absurd hab (lt_irrefl _)
      · exact h.1 b hbl
    · rcases List.mem_cons.mp hb with rfl | hbl
      · exact absurd (hlt.1 a hal) (lt_asymm hab)
      · exact ih h.2 hlt.2 hal hbl

theorem appendLast_concat (gs : List (List TaskId)) (G : List TaskId) (t : TaskId) :
    appendLast (gs ++ [G]) t = gs ++ [G ++ [t]] := by
  induction gs with
  | nil => rfl
  | cons H gs ih =>
    cases gs with
    | nil => rfl
    | cons K gs =>
      simp only [List.cons_append, appendLast] at ih ⊢
      rw [ih]

theorem flatten_appendLast (gs : List (List TaskId)) (t : TaskId) :
    (appendLast gs t).flatten = gs.flatten ++ [t] := by
  rcases List.eq_nil_or_concat gs with rfl | ⟨gs, G, rfl⟩
  · rfl
  · rw [List.concat_eq_append, appendLast_concat]
    simp

/-! ## The steps -/

section Steps

variable {prog} {o : Obj} {md md' : Metadata} {live woken : TaskId → Bool} {A : Finset TaskId}
  {v : View}

theorem ObjOk.group_of_same (h : ObjOk prog o md live woken A v) {t u : TaskId}
    (ht : t ∈ A) (hu : u ∈ A ∨ woken u = true) (htu : t < u) :
    groupOn prog u o = groupOn prog t o := by
  obtain ⟨g, -, hg, hg', -⟩ := h.same u hu t ht htu
  rw [hg, hg']

/-- While the list is empty, a task that joins the youngest generation is in
one generation with each active task. -/
theorem ObjOk.same_of_joins (h : ObjOk prog o md live woken A v) {u : TaskId} {g : Group}
    (hw : v.waiting = []) (hj : v.Joins g)
    (hprog : ∀ t, t < u → groupOn prog t o ≠ none → live t = true ∨ woken t = true)
    (hg : groupOn prog u o = some g) {t : TaskId} (ht : t ∈ A) : SameGen prog o t u := by
  have hgt := h.groupA hw g hj.1 t ht
  refine ⟨g, hj.2, hgt, hg, fun x htx hxu => ?_⟩
  by_cases hx : groupOn prog x o = none
  · exact .inl hx
  · right
    have hactive : x ∈ A ∨ woken x = true := by
      rcases hprog x hxu hx with hl | hl
      · rw [h.live, hw] at hl
        exact .inl (by simpa using hl)
      · exact .inr hl
    rw [h.group_of_same ht hactive htx, hgt]

/-- The next task in program order becomes active. -/
theorem ObjOk.admit (h : ObjOk prog o md live woken A v) {u : TaskId} {g : Group}
    (ha : v.Admits g) (hrep : Represents md' ⟨v.oldest + 1, [], some g⟩)
    (hlate : ∀ t, live t = true ∨ woken t = true → t < u)
    (hprog : ∀ t, t < u → groupOn prog t o ≠ none → live t = true ∨ woken t = true)
    (hg : groupOn prog u o = some g) :
    ObjOk prog o md' (Function.update live u true) woken (insert u A)
      ⟨v.oldest + 1, [], some g⟩ := by
  obtain ⟨hw, hadm⟩ := ha
  have hlive : ∀ t, live t = true ↔ t ∈ A := by
    intro t
    rw [h.live, hw]
    simp
  -- every task on the object is older than `u`
  have hnotin : u ∉ A := fun hu => lt_irrefl u (hlate u (.inl ((hlive u).mpr hu)))
  have hempty : v.oldest = 0 → A = ∅ := by
    intro h0
    rw [h.card] at h0
    exact Finset.card_eq_zero.mp h0
  -- nobody waits, before or after: what is left concerns the active tasks
  refine ⟨hrep, ?_, fun t => ?_, by simp, by simp, by simp, ?_, by simp, ?_, by simp⟩
  · rw [Finset.card_insert_of_notMem hnotin, h.card]
  · by_cases htu : t = u
    · subst htu
      simp
    · rw [Function.update_of_ne htu, hlive]
      simp [htu]
  · intro x hx t ht htx
    rcases Finset.mem_insert.mp ht with rfl | htA
    · -- nobody younger than `u` has been on the object
      rcases hx with hx | hx
      · rcases Finset.mem_insert.mp hx with rfl | hxA
        · exact absurd htx (lt_irrefl _)
        · exact absurd (hlate x (.inl ((hlive x).mpr hxA))) (lt_asymm htx)
      · exact absurd (hlate x (.inr hx)) (lt_asymm htx)
    · rcases hx with hx | hx
      · rcases Finset.mem_insert.mp hx with rfl | hxA
        · -- `u` joins the active tasks, if there are any
          rcases hadm with h0 | hj
          · rw [hempty h0] at htA
            cases htA
          · exact h.same_of_joins hw hj hprog hg htA
        · exact h.same x (.inl hxA) t htA htx
      · exact h.same x (.inr hx) t htA htx
  · rintro - g' hg' t ht
    obtain rfl : g = g' := by simpa using hg'
    rcases Finset.mem_insert.mp ht with rfl | ht
    · exact hg
    · rcases hadm with h0 | hj
      · rw [hempty h0] at ht
        cases ht
      · exact h.groupA hw g hj.1 t ht

/-- A task that joins the last generation that waits has all of it in its own: whoever
accesses the object in between waits there as well. -/
theorem ObjOk.same_of_appended (h : ObjOk prog o md live woken A v) {u t : TaskId} {g : Group}
    {gs : List (List TaskId)} {L : List TaskId} (hL : v.waiting = gs ++ [L]) (hj : v.Joins g)
    (hprog : ∀ t, t < u → groupOn prog t o ≠ none → live t = true ∨ woken t = true)
    (hg : groupOn prog u o = some g) (ht : t ∈ L) : SameGen prog o t u := by
  have hLg := h.groupW L (by simp [hL]) g hj.1
  refine ⟨g, hj.2, hLg t ht, hg, fun y hty hyu => ?_⟩
  by_cases hy : groupOn prog y o = none
  · exact .inl hy
  · right
    have htflat : t ∈ v.waiting.flatten := by
      rw [hL]
      simp [ht]
    -- active tasks and those that are done are older than `t`
    have hyflat : y ∈ v.waiting.flatten := by
      rcases hprog y hyu hy with hl | hl
      · rcases (h.live y).mp hl with hl | hl
        · exact absurd (h.older y (.inl hl) t htflat) (lt_asymm hty)
        · exact hl
      · exact absurd (h.older y (.inr hl) t htflat) (lt_asymm hty)
    have hyL : y ∈ L := by
      have hs := h.sorted
      rw [hL, List.flatten_append, List.pairwise_append] at hs
      rw [hL, List.flatten_append, List.mem_append] at hyflat
      rcases hyflat with hyin | hyin
      · exact absurd (hs.2.2 y hyin t (by simpa using ht)) (lt_asymm hty)
      · simpa using hyin
    exact hLg y hyL

/-- The next task in program order waits. -/
theorem ObjOk.append (h : ObjOk prog o md live woken A v) {u : TaskId} {g : Group}
    (ha : ¬ v.Admits g) (hrep : Represents md' (v.add u g))
    (hlate : ∀ t, live t = true ∨ woken t = true → t < u)
    (hprog : ∀ t, t < u → groupOn prog t o ≠ none → live t = true ∨ woken t = true)
    (hg : groupOn prog u o = some g) :
    ObjOk prog o md' (Function.update live u true) woken A (v.add u g) := by
  -- the task is the last one in the list, whether or not its generation is new
  have hflat : (v.add u g).waiting.flatten = v.waiting.flatten ++ [u] := by
    simp only [View.add, if_neg ha]
    split
    · exact flatten_appendLast _ _
    · simp
  have holdest : (v.add u g).oldest = v.oldest := by simp [View.add, ha]
  have hne : (v.add u g).waiting ≠ [] := by
    intro he
    rw [he] at hflat
    simp at hflat
  have hltA : ∀ t ∈ A, t < u := fun t ht => hlate t (.inl ((h.live t).mpr (.inl ht)))
  have hltW : ∀ t ∈ v.waiting.flatten, t < u := fun t ht =>
    hlate t (.inl ((h.live t).mpr (.inr ht)))
  -- the active tasks are the same
  refine ⟨hrep, holdest.trans h.card, fun t => ?_, fun t ht => ?_, ?_, fun x hx w hw => ?_,
    h.same, fun G hG => ?_, fun he => absurd he hne, fun G hG g' hg' t ht => ?_⟩
  · rw [hflat]
    by_cases htu : t = u
    · subst htu
      simp
    · rw [Function.update_of_ne htu, h.live]
      simp [htu]
  · rw [hflat, List.mem_append, List.mem_singleton]
    rintro (hin | rfl)
    · exact h.disj t ht hin
    · exact absurd (hltA t ht) (lt_irrefl _)
  · rw [hflat, List.pairwise_append]
    refine ⟨h.sorted, List.pairwise_singleton _ _, fun t ht x hx => ?_⟩
    rw [List.mem_singleton.mp hx]
    exact hltW t ht
  · rw [hflat, List.mem_append, List.mem_singleton] at hw
    rcases hw with hw | rfl
    · exact h.older x hx w hw
    · rcases hx with hx | hx
      · exact hltA x hx
      · exact hlate x (.inr hx)
  · simp only [View.add, if_neg ha] at hG
    -- the generations: `u` joins the last one, or starts one
    by_cases hj : v.Joins g
    · rw [if_pos hj] at hG
      -- an object where nobody waits would have admitted it
      rcases List.eq_nil_or_concat v.waiting with hnil | ⟨gs, L, hL⟩
      · exact absurd ⟨hnil, .inr hj⟩ ha
      · rw [List.concat_eq_append] at hL
        rw [hL, appendLast_concat, List.mem_append, List.mem_singleton] at hG
        rcases hG with hG | rfl
        · exact h.within G (by simp [hL, hG])
        · -- `u` joins the last generation
          rw [List.pairwise_append]
          refine ⟨h.within L (by simp [hL]), List.pairwise_singleton _ _, fun t ht x hx => ?_⟩
          rw [List.mem_singleton.mp hx]
          exact h.same_of_appended hL hj hprog hg ht
    · rw [if_neg hj] at hG
      rcases List.mem_append.mp hG with hG | hG
      · exact h.within G hG
      · rw [List.mem_singleton.mp hG]
        exact List.pairwise_singleton _ _
  · obtain rfl : g = g' := by simpa [View.add] using hg'
    simp only [View.add, if_neg ha] at hG
    by_cases hj : v.Joins g
    · rw [if_pos hj] at hG
      rcases List.eq_nil_or_concat v.waiting with hnil | ⟨gs, L, hL⟩
      · exact absurd ⟨hnil, .inr hj⟩ ha
      · rw [List.concat_eq_append] at hL
        rw [hL, appendLast_concat, List.getLast?_concat, Option.some.injEq] at hG
        subst hG
        rcases List.mem_append.mp ht with ht | ht
        · exact h.groupW L (by simp [hL]) g hj.1 t ht
        · rw [List.mem_singleton.mp ht]
          exact hg
    · rw [if_neg hj, List.getLast?_concat, Option.some.injEq] at hG
      subst hG
      rw [List.mem_singleton.mp ht]
      exact hg

theorem update_live_iff (live : TaskId → Bool) (t u : TaskId) :
    Function.update live t false u = true ↔ u ≠ t ∧ live u = true := by
  by_cases hu : u = t
  · subst hu
    simp
  · simp [hu]

/-- A task that was done, or is now, was active or done before. -/
theorem active_of_update {woken : TaskId → Bool} {t u : TaskId} {A : Finset TaskId} (ht : t ∈ A)
    (hu : Function.update woken t true u = true) : u ∈ A ∨ woken u = true := by
  by_cases hut : u = t
  · exact .inl (hut ▸ ht)
  · rw [Function.update_of_ne hut] at hu
    exact .inr hu

/-- When the last active task is done, those that wait are live. -/
theorem ObjOk.live_of_last (h : ObjOk prog o md live woken {t} v) (u : TaskId) :
    Function.update live t false u = true ↔ u ∈ v.waiting.flatten := by
  rw [update_live_iff, h.live, Finset.mem_singleton]
  constructor
  · rintro ⟨hne, hu | hu⟩
    · exact absurd hu hne
    · exact hu
  · intro hu
    exact ⟨fun he => h.disj t (Finset.mem_singleton_self t) (he ▸ hu), .inr hu⟩

/-- A task is done, and others are still active. -/
theorem ObjOk.doneActive (h : ObjOk prog o md live woken A v) {t : TaskId} (ht : t ∈ A)
    (hrep : Represents md' { v with oldest := v.oldest - 1 }) :
    ObjOk prog o md' (Function.update live t false) (Function.update woken t true) (A.erase t)
      { v with oldest := v.oldest - 1 } := by
  refine ⟨hrep, ?_, fun u => ?_, fun u hu => h.disj u (Finset.mem_of_mem_erase hu), h.sorted,
    fun u hu => ?_, fun u hu x hx hxu => ?_, h.within, fun hw g hg x hx => ?_, h.groupW⟩
  · rw [Finset.card_erase_of_mem ht, h.card]
  · rw [update_live_iff, h.live, Finset.mem_erase]
    constructor
    · rintro ⟨hne, hu | hu⟩
      · exact .inl ⟨hne, hu⟩
      · exact .inr hu
    · rintro (⟨hne, hu⟩ | hu)
      · exact ⟨hne, .inl hu⟩
      · exact ⟨fun he => h.disj t ht (he ▸ hu), .inr hu⟩
  · rcases hu with hu | hu
    · exact h.older u (.inl (Finset.mem_of_mem_erase hu))
    · exact h.older u (active_of_update ht hu)
  · have hxA := Finset.mem_of_mem_erase hx
    rcases hu with hu | hu
    · exact h.same u (.inl (Finset.mem_of_mem_erase hu)) x hxA hxu
    · exact h.same u (active_of_update ht hu) x hxA hxu
  · exact h.groupA hw g hg x (Finset.mem_of_mem_erase hx)

/-- The last active task is done, and the oldest generation that waits becomes active. -/
theorem ObjOk.doneNext {t : TaskId} (h : ObjOk prog o md live woken {t} v) {G : List TaskId}
    {gs : List (List TaskId)} (hw : v.waiting = G :: gs)
    (hrep : Represents md' { v with oldest := G.length, waiting := gs }) :
    ObjOk prog o md' (Function.update live t false) (Function.update woken t true) G.toFinset
      { v with oldest := G.length, waiting := gs } := by
  have hsorted := h.sorted
  rw [hw, List.flatten_cons, List.pairwise_append] at hsorted
  obtain ⟨hsG, hsgs, hGgs⟩ := hsorted
  have hGmem : ∀ u ∈ G, u ∈ v.waiting.flatten := by
    intro u hu
    rw [hw]
    simp [hu]
  have hgsmem : ∀ u ∈ gs.flatten, u ∈ v.waiting.flatten := by
    intro u hu
    rw [hw, List.flatten_cons]
    exact List.mem_append_right _ hu
  have hactive : ∀ u, Function.update woken t true u = true → u ∈ ({t} : Finset TaskId) ∨
      woken u = true := fun u => active_of_update (Finset.mem_singleton_self t)
  refine ⟨hrep, ?_, fun u => ?_, fun u hu => ?_, hsgs, fun u hu w hwgs => ?_,
    fun u hu x hx hxu => ?_, fun K hK => h.within K (by simp [hw, hK]), fun hgs g hg x hx => ?_,
    fun K hK g hg x hx => ?_⟩
  · rw [List.toFinset_card_of_nodup (hsG.imp (fun h => Nat.ne_of_lt h))]
  · rw [h.live_of_last, hw, List.flatten_cons, List.mem_append, List.mem_toFinset]
  · intro hin
    exact lt_irrefl u (hGgs u (List.mem_toFinset.mp hu) u hin)
  · rcases hu with hu | hu
    · exact hGgs u (List.mem_toFinset.mp hu) w hwgs
    · exact h.older u (hactive u hu) w (hgsmem w hwgs)
  · have hxG := List.mem_toFinset.mp hx
    rcases hu with hu | hu
    · exact pairwise_of_lt (h.within G (by simp [hw])) hsG hxG (List.mem_toFinset.mp hu) hxu
    · -- whoever is done is older than those that waited
      exact absurd (h.older u (hactive u hu) x (hGmem x hxG)) (lt_asymm hxu)
  · -- nobody waits any more, so `G` was the youngest generation
    refine h.groupW G ?_ g hg x (List.mem_toFinset.mp hx)
    simp only at hgs
    rw [hw, hgs]
    rfl
  · refine h.groupW K ?_ g hg x hx
    simp only at hK
    rw [hw, List.getLast?_cons, hK]
    rfl

/-- An active task is done with the object. -/
theorem ObjOk.done (h : ObjOk prog o md live woken A v) {t : TaskId} (ht : t ∈ A)
    (hrep : Represents md' v.wakeup) :
    ∃ A', ObjOk prog o md' (Function.update live t false) (Function.update woken t true) A'
        v.wakeup ∧
      (v.released = [] ∨ v.waiting.head? = some v.released) ∧
      v.waiting.flatten = v.released ++ v.wakeup.waiting.flatten := by
  by_cases h1 : 1 < v.oldest
  · have hv : v.wakeup = { v with oldest := v.oldest - 1 } := by rw [View.wakeup, if_pos h1]
    have hr : v.released = [] := by rw [View.released, if_pos h1]
    rw [hv] at hrep ⊢
    exact ⟨A.erase t, h.doneActive ht hrep, .inl hr, by rw [hr]; rfl⟩
  · -- `t` was the last active task
    obtain rfl : A = {t} := by
      have hpos := Finset.card_pos.mpr ⟨t, ht⟩
      have hcard := h.card
      obtain ⟨a, rfl⟩ := Finset.card_eq_one.mp (show A.card = 1 by omega)
      rw [Finset.mem_singleton.mp ht]
    cases hw : v.waiting with
    | nil =>
      have hv : v.wakeup = ⟨0, [], none⟩ := by rw [View.wakeup, if_neg h1, hw]
      have hr : v.released = [] := by rw [View.released, if_neg h1, hw]; rfl
      rw [hv] at hrep ⊢
      refine ⟨∅, ⟨hrep, rfl, fun u => ?_, by simp, by simp, by simp, by simp, by simp, by simp,
        by simp⟩, .inl hr, by rw [hr]; rfl⟩
      rw [h.live_of_last, hw]
      simp
    | cons G gs =>
      have hv : v.wakeup = { v with oldest := G.length, waiting := gs } := by
        rw [View.wakeup, if_neg h1, hw]
      have hr : v.released = G := by rw [View.released, if_neg h1, hw]; rfl
      rw [hv] at hrep ⊢
      exact ⟨G.toFinset, h.doneNext hw hrep, .inr (by rw [hr]; rfl), by rw [hr]; rfl⟩

end Steps

end SwanRuntime.Dataflow
