import Mathlib.Tactic.Common

/-!
# Labelled transition systems

The vocabulary in which every concurrent part of the runtime is stated: a
system has initial states and labelled steps, a *path* is a finite sequence of
steps, and an invariant is carried along paths by one step lemma.

A property that only holds while the steps meet a side condition is stated
over `LTS.restrict`: a path of the restricted system is a path of the system
all of whose steps meet the condition.

## Results

* `LTS.IsPath.append`            — paths compose.
* `LTS.Reachable.invariant`      — induction over reachable states.
* `LTS.invariant_along`          — an invariant holds in every state of a path.
* `LTS.allSteps_iff`             — conditions that agree on all steps.
* `LTS.Reachable.of_restrict`    — restricting a system reaches nothing new.
* `LTS.reachable_of_isPath`      — the states of a path are reachable.
* `LTS.forall_states_iff_steps`  — when a step keeps the invariant exactly if
  it meets a condition, a path keeps it exactly if all its steps do.
* `LTS.until_along`              — what holds along a path until something else does.
* `LTS.isPath_run`               — an executable step function runs along paths.
-/

namespace SwanRuntime

/-- A labelled transition system over states `σ` and events `ε`. -/
structure LTS (σ ε : Type*) where
  init : σ → Prop
  step : σ → ε → σ → Prop

namespace LTS

variable {σ ε : Type*} (T : LTS σ ε)

/-- `IsPath s tr`: from `s` the system performs the events of `tr` one after
the other, reaching the state recorded with each event. -/
def IsPath : σ → List (ε × σ) → Prop
  | _, [] => True
  | s, (e, t) :: tr => T.step s e t ∧ IsPath t tr

/-- The state a path ends in. -/
def lastState : σ → List (ε × σ) → σ
  | s, [] => s
  | _, (_, t) :: tr => lastState t tr

/-- Every step of the path meets `C`, a condition on the state before the step
and the event. -/
def AllSteps (C : σ → ε → Prop) : σ → List (ε × σ) → Prop
  | _, [] => True
  | s, (e, t) :: tr => C s e ∧ AllSteps C t tr

/-- The steps that an executable step function takes, one event after the other,
up to the first event for which it has none. -/
def run (exec : σ → ε → Option σ) : σ → List ε → List (ε × σ)
  | _, [] => []
  | s, e :: es =>
    match exec s e with
    | none => []
    | some t => (e, t) :: run exec t es

/-- The same system, performing only the steps that meet `C`. -/
def restrict (C : σ → ε → Prop) : LTS σ ε where
  init := T.init
  step s e t := T.step s e t ∧ C s e

/-- The states the system can be in. -/
inductive Reachable : σ → Prop
  | init {s : σ} (h : T.init s) : Reachable s
  | step {s t : σ} {e : ε} (h : Reachable s) (hs : T.step s e t) : Reachable t

variable {T}

@[simp] theorem isPath_nil (s : σ) : T.IsPath s [] := trivial

/-- A step function that takes steps of the system runs along a path. -/
theorem isPath_run {exec : σ → ε → Option σ} (hexec : ∀ s e t, exec s e = some t → T.step s e t)
    (s : σ) (es : List ε) : T.IsPath s (run exec s es) := by
  induction es generalizing s with
  | nil => trivial
  | cons e es ih =>
    unfold run
    cases hs : exec s e with
    | none => trivial
    | some t => exact ⟨hexec s e t hs, ih t⟩

/-- Paths compose. -/
theorem IsPath.append {s : σ} {tr tr' : List (ε × σ)} (h : T.IsPath s tr)
    (h' : T.IsPath (lastState s tr) tr') : T.IsPath s (tr ++ tr') := by
  induction tr generalizing s with
  | nil => exact h'
  | cons p tr ih =>
    obtain ⟨e, t⟩ := p
    exact ⟨h.1, ih h.2 h'⟩

/-- Induction over reachable states: what holds initially and is kept by every
step holds always. -/
theorem Reachable.invariant {P : σ → Prop} (hInit : ∀ s, T.init s → P s)
    (hStep : ∀ s e t, P s → T.step s e t → P t) {s : σ} (h : T.Reachable s) : P s := by
  induction h with
  | init h => exact hInit _ h
  | step _ hs ih => exact hStep _ _ _ ih hs

/-- An invariant of the steps holds in every state of a path. -/
theorem invariant_along {P : σ → Prop} (hStep : ∀ s e t, P s → T.step s e t → P t)
    {s : σ} {tr : List (ε × σ)} (hP : P s) (h : T.IsPath s tr) :
    ∀ p ∈ tr, P p.2 := by
  induction tr generalizing s with
  | nil => intro p hp; cases hp
  | cons q tr ih =>
    obtain ⟨e, t⟩ := q
    have ht : P t := hStep s e t hP h.1
    intro p hp
    rcases List.mem_cons.mp hp with rfl | hp
    · exact ht
    · exact ih ht h.2 p hp

/-- The states of a path from a reachable state are reachable. -/
theorem reachable_of_isPath {s : σ} {tr : List (ε × σ)} (hs : T.Reachable s)
    (h : T.IsPath s tr) : ∀ p ∈ tr, T.Reachable p.2 :=
  invariant_along (fun _ _ _ hr hst => hr.step hst) hs h

/-- Two conditions that agree for the steps out of states with an invariant. -/
theorem allSteps_iff {P : σ → Prop} {C D : σ → ε → Prop}
    (hStep : ∀ s e t, P s → T.step s e t → P t)
    (hIff : ∀ s e t, P s → T.step s e t → (C s e ↔ D s e))
    {s : σ} {tr : List (ε × σ)} (hP : P s) (h : T.IsPath s tr) :
    AllSteps C s tr ↔ AllSteps D s tr := by
  induction tr generalizing s with
  | nil => exact Iff.rfl
  | cons p tr ih =>
    obtain ⟨e, t⟩ := p
    exact and_congr (hIff s e t hP h.1) (ih (hStep s e t hP h.1) h.2)

/-- A path all of whose steps meet `C` is a path of the restricted system. -/
theorem isPath_restrict {C : σ → ε → Prop} {s : σ} {tr : List (ε × σ)}
    (h : T.IsPath s tr) (hC : AllSteps C s tr) : (T.restrict C).IsPath s tr := by
  induction tr generalizing s with
  | nil => trivial
  | cons p tr ih =>
    obtain ⟨e, t⟩ := p
    exact ⟨⟨h.1, hC.1⟩, ih h.2 hC.2⟩

/--
`Q` is what a state should satisfy and `P` the invariant that carries it. When
a step out of a state with `P` keeps `P` if it meets `C`, and breaks `Q` if it
does not, a path has `Q` in all its states exactly if all its steps meet `C`.
-/
theorem forall_states_iff_steps {P Q : σ → Prop} {C : σ → ε → Prop}
    (hPQ : ∀ s, P s → Q s)
    (hKeep : ∀ s e t, P s → T.step s e t → C s e → P t)
    (hBreak : ∀ s e t, P s → T.step s e t → Q t → C s e)
    {s : σ} {tr : List (ε × σ)} (hP : P s) (h : T.IsPath s tr) :
    (∀ p ∈ tr, Q p.2) ↔ AllSteps C s tr := by
  induction tr generalizing s with
  | nil => simp [AllSteps]
  | cons q tr ih =>
    obtain ⟨e, t⟩ := q
    constructor
    · intro hall
      have hC : C s e := hBreak s e t hP h.1 (hall (e, t) List.mem_cons_self)
      have ht : P t := hKeep s e t hP h.1 hC
      exact ⟨hC, (ih ht h.2).mp fun p hp => hall p (List.mem_cons_of_mem _ hp)⟩
    · rintro ⟨hC, hrest⟩ p hp
      have ht : P t := hKeep s e t hP h.1 hC
      rcases List.mem_cons.mp hp with rfl | hp
      · exact hPQ _ ht
      · exact (ih ht h.2).mpr hrest p hp

/-- The states of the path have `P`, up to one that has `Q` together with the rest of
the path. There may be no such state yet. -/
def Until (P : σ → Prop) (Q : σ → List (ε × σ) → Prop) : List (ε × σ) → Prop
  | [] => True
  | (_, t) :: tr => P t ∧ Until P Q tr ∨ Q t tr

/-- When a step keeps `P` or leads to `Q`, `P` holds until `Q` does. -/
theorem until_along {P Q : σ → Prop} {R : σ → List (ε × σ) → Prop}
    (hStep : ∀ s e t, T.Reachable s → P s → T.step s e t → P t ∨ Q t)
    (hThen : ∀ t tr, T.Reachable t → Q t → T.IsPath t tr → R t tr)
    {s : σ} {tr : List (ε × σ)} (hs : T.Reachable s) (hP : P s) (h : T.IsPath s tr) :
    Until P R tr := by
  induction tr generalizing s with
  | nil => trivial
  | cons p tr ih =>
    obtain ⟨e, t⟩ := p
    have ht : T.Reachable t := hs.step h.1
    rcases hStep s e t hs hP h.1 with hPt | hQt
    · exact .inl ⟨hPt, ih ht hPt h.2⟩
    · exact .inr (hThen t tr ht hQt h.2)

end LTS

end SwanRuntime
