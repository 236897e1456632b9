import Mathlib.Logic.Function.Basic
import Mathlib.Tactic.Common
import SwanRuntime.Library.Transition

/-!
# Dataflow — lazy issue against release

The arguments of a spawned task with dependences are not issued when its helper
frame is entered but when its parent is stolen. Until then the field
`df_issue_child` of the parent points to the helper; the thief sets the lowest
bit of the pointer while it issues, and the helper removes the pointer when it is
done. Neither takes a lock.

The parent is run by one worker at a time: it is resumed by a thief when the steal
is finished. Its helpers that were left behind by earlier steals run on, and share
the field with the thief and with the children that are entered later.

A thief that has seen a pointer which the helper then removes sets the lowest bit
of a null pointer, and leaves it there. `lazyIssue_iff` says that this is all that
goes wrong.

## Results

* `Inv.next`        — what every step keeps.
* `lazyIssue_iff`   — issue and release are matched along a run iff no thief
  comes too late.
-/

namespace SwanRuntime.Dataflow.LazyIssue

-- ---------------------------------------------------------------------------
-- The state
-- ---------------------------------------------------------------------------

/-- The address of a stack frame. -/
abbrev Addr := Nat

/-- A pointer to a stack frame and its lowest bit. -/
structure TaggedPtr where
  ptr : Option Addr
  tag : Bool
deriving DecidableEq, Repr

/-- The null pointer. -/
def null : TaggedPtr := ⟨none, false⟩

/-- A pointer with its lowest bit clear. -/
def ptrTo (a : Addr) : TaggedPtr := ⟨some a, false⟩

/-- `v | 1`. -/
def TaggedPtr.or1 (v : TaggedPtr) : TaggedPtr := { v with tag := true }

/-- `v & ~1`. -/
def TaggedPtr.clear1 (v : TaggedPtr) : TaggedPtr := { v with tag := false }

/-- How far a helper has come in `__cilkrts_pop_frame_df`. -/
inductive HelperPc
  | running
  | waiting
  | releasing
  | popped
deriving DecidableEq, Repr

/-- The frame of a helper, with the calls of `df_issue_fn` that were made and
returned, and those of `release_fn`. -/
structure Helper where
  pc        : HelperPc
  issued    : Nat
  completed : Nat
  released  : Nat
deriving DecidableEq, Repr

/-- How far a thief has come in `detach_for_steal`. -/
inductive ThiefPc
  | read
  | fetchOr
  | issue (toIssue : TaggedPtr)
  | issuing (toIssue : TaggedPtr)
  | cas (toIssue : TaggedPtr)
deriving DecidableEq, Repr

/-- The parent runs, enters a spawn helper, is on a deque below the helper, or is
being stolen. Only some helpers have dependences, and then an address. -/
inductive ParentPc
  | running
  | entering (child : Option Addr)
  | detached (child : Option Addr)
  | stolen (pc : ThiefPc)
deriving DecidableEq, Repr

/-- One parent frame and its helpers. `wild` says that a thief has dereferenced
something else than the address of a live helper. -/
structure State where
  dfIssueChild : TaggedPtr
  parent       : ParentPc
  helpers      : Addr → Option Helper
  finished     : List Helper
  wild         : Bool

-- ---------------------------------------------------------------------------
-- The steps
-- ---------------------------------------------------------------------------

/-- The parent calls a function, enters a helper, stores its address and detaches,
is returned to by a helper without dependences, or is stolen; the thief makes a
step; a helper makes its compare-and-swap, reads the field again, releases, or
leaves its frame. -/
inductive Event
  | call
  | enterFrameFast (child : Option Addr)
  | detach
  | leavePlain
  | steal
  | thief
  | pop (a : Addr)
  | poll (a : Addr)
  | release (a : Addr)
  | leave (a : Addr)

def freshHelper : Helper := ⟨.running, 0, 0, 0⟩

def State.setHelper (s : State) (a : Addr) (h : Helper) : State :=
  { s with helpers := Function.update s.helpers a (some h) }

/-- A call through `toIssue`, of which `f` is what the helper sees. -/
def State.deref (s : State) (toIssue : TaggedPtr) (f : Helper → Helper) : State :=
  match toIssue with
  | ⟨some a, false⟩ =>
    match s.helpers a with
    | some h => s.setHelper a (f h)
    | none => { s with wild := true }
  | _ => { s with wild := true }

/-- The part of `detach_for_steal` that issues. -/
def detachForSteal (s : State) : ThiefPc → State
  | .read =>
    if s.dfIssueChild ≠ null then { s with parent := .stolen .fetchOr }
    else { s with parent := .running }
  | .fetchOr =>
    let toIssue := s.dfIssueChild
    let s := { s with dfIssueChild := toIssue.or1 }
    if toIssue ≠ null then { s with parent := .stolen (.issue toIssue) }
    else { s with parent := .running }
  | .issue toIssue =>
    { s.deref toIssue fun h => { h with issued := h.issued + 1 } with
      parent := .stolen (.issuing toIssue) }
  | .issuing toIssue =>
    { s.deref toIssue fun h => { h with completed := h.completed + 1 } with
      parent := .stolen (.cas toIssue) }
  | .cas toIssue =>
    { s with
      dfIssueChild := if s.dfIssueChild = toIssue.or1 then null else s.dfIssueChild
      parent       := .running }

/-- The compare-and-swap of `__cilkrts_pop_frame_df`, and where it leads. -/
def popFrameDf (s : State) (a : Addr) (h : Helper) : State :=
  let toIssue := s.dfIssueChild
  if toIssue = ptrTo a then
    { s.setHelper a { h with pc := .popped } with dfIssueChild := null }
  else if toIssue.clear1 = ptrTo a then s.setHelper a { h with pc := .waiting }
  else s.setHelper a { h with pc := .releasing }

def next (s : State) : Event → Option State
  | .call =>
    if s.parent = .running then some { s with dfIssueChild := null } else none
  | .enterFrameFast child =>
    if s.parent = .running ∧ ∀ a ∈ child, s.helpers a = none then
      some { s with dfIssueChild := null, parent := .entering child }
    else none
  | .detach =>
    match s.parent with
    | .entering (some a) =>
      some { s.setHelper a freshHelper with
        dfIssueChild := ptrTo a, parent := .detached (some a) }
    | .entering none => some { s with parent := .detached none }
    | _ => none
  | .leavePlain =>
    if s.parent = .detached none then some { s with parent := .running } else none
  | .steal =>
    match s.parent with
    | .detached _ => some { s with parent := .stolen .read }
    | _ => none
  | .thief =>
    match s.parent with
    | .stolen pc => some (detachForSteal s pc)
    | _ => none
  | .pop a =>
    match s.helpers a with
    | some h => if h.pc = .running then some (popFrameDf s a h) else none
    | none => none
  | .poll a =>
    match s.helpers a with
    | some h =>
      if h.pc = .waiting then
        if s.dfIssueChild = (ptrTo a).or1 then some s
        else some (s.setHelper a { h with pc := .releasing })
      else none
    | none => none
  | .release a =>
    match s.helpers a with
    | some h =>
      if h.pc = .releasing then
        some (s.setHelper a { h with pc := .popped, released := h.released + 1 })
      else none
    | none => none
  | .leave a =>
    match s.helpers a with
    | some h =>
      if h.pc = .popped then
        some { s with
          helpers  := Function.update s.helpers a none
          finished := h :: s.finished
          parent   := if s.parent = .detached (some a) then .running else s.parent }
      else none
    | none => none

/-- The parent starts to run without helpers. -/
def initial : State := ⟨null, .running, fun _ => none, [], false⟩

def system : LTS State Event where
  init s := s = initial
  step s e t := next s e = some t

-- ---------------------------------------------------------------------------
-- The property
-- ---------------------------------------------------------------------------

/-- At most one issue is made, a release only after it has returned, and a helper
that is done has released exactly if it was issued. -/
structure Helper.Ordered (h : Helper) : Prop where
  once     : h.issued ≤ 1
  complete : h.completed ≤ h.issued
  release  : h.released ≤ h.completed
  matched  : h.pc = .popped → h.released = h.issued

/-- Issue and release are matched, only live helpers are dereferenced, and the
field of the parent is 0 or points to a child that is not done, with its lowest
bit set only while the parent is stolen. -/
structure Matched (s : State) : Prop where
  live     : ∀ a h, s.helpers a = some h → h.Ordered
  finished : ∀ h ∈ s.finished, h.Ordered ∧ h.pc = .popped
  wild     : s.wild = false
  field    : s.dfIssueChild = null ∨ ∃ a h, s.dfIssueChild.ptr = some a ∧ s.helpers a = some h ∧
    h.pc ≠ .popped ∧ (s.dfIssueChild.tag = true → ∃ pc, s.parent = .stolen pc)

/-- A thief that has read a pointer finds one when it sets the lowest bit. -/
def InTime (s : State) (e : Event) : Prop :=
  e = .thief → s.parent = .stolen .fetchOr → s.dfIssueChild ≠ null

-- ---------------------------------------------------------------------------
-- The invariant
-- ---------------------------------------------------------------------------

/-- A helper that no thief issues any more: it was issued, or it is done without. -/
def Helper.Settled (h : Helper) : Prop :=
  (h.issued = 1 ∧ h.completed = 1 ∧ h.released = if h.pc = .popped then 1 else 0) ∨
    (h.issued = 0 ∧ h.completed = 0 ∧ h.released = 0 ∧ h.pc = .popped)

/-- A helper that a thief issues. -/
def Helper.InIssue (i c : Nat) (h : Helper) : Prop :=
  h.issued = i ∧ h.completed = c ∧ h.released = 0 ∧ (h.pc = .running ∨ h.pc = .waiting)

/-- A thief holds the field: it points to `a`, with its lowest bit set. -/
def Held (s : State) (toIssue : TaggedPtr) (i c : Nat) : Prop :=
  ∃ a h, toIssue = ptrTo a ∧ s.dfIssueChild = (ptrTo a).or1 ∧ s.helpers a = some h ∧ h.InIssue i c

/-- What the field holds. -/
def FieldOk (s : State) : ParentPc → Prop
  | .running | .entering _ | .detached none => s.dfIssueChild = null
  | .detached (some a) => s.dfIssueChild = null ∨
      (s.dfIssueChild = ptrTo a ∧ s.helpers a = some freshHelper)
  | .stolen .read | .stolen .fetchOr => s.dfIssueChild = null ∨
      ∃ a, s.dfIssueChild = ptrTo a ∧ s.helpers a = some freshHelper
  | .stolen (.issue toIssue) => Held s toIssue 0 0
  | .stolen (.issuing toIssue) => Held s toIssue 1 0
  | .stolen (.cas toIssue) => Held s toIssue 1 1

structure Inv (s : State) : Prop where
  finished : ∀ h ∈ s.finished, h.Settled ∧ h.pc = .popped
  wild     : s.wild = false
  settled  : ∀ a h, s.helpers a = some h → s.dfIssueChild.ptr ≠ some a → h.Settled
  field    : FieldOk s s.parent

theorem inv_initial : Inv initial := ⟨nofun, rfl, nofun, rfl⟩

theorem Helper.Settled.ordered {h : Helper} (hs : h.Settled) : h.Ordered := by
  obtain ⟨h₁, h₂, h₃⟩ | ⟨h₁, h₂, h₃, h₄⟩ := hs
  · refine ⟨by omega, by omega, ?_, fun hp => ?_⟩
    · rw [h₂, h₃]
      split <;> omega
    · rw [h₃, h₁, if_pos hp]
  · exact ⟨by omega, by omega, by omega, by omega⟩

theorem Helper.InIssue.ordered {h : Helper} {i c : Nat} (hh : h.InIssue i c) (hi : i ≤ 1)
    (hc : c ≤ i) : h.Ordered := by
  obtain ⟨h₁, h₂, h₃, h₄⟩ := hh
  refine ⟨by omega, by omega, by omega, fun hp => ?_⟩
  rcases h₄ with h₄ | h₄ <;> rw [hp] at h₄ <;> cases h₄

theorem freshHelper_inIssue : freshHelper.InIssue 0 0 := ⟨rfl, rfl, rfl, .inl rfl⟩

@[simp] theorem ptrTo_ptr (a : Addr) : (ptrTo a).ptr = some a := rfl
@[simp] theorem or1_ptr (v : TaggedPtr) : v.or1.ptr = v.ptr := rfl
@[simp] theorem null_ptr : null.ptr = none := rfl

theorem or1_ne_null (v : TaggedPtr) : v.or1 ≠ null := by simp [TaggedPtr.or1, null]

theorem or1_ne_ptrTo (v : TaggedPtr) (a : Addr) : v.or1 ≠ ptrTo a := by
  simp [TaggedPtr.or1, ptrTo]

theorem clear1_eq_ptrTo {v : TaggedPtr} {a : Addr} : v.clear1 = ptrTo a ↔ v.ptr = some a := by
  simp [TaggedPtr.clear1, ptrTo]

/-- What the field can be, whatever the parent does. -/
theorem FieldOk.cases {s : State} (h : FieldOk s s.parent) :
    s.dfIssueChild = null ∨
      (∃ a, s.dfIssueChild = ptrTo a ∧ s.helpers a = some freshHelper) ∨
      ∃ pc toIssue i c, s.parent = .stolen pc ∧ Held s toIssue i c ∧ i ≤ 1 ∧ c ≤ i := by
  match hp : s.parent, h with
  | .running, h | .entering _, h | .detached none, h => exact .inl h
  | .detached (some a), h => exact h.imp id fun h => .inl ⟨a, h⟩
  | .stolen .read, h | .stolen .fetchOr, h => exact h.imp id .inl
  | .stolen (.issue toIssue), h =>
    exact .inr (.inr ⟨_, toIssue, 0, 0, rfl, h, by omega, by omega⟩)
  | .stolen (.issuing toIssue), h =>
    exact .inr (.inr ⟨_, toIssue, 1, 0, rfl, h, by omega, by omega⟩)
  | .stolen (.cas toIssue), h =>
    exact .inr (.inr ⟨_, toIssue, 1, 1, rfl, h, by omega, by omega⟩)

theorem Inv.matched {s : State} (h : Inv s) : Matched s := by
  refine ⟨fun a k hk => ?_, fun k hk => ⟨(h.finished k hk).1.ordered, (h.finished k hk).2⟩,
    h.wild, ?_⟩
  · by_cases ha : s.dfIssueChild.ptr = some a
    · rcases h.field.cases with hf | ⟨b, hb, hfresh⟩ | ⟨-, -, i, c, -, ⟨b, k', -, hb, hk', hi⟩, hi', hc⟩
      · rw [hf] at ha
        cases ha
      · rw [hb] at ha
        obtain rfl := Option.some.inj ha
        obtain rfl := Option.some.inj (hk.symm.trans hfresh)
        exact freshHelper_inIssue.ordered (by omega) (by omega)
      · rw [hb] at ha
        obtain rfl := Option.some.inj ha
        obtain rfl := Option.some.inj (hk.symm.trans hk')
        exact hi.ordered hi' hc
    · exact (h.settled a k hk ha).ordered
  · rcases h.field.cases with hf | ⟨b, hb, hfresh⟩ | ⟨pc, -, i, c, hpc, ⟨b, k, -, hb, hk, hi⟩, -⟩
    · exact .inl hf
    · exact .inr ⟨b, _, by rw [hb]; rfl, hfresh, by decide, by rw [hb]; nofun⟩
    · refine .inr ⟨b, k, by rw [hb]; rfl, hk, fun hp => ?_, fun _ => ⟨pc, hpc⟩⟩
      rcases hi.2.2.2 with h' | h' <;> rw [hp] at h' <;> cases h'

-- ---------------------------------------------------------------------------
-- The steps keep the invariant
-- ---------------------------------------------------------------------------

@[simp] theorem setHelper_field (s : State) (a : Addr) (h : Helper) :
    (s.setHelper a h).dfIssueChild = s.dfIssueChild := rfl
@[simp] theorem setHelper_parent (s : State) (a : Addr) (h : Helper) :
    (s.setHelper a h).parent = s.parent := rfl
@[simp] theorem setHelper_finished (s : State) (a : Addr) (h : Helper) :
    (s.setHelper a h).finished = s.finished := rfl
@[simp] theorem setHelper_wild (s : State) (a : Addr) (h : Helper) :
    (s.setHelper a h).wild = s.wild := rfl
@[simp] theorem setHelper_helpers (s : State) (a : Addr) (h : Helper) :
    (s.setHelper a h).helpers = Function.update s.helpers a (some h) := rfl

/-- The field is empty: every helper is settled. -/
theorem Inv.settled_of_null {s : State} (h : Inv s) (hf : s.dfIssueChild = null) {a : Addr}
    {k : Helper} (hk : s.helpers a = some k) : k.Settled :=
  h.settled a k hk (by rw [hf]; nofun)

/-- The worker that runs the parent clears the field and goes on. -/
theorem Inv.clear {s : State} (h : Inv s) (hf : s.dfIssueChild = null) {pc : ParentPc}
    (hpc : ∀ t : State, t.dfIssueChild = null → FieldOk t pc) :
    Inv { s with dfIssueChild := null, parent := pc } :=
  ⟨h.finished, h.wild, fun _ _ hk _ => h.settled_of_null hf hk, hpc _ rfl⟩

/-- Only the field and the helper that it points to count. -/
theorem FieldOk.congr {s t : State} {pc : ParentPc} (h : FieldOk s pc)
    (hf : t.dfIssueChild = s.dfIssueChild)
    (hh : ∀ b, s.dfIssueChild.ptr = some b → t.helpers b = s.helpers b) : FieldOk t pc := by
  have hfresh : ∀ b, s.dfIssueChild = ptrTo b ∧ s.helpers b = some freshHelper →
      t.dfIssueChild = ptrTo b ∧ t.helpers b = some freshHelper := by
    rintro b ⟨h₁, h₂⟩
    exact ⟨hf.trans h₁, (hh b (by rw [h₁]; rfl)).trans h₂⟩
  have hheld : ∀ {toIssue i c}, Held s toIssue i c → Held t toIssue i c := by
    rintro toIssue i c ⟨b, k, h₁, h₂, h₃, h₄⟩
    exact ⟨b, k, h₁, hf.trans h₂, (hh b (by rw [h₂]; rfl)).trans h₃, h₄⟩
  match pc, h with
  | .running, h | .entering _, h | .detached none, h => exact hf.trans h
  | .detached (some a), h => exact h.imp hf.trans (hfresh a)
  | .stolen .read, h | .stolen .fetchOr, h =>
    exact h.imp hf.trans fun ⟨b, h⟩ => ⟨b, hfresh b h⟩
  | .stolen (.issue _), h | .stolen (.issuing _), h | .stolen (.cas _), h => exact hheld h

/-- A helper that the field does not point to makes a step. -/
theorem Inv.setHelper {s : State} (h : Inv s) {a : Addr} (ha : s.dfIssueChild.ptr ≠ some a)
    {k : Helper} (hk : k.Settled) : Inv (s.setHelper a k) := by
  refine ⟨h.finished, h.wild, fun b k' hk' hb => ?_, h.field.congr rfl fun b hb => ?_⟩
  · by_cases hba : b = a
    · subst hba
      rw [setHelper_helpers, Function.update_self] at hk'
      exact Option.some.inj hk' ▸ hk
    · rw [setHelper_helpers, Function.update_of_ne hba] at hk'
      exact h.settled b k' hk' hb
  · refine Function.update_of_ne ?_ ..
    rintro rfl
    exact ha hb

/-- A helper that is neither running nor waiting is not pointed to. -/
theorem Inv.ptr_ne {s : State} (h : Inv s) {a : Addr} {k : Helper} (hk : s.helpers a = some k)
    (h₁ : k.pc ≠ .running) (h₂ : k.pc ≠ .waiting) : s.dfIssueChild.ptr ≠ some a := by
  intro ha
  rcases h.field.cases with hf | ⟨b, hb, hfresh⟩ | ⟨-, -, i, c, -, ⟨b, k', -, hb, hk', hi⟩, -⟩
  · rw [hf] at ha
    cases ha
  · rw [hb] at ha
    obtain rfl := Option.some.inj ha
    obtain rfl := Option.some.inj (hk.symm.trans hfresh)
    exact h₁ rfl
  · rw [hb] at ha
    obtain rfl := Option.some.inj ha
    obtain rfl := Option.some.inj (hk.symm.trans hk')
    rcases hi.2.2.2 with h' | h'
    · exact h₁ h'
    · exact h₂ h'

/-- A helper makes its compare-and-swap. -/
theorem Inv.pop {s : State} (h : Inv s) {a : Addr} {k : Helper} (hk : s.helpers a = some k)
    (hrun : k.pc = .running) : Inv (popFrameDf s a k) := by
  unfold popFrameDf
  by_cases hptr : s.dfIssueChild.ptr = some a
  · -- the parent’s field leads to this helper: the thief has not tagged it yet, or it has
    rcases h.field.cases with hf | ⟨b, hb, hfresh⟩ | ⟨pc, toIssue, i, c, hpc, hheld, hi, hc⟩
    · rw [hf] at hptr
      cases hptr
    · -- the thief, if there is one, finds a null pointer from now on
      rw [hb] at hptr
      obtain rfl := Option.some.inj hptr
      obtain rfl := Option.some.inj (hk.symm.trans hfresh)
      rw [if_pos hb]
      refine ⟨h.finished, h.wild, fun c k' hk' _ => ?_, ?_⟩
      · by_cases hcb : c = b
        · subst hcb
          rw [setHelper_helpers, Function.update_self] at hk'
          exact Option.some.inj hk' ▸ .inr ⟨rfl, rfl, rfl, rfl⟩
        · rw [setHelper_helpers, Function.update_of_ne hcb] at hk'
          refine h.settled c k' hk' ?_
          rw [hb]
          exact fun heq => hcb (Option.some.inj heq).symm
      · have hfield := h.field
        have hnot : ∀ {toIssue i c}, ¬ Held s toIssue i c := by
          rintro toIssue i c ⟨d, k', -, hd, -⟩
          exact or1_ne_ptrTo _ _ (hd.symm.trans hb)
        simp only [setHelper_parent]
        -- the field is null now, which suits every place the parent can be in
        match s.parent, hfield with
        | .running, _ | .entering _, _ | .detached none, _ => rfl
        | .detached (some _), _ => exact .inl rfl
        | .stolen .read, _ | .stolen .fetchOr, _ => exact .inl rfl
        | .stolen (.issue _), hf | .stolen (.issuing _), hf | .stolen (.cas _), hf =>
          exact absurd hf hnot
    · -- the thief is issuing: the helper waits for it
      have hne : s.dfIssueChild ≠ ptrTo a := by
        obtain ⟨b, -, -, hb, -⟩ := hheld
        rw [hb]
        exact or1_ne_ptrTo _ _
      rw [if_neg hne, if_pos (clear1_eq_ptrTo.mpr hptr)]
      have hmove : ∀ {toIssue i c}, Held s toIssue i c →
          Held (s.setHelper a { k with pc := .waiting }) toIssue i c := by
        rintro toIssue i c ⟨b, k', h₁, hb, hk', hi⟩
        rw [hb] at hptr
        obtain rfl := Option.some.inj hptr
        obtain rfl := Option.some.inj (hk.symm.trans hk')
        exact ⟨b, _, h₁, hb, Function.update_self .., hi.1, hi.2.1, hi.2.2.1, .inr rfl⟩
      refine ⟨h.finished, h.wild, fun c k' hk' hc => ?_, ?_⟩
      · have hca : c ≠ a := by
          rintro rfl
          exact hc hptr
        rw [setHelper_helpers, Function.update_of_ne hca] at hk'
        exact h.settled c k' hk' hc
      · have hfield := h.field
        rw [hpc] at hfield
        rw [setHelper_parent, hpc]
        -- the thief still has the helper’s pointer, and the helper stays in its frame
        match pc, hfield with
        | .read, hf | .fetchOr, hf =>
          obtain ⟨b, -, -, hb, -⟩ := hheld
          rcases hf with hf | ⟨d, hd, -⟩
          · exact absurd (hb.symm.trans hf) (or1_ne_null _)
          · exact absurd (hb.symm.trans hd) (or1_ne_ptrTo _ _)
        | .issue _, hf | .issuing _, hf | .cas _, hf => exact hmove hf
  · -- issued by a thief before
    have hne : s.dfIssueChild ≠ ptrTo a := fun heq => hptr (by rw [heq]; rfl)
    rw [if_neg hne, if_neg fun heq => hptr (clear1_eq_ptrTo.mp heq)]
    refine h.setHelper hptr ?_
    obtain ⟨h₁, h₂, h₃⟩ | ⟨-, -, -, h₄⟩ := h.settled a k hk hptr
    · refine .inl ⟨h₁, h₂, ?_⟩
      rw [h₃, hrun]
      rfl
    · rw [hrun] at h₄
      cases h₄

/-- A helper that waits reads the field. -/
theorem Inv.poll {s : State} (h : Inv s) {a : Addr} {k : Helper} (hk : s.helpers a = some k)
    (hwait : k.pc = .waiting) (hne : s.dfIssueChild ≠ (ptrTo a).or1) :
    Inv (s.setHelper a { k with pc := .releasing }) := by
  have hptr : s.dfIssueChild.ptr ≠ some a := by
    intro ha
    rcases h.field.cases with hf | ⟨b, hb, hfresh⟩ | ⟨-, -, -, -, -, ⟨b, -, -, hb, -⟩, -⟩
    · rw [hf] at ha
      cases ha
    · rw [hb] at ha
      obtain rfl := Option.some.inj ha
      obtain rfl := Option.some.inj (hk.symm.trans hfresh)
      cases hwait
    · rw [hb] at ha
      obtain rfl := Option.some.inj ha
      exact hne hb
  refine h.setHelper hptr ?_
  obtain ⟨h₁, h₂, h₃⟩ | ⟨-, -, -, h₄⟩ := h.settled a k hk hptr
  · refine .inl ⟨h₁, h₂, ?_⟩
    rw [h₃, hwait]
    rfl
  · rw [hwait] at h₄
    cases h₄

theorem Inv.release {s : State} (h : Inv s) {a : Addr} {k : Helper} (hk : s.helpers a = some k)
    (hrel : k.pc = .releasing) :
    Inv (s.setHelper a { k with pc := .popped, released := k.released + 1 }) := by
  have hptr := h.ptr_ne hk (by rw [hrel]; decide) (by rw [hrel]; decide)
  refine h.setHelper hptr ?_
  obtain ⟨h₁, h₂, h₃⟩ | ⟨-, -, -, h₄⟩ := h.settled a k hk hptr
  · refine .inl ⟨h₁, h₂, ?_⟩
    rw [hrel] at h₃
    simp [h₃]
  · rw [hrel] at h₄
    cases h₄

/-- A helper leaves its frame; the parent goes on unless it was stolen. -/
theorem Inv.leave {s : State} (h : Inv s) {a : Addr} {k : Helper} (hk : s.helpers a = some k)
    (hpop : k.pc = .popped) :
    Inv { s with
      helpers  := Function.update s.helpers a none
      finished := k :: s.finished
      parent   := if s.parent = .detached (some a) then .running else s.parent } := by
  -- a helper that has popped is not in the parent’s field
  have hptr := h.ptr_ne hk (by rw [hpop]; decide) (by rw [hpop]; decide)
  have hsettled := h.settled a k hk hptr
  refine ⟨fun k' hk' => ?_, h.wild, fun b k' hk' hb => ?_, ?_⟩
  · rcases List.mem_cons.mp hk' with rfl | hk'
    · exact ⟨hsettled, hpop⟩
    · exact h.finished k' hk'
  · by_cases hba : b = a
    · subst hba
      simp at hk'
    · simp only [Function.update_of_ne hba] at hk'
      exact h.settled b k' hk' hb
  · have hfield : FieldOk { s with
        helpers  := Function.update s.helpers a none
        finished := k :: s.finished
        parent   := if s.parent = .detached (some a) then .running else s.parent } s.parent := by
      refine h.field.congr rfl fun b hb => Function.update_of_ne ?_ ..
      rintro rfl
      exact hptr hb
    -- the parent resumes, unless a thief took it in the meantime
    by_cases hpar : s.parent = .detached (some a)
    · simp only [if_pos hpar]
      rw [hpar] at hfield
      rcases hfield with hf | ⟨hf, -⟩
      · exact hf
      · exact absurd (by rw [show s.dfIssueChild = ptrTo a from hf]; rfl) hptr
    · simp only [if_neg hpar]
      exact hfield

/-- A call through a pointer to a live helper. -/
theorem deref_ptrTo {s : State} {a : Addr} {k : Helper} (hk : s.helpers a = some k)
    (f : Helper → Helper) : s.deref (ptrTo a) f = s.setHelper a (f k) := by
  simp [State.deref, ptrTo, hk]

/-- The thief that holds the field calls through it. -/
theorem Inv.deref {s : State} (h : Inv s) {toIssue : TaggedPtr} {i c j d : Nat}
    (hheld : Held s toIssue i c) {f : Helper → Helper} (hf : ∀ k : Helper, k.InIssue i c →
      (f k).InIssue j d) {pc : ParentPc}
    (hpc : ∀ t : State, Held t toIssue j d → FieldOk t pc) :
    Inv { s.deref toIssue f with parent := pc } := by
  obtain ⟨a, k, rfl, hfield, hk, hi⟩ := hheld
  rw [deref_ptrTo hk]
  refine ⟨h.finished, h.wild, fun b k' hk' hb => ?_, hpc _ ?_⟩
  · have hba : b ≠ a := by
      rintro rfl
      exact hb (by rw [setHelper_field, hfield]; rfl)
    simp only [setHelper_helpers, Function.update_of_ne hba] at hk'
    exact h.settled b k' hk' hb
  · exact ⟨a, f k, rfl, hfield, Function.update_self .., hf k hi⟩

/-- A thief that is in time makes a step. -/
theorem Inv.thief {s : State} (h : Inv s) {pc : ThiefPc} (hpc : s.parent = .stolen pc)
    (htime : InTime s .thief) : Inv (detachForSteal s pc) := by
  have hfield := h.field
  rw [hpc] at hfield
  -- the accesses of `detach_for_steal`, in their order
  match pc, hfield with
  | .read, hfield =>
    simp only [detachForSteal]
    split
    · exact ⟨h.finished, h.wild, h.settled, hfield⟩
    · exact ⟨h.finished, h.wild, h.settled, not_not.mp ‹_›⟩
  | .fetchOr, hfield =>
    -- in time: the child has not popped between the test and the fetch-and-or
    have hne := htime rfl hpc
    obtain hf | ⟨a, ha, hk⟩ := hfield
    · exact absurd hf hne
    simp only [detachForSteal, if_pos hne]
    exact ⟨h.finished, h.wild, h.settled,
      a, freshHelper, ha, by simp only [ha], hk, freshHelper_inIssue⟩
  | .issue toIssue, hfield =>
    refine h.deref hfield (j := 1) (d := 0) (fun k hk => ?_) fun t ht => ht
    exact ⟨by rw [hk.1], hk.2.1, hk.2.2⟩
  | .issuing toIssue, hfield =>
    refine h.deref hfield (j := 1) (d := 1) (fun k hk => ?_) fun t ht => ht
    exact ⟨hk.1, by rw [hk.2.1], hk.2.2⟩
  | .cas toIssue, hfield =>
    obtain ⟨a, k, rfl, hf, hk, hi⟩ := hfield
    simp only [detachForSteal, if_pos hf]
    refine ⟨h.finished, h.wild, fun b k' hk' _ => ?_, rfl⟩
    by_cases hba : b = a
    · subst hba
      obtain rfl := Option.some.inj (hk.symm.trans hk')
      -- the helper is issued, and the field is null: it is settled
      refine .inl ⟨hi.1, hi.2.1, ?_⟩
      rcases hi.2.2.2 with hp | hp <;> simp [hp, hi.2.2.1]
    · refine h.settled b k' hk' ?_
      rw [hf]
      exact fun heq => hba (Option.some.inj heq).symm

/-- A step before which no thief comes too late keeps the invariant. -/
theorem Inv.next {s t : State} {e : Event} (h : Inv s) (hs : next s e = some t)
    (htime : InTime s e) : Inv t := by
  -- the parent, its children and the thief; a step that is not possible has no next state
  cases e with
  | call =>
    simp only [LazyIssue.next] at hs
    split at hs
    · obtain rfl := Option.some.inj hs
      have hf := h.field
      rw [‹s.parent = _›] at hf
      exact ⟨h.finished, h.wild, fun _ _ hk _ => h.settled_of_null hf hk, by
        simp only [‹s.parent = _›]; rfl⟩
    · cases hs
  | enterFrameFast child =>
    simp only [LazyIssue.next] at hs
    split at hs
    · rename_i hrun
      obtain rfl := Option.some.inj hs
      have hf := h.field
      rw [hrun.1] at hf
      exact h.clear hf fun _ ht => ht
    · cases hs
  | detach =>
    simp only [LazyIssue.next] at hs
    split at hs
    · -- the child goes into the parent’s field, with a helper of its own
      rename_i a hpar
      obtain rfl := Option.some.inj hs
      have hf := h.field
      rw [hpar] at hf
      refine ⟨h.finished, h.wild, fun b k hk hb => ?_, .inr ⟨rfl, Function.update_self ..⟩⟩
      have hba : b ≠ a := by
        rintro rfl
        exact hb rfl
      simp only [setHelper_helpers, Function.update_of_ne hba] at hk
      exact h.settled_of_null hf hk
    · rename_i hpar
      obtain rfl := Option.some.inj hs
      have hf := h.field
      rw [hpar] at hf
      exact ⟨h.finished, h.wild, h.settled, hf⟩
    · cases hs
  | leavePlain =>
    simp only [LazyIssue.next] at hs
    split at hs
    · rename_i hpar
      obtain rfl := Option.some.inj hs
      have hf := h.field
      rw [hpar] at hf
      exact ⟨h.finished, h.wild, h.settled, hf⟩
    · cases hs
  | steal =>
    simp only [LazyIssue.next] at hs
    split at hs
    · rename_i child hpar
      obtain rfl := Option.some.inj hs
      have hf := h.field
      rw [hpar] at hf
      refine ⟨h.finished, h.wild, h.settled, ?_⟩
      cases child with
      | none => exact .inl hf
      | some a => exact hf.imp id fun hf => ⟨a, hf⟩
    · cases hs
  | thief =>
    simp only [LazyIssue.next] at hs
    split at hs
    · rename_i pc hpar
      obtain rfl := Option.some.inj hs
      exact h.thief hpar htime
    · cases hs
  | pop a =>
    simp only [LazyIssue.next] at hs
    split at hs
    · split at hs
      · obtain rfl := Option.some.inj hs
        exact h.pop ‹_› ‹_›
      · cases hs
    · cases hs
  | poll a =>
    simp only [LazyIssue.next] at hs
    split at hs
    · split at hs
      · split at hs
        · exact Option.some.inj hs ▸ h
        · obtain rfl := Option.some.inj hs
          exact h.poll ‹_› ‹_› ‹_›
      · cases hs
    · cases hs
  | release a =>
    simp only [LazyIssue.next] at hs
    split at hs
    · split at hs
      · obtain rfl := Option.some.inj hs
        exact h.release ‹_› ‹_›
      · cases hs
    · cases hs
  | leave a =>
    simp only [LazyIssue.next] at hs
    split at hs
    · split at hs
      · obtain rfl := Option.some.inj hs
        exact h.leave ‹_› ‹_›
      · cases hs
    · cases hs

/-- A thief that comes too late leaves the field with only its lowest bit set. -/
theorem not_matched_of_late {s t : State} {e : Event} (hs : next s e = some t)
    (hm : Matched t) : InTime s e := by
  rintro rfl hpar hf
  simp only [LazyIssue.next, hpar, detachForSteal, hf] at hs
  obtain rfl := Option.some.inj hs
  rcases hm.field with hnull | ⟨a, k, hptr, -⟩
  · exact or1_ne_null _ hnull
  · cases hptr

/-- Whatever the interleaving of thieves, helpers and further children: issue and
release are matched, only live helpers are dereferenced, and the field ends up 0
or with a later child, in all states of a run iff no thief sets the lowest bit of
a pointer that the helper has removed. -/
theorem lazyIssue_iff {tr : List (Event × State)} (h : system.IsPath initial tr) :
    (∀ p ∈ tr, Matched p.2) ↔ LTS.AllSteps InTime initial tr :=
  LTS.forall_states_iff_steps (P := Inv) (fun _ h => h.matched)
    (fun _ _ _ h hs ht => h.next hs ht) (fun _ _ _ _ hs hm => not_matched_of_late hs hm)
    inv_initial h

-- ---------------------------------------------------------------------------
-- A helper and a thief
-- ---------------------------------------------------------------------------

/-- A helper at address 8 is on top of its parent. -/
def exampleDetached : State :=
  { initial with
    dfIssueChild := ptrTo 8
    parent       := .detached (some 8)
    helpers      := Function.update initial.helpers 8 (some freshHelper) }

/-- A thief has seen the helper. -/
def exampleSeen : State := { exampleDetached with parent := .stolen .fetchOr }

/-- The helper has removed its address. -/
def exampleRemoved : State :=
  { exampleSeen.setHelper 8 { freshHelper with pc := .popped } with dfIssueChild := null }

/-- The thief has set the lowest bit of what is left. -/
def exampleLate : State :=
  { exampleRemoved with dfIssueChild := null.or1, parent := .running }

theorem exampleSeen_path : system.IsPath initial
    [(.enterFrameFast (some 8), { initial with parent := .entering (some 8) }),
      (.detach, exampleDetached), (.steal, { exampleDetached with parent := .stolen .read }),
      (.thief, exampleSeen)] :=
  ⟨rfl, rfl, rfl, rfl, trivial⟩

theorem lazyIssue_iff_exampleSeen : Matched exampleDetached ∧ Matched exampleSeen := by
  have h := (lazyIssue_iff exampleSeen_path).mpr
    ⟨nofun, nofun, nofun, fun _ h => (by cases h), trivial⟩
  exact ⟨h (.detach, exampleDetached) (by simp), h (.thief, exampleSeen) (by simp)⟩

/-- The thief comes too late, is done, and so is the helper: the field of the
parent is neither 0 nor the address of a child. -/
theorem exampleLate_not_matched :
    system.IsPath exampleSeen [(.pop 8, exampleRemoved), (.thief, exampleLate)] ∧
      system.Reachable exampleLate ∧ ¬ Matched exampleLate := by
  have hpath : system.IsPath exampleSeen [(.pop 8, exampleRemoved), (.thief, exampleLate)] :=
    ⟨rfl, rfl, trivial⟩
  have hreach : system.Reachable exampleSeen :=
    LTS.reachable_of_isPath (.init rfl) exampleSeen_path (.thief, exampleSeen) (by simp)
  refine ⟨hpath, LTS.reachable_of_isPath hreach hpath (.thief, exampleLate) (by simp), fun h => ?_⟩
  rcases h.field with hnull | ⟨a, k, hptr, -⟩
  · exact or1_ne_null _ hnull
  · cases hptr

end SwanRuntime.Dataflow.LazyIssue
