import Mathlib.Algebra.Group.Int.Defs
import Mathlib.Algebra.Group.Nat.Defs
import Mathlib.Logic.Function.Basic
import Mathlib.Tactic.Common
import SwanRuntime.Library.Transition

/-!
# Dataflow — object versions and their payloads

A version and its payload are reference counted; the version holds one reference to
the payload. Each count is a 32-bit word that is changed by an atomic operation, and
the thread that takes a count from 1 to 0 goes on to release what it counts. The
steps of the threads interleave; a thread gives up a reference only if one is held.

`__cilkrts_obj_payload_destroy` gives the pointer to the data to both callbacks where
the pointer to the payload belongs, and the other way round. Nothing else is wrong:
as long as no more than 2^32 references are held, each callback is called once.

## Results

* `Inv.step`              — who is going on to release what.
* `Inv.calls_of_released` — the calls when all references have been given up.
* `payloadDestroy_never`  — they are never the ones that the types declare.
-/

namespace SwanRuntime.Dataflow.Payload

-- ---------------------------------------------------------------------------
-- The code
-- ---------------------------------------------------------------------------

abbrev Addr := Nat

/-- `__cilkrts_obj_traits`: function pointers, and the size of the data. -/
structure ObjTraits where
  initialize_fn : Addr
  destroy_fn    : Addr
  allocate_fn   : Addr
  deallocate_fn : Addr
  size          : Nat

/-- `__cilkrts_obj_payload`. -/
structure ObjPayload where
  traits : ObjTraits
  refcnt : Nat
  offset : Nat

/-- `sizeof(__cilkrts_obj_payload)`: five words and two half words. -/
def sizeofPayload : Nat := 48

/-- `__cilkrts_obj_version`, without the metadata. -/
structure ObjVersion where
  refcnt  : Nat
  payload : Addr

/-- A call of a function of the traits. -/
inductive Callback
  | destroy (fn payload view : Addr)
  | deallocate (fn p : Addr)
deriving DecidableEq

/-- `__cilkrts_obj_payload_create`, what it stores in the memory allocated. -/
def payloadCreate (traits : ObjTraits) : ObjPayload where
  traits := traits
  refcnt := 1
  offset := sizeofPayload

/-- `__cilkrts_obj_payload_get_ptr`. -/
def payloadGetPtr (pl : Addr) (payload : ObjPayload) : Addr := pl + payload.offset

/-- `__sync_fetch_and_add( &refcnt, 1 )` on a 32-bit word: the new value. -/
def fetchAndIncr (refcnt : Nat) : Nat := (refcnt + 1) % 2 ^ 32

/-- `__sync_fetch_and_add( &refcnt, -1 )`: the new value. -/
def fetchAndDecr (refcnt : Nat) : Nat := if refcnt = 0 then 2 ^ 32 - 1 else refcnt - 1

/-- How far a thread has come in releasing the version. -/
inductive Pc
  | idle
  | versionDestroy     -- has taken the count of the version to 0
  | payloadDestroy     -- has taken the count of the payload to 0
  | payloadDeallocate  -- has called `destroy_fn`
deriving DecidableEq

/-- The version, the payload, and the threads `τ`. `versionRefs` and `payloadRefs` are
the references that the clients hold. -/
structure State (τ : Type) where
  version     : ObjVersion
  payload     : ObjPayload
  pc          : τ → Pc
  versionRefs : Nat
  payloadRefs : Nat
  calls       : List Callback

/-- `__cilkrts_obj_version_init`, with the pointer that `allocate_fn` returned. -/
def versionInit (τ : Type) (traits : ObjTraits) (pl : Addr) : State τ where
  version := { refcnt := 1, payload := pl }
  payload := payloadCreate traits
  pc _ := .idle
  versionRefs := 1
  payloadRefs := 0
  calls := []

variable {τ : Type} [DecidableEq τ]

/-- `__cilkrts_obj_payload_del_ref` up to the atomic operation. -/
def State.payloadDelRef (s : State τ) (t : τ) : State τ :=
  { s with
    payload := { s.payload with refcnt := fetchAndDecr s.payload.refcnt }
    pc := Function.update s.pc t (if s.payload.refcnt = 1 then .payloadDestroy else .idle) }

/-- The atomic steps. -/
inductive Event
  | versionAddRef
  | versionDelRef
  | payloadAddRef
  | payloadDelRef
  | advance   -- the next step of a release
deriving DecidableEq

/-- One step of a thread. A client needs a reference to make another one, and gives up
one that it holds. -/
def next (s : State τ) (t : τ) : Event → Option (State τ)
  | .versionAddRef =>
    if s.pc t = .idle ∧ 0 < s.versionRefs then
      some { s with
        version := { s.version with refcnt := fetchAndIncr s.version.refcnt }
        versionRefs := s.versionRefs + 1 }
    else none
  | .versionDelRef =>
    if s.pc t = .idle ∧ 0 < s.versionRefs then
      some { s with
        version := { s.version with refcnt := fetchAndDecr s.version.refcnt }
        versionRefs := s.versionRefs - 1
        pc := Function.update s.pc t (if s.version.refcnt = 1 then .versionDestroy else .idle) }
    else none
  | .payloadAddRef =>
    if s.pc t = .idle ∧ (0 < s.versionRefs ∨ 0 < s.payloadRefs) then
      some { s with
        payload := { s.payload with refcnt := fetchAndIncr s.payload.refcnt }
        payloadRefs := s.payloadRefs + 1 }
    else none
  | .payloadDelRef =>
    if s.pc t = .idle ∧ 0 < s.payloadRefs then
      some { s.payloadDelRef t with payloadRefs := s.payloadRefs - 1 }
    else none
  | .advance =>
    match s.pc t with
    | .idle => none
    -- `__cilkrts_obj_version_destroy`
    | .versionDestroy => some (s.payloadDelRef t)
    -- `__cilkrts_obj_payload_destroy`
    | .payloadDestroy =>
      some { s with
        calls := s.calls ++ [.destroy s.payload.traits.destroy_fn
          (payloadGetPtr s.version.payload s.payload) s.version.payload]
        pc := Function.update s.pc t .payloadDeallocate }
    | .payloadDeallocate =>
      some { s with
        calls := s.calls ++ [.deallocate s.payload.traits.deallocate_fn
          (payloadGetPtr s.version.payload s.payload)]
        pc := Function.update s.pc t .idle }

/-- The threads, from the initial reference to the version. -/
def system (τ : Type) [DecidableEq τ] (traits : ObjTraits) (pl : Addr) :
    LTS (State τ) (τ × Event) where
  init s := s = versionInit τ traits pl
  step s e s' := next s e.1 e.2 = some s'

-- ---------------------------------------------------------------------------
-- The header of the payload
-- ---------------------------------------------------------------------------

/-- The calls that `__cilkrts_obj_traits` declares: `destroy_fn` gets the payload and
the data, and `deallocate_fn` what `allocate_fn` returned. -/
def declaredCalls (traits : ObjTraits) (pl : Addr) : List Callback :=
  [.destroy traits.destroy_fn pl (pl + sizeofPayload), .deallocate traits.deallocate_fn pl]

/-- The calls that are made. -/
def destroyCall (traits : ObjTraits) (pl : Addr) : Callback :=
  .destroy traits.destroy_fn (pl + sizeofPayload) pl

def deallocateCall (traits : ObjTraits) (pl : Addr) : Callback :=
  .deallocate traits.deallocate_fn (pl + sizeofPayload)

/-- Nothing but the counts changes in the version and the payload. -/
structure Header (traits : ObjTraits) (pl : Addr) (s : State τ) : Prop where
  calls   : ∀ c ∈ s.calls, c = destroyCall traits pl ∨ c = deallocateCall traits pl
  payload : s.version.payload = pl
  offset  : s.payload.offset = sizeofPayload
  traits  : s.payload.traits = traits

omit [DecidableEq τ] in
theorem Header.getPtr {traits : ObjTraits} {pl : Addr} {s : State τ} (h : Header traits pl s) :
    payloadGetPtr s.version.payload s.payload = pl + sizeofPayload := by
  rw [payloadGetPtr, h.payload, h.offset]

theorem Header.step {traits : ObjTraits} {pl : Addr} {s s' : State τ} {t : τ} {e : Event}
    (h : Header traits pl s) (hs : next s t e = some s') : Header traits pl s' := by
  obtain ⟨hcalls, hpayload, hoffset, htraits⟩ := h
  have hptr := Header.getPtr ⟨hcalls, hpayload, hoffset, htraits⟩
  -- only a release makes calls, and it makes them with the pointers exchanged
  cases e with
  | advance =>
    simp only [next] at hs
    split at hs
    · cases hs
    · obtain rfl := Option.some.inj hs
      exact ⟨hcalls, hpayload, hoffset, htraits⟩
    · obtain rfl := Option.some.inj hs
      refine ⟨?_, hpayload, hoffset, htraits⟩
      intro c hc
      rcases List.mem_append.mp hc with hc | hc
      · exact hcalls c hc
      · left
        rw [List.mem_singleton.mp hc, htraits, hptr, hpayload]
        rfl
    · obtain rfl := Option.some.inj hs
      refine ⟨?_, hpayload, hoffset, htraits⟩
      intro c hc
      rcases List.mem_append.mp hc with hc | hc
      · exact hcalls c hc
      · right
        rw [List.mem_singleton.mp hc, htraits, hptr]
        rfl
  | _ =>
    simp only [next, Option.ite_none_right_eq_some, Option.some.injEq] at hs
    obtain ⟨-, rfl⟩ := hs
    exact ⟨hcalls, hpayload, hoffset, htraits⟩

-- ---------------------------------------------------------------------------
-- The counts
-- ---------------------------------------------------------------------------

/-- No thread is releasing anything. -/
def Quiet (s : State τ) : Prop := ∀ t, s.pc t = .idle

/-- Only `t` is, at `pc`. -/
def OnlyAt (s : State τ) (t : τ) (pc : Pc) : Prop := s.pc = Function.update (fun _ => .idle) t pc

/--
The stages of a release. In each, the counts say how many references are held, the
version holding one to the payload until its release.
-/
inductive Stage (traits : ObjTraits) (pl : Addr) (s : State τ) : Prop
  | held (hpc : Quiet s) (hrefs : 0 < s.versionRefs) (hversion : s.version.refcnt = s.versionRefs)
      (hpayload : s.payload.refcnt = s.payloadRefs + 1) (hcalls : s.calls = [])
  | versionReleased (t : τ) (hpc : OnlyAt s t .versionDestroy) (hrefs : s.versionRefs = 0)
      (hpayload : s.payload.refcnt = s.payloadRefs + 1) (hcalls : s.calls = [])
  | payloadHeld (hpc : Quiet s) (hrefs : s.versionRefs = 0) (hpos : 0 < s.payloadRefs)
      (hpayload : s.payload.refcnt = s.payloadRefs) (hcalls : s.calls = [])
  | payloadReleased (t : τ) (hpc : OnlyAt s t .payloadDestroy) (hrefs : s.versionRefs = 0)
      (hnone : s.payloadRefs = 0) (hcalls : s.calls = [])
  | destroyed (t : τ) (hpc : OnlyAt s t .payloadDeallocate) (hrefs : s.versionRefs = 0)
      (hnone : s.payloadRefs = 0) (hcalls : s.calls = [destroyCall traits pl])
  | deallocated (hpc : Quiet s) (hrefs : s.versionRefs = 0) (hnone : s.payloadRefs = 0)
      (hcalls : s.calls = [destroyCall traits pl, deallocateCall traits pl])

/-- The counts have room for one more reference. -/
def HasRoom (s : State τ) : Prop :=
  s.versionRefs + 1 < 2 ^ 32 ∧ s.payloadRefs + 2 < 2 ^ 32

theorem fetchAndIncr_eq {n : Nat} (h : n + 1 < 2 ^ 32) : fetchAndIncr n = n + 1 :=
  Nat.mod_eq_of_lt h

theorem fetchAndDecr_eq {n : Nat} (h : 0 < n) : fetchAndDecr n = n - 1 :=
  if_neg (by omega)

omit [DecidableEq τ] in
theorem Quiet.not_at {s : State τ} (h : Quiet s) {t : τ} {pc : Pc} (hpc : s.pc t = pc)
    (hne : pc ≠ .idle) : False :=
  hne (hpc.symm.trans (h t))

/-- A thread that leaves the release as it is was idle, and is. -/
theorem update_idle {s : State τ} {t : τ} (h : s.pc t = .idle) :
    Function.update s.pc t .idle = s.pc := by
  rw [← h, Function.update_eq_self]

theorem Quiet.update {s : State τ} (h : Quiet s) (t : τ) (pc : Pc) :
    Function.update s.pc t pc = Function.update (fun _ => .idle) t pc := by
  rw [show s.pc = fun _ => .idle from funext h]

theorem OnlyAt.update {s : State τ} {t : τ} {pc : Pc} (h : OnlyAt s t pc) (pc' : Pc) :
    Function.update s.pc t pc' = Function.update (fun _ => .idle) t pc' := by
  rw [h, Function.update_idem]

theorem OnlyAt.eq {s : State τ} {t t' : τ} {pc : Pc} (h : OnlyAt s t pc)
    (ht : s.pc t' ≠ .idle) : t' = t := by
  by_contra hne
  rw [h, Function.update_of_ne hne] at ht
  exact ht rfl

theorem OnlyAt.self {s : State τ} {t : τ} {pc : Pc} (h : OnlyAt s t pc) : s.pc t = pc := by
  rw [h, Function.update_self]

variable {traits : ObjTraits} {pl : Addr}

theorem Stage.versionAddRef {s s' : State τ} {t : τ} (h : Stage traits pl s)
    (hroom : HasRoom s) (hs : next s t .versionAddRef = some s') : Stage traits pl s' := by
  simp only [next, Option.ite_none_right_eq_some, Option.some.injEq] at hs
  obtain ⟨⟨-, hpos⟩, rfl⟩ := hs
  cases h with
  | held hpc hrefs hversion hpayload hcalls =>
    have hcount : fetchAndIncr s.version.refcnt = s.versionRefs + 1 := by
      rw [hversion, fetchAndIncr_eq hroom.1]
    exact .held hpc (Nat.succ_pos _) hcount hpayload hcalls
  | _ => omega

theorem Stage.versionDelRef {s s' : State τ} {t : τ} (h : Stage traits pl s)
    (hs : next s t .versionDelRef = some s') : Stage traits pl s' := by
  simp only [next, Option.ite_none_right_eq_some, Option.some.injEq] at hs
  obtain ⟨⟨hidle, hpos⟩, rfl⟩ := hs
  cases h with
  | held hpc hrefs hversion hpayload hcalls =>
    -- the last reference to the version starts the release
    by_cases hlast : s.version.refcnt = 1
    · refine .versionReleased t ?_ ?_ hpayload hcalls
      · simp only [OnlyAt, if_pos hlast, hpc.update]
      · show s.versionRefs - 1 = 0
        omega
    · refine .held ?_ ?_ ?_ hpayload hcalls
      · simp only [if_neg hlast, update_idle hidle]
        exact hpc
      · show 0 < s.versionRefs - 1
        omega
      · show fetchAndDecr s.version.refcnt = s.versionRefs - 1
        rw [hversion, fetchAndDecr_eq hpos]
  | _ => omega

theorem Stage.payloadAddRef {s s' : State τ} {t : τ} (h : Stage traits pl s)
    (hroom : HasRoom s) (hs : next s t .payloadAddRef = some s') : Stage traits pl s' := by
  simp only [next, Option.ite_none_right_eq_some, Option.some.injEq] at hs
  obtain ⟨⟨-, hpos⟩, rfl⟩ := hs
  -- the version, while it lives, holds one reference of the payload’s count
  cases h with
  | held hpc hrefs hversion hpayload hcalls =>
    have hcount : fetchAndIncr s.payload.refcnt = s.payloadRefs + 1 + 1 := by
      rw [hpayload, fetchAndIncr_eq hroom.2]
    exact .held hpc hrefs hversion hcount hcalls
  | versionReleased t' hpc hrefs hpayload hcalls =>
    have hcount : fetchAndIncr s.payload.refcnt = s.payloadRefs + 1 + 1 := by
      rw [hpayload, fetchAndIncr_eq hroom.2]
    exact .versionReleased t' hpc hrefs hcount hcalls
  | payloadHeld hpc hrefs hpos hpayload hcalls =>
    have hcount : fetchAndIncr s.payload.refcnt = s.payloadRefs + 1 := by
      rw [hpayload, fetchAndIncr_eq (by have := hroom.2; omega)]
    exact .payloadHeld hpc hrefs (Nat.succ_pos _) hcount hcalls
  | _ => omega

theorem Stage.payloadDelRef {s s' : State τ} {t : τ} (h : Stage traits pl s)
    (hs : next s t .payloadDelRef = some s') : Stage traits pl s' := by
  simp only [next, Option.ite_none_right_eq_some, Option.some.injEq] at hs
  obtain ⟨⟨hidle, hpos⟩, rfl⟩ := hs
  cases h with
  | held hpc hrefs hversion hpayload hcalls =>
    -- the version’s own reference is still counted
    have hmore : s.payload.refcnt ≠ 1 := by omega
    refine .held ?_ hrefs hversion ?_ hcalls
    · simp only [State.payloadDelRef, if_neg hmore, update_idle hidle]
      exact hpc
    · show fetchAndDecr s.payload.refcnt = s.payloadRefs - 1 + 1
      rw [hpayload, fetchAndDecr_eq (by omega)]
      omega
  | versionReleased t' hpc hrefs hpayload hcalls =>
    have hmore : s.payload.refcnt ≠ 1 := by omega
    refine .versionReleased t' ?_ hrefs ?_ hcalls
    · simp only [OnlyAt, State.payloadDelRef, if_neg hmore, update_idle hidle]
      exact hpc
    · show fetchAndDecr s.payload.refcnt = s.payloadRefs - 1 + 1
      rw [hpayload, fetchAndDecr_eq (by omega)]
      omega
  | payloadHeld hpc hrefs hpos' hpayload hcalls =>
    -- the last reference of all
    by_cases hlast : s.payload.refcnt = 1
    · refine .payloadReleased t ?_ hrefs ?_ hcalls
      · simp only [OnlyAt, State.payloadDelRef, if_pos hlast, hpc.update]
      · show s.payloadRefs - 1 = 0
        omega
    · refine .payloadHeld ?_ hrefs ?_ ?_ hcalls
      · simp only [State.payloadDelRef, if_neg hlast, update_idle hidle]
        exact hpc
      · show 0 < s.payloadRefs - 1
        omega
      · show fetchAndDecr s.payload.refcnt = s.payloadRefs - 1
        rw [hpayload, fetchAndDecr_eq hpos]
  | _ => omega

/-- The one thread that releases goes on. -/
theorem Stage.advance {s s' : State τ} {t : τ} (h : Stage traits pl s) (hhead : Header traits pl s)
    (hs : next s t .advance = some s') : Stage traits pl s' := by
  have hbusy : s.pc t ≠ .idle := by
    intro hidle
    simp [next, hidle] at hs
  cases h with
  | held hpc => exact absurd (hpc t) hbusy
  | payloadHeld hpc => exact absurd (hpc t) hbusy
  | deallocated hpc => exact absurd (hpc t) hbusy
  | versionReleased t' hpc hrefs hpayload hcalls =>
    obtain rfl := hpc.eq hbusy
    simp only [next, hpc.self, Option.some.injEq] at hs
    subst hs
    -- the version gives up its reference to the payload, which may be the last
    by_cases hlast : s.payload.refcnt = 1
    · refine .payloadReleased t ?_ hrefs ?_ hcalls
      · simp only [OnlyAt, State.payloadDelRef, if_pos hlast, hpc.update]
      · show s.payloadRefs = 0
        omega
    · refine .payloadHeld ?_ hrefs ?_ ?_ hcalls
      · simp only [Quiet, State.payloadDelRef, if_neg hlast, hpc.update]
        simp
      · show 0 < s.payloadRefs
        omega
      · show fetchAndDecr s.payload.refcnt = s.payloadRefs
        rw [hpayload, fetchAndDecr_eq (by omega)]
        omega
  | payloadReleased t' hpc hrefs hnone hcalls =>
    obtain rfl := hpc.eq hbusy
    simp only [next, hpc.self, Option.some.injEq] at hs
    subst hs
    -- `destroy_fn`, then `deallocate_fn`
    refine .destroyed t ?_ hrefs hnone ?_
    · simp only [OnlyAt, hpc.update]
    · simp only [hcalls, payloadGetPtr, hhead.payload, hhead.offset, hhead.traits,
        List.nil_append, destroyCall]
  | destroyed t' hpc hrefs hnone hcalls =>
    obtain rfl := hpc.eq hbusy
    simp only [next, hpc.self, Option.some.injEq] at hs
    subst hs
    refine .deallocated ?_ hrefs hnone ?_
    · simp only [Quiet, hpc.update]
      simp
    · simp only [hcalls, hhead.getPtr, hhead.traits, List.singleton_append, deallocateCall]

/-- What holds in every state that is reached without a count running over. -/
structure Inv (traits : ObjTraits) (pl : Addr) (s : State τ) : Prop where
  header : Header traits pl s
  stage  : Stage traits pl s

theorem Inv.init : Inv traits pl (versionInit τ traits pl) where
  header := ⟨by simp [versionInit], rfl, rfl, rfl⟩
  stage := .held (fun _ => rfl) Nat.one_pos rfl rfl rfl

theorem Inv.step {s s' : State τ} {t : τ} {e : Event} (h : Inv traits pl s)
    (hroom : HasRoom s) (hs : next s t e = some s') : Inv traits pl s' := by
  refine ⟨h.header.step hs, ?_⟩
  cases e with
  | versionAddRef => exact h.stage.versionAddRef hroom hs
  | versionDelRef => exact h.stage.versionDelRef hs
  | payloadAddRef => exact h.stage.payloadAddRef hroom hs
  | payloadDelRef => exact h.stage.payloadDelRef hs
  | advance => exact h.stage.advance h.header hs

/-- When all references have been given up and no thread is on its way, each callback
has been called once. -/
theorem Inv.calls_of_released {s : State τ} (h : Inv traits pl s) (hversion : s.versionRefs = 0)
    (hpayload : s.payloadRefs = 0) (hquiet : Quiet s) :
    s.calls = [destroyCall traits pl, deallocateCall traits pl] := by
  rcases h.stage with ⟨-, hrefs⟩ | ⟨t, hpc⟩ | ⟨-, -, hpos⟩ | ⟨t, hpc⟩ | ⟨t, hpc⟩ | ⟨-, -, -, hcalls⟩
  · omega
  · exact (hquiet.not_at hpc.self (by decide)).elim
  · omega
  · exact (hquiet.not_at hpc.self (by decide)).elim
  · exact (hquiet.not_at hpc.self (by decide)).elim
  · exact hcalls

/--
In no run are the callbacks called as their types declare. In every run without more
than 2^32 references at a time, they are called exactly once each when the last
reference has been given up and before that not at all, but with the pointers to the
payload and to the data exchanged.
-/
theorem payloadDestroy_never (τ : Type) [DecidableEq τ] (traits : ObjTraits) (pl : Addr) :
    (∀ s : State τ, (system τ traits pl).Reachable s → s.calls ≠ declaredCalls traits pl) ∧
    (∀ s : State τ, ((system τ traits pl).restrict fun s _ => HasRoom s).Reachable s →
      (0 < s.versionRefs ∨ 0 < s.payloadRefs → s.calls = []) ∧
      (s.versionRefs = 0 → s.payloadRefs = 0 → Quiet s →
        s.calls = [.destroy traits.destroy_fn (pl + sizeofPayload) pl,
          .deallocate traits.deallocate_fn (pl + sizeofPayload)])) := by
  constructor
  · intro s hs
    have hhead : Header traits pl s := by
      refine hs.invariant ?_ fun s e s' h hstep => h.step hstep
      rintro s rfl
      exact Inv.init.header
    intro hcalls
    -- the first argument declared is the payload, the first one passed the data
    have hdestroy := hhead.calls (.destroy traits.destroy_fn pl (pl + sizeofPayload))
      (by simp [hcalls, declaredCalls])
    simp [destroyCall, deallocateCall, sizeofPayload] at hdestroy
  · intro s hs
    have hinv : Inv traits pl s := by
      refine hs.invariant ?_ fun s e s' h hstep => h.step hstep.2 hstep.1
      rintro s rfl
      exact Inv.init
    refine ⟨fun hpos => ?_, hinv.calls_of_released⟩
    cases hinv.stage with
    | held _ _ _ _ hcalls => exact hcalls
    | versionReleased _ _ _ _ hcalls => exact hcalls
    | payloadHeld _ _ _ _ hcalls => exact hcalls
    | _ => omega

/-- One thread gives up the initial reference: the callbacks have been called, and not
as declared. -/
theorem payloadDestroy_exchanged :
    ¬ ∀ s : State Unit, (system Unit ⟨1, 2, 3, 4, 8⟩ 1000).Reachable s →
      s.versionRefs = 0 → s.payloadRefs = 0 → Quiet s →
        s.calls = declaredCalls ⟨1, 2, 3, 4, 8⟩ 1000 := by
  intro hall
  have go : ∀ {s : State Unit}, (system Unit ⟨1, 2, 3, 4, 8⟩ 1000).Reachable s →
      ∀ (e : Event) (hsome : (next s () e).isSome),
        (system Unit ⟨1, 2, 3, 4, 8⟩ 1000).Reachable ((next s () e).get hsome) :=
    fun h e hsome => h.step (e := ((), e)) (Option.some_get hsome).symm
  have h0 : (system Unit ⟨1, 2, 3, 4, 8⟩ 1000).Reachable _ := .init rfl
  have h4 := go (go (go (go h0 .versionDelRef rfl) .advance rfl) .advance rfl) .advance rfl
  have hcalls := hall _ h4 rfl rfl fun _ => rfl
  revert hcalls
  decide

end SwanRuntime.Dataflow.Payload
