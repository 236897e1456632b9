import SwanRuntime.Reducers.Holder

/-!
# Holders — ownership

Every block belongs to a monoid or is a view. An initializer is made for a monoid that
has none, and deleted for the one that has it; a swap or a move only renames the
monoids. All that breaks this is what `Keeps` excludes: a view that is given back with
another count than 1, and an assignment that throws between the deletion of the old
initializer and the copy of the new one.

## Results

* `Owned.make`, `Owned.delete`, `Owned.relabel`, `Owned.setView` — blocks and their
  owners.
* `Owned.run`, `keeps_of_sound`  — which steps keep the discipline.
* `holder_sound_iff`             — which runs do.
-/

namespace SwanRuntime.Reducers.Holder

-- ---------------------------------------------------------------------------
-- Owners
-- ---------------------------------------------------------------------------

/-- What a block belongs to. -/
inductive Owner
  | initializer (m : Nat)
  | stored (m : Nat)
  | view
deriving DecidableEq, Repr

/-- Every block has one owner: a monoid, as its initializer or as what that stores, or
the program, as a view. -/
structure Owned (s : State) (owner : Nat → Option Owner) : Prop where
  free        : ∀ b, s.heap.blocks b = none ↔ owner b = none
  fresh       : ∀ b, s.heap.next ≤ b → owner b = none
  monoid      : ∀ m M p, s.monoids m = some M → M.initializer = some p →
    owner p = some (.initializer m) ∧ ∃ kind q, owner q = some (.stored m) ∧
      s.heap.blocks p = some ⟨M.allocator, 1, some (.initializer kind q)⟩ ∧
      s.heap.blocks q = some ⟨M.allocator, 1, some kind.object⟩
  initializer : ∀ b m, owner b = some (.initializer m) →
    ∃ M, s.monoids m = some M ∧ M.initializer = some b
  stored      : ∀ b m, owner b = some (.stored m) →
    ∃ M p kind, s.monoids m = some M ∧ M.initializer = some p ∧
      s.heap.blocks p = some ⟨M.allocator, 1, some (.initializer kind b)⟩
  view        : ∀ b a, s.views b = some a → owner b = some .view ∧
    ∃ object, s.heap.blocks b = some ⟨a, 1, object⟩ ∧ (object = none ∨ object = some .value)
  viewOf      : ∀ b, owner b = some .view → s.views b ≠ none

section Owners

variable {s : State} {owner : Nat → Option Owner} {m : Nat}

theorem Owned.disciplined (h : Owned s owner) : s.Disciplined where
  unshared := by
    intro m m' M M' p hm hm' hM hM'
    have howner := (h.monoid m M p hm hM).1
    have howner' := (h.monoid m' M' p hm' hM').1
    exact Owner.initializer.inj (Option.some.inj (howner.symm.trans howner'))
  undeleted := by
    intro m M p hm hM
    obtain ⟨-, kind, q, -, hp, hq⟩ := h.monoid m M p hm hM
    exact ⟨kind, q, hp, hq⟩
  unleaked := by
    intro b hb
    cases ho : owner b with
    | none => exact absurd ((h.free b).mpr ho) hb
    | some o =>
      cases o with
      | initializer m =>
        obtain ⟨M, hm, hM⟩ := h.initializer b m ho
        obtain ⟨-, kind, q, -, hp, -⟩ := h.monoid m M b hm hM
        exact .inr ⟨m, M, b, kind, q, hm, hM, hp, .inl rfl⟩
      | stored m =>
        obtain ⟨M, p, kind, hm, hM, hp⟩ := h.stored b m ho
        exact .inr ⟨m, M, p, kind, b, hm, hM, hp, .inr rfl⟩
      | view => exact .inl (h.viewOf b ho)

/-- A monoid without an initializer comes, goes or gets another allocator. -/
theorem Owned.setDefault (h : Owned s owner) (hm : s.NoInitializer m) {x : Option Monoid}
    (hx : ∀ M, x = some M → M.initializer = none) :
    Owned { s with monoids := Function.update s.monoids m x } owner := by
  have hother : ∀ m' M p, s.monoids m' = some M → M.initializer = some p → m' ≠ m := by
    rintro m' M p hm' hM rfl
    exact nomatch (hm M hm').symm.trans hM
  have hkept : ∀ m' M p, s.monoids m' = some M → M.initializer = some p →
      Function.update s.monoids m x m' = some M := by
    intro m' M p hm' hM
    rwa [Function.update_of_ne (hother m' M p hm' hM)]
  constructor
  case free => exact h.free
  case fresh => exact h.fresh
  case monoid =>
    intro m' M p hm' hM
    dsimp only at hm'
    by_cases heq : m' = m
    · subst heq
      rw [Function.update_self] at hm'
      exact nomatch (hx M hm').symm.trans hM
    · rw [Function.update_of_ne heq] at hm'
      exact h.monoid m' M p hm' hM
  case initializer =>
    intro b m' hb
    obtain ⟨M, hm', hM⟩ := h.initializer b m' hb
    exact ⟨M, hkept m' M b hm' hM, hM⟩
  case stored =>
    intro b m' hb
    obtain ⟨M, p, kind, hm', hM, hp⟩ := h.stored b m' hb
    exact ⟨M, p, kind, hkept m' M p hm' hM, hM, hp⟩
  case view => exact h.view
  case viewOf => exact h.viewOf

/-- Numbers of blocks are skipped. -/
theorem Owned.skip (h : Owned s owner) (n : Nat) :
    Owned { s with heap := ⟨s.heap.blocks, s.heap.next + n⟩ } owner :=
  { h with fresh := fun b hb => h.fresh b (Nat.le_trans (Nat.le_add_right _ n) hb) }

-- ---------------------------------------------------------------------------
-- Making and deleting
-- ---------------------------------------------------------------------------

/-- The heap with a new initializer and what it stores. -/
def made (h : Heap) (kind : InitKind) (a : Nat) : Heap :=
  let blocks := Function.update h.blocks h.next
    (some ⟨a, 1, some (.initializer kind (h.next + 1))⟩)
  ⟨Function.update blocks (h.next + 1) (some ⟨a, 1, some kind.object⟩), h.next + 2⟩

/-- Two blocks are obtained, and are given back if the copy throws. -/
theorem make_ok {h : Heap} (kind : InitKind) (a : Nat) (throws : Bool)
    (hfree : h.blocks h.next = none) (hfree' : h.blocks (h.next + 1) = none) :
    make kind a throws h =
      .ok (if throws then (⟨h.blocks, h.next + 2⟩, none) else (made h kind a, some h.next)) := by
  have hne : h.next + 1 ≠ h.next := Nat.succ_ne_self _
  have hself : ∀ x, ((h.allocate a 1).1.allocate a x).1.blocks h.next = some ⟨a, 1, none⟩ := by
    intro x
    show Function.update (Function.update h.blocks h.next _) (h.next + 1) _ h.next = _
    rw [Function.update_of_ne hne.symm, Function.update_self]
  have hstored : ((h.allocate a 1).1.allocate a 1).1.blocks (h.next + 1) = some ⟨a, 1, none⟩ :=
    Function.update_self ..
  unfold make
  dsimp only
  cases throws with
  -- the second block is given back first, as in the handler of the copy
  | true =>
    rw [if_pos rfl, if_pos rfl]
    show (BlockHeap.deallocate _ (h.next + 1) a 1 >>= fun h' =>
      BlockHeap.deallocate h' h.next a 1 >>= fun h' => pure (h', none)) = _
    rw [BlockHeap.deallocate_ok hstored, Checked.ok_bind, BlockHeap.deallocate_ok
      ((BlockHeap.set_of_ne _ hne.symm).trans (hself 1)), Checked.ok_bind]
    refine congrArg (fun blocks => Except.ok (BlockHeap.mk blocks (h.next + 2), none)) ?_
    show Function.update (Function.update (Function.update (Function.update h.blocks h.next _)
      (h.next + 1) _) (h.next + 1) none) h.next none = h.blocks
    rw [Function.update_idem, Function.update_comm hne, Function.update_idem,
      Function.update_eq_iff.mpr ⟨hfree'.symm, fun b hb => ?_⟩]
    by_cases hb' : b = h.next
    · rw [hb', Function.update_self, hfree]
    · rw [Function.update_of_ne hb']
  | false =>
    rw [if_neg Bool.false_ne_true, if_neg Bool.false_ne_true]
    show (BlockHeap.construct _ (h.next + 1) kind.object >>= fun h' =>
      BlockHeap.construct h' h.next (.initializer kind (h.next + 1)) >>= fun h' =>
        pure (h', some h.next)) = _
    rw [BlockHeap.construct_ok hstored, Checked.ok_bind, BlockHeap.construct_ok
      ((BlockHeap.set_of_ne _ hne.symm).trans (hself 1)), Checked.ok_bind]
    refine congrArg (fun blocks => Except.ok (BlockHeap.mk blocks (h.next + 2), some h.next)) ?_
    show Function.update (Function.update (Function.update (Function.update h.blocks h.next _)
      (h.next + 1) _) (h.next + 1) _) h.next _ = _
    rw [Function.update_idem, Function.update_comm hne, Function.update_idem,
      Function.update_comm hne.symm]

theorem made_blocks_of_ne {h : Heap} {kind : InitKind} {a b : Nat} (hself : b ≠ h.next)
    (hstored : b ≠ h.next + 1) : (made h kind a).blocks b = h.blocks b := by
  show Function.update (Function.update h.blocks h.next _) (h.next + 1) _ b = _
  rw [Function.update_of_ne hstored, Function.update_of_ne hself]

@[simp] theorem made_self (h : Heap) (kind : InitKind) (a : Nat) :
    (made h kind a).blocks h.next = some ⟨a, 1, some (.initializer kind (h.next + 1))⟩ := by
  show Function.update (Function.update h.blocks h.next _) (h.next + 1) _ h.next = _
  rw [Function.update_of_ne (Nat.succ_ne_self _).symm, Function.update_self]

@[simp] theorem made_stored (h : Heap) (kind : InitKind) (a : Nat) :
    (made h kind a).blocks (h.next + 1) = some ⟨a, 1, some kind.object⟩ :=
  Function.update_self ..

/-- The owners with a new initializer. -/
def madeOwner (owner : Nat → Option Owner) (n m : Nat) : Nat → Option Owner :=
  Function.update (Function.update owner n (some (.initializer m))) (n + 1) (some (.stored m))

theorem madeOwner_of_ne {n b : Nat} (hself : b ≠ n) (hstored : b ≠ n + 1) :
    madeOwner owner n m b = owner b := by
  unfold madeOwner
  rw [Function.update_of_ne hstored, Function.update_of_ne hself]

@[simp] theorem madeOwner_self (n : Nat) :
    madeOwner owner n m n = some (.initializer m) := by
  unfold madeOwner
  rw [Function.update_of_ne (Nat.succ_ne_self _).symm, Function.update_self]

@[simp] theorem madeOwner_stored (n : Nat) :
    madeOwner owner n m (n + 1) = some (.stored m) := Function.update_self ..

/-- A monoid without an initializer gets a new one. -/
theorem Owned.make (h : Owned s owner) (hm : s.NoInitializer m) (kind : InitKind) (a : Nat) :
    Owned ⟨made s.heap kind a, Function.update s.monoids m (some ⟨a, some s.heap.next⟩), s.views⟩
      (madeOwner owner s.heap.next m) := by
  -- a block with an owner is not one of the new ones
  have hold : ∀ b, owner b ≠ none → b ≠ s.heap.next ∧ b ≠ s.heap.next + 1 := by
    refine fun b hb => ⟨?_, ?_⟩
    · rintro rfl
      exact hb (h.fresh _ (Nat.le_refl _))
    · rintro rfl
      exact hb (h.fresh _ (Nat.le_succ _))
  have howner : ∀ b o, owner b = some o → madeOwner owner s.heap.next m b = some o := by
    intro b o hb
    have hne := hold b (hb ▸ Option.some_ne_none o)
    rw [madeOwner_of_ne hne.1 hne.2, hb]
  have hblocks : ∀ b block, s.heap.blocks b = some block →
      (made s.heap kind a).blocks b = some block := by
    intro b block hb
    have hne := hold b fun hnone =>
      Option.some_ne_none block (hb.symm.trans ((h.free b).mpr hnone))
    rw [made_blocks_of_ne hne.1 hne.2, hb]
  have hkept : ∀ m' M p, s.monoids m' = some M → M.initializer = some p →
      Function.update s.monoids m (some ⟨a, some s.heap.next⟩) m' = some M := by
    intro m' M p hm' hM
    have hne : m' ≠ m := by
      rintro rfl
      exact nomatch (hm M hm').symm.trans hM
    rwa [Function.update_of_ne hne]
  constructor
  case free =>
    intro b
    dsimp only
    by_cases hself : b = s.heap.next
    · rw [hself]
      simp
    · by_cases hstored : b = s.heap.next + 1
      · rw [hstored]
        simp
      · rw [made_blocks_of_ne hself hstored, madeOwner_of_ne hself hstored]
        exact h.free b
  case fresh =>
    intro b hb
    have hb' : s.heap.next + 2 ≤ b := hb
    rw [madeOwner_of_ne (by omega) (by omega)]
    exact h.fresh b (by omega)
  -- the new blocks belong to the monoid, the others to whom they belonged
  case monoid =>
    intro m' M p hm' hM
    dsimp only at hm'
    by_cases heq : m' = m
    · subst heq
      rw [Function.update_self] at hm'
      cases hm'
      cases hM
      exact ⟨madeOwner_self _, kind, _, madeOwner_stored _, made_self .., made_stored ..⟩
    · rw [Function.update_of_ne heq] at hm'
      obtain ⟨hp, kind', q, hq, hpb, hqb⟩ := h.monoid m' M p hm' hM
      exact ⟨howner _ _ hp, kind', q, howner _ _ hq, hblocks _ _ hpb, hblocks _ _ hqb⟩
  case initializer =>
    intro b m' hb
    by_cases hself : b = s.heap.next
    · subst hself
      rw [madeOwner_self] at hb
      cases hb
      exact ⟨_, Function.update_self .., rfl⟩
    · by_cases hstored : b = s.heap.next + 1
      · subst hstored
        rw [madeOwner_stored] at hb
        cases hb
      · rw [madeOwner_of_ne hself hstored] at hb
        obtain ⟨M, hm', hM⟩ := h.initializer b m' hb
        exact ⟨M, hkept m' M b hm' hM, hM⟩
  case stored =>
    intro b m' hb
    by_cases hself : b = s.heap.next
    · subst hself
      rw [madeOwner_self] at hb
      cases hb
    · by_cases hstored : b = s.heap.next + 1
      · subst hstored
        rw [madeOwner_stored] at hb
        cases hb
        exact ⟨_, _, kind, Function.update_self .., rfl, made_self ..⟩
      · rw [madeOwner_of_ne hself hstored] at hb
        obtain ⟨M, p, kind', hm', hM, hp⟩ := h.stored b m' hb
        exact ⟨M, p, kind', hkept m' M p hm' hM, hM, hblocks _ _ hp⟩
  case view =>
    intro b a' hb
    obtain ⟨hview, object, hobject, hkind⟩ := h.view b a' hb
    exact ⟨howner _ _ hview, object, hblocks _ _ hobject, hkind⟩
  case viewOf =>
    intro b hb
    by_cases hself : b = s.heap.next
    · subst hself
      rw [madeOwner_self] at hb
      cases hb
    · by_cases hstored : b = s.heap.next + 1
      · subst hstored
        rw [madeOwner_stored] at hb
        cases hb
      · rw [madeOwner_of_ne hself hstored] at hb
        exact h.viewOf b hb

/-- The heap without an initializer and what it stores. -/
def deleted (h : Heap) (p q : Nat) : Heap := (h.set q none).set p none

theorem deleted_of_ne {h : Heap} {p q b : Nat} (hp : b ≠ p) (hq : b ≠ q) :
    (deleted h p q).blocks b = h.blocks b :=
  (BlockHeap.set_of_ne _ hp).trans (BlockHeap.set_of_ne _ hq)

/-- What is stored is destroyed and given back, and then the initializer. -/
theorem deleteSelf_ok {h : Heap} {p q a : Nat} {kind : InitKind} {object : Object}
    (hp : h.blocks p = some ⟨a, 1, some (.initializer kind q)⟩)
    (hq : h.blocks q = some ⟨a, 1, some object⟩) (hne : p ≠ q) :
    deleteSelf (some p) a h = .ok (deleted h p q) := by
  have hq' : (h.set q (some ⟨a, 1, none⟩)).blocks q = some ⟨a, 1, none⟩ := BlockHeap.set_self _
  have hp' : (h.set q none).blocks p = some ⟨a, 1, some (.initializer kind q)⟩ :=
    (BlockHeap.set_of_ne _ hne).trans hp
  have hp'' : ((h.set q none).set p (some ⟨a, 1, none⟩)).blocks p = some ⟨a, 1, none⟩ :=
    BlockHeap.set_self _
  unfold deleteSelf
  dsimp only
  rw [BlockHeap.read_ok hp, Checked.ok_bind]
  dsimp only
  rw [BlockHeap.destroy_ok hq, Checked.ok_bind, BlockHeap.deallocate_ok hq', Checked.ok_bind,
    BlockHeap.set_set, BlockHeap.destroy_ok hp', Checked.ok_bind,
    BlockHeap.deallocate_ok hp'', BlockHeap.set_set]
  rfl

/-- The owners without the initializer. -/
def deletedOwner (owner : Nat → Option Owner) (p q : Nat) : Nat → Option Owner :=
  Function.update (Function.update owner q none) p none

theorem deletedOwner_of_ne {p q b : Nat} (hp : b ≠ p) (hq : b ≠ q) :
    deletedOwner owner p q b = owner b := by
  unfold deletedOwner
  rw [Function.update_of_ne hp, Function.update_of_ne hq]

theorem deletedOwner_some {p q b : Nat} {o : Owner}
    (hb : deletedOwner owner p q b = some o) : b ≠ p ∧ b ≠ q ∧ owner b = some o := by
  have hp : b ≠ p := by
    rintro rfl
    exact nomatch (Function.update_self ..).symm.trans hb
  have hq : b ≠ q := by
    rintro rfl
    unfold deletedOwner at hb
    rw [Function.update_of_ne hp, Function.update_self] at hb
    cases hb
  exact ⟨hp, hq, (deletedOwner_of_ne hp hq).symm.trans hb⟩

/-- A monoid loses its initializer, and may itself be destroyed. -/
theorem Owned.delete (h : Owned s owner) {M : Monoid} {p q : Nat} {kind : InitKind}
    (hm : s.monoids m = some M) (hM : M.initializer = some p)
    (hp : s.heap.blocks p = some ⟨M.allocator, 1, some (.initializer kind q)⟩)
    (hpo : owner p = some (.initializer m)) (hqo : owner q = some (.stored m))
    {x : Option Monoid} (hx : ∀ M', x = some M' → M'.initializer = none) :
    Owned ⟨deleted s.heap p q, Function.update s.monoids m x, s.views⟩
      (deletedOwner owner p q) := by
  -- the blocks of other owners are other blocks
  have hblocks : ∀ b o, owner b = some o → o ≠ .initializer m → o ≠ .stored m →
      b ≠ p ∧ b ≠ q := by
    refine fun b o hb hself hstored => ⟨?_, ?_⟩
    · rintro rfl
      exact hself (Option.some.inj (hb.symm.trans hpo))
    · rintro rfl
      exact hstored (Option.some.inj (hb.symm.trans hqo))
  have hother : ∀ b o, owner b = some o → o ≠ .initializer m → o ≠ .stored m →
      deletedOwner owner p q b = some o ∧ (deleted s.heap p q).blocks b = s.heap.blocks b := by
    intro b o hb hself hstored
    have hne := hblocks b o hb hself hstored
    exact ⟨(deletedOwner_of_ne hne.1 hne.2).trans hb, deleted_of_ne hne.1 hne.2⟩
  -- what is left does not belong to the monoid
  have hleft : ∀ b, deletedOwner owner p q b ≠ some (.initializer m) ∧
      deletedOwner owner p q b ≠ some (.stored m) := by
    refine fun b => ⟨fun hb => ?_, fun hb => ?_⟩
    · obtain ⟨hne, -, hbo⟩ := deletedOwner_some hb
      obtain ⟨M', hm', hM'⟩ := h.initializer b m hbo
      cases hm.symm.trans hm'
      exact hne (Option.some.inj (hM'.symm.trans hM))
    · obtain ⟨-, hne, hbo⟩ := deletedOwner_some hb
      obtain ⟨M', p', kind', hm', hM', hp'⟩ := h.stored b m hbo
      cases hm.symm.trans hm'
      cases hM.symm.trans hM'
      cases hp.symm.trans hp'
      exact hne rfl
  have hsome : ∀ m' M', m' ≠ m → s.monoids m' = some M' →
      Function.update s.monoids m x m' = some M' := by
    intro m' M' hne hm'
    rwa [Function.update_of_ne hne]
  constructor
  case free =>
    intro b
    by_cases hbp : b = p
    · subst hbp
      exact iff_of_true (BlockHeap.set_self _) (Function.update_self ..)
    · by_cases hbq : b = q
      · subst hbq
        exact iff_of_true ((BlockHeap.set_of_ne _ hbp).trans (BlockHeap.set_self _))
          ((Function.update_of_ne hbp ..).trans (Function.update_self ..))
      · dsimp only
        rw [deleted_of_ne hbp hbq, deletedOwner_of_ne hbp hbq]
        exact h.free b
  case fresh =>
    intro b hb
    cases hbo : deletedOwner owner p q b with
    | none => rfl
    | some o => exact nomatch (h.fresh b hb).symm.trans (deletedOwner_some hbo).2.2
  -- another monoid keeps its blocks
  case monoid =>
    intro m' M' p' hm' hM'
    dsimp only at hm'
    by_cases heq : m' = m
    · subst heq
      rw [Function.update_self] at hm'
      exact nomatch (hx M' hm').symm.trans hM'
    · rw [Function.update_of_ne heq] at hm'
      obtain ⟨hpo', kind', q', hqo', hp', hq'⟩ := h.monoid m' M' p' hm' hM'
      obtain ⟨hpo'', hpb⟩ := hother p' _ hpo' (by simpa using heq) (by simp)
      obtain ⟨hqo'', hqb⟩ := hother q' _ hqo' (by simp) (by simpa using heq)
      exact ⟨hpo'', kind', q', hqo'', hpb.trans hp', hqb.trans hq'⟩
  case initializer =>
    intro b m' hb
    have hne : m' ≠ m := by
      rintro rfl
      exact (hleft b).1 hb
    obtain ⟨M', hm', hM'⟩ := h.initializer b m' (deletedOwner_some hb).2.2
    exact ⟨M', hsome m' M' hne hm', hM'⟩
  case stored =>
    intro b m' hb
    have hne : m' ≠ m := by
      rintro rfl
      exact (hleft b).2 hb
    obtain ⟨M', p', kind', hm', hM', hp'⟩ := h.stored b m' (deletedOwner_some hb).2.2
    have hpo' := (h.monoid m' M' p' hm' hM').1
    exact ⟨M', p', kind', hsome m' M' hne hm', hM',
      (hother p' _ hpo' (by simpa using hne) (by simp)).2.trans hp'⟩
  case view =>
    intro b a hb
    obtain ⟨hview, object, hobject, hkind⟩ := h.view b a hb
    obtain ⟨hview', hblock⟩ := hother b _ hview (by simp) (by simp)
    exact ⟨hview', object, hblock.trans hobject, hkind⟩
  case viewOf => exact fun b hb => h.viewOf b (deletedOwner_some hb).2.2

-- ---------------------------------------------------------------------------
-- Monoids under other names
-- ---------------------------------------------------------------------------

/-- The owner when the monoids are renamed. -/
def Owner.rename (f : Nat → Nat) : Owner → Owner
  | initializer m => .initializer (f m)
  | stored m => .stored (f m)
  | view => .view

theorem Owner.rename_eq_initializer {f : Nat → Nat} {o : Option Owner}
    (ho : o.map (·.rename f) = some (.initializer m)) :
    ∃ m', o = some (.initializer m') ∧ f m' = m := by
  obtain ⟨o', rfl, ho'⟩ := Option.map_eq_some_iff.mp ho
  cases o' with
  | initializer m' => exact ⟨m', rfl, Owner.initializer.inj ho'⟩
  | stored m' => cases ho'
  | view => cases ho'

theorem Owner.rename_eq_stored {f : Nat → Nat} {o : Option Owner}
    (ho : o.map (·.rename f) = some (.stored m)) :
    ∃ m', o = some (.stored m') ∧ f m' = m := by
  obtain ⟨o', rfl, ho'⟩ := Option.map_eq_some_iff.mp ho
  cases o' with
  | initializer m' => cases ho'
  | stored m' => exact ⟨m', rfl, Owner.stored.inj ho'⟩
  | view => cases ho'

theorem Owner.rename_eq_view {f : Nat → Nat} {o : Option Owner}
    (ho : o.map (·.rename f) = some .view) : o = some .view := by
  obtain ⟨o', rfl, ho'⟩ := Option.map_eq_some_iff.mp ho
  cases o' with
  | initializer m' => cases ho'
  | stored m' => cases ho'
  | view => rfl

/-- The initializers change hands. -/
theorem Owned.relabel (h : Owned s owner) (σ : Equiv.Perm Nat) :
    Owned { s with monoids := s.monoids ∘ σ } (fun b => (owner b).map (·.rename σ.symm)) := by
  constructor
  case free => exact fun b => (h.free b).trans Option.map_eq_none_iff.symm
  case fresh => exact fun b hb => Option.map_eq_none_iff.mpr (h.fresh b hb)
  case monoid =>
    intro m M p hm hM
    obtain ⟨hp, kind, q, hq, hpb, hqb⟩ := h.monoid (σ m) M p hm hM
    refine ⟨?_, kind, q, ?_, hpb, hqb⟩
    · rw [hp]
      exact congrArg (fun m => some (Owner.initializer m)) (σ.symm_apply_apply m)
    · rw [hq]
      exact congrArg (fun m => some (Owner.stored m)) (σ.symm_apply_apply m)
  case initializer =>
    intro b m hb
    obtain ⟨m', hb', rfl⟩ := Owner.rename_eq_initializer hb
    obtain ⟨M, hm, hM⟩ := h.initializer b m' hb'
    exact ⟨M, (congrArg s.monoids (σ.apply_symm_apply m')).trans hm, hM⟩
  case stored =>
    intro b m hb
    obtain ⟨m', hb', rfl⟩ := Owner.rename_eq_stored hb
    obtain ⟨M, p, kind, hm, hM, hp⟩ := h.stored b m' hb'
    exact ⟨M, p, kind, (congrArg s.monoids (σ.apply_symm_apply m')).trans hm, hM, hp⟩
  case view =>
    intro b a hb
    obtain ⟨hview, hblock⟩ := h.view b a hb
    exact ⟨by rw [hview]; rfl, hblock⟩
  case viewOf => exact fun b hb => h.viewOf b (Owner.rename_eq_view hb)

/-- With equal allocators it is as if the monoids had been swapped. -/
theorem swapInitializers_eq {rhs : Nat} {M R : Monoid} (hm : s.monoids m = some M)
    (hrhs : s.monoids rhs = some R) (ha : M.allocator = R.allocator) :
    s.swapInitializers m M rhs R = { s with monoids := s.monoids ∘ Equiv.swap m rhs } := by
  obtain ⟨a, p⟩ := M
  obtain ⟨a', p'⟩ := R
  obtain rfl : a = a' := ha
  unfold State.swapInitializers
  dsimp only
  congr 1
  funext m'
  dsimp only [Function.comp]
  by_cases hr : m' = rhs
  · rw [hr, Function.update_self, Equiv.swap_apply_right, hm]
  · rw [Function.update_of_ne hr]
    by_cases hl : m' = m
    · rw [hl, Function.update_self, Equiv.swap_apply_left, hrhs]
    · rw [Function.update_of_ne hl, Equiv.swap_apply_of_ne_of_ne hl hr]

theorem Owned.swap (h : Owned s owner) {rhs : Nat} {M R : Monoid} (hm : s.monoids m = some M)
    (hrhs : s.monoids rhs = some R) (ha : M.allocator = R.allocator) :
    ∃ owner', Owned (s.swapInitializers m M rhs R) owner' := by
  rw [swapInitializers_eq hm hrhs ha]
  exact ⟨_, h.relabel _⟩

-- ---------------------------------------------------------------------------
-- Views
-- ---------------------------------------------------------------------------

/-- A view comes or goes, or something is constructed or destroyed in it. -/
theorem Owned.setView (h : Owned s owner) {b next : Nat} {block : Option (Block Object)}
    (hb : owner b = none ∨ owner b = some .view)
    (hblock : ∀ x, block = some x → x.count = 1 ∧ (x.object = none ∨ x.object = some .value))
    (hnext : s.heap.next ≤ next) (hlt : block ≠ none → b < next) :
    Owned ⟨⟨Function.update s.heap.blocks b block, next⟩, s.monoids,
        Function.update s.views b (block.map (·.allocator))⟩
      (Function.update owner b (block.map fun _ => .view)) := by
  -- no monoid has to do with the block
  have hother : ∀ c o, owner c = some o → o ≠ .view → c ≠ b := by
    rintro c o hc ho rfl
    rcases hb with hb | hb
    · exact nomatch hb.symm.trans hc
    · exact ho (Option.some.inj (hc.symm.trans hb))
  have hself : ∀ o, o ≠ .view → Function.update owner b (block.map fun _ => .view) b ≠ some o := by
    intro o ho hbo
    rw [Function.update_self] at hbo
    obtain ⟨-, -, rfl⟩ := Option.map_eq_some_iff.mp hbo
    exact ho rfl
  constructor
  case free =>
    intro c
    dsimp only
    by_cases hc : c = b
    · rw [hc, Function.update_self, Function.update_self]
      exact Option.map_eq_none_iff.symm
    · rw [Function.update_of_ne hc, Function.update_of_ne hc]
      exact h.free c
  case fresh =>
    intro c hc
    have hc' : next ≤ c := hc
    by_cases hcb : c = b
    · subst hcb
      rw [Function.update_self]
      refine Option.map_eq_none_iff.mpr (by_contra fun hne => ?_)
      exact absurd (hlt hne) (Nat.not_lt.mpr hc')
    · rw [Function.update_of_ne hcb]
      exact h.fresh c (Nat.le_trans hnext hc')
  case monoid =>
    intro m M p hm hM
    obtain ⟨hp, kind, q, hq, hpb, hqb⟩ := h.monoid m M p hm hM
    have hpne := hother p _ hp (by simp)
    have hqne := hother q _ hq (by simp)
    refine ⟨?_, kind, q, ?_, ?_, ?_⟩
    · rwa [Function.update_of_ne hpne]
    · rwa [Function.update_of_ne hqne]
    · exact (Function.update_of_ne hpne ..).trans hpb
    · exact (Function.update_of_ne hqne ..).trans hqb
  case initializer =>
    intro c m hc
    by_cases hcb : c = b
    · exact absurd (hcb ▸ hc) (hself _ (by simp))
    · rw [Function.update_of_ne hcb] at hc
      exact h.initializer c m hc
  case stored =>
    intro c m hc
    by_cases hcb : c = b
    · exact absurd (hcb ▸ hc) (hself _ (by simp))
    · rw [Function.update_of_ne hcb] at hc
      obtain ⟨M, p, kind, hm, hM, hp⟩ := h.stored c m hc
      have hpne := hother p _ (h.monoid m M p hm hM).1 (by simp)
      exact ⟨M, p, kind, hm, hM, (Function.update_of_ne hpne ..).trans hp⟩
  -- the block itself is a view as long as it is there
  case view =>
    intro c a hc
    dsimp only at hc ⊢
    by_cases hcb : c = b
    · subst hcb
      rw [Function.update_self] at hc ⊢
      rw [Function.update_self]
      obtain ⟨⟨a', count, object⟩, rfl, rfl⟩ := Option.map_eq_some_iff.mp hc
      obtain ⟨hcount, hobject⟩ := hblock _ rfl
      exact ⟨rfl, object, by rw [show count = 1 from hcount], hobject⟩
    · rw [Function.update_of_ne hcb] at hc ⊢
      rw [Function.update_of_ne hcb]
      exact h.view c a hc
  case viewOf =>
    intro c hc
    dsimp only
    by_cases hcb : c = b
    · subst hcb
      rw [Function.update_self] at hc ⊢
      obtain ⟨x, rfl, -⟩ := Option.map_eq_some_iff.mp hc
      exact Option.some_ne_none _
    · rw [Function.update_of_ne hcb] at hc ⊢
      exact h.viewOf c hc

/-- Something is constructed or destroyed in a view. -/
theorem Owned.setObject (h : Owned s owner) {b : Nat} {object object' : Option Object}
    (hview : s.IsView b object) (hobject : object' = none ∨ object' = some .value) :
    ∃ a, s.heap.blocks b = some ⟨a, 1, object⟩ ∧
      ∃ owner', Owned { s with heap := s.heap.set b (some ⟨a, 1, object'⟩) } owner' := by
  obtain ⟨a, ha, hb⟩ := hview
  have howner := (h.view b a ha).1
  have hlt : b < s.heap.next := by
    by_contra hge
    exact nomatch (h.fresh b (Nat.not_lt.mp hge)).symm.trans howner
  have hviews : Function.update s.views b (some a) = s.views := by
    rw [← ha, Function.update_eq_self]
  have hblock : ∀ x : Block Object, some (⟨a, 1, object'⟩ : Block Object) = some x →
      x.count = 1 ∧ (x.object = none ∨ x.object = some .value) := by
    rintro x ⟨⟩
    exact ⟨rfl, hobject⟩
  have hset := h.setView (.inr howner) hblock (Nat.le_refl _) fun _ => hlt
  dsimp only [Option.map_some] at hset
  rw [hviews] at hset
  exact ⟨a, hb, _, hset⟩

-- ---------------------------------------------------------------------------
-- The members
-- ---------------------------------------------------------------------------

/-- A new initializer, or none when the copy throws. -/
theorem Owned.make_ok (h : Owned s owner) (hm : s.NoInitializer m) (kind : InitKind) (a : Nat)
    (throws : Bool) :
    ∃ out, Holder.make kind a throws s.heap = .ok out ∧
      (∃ owner', Owned (s.withInitializer m a (out.1, out.2.map some)) owner') ∧
      (throws = true → out = (⟨s.heap.blocks, s.heap.next + 2⟩, none)) ∧
      (throws = false → out.2 ≠ none) := by
  have hfree := (h.free _).mpr (h.fresh s.heap.next (Nat.le_refl _))
  have hfree' := (h.free _).mpr (h.fresh (s.heap.next + 1) (Nat.le_succ _))
  refine ⟨_, Holder.make_ok kind a throws hfree hfree', ?_⟩
  cases throws with
  | true => exact ⟨⟨_, h.skip 2⟩, fun _ => rfl, nofun⟩
  | false => exact ⟨⟨_, h.make hm kind a⟩, nofun, fun _ => Option.some_ne_none _⟩

/-- The copy of an initializer. -/
theorem Owned.cloneSelf_ok (h : Owned s owner) (hm : s.NoInitializer m) {rhs : Nat} {R : Monoid}
    (hrhs : s.monoids rhs = some R) (a : Nat) (throws : Bool) :
    ∃ out, cloneSelf R.initializer a throws s.heap = .ok out ∧
      (∃ owner', Owned (s.withInitializer m a out) owner') ∧
      (R.initializer ≠ none → throws = true →
        out = (⟨s.heap.blocks, s.heap.next + 2⟩, none)) ∧
      (R.initializer = none ∨ throws = false → out.2 ≠ none) := by
  unfold cloneSelf
  cases hR : R.initializer with
  | none =>
    refine ⟨_, rfl, ⟨owner, ?_⟩, fun hne => absurd rfl hne, fun _ => Option.some_ne_none _⟩
    exact h.setDefault hm fun M hM => (Option.some.inj hM) ▸ rfl
  | some p =>
    obtain ⟨-, kind, q, -, hp, hq⟩ := h.monoid rhs R p hrhs hR
    obtain ⟨out, hout, howned, hthrown, hdone⟩ := h.make_ok hm kind a throws
    dsimp only
    rw [BlockHeap.read_ok hp, Checked.ok_bind]
    dsimp only
    rw [BlockHeap.read_ok hq, Checked.ok_bind, hout, Checked.ok_bind]
    refine ⟨_, rfl, howned, fun _ ht => ?_, fun hor => ?_⟩
    · rw [hthrown ht]
      rfl
    · have hf : throws = false := hor.resolve_left (Option.some_ne_none p)
      exact fun hnone => hdone hf (Option.map_eq_none_iff.mp hnone)

/-- The initializer of a monoid is deleted, and the monoid is left with the default
one, or gone. -/
theorem Owned.deleteSelf_ok (h : Owned s owner) {M : Monoid} (hm : s.monoids m = some M) :
    ∃ heap, deleteSelf M.initializer M.allocator s.heap = .ok heap ∧
      (∀ x : Option Monoid, (∀ M', x = some M' → M'.initializer = none) →
        ∃ owner', Owned ⟨heap, Function.update s.monoids m x, s.views⟩ owner') ∧
      ∀ p, M.initializer = some p → heap.blocks p = none := by
  cases hM : M.initializer with
  | none =>
    refine ⟨s.heap, rfl, fun x hx => ⟨owner, h.setDefault (fun M' hM' => ?_) hx⟩, nofun⟩
    rw [← Option.some.inj (hm.symm.trans hM')]
    exact hM
  | some p =>
    obtain ⟨hpo, kind, q, hqo, hp, hq⟩ := h.monoid m M p hm hM
    have hne : p ≠ q := by
      rintro rfl
      exact nomatch hpo.symm.trans hqo
    refine ⟨_, Holder.deleteSelf_ok hp hq hne, fun x hx => ?_, fun p' hp' => ?_⟩
    · exact ⟨_, h.delete hm hM hp hpo hqo hx⟩
    · cases hp'
      exact BlockHeap.set_self _

theorem Owned.constructView_ok (h : Owned s owner) {M : Monoid} (hm : s.monoids m = some M)
    {b : Nat} (hb : s.IsView b none) (throws : Bool) :
    ∃ heap, constructView M.initializer b throws s.heap = .ok heap ∧
      ∃ owner', Owned { s with heap := heap } owner' := by
  obtain ⟨a, hblock, hset⟩ := h.setObject hb (Or.inr (rfl : some Object.value = _))
  have hconstruct : ∃ heap, (if throws then pure s.heap else s.heap.construct b .value) =
      Except.ok heap ∧ ∃ owner', Owned { s with heap := heap } owner' := by
    cases throws with
    | true => exact ⟨s.heap, rfl, owner, h⟩
    | false => exact ⟨_, BlockHeap.construct_ok hblock, hset⟩
  unfold constructView
  cases hM : M.initializer with
  | none => exact hconstruct
  | some p =>
    obtain ⟨-, kind, q, -, hp, hq⟩ := h.monoid m M p hm hM
    dsimp only
    rw [BlockHeap.read_ok hp, Checked.ok_bind]
    dsimp only
    rw [BlockHeap.read_ok hq, Checked.ok_bind]
    exact hconstruct

-- ---------------------------------------------------------------------------
-- Assignments
-- ---------------------------------------------------------------------------

/-- An assignment to another monoid deletes the old initializer and clones the new
one. Only an exception ends it. -/
theorem copyAssign_cases (h : Owned s owner) {rhs : Nat} {M R : Monoid}
    (hm : s.monoids m = some M) (hrhs : s.monoids rhs = some R) (hne : m ≠ rhs) (throws : Bool) :
    (R.initializer = none ∨ throws = false →
        copyAssign s m M rhs R throws = .error "no return statement") ∧
      (R.initializer ≠ none → throws = true → ∃ heap,
        copyAssign s m M rhs R throws = .ok { s with heap := heap } ∧
        (M.initializer = none → ∃ owner', Owned { s with heap := heap } owner') ∧
        ∀ p, M.initializer = some p → heap.blocks p = none) := by
  obtain ⟨heap, hdelete, howned, hgone⟩ := h.deleteSelf_ok hm
  obtain ⟨owner', h'⟩ := howned (some ⟨M.allocator, none⟩) fun M' hM' =>
    (Option.some.inj hM') ▸ rfl
  have hm' : State.NoInitializer
      ⟨heap, Function.update s.monoids m (some ⟨M.allocator, none⟩), s.views⟩ m := by
    intro M' hM'
    dsimp only at hM'
    rw [Function.update_self] at hM'
    exact (Option.some.inj hM') ▸ rfl
  obtain ⟨⟨heap', x⟩, hout, hnew, hthrown, hdone⟩ :=
    h'.cloneSelf_ok hm' ((Function.update_of_ne hne.symm ..).trans hrhs) M.allocator throws
  have hrun : copyAssign s m M rhs R throws =
      if x.isNone then .ok { s with heap := heap' } else .error "no return statement" := by
    unfold copyAssign
    rw [if_neg hne, hdelete, Checked.ok_bind, hout, Checked.ok_bind]
    cases x <;> rfl
  refine ⟨fun hor => ?_, fun hR hthrows => ?_⟩
  · rw [hrun, if_neg (fun hnone => hdone hor (Option.isNone_iff_eq_none.mp hnone))]
  · obtain ⟨rfl, rfl⟩ := Prod.mk.inj (hthrown hR hthrows)
    refine ⟨_, hrun, fun hM => ?_, hgone⟩
    have hsame : Function.update s.monoids m (some ⟨M.allocator, none⟩) = s.monoids := by
      rw [← hM, ← hm, Function.update_eq_self]
    obtain ⟨owner'', h''⟩ := hnew
    simp only [State.withInitializer, hsame] at h''
    exact ⟨owner'', h''⟩

theorem Owned.copyAssign (h : Owned s owner) {rhs : Nat} {M R : Monoid}
    (hm : s.monoids m = some M) (hrhs : s.monoids rhs = some R) {throws : Bool}
    (hkeeps : s.AssignKeeps m rhs throws) :
    ∃ s', Holder.copyAssign s m M rhs R throws = .ok s' ∧ ∃ owner', Owned s' owner' := by
  by_cases hne : m = rhs
  · exact ⟨s, if_pos hne, owner, h⟩
  · obtain ⟨hthrows, hold, hnew⟩ := hkeeps.resolve_left hne
    have hR : R.initializer ≠ none := fun hnone =>
      hnew fun R' hR' => (Option.some.inj (hrhs.symm.trans hR')) ▸ hnone
    obtain ⟨heap, hrun, howned, -⟩ := (copyAssign_cases h hm hrhs hne throws).2 hR hthrows
    exact ⟨_, hrun, howned (hold M hm)⟩

/-- An assignment that completes is undefined, and after one that has thrown the
monoid has an initializer that was deleted. -/
theorem copyAssign_breaks (h : Owned s owner) {rhs : Nat} {M R : Monoid}
    (hm : s.monoids m = some M) (hrhs : s.monoids rhs = some R) {throws : Bool}
    (hkeeps : ¬ s.AssignKeeps m rhs throws) :
    ¬ Sound (copyAssign s m M rhs R throws).toOption := by
  obtain ⟨hne, hbad⟩ := not_or.mp hkeeps
  obtain ⟨hend, hthrown⟩ := copyAssign_cases h hm hrhs hne throws
  by_cases hor : R.initializer = none ∨ throws = false
  · rw [hend hor]
    exact id
  · obtain ⟨hR, hthrows⟩ := not_or.mp hor
    have hthrows : throws = true := Bool.ne_false_iff.mp hthrows
    obtain ⟨heap, hrun, -, hgone⟩ := hthrown hR hthrows
    -- the old initializer was one of the monoid's own
    obtain ⟨p, hp⟩ : ∃ p, M.initializer = some p := by
      refine Option.ne_none_iff_exists'.mp fun hnone => hbad ⟨hthrows, fun M' hM' => ?_, fun hno =>
        hR (hno R hrhs)⟩
      rw [← Option.some.inj (hm.symm.trans hM')]
      exact hnone
    rw [hrun]
    intro hsound
    have hdisciplined : State.Disciplined { s with heap := heap } := hsound
    obtain ⟨kind, q, hblock, -⟩ := hdisciplined.undeleted m M p hm hp
    rw [show heap.blocks p = none from hgone p hp] at hblock
    cases hblock

-- ---------------------------------------------------------------------------
-- Steps and runs
-- ---------------------------------------------------------------------------

/-- A monoid that has just come into being had no initializer. -/
theorem State.noInitializer_of_none (hm : s.monoids m = none) : s.NoInitializer m :=
  fun _ hM => nomatch hm.symm.trans hM

/-- Steps that keep the discipline. -/
theorem Owned.run (h : Owned s owner) {size : Nat} {e : Event} (hallowed : Allowed s e)
    (hkeeps : Keeps size s e) :
    ∃ s', Holder.run size s e = .ok s' ∧ ∃ owner', Owned s' owner' := by
  cases e with
  | construct m a kind throws =>
    have hm := State.noInitializer_of_none hallowed
    cases kind with
    | none => exact ⟨_, rfl, owner, h.setDefault hm fun M hM => (Option.some.inj hM) ▸ rfl⟩
    | some kind =>
      obtain ⟨out, hout, hnew, -⟩ := h.make_ok hm kind a throws
      refine ⟨_, ?_, hnew⟩
      unfold Holder.run
      dsimp only
      rw [hout]
      rfl
  | copy m rhs throws =>
    obtain ⟨hm, R, hrhs⟩ := hallowed
    obtain ⟨out, hout, hnew, -⟩ :=
      h.cloneSelf_ok (State.noInitializer_of_none hm) hrhs R.allocator throws
    refine ⟨_, ?_, hnew⟩
    unfold Holder.run
    dsimp only
    rw [hrhs]
    dsimp only
    rw [hout]
    rfl
  | copyWith m rhs a throws =>
    obtain ⟨hm, R, hrhs⟩ := hallowed
    obtain ⟨out, hout, hnew, -⟩ :=
      h.cloneSelf_ok (State.noInitializer_of_none hm) hrhs a throws
    refine ⟨_, ?_, hnew⟩
    unfold Holder.run
    dsimp only
    rw [hrhs]
    dsimp only
    rw [hout]
    rfl
  | move m rhs =>
    obtain ⟨hm, R, hrhs⟩ := hallowed
    have hne : rhs ≠ m := by
      rintro rfl
      exact nomatch hm.symm.trans hrhs
    -- a new monoid with the default initializer, and then the two are swapped
    have h' := h.setDefault (State.noInitializer_of_none hm)
      (x := some ⟨R.allocator, none⟩) fun M hM => (Option.some.inj hM) ▸ rfl
    have hswap := h'.swap (Function.update_self ..)
      ((Function.update_of_ne hne ..).trans hrhs) rfl
    refine ⟨_, ?_, hswap⟩
    unfold Holder.run
    dsimp only
    rw [hrhs]
    unfold State.swapInitializers
    dsimp only
    rw [Function.update_idem]
    rfl
  | delete m =>
    obtain ⟨M, hm⟩ := hallowed
    obtain ⟨heap, hdelete, howned, -⟩ := h.deleteSelf_ok hm
    refine ⟨_, ?_, howned none nofun⟩
    unfold Holder.run
    dsimp only
    rw [hm]
    dsimp only
    rw [hdelete]
    rfl
  | assign m rhs throws =>
    obtain ⟨M, R, hm, hrhs⟩ := hallowed
    unfold Holder.run
    dsimp only
    rw [hm, hrhs]
    exact h.copyAssign hm hrhs hkeeps
  | moveAssign m rhs throws =>
    obtain ⟨M, R, hm, hrhs⟩ := hallowed
    unfold Holder.run
    dsimp only
    rw [hm, hrhs]
    dsimp only
    -- with one allocator the initializers are swapped, else it is a copy assignment
    by_cases ha : M.allocator = R.allocator
    · rw [if_neg (not_not_intro ha)]
      exact ⟨_, rfl, h.swap hm hrhs ha⟩
    · rw [if_pos ha]
      exact h.copyAssign hm hrhs (hkeeps.resolve_left fun heq => ha (heq M R hm hrhs))
  | swap m rhs =>
    obtain ⟨M, R, hm, hrhs, ha⟩ := hallowed
    unfold Holder.run
    dsimp only
    rw [hm, hrhs]
    exact ⟨_, rfl, h.swap hm hrhs ha⟩
  | allocate m =>
    obtain ⟨M, hm⟩ := hallowed
    have hnew : ∀ x : Block Object, some (⟨M.allocator, 1, none⟩ : Block Object) = some x →
        x.count = 1 ∧ (x.object = none ∨ x.object = some .value) := by
      rintro x ⟨⟩
      exact ⟨rfl, .inl rfl⟩
    unfold Holder.run
    dsimp only
    rw [hm]
    exact ⟨_, rfl, _, h.setView (.inl (h.fresh _ (Nat.le_refl _))) hnew (Nat.le_succ _)
      fun _ => Nat.lt_succ_self _⟩
  | identity m b throws =>
    obtain ⟨⟨M, hm⟩, hview⟩ := hallowed
    obtain ⟨heap, hheap, howned⟩ := h.constructView_ok hm hview throws
    refine ⟨_, ?_, howned⟩
    unfold Holder.run
    dsimp only
    rw [hm]
    dsimp only
    rw [hheap]
    rfl
  | destroy m b =>
    obtain ⟨-, hview⟩ := hallowed
    obtain ⟨a, hblock, howned⟩ := h.setObject hview (Or.inl (rfl : none = none))
    refine ⟨_, ?_, howned⟩
    unfold Holder.run
    dsimp only
    rw [BlockHeap.destroy_ok hblock]
    rfl
  | deallocate m b =>
    obtain ⟨M, hm, hb, a, ha, hblock⟩ := hallowed
    -- the block is given back with the count it was obtained with
    obtain rfl : size = 1 := hkeeps
    cases hb.symm.trans ha
    have hnone : ∀ x, (none : Option (Block Object)) = some x →
        x.count = 1 ∧ (x.object = none ∨ x.object = some .value) := nofun
    have hset := h.setView (.inr (h.view b M.allocator hb).1) hnone (Nat.le_refl _)
      (absurd rfl)
    refine ⟨_, ?_, _, hset⟩
    unfold Holder.run
    dsimp only
    rw [hm]
    dsimp only
    rw [BlockHeap.deallocate_ok hblock]
    rfl

/-- And only these do. -/
theorem keeps_of_sound (h : Owned s owner) {size : Nat} {e : Event} (hallowed : Allowed s e)
    (hsound : Sound (run size s e).toOption) : Keeps size s e := by
  cases e with
  | assign m rhs throws =>
    obtain ⟨M, R, hm, hrhs⟩ := hallowed
    by_contra hkeeps
    refine copyAssign_breaks h hm hrhs hkeeps ?_
    unfold run at hsound
    dsimp only at hsound
    rwa [hm, hrhs] at hsound
  | moveAssign m rhs throws =>
    obtain ⟨M, R, hm, hrhs⟩ := hallowed
    refine or_iff_not_imp_left.mpr fun hne => by_contra fun hkeeps => ?_
    have ha : M.allocator ≠ R.allocator := by
      refine fun heq => hne fun M' R' hm' hrhs' => ?_
      cases hm.symm.trans hm'
      cases hrhs.symm.trans hrhs'
      exact heq
    refine copyAssign_breaks h hm hrhs hkeeps ?_
    unfold run at hsound
    dsimp only at hsound
    rw [hm, hrhs] at hsound
    dsimp only at hsound
    rwa [if_pos ha] at hsound
  | deallocate m b =>
    obtain ⟨M, hm, hb, a, ha, hblock⟩ := hallowed
    cases hb.symm.trans ha
    by_contra hsize
    -- a block that is given back with another count is an error
    have herror : s.heap.deallocate b M.allocator size = _ :=
      BlockHeap.deallocate_error hblock (Ne.symm hsize)
    unfold run at hsound
    dsimp only at hsound
    rw [hm] at hsound
    dsimp only at hsound
    rw [herror] at hsound
    exact hsound
  | construct | copy | copyWith | move | delete | swap | allocate | identity | destroy => trivial

end Owners

/-- A run keeps the discipline exactly as long as views are given back with the count 1
and every assignment to another monoid throws without having deleted an initializer. -/
theorem holder_sound_iff (size : Nat) {s : Option State} {tr : List (Event × Option State)}
    (hs : (system size).init s) (h : (system size).IsPath s tr) :
    (∀ p ∈ tr, Sound p.2) ↔
      LTS.AllSteps (fun s e => ∀ st, s = some st → Keeps size st e) s tr := by
  refine LTS.forall_states_iff_steps (P := fun s => ∃ st owner, s = some st ∧ Owned st owner)
    ?_ ?_ ?_ ?_ h
  · rintro _ ⟨st, owner, rfl, howned⟩
    exact howned.disciplined
  · rintro _ e t ⟨st, owner, rfl, howned⟩ ⟨_, ⟨⟩, hallowed, rfl⟩ hkeeps
    obtain ⟨s', hrun, owner', howned'⟩ := howned.run hallowed (hkeeps st rfl)
    exact ⟨s', owner', by rw [hrun]; rfl, howned'⟩
  · rintro _ e t ⟨st, owner, rfl, howned⟩ ⟨_, ⟨⟩, hallowed, rfl⟩ hsound
    rintro _ ⟨⟩
    exact keeps_of_sound howned hallowed hsound
  · obtain rfl := hs
    refine ⟨_, fun _ => none, rfl, ?_⟩
    constructor
    case free => exact fun b => Iff.rfl.trans (iff_of_true rfl rfl)
    case fresh => exact fun b _ => rfl
    case monoid => exact nofun
    case initializer => exact nofun
    case stored => exact nofun
    case view => exact nofun
    case viewOf => exact nofun

/-- What the program does, with the states that this leads to. -/
def trace (size : Nat) : Option State → List Event → List (Event × Option State)
  | _, [] => []
  | s, e :: es =>
    let t := s.bind fun st => (run size st e).toOption
    (e, t) :: trace size t es

/-- The state before anything has happened. -/
def initial : Option State := some ⟨.empty, fun _ => none, fun _ => none⟩

/-- A monoid with an exemplar is copied, which throws, and assigned to one without,
which throws, too. Then it is moved there, and both are destroyed. -/
theorem holder_sound_copy :
    let tr := trace 4 initial [.construct 0 0 (some .exemplar) false, .construct 1 0 none false,
      .copy 2 0 true, .assign 1 0 true, .assign 0 0 false, .moveAssign 1 0 false, .delete 0,
      .delete 1]
    (tr.map fun p => p.2.isSome) = List.replicate 8 true ∧ ∀ p ∈ tr, Sound p.2 := by
  intro tr
  refine ⟨rfl, (holder_sound_iff 4 (rfl : (system 4).init initial) ?_).mpr ?_⟩
  · exact ⟨⟨_, rfl, rfl, rfl⟩, ⟨_, rfl, rfl, rfl⟩, ⟨_, rfl, ⟨rfl, _, rfl⟩, rfl⟩,
      ⟨_, rfl, ⟨_, _, rfl, rfl⟩, rfl⟩, ⟨_, rfl, ⟨_, _, rfl, rfl⟩, rfl⟩,
      ⟨_, rfl, ⟨_, _, rfl, rfl⟩, rfl⟩, ⟨_, rfl, ⟨_, rfl⟩, rfl⟩, ⟨_, rfl, ⟨_, rfl⟩, rfl⟩, trivial⟩
  · refine ⟨fun _ _ => trivial, fun _ _ => trivial, fun _ _ => trivial, ?_, fun _ _ => .inl rfl, ?_,
      fun _ _ => trivial, fun _ _ => trivial, trivial⟩
    · intro st hst
      obtain rfl := Option.some.inj hst
      refine .inr ⟨rfl, fun M hM => ?_, fun hno => ?_⟩
      · rw [← Option.some.inj hM]
      · exact Option.some_ne_none _ (hno _ rfl)
    · intro st hst
      obtain rfl := Option.some.inj hst
      refine .inl fun M R hM hR => ?_
      rw [← Option.some.inj hM, ← Option.some.inj hR]

/-- The memory of a view of four bytes is given back with a count of 4. With views of
one byte, an assignment that completes does not return, and a monoid to which an
exemplar could not be assigned cannot be destroyed. -/
theorem holder_unsound :
    (¬ ∀ s tr, (system 4).init s → (system 4).IsPath s tr → ∀ p ∈ tr, Sound p.2) ∧
      ¬ (∀ s tr, (system 1).init s → (system 1).IsPath s tr →
        tr.map (·.1) = [.construct 0 0 none false, .construct 1 0 none false, .assign 0 1 false] →
        ∀ p ∈ tr, Sound p.2) ∧
      ¬ (∀ s tr, (system 1).init s → (system 1).IsPath s tr →
        tr.map (·.1) = [.construct 0 0 (some .exemplar) false,
          .construct 1 0 (some .exemplar) false, .assign 0 1 true, .delete 0] →
        ∀ p ∈ tr, Sound p.2) := by
  refine ⟨fun h => ?_, fun h => ?_, fun h => ?_⟩
  · refine h initial (trace 4 initial [.construct 0 0 none false, .allocate 0, .deallocate 0 0])
      rfl ?_ (.deallocate 0 0, none) ?_
    · exact ⟨⟨_, rfl, rfl, rfl⟩, ⟨_, rfl, ⟨_, rfl⟩, rfl⟩,
        ⟨_, rfl, ⟨_, rfl, rfl, _, rfl, rfl⟩, rfl⟩, trivial⟩
    · exact .tail _ (.tail _ (.head _))
  · refine h initial (trace 1 initial [.construct 0 0 none false, .construct 1 0 none false,
      .assign 0 1 false]) rfl ?_ rfl (.assign 0 1 false, none) ?_
    · exact ⟨⟨_, rfl, rfl, rfl⟩, ⟨_, rfl, rfl, rfl⟩, ⟨_, rfl, ⟨_, _, rfl, rfl⟩, rfl⟩, trivial⟩
    · exact .tail _ (.tail _ (.head _))
  · refine h initial (trace 1 initial [.construct 0 0 (some .exemplar) false,
      .construct 1 0 (some .exemplar) false, .assign 0 1 true, .delete 0])
      rfl ?_ rfl (.delete 0, none) ?_
    · exact ⟨⟨_, rfl, rfl, rfl⟩, ⟨_, rfl, rfl, rfl⟩, ⟨_, rfl, ⟨_, _, rfl, rfl⟩, rfl⟩,
        ⟨_, rfl, ⟨_, rfl⟩, rfl⟩, trivial⟩
    · exact .tail _ (.tail _ (.tail _ (.head _)))

end SwanRuntime.Reducers.Holder
