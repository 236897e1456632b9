import Mathlib.Data.List.Nodup
import Mathlib.Logic.Function.Basic

/-!
# Singly linked lists in memory

A list is a chain of `next` slots. A slot has an address in `κ`; the slot of a
node `a : α` has the address `node a`, and a list head is a slot of its own. The
last slot of a chain is where the next node is linked in, which is what a tail
pointer caches.

`Path next c l` says that the links from slot `c` run through the nodes `l`;
`Chain next c l` says in addition that the last slot is empty.

## Results

* `path_append`       — a path splits at any node.
* `Path.update`       — a store elsewhere keeps a path.
* `Chain.update`      — a store outside a chain keeps it.
* `Chain.link`        — storing a chain into the last slot appends it.
* `Chain.unlink`      — bypassing a node removes exactly that node.
* `Chain.unique`      — a slot heads at most one chain.
-/

namespace SwanRuntime.LinkedList

variable {κ α : Type*} (node : α → κ)

/-- The last slot of a chain that starts at `c` and runs through `l`. -/
def lastCell : κ → List α → κ
  | c, [] => c
  | _, a :: l => lastCell (node a) l

/-- The slots whose contents a path from `c` through `l` reads. -/
def sources : κ → List α → List κ
  | _, [] => []
  | c, a :: l => c :: sources (node a) l

/-- The links starting at slot `c` run through `l`. -/
def Path (next : κ → Option α) : κ → List α → Prop
  | _, [] => True
  | c, a :: l => next c = some a ∧ Path next (node a) l

/-- The links starting at slot `c` run through `l` and end there. -/
def Chain (next : κ → Option α) (c : κ) (l : List α) : Prop :=
  Path node next c l ∧ next (lastCell node c l) = none

variable {node} {next : κ → Option α}

@[simp] theorem lastCell_nil (c : κ) : lastCell node c [] = c := rfl

@[simp] theorem lastCell_cons (c : κ) (a : α) (l : List α) :
    lastCell node c (a :: l) = lastCell node (node a) l := rfl

theorem lastCell_append (c : κ) (l l' : List α) :
    lastCell node c (l ++ l') = lastCell node (lastCell node c l) l' := by
  induction l generalizing c with
  | nil => rfl
  | cons a l ih => exact ih (node a)

@[simp] theorem lastCell_concat (c : κ) (l : List α) (a : α) :
    lastCell node c (l ++ [a]) = node a := by
  rw [lastCell_append]
  rfl

/-- The last slot is the head slot or the slot of a node of the list. -/
theorem lastCell_mem (node : α → κ) (c : κ) (l : List α) :
    lastCell node c l ∈ c :: l.map node := by
  induction l generalizing c with
  | nil => simp
  | cons a l ih => exact List.mem_cons_of_mem _ (ih (node a))

theorem mem_sources {c d : κ} {l : List α} (h : d ∈ sources node c l) :
    d ∈ c :: l.map node := by
  induction l generalizing c with
  | nil => cases h
  | cons a l ih =>
    rcases List.mem_cons.mp h with rfl | h
    · exact List.mem_cons_self
    · exact List.mem_cons_of_mem _ (ih h)

theorem path_append {c : κ} {l l' : List α} :
    Path node next c (l ++ l') ↔
      Path node next c l ∧ Path node next (lastCell node c l) l' := by
  induction l generalizing c with
  | nil => simp [Path]
  | cons a l ih =>
    simp only [List.cons_append, Path, ih, lastCell_cons, and_assoc]

theorem chain_append {c : κ} {l l' : List α} :
    Chain node next c (l ++ l') ↔
      Path node next c l ∧ Chain node next (lastCell node c l) l' := by
  simp only [Chain, path_append, lastCell_append, and_assoc]

theorem chain_cons {c : κ} {a : α} {l : List α} :
    Chain node next c (a :: l) ↔ next c = some a ∧ Chain node next (node a) l := by
  simp only [Chain, Path, lastCell_cons, and_assoc]

theorem chain_nil {c : κ} : Chain node next c [] ↔ next c = none := by
  simp [Chain, Path]

/-- A slot heads at most one chain. -/
theorem Chain.unique {c : κ} {l l' : List α} (h : Chain node next c l)
    (h' : Chain node next c l') : l = l' := by
  induction l generalizing c l' with
  | nil =>
    rw [chain_nil] at h
    cases l' with
    | nil => rfl
    | cons b l' =>
      rw [chain_cons, h] at h'
      cases h'.1
  | cons a l ih =>
    rw [chain_cons] at h
    cases l' with
    | nil =>
      rw [chain_nil, h.1] at h'
      cases h'
    | cons b l' =>
      rw [chain_cons, h.1, Option.some.injEq] at h'
      obtain ⟨rfl, h'⟩ := h'
      rw [ih h.2 h']

/-- In a list without repetitions the last slot is not read by the path. -/
theorem lastCell_notMem_sources {c : κ} {l : List α} (h : (c :: l.map node).Nodup) :
    lastCell node c l ∉ sources node c l := by
  induction l generalizing c with
  | nil => simp [sources]
  | cons a l ih =>
    rw [List.map_cons, List.nodup_cons] at h
    simp only [sources, lastCell_cons, List.mem_cons, not_or]
    refine ⟨fun he => h.1 ?_, ih h.2⟩
    rw [← he]
    exact lastCell_mem node (node a) l

section Stores

variable [DecidableEq κ]

/-- A store into a slot the path does not read keeps the path. -/
theorem Path.update {c d : κ} {l : List α} (h : Path node next c l)
    (hd : d ∉ sources node c l) (v : Option α) :
    Path node (Function.update next d v) c l := by
  induction l generalizing c with
  | nil => trivial
  | cons a l ih =>
    simp only [sources, List.mem_cons, not_or] at hd
    refine ⟨?_, ih h.2 hd.2⟩
    rw [Function.update_of_ne (Ne.symm hd.1)]
    exact h.1

/-- A store outside a chain keeps the chain. -/
theorem Chain.update {c d : κ} {l : List α} (h : Chain node next c l)
    (hd : d ∉ c :: l.map node) (v : Option α) :
    Chain node (Function.update next d v) c l := by
  refine ⟨h.1.update (fun hs => hd (mem_sources hs)) v, ?_⟩
  rw [Function.update_of_ne (fun he => hd (by rw [← he]; exact lastCell_mem node c l))]
  exact h.2

/-- Storing the first node of a chain into the last slot of another one appends
it there. -/
theorem Chain.link {c : κ} {l l' : List α} {a : α} (h : Chain node next c l)
    (h' : Chain node next (node a) l')
    (hnd : (c :: (l ++ a :: l').map node).Nodup) :
    Chain node (Function.update next (lastCell node c l) (some a)) c (l ++ a :: l') := by
  have hsplit : (c :: l.map node ++ (a :: l').map node).Nodup := by
    simpa using hnd
  obtain ⟨hl, hl', hdisj⟩ := List.nodup_append.mp hsplit
  rw [chain_append, chain_cons]
  refine ⟨h.1.update (lastCell_notMem_sources hl) _, Function.update_self .., ?_⟩
  apply h'.update
  intro hmem
  exact hdisj _ (lastCell_mem node c l) _ (by simpa using hmem) rfl

/-- Bypassing the node after `pre` removes exactly that node. -/
theorem Chain.unlink {c : κ} {p post : List α} {a : α}
    (h : Chain node next c (p ++ a :: post))
    (hnd : (c :: (p ++ a :: post).map node).Nodup) :
    Chain node (Function.update next (lastCell node c p) (next (node a))) c
      (p ++ post) := by
  have hsplit : (c :: p.map node ++ node a :: post.map node).Nodup := by
    simpa using hnd
  obtain ⟨hpre, hpost, hdisj⟩ := List.nodup_append.mp hsplit
  rw [chain_append, chain_cons] at h
  obtain ⟨hp, -, hq⟩ := h
  rw [chain_append]
  refine ⟨hp.update (lastCell_notMem_sources hpre) _, ?_⟩
  -- no node after `a` points at the cell that is written
  have hfar : ∀ b ∈ post, lastCell node c p ≠ node b := fun b hb =>
    hdisj _ (lastCell_mem node c p) _ (List.mem_cons_of_mem _ (List.mem_map_of_mem hb))
  cases post with
  | nil =>
    rw [chain_nil] at hq ⊢
    rw [Function.update_self, hq]
  | cons b post =>
    rw [chain_cons] at hq ⊢
    rw [Function.update_self]
    refine ⟨hq.1, hq.2.update ?_ _⟩
    intro hmem
    obtain ⟨x, hx, he⟩ := List.mem_map.mp (by simpa using hmem : _ ∈ (b :: post).map node)
    exact hfar x hx he.symm

end Stores

end SwanRuntime.LinkedList
