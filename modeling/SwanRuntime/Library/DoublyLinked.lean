import Mathlib.Data.List.Nodup
import Mathlib.Logic.Function.Basic

/-!
# Lists that are linked in place

The links of a list are kept in the nodes, as one map from nodes to nodes for
each direction. `Linked` is about lists that are linked from left to right only
and end at the last node; `DoublyLinked` is about lists that are linked in both
directions.

## Results

* `Linked.congr`, `DoublyLinked.congr` — links of other nodes do not matter.
* `Linked.cons`                        — a node is put in front.
* `DoublyLinked.push`                  — a node is put at the right end.
-/

namespace SwanRuntime.LinkedList

variable {α : Type*}

-- ---------------------------------------------------------------------------
-- One direction
-- ---------------------------------------------------------------------------

/-- Every node of the list is linked to the next one, and the last to none. -/
def Linked (next : α → Option α) : List α → Prop
  | [] => True
  | a :: l => next a = l.head? ∧ Linked next l

theorem Linked.congr {next next' : α → Option α} {l : List α} (h : Linked next l)
    (heq : ∀ a ∈ l, next' a = next a) : Linked next' l := by
  induction l with
  | nil => trivial
  | cons a l ih =>
    obtain ⟨ha, hl⟩ := List.forall_mem_cons.mp heq
    exact ⟨ha.trans h.1, ih h.2 hl⟩

/-- A node is put in front of the list. -/
theorem Linked.cons [DecidableEq α] {next : α → Option α} {l : List α} (h : Linked next l)
    {a : α} (ha : a ∉ l) : Linked (Function.update next a l.head?) (a :: l) := by
  refine ⟨Function.update_self .., h.congr fun b hb => Function.update_of_ne ?_ _ _⟩
  rintro rfl
  exact ha hb

-- ---------------------------------------------------------------------------
-- Both directions
-- ---------------------------------------------------------------------------

/-- Every node of the list is linked to both neighbours; the node to the left of
the first one is `prev`, and there is none to the right of the last. -/
def DoublyLinked (left right : α → Option α) : Option α → List α → Prop
  | _, [] => True
  | prev, a :: l => left a = prev ∧ right a = l.head? ∧ DoublyLinked left right (some a) l

variable {left right left' right' : α → Option α}

theorem DoublyLinked.congr {prev : Option α} {l : List α} (h : DoublyLinked left right prev l)
    (hleft : ∀ a ∈ l, left' a = left a) (hright : ∀ a ∈ l, right' a = right a) :
    DoublyLinked left' right' prev l := by
  induction l generalizing prev with
  | nil => trivial
  | cons a l ih =>
    obtain ⟨hla, hll⟩ := List.forall_mem_cons.mp hleft
    obtain ⟨hra, hrl⟩ := List.forall_mem_cons.mp hright
    exact ⟨hla.trans h.1, hra.trans h.2.1, ih h.2.2 hll hrl⟩

/-- A node is put at the right end: it is linked to the last node, and the last
node to it. -/
theorem DoublyLinked.push {prev : Option α} {l : List α} (h : DoublyLinked left right prev l)
    (hnd : l.Nodup) {c : α} (hleft : ∀ a ∈ l, left' a = left a)
    (hright : ∀ a ∈ l, l.getLast? ≠ some a → right' a = right a)
    (hlast : ∀ a, l.getLast? = some a → right' a = some c)
    (hcleft : left' c = l.getLast?.or prev) (hcright : right' c = none) :
    DoublyLinked left' right' prev (l ++ [c]) := by
  induction l generalizing prev with
  | nil => exact ⟨hcleft, hcright, trivial⟩
  | cons a l ih =>
    obtain ⟨hla, hll⟩ := List.forall_mem_cons.mp hleft
    obtain ⟨ha, hnd'⟩ := List.nodup_cons.mp hnd
    have hgetLast : (a :: l).getLast? = l.getLast?.or (some a) := by
      rw [List.getLast?_cons]
      cases l.getLast? <;> rfl
    refine ⟨hla.trans h.1, ?_, ih h.2.2 hnd' hll ?_ ?_ ?_⟩
    · -- the right end of the list is the node `a` itself, or lies in `l`
      cases l with
      | nil => exact hlast a rfl
      | cons b l =>
        rw [hright a List.mem_cons_self, h.2.1]
        · rfl
        · rw [hgetLast]
          intro hl
          have hmem := List.mem_of_getLast? (l := b :: l) (a := a)
          rw [List.getLast?_cons] at hl hmem
          exact ha (hmem hl)
    · intro b hb hne
      refine hright b (List.mem_cons_of_mem a hb) ?_
      rw [hgetLast]
      cases hl : l.getLast? with
      | none =>
        rw [List.getLast?_eq_none_iff] at hl
        subst hl
        cases hb
      | some d => rwa [hl] at hne
    · intro b hb
      refine hlast b ?_
      rw [hgetLast, hb]
      rfl
    · rw [hcleft, hgetLast]
      cases l.getLast? <;> rfl

end SwanRuntime.LinkedList
