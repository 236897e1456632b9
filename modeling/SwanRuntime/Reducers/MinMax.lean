import Mathlib.Order.BoundedOrder.Basic
import Mathlib.Order.Fin.Basic
import Mathlib.Data.List.Induction
import Mathlib.Tactic.Common

/-!
# Min and max reducer views

A view holds the first argument of `calc` that no other one beats. `view_base` is
written over a content class, of which there are four: with and without an index, and
for each a specialization that starts from the worst value of the type and does not
test `is_set` in `calc`. An integer type is any bounded linear order; the default
values are those of `Type()` and `Index()`.

The arguments of a view are summarised by `best`. Every content class represents it,
the specialization with an index only up to the index of the worst value.

## Results

* `best_isFirstUnbeaten`      — `best` is the first argument that no other one beats.
* `best_append`               — and is computed from the two halves of a sequence.
* `Represents.split`          — a representation kept by `calc` and `reduce` holds for
  every split of the arguments into views.
* `minMax_optimization`       — what the optimised classes compute, against the others.
-/

namespace SwanRuntime.Reducers

-- ---------------------------------------------------------------------------
-- The code
-- ---------------------------------------------------------------------------

/-- What `view_base` uses of its content class: `C` the content, `V` its value type,
`T` the type that is compared. -/
structure ContentClass (C V T : Type) where
  empty       : C
  value       : C → V
  setValue    : C → V → C
  setIsSet    : C → C
  compValue   : C → T
  compValueOf : V → T
  isSet       : C → Bool
  hasValue    : C → Bool

variable {C V T I : Type}

/-- `view_base::calc`. -/
def viewCalc (cls : ContentClass C V T) (compare : T → T → Bool) (this : C) (x : V) : C :=
  let this :=
    if !cls.hasValue this || compare (cls.compValue this) (cls.compValueOf x) then
      cls.setValue this x
    else this
  cls.setIsSet this

/-- `view_base::reduce`. -/
def viewReduce (cls : ContentClass C V T) (compare : T → T → Bool) (this other : C) : C :=
  if cls.isSet other &&
      (!cls.isSet this || compare (cls.compValue this) (cls.compValue other)) then
    cls.setIsSet (cls.setValue this (cls.value other))
  else this

/-- The comparator of a max view is `std::less`, that of a min view its reverse. -/
def compare [LinearOrder T] (forMax : Bool) (a b : T) : Bool :=
  if forMax then decide (a < b) else decide (b < a)

/-- `identity_value`: the smallest value of the type for a max view, else the largest. -/
def identityValue [LinearOrder T] [BoundedOrder T] (forMax : Bool) : T :=
  if forMax then ⊥ else ⊤

structure ViewContent (T : Type) where
  m_value  : T
  m_is_set : Bool

structure IndexViewContent (I T : Type) where
  m_index  : I
  m_value  : T
  m_is_set : Bool

/-- `view_content`; the last template argument is `optimised`. -/
def viewContent [LinearOrder T] [BoundedOrder T] [Inhabited T] (forMax optimised : Bool) :
    ContentClass (ViewContent T) T T where
  empty :=
    { m_value := if optimised then identityValue forMax else default, m_is_set := false }
  value c := c.m_value
  setValue c value := { c with m_value := value }
  setIsSet c := { c with m_is_set := true }
  compValue c := c.m_value
  compValueOf value := value
  isSet c := c.m_is_set
  hasValue c := if optimised then true else c.m_is_set

/-- `index_view_content`. -/
def indexViewContent [LinearOrder T] [BoundedOrder T] [Inhabited T] [Inhabited I]
    (forMax optimised : Bool) : ContentClass (IndexViewContent I T) (I × T) T where
  empty :=
    { m_index := default
      m_value := if optimised then identityValue forMax else default
      m_is_set := false }
  value c := (c.m_index, c.m_value)
  setValue c value := { c with m_index := value.1, m_value := value.2 }
  setIsSet c := { c with m_is_set := true }
  compValue c := c.m_value
  compValueOf value := value.2
  isSet c := c.m_is_set
  hasValue c := if optimised then true else c.m_is_set

/-- The view of one strand. -/
def calcAll (cls : ContentClass C V T) (compare : T → T → Bool) (args : List V) : C :=
  args.foldl (viewCalc cls compare) cls.empty

/-- The views of consecutive strands, reduced left to right. -/
def calcSplit (cls : ContentClass C V T) (compare : T → T → Bool) : List (List V) → C
  | [] => cls.empty
  | args :: strands =>
    (strands.map (calcAll cls compare)).foldl (viewReduce cls compare) (calcAll cls compare args)

-- ---------------------------------------------------------------------------
-- The best argument
-- ---------------------------------------------------------------------------

/-- The first of two summaries, unless the second beats it. -/
def better (cmp : T → T → Bool) (key : V → T) : Option V → Option V → Option V
  | none, b => b
  | some a, none => some a
  | some a, some b => if cmp (key a) (key b) then some b else some a

/-- What a sequence of arguments comes to. -/
def best (cmp : T → T → Bool) (key : V → T) (args : List V) : Option V :=
  args.foldl (fun b x => better cmp key b (some x)) none

/-- No argument beats `r`, and every one before it is beaten. -/
def IsFirstUnbeaten (cmp : T → T → Bool) (key : V → T) (args : List V) (r : V) : Prop :=
  ∃ before after, args = before ++ r :: after ∧
    (∀ a ∈ args, cmp (key r) (key a) = false) ∧
    ∀ e ∈ before, ∃ a ∈ args, cmp (key e) (key a) = true

section Compare

variable [LinearOrder T] (forMax : Bool)

theorem compare_self (a : T) : compare forMax a a = false := by
  cases forMax <;> simp [compare]

theorem compare_trans {a b c : T} (hab : compare forMax a b = true)
    (hbc : compare forMax b c = true) : compare forMax a c = true := by
  cases forMax with
  | false =>
    simp only [compare, Bool.false_eq_true, if_false, decide_eq_true_eq] at *
    exact hbc.trans hab
  | true =>
    simp only [compare, if_true, decide_eq_true_eq] at *
    exact hab.trans hbc

theorem not_compare_trans {a b c : T} (hab : compare forMax a b = false)
    (hbc : compare forMax b c = false) : compare forMax a c = false := by
  cases forMax with
  | false =>
    simp only [compare, Bool.false_eq_true, if_false, decide_eq_false_iff_not, not_lt] at *
    exact hab.trans hbc
  | true =>
    simp only [compare, if_true, decide_eq_false_iff_not, not_lt] at *
    exact hbc.trans hab

/-- Nothing is worse than the identity value. -/
theorem compare_identityValue [BoundedOrder T] (a : T) :
    compare forMax a (identityValue forMax) = false := by
  cases forMax <;> simp [compare, identityValue]

theorem identityValue_compare [BoundedOrder T] (a : T) :
    compare forMax (identityValue forMax) a = true ↔ a ≠ identityValue forMax := by
  cases forMax <;> simp [compare, identityValue, lt_top_iff_ne_top, bot_lt_iff_ne_bot]

variable (key : V → T)

theorem better_assoc (a b c : Option V) :
    better (compare forMax) key (better (compare forMax) key a b) c =
      better (compare forMax) key a (better (compare forMax) key b c) := by
  rcases a with _ | a
  · rfl
  rcases b with _ | b
  · rfl
  rcases c with _ | c
  · cases hab : compare forMax (key a) (key b) <;> simp [better, hab]
  cases hab : compare forMax (key a) (key b) <;> cases hbc : compare forMax (key b) (key c)
  · simp [better, hab, hbc, not_compare_trans forMax hab hbc]
  · simp [better, hab, hbc]
  · simp [better, hab, hbc]
  · simp [better, hab, hbc, compare_trans forMax hab hbc]

theorem foldl_better (b : Option V) (args : List V) :
    args.foldl (fun b x => better (compare forMax) key b (some x)) b =
      better (compare forMax) key b (best (compare forMax) key args) := by
  induction args generalizing b with
  | nil => cases b <;> rfl
  | cons x args ih =>
    have hx : best (compare forMax) key (x :: args) =
        better (compare forMax) key (some x) (best (compare forMax) key args) := ih (some x)
    rw [List.foldl_cons, ih, hx, better_assoc]

theorem best_append (xs ys : List V) :
    best (compare forMax) key (xs ++ ys) =
      better (compare forMax) key (best (compare forMax) key xs)
        (best (compare forMax) key ys) := by
  rw [best, List.foldl_append, foldl_better]
  rfl

theorem best_isSome (args : List V) :
    (best (compare forMax) key args).isSome = !args.isEmpty := by
  induction args using List.reverseRecOn with
  | nil => rfl
  | append_singleton args x ih =>
    rw [best_append]
    rcases best (compare forMax) key args with _ | b
    · simp [best, better]
    · cases h : compare forMax (key b) (key x) <;> simp [best, better, h]

/-- `best` is the first argument that no other one beats. -/
theorem best_isFirstUnbeaten {args : List V} {r : V}
    (h : best (compare forMax) key args = some r) :
    IsFirstUnbeaten (compare forMax) key args r := by
  induction args using List.reverseRecOn generalizing r with
  | nil => simp [best] at h
  | append_singleton args x ih =>
    have hx : best (compare forMax) key [x] = some x := rfl
    rw [best_append, hx] at h
    rcases hb : best (compare forMax) key args with _ | b
    · have hargs : args = [] := by simpa [hb] using (best_isSome forMax key args).symm
      obtain rfl : x = r := by simpa [hb, better] using h
      subst hargs
      exact ⟨[], [], rfl, by simp [compare_self], by simp⟩
    · obtain ⟨before, after, hsplit, hbest, hbefore⟩ := ih hb
      cases hcmp : compare forMax (key b) (key x) with
      | true =>
        -- The new argument beats the best one so far, and with it all of them.
        obtain rfl : x = r := by simpa [hb, better, hcmp] using h
        have hbeats : ∀ a ∈ args, compare forMax (key a) (key x) = true := by
          intro a ha
          by_contra hax
          have hxa := not_compare_trans forMax (hbest a ha) (Bool.eq_false_iff.mpr hax)
          rw [hcmp] at hxa
          cases hxa
        refine ⟨args, [], rfl, ?_, fun e he => ⟨x, by simp, hbeats e he⟩⟩
        intro a ha
        rcases List.mem_append.mp ha with ha | ha
        · by_contra hxa
          have hbx := compare_trans forMax (hbeats a ha) (Bool.eq_true_of_not_eq_false hxa)
          rw [compare_self] at hbx
          cases hbx
        · rw [List.mem_singleton.mp ha, compare_self]
      | false =>
        obtain rfl : b = r := by simpa [hb, better, hcmp] using h
        refine ⟨before, after ++ [x], by simp [hsplit], ?_, ?_⟩
        · intro a ha
          rcases List.mem_append.mp ha with ha | ha
          · exact hbest a ha
          · rw [List.mem_singleton.mp ha, hcmp]
        · intro e he
          obtain ⟨a, ha, hea⟩ := hbefore e he
          exact ⟨a, List.mem_append_left _ ha, hea⟩

end Compare

-- ---------------------------------------------------------------------------
-- Representation
-- ---------------------------------------------------------------------------

/-- `R b c`: the content `c` stands for the summary `b`, and the functions of the view
keep this. -/
structure Represents (cls : ContentClass C V T) (cmp : T → T → Bool)
    (R : Option V → C → Prop) : Prop where
  empty : R none cls.empty
  step  : ∀ b c x, R b c → R (better cmp cls.compValueOf b (some x)) (viewCalc cls cmp c x)
  merge : ∀ a b c d, R a c → R b d →
    R (better cmp cls.compValueOf a b) (viewReduce cls cmp c d)

theorem Represents.calcAll {cls : ContentClass C V T} {cmp : T → T → Bool}
    {R : Option V → C → Prop} (h : Represents cls cmp R) (args : List V) :
    R (best cmp cls.compValueOf args) (calcAll cls cmp args) := by
  induction args using List.reverseRecOn with
  | nil => exact h.empty
  | append_singleton args x ih =>
    have hstep := h.step _ _ x ih
    rw [best, List.foldl_append]
    rw [Reducers.calcAll, List.foldl_append]
    exact hstep

/-- What `calc` and `reduce` keep holds for every split of the arguments. -/
theorem Represents.split [LinearOrder T] {forMax : Bool} {cls : ContentClass C V T}
    {R : Option V → C → Prop} (h : Represents cls (compare forMax) R)
    (strands : List (List V)) :
    R (best (compare forMax) cls.compValueOf strands.flatten)
      (calcSplit cls (compare forMax) strands) := by
  rcases strands with _ | ⟨args, strands⟩
  · exact h.empty
  · rw [List.flatten_cons, best_append]
    have hleft := h.calcAll args
    -- The views to the right are merged into the leftmost one, one after the other.
    have hmerge : ∀ (strands : List (List V)) (b : Option V) (c : C), R b c →
        R (better (compare forMax) cls.compValueOf b
            (best (compare forMax) cls.compValueOf strands.flatten))
          ((strands.map (Reducers.calcAll cls (compare forMax))).foldl
            (viewReduce cls (compare forMax)) c) := by
      intro strands
      induction strands with
      | nil =>
        intro b c hbc
        cases b <;> exact hbc
      | cons args strands ih =>
        intro b c hbc
        have hnext := h.merge b _ c _ hbc (h.calcAll args)
        rw [List.flatten_cons, best_append, ← better_assoc]
        exact ih _ _ hnext
    exact hmerge strands _ _ hleft

section Content

variable [LinearOrder T] [BoundedOrder T] [Inhabited T] [Inhabited I] (forMax : Bool)

/-- What every view has: it is set if it has had an argument, and then the value of the
best one. -/
def IsBest (cls : ContentClass C V T) (b : Option V) (c : C) : Prop :=
  cls.isSet c = b.isSome ∧ ∀ x, b = some x → cls.value c = x

/-- A content without an index stands for the best argument. The optimised one has the
identity value until it is set. -/
def ViewContent.StandsFor (optimised : Bool) (b : Option T) (c : ViewContent T) : Prop :=
  IsBest (viewContent forMax optimised) b c ∧
    (optimised = true → b = none → c.m_value = identityValue forMax)

theorem viewContent_represents (optimised : Bool) :
    Represents (viewContent forMax optimised : ContentClass (ViewContent T) T T)
      (compare forMax) (ViewContent.StandsFor forMax optimised) where
  empty := ⟨⟨rfl, by simp⟩, fun h _ => by simp [viewContent, h]⟩
  step b c x h := by
    obtain ⟨m_value, m_is_set⟩ := c
    obtain ⟨⟨hset, hvalue⟩, hidentity⟩ := h
    rcases b with _ | a
    · obtain rfl : m_is_set = false := hset
      refine ⟨⟨rfl, ?_⟩, by simp [better]⟩
      rintro y ⟨⟩
      cases optimised with
      | false => rfl
      | true =>
        -- The argument is only stored if it is better than the identity value.
        obtain rfl : m_value = identityValue forMax := hidentity rfl rfl
        by_cases hx : x = identityValue forMax
        · simp [viewCalc, viewContent, hx, compare_self]
        · simp [viewCalc, viewContent, (identityValue_compare forMax x).mpr hx]
    · obtain rfl : m_is_set = true := hset
      obtain rfl : m_value = a := hvalue a rfl
      cases hcmp : compare forMax m_value x <;> cases optimised <;>
        simp [ViewContent.StandsFor, IsBest, viewCalc, viewContent, better, hcmp]
  merge a b c d hac hbd := by
    obtain ⟨m_value, m_is_set⟩ := c
    obtain ⟨m_value', m_is_set'⟩ := d
    obtain ⟨⟨hset, hvalue⟩, hidentity⟩ := hac
    obtain ⟨⟨hset', hvalue'⟩, -⟩ := hbd
    -- A view that is not set is not looked at.
    rcases b with _ | b
    · obtain rfl : m_is_set' = false := hset'
      have hkeep : viewReduce (viewContent forMax optimised) (compare forMax)
          ⟨m_value, m_is_set⟩ ⟨m_value', false⟩ = ⟨m_value, m_is_set⟩ := rfl
      rw [hkeep]
      cases a <;> exact ⟨⟨hset, hvalue⟩, hidentity⟩
    · obtain rfl : m_is_set' = true := hset'
      obtain rfl : m_value' = b := hvalue' b rfl
      rcases a with _ | a
      · obtain rfl : m_is_set = false := hset
        simp [ViewContent.StandsFor, IsBest, viewReduce, viewContent, better]
      · obtain rfl : m_is_set = true := hset
        obtain rfl : m_value = a := hvalue a rfl
        cases hcmp : compare forMax m_value m_value' <;>
          simp [ViewContent.StandsFor, IsBest, viewReduce, viewContent, better, hcmp]

/-- The index that an optimised content has: the first argument whose value is the
identity value does not bring its own. -/
def optimisedIndex (forMax : Bool) : Option (I × T) → I
  | none => default
  | some x => if x.2 = identityValue forMax then default else x.1

/-- A content with an index stands for the best argument, the optimised one up to the
index of the identity value. -/
def IndexViewContent.StandsFor (optimised : Bool) (b : Option (I × T))
    (c : IndexViewContent I T) : Prop :=
  c.m_is_set = b.isSome ∧ (∀ x, b = some x → c.m_value = x.2) ∧
    if optimised then
      c.m_index = optimisedIndex forMax b ∧ (b = none → c.m_value = identityValue forMax)
    else ∀ x, b = some x → c.m_index = x.1

theorem indexViewContent_represents (optimised : Bool) :
    Represents (indexViewContent forMax optimised :
        ContentClass (IndexViewContent I T) (I × T) T)
      (compare forMax) (IndexViewContent.StandsFor forMax optimised) where
  empty := ⟨rfl, by simp, by cases optimised <;> simp [indexViewContent, optimisedIndex]⟩
  step b c x h := by
    obtain ⟨m_index, m_value, m_is_set⟩ := c
    obtain ⟨hset, hvalue, hindex⟩ := h
    rcases b with _ | a
    · obtain rfl : m_is_set = false := hset
      cases optimised with
      | false =>
        simp [IndexViewContent.StandsFor, viewCalc, indexViewContent, better]
      | true =>
        obtain ⟨rfl, hidentity⟩ := hindex
        obtain rfl : m_value = identityValue forMax := hidentity rfl
        by_cases hx : x.2 = identityValue forMax
        · simp [IndexViewContent.StandsFor, viewCalc, indexViewContent, better, hx,
            compare_self, optimisedIndex]
        · simp [IndexViewContent.StandsFor, viewCalc, indexViewContent, better, hx,
            (identityValue_compare forMax x.2).mpr hx, optimisedIndex]
    · obtain rfl : m_is_set = true := hset
      obtain rfl : m_value = a.2 := hvalue a rfl
      cases hcmp : compare forMax a.2 x.2 with
      | false =>
        cases optimised <;>
          simpa [IndexViewContent.StandsFor, viewCalc, indexViewContent, better, hcmp]
            using hindex
      | true =>
        -- What beats another argument is not the identity value.
        have hx : x.2 ≠ identityValue forMax := by
          intro heq
          rw [heq, compare_identityValue] at hcmp
          cases hcmp
        cases optimised <;>
          simp [IndexViewContent.StandsFor, viewCalc, indexViewContent, better, hcmp, hx,
            optimisedIndex]
  merge a b c d hac hbd := by
    obtain ⟨m_index, m_value, m_is_set⟩ := c
    obtain ⟨m_index', m_value', m_is_set'⟩ := d
    obtain ⟨hset, hvalue, hindex⟩ := hac
    obtain ⟨hset', hvalue', hindex'⟩ := hbd
    rcases b with _ | b
    · obtain rfl : m_is_set' = false := hset'
      have hkeep : viewReduce (indexViewContent forMax optimised) (compare forMax)
          ⟨m_index, m_value, m_is_set⟩ ⟨m_index', m_value', false⟩ =
            ⟨m_index, m_value, m_is_set⟩ := rfl
      rw [hkeep]
      cases a <;> exact ⟨hset, hvalue, hindex⟩
    · obtain rfl : m_is_set' = true := hset'
      obtain rfl : m_value' = b.2 := hvalue' b rfl
      rcases a with _ | a
      · obtain rfl : m_is_set = false := hset
        cases optimised <;>
          simpa [IndexViewContent.StandsFor, viewReduce, indexViewContent, better] using hindex'
      · obtain rfl : m_is_set = true := hset
        obtain rfl : m_value = a.2 := hvalue a rfl
        cases hcmp : compare forMax a.2 b.2 with
        | false =>
          cases optimised <;>
            simpa [IndexViewContent.StandsFor, viewReduce, indexViewContent, better, hcmp]
              using hindex
        | true =>
          cases optimised <;>
            simpa [IndexViewContent.StandsFor, viewReduce, indexViewContent, better, hcmp]
              using hindex'

omit [Inhabited T] [Inhabited I] in
/-- If the best argument has the identity value, all have. -/
theorem best_identityValue {args : List (I × T)} {r : I × T}
    (h : best (compare forMax) Prod.snd args = some r) :
    r.2 = identityValue forMax ↔ ∀ x ∈ args, x.2 = identityValue forMax := by
  obtain ⟨before, after, hsplit, hbest, -⟩ := best_isFirstUnbeaten forMax Prod.snd h
  constructor
  · intro hr x hx
    by_contra hne
    have hbeats := (identityValue_compare forMax x.2).mpr hne
    rw [← hr, hbest x hx] at hbeats
    cases hbeats
  · intro hall
    exact hall r (by simp [hsplit])

/--
However the arguments are split, the optimised classes are set when the others are,
that is if there is an argument, and have the same value, that of the first argument
that no other one beats. The index is also the same if not every argument has the
identity value of the type; if every one has, it is the default index.
-/
theorem minMax_optimization :
    (∀ strands : List (List T),
      let c := calcSplit (viewContent forMax true) (compare forMax) strands
      let c' := calcSplit (viewContent forMax false) (compare forMax) strands
      c.m_is_set = c'.m_is_set ∧ c'.m_is_set = !strands.flatten.isEmpty ∧
        (strands.flatten ≠ [] → c.m_value = c'.m_value ∧
          IsFirstUnbeaten (compare forMax) id strands.flatten c'.m_value)) ∧
    (∀ strands : List (List (I × T)),
      let c := calcSplit (indexViewContent forMax true) (compare forMax) strands
      let c' := calcSplit (indexViewContent forMax false) (compare forMax) strands
      c.m_is_set = c'.m_is_set ∧ c'.m_is_set = !strands.flatten.isEmpty ∧
        (strands.flatten ≠ [] → c.m_value = c'.m_value ∧
          IsFirstUnbeaten (compare forMax) Prod.snd strands.flatten (c'.m_index, c'.m_value) ∧
          ((∃ x ∈ strands.flatten, x.2 ≠ identityValue forMax) → c.m_index = c'.m_index) ∧
          ((∀ x ∈ strands.flatten, x.2 = identityValue forMax) → c.m_index = default))) := by
  constructor
  · intro strands c c'
    obtain ⟨⟨hset, hvalue⟩, -⟩ := (viewContent_represents forMax true).split strands
    obtain ⟨⟨hset', hvalue'⟩, -⟩ := (viewContent_represents (T := T) forMax false).split strands
    refine ⟨hset.trans hset'.symm, hset'.trans (best_isSome forMax _ _), fun hne => ?_⟩
    have hsome : (best (compare forMax) id strands.flatten).isSome = true := by
      rw [best_isSome]
      simpa using hne
    obtain ⟨r, hr⟩ := Option.isSome_iff_exists.mp hsome
    have hc : c.m_value = r := hvalue r hr
    have hc' : c'.m_value = r := hvalue' r hr
    rw [hc, hc']
    exact ⟨rfl, best_isFirstUnbeaten forMax id hr⟩
  · intro strands c c'
    obtain ⟨hset, hvalue, hindex, -⟩ :=
      (indexViewContent_represents (I := I) forMax true).split strands
    obtain ⟨hset', hvalue', hindex'⟩ :=
      (indexViewContent_represents (I := I) forMax false).split strands
    refine ⟨hset.trans hset'.symm, hset'.trans (best_isSome forMax _ _), fun hne => ?_⟩
    have hsome : (best (compare forMax) Prod.snd strands.flatten).isSome = true := by
      rw [best_isSome]
      simpa using hne
    obtain ⟨r, hr⟩ := Option.isSome_iff_exists.mp hsome
    have hc : c.m_value = r.2 := hvalue r hr
    have hc' : c'.m_value = r.2 := hvalue' r hr
    have hi' : c'.m_index = r.1 := hindex' r hr
    have hi : c.m_index = if r.2 = identityValue forMax then default else r.1 := by
      have hopt : c.m_index = optimisedIndex forMax _ := hindex
      rw [hopt]
      exact congrArg (optimisedIndex forMax) hr
    have hall := best_identityValue forMax hr
    rw [hc, hc', hi, hi']
    refine ⟨rfl, best_isFirstUnbeaten forMax Prod.snd hr, ?_, ?_⟩
    · rintro ⟨x, hx, hne⟩
      exact if_neg fun hr2 => hne (hall.mp hr2 x hx)
    · intro h
      exact if_pos (hall.mpr h)

end Content

/-- The only argument is the smallest value of the type, with the index 1: the optimised
max view has the index 0. -/
theorem max_index_of_min :
    ¬ ∀ strands : List (List (Nat × Fin 256)),
      (calcSplit (indexViewContent true true) (compare true) strands).m_index =
        (calcSplit (indexViewContent true false) (compare true) strands).m_index := by
  intro hall
  have h := hall [[(1, 0)]]
  revert h
  decide

end SwanRuntime.Reducers
