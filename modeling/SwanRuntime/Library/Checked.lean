import Mathlib.Tactic.Common

/-!
# Computations with assertions

A function of the source that contains assertions is a computation that either
returns or stops with the text of the assertion that failed.

## Results

* `bind_eq_ok`, `bind_eq_error`      — how a sequence returns and fails.
* `assert_eq_ok`, `assert_eq_error`  — how an assertion returns and fails.
* `Ensures.bind`                     — the rule of a sequence for what holds of a
  result.
* `Avoids.bind`                      — and for an assertion that does not fail.
-/

namespace SwanRuntime

/-- A computation that stops with the text of the first assertion that fails. -/
abbrev Checked (α : Type _) := Except String α

namespace Checked

variable {α β : Type _}

/-- `CILK_ASSERT`. -/
def assert (b : Bool) (text : String) : Checked Unit :=
  if b then .ok () else .error text

/-- A sequence returns iff both parts return. -/
theorem bind_eq_ok {x : Checked α} {f : α → Checked β} {b : β} :
    (x >>= f) = .ok b ↔ ∃ a, x = .ok a ∧ f a = .ok b := by
  cases x <;> simp [bind, Except.bind]

/-- A sequence fails iff its first part fails, or returns and the rest fails. -/
theorem bind_eq_error {x : Checked α} {f : α → Checked β} {e : String} :
    (x >>= f) = .error e ↔ x = .error e ∨ ∃ a, x = .ok a ∧ f a = .error e := by
  cases x <;> simp [bind, Except.bind]

@[simp] theorem ok_bind (a : α) (f : α → Checked β) : ((.ok a : Checked α) >>= f) = f a := rfl

@[simp] theorem error_bind (e : String) (f : α → Checked β) :
    ((.error e : Checked α) >>= f) = .error e := rfl

@[simp] theorem pure_eq (a : α) : (pure a : Checked α) = .ok a := rfl

@[simp] theorem throw_eq (e : String) : (throw e : Checked α) = .error e := rfl

@[simp] theorem assert_true (text : String) : assert true text = .ok () := rfl

@[simp] theorem assert_false (text : String) : assert false text = .error text := rfl

theorem pure_eq_ok {a b : α} : (pure a : Checked α) = .ok b ↔ a = b := by
  simp [pure, Except.pure]

theorem assert_eq_ok {b : Bool} {text : String} {u : Unit} :
    assert b text = .ok u ↔ b = true := by
  cases b <;> simp [assert]

theorem assert_eq_error {b : Bool} {text e : String} :
    assert b text = .error e ↔ b = false ∧ text = e := by
  cases b <;> simp [assert]

/-- What `x` returns, if it returns, satisfies `P`. -/
def Ensures (x : Checked α) (P : α → Prop) : Prop := ∀ a, x = .ok a → P a

theorem Ensures.ok {a : α} {P : α → Prop} (h : P a) : Ensures (.ok a) P := by
  rintro b hb
  obtain rfl := Except.ok.inj hb
  exact h

theorem Ensures.pure {a : α} {P : α → Prop} (h : P a) : Ensures (pure a) P := Ensures.ok h

theorem Ensures.error {e : String} {P : α → Prop} : Ensures (.error e) P := nofun

theorem Ensures.throw {e : String} {P : α → Prop} : Ensures (throw e) P := Ensures.error

/-- What holds after the first part is what the second starts from. -/
theorem Ensures.bind {x : Checked α} {f : α → Checked β} {P : α → Prop} {Q : β → Prop}
    (hx : Ensures x P) (hf : ∀ a, P a → Ensures (f a) Q) : Ensures (x >>= f) Q := by
  intro b hb
  obtain ⟨a, ha, hb⟩ := bind_eq_ok.mp hb
  exact hf a (hx a ha) b hb

/-- After an assertion, it holds. -/
theorem Ensures.assert_bind {b : Bool} {text : String} {f : Unit → Checked β} {Q : β → Prop}
    (hf : b = true → Ensures (f ()) Q) : Ensures (assert b text >>= f) Q :=
  Ensures.bind (P := fun _ => b = true) (fun _ h => assert_eq_ok.mp h) fun _ h => hf h

theorem Ensures.ite {c : Prop} [Decidable c] {x y : Checked α} {P : α → Prop}
    (hx : c → Ensures x P) (hy : ¬ c → Ensures y P) : Ensures (if c then x else y) P := by
  split
  · exact hx ‹_›
  · exact hy ‹_›

/-- `x` does not stop with `text`. -/
def Avoids (x : Checked α) (text : String) : Prop := x ≠ .error text

section Avoids

variable {text e : String}

theorem Avoids.ok {a : α} : Avoids (.ok a) text := nofun

theorem Avoids.pure {a : α} : Avoids (pure a) text := Avoids.ok

theorem Avoids.throw (he : e ≠ text) : Avoids (throw e : Checked α) text :=
  fun h => he (Except.error.inj h)

/-- A sequence avoids what its first part avoids, and the second after it. -/
theorem Avoids.bind {x : Checked α} {f : α → Checked β} (hx : Avoids x text)
    (hf : ∀ a, x = .ok a → Avoids (f a) text) : Avoids (x >>= f) text := by
  intro h
  rcases bind_eq_error.mp h with h | ⟨a, ha, h⟩
  · exact hx h
  · exact hf a ha h

/-- An assertion with another text. -/
theorem Avoids.assert_bind {b : Bool} {f : Unit → Checked β} (he : e ≠ text)
    (hf : b = true → Avoids (f ()) text) : Avoids (assert b e >>= f) text :=
  Avoids.bind (fun h => he (assert_eq_error.mp h).2) fun _ h => hf (assert_eq_ok.mp h)

theorem Avoids.ite {c : Prop} [Decidable c] {x y : Checked α} (hx : c → Avoids x text)
    (hy : ¬ c → Avoids y text) : Avoids (if c then x else y) text := by
  split
  · exact hx ‹_›
  · exact hy ‹_›

end Avoids

end Checked

end SwanRuntime
