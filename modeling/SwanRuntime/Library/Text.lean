import Mathlib.Algebra.Group.Int.Defs
import Mathlib.Algebra.Group.Nat.Defs
import Mathlib.Data.List.TakeWhile
import Mathlib.Tactic.Common

/-!
# Text input and output in C

The conversions of the C library that programs use to write numbers and words to
a text file and to read them back, on lists of characters: `%u`, `%d` and `%s`,
and `strtol`, which clamps what does not fit a `long`.

## Results

* `strtol_printUnsigned`   — reading an unsigned number back clamps it.
* `scanInt_printInt`       — reading an integer back gives it.
* `scanWord_append`        — reading a word back gives it.
-/

namespace SwanRuntime.Text

-- ---------------------------------------------------------------------------
-- Conversions
-- ---------------------------------------------------------------------------

/-- `isspace`. -/
def isSpace (c : Char) : Bool :=
  c = ' ' || c = '\n' || c = '\t' || c = '\r' || c.val = 11 || c.val = 12

/-- `%u`, for any width. -/
def printUnsigned (n : Nat) : List Char := Nat.toDigits 10 n

/-- `%d`. -/
def printInt (i : Int) : List Char :=
  if i < 0 then '-' :: printUnsigned i.natAbs else printUnsigned i.natAbs

/-- An optional sign: whether it is a minus, and the rest of the text. -/
def scanSign : List Char → Bool × List Char
  | '-' :: cs => (true, cs)
  | '+' :: cs => (false, cs)
  | cs => (false, cs)

/-- An integer in decimal, after white space: its value, unless there are no
digits, and the rest of the text. -/
def scanInt (cs : List Char) : Option (Int × List Char) :=
  let (negative, cs) := scanSign (cs.dropWhile isSpace)
  let digits := cs.takeWhile (·.isDigit)
  let n := Nat.ofDigitChars 10 digits 0
  if digits.isEmpty then none
  else some (if negative then -n else n, cs.dropWhile (·.isDigit))

/-- The greatest `long`. -/
def longMax : Int := 2 ^ 63 - 1

/-- The least `long`. -/
def longMin : Int := -2 ^ 63

/-- `strtol` in base 10: the value, clamped, and the text from `*end` on. -/
def strtol (cs : List Char) : Int × List Char :=
  match scanInt cs with
  | none => (0, cs)
  | some (i, rest) => (max longMin (min longMax i), rest)

/-- `%s`: white space is skipped, and a word read. -/
def scanWord (cs : List Char) : List Char × List Char :=
  ((cs.dropWhile isSpace).takeWhile (!isSpace ·), (cs.dropWhile isSpace).dropWhile (!isSpace ·))

-- ---------------------------------------------------------------------------
-- Reading back
-- ---------------------------------------------------------------------------

/-- A text that does not start with a digit. -/
def EndsNumber (cs : List Char) : Prop := ∀ c, cs.head? = some c → c.isDigit = false

theorem endsNumber_nil : EndsNumber [] := nofun

theorem endsNumber_cons {c : Char} (h : c.isDigit = false) (cs : List Char) :
    EndsNumber (c :: cs) := by
  rintro d hd
  obtain rfl := Option.some.inj hd
  exact h

theorem isSpace_of_isDigit {c : Char} (h : c.isDigit = true) : isSpace c = false := by
  simp only [Char.isDigit, Bool.and_eq_true, decide_eq_true_eq] at h
  have h₁ : 48 ≤ c.val.toNat := h.1
  have hne : ∀ d : Char, d.val.toNat < 48 → c ≠ d := by
    rintro d hd rfl
    omega
  have hval : ∀ v : UInt32, v.toNat < 48 → c.val ≠ v := by
    rintro v hv hcv
    rw [hcv] at h₁
    omega
  simp [isSpace, hne ' ' (by decide), hne '\n' (by decide), hne '\t' (by decide),
    hne '\r' (by decide), hval 11 (by decide), hval 12 (by decide)]

theorem isDigit_of_mem_printUnsigned {n : Nat} {c : Char} (h : c ∈ printUnsigned n) :
    c.isDigit = true :=
  Nat.isDigit_of_mem_toDigits (by omega) (by omega) h

theorem printUnsigned_ne_nil (n : Nat) : printUnsigned n ≠ [] := Nat.toDigits_ne_nil

/-- A number starts with a digit, so it is neither preceded by white space nor
by a sign. -/
theorem printUnsigned_cons (n : Nat) :
    ∃ c cs, printUnsigned n = c :: cs ∧ c.isDigit = true := by
  obtain ⟨c, cs, h⟩ := List.exists_cons_of_ne_nil (printUnsigned_ne_nil n)
  exact ⟨c, cs, h, isDigit_of_mem_printUnsigned (h ▸ List.mem_cons_self)⟩

theorem takeWhile_printUnsigned {n : Nat} {rest : List Char} (h : EndsNumber rest) :
    (printUnsigned n ++ rest).takeWhile (·.isDigit) = printUnsigned n ∧
      (printUnsigned n ++ rest).dropWhile (·.isDigit) = rest := by
  have hall : ∀ c ∈ printUnsigned n, c.isDigit = true := fun _ => isDigit_of_mem_printUnsigned
  rw [List.takeWhile_append_of_pos hall, List.dropWhile_append_of_pos hall]
  cases rest with
  | nil => simp
  | cons c rest =>
    have hc := h c rfl
    simp [hc]

theorem scanInt_printUnsigned {n : Nat} {rest : List Char} (h : EndsNumber rest) :
    scanInt (printUnsigned n ++ rest) = some ((n : Int), rest) := by
  obtain ⟨c, cs, hc, hdigit⟩ := printUnsigned_cons n
  have hspace : (printUnsigned n ++ rest).dropWhile isSpace = printUnsigned n ++ rest := by
    simp [hc, isSpace_of_isDigit hdigit]
  have hsign : scanSign (printUnsigned n ++ rest) = (false, printUnsigned n ++ rest) := by
    have hminus : c ≠ '-' := by rintro rfl; simp at hdigit
    have hplus : c ≠ '+' := by rintro rfl; simp at hdigit
    simp [hc, scanSign, hminus, hplus]
  obtain ⟨htake, hdrop⟩ := takeWhile_printUnsigned (n := n) h
  have hval : Nat.ofDigitChars 10 (printUnsigned n) 0 = n := Nat.ofDigitChars_ten_toDigits
  simp [scanInt, hspace, hsign, htake, hdrop, printUnsigned_ne_nil, hval]

/-- An integer is read back. -/
theorem scanInt_printInt {i : Int} {rest : List Char} (h : EndsNumber rest) :
    scanInt (printInt i ++ rest) = some (i, rest) := by
  unfold printInt
  split
  · rename_i hneg
    obtain ⟨n, hn⟩ : ∃ n : Nat, i = -n := ⟨i.natAbs, by omega⟩
    have habs : i.natAbs = n := by omega
    obtain ⟨htake, hdrop⟩ := takeWhile_printUnsigned (n := n) h
    have hspace : isSpace '-' = false := by decide
    have hval : Nat.ofDigitChars 10 (printUnsigned n) 0 = n := Nat.ofDigitChars_ten_toDigits
    rw [habs, hn]
    simp [scanInt, hspace, scanSign, htake, hdrop, printUnsigned_ne_nil, hval]
  · rename_i hneg
    rw [scanInt_printUnsigned h, Int.natAbs_of_nonneg (by omega)]

/-- An unsigned number is read back by `strtol` if it fits a `long`, and as the
greatest `long` otherwise. -/
theorem strtol_printUnsigned {n : Nat} {rest : List Char} (h : EndsNumber rest) :
    strtol (printUnsigned n ++ rest) = (min longMax n, rest) := by
  have hmin : longMin ≤ min longMax n := by
    unfold longMin longMax
    omega
  simp [strtol, scanInt_printUnsigned h, Int.max_eq_right hmin]

theorem scanSign_length (cs : List Char) : (scanSign cs).2.length ≤ cs.length := by
  unfold scanSign
  split <;> simp

/-- Reading an integer does not go back in the text. -/
theorem scanInt_length {cs rest : List Char} {i : Int} (h : scanInt cs = some (i, rest)) :
    rest.length ≤ cs.length := by
  have hsign := scanSign_length (cs.dropWhile isSpace)
  have hskip := (List.dropWhile_suffix isSpace (l := cs)).length_le
  have hdrop := (List.dropWhile_suffix (·.isDigit)
    (l := (scanSign (cs.dropWhile isSpace)).2)).length_le
  simp only [scanInt] at h
  split at h
  · cases h
  · rw [Option.some.injEq, Prod.mk.injEq] at h
    rw [← h.2]
    exact le_trans hdrop (le_trans hsign hskip)

/-- `strtol` does not go back in the text. -/
theorem strtol_length (cs : List Char) : (strtol cs).2.length ≤ cs.length := by
  unfold strtol
  split
  · exact le_refl _
  · rename_i h
    exact scanInt_length h

/-- Reading a word passes over its characters. -/
theorem scanWord_length (cs : List Char) :
    (scanWord cs).1.length + (scanWord cs).2.length ≤ cs.length := by
  have hskip := (List.dropWhile_suffix isSpace (l := cs)).length_le
  rw [scanWord, ← List.length_append, List.takeWhile_append_dropWhile]
  exact hskip

/-- A word is read back up to the white space behind it. -/
theorem scanWord_append {word rest : List Char} (hne : word ≠ [])
    (hword : ∀ c ∈ word, isSpace c = false) (hrest : ∀ c, rest.head? = some c → isSpace c = true) :
    scanWord (word ++ rest) = (word, rest) := by
  obtain ⟨c, cs, rfl⟩ := List.exists_cons_of_ne_nil hne
  have hskip : (c :: cs ++ rest).dropWhile isSpace = c :: cs ++ rest := by
    simp [hword c List.mem_cons_self]
  have hall : ∀ d ∈ c :: cs, (!isSpace d) = true := fun d hd => by simp [hword d hd]
  unfold scanWord
  rw [hskip, List.takeWhile_append_of_pos hall, List.dropWhile_append_of_pos hall]
  cases rest with
  | nil => simp
  | cons d rest => simp [hrest d rfl]

/-- White space in front of a word does not matter. -/
theorem scanWord_space {c : Char} (h : isSpace c = true) (cs : List Char) :
    scanWord (c :: cs) = scanWord cs := by
  simp [scanWord, h]

/-- Nor does it in front of an integer. -/
theorem scanInt_space {c : Char} (h : isSpace c = true) (cs : List Char) :
    scanInt (c :: cs) = scanInt cs := by
  simp [scanInt, h]

end SwanRuntime.Text
