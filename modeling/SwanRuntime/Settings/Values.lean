import SwanRuntime.Library.Text

/-!
# Settings — reading values

Every number that a user sets, through the API or through the environment, is
read by `store_int`, a template over the type of the field, and every switch by
`store_bool`. `store_int` promises to distinguish a number in range, a number out
of range, and a text that is no number.

It does not look at where `strtol` has stopped, so it takes a text that only
starts with a number for that number, and one that does not start with a number
for 0, unless the library reports the latter in `errno`, which it may.

## Results

* `isDecimal_iff`      — what `strtol` reads to the end.
* `storeInt_isDecimal` — a decimal integer lands in the right class.
* `storeInt_exact_iff` — for which texts the promise is kept.
-/

namespace SwanRuntime.Settings

open Text

-- ---------------------------------------------------------------------------
-- The code
-- ---------------------------------------------------------------------------

/-- `__cilkrts_set_param_status`. -/
inductive Status
  | success
  | unimp
  | xrange
  | invalid
  | late
deriving DecidableEq, Repr

/-- The types that `store_int` is instantiated with. -/
inductive IntType
  | int
  | unsigned
  | size
deriving DecidableEq, Repr

/-- `INT_MAX`. -/
def intMax : Int := 2 ^ 31 - 1

/-- The conversion of a `long` to the type. -/
def IntType.cast : IntType → Int → Int
  | .int, i => i.bmod (2 ^ 32)
  | .unsigned, i => i % 2 ^ 32
  | .size, i => i % 2 ^ 64

/-- The comparison of a `long` with a value of the type. A `size_t` is as wide as
a `long`, so that the `long` is converted to it. -/
def IntType.lt : IntType → Int → Int → Bool
  | .size, i, j => i % 2 ^ 64 < j
  | _, i, j => i < j

/-- The comparison the other way. -/
def IntType.gt : IntType → Int → Int → Bool
  | .size, i, j => i % 2 ^ 64 > j
  | _, i, j => i > j

/-- `to_long`: the value, and whether `errno` is not 0 after it. The library may
set it to `EINVAL` when there is no number; `einval` says whether it does. -/
def toLong (einval : Bool) (s : List Char) : Int × Bool :=
  ((strtol s).1, match scanInt s with
    | none => einval
    | some (i, _) => i < longMin || longMax < i)

/-- `store_int`: the status, and `*out` after the call. -/
def storeInt (einval : Bool) (T : IntType) (out : Int) (val : List Char) (min max : Int) :
    Status × Int :=
  let (valAsLong, errno) := toLong einval val
  if valAsLong = 0 ∧ errno then (.invalid, out)
  else if T.lt valAsLong min ∨ valAsLong = longMin then (.xrange, out)
  else if T.gt valAsLong max ∨ valAsLong = longMax then (.xrange, out)
  else (.success, T.cast valAsLong)

/-- `store_bool`, for a text that is not `NULL`: the callers have seen to that. -/
def storeBool (out : Int) (val : List Char) : Status × Int :=
  if val = "false".toList ∨ val = "0".toList then (.success, 0)
  else if val = "true".toList ∨ val = "1".toList then (.success, 1)
  else (.invalid, out)

-- ---------------------------------------------------------------------------
-- Decimal integers
-- ---------------------------------------------------------------------------

/-- The text is the integer in decimal, with optional blanks and sign in front. -/
inductive IsDecimal : List Char → Int → Prop
  | plain {blanks digits : List Char} (hblanks : ∀ c ∈ blanks, isSpace c = true)
      (hne : digits ≠ []) (hdigits : ∀ c ∈ digits, c.isDigit = true) :
      IsDecimal (blanks ++ digits) (Nat.ofDigitChars 10 digits 0)
  | plus {blanks digits : List Char} (hblanks : ∀ c ∈ blanks, isSpace c = true)
      (hne : digits ≠ []) (hdigits : ∀ c ∈ digits, c.isDigit = true) :
      IsDecimal (blanks ++ '+' :: digits) (Nat.ofDigitChars 10 digits 0)
  | minus {blanks digits : List Char} (hblanks : ∀ c ∈ blanks, isSpace c = true)
      (hne : digits ≠ []) (hdigits : ∀ c ∈ digits, c.isDigit = true) :
      IsDecimal (blanks ++ '-' :: digits) (-Nat.ofDigitChars 10 digits 0)

theorem takeWhile_all {p : Char → Bool} {l : List Char} (h : ∀ c ∈ l, p c = true) :
    l.takeWhile p = l ∧ l.dropWhile p = [] := by
  have htake : (l ++ []).takeWhile p = l ++ [].takeWhile p := List.takeWhile_append_of_pos h
  have hdrop : (l ++ []).dropWhile p = [].dropWhile p := List.dropWhile_append_of_pos h
  rw [List.append_nil, List.takeWhile_nil, List.append_nil] at htake
  rw [List.append_nil, List.dropWhile_nil] at hdrop
  exact ⟨htake, hdrop⟩

/-- What follows the blanks is not skipped with them. -/
theorem dropWhile_blanks {blanks rest : List Char} {c : Char}
    (hblanks : ∀ c ∈ blanks, isSpace c = true) (hc : isSpace c = false) :
    (blanks ++ c :: rest).dropWhile isSpace = c :: rest := by
  rw [List.dropWhile_append_of_pos hblanks, List.dropWhile_cons_of_neg (by rw [hc]; decide)]

/-- `strtol` reads a decimal integer to the end. -/
theorem scanInt_of_isDecimal {s : List Char} {n : Int} (h : IsDecimal s n) :
    scanInt s = some (n, []) := by
  cases h with
  | @plain blanks digits hblanks hne hdigits =>
    obtain ⟨c, rest, rfl⟩ := List.exists_cons_of_ne_nil hne
    have hc : c.isDigit = true := hdigits c List.mem_cons_self
    have hminus : c ≠ '-' := by
      rintro rfl
      exact absurd hc (by decide)
    have hplus : c ≠ '+' := by
      rintro rfl
      exact absurd hc (by decide)
    obtain ⟨htake, hdrop⟩ := takeWhile_all hdigits
    have hsign : scanSign (c :: rest) = (false, c :: rest) := by
      simp [scanSign, hminus, hplus]
    simp only [scanInt, dropWhile_blanks hblanks (isSpace_of_isDigit hc), hsign, htake, hdrop]
    rfl
  | @plus blanks digits hblanks hne hdigits =>
    obtain ⟨htake, hdrop⟩ := takeWhile_all hdigits
    simp only [scanInt, dropWhile_blanks (c := '+') hblanks (by decide), scanSign, htake, hdrop,
      List.isEmpty_iff, if_neg hne]
    rfl
  | @minus blanks digits hblanks hne hdigits =>
    obtain ⟨htake, hdrop⟩ := takeWhile_all hdigits
    simp only [scanInt, dropWhile_blanks (c := '-') hblanks (by decide), scanSign, htake, hdrop,
      List.isEmpty_iff, if_neg hne]
    rfl

/-- The sign that has been read. -/
theorem scanSign_cases (cs : List Char) :
    (∃ r, cs = '-' :: r ∧ scanSign cs = (true, r)) ∨
      (∃ r, cs = '+' :: r ∧ scanSign cs = (false, r)) ∨ scanSign cs = (false, cs) := by
  unfold scanSign
  split
  · exact .inl ⟨_, rfl, rfl⟩
  · exact .inr (.inl ⟨_, rfl, rfl⟩)
  · exact .inr (.inr rfl)

/-- The digits that have been read, when nothing is left. -/
theorem takeWhile_of_dropWhile {p : Char → Bool} {l : List Char} (h : l.dropWhile p = []) :
    l.takeWhile p = l ∧ ∀ c ∈ l, p c = true := by
  have heq := List.takeWhile_append_dropWhile (p := p) (l := l)
  rw [h, List.append_nil] at heq
  exact ⟨heq, fun c hc => List.mem_takeWhile_imp (heq.symm ▸ hc)⟩

/-- Nothing else is read to the end. -/
theorem isDecimal_of_scanInt {s : List Char} {n : Int} (h : scanInt s = some (n, [])) :
    IsDecimal s n := by
  have hblanks : ∀ c ∈ s.takeWhile isSpace, isSpace c = true := fun _ hc =>
    List.mem_takeWhile_imp hc
  have hsplit : s.takeWhile isSpace ++ s.dropWhile isSpace = s := List.takeWhile_append_dropWhile
  have hdigits : ∀ {negative : Bool} {r : List Char},
      scanSign (s.dropWhile isSpace) = (negative, r) → r ≠ [] ∧ (∀ c ∈ r, c.isDigit = true) ∧
        n = if negative then -(Nat.ofDigitChars 10 r 0 : Int) else Nat.ofDigitChars 10 r 0 := by
    intro negative r hsign
    simp only [scanInt, hsign] at h
    split at h
    · cases h
    · rename_i hne
      obtain ⟨hn, hrest⟩ := Prod.mk.inj (Option.some.inj h)
      obtain ⟨htake, hall⟩ := takeWhile_of_dropWhile hrest
      rw [htake] at hn hne
      exact ⟨fun hnil => hne (List.isEmpty_iff.mpr hnil), hall, hn.symm⟩
  rw [← hsplit]
  rcases scanSign_cases (s.dropWhile isSpace) with ⟨r, hr, hsign⟩ | ⟨r, hr, hsign⟩ | hsign
  · obtain ⟨hne, hall, rfl⟩ := hdigits hsign
    rw [hr]
    exact .minus hblanks hne hall
  · obtain ⟨hne, hall, rfl⟩ := hdigits hsign
    rw [hr]
    exact .plus hblanks hne hall
  · obtain ⟨hne, hall, rfl⟩ := hdigits hsign
    exact .plain hblanks hne hall

theorem isDecimal_iff {s : List Char} {n : Int} : IsDecimal s n ↔ scanInt s = some (n, []) :=
  ⟨scanInt_of_isDecimal, isDecimal_of_scanInt⟩

/-- A text represents at most one integer. -/
theorem IsDecimal.unique {s : List Char} {m n : Int} (hm : IsDecimal s m) (hn : IsDecimal s n) :
    m = n := by
  have heq := (isDecimal_iff.mp hm).symm.trans (isDecimal_iff.mp hn)
  exact (Prod.mk.inj (Option.some.inj heq)).1

-- ---------------------------------------------------------------------------
-- Storing
-- ---------------------------------------------------------------------------

/-- The bounds that the callers pass. -/
structure Bounds (min max : Int) : Prop where
  nonneg : 0 ≤ min
  le     : min ≤ max
  fits   : max ≤ intMax

section Store

variable {einval : Bool} {T : IntType} {min max : Int} {s rest : List Char} {i : Int}

/-- The number that is read is compared as it is. -/
theorem lt_iff (h : Bounds min max) (hlow : longMin ≤ i) (hhigh : i ≤ longMax) :
    T.lt i min = true ∨ i = longMin ∨ T.gt i max = true ∨ i = longMax ↔ i < min ∨ max < i := by
  obtain ⟨hnonneg, hle, hfits⟩ := h
  unfold longMin longMax intMax at *
  cases T <;> simp only [IntType.lt, IntType.gt, decide_eq_true_eq] <;> omega

/-- A number in range is stored as it is. -/
theorem cast_eq (h : Bounds min max) (hlow : min ≤ i) (hhigh : i ≤ max) : T.cast i = i := by
  obtain ⟨hnonneg, hle, hfits⟩ := h
  unfold intMax at *
  cases T with
  | int => exact Int.bmod_eq_of_le (by omega) (by omega)
  | unsigned => exact Int.emod_eq_of_lt (by omega) (by omega)
  | size => exact Int.emod_eq_of_lt (by omega) (by omega)

/-- With the number `v` that has been read, unless that is an error. -/
theorem storeInt_of_toLong {v : Int} (h : Bounds min max) (hv : (toLong einval s).1 = v)
    (hlow : longMin ≤ v) (hhigh : v ≤ longMax)
    (hno : ¬ (v = 0 ∧ (toLong einval s).2 = true)) (out : Int) :
    storeInt einval T out s min max =
      if min ≤ v ∧ v ≤ max then (.success, v) else (.xrange, out) := by
  have hrange := lt_iff (T := T) h hlow hhigh
  subst hv
  unfold storeInt
  dsimp only
  rw [if_neg hno]
  by_cases hin : min ≤ (toLong einval s).1 ∧ (toLong einval s).1 ≤ max
  · have hout : ¬ ((toLong einval s).1 < min ∨ max < (toLong einval s).1) := by
      omega
    rw [← hrange] at hout
    rw [if_pos hin, if_neg fun hor => hout (hor.imp_right Or.inl),
      if_neg fun hor => hout (Or.inr (Or.inr hor)), cast_eq h hin.1 hin.2]
  · have hout : (toLong einval s).1 < min ∨ max < (toLong einval s).1 := by
      omega
    rw [← hrange] at hout
    rw [if_neg hin]
    by_cases hmin : T.lt (toLong einval s).1 min = true ∨ (toLong einval s).1 = longMin
    · rw [if_pos hmin]
    · rw [if_neg hmin, if_pos ((or_assoc.mpr hout).resolve_left hmin)]

/-- A text that starts with a number is taken for it. -/
theorem storeInt_scanInt (h : Bounds min max) (hs : scanInt s = some (i, rest)) (out : Int) :
    storeInt einval T out s min max =
      if min ≤ i ∧ i ≤ max then (.success, i) else (.xrange, out) := by
  have hlong : (toLong einval s).1 = Max.max longMin (Min.min longMax i) := by
    rw [toLong, strtol, hs]
  have hno : ¬ (Max.max longMin (Min.min longMax i) = 0 ∧ (toLong einval s).2 = true) := by
    rintro ⟨hzero, herrno⟩
    rw [toLong, hs] at herrno
    simp only [Bool.or_eq_true, decide_eq_true_eq] at herrno
    unfold longMin longMax at *
    omega
  rw [storeInt_of_toLong h hlong (by omega) (by unfold longMin longMax; omega) hno]
  obtain ⟨hnonneg, hle, hfits⟩ := h
  unfold longMin longMax intMax at *
  by_cases hin : min ≤ i ∧ i ≤ max
  · have hclamp : Max.max (-2 ^ 63) (Min.min (2 ^ 63 - 1) i) = i := by
      omega
    rw [hclamp]
  · rw [if_neg hin, if_neg]
    omega

/-- A text that does not is taken for 0, unless the library reports it. -/
theorem storeInt_none (h : Bounds min max) (hs : scanInt s = none) (out : Int) :
    storeInt einval T out s min max =
      if einval then (.invalid, out) else if min = 0 then (.success, 0) else (.xrange, out) := by
  have hlong : (toLong einval s).1 = 0 := by rw [toLong, strtol, hs]
  have herrno : (toLong einval s).2 = einval := by rw [toLong, hs]
  cases einval with
  | true =>
    unfold storeInt
    dsimp only
    rw [if_pos ⟨hlong, herrno⟩]
    rfl
  | false =>
    have hno : ¬ ((0 : Int) = 0 ∧ (toLong false s).2 = true) := by
      rw [herrno]
      exact fun hand => Bool.false_ne_true hand.2
    rw [storeInt_of_toLong h hlong (by decide) (by decide) hno]
    obtain ⟨hnonneg, hle, hfits⟩ := h
    by_cases hmin : min = 0
    · rw [if_pos (by omega), if_neg Bool.false_ne_true, if_pos hmin]
    · rw [if_neg (by omega), if_neg Bool.false_ne_true, if_neg hmin]

/-- A decimal integer lands in the right class. -/
theorem storeInt_isDecimal (h : Bounds min max) (hs : IsDecimal s i) (out : Int) :
    storeInt einval T out s min max =
      if min ≤ i ∧ i ≤ max then (.success, i) else (.xrange, out) :=
  storeInt_scanInt h (isDecimal_iff.mp hs) out

end Store

-- ---------------------------------------------------------------------------
-- The promise
-- ---------------------------------------------------------------------------

/-- What `store_int` promises of a text: a number in range is stored, the other
texts are told apart, and `*out` is unchanged when there is an error. -/
structure Exact (einval : Bool) (T : IntType) (min max : Int) (s : List Char) : Prop where
  success   : ∀ out n, storeInt einval T out s min max = (.success, n) ↔
    IsDecimal s n ∧ min ≤ n ∧ n ≤ max
  xrange    : ∀ out, (storeInt einval T out s min max).1 = .xrange ↔
    ∃ n, IsDecimal s n ∧ (n < min ∨ max < n)
  invalid   : ∀ out, (storeInt einval T out s min max).1 = .invalid ↔ ∀ n, ¬ IsDecimal s n
  unchanged : ∀ out, (storeInt einval T out s min max).1 ≠ .success →
    (storeInt einval T out s min max).2 = out

section Promise

variable {einval : Bool} {T : IntType} {min max : Int} {s : List Char}

/-- The promise is kept for a decimal integer. -/
theorem exact_of_isDecimal {n : Int} (h : Bounds min max) (hs : IsDecimal s n) :
    Exact einval T min max s := by
  have hstore : ∀ out, storeInt einval T out s min max = _ := storeInt_isDecimal h hs
  constructor
  case success =>
    intro out m
    rw [hstore]
    split
    · rename_i hin
      refine ⟨fun heq => ?_, fun ⟨hm, _⟩ => by rw [hs.unique hm]⟩
      obtain rfl := (Prod.mk.inj heq).2
      exact ⟨hs, hin⟩
    · rename_i hin
      refine ⟨fun heq => (nomatch (Prod.mk.inj heq).1), fun ⟨hm, hin'⟩ => ?_⟩
      rw [hs.unique hm] at hin
      exact absurd hin' hin
  case xrange =>
    intro out
    rw [hstore]
    split
    · rename_i hin
      refine ⟨nofun, fun ⟨m, hm, hout⟩ => ?_⟩
      rw [← hs.unique hm] at hout
      omega
    · exact ⟨fun _ => ⟨n, hs, by omega⟩, fun _ => rfl⟩
  case invalid =>
    intro out
    rw [hstore]
    split
    · exact ⟨nofun, fun hno => absurd hs (hno n)⟩
    · exact ⟨nofun, fun hno => absurd hs (hno n)⟩
  case unchanged =>
    intro out hne
    rw [hstore] at hne ⊢
    split at hne
    · exact absurd rfl hne
    · rename_i hin
      rw [if_neg hin]

/-- It is kept for a text without a number that the library reports. -/
theorem exact_of_none (h : Bounds min max) (hs : scanInt s = none) :
    Exact true T min max s := by
  have hstore : ∀ out, storeInt true T out s min max = (.invalid, out) := fun out => by
    rw [storeInt_none h hs, if_pos rfl]
  have hno : ∀ n, ¬ IsDecimal s n := fun n hn => nomatch hs.symm.trans (isDecimal_iff.mp hn)
  constructor
  case success =>
    intro out n
    rw [hstore]
    exact ⟨fun heq => (nomatch (Prod.mk.inj heq).1), fun hn => absurd hn.1 (hno n)⟩
  case xrange =>
    intro out
    rw [hstore]
    exact ⟨nofun, fun ⟨n, hn, _⟩ => absurd hn (hno n)⟩
  case invalid =>
    intro out
    rw [hstore]
    exact ⟨fun _ => hno, fun _ => rfl⟩
  case unchanged =>
    intro out _
    rw [hstore]

/-- The promise is kept iff the text is a decimal integer, or there is no number
at its start and the library says so. -/
theorem storeInt_exact_iff (einval : Bool) (T : IntType) (min max : Int) (h : Bounds min max)
    (s : List Char) :
    Exact einval T min max s ↔
      (∃ n, IsDecimal s n) ∨ einval = true ∧ scanInt s = none := by
  constructor
  · intro hexact
    by_contra hno
    push Not at hno
    obtain ⟨hdecimal, hnone⟩ := hno
    have hinvalid := (hexact.invalid 0).mpr hdecimal
    cases hscan : scanInt s with
    | none =>
      rw [storeInt_none h hscan, if_neg fun heinval => hnone heinval hscan] at hinvalid
      split at hinvalid
      · exact nomatch hinvalid
      · exact nomatch hinvalid
    | some read =>
      obtain ⟨i, rest⟩ := read
      rw [storeInt_scanInt h hscan] at hinvalid
      split at hinvalid
      · exact nomatch hinvalid
      · exact nomatch hinvalid
  · rintro (⟨n, hn⟩ | ⟨rfl, hnone⟩)
    · exact exact_of_isDecimal h hn
    · exact exact_of_none h hnone

/-- With two workers wanted, of at most 16. -/
theorem storeInt_exact_two : Bounds 1 16 ∧ (Exact false .int 1 16 "+2".toList ↔
    (∃ n, IsDecimal "+2".toList n) ∨ false = true ∧ scanInt "+2".toList = none) :=
  ⟨⟨by decide, by decide, by decide⟩,
    storeInt_exact_iff false .int 1 16 ⟨by decide, by decide, by decide⟩ "+2".toList⟩

/-- `4x` is stored as 4, although it is not a number. -/
theorem storeInt_accepts_junk : storeInt false .int 8 "4x".toList 0 16 = (.success, 4) ∧
    (∀ n, ¬ IsDecimal "4x".toList n) ∧ ¬ Exact false .int 0 16 "4x".toList := by
  have hstore : storeInt false .int 8 "4x".toList 0 16 = (.success, 4) := by decide
  have hno : ∀ n, ¬ IsDecimal "4x".toList n := fun n hn =>
    nomatch (isDecimal_iff.mp hn).symm.trans (show scanInt "4x".toList = some (4, ['x']) by decide)
  refine ⟨hstore, hno, fun hexact => ?_⟩
  exact hno 4 ((hexact.success 8 4).mp hstore).1

end Promise

end SwanRuntime.Settings
