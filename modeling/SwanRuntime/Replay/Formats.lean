import SwanRuntime.Replay.Log

/-!
# Replay logs — formatting

A pedigree is formatted into a buffer of `PEDIGREE_BUFF_SIZE` bytes on the stack
of the writer. The pointer into it moves, but the size given at every term is that
of the whole buffer.

The helpers that format are `snprintf_s_s` and `snprintf_s_l`. Both count with
`parse_format` the conversions of their format before they hand it to `snprintf`,
and if there is not the one that they expect they store an empty text and return a
negative number, which the writer adds to its pointer all the same. `parse_format`
passes over the character behind a conversion without looking at it. Behind the
conversion of "%s" that is the zero which ends the text, and the count goes on in
the memory behind the literal. What stands there is a parameter (`Literals`); a
byte behind those given reads as zero.

A write outside of the buffer is an error, as a failed assertion is.

## Results

* `walkPedigreeNodesInto_eq`          — what is formatted by `snprintf` alone.
* `Literals.parseFormat_formatS`      — what is counted in the literal "%s".
* `parseFrom_eq_nil`                  — memory in which nothing is counted.
* `Literals.walkPedigreeNodes_eq`     — the helpers do not change it, when the
  memory behind the literals has no conversions.
* `Literals.walkPedigreeNodes_empty`  — nothing is formatted when it has some
  behind the format of a rank.
* `Literals.walkPedigreeNodes_error`  — and a write goes outside of the buffer when
  a pedigree of two nodes needs a format with some behind it.
-/

namespace SwanRuntime.Replay

open Text Checked

-- ---------------------------------------------------------------------------
-- Formatting with snprintf
-- ---------------------------------------------------------------------------

/-- `snprintf` of a text at `p`, given the size of the buffer from there on: what
does not fit the size is cut, a zero ends the text, and the length of the whole
text is returned. -/
def snprintf (buf : List Char) (p size : Nat) (text : List Char) :
    Checked (List Char × Nat) :=
  let written := (text.take (size - 1) ++ ['\x00']).take size
  if p + written.length ≤ buf.length then
    .ok (buf.take p ++ written ++ buf.drop (p + written.length), text.length)
  else
    .error "write outside of the buffer"

/-- `walk_pedigree_nodes`, with the buffer: the buffer and the pointer after the
term. -/
def walkPedigreeNodesInto (buf : List Char) (p : Nat) : List Nat → Checked (List Char × Nat)
  | [] => .error "pnode"
  | [rank] => do
    let (buf, n) ← snprintf buf p pedigreeBuffSize (printUnsigned rank)
    return (buf, p + n)
  | rank :: parents => do
    let (buf, p) ← walkPedigreeNodesInto buf p parents
    let (buf, n) ← snprintf buf p pedigreeBuffSize ['_']
    let p := p + n
    let (buf, n) ← snprintf buf p pedigreeBuffSize (printUnsigned rank)
    return (buf, p + n)

-- ---------------------------------------------------------------------------
-- Counting conversions
-- ---------------------------------------------------------------------------

/-- The `FMT_` characters: the type of argument that a conversion takes. -/
inductive FormatType
  | char
  | wchar
  | short
  | int
  | long
  | string
  | wstring
  | double
  | ldouble
  | void
  | pchar
  | pshort
  | pint
  | plong
deriving DecidableEq, Repr

/-- `RSIZE_MAX_STR`. -/
def rsizeMaxStr : Nat := 4096

/-- `MAX_FORMAT_ELEMENTS`. -/
def maxFormatElements : Nat := 16

/-- `format[index]`. -/
def charAt (format : List Char) (index : Nat) : Char := format.getD index '\x00'

/-- The loop over a width or a precision. -/
def skipDigits (format : List Char) (index : Nat) : Nat :=
  index + ((format.drop index).takeWhile (·.isDigit)).length

/-- The optional flag, width and precision from `index` on: the index behind them. -/
def skipOptions (format : List Char) (index : Nat) : Nat :=
  let index := if charAt format index ∈ ['#', '0', '-', ' ', '+'] then index + 1 else index
  let index := skipDigits format index
  if charAt format index = '.' then skipDigits format (index + 1) else index

/-- The optional length modifier at `index`: `lmod`, and the index behind it. The
modifier `L` is not passed over. -/
def lengthModifier (format : List Char) (index : Nat) : Char × Nat :=
  match charAt format index with
  | 'h' => if charAt format (index + 1) = 'h' then ('H', index + 2) else ('h', index + 1)
  | 'l' => if charAt format (index + 1) = 'l' then ('d', index + 2) else ('l', index + 1)
  | 'L' => ('L', index)
  | 'j' | 'z' | 't' => (' ', index + 1)
  | _ => (' ', index)

/-- The type of a conversion, by its length modifier and character. The conversion `m`
takes no argument and has none, as what is not recognised. -/
def conversion (lmod c : Char) : Option FormatType :=
  if c = 'c' then
    some (if lmod = 'l' then .wchar else .char)
  else if c ∈ ['d', 'i', 'o', 'u', 'x', 'X'] then
    some (if lmod = 'H' then .char else if lmod = 'l' then .long
      else if lmod = 'h' then .short else .int)
  else if c ∈ ['e', 'E', 'f', 'F', 'g', 'G', 'a', 'A'] then
    some (if lmod = 'L' then .ldouble else .double)
  else if c = 's' then
    some (if lmod = 'l' ∨ lmod = 'L' then .wstring else .string)
  else if c = 'p' then
    some .void
  else if c = 'n' then
    some (if lmod = 'H' then .pchar else if lmod = 'l' then .plong
      else if lmod = 'h' then .pshort else .pint)
  else
    none

/-- The end of a turn: a character that is not a `%` is passed over. -/
def skipChar (format : List Char) (index : Nat) : Nat :=
  if charAt format index ≠ '%' then index + 1 else index

theorem le_skipOptions (format : List Char) (index : Nat) : index ≤ skipOptions format index := by
  simp only [skipOptions, skipDigits]
  split <;> split <;> omega

theorem le_lengthModifier (format : List Char) (index : Nat) :
    index ≤ (lengthModifier format index).2 := by
  unfold lengthModifier
  split <;> (try split) <;> simp

theorem le_skipChar (format : List Char) (index : Nat) : index ≤ skipChar format index := by
  unfold skipChar
  split <;> omega

/-- The loop of `parse_format` from `index` on, with so many conversions found: the types
of those that follow. -/
def parseFrom (format : List Char) (maxFormats index numFormats : Nat) : List FormatType :=
  if index < rsizeMaxStr ∧ charAt format index ≠ '\x00' ∧ numFormats < maxFormats then
    if charAt format index = '%' then
      if charAt format (index + 1) = '\x00' ∨ charAt format (index + 1) = '%' then
        parseFrom format maxFormats (index + 1) numFormats
      else
        let lmod := lengthModifier format (skipOptions format (index + 1))
        let c := charAt format lmod.2
        match conversion lmod.1 c with
        | some t =>
          t :: parseFrom format maxFormats (skipChar format (lmod.2 + 1)) (numFormats + 1)
        | none =>
          if c = 'm' then parseFrom format maxFormats (lmod.2 + 1) numFormats
          else parseFrom format maxFormats (skipChar format lmod.2) numFormats
    else parseFrom format maxFormats (index + 1) numFormats
  else []
termination_by rsizeMaxStr - index
decreasing_by
  all_goals
    have h₁ := le_skipOptions format (index + 1)
    have h₂ := le_lengthModifier format (skipOptions format (index + 1))
    have h₃ := le_skipChar format (lengthModifier format (skipOptions format (index + 1))).2
    have h₄ := le_skipChar format ((lengthModifier format (skipOptions format (index + 1))).2 + 1)
    omega

/-- `parse_format`. -/
def parseFormat (format : List Char) : List FormatType := parseFrom format maxFormatElements 0 0

-- ---------------------------------------------------------------------------
-- Formatting with the helpers
-- ---------------------------------------------------------------------------

/-- `ESBADFMT`. -/
def esbadfmt : Int := 410

/-- `ESFMTTYP`. -/
def esfmttyp : Int := 411

/-- `dest[0] = '\0'`. -/
def terminate (buf : List Char) (p : Int) : Checked (List Char) :=
  if 0 ≤ p ∧ p < buf.length then .ok (buf.set p.toNat '\x00')
  else .error "write outside of the buffer"

/-- `snprintf` at a pointer that may stand in front of the buffer. -/
def snprintfAt (buf : List Char) (p : Int) (size : Nat) (text : List Char) :
    Checked (List Char × Int) :=
  if 0 ≤ p then do
    let (buf, n) ← snprintf buf p.toNat size text
    return (buf, n)
  else .error "write outside of the buffer"

/-- A helper for one argument of type `expected`, which formats as `text`: the buffer and
what is added to the pointer. -/
def snprintfS (format : List Char) (expected : FormatType) (buf : List Char) (p : Int)
    (size : Nat) (text : List Char) : Checked (List Char × Int) :=
  match parseFormat format with
  | [t] =>
    if t = expected then snprintfAt buf p size text
    else do
      let buf ← terminate buf p
      return (buf, -esfmttyp)
  | _ => do
    let buf ← terminate buf p
    return (buf, -esbadfmt)

/-- `snprintf_s_s`. -/
def snprintfSS (format buf : List Char) (p : Int) (size : Nat) (s : List Char) :
    Checked (List Char × Int) :=
  snprintfS format .string buf p size s

/-- `snprintf_s_l`. -/
def snprintfSL (format buf : List Char) (p : Int) (size : Nat) (a : Nat) :
    Checked (List Char × Int) :=
  snprintfS format .long buf p size (printUnsigned a)

/-- What stands in memory behind the literals "%s" and "%" PRIu64, whose text is "%lu". -/
structure Literals where
  behindS  : List Char
  behindLu : List Char

namespace Literals

variable (lits : Literals)

/-- The memory from the literal "%s" on. -/
def formatS : List Char := "%s".toList ++ '\x00' :: lits.behindS

/-- The memory from the literal "%lu" on. -/
def formatLu : List Char := "%lu".toList ++ '\x00' :: lits.behindLu

/-- `walk_pedigree_nodes`: the buffer and the pointer after the term. -/
def walkPedigreeNodes (buf : List Char) (p : Int) : List Nat → Checked (List Char × Int)
  | [] => .error "pnode"
  | [rank] => do
    let (buf, n) ← snprintfSL lits.formatLu buf p pedigreeBuffSize rank
    return (buf, p + n)
  | rank :: parents => do
    let (buf, p) ← walkPedigreeNodes buf p parents
    let (buf, n) ← snprintfSS lits.formatS buf p pedigreeBuffSize ['_']
    let p := p + n
    let (buf, n) ← snprintfSL lits.formatLu buf p pedigreeBuffSize rank
    return (buf, p + n)

/-- `write_to_replay_log`, with a buffer in which anything may stand: the line
written. -/
def writeToReplayLog (buf : List Char) (type : PedType) (initialNode : List Nat) (i1 i2 : Int) :
    Checked (List Char) := do
  let pedigree ←
    if initialNode = [] then pure ['0']
    else do
      let (buf, _) ← lits.walkPedigreeNodes buf 0 initialNode
      pure (buf.takeWhile (· ≠ '\x00'))
  return type.str ++ ' ' :: pedigree ++ ' ' :: printInt i1 ++ ' ' :: printInt i2 ++ ['\n']

/-- `parse_format` finds no conversion in the memory behind "%s". -/
def QuietS : Prop := parseFrom lits.formatS maxFormatElements 3 1 = []

/-- Nor behind "%lu". -/
def QuietLu : Prop := parseFrom lits.formatLu maxFormatElements 4 1 = []

end Literals

-- ---------------------------------------------------------------------------
-- What snprintf writes
-- ---------------------------------------------------------------------------

/-- A text that is shorter than the size is written behind what stands in front
of the pointer, if it and its zero fit the buffer. -/
theorem snprintf_append {text : List Char} {size : Nat} (h : text.length < size)
    (pre rest : List Char) :
    snprintf (pre ++ rest) pre.length size text =
      if text.length < rest.length then
        .ok (pre ++ text ++ '\x00' :: rest.drop (text.length + 1), text.length)
      else .error "write outside of the buffer" := by
  have htake : text.take (size - 1) = text := List.take_of_length_le (by omega)
  have hwritten : (text ++ ['\x00']).take size = text ++ ['\x00'] :=
    List.take_of_length_le (by rw [List.length_append, List.length_singleton]; omega)
  simp only [snprintf, htake, hwritten, List.length_append, List.length_singleton]
  by_cases hfits : text.length < rest.length
  · rw [if_pos (by omega), if_pos hfits, List.take_left, List.drop_append]
    simp
  · rw [if_neg (by omega), if_neg hfits]

/-- A text is written over the zero of the one in front of it. -/
theorem snprintf_next {text : List Char} {size : Nat} (h : text.length < size)
    {front rest : List Char} (hfront : front.length < rest.length) (pre : List Char) :
    snprintf (pre ++ front ++ '\x00' :: rest.drop (front.length + 1))
        (pre.length + front.length) size text =
      if (front ++ text).length < rest.length then
        .ok (pre ++ (front ++ text) ++ '\x00' :: rest.drop ((front ++ text).length + 1),
          text.length)
      else .error "write outside of the buffer" := by
  have hlen : ('\x00' :: rest.drop (front.length + 1)).length = rest.length - front.length := by
    rw [List.length_cons, List.length_drop]
    omega
  have hdrop : ('\x00' :: rest.drop (front.length + 1)).drop (text.length + 1) =
      rest.drop ((front ++ text).length + 1) := by
    rw [List.drop_succ_cons, List.drop_drop, List.length_append]
    congr 1
    omega
  rw [← List.length_append, snprintf_append h, hlen, hdrop, List.length_append]
  by_cases hfits : text.length < rest.length - front.length
  · rw [if_pos hfits, if_pos (by omega), List.append_assoc pre]
  · rw [if_neg hfits, if_neg (by omega)]

/-- A rank has at most twenty digits. -/
theorem printUnsigned_length_le {rank : Nat} (h : rank < 2 ^ 64) :
    (printUnsigned rank).length ≤ 20 :=
  (Nat.length_toDigits_le_iff (b := 10) (by omega) (by omega)).mpr (by omega)

/-- A rank is shorter than the size given for it. -/
theorem printUnsigned_length {rank : Nat} (h : rank < 2 ^ 64) :
    (printUnsigned rank).length < pedigreeBuffSize :=
  lt_of_le_of_lt (printUnsigned_length_le h) (by decide)

/-- The pedigree is formatted at the pointer iff it and its zero fit what is left
of the buffer. The induction is on the chain: the root is written first, and
every term finds the pedigree of its parents in front of it. -/
theorem walkPedigreeNodesInto_eq {chain : List Nat} (hne : chain ≠ [])
    (hranks : ∀ rank ∈ chain, rank < 2 ^ 64) (pre rest : List Char) :
    walkPedigreeNodesInto (pre ++ rest) pre.length chain =
      if (walkPedigreeNodes chain).length < rest.length then
        .ok (pre ++ walkPedigreeNodes chain ++
            '\x00' :: rest.drop ((walkPedigreeNodes chain).length + 1),
          pre.length + (walkPedigreeNodes chain).length)
      else .error "write outside of the buffer" := by
  induction chain with
  | nil => exact absurd rfl hne
  | cons rank parents ih =>
    have hrank := printUnsigned_length (hranks rank List.mem_cons_self)
    cases parents with
    | nil =>
      rw [walkPedigreeNodesInto, snprintf_append hrank, walkPedigreeNodes]
      by_cases h : (printUnsigned rank).length < rest.length
      · simp [h]
      · simp [h]
    | cons p parents =>
      have ih := ih (List.cons_ne_nil p parents)
        (fun r hr => hranks r (List.mem_cons_of_mem _ hr))
      generalize hparents : p :: parents = chain at ih
      have hchain : chain ≠ [] := hparents ▸ List.cons_ne_nil p parents
      have hunder : ['_'].length < pedigreeBuffSize := by decide
      have htext : walkPedigreeNodes (rank :: chain) =
          walkPedigreeNodes chain ++ ['_'] ++ printUnsigned rank := by
        rw [walkPedigreeNodes, List.append_assoc, List.singleton_append]
        exact hchain
      have hinto : ∀ buf p, walkPedigreeNodesInto buf p (rank :: chain) = (do
          let (buf, p) ← walkPedigreeNodesInto buf p chain
          let (buf, n) ← snprintf buf p pedigreeBuffSize ['_']
          let p := p + n
          let (buf, n) ← snprintf buf p pedigreeBuffSize (printUnsigned rank)
          return (buf, p + n)) := by
        intro buf p
        rw [walkPedigreeNodesInto]
        exact hchain
      -- the term is written behind the separator
      have hlen : (walkPedigreeNodes chain).length + 1 =
          (walkPedigreeNodes chain ++ ['_']).length := by
        rw [List.length_append, List.length_singleton]
      rw [hinto, ih, htext]
      by_cases h₁ : (walkPedigreeNodes chain).length < rest.length
      · -- the parents fit: the separator is next, and then the rank
        rw [if_pos h₁]
        simp only [ok_bind]
        rw [snprintf_next hunder h₁]
        by_cases h₂ : (walkPedigreeNodes chain ++ ['_']).length < rest.length
        · rw [if_pos h₂]
          simp only [ok_bind]
          rw [List.length_singleton, Nat.add_assoc, hlen, snprintf_next hrank h₂]
          by_cases h₃ : (walkPedigreeNodes chain ++ ['_'] ++ printUnsigned rank).length <
              rest.length
          · rw [if_pos h₃, if_pos h₃, ok_bind, pure_eq, Nat.add_assoc, ← List.length_append]
          · rw [if_neg h₃, if_neg h₃, error_bind]
        · have h₃ : ¬ (walkPedigreeNodes chain ++ ['_'] ++ printUnsigned rank).length <
              rest.length := by
            rw [List.length_append]
            omega
          rw [if_neg h₂, if_neg h₃, error_bind]
      · have h₃ : ¬ (walkPedigreeNodes chain ++ ['_'] ++ printUnsigned rank).length <
            rest.length := by
          rw [List.length_append, List.length_append]
          omega
        rw [if_neg h₁, if_neg h₃, error_bind]

-- ---------------------------------------------------------------------------
-- What the helpers write
-- ---------------------------------------------------------------------------

/-- Without a `%` in front of the next zero no conversion is found. The induction is on
what `RSIZE_MAX_STR` leaves to be read. -/
theorem parseFrom_eq_nil {format : List Char} {maxFormats index : Nat} (numFormats : Nat)
    (h : '%' ∉ (format.drop index).takeWhile (· ≠ '\x00')) :
    parseFrom format maxFormats index numFormats = [] := by
  induction hleft : rsizeMaxStr - index using Nat.strong_induction_on generalizing index with
  | _ left ih =>
    rw [parseFrom]
    split
    · next hread =>
      obtain ⟨hindex, hzero, -⟩ := hread
      have hlt : index < format.length := by
        by_contra hlt
        exact hzero (by rw [charAt, List.getD_eq_getElem?_getD,
          List.getElem?_eq_none (by omega), Option.getD_none])
      have hchar : charAt format index = format[index] := by
        rw [charAt, List.getD_eq_getElem?_getD, List.getElem?_eq_getElem hlt, Option.getD_some]
      rw [List.drop_eq_getElem_cons hlt, ← hchar, List.takeWhile_cons_of_pos (by simpa using hzero),
        List.mem_cons, not_or] at h
      rw [if_neg (Ne.symm h.1)]
      exact ih _ (by omega) h.2 rfl
    · rfl

namespace Literals

variable {lits : Literals}

/-- The conversion of "%s" is found, and those in the memory behind its zero. -/
theorem parseFormat_formatS :
    parseFormat lits.formatS = .string :: parseFrom lits.formatS maxFormatElements 3 1 := by
  have hformat : lits.formatS = '%' :: 's' :: '\x00' :: lits.behindS := rfl
  have hchars : charAt lits.formatS 0 = '%' ∧ charAt lits.formatS 1 = 's' := by
    simp [hformat, charAt]
  have hmodifier : skipOptions lits.formatS 1 = 1 ∧ lengthModifier lits.formatS 1 = (' ', 1) := by
    simp [hformat, skipOptions, skipDigits, lengthModifier, charAt]
  have hskip : skipChar lits.formatS 2 = 3 := by simp [hformat, skipChar, charAt]
  rw [parseFormat, parseFrom]
  simp [hchars, hmodifier, hskip, conversion, rsizeMaxStr, maxFormatElements]

/-- So it is with that of "%lu". -/
theorem parseFormat_formatLu :
    parseFormat lits.formatLu = .long :: parseFrom lits.formatLu maxFormatElements 4 1 := by
  have hformat : lits.formatLu = '%' :: 'l' :: 'u' :: '\x00' :: lits.behindLu := rfl
  have hchars : charAt lits.formatLu 0 = '%' ∧ charAt lits.formatLu 1 = 'l' ∧
      charAt lits.formatLu 2 = 'u' := by
    simp [hformat, charAt]
  have hmodifier : skipOptions lits.formatLu 1 = 1 ∧ lengthModifier lits.formatLu 1 = ('l', 2) := by
    simp [hformat, skipOptions, skipDigits, lengthModifier, charAt]
  have hskip : skipChar lits.formatLu 3 = 4 := by simp [hformat, skipChar, charAt]
  rw [parseFormat, parseFrom]
  simp [hchars, hmodifier, hskip, conversion, rsizeMaxStr, maxFormatElements]

/-- The memory is quiet if there is no `%` in front of its first zero. -/
theorem quietS_of_notMem (h : '%' ∉ lits.behindS.takeWhile (· ≠ '\x00')) : lits.QuietS :=
  parseFrom_eq_nil 1 h

theorem quietLu_of_notMem (h : '%' ∉ lits.behindLu.takeWhile (· ≠ '\x00')) : lits.QuietLu :=
  parseFrom_eq_nil 1 h

/-- A literal with quiet memory behind it is a format like any other. -/
theorem snprintfSS_of_quiet (h : lits.QuietS) (buf : List Char) (p : Int) (size : Nat)
    (s : List Char) : snprintfSS lits.formatS buf p size s = snprintfAt buf p size s := by
  rw [snprintfSS, snprintfS, parseFormat_formatS, h]
  rfl

theorem snprintfSL_of_quiet (h : lits.QuietLu) (buf : List Char) (p : Int) (size a : Nat) :
    snprintfSL lits.formatLu buf p size a = snprintfAt buf p size (printUnsigned a) := by
  rw [snprintfSL, snprintfS, parseFormat_formatLu, h]
  rfl

/-- A format with too many conversions empties the text at the pointer. -/
theorem snprintfS_of_cons {format : List Char} {t t' : FormatType} {ts : List FormatType}
    (h : parseFormat format = t :: t' :: ts) (expected : FormatType) (buf : List Char) (p : Int)
    (size : Nat) (text : List Char) :
    snprintfS format expected buf p size text =
      (do let buf ← terminate buf p; return (buf, -esbadfmt)) := by
  rw [snprintfS, h]

theorem snprintfSS_of_not_quiet (h : ¬ lits.QuietS) (buf : List Char) (p : Int) (size : Nat)
    (s : List Char) :
    snprintfSS lits.formatS buf p size s =
      (do let buf ← terminate buf p; return (buf, -esbadfmt)) := by
  obtain ⟨t, ts, hts⟩ := List.exists_cons_of_ne_nil h
  exact snprintfS_of_cons (parseFormat_formatS.trans (congrArg _ hts)) ..

theorem snprintfSL_of_not_quiet (h : ¬ lits.QuietLu) (buf : List Char) (p : Int) (size a : Nat) :
    snprintfSL lits.formatLu buf p size a =
      (do let buf ← terminate buf p; return (buf, -esbadfmt)) := by
  obtain ⟨t, ts, hts⟩ := List.exists_cons_of_ne_nil h
  exact snprintfS_of_cons (parseFormat_formatLu.trans (congrArg _ hts)) ..

/-- No helper writes in front of the buffer. -/
theorem snprintfSS_neg {p : Int} (hp : p < 0) (buf : List Char) (size : Nat) (s : List Char) :
    snprintfSS lits.formatS buf p size s = .error "write outside of the buffer" := by
  by_cases h : lits.QuietS
  · rw [snprintfSS_of_quiet h, snprintfAt, if_neg (by omega)]
  · rw [snprintfSS_of_not_quiet h, terminate, if_neg (by omega)]
    rfl

theorem snprintfSL_neg {p : Int} (hp : p < 0) (buf : List Char) (size a : Nat) :
    snprintfSL lits.formatLu buf p size a = .error "write outside of the buffer" := by
  by_cases h : lits.QuietLu
  · rw [snprintfSL_of_quiet h, snprintfAt, if_neg (by omega)]
  · rw [snprintfSL_of_not_quiet h, terminate, if_neg (by omega)]
    rfl

/-- The formats that a pedigree needs have quiet memory behind them: a single node is
written without "%s". -/
def Counted (lits : Literals) (chain : List Nat) : Prop :=
  lits.QuietLu ∧ (2 ≤ chain.length → lits.QuietS)

theorem Counted.parents {rank : Nat} {chain : List Nat} (h : lits.Counted (rank :: chain)) :
    lits.Counted chain :=
  ⟨h.1, fun hlen => h.2 (by rw [List.length_cons]; omega)⟩

/-- The pointer as the helpers see it. -/
def castPointer (r : List Char × Nat) : List Char × Int := (r.1, r.2)

/-- With quiet memory the helpers format as `snprintf` does. -/
theorem walkPedigreeNodes_eq {chain : List Nat} (h : lits.Counted chain) (buf : List Char)
    (p : Nat) :
    lits.walkPedigreeNodes buf p chain = (walkPedigreeNodesInto buf p chain).map castPointer := by
  have hat : ∀ (buf : List Char) (p : Nat) (text : List Char),
      snprintfAt buf p pedigreeBuffSize text =
        (snprintf buf p pedigreeBuffSize text).map castPointer := by
    intro buf p text
    rw [snprintfAt, if_pos (by omega), Int.toNat_natCast]
    cases snprintf buf p pedigreeBuffSize text <;> rfl
  induction chain generalizing buf p with
  | nil => rfl
  | cons rank parents ih =>
    cases parents with
    | nil =>
      rw [walkPedigreeNodes, walkPedigreeNodesInto, snprintfSL_of_quiet h.1, hat]
      cases snprintf buf p pedigreeBuffSize (printUnsigned rank) <;> rfl
    | cons q parents =>
      have hS : lits.QuietS := h.2 (by simp)
      rw [walkPedigreeNodes, walkPedigreeNodesInto, ih h.parents]
      · rcases walkPedigreeNodesInto buf p (q :: parents) with e | ⟨buf₁, p₁⟩
        · rfl
        · simp only [Except.map, castPointer, ok_bind]
          rw [snprintfSS_of_quiet hS, hat]
          rcases snprintf buf₁ p₁ pedigreeBuffSize ['_'] with e | ⟨buf₂, n₂⟩
          · rfl
          · simp only [Except.map, castPointer, ok_bind, ← Int.natCast_add]
            rw [snprintfSL_of_quiet h.1, hat]
            rcases snprintf buf₂ (p₁ + n₂) pedigreeBuffSize (printUnsigned rank) with e | ⟨buf₃, n₃⟩
            · rfl
            · simp [Except.map, castPointer]
      · exact List.cons_ne_nil q parents
      · exact List.cons_ne_nil q parents

/-- A single rank whose format is not counted as one is not formatted. -/
theorem walkPedigreeNodes_empty (h : ¬ lits.QuietLu) (rank : Nat) {buf : List Char}
    (hbuf : buf ≠ []) :
    lits.walkPedigreeNodes buf 0 [rank] = .ok (buf.set 0 '\x00', -esbadfmt) := by
  have hpos : 0 < buf.length := List.length_pos_iff.mpr hbuf
  rw [walkPedigreeNodes, snprintfSL_of_not_quiet h, terminate, if_pos (by omega)]
  rfl

/-- Behind the root the pointer moves to somewhere in front of the buffer, and the next
helper writes there. -/
theorem walkPedigreeNodes_pair {rank root : Nat} (hroot : root < 2 ^ 64)
    (h : ¬ lits.Counted [rank, root]) {buf : List Char} (hbuf : buf.length = pedigreeBuffSize) :
    lits.walkPedigreeNodes buf 0 [rank, root] = .error "write outside of the buffer" := by
  have hne : buf ≠ [] := List.length_pos_iff.mp (hbuf ▸ by decide)
  rw [walkPedigreeNodes]
  · by_cases hLu : lits.QuietLu
    · have hS : ¬ lits.QuietS := fun hS => h ⟨hLu, fun _ => hS⟩
      have hlen := printUnsigned_length_le hroot
      have hfits : (Replay.walkPedigreeNodes [root]).length < buf.length := by
        rw [hbuf]
        exact lt_of_le_of_lt hlen (by decide)
      have hinto := walkPedigreeNodesInto_eq (List.cons_ne_nil root []) (by simpa using hroot) [] buf
      rw [if_pos hfits, List.nil_append, List.length_nil, Nat.zero_add] at hinto
      have hcounted : lits.Counted [root] := ⟨hLu, by simp⟩
      have hwalk := walkPedigreeNodes_eq hcounted buf 0
      rw [hinto, Int.natCast_zero] at hwalk
      rw [hwalk]
      simp only [Except.map, castPointer, ok_bind]
      rw [snprintfSS_of_not_quiet hS, terminate]
      split
      · simp only [ok_bind, pure_eq]
        rw [snprintfSL_neg (by simp only [Replay.walkPedigreeNodes, esbadfmt]; omega)]
        rfl
      · rfl
    · rw [walkPedigreeNodes_empty hLu root hne]
      simp only [ok_bind]
      rw [snprintfSS_neg (by unfold esbadfmt; omega)]
      rfl
  · exact List.cons_ne_nil root []

/--
The pedigree of a node with a parent is not formatted at all when one of its formats is
not counted as one. The induction is on the chain; it ends with the child of the root.
-/
theorem walkPedigreeNodes_error {chain : List Nat} (hlen : 2 ≤ chain.length)
    (hranks : ∀ rank ∈ chain, rank < 2 ^ 64) (h : ¬ lits.Counted chain) {buf : List Char}
    (hbuf : buf.length = pedigreeBuffSize) :
    lits.walkPedigreeNodes buf 0 chain = .error "write outside of the buffer" := by
  induction chain with
  | nil => simp at hlen
  | cons rank parents ih =>
    cases parents with
    | nil => simp at hlen
    | cons q parents =>
      cases parents with
      | nil => exact walkPedigreeNodes_pair (hranks q (by simp)) h hbuf
      | cons r parents =>
        rw [walkPedigreeNodes, ih (by simp) (fun rank hrank => hranks rank (.tail _ hrank))
          (fun hc => h ⟨hc.1, fun _ => hc.2 (by simp)⟩)]
        · rfl
        · exact List.cons_ne_nil q _

end Literals

end SwanRuntime.Replay
