import SwanRuntime.Replay.RoundTrip

/-!
# Replay logs — the buffers

A pedigree is formatted into a buffer of `PEDIGREE_BUFF_SIZE` bytes on the stack
of the writer. The reader has four sizes of its own: that of the word for the type,
that of the word for the pedigree, the number of terms, and the line by which the
entries are counted before they are loaded. The helpers of the writer format as
`snprintf` does.

A write outside of a buffer is an error, as a failed assertion is. The fatal
errors of the reader do not return: its result is then `none`.

## Results

* `writerInBounds_iff`         — when the writer stays inside its buffer.
* `loadEntries_written`        — lines that fit are loaded one entry each.
* `countEntries_written`       — and counted once each.
* `readerInBounds_iff`         — when the reader stays inside its buffers.
* `replayBuffers_iff`          — both.
-/

namespace SwanRuntime.Replay

open Text Checked

-- ---------------------------------------------------------------------------
-- Counting
-- ---------------------------------------------------------------------------

/-- `fgets`, of at most so many characters: the line and the rest of the text. -/
def fgets : Nat → List Char → List Char × List Char
  | 0, cs => ([], cs)
  | _ + 1, [] => ([], [])
  | n + 1, c :: cs =>
    if c = '\n' then ([c], cs)
    else (c :: (fgets n cs).1, (fgets n cs).2)

theorem fgets_length (n : Nat) (cs : List Char) : (fgets n cs).2.length ≤ cs.length := by
  induction cs generalizing n with
  | nil => cases n <;> simp [fgets]
  | cons c cs ih =>
    cases n with
    | zero => simp [fgets]
    | succ n =>
      have hn := ih n
      rw [fgets]
      split
      · simp
      · simp only [List.length_cons]
        omega

/-- A character is read at least. -/
theorem fgets_cons_length (n : Nat) (c : Char) (cs : List Char) :
    (fgets (n + 1) (c :: cs)).2.length < (c :: cs).length := by
  have hlen := fgets_length n cs
  rw [fgets]
  split
  · simp
  · simp only [List.length_cons]
    omega

/-- The size of `buf`. -/
def lineBuffSize : Nat := 1024

/-- The loop of `allocate_replay_list`: the lines read that are not a `Workers`
record. -/
def countEntries : List Char → Nat
  | [] => 0
  | c :: cs =>
    (if pedTypeStrWorkers.isPrefixOf (fgets (lineBuffSize - 1) (c :: cs)).1 then 0 else 1) +
      countEntries (fgets (lineBuffSize - 1) (c :: cs)).2
termination_by cs => cs.length
decreasing_by exact fgets_cons_length 1022 c cs

-- ---------------------------------------------------------------------------
-- Loading
-- ---------------------------------------------------------------------------

/-- `PED_TYPE_SIZE`. -/
def pedTypeSize : Nat := 16

/-- The length of `temp_pedigree`. -/
def tempPedigreeSize : Nat := pedigreeBuffSize / 2

/-- `fscanf` into `ped_type` and `ped_str`: a word is stored with a zero. -/
def scanRecordInto (file : List Char) : Checked (Record × List Char) := do
  let (type, rest) := scanWord file
  assert (type.length + 1 ≤ pedTypeSize) "write outside of ped_type"
  let (pedigree, _) := scanWord rest
  assert (pedigree.length + 1 ≤ pedigreeBuffSize) "write outside of ped_str"
  scanRecord file

/-- The loop of `load` over the terms, `n` of which are stored in
`temp_pedigree`; `n` is `m_pedigree_len`, of 16 bits. -/
def loadTermsInto (n : Nat) (cs : List Char) : Checked (List Nat) :=
  if ¬ n < tempPedigreeSize then .error "write outside of temp_pedigree"
  else if ¬ n + 1 < 2 ^ 15 then .error "m_pedigree_len wraps"
  else
    match _h : (strtol cs).2 with
    | [] => .ok [((strtol cs).1 % 2 ^ 64).toNat]
    | _ :: rest => do
      return ((strtol cs).1 % 2 ^ 64).toNat :: (← loadTermsInto (n + 1) rest)
termination_by cs.length
decreasing_by
  have hlen := strtol_length cs
  rw [_h] at hlen
  exact hlen

/-- `replay_entry_t::load`, with `temp_pedigree`. -/
def loadInto (type pedigree : List Char) (value1 : Int) : Checked ReplayEntry :=
  match loadType type with
  | .unknown => return load type pedigree value1
  | _ => do
    let _ ← loadTermsInto 0 pedigree
    return load type pedigree value1

theorem scanRecord_length {file rest : List Char} {r : Record}
    (h : scanRecord file = .ok (r, rest)) : rest.length < file.length := by
  have htype := scanWord_length file
  have hpedigree := scanWord_length (scanWord file).2
  simp only [scanRecord] at h
  split at h
  · cases h
  · rename_i i1 line₁ h₁
    split at h
    · cases h
    · rename_i i2 line₂ h₂
      split at h
      · cases h
      · rename_i hne
        have hpos : 0 < (scanWord file).1.length :=
          List.length_pos_iff.mpr fun hnil => hne (.inl hnil)
        have hlen₁ := scanInt_length h₁
        have hlen₂ := scanInt_length h₂
        have hskip := (List.dropWhile_suffix isSpace (l := line₂)).length_le
        obtain ⟨-, rfl⟩ := Prod.mk.inj (Except.ok.inj h)
        omega

theorem scanRecordInto_length {file rest : List Char} {r : Record}
    (h : scanRecordInto file = .ok (r, rest)) : rest.length < file.length := by
  obtain ⟨-, -, h⟩ := bind_eq_ok.mp h
  obtain ⟨-, -, h⟩ := bind_eq_ok.mp h
  exact scanRecord_length h

/-- The loop of `load_recorded_log` on what is left of the file, with `P` workers
and an array of so many entries, the last of which is stored already. -/
def loadEntries (P : Int) (entries : Nat) (loaded : List ReplayEntry) (file : List Char) :
    Checked (Option (List ReplayEntry)) :=
  if file.dropWhile isSpace = [] then
    if loaded.length + 1 = entries then .ok (some (loaded ++ [⟨[], .last, 0, 0⟩]))
    else .error "ped_type_last == entry->m_type"
  else
    match _h : scanRecordInto file with
    | .error text => .error text
    | .ok (r, rest) =>
      if r.type = pedTypeStrWorkers then
        if r.i1 ≠ P ∨ pedVersion ≠ r.i2 then .ok none
        else loadEntries P entries loaded rest
      else
        if ¬ loaded.length < entries then .error "write outside of replay_list_root"
        else
          match loadInto r.type r.pedigree r.i1 with
          | .error text => .error text
          | .ok entry => loadEntries P entries (loaded ++ [entry]) rest
termination_by file.length
decreasing_by all_goals exact scanRecordInto_length _h

/-- `allocate_replay_list` and `load_recorded_log`: the entries, unless a fatal
error is reported. -/
def loadRecordedLogFrom (P : Int) (file : List Char) : Checked (Option (List ReplayEntry)) :=
  loadEntries P (countEntries file + 1) [] file

-- ---------------------------------------------------------------------------
-- What is logged
-- ---------------------------------------------------------------------------

/-- A pedigree: the ranks from the leaf to the root. -/
structure Pedigree where
  ranks  : List UInt64
  ne_nil : ranks ≠ []

/-- The chain of nodes. -/
def Pedigree.chain (p : Pedigree) : List Nat := p.ranks.map UInt64.toNat

/-- A line of a log: the number of workers, which starts the log of one of them,
or a record. -/
inductive LogLine
  | workers (P : Int32)
  | record (type : { type : PedType // type.Recorded }) (pedigree : Pedigree) (i1 i2 : Int32)

/-- What `write_to_replay_log` writes. -/
def LogLine.text : LogLine → List Char
  | .workers P =>
    pedTypeStrWorkers ++ ' ' :: ['0'] ++ ' ' :: printInt P.toInt ++ ' ' :: printInt pedVersion ++
      ['\n']
  | .record type p i1 i2 => writeToReplayLog type.val p.chain i1.toInt i2.toInt

/-- A file of such lines. -/
def fileOf (lines : List LogLine) : List Char := lines.flatMap LogLine.text

theorem fileOf_cons (line : LogLine) (lines : List LogLine) :
    fileOf (line :: lines) = line.text ++ fileOf lines := List.flatMap_cons

theorem fileOf_append (lines lines' : List LogLine) :
    fileOf (lines ++ lines') = fileOf lines ++ fileOf lines' := List.flatMap_append

/-- No write of `walk_pedigree_nodes` falls outside of the buffer. -/
def WriterInBounds (p : Pedigree) : Prop :=
  ∀ buf : List Char, buf.length = pedigreeBuffSize →
    ∃ r, walkPedigreeNodesInto buf 0 p.chain = .ok r

/-- No write of the reader falls outside of a buffer or wraps, and the entries
counted are the entries loaded, the last one included. -/
def ReaderInBounds (P : Int) (lines : List LogLine) : Prop :=
  ∃ r, loadRecordedLogFrom P (fileOf lines) = .ok r ∧
    ∀ entries, r = some entries → entries.length = countEntries (fileOf lines) + 1

/-- A line at which the reader goes on. -/
def LogLine.accepted (P : Int) : LogLine → Bool
  | .workers P' => P'.toInt = P
  | .record .. => true

/-- The pedigree of the line fits. -/
def LogLine.Fits : LogLine → Prop
  | .workers _ => True
  | .record _ p _ _ => Replay.Fits p.chain

-- ---------------------------------------------------------------------------
-- The writer
-- ---------------------------------------------------------------------------

namespace Pedigree

variable (p : Pedigree)

theorem chain_ne_nil : p.chain ≠ [] := fun h => p.ne_nil (List.map_eq_nil_iff.mp h)

theorem lt_of_mem_chain {rank : Nat} (h : rank ∈ p.chain) : rank < 2 ^ 64 := by
  obtain ⟨r, -, rfl⟩ := List.mem_map.mp h
  exact r.toNat_lt

end Pedigree

/-- What the buffer holds is the pedigree that `writeToReplayLog` writes. -/
theorem walkPedigreeNodesInto_buffer (p : Pedigree) {buf : List Char}
    (hbuf : buf.length = pedigreeBuffSize) (hfits : Fits p.chain) :
    walkPedigreeNodesInto buf 0 p.chain =
      .ok (walkPedigreeNodes p.chain ++ '\x00' :: buf.drop ((walkPedigreeNodes p.chain).length + 1),
        (walkPedigreeNodes p.chain).length) := by
  have hwalk := walkPedigreeNodesInto_eq p.chain_ne_nil (fun _ => p.lt_of_mem_chain) [] buf
  rw [if_pos (hbuf ▸ hfits)] at hwalk
  simpa using hwalk

/-- The writer stays inside its buffer iff the pedigree and its zero fit it. -/
theorem writerInBounds_iff (p : Pedigree) : WriterInBounds p ↔ Fits p.chain := by
  constructor
  · intro h
    obtain ⟨r, hr⟩ := h (List.replicate pedigreeBuffSize '\x00') List.length_replicate
    have hwalk := walkPedigreeNodesInto_eq p.chain_ne_nil (fun _ => p.lt_of_mem_chain) []
      (List.replicate pedigreeBuffSize '\x00')
    by_contra hfits
    rw [if_neg (by rwa [List.length_replicate])] at hwalk
    exact nomatch hr.symm.trans hwalk
  · intro hfits buf hbuf
    exact ⟨_, walkPedigreeNodesInto_buffer p hbuf hfits⟩

-- ---------------------------------------------------------------------------
-- The lines
-- ---------------------------------------------------------------------------

theorem printInt_length {i : Int32} : (printInt i.toInt).length ≤ 11 := by
  have hlt := i.toInt_lt
  have hle := i.le_toInt
  have hdigits : (printUnsigned i.toInt.natAbs).length ≤ 10 :=
    (Nat.length_toDigits_le_iff (by omega) (by omega)).mpr (by omega)
  unfold printInt
  split
  · rw [List.length_cons]
    omega
  · omega

theorem ne_newline_of_mem_printInt {i : Int} {c : Char} (h : c ∈ printInt i) : c ≠ '\n' := by
  have hdigit : ∀ d : Char, d.isDigit = true → d ≠ '\n' := by
    rintro d hd rfl
    exact absurd hd (by decide)
  unfold printInt at h
  split at h
  · rcases List.mem_cons.mp h with rfl | h
    · decide
    · exact hdigit c (isDigit_of_mem_printUnsigned h)
  · exact hdigit c (isDigit_of_mem_printUnsigned h)

theorem ne_newline_of_word {word : List Char} (h : ∀ c ∈ word, isSpace c = false) {c : Char}
    (hc : c ∈ word) : c ≠ '\n' := by
  rintro rfl
  exact absurd (h _ hc) (by decide)

namespace LogLine

variable (line : LogLine)

/-- The fields of the line. -/
def fields : LogLine → Record
  | workers P => ⟨pedTypeStrWorkers, ['0'], P.toInt, pedVersion⟩
  | record type p i1 i2 => ⟨type.val.str, walkPedigreeNodes p.chain, i1.toInt, i2.toInt⟩

/-- The entry of the line. -/
def entry : LogLine → Option ReplayEntry
  | workers _ => none
  | record type p i1 _ => some (load type.val.str (walkPedigreeNodes p.chain) i1.toInt)

/-- The line up to its end. -/
def body : List Char :=
  line.fields.type ++ ' ' :: line.fields.pedigree ++ ' ' :: printInt line.fields.i1 ++
    ' ' :: printInt line.fields.i2

theorem text_eq : line.text = line.body ++ ['\n'] := by
  cases line with
  | workers P => rfl
  | record type p i1 i2 => simp [text, body, fields, writeToReplayLog, p.chain_ne_nil]

theorem type_word :
    line.fields.type ≠ [] ∧ (∀ c ∈ line.fields.type, isSpace c = false) ∧
      line.fields.type.length ≤ 8 := by
  cases line with
  | workers P =>
    have hword : pedTypeStrWorkers.isEmpty = false ∧
        (pedTypeStrWorkers.all fun c => !isSpace c) = true := by decide
    exact ⟨List.isEmpty_eq_false_iff.mp hword.1,
      fun c hc => Bool.not_eq_true' _ |>.mp (List.all_eq_true.mp hword.2 c hc),
      show pedTypeStrWorkers.length ≤ 8 by decide⟩
  | record type p i1 i2 =>
    obtain ⟨type, htype⟩ := type
    have hlen : type.str.length ≤ 8 := by
      rcases htype with rfl | rfl | rfl <;> decide
    exact ⟨(PedType.str_word htype).1, (PedType.str_word htype).2, hlen⟩

theorem pedigree_word :
    line.fields.pedigree ≠ [] ∧ ∀ c ∈ line.fields.pedigree, isSpace c = false := by
  cases line with
  | workers P =>
    refine ⟨List.cons_ne_nil _ _, fun c hc => ?_⟩
    rw [List.mem_singleton.mp hc]
    decide
  | record type p i1 i2 =>
    exact ⟨walkPedigreeNodes_ne_nil p.chain_ne_nil, fun _ => isSpace_of_mem_walkPedigreeNodes⟩

theorem fits_iff : line.Fits ↔ line.fields.pedigree.length + 1 ≤ pedigreeBuffSize := by
  cases line with
  | workers P => simp [Fits, fields, pedigreeBuffSize]
  | record type p i1 i2 => exact Iff.rfl

theorem int_length :
    (printInt line.fields.i1).length ≤ 11 ∧ (printInt line.fields.i2).length ≤ 11 := by
  cases line with
  | workers P => exact ⟨printInt_length, show (printInt pedVersion).length ≤ 11 by decide⟩
  | record type p i1 i2 => exact ⟨printInt_length, printInt_length⟩

/-- A line that fits is read by one call of `fgets`. -/
theorem body_length (h : line.Fits) : line.body.length < lineBuffSize - 1 := by
  have htype := line.type_word.2.2
  have hpedigree := line.fits_iff.mp h
  have hint := line.int_length
  simp only [body, List.length_append, List.length_cons, lineBuffSize, pedigreeBuffSize]
    at hpedigree ⊢
  omega

theorem newline_not_mem_body : '\n' ∉ line.body := by
  intro h
  simp only [body, List.mem_append, List.mem_cons] at h
  rcases h with ((h | h | h) | h | h) | h | h
  · exact ne_newline_of_word line.type_word.2.1 h rfl
  · exact absurd h (by decide)
  · exact ne_newline_of_word line.pedigree_word.2 h rfl
  · exact absurd h (by decide)
  · exact ne_newline_of_mem_printInt h rfl
  · exact absurd h (by decide)
  · exact ne_newline_of_mem_printInt h rfl

/-- Only the `Workers` record starts with its type. -/
theorem isPrefixOf_text :
    pedTypeStrWorkers.isPrefixOf line.text = line.entry.isNone := by
  cases line with
  | workers P => rfl
  | record type p i1 i2 =>
    obtain ⟨type, htype⟩ := type
    rcases htype with rfl | rfl | rfl <;> rfl

end LogLine

/-- A file does not start with white space. -/
theorem dropWhile_fileOf (lines : List LogLine) :
    (fileOf lines).dropWhile isSpace = fileOf lines := by
  cases lines with
  | nil => rfl
  | cons line lines =>
    obtain ⟨c, cs, htype⟩ := List.exists_cons_of_ne_nil line.type_word.1
    have hc : isSpace c = false := line.type_word.2.1 c (by rw [htype]; exact List.mem_cons_self)
    simp [fileOf, line.text_eq, LogLine.body, htype, hc]

-- ---------------------------------------------------------------------------
-- Counting
-- ---------------------------------------------------------------------------

/-- `fgets` reads a line that is not too long. -/
theorem fgets_line {line : List Char} (hline : '\n' ∉ line) {n : Nat} (hlen : line.length < n)
    (rest : List Char) : fgets n (line ++ '\n' :: rest) = (line ++ ['\n'], rest) := by
  induction line generalizing n with
  | nil =>
    obtain ⟨n, rfl⟩ := Nat.exists_eq_succ_of_ne_zero (Nat.ne_of_gt hlen)
    rfl
  | cons c line ih =>
    rw [List.mem_cons, not_or] at hline
    rw [List.length_cons] at hlen
    obtain ⟨n, rfl⟩ := Nat.exists_eq_succ_of_ne_zero (Nat.ne_of_gt (Nat.zero_lt_of_lt hlen))
    rw [List.cons_append, fgets, if_neg (fun h => hline.1 h.symm), ih hline.2 (by omega)]
    rfl

/-- A line that fits is counted once, unless it is the `Workers` record. -/
theorem countEntries_line (line : LogLine) (h : line.Fits) (rest : List Char) :
    countEntries (line.text ++ rest) = line.entry.toList.length + countEntries rest := by
  have hfgets : fgets (lineBuffSize - 1) (line.text ++ rest) = (line.text, rest) := by
    rw [line.text_eq, List.append_assoc, List.singleton_append,
      fgets_line line.newline_not_mem_body (line.body_length h)]
  obtain ⟨c, cs, htext⟩ : ∃ c cs, line.text ++ rest = c :: cs :=
    List.exists_cons_of_ne_nil (by simp [line.text_eq])
  rw [htext, countEntries, ← htext, hfgets, line.isPrefixOf_text]
  cases line.entry <;> rfl

/-- The lines that fit are counted in front of the rest. -/
theorem countEntries_written {lines : List LogLine} (h : ∀ line ∈ lines, line.Fits)
    (rest : List Char) :
    countEntries (fileOf lines ++ rest) =
      (lines.filterMap LogLine.entry).length + countEntries rest := by
  induction lines with
  | nil => simp [fileOf]
  | cons line lines ih =>
    have hih := ih fun l hl => h l (List.mem_cons_of_mem line hl)
    have hline := countEntries_line line (h line List.mem_cons_self) (fileOf lines ++ rest)
    rw [fileOf_cons, List.append_assoc, hline, hih, List.filterMap_cons]
    cases line.entry with
    | none => simp
    | some e =>
      simp only [Option.toList_some, List.length_cons, List.length_nil]
      omega

-- ---------------------------------------------------------------------------
-- Loading
-- ---------------------------------------------------------------------------

theorem loadTerms_of_nil {cs : List Char} (h : (strtol cs).2 = []) :
    loadTerms cs = [((strtol cs).1 % 2 ^ 64).toNat] := by
  rw [loadTerms]
  split
  · rfl
  · rename_i h'
    exact nomatch h.symm.trans h'

theorem loadTerms_of_cons {cs rest : List Char} {c : Char} (h : (strtol cs).2 = c :: rest) :
    loadTerms cs = ((strtol cs).1 % 2 ^ 64).toNat :: loadTerms rest := by
  rw [loadTerms]
  split
  · rename_i h'
    exact nomatch h.symm.trans h'
  · rename_i h'
    rw [(List.cons.inj (h.symm.trans h')).2]

/-- So many terms are stored as fit. -/
theorem loadTermsInto_eq (cs : List Char) (n : Nat)
    (h : n + (loadTerms cs).length ≤ tempPedigreeSize) :
    loadTermsInto n cs = .ok (loadTerms cs) := by
  induction cs using loadTerms.induct generalizing n with
  | case1 cs ih =>
    have hpos : 0 < (loadTerms cs).length := by
      rw [loadTerms, List.length_cons]
      exact Nat.succ_pos _
    have hn : n < tempPedigreeSize := by omega
    have hwrap : n + 1 < 2 ^ 15 := lt_of_le_of_lt hn (by decide)
    rw [loadTermsInto, if_neg (not_not.mpr hn), if_neg (not_not.mpr hwrap)]
    split
    · rename_i hrest
      rw [loadTerms_of_nil hrest]
    · rename_i c rest hrest
      rw [loadTerms_of_cons hrest] at h ⊢
      rw [List.length_cons] at h
      rw [ih c rest hrest (n + 1) (by omega)]
      rfl

/-- The pedigree of a line that fits has few enough terms. -/
theorem loadInto_written {p : Pedigree} (hfits : Fits p.chain) (type : List Char) (i1 : Int) :
    loadInto type (walkPedigreeNodes p.chain) i1 =
      .ok (load type (walkPedigreeNodes p.chain) i1) := by
  have hterms : (loadTerms (walkPedigreeNodes p.chain)).length = p.chain.length := by
    rw [loadTerms_walkPedigreeNodes p.chain_ne_nil, List.length_reverse, List.length_map]
  have hlen := length_le_walkPedigreeNodes p.chain
  have hinto := loadTermsInto_eq (walkPedigreeNodes p.chain) 0 (by
    unfold Fits at hfits
    simp only [tempPedigreeSize, pedigreeBuffSize] at hfits ⊢
    omega)
  unfold loadInto
  split
  · rfl
  · rw [hinto]
    rfl

namespace LogLine

variable (line : LogLine)

/-- A line is scanned iff it fits. -/
theorem scanRecordInto_text (rest : List Char) :
    scanRecordInto (line.text ++ rest) =
      if line.fields.pedigree.length + 1 ≤ pedigreeBuffSize then
        .ok (line.fields, rest.dropWhile isSpace)
      else .error "write outside of ped_str" := by
  have hhead : ∀ (cs : List Char) (c : Char), (' ' :: cs).head? = some c → isSpace c = true := by
    rintro cs c hc
    obtain rfl := Option.some.inj hc
    decide
  have hspace : isSpace ' ' = true := by decide
  have hscan := scanRecord_line line.type_word.1 line.type_word.2.1 line.pedigree_word.1
    line.pedigree_word.2 line.fields.i1 line.fields.i2 rest
  have htext : line.text ++ rest = line.fields.type ++ ' ' :: line.fields.pedigree ++
      ' ' :: printInt line.fields.i1 ++ ' ' :: printInt line.fields.i2 ++ '\n' :: rest := by
    simp [line.text_eq, body]
  have htype : scanWord (line.text ++ rest) = (line.fields.type, ' ' :: (line.fields.pedigree ++
      ' ' :: (printInt line.fields.i1 ++ ' ' :: (printInt line.fields.i2 ++ '\n' :: rest)))) := by
    rw [← scanWord_append line.type_word.1 line.type_word.2.1 (hhead _)]
    simp [line.text_eq, body]
  have hpedigree : ∀ cs, scanWord (' ' :: (line.fields.pedigree ++ ' ' :: cs)) =
      (line.fields.pedigree, ' ' :: cs) := by
    intro cs
    rw [scanWord_space hspace,
      scanWord_append line.pedigree_word.1 line.pedigree_word.2 (hhead _)]
  have hfits : line.fields.type.length + 1 ≤ pedTypeSize := by
    have hlen := line.type_word.2.2
    unfold pedTypeSize
    omega
  simp only [scanRecordInto, htype, hpedigree, hfits, decide_true, assert_true, ok_bind]
  by_cases h : line.fields.pedigree.length + 1 ≤ pedigreeBuffSize
  · simp only [h, decide_true, assert_true, ok_bind, if_true]
    rw [htext, hscan]
  · simp [h]

end LogLine

/-- One line that fits and is accepted. -/
theorem loadEntries_line {P : Int} {entries : Nat} {loaded : List ReplayEntry} {line : LogLine}
    (hfits : line.Fits) (hacc : line.accepted P = true)
    (hroom : (loaded ++ line.entry.toList).length ≤ entries) (lines : List LogLine) :
    loadEntries P entries loaded (line.text ++ fileOf lines) =
      loadEntries P entries (loaded ++ line.entry.toList) (fileOf lines) := by
  have hscan := line.scanRecordInto_text (fileOf lines)
  rw [if_pos (line.fits_iff.mp hfits), dropWhile_fileOf] at hscan
  have hne : (line.text ++ fileOf lines).dropWhile isSpace ≠ [] := by
    have hdrop := dropWhile_fileOf (line :: lines)
    rw [fileOf_cons] at hdrop
    rw [hdrop, line.text_eq]
    simp
  rw [loadEntries, if_neg hne]
  split
  · rename_i herr
    exact nomatch hscan.symm.trans herr
  · rename_i r rest hok
    obtain ⟨rfl, rfl⟩ := Prod.mk.inj (Except.ok.inj (hscan.symm.trans hok))
    cases line with
    | workers P' =>
      have hP : P'.toInt = P := of_decide_eq_true hacc
      simp [LogLine.fields, LogLine.entry, hP]
    | record type p i1 i2 =>
      obtain ⟨type, htype⟩ := type
      have hworkers : type.str ≠ pedTypeStrWorkers := by
        rcases htype with rfl | rfl | rfl <;> decide
      have hlt : loaded.length < entries := by
        rw [List.length_append] at hroom
        exact hroom
      simp [LogLine.fields, LogLine.entry, hworkers, loadInto_written hfits, hlt]

/-- The lines that fit and are accepted are loaded one entry each. -/
theorem loadEntries_written {P : Int} {entries : Nat} {lines : List LogLine}
    (h : ∀ line ∈ lines, line.accepted P = true ∧ line.Fits) {loaded : List ReplayEntry}
    (hroom : (loaded ++ lines.filterMap LogLine.entry).length ≤ entries) (rest : List LogLine) :
    loadEntries P entries loaded (fileOf lines ++ fileOf rest) =
      loadEntries P entries (loaded ++ lines.filterMap LogLine.entry) (fileOf rest) := by
  induction lines generalizing loaded with
  | nil => simp [fileOf]
  | cons line lines ih =>
    obtain ⟨hacc, hfits⟩ := h line List.mem_cons_self
    have hentry : loaded ++ (line :: lines).filterMap LogLine.entry =
        loaded ++ line.entry.toList ++ lines.filterMap LogLine.entry := by
      cases hline : line.entry with
      | none => simp [hline]
      | some e => simp [hline]
    rw [hentry] at hroom ⊢
    have hroom' : (loaded ++ line.entry.toList).length ≤ entries := by
      rw [List.length_append] at hroom
      omega
    rw [fileOf_cons, List.append_assoc, ← fileOf_append, loadEntries_line hfits hacc hroom',
      fileOf_append, ih (fun l hl => h l (List.mem_cons_of_mem line hl)) hroom]

/-- The reader stops at a number of workers that is not its own. -/
theorem loadEntries_rejected {P : Int} {line : LogLine} (h : line.accepted P = false)
    (entries : Nat) (loaded : List ReplayEntry) (lines : List LogLine) :
    loadEntries P entries loaded (fileOf (line :: lines)) = .ok none := by
  have hscan := line.scanRecordInto_text (fileOf lines)
  have hdrop := dropWhile_fileOf (line :: lines)
  have hfile := fileOf_cons line lines
  cases line with
  | workers P' =>
    have hP : P'.toInt ≠ P := of_decide_eq_false h
    have hfits : (LogLine.workers P').Fits := trivial
    rw [if_pos ((LogLine.fits_iff _).mp hfits), dropWhile_fileOf] at hscan
    rw [loadEntries, if_neg (by rw [hdrop, hfile, LogLine.text_eq]; simp), hfile]
    split
    · rename_i herr
      exact nomatch hscan.symm.trans herr
    · rename_i r rest hok
      obtain ⟨rfl, rfl⟩ := Prod.mk.inj (Except.ok.inj (hscan.symm.trans hok))
      simp [LogLine.fields, hP]
  | record type p i1 i2 => exact nomatch h

/-- A pedigree that does not fit is written outside of `ped_str`. -/
theorem loadEntries_overflow {P : Int} {line : LogLine} (h : ¬ line.Fits)
    (entries : Nat) (loaded : List ReplayEntry) (lines : List LogLine) :
    loadEntries P entries loaded (fileOf (line :: lines)) =
      .error "write outside of ped_str" := by
  have hscan := line.scanRecordInto_text (fileOf lines)
  have hdrop := dropWhile_fileOf (line :: lines)
  have hfile := fileOf_cons line lines
  rw [if_neg (fun hfits => h (line.fits_iff.mpr hfits))] at hscan
  rw [loadEntries, if_neg (by rw [hdrop, hfile, LogLine.text_eq]; simp), hfile]
  split
  · rename_i herr
    rw [← Except.error.inj (hscan.symm.trans herr)]
  · rename_i r rest hok
    exact nomatch hscan.symm.trans hok

/-- At the end of the file all entries must be loaded. -/
theorem loadEntries_end {P : Int} {entries : Nat} {loaded : List ReplayEntry}
    (h : loaded.length + 1 = entries) :
    loadEntries P entries loaded (fileOf []) = .ok (some (loaded ++ [⟨[], .last, 0, 0⟩])) := by
  rw [loadEntries, if_pos (by simp [fileOf]), if_pos h]

/-- The reader gets as far as the first line that it does not accept or that does
not fit, or to the end. -/
theorem lines_split (P : Int) (lines : List LogLine) :
    (∀ line ∈ lines, line.accepted P = true ∧ line.Fits) ∨
      ∃ front line rest, lines = front ++ line :: rest ∧
        (∀ l ∈ front, l.accepted P = true ∧ l.Fits) ∧
        ¬ (line.accepted P = true ∧ line.Fits) := by
  induction lines with
  | nil => exact .inl nofun
  | cons line lines ih =>
    by_cases hline : line.accepted P = true ∧ line.Fits
    · rcases ih with hall | ⟨front, l, rest, rfl, hfront, hl⟩
      · exact .inl (List.forall_mem_cons.mpr ⟨hline, hall⟩)
      · exact .inr ⟨line :: front, l, rest, rfl, List.forall_mem_cons.mpr ⟨hline, hfront⟩, hl⟩
    · exact .inr ⟨[], line, lines, rfl, nofun, hline⟩

/-- The reader stays inside its buffers, and counts what it loads, iff every
pedigree that it reads fits. -/
theorem readerInBounds_iff (P : Int) (lines : List LogLine) :
    ReaderInBounds P lines ↔ ∀ line ∈ lines.takeWhile (·.accepted P), line.Fits := by
  -- every line is read, or there is a first one that is rejected or too long
  rcases lines_split P lines with hall | ⟨front, line, rest, rfl, hfront, hline⟩
  · have hcount := countEntries_written (fun l hl => (hall l hl).2) []
    have hnil : countEntries [] = 0 := by rw [countEntries]
    rw [List.append_nil, hnil, Nat.add_zero] at hcount
    have hroom : ([] ++ lines.filterMap LogLine.entry).length ≤ countEntries (fileOf lines) + 1 := by
      rw [hcount, List.nil_append]
      exact Nat.le_succ _
    have hload := loadEntries_written hall hroom []
    have hfile : fileOf lines ++ fileOf [] = fileOf lines := List.append_nil _
    rw [List.nil_append, loadEntries_end (by rw [hcount]), hfile] at hload
    refine ⟨fun _ line hline => (hall line (List.takeWhile_subset _ hline)).2, fun _ => ?_⟩
    refine ⟨_, hload, ?_⟩
    rintro entries hentries
    rw [← Option.some.inj hentries, hcount, List.length_append, List.length_singleton]
  · have hfile := fileOf_append front (line :: rest)
    have hcount := countEntries_written (fun l hl => (hfront l hl).2) (fileOf (line :: rest))
    have hroom : ([] ++ front.filterMap LogLine.entry).length ≤
        countEntries (fileOf (front ++ line :: rest)) + 1 := by
      rw [hfile, hcount, List.nil_append]
      omega
    have hload := loadEntries_written hfront hroom (line :: rest)
    rw [← hfile] at hload
    have htake : (front ++ line :: rest).takeWhile (·.accepted P) =
        front ++ (line :: rest).takeWhile (·.accepted P) :=
      List.takeWhile_append_of_pos fun l hl => (hfront l hl).1
    -- the line is too long for the buffer, or it ends the loop
    by_cases hacc : line.accepted P = true
    · have hfits : ¬ line.Fits := fun h => hline ⟨hacc, h⟩
      rw [loadEntries_overflow hfits] at hload
      constructor
      · rintro ⟨r, hr, -⟩
        exact nomatch hload.symm.trans hr
      · intro h
        refine absurd (h line ?_) hfits
        rw [htake, List.takeWhile_cons_of_pos hacc]
        exact List.mem_append_right _ List.mem_cons_self
    · rw [loadEntries_rejected (eq_false_of_ne_true hacc)] at hload
      refine ⟨fun _ l hl => ?_, fun _ => ⟨none, hload, nofun⟩⟩
      rw [htake, List.takeWhile_cons_of_neg hacc, List.append_nil] at hl
      exact (hfront l hl).2

-- ---------------------------------------------------------------------------
-- Results
-- ---------------------------------------------------------------------------

/-- The writer stays inside its buffer, and the reader inside of its own, iff the
pedigrees fit `PEDIGREE_BUFF_SIZE` with their zero. -/
theorem replayBuffers_iff (p : Pedigree) (P : Int) (lines : List LogLine) :
    (WriterInBounds p ↔ Fits p.chain) ∧
      (ReaderInBounds P lines ↔ ∀ line ∈ lines.takeWhile (·.accepted P), line.Fits) :=
  ⟨writerInBounds_iff p, readerInBounds_iff P lines⟩

/-- A strand 257 spawns deep. -/
def deepPedigree : Pedigree := ⟨List.replicate 257 0, List.cons_ne_nil _ _⟩

theorem deepPedigree_not_fits : ¬ Fits deepPedigree.chain := by
  have hlen := length_le_walkPedigreeNodes deepPedigree.chain
  have hchain : deepPedigree.chain.length = 257 := by
    rw [Pedigree.chain, List.length_map]
    exact List.length_replicate
  unfold Fits pedigreeBuffSize
  omega

/-- Its pedigree is written outside of the buffer, and so is it when the log is
read. -/
theorem deepPedigree_overflows : ¬ WriterInBounds deepPedigree ∧
    ¬ ReaderInBounds 2 [.workers 2, .record ⟨.sync, .inr (.inl rfl)⟩ deepPedigree (-1) (-1)] := by
  refine ⟨fun h => deepPedigree_not_fits ((writerInBounds_iff _).mp h), fun h => ?_⟩
  exact deepPedigree_not_fits ((readerInBounds_iff _ _).mp h _
    (List.mem_cons_of_mem _ List.mem_cons_self))

end SwanRuntime.Replay
