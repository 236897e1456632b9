import SwanRuntime.Replay.Formats

/-!
# Replay logs — reading back what was written

Ranks are written as unsigned 64-bit numbers and read by `strtol`, which clamps
them to a signed `long`; victims are stored in 16 bits. The helpers that format a
pedigree count conversions in the memory behind their formats. What is read back
accepts exactly what was recorded as long as nothing is clamped or cut, and no
conversion is counted that is not there.

## Results

* `loadTerms_walkPedigreeNodes`  — the terms read from a written pedigree.
* `match_iff`                    — what an entry accepts.
* `Literals.writeToReplayLog_eq` — the line written, when the formats are counted right.
* `Literals.writeToReplayLog_unread` — otherwise no line is written that can be read.
* `roundTrip_iff`                — when a record survives the round trip.
-/

namespace SwanRuntime.Replay

open Text Checked

-- ---------------------------------------------------------------------------
-- Pedigrees
-- ---------------------------------------------------------------------------

/-- What becomes of a rank that is read by `strtol`. -/
def clampRank (rank : Nat) : Nat := min (2 ^ 63 - 1) rank

theorem clampRank_eq_iff {rank : Nat} : clampRank rank = rank ↔ rank < 2 ^ 63 := by
  unfold clampRank
  omega

theorem strtol_rank (rank : Nat) {rest : List Char} (h : EndsNumber rest) :
    ((strtol (printUnsigned rank ++ rest)).1 % 2 ^ 64).toNat = clampRank rank ∧
      (strtol (printUnsigned rank ++ rest)).2 = rest := by
  rw [strtol_printUnsigned h]
  refine ⟨?_, rfl⟩
  simp only [longMax, clampRank]
  omega

/-- The last term of a pedigree. -/
theorem loadTerms_end (rank : Nat) : loadTerms (printUnsigned rank) = [clampRank rank] := by
  obtain ⟨hrank, hrest⟩ := strtol_rank rank endsNumber_nil
  rw [List.append_nil] at hrank hrest
  rw [loadTerms, hrank]
  split
  · rfl
  · rename_i h
    rw [hrest] at h
    cases h

/-- A term with others behind it. -/
theorem loadTerms_cons (rank : Nat) (rest : List Char) :
    loadTerms (printUnsigned rank ++ '_' :: rest) = clampRank rank :: loadTerms rest := by
  obtain ⟨hrank, hrest⟩ := strtol_rank rank (endsNumber_cons (c := '_') (by decide) rest)
  rw [loadTerms, hrank]
  split
  · rename_i h
    rw [hrest] at h
    cases h
  · rename_i h
    rw [hrest] at h
    rw [(List.cons.inj h).2]

/-- What is read in front of more terms. The pedigree is written from the root
on, so the induction adds a term at the end. -/
theorem loadTerms_walkPedigreeNodes_append {chain : List Nat} (hne : chain ≠ [])
    (rest : List Char) :
    loadTerms (walkPedigreeNodes chain ++ '_' :: rest) =
      (chain.map clampRank).reverse ++ loadTerms rest := by
  induction chain generalizing rest with
  | nil => exact absurd rfl hne
  | cons rank parents ih =>
    cases parents with
    | nil => simpa [walkPedigreeNodes] using loadTerms_cons rank rest
    | cons p parents =>
      have hih := ih (List.cons_ne_nil p parents) (printUnsigned rank ++ '_' :: rest)
      rw [loadTerms_cons] at hih
      simpa [walkPedigreeNodes, List.append_assoc] using hih

/-- The terms of a written pedigree are read back, clamped, root first. -/
theorem loadTerms_walkPedigreeNodes {chain : List Nat} (hne : chain ≠ []) :
    loadTerms (walkPedigreeNodes chain) = (chain.map clampRank).reverse := by
  cases chain with
  | nil => exact absurd rfl hne
  | cons rank parents =>
    cases parents with
    | nil => simpa [walkPedigreeNodes] using loadTerms_end rank
    | cons p parents =>
      rw [walkPedigreeNodes, loadTerms_walkPedigreeNodes_append (List.cons_ne_nil p parents),
        loadTerms_end]
      · simp
      · exact List.cons_ne_nil p parents

theorem walkPedigreeNodes_ne_nil {chain : List Nat} (hne : chain ≠ []) :
    walkPedigreeNodes chain ≠ [] := by
  cases chain with
  | nil => exact absurd rfl hne
  | cons rank parents =>
    cases parents with
    | nil => exact printUnsigned_ne_nil rank
    | cons p parents => simp [walkPedigreeNodes]

/-- A pedigree consists of digits and separators. -/
theorem isDigit_of_mem_walkPedigreeNodes {chain : List Nat} {c : Char}
    (h : c ∈ walkPedigreeNodes chain) : c = '_' ∨ c.isDigit = true := by
  induction chain with
  | nil => cases h
  | cons rank parents ih =>
    cases parents with
    | nil => exact .inr (isDigit_of_mem_printUnsigned h)
    | cons p parents =>
      rw [walkPedigreeNodes, List.mem_append, List.mem_cons] at h
      · rcases h with h | h | h
        · exact ih h
        · exact .inl h
        · exact .inr (isDigit_of_mem_printUnsigned h)
      · exact List.cons_ne_nil p parents

/-- So it is a single word. -/
theorem isSpace_of_mem_walkPedigreeNodes {chain : List Nat} {c : Char}
    (h : c ∈ walkPedigreeNodes chain) : isSpace c = false := by
  rcases isDigit_of_mem_walkPedigreeNodes h with rfl | hdigit
  · decide
  · exact isSpace_of_isDigit hdigit

/-- Every term takes two characters, but the last one only one. -/
theorem length_le_walkPedigreeNodes (chain : List Nat) :
    2 * chain.length ≤ (walkPedigreeNodes chain).length + 1 := by
  have hpos : ∀ n, 0 < (printUnsigned n).length := fun n =>
    List.length_pos_iff.mpr (printUnsigned_ne_nil n)
  induction chain with
  | nil => simp
  | cons rank parents ih =>
    have hrank := hpos rank
    cases parents with
    | nil =>
      simp only [walkPedigreeNodes, List.length_cons, List.length_nil]
      omega
    | cons p parents =>
      rw [walkPedigreeNodes, List.length_append, List.length_cons (a := rank),
        List.length_cons (a := '_')]
      · omega
      · exact List.cons_ne_nil p parents

-- ---------------------------------------------------------------------------
-- Matching
-- ---------------------------------------------------------------------------

/-- The loop of `match` reaches both ends iff what is left of the chain is what
is left of the recorded pedigree. -/
theorem matchLoop_iff {e : ReplayEntry} (hlen : e.pedigreeLen = e.reversePedigree.length)
    (node : List Nat) {i : Nat} (hi : i ≤ e.reversePedigree.length) :
    (∃ j : Nat, matchLoop e node i = some ([], j) ∧ (j : Int) = e.pedigreeLen) ↔
      node = e.reversePedigree.drop i := by
  induction node generalizing i with
  | nil =>
    simp only [matchLoop, Option.some.injEq, Prod.mk.injEq, true_and, exists_eq_left', hlen]
    rw [@eq_comm (List Nat), List.drop_eq_nil_iff]
    omega
  | cons rank parents ih =>
    by_cases hlt : i < e.reversePedigree.length
    · have hget : e.reversePedigree.getD i 0 = e.reversePedigree[i] := by
        rw [List.getD_eq_getElem?_getD, List.getElem?_eq_getElem hlt, Option.getD_some]
      have hdrop : e.reversePedigree.drop i =
          e.reversePedigree[i] :: e.reversePedigree.drop (i + 1) :=
        List.drop_eq_getElem_cons hlt
      have hlt' : (i : Int) < e.pedigreeLen := by omega
      rw [matchLoop, if_pos hlt', hget, hdrop, List.cons.injEq]
      by_cases hrank : rank = e.reversePedigree[i]
      · rw [if_neg (not_not.mpr hrank), ih hlt]
        simp [hrank]
      · rw [if_pos hrank]
        simp [hrank]
    · have hnil : e.reversePedigree.drop i = [] := List.drop_eq_nil_of_le (by omega)
      rw [matchLoop, if_neg (by omega), hnil]
      simp

/-- What an entry accepts. -/
theorem match_iff {e : ReplayEntry} (hlen : e.pedigreeLen = e.reversePedigree.length)
    {type : PedType} {node : List Nat} {victim : Int} :
    e.match type node victim = true ↔
      type = e.type ∧ (type = .steal → victim = e.value) ∧ node = e.reversePedigree := by
  have hloop := matchLoop_iff hlen node (Nat.zero_le _)
  rw [List.drop_zero] at hloop
  rw [← hloop]
  unfold ReplayEntry.match
  by_cases htype : type = e.type
  · by_cases hvictim : type = .steal ∧ victim ≠ e.value
    · simp [htype, hvictim]
      grind
    · simp only [htype, ne_eq, not_true_eq_false, if_false]
      rw [if_neg (by rwa [← htype])]
      cases hm : matchLoop e node 0 with
      | none => simp
      | some r =>
        obtain ⟨n, i⟩ := r
        simp
        grind
  · simp [htype]

-- ---------------------------------------------------------------------------
-- The round trip
-- ---------------------------------------------------------------------------

/-- The types that are recorded. -/
def PedType.Recorded (type : PedType) : Prop := type = .steal ∨ type = .sync ∨ type = .orphaned

/-- The integers written with a record: the victim of a steal. -/
def recordedValue (type : PedType) (victim : Int) : Int := if type = .steal then victim else -1

/-- A pedigree that fits the buffers of the writer and of the reader. -/
def Fits (chain : List Nat) : Prop := (walkPedigreeNodes chain).length < pedigreeBuffSize

/-- The line is written, whatever the buffer of the writer held before, and the entry
loaded from it accepts the record that was written, and no other. -/
def RoundTrip (lits : Literals) (type : PedType) (chain : List Nat) (victim : Int) : Prop :=
  ∀ buf : List Char, buf.length = pedigreeBuffSize →
    ∃ line r, lits.writeToReplayLog buf type chain (recordedValue type victim) (-1) = .ok line ∧
      scanRecord line = .ok (r, []) ∧ r.type ≠ pedTypeStrWorkers ∧
      (load r.type r.pedigree r.i1).match type chain victim = true ∧
      ∀ type' chain' victim', (load r.type r.pedigree r.i1).match type' chain' victim' = true →
        type' = type ∧ chain' = chain ∧ (type = .steal → victim' = victim)

/-- A line of two words and two integers is scanned into its fields, up to the
next line. -/
theorem scanRecord_line {type pedigree : List Char} (htype : type ≠ [])
    (htypeWord : ∀ c ∈ type, isSpace c = false) (hpedigree : pedigree ≠ [])
    (hpedigreeWord : ∀ c ∈ pedigree, isSpace c = false) (i1 i2 : Int) (rest : List Char) :
    scanRecord (type ++ ' ' :: pedigree ++ ' ' :: printInt i1 ++ ' ' :: printInt i2 ++
        '\n' :: rest) =
      .ok (⟨type, pedigree, i1, i2⟩, rest.dropWhile isSpace) := by
  have hspace : isSpace ' ' = true := by decide
  have hnewline : isSpace '\n' = true := by decide
  have hhead : ∀ (cs : List Char) (c : Char), (' ' :: cs).head? = some c → isSpace c = true := by
    rintro cs c hc
    obtain rfl := Option.some.inj hc
    exact hspace
  have hline : type ++ ' ' :: pedigree ++ ' ' :: printInt i1 ++ ' ' :: printInt i2 ++
      '\n' :: rest = type ++ (' ' :: (pedigree ++
        (' ' :: (printInt i1 ++ (' ' :: (printInt i2 ++ '\n' :: rest)))))) := by
    simp
  have hblank : ∀ cs, EndsNumber (' ' :: cs) := endsNumber_cons (by decide)
  have hend : EndsNumber ('\n' :: rest) := endsNumber_cons (by decide) rest
  have hskip : ('\n' :: rest).dropWhile isSpace = rest.dropWhile isSpace := by simp [hnewline]
  simp only [scanRecord, hline, scanWord_append htype htypeWord (hhead _), scanWord_space hspace,
    scanWord_append hpedigree hpedigreeWord (hhead _), scanInt_space hspace,
    scanInt_printInt (hblank _), scanInt_printInt hend, htype, hpedigree, or_self, if_false,
    Checked.pure_eq, hskip]

/-- The type of a record is a single word. -/
theorem PedType.str_word {type : PedType} (htype : type.Recorded) :
    type.str ≠ [] ∧ ∀ c ∈ type.str, isSpace c = false := by
  have hword : type.str.isEmpty = false ∧ (type.str.all fun c => !isSpace c) = true := by
    rcases htype with rfl | rfl | rfl <;> decide
  exact ⟨List.isEmpty_eq_false_iff.mp hword.1,
    fun c hc => Bool.not_eq_true' _ |>.mp (List.all_eq_true.mp hword.2 c hc)⟩

/-- A written line is scanned into its fields. -/
theorem scanRecord_writeToReplayLog {type : PedType} (htype : type.Recorded) {chain : List Nat}
    (hne : chain ≠ []) (i1 i2 : Int) :
    scanRecord (writeToReplayLog type chain i1 i2) =
      .ok (⟨type.str, walkPedigreeNodes chain, i1, i2⟩, []) := by
  have hline := scanRecord_line (PedType.str_word htype).1 (PedType.str_word htype).2 (walkPedigreeNodes_ne_nil hne)
    (fun _ => isSpace_of_mem_walkPedigreeNodes) i1 i2 []
  simpa [writeToReplayLog, hne] using hline

/-- The entry loaded from a written line. -/
theorem load_written {type : PedType} (htype : type.Recorded) {chain : List Nat}
    (hne : chain ≠ []) (hfits : Fits chain) (victim : Int) :
    load type.str (walkPedigreeNodes chain) (recordedValue type victim) =
      ⟨chain.map clampRank, type, chain.length, if type = .steal then toInt16 victim else -1⟩ := by
  have hlen : toInt16 chain.length = chain.length := by
    have h₁ := length_le_walkPedigreeNodes chain
    have h₂ : (walkPedigreeNodes chain).length < 512 := hfits
    unfold toInt16
    rw [Int.bmod_eq_of_le_mul_two] <;> omega
  have hterms := loadTerms_walkPedigreeNodes hne
  rcases htype with rfl | rfl | rfl
  · simp [load, loadType, recordedValue, hterms, hlen]
  · have h : loadType PedType.sync.str = .sync := by decide
    simp [load, h, hterms, hlen]
  · have h : loadType PedType.orphaned.str = .orphaned := by decide
    simp [load, h, hterms, hlen]

theorem toInt16_eq_iff {i : Int} (h : 0 ≤ i) : toInt16 i = i ↔ i < 2 ^ 15 := by
  unfold toInt16
  rw [Int.bmod_eq_iff (by omega)]
  omega

-- ---------------------------------------------------------------------------
-- Writing the line
-- ---------------------------------------------------------------------------

/-- A pedigree is the text up to the zero behind it. -/
theorem takeWhile_walkPedigreeNodes (chain : List Nat) (rest : List Char) :
    (walkPedigreeNodes chain ++ '\x00' :: rest).takeWhile (· ≠ '\x00') =
      walkPedigreeNodes chain := by
  have hall : ∀ c ∈ walkPedigreeNodes chain, decide (c ≠ '\x00') = true := by
    intro c hc
    rw [decide_eq_true_eq]
    rintro rfl
    rcases isDigit_of_mem_walkPedigreeNodes hc with h | h <;> exact absurd h (by decide)
  rw [List.takeWhile_append_of_pos hall]
  simp

/-- An integer is a single word. -/
theorem printInt_word (i : Int) : printInt i ≠ [] ∧ ∀ c ∈ printInt i, isSpace c = false := by
  have hdigits : ∀ n, ∀ c ∈ printUnsigned n, isSpace c = false := fun n c hc =>
    isSpace_of_isDigit (isDigit_of_mem_printUnsigned hc)
  unfold printInt
  split
  · refine ⟨List.cons_ne_nil _ _, ?_⟩
    intro c hc
    rcases List.mem_cons.mp hc with rfl | hc
    · decide
    · exact hdigits _ c hc
  · exact ⟨printUnsigned_ne_nil _, hdigits _⟩

/-- Without a pedigree the first integer is read in its place, and the last field is
missing. -/
theorem scanRecord_missing {type : List Char} (htype : type ≠ [])
    (htypeWord : ∀ c ∈ type, isSpace c = false) (i1 i2 : Int) :
    scanRecord (type ++ ' ' :: [] ++ ' ' :: printInt i1 ++ ' ' :: printInt i2 ++ ['\n']) =
      .error "4 == fret" := by
  have hspace : isSpace ' ' = true := by decide
  have hhead : ∀ (cs : List Char) (c : Char), (' ' :: cs).head? = some c → isSpace c = true := by
    rintro cs c hc
    obtain rfl := Option.some.inj hc
    exact hspace
  have hline : type ++ ' ' :: [] ++ ' ' :: printInt i1 ++ ' ' :: printInt i2 ++ ['\n'] =
      type ++ (' ' :: (' ' :: (printInt i1 ++ (' ' :: (printInt i2 ++ ['\n']))))) := by
    simp
  have hend : EndsNumber ['\n'] := endsNumber_cons (by decide) []
  have hnone : scanInt ['\n'] = none := by decide
  simp only [scanRecord, hline, scanWord_append htype htypeWord (hhead _), scanWord_space hspace,
    scanWord_append (printInt_word i1).1 (printInt_word i1).2 (hhead _), scanInt_space hspace,
    scanInt_printInt hend, hnone, throw_eq]

namespace Literals

variable {lits : Literals} {chain : List Nat} {buf : List Char}

/-- The line is the one that `snprintf` alone would write, when the formats are counted
right. -/
theorem writeToReplayLog_eq (hne : chain ≠ []) (hranks : ∀ rank ∈ chain, rank < 2 ^ 64)
    (hfits : Fits chain) (hcounted : lits.Counted chain) (hbuf : buf.length = pedigreeBuffSize)
    (type : PedType) (i1 i2 : Int) :
    lits.writeToReplayLog buf type chain i1 i2 =
      .ok (Replay.writeToReplayLog type chain i1 i2) := by
  have hinto := walkPedigreeNodesInto_eq hne hranks [] buf
  rw [if_pos (hbuf ▸ hfits), List.nil_append, List.length_nil, Nat.zero_add] at hinto
  have hwalk := walkPedigreeNodes_eq hcounted buf 0
  rw [hinto, Int.natCast_zero] at hwalk
  rw [writeToReplayLog, if_neg hne, hwalk]
  simp only [Except.map, castPointer, ok_bind, pure_eq, List.nil_append,
    takeWhile_walkPedigreeNodes, Replay.writeToReplayLog, if_neg hne]

/-- A pedigree that does not fit is written outside of the buffer. -/
theorem writeToReplayLog_overflow (hne : chain ≠ []) (hranks : ∀ rank ∈ chain, rank < 2 ^ 64)
    (hfits : ¬ Fits chain) (hcounted : lits.Counted chain) (hbuf : buf.length = pedigreeBuffSize)
    (type : PedType) (i1 i2 : Int) :
    lits.writeToReplayLog buf type chain i1 i2 = .error "write outside of the buffer" := by
  have hinto := walkPedigreeNodesInto_eq hne hranks [] buf
  rw [if_neg (hbuf ▸ hfits), List.nil_append, List.length_nil] at hinto
  have hwalk := walkPedigreeNodes_eq hcounted buf 0
  rw [hinto, Int.natCast_zero] at hwalk
  rw [writeToReplayLog, if_neg hne, hwalk]
  rfl

/-- Otherwise no line is written that can be read. -/
theorem writeToReplayLog_unread {type : PedType} (htype : type.Recorded) (hne : chain ≠ [])
    (hranks : ∀ rank ∈ chain, rank < 2 ^ 64) (hcounted : ¬ lits.Counted chain)
    (hbuf : buf.length = pedigreeBuffSize) {i1 i2 : Int} {line : List Char}
    (hline : lits.writeToReplayLog buf type chain i1 i2 = .ok line) :
    scanRecord line = .error "4 == fret" := by
  rw [writeToReplayLog, if_neg hne] at hline
  rcases chain with _ | ⟨rank, _ | ⟨q, parents⟩⟩
  · exact absurd rfl hne
  · have hLu : ¬ lits.QuietLu := fun h => hcounted ⟨h, fun hlen => by simp at hlen⟩
    obtain ⟨c, cs, rfl⟩ := List.exists_cons_of_ne_nil
      (List.length_pos_iff.mp (hbuf ▸ (by decide : 0 < pedigreeBuffSize)))
    rw [walkPedigreeNodes_empty hLu rank (List.cons_ne_nil c cs)] at hline
    obtain rfl := Except.ok.inj hline
    exact scanRecord_missing (PedType.str_word htype).1 (PedType.str_word htype).2 i1 i2
  · rw [walkPedigreeNodes_error (by simp) hranks hcounted hbuf] at hline
    cases hline

end Literals

/--
A record survives the round trip iff no rank exceeds a signed `long`, the victim fits 16
bits, and the helpers count one conversion in each of the formats that they are given.
-/
theorem roundTrip_iff (lits : Literals) (type : PedType) (htype : type.Recorded)
    (chain : List Nat) (hne : chain ≠ []) (hranks : ∀ rank ∈ chain, rank < 2 ^ 64)
    (hfits : Fits chain) (victim : Int) (hvictim : 0 ≤ victim) :
    RoundTrip lits type chain victim ↔
      (∀ rank ∈ chain, rank < 2 ^ 63) ∧ (type = .steal → victim < 2 ^ 15) ∧
        lits.Counted chain := by
  have hmatch : ∀ type' chain' victim',
      (load type.str (walkPedigreeNodes chain) (recordedValue type victim)).match type' chain'
        victim' = true ↔
      type' = type ∧ (type' = .steal → victim' = toInt16 victim) ∧ chain' = chain.map clampRank := by
    intro type' chain' victim'
    rw [load_written htype hne hfits victim, match_iff (by simp)]
    grind
  have hworkers : type.str ≠ pedTypeStrWorkers := by
    rcases htype with rfl | rfl | rfl <;> decide
  -- `strtol` returns its largest value for a rank that is too large
  have hclamp : chain = chain.map clampRank ↔ ∀ rank ∈ chain, rank < 2 ^ 63 := by
    simp only [← clampRank_eq_iff]
    constructor
    · intro h rank hrank
      exact List.map_eq_map_iff.mp (h.symm.trans (List.map_id' chain).symm) rank hrank
    · intro h
      exact ((List.map_congr_left h).trans (List.map_id' chain)).symm
  have hbuf : (List.replicate pedigreeBuffSize '\x00').length = pedigreeBuffSize :=
    List.length_replicate
  -- with a conversion that is not counted the text of the pedigree is another one
  by_cases hcounted : lits.Counted chain
  · have hline : RoundTrip lits type chain victim ↔ ∃ r,
        scanRecord (writeToReplayLog type chain (recordedValue type victim) (-1)) = .ok (r, []) ∧
        r.type ≠ pedTypeStrWorkers ∧
        (load r.type r.pedigree r.i1).match type chain victim = true ∧
        ∀ type' chain' victim', (load r.type r.pedigree r.i1).match type' chain' victim' = true →
          type' = type ∧ chain' = chain ∧ (type = .steal → victim' = victim) := by
      constructor
      · intro h
        obtain ⟨line, r, hline, hr⟩ := h _ hbuf
        rw [Literals.writeToReplayLog_eq hne hranks hfits hcounted hbuf] at hline
        obtain rfl := Except.ok.inj hline
        exact ⟨r, hr⟩
      · rintro ⟨r, hr⟩ buf hbuf
        exact ⟨_, r, Literals.writeToReplayLog_eq hne hranks hfits hcounted hbuf .., hr⟩
    simp only [hline, scanRecord_writeToReplayLog htype hne, Except.ok.injEq, Prod.mk.injEq,
      and_true, exists_eq_left', hmatch, ← hclamp, ← toInt16_eq_iff hvictim, hcounted]
    grind
  · refine iff_of_false ?_ (fun h => hcounted h.2.2)
    intro h
    obtain ⟨line, r, hline, hr, -⟩ := h _ hbuf
    rw [Literals.writeToReplayLog_unread htype hne hranks hcounted hbuf hline] at hr
    cases hr

theorem fits_singleton {rank : Nat} (h : rank < 10 ^ 100) : Fits [rank] := by
  have hlen := (Nat.length_toDigits_le_iff (b := 10) (by omega) (by omega)).mpr h
  show (Nat.toDigits 10 rank).length < 512
  omega

/-- The literals of `walk_pedigree_nodes` one behind the other, "%s", "_", "%lu", and
then those of `write_to_replay_log`. -/
def inOrder : Literals where
  behindS  := "_\x00%lu\x000\x00%s %s %d %d\n".toList
  behindLu := "0\x00%s %s %d %d\n".toList

theorem inOrder_counted (chain : List Nat) : inOrder.Counted chain :=
  ⟨Literals.quietLu_of_notMem (by decide), fun _ => Literals.quietS_of_notMem (by decide)⟩

/-- A steal of a strand with two ranks, whose literals stand in the order of the source. -/
theorem roundTrip_iff_steal : RoundTrip inOrder .steal [3, 7] 1 :=
  (roundTrip_iff inOrder .steal (.inl rfl) [3, 7] (List.cons_ne_nil _ _) (by decide)
    (by unfold Fits; decide) 1 (by decide)).mpr
    ⟨by decide, fun _ => by decide, inOrder_counted [3, 7]⟩

/-- The two formats one behind the other. -/
def adjacent : Literals where
  behindS  := "%lu".toList
  behindLu := "_".toList

/-- "%s" is then counted as two conversions. -/
theorem adjacent_not_quiet : ¬ adjacent.QuietS := by
  intro h
  rw [Literals.QuietS, parseFrom] at h
  simp [adjacent, Literals.formatS, charAt, rsizeMaxStr, maxFormatElements, skipOptions,
    skipDigits, lengthModifier, conversion] at h

/-- A rank of `2 ^ 63` is lost. So is a pedigree of two nodes, when another format stands
behind "%s". -/
theorem roundTrip_lost :
    (¬ ∀ type chain victim, type.Recorded → chain ≠ [] → (∀ rank ∈ chain, rank < 2 ^ 64) →
      Fits chain → 0 ≤ victim → RoundTrip inOrder type chain victim) ∧
    ¬ ∀ lits, RoundTrip lits .sync [3, 7] 0 := by
  have hbuf : (List.replicate pedigreeBuffSize '\x00').length = pedigreeBuffSize :=
    List.length_replicate
  constructor
  · intro h
    have hfits : Fits [2 ^ 63] := fits_singleton (by decide)
    have hranks : ∀ rank ∈ [2 ^ 63], rank < 2 ^ 64 := by simp
    obtain ⟨line, r, hline, hr, -, hself, -⟩ := h .sync [2 ^ 63] 0 (.inr (.inl rfl))
      (List.cons_ne_nil _ _) hranks hfits (Int.le_refl 0) _ hbuf
    rw [Literals.writeToReplayLog_eq (List.cons_ne_nil _ _) hranks hfits (inOrder_counted _)
      hbuf] at hline
    obtain rfl := Except.ok.inj hline
    rw [scanRecord_writeToReplayLog (.inr (.inl rfl)) (List.cons_ne_nil _ _)] at hr
    obtain rfl := (Prod.mk.inj (Except.ok.inj hr)).1
    rw [load_written (.inr (.inl rfl)) (List.cons_ne_nil _ _) hfits, match_iff (by simp)] at hself
    have hrank : 2 ^ 63 = clampRank (2 ^ 63) := (List.cons.inj hself.2.2).1
    exact absurd (clampRank_eq_iff.mp hrank.symm) (lt_irrefl _)
  · intro h
    obtain ⟨line, r, hline, hr, -⟩ := h adjacent _ hbuf
    have hunread := Literals.writeToReplayLog_unread (.inr (.inl rfl)) (List.cons_ne_nil _ _)
      (by decide) (fun hc => adjacent_not_quiet (hc.2 le_rfl)) hbuf hline
    rw [hunread] at hr
    cases hr

end SwanRuntime.Replay
