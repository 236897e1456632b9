import Mathlib.Data.Nat.Find
import SwanRuntime.Library.Transition
import SwanRuntime.Replay.RoundTrip

/-!
# Replay logs — skipping orphans

A worker that replays a run must not wait at an ORPHANED record for a steal that
was never recorded. After all logs have been loaded, every STEAL record marks
the ORPHANED record of its victim that it matches; `next_entry` passes over the
unmarked ones.

The mark goes to the first ORPHANED record with the pedigree of the steal, and
the entry that a worker starts with is chosen before any record is marked.

## Results

* `getElem?_markOrphan`       — what one STEAL record marks.
* `unmarked_iff`              — which records stay unmarked.
* `replay_skips_orphans_iff`  — when a replay passes over exactly the unmatched
  orphans.
-/

namespace SwanRuntime.Replay

open Checked

-- ---------------------------------------------------------------------------
-- The code
-- ---------------------------------------------------------------------------

/-- The test of `scan_for_matching_steals` whether a record of the victim is the
one that a STEAL record matches. -/
def ReplayEntry.orphanedBy (v e : ReplayEntry) : Bool :=
  v.type = .orphaned && e.pedigreeLen = v.pedigreeLen && e.reversePedigree = v.reversePedigree

/-- The inner loop of `scan_for_matching_steals`, over the victim's list. -/
def markOrphan (e : ReplayEntry) : List ReplayEntry → List ReplayEntry
  | [] => []
  | v :: log =>
    if v.type = .last then v :: log
    else if v.orphanedBy e then { v with value := 0 } :: log
    else v :: markOrphan e log

/-- What `scan_for_matching_steals` does at one entry. -/
def markVictim (logs : List (List ReplayEntry)) (e : ReplayEntry) :
    Checked (List (List ReplayEntry)) := do
  if e.type = .steal then
    assert (decide (0 ≤ e.value ∧ e.value < logs.length))
      "(entry->m_value >= 0) && (entry->m_value < g->total_workers)"
    return logs.modify e.value.toNat (markOrphan e)
  else
    return logs

/-- `scan_for_matching_steals` for the log of worker `w`. The scan changes
entries of the lists that it runs over, but no STEAL records. -/
def scanForMatchingSteals (logs : List (List ReplayEntry)) (w : Nat) :
    Checked (List (List ReplayEntry)) :=
  ((logs.getD w []).takeWhile (·.type ≠ .last)).foldlM markVictim logs

/-- `replay_init_workers` when a log is replayed: all logs are loaded, and then
all are scanned. -/
def replayInitWorkers (P : Int) (records : List (List Record)) :
    Checked (List (List ReplayEntry)) := do
  let logs ← records.mapM (loadRecordedLog P)
  (List.range logs.length).foldlM scanForMatchingSteals logs

/-- The records that `next_entry` passes over. -/
def ReplayEntry.skipped (e : ReplayEntry) : Bool := e.type = .orphaned && e.value = -1

/-- `replay_entry_t::next_entry`, on the index of the entry. -/
def nextEntry (log : List ReplayEntry) (i : Nat) : Nat :=
  if log[i]?.any (·.type = .last) then i
  else i + 1 + (log.drop (i + 1)).findIdx (!·.skipped)

/-- The logs and, for each worker, the index of its `replay_list_entry`. -/
structure ReplayState where
  logs     : List (List ReplayEntry)
  position : Nat → Nat

/-- The log of a worker. -/
def ReplayState.log (s : ReplayState) (w : Nat) : List ReplayEntry := s.logs.getD w []

/-- `replay_list_entry` of a worker. -/
def ReplayState.entry (s : ReplayState) (w : Nat) : Option ReplayEntry := (s.log w)[s.position w]?

/-- The replay: a worker advances when it has consumed its entry at a sync, by a
steal, or by waiting for its parent to be stolen. -/
def replaySystem : LTS ReplayState Nat where
  init s := (∃ P records, replayInitWorkers P records = .ok s.logs) ∧ s.position = fun _ => 0
  step s w t := (∃ e, s.entry w = some e ∧
      (e.type = .sync ∨ e.type = .steal ∨ e.type = .orphaned)) ∧
    t = { s with position := Function.update s.position w (nextEntry (s.log w) (s.position w)) }

-- ---------------------------------------------------------------------------
-- The property
-- ---------------------------------------------------------------------------

/-- An ORPHANED record in the log of `w` that no STEAL record of any worker
matches. -/
def Unmatched (logs : List (List ReplayEntry)) (w : Nat) (v : ReplayEntry) : Prop :=
  v.type = .orphaned ∧
    ¬ ∃ log ∈ logs, ∃ e ∈ log, e.type = .steal ∧ e.value = w ∧ v.orphanedBy e = true

/-- `j` is the first index from `i` on whose record is not an unmatched
orphan. -/
structure IsNext (s : ReplayState) (w i j : Nat) : Prop where
  le      : i ≤ j
  stops   : ∃ v, (s.log w)[j]? = some v ∧ ¬ Unmatched s.logs w v
  skipped : ∀ k v, i ≤ k → k < j → (s.log w)[k]? = some v → Unmatched s.logs w v

/-- Every worker starts at the first record that is not an unmatched orphan. -/
def StartsRight (s : ReplayState) : Prop := ∀ w < s.logs.length, IsNext s w 0 (s.position w)

/-- The worker advances to the next record that is not an unmatched orphan. -/
def AdvancesRight (s : ReplayState) (w : Nat) : Prop :=
  IsNext s w (s.position w + 1) (nextEntry (s.log w) (s.position w))

/-- No worker stands at an unmatched orphan. -/
def NoStall (s : ReplayState) : Prop := ∀ w v, s.entry w = some v → ¬ Unmatched s.logs w v

/-- No log starts with an unmatched orphan. -/
def NoLeadingOrphan (s : ReplayState) : Prop :=
  ∀ w v, (s.log w)[0]? = some v → ¬ Unmatched s.logs w v

/-- The record at `j` is an ORPHANED record with the pedigree of an earlier
one. -/
def Repeated (log : List ReplayEntry) (j : Nat) : Prop :=
  ∃ i < j, ∃ u v, log[i]? = some u ∧ log[j]? = some v ∧ u.type = .orphaned ∧ v.type = .orphaned ∧
    u.pedigreeLen = v.pedigreeLen ∧ u.reversePedigree = v.reversePedigree

/-- The record that the worker should advance to does not repeat an earlier
orphan. -/
def NextNotRepeated (s : ReplayState) (w : Nat) : Prop :=
  ∀ j, IsNext s w (s.position w + 1) j → ¬ Repeated (s.log w) j

-- ---------------------------------------------------------------------------
-- Loaded logs
-- ---------------------------------------------------------------------------

/-- What `load_recorded_log` leaves: one entry of type `last`, at the end, and no
mark on any orphan. -/
structure Loaded (log : List ReplayEntry) : Prop where
  ends     : ∃ v, log.getLast? = some v ∧ v.type = .last
  last     : ∀ i v, log[i]? = some v → v.type = .last → i + 1 = log.length
  unmarked : ∀ v ∈ log, v.type = .orphaned → v.value = -1

theorem load_type_ne_last (type pedigree : List Char) (value1 : Int) :
    (load type pedigree value1).type ≠ .last := by
  have h : loadType type ≠ .last := by
    unfold loadType
    grind
  unfold load
  cases htype : loadType type <;> simp_all

theorem load_value (type pedigree : List Char) (value1 : Int)
    (h : (load type pedigree value1).type = .orphaned) :
    (load type pedigree value1).value = -1 := by
  unfold load at h ⊢
  cases htype : loadType type <;> simp_all

theorem Loaded.cons {e : ReplayEntry} {log : List ReplayEntry} (h : Loaded log)
    (hlast : e.type ≠ .last) (hvalue : e.type = .orphaned → e.value = -1) :
    Loaded (e :: log) := by
  obtain ⟨v, hv, hvlast⟩ := h.ends
  have hne : log ≠ [] := by
    rintro rfl
    cases hv
  refine ⟨⟨v, ?_, hvlast⟩, fun i u hu hulast => ?_, fun u hu huorph => ?_⟩
  · rw [List.getLast?_cons_of_ne_nil hne, hv]
  · cases i with
    | zero =>
      obtain rfl := Option.some.inj hu
      exact absurd hulast hlast
    | succ i =>
      have := h.last i u hu hulast
      simp [this]
  · rcases List.mem_cons.mp hu with rfl | hu
    · exact hvalue huorph
    · exact h.unmarked u hu huorph

theorem loadRecordedLog_loaded (P : Int) (records : List Record) :
    Ensures (loadRecordedLog P records) Loaded := by
  induction records with
  | nil =>
    refine .pure ⟨⟨_, rfl, rfl⟩, fun i v hv _ => ?_, fun v hv horph => ?_⟩
    · have := (List.getElem?_eq_some_iff.mp hv).1
      simp only [List.length_singleton] at this ⊢
      omega
    · rw [List.mem_singleton.mp hv] at horph
      cases horph
  | cons r records ih =>
    refine .ite (fun _ => .ite (fun _ => .throw) fun _ => .ite (fun _ => .throw) fun _ => ih)
      fun _ => ih.bind fun log hlog => .pure (hlog.cons (load_type_ne_last _ _ _) (load_value _ _ _))

theorem mapM_loadRecordedLog_loaded (P : Int) (records : List (List Record)) :
    Ensures (records.mapM (loadRecordedLog P)) fun logs => ∀ log ∈ logs, Loaded log := by
  induction records with
  | nil => exact .pure nofun
  | cons r records ih =>
    rw [List.mapM_cons]
    exact (loadRecordedLog_loaded P r).bind fun log hlog => ih.bind fun logs hlogs =>
      .pure (List.forall_mem_cons.mpr ⟨hlog, hlogs⟩)

-- ---------------------------------------------------------------------------
-- Marking
-- ---------------------------------------------------------------------------

open Classical in
/-- An entry with its mark if the condition holds. -/
noncomputable def ReplayEntry.markIf (v : ReplayEntry) (c : Prop) : ReplayEntry :=
  if c then { v with value := 0 } else v

@[simp] theorem markIf_type (v : ReplayEntry) (c : Prop) : (v.markIf c).type = v.type := by
  unfold ReplayEntry.markIf
  split <;> rfl

@[simp] theorem markIf_pedigreeLen (v : ReplayEntry) (c : Prop) :
    (v.markIf c).pedigreeLen = v.pedigreeLen := by
  unfold ReplayEntry.markIf
  split <;> rfl

@[simp] theorem markIf_reversePedigree (v : ReplayEntry) (c : Prop) :
    (v.markIf c).reversePedigree = v.reversePedigree := by
  unfold ReplayEntry.markIf
  split <;> rfl

@[simp] theorem markIf_orphanedBy (v e : ReplayEntry) (c : Prop) :
    (v.markIf c).orphanedBy e = v.orphanedBy e := by
  simp [ReplayEntry.orphanedBy]

theorem markIf_markIf (v : ReplayEntry) (c d : Prop) :
    (v.markIf c).markIf d = v.markIf (c ∨ d) := by
  unfold ReplayEntry.markIf
  by_cases hc : c <;> by_cases hd : d <;> simp [hc, hd]

theorem markIf_of_not {v : ReplayEntry} {c : Prop} (h : ¬ c) : v.markIf c = v := if_neg h

/-- A STEAL record marks the first record that it matches. -/
theorem getElem?_markOrphan {e : ReplayEntry} {log : List ReplayEntry}
    (hlast : ∀ i v, log[i]? = some v → v.type = .last → i + 1 = log.length) (j : Nat) :
    (markOrphan e log)[j]? = log[j]?.map fun v => v.markIf
      (v.orphanedBy e = true ∧ ∀ i < j, ∀ u, log[i]? = some u → u.orphanedBy e = false) := by
  induction log generalizing j with
  | nil => rfl
  | cons v log ih =>
    have hlast' : ∀ i u, log[i]? = some u → u.type = .last → i + 1 = log.length := by
      intro i u hu hulast
      have := hlast (i + 1) u hu hulast
      simpa using this
    unfold markOrphan
    by_cases hv : v.type = .last
    · have hnil : log = [] := by simpa [eq_comm] using hlast 0 v rfl hv
      have hno : v.orphanedBy e = false := by simp [ReplayEntry.orphanedBy, hv]
      subst hnil
      cases j with
      | zero => simp [hv, hno, markIf_of_not]
      | succ j => simp [hv]
    · by_cases hhit : v.orphanedBy e = true
      · cases j with
        | zero => simp [hv, hhit, ReplayEntry.markIf]
        | succ j =>
          -- no later record is marked
          have hno : ¬ ∀ i < j + 1, ∀ u, (v :: log)[i]? = some u → u.orphanedBy e = false :=
            fun h => absurd (h 0 (by omega) v rfl) (by simp [hhit])
          rw [if_neg hv, if_pos hhit, List.getElem?_cons_succ, List.getElem?_cons_succ]
          cases log[j]? with
          | none => rfl
          | some u => rw [Option.map_some, markIf_of_not fun h => hno h.2]
      · rw [if_neg hv, if_neg hhit]
        cases j with
        | zero => simp [hhit, markIf_of_not]
        | succ j =>
          have hshift : (∀ i < j + 1, ∀ u, (v :: log)[i]? = some u → u.orphanedBy e = false) ↔
              ∀ i < j, ∀ u, log[i]? = some u → u.orphanedBy e = false := by
            constructor
            · exact fun h i hi u hu => h (i + 1) (by omega) u hu
            · intro h i hi u hu
              cases i with
              | zero =>
                obtain rfl := Option.some.inj hu
                simpa using hhit
              | succ i => exact h i (by omega) u hu
          rw [List.getElem?_cons_succ, List.getElem?_cons_succ, ih hlast' j]
          simp only [hshift]

/-- `G` is `L` after the STEAL records of `S` have been scanned. -/
structure Marking (L G : List (List ReplayEntry)) (S : ReplayEntry → Prop) : Prop where
  length : G.length = L.length
  entry  : ∀ w j, (G.getD w [])[j]? = (L.getD w [])[j]?.map fun v : ReplayEntry => v.markIf
    ((∃ e, S e ∧ e.type = .steal ∧ e.value = w ∧ v.orphanedBy e = true) ∧
      ¬ Repeated (L.getD w []) j)

section Marking

variable {L G : List (List ReplayEntry)} {S : ReplayEntry → Prop}

/-- Marking moves no entry. -/
theorem Marking.length_log (h : Marking L G S) (w : Nat) :
    (G.getD w []).length = (L.getD w []).length := by
  refine Nat.le_antisymm ?_ ?_
  · by_contra hlt
    have hj := h.entry w (L.getD w []).length
    rw [List.getElem?_eq_none le_rfl, Option.map_none, List.getElem?_eq_none_iff] at hj
    omega
  · by_contra hlt
    have hj := h.entry w (G.getD w []).length
    rw [List.getElem?_eq_none le_rfl, eq_comm, Option.map_eq_none_iff,
      List.getElem?_eq_none_iff] at hj
    omega

/-- It changes neither types nor pedigrees. -/
theorem Marking.of_getElem? (h : Marking L G S) {w j : Nat} {v : ReplayEntry}
    (hv : (G.getD w [])[j]? = some v) : ∃ u c, (L.getD w [])[j]? = some u ∧ v = u.markIf c := by
  rw [h.entry w j, Option.map_eq_some_iff] at hv
  obtain ⟨u, hu, rfl⟩ := hv
  exact ⟨u, _, hu, rfl⟩

/-- Records other than orphans stay as they are. -/
theorem Marking.getElem?_iff (h : Marking L G S) {w j : Nat} {v : ReplayEntry}
    (hv : v.type ≠ .orphaned) : (G.getD w [])[j]? = some v ↔ (L.getD w [])[j]? = some v := by
  have hno : ∀ u : ReplayEntry, u.type ≠ .orphaned → ∀ e, u.orphanedBy e = false := by
    intro u hu e
    simp [ReplayEntry.orphanedBy, hu]
  rw [h.entry w j, Option.map_eq_some_iff]
  constructor
  · rintro ⟨u, hu, rfl⟩
    rw [markIf_type] at hv
    rw [markIf_of_not]
    · exact hu
    · rintro ⟨⟨e, -, -, -, he⟩, -⟩
      simp [hno u hv e] at he
  · intro hL
    refine ⟨v, hL, markIf_of_not ?_⟩
    rintro ⟨⟨e, -, -, -, he⟩, -⟩
    simp [hno v hv e] at he

theorem Marking.last (h : Marking L G S) (hL : ∀ w i v, (L.getD w [])[i]? = some v →
    v.type = .last → i + 1 = (L.getD w []).length) (w i : Nat) (v : ReplayEntry)
    (hv : (G.getD w [])[i]? = some v) (hlast : v.type = .last) :
    i + 1 = (G.getD w []).length := by
  rw [h.getElem?_iff (by simp [hlast])] at hv
  rw [h.length_log, hL w i v hv hlast]

/-- One entry is scanned. -/
theorem Marking.step (h : Marking L G S) (hL : ∀ w i v, (L.getD w [])[i]? = some v →
    v.type = .last → i + 1 = (L.getD w []).length) (e : ReplayEntry) :
    Ensures (markVictim G e) fun G' => Marking L G' fun x => S x ∨ x = e := by
  refine .ite (fun hsteal => .assert_bind fun hrange => .pure ?_) fun hsteal => .pure ?_
  · obtain ⟨hnonneg, hlt⟩ := of_decide_eq_true hrange
    refine ⟨by simpa using h.length, fun w j => ?_⟩
    by_cases hw : (w : Int) = e.value
    · -- the victim's list
      have hwlt : w < G.length := by omega
      have hget : (G.modify e.value.toNat (markOrphan e)).getD w [] = markOrphan e (G.getD w []) := by
        have htoNat : e.value.toNat = w := by omega
        rw [htoNat, List.getD_eq_getElem?_getD, List.getElem?_modify_eq,
          List.getElem?_eq_getElem hwlt, List.getD_eq_getElem?_getD, List.getElem?_eq_getElem hwlt]
        rfl
      rw [hget, getElem?_markOrphan (h.last hL w), h.entry w j, Option.map_map]
      refine Option.map_congr fun v hv => ?_
      rw [Function.comp_apply, markIf_orphanedBy, markIf_markIf]
      congr 1
      apply propext
      -- the first record that the steal matches is the one that repeats no earlier orphan
      have hfirst : v.orphanedBy e = true →
          ((∀ i < j, ∀ u, (G.getD w [])[i]? = some u → u.orphanedBy e = false) ↔
            ¬ Repeated (L.getD w []) j) := by
        intro hhit
        simp only [ReplayEntry.orphanedBy, Bool.and_eq_true, decide_eq_true_eq] at hhit
        constructor
        · rintro hall ⟨i, hi, u, v', hu, hv', huorph, -, hlen, hped⟩
          obtain rfl := Option.some.inj (hv.symm.trans hv')
          have := hall i hi _ (by rw [h.entry w i, hu]; rfl)
          simp [ReplayEntry.orphanedBy, huorph, hhit, hlen, hped] at this
        · intro hrep i hi u hu
          by_contra hu'
          obtain ⟨u', c, hLu, rfl⟩ := h.of_getElem? hu
          simp only [Bool.not_eq_false, ReplayEntry.orphanedBy, Bool.and_eq_true,
            decide_eq_true_eq, markIf_type, markIf_pedigreeLen, markIf_reversePedigree] at hu'
          exact hrep ⟨i, hi, u', v, hLu, hv, hu'.1.1, hhit.1.1, by omega,
            hu'.2.symm.trans hhit.2⟩
      -- what was marked before stays marked
      grind
    · -- another list
      have hget : (G.modify e.value.toNat (markOrphan e)).getD w [] = G.getD w [] := by
        rw [List.getD_eq_getElem?_getD, List.getElem?_modify_ne _ _ (by omega),
          List.getD_eq_getElem?_getD]
      rw [hget, h.entry w j]
      refine Option.map_congr fun v _ => ?_
      congr 1
      grind
  · refine ⟨h.length, fun w j => ?_⟩
    rw [h.entry w j]
    refine Option.map_congr fun v _ => ?_
    congr 1
    grind

/-- A list of entries is scanned. -/
theorem Marking.foldlM (hL : ∀ w i v, (L.getD w [])[i]? = some v →
    v.type = .last → i + 1 = (L.getD w []).length) (entries : List ReplayEntry)
    (h : Marking L G S) :
    Ensures (entries.foldlM markVictim G) fun G' => Marking L G' fun x => S x ∨ x ∈ entries := by
  induction entries generalizing G S with
  | nil => simpa using Ensures.pure (P := fun G' => Marking L G' S) h
  | cons e entries ih =>
    rw [List.foldlM_cons]
    refine (h.step hL e).bind fun G' hG' => ?_
    simpa [or_assoc] using ih hG'

end Marking

-- ---------------------------------------------------------------------------
-- The logs after the scan
-- ---------------------------------------------------------------------------

/-- The scan of a log sees all its STEAL records. -/
theorem mem_takeWhile_last {log : List ReplayEntry}
    (hlast : ∀ i v, log[i]? = some v → v.type = .last → i + 1 = log.length)
    {e : ReplayEntry} (he : e.type ≠ .last) :
    e ∈ log.takeWhile (·.type ≠ .last) ↔ e ∈ log := by
  induction log with
  | nil => rfl
  | cons v log ih =>
    have ih := ih fun i u hu hulast => by simpa using hlast (i + 1) u hu hulast
    by_cases hv : v.type = .last
    · have hnil : log = [] := by simpa [eq_comm] using hlast 0 v rfl hv
      have hne : e ≠ v := by
        rintro rfl
        exact he hv
      simp [hnil, hv, hne]
    · rw [List.takeWhile_cons_of_pos (by simpa using hv), List.mem_cons, List.mem_cons, ih]

section Marking

variable {L G : List (List ReplayEntry)} {S S' : ReplayEntry → Prop}

/-- Only the STEAL records count. -/
theorem Marking.congr (h : Marking L G S) (hS : ∀ e : ReplayEntry, e.type = .steal → (S e ↔ S' e)) :
    Marking L G S' := by
  refine ⟨h.length, fun w j => ?_⟩
  rw [h.entry w j]
  have hiff : ∀ v : ReplayEntry,
      (∃ e, S e ∧ e.type = .steal ∧ e.value = w ∧ v.orphanedBy e = true) ↔
        ∃ e, S' e ∧ e.type = .steal ∧ e.value = w ∧ v.orphanedBy e = true := by
    intro v
    constructor
    · rintro ⟨e, he, hsteal, hrest⟩
      exact ⟨e, (hS e hsteal).mp he, hsteal, hrest⟩
    · rintro ⟨e, he, hsteal, hrest⟩
      exact ⟨e, (hS e hsteal).mpr he, hsteal, hrest⟩
  simp only [hiff]

theorem Marking.mem_iff (h : Marking L G S) {w : Nat} {e : ReplayEntry} (he : e.type ≠ .orphaned) :
    e ∈ G.getD w [] ↔ e ∈ L.getD w [] := by
  simp only [List.mem_iff_getElem?, h.getElem?_iff he]

theorem Marking.repeated_iff (h : Marking L G S) {w j : Nat} :
    Repeated (G.getD w []) j ↔ Repeated (L.getD w []) j := by
  constructor
  · rintro ⟨i, hi, u, v, hu, hv, hrest⟩
    obtain ⟨u', c, hu', rfl⟩ := h.of_getElem? hu
    obtain ⟨v', d, hv', rfl⟩ := h.of_getElem? hv
    simp only [markIf_type, markIf_pedigreeLen, markIf_reversePedigree] at hrest
    exact ⟨i, hi, u', v', hu', hv', hrest⟩
  · rintro ⟨i, hi, u, v, hu, hv, hrest⟩
    refine ⟨i, hi, _, _, by rw [h.entry, hu, Option.map_some], by rw [h.entry, hv, Option.map_some],
      ?_⟩
    simpa only [markIf_type, markIf_pedigreeLen, markIf_reversePedigree] using hrest

/-- The logs of all workers are scanned. -/
theorem Marking.range (hL : ∀ w i v, (L.getD w [])[i]? = some v →
    v.type = .last → i + 1 = (L.getD w []).length) (n : Nat) :
    Ensures ((List.range n).foldlM scanForMatchingSteals L) fun G =>
      Marking L G fun e => ∃ k < n, e ∈ L.getD k [] := by
  induction n with
  | zero =>
    refine .pure ⟨rfl, fun w j => ?_⟩
    have hno : ∀ v : ReplayEntry, v.markIf ((∃ e : ReplayEntry, (∃ k < 0, e ∈ L.getD k []) ∧
        e.type = .steal ∧ e.value = w ∧ v.orphanedBy e = true) ∧
        ¬ Repeated (L.getD w []) j) = v := fun v => markIf_of_not (by simp)
    simp only [hno, Option.map_id']
  | succ n ih =>
    rw [List.range_succ, List.foldlM_append]
    refine ih.bind fun G hG => ?_
    rw [List.foldlM_cons]
    refine Ensures.bind (hG.foldlM hL _) fun G' hG' => .pure (hG'.congr fun e he => ?_)
    rw [mem_takeWhile_last (hG.last hL n) (by simp [he]), hG.mem_iff (by simp [he])]
    constructor
    · rintro (⟨k, hk, hmem⟩ | hmem)
      · exact ⟨k, by omega, hmem⟩
      · exact ⟨n, by omega, hmem⟩
    · rintro ⟨k, hk, hmem⟩
      rcases Nat.lt_succ_iff_lt_or_eq.mp hk with hk | rfl
      · exact .inl ⟨k, hk, hmem⟩
      · exact .inr hmem

end Marking

/-- What the replay starts from. -/
structure Scanned (logs : List (List ReplayEntry)) : Prop where
  ends    : ∀ w < logs.length, ∃ (j : Nat) (v : ReplayEntry),
    (logs.getD w [])[j]? = some v ∧ v.type = .last
  last    : ∀ w i v, (logs.getD w [])[i]? = some v → v.type = .last → i + 1 = (logs.getD w []).length
  skipped : ∀ w j v, (logs.getD w [])[j]? = some v →
    (v.skipped = true ↔ Unmatched logs w v ∨ v.type = .orphaned ∧ Repeated (logs.getD w []) j)

theorem mem_getD {logs : List (List ReplayEntry)} {log : List ReplayEntry} :
    log ∈ logs → ∃ k < logs.length, logs.getD k [] = log := by
  intro h
  obtain ⟨k, hk, rfl⟩ := List.mem_iff_getElem.mp h
  exact ⟨k, hk, by simp [List.getD_eq_getElem?_getD, hk]⟩

theorem getD_mem {logs : List (List ReplayEntry)} {k : Nat} (hk : k < logs.length) :
    logs.getD k [] ∈ logs := by
  simp [List.getD_eq_getElem?_getD, hk]

/-- The records that stay unmarked are the unmatched orphans and the orphans
whose pedigree occurred before. -/
theorem unmarked_iff {L G : List (List ReplayEntry)}
    (hL : ∀ w v, v ∈ L.getD w [] → v.type = .orphaned → v.value = -1)
    (h : Marking L G fun e => ∃ k < L.length, e ∈ L.getD k []) {w j : Nat} {v : ReplayEntry}
    (hv : (G.getD w [])[j]? = some v) :
    v.skipped = true ↔ Unmatched G w v ∨ v.type = .orphaned ∧ Repeated (G.getD w []) j := by
  have hmatch : (∃ log ∈ G, ∃ e ∈ log, e.type = .steal ∧ e.value = w ∧ v.orphanedBy e = true) ↔
      ∃ e : ReplayEntry, (∃ k < L.length, e ∈ L.getD k []) ∧ e.type = .steal ∧ e.value = w ∧
        v.orphanedBy e = true := by
    constructor
    · rintro ⟨log, hlog, e, he, hsteal, hrest⟩
      obtain ⟨k, hk, rfl⟩ := mem_getD hlog
      exact ⟨e, ⟨k, h.length ▸ hk, (h.mem_iff (by simp [hsteal])).mp he⟩, hsteal, hrest⟩
    · rintro ⟨e, ⟨k, hk, he⟩, hsteal, hrest⟩
      exact ⟨G.getD k [], getD_mem (h.length ▸ hk), e, (h.mem_iff (by simp [hsteal])).mpr he,
        hsteal, hrest⟩
  rw [Unmatched, hmatch, h.repeated_iff]
  have hentry := h.entry w j
  rw [hv, eq_comm, Option.map_eq_some_iff] at hentry
  obtain ⟨u, hu, rfl⟩ := hentry
  simp only [markIf_orphanedBy, markIf_type, ReplayEntry.skipped]
  generalize (∃ e : ReplayEntry, (∃ k < L.length, e ∈ L.getD k []) ∧ e.type = .steal ∧
    e.value = w ∧ u.orphanedBy e = true) = matched
  generalize Repeated (L.getD w []) j = again
  by_cases horph : u.type = .orphaned
  · have hvalue : u.value = -1 := hL w u (List.mem_of_getElem? hu) horph
    by_cases hm : matched <;> by_cases hr : again <;>
      simp [ReplayEntry.markIf, horph, hvalue, hm, hr]
  · simp [horph]

theorem replayInitWorkers_scanned (P : Int) (records : List (List Record)) :
    Ensures (replayInitWorkers P records) Scanned := by
  refine (mapM_loadRecordedLog_loaded P records).bind fun L hloaded => ?_
  have hlog : ∀ w, L.getD w [] ≠ [] → Loaded (L.getD w []) := by
    intro w hw
    rw [List.getD_eq_getElem?_getD] at hw ⊢
    cases hget : L[w]? with
    | none => simp [hget] at hw
    | some log => exact hloaded log (List.mem_of_getElem? hget)
  have hlast : ∀ w i v, (L.getD w [])[i]? = some v → v.type = .last →
      i + 1 = (L.getD w []).length := by
    intro w i v hv hvlast
    exact (hlog w (List.ne_nil_of_mem (List.mem_of_getElem? hv))).last i v hv hvlast
  rintro G hG
  have hmark := Marking.range hlast L.length G hG
  refine ⟨fun w hw => ?_, hmark.last hlast, fun w j v hv => ?_⟩
  · obtain ⟨v, hv, hvlast⟩ := (hloaded _ (getD_mem (hmark.length ▸ hw))).ends
    rw [List.getLast?_eq_getElem?] at hv
    exact ⟨_, v, (hmark.getElem?_iff (by simp [hvlast])).mpr hv, hvlast⟩
  · refine unmarked_iff (fun w v hv horph => ?_) hmark hv
    exact (hlog w (List.ne_nil_of_mem hv)).unmarked v hv horph

-- ---------------------------------------------------------------------------
-- Advancing
-- ---------------------------------------------------------------------------

/-- `next_entry` stops at the first record behind the entry that is not
skipped. -/
theorem nextEntry_spec {log : List ReplayEntry} {i : Nat} {e : ReplayEntry}
    (hi : log[i]? = some e) (he : e.type ≠ .last)
    (hlast : ∀ i v, log[i]? = some v → v.type = .last → i + 1 = log.length)
    (hends : ∃ (j : Nat) (v : ReplayEntry), log[j]? = some v ∧ v.type = .last) :
    i + 1 ≤ nextEntry log i ∧
      (∃ v, log[nextEntry log i]? = some v ∧ v.skipped = false) ∧
      ∀ k v, i + 1 ≤ k → k < nextEntry log i → log[k]? = some v → v.skipped = true := by
  have hnext : nextEntry log i = i + 1 + (log.drop (i + 1)).findIdx (!·.skipped) := by
    simp [nextEntry, hi, he]
  obtain ⟨j, u, hj, hulast⟩ := hends
  have hlen := hlast j u hj hulast
  have hilt := (List.getElem?_eq_some_iff.mp hi).1
  have hij : i ≠ j := by
    rintro rfl
    rw [hi] at hj
    obtain rfl := Option.some.inj hj
    exact he hulast
  -- the LAST record lies behind the entry, so the search ends
  have hmem : u ∈ log.drop (i + 1) := by
    refine List.mem_of_getElem? (i := j - (i + 1)) ?_
    rw [List.getElem?_drop, ← hj]
    congr 1
    omega
  have hfound : (log.drop (i + 1)).findIdx (!·.skipped) < (log.drop (i + 1)).length :=
    List.findIdx_lt_length_of_exists ⟨u, hmem, by simp [ReplayEntry.skipped, hulast]⟩
  refine ⟨by omega, ⟨(log.drop (i + 1))[(log.drop (i + 1)).findIdx (!·.skipped)], ?_, ?_⟩,
    fun k v hik hk hv => ?_⟩
  · rw [hnext, ← List.getElem?_drop, List.getElem?_eq_getElem hfound]
  · simpa using List.findIdx_getElem (w := hfound)
  · have hlt : k - (i + 1) < (log.drop (i + 1)).findIdx (!·.skipped) := by omega
    have hno := List.not_of_lt_findIdx hlt
    have hget : (log.drop (i + 1))[k - (i + 1)]? = some v := by
      rw [List.getElem?_drop, ← hv]
      congr 1
      omega
    rw [List.getElem?_eq_some_iff] at hget
    obtain ⟨_, hget⟩ := hget
    rw [hget] at hno
    simpa using hno

/-- There is one next record. -/
theorem IsNext.unique {s : ReplayState} {w i j j' : Nat} (h : IsNext s w i j)
    (h' : IsNext s w i j') : j = j' := by
  obtain ⟨v, hv, hstop⟩ := h.stops
  obtain ⟨v', hv', hstop'⟩ := h'.stops
  rcases Nat.lt_trichotomy j j' with hlt | heq | hgt
  · exact absurd (h'.skipped j v h.le hlt hv) hstop
  · exact heq
  · exact absurd (h.skipped j' v' h'.le hgt hv') hstop'

/-- Before the end of a log there is a next record. -/
theorem Scanned.exists_isNext {s : ReplayState} (hs : Scanned s.logs) {w i : Nat} {e : ReplayEntry}
    (hi : (s.log w)[i]? = some e) (he : e.type ≠ .last) : ∃ j, IsNext s w (i + 1) j := by
  classical
  have hw : w < s.logs.length := by
    by_contra hw
    simp [ReplayState.log, List.getD_eq_getElem?_getD, hw] at hi
  obtain ⟨l, u, hl, hulast⟩ := hs.ends w hw
  have hlen := hs.last w l u hl hulast
  have hilt := (List.getElem?_eq_some_iff.mp hi).1
  have hil : i ≠ l := by
    rintro rfl
    rw [ReplayState.log, hl] at hi
    obtain rfl := Option.some.inj hi
    exact he hulast
  have hex : ∃ j, i + 1 ≤ j ∧ ∃ v, (s.log w)[j]? = some v ∧ ¬ Unmatched s.logs w v := by
    refine ⟨l, ?_, u, hl, fun h => by simp [Unmatched, hulast] at h⟩
    simp only [ReplayState.log] at hilt
    omega
  refine ⟨Nat.find hex, (Nat.find_spec hex).1, (Nat.find_spec hex).2, fun k v hik hk hv => ?_⟩
  by_contra hno
  exact Nat.find_min hex hk ⟨hik, v, hv, hno⟩

/-- A worker advances to the next record that is not an unmatched orphan exactly
if that record repeats no earlier orphan. -/
theorem Scanned.advancesRight_iff {s : ReplayState} (hs : Scanned s.logs) {w : Nat}
    {e : ReplayEntry} (he : s.entry w = some e) (htype : e.type ≠ .last) :
    AdvancesRight s w ↔ NextNotRepeated s w := by
  have hw : w < s.logs.length := by
    by_contra hw
    simp [ReplayState.entry, ReplayState.log, List.getD_eq_getElem?_getD, hw] at he
  obtain ⟨hle, ⟨u, hu, hstop⟩, hskip⟩ :=
    nextEntry_spec he htype (hs.last w) (hs.ends w hw)
  constructor
  · intro hadv j hj hrep
    obtain rfl := hj.unique hadv
    obtain ⟨i, hi, x, v, hx, hv, hxorph, hvorph, hrest⟩ := hrep
    have hskipped := (hs.skipped w _ v hv).mpr
      (.inr ⟨hvorph, i, hi, x, v, hx, hv, hxorph, hvorph, hrest⟩)
    rw [hu] at hv
    obtain rfl := Option.some.inj hv
    simp [hskipped] at hstop
  · intro hnot
    obtain ⟨j, hj⟩ := hs.exists_isNext he htype
    obtain ⟨v, hv, hvstop⟩ := hj.stops
    have hvskip : v.skipped ≠ true := by
      intro hvskip
      rcases (hs.skipped w j v hv).mp hvskip with hun | ⟨-, hrep⟩
      · exact hvstop hun
      · exact hnot j hj hrep
    -- both are the first record that is not skipped
    have heq : nextEntry (s.log w) (s.position w) = j := by
      rcases Nat.lt_trichotomy (nextEntry (s.log w) (s.position w)) j with hlt | heq | hgt
      · have hun := hj.skipped _ u hle hlt hu
        simp [(hs.skipped w _ u hu).mpr (.inl hun)] at hstop
      · exact heq
      · exact absurd (hskip j v hj.le hgt hv) hvskip
    rw [AdvancesRight, heq]
    exact hj

theorem Scanned.startsRight_iff {s : ReplayState} (hs : Scanned s.logs)
    (hposition : s.position = fun _ => 0) : StartsRight s ↔ NoLeadingOrphan s := by
  constructor
  · intro hstart w v hv
    have hw : w < s.logs.length := by
      by_contra hw
      simp [ReplayState.log, List.getD_eq_getElem?_getD, hw] at hv
    obtain ⟨u, hu, hstop⟩ := (hstart w hw).stops
    rw [hposition, hv] at hu
    obtain rfl := Option.some.inj hu
    exact hstop
  · intro hlead w hw
    obtain ⟨l, u, hl, -⟩ := hs.ends w hw
    have hpos : 0 < (s.log w).length := by
      have := (List.getElem?_eq_some_iff.mp hl).1
      exact Nat.lt_of_le_of_lt (Nat.zero_le _) this
    rw [hposition]
    exact ⟨le_rfl, ⟨_, List.getElem?_eq_getElem hpos, hlead w _ (List.getElem?_eq_getElem hpos)⟩,
      fun k v _ hk => absurd hk (Nat.not_lt_zero k)⟩

theorem StartsRight.noStall {s : ReplayState} (h : StartsRight s) : NoStall s := by
  intro w v hv
  have hw : w < s.logs.length := by
    by_contra hw
    simp [ReplayState.entry, ReplayState.log, List.getD_eq_getElem?_getD, hw] at hv
  obtain ⟨u, hu, hstop⟩ := (h w hw).stops
  rw [ReplayState.entry, hu] at hv
  obtain rfl := Option.some.inj hv
  exact hstop

/-- After the worker has advanced rightly, no worker stands at an unmatched
orphan. -/
theorem AdvancesRight.noStall {s t : ReplayState} {w : Nat} (hs : NoStall s)
    (h : AdvancesRight s w) (hstep : replaySystem.step s w t) : NoStall t := by
  obtain ⟨-, rfl⟩ := hstep
  intro x v hv
  by_cases hx : x = w
  · subst hx
    obtain ⟨u, hu, hstop⟩ := h.stops
    simp only [ReplayState.entry, Function.update_self] at hv
    obtain rfl := Option.some.inj (hu.symm.trans hv)
    exact hstop
  · simp only [ReplayState.entry, Function.update_of_ne hx] at hv
    exact hs x v hv

theorem entry_type_ne_last {e : ReplayEntry}
    (h : e.type = .sync ∨ e.type = .steal ∨ e.type = .orphaned) : e.type ≠ .last := by
  rcases h with h | h | h <;> simp [h]

/-- Along a replay, all advances are right exactly if no record to advance to
repeats an earlier orphan. -/
theorem allSteps_advancesRight_iff {s : ReplayState} {tr : List (Nat × ReplayState)}
    (hs : Scanned s.logs) (h : replaySystem.IsPath s tr) :
    LTS.AllSteps AdvancesRight s tr ↔ LTS.AllSteps NextNotRepeated s tr := by
  induction tr generalizing s with
  | nil => exact Iff.rfl
  | cons p tr ih =>
    obtain ⟨w, t⟩ := p
    obtain ⟨hstep, hpath⟩ := h
    obtain ⟨⟨e, he, htype⟩, hlogs⟩ := id hstep
    have ht : Scanned t.logs := by
      rw [hlogs]
      exact hs
    exact and_congr (hs.advancesRight_iff he (entry_type_ne_last htype)) (ih ht hpath)

theorem noStall_along {s : ReplayState} {tr : List (Nat × ReplayState)} (hs : NoStall s)
    (h : replaySystem.IsPath s tr) (hadv : LTS.AllSteps AdvancesRight s tr) :
    ∀ p ∈ tr, NoStall p.2 :=
  LTS.invariant_along (T := replaySystem.restrict AdvancesRight)
    (fun _ _ _ hno hstep => hstep.2.noStall hno hstep.1) hs (LTS.isPath_restrict h hadv)

/--
In a replay every worker starts at and advances to the first record that is not
an unmatched orphan, and never stands at an unmatched orphan, exactly if no log
starts with one and no record that a worker should advance to repeats the
pedigree of an earlier orphan of its log.
-/
theorem replay_skips_orphans_iff {s : ReplayState} {tr : List (Nat × ReplayState)}
    (hs : replaySystem.init s) (h : replaySystem.IsPath s tr) :
    (StartsRight s ∧ NoStall s ∧ LTS.AllSteps AdvancesRight s tr ∧ ∀ p ∈ tr, NoStall p.2) ↔
      NoLeadingOrphan s ∧ LTS.AllSteps NextNotRepeated s tr := by
  obtain ⟨⟨P, records, hinit⟩, hposition⟩ := hs
  have hscan : Scanned s.logs := replayInitWorkers_scanned P records _ hinit
  rw [← hscan.startsRight_iff hposition, ← allSteps_advancesRight_iff hscan h]
  constructor
  · rintro ⟨hstart, -, hadv, -⟩
    exact ⟨hstart, hadv⟩
  · rintro ⟨hstart, hadv⟩
    exact ⟨hstart, hstart.noStall, hadv, noStall_along hstart.noStall h hadv⟩

-- ---------------------------------------------------------------------------
-- Two replays
-- ---------------------------------------------------------------------------

/-- The record that is written for a strand with one rank. -/
def recordOf (type : PedType) (rank : Nat) (victim : Int) : Record :=
  ⟨type.str, walkPedigreeNodes [rank], recordedValue type victim, -1⟩

theorem loadRecordedLog_recordOf {type : PedType} (htype : type.Recorded) {rank : Nat}
    (hrank : rank < 2 ^ 63) (victim : Int) {P : Int} {records : List Record}
    {log : List ReplayEntry}
    (h : loadRecordedLog P records = .ok log) :
    loadRecordedLog P (recordOf type rank victim :: records) =
      .ok (⟨[rank], type, 1, if type = .steal then toInt16 victim else -1⟩ :: log) := by
  have hfits : Fits [rank] := fits_singleton (lt_of_lt_of_le hrank (by decide))
  have hworkers : type.str ≠ pedTypeStrWorkers := by
    rcases htype with rfl | rfl | rfl <;> decide
  have hclamp : clampRank rank = rank := clampRank_eq_iff.mpr hrank
  rw [loadRecordedLog, recordOf, if_neg hworkers, load_written htype (List.cons_ne_nil _ _) hfits,
    h, List.map_singleton, hclamp]
  rfl

/-- A worker that resumed a sync, returned to a stolen parent that nobody
recorded as stolen, and to one that worker 1 recorded. -/
def exampleReplay (position : Nat) : ReplayState where
  logs     :=
    [[⟨[3], .sync, 1, -1⟩, ⟨[4], .orphaned, 1, -1⟩, ⟨[5], .orphaned, 1, 0⟩, ⟨[], .last, 0, 0⟩],
     [⟨[5], .steal, 1, 0⟩, ⟨[], .last, 0, 0⟩]]
  position := Function.update (fun _ => 0) 0 position

theorem exampleReplay_init : replaySystem.init (exampleReplay 0) := by
  refine ⟨⟨2, [[recordOf .sync 3 0, recordOf .orphaned 4 0, recordOf .orphaned 5 0],
    [recordOf .steal 5 0]], ?_⟩, by simp [exampleReplay]⟩
  have hlast : loadRecordedLog 2 [] = .ok [⟨[], .last, 0, 0⟩] := rfl
  have hfive := loadRecordedLog_recordOf (.inr (.inr rfl)) (show 5 < 2 ^ 63 by decide) 0 hlast
  have hfour := loadRecordedLog_recordOf (.inr (.inr rfl)) (show 4 < 2 ^ 63 by decide) 0 hfive
  have hzero := loadRecordedLog_recordOf (.inr (.inl rfl)) (show 3 < 2 ^ 63 by decide) 0 hfour
  have hone := loadRecordedLog_recordOf (.inl rfl) (show 5 < 2 ^ 63 by decide) 0 hlast
  simp only [replayInitWorkers, List.mapM_cons, List.mapM_nil, hzero, hone]
  rfl

theorem replay_skips_orphans_iff_exampleReplay :
    (StartsRight (exampleReplay 0) ∧ NoStall (exampleReplay 0) ∧
      LTS.AllSteps AdvancesRight (exampleReplay 0) [(0, exampleReplay 2)] ∧
      ∀ p ∈ [(0, exampleReplay 2)], NoStall p.2) ↔
    NoLeadingOrphan (exampleReplay 0) ∧
      LTS.AllSteps NextNotRepeated (exampleReplay 0) [(0, exampleReplay 2)] :=
  replay_skips_orphans_iff exampleReplay_init
    ⟨⟨⟨_, rfl, .inl rfl⟩, by
      simp [exampleReplay, ReplayState.log, nextEntry, ReplayEntry.skipped, List.findIdx_cons]⟩,
      trivial⟩

/-- A worker whose first record is an unmatched orphan stalls there. -/
def stalledReplay : ReplayState where
  logs     := [[⟨[4], .orphaned, 1, -1⟩, ⟨[], .last, 0, 0⟩]]
  position := fun _ => 0

theorem replay_stalls : ¬ ∀ s tr, replaySystem.init s → replaySystem.IsPath s tr →
    StartsRight s ∧ NoStall s ∧ LTS.AllSteps AdvancesRight s tr ∧ ∀ p ∈ tr, NoStall p.2 := by
  intro h
  have hinit : replaySystem.init stalledReplay := by
    refine ⟨⟨1, [[recordOf .orphaned 4 0]], ?_⟩, rfl⟩
    have hlast : loadRecordedLog 1 [] = .ok [⟨[], .last, 0, 0⟩] := rfl
    have hzero := loadRecordedLog_recordOf (.inr (.inr rfl)) (show 4 < 2 ^ 63 by decide) 0 hlast
    simp only [replayInitWorkers, List.mapM_cons, List.mapM_nil, hzero]
    rfl
  obtain ⟨-, hstall, -⟩ := h stalledReplay [] hinit trivial
  refine hstall 0 ⟨[4], .orphaned, 1, -1⟩ rfl ⟨rfl, ?_⟩
  simp [stalledReplay]

end SwanRuntime.Replay
