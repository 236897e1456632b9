import SwanRuntime.Library.Checked
import SwanRuntime.Library.Text

/-!
# Replay logs — the code

A worker that records a run writes one line for every steal, every sync that it
resumes and every return to a stolen parent: the type of the record, the
pedigree of the strand and two integers. To replay the run, each worker's log is
read back into a list of entries, which ends with an entry of type `last`.

A pedigree is a chain of nodes from the leaf to the root; the model lists the
ranks of the nodes in that order. Ranks are 64 bits wide.
-/

namespace SwanRuntime.Replay

open Text

-- ---------------------------------------------------------------------------
-- Entries
-- ---------------------------------------------------------------------------

/-- `ped_type_t`. -/
inductive PedType
  | unknown
  | steal
  | sync
  | orphaned
  | last
deriving DecidableEq, Repr

/-- `PED_VERSION`. -/
def pedVersion : Int := 1

/-- `PED_TYPE_STR_WORKERS`. -/
def pedTypeStrWorkers : List Char := "Workers".toList

/-- The string with which a type of record is written: `PED_TYPE_STR_STEAL`,
`PED_TYPE_STR_SYNC`, `PED_TYPE_STR_ORPHANED`. The other types are not written. -/
def PedType.str : PedType → List Char
  | .steal => "Steal".toList
  | .sync => "Sync".toList
  | .orphaned => "Orphaned".toList
  | .unknown | .last => []

/-- `PEDIGREE_BUFF_SIZE`. -/
def pedigreeBuffSize : Nat := 512

/-- The conversion to `int16_t`. -/
def toInt16 (i : Int) : Int := i.bmod (2 ^ 16)

/-- `replay_entry_t`. -/
structure ReplayEntry where
  reversePedigree : List Nat
  type            : PedType
  pedigreeLen     : Int
  value           : Int
deriving DecidableEq, Repr

/-- The type that `load` recognises. -/
def loadType (type : List Char) : PedType :=
  if type = PedType.steal.str then .steal
  else if type = PedType.sync.str then .sync
  else if type = PedType.orphaned.str then .orphaned
  else .unknown

/-- The loop of `load` over the terms of a pedigree: each is read by `strtol`
and stored as an unsigned number, and the character behind it is passed over. -/
def loadTerms (cs : List Char) : List Nat :=
  ((strtol cs).1 % 2 ^ 64).toNat :: match _h : (strtol cs).2 with
    | [] => []
    | _ :: rest => loadTerms rest
termination_by cs.length
decreasing_by
  have hlen := strtol_length cs
  rw [_h] at hlen
  exact hlen

/-- `replay_entry_t::load`. -/
def load (type pedigree : List Char) (value1 : Int) : ReplayEntry :=
  let terms := loadTerms pedigree
  match loadType type with
  | .unknown => ⟨[], .unknown, 0, -1⟩
  | .steal => ⟨terms.reverse, .steal, toInt16 terms.length, toInt16 value1⟩
  | t => ⟨terms.reverse, t, toInt16 terms.length, -1⟩

/-- The loop of `match`: the node reached and the index, or a difference in
rank. -/
def matchLoop (e : ReplayEntry) : List Nat → Nat → Option (List Nat × Nat)
  | [], i => some ([], i)
  | rank :: parents, i =>
    if (i : Int) < e.pedigreeLen then
      if rank ≠ e.reversePedigree.getD i 0 then none
      else matchLoop e parents (i + 1)
    else some (rank :: parents, i)

/-- `replay_entry_t::match`. -/
def ReplayEntry.match (e : ReplayEntry) (type : PedType) (node : List Nat) (victim : Int) : Bool :=
  if type ≠ e.type then false
  else if type = .steal ∧ victim ≠ e.value then false
  else
    match matchLoop e node 0 with
    | none => false
    | some (node, i) => node = [] && decide ((i : Int) = e.pedigreeLen)

-- ---------------------------------------------------------------------------
-- Recording
-- ---------------------------------------------------------------------------

/-- `walk_pedigree_nodes`, where the helpers write what they are given: the root is
written first. -/
def walkPedigreeNodes : List Nat → List Char
  | [] => []
  | [rank] => printUnsigned rank
  | rank :: parents => walkPedigreeNodes parents ++ '_' :: printUnsigned rank

/-- `write_to_replay_log`, where the helpers write what they are given: the line
written. -/
def writeToReplayLog (type : PedType) (initialNode : List Nat) (i1 i2 : Int) : List Char :=
  let pedigree := if initialNode = [] then ['0'] else walkPedigreeNodes initialNode
  type.str ++ ' ' :: pedigree ++ ' ' :: printInt i1 ++ ' ' :: printInt i2 ++ ['\n']

-- ---------------------------------------------------------------------------
-- Loading
-- ---------------------------------------------------------------------------

/-- What `fscanf` reads from a line. -/
structure Record where
  type     : List Char
  pedigree : List Char
  i1       : Int
  i2       : Int
deriving DecidableEq, Repr

/-- `fscanf(f, "%s %s %d %d\n", ..)`, which must read four fields. -/
def scanRecord (line : List Char) : Checked (Record × List Char) :=
  let (type, line) := scanWord line
  let (pedigree, line) := scanWord line
  match scanInt line with
  | none => throw "4 == fret"
  | some (i1, line) =>
    match scanInt line with
    | none => throw "4 == fret"
    | some (i2, line) =>
      if type = [] ∨ pedigree = [] then throw "4 == fret"
      else return (⟨type, pedigree, i1, i2⟩, line.dropWhile isSpace)

/-- The loop of `load_recorded_log` over the records of a log, with `P` workers.
The entry of type `last` is stored first, by `allocate_replay_list`. -/
def loadRecordedLog (P : Int) : List Record → Checked (List ReplayEntry)
  | [] => return [⟨[], .last, 0, 0⟩]
  | r :: records => do
    if r.type = pedTypeStrWorkers then
      if r.i1 ≠ P then throw "Cannot continue replay: number of workers doesn't match"
      else if pedVersion ≠ r.i2 then throw "Pedigree file version doesn't match"
      else loadRecordedLog P records
    else
      return load r.type r.pedigree r.i1 :: (← loadRecordedLog P records)

end SwanRuntime.Replay
