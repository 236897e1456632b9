import SwanRuntime.Settings.Values

/-!
# Settings — the environment

The settings start with defaults, and with what the environment says. All
variables are fetched through one buffer, which `cilkos_getenv` leaves as it is
when a value does not fit. Its result is the length that would be needed then,
which is not 0, so the caller stores what an earlier variable has left in the
buffer, or what happened to be on the stack.

## Results

* `field_of_fits`   — a field whose variable fits.
* `field_of_long`   — a field whose variable does not.
* `independent_iff` — when a field depends on its own variable only.
-/

namespace SwanRuntime.Settings

-- ---------------------------------------------------------------------------
-- The code
-- ---------------------------------------------------------------------------

/-- What the settings depend on besides the environment: the number of processors,
which is positive and of which 16 times fits an `int`, the tools that the program
runs under, and the C library. -/
structure Platform where
  /-- `__cilkrts_hardware_cpu_count`. -/
  hardwareCpuCount : Int
  /-- `__cilkrts_running_under_sequential_ptool`. -/
  underPtool       : Bool
  /-- `always_force_reduce`. -/
  forceReduce      : Bool
  /-- Whether `strtol` reports that there is no number. -/
  einval           : Bool
  pos              : 0 < hardwareCpuCount
  fits             : 16 * hardwareCpuCount ≤ intMax

/-- The values of the global state that the user can set. -/
structure UserSettings where
  forceReduce         : Int
  P                   : Int
  maxUserWorkers      : Int
  fiberPoolSize       : Int
  globalFiberPoolSize : Int
  maxStacks           : Int
  maxStealFailures    : Int
  stackSize           : Int
  totalWorkers        : Int
deriving DecidableEq, Repr

/-- The value of each variable that is set. -/
abbrev Environment := String → Option (List Char)

/-- `cilk_strlen`, which looks at 4 KB at most. -/
def cilkStrlen (s : List Char) : Nat := min s.length 4096

/-- `cilkos_getenv`: its result, and the buffer of length `vallen` after it. -/
def cilkosGetenv (env : Environment) (value : List Char) (vallen : Nat) (varname : String) :
    Nat × List Char :=
  match env varname with
  | some envstr =>
    if cilkStrlen envstr > vallen - 1 then (cilkStrlen envstr + 1, value)
    else (cilkStrlen envstr, envstr)
  | none => (0, [])

/-- `sizeof(envstr)`. -/
def envstrSize : Nat := 24

/-- Fetch a variable and, if the result is not 0, store what is in the buffer: the
value of the field and the buffer after it. -/
def readVariable (env : Environment) (envstr : List Char) (varname : String) (field : Int)
    (store : Int → List Char → Status × Int) : Int × List Char :=
  let (len, envstr) := cilkosGetenv env envstr envstrSize varname
  (if len ≠ 0 then (store field envstr).2 else field, envstr)

/-- The number of processors that the defaults and limits are based on. -/
def Platform.cpuCount (p : Platform) : Int := if p.underPtool then 1 else p.hardwareCpuCount

/-- `calc_max_user_workers`. -/
def calcMaxUserWorkers (P maxUserWorkers : Int) : Int :=
  if maxUserWorkers > 0 then maxUserWorkers else max 3 (P * 2)

/-- `cilkg_get_user_settable_values`, when it is called for the first time.
`envstr` is what happens to be in the buffer. -/
def cilkgGetUserSettableValues (p : Platform) (env : Environment) (envstr : List Char) :
    UserSettings :=
  let (forceReduce, envstr) :=
    if p.forceReduce then (1, envstr)
    else readVariable env envstr "CILK_FORCE_REDUCE" 0 storeBool
  let (P, envstr) :=
    if p.underPtool then (1, envstr)
    else readVariable env envstr "CILK_NWORKERS" p.cpuCount fun out val =>
      storeInt p.einval .int out val 1 (16 * p.cpuCount)
  let (maxUserWorkers, envstr) :=
    readVariable env envstr "CILK_MAX_USER_WORKERS" 0 fun out val =>
      storeInt p.einval .int out val 1 (16 * p.cpuCount)
  let (maxStealFailures, _) :=
    readVariable env envstr "CILK_STEAL_FAILURES" 128 fun out val =>
      storeInt p.einval .unsigned out val 1 intMax
  { forceReduce := forceReduce
    P := P
    maxUserWorkers := maxUserWorkers
    fiberPoolSize := 7
    globalFiberPoolSize := 3 * 3 * p.cpuCount
    maxStacks := 2400
    maxStealFailures := maxStealFailures
    stackSize := 0
    totalWorkers := P + calcMaxUserWorkers P maxUserWorkers - 1 }

-- ---------------------------------------------------------------------------
-- Variables
-- ---------------------------------------------------------------------------

/-- The variables that govern a field each. -/
inductive Variable
  | forceReduce
  | nworkers
  | maxUserWorkers
  | stealFailures
deriving DecidableEq, Repr

namespace Variable

def name : Variable → String
  | forceReduce => "CILK_FORCE_REDUCE"
  | nworkers => "CILK_NWORKERS"
  | maxUserWorkers => "CILK_MAX_USER_WORKERS"
  | stealFailures => "CILK_STEAL_FAILURES"

/-- The field that the variable governs. -/
def field : Variable → UserSettings → Int
  | forceReduce => UserSettings.forceReduce
  | nworkers => UserSettings.P
  | maxUserWorkers => UserSettings.maxUserWorkers
  | stealFailures => UserSettings.maxStealFailures

/-- What the field is when the variable is not set. -/
def default (p : Platform) : Variable → Int
  | forceReduce => if p.forceReduce then 1 else 0
  | nworkers => p.cpuCount
  | maxUserWorkers => 0
  | stealFailures => 128

/-- A tool that the program runs under determines the field. -/
def ignored (p : Platform) : Variable → Bool
  | forceReduce => p.forceReduce
  | nworkers => p.underPtool
  | _ => false

/-- What is done with the value. -/
def store (p : Platform) : Variable → Int → List Char → Status × Int
  | forceReduce => storeBool
  | nworkers => fun out val => storeInt p.einval .int out val 1 (16 * p.cpuCount)
  | maxUserWorkers => fun out val => storeInt p.einval .int out val 1 (16 * p.cpuCount)
  | stealFailures => fun out val => storeInt p.einval .unsigned out val 1 intMax

end Variable

/-- The value, with its terminator, fits the buffer. -/
def Fits (x : Option (List Char)) : Prop := ∀ s, x = some s → s.length < envstrSize

/-- The field depends on its own variable only, which has the value `x`, and is
left at the default when that does not fit. -/
structure Independent (p : Platform) (v : Variable) (x : Option (List Char)) : Prop where
  same    : ∀ env env' envstr, env v.name = x → env' v.name = x →
    v.field (cilkgGetUserSettableValues p env envstr) =
      v.field (cilkgGetUserSettableValues p env' envstr)
  default : ¬ Fits x → ∀ env envstr, env v.name = x →
    v.field (cilkgGetUserSettableValues p env envstr) = v.default p

-- ---------------------------------------------------------------------------
-- Reading
-- ---------------------------------------------------------------------------

section Reading

variable {p : Platform} {v : Variable} {env : Environment} {envstr s : List Char} {name : String}

theorem cilkStrlen_lt_iff : cilkStrlen s < envstrSize ↔ s.length < envstrSize := by
  unfold cilkStrlen envstrSize
  omega

/-- A value that fits is fetched. -/
theorem cilkosGetenv_fits (h : Fits (env name)) :
    cilkosGetenv env envstr envstrSize name = ((env name).elim 0 (·.length), (env name).getD []) := by
  unfold cilkosGetenv
  cases hs : env name with
  | none => rfl
  | some s =>
    have hlt := h s hs
    have hlen : cilkStrlen s = s.length := by
      unfold cilkStrlen
      unfold envstrSize at hlt
      omega
    dsimp only
    rw [hlen, if_neg (by unfold envstrSize at *; omega)]
    rfl

/-- A value that does not fit leaves the buffer as it is. -/
theorem cilkosGetenv_long (hs : env name = some s) (h : ¬ s.length < envstrSize) :
    cilkosGetenv env envstr envstrSize name = (cilkStrlen s + 1, envstr) := by
  have hlt := mt cilkStrlen_lt_iff.mp h
  unfold cilkosGetenv
  rw [hs]
  dsimp only
  rw [if_pos (by unfold envstrSize at *; omega)]

/-- What the buffer holds after the variable has been fetched, unless it is ignored. -/
def bufferAfter (p : Platform) (env : Environment) (v : Variable) (envstr : List Char) :
    List Char :=
  if v.ignored p then envstr else (cilkosGetenv env envstr envstrSize v.name).2

/-- What the buffer holds when the variable is fetched. -/
def bufferBefore (p : Platform) (env : Environment) (envstr : List Char) : Variable → List Char
  | .forceReduce => envstr
  | .nworkers => bufferAfter p env .forceReduce envstr
  | .maxUserWorkers => bufferAfter p env .nworkers (bufferAfter p env .forceReduce envstr)
  | .stealFailures => bufferAfter p env .maxUserWorkers
      (bufferAfter p env .nworkers (bufferAfter p env .forceReduce envstr))

/-- A field is read from its variable, if that is not ignored. -/
theorem field_eq (p : Platform) (v : Variable) (env : Environment) (envstr : List Char) :
    v.field (cilkgGetUserSettableValues p env envstr) =
      if v.ignored p then v.default p
      else (readVariable env (bufferBefore p env envstr v) v.name (v.default p) (v.store p)).1 := by
  unfold cilkgGetUserSettableValues
  cases hforce : p.forceReduce <;> cases htool : p.underPtool <;> cases v <;>
    simp [Variable.field, Variable.ignored, Variable.default, Variable.name, Variable.store,
      bufferBefore, bufferAfter, readVariable, hforce, htool, Platform.cpuCount]

/-- A field whose variable fits, or is ignored, is a function of the value. -/
theorem field_of_fits (h : Fits (env v.name) ∨ v.ignored p = true) :
    v.field (cilkgGetUserSettableValues p env envstr) =
      if v.ignored p = true ∨ ¬ 0 < (env v.name).elim 0 (·.length) then v.default p
      else (v.store p (v.default p) ((env v.name).getD [])).2 := by
  rw [field_eq]
  by_cases hignored : v.ignored p = true
  · rw [if_pos hignored, if_pos (Or.inl hignored)]
  · have hfits := h.resolve_right hignored
    rw [if_neg hignored]
    unfold readVariable
    rw [cilkosGetenv_fits hfits]
    by_cases hlen : 0 < (env v.name).elim 0 (·.length)
    · rw [if_neg (by tauto)]
      exact if_pos (Nat.ne_of_gt hlen)
    · rw [if_pos (Or.inr hlen)]
      exact if_neg fun hne => hlen (Nat.pos_of_ne_zero hne)

/-- A field whose variable does not fit is read from what is in the buffer. -/
theorem field_of_long (hs : env v.name = some s) (hlong : ¬ s.length < envstrSize)
    (hignored : v.ignored p = false) :
    v.field (cilkgGetUserSettableValues p env envstr) =
      (v.store p (v.default p) (bufferBefore p env envstr v)).2 := by
  rw [field_eq, if_neg (by rw [hignored]; exact Bool.false_ne_true)]
  unfold readVariable
  rw [cilkosGetenv_long hs hlong]
  dsimp only
  rw [if_pos (Nat.succ_ne_zero (cilkStrlen s))]

end Reading

-- ---------------------------------------------------------------------------
-- What is left in the buffer
-- ---------------------------------------------------------------------------

section Stale

variable {p : Platform} {v : Variable} {d : List Char}

/-- The variables other than `v` have the value `d`. -/
def othersAre (v : Variable) (x : Option (List Char)) (d : List Char) : Environment := fun name =>
  if name = v.name then x else some d

theorem othersAre_self (v : Variable) (x : Option (List Char)) (d : List Char) :
    othersAre v x d v.name = x := if_pos rfl

theorem Variable.name_injective {v w : Variable} (h : v.name = w.name) : v = w := by
  cases v <;> cases w <;> first | rfl | exact absurd h (by decide)

/-- A variable with the value `d` leaves that, if it was there before. -/
theorem bufferAfter_others {x : Option (List Char)} {w : Variable} (hw : w ≠ v)
    (hd : d.length < envstrSize) : bufferAfter p (othersAre v x d) w d = d := by
  have hvalue : othersAre v x d w.name = some d := if_neg (mt Variable.name_injective hw)
  unfold bufferAfter
  split
  · rfl
  · rw [cilkosGetenv_fits (fun s hs => by rwa [← Option.some.inj (hvalue.symm.trans hs)]), hvalue]
    rfl

/-- So the value is what `v` finds in the buffer. -/
theorem bufferBefore_others {x : Option (List Char)} (hd : d.length < envstrSize) :
    bufferBefore p (othersAre v x d) d v = d := by
  cases v with
  | forceReduce => rfl
  | nworkers => exact bufferAfter_others (by decide) hd
  | maxUserWorkers =>
    unfold bufferBefore
    rw [bufferAfter_others (by decide) hd, bufferAfter_others (by decide) hd]
  | stealFailures =>
    unfold bufferBefore
    rw [bufferAfter_others (by decide) hd, bufferAfter_others (by decide) hd,
      bufferAfter_others (by decide) hd]

/-- For each variable there is a value that is stored and is not the default. -/
theorem exists_stored (hignored : v.ignored p = false) :
    ∃ d : List Char, d.length < envstrSize ∧ (v.store p (v.default p) d).2 ≠ v.default p := by
  have hpos : 0 < p.cpuCount := by
    unfold Platform.cpuCount
    split
    · decide
    · exact p.pos
  have hfits : 16 * p.cpuCount ≤ intMax := by
    unfold Platform.cpuCount
    split
    · decide
    · exact p.fits
  have hone : Text.scanInt "1".toList = some (1, []) := by decide
  have htwo : Text.scanInt "2".toList = some (2, []) := by decide
  have hbounds : Bounds 1 (16 * p.cpuCount) := ⟨by decide, by omega, hfits⟩
  cases v with
  | forceReduce =>
    refine ⟨"1".toList, by decide, ?_⟩
    have hforce : p.forceReduce = false := hignored
    change (storeBool (if p.forceReduce then 1 else 0) "1".toList).2 ≠
      if p.forceReduce then 1 else 0
    rw [hforce]
    decide
  | nworkers =>
    -- 2 where the default is 1
    by_cases hcpu : p.cpuCount = 1
    · refine ⟨"2".toList, by decide, ?_⟩
      change (storeInt p.einval .int p.cpuCount "2".toList 1 (16 * p.cpuCount)).2 ≠ p.cpuCount
      rw [storeInt_scanInt hbounds htwo, if_pos (by omega), hcpu]
      decide
    · refine ⟨"1".toList, by decide, ?_⟩
      change (storeInt p.einval .int p.cpuCount "1".toList 1 (16 * p.cpuCount)).2 ≠ p.cpuCount
      rw [storeInt_scanInt hbounds hone, if_pos (by omega)]
      exact Ne.symm hcpu
  | maxUserWorkers =>
    refine ⟨"1".toList, by decide, ?_⟩
    change (storeInt p.einval .int 0 "1".toList 1 (16 * p.cpuCount)).2 ≠ 0
    rw [storeInt_scanInt hbounds hone, if_pos (by omega)]
    decide
  | stealFailures =>
    refine ⟨"1".toList, by decide, ?_⟩
    change (storeInt p.einval .unsigned 128 "1".toList 1 intMax).2 ≠ 128
    rw [storeInt_scanInt ⟨by decide, by decide, Int.le_refl _⟩ hone, if_pos (by decide)]
    decide

end Stale

-- ---------------------------------------------------------------------------
-- Independence
-- ---------------------------------------------------------------------------

/-- A field depends on its own variable only iff the value fits the buffer, or the
variable is ignored. -/
theorem independent_iff (p : Platform) (v : Variable) (x : Option (List Char)) :
    Independent p v x ↔ Fits x ∨ v.ignored p = true := by
  constructor
  · intro h
    by_contra hno
    push Not at hno
    obtain ⟨hfits, hignored⟩ := hno
    have hlong : ∃ s, x = some s ∧ ¬ s.length < envstrSize := by
      unfold Fits at hfits
      push Not at hfits
      obtain ⟨s, hs, hle⟩ := hfits
      exact ⟨s, hs, Nat.not_lt.mpr hle⟩
    obtain ⟨s, rfl, hs⟩ := hlong
    have hignored : v.ignored p = false := Bool.eq_false_iff.mpr hignored
    -- what the other variables have left in the buffer is stored
    obtain ⟨d, hd, hstored⟩ := exists_stored hignored
    have hself := othersAre_self v (some s) d
    have hfield : v.field (cilkgGetUserSettableValues p (othersAre v (some s) d) d) =
        (v.store p (v.default p) d).2 := by
      rw [field_of_long hself hs hignored, bufferBefore_others hd]
    exact hstored (hfield.symm.trans (h.default hfits _ _ hself))
  · intro h
    constructor
    case same =>
      rintro env env' envstr rfl henv'
      rw [field_of_fits h, field_of_fits (henv' ▸ h), henv']
    case default =>
      rintro hlong env envstr rfl
      rw [field_of_fits h, if_pos (Or.inl (h.resolve_left hlong))]

/-- A value of 24 characters for `CILK_NWORKERS`: the number of workers is what
`CILK_FORCE_REDUCE` says. -/
theorem independent_stale :
    let p : Platform := ⟨4, false, false, false, by decide, by decide⟩
    let long : List Char := List.replicate 24 '9'
    let P := fun d =>
      (cilkgGetUserSettableValues p (othersAre .nworkers (some long) d) []).P
    P "1".toList = 1 ∧ P "true".toList = 4 ∧ ¬ Independent p .nworkers (some long) := by
  refine ⟨by decide +kernel, by decide +kernel, fun h => ?_⟩
  have hdefault := h.default (fun hfits => absurd (hfits _ rfl) (by decide))
    (othersAre .nworkers (some (List.replicate 24 '9')) "1".toList) [] (othersAre_self _ _ _)
  exact absurd hdefault (by decide +kernel)

end SwanRuntime.Settings
