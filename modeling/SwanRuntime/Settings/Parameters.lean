import SwanRuntime.Library.Transition
import SwanRuntime.Settings.Environment

/-!
# Settings — parameters

`__cilkrts_set_param` sets one of seven parameters. A call that fails leaves the
settings alone, with one exception that is made on purpose: the stack size is
converted at once to the size that the runtime will use, whether or not a new one
has been stored, so that a program that asks for the size is told what it will be.

When the runtime starts, the settings that depend on each other are adjusted, and
some can no longer be changed until it ends.

## Results

* `setParamImp_spec`   — what a call does to the settings.
* `settings_reachable` — the settings are in range at all times.
* `setParam_spec`      — both, and what a call can do to settings in range.
-/

namespace SwanRuntime.Settings

-- ---------------------------------------------------------------------------
-- The code
-- ---------------------------------------------------------------------------

/-- `PAGE`. -/
def page : Int := 4096

/-- `CILK_MIN_STACK_SIZE`. -/
def minStackSize : Int := 4 * page

/-- `CILK_DEFAULT_STACK_SIZE`. -/
def defaultStackSize : Int := 0x100000

/-- `cilkos_validate_stack_size`, on a `size_t`. -/
def cilkosValidateStackSize (specified : Int) : Int :=
  if specified = 0 then defaultStackSize
  else if specified ≤ minStackSize then minStackSize
  else if specified % page > 0 then (page * (1 + specified / page)) % 2 ^ 64
  else specified

/-- `set_param_imp`. `published` says that the runtime has been started
(`cilkg_singleton_ptr`); `none` is a null pointer. -/
def setParamImp (p : Platform) (published : Bool) (g : UserSettings) (param : Option String)
    (value : Option (List Char)) : Status × UserSettings :=
  match param, value with
  | none, _ => (.invalid, g)
  | some _, none => (.invalid, g)
  | some param, some value =>
    if param = "force reduce" then
      if p.forceReduce then (.late, g)
      else
        let (ret, n) := storeBool g.forceReduce value
        (ret, { g with forceReduce := n })
    else if param = "nworkers" then
      if published then (.late, g)
      else
        let maxCpuCount := if p.underPtool then 1 else 16 * p.hardwareCpuCount
        -- 0 means "set to hardware thread count"
        let (ret, n) := storeInt p.einval .int g.P value 0 maxCpuCount
        (ret, { g with P := if n = 0 then p.cpuCount else n })
    else if param = "max user workers" then
      let (ret, n) := storeInt p.einval .int g.maxUserWorkers value 1 (16 * p.hardwareCpuCount)
      (ret, { g with maxUserWorkers := n })
    else if param = "local stacks" then
      let (ret, n) := storeInt p.einval .int g.fiberPoolSize value 0 42
      (ret, { g with fiberPoolSize := n })
    else if param = "shared stacks" then
      let (ret, n) := storeInt p.einval .int g.globalFiberPoolSize value 0 42
      (ret, { g with globalFiberPoolSize := n })
    else if param = "nstacks" then
      if published then (.late, g)
      else
        let (ret, n) := storeInt p.einval .unsigned g.maxStacks value 0 intMax
        (ret, { g with maxStacks := n })
    else if param = "stack size" then
      if published then (.late, g)
      else
        let (ret, n) := storeInt p.einval .size g.stackSize value 0 intMax
        (ret, { g with stackSize := cilkosValidateStackSize n })
    else (.unimp, g)

/-- What `cilkg_init_global_state` does to the settings when the runtime has not
been started. -/
def cilkgInitGlobalState (g : UserSettings) : UserSettings :=
  let g :=
    if g.maxStacks > 0 then
      -- about max_stacks / P stacks, but at least 1, in each pool
      let perPool := if g.maxStacks / g.P < g.fiberPoolSize then g.maxStacks / g.P
        else g.fiberPoolSize
      let perPool := if perPool ≤ 0 then 1 else perPool
      { g with
        fiberPoolSize := perPool
        maxStacks := if g.maxStacks < g.P then g.P else g.maxStacks
        globalFiberPoolSize := g.P * (perPool + 1) }
    else g
  { g with
    totalWorkers := g.P + calcMaxUserWorkers g.P g.maxUserWorkers - 1
    stackSize := cilkosValidateStackSize g.stackSize }

-- ---------------------------------------------------------------------------
-- Parameters
-- ---------------------------------------------------------------------------

/-- The parameters. -/
inductive Parameter
  | forceReduce
  | nworkers
  | maxUserWorkers
  | localStacks
  | sharedStacks
  | nstacks
  | stackSize
deriving DecidableEq, Repr

namespace Parameter

def name : Parameter → String
  | forceReduce => "force reduce"
  | nworkers => "nworkers"
  | maxUserWorkers => "max user workers"
  | localStacks => "local stacks"
  | sharedStacks => "shared stacks"
  | nstacks => "nstacks"
  | stackSize => "stack size"

/-- The field that the parameter addresses. -/
def field : Parameter → UserSettings → Int
  | forceReduce => UserSettings.forceReduce
  | nworkers => UserSettings.P
  | maxUserWorkers => UserSettings.maxUserWorkers
  | localStacks => UserSettings.fiberPoolSize
  | sharedStacks => UserSettings.globalFiberPoolSize
  | nstacks => UserSettings.maxStacks
  | stackSize => UserSettings.stackSize

/-- The settings with another value of the field. -/
def set : Parameter → UserSettings → Int → UserSettings
  | forceReduce, g, n => { g with forceReduce := n }
  | nworkers, g, n => { g with P := n }
  | maxUserWorkers, g, n => { g with maxUserWorkers := n }
  | localStacks, g, n => { g with fiberPoolSize := n }
  | sharedStacks, g, n => { g with globalFiberPoolSize := n }
  | nstacks, g, n => { g with maxStacks := n }
  | stackSize, g, n => { g with stackSize := n }

/-- The default takes the place of 0, and a stack size is rounded up. -/
def normal (p : Platform) : Parameter → Int → Int
  | nworkers, n => if n = 0 then p.cpuCount else n
  | stackSize, n => cilkosValidateStackSize n
  | _, n => n

/-- The parameter cannot be set: the runtime has been started, or a tool has forced
the reductions. -/
def late (p : Platform) (published : Bool) : Parameter → Bool
  | forceReduce => p.forceReduce
  | nworkers | nstacks | stackSize => published
  | _ => false

/-- How the value is read. -/
def store (p : Platform) : Parameter → Int → List Char → Status × Int
  | forceReduce, out, val => storeBool out val
  | nworkers, out, val =>
    storeInt p.einval .int out val 0 (if p.underPtool then 1 else 16 * p.hardwareCpuCount)
  | maxUserWorkers, out, val => storeInt p.einval .int out val 1 (16 * p.hardwareCpuCount)
  | localStacks, out, val => storeInt p.einval .int out val 0 42
  | sharedStacks, out, val => storeInt p.einval .int out val 0 42
  | nstacks, out, val => storeInt p.einval .unsigned out val 0 intMax
  | stackSize, out, val => storeInt p.einval .size out val 0 intMax

/-- The range of the field. -/
def InRange (p : Platform) : Parameter → Int → Prop
  | forceReduce, n => n = 0 ∨ n = 1
  | nworkers, n => 1 ≤ n ∧ n ≤ if p.underPtool then 1 else 16 * p.hardwareCpuCount
  | maxUserWorkers, n => 1 ≤ n ∧ n ≤ 16 * p.hardwareCpuCount
  | localStacks, n => 0 ≤ n ∧ n ≤ 42
  | sharedStacks, n => 0 ≤ n ∧ n ≤ 42
  | nstacks, n => 0 ≤ n ∧ n ≤ intMax
  | stackSize, n => minStackSize ≤ n ∧ page ∣ n

end Parameter

-- ---------------------------------------------------------------------------
-- One call
-- ---------------------------------------------------------------------------

/-- The number that is stored is in range, or nothing is. -/
theorem storeInt_cases {min max : Int} (h : Bounds min max) (einval : Bool) (T : IntType)
    (out : Int) (val : List Char) :
    (∃ n, storeInt einval T out val min max = (.success, n) ∧ min ≤ n ∧ n ≤ max) ∨
      ∃ ret, storeInt einval T out val min max = (ret, out) ∧ ret ≠ .success := by
  cases hscan : Text.scanInt val with
  | none =>
    rw [storeInt_none h hscan]
    split
    · exact .inr ⟨.invalid, rfl, by decide⟩
    · split
      · rename_i hmin
        exact .inl ⟨0, rfl, by omega, by rw [← hmin]; exact h.le⟩
      · exact .inr ⟨.xrange, rfl, by decide⟩
  | some read =>
    obtain ⟨i, rest⟩ := read
    rw [storeInt_scanInt h hscan]
    split
    · rename_i hin
      exact .inl ⟨i, rfl, hin⟩
    · exact .inr ⟨.xrange, rfl, by decide⟩

/-- A switch is 0 or 1, or nothing is stored. -/
theorem storeBool_cases (out : Int) (val : List Char) :
    (∃ n, storeBool out val = (.success, n) ∧ (n = 0 ∨ n = 1)) ∨
      ∃ ret, storeBool out val = (ret, out) ∧ ret ≠ .success := by
  unfold storeBool
  split
  · exact .inl ⟨0, rfl, .inl rfl⟩
  · split
    · exact .inl ⟨1, rfl, .inr rfl⟩
    · exact .inr ⟨.invalid, rfl, by decide⟩

/-- The size is rounded up to the minimum or to a page, unless it overflows. -/
theorem validate_inRange {n : Int} (h : 0 ≤ n) (hmax : n + page < 2 ^ 64) :
    minStackSize ≤ cilkosValidateStackSize n ∧ page ∣ cilkosValidateStackSize n := by
  unfold cilkosValidateStackSize minStackSize defaultStackSize page at *
  split
  · decide
  · split
    · decide
    · split
      · omega
      · omega

/-- A size that has been rounded up stays. -/
theorem validate_of_inRange {n : Int} (h : minStackSize ≤ n) (hpage : page ∣ n) :
    cilkosValidateStackSize n = n := by
  unfold cilkosValidateStackSize minStackSize page at *
  omega

/-- What a call does: when it succeeds, the field of the parameter, and nothing
else, gets a value in range; when it fails, nothing changes, or the field of the
parameter becomes normal. -/
structure SetParamSpec (p : Platform) (published : Bool) (g : UserSettings)
    (param : Option String) (value : Option (List Char)) : Prop where
  success : (setParamImp p published g param value).1 = .success →
    ∃ (q : Parameter) (n : Int), param = some q.name ∧ q.late p published = false ∧
      q.InRange p n ∧ (setParamImp p published g param value).2 = q.set g n
  failure : (setParamImp p published g param value).1 ≠ .success →
    (setParamImp p published g param value).2 = g ∨
      ∃ q : Parameter, param = some q.name ∧ q.late p published = false ∧
        (setParamImp p published g param value).2 = q.set g (q.normal p (q.field g))

section Call

variable {p : Platform} {published : Bool} {g : UserSettings} {param : Option String}
  {value : Option (List Char)}

/-- The call for a parameter. -/
theorem setParamImp_name (q : Parameter) (val : List Char) :
    setParamImp p published g (some q.name) (some val) =
      if q.late p published then (.late, g)
      else ((q.store p (q.field g) val).1,
        q.set g (q.normal p (q.store p (q.field g) val).2)) := by
  cases q <;> rfl

/-- Other names are not known. -/
theorem setParamImp_unknown {name : String} (h : ∀ q : Parameter, name ≠ q.name)
    (val : List Char) : setParamImp p published g (some name) (some val) = (.unimp, g) := by
  have hforce : name ≠ "force reduce" := h .forceReduce
  have hnworkers : name ≠ "nworkers" := h .nworkers
  have huser : name ≠ "max user workers" := h .maxUserWorkers
  have hlocal : name ≠ "local stacks" := h .localStacks
  have hshared : name ≠ "shared stacks" := h .sharedStacks
  have hnstacks : name ≠ "nstacks" := h .nstacks
  have hsize : name ≠ "stack size" := h .stackSize
  unfold setParamImp
  dsimp only
  rw [if_neg hforce, if_neg hnworkers, if_neg huser, if_neg hlocal, if_neg hshared,
    if_neg hnstacks, if_neg hsize]

theorem Platform.cpuCount_bounds (p : Platform) :
    1 ≤ p.cpuCount ∧ p.cpuCount ≤ (if p.underPtool then 1 else 16 * p.hardwareCpuCount) ∧
      p.cpuCount ≤ 16 * p.hardwareCpuCount := by
  have hpos := p.pos
  unfold Platform.cpuCount
  split <;> omega

/-- A value that is stored becomes one in range. -/
theorem Parameter.store_cases (q : Parameter) (out : Int) (val : List Char) :
    (∃ n, q.store p out val = (.success, n) ∧ q.InRange p (q.normal p n)) ∨
      ∃ ret, q.store p out val = (ret, out) ∧ ret ≠ .success := by
  have hpos := p.pos
  have hfits := p.fits
  have hcpu := p.cpuCount_bounds
  have hsmall : (42 : Int) ≤ intMax := by decide
  have hnonneg : (0 : Int) ≤ intMax := by decide
  cases q with
  | forceReduce => exact storeBool_cases out val
  | nworkers =>
    have hbounds : Bounds 0 (if p.underPtool then 1 else 16 * p.hardwareCpuCount) :=
      ⟨Int.le_refl _, by split <;> omega, by split <;> omega⟩
    refine (storeInt_cases hbounds p.einval .int out val).imp_left fun ⟨n, hn, hlow, hhigh⟩ => ?_
    refine ⟨n, hn, ?_⟩
    change 1 ≤ (if n = 0 then p.cpuCount else n) ∧ (if n = 0 then p.cpuCount else n) ≤ _
    split
    · exact ⟨hcpu.1, hcpu.2.1⟩
    · exact ⟨by omega, hhigh⟩
  | maxUserWorkers =>
    exact storeInt_cases ⟨by decide, by omega, hfits⟩ p.einval .int out val
  | localStacks => exact storeInt_cases ⟨by decide, by decide, hsmall⟩ p.einval .int out val
  | sharedStacks => exact storeInt_cases ⟨by decide, by decide, hsmall⟩ p.einval .int out val
  | nstacks => exact storeInt_cases ⟨by decide, hnonneg, Int.le_refl _⟩ p.einval .unsigned out val
  | stackSize =>
    refine (storeInt_cases ⟨by decide, hnonneg, Int.le_refl _⟩ p.einval .size out val).imp_left ?_
    rintro ⟨n, hn, hlow, hhigh⟩
    refine ⟨n, hn, validate_inRange hlow ?_⟩
    unfold intMax at hhigh
    unfold page
    omega

/-- What a call does to the settings, whatever they are. -/
theorem setParamImp_spec (p : Platform) (published : Bool) (g : UserSettings)
    (param : Option String) (value : Option (List Char)) :
    SetParamSpec p published g param value := by
  -- calls that come back at once
  have hbad : ∀ {ret : Status}, ret ≠ .success →
      setParamImp p published g param value = (ret, g) →
      SetParamSpec p published g param value := by
    intro ret hret h
    constructor
    case success =>
      rw [h]
      exact fun heq => absurd heq hret
    case failure =>
      rw [h]
      exact fun _ => .inl rfl
  match param, value with
  | none, _ => exact hbad (show Status.invalid ≠ .success by decide) rfl
  | some _, none => exact hbad (show Status.invalid ≠ .success by decide) rfl
  | some name, some val =>
    by_cases hname : ∃ q : Parameter, name = q.name
    · obtain ⟨q, rfl⟩ := hname
      have hcall : setParamImp p published g (some q.name) (some val) = _ :=
        setParamImp_name q val
      -- the parameter may come too late, and else its value is stored or refused
      cases hlate : q.late p published with
      | true =>
        rw [hlate, if_pos rfl] at hcall
        exact hbad (by decide) hcall
      | false =>
        rw [hlate, if_neg Bool.false_ne_true] at hcall
        constructor
        case success =>
          rw [hcall]
          intro hret
          rcases q.store_cases (p := p) (q.field g) val with ⟨n, hn, hrange⟩ | ⟨ret, hn, hne⟩
          · rw [hn]
            exact ⟨q, q.normal p n, rfl, hlate, hrange, rfl⟩
          · rw [hn] at hret
            exact absurd hret hne
        case failure =>
          rw [hcall]
          intro hret
          rcases q.store_cases (p := p) (q.field g) val with ⟨n, hn, hrange⟩ | ⟨ret, hn, hne⟩
          · rw [hn] at hret
            exact absurd rfl hret
          · rw [hn]
            exact .inr ⟨q, rfl, hlate, rfl⟩
    · push Not at hname
      exact hbad (by decide) (setParamImp_unknown hname val)

end Call

-- ---------------------------------------------------------------------------
-- Runs
-- ---------------------------------------------------------------------------

/-- The settings, and whether the runtime has been started. -/
structure SettingsState where
  settings  : UserSettings
  published : Bool

/-- What happens to the settings. -/
inductive SettingsEvent
  | setParam (param : Option String) (value : Option (List Char))
  | start
  | stop

/-- The settings start with what the environment says; they are set, and the
runtime is started and ended. -/
def settingsSystem (p : Platform) : LTS SettingsState SettingsEvent where
  init s := ∃ env envstr, s = ⟨cilkgGetUserSettableValues p env envstr, false⟩
  step s e t :=
    match e with
    | .setParam param value =>
      t = { s with settings := (setParamImp p s.published s.settings param value).2 }
    | .start => t = if s.published then s else ⟨cilkgInitGlobalState s.settings, true⟩
    | .stop => t = { s with published := false }

/-- The shared pool has the size that the defaults give it, or one that has been
derived from a number of workers and the size of their pools. -/
def Derived (p : Platform) (n : Int) : Prop :=
  n = 9 * p.cpuCount ∨ ∃ P perPool, 1 ≤ P ∧ P ≤ 16 * p.hardwareCpuCount ∧ 1 ≤ perPool ∧
    perPool ≤ 42 ∧ n = P * (perPool + 1)

/-- The settings are in range. Before the runtime is started, the stack size may be
0, which stands for the default. -/
structure SettingsInRange (p : Platform) (s : SettingsState) : Prop where
  forceReduce    : s.settings.forceReduce = 0 ∨ s.settings.forceReduce = 1
  nworkers       : 1 ≤ s.settings.P ∧ s.settings.P ≤ 16 * p.hardwareCpuCount
  maxUserWorkers : 0 ≤ s.settings.maxUserWorkers ∧
    s.settings.maxUserWorkers ≤ 16 * p.hardwareCpuCount
  localStacks    : 0 ≤ s.settings.fiberPoolSize ∧ s.settings.fiberPoolSize ≤ 42
  sharedStacks   : 0 ≤ s.settings.globalFiberPoolSize ∧ s.settings.globalFiberPoolSize ≤ 42 ∨
    Derived p s.settings.globalFiberPoolSize
  nstacks        : 0 ≤ s.settings.maxStacks ∧ s.settings.maxStacks ≤ intMax
  stackSize      : s.settings.stackSize = 0 ∧ s.published = false ∨
    minStackSize ≤ s.settings.stackSize ∧ page ∣ s.settings.stackSize

section Runs

variable {p : Platform} {s : SettingsState}

/-- A field that may be set by a variable has the property that the default and all
values have that can be stored. -/
theorem field_of {R : Int → Prop} (v : Variable) (env : Environment) (envstr : List Char)
    (hdefault : R (v.default p)) (hstore : ∀ val, R (v.store p (v.default p) val).2) :
    R (v.field (cilkgGetUserSettableValues p env envstr)) := by
  rw [field_eq]
  unfold readVariable
  dsimp only
  split
  · exact hdefault
  · split
    · exact hstore _
    · exact hdefault

/-- A number that is stored or left has the property that its range and the number
before have. -/
theorem storeInt_of {R : Int → Prop} {min max out : Int} {einval : Bool} {T : IntType}
    (h : Bounds min max) (hout : R out) (hrange : ∀ n, min ≤ n → n ≤ max → R n)
    (val : List Char) : R (storeInt einval T out val min max).2 := by
  rcases storeInt_cases h einval T out val with ⟨n, hn, hlow, hhigh⟩ | ⟨ret, hn, -⟩
  · rw [hn]
    exact hrange n hlow hhigh
  · rw [hn]
    exact hout

/-- A switch that is stored or left is 0 or 1 if it was. -/
theorem storeBool_of {out : Int} (hout : out = 0 ∨ out = 1) (val : List Char) :
    (storeBool out val).2 = 0 ∨ (storeBool out val).2 = 1 := by
  rcases storeBool_cases out val with ⟨n, hn, hbool⟩ | ⟨ret, hn, -⟩
  · rw [hn]
    exact hbool
  · rw [hn]
    exact hout

/-- What the environment says is in range. -/
theorem settingsInRange_init (env : Environment) (envstr : List Char) :
    SettingsInRange p ⟨cilkgGetUserSettableValues p env envstr, false⟩ := by
  have hpos := p.pos
  have hfits := p.fits
  obtain ⟨hone, -, hcpu⟩ := p.cpuCount_bounds
  have hle : 16 * p.cpuCount ≤ 16 * p.hardwareCpuCount := by
    unfold Platform.cpuCount
    split <;> omega
  have hbounds : Bounds 1 (16 * p.cpuCount) := ⟨by decide, by omega, by omega⟩
  constructor
  case forceReduce =>
    have hdefault : Variable.forceReduce.default p = 0 ∨ Variable.forceReduce.default p = 1 := by
      unfold Variable.default
      cases p.forceReduce with
      | true => exact .inr rfl
      | false => exact .inl rfl
    exact field_of (R := fun n => n = 0 ∨ n = 1) .forceReduce env envstr hdefault
      (storeBool_of hdefault)
  case nworkers =>
    refine field_of (R := fun n => 1 ≤ n ∧ n ≤ 16 * p.hardwareCpuCount) .nworkers env envstr
      ⟨hone, hcpu⟩ ?_
    exact storeInt_of (R := fun n => 1 ≤ n ∧ n ≤ 16 * p.hardwareCpuCount) hbounds ⟨hone, hcpu⟩
      fun n hlow hhigh => ⟨hlow, by omega⟩
  case maxUserWorkers =>
    have hzero : (0 : Int) ≤ 0 ∧ (0 : Int) ≤ 16 * p.hardwareCpuCount := by
      omega
    refine field_of (R := fun n => 0 ≤ n ∧ n ≤ 16 * p.hardwareCpuCount) .maxUserWorkers env envstr
      hzero ?_
    exact storeInt_of (R := fun n => 0 ≤ n ∧ n ≤ 16 * p.hardwareCpuCount) hbounds hzero
      fun n hlow hhigh => ⟨by omega, by omega⟩
  case localStacks =>
    change (0 : Int) ≤ 7 ∧ (7 : Int) ≤ 42
    decide
  case sharedStacks => exact .inr (.inl rfl)
  case nstacks =>
    change (0 : Int) ≤ 2400 ∧ 2400 ≤ intMax
    decide
  case stackSize => exact .inl ⟨rfl, rfl⟩

/-- A parameter that can be set gets another value in range. -/
theorem SettingsInRange.set (h : SettingsInRange p s) {q : Parameter} {n : Int}
    (hrange : q.InRange p n) : SettingsInRange p { s with settings := q.set s.settings n } := by
  have hpos := p.pos
  cases q with
  | forceReduce => exact { h with forceReduce := hrange }
  | nworkers =>
    obtain ⟨hlow, hhigh⟩ := hrange
    have hmax : n ≤ 16 * p.hardwareCpuCount := by
      split at hhigh <;> omega
    exact { h with nworkers := ⟨hlow, hmax⟩ }
  | maxUserWorkers =>
    obtain ⟨hlow, hhigh⟩ := hrange
    have hnonneg : 0 ≤ n := by
      omega
    exact { h with maxUserWorkers := ⟨hnonneg, hhigh⟩ }
  | localStacks => exact { h with localStacks := hrange }
  | sharedStacks => exact { h with sharedStacks := .inl hrange }
  | nstacks => exact { h with nstacks := hrange }
  | stackSize => exact { h with stackSize := .inr hrange }

/-- A normal field stays; a stack size of 0 gives way to the default. -/
theorem SettingsInRange.normal (h : SettingsInRange p s) (q : Parameter) :
    q.set s.settings (q.normal p (q.field s.settings)) = s.settings ∨
      q = .stackSize ∧ s.settings.stackSize = 0 ∧ s.published = false ∧
        q.set s.settings (q.normal p (q.field s.settings)) =
          { s.settings with stackSize := defaultStackSize } := by
  cases q with
  | nworkers =>
    have hne : s.settings.P ≠ 0 := by
      have hlow := h.nworkers.1
      omega
    have hnormal : Parameter.nworkers.normal p (Parameter.nworkers.field s.settings) =
        s.settings.P := if_neg hne
    rw [hnormal]
    exact .inl rfl
  | stackSize =>
    rcases h.stackSize with ⟨hzero, hpublished⟩ | ⟨hmin, hpage⟩
    · have hnormal : Parameter.stackSize.normal p (Parameter.stackSize.field s.settings) =
          defaultStackSize := if_pos hzero
      rw [hnormal]
      exact .inr ⟨rfl, hzero, hpublished, rfl⟩
    · have hnormal : Parameter.stackSize.normal p (Parameter.stackSize.field s.settings) =
          s.settings.stackSize := validate_of_inRange hmin hpage
      rw [hnormal]
      exact .inl rfl
  | _ => exact .inl rfl

/-- A call that fails leaves settings in range alone, except for a stack size of 0:
the default takes its place, as it would when the runtime is started. -/
theorem SettingsInRange.failure (h : SettingsInRange p s) {param : Option String}
    {value : Option (List Char)}
    (hret : (setParamImp p s.published s.settings param value).1 ≠ .success) :
    (setParamImp p s.published s.settings param value).2 = s.settings ∨
      param = some Parameter.stackSize.name ∧ s.settings.stackSize = 0 ∧ s.published = false ∧
        (setParamImp p s.published s.settings param value).2 =
          { s.settings with stackSize := defaultStackSize } := by
  rcases (setParamImp_spec p s.published s.settings param value).failure hret with
    hsame | ⟨q, rfl, -, hset⟩
  · exact .inl hsame
  · rw [hset]
    rcases h.normal q with hsame | ⟨rfl, hzero, hpublished, hdefault⟩
    · exact .inl hsame
    · exact .inr ⟨rfl, hzero, hpublished, hdefault⟩

/-- A call keeps the settings in range. -/
theorem SettingsInRange.setParam (h : SettingsInRange p s) (param : Option String)
    (value : Option (List Char)) : SettingsInRange p
      { s with settings := (setParamImp p s.published s.settings param value).2 } := by
  by_cases hret : (setParamImp p s.published s.settings param value).1 = .success
  · obtain ⟨q, n, -, -, hrange, hset⟩ :=
      (setParamImp_spec p s.published s.settings param value).success hret
    rw [hset]
    exact h.set hrange
  · rcases h.failure hret with hsame | ⟨-, -, -, hdefault⟩
    · rw [hsame]
      exact h
    · have hsize : minStackSize ≤ defaultStackSize ∧ page ∣ defaultStackSize := by
        decide
      rw [hdefault]
      exact { h with stackSize := .inr hsize }

/-- Starting the runtime keeps the settings in range. -/
theorem SettingsInRange.start (h : SettingsInRange p s) (published : Bool) :
    SettingsInRange p ⟨cilkgInitGlobalState s.settings, published⟩ := by
  obtain ⟨hP, hPmax⟩ := h.nworkers
  obtain ⟨hlocal, hlocalMax⟩ := h.localStacks
  obtain ⟨hnstacks, hnstacksMax⟩ := h.nstacks
  have hfits := p.fits
  have hdiv : 0 ≤ s.settings.maxStacks / s.settings.P := Int.ediv_nonneg hnstacks (by omega)
  have hsize : minStackSize ≤ cilkosValidateStackSize s.settings.stackSize ∧
      page ∣ cilkosValidateStackSize s.settings.stackSize := by
    rcases h.stackSize with ⟨hzero, -⟩ | ⟨hmin, hpage⟩
    · rw [hzero]
      decide
    · rw [validate_of_inRange hmin hpage]
      exact ⟨hmin, hpage⟩
  unfold cilkgInitGlobalState
  by_cases hpositive : s.settings.maxStacks > 0
  · rw [if_pos hpositive]
    dsimp only
    -- the stacks are divided among the workers, at least one for each
    generalize hperPool : (if s.settings.maxStacks / s.settings.P < s.settings.fiberPoolSize then
      s.settings.maxStacks / s.settings.P else s.settings.fiberPoolSize) = perPool
    have hperPoolRange : 0 ≤ perPool ∧ perPool ≤ 42 := by
      rw [← hperPool]
      split <;> omega
    have hatLeast : 1 ≤ (if perPool ≤ 0 then 1 else perPool) ∧
        (if perPool ≤ 0 then 1 else perPool) ≤ 42 := by
      split <;> omega
    constructor
    case forceReduce => exact h.forceReduce
    case nworkers => exact h.nworkers
    case maxUserWorkers => exact h.maxUserWorkers
    case localStacks =>
      obtain ⟨hlow, hhigh⟩ := hatLeast
      exact ⟨Int.le_trans (by decide) hlow, hhigh⟩
    case sharedStacks =>
      exact .inr (.inr ⟨_, _, hP, hPmax, hatLeast.1, hatLeast.2, rfl⟩)
    case nstacks =>
      dsimp only
      split <;> omega
    case stackSize => exact .inr hsize
  · rw [if_neg hpositive]
    exact { h with stackSize := .inr hsize }

/-- The settings are in range at all times. -/
theorem settings_reachable (h : (settingsSystem p).Reachable s) : SettingsInRange p s := by
  induction h with
  | init hinit =>
    obtain ⟨env, envstr, rfl⟩ := hinit
    exact settingsInRange_init env envstr
  | @step s t e _ hstep ih =>
    cases e with
    | setParam param value =>
      obtain rfl := hstep
      exact ih.setParam param value
    | start =>
      obtain rfl := hstep
      split
      · exact ih
      · exact ih.start true
    | stop =>
      obtain rfl := hstep
      exact { ih with stackSize := ih.stackSize.imp_left fun hzero => ⟨hzero.1, rfl⟩ }

/-- What a call does to the settings, whatever they are; the settings are in range
at all times; and when a call fails then, they are as they were, except that the
default may take the place of a stack size of 0, which makes no difference to the
settings that the runtime is started with. -/
theorem setParam_spec (p : Platform) :
    (∀ published g param value, SetParamSpec p published g param value) ∧
      ∀ s, (settingsSystem p).Reachable s → SettingsInRange p s ∧
        ∀ param value, (setParamImp p s.published s.settings param value).1 ≠ .success →
          (setParamImp p s.published s.settings param value).2 = s.settings ∨
            param = some Parameter.stackSize.name ∧ s.settings.stackSize = 0 ∧
              s.published = false ∧
              (setParamImp p s.published s.settings param value).2 =
                { s.settings with stackSize := defaultStackSize } ∧
              cilkgInitGlobalState (setParamImp p s.published s.settings param value).2 =
                cilkgInitGlobalState s.settings := by
  refine ⟨setParamImp_spec p, fun s hs => ?_⟩
  have hrange := settings_reachable hs
  refine ⟨hrange, fun param value hret => ?_⟩
  rcases hrange.failure hret with hsame | ⟨hparam, hzero, hpublished, hdefault⟩
  · exact .inl hsame
  · refine .inr ⟨hparam, hzero, hpublished, hdefault, ?_⟩
    rw [hdefault]
    have hvalidate : cilkosValidateStackSize defaultStackSize =
        cilkosValidateStackSize s.settings.stackSize := by
      rw [hzero]
      decide
    unfold cilkgInitGlobalState
    dsimp only
    split
    · dsimp only
      rw [hvalidate]
    · dsimp only
      rw [hvalidate]

/-- On four processors: a stack size of -1 is out of range, and the size becomes
1 MB. -/
theorem setParam_changes :
    let p : Platform := ⟨4, false, false, false, by decide, by decide⟩
    let g := cilkgGetUserSettableValues p (fun _ => none) []
    (settingsSystem p).Reachable ⟨g, false⟩ ∧ g.stackSize = 0 ∧
      setParamImp p false g (some "stack size") (some "-1".toList) =
        (.xrange, { g with stackSize := 0x100000 }) :=
  ⟨.init ⟨_, _, rfl⟩, by decide +kernel, by decide +kernel⟩

end Runs

end SwanRuntime.Settings
