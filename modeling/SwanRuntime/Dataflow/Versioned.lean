import SwanRuntime.Dataflow.Payload

/-!
# Dataflow — the value of a versioned object

A `versioned` object, and the `indep`, `outdep` and `inoutdep` taken from it, are
instances that point to one version; its value is in the payload, behind the header.

The constructor gives its argument to `initialize_fn` in the place of the data of the
payload: it is the argument that is overwritten with a default value, and the payload
keeps what was in the memory allocated for it. Reading and writing through
`get_version()` is as it should be. `set_value` of an instance names its parameter as
the pointer to the version, and so is a call of the member `->set_value` of the value
itself, which most types do not have.

Memory has the value that an object of type `T` at an address would have.

## Results

* `getValue_eq`       — every handle reads the data of the payload.
* `construct_values`  — what the constructor does to memory.
* `versioned_iff`     — when a versioned object has the value it was given.
-/

namespace SwanRuntime.Dataflow.Payload

-- ---------------------------------------------------------------------------
-- The code
-- ---------------------------------------------------------------------------

/-- A value type: `T()`, and what `x->set_value(x)` does to the memory of the program
if that is well formed. -/
structure ValueType (T : Type) where
  default     : T
  arrowSet    : Option (T → (Addr → T) → Addr → T)

/-- The objects of type `T` in memory, and the headers of payloads. -/
structure Memory (T : Type) where
  values   : Addr → T
  payloads : Addr → ObjPayload

variable {T : Type}

-- The function pointers and the size of `object_traits<T>`.
variable (traits : ObjTraits)

/-- `object_traits::initialize_wrapper`: a placement `new` at `v`. -/
def initializeWrapper (type : ValueType T) (_payload v : Addr) (m : Memory T) : Memory T :=
  { m with values := Function.update m.values v type.default }

/-- `object_payload::get_value`. -/
def objectPayloadGetValue (pl : Addr) (m : Memory T) : T :=
  m.values (payloadGetPtr pl (m.payloads pl))

/-- `object_version`, by the pointer to its payload. -/
structure ObjectVersion where
  payload : Addr

def ObjectVersion.getValue (this : ObjectVersion) (m : Memory T) : T :=
  objectPayloadGetValue this.payload m

def ObjectVersion.setValue (this : ObjectVersion) (val : T) (m : Memory T) : Memory T :=
  { m with
    values := Function.update m.values (payloadGetPtr this.payload (m.payloads this.payload)) val }

/-- `object_version( instance_type *, const value_type & )`, with the pointer that
`allocate_fn` returned. -/
def ObjectVersion.construct (type : ValueType T) (pl val : Addr) (m : Memory T) :
    ObjectVersion × Memory T :=
  let m := { m with payloads := Function.update m.payloads pl (payloadCreate traits) }
  ({ payload := pl }, initializeWrapper type pl val m)

/-- `object_instance`, the base of the object and of the handles. -/
structure ObjectInstance where
  v : ObjectVersion

def ObjectInstance.getVersion (this : ObjectInstance) : ObjectVersion := this.v

def ObjectInstance.getValue (this : ObjectInstance) (m : Memory T) : T := this.v.getValue m

/-- `object_instance::set_value(const value_type &v) { v->set_value( v ); }`. -/
def ObjectInstance.setValue (type : ValueType T) (_this : ObjectInstance) (v : T) (m : Memory T) :
    Option (Memory T) :=
  type.arrowSet.map fun set => { m with values := set v m.values }

/-- `versioned( const value_type & )`. -/
def versioned (type : ValueType T) (pl val : Addr) (m : Memory T) : ObjectInstance × Memory T :=
  let (v, m) := ObjectVersion.construct traits type pl val m
  ({ v := v }, m)

/-- `versioned::get_indep`. -/
def getIndep (this : ObjectInstance) : ObjectInstance := { v := this.getVersion }

/-- `versioned::get_outdep`. -/
def getOutdep (this : ObjectInstance) : ObjectInstance := { v := this.getVersion }

/-- `versioned::get_inoutdep`. -/
def getInoutdep (this : ObjectInstance) : ObjectInstance := { v := this.getVersion }

/-- The object, or a handle taken from it. -/
inductive Handle
  | versioned
  | indep
  | outdep
  | inoutdep
deriving DecidableEq

def Handle.of (object : ObjectInstance) : Handle → ObjectInstance
  | .versioned => object
  | .indep => getIndep object
  | .outdep => getOutdep object
  | .inoutdep => getInoutdep object

/-- A call of `set_value` on a handle, or on `get_version()` of it. -/
inductive SetCall (T : Type)
  | onHandle (h : Handle) (val : T)
  | onVersion (h : Handle) (val : T)

def SetCall.val : SetCall T → T
  | .onHandle _ val | .onVersion _ val => val

def SetCall.exec (type : ValueType T) (object : ObjectInstance) (m : Memory T) :
    SetCall T → Option (Memory T)
  | .onHandle h val => (h.of object).setValue type val m
  | .onVersion h val => some ((h.of object).getVersion.setValue val m)

-- ---------------------------------------------------------------------------
-- What is claimed of it, and when it is so
-- ---------------------------------------------------------------------------

/-- Every handle reads `last`, and after each of the calls the value it has set. -/
def Reads (type : ValueType T) (object : ObjectInstance) :
    Memory T → T → List (SetCall T) → Prop
  | m, last, [] => ∀ h : Handle, (h.of object).getValue m = last
  | m, last, call :: calls =>
    (∀ h : Handle, (h.of object).getValue m = last) ∧
      ∃ m', call.exec type object m = some m' ∧ Reads type object m' call.val calls

/-- A call on a handle needs a type whose own `->set_value` happens to store the value
in the payload. -/
def Stores (type : ValueType T) (data : Addr) (m : Memory T) : SetCall T → Prop
  | .onHandle _ val => ∃ set, type.arrowSet = some set ∧ set val m.values data = val
  | .onVersion _ _ => True

def AllStore (type : ValueType T) (object : ObjectInstance) (data : Addr) :
    Memory T → List (SetCall T) → Prop
  | _, [] => True
  | m, call :: calls =>
    Stores type data m call ∧
      ∀ m', call.exec type object m = some m' → AllStore type object data m' calls

/-- The data of the payload. -/
def HasPayload (object : ObjectInstance) (data : Addr) (m : Memory T) : Prop :=
  payloadGetPtr object.v.payload (m.payloads object.v.payload) = data

theorem getValue_eq {object : ObjectInstance} {data : Addr} {m : Memory T}
    (hdata : HasPayload object data m) (h : Handle) :
    (h.of object).getValue m = m.values data := by
  rw [← hdata]
  cases h <;> rfl

theorem HasPayload.exec {type : ValueType T} {object : ObjectInstance} {data : Addr}
    {m m' : Memory T} {call : SetCall T} (hdata : HasPayload object data m)
    (h : call.exec type object m = some m') : HasPayload object data m' := by
  cases call with
  | onHandle handle val =>
    obtain ⟨set, -, rfl⟩ := Option.map_eq_some_iff.mp h
    exact hdata
  | onVersion handle val =>
    obtain rfl := Option.some.inj h
    exact hdata

/-- A call leaves its argument in the payload exactly if it stores it. -/
theorem stores_iff {type : ValueType T} {object : ObjectInstance} {data : Addr}
    {m : Memory T} (hdata : HasPayload object data m) (call : SetCall T) :
    Stores type data m call ↔
      ∃ m', call.exec type object m = some m' ∧ m'.values data = call.val := by
  cases call with
  | onHandle h val =>
    -- a handle stores through the type’s own function, which may be missing
    simp only [Stores, SetCall.exec, ObjectInstance.setValue, SetCall.val]
    constructor
    · rintro ⟨set, hset, hval⟩
      exact ⟨_, by rw [hset]; rfl, hval⟩
    · rintro ⟨m', hm', hval⟩
      obtain ⟨set, hset, rfl⟩ := Option.map_eq_some_iff.mp hm'
      exact ⟨set, hset, hval⟩
  | onVersion h val =>
    refine iff_of_true trivial ⟨_, rfl, ?_⟩
    -- the version knows its payload, so it always stores
    have hptr : payloadGetPtr (h.of object).getVersion.payload
        (m.payloads (h.of object).getVersion.payload) = data := by
      rw [← hdata]
      cases h <;> rfl
    simp [ObjectVersion.setValue, hptr, SetCall.val]

theorem reads_iff {type : ValueType T} {object : ObjectInstance} {data : Addr}
    {m : Memory T} (hdata : HasPayload object data m) (last : T) (calls : List (SetCall T)) :
    Reads type object m last calls ↔
      m.values data = last ∧ AllStore type object data m calls := by
  -- induction on the calls; each one must store before the next value is read
  induction calls generalizing m last with
  | nil =>
    simp only [Reads, AllStore, and_true]
    constructor
    · intro h
      rw [← h .versioned, getValue_eq hdata]
    · intro h handle
      rw [getValue_eq hdata, h]
  | cons call calls ih =>
    -- all handles read the one payload
    have hfirst : (∀ h : Handle, (h.of object).getValue m = last) ↔ m.values data = last := by
      constructor
      · intro h
        rw [← h .versioned, getValue_eq hdata]
      · intro h handle
        rw [getValue_eq hdata, h]
    rw [Reads, hfirst, AllStore, stores_iff hdata]
    refine and_congr_right fun _ => ?_
    constructor
    · rintro ⟨m', hm', hreads⟩
      obtain ⟨hval, hall⟩ := (ih (hdata.exec hm') _).mp hreads
      refine ⟨⟨m', hm', hval⟩, fun m'' hm'' => ?_⟩
      obtain rfl : m' = m'' := Option.some.inj (hm'.symm.trans hm'')
      exact hall
    · rintro ⟨⟨m', hm', hval⟩, hall⟩
      exact ⟨m', hm', (ih (hdata.exec hm') _).mpr ⟨hval, hall m' hm'⟩⟩

-- ---------------------------------------------------------------------------
-- The constructor
-- ---------------------------------------------------------------------------

/-- The argument is overwritten with a default value, and the data of the payload is
what it was. -/
theorem construct_values (type : ValueType T) {pl val : Addr} (m : Memory T)
    (hfresh : val ≠ pl + sizeofPayload) :
    let r := versioned traits type pl val m
    HasPayload r.1 (pl + sizeofPayload) r.2 ∧ r.2.values val = type.default ∧
      r.2.values (pl + sizeofPayload) = m.values (pl + sizeofPayload) := by
  refine ⟨?_, ?_, ?_⟩
  · simp [HasPayload, versioned, ObjectVersion.construct, initializeWrapper, payloadGetPtr,
      payloadCreate]
  · simp [versioned, ObjectVersion.construct, initializeWrapper]
  · simp [versioned, ObjectVersion.construct, initializeWrapper, hfresh.symm]

/--
The argument of the constructor keeps its value, and every handle reads this and later
the value set last, exactly if the argument has the default value of its type, which the
memory allocated for the payload already has, and `set_value` is called on the version
only (or the type has a `->set_value` that happens to do the same).
-/
theorem versioned_iff (type : ValueType T) {pl val : Addr} (m : Memory T)
    (hfresh : val ≠ pl + sizeofPayload) (calls : List (SetCall T)) :
    let r := versioned traits type pl val m
    (r.2.values val = m.values val ∧ Reads type r.1 r.2 (m.values val) calls) ↔
      m.values val = type.default ∧ m.values (pl + sizeofPayload) = m.values val ∧
        AllStore type r.1 (pl + sizeofPayload) r.2 calls := by
  intro r
  obtain ⟨hdata, hval, hpayload⟩ := construct_values traits type m hfresh
  rw [reads_iff hdata, show r.2.values val = _ from hval,
    show r.2.values (pl + sizeofPayload) = _ from hpayload]
  exact and_congr_left fun _ => eq_comm

/-- The theorem at an `int` object with the value 0, whose payload is 0 already, that is
then set to 7 through its version and read. -/
theorem versioned_iff_zero :
    let r := versioned ⟨1, 2, 3, 4, 4⟩ (⟨0, none⟩ : ValueType Nat) 1000 8
      ⟨fun _ => 0, fun _ => payloadCreate ⟨1, 2, 3, 4, 4⟩⟩
    (r.2.values 8 = 0 ∧ Reads ⟨0, none⟩ r.1 r.2 0 [.onVersion .indep 7]) ↔
      0 = 0 ∧ 0 = 0 ∧ AllStore ⟨0, none⟩ r.1 1048 r.2 [.onVersion .indep 7] :=
  versioned_iff ⟨1, 2, 3, 4, 4⟩ (⟨0, none⟩ : ValueType Nat)
    ⟨fun _ => 0, fun _ => payloadCreate ⟨1, 2, 3, 4, 4⟩⟩ (by decide) [.onVersion .indep 7]

/-- An `int` object made from a variable with the value 5: the variable is 0 afterwards. -/
theorem versioned_overwrites :
    ¬ ∀ (m : Memory Nat) (pl val : Addr), val ≠ pl + sizeofPayload →
      (versioned ⟨1, 2, 3, 4, 4⟩ ⟨0, none⟩ pl val m).2.values val = m.values val := by
  intro hall
  have h := hall ⟨fun _ => 5, fun _ => payloadCreate ⟨1, 2, 3, 4, 4⟩⟩ 1000 8 (by decide)
  have hzero : 0 = 5 := h
  cases hzero

end SwanRuntime.Dataflow.Payload
