import AbiWrapper.Ref.Errorcodes
import AbiWrapper.Ref.Handles
import AbiWrapper.Ref.ToolEvents

/-!
# Registering MPI_T event callbacks (hw_callbacks.c, toolevents.c)

Three calls write the registration map: `MPI_T_event_register_callback` a
function and its data for one of four safety levels,
`MPI_T_event_set_dropped_handler` a function, and `MPI_T_event_handle_free` a
function and its data. Each writes the map before the implementation is called,
because an event may be raised as soon as the registration exists, and returns
what the implementation answers. Three trampolines read the map, and the last
one gives the entry back.

The map is used by one thread here, so its loops are functions; `ToolEvents`
takes them access by access. The state has one thing the code has not: what the
implementation has accepted for each handle.
-/

namespace AbiWrapper.Ref

open AbiWrapper.Lib

/-! ## Safety levels -/

/-- `MPIABI_T_CB_REQUIRE_NONE` to `MPIABI_T_CB_REQUIRE_ASYNC_SIGNAL_SAFE`. -/
def abiSafety : Fin 4 → Int32
  | 0 => 0x00
  | 1 => 0x03
  | 2 => 0x0f
  | 3 => 0x3f

def safetyIndex (abiCbSafety : Int32) : Option (Fin 4) :=
  if abiCbSafety = 0x00 then some 0
  else if abiCbSafety = 0x03 then some 1
  else if abiCbSafety = 0x0f then some 2
  else if abiCbSafety = 0x3f then some 3
  else none

/-- What an implementation has of the event interface: the three functions, and
the safety levels with their values. -/
structure ImplEvents where
  registers : Bool
  drops : Bool
  frees : Bool
  has : Fin 4 → Bool
  code : Fin 4 → Int32
  /-- The cases of a switch differ. -/
  distinct : ∀ l l', has l = true → has l' = true → code l = code l' → l = l'

def tcbsafetyFromabi (impl : ImplEvents) (abiTcbsafety : Int32) : Int32 :=
  match safetyIndex abiTcbsafety with
  | some level => if impl.has level then impl.code level else abiTcbsafety
  | none => abiTcbsafety

def tcbsafetyToabi (impl : ImplEvents) (tcbsafety : Int32) : Int32 :=
  match [0, 1, 2, 3].find? fun level => impl.has level ∧ impl.code level = tcbsafety with
  | some level => abiSafety level
  | none => tcbsafety

/-- `mpiwrapper_t_event_registration_fromabi`: the handle's bits. -/
def eventRegistrationFromabi (abi : UInt64) : UInt64 := abi

def eventRegistrationToabi (h : UInt64) : UInt64 := h

def eventInstanceToabi (h : UInt64) : UInt64 := h

/-! ## The map -/

def storeFields (stores : List (EventField × UInt64)) (field : EventField → UInt64) :
    EventField → UInt64 :=
  stores.foldl (fun field store => Function.update field store.1 store.2) field

abbrev EventTable := Nat → EventEntry

def eventFind (key : UInt64) (events : EventTable) : Option Nat :=
  (List.range eventSlots).find? fun i => (events i).used ∧ (events i).key = key

/-- A new entry, with everything in it nulled. -/
def EventEntry.claimed (e : EventEntry) (key : UInt64) : EventEntry :=
  ⟨true, key, storeFields (clearOrder.map fun field => (field, 0)) e.field⟩

/-- `intern`: the entry, and the map. -/
def eventIntern (key : UInt64) (events : EventTable) : Option (Nat × EventTable) :=
  match eventFind key events with
  | some i => some (i, events)
  | none =>
      match (List.range eventSlots).find? fun i => (events i).used = false with
      | some i => some (i, Function.update events i ((events i).claimed key))
      | none => (eventFind key events).map fun i => (i, events)

/-- What the three `mpiwrapper_t_event_set_` functions share. -/
def eventSet (reg : UInt64) (stores : List (EventField × UInt64)) (events : EventTable) :
    Option EventTable :=
  (eventIntern reg events).map fun (i, events) =>
    Function.update events i { events i with field := storeFields stores (events i).field }

def eventSetCb (reg : UInt64) (abiCbSafety : Int32) (abiFn userData : UInt64)
    (events : EventTable) : Option EventTable :=
  match safetyIndex abiCbSafety with
  | none => none
  | some level => eventSet reg [(.cbData level, userData), (.cb level, abiFn)] events

def eventSetDropped (reg abiFn : UInt64) (events : EventTable) : Option EventTable :=
  eventSet reg [(.droppedFn, abiFn)] events

def eventSetFree (reg abiFn userData : UInt64) (events : EventTable) : Option EventTable :=
  eventSet reg [(.freeData, userData), (.freeFn, abiFn)] events

/-! ## The bodies -/

/-- A call of the implementation. A trampoline is passed, or null. -/
inductive EventTarget
  | registerCallback (reg : UInt64) (cbSafety : Int32) (info : UInt64) (tramp : Bool)
  | setDroppedHandler (reg : UInt64) (tramp : Bool)
  | handleFree (reg : UInt64) (tramp : Bool)
deriving DecidableEq, Repr

/-- What a body returns, the call it has made, and the tables it leaves. -/
structure EventResult where
  abiIerror : Int32
  call : Option EventTarget
  events : EventTable
  errors : ErrorTable

/-- What the three bodies share: the map is written, then the implementation is
called and returns `ierror`. -/
def eventBody (errors : ImplErrors) (compiled : Bool) (set : EventTable → Option EventTable)
    (target : EventTarget) (ierror : Int32) (events : EventTable) (t : ErrorTable) : EventResult :=
  if compiled then
    match set events with
    | none => ⟨abiErrIntern, none, events, t⟩
    | some events =>
        let r := errorcodeToabi errors ierror t
        ⟨r.1, some target, events, r.2⟩
  else ⟨abiErrUnsupportedOperation, none, events, t⟩

def registerCallbackBody (impl : ImplEvents) (handles : ImplHandles) (errors : ImplErrors)
    (abiReg : UInt64) (abiCbSafety : Int32) (abiInfo abiUserData abiFn : UInt64) :
    Int32 → EventTable → ErrorTable → EventResult :=
  let reg := eventRegistrationFromabi abiReg
  eventBody errors impl.registers (eventSetCb reg abiCbSafety abiFn abiUserData)
    (.registerCallback reg (tcbsafetyFromabi impl abiCbSafety)
      (handleFromabi handles .info abiInfo) (abiFn ≠ 0))

def setDroppedHandlerBody (impl : ImplEvents) (errors : ImplErrors) (abiReg abiFn : UInt64) :
    Int32 → EventTable → ErrorTable → EventResult :=
  let reg := eventRegistrationFromabi abiReg
  eventBody errors impl.drops (eventSetDropped reg abiFn) (.setDroppedHandler reg (abiFn ≠ 0))

/-- `BODY_MPI_T_event_handle_free`, which passes its trampoline always. -/
def handleFreeBody (impl : ImplEvents) (errors : ImplErrors) (abiReg abiUserData abiFn : UInt64) :
    Int32 → EventTable → ErrorTable → EventResult :=
  let reg := eventRegistrationFromabi abiReg
  eventBody errors impl.frees (eventSetFree reg abiFn abiUserData) (.handleFree reg true)

/-! ## The trampolines -/

/-- A call of a function of the application's, with its arguments. -/
inductive EventInvocation
  | event (fn eventInstance reg : UInt64) (cbSafety : Int32) (userData : UInt64)
  | dropped (fn : UInt64) (count : Int64) (reg : UInt64) (sourceIndex cbSafety : Int32)
      (userData : UInt64)
  | free (fn reg : UInt64) (cbSafety : Int32) (userData : UInt64)
deriving DecidableEq, Repr

/-- What an event runs, by the fields of its handle's entry. -/
def eventInvocation (impl : ImplEvents) (field : EventField → UInt64)
    (eventInstance reg : UInt64) (cbSafety : Int32) : Option EventInvocation :=
  let abiCbSafety := tcbsafetyToabi impl cbSafety
  match safetyIndex abiCbSafety with
  | none => none
  | some level =>
      if field (.cb level) = 0 then none
      else some (.event (field (.cb level)) (eventInstanceToabi eventInstance)
        (eventRegistrationToabi reg) abiCbSafety (field (.cbData level)))

/-- What a dropped event runs. -/
def droppedInvocation (impl : ImplEvents) (field : EventField → UInt64) (count : Int64)
    (reg : UInt64) (sourceIndex cbSafety : Int32) : Option EventInvocation :=
  if field .droppedFn = 0 then none
  else
    let abiCbSafety := tcbsafetyToabi impl cbSafety
    some (.dropped (field .droppedFn) count (eventRegistrationToabi reg) sourceIndex abiCbSafety
      (match safetyIndex abiCbSafety with
        | none => 0
        | some level => field (.cbData level)))

/-- What the freeing of a handle runs. -/
def freeInvocation (impl : ImplEvents) (field : EventField → UInt64) (reg : UInt64)
    (cbSafety : Int32) : Option EventInvocation :=
  if field .freeFn = 0 then none
  else some (.free (field .freeFn) (eventRegistrationToabi reg) (tcbsafetyToabi impl cbSafety)
    (field .freeData))

def eventCbTramp (impl : ImplEvents) (events : EventTable) (eventInstance reg : UInt64)
    (cbSafety : Int32) : Option EventInvocation :=
  match eventFind reg events with
  | none => none
  | some i => eventInvocation impl (events i).field eventInstance reg cbSafety

def eventDroppedTramp (impl : ImplEvents) (events : EventTable) (count : Int64) (reg : UInt64)
    (sourceIndex cbSafety : Int32) : Option EventInvocation :=
  match eventFind reg events with
  | none => none
  | some i => droppedInvocation impl (events i).field count reg sourceIndex cbSafety

/-- `mpiwrapper_t_event_free_tramp`, and the map it leaves. -/
def eventFreeTramp (impl : ImplEvents) (events : EventTable) (reg : UInt64) (cbSafety : Int32) :
    Option EventInvocation × EventTable :=
  match eventFind reg events with
  | none => (none, events)
  | some i => (freeInvocation impl (events i).field reg cbSafety,
      Function.update events i { events i with used := false })

/-! ## Histories -/

/-- A call of the application's. -/
inductive EventRequest
  | registerCallback (abiReg : UInt64) (abiCbSafety : Int32) (abiInfo abiUserData abiFn : UInt64)
  | setDroppedHandler (abiReg abiFn : UInt64)
  | handleFree (abiReg abiUserData abiFn : UInt64)
deriving DecidableEq, Repr

namespace EventRequest

def body (impl : ImplEvents) (handles : ImplHandles) (errors : ImplErrors) :
    EventRequest → Int32 → EventTable → ErrorTable → EventResult
  | .registerCallback abiReg abiCbSafety abiInfo abiUserData abiFn =>
      registerCallbackBody impl handles errors abiReg abiCbSafety abiInfo abiUserData abiFn
  | .setDroppedHandler abiReg abiFn => setDroppedHandlerBody impl errors abiReg abiFn
  | .handleFree abiReg abiUserData abiFn => handleFreeBody impl errors abiReg abiUserData abiFn

/-- The handle a call is about. -/
def reg : EventRequest → UInt64
  | .registerCallback abiReg _ _ _ _ => eventRegistrationFromabi abiReg
  | .setDroppedHandler abiReg _ => eventRegistrationFromabi abiReg
  | .handleFree abiReg _ _ => eventRegistrationFromabi abiReg

/-- What it registers: nothing, where the safety level is none of the ABI's. -/
def registers : EventRequest → Option (List (EventField × UInt64))
  | .registerCallback _ abiCbSafety _ abiUserData abiFn =>
      (safetyIndex abiCbSafety).map fun level =>
        [(.cbData level, abiUserData), (.cb level, abiFn)]
  | .setDroppedHandler _ abiFn => some [(.droppedFn, abiFn)]
  | .handleFree _ abiUserData abiFn => some [(.freeData, abiUserData), (.freeFn, abiFn)]

/-- Whether the implementation has the function. -/
def compiled (impl : ImplEvents) : EventRequest → Bool
  | .registerCallback .. => impl.registers
  | .setDroppedHandler .. => impl.drops
  | .handleFree .. => impl.frees

end EventRequest

/-- A call that the implementation answers with `ierror`, should it be reached;
or the implementation's call of the free trampoline. -/
inductive EventMove
  | request (r : EventRequest) (ierror : Int32)
  | freed (reg : UInt64) (cbSafety : Int32)
deriving DecidableEq, Repr

/-- The tables, and the last registration accepted for each handle and field. -/
structure EventState where
  events : EventTable
  errors : ErrorTable
  accepted : UInt64 → EventField → UInt64

namespace EventState

def init : EventState := ⟨fun _ => ⟨false, 0, fun _ => 0⟩, .empty, fun _ _ => 0⟩

/-- The registrations, after a call that the implementation has or has not
accepted. -/
def accept (s : EventState) (r : EventRequest) (call : Option EventTarget) (ierror : Int32) :
    UInt64 → EventField → UInt64 :=
  if call ≠ none ∧ ierror = 0 then
    Function.update s.accepted r.reg (storeFields (r.registers.getD []) (s.accepted r.reg))
  else s.accepted

def step (impl : ImplEvents) (handles : ImplHandles) (errors : ImplErrors) (s : EventState) :
    EventMove → Option EventState
  | .request r ierror =>
      let result := r.body impl handles errors ierror s.events s.errors
      some ⟨result.events, result.errors, s.accept r result.call ierror⟩
  | .freed reg cbSafety =>
      some { s with
        events := (eventFreeTramp impl s.events reg cbSafety).2
        accepted := Function.update s.accepted reg fun _ => 0 }

end EventState

/-! ## What a run may be asked to keep to -/

/-- The map would be left alone: the handle's entry has already what the call
registers, or there is neither an entry for it nor a free one. -/
def EventRequest.held (impl : ImplEvents) (events : EventTable) (r : EventRequest) : Prop :=
  r.compiled impl = true → ∀ stores, r.registers = some stores →
    match eventFind r.reg events with
    | some i => ∀ store, store ∈ stores → (events i).field store.1 = store.2
    | none => ∀ i, i < eventSlots → (events i).used = true

/-- The implementation refuses only what is held. -/
def refusalsHeld (impl : ImplEvents) (s : EventState) : EventMove → Prop
  | .request r ierror => ierror ≠ 0 → r.held impl s.events
  | .freed _ _ => True

end AbiWrapper.Ref
