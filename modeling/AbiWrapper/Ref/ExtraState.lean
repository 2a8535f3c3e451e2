import AbiWrapper.Lib.Ownership
import AbiWrapper.Ref.Handles
import AbiWrapper.Ref.Keyvals

/-!
# Callbacks with an extra state (extrastate.c, hw_callbacks.c)

The functions that a program registers for attribute keys, generalized requests
and data representations are called with an extra state of the program's. What
the implementation is given instead is trampolines, and as their extra state the
address of a pair from the heap, which has the program's functions and its own
extra state. Where none of the functions is the program's there is nothing to
call, and its extra state goes down as it is.

Pairs of generalized requests are freed by the trampoline of their free function,
after the program's has returned; pairs whose object the implementation refuses
to make are freed by the body, but for those of attribute keys. Everything else
is never freed.

A registrar's body is in the implementation's function between `start` and `made`
or `refused`, and a free function runs between `free` and `freed`; anything may
happen in between, in other threads or in the functions that are called. Reading
or freeing a pair that is not there is undefined. An attribute key is entered in
the registry when it is made, and the trampolines look it up there.

`NativeCallbacks` is the implementation as the program means it: it calls the
program's own functions, with its own objects and keys.
-/

namespace AbiWrapper.Ref

open AbiWrapper.Lib

/-! ## Pairs -/

/-- A conversion function of a data representation, or `MPIABI_CONVERSION_FN_NULL`,
which is a null pointer. -/
inductive ConvFn
  | null
  | user (fn : UInt64)
deriving DecidableEq, Repr

/-- `struct comm_attr_pair` and its two siblings, `struct grequest_pair` and
`struct datarep_pair`. -/
inductive Pair
  | attr (kind : AttrKind) (copy : CopyFn) (delete : DeleteFn) (extraState : UInt64)
  | grequest (query free cancel extraState : UInt64)
  | datarep (read write readC writeC : ConvFn) (extent extraState : UInt64)
deriving DecidableEq, Repr

/-- The `void *` that the implementation keeps. -/
inductive StatePtr
  | caller (extraState : UInt64)
  | pair (address : Nat)
deriving DecidableEq, Repr

/-- The shape of the conversion functions that the implementation keeps, and which
of a pair's they call: small, large, or small around a large one. -/
inductive ConvShape
  | small | large | adapted
deriving DecidableEq, Repr

/-- The functions that the implementation keeps. A conversion function is the
trampoline or the implementation's null one. -/
inductive ImplFns
  | attr (kind : AttrKind) (copy : ImplCopyFn) (delete : ImplDeleteFn)
  | grequest
  | datarep (shape : ConvShape) (read write : Bool)
deriving DecidableEq, Repr

/-- What a program registers. -/
inductive UserReg
  | attr (kind : AttrKind) (copy : CopyFn) (delete : DeleteFn) (extraState : UInt64)
  | grequest (query free cancel extraState : UInt64)
  | datarep (large : Bool) (read write : ConvFn) (extent extraState : UInt64)
deriving DecidableEq, Repr

/-- `MPIWRAPPER_HAVE_*` of the registrars, and what the trampolines convert with. -/
structure ImplCallbacks where
  hasKeyval : AttrKind → Bool
  hasGrequest : Bool
  hasDatarep : Bool
  hasDatarepC : Bool
  handles : ImplHandles
  maps : Rmaps
  built : initReverseMaps handles = .ok maps
  keyvals : ImplKeyvals

section Fns

/-- What a `*_fns` function leaves: the heap, the functions and the state. -/
abbrev Fns := RecordHeap Pair × ImplFns × StatePtr

variable (heap : RecordHeap Pair) (address : Option Nat)

/-- `mpiwrapper_comm_attr_fns`, `_type_` and `_win_`, with the heap. `address` is
what `malloc` answers. -/
def attrPairFns (kind : AttrKind) (copy : CopyFn) (delete : DeleteFn) (extraState : UInt64) :
    Option Fns :=
  match attrFns copy delete extraState address.isSome, address with
  | some ⟨implCopy, implDelete, .extra extraState⟩, _ =>
      some (heap, .attr kind implCopy implDelete, .caller extraState)
  | some ⟨implCopy, implDelete, .pair copy delete extraState⟩, some a =>
      some (Function.update heap a (some (.attr kind copy delete extraState)),
        .attr kind implCopy implDelete, .pair a)
  | _, _ => none

def grequestFns (query free cancel extraState : UInt64) : Option Fns :=
  address.map fun a =>
    (Function.update heap a (some (.grequest query free cancel extraState)), .grequest, .pair a)

/-- `mpiwrapper_datarep_fns`; the pair is zeroed first. -/
def datarepFns (read write : ConvFn) (extent extraState : UInt64) : Option Fns :=
  address.map fun a =>
    (Function.update heap a (some (.datarep read write .null .null extent extraState)),
      .datarep .small (read ≠ .null) (write ≠ .null), .pair a)

/-- `mpiwrapper_datarep_c_fns`. -/
def datarepCFns (read write : ConvFn) (extent extraState : UInt64) : Option Fns :=
  address.map fun a =>
    (Function.update heap a (some (.datarep .null .null read write extent extraState)),
      .datarep .large (read ≠ .null) (write ≠ .null), .pair a)

def datarepCaFns (read write : ConvFn) (extent extraState : UInt64) : Option Fns :=
  address.map fun a =>
    (Function.update heap a (some (.datarep .null .null read write extent extraState)),
      .datarep .adapted (read ≠ .null) (write ≠ .null), .pair a)

end Fns

variable (impl : ImplCallbacks)

/-- What a registrar's body does up to the implementation's function. It gets no
further where that does not exist, or memory is short. -/
def registrarFns (heap : RecordHeap Pair) (address : Option Nat) : UserReg → Option Fns
  | .attr kind copy delete extraState =>
      if impl.hasKeyval kind then attrPairFns heap address kind copy delete extraState else none
  | .grequest query free cancel extraState =>
      if impl.hasGrequest then grequestFns heap address query free cancel extraState else none
  | .datarep false read write extent extraState =>
      if impl.hasDatarep then datarepFns heap address read write extent extraState else none
  | .datarep true read write extent extraState =>
      if impl.hasDatarepC then datarepCFns heap address read write extent extraState
      else if impl.hasDatarep then datarepCaFns heap address read write extent extraState
      else none

/-! ## Callbacks -/

/-- A callback with what the implementation calls it for, or, once it is converted,
what the program's function is given. -/
inductive Callback
  | copy (kind : AttrKind) (object : UInt64) (keyval : Int32) (valIn valOut flag : UInt64)
  | delete (kind : AttrKind) (object : UInt64) (keyval : Int32) (val : UInt64)
  | query
  | free
  | cancel (complete : Int32)
  | extent (datatype : UInt64)
  | read (userbuf datatype : UInt64) (count : Int) (filebuf : UInt64) (position : Int)
  | write (userbuf datatype : UInt64) (count : Int) (filebuf : UInt64) (position : Int)
deriving DecidableEq, Repr

def AttrKind.handleClass : AttrKind → HandleClass
  | .comm => .comm
  | .type => .datatype
  | .win => .win

/-- What the trampolines convert. Counts are widened where they are. -/
def Callback.toabi (t : KeyvalTable) : Callback → Callback
  | .copy kind object keyval valIn valOut flag =>
      .copy kind (handleToabi impl.maps kind.handleClass object false).1
        (keyvalToabi impl.keyvals keyval t) valIn valOut flag
  | .delete kind object keyval val =>
      .delete kind (handleToabi impl.maps kind.handleClass object false).1
        (keyvalToabi impl.keyvals keyval t) val
  | .query => .query
  | .free => .free
  | .cancel complete => .cancel complete
  | .extent datatype => .extent (handleToabi impl.maps .datatype datatype false).1
  | .read userbuf datatype count filebuf position =>
      .read userbuf (handleToabi impl.maps .datatype datatype false).1 count filebuf position
  | .write userbuf datatype count filebuf position =>
      .write userbuf (handleToabi impl.maps .datatype datatype false).1 count filebuf position

/-- A function of the program's is called. -/
structure UserCall where
  fn : UInt64
  extraState : UInt64
  args : Callback
deriving DecidableEq, Repr

/-- Which function is called, and with which extra state; none where the
implementation's own function does the work. -/
abbrev Target := Option (UInt64 × UInt64)

def recorded (calls : List UserCall) (target : Target) (args : Callback) : List UserCall :=
  match target with
  | some (fn, extraState) => calls ++ [⟨fn, extraState, args⟩]
  | none => calls

/-- `*(const struct ..._pair *)extra_state`. -/
def StatePtr.read (heap : RecordHeap Pair) : StatePtr → Option Pair
  | .caller _ => none
  | .pair a => heap a

def calledFn : ConvFn → UInt64 → Option Target
  | .user fn, extraState => some (some (fn, extraState))
  | .null, _ => none

/-- The implementation calls one of the functions it keeps. A function that is not
one of the object's, and a pair that is another's, are undefined. -/
def trampoline (heap : RecordHeap Pair) (fns : ImplFns) (state : StatePtr) (cb : Callback) :
    Option Target :=
  match fns, cb with
  | .attr kind copy _, .copy kind' .. =>
      if kind' ≠ kind then none
      else
        match copy with
        | .null | .dup => some none
        | .tramp =>
            match state.read heap with
            | some (.attr kind' (.user fn) _ extraState) =>
                if kind' = kind then some (some (fn, extraState)) else none
            | _ => none
  | .attr kind _ delete, .delete kind' .. =>
      if kind' ≠ kind then none
      else
        match delete with
        | .null => some none
        | .tramp =>
            match state.read heap with
            | some (.attr kind' _ (.user fn) extraState) =>
                if kind' = kind then some (some (fn, extraState)) else none
            | _ => none
  | .grequest, .query =>
      match state.read heap with
      | some (.grequest query _ _ extraState) => some (some (query, extraState))
      | _ => none
  | .grequest, .free =>
      match state.read heap with
      | some (.grequest _ free _ extraState) => some (some (free, extraState))
      | _ => none
  | .grequest, .cancel _ =>
      match state.read heap with
      | some (.grequest _ _ cancel extraState) => some (some (cancel, extraState))
      | _ => none
  | .datarep _ _ _, .extent _ =>
      match state.read heap with
      | some (.datarep _ _ _ _ extent extraState) => some (some (extent, extraState))
      | _ => none
  | .datarep shape read _, .read .. =>
      if read then
        match shape, state.read heap with
        | .small, some (.datarep read _ _ _ _ extraState) => calledFn read extraState
        | .large, some (.datarep _ _ readC _ _ extraState)
        | .adapted, some (.datarep _ _ readC _ _ extraState) => calledFn readC extraState
        | _, _ => none
      else some none
  | .datarep shape _ write, .write .. =>
      if write then
        match shape, state.read heap with
        | .small, some (.datarep _ write _ _ _ extraState) => calledFn write extraState
        | .large, some (.datarep _ _ _ writeC _ extraState)
        | .adapted, some (.datarep _ _ _ writeC _ extraState) => calledFn writeC extraState
        | _, _ => none
      else some none
  | _, _ => none

/-! ## Histories -/

/-- Who has a registration: a body that is in the implementation's function, or an
object of the implementation's. -/
inductive Holder
  | body (frame : Nat)
  | object (id : Nat)
deriving DecidableEq, Repr

inductive CallbackAct
  /-- A registrar is called; `address` is what `malloc` answers. -/
  | start (frame : Nat) (reg : UserReg) (address : Option Nat)
  /-- The implementation has made an object; `keyval` is the number of a key. -/
  | made (frame id : Nat) (keyval : Int32)
  | refused (frame : Nat)
  | call (id : Nat) (cb : Callback)
  /-- The implementation calls an object's free function, once, -/
  | free (id : Nat)
  /-- which returns, and the object is gone. -/
  | freed (id : Nat)
  /-- The implementation lets go of a keyval. -/
  | retire (id : Nat)

structure CallbackState where
  heap : RecordHeap Pair
  held : Holder → Option (ImplFns × StatePtr)
  freeing : Nat → Bool
  keyvals : KeyvalTable
  calls : List UserCall

namespace CallbackState

def init : CallbackState := ⟨fun _ => none, fun _ => none, fun _ => false, .empty, []⟩

/-- `free(state)`. -/
def release (s : CallbackState) : StatePtr → Option CallbackState
  | .caller _ => none
  | .pair a =>
      if s.heap a = none then none else some { s with heap := Function.update s.heap a none }

/-- The implementation calls one of an object's functions. -/
def called (s : CallbackState) (id : Nat) (cb : Callback) : Option CallbackState :=
  (s.held (.object id)).bind fun held =>
    (trampoline s.heap held.1 held.2 cb).map fun target =>
      { s with calls := recorded s.calls target (cb.toabi impl s.keyvals) }

/-- `mpiwrapper_keyval_add`, for a key; where the registry is full the body says so,
and nobody can use the key. -/
def entered (t : KeyvalTable) (keyval : Int32) : ImplFns → KeyvalTable
  | .attr .. => ((keyvalAdd keyval t).map Prod.snd).getD t
  | .grequest | .datarep .. => t

def step (s : CallbackState) : CallbackAct → Option CallbackState
  | .start frame reg address =>
      match s.held (.body frame) with
      | some _ => none
      | none =>
          match registrarFns impl s.heap address reg with
          | none => some s
          | some (heap, fns, state) =>
              some { s with
                heap := heap
                held := Function.update s.held (.body frame) (some (fns, state)) }
  | .made frame id keyval =>
      match s.held (.body frame), s.held (.object id) with
      | some reg, none =>
          some { s with
            held := Function.update (Function.update s.held (.body frame) none) (.object id)
              (some reg)
            keyvals := entered s.keyvals keyval reg.1 }
      | _, _ => none
  | .refused frame =>
      match s.held (.body frame) with
      | none => none
      | some (fns, state) =>
          let left := { s with held := Function.update s.held (.body frame) none }
          match fns with
          | .attr .. => some left
          | .grequest | .datarep .. => left.release state
  | .call id cb => if s.freeing id ∨ cb = .free then none else s.called impl id cb
  | .free id =>
      if s.freeing id then none
      else
        (s.called impl id .free).map fun s =>
          { s with freeing := Function.update s.freeing id true }
  | .freed id =>
      match s.held (.object id) with
      | none => none
      | some (_, state) =>
          if s.freeing id then
            { s with
              held := Function.update s.held (.object id) none
              freeing := Function.update s.freeing id false }.release state
          else none
  | .retire id =>
      match s.held (.object id) with
      | some (.attr .., _) =>
          some { s with held := Function.update s.held (.object id) none }
      | _ => none

end CallbackState

/-! ## The implementation as the program means it -/

def ConvFn.target (extraState : UInt64) : ConvFn → Target
  | .null => none
  | .user fn => some (fn, extraState)

/-- The program's own function for a callback, with its own extra state. -/
def UserReg.target : UserReg → Callback → Option Target
  | .attr kind copy _ extraState, .copy kind' .. =>
      if kind' ≠ kind then none
      else
        match copy with
        | .null | .dup => some none
        | .user fn => some (some (fn, extraState))
  | .attr kind _ delete extraState, .delete kind' .. =>
      if kind' ≠ kind then none
      else
        match delete with
        | .null => some none
        | .user fn => some (some (fn, extraState))
  | .grequest query _ _ extraState, .query => some (some (query, extraState))
  | .grequest _ free _ extraState, .free => some (some (free, extraState))
  | .grequest _ _ cancel extraState, .cancel _ => some (some (cancel, extraState))
  | .datarep _ _ _ extent extraState, .extent _ => some (some (extent, extraState))
  | .datarep _ read _ _ extraState, .read .. => some (read.target extraState)
  | .datarep _ _ write _ extraState, .write .. => some (write.target extraState)
  | _, _ => none

/-- One of the functions is the program's. -/
def UserReg.needsPair : UserReg → Bool
  | .attr _ .null .null _ | .attr _ .dup .null _ => false
  | .attr .. | .grequest .. | .datarep .. => true

def UserReg.supported : UserReg → Bool
  | .attr kind .. => impl.hasKeyval kind
  | .grequest .. => impl.hasGrequest
  | .datarep false .. => impl.hasDatarep
  | .datarep true .. => impl.hasDatarepC || impl.hasDatarep

structure NativeCallbacks where
  held : Holder → Option UserReg
  freeing : Nat → Bool
  calls : List UserCall

namespace NativeCallbacks

def init : NativeCallbacks := ⟨fun _ => none, fun _ => false, []⟩

def called (n : NativeCallbacks) (id : Nat) (cb : Callback) : Option NativeCallbacks :=
  (n.held (.object id)).bind fun reg =>
    (reg.target cb).map fun target => { n with calls := recorded n.calls target cb }

def step (n : NativeCallbacks) : CallbackAct → Option NativeCallbacks
  | .start frame reg address =>
      match n.held (.body frame) with
      | some _ => none
      | none =>
          if reg.supported impl && (!reg.needsPair || address.isSome) then
            some { n with held := Function.update n.held (.body frame) (some reg) }
          else some n
  | .made frame id _ =>
      match n.held (.body frame), n.held (.object id) with
      | some reg, none =>
          some { n with
            held := Function.update (Function.update n.held (.body frame) none) (.object id)
              (some reg) }
      | _, _ => none
  | .refused frame =>
      match n.held (.body frame) with
      | none => none
      | some _ => some { n with held := Function.update n.held (.body frame) none }
  | .call id cb => if n.freeing id ∨ cb = .free then none else n.called id cb
  | .free id =>
      if n.freeing id then none
      else
        (n.called id .free).map fun n =>
          { n with freeing := Function.update n.freeing id true }
  | .freed id =>
      if n.freeing id then
        some { n with
          held := Function.update n.held (.object id) none
          freeing := Function.update n.freeing id false }
      else none
  | .retire id =>
      match n.held (.object id) with
      | some (.attr ..) =>
          some { n with held := Function.update n.held (.object id) none }
      | _ => none

end NativeCallbacks

end AbiWrapper.Ref
