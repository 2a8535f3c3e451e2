import AbiWrapper.Ref.Autobuf
import AbiWrapper.Ref.Errorcodes
import AbiWrapper.Ref.Fallbacks

/-!
# Attaching and detaching buffers (hw_buffers.c)

Twelve bodies over an implementation that has no `MPI_BUFFER_AUTOMATIC`: a
buffer is attached to or detached from the process, a communicator or a
session, by a small or a large form, and the large form may be there itself, be
made from the small one, or be missing. The twelve are two texts, `attachBody`
and `detachBody`.

An attach of `MPIABI_BUFFER_AUTOMATIC` claims a block, gives it to the
implementation in the application's place and, if the implementation refuses,
releases its scope. A detach that succeeds releases its scope, and tells by the
answer whose buffer it was.

The implementation is what its documentation says of it: it has at most one
buffer for each scope, takes one only where it has none, gives back the one it
has, and a call that it refuses leaves it as it was. It may refuse any call.
-/

namespace AbiWrapper.Ref

open AbiWrapper.Lib

/-- Whose buffer it is, by the implementation's handle. -/
inductive BufferScope
  | process
  | comm (handle : UInt64)
  | session (handle : UInt64)
deriving DecidableEq, Repr

/-- `MPIWRAPPER_AUTOBUF_PROCESS`, `MPIWRAPPER_AUTOBUF_COMM` and
`MPIWRAPPER_AUTOBUF_SESSION`. -/
def BufferScope.key : BufferScope → UInt64
  | .process => 0xffffffffffffffff
  | .comm handle => handle
  | .session handle => handle

/-- A scope as the application names it, and as the body does after
`mpiwrapper_comm_fromabi` or `mpiwrapper_session_fromabi`. -/
def BufferScope.fromabi (impl : ImplHandles) : BufferScope → BufferScope
  | .process => .process
  | .comm abiComm => .comm (handleFromabi impl .comm abiComm)
  | .session abiSession => .session (handleFromabi impl .session abiSession)

/-- How a form is compiled: from the implementation's function, from its small
function, or from none. -/
inductive BufferForm
  | own
  | fallback
  | missing
deriving DecidableEq, Repr

/-- An address: a block of the wrapper's, or memory of the application's. -/
inductive Buffer
  | block (b : Nat)
  | memory (address : UInt64)
deriving DecidableEq, Repr

inductive AbiBuffer
  | automatic
  | memory (address : UInt64)
deriving DecidableEq, Repr

/-- What a detach stores through `abi_buffer_addr`. -/
inductive AbiAddress
  | automatic
  | address (buffer : Buffer)
deriving DecidableEq, Repr

/-- The table, the implementation's buffers, the blocks allocated and freed so
far, and the error codes. -/
structure BufferState where
  table : AutobufTable
  attached : BufferScope → Option Buffer
  fresh : Nat
  freed : List Nat
  errors : ErrorTable

namespace BufferState

def init : BufferState := ⟨.init, fun _ => none, 0, [], .empty⟩

/-- `mpiwrapper_autobuf_release`. -/
def release (slots : Nat) (s : BufferState) (key : UInt64) : Option Nat × BufferState :=
  let r := autobufRelease slots key s.table
  (r.2, { s with table := r.1, freed := s.freed ++ r.2.toList })

/-- `mpiwrapper_autobuf_claim`, where `malloc` may fail. -/
def claim (slots : Nat) (s : BufferState) (key : UInt64) (malloc : Bool) :
    Option Nat × BufferState :=
  let r := autobufClaim slots key (if malloc then some s.fresh else none) s.table
  (r.1, { s with
    table := r.2.1
    fresh := s.fresh + 1
    freed := s.freed ++ r.2.2.toList })

/-- `mpiwrapper_errorcode_toabi`. -/
def report (s : BufferState) (impl : ImplErrors) (ierror : Int32) : Int32 × BufferState :=
  let r := errorcodeToabi impl ierror s.errors
  (r.1, { s with errors := r.2 })

/-- What the implementation makes of an attach it returns `ierror` from, unless
it cannot return that. -/
def attachCall (s : BufferState) (scope : BufferScope) (buffer : Buffer) (ierror : Int32) :
    Option BufferState :=
  if ierror ≠ 0 then some s
  else if s.attached scope = none then
    some { s with attached := Function.update s.attached scope (some buffer) }
  else none

/-- What a detach that succeeds gives back: null, where nothing is attached. -/
def address (s : BufferState) (scope : BufferScope) : Buffer :=
  (s.attached scope).getD (.memory 0)

def detachCall (s : BufferState) (scope : BufferScope) (ierror : Int32) : BufferState :=
  if ierror ≠ 0 then s else { s with attached := Function.update s.attached scope none }

end BufferState

/-- What a body returns, what it stores through the caller's pointers, and the
state it leaves. -/
structure BufferResult where
  abiIerror : Int32
  stored : Option (AbiAddress × Int)
  state : BufferState

/-- The part of an attach body from its call on. -/
def attachFinish (slots : Nat) (impl : ImplErrors) (scope : BufferScope) (automatic : Bool)
    (buffer : Buffer) (ierror : Int32) (s : BufferState) : Option BufferResult :=
  (s.attachCall scope buffer ierror).map fun s =>
    let s := if ierror ≠ 0 ∧ automatic then (s.release slots scope.key).2 else s
    let r := s.report impl ierror
    ⟨r.1, none, r.2⟩

/-- `BODY_MPI_Buffer_attach`, `BODY_MPI_Comm_attach_buffer`,
`BODY_MPI_Session_attach_buffer` and their large forms. `malloc` is whether the
allocation of a claim succeeds, and `ierror` what the implementation returns.
The size of a block, `MPIWRAPPER_AUTOBUF_BYTES`, fits every size type. -/
def attachBody (slots : Nat) (impl : ImplErrors) (form : BufferForm) (scope : BufferScope)
    (abiBuffer : AbiBuffer) (abiSize : Int) (malloc : Bool) (ierror : Int32) (s : BufferState) :
    Option BufferResult :=
  match form, abiBuffer with
  | .missing, _ => some ⟨abiErrUnsupportedOperation, none, s⟩
  | _, .automatic =>
      match s.claim slots scope.key malloc with
      | (none, s) => some ⟨abiErrIntern, none, s⟩
      | (some block, s) =>
          attachFinish slots impl scope true (.block block) ierror s
  | .own, .memory address => attachFinish slots impl scope false (.memory address) ierror s
  | .fallback, .memory address =>
      if ¬fitsInt abiSize then some ⟨abiErrValueTooLarge, none, s⟩
      else attachFinish slots impl scope false (.memory address) ierror s

/-- `BODY_MPI_Buffer_detach`, `BODY_MPI_Comm_detach_buffer`,
`BODY_MPI_Session_detach_buffer` and their large forms. `size` is what the
implementation reports. -/
def detachBody (slots : Nat) (impl : ImplErrors) (form : BufferForm) (scope : BufferScope)
    (size : Int) (ierror : Int32) (s : BufferState) : BufferResult :=
  match form with
  | .missing => ⟨abiErrUnsupportedOperation, none, s⟩
  | _ =>
      let address := s.address scope
      let s := s.detachCall scope ierror
      if ierror ≠ 0 then
        let r := s.report impl ierror
        ⟨r.1, none, r.2⟩
      else
        match s.release slots scope.key with
        | (some _, s) => ⟨0, some (.automatic, size), s⟩
        | (none, s) => ⟨0, some (.address address, size), s⟩

/-! ## Histories -/

/-- A call, by the scope's ABI handle, with what the allocation and the
implementation do in it. -/
inductive BufferCall
  | attach (form : BufferForm) (scope : BufferScope) (abiBuffer : AbiBuffer) (abiSize : Int)
      (malloc : Bool) (ierror : Int32)
  | detach (form : BufferForm) (scope : BufferScope) (size : Int) (ierror : Int32)

def BufferState.step (slots : Nat) (handles : ImplHandles) (errors : ImplErrors)
    (s : BufferState) : BufferCall → Option BufferState
  | .attach form scope abiBuffer abiSize malloc ierror =>
      (attachBody slots errors form (scope.fromabi handles) abiBuffer abiSize malloc ierror
        s).map BufferResult.state
  | .detach form scope size ierror =>
      some (detachBody slots errors form (scope.fromabi handles) size ierror s).state

end AbiWrapper.Ref
