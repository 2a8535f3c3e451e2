import AbiWrapper.Lib.Run
import AbiWrapper.Ref.Handles
import AbiWrapper.Ref.Keyvals
import AbiWrapper.Ref.Status

/-!
# Predefined attributes (hw_attr.c)

`MPI_Comm_get_attr` and `MPI_Win_get_attr` answer with a pointer, and for five
predefined keys the int behind the implementation's is in the implementation's
numbering. The two bodies convert it, and answer with the address of a copy.
There is one such copy for each key and thread: a later answer for the key
replaces it, on whatever object.

The state is one thread's. It has one thing the code has not: the converted
answers that have been given, each with the value its object had when it was
queried. A query about a key whose translation is undefined has no next state.
-/

namespace AbiWrapper.Ref

open AbiWrapper.Lib

def abiIo : Int32 := 502
def abiHost : Int32 := 503
def abiLastusedcode : Int32 := 506
def abiWinCreateFlavor : Int32 := 604
def abiWinModel : Int32 := 605

/-- What an implementation has for the two bodies: which of the two functions,
its handles, keys, ranks and error codes, and the values of two of the
attributes. -/
structure ImplAttributes where
  comm : Bool
  win : Bool
  handles : ImplHandles
  keyvals : ImplKeyvals
  status : StatusImpl
  flavorCreate : Int32
  flavorAllocate : Int32
  flavorDynamic : Int32
  flavorShared : Int32
  unified : Int32
  separate : Int32
  /-- The cases of a switch differ. -/
  flavors : [flavorCreate, flavorAllocate, flavorDynamic, flavorShared].Nodup
  models : unified ≠ separate

def winflavorToabi (impl : ImplAttributes) (winflavor : Int32) : Int32 :=
  Sentinels.toabi [(311, impl.flavorCreate), (312, impl.flavorAllocate), (313, impl.flavorDynamic),
    (314, impl.flavorShared)] winflavor

def winmodelToabi (impl : ImplAttributes) (winmodel : Int32) : Int32 :=
  Sentinels.toabi [(321, impl.unified), (322, impl.separate)] winmodel

inductive AttrSlot
  | host | io | lastusedcode | winCreateFlavor | winModel
deriving DecidableEq, Repr

/-- A pointer that the application is given: the implementation's own, or the
address of a slot. -/
inductive AttrPointer
  | impl (address : UInt64)
  | slot (slot : AttrSlot)
deriving DecidableEq, Repr

abbrev AttrSlots := AttrSlot → Int32

def attrStore (slots : AttrSlots) (slot : AttrSlot) (value : Int32) : AttrPointer × AttrSlots :=
  (.slot slot, Function.update slots slot value)

/-- What the implementation answers a query with; `number` is the int at
`value`, where that is not null. -/
structure AttrReply where
  ierror : Int32
  flag : Int32
  value : UInt64
  number : Int32
deriving DecidableEq, Repr

def commAttrToabi (impl : ImplAttributes) (errors : ErrorTable) (abiCommKeyval : Int32)
    (reply : AttrReply) (slots : AttrSlots) : AttrPointer × AttrSlots :=
  if reply.value = 0 then (.impl reply.value, slots)
  else if abiCommKeyval = abiHost then
    attrStore slots .host (impl.status.rankToabi reply.number)
  else if abiCommKeyval = abiIo then
    attrStore slots .io (impl.status.rankToabi reply.number)
  else if abiCommKeyval = abiLastusedcode then
    -- The implementation's answer is in its own numbering, and is not looked at.
    attrStore slots .lastusedcode (errorcodeLastused errors)
  else (.impl reply.value, slots)

def winAttrToabi (impl : ImplAttributes) (abiWinKeyval : Int32) (reply : AttrReply)
    (slots : AttrSlots) : AttrPointer × AttrSlots :=
  if reply.value = 0 then (.impl reply.value, slots)
  else if abiWinKeyval = abiWinCreateFlavor then
    attrStore slots .winCreateFlavor (winflavorToabi impl reply.number)
  else if abiWinKeyval = abiWinModel then
    attrStore slots .winModel (winmodelToabi impl reply.number)
  else (.impl reply.value, slots)

/-- What a body returns, what it stores through the caller's pointers, and what
it leaves. -/
structure AttrResult where
  abiIerror : Int32
  attributeVal : Option AttrPointer
  abiFlag : Option Int32
  slots : AttrSlots
  errors : ErrorTable

/-- What the two bodies share, from the implementation's answer on. -/
def getAttrBody (impl : ImplAttributes) (toabi : AttrReply → AttrSlots → AttrPointer × AttrSlots)
    (reply : AttrReply) (slots : AttrSlots) (errors : ErrorTable) : AttrResult :=
  let r := errorcodeToabi impl.status.errors reply.ierror errors
  if reply.ierror = 0 then
    if reply.flag ≠ 0 then
      let p := toabi reply slots
      ⟨r.1, some p.1, some reply.flag, p.2, r.2⟩
    else ⟨r.1, none, some reply.flag, slots, r.2⟩
  else ⟨r.1, none, none, slots, r.2⟩

def commGetAttr (impl : ImplAttributes) (target : UInt64 → Int32 → AttrReply) (abiComm : UInt64)
    (abiCommKeyval : Int32) (slots : AttrSlots) (errors : ErrorTable) (keyvals : KeyvalTable) :
    Option AttrResult :=
  if impl.comm then
    (keyvalFromabi impl.keyvals abiCommKeyval keyvals).map fun commKeyval =>
      getAttrBody impl (commAttrToabi impl errors abiCommKeyval)
        (target (handleFromabi impl.handles .comm abiComm) commKeyval) slots errors
  else some ⟨abiErrUnsupportedOperation, none, none, slots, errors⟩

def winGetAttr (impl : ImplAttributes) (target : UInt64 → Int32 → AttrReply) (abiWin : UInt64)
    (abiWinKeyval : Int32) (slots : AttrSlots) (errors : ErrorTable) (keyvals : KeyvalTable) :
    Option AttrResult :=
  if impl.win then
    (keyvalFromabi impl.keyvals abiWinKeyval keyvals).map fun winKeyval =>
      getAttrBody impl (winAttrToabi impl abiWinKeyval)
        (target (handleFromabi impl.handles .win abiWin) winKeyval) slots errors
  else some ⟨abiErrUnsupportedOperation, none, none, slots, errors⟩

/-! ## Histories -/

inductive AttrObject
  | comm (abiComm : UInt64)
  | win (abiWin : UInt64)
deriving DecidableEq, Repr

/-- A query, by the implementation's function that answers it; or any other call
of the wrapper's, which may have left other tables. -/
inductive AttrCall
  | getAttr (object : AttrObject) (abiKeyval : Int32) (target : UInt64 → Int32 → AttrReply)
  | other (errors : ErrorTable) (keyvals : KeyvalTable)

/-- A pointer that was given for a key that is converted, and the value that its
object had then, as an ABI value. -/
structure AttrAnswer where
  object : AttrObject
  key : AttrSlot
  pointer : AttrPointer
  value : Int32
deriving DecidableEq, Repr

def convertedKey : AttrObject → Int32 → Option AttrSlot
  | .comm _, abiKeyval =>
      if abiKeyval = abiHost then some .host
      else if abiKeyval = abiIo then some .io
      else if abiKeyval = abiLastusedcode then some .lastusedcode
      else none
  | .win _, abiKeyval =>
      if abiKeyval = abiWinCreateFlavor then some .winCreateFlavor
      else if abiKeyval = abiWinModel then some .winModel
      else none

/-- An attribute's value as an ABI value. -/
def AttrSlot.convert (impl : ImplAttributes) (errors : ErrorTable) (number : Int32) :
    AttrSlot → Int32
  | .host | .io => impl.status.rankToabi number
  | .lastusedcode => errorcodeLastused errors
  | .winCreateFlavor => winflavorToabi impl number
  | .winModel => winmodelToabi impl number

structure AttrThread where
  slots : AttrSlots
  errors : ErrorTable
  keyvals : KeyvalTable
  answers : List AttrAnswer

namespace AttrThread

def init : AttrThread := ⟨fun _ => 0, .empty, .empty, []⟩

/-- The int behind a pointer into the thread's storage. -/
def read (s : AttrThread) : AttrPointer → Option Int32
  | .slot slot => some (s.slots slot)
  | .impl _ => none

/-- The two bodies. -/
def getAttr (impl : ImplAttributes) (s : AttrThread) (object : AttrObject) (abiKeyval : Int32)
    (target : UInt64 → Int32 → AttrReply) : Option AttrResult :=
  match object with
  | .comm abiComm => commGetAttr impl target abiComm abiKeyval s.slots s.errors s.keyvals
  | .win abiWin => winGetAttr impl target abiWin abiKeyval s.slots s.errors s.keyvals

/-- What the implementation answers a query with. -/
def reply (impl : ImplAttributes) (s : AttrThread) (object : AttrObject) (abiKeyval : Int32)
    (target : UInt64 → Int32 → AttrReply) : Option AttrReply :=
  (keyvalFromabi impl.keyvals abiKeyval s.keyvals).map
    (target
      (match object with
        | .comm abiComm => handleFromabi impl.handles .comm abiComm
        | .win abiWin => handleFromabi impl.handles .win abiWin))

/-- The answer that a query with the result `r` adds: there is one if it has
given a pointer, not null, for a key that is converted. -/
def answered (impl : ImplAttributes) (s : AttrThread) (object : AttrObject) (abiKeyval : Int32)
    (reply : Option AttrReply) (r : AttrResult) : List AttrAnswer :=
  match r.attributeVal, convertedKey object abiKeyval, reply with
  | some pointer, some key, some reply =>
      if pointer = .impl 0 then []
      else [⟨object, key, pointer, key.convert impl s.errors reply.number⟩]
  | _, _, _ => []

def step (impl : ImplAttributes) (s : AttrThread) : AttrCall → Option AttrThread
  | .getAttr object abiKeyval target =>
      let reply := s.reply impl object abiKeyval target
      (s.getAttr impl object abiKeyval target).map fun r =>
        ⟨r.slots, r.errors, s.keyvals, s.answers ++ s.answered impl object abiKeyval reply r⟩
  | .other errors keyvals => some { s with errors, keyvals }

end AttrThread

end AbiWrapper.Ref
