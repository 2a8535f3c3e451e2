import AbiWrapper.Lib.Simulation
import AbiWrapper.Ref.Handles
import AbiWrapper.Ref.Status

/-!
# Calls on statuses (hw_status.c, hw_converters.c, wrappers.c)

A caller's status is an ABI object all its life. The functions that read a
count or a flag out of one, and those that put one in, build the
implementation's object from it, call, and, where they were given it to change,
convert the object back. The six accessors of the named fields touch the ABI
object alone, and the four Fortran converters copy it.

Of an implementation this needs the functions themselves. They are given an
object and may read all of it but `MPI_ERROR`, which is the caller's; those that
change one change what is not named (`StatusFns`).

A program with such calls runs twice here: through the wrapper (`StatusState`),
on ABI objects, and on the implementation's own objects without it
(`NativeState`). Its constants, datatypes and codes have a value on either side,
so the run without the wrapper converts nothing. Natively `MPI_ERROR` need not
have a value; behind the wrapper every conversion down translates what is there,
which may be undefined.
-/

namespace AbiWrapper.Ref

open AbiWrapper.Lib

/-! ## What an implementation has -/

/-- The functions that read a count. -/
inductive StatusQuery
  | getCount | getCountC | getElements | getElementsC | getElementsX
deriving DecidableEq, Repr

/-- The functions that set one. -/
inductive StatusSetter
  | setElements | setElementsC | setElementsX
deriving DecidableEq, Repr

/-- The implementation's functions read the same out of both objects. -/
structure SameStatus (fmt : IntFormat) (L : StatusLayout) (st st' : Bytes) : Prop where
  source : st.getInt fmt L.source = st'.getInt fmt L.source
  tag : st.getInt fmt L.tag = st'.getInt fmt L.tag
  hidden : ∀ a, a < L.size → a < L.namedOff ∨ L.tailOff ≤ a → st a = st' a

/-- The implementation's functions on statuses: their code, and the count, the
flag or the changed object. -/
structure StatusFns (fmt : IntFormat) (L : StatusLayout) where
  query : StatusQuery → Bytes → UInt64 → Int32 × Int
  testCancelled : Bytes → Int32 × Int
  setElements : StatusSetter → Bytes → UInt64 → Int → Int32 × Bytes
  setCancelled : Bytes → Int → Int32 × Bytes
  query_congr : ∀ {q st st' d}, SameStatus fmt L st st' → query q st d = query q st' d
  testCancelled_congr : ∀ {st st'}, SameStatus fmt L st st' → testCancelled st = testCancelled st'
  setElements_congr : ∀ {q st st' d n}, SameStatus fmt L st st' →
    (setElements q st d n).1 = (setElements q st' d n).1 ∧
      SameStatus fmt L (setElements q st d n).2 (setElements q st' d n).2
  setCancelled_congr : ∀ {st st' flag}, SameStatus fmt L st st' →
    (setCancelled st flag).1 = (setCancelled st' flag).1 ∧
      SameStatus fmt L (setCancelled st flag).2 (setCancelled st' flag).2
  /-- The named fields stay. -/
  setElements_named : ∀ {q st d n a}, L.namedOff ≤ a → a < L.tailOff →
    (setElements q st d n).2 a = st a
  setCancelled_named : ∀ {st flag a}, L.namedOff ≤ a → a < L.tailOff →
    (setCancelled st flag).2 a = st a

/-- An implementation, with `MPIWRAPPER_HAVE_*` of the ten functions. -/
structure ImplStatus (fmt : IntFormat) (L : StatusLayout) where
  consts : StatusImpl
  handles : ImplHandles
  fns : StatusFns fmt L
  hasQuery : StatusQuery → Bool
  hasSetter : StatusSetter → Bool
  hasTestCancelled : Bool
  hasSetCancelled : Bool

namespace ImplStatus

variable {fmt : IntFormat} {L : StatusLayout} (impl : ImplStatus fmt L)

/-- The function that a query's body calls: the large-count ones fall back to one
whose answer only has to be widened. -/
def queryTarget (q : StatusQuery) : Option StatusQuery :=
  if impl.hasQuery q then some q
  else
    match q with
    | .getCountC => if impl.hasQuery .getCount then some .getCount else none
    | .getElementsC => if impl.hasQuery .getElementsX then some .getElementsX else none
    | .getCount | .getElements | .getElementsX => none

def setterTarget (q : StatusSetter) : Option StatusSetter :=
  if impl.hasSetter q then some q
  else
    match q with
    | .setElementsC => if impl.hasSetter .setElementsX then some .setElementsX else none
    | .setElements | .setElementsX => none

end ImplStatus

/-! ## The bodies -/

def abiStatusUndefined : Int := -32766

/-- What a body answers: its code and what it stored through the out parameter. -/
structure StatusAnswer where
  code : Int32
  value : Option Int
deriving DecidableEq, Repr

section Bodies

variable (fmt : IntFormat) (L : StatusLayout) (impl : ImplStatus fmt L)

/-- A count that is `MPI_UNDEFINED` is the ABI's. -/
def countToabi (count : Int) : Int :=
  if count = impl.consts.undefined.toInt then abiStatusUndefined else count

/-- `BODY_STATUS_QUERY`; `stack` is what the local `status` has in it. -/
def statusQuery (q : StatusQuery) (abiStatus : Bytes) (abiDatatype : UInt64) (stack : Bytes)
    (t : ErrorTable) : Option (StatusAnswer × ErrorTable) :=
  match impl.queryTarget q with
  | none => some (⟨abiErrUnsupportedOperation, none⟩, t)
  | some target =>
      (statusFromabi fmt L impl.consts abiStatus stack t).map fun status =>
        let datatype := handleFromabi impl.handles .datatype abiDatatype
        let r := impl.fns.query target status datatype
        let code := errorcodeToabi impl.consts.errors r.1 t
        (⟨code.1, if r.1 = 0 then some (countToabi fmt L impl r.2) else none⟩, code.2)

def testCancelled (abiStatus stack : Bytes) (t : ErrorTable) :
    Option (StatusAnswer × ErrorTable) :=
  if impl.hasTestCancelled then
    (statusFromabi fmt L impl.consts abiStatus stack t).map fun status =>
      let r := impl.fns.testCancelled status
      let code := errorcodeToabi impl.consts.errors r.1 t
      (⟨code.1, if r.1 = 0 then some r.2 else none⟩, code.2)
  else some (⟨abiErrUnsupportedOperation, none⟩, t)

/-- What the bodies with a status to change do with what their call leaves: on
success the ABI object is written in full. -/
def statusStored (ierror : Int32) (status abiStatus stack : Bytes) (t : ErrorTable) :
    StatusAnswer × Bytes × ErrorTable :=
  let stored :=
    if ierror = 0 then statusToabiWhole fmt L impl.consts status abiStatus stack t
    else (abiStatus, t)
  let code := errorcodeToabi impl.consts.errors ierror stored.2
  (⟨code.1, none⟩, stored.1, code.2)

def statusSetElements (q : StatusSetter) (abiStatus : Bytes) (abiDatatype : UInt64)
    (abiCount : Int) (stack : Bytes) (t : ErrorTable) :
    Option (StatusAnswer × Bytes × ErrorTable) :=
  match impl.setterTarget q with
  | none => some (⟨abiErrUnsupportedOperation, none⟩, abiStatus, t)
  | some target =>
      (statusFromabi fmt L impl.consts abiStatus stack t).map fun status =>
        let datatype := handleFromabi impl.handles .datatype abiDatatype
        let r := impl.fns.setElements target status datatype abiCount
        statusStored fmt L impl r.1 r.2 abiStatus stack t

def statusSetCancelled (abiStatus : Bytes) (abiFlag : Int) (stack : Bytes) (t : ErrorTable) :
    Option (StatusAnswer × Bytes × ErrorTable) :=
  if impl.hasSetCancelled then
    (statusFromabi fmt L impl.consts abiStatus stack t).map fun status =>
      let r := impl.fns.setCancelled status abiFlag
      statusStored fmt L impl r.1 r.2 abiStatus stack t
  else some (⟨abiErrUnsupportedOperation, none⟩, abiStatus, t)

end Bodies

/-- The named fields, `STATUS_FIELD`. -/
inductive StatusField
  | source | tag | error
deriving DecidableEq, Repr

namespace StatusField

def abiOff : StatusField → Nat
  | .source => abiSource
  | .tag => abiTag
  | .error => abiError

def implOff (L : StatusLayout) : StatusField → Nat
  | .source => L.source
  | .tag => L.tag
  | .error => L.error

end StatusField

/-- `memcpy(abi_f_status, abi_c_status, sizeof(MPIABI_Status))`, which is the body
of `MPI_Status_c2f`, `_f2c`, `_c2f08` and `_f082c`. -/
def statusConvert (src dst : Bytes) : Bytes := dst.copy 0 src 0 (abiInternal + abiScratch)

/-! ## Runs -/

/-- What a program does with its statuses, which it keeps in numbered variables.
What it means by a datatype, a rank, a tag or a code is given behind the wrapper
and without it. -/
inductive StatusOp
  /-- A call with one status has returned, and left this in the implementation's
  object, whose `MPI_ERROR` it has set or not. -/
  | receive (v : Nat) (status : Bytes) (withError : Bool)
  /-- The same of an element of an array of statuses. -/
  | complete (v : Nat) (status : Bytes) (withError : Bool)
  | query (q : StatusQuery) (v : Nat) (abiDatatype datatype : UInt64)
  | testCancelled (v : Nat)
  | setElements (q : StatusSetter) (v : Nat) (abiDatatype datatype : UInt64) (count : Int)
  | setCancelled (v : Nat) (flag : Int)
  | getField (f : StatusField) (v : Nat)
  | setField (f : StatusField) (v : Nat) (abi value : Int32)
  | convert (src dst : Nat)

/-- An action, and what the locals of its body have in them. -/
structure StatusAct where
  op : StatusOp
  stack : Bytes

/-- A program behind the wrapper: the table of error codes, its statuses, and what
it was answered. -/
structure StatusState where
  errors : ErrorTable
  abi : Nat → Bytes
  answers : List StatusAnswer

namespace StatusState

variable {fmt : IntFormat} {L : StatusLayout} (impl : ImplStatus fmt L)

def init (abi : Nat → Bytes) : StatusState := ⟨.empty, abi, []⟩

/-- What `grequest_query_tramp` gives a query function. -/
def queried (status : Bytes) (abi : Nat → Bytes) (stack : Bytes) (t : ErrorTable) : StatusState :=
  let up := statusToabiWhole fmt L impl.consts status (abi 0) stack t
  ⟨up.2, Function.update abi 0 up.1, []⟩

def store (s : StatusState) (v : Nat) (r : Bytes × ErrorTable) : StatusState :=
  { s with errors := r.2, abi := Function.update s.abi v r.1 }

def answered (s : StatusState) (r : StatusAnswer × ErrorTable) : StatusState :=
  { s with errors := r.2, answers := s.answers ++ [r.1] }

def changed (s : StatusState) (v : Nat) (r : StatusAnswer × Bytes × ErrorTable) : StatusState :=
  (s.store v r.2).answered (r.1, r.2.2)

/-- The local that a function is given is zeroed, so an error that it does not set
is `MPI_SUCCESS` there. -/
def filled (fmt : IntFormat) (L : StatusLayout) (status : Bytes) (withError : Bool) : Bytes :=
  if withError then status else status.putInt fmt L.error 0

/-- Undefined where a conversion is. -/
def step (s : StatusState) (a : StatusAct) : Option StatusState :=
  match a.op with
  | .receive v status withError =>
      some (s.store v (statusToabiKeepError fmt L impl.consts (filled fmt L status withError)
        (s.abi v) a.stack s.errors))
  | .complete v status withError =>
      some (s.store v (statusToabiWhole fmt L impl.consts (filled fmt L status withError)
        (s.abi v) a.stack s.errors))
  | .query q v abiDatatype _ =>
      (statusQuery fmt L impl q (s.abi v) abiDatatype a.stack s.errors).map s.answered
  | .testCancelled v =>
      (testCancelled fmt L impl (s.abi v) a.stack s.errors).map s.answered
  | .setElements q v abiDatatype _ count =>
      (statusSetElements fmt L impl q (s.abi v) abiDatatype count a.stack s.errors).map
        (s.changed v)
  | .setCancelled v flag =>
      (statusSetCancelled fmt L impl (s.abi v) flag a.stack s.errors).map (s.changed v)
  | .getField f v =>
      some (s.answered (⟨0, some ((s.abi v).getInt fmt f.abiOff).toInt⟩, s.errors))
  | .setField f v abi _ =>
      some ((s.store v ((s.abi v).putInt fmt f.abiOff abi, s.errors)).answered
        (⟨0, none⟩, s.errors))
  | .convert src dst => some (s.store dst (statusConvert (s.abi src) (s.abi dst), s.errors))

end StatusState

/-- What `MPI_ERROR` of a status is: without a value; a value; or one that was
there when a call on several requests left it alone. -/
inductive ErrorMark
  | unset
  | set
  | kept
deriving DecidableEq, Repr

/-- Left alone by a call on several requests. -/
def ErrorMark.leftAlone : ErrorMark → ErrorMark
  | .unset => .unset
  | .set | .kept => .kept

/-- What the implementation itself answers: the code of a call with a count or a
flag; a field, which for `MPI_ERROR` may have no value; and an `MPI_ERROR` that a
call on several requests has left alone. -/
inductive NativeAnswer
  | count (ierror : Int32) (value : Option Int)
  | flag (ierror : Int32) (value : Option Int)
  | done (ierror : Int32)
  | field (f : StatusField) (value : Option Int32)
  | keptError (value : Int32)
deriving DecidableEq, Repr

/-- The function that a program can make do with that finds no large-count one. -/
def StatusQuery.otherwise : StatusQuery → Option StatusQuery
  | .getCountC => some .getCount
  | .getElementsC => some .getElementsX
  | .getCount | .getElements | .getElementsX => none

def StatusSetter.otherwise : StatusSetter → Option StatusSetter
  | .setElementsC => some .setElementsX
  | .setElements | .setElementsX => none

/-- The same program without a wrapper. A status has no value before a call has
given it one, and a program does not use it before that. -/
structure NativeState where
  status : Nat → Option Bytes
  mark : Nat → ErrorMark
  answers : List NativeAnswer

namespace NativeState

variable {fmt : IntFormat} {L : StatusLayout} (impl : ImplStatus fmt L)

def init : NativeState := ⟨fun _ => none, fun _ => .unset, []⟩

/-- What a query function finds when it is called: its status, whose `MPI_ERROR`
has a value or not. -/
def queried (status : Bytes) (withError : Bool) : NativeState :=
  ⟨Function.update (fun _ => none) 0 (some status),
    Function.update (fun _ => .unset) 0 (if withError then .set else .unset), []⟩

def store (s : NativeState) (v : Nat) (status : Bytes) (mark : ErrorMark) : NativeState :=
  { s with
    status := Function.update s.status v (some status)
    mark := Function.update s.mark v mark }

/-- Whatever the variable has is no value of a status. -/
def forget (s : NativeState) (v : Nat) : NativeState :=
  { s with
    status := Function.update s.status v none
    mark := Function.update s.mark v .unset }

def answered (s : NativeState) (a : NativeAnswer) : NativeState :=
  { s with answers := s.answers ++ [a] }

/-- What an implementation without a function has to say. -/
def lacking : Int32 := impl.consts.errors.code abiErrUnsupportedOperation

/-- The function that is called for a query: its own, if there is one. -/
def queryFunction (q : StatusQuery) : Option StatusQuery :=
  if impl.hasQuery q then some q else q.otherwise.filter impl.hasQuery

def setterFunction (q : StatusSetter) : Option StatusSetter :=
  if impl.hasSetter q then some q else q.otherwise.filter impl.hasSetter

/-- On success the object is changed, in place. -/
def changed (s : NativeState) (v : Nat) (r : Int32 × Bytes) : NativeState :=
  (if r.1 = 0 then s.store v r.2 (s.mark v) else s).answered (.done r.1)

/-- The object with the error that the variable had. -/
def keepError (fmt : IntFormat) (L : StatusLayout) (s : NativeState) (v : Nat) (status : Bytes) :
    Bytes :=
  match s.status v with
  | some old => status.putInt fmt L.error (old.getInt fmt L.error)
  | none => status

/-- A call with one status has returned. -/
def received (fmt : IntFormat) (L : StatusLayout) (s : NativeState) (v : Nat) (status : Bytes)
    (withError : Bool) : NativeState :=
  if withError then s.store v status .set else s.store v (s.keepError fmt L v status) (s.mark v)

def completed (fmt : IntFormat) (L : StatusLayout) (s : NativeState) (v : Nat) (status : Bytes)
    (withError : Bool) : NativeState :=
  if withError then s.store v status .set
  else s.store v (s.keepError fmt L v status) (s.mark v).leftAlone

def fieldAnswer (fmt : IntFormat) (L : StatusLayout) (s : NativeState) (f : StatusField) (v : Nat)
    (status : Bytes) : NativeAnswer :=
  if f = .error then
    match s.mark v with
    | .unset => .field f none
    | .set => .field f (some (status.getInt fmt L.error))
    | .kept => .keptError (status.getInt fmt L.error)
  else .field f (some (status.getInt fmt (f.implOff L)))

def step (s : NativeState) (a : StatusAct) : Option NativeState :=
  match a.op with
  | .receive v status withError => some (s.received fmt L v status withError)
  | .complete v status withError => some (s.completed fmt L v status withError)
  | .query q v _ datatype => (s.status v).map fun status =>
      match queryFunction impl q with
      | none => s.answered (.count (lacking impl) none)
      | some q =>
          let r := impl.fns.query q status datatype
          s.answered (.count r.1 (if r.1 = 0 then some r.2 else none))
  | .testCancelled v => (s.status v).map fun status =>
      if impl.hasTestCancelled then
        let r := impl.fns.testCancelled status
        s.answered (.flag r.1 (if r.1 = 0 then some r.2 else none))
      else s.answered (.flag (lacking impl) none)
  | .setElements q v _ datatype count => (s.status v).map fun status =>
      match setterFunction impl q with
      | none => s.answered (.done (lacking impl))
      | some q => s.changed v (impl.fns.setElements q status datatype count)
  | .setCancelled v flag => (s.status v).map fun status =>
      if impl.hasSetCancelled then s.changed v (impl.fns.setCancelled status flag)
      else s.answered (.done (lacking impl))
  | .getField f v => (s.status v).map fun status =>
      s.answered (s.fieldAnswer fmt L f v status)
  | .setField f v _ value => (s.status v).map fun status =>
      (s.store v (status.putInt fmt (f.implOff L) value)
        (if f = .error then .set else s.mark v)).answered (.done 0)
  | .convert src dst => (s.status src).map fun status => s.store dst status (s.mark src)

end NativeState

end AbiWrapper.Ref
