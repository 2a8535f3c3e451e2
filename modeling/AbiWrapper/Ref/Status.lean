import AbiWrapper.Lib.Bytes
import AbiWrapper.Ref.Errorcodes

/-!
# Statuses (status.c, constants.c)

An ABI status is three named ints and twenty bytes that are the
implementation's. An implementation's status is the same three ints somewhere
in an object of its own, and whatever it keeps before and after them; that is
packed into the twenty bytes, head first.

A layout is an implementation's `MPI_Status` as `sizeof` and `offsetof` give
it, with the two assertions the file is compiled under: the named fields are
contiguous and in order, which here is that one offset gives all three, and
what is not named fits. Both objects are bytes.
-/

namespace AbiWrapper.Ref

open AbiWrapper.Lib

/-! ## Ranks and tags -/

/-- The implementation's values of the sentinels, and its error codes. -/
structure StatusImpl where
  anySource : Int32
  procNull : Int32
  root : Int32
  undefined : Int32
  anyTag : Int32
  /-- The cases of `mpiwrapper_rank_toabi` differ. -/
  ranks : [anySource, procNull, root, undefined].Nodup
  /-- The cases of `mpiwrapper_tag_toabi` differ. -/
  tags : [anyTag, undefined].Nodup
  errors : ImplErrors

/-- The cases of a role's two switches: the ABI's and the implementation's
value of each sentinel. -/
abbrev Sentinels := List (Int32 × Int32)

def Sentinels.fromabi (rows : Sentinels) (abi : Int32) : Int32 :=
  match rows.find? fun row => row.1 = abi with
  | some row => row.2
  | none => abi

def Sentinels.toabi (rows : Sentinels) (value : Int32) : Int32 :=
  match rows.find? fun row => row.2 = value with
  | some row => row.1
  | none => value

namespace StatusImpl

variable (impl : StatusImpl)

def rankSentinels : Sentinels :=
  [(-1, impl.anySource), (-3, impl.procNull), (-4, impl.root), (-32766, impl.undefined)]

def tagSentinels : Sentinels := [(-2, impl.anyTag), (-32766, impl.undefined)]

/-- `mpiwrapper_rank_fromabi`, `mpiwrapper_rank_toabi` and the two of a tag. -/
def rankFromabi (abiRank : Int32) : Int32 := impl.rankSentinels.fromabi abiRank
def rankToabi (rank : Int32) : Int32 := impl.rankSentinels.toabi rank
def tagFromabi (abiTag : Int32) : Int32 := impl.tagSentinels.fromabi abiTag
def tagToabi (tag : Int32) : Int32 := impl.tagSentinels.toabi tag

end StatusImpl

/-! ## Layouts -/

/-- `sizeof(MPIABI_Status::MPI_internal)`. -/
def abiScratch : Nat := 20

/-- The offsets of an ABI status: source, tag, error, `MPI_internal`. -/
def abiSource : Nat := 0
def abiTag : Nat := 4
def abiError : Nat := 8
def abiInternal : Nat := 12

structure StatusLayout where
  /-- `sizeof(MPI_Status)`. -/
  size : Nat
  /-- `offsetof(MPI_Status, MPI_SOURCE)`. -/
  namedOff : Nat
  named_le : namedOff + 12 ≤ size
  scratch_le : namedOff + (size - (namedOff + 12)) ≤ abiScratch

namespace StatusLayout

variable (L : StatusLayout)

def headLen : Nat := L.namedOff
def tailOff : Nat := L.namedOff + 12
def tailLen : Nat := L.size - L.tailOff

def source : Nat := L.namedOff
def tag : Nat := L.namedOff + 4
def error : Nat := L.namedOff + 8

end StatusLayout

/-! ## The two directions -/

variable (fmt : IntFormat) (L : StatusLayout) (impl : StatusImpl)

def statusEmpty (st : Bytes) : Bool :=
  st.getInt fmt L.source = impl.anySource ∧ st.getInt fmt L.tag = impl.anyTag

/-- The local `blob`, which has `stack` in it before it is zeroed. -/
def statusBlob (st stack : Bytes) : Bytes :=
  ((stack.set 0 0 abiScratch).copy 0 st 0 L.headLen).copy L.headLen st L.tailOff L.tailLen

/-- The ABI object with its source and tag stored. -/
def statusNamed (st abi : Bytes) : Bytes :=
  (abi.putInt fmt abiSource (impl.rankToabi (st.getInt fmt L.source))).putInt fmt abiTag
    (impl.tagToabi (st.getInt fmt L.tag))

/-- `status_toabi`, with the error table. -/
def statusToabi (withError : Bool) (st abi stack : Bytes) (t : ErrorTable) : Bytes × ErrorTable :=
  let blob := statusBlob L st stack
  let named := statusNamed fmt L impl st abi
  let stored :=
    if withError || statusEmpty fmt L impl st then
      let r := errorcodeToabi impl.errors (st.getInt fmt L.error) t
      (named.putInt fmt abiError r.1, r.2)
    else (named, t)
  (stored.1.copy abiInternal blob 0 abiScratch, stored.2)

/-- `mpiwrapper_status_toabi`. -/
def statusToabiWhole (st abi stack : Bytes) (t : ErrorTable) : Bytes × ErrorTable :=
  statusToabi fmt L impl true st abi stack t

def statusToabiKeepError (st abi stack : Bytes) (t : ErrorTable) : Bytes × ErrorTable :=
  statusToabi fmt L impl false st abi stack t

/-- The object `st` with all in it of the ABI object but the error. -/
def statusUnpacked (abi st : Bytes) : Bytes :=
  let st := st.set 0 0 L.size
  let st := st.copy 0 abi abiInternal L.headLen
  let st := st.copy L.tailOff abi (abiInternal + L.headLen) L.tailLen
  let st := st.putInt fmt L.source (impl.rankFromabi (abi.getInt fmt abiSource))
  st.putInt fmt L.tag (impl.tagFromabi (abi.getInt fmt abiTag))

/-- `mpiwrapper_status_fromabi`, into the object `st`. The error is converted
whether or not anything has been stored there. -/
def statusFromabi (abi st : Bytes) (t : ErrorTable) : Option Bytes :=
  (errorcodeFromabi impl.errors (abi.getInt fmt abiError) t).map fun ierror =>
    (statusUnpacked fmt L impl abi st).putInt fmt L.error ierror

end AbiWrapper.Ref
