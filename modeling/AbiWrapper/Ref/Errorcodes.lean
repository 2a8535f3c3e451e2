import AbiWrapper.Lib.Registry

/-!
# Error codes (errorcodes.c, constants.c, hw_errors.c)

The ABI fixes the values of the error classes, an implementation has its own,
and the classes are translated by a switch in each direction. A code that the
switch does not know — one the application registered, or one the
implementation made up — is renumbered above the ABI's last code by an
append-only registry, which interns on the way up and indexes on the way down.

An index is the code less a base, and for the lowest codes there are that is
undefined. The way down is an `Option` for that.

The optional classes are guarded, in both switches alike. An implementation is
described by the guarded names it has and the values of all its names; that the
values of two of its names differ is what lets the switch compile, so it is a
field. A registered number need not be new: the table is searched newest first.
-/

namespace AbiWrapper.Ref

open AbiWrapper.Lib

/-- One case of the two switches: the ABI value, the implementation's name for
it, and whether the case stands under `MPIWRAPPER_HAVE_<name>`. -/
structure ErrorRow where
  abi : Int32
  name : String
  guarded : Bool
deriving DecidableEq, Repr

def errorRows : List ErrorRow :=
  [⟨1, "MPI_ERR_BUFFER", false⟩, ⟨2, "MPI_ERR_COUNT", false⟩, ⟨3, "MPI_ERR_TYPE", false⟩,
   ⟨4, "MPI_ERR_TAG", false⟩, ⟨5, "MPI_ERR_COMM", false⟩, ⟨6, "MPI_ERR_RANK", false⟩,
   ⟨7, "MPI_ERR_REQUEST", false⟩, ⟨8, "MPI_ERR_ROOT", false⟩, ⟨9, "MPI_ERR_GROUP", false⟩,
   ⟨10, "MPI_ERR_OP", false⟩, ⟨11, "MPI_ERR_TOPOLOGY", false⟩, ⟨12, "MPI_ERR_DIMS", false⟩,
   ⟨13, "MPI_ERR_ARG", false⟩, ⟨14, "MPI_ERR_UNKNOWN", false⟩, ⟨15, "MPI_ERR_TRUNCATE", false⟩,
   ⟨16, "MPI_ERR_OTHER", false⟩, ⟨17, "MPI_ERR_INTERN", false⟩, ⟨18, "MPI_ERR_PENDING", false⟩,
   ⟨19, "MPI_ERR_IN_STATUS", false⟩, ⟨20, "MPI_ERR_ACCESS", false⟩, ⟨21, "MPI_ERR_AMODE", false⟩,
   ⟨22, "MPI_ERR_ASSERT", false⟩, ⟨23, "MPI_ERR_BAD_FILE", false⟩, ⟨24, "MPI_ERR_BASE", false⟩,
   ⟨25, "MPI_ERR_CONVERSION", false⟩, ⟨26, "MPI_ERR_DISP", false⟩,
   ⟨27, "MPI_ERR_DUP_DATAREP", false⟩, ⟨28, "MPI_ERR_FILE_EXISTS", false⟩,
   ⟨29, "MPI_ERR_FILE_IN_USE", false⟩, ⟨30, "MPI_ERR_FILE", false⟩,
   ⟨31, "MPI_ERR_INFO_KEY", false⟩, ⟨32, "MPI_ERR_INFO_NOKEY", false⟩,
   ⟨33, "MPI_ERR_INFO_VALUE", false⟩, ⟨34, "MPI_ERR_INFO", false⟩, ⟨35, "MPI_ERR_IO", false⟩,
   ⟨36, "MPI_ERR_KEYVAL", false⟩, ⟨37, "MPI_ERR_LOCKTYPE", false⟩, ⟨38, "MPI_ERR_NAME", false⟩,
   ⟨39, "MPI_ERR_NO_MEM", false⟩, ⟨40, "MPI_ERR_NOT_SAME", false⟩,
   ⟨41, "MPI_ERR_NO_SPACE", false⟩, ⟨42, "MPI_ERR_NO_SUCH_FILE", false⟩,
   ⟨43, "MPI_ERR_PORT", false⟩, ⟨44, "MPI_ERR_QUOTA", false⟩, ⟨45, "MPI_ERR_READ_ONLY", false⟩,
   ⟨46, "MPI_ERR_RMA_ATTACH", false⟩, ⟨47, "MPI_ERR_RMA_CONFLICT", false⟩,
   ⟨48, "MPI_ERR_RMA_RANGE", false⟩, ⟨49, "MPI_ERR_RMA_SHARED", false⟩,
   ⟨50, "MPI_ERR_RMA_SYNC", false⟩, ⟨51, "MPI_ERR_SERVICE", false⟩, ⟨52, "MPI_ERR_SIZE", false⟩,
   ⟨53, "MPI_ERR_SPAWN", false⟩, ⟨54, "MPI_ERR_UNSUPPORTED_DATAREP", false⟩,
   ⟨55, "MPI_ERR_UNSUPPORTED_OPERATION", false⟩, ⟨56, "MPI_ERR_WIN", false⟩,
   ⟨57, "MPI_ERR_RMA_FLAVOR", false⟩, ⟨58, "MPI_ERR_PROC_ABORTED", true⟩,
   ⟨59, "MPI_ERR_VALUE_TOO_LARGE", true⟩, ⟨60, "MPI_ERR_SESSION", true⟩,
   ⟨61, "MPI_ERR_ERRHANDLER", true⟩, ⟨62, "MPI_ERR_ABI", true⟩,
   ⟨1001, "MPI_T_ERR_CANNOT_INIT", true⟩, ⟨1002, "MPI_T_ERR_NOT_ACCESSIBLE", true⟩,
   ⟨1003, "MPI_T_ERR_NOT_INITIALIZED", true⟩, ⟨1004, "MPI_T_ERR_NOT_SUPPORTED", true⟩,
   ⟨1005, "MPI_T_ERR_MEMORY", true⟩, ⟨1006, "MPI_T_ERR_INVALID", true⟩,
   ⟨1007, "MPI_T_ERR_INVALID_INDEX", true⟩, ⟨1008, "MPI_T_ERR_INVALID_ITEM", true⟩,
   ⟨1009, "MPI_T_ERR_INVALID_SESSION", true⟩, ⟨1010, "MPI_T_ERR_INVALID_HANDLE", true⟩,
   ⟨1011, "MPI_T_ERR_INVALID_NAME", true⟩, ⟨1012, "MPI_T_ERR_OUT_OF_HANDLES", true⟩,
   ⟨1013, "MPI_T_ERR_OUT_OF_SESSIONS", true⟩, ⟨1014, "MPI_T_ERR_CVAR_SET_NOT_NOW", true⟩,
   ⟨1015, "MPI_T_ERR_CVAR_SET_NEVER", true⟩, ⟨1016, "MPI_T_ERR_PVAR_NO_WRITE", true⟩,
   ⟨1017, "MPI_T_ERR_PVAR_NO_STARTSTOP", true⟩, ⟨1018, "MPI_T_ERR_PVAR_NO_ATOMIC", true⟩]

def abiErrCount : Int32 := 2
def abiErrArg : Int32 := 13
def abiErrOther : Int32 := 16
def abiErrIntern : Int32 := 17
def abiErrUnsupportedOperation : Int32 := 55
def abiErrValueTooLarge : Int32 := 59
def abiErrAbi : Int32 := 62

def abiErrLastcode : Int32 := 0x3fff

/-- An implementation's error classes, keyed by the ABI's. -/
structure ImplErrors where
  has : Int32 → Bool
  code : Int32 → Int32
  /-- The cases of a switch differ. -/
  distinct : ∀ row, row ∈ errorRows → ∀ row', row' ∈ errorRows →
    (!row.guarded || has row.abi) = true → (!row'.guarded || has row'.abi) = true →
    code row.abi = code row'.abi → row.abi = row'.abi
  /-- No error class is `MPI_SUCCESS`. -/
  ne_success : ∀ row, row ∈ errorRows → (!row.guarded || has row.abi) = true →
    code row.abi ≠ 0

/-- Whether a case is compiled. -/
def ImplErrors.compiles (impl : ImplErrors) (row : ErrorRow) : Bool :=
  !row.guarded || impl.has row.abi

/-! ## The registry -/

def errorcodeSlots : Nat := 4096

def errorcodeAbiBase : Int32 := abiErrLastcode + 1

/-- `errorcode_impl` and `errorcode_count`. Zero is `MPI_SUCCESS`. -/
abbrev ErrorTable := Registry Int32 errorcodeSlots 0

def errorcodeAdd (ierror : Int32) (t : ErrorTable) : Option (Int32 × ErrorTable) :=
  if h : ierror = 0 then none
  else (t.append ierror h).map fun p => (codeOf errorcodeAbiBase p.1, p.2)

def errorcodeLastused (t : ErrorTable) : Int32 :=
  if 0 < t.count then errorcodeAbiBase + Int32.ofNat t.count - 1 else abiErrLastcode

def errorcodeDynamicFromabi (impl : ImplErrors) (abiIerror : Int32) (t : ErrorTable) :
    Option Int32 :=
  (slotOf errorcodeSlots errorcodeAbiBase abiIerror).map fun slot =>
    match slot with
    | none => impl.code abiErrOther
    | some slot => if t.count ≤ slot then impl.code abiErrOther else t.slot slot

def errorcodeDynamicToabi (ierror : Int32) (t : ErrorTable) : Int32 × ErrorTable :=
  match t.find ierror with
  | some slot => (codeOf errorcodeAbiBase slot, t)
  | none =>
      match errorcodeAdd ierror t with
      | some (abiIerror, t') => (abiIerror, t')
      | none => (abiErrOther, t)

/-! ## The switches -/

/-- The case of the upward switch an implementation code takes. -/
def rowOfCode (impl : ImplErrors) (ierror : Int32) : Option ErrorRow :=
  errorRows.find? fun row => impl.compiles row ∧ impl.code row.abi = ierror

/-- The case of the downward switch an ABI code takes. -/
def rowOfAbi (impl : ImplErrors) (abiIerror : Int32) : Option ErrorRow :=
  errorRows.find? fun row => impl.compiles row ∧ row.abi = abiIerror

def errorcodeToabi (impl : ImplErrors) (ierror : Int32) (t : ErrorTable) : Int32 × ErrorTable :=
  if ierror = 0 then (0, t)
  else
    match rowOfCode impl ierror with
    | some row => (row.abi, t)
    | none => errorcodeDynamicToabi ierror t

def errorcodeFromabi (impl : ImplErrors) (abiIerror : Int32) (t : ErrorTable) :
    Option Int32 :=
  if abiIerror = 0 then some 0
  else
    match rowOfAbi impl abiIerror with
    | some row => some (impl.code row.abi)
    | none => errorcodeDynamicFromabi impl abiIerror t

/-! ## The bodies -/

/-- What an implementation's function that produces a number does: its return
code and the number. -/
structure Outcome where
  ierror : Int32
  number : Int32
deriving DecidableEq, Repr

/-- What a body that registers a number returns: its code, what it stored
through the out parameter if anything, and the table. -/
structure Registered where
  abiIerror : Int32
  stored : Option Int32
  table : ErrorTable

/-- The part that `BODY_MPI_Add_error_class` and `BODY_MPI_Add_error_code`
share: the number is registered, and on failure the out parameter is left
alone. -/
def registerNumber (impl : ImplErrors) (out : Outcome) (t : ErrorTable) : Registered :=
  if out.ierror ≠ 0 then
    let (abiIerror, t') := errorcodeToabi impl out.ierror t
    ⟨abiIerror, none, t'⟩
  else
    match errorcodeAdd out.number t with
    | none => ⟨abiErrIntern, none, t⟩
    | some (abi, t') => ⟨0, some abi, t'⟩

/-- `BODY_MPI_Add_error_class`; `target` is `none` where the implementation
lacks the function. -/
def addErrorClass (impl : ImplErrors) (target : Option Outcome) (t : ErrorTable) : Registered :=
  match target with
  | none => ⟨abiErrUnsupportedOperation, none, t⟩
  | some out => registerNumber impl out t

/-- `BODY_MPI_Add_error_code`, whose target is told the class. -/
def addErrorCode (impl : ImplErrors) (target : Option (Int32 → Outcome)) (abiErrorclass : Int32)
    (t : ErrorTable) : Option Registered :=
  match target with
  | none => some ⟨abiErrUnsupportedOperation, none, t⟩
  | some target =>
      (errorcodeFromabi impl abiErrorclass t).map fun ierrorclass =>
        registerNumber impl (target ierrorclass) t

/-- `BODY_MPI_Error_class`: the code it returns, the class it stores, and the
table. -/
def errorClass (impl : ImplErrors) (target : Int32 → Outcome) (abiErrorcode : Int32)
    (t : ErrorTable) : Option (Int32 × Int32 × ErrorTable) :=
  (errorcodeFromabi impl abiErrorcode t).map fun ierrorcode =>
    let out := target ierrorcode
    let (abiErrorclass, t₁) := errorcodeToabi impl out.number t
    let (abiIerror, t₂) := errorcodeToabi impl out.ierror t₁
    (abiIerror, abiErrorclass, t₂)

/-! ## Histories -/

/-- A call that reaches the registry: one of the two that register, by what the
implementation answers, and any that returns an implementation's code. -/
inductive ErrorCall
  | add (target : Option Outcome)
  | toabi (ierror : Int32)

structure ErrorState where
  table : ErrorTable
  /-- The ABI codes the registry has issued, each with the implementation's code
  it was issued for, oldest first. -/
  issued : List (Int32 × Int32)

namespace ErrorState

def init : ErrorState := ⟨.empty, []⟩

/-- What a translation of `ierror` to `abiIerror` has issued, in the table it has
left: nothing, if a case of the switch or a full table answered. -/
def translated (impl : ImplErrors) (ierror abiIerror : Int32) (t : ErrorTable) :
    List (Int32 × Int32) :=
  if ierror ≠ 0 ∧ rowOfCode impl ierror = none ∧ t.find ierror ≠ none then
    [(abiIerror, ierror)]
  else []

/-- The state after a body that registers a number. -/
def registered (impl : ImplErrors) (s : ErrorState) (out : Outcome) (r : Registered) :
    ErrorState :=
  ⟨r.table, s.issued ++
    match r.stored with
    | some abi => [(abi, out.number)]
    | none => translated impl out.ierror r.abiIerror r.table⟩

def step (impl : ImplErrors) (s : ErrorState) : ErrorCall → ErrorState
  | .add none => s
  | .add (some out) => s.registered impl out (addErrorClass impl (some out) s.table)
  | .toabi ierror =>
      let (abiIerror, t) := errorcodeToabi impl ierror s.table
      ⟨t, s.issued ++ translated impl ierror abiIerror t⟩

/-- The state after a history. -/
def after (impl : ImplErrors) (calls : List ErrorCall) : ErrorState :=
  calls.foldl (step impl) init

end ErrorState

end AbiWrapper.Ref
