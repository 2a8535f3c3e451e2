import AbiWrapper.Lib.SlotMap
import Mathlib.Logic.Function.Basic

/-!
# Handles (handles.c, constants.c)

An ABI handle is a pointer-sized value; an implementation's is whatever it is,
and both are compared by their bits. Predefined handles are translated by
tables generated from the ABI's constants, one per class. All others keep
their bits in both directions, so a dynamic implementation handle inside the
range the ABI reserves for its predefined ones cannot be represented: `toabi`
answers the class's null handle and raises a flag that the caller takes.

Down from the ABI the table is a switch. Up from the implementation it is a
perfect hash, because implementation handles need not be compile-time
constants: `rmapBuild` searches multipliers until the keys of a class do not
collide. Two names with one value are aliases and the first one stays.

An implementation is described by what its headers give: which guarded names it
has, and the bits of every predefined constant. Constants are keyed by the ABI
value of the row that names them, and no two rows share one.
-/

namespace AbiWrapper.Ref

open AbiWrapper.Lib

/-- The eleven handle classes, in the order of `mpiwrapper_predef_classes`. -/
inductive HandleClass
  | op | comm | group | win | file | session | message | info | errhandler | request | datatype
deriving DecidableEq, Repr

/-- One row of a class: the ABI value, the implementation's name for the
constant, and whether the row stands under `MPIWRAPPER_HAVE_<name>`. -/
structure PredefRow where
  abi : UInt64
  name : String
  guarded : Bool
deriving DecidableEq, Repr

/-- The rows of the generated switches and fillers, which are the same. -/
def predefRows : HandleClass → List PredefRow
  | .op =>
      [⟨0x00000020, "MPI_OP_NULL", false⟩, ⟨0x00000021, "MPI_SUM", false⟩,
       ⟨0x00000022, "MPI_MIN", false⟩, ⟨0x00000023, "MPI_MAX", false⟩,
       ⟨0x00000024, "MPI_PROD", false⟩, ⟨0x00000028, "MPI_BAND", false⟩,
       ⟨0x00000029, "MPI_BOR", false⟩, ⟨0x0000002a, "MPI_BXOR", false⟩,
       ⟨0x00000030, "MPI_LAND", false⟩, ⟨0x00000031, "MPI_LOR", false⟩,
       ⟨0x00000032, "MPI_LXOR", false⟩, ⟨0x00000038, "MPI_MINLOC", false⟩,
       ⟨0x00000039, "MPI_MAXLOC", false⟩, ⟨0x0000003c, "MPI_REPLACE", false⟩,
       ⟨0x0000003d, "MPI_NO_OP", false⟩]
  | .comm =>
      [⟨0x00000100, "MPI_COMM_NULL", false⟩, ⟨0x00000101, "MPI_COMM_WORLD", false⟩,
       ⟨0x00000102, "MPI_COMM_SELF", false⟩]
  | .group =>
      [⟨0x00000108, "MPI_GROUP_NULL", false⟩, ⟨0x00000109, "MPI_GROUP_EMPTY", false⟩]
  | .win =>
      [⟨0x00000110, "MPI_WIN_NULL", false⟩]
  | .file =>
      [⟨0x00000118, "MPI_FILE_NULL", false⟩]
  | .session =>
      [⟨0x00000120, "MPI_SESSION_NULL", false⟩]
  | .message =>
      [⟨0x00000128, "MPI_MESSAGE_NULL", false⟩, ⟨0x00000129, "MPI_MESSAGE_NO_PROC", false⟩]
  | .info =>
      [⟨0x00000130, "MPI_INFO_NULL", false⟩, ⟨0x00000131, "MPI_INFO_ENV", false⟩]
  | .errhandler =>
      [⟨0x00000140, "MPI_ERRHANDLER_NULL", false⟩, ⟨0x00000141, "MPI_ERRORS_ARE_FATAL", false⟩,
       ⟨0x00000142, "MPI_ERRORS_ABORT", true⟩, ⟨0x00000143, "MPI_ERRORS_RETURN", false⟩]
  | .request =>
      [⟨0x00000180, "MPI_REQUEST_NULL", false⟩]
  | .datatype =>
      [⟨0x00000200, "MPI_DATATYPE_NULL", false⟩, ⟨0x00000201, "MPI_AINT", false⟩,
       ⟨0x00000202, "MPI_COUNT", false⟩, ⟨0x00000203, "MPI_OFFSET", false⟩,
       ⟨0x00000207, "MPI_PACKED", false⟩, ⟨0x00000208, "MPI_SHORT", false⟩,
       ⟨0x00000209, "MPI_INT", false⟩, ⟨0x0000020a, "MPI_LONG", false⟩,
       ⟨0x0000020b, "MPI_LONG_LONG", false⟩, ⟨0x0000020c, "MPI_UNSIGNED_SHORT", false⟩,
       ⟨0x0000020d, "MPI_UNSIGNED", false⟩, ⟨0x0000020e, "MPI_UNSIGNED_LONG", false⟩,
       ⟨0x0000020f, "MPI_UNSIGNED_LONG_LONG", false⟩, ⟨0x00000210, "MPI_FLOAT", false⟩,
       ⟨0x00000212, "MPI_C_FLOAT_COMPLEX", false⟩, ⟨0x00000213, "MPI_CXX_FLOAT_COMPLEX", false⟩,
       ⟨0x00000214, "MPI_DOUBLE", false⟩, ⟨0x00000216, "MPI_C_DOUBLE_COMPLEX", false⟩,
       ⟨0x00000217, "MPI_CXX_DOUBLE_COMPLEX", false⟩, ⟨0x00000218, "MPI_LOGICAL", false⟩,
       ⟨0x00000219, "MPI_INTEGER", false⟩, ⟨0x0000021a, "MPI_REAL", false⟩,
       ⟨0x0000021b, "MPI_COMPLEX", false⟩, ⟨0x0000021c, "MPI_DOUBLE_PRECISION", false⟩,
       ⟨0x0000021d, "MPI_DOUBLE_COMPLEX", false⟩, ⟨0x0000021e, "MPI_CHARACTER", false⟩,
       ⟨0x00000220, "MPI_LONG_DOUBLE", false⟩, ⟨0x00000224, "MPI_C_LONG_DOUBLE_COMPLEX", false⟩,
       ⟨0x00000225, "MPI_CXX_LONG_DOUBLE_COMPLEX", false⟩, ⟨0x00000228, "MPI_FLOAT_INT", false⟩,
       ⟨0x00000229, "MPI_DOUBLE_INT", false⟩, ⟨0x0000022a, "MPI_LONG_INT", false⟩,
       ⟨0x0000022b, "MPI_2INT", false⟩, ⟨0x0000022c, "MPI_SHORT_INT", false⟩,
       ⟨0x0000022d, "MPI_LONG_DOUBLE_INT", false⟩, ⟨0x00000230, "MPI_2REAL", false⟩,
       ⟨0x00000231, "MPI_2DOUBLE_PRECISION", false⟩, ⟨0x00000232, "MPI_2INTEGER", false⟩,
       ⟨0x00000238, "MPI_C_BOOL", false⟩, ⟨0x00000239, "MPI_CXX_BOOL", false⟩,
       ⟨0x0000023c, "MPI_WCHAR", false⟩, ⟨0x00000240, "MPI_INT8_T", false⟩,
       ⟨0x00000241, "MPI_UINT8_T", false⟩, ⟨0x00000243, "MPI_CHAR", false⟩,
       ⟨0x00000244, "MPI_SIGNED_CHAR", false⟩, ⟨0x00000245, "MPI_UNSIGNED_CHAR", false⟩,
       ⟨0x00000247, "MPI_BYTE", false⟩, ⟨0x00000248, "MPI_INT16_T", false⟩,
       ⟨0x00000249, "MPI_UINT16_T", false⟩, ⟨0x00000250, "MPI_INT32_T", false⟩,
       ⟨0x00000251, "MPI_UINT32_T", false⟩, ⟨0x00000258, "MPI_INT64_T", false⟩,
       ⟨0x00000259, "MPI_UINT64_T", false⟩, ⟨0x000002c0, "MPI_LOGICAL1", true⟩,
       ⟨0x000002c1, "MPI_INTEGER1", true⟩, ⟨0x000002c8, "MPI_LOGICAL2", true⟩,
       ⟨0x000002c9, "MPI_INTEGER2", true⟩, ⟨0x000002ca, "MPI_REAL2", true⟩,
       ⟨0x000002d0, "MPI_LOGICAL4", true⟩, ⟨0x000002d1, "MPI_INTEGER4", true⟩,
       ⟨0x000002d2, "MPI_REAL4", true⟩, ⟨0x000002d3, "MPI_COMPLEX4", true⟩,
       ⟨0x000002d8, "MPI_LOGICAL8", true⟩, ⟨0x000002d9, "MPI_INTEGER8", true⟩,
       ⟨0x000002da, "MPI_REAL8", true⟩, ⟨0x000002db, "MPI_COMPLEX8", true⟩,
       ⟨0x000002e0, "MPI_LOGICAL16", true⟩, ⟨0x000002e1, "MPI_INTEGER16", true⟩,
       ⟨0x000002e2, "MPI_REAL16", true⟩, ⟨0x000002e3, "MPI_COMPLEX16", true⟩,
       ⟨0x000002eb, "MPI_COMPLEX32", true⟩]

/-- `MPIABI_<class>_NULL`. -/
def abiNull : HandleClass → UInt64
  | .op => 0x00000020
  | .comm => 0x00000100
  | .group => 0x00000108
  | .win => 0x00000110
  | .file => 0x00000118
  | .session => 0x00000120
  | .message => 0x00000128
  | .info => 0x00000130
  | .errhandler => 0x00000140
  | .request => 0x00000180
  | .datatype => 0x00000200

def rmapSlots : HandleClass → Nat
  | .op => 128
  | .comm | .errhandler => 32
  | .group | .message | .info => 16
  | .win | .file | .session | .request => 8
  | .datatype => 1024

def rmapEmpty : UInt64 := 0xffffffffffffffff

def inPredefRange (bits : UInt64) : Prop := 0x00000020 ≤ bits ∧ bits ≤ 0x000002eb

instance (bits : UInt64) : Decidable (inPredefRange bits) :=
  inferInstanceAs (Decidable (_ ∧ _))

/-- An implementation as its headers and the configure probe describe it:
`MPIWRAPPER_HAVE_*` of the guarded rows and of the session class, and the bits
of the predefined constants. -/
structure ImplHandles where
  has : UInt64 → Bool
  bits : UInt64 → UInt64

namespace ImplHandles

variable (impl : ImplHandles)

/-- Whether a row is compiled. -/
def compiles (row : PredefRow) : Bool := !row.guarded || impl.has row.abi

/-- The classes that are compiled: all, but for the sessions of an
implementation without `MPI_SESSION_NULL`. -/
def classes : List HandleClass :=
  [.op, .comm, .group, .win, .file] ++
    (if impl.has (abiNull .session) then [.session] else []) ++
    [.message, .info, .errhandler, .request, .datatype]

/-- `predef_<class>`: the ABI and the implementation's bits of every row. -/
def predef (c : HandleClass) : List (UInt64 × UInt64) :=
  ((predefRows c).filter impl.compiles).map fun row => (row.abi, impl.bits row.abi)

end ImplHandles

/-! ## The reverse map -/

/-- `struct mpiwrapper_rmap`. A slot's key is the implementation's bits, its
value the ABI's. -/
structure Rmap where
  slots : Nat → Slot UInt64 UInt64
  nslots : Nat
  mul : UInt64
  shift : Nat
  nkeys : Nat

/-- Static storage, before `mpiwrapper_rmap_build`. -/
def Rmap.static (nslots : Nat) : Rmap := ⟨fun _ => ⟨0, 0⟩, nslots, 0, 0, 0⟩

/-- `for (t = nslots; t > 1; t >>= 1) --shift`, on a `size_t` of 64 bits. -/
def shiftLoop : Nat → Nat → Nat → Nat
  | 0, _, shift => shift
  | fuel + 1, t, shift => if 1 < t then shiftLoop fuel (t / 2) (shift - 1) else shift

def rmapShift (nslots : Nat) : Nat := shiftLoop 64 nslots 64

/-- Multiply and shift. -/
def rmapHash (mul : UInt64) (shift : Nat) (key : UInt64) : Nat :=
  ((key * mul) >>> UInt64.ofNat shift).toNat

/-- The multiplier search, `left` attempts from its end. Every attempt sets the
keys of the table to `RMAP_EMPTY` and leaves the values where they are, so a
table is filled over what the attempts before have left in it. -/
def rmapSearch (m : Rmap) (shift : Nat) (entries : List (UInt64 × UInt64)) :
    Nat → UInt64 → (Nat → Slot UInt64 UInt64) → Option Rmap
  | 0, _, _ => none
  | left + 1, mul, slots =>
      let cleared := fun slot =>
        if slot < m.nslots then { slots slot with key := rmapEmpty } else slots slot
      match fill (rmapHash mul shift) rmapEmpty cleared 0 entries with
      | (slots, some stored) => some { m with slots, mul, shift, nkeys := stored }
      | (slots, none) => rmapSearch m shift entries left (mul + 0x2545f4914f6cdd1d) slots

/-- `mpiwrapper_rmap_build`, from the keys with their ABI values. -/
def rmapBuild (m : Rmap) (entries : List (UInt64 × UInt64)) : Option Rmap :=
  rmapSearch m (rmapShift m.nslots) entries 4096 0x9e3779b97f4a7c15 m.slots

def rmapLookup (m : Rmap) (key : UInt64) : Option UInt64 :=
  slotLookup (rmapHash m.mul m.shift) m.slots key

/-- The global maps, one per class. -/
abbrev Rmaps := HandleClass → Rmap

def Rmaps.static : Rmaps := fun c => Rmap.static (rmapSlots c)

/-- The bound of the local arrays of `mpiwrapper_init_reverse_maps`. -/
def predefMax : Nat := 128

/-- One turn of `mpiwrapper_init_reverse_maps`: the maps, or the diagnostic. -/
def initReverseMap (impl : ImplHandles) (maps : Rmaps) (c : HandleClass) : Except String Rmaps :=
  let predef := impl.predef c
  if predefMax < predef.length then
    .error "predefined-handle table larger than the build-time bound"
  else
    match rmapBuild (maps c) (predef.map fun p => (p.2, p.1)) with
    | none => .error "could not construct a collision-free predefined-handle map"
    | some m => .ok (Function.update maps c m)

def initReverseMaps (impl : ImplHandles) : Except String Rmaps :=
  impl.classes.foldlM (initReverseMap impl) Rmaps.static

/-! ## The two directions -/

/-- `mpiwrapper_<class>_fromabi`. -/
def handleFromabi (impl : ImplHandles) (c : HandleClass) (abi : UInt64) : UInt64 :=
  match (predefRows c).find? fun row => row.abi = abi ∧ impl.compiles row with
  | some row => impl.bits row.abi
  | none => if inPredefRange abi then impl.bits (abiNull c) else abi

/-- `mpiwrapper_<class>_toabi`, with the thread's `handle_error` before and
after. -/
def handleToabi (maps : Rmaps) (c : HandleClass) (bits : UInt64) (handleError : Bool) :
    UInt64 × Bool :=
  match rmapLookup (maps c) bits with
  | some abi => (abi, handleError)
  | none => if inPredefRange bits then (abiNull c, true) else (bits, handleError)

/-- `mpiwrapper_take_handle_error`: the flag, and the flag afterwards. -/
def takeHandleError (handleError : Bool) : Bool × Bool := (handleError, false)

end AbiWrapper.Ref
