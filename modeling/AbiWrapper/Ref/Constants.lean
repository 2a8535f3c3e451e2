import AbiWrapper.Lib.Masks
import AbiWrapper.Ref.Status

/-!
# Families of integer constants (constants.c)

Outside its handles the ABI has named ints, and each of them is another int in
an implementation. Which names a parameter may take depends on its role, so the
names come in families, and a family has a translation each way.

Most families are closed: `emit_switch_family` writes a switch over the names,
and what is none of them is passed through. (Keyvals are in `Keyvals.lean`: what
is none of theirs is looked up.) Two families are sets of flags, and
`emit_bitmask` goes through the names one by one.

A name is known by its ABI value. A numbering is what an implementation makes of
a family: which of its names it has, and their values. The C compiler sees to it
that the cases of a switch differ.
-/

namespace AbiWrapper.Ref

open AbiWrapper.Lib

/-! ## Closed families -/

/-- A row of a family. Where it is guarded, an implementation may lack it. -/
structure ConstRow where
  abi : Int32
  guarded : Bool
deriving DecidableEq, Repr

inductive ClosedFamily
  | rank | tag
  | combiner | compare | darg | distribute | locktype | order | seek | splittype
  | tbind | tcbsafety | threadlevel | topology | tpvarclass | tscope | tsourceorder
  | tverbosity | typeclass | winflavor | winmodel
deriving DecidableEq, Repr

namespace ClosedFamily

def always (abis : List Int32) : List ConstRow := abis.map fun abi => ⟨abi, false⟩

def guarded (abis : List Int32) : List ConstRow := abis.map fun abi => ⟨abi, true⟩

/-- The cases of the two switches, in order. -/
def rows : ClosedFamily → List ConstRow
  | .rank => always [-1, -3, -4, -32766]
  | .tag => always [-2, -32766]
  | .combiner =>
      always [101, 102, 103, 104, 105, 106, 107, 108, 109, 110, 111, 112, 113, 114, 115, 116] ++
        guarded [117]
  | .compare => always [201, 202, 203, 204]
  | .darg => always [19]
  | .distribute => always [16, 17, 18]
  | .locktype => always [301, 302]
  | .order => always [0xC, 0xF]
  | .seek => always [401, 402, 403]
  | .splittype => always [221] ++ guarded [222, 223, 224]
  | .tbind => guarded [1, 2, 3, 4, 5, 6, 7, 8, 9, 10, 11, 12]
  | .tcbsafety => guarded [0x00, 0x03, 0x0F, 0x3F]
  | .threadlevel => always [0, 1024, 2048, 4096]
  | .topology => always [-32766, 211, 212, 213]
  | .tpvarclass => guarded [1, 2, 3, 4, 5, 6, 7, 8, 9, 10]
  | .tscope => guarded [1, 2, 3, 4, 5, 6, 7]
  | .tsourceorder => guarded [1, 2]
  | .tverbosity => guarded [0x09, 0x0a, 0x0c, 0x11, 0x12, 0x14, 0x21, 0x22, 0x24]
  | .typeclass => guarded [191] ++ always [192, 193, 194]
  | .winflavor => always [311, 312, 313, 314]
  | .winmodel => always [321, 322]

/-- The ABI's values of the family, compiled in or not. -/
def abis (f : ClosedFamily) : List Int32 := f.rows.map ConstRow.abi

/-- Ranks and tags are numbers, and only what is negative can be a name. -/
def numbers : ClosedFamily → Bool
  | .rank | .tag => true
  | _ => false

/-- A value that the family gives no meaning to. -/
def invalid (f : ClosedFamily) (v : Int32) : Prop := v ∉ f.abis ∧ (f.numbers = true → v < 0)

instance (f : ClosedFamily) (v : Int32) : Decidable (f.invalid v) :=
  inferInstanceAs (Decidable (_ ∧ _))

end ClosedFamily

structure ConstNumbering (f : ClosedFamily) where
  /-- `MPIWRAPPER_HAVE_*` of a guarded name. -/
  has : Int32 → Bool
  code : Int32 → Int32
  distinct : ((f.rows.filter fun row => !row.guarded || has row.abi).map
    fun row => code row.abi).Nodup

namespace ConstNumbering

variable {f : ClosedFamily} (impl : ConstNumbering f)

def compiled : List ConstRow := f.rows.filter fun row => !row.guarded || impl.has row.abi

/-- The implementation's values of the family. -/
def values : List Int32 := impl.compiled.map fun row => impl.code row.abi

def cases : Sentinels := impl.compiled.map fun row => (row.abi, impl.code row.abi)

/-- `mpiwrapper_<family>_fromabi`. -/
def fromabi (abi : Int32) : Int32 := impl.cases.fromabi abi

/-- `mpiwrapper_<family>_toabi`. -/
def toabi (value : Int32) : Int32 := impl.cases.toabi value

end ConstNumbering

/-! ## Sets of flags -/

/-- Here an `int` is its bits. -/
abbrev Mask := BitVec 32

inductive MaskFamily
  | filemode | winassert
deriving DecidableEq, Repr

/-- `FILEMODE_MEMBERS` and `WINASSERT_MEMBERS`. -/
def MaskFamily.abis : MaskFamily → List Mask
  | .filemode => [1, 2, 4, 8, 16, 32, 64, 128, 256]
  | .winassert => [1024, 2048, 4096, 8192, 16384]

/-- A numbering of a set of flags gives each a bit of its own. -/
structure MaskNumbering (f : MaskFamily) where
  code : Mask → Mask
  single : ∀ abi, abi ∈ f.abis → IsFlag (code abi)
  distinct : (f.abis.map code).Nodup

namespace MaskNumbering

variable {f : MaskFamily} (impl : MaskNumbering f)

def cases : List (Mask × Mask) := f.abis.map fun abi => (abi, impl.code abi)

/-- `if (abi_mode & MPIABI_X) mode |= MPI_X;` for every flag. -/
def fromabi (abiMode : Mask) : Mask := translate impl.cases abiMode

/-- The same chain with the two sides exchanged. -/
def toabi (mode : Mask) : Mask := translate (impl.cases.map Prod.swap) mode

end MaskNumbering

def filemodeFromabi (impl : MaskNumbering .filemode) (abiMode : Mask) : Mask :=
  impl.fromabi abiMode

def filemodeToabi (impl : MaskNumbering .filemode) (mode : Mask) : Mask := impl.toabi mode

def winassertFromabi (impl : MaskNumbering .winassert) (abiMode : Mask) : Mask :=
  impl.fromabi abiMode

def winassertToabi (impl : MaskNumbering .winassert) (mode : Mask) : Mask := impl.toabi mode

end AbiWrapper.Ref
