import AbiWrapper.Lib.Bytes
import AbiWrapper.Lib.Run
import AbiWrapper.Ref.Errorcodes

/-!
# The literals of the Fortran compiler (hw_abi.c, fortran_probe.f90)

`MPI_Abi_set_fortran_booleans` keeps the bytes of `.TRUE.` and `.FALSE.`, on its
first call. `MPI_Abi_get_fortran_booleans` answers with them; where none are kept
it answers with those of the compiler this library was built with, if the
implementation's `LOGICAL` has the same size, and so does
`MPI_Abi_get_fortran_info` with the sizes.

There is no lock. A flag is claimed before the bytes are stored and another is
published after, and what is derived from the build is stored by every thread
that finds it missing. Here each access of shared memory is a step of its own,
`memcpy` byte by byte, and any number of threads take their steps in any order.
-/

namespace AbiWrapper.Ref

open AbiWrapper.Lib

def maxLogicalSize : Int32 := 16

/-! ## What this build's Fortran is -/

/-- The size of a `LOGICAL` and its two literals. -/
structure Logical where
  size : Int32
  literal : Bool → Bytes

def Logical.len (x : Logical) : Nat := x.size.toInt.toNat

/-- The sizes the wrapper accepts. -/
def Logical.fits (x : Logical) : Bool := 0 < x.size && x.size ≤ maxLogicalSize

/-- What the build fixes: whether it had a Fortran compiler, `MPI_LOGICAL ==
MPI_DATATYPE_NULL`, the value of `MPI_UNDEFINED`; and of that compiler the sizes
in bytes of the default kinds and what `transfer` makes of `.true.` and
`.false.`. -/
structure FortranBuild where
  hasFortran : Bool
  logicalNull : Bool
  undefined : Int32
  compiler : Logical
  integerSize : Int32
  realSize : Int32

/-- What `mpiwrapper_fortran_probe` leaves in two arrays of `nbytes`. -/
def FortranBuild.probe (build : FortranBuild) (nbytes : Nat) : Logical :=
  { size := build.compiler.size
    literal := fun l i =>
      if i < min build.compiler.len nbytes then build.compiler.literal l i else 0 }

def FortranBuild.probed (build : FortranBuild) : Logical := build.probe maxLogicalSize.toInt.toNat

/-- What `PMPI_Initialized` and `PMPI_Type_size(MPI_LOGICAL)` answer. -/
structure LogicalAnswer where
  initializedError : Int32
  initialized : Int32
  sizeError : Int32
  size : Int32
deriving DecidableEq, Repr

inductive Verdict
  /-- Not usable yet, and nothing is cached. -/
  | declined
  | unusable
  | usable
deriving DecidableEq, Repr

/-- `fortran_derived_usable` between its load of the state and its first store. -/
def FortranBuild.verdict (build : FortranBuild) (answer : LogicalAnswer) : Verdict :=
  if build.logicalNull then .unusable
  else if answer.initializedError ≠ 0 ∨ answer.initialized = 0 then .declined
  else if answer.sizeError ≠ 0 ∨ answer.size = build.undefined ∨ answer.size ≤ 0 then .unusable
  else if build.probed.fits = false ∨ build.probed.size ≠ answer.size then .unusable
  else .usable

/-! ## Memory -/

inductive FortranKind
  | logical | integer | real
deriving DecidableEq, Repr

/-- The variables of one region: `fortran_logical_size`, `fortran_true` and
`fortran_false`, or those named `derived_`. -/
inductive FortranField
  | size (k : FortranKind)
  | byte (l : Bool) (i : Nat)
deriving DecidableEq, Repr

@[reducible] def FortranField.Value : FortranField → Type
  | .size _ => Int32
  | .byte _ _ => UInt8

abbrev FortranFields := (f : FortranField) → f.Value

inductive Region
  /-- What the application has set, -/
  | registered
  /-- and what is derived from the build. -/
  | derived
deriving DecidableEq, Repr

inductive DerivedState
  | unknown | usable | unusable
deriving DecidableEq, Repr

/-- `fortran_bool_claimed`, `fortran_bool_published`, `derived_state` and the two
regions. Besides, what the set was given that has claimed the registration, and
whether the implementation's `LOGICAL` has been found to have the compiler's
size. -/
structure FortranMemory where
  claimed : Bool
  published : Bool
  derivedState : DerivedState
  regions : Region → FortranFields
  given : Option Logical
  agreed : Bool

/-- Static storage. -/
def FortranMemory.init : FortranMemory :=
  ⟨false, false, .unknown, fun _ => fun | .size _ => 0 | .byte _ _ => 0, none, false⟩

def FortranMemory.store (m : FortranMemory) (r : Region) (f : FortranField) (x : f.Value) :
    FortranMemory :=
  { m with regions := Function.update m.regions r (Function.update (m.regions r) f x) }

def Logical.bytes (x : Logical) (l : Bool) : List FortranField :=
  (List.range x.len).map (.byte l)

/-- What a region is filled with; the sizes of the other kinds are the build's. -/
def FortranBuild.content (build : FortranBuild) (x : Logical) : FortranFields
  | .size .logical => x.size
  | .size .integer => build.integerSize
  | .size .real => build.realSize
  | .byte l i => x.literal l i

/-- The stores that fill a region, in their order. -/
def Region.fields (x : Logical) : Region → List FortranField
  | .registered => x.bytes true ++ x.bytes false ++ [.size .logical]
  | .derived =>
      [.size .logical, .size .integer, .size .real] ++ x.bytes true ++ x.bytes false

/-! ## The calls -/

/-- The size and the two pointers, or the part of `MPI_Abi_get_fortran_info` that
finds the sizes. -/
inductive FortranCall
  | setBooleans (size : Int32) (logical : Bool → Option Bytes)
  | getBooleans (size : Int32) (logical : Bool → Option Bytes)
  | getSizes

/-- Where a call is. -/
inductive FortranPc
  /-- The test-and-set of `fortran_bool_claimed`. -/
  | claim
  /-- The stores that fill a region, -/
  | fill (r : Region) (x : Logical) (todo : List FortranField)
  /-- and the store of the word that says so. -/
  | publish (r : Region)
  /-- The load of `fortran_bool_published`. -/
  | published
  /-- `fortran_derived_usable`: its load of the state, its calls, its store of a no. -/
  | derived
  | ask
  | unusable
  /-- The load of the size that is compared, those of the two `memcpy`s, and the
  bytes from the `i`-th. -/
  | compare (r : Region)
  | length (r : Region) (l : Bool)
  | copy (r : Region) (l : Bool) (i left : Nat)
  /-- The loads of the sizes. -/
  | sizes (todo : List FortranKind) (read : List Int32)

/-- A call in progress, with the bytes behind its two pointers, whether a set had
returned success when it began, and how many steps it has made. -/
structure FortranFrame where
  call : FortranCall
  pc : FortranPc
  buffers : Bool → Bytes
  after : Bool
  steps : Nat

/-- A call that has returned: its code, `*abi_is_set`, the bytes behind its two
pointers, and the sizes that it has found. -/
structure FortranReturn where
  call : FortranCall
  after : Bool
  steps : Nat
  code : Int32
  isSet : Bool
  buffers : Bool → Bytes
  sizes : List Int32

/-- A set that has returned success. -/
def FortranReturn.succeeded (e : FortranReturn) : Bool :=
  match e.call with
  | .setBooleans _ _ => e.code == 0
  | _ => false

/-- What a step of a call comes to. -/
inductive FortranMove
  | goto (pc : FortranPc) (buffers : Bool → Bytes)
  | ret (code : Int32) (isSet : Bool) (sizes : List Int32)

namespace FortranCall

def pointers : FortranCall → Bool → Option Bytes
  | .setBooleans _ logical | .getBooleans _ logical => logical
  | .getSizes => fun _ => none

/-- What is behind the pointers when the call is made. -/
def pointees (c : FortranCall) (l : Bool) : Bytes := (c.pointers l).getD fun _ => 0

def size : FortranCall → Int32
  | .setBooleans size _ | .getBooleans size _ => size
  | .getSizes => 0

def given (c : FortranCall) : Logical := ⟨c.size, c.pointees⟩

def nullPointer (c : FortranCall) : Bool := (c.pointers true).isNone || (c.pointers false).isNone

/-- The checks in front of the first access: `MPI_ERR_ARG`, or where to begin. -/
def enter (c : FortranCall) : Option FortranPc :=
  match c with
  | .setBooleans .. => if c.given.fits = false || c.nullPointer then none else some .claim
  | .getBooleans .. => if c.nullPointer then none else some .published
  | .getSizes => some .derived

/-- Where a call goes on that may use what is derived. -/
def use : FortranCall → FortranPc
  | .getSizes => .sizes [.logical, .integer, .real] []
  | _ => .compare .derived

end FortranCall

/-- The registration has been stored, or the derived region has been. -/
def FortranMemory.publish (m : FortranMemory) : Region → FortranMemory
  | .registered => { m with published := true }
  | .derived => { m with derivedState := .usable }

/-- The next access of a call. `answer` is what the implementation answers where
it is asked. -/
def fortranStep (build : FortranBuild) (call : FortranCall) (answer : LogicalAnswer)
    (buffers : Bool → Bytes) (m : FortranMemory) : FortranPc → FortranMove × FortranMemory
  | .claim =>
      if m.claimed then (.ret abiErrAbi false [], m)
      else
        (.goto (.fill .registered call.given (Region.registered.fields call.given)) buffers,
          { m with claimed := true, given := some call.given })
  | .fill r _ [] => (.goto (.publish r) buffers, m)
  | .fill r x (f :: todo) => (.goto (.fill r x todo) buffers, m.store r f (build.content x f))
  | .publish r =>
      (match r with
        | .registered => .ret 0 false []
        | .derived => .goto call.use buffers, m.publish r)
  | .published =>
      (.goto (if m.published then .compare .registered else .derived) buffers, m)
  | .derived =>
      if build.hasFortran = false then (.ret 0 false [], m)
      else
        match m.derivedState with
        | .unknown => (.goto .ask buffers, m)
        | .usable => (.goto call.use buffers, m)
        | .unusable => (.ret 0 false [], m)
  | .ask =>
      match build.verdict answer with
      | .declined => (.ret 0 false [], m)
      | .unusable => (.goto .unusable buffers, m)
      | .usable =>
          (.goto (.fill .derived build.probed (Region.derived.fields build.probed)) buffers,
            { m with agreed := true })
  | .unusable => (.ret 0 false [], { m with derivedState := .unusable })
  | .compare r =>
      if call.size ≠ m.regions r (.size .logical) then (.ret 0 false [], m)
      else (.goto (.length r true) buffers, m)
  | .length r l =>
      (.goto (.copy r l 0 (m.regions r (.size .logical)).toInt.toNat) buffers, m)
  | .copy r l _ 0 => (if l then .goto (.length r false) buffers else .ret 0 true [], m)
  | .copy r l i (left + 1) =>
      (.goto (.copy r l (i + 1) left)
        (Function.update buffers l
          (Function.update (buffers l) i (m.regions r (.byte l i)))), m)
  | .sizes [] read => (.ret 0 false read, m)
  | .sizes (k :: todo) read =>
      (.goto (.sizes todo (read ++ [m.regions .derived (.size k)])) buffers, m)

/-! ## Any number of threads -/

/-- The memory, the calls in progress and those that have returned. -/
structure FortranThreads where
  memory : FortranMemory
  frames : Nat → Option FortranFrame
  log : List FortranReturn

/-- A thread calls, or makes its next access. -/
inductive FortranThreadAct
  | call (i : Nat) (call : FortranCall)
  | tick (i : Nat) (answer : LogicalAnswer)

namespace FortranThreads

def init : FortranThreads := ⟨.init, fun _ => none, []⟩

def setFrame (s : FortranThreads) (i : Nat) (f : Option FortranFrame) : FortranThreads :=
  { s with frames := Function.update s.frames i f }

/-- A set has returned success. -/
def settled (s : FortranThreads) : Bool := s.log.any FortranReturn.succeeded

def returned (s : FortranThreads) (i : Nat) (e : FortranReturn) : FortranThreads :=
  { s.setFrame i none with log := s.log ++ [e] }

section
variable {s : FortranThreads} {i : Nat} {f : Option FortranFrame} {e : FortranReturn}

@[simp] theorem setFrame_memory : (s.setFrame i f).memory = s.memory := rfl
@[simp] theorem setFrame_frames :
    (s.setFrame i f).frames = Function.update s.frames i f := rfl
@[simp] theorem setFrame_log : (s.setFrame i f).log = s.log := rfl
@[simp] theorem returned_memory : (s.returned i e).memory = s.memory := rfl
@[simp] theorem returned_frames :
    (s.returned i e).frames = Function.update s.frames i none := rfl
@[simp] theorem returned_log : (s.returned i e).log = s.log ++ [e] := rfl

end

def step (build : FortranBuild) (s : FortranThreads) : FortranThreadAct → Option FortranThreads
  | .call i c =>
      match s.frames i with
      | some _ => none
      | none =>
          some (match c.enter with
            | none => s.returned i ⟨c, s.settled, 0, abiErrArg, false, c.pointees, []⟩
            | some pc => s.setFrame i (some ⟨c, pc, c.pointees, s.settled, 0⟩))
  | .tick i answer =>
      (s.frames i).map fun f =>
        let r := fortranStep build f.call answer f.buffers s.memory f.pc
        let s' := { s with memory := r.2 }
        match r.1 with
        | .goto pc buffers => s'.setFrame i (some { f with pc, buffers, steps := f.steps + 1 })
        | .ret code isSet sizes =>
            s'.returned i ⟨f.call, f.after, f.steps + 1, code, isSet, f.buffers, sizes⟩

end FortranThreads

end AbiWrapper.Ref
