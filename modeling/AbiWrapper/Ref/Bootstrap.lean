import AbiWrapper.Ref.Handles
import AbiWrapper.Ref.Vtable

/-!
# The handshake (bootstrap.c, getvtable.c, entrypoints.c)

The constructor of a libmpi_abi loads a libmpiwrapper, asks it for its vtable, and
makes one call through it to see that the call does not come back. Every check
that fails ends the process. The forwarders do not check anything: they read a
pointer at the offset at which their own header has the slot, and call it.

There may be several of each half in a process, with headers of their own.
Constructors run one at a time, as the dynamic loader has it, and threads that use
a libmpi_abi whose constructor has run may call at any moment of another one's.
What `dlopen` answers, and which entry points the implementation calls back into,
is left to the run. `dladdr` is asked of two addresses that do not change.
-/

namespace AbiWrapper.Ref

open AbiWrapper.Lib

/-! ## The halves -/

variable (alnum : Char → Bool)

/-- The entry point that the probe calls. -/
def getVersion : Text := "MPI_Get_version".toList

/-- What the generator and the compiler have made of a header. -/
structure AbiBuild where
  version : UInt32
  subversion : UInt32
  header : AbiHeader
  checked : header.Checked alnum
  probes : getVersion ∈ header.slots.map AbiEntryPoint.name
  hash : UInt32
  emitted : layoutHash alnum header = some hash
  pointerSize : Nat
  pointers : 0 < pointerSize

/-- A wrapper has bodies, some of them written by hand, and the handles of an
implementation. -/
structure WrapperBuild extends AbiBuild alnum where
  handwritten : Text → Bool
  impl : ImplHandles

variable {alnum}

/-- `sizeof(struct mpiwrapper_vtable)`. -/
def AbiBuild.vtableSize (b : AbiBuild alnum) : Nat := b.header.slots.length * b.pointerSize

def AbiBuild.slotOffset (b : AbiBuild alnum) (slot : Text) : Nat :=
  (b.header.slots.map AbiEntryPoint.name).idxOf slot * b.pointerSize

def WrapperBuild.vtable (w : WrapperBuild alnum) : List (Option Text) :=
  w.header.vtableInstance w.handwritten

/-- The function that an offset of the table holds, if it holds one. -/
def WrapperBuild.slotAt (w : WrapperBuild alnum) (offset : Nat) : Option Text :=
  if offset % w.pointerSize = 0 then (w.vtable[offset / w.pointerSize]?).join else none

variable (alnum)

/-- The halves that a process may load, and the objects, by their bases, in which
`dladdr` finds the `MPI_Send` of a libmpi_abi and the one that a wrapper's calls
resolve to. It may find none. -/
structure Halves where
  abi : Nat → AbiBuild alnum
  wrapper : Nat → WrapperBuild alnum
  abiBase : Nat → Option Nat
  implBase : Nat → Option Nat

variable {alnum}

/-! ## getvtable.c -/

def capturedDiagnostic : String :=
  "symbol resolution captured: this libmpiwrapper's MPI_* calls resolve " ++
  "back into libmpi_abi instead of the MPI implementation, which would " ++
  "recurse until the stack is exhausted. Load the wrapper with " ++
  "dlopen(RTLD_LOCAL | RTLD_DEEPBIND), which is the default."

/-- `resolution_is_outward`: the diagnostic, or nothing. -/
def resolutionIsOutward : Option Nat → Option Nat → Option String
  | some abiBase, some implBase => if abiBase = implBase then some capturedDiagnostic else none
  | _, _ => none

def everySlotFilled (w : WrapperBuild alnum) : Option String :=
  if w.vtable.any Option.isNone then some "libmpiwrapper has an unfilled vtable slot" else none

/-- What `mpiwrapper_get_vtable` checks of its caller and of itself. -/
def getVtableChecks (a : AbiBuild alnum) (w : WrapperBuild alnum) (abiBase implBase : Option Nat) :
    Option String :=
  if a.version ≠ w.version then
    some "MPI ABI major version mismatch between libmpi_abi and libmpiwrapper"
  else if a.subversion ≠ w.subversion then
    some "MPI ABI subversion mismatch between libmpi_abi and libmpiwrapper"
  else if a.hash ≠ w.hash then
    some ("vtable layout mismatch: libmpi_abi and libmpiwrapper were " ++
      "generated from different slot lists")
  else if a.vtableSize ≠ w.vtableSize then
    some ("vtable size mismatch: libmpi_abi and libmpiwrapper agree on the slot " ++
      "list but not on its layout, which means they were built for different " ++
      "targets or with incompatible compiler settings")
  else (resolutionIsOutward abiBase implBase).or (everySlotFilled w)

/-! ## The process -/

/-- `mpi_abi_vt`: no table, the decoy of the probe, or the table of a wrapper. -/
inductive VtPointer
  | null
  | decoy
  | table (w : Nat)
deriving DecidableEq, Repr

/-- Where the constructor that runs is: it has a library to ask; it has won the
exchange and fills the reverse maps; it has the table; it probes. -/
inductive LoadPhase
  | opened
  | claimed
  | handed
  | probing
deriving DecidableEq, Repr

/-- What `dlopen` and `dlsym` answer. -/
inductive DlAnswer
  | failed (error : String)
  | notWrapper (path : String)
  | opened (w : Nat)
deriving DecidableEq, Repr

/-- A call that a libmpi_abi made through a wrapper's table: the entry point, the
function that was reached, if there was one, and the reverse maps that were
there. -/
structure ForwardedCall where
  caller : Nat
  wrapper : Nat
  entry : Text
  body : Option Text
  maps : Option Rmaps

/-- A constructor at work, with the libmpi_abi it is of and the wrapper. -/
structure Loading where
  caller : Nat
  wrapper : Nat
  phase : LoadPhase
deriving DecidableEq, Repr

/-- `aborted` is what `vt_fail` has written. Every libmpi_abi has an
`mpi_abi_vt` and a `probe_reentered`, and `captured` lists the calls that have set
one. -/
structure Process where
  vt : Nat → VtPointer
  reentered : Nat → Bool
  captured : List (Nat × Text)
  loading : Option Loading
  initialized : Nat → Bool
  maps : Nat → Option Rmaps
  builds : Nat → Nat
  calls : List ForwardedCall
  aborted : Option (String × String)

inductive ProcessAct
  | start (i : Nat) (answer : DlAnswer)
  | check
  | build
  | probe
  | probed
  | call (i : Nat) (name : Text)
deriving DecidableEq, Repr

def rejectedWhat : String := "wrapper rejected this libmpi_abi"

def reenteredWhat : String := "the wrapper's MPI calls come back into libmpi_abi"

def reenteredDetail : String :=
  "one MPI call made by libmpiwrapper re-entered this library " ++
  "instead of reaching the MPI implementation. Every call would " ++
  "recurse. On macOS this means a library in the wrapper's chain " ++
  "was built -flat_namespace -- usually the MPI implementation " ++
  "itself, whose internal MPI calls then resolve to whatever " ++
  "loaded first ('otool -hv' on it shows no TWOLEVEL flag); on " ++
  "ELF it means the wrapper was loaded without RTLD_DEEPBIND or " ++
  "dlmopen"

namespace Process

def init : Process :=
  ⟨fun _ => .null, fun _ => false, [], none, fun _ => false, fun _ => none, fun _ => 0, [], none⟩

/-- `vt_fail`. -/
def fail (s : Process) (what detail : String) : Process := { s with aborted := some (what, detail) }

/-- The constructor goes on. -/
def enter (s : Process) (l : Loading) (phase : LoadPhase) : Process :=
  { s with loading := some { l with phase := phase } }

def setVt (s : Process) (i : Nat) (vt : VtPointer) : Process :=
  { s with vt := Function.update s.vt i vt }

def setReentered (s : Process) (i : Nat) (reentered : Bool) : Process :=
  { s with reentered := Function.update s.reentered i reentered }

variable (halves : Halves alnum)

/-- `vt_load`, as far as `mpiwrapper_get_vtable`. -/
def start (s : Process) (i : Nat) : DlAnswer → Process
  | .failed error => s.fail "dlopen failed" error
  | .notWrapper path => s.fail "not an mpiwrapper library" path
  | .opened w => { s with loading := some ⟨i, w, .opened⟩ }

/-- `mpiwrapper_get_vtable`, as far as the exchange. -/
def check (s : Process) (l : Loading) : Process :=
  match getVtableChecks (halves.abi l.caller) (halves.wrapper l.wrapper)
      (halves.abiBase l.caller) (halves.implBase l.wrapper) with
  | some diagnostic => s.fail rejectedWhat diagnostic
  | none =>
      if s.initialized l.wrapper then s.enter l .handed
      else { s.enter l .claimed with initialized := Function.update s.initialized l.wrapper true }

/-- What `mpiwrapper_init_reverse_maps` has made, or why it has failed. -/
def build (s : Process) (l : Loading) (built : Except String Rmaps) : Process :=
  let s := { s with builds := Function.update s.builds l.wrapper (s.builds l.wrapper + 1) }
  match built with
  | .error diagnostic => s.fail rejectedWhat diagnostic
  | .ok m => { s.enter l .handed with maps := Function.update s.maps l.wrapper (some m) }

/-- The call of an entry point, through a slot of a wrapper's table. -/
def through (s : Process) (i w : Nat) (entry slot : Text) : Process :=
  { s with calls := s.calls ++
      [⟨i, w, entry, (halves.wrapper w).slotAt ((halves.abi i).slotOffset slot), s.maps w⟩] }

/-- `resolution_probe_passed`, as far as the call. -/
def probe (s : Process) (l : Loading) : Process :=
  (((s.enter l .probing).setReentered l.caller false).setVt l.caller .decoy).through halves
    l.caller l.wrapper getVersion getVersion

/-- The call has returned. -/
def probed (s : Process) (l : Loading) : Process :=
  if s.reentered l.caller then (s.setVt l.caller .null).fail reenteredWhat reenteredDetail
  else { s.setVt l.caller (.table l.wrapper) with loading := none }

/-- `probe_decoy_any`. -/
def capture (s : Process) (i : Nat) (name : Text) : Process :=
  { s.setReentered i true with captured := s.captured ++ [(i, name)] }

/-- A forwarder: every slot of the decoy notes the call, and a pointer that is not
there would be jumped to. -/
def call (s : Process) (i : Nat) (name : Text) : Option Process :=
  match s.vt i with
  | .null => none
  | .decoy => some (s.capture i name)
  | .table w => some (s.through halves i w name ((halves.abi i).header.forwardedSlot name))

def step (s : Process) (a : ProcessAct) : Option Process :=
  if s.aborted.isSome then none
  else
    match a, s.loading with
    | .start i answer, none => if s.vt i = .null then some (s.start i answer) else none
    | .check, some l => if l.phase = .opened then some (s.check halves l) else none
    | .build, some l => if l.phase = .claimed then
        some (s.build l (initReverseMaps (halves.wrapper l.wrapper).impl)) else none
    | .probe, some l => if l.phase = .handed then some (s.probe halves l) else none
    | .probed, some l => if l.phase = .probing then some (s.probed l) else none
    | .call i name, _ =>
        if (halves.abi i).header.names.contains name then s.call halves i name else none
    | _, _ => none

end Process

end AbiWrapper.Ref
