import AbiWrapper.Lib.Run
import AbiWrapper.Lib.Tickets
import AbiWrapper.Ref.Errorcodes
import AbiWrapper.Ref.Keyvals

/-!
# Additions and lookups interleaving on a registry (keyvals.c, errorcodes.c)

`Keyvals.lean` and `Errorcodes.lean` have the two append-only registries as one
thread sees them. Here they are arrays and counters that several threads use.
An addition fetches the counter and then either publishes its entry or puts the
counter back; a lookup loads the counter and then the entry. Each label is one
of these accesses, or a call being entered, so the label lists are exactly the
interleavings. Every call is a process of its own, whoever makes it.

A negative index is outside the table, and a publication there does not show in
it.
-/

namespace AbiWrapper.Ref

open AbiWrapper.Lib

inductive RegistryKind
  | keyval | errorcode
deriving DecidableEq, Repr

namespace RegistryKind

/-- `MPIWRAPPER_KEYVAL_SLOTS` and `MPIWRAPPER_ERRORCODE_SLOTS`. -/
def slots : RegistryKind → Nat
  | .keyval => keyvalSlots
  | .errorcode => errorcodeSlots

/-- `MPIWRAPPER_KEYVAL_ABI_BASE` and `MPIWRAPPER_ERRORCODE_ABI_BASE`. -/
def base : RegistryKind → Int32
  | .keyval => keyvalAbiBase
  | .errorcode => errorcodeAbiBase

/-- What is not added: `MPI_SUCCESS` is no error code. -/
def refuses : RegistryKind → Int32 → Bool
  | .keyval, _ => false
  | .errorcode, ierror => ierror = 0

end RegistryKind

inductive AddResult
  | ok (abi : Int32)
  | refused
  | full
deriving DecidableEq, Repr

/-- Where a call of `mpiwrapper_*_add` is: before the fetch-and-add; past the
end of the table, before the counter is put back; before the entry of an index
is stored; returned. And one of `mpiwrapper_*_dynamic_fromabi`: before the
counter is loaded, before the entry of an index is, and returned with an entry
or with what stands for none. -/
inductive CallPc
  | idle
  | claim
  | clamp
  | publish (slot : Int32)
  | added (result : AddResult)
  | lookup (abi : Int32)
  | load (abi : Int32) (slot : Nat)
  | found (abi : Int32) (value : Option Int32)
deriving DecidableEq, Repr

/-- Where a lookup goes on once it has the counter. -/
def CallPc.counted (abi : Int32) : Option Nat → CallPc
  | none => .found abi none
  | some slot => .load abi slot

/-- The array, the counter with its history, and the calls, with what each
addition is given. -/
structure RegistryState where
  entries : Nat → Int32
  tickets : Tickets
  pc : Nat → CallPc
  value : Nat → Int32

/-- An addition or a lookup is entered, or makes one atomic access. -/
inductive RegistryAct
  | add (i : Nat) (value : Int32)
  | lookup (i : Nat) (abi : Int32)
  | tick (i : Nat)
deriving DecidableEq, Repr

namespace RegistryState

def init : RegistryState := ⟨fun _ => 0, .start, fun _ => .idle, fun _ => 0⟩

def setPc (s : RegistryState) (i : Nat) (pc : CallPc) : RegistryState :=
  { s with pc := Function.update s.pc i pc }

def store (s : RegistryState) (slot value : Int32) : RegistryState :=
  if slot < 0 then s
  else { s with entries := Function.update s.entries slot.toNatClampNeg value }

/-- The index a lookup may load, by the counter it has loaded. -/
def inRange (kind : RegistryKind) (count abi : Int32) : Option (Option Nat) :=
  (slotIndex kind.base abi).map fun (slot : Int) =>
    if slot < 0 ∨ count.toInt ≤ slot ∨ kind.slots ≤ slot then none else some slot.toNat

def step (kind : RegistryKind) (s : RegistryState) : RegistryAct → Option RegistryState
  | .add i value =>
      if s.pc i = .idle then
        some { s with
          pc := Function.update s.pc i (if kind.refuses value then .added .refused else .claim)
          value := Function.update s.value i value }
      else none
  | .lookup i abi => if s.pc i = .idle then some (s.setPc i (.lookup abi)) else none
  | .tick i =>
      match s.pc i with
      | .claim =>
          some { s.setPc i (if s.tickets.hasRoom kind.slots then .publish s.tickets.count
              else .clamp) with
            tickets := s.tickets.take kind.slots }
      | .clamp =>
          some { s.setPc i (.added .full) with tickets := s.tickets.putBack kind.slots }
      | .publish slot =>
          some ((s.store slot (s.value i)).setPc i (.added (.ok (kind.base + slot))))
      | .lookup abi =>
          -- A difference that is no `int` has no next state.
          (inRange kind s.tickets.count abi).map fun slot => s.setPc i (.counted abi slot)
      | .load abi slot => some (s.setPc i (.found abi (some (s.entries slot))))
      | _ => none

/-- `mpiwrapper_keyval_dynamic_fromabi` and `mpiwrapper_errorcode_dynamic_fromabi`,
with their two loads coming together: an entry, or the value that stands for
none. -/
def dynamicFromabi (kind : RegistryKind) (s : RegistryState) (abi : Int32) :
    Option (Option Int32) :=
  (inRange kind s.tickets.count abi).map fun slot => slot.map s.entries

end RegistryState

/-- An addition that has not yet fetched the counter. -/
def CallPc.unclaimed : CallPc → Bool
  | .idle | .claim => true
  | _ => false

/-- A fetch-and-add is made only while few enough additions are between theirs
and the store that puts the counter back. -/
def calmOk (kind : RegistryKind) (s : RegistryState) : RegistryAct → Prop
  | .tick i => s.pc i = .claim → s.tickets.calm kind.slots
  | _ => True

instance (kind : RegistryKind) (s : RegistryState) (a : RegistryAct) :
    Decidable (calmOk kind s a) := by
  cases a <;> unfold calmOk <;> infer_instance

end AbiWrapper.Ref
