import AbiWrapper.Lib.Run
import AbiWrapper.Lib.Tickets
import AbiWrapper.Ref.Serialize

/-!
# Serializations interleaving (serialize.c)

`Serialize.lean` has the table of serialized handles as one thread sees it. Here
several threads serialize at once. A serialization loads the counter, loads the
entries below it from the newest down, and, if none is its handle, fetches an
index and publishes an entry of its own. Each of these is one label, so the
label lists are exactly the interleavings of any number of threads, each of
which makes one call after the other.

The state keeps, for the proofs to speak about, what every thread has been
answered and which handle each index was fetched for.
-/

namespace AbiWrapper.Ref

open AbiWrapper.Lib

/-- Where a thread is in `mpiwrapper_handle_toint`: before the counter is
loaded; before the entry below `left` is; before the fetch-and-add; past the end
of the table, before the counter is put back; before the entry of an index is
stored. -/
inductive TointPc
  | idle
  | count (bits : UInt64)
  | scan (bits : UInt64) (left : Nat)
  | claim (bits : UInt64)
  | clamp (bits : UInt64)
  | publish (bits : UInt64) (slot : Int32)
deriving DecidableEq, Repr

def TointPc.bits : TointPc → Option UInt64
  | .idle => none
  | .count bits | .scan bits _ | .claim bits | .clamp bits | .publish bits _ => some bits

/-- One turn of the loop from entry `left` down, or its end. -/
def TointPc.scanFrom (bits : UInt64) (left : Nat) : TointPc :=
  if left = 0 then .claim bits else .scan bits left

structure TointResult where
  thread : Nat
  bits : UInt64
  value : Int32
deriving DecidableEq, Repr

/-- `serial_bits` and `serial_count`, the calls and their answers; `claimed` has
the handle of each index that was fetched, in order. -/
structure SerialOps where
  entries : Nat → UInt64
  tickets : Tickets
  pc : Nat → TointPc
  results : List TointResult
  claimed : List UInt64

inductive SerialAct
  | toint (thread : Nat) (bits : UInt64)
  | tick (thread : Nat)
deriving DecidableEq, Repr

namespace SerialOps

def init : SerialOps := ⟨fun _ => 0, .start, fun _ => .idle, [], []⟩

def setPc (s : SerialOps) (thread : Nat) (pc : TointPc) : SerialOps :=
  { s with pc := Function.update s.pc thread pc }

def answer (s : SerialOps) (thread : Nat) (bits : UInt64) (value : Int32) : SerialOps :=
  { s.setPc thread .idle with results := s.results ++ [⟨thread, bits, value⟩] }

/-- `last`, by the counter that was loaded. -/
def scanEnd (count : Int32) : Nat :=
  if count < Int32.ofNat serialSlots then count.toNatClampNeg else serialSlots

/-- The store of an entry; a negative index is outside the table. -/
def store (s : SerialOps) (slot : Int32) (bits : UInt64) : SerialOps :=
  if slot < 0 then s
  else { s with entries := Function.update s.entries slot.toNatClampNeg bits }

/-- The fetch-and-add and what follows from it. -/
def claim (s : SerialOps) (thread : Nat) (bits : UInt64) : SerialOps :=
  if s.tickets.hasRoom serialSlots then
    { s.setPc thread (.publish bits s.tickets.count) with
      tickets := s.tickets.take serialSlots
      claimed := s.claimed ++ [bits] }
  else
    { s.setPc thread (.clamp bits) with tickets := s.tickets.take serialSlots }

def step (s : SerialOps) : SerialAct → Option SerialOps
  | .toint thread bits =>
      if s.pc thread = .idle then
        some (if inPredefRange bits then s.answer thread bits (Int32.ofNat bits.toNat)
          else if bits = 0 then s.answer thread bits 0
          else s.setPc thread (.count bits))
      else none
  | .tick thread =>
      match s.pc thread with
      | .idle => none
      | .count bits => some (s.setPc thread (.scanFrom bits (scanEnd s.tickets.count)))
      | .scan bits left =>
          some (if s.entries (left - 1) = bits then
              s.answer thread bits (codeOf serialAbiBase (left - 1))
            else s.setPc thread (.scanFrom bits (left - 1)))
      | .claim bits => some (s.claim thread bits)
      | .clamp bits =>
          some { s.answer thread bits 0 with tickets := s.tickets.putBack serialSlots }
      | .publish bits slot =>
          some ((s.store slot bits).answer thread bits (serialAbiBase + slot))

/-- `mpiwrapper_handle_fromint` of an integer that is not predefined; its only
access is one load. -/
def dynamicFromint (s : SerialOps) (value : Int32) : Option (Option UInt64) :=
  (slotOf serialSlots serialAbiBase value).map fun slot =>
    match slot with
    | none => none
    | some slot => if s.entries slot = 0 then none else some (s.entries slot)

/-- `mpiwrapper_handle_fromint`. -/
def fromint (s : SerialOps) (value : Int32) : Option (Option UInt64) :=
  if 0 ≤ value ∧ inPredefRange (UInt64.ofNat value.toNatClampNeg) then
    some (some (UInt64.ofNat value.toNatClampNeg))
  else s.dynamicFromint value

end SerialOps

/-- An index is fetched for a handle only while none has been, and only while
few enough calls are still to put the counter back. -/
def internedOnce (s : SerialOps) : SerialAct → Prop
  | .tick thread =>
      match s.pc thread with
      | .claim bits =>
          (s.tickets.hasRoom serialSlots = true → bits ∉ s.claimed) ∧ s.tickets.calm serialSlots
      | _ => True
  | _ => True

instance (s : SerialOps) (a : SerialAct) : Decidable (internedOnce s a) := by
  cases a with
  | toint thread bits => exact isTrue trivial
  | tick thread =>
      unfold internedOnce
      dsimp only
      split <;> infer_instance

end AbiWrapper.Ref
