import AbiWrapper.Lib.Registry
import AbiWrapper.Lib.Run
import AbiWrapper.Ref.Handles

/-!
# Handles as integers (serialize.c, hw_converters.c)

A predefined handle serializes to its own ABI value. All others are interned in
one table that the eleven classes share, in both directions: the integer is a
base plus the slot, and the way back is an index. Zero marks an empty slot and
stands for no handle. For the lowest integers the index is undefined.

A history is a list of calls, and has no state after a call that is undefined.
The state keeps the table and, for the proofs to speak about, what every
serialization so far has answered.
-/

namespace AbiWrapper.Ref

open AbiWrapper.Lib

def serialSlots : Nat := 4096

def serialAbiBase : Int32 := 0x40000000

/-- `serial_bits` and `serial_count`. -/
abbrev SerialTable := Registry UInt64 serialSlots 0

def handleToint (abiBits : UInt64) (t : SerialTable) : Int32 × SerialTable :=
  if inPredefRange abiBits then (Int32.ofNat abiBits.toNat, t)
  else if h : abiBits = 0 then (0, t)
  else
    match t.find abiBits with
    | some slot => (codeOf serialAbiBase slot, t)
    | none =>
        match t.append abiBits h with
        | some (slot, t') => (codeOf serialAbiBase slot, t')
        -- The counter is put back to the size of the table, where it was.
        | none => (0, t)

/-- The outer `Option` is for the subtraction, the inner one for the answer. -/
def handleFromint (value : Int32) (t : SerialTable) : Option (Option UInt64) :=
  if 0 ≤ value ∧ inPredefRange (UInt64.ofNat value.toNatClampNeg) then
    some (some (UInt64.ofNat value.toNatClampNeg))
  else
    (slotOf serialSlots serialAbiBase value).map fun slot =>
      match slot with
      | none => none
      | some slot => if t.slot slot = 0 then none else some (t.slot slot)

/-- `BODY_FROMINT`: an integer that names no handle is the class's null. -/
def fromintBody (c : HandleClass) (value : Int32) (t : SerialTable) : Option UInt64 :=
  (handleFromint value t).map fun bits => bits.getD (abiNull c)

/-! ## Histories -/

/-- A call of one of the eleven classes' `_toint` and `_c2f`, or `_fromint` and
`_f2c`, bodies. -/
inductive SerialCall
  | toint (c : HandleClass) (abiBits : UInt64)
  | fromint (c : HandleClass) (value : Int32)
deriving DecidableEq, Repr

structure SerialState where
  table : SerialTable
  /-- The bits and the answer of every serialization, oldest first. -/
  issued : List (UInt64 × Int32)

namespace SerialState

def init : SerialState := ⟨.empty, []⟩

def step (s : SerialState) : SerialCall → Option SerialState
  | .toint _ abiBits =>
      let (value, table) := handleToint abiBits s.table
      some ⟨table, s.issued ++ [(abiBits, value)]⟩
  | .fromint c value => (fromintBody c value s.table).map fun _ => s

end SerialState

end AbiWrapper.Ref
