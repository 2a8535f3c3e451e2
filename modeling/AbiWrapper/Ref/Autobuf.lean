import AbiWrapper.Lib.Run
import Mathlib.Logic.Function.Basic

/-!
# The table of automatic buffers (buffers.c)

Where an implementation cannot be asked to provide the buffer itself, the
wrapper attaches one of its own and records it under the scope it is attached
to. A slot is taken by a compare-exchange of its scope for zero, its block is
published after that, and it is given back in the other order: the block is
taken out, the scope is cleared, the block is freed.

As with the staged table, both operations are given twice: `claimStep` and
`unclaimStep` make one atomic access each, which is the grain at which threads
interleave, and `autobufClaim` and `autobufRelease` are the same two loops with
nobody else about. `AutobufSteps.lean` proves that the second is the first run to the
end.

`AutobufState` is the table under any number of such operations: every
interleaving of their accesses is a list of labels.
-/

namespace AbiWrapper.Ref

open AbiWrapper.Lib

/-- The default of `MPIWRAPPER_AUTOBUF_SLOTS`. -/
def autobufSlots : Nat := 64

/-- `autobuf`. A block is named by the allocation it came from, and a null block
is `none`. -/
structure AutobufTable where
  scope : Nat → UInt64
  block : Nat → Option Nat

namespace AutobufTable

/-- Static storage. -/
def init : AutobufTable := ⟨fun _ => 0, fun _ => none⟩

def setScope (t : AutobufTable) (slot : Nat) (scope : UInt64) : AutobufTable :=
  { t with scope := Function.update t.scope slot scope }

def setBlock (t : AutobufTable) (slot : Nat) (block : Option Nat) : AutobufTable :=
  { t with block := Function.update t.block slot block }

variable {t : AutobufTable} {slot : Nat}

@[simp] theorem setScope_scope {scope : UInt64} :
    (t.setScope slot scope).scope = Function.update t.scope slot scope := rfl
@[simp] theorem setScope_block {scope : UInt64} : (t.setScope slot scope).block = t.block := rfl
@[simp] theorem setBlock_scope {block : Option Nat} : (t.setBlock slot block).scope = t.scope := rfl
@[simp] theorem setBlock_block {block : Option Nat} :
    (t.setBlock slot block).block = Function.update t.block slot block := rfl

theorem setBlock_none (h : t.block slot = none) : t.setBlock slot none = t := by
  rw [setBlock, ← h, Function.update_eq_self]

end AutobufTable

/-! ## One atomic access at a time -/

/-- Where a claim that has its block is: at the compare-exchange of a slot's
scope, at the store of the block, at the `free` of a block that no slot took, or
returned. -/
inductive ClaimPc
  | cas (slot : Nat)
  | store (slot : Nat)
  | discard
  | ret (claimed : Bool)
deriving DecidableEq, Repr

/-- The loop's increment and test. -/
def claimNext (slots slot : Nat) : ClaimPc := if slot < slots then .cas slot else .discard

/-- One access of a claim, and the block it frees, if it frees one. -/
def claimStep (slots : Nat) (scope : UInt64) (block : Nat) :
    ClaimPc → AutobufTable → ClaimPc × AutobufTable × Option Nat
  | .cas slot, t =>
      if t.scope slot = 0 then (.store slot, t.setScope slot scope, none)
      else (claimNext slots (slot + 1), t, none)
  | .store slot, t => (.ret true, t.setBlock slot (some block), none)
  | .discard, t => (.ret false, t, some block)
  | .ret claimed, t => (.ret claimed, t, none)

/-- Where a release is: at the load of a slot's scope, at the exchange of its
block for null, at the store that clears its scope, at the `free`, or
returned. -/
inductive UnclaimPc
  | load (slot : Nat)
  | swap (slot : Nat)
  | clear (slot block : Nat)
  | free (block : Nat)
  | ret (found : Bool)
deriving DecidableEq, Repr

def unclaimNext (slots slot : Nat) : UnclaimPc := if slot < slots then .load slot else .ret false

def unclaimStep (slots : Nat) (scope : UInt64) :
    UnclaimPc → AutobufTable → UnclaimPc × AutobufTable × Option Nat
  | .load slot, t =>
      if t.scope slot ≠ scope then (unclaimNext slots (slot + 1), t, none)
      else (.swap slot, t, none)
  | .swap slot, t =>
      match t.block slot with
      | none => (unclaimNext slots (slot + 1), t.setBlock slot none, none)
      | some block => (.clear slot block, t.setBlock slot none, none)
  | .clear slot block, t => (.free block, t.setScope slot 0, none)
  | .free block, t => (.ret true, t, some block)
  | .ret found, t => (.ret found, t, none)

/-! ## The same two loops with nobody else about -/

/-- The loop of `mpiwrapper_autobuf_claim`, `left` slots from its end. -/
def claimLoop (scope : UInt64) (block : Nat) : Nat → Nat → AutobufTable → Option AutobufTable
  | 0, _, _ => none
  | left + 1, slot, t =>
      if t.scope slot = 0 then some ((t.setScope slot scope).setBlock slot (some block))
      else claimLoop scope block left (slot + 1) t

/-- `mpiwrapper_autobuf_claim`: the block it returns, the table, and the block
it frees. `malloc` is what the allocation returned. -/
def autobufClaim (slots : Nat) (scope : UInt64) (malloc : Option Nat) (t : AutobufTable) :
    Option Nat × AutobufTable × Option Nat :=
  if scope = 0 then (none, t, none)
  else
    match malloc with
    | none => (none, t, none)
    | some block =>
        match claimLoop scope block slots 0 t with
        | some t' => (some block, t', none)
        | none => (none, t, some block)

/-- The loop of `mpiwrapper_autobuf_release`: the table, and the block it freed
if it found one. -/
def unclaimLoop (scope : UInt64) : Nat → Nat → AutobufTable → AutobufTable × Option Nat
  | 0, _, t => (t, none)
  | left + 1, slot, t =>
      if t.scope slot ≠ scope then unclaimLoop scope left (slot + 1) t
      else
        match t.block slot with
        | none => unclaimLoop scope left (slot + 1) (t.setBlock slot none)
        | some block => ((t.setBlock slot none).setScope slot 0, some block)

/-- `mpiwrapper_autobuf_release`, which returns 1 where it freed a block. -/
def autobufRelease (slots : Nat) (scope : UInt64) (t : AutobufTable) :
    AutobufTable × Option Nat :=
  unclaimLoop scope slots 0 t

/-! ## Any number of threads -/

/-- A thread between calls, in a claim, or in a release. -/
inductive AutobufPc
  | idle
  | claim (scope : UInt64) (block : Nat) (pc : ClaimPc)
  | release (scope : UInt64) (pc : UnclaimPc)
deriving DecidableEq, Repr

/-- The table and the threads, and what has happened: the scope each block was
allocated for, the scopes a release was called for, the blocks that releases
freed and the scope each was called with, and the blocks that no slot took. -/
structure AutobufState where
  table : AutobufTable
  pc : Nat → AutobufPc
  fresh : Nat
  claimedFor : Nat → UInt64
  released : List UInt64
  freed : List (Nat × UInt64)
  discarded : List Nat

/-- A thread calls claim, where `malloc` may fail; calls release; or makes its
next access. -/
inductive AutobufAct
  | claim (i : Nat) (scope : UInt64) (malloc : Bool)
  | release (i : Nat) (scope : UInt64)
  | tick (i : Nat)
deriving DecidableEq, Repr

def AutobufPc.atRest : AutobufPc → Bool
  | .idle | .claim _ _ (.ret _) | .release _ (.ret _) => true
  | _ => false

namespace AutobufState

def init : AutobufState := ⟨.init, fun _ => .idle, 0, fun _ => 0, [], [], []⟩

def moved (s : AutobufState) (i : Nat) (pc : AutobufPc) (table : AutobufTable) : AutobufState :=
  { s with pc := Function.update s.pc i pc, table }

def allocated (s : AutobufState) (scope : UInt64) : AutobufState :=
  { s with fresh := s.fresh + 1, claimedFor := Function.update s.claimedFor s.fresh scope }

def step (slots : Nat) (s : AutobufState) : AutobufAct → Option AutobufState
  | .claim i scope malloc =>
      if (s.pc i).atRest then
        if scope = 0 ∨ malloc = false then some (s.moved i .idle s.table)
        else some ((s.allocated scope).moved i (.claim scope s.fresh (claimNext slots 0)) s.table)
      else none
  | .release i scope =>
      if (s.pc i).atRest then
        some ({ s with released := scope :: s.released }.moved i
          (.release scope (unclaimNext slots 0)) s.table)
      else none
  | .tick i =>
      match s.pc i with
      | .idle => none
      | .claim scope block pc =>
          let r := claimStep slots scope block pc s.table
          some ({ s with discarded := s.discarded ++ r.2.2.toList }.moved i
            (.claim scope block r.1) r.2.1)
      | .release scope pc =>
          let r := unclaimStep slots scope pc s.table
          let freed := r.2.2.toList.map fun block => (block, scope)
          some ({ s with freed := s.freed ++ freed }.moved i (.release scope r.1) r.2.1)

end AutobufState

/-- An exchange takes a block only out of a slot whose scope is still the
release's own. -/
def AutobufTable.keeps (t : AutobufTable) : AutobufPc → Prop
  | .release scope (.swap slot) => t.block slot ≠ none → t.scope slot = scope
  | _ => True

instance (t : AutobufTable) (pc : AutobufPc) : Decidable (t.keeps pc) := by
  unfold AutobufTable.keeps
  split <;> infer_instance

def scopeKept (s : AutobufState) : AutobufAct → Prop
  | .tick i => s.table.keeps (s.pc i)
  | _ => True

instance (s : AutobufState) (a : AutobufAct) : Decidable (scopeKept s a) := by
  unfold scopeKept
  split <;> infer_instance

end AbiWrapper.Ref
