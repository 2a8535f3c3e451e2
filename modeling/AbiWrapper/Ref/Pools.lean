import AbiWrapper.Lib.Run
import Mathlib.Logic.Function.Basic

/-!
# Trampoline pools (callbacks.c, hw_callbacks.c)

A user's reduction function or error handler is called without an argument of
its own, so the wrapper passes down one of a fixed set of functions that know
their own index, and keeps the user's function in a slot of that index. A slot
is free where it is null: it is claimed by a compare-exchange of the function
for null, from the first slot on, and given back only where the implementation
refused to create the object. Freed objects keep theirs.

There are seven pools and one text. The creates of all of them, by any number
of threads, are processes that interleave access by access; what the
implementation does between — create or refuse, call a trampoline, forget an
object — are steps of the same run. Which thread runs a create does not matter
to the pools.
-/

namespace AbiWrapper.Ref

open AbiWrapper.Lib

/-- `op_fn`, `op_c_fn`, `op_ca_fn`, and the four `*_errh_fn`. -/
inductive Pool
  | op | opC | opCa | commErrh | fileErrh | winErrh | sessionErrh
deriving DecidableEq, Repr

/-- `MPIWRAPPER_OP_SLOTS` or `MPIWRAPPER_ERRHANDLER_SLOTS`. -/
def Pool.slots : Pool → Nat
  | .op | .opC | .opCa => 1024
  | .commErrh | .fileErrh | .winErrh | .sessionErrh => 256

/-- Where a create is: before the compare-exchange of a slot, in the
implementation's function with the trampoline of a slot, refused and before the
slot is nulled, returned without an object; or where its object is. One that
the application has freed the implementation may still hold. -/
inductive CreatePc
  | idle
  | alloc (slot : Nat)
  | target (slot : Nat)
  | release (slot : Nat)
  | failed
  | live (slot : Nat)
  | freed (slot : Nat)
deriving DecidableEq, Repr

/-- The slot that has been claimed and not given back. -/
def CreatePc.held : CreatePc → Option Nat
  | .target slot | .release slot | .live slot | .freed slot => some slot
  | _ => none

structure Creation where
  pool : Pool
  fn : UInt64
  pc : CreatePc
deriving DecidableEq, Repr

def Creation.holds (c : Creation) (pool : Pool) (slot : Nat) : Prop :=
  c.pool = pool ∧ c.pc.held = some slot

/-- The pools, the creates, and the trampoline calls so far: whose object, and
the function that ran. -/
structure PoolState where
  fn : Pool → Nat → UInt64
  creations : Nat → Creation
  invoked : List (Nat × UInt64)

/-- A create body is entered, makes one compare-exchange, gets its object from
the implementation or is refused it, and then runs `mpiwrapper_*_slot_release`.
The application frees the object, and the implementation calls its trampoline. -/
inductive PoolAct
  | create (i : Nat) (pool : Pool) (fn : UInt64)
  | cas (i : Nat)
  | accept (i : Nat)
  | refuse (i : Nat)
  | release (i : Nat)
  | free (i : Nat)
  | dispatch (i : Nat)
deriving DecidableEq, Repr

namespace PoolState

def init : PoolState := ⟨fun _ _ => 0, fun _ => ⟨.op, 0, .idle⟩, []⟩

def store (s : PoolState) (pool : Pool) (slot : Nat) (fn : UInt64) : PoolState :=
  { s with fn := Function.update s.fn pool (Function.update (s.fn pool) slot fn) }

def setPc (s : PoolState) (i : Nat) (pc : CreatePc) : PoolState :=
  { s with creations := Function.update s.creations i { s.creations i with pc := pc } }

/-- One turn of `mpiwrapper_*_slot_alloc`. -/
def casStep (s : PoolState) (i slot : Nat) : PoolState :=
  let c := s.creations i
  if s.fn c.pool slot = 0 then (s.store c.pool slot c.fn).setPc i (.target slot)
  else s.setPc i (if slot + 1 < c.pool.slots then .alloc (slot + 1) else .failed)

def step (s : PoolState) : PoolAct → Option PoolState
  | .create i pool fn =>
      if (s.creations i).pc = .idle then
        some { s with creations := Function.update s.creations i ⟨pool, fn, .alloc 0⟩ }
      else none
  | .cas i =>
      match (s.creations i).pc with
      | .alloc slot => some (s.casStep i slot)
      | _ => none
  | .accept i =>
      match (s.creations i).pc with
      | .target slot => some (s.setPc i (.live slot))
      | _ => none
  | .refuse i =>
      match (s.creations i).pc with
      | .target slot => some (s.setPc i (.release slot))
      | _ => none
  | .release i =>
      match (s.creations i).pc with
      | .release slot => some ((s.store (s.creations i).pool slot 0).setPc i .failed)
      | _ => none
  | .free i =>
      match (s.creations i).pc with
      | .live slot => some (s.setPc i (.freed slot))
      | _ => none
  | .dispatch i =>
      match (s.creations i).pc with
      | .live slot | .freed slot =>
          some { s with invoked := s.invoked ++ [(i, s.fn (s.creations i).pool slot)] }
      | _ => none

end PoolState

/-! ## What a run may be asked to keep to -/

/-- A compare-exchange succeeds on no slot that a create with a null function
holds. -/
def nullHoldsNot (s : PoolState) : PoolAct → Prop
  | .cas i => ∀ slot, (s.creations i).pc = .alloc slot →
      ∀ j, (s.creations j).holds (s.creations i).pool slot → (s.creations j).fn ≠ 0
  | _ => True

def fnGiven (_ : PoolState) : PoolAct → Prop
  | .create _ _ fn => fn ≠ 0
  | _ => True

instance (s : PoolState) (a : PoolAct) : Decidable (fnGiven s a) := by
  cases a <;> unfold fnGiven <;> infer_instance

end AbiWrapper.Ref
