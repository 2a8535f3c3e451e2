import AbiWrapper.Lib.Run
import Mathlib.Algebra.GroupWithZero.Nat

/-!
# The registration map of the MPI_T event callbacks (toolevents.c)

A registration handle has an entry of a table of 64. `find` loads `used` and
then `key` of one entry after the other; `intern` claims the first free entry
by a compare-exchange on `used` when a lookup has found none, stores the key
into it and nulls the rest, and looks once more when all are taken. The
trampoline of the free callback finds the entry and gives it back by a store
of 0. The accesses are atomic, and each is a label here, so the runs are the
interleavings of any number of calls.

The state has four things the code has not: which handle an entry was claimed
for last and by whom, while the key is still to be stored; how often an entry
has been given back by a handle, so that a number says which of the lives of a
recycled handle is meant; and what the calls have found and been answered.
-/

namespace AbiWrapper.Ref

open AbiWrapper.Lib

def eventSlots : Nat := 64

/-- The safety levels that a callback is registered for are four. -/
instance safetyLevels_ne_zero : NeZero 4 := ⟨by decide⟩

inductive EventField
  | cb (level : Fin 4)
  | cbData (level : Fin 4)
  | droppedFn
  | freeFn
  | freeData
deriving DecidableEq, Repr

/-- What is nulled in a new entry, in order. -/
def clearOrder : List EventField :=
  [.cb 0, .cbData 0, .cb 1, .cbData 1, .cb 2, .cbData 2, .cb 3, .cbData 3,
   .droppedFn, .freeFn, .freeData]

structure EventEntry where
  used : Bool
  key : UInt64
  field : EventField → UInt64

/-- What a lookup is made for: by `intern` before its scan for a free entry and
after it, by a trampoline, and by the trampoline of the free callback. -/
inductive Lookup
  | intern | internAgain | find | free
deriving DecidableEq, Repr

/-- Where a call is, by the access that comes next. -/
inductive EventPc
  | idle
  | loadUsed (lookup : Lookup) (key : UInt64) (slot : Nat)
  | loadKey (lookup : Lookup) (key : UInt64) (slot : Nat)
  | cas (key : UInt64) (slot : Nat)
  | storeKey (key : UInt64) (slot : Nat)
  | clear (key : UInt64) (slot : Nat) (rest : List EventField)
  | release (key : UInt64) (slot : Nat)
deriving DecidableEq, Repr

/-- The next turn of the loop of `find`, or what follows it. -/
def EventPc.findFrom (lookup : Lookup) (key : UInt64) (slot : Nat) : EventPc :=
  if slot < eventSlots then .loadUsed lookup key slot
  else if lookup = .intern then .cas key 0
  else .idle

/-- The next turn of the loop of `intern`, or what follows it. -/
def EventPc.casFrom (key : UInt64) (slot : Nat) : EventPc :=
  if slot < eventSlots then .cas key slot else .findFrom .internAgain key 0

/-- A match of a lookup, and the handle the entry had been claimed for. -/
structure EventFound where
  key : UInt64
  slot : Nat
  claimed : Option UInt64
deriving DecidableEq, Repr

/-- An entry that `intern` has returned, with the life of its handle when the
call began and when it ended. -/
structure EventInterned where
  key : UInt64
  slot : Nat
  began : Nat
  ended : Nat
deriving DecidableEq, Repr

/-- The table and the calls, with a history: for each entry the handle of its
last successful compare-exchange and the call that has yet to store the key, for
each handle how often 0 was stored to the `used` of its entry, and how often it
had been when a call began. -/
structure EventMap where
  events : Nat → EventEntry
  pc : Nat → EventPc
  claimed : Nat → Option UInt64
  writer : Nat → Option Nat
  lives : UInt64 → Nat
  began : Nat → Nat
  found : List EventFound
  interned : List EventInterned

/-- A lookup is begun or makes one atomic access; a caller stores into an entry
it has been given. -/
inductive EventAct
  | call (i : Nat) (lookup : Lookup) (key : UInt64)
  | tick (i : Nat)
  | set (slot : Nat) (field : EventField) (value : UInt64)
deriving DecidableEq, Repr

namespace EventMap

def init : EventMap :=
  ⟨fun _ => ⟨false, 0, fun _ => 0⟩, fun _ => .idle, fun _ => none, fun _ => none,
    fun _ => 0, fun _ => 0, [], []⟩

def setPc (s : EventMap) (i : Nat) (pc : EventPc) : EventMap :=
  { s with pc := Function.update s.pc i pc }

def setEntry (s : EventMap) (slot : Nat) (e : EventEntry) : EventMap :=
  { s with events := Function.update s.events slot e }

def storeField (s : EventMap) (slot : Nat) (field : EventField) (value : UInt64) : EventMap :=
  s.setEntry slot
    { s.events slot with field := Function.update (s.events slot).field field value }

def answer (s : EventMap) (i : Nat) (key : UInt64) (slot : Nat) : EventMap :=
  { s.setPc i .idle with interned := s.interned ++ [⟨key, slot, s.began i, s.lives key⟩] }

def meet (s : EventMap) (i : Nat) (lookup : Lookup) (key : UInt64) (slot : Nat) : EventMap :=
  { (match lookup with
    | .intern | .internAgain => s.answer i key slot
    | .find => s.setPc i .idle
    | .free => s.setPc i (.release key slot)) with
    found := s.found ++ [⟨key, slot, s.claimed slot⟩] }

/-- The compare-exchange that found 0. -/
def claim (s : EventMap) (i : Nat) (key : UInt64) (slot : Nat) : EventMap :=
  { (s.setEntry slot { s.events slot with used := true }).setPc i (.storeKey key slot) with
    claimed := Function.update s.claimed slot (some key)
    writer := Function.update s.writer slot (some i) }

def storeKey (s : EventMap) (i : Nat) (key : UInt64) (slot : Nat) : EventMap :=
  { (s.setEntry slot { s.events slot with key := key }).setPc i (.clear key slot clearOrder) with
    writer := Function.update s.writer slot none }

def release (s : EventMap) (i : Nat) (key : UInt64) (slot : Nat) : EventMap :=
  { (s.setEntry slot { s.events slot with used := false }).setPc i .idle with
    lives := Function.update s.lives key (s.lives key + 1) }

def step (s : EventMap) : EventAct → Option EventMap
  | .call i lookup key =>
      if s.pc i = .idle ∧ lookup ≠ .internAgain then
        some { s.setPc i (.findFrom lookup key 0) with
          began := Function.update s.began i (s.lives key) }
      else none
  | .tick i =>
      match s.pc i with
      | .idle => none
      | .loadUsed lookup key slot =>
          some (s.setPc i (if (s.events slot).used then .loadKey lookup key slot
            else .findFrom lookup key (slot + 1)))
      | .loadKey lookup key slot =>
          some (if (s.events slot).key = key then s.meet i lookup key slot
            else s.setPc i (.findFrom lookup key (slot + 1)))
      | .cas key slot =>
          some (if (s.events slot).used then s.setPc i (.casFrom key (slot + 1))
            else s.claim i key slot)
      | .storeKey key slot => some (s.storeKey i key slot)
      | .clear key slot [] => some (s.answer i key slot)
      | .clear key slot (field :: rest) =>
          some ((s.storeField slot field 0).setPc i (.clear key slot rest))
      | .release key slot => some (s.release i key slot)
  | .set slot field value => some (s.storeField slot field value)

end EventMap

/-! ## What a run may be asked to keep to -/

/-- An entry is claimed for a handle only while none in use has been; a key
that matches is loaded only from an entry whose claim has stored its own; and
an entry is given back only while it is still the handle's. -/
def oneClaim (s : EventMap) : EventAct → Prop
  | .tick i =>
      match s.pc i with
      | .cas key slot => (s.events slot).used = false →
          ∀ k, k < eventSlots → (s.events k).used = true → s.claimed k ≠ some key
      | .loadKey _ key slot => (s.events slot).key = key → s.writer slot = none
      | .release key slot => s.claimed slot = some key ∧ s.writer slot = none
      | _ => True
  | _ => True

instance (s : EventMap) (a : EventAct) : Decidable (oneClaim s a) := by
  cases a with
  | tick i =>
      unfold oneClaim
      dsimp only
      split <;> infer_instance
  | _ => exact isTrue trivial

end AbiWrapper.Ref
