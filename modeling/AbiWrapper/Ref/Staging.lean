import Mathlib.Logic.Function.Basic

/-!
# The request-keyed table of staged blocks (staging.c)

Temporaries that outlive their call live in an open-addressing table keyed by
the implementation's request handle. This file has the table, the two
operations on it, and the policy the generated bodies call.

Each operation is given twice. `attachStep` and `releaseStep` are one atomic
access each — a load, a compare-exchange, an exchange, a store or a counter
update — together with the local control flow up to the next one, which is the
grain at which threads interleave. `stagedAttach` and `stagedRelease` are the
same two loops run with nobody else about, which is what a single-threaded
caller sees. `StagedSteps.lean` proves that the second is the first run to the
end.

The number of slots is a parameter throughout: the source lets a build set
`MPIWRAPPER_STAGED_REQUEST_SLOTS`, and nothing here depends on its default.
-/

namespace AbiWrapper.Ref

/-- A heap block, named by the allocation it came from. -/
abbrev Block := Nat

/-- The default of `MPIWRAPPER_STAGED_REQUEST_SLOTS`. -/
def stagedRequestSlots : Nat := 1024

def keyEmpty : UInt64 := 0
def keyLocked : UInt64 := 0xffffffffffffffff
def keyTomb : UInt64 := 0xfffffffffffffffe

/-- The three values no implementation handle takes. -/
def reservedKey (key : UInt64) : Prop :=
  key = keyEmpty ∨ key = keyLocked ∨ key = keyTomb

instance (key : UInt64) : Decidable (reservedKey key) :=
  inferInstanceAs (Decidable (_ ∨ _))

/-- `staged_table` and `staged_live`. A null block is `none`. -/
structure StagedTable where
  key : Nat → UInt64
  block : Nat → Option Block
  live : Int

namespace StagedTable

/-- Static storage: every key `EMPTY`, every block null. -/
def init : StagedTable := ⟨fun _ => keyEmpty, fun _ => none, 0⟩

def setKey (t : StagedTable) (slot : Nat) (key : UInt64) : StagedTable :=
  { t with key := Function.update t.key slot key }

def setBlock (t : StagedTable) (slot : Nat) (block : Option Block) : StagedTable :=
  { t with block := Function.update t.block slot block }

def addLive (t : StagedTable) (n : Int) : StagedTable := { t with live := t.live + n }

variable {t : StagedTable} {slot : Nat}

@[simp] theorem setKey_key {key : UInt64} :
    (t.setKey slot key).key = Function.update t.key slot key := rfl
@[simp] theorem setKey_block {key : UInt64} : (t.setKey slot key).block = t.block := rfl
@[simp] theorem setKey_live {key : UInt64} : (t.setKey slot key).live = t.live := rfl
@[simp] theorem setBlock_key {block : Option Block} : (t.setBlock slot block).key = t.key := rfl
@[simp] theorem setBlock_block {block : Option Block} :
    (t.setBlock slot block).block = Function.update t.block slot block := rfl
@[simp] theorem setBlock_live {block : Option Block} :
    (t.setBlock slot block).live = t.live := rfl
@[simp] theorem addLive_key {n : Int} : (t.addLive n).key = t.key := rfl
@[simp] theorem addLive_block {n : Int} : (t.addLive n).block = t.block := rfl
@[simp] theorem addLive_live {n : Int} : (t.addLive n).live = t.live + n := rfl

end StagedTable

/-- Fibonacci hashing onto the table. -/
def stagedHome (slots : Nat) (key : UInt64) : Nat :=
  ((key * 0x9e3779b97f4a7c15) >>> 32).toNat % slots

def stagedAny (t : StagedTable) : Bool := t.live ≠ 0

inductive StagedFate
  | stored
  | duplicate
  | full
deriving DecidableEq, Repr

/-! ## Attaching, one atomic access at a time -/

/-- Where an attach is, by the access it makes next: the load of the key of its
`probe`-th slot, the compare-exchange of the `k` it has loaded, the store of the
block, the increment of `staged_live`. -/
inductive AttachPc
  | load (probe slot : Nat)
  | cas (probe slot : Nat) (k : UInt64)
  | store (slot : Nat)
  | count
  | ret (fate : StagedFate)
deriving DecidableEq, Repr

/-- The loop's increment and test: the next slot, or out of probes. -/
def attachNext (slots probe slot : Nat) : AttachPc :=
  if probe + 1 < slots then .load (probe + 1) ((slot + 1) % slots) else .ret .full

/-- The guard against a reserved key, and the loop's first test. -/
def attachStart (slots : Nat) (key : UInt64) : AttachPc :=
  if reservedKey key then .ret .duplicate
  else if 0 < slots then .load 0 (stagedHome slots key)
  else .ret .full

def attachStep (slots : Nat) (key : UInt64) (block : Option Block) :
    AttachPc → StagedTable → AttachPc × StagedTable
  | .load probe slot, t =>
      let k := t.key slot
      if k = keyEmpty ∨ k = keyTomb then (.cas probe slot k, t)
      else if k = key then (.ret .duplicate, t)
      else (attachNext slots probe slot, t)
  | .cas probe slot k, t =>
      if t.key slot = k then (.store slot, t.setKey slot key)
      else (attachNext slots probe slot, t)
  | .store slot, t => (.count, t.setBlock slot block)
  | .count, t => (.ret .stored, t.addLive 1)
  | .ret fate, t => (.ret fate, t)

/-! ## Releasing, one atomic access at a time -/

/-- Where a release is: about to load `staged_live` or a key, to claim the entry
(`key → LOCKED`), to exchange the block for null, to decrement `staged_live`, to
publish `TOMBSTONE`, or to free the block. -/
inductive ReleasePc
  | any
  | load (probe slot : Nat)
  | cas (slot : Nat)
  | swap (slot : Nat)
  | count (slot : Nat) (block : Option Block)
  | tomb (slot : Nat) (block : Option Block)
  | free (block : Option Block)
  | ret
deriving DecidableEq, Repr

def releaseNext (slots probe slot : Nat) : ReleasePc :=
  if probe + 1 < slots then .load (probe + 1) ((slot + 1) % slots) else .ret

/-- One access of a release, and the block the step frees, if it frees one. -/
def releaseStep (slots : Nat) (key : UInt64) :
    ReleasePc → StagedTable → ReleasePc × StagedTable × Option Block
  | .any, t =>
      if stagedAny t ∧ 0 < slots then (.load 0 (stagedHome slots key), t, none)
      else (.ret, t, none)
  | .load probe slot, t =>
      let k := t.key slot
      if k = keyEmpty then (.ret, t, none)
      else if k ≠ key then (releaseNext slots probe slot, t, none)
      else (.cas slot, t, none)
  | .cas slot, t =>
      if t.key slot = key then (.swap slot, t.setKey slot keyLocked, none)
      else (.ret, t, none)
  | .swap slot, t => (.count slot (t.block slot), t.setBlock slot none, none)
  | .count slot block, t => (.tomb slot block, t.addLive (-1), none)
  | .tomb slot block, t => (.free block, t.setKey slot keyTomb, none)
  | .free block, t => (.ret, t, block)
  | .ret, t => (.ret, t, none)

/-! ## The same two loops with nobody else about -/

/-- The probe loop of `mpiwrapper_staged_attach`, `left` probes from its end. -/
def attachLoop (slots : Nat) (key : UInt64) (block : Option Block) :
    Nat → Nat → StagedTable → StagedFate × StagedTable
  | 0, _, t => (.full, t)
  | left + 1, slot, t =>
      let k := t.key slot
      if k = keyEmpty ∨ k = keyTomb then
        (.stored, ((t.setKey slot key).setBlock slot block).addLive 1)
      else if k = key then (.duplicate, t)
      else attachLoop slots key block left ((slot + 1) % slots) t

def stagedAttach (slots : Nat) (key : UInt64) (block : Option Block)
    (t : StagedTable) : StagedFate × StagedTable :=
  if reservedKey key then (.duplicate, t)
  else attachLoop slots key block slots (stagedHome slots key) t

/-- The probe loop of `mpiwrapper_staged_release`. -/
def releaseLoop (slots : Nat) (key : UInt64) :
    Nat → Nat → StagedTable → StagedTable × Option Block
  | 0, _, t => (t, none)
  | left + 1, slot, t =>
      let k := t.key slot
      if k = keyEmpty then (t, none)
      else if k ≠ key then releaseLoop slots key left ((slot + 1) % slots) t
      else
        ((((t.setKey slot keyLocked).setBlock slot none).addLive (-1)).setKey slot keyTomb,
          t.block slot)

/-- `mpiwrapper_staged_release`: the table afterwards and the block freed. -/
def stagedRelease (slots : Nat) (key : UInt64) (t : StagedTable) :
    StagedTable × Option Block :=
  if stagedAny t then releaseLoop slots key slots (stagedHome slots key) t
  else (t, none)

/-! ## The policy -/

inductive StagedKind
  | nonblocking
  | persistent
deriving DecidableEq, Repr

/-- `PMPI_Request_get_status` as the policy sees it: the error code (zero is
success) and the flag. -/
structure GetStatus where
  ierror : Int
  flag : Bool
deriving DecidableEq, Repr

/-- `staged_is_complete`: any answer but a clean `flag = true` means not. -/
def stagedIsComplete (answer : GetStatus) : Bool :=
  answer.ierror = 0 ∧ answer.flag

/-- What became of the block, and what the caller is told: `ok = false` is the
full table, the one outcome that is the caller's error. -/
structure KeepResult where
  ok : Bool
  table : StagedTable
  freed : Option Block
  leaked : Bool

def stagedKeep (slots : Nat) (request : UInt64) (block : Option Block) (nstaged : Nat)
    (kind : StagedKind) (answer : GetStatus) (t : StagedTable) : KeepResult :=
  if nstaged = 0 then ⟨true, t, block, false⟩
  else if kind = .nonblocking ∧ stagedIsComplete answer then ⟨true, t, block, false⟩
  else
    match stagedAttach slots request block t with
    | (.stored, t') => ⟨true, t', none, false⟩
    | (.duplicate, t') => ⟨true, t', none, true⟩
    | (.full, t') => ⟨false, t', none, true⟩

/-! ## Histories -/

/-- A call of a single-threaded history. -/
inductive StagedCall
  | attach (key : UInt64) (block : Option Block)
  | release (key : UInt64)
deriving DecidableEq, Repr

/-- The table, and what the history says of it: the attaches that were stored
and whose key has not been released since. -/
structure StagedUse where
  table : StagedTable
  live : List (UInt64 × Option Block)

namespace StagedUse

def init : StagedUse := ⟨.init, []⟩

def liveKeys (s : StagedUse) : List UInt64 := s.live.map Prod.fst

def step (slots : Nat) (s : StagedUse) : StagedCall → Option StagedUse
  | .attach key block =>
      match stagedAttach slots key block s.table with
      | (.stored, t) => some ⟨t, (key, block) :: s.live⟩
      | (_, t) => some ⟨t, s.live⟩
  | .release key =>
      some ⟨(stagedRelease slots key s.table).1, s.live.filter fun e => e.1 ≠ key⟩

end StagedUse

end AbiWrapper.Ref
