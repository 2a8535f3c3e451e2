import AbiWrapper.Lib.Run
import AbiWrapper.Lib.Ring
import AbiWrapper.Ref.Staging

/-!
# Operations interleaving on the staged table

The table of `Staging.lean` as several threads use it. An operation is one
incarnation of a request handle: the implementation hands the handle out, a
body attaches a block under it (or stages nothing), the implementation
completes the operation and nulls the handle, and a completion body releases
the handle it had saved. Which thread runs which of these does not matter to
the table, so the state has a program counter per operation and none per
thread; a thread is any selection of calls from them.

Every label is one atomic access or one call boundary, so the label lists are
exactly the interleavings. Operation `i` attaches block `i`.

The implementation may hand a handle out again once it has nulled it, and that
is before the release of the earlier incarnation has run. `implOk` is that
discipline and nothing more.
-/

namespace AbiWrapper.Ref

open AbiWrapper.Lib

/-- Where an operation is. An attach that has returned leaves its operation in
flight, as `attaching (.ret fate)`; the fate a later `nulled` or `releasing`
carries is the history of that, which no release reads. One that is `plain` is
in flight and staged nothing. -/
inductive OpPc
  | fresh
  | handed
  | attaching (pc : AttachPc)
  | plain
  | nulled (fate : Option StagedFate)
  | releasing (fate : Option StagedFate) (pc : ReleasePc)
deriving DecidableEq, Repr

/-- The table, the operations with their handles, and who freed which block, in
order. -/
structure OpsState where
  table : StagedTable
  nops : Nat
  key : Nat → UInt64
  pc : Nat → OpPc
  freed : List (Nat × Block)

/-- The implementation hands out a handle to a new operation; its block is
attached, or its body stages nothing; the implementation completes the operation
and nulls its handle; the block is released with the saved handle. A tick is one
atomic access. -/
inductive OpAct
  | handOut (h : UInt64)
  | attach (i : Nat)
  | plain (i : Nat)
  | attachTick (i : Nat)
  | null (i : Nat)
  | release (i : Nat)
  | releaseTick (i : Nat)
deriving DecidableEq, Repr

namespace OpsState

def init : OpsState := ⟨.init, 0, fun _ => 0, fun _ => .fresh, []⟩

/-- The state after operation `i` has moved to `pc`, the table to `table`, and
the frees to `freed`. -/
def moved (s : OpsState) (i : Nat) (pc : OpPc) (table : StagedTable)
    (freed : List (Nat × Block)) : OpsState :=
  { s with pc := Function.update s.pc i pc, table := table, freed := freed }

def setPc (s : OpsState) (i : Nat) (pc : OpPc) : OpsState := s.moved i pc s.table s.freed

/-- The state after a new operation has been handed `h`. -/
def handedOut (s : OpsState) (h : UInt64) : OpsState :=
  { s with
    nops := s.nops + 1
    key := Function.update s.key s.nops h
    pc := Function.update s.pc s.nops .handed }

def step (slots : Nat) (s : OpsState) : OpAct → Option OpsState
  | .handOut h => some (s.handedOut h)
  | .attach i =>
      if s.pc i = .handed then some (s.setPc i (.attaching (attachStart slots (s.key i))))
      else none
  | .plain i => if s.pc i = .handed then some (s.setPc i .plain) else none
  | .attachTick i =>
      match s.pc i with
      | .attaching (.ret _) => none
      | .attaching pc =>
          let (pc', t') := attachStep slots (s.key i) (some i) pc s.table
          some (s.moved i (.attaching pc') t' s.freed)
      | _ => none
  | .null i =>
      match s.pc i with
      | .attaching (.ret fate) => some (s.setPc i (.nulled (some fate)))
      | .plain => some (s.setPc i (.nulled none))
      | _ => none
  | .release i =>
      match s.pc i with
      | .nulled fate => some (s.setPc i (.releasing fate .any))
      | _ => none
  | .releaseTick i =>
      match s.pc i with
      | .releasing _ .ret => none
      | .releasing fate pc =>
          let (pc', t', block) := releaseStep slots (s.key i) pc s.table
          some (s.moved i (.releasing fate pc') t'
            (s.freed ++ (block.map fun b => (i, b)).toList))
      | _ => none

variable {slots i : Nat} {s s' : OpsState}

theorem step_attachTick (h : step slots s (.attachTick i) = some s') :
    ∃ pc, s.pc i = .attaching pc ∧ (∀ fate, pc ≠ .ret fate) ∧
      s' = s.moved i (.attaching (attachStep slots (s.key i) (some i) pc s.table).1)
        (attachStep slots (s.key i) (some i) pc s.table).2 s.freed := by
  simp only [step] at h
  split at h
  · exact nomatch h
  · next pc hret hpc => exact ⟨pc, hpc, hret, (Option.some.inj h).symm⟩
  · exact nomatch h

theorem step_releaseTick (h : step slots s (.releaseTick i) = some s') :
    ∃ fate pc, s.pc i = .releasing fate pc ∧ pc ≠ .ret ∧
      s' = s.moved i (.releasing fate (releaseStep slots (s.key i) pc s.table).1)
        (releaseStep slots (s.key i) pc s.table).2.1
        (s.freed ++ ((releaseStep slots (s.key i) pc s.table).2.2.map
          fun b => (i, b)).toList) := by
  simp only [step] at h
  split at h
  · exact nomatch h
  · next fate pc hret hpc => exact ⟨fate, pc, hpc, hret, (Option.some.inj h).symm⟩
  · exact nomatch h

theorem step_attach (h : step slots s (.attach i) = some s') :
    s.pc i = .handed ∧ s' = s.setPc i (.attaching (attachStart slots (s.key i))) := by
  simp only [step] at h
  split at h
  · next hpc => exact ⟨hpc, (Option.some.inj h).symm⟩
  · exact nomatch h

theorem step_plain (h : step slots s (.plain i) = some s') :
    s.pc i = .handed ∧ s' = s.setPc i .plain := by
  simp only [step] at h
  split at h
  · next hpc => exact ⟨hpc, (Option.some.inj h).symm⟩
  · exact nomatch h

theorem step_null (h : step slots s (.null i) = some s') :
    (∃ fate, s.pc i = .attaching (.ret fate) ∧ s' = s.setPc i (.nulled (some fate))) ∨
      (s.pc i = .plain ∧ s' = s.setPc i (.nulled none)) := by
  simp only [step] at h
  split at h
  · next fate hpc => exact .inl ⟨fate, hpc, (Option.some.inj h).symm⟩
  · next hpc => exact .inr ⟨hpc, (Option.some.inj h).symm⟩
  · exact nomatch h

theorem step_release (h : step slots s (.release i) = some s') :
    ∃ fate, s.pc i = .nulled fate ∧ s' = s.setPc i (.releasing fate .any) := by
  simp only [step] at h
  split at h
  · next fate hpc => exact ⟨fate, hpc, (Option.some.inj h).symm⟩
  · exact nomatch h

end OpsState

/-! ## What an operation is, at each of its program counters -/

namespace OpPc

/-- From being handed out to being nulled. -/
def inFlight : OpPc → Bool
  | .handed | .attaching _ | .plain => true
  | _ => false

/-- Attached and not released. -/
def attached : OpPc → Bool
  | .attaching (.ret .stored) | .nulled (some .stored) => true
  | _ => false

def midCall : OpPc → Bool
  | .attaching (.ret _) => false
  | .attaching _ => true
  | .releasing _ .ret => false
  | .releasing _ _ => true
  | _ => false

/-- The lifetime of an operation, from the start of its attach to the end of
its release. One whose attach stored nothing has nothing to release and is
over when that attach returns, until its handle is released all the same. -/
def alive : OpPc → Bool
  | .attaching (.ret fate) => fate = .stored
  | .attaching _ => true
  | .nulled fate => fate = some .stored
  | .releasing _ .ret => false
  | .releasing _ _ => true
  | _ => false

/-- The operation's entry is in the table under its handle: from the
compare-exchange of its attach to the compare-exchange of a release. -/
def holds : OpPc → Bool
  | .attaching (.store _) | .attaching .count | .attaching (.ret .stored) => true
  | .nulled (some .stored) => true
  | .releasing (some .stored) .any => true
  | .releasing (some .stored) (.load _ _) => true
  | .releasing (some .stored) (.cas _) => true
  | _ => false

/-- The operation's attach has counted its entry in `staged_live` and no
release has uncounted it. -/
def counted : OpPc → Bool
  | .attaching (.ret .stored) | .nulled (some .stored) => true
  | .releasing (some .stored) .any => true
  | .releasing (some .stored) (.load _ _) => true
  | .releasing (some .stored) (.cas _) => true
  | .releasing (some .stored) (.swap _) => true
  | .releasing (some .stored) (.count _ _) => true
  | _ => false

/-- The operation's attach has claimed a slot, so that it will answer or has
answered `STORED`. -/
def committed : OpPc → Bool
  | .attaching (.store _) | .attaching .count | .attaching (.ret .stored) => true
  | .nulled fate | .releasing fate _ => fate = some .stored
  | _ => false

/-- What the operation's attach answered, once it has. -/
def fate : OpPc → Option StagedFate
  | .attaching (.ret fate) => some fate
  | .nulled fate | .releasing fate _ => fate
  | _ => none

/-- The block a release has taken out of the table and not yet freed. -/
def carried : OpPc → Option Block
  | .releasing _ (.count _ block) | .releasing _ (.tomb _ block)
  | .releasing _ (.free block) => block
  | _ => none

/-- The release of the operation's handle has returned. -/
def released : OpPc → Bool
  | .releasing _ .ret => true
  | _ => false

/-- The operation's attach answered `STORED`. -/
def stored (pc : OpPc) : Bool := pc.fate = some .stored

theorem alive_of_holds {pc : OpPc} (h : pc.holds = true) : pc.alive = true := by
  unfold holds at h
  split at h <;> first | rfl | exact absurd h (by decide)

end OpPc

/-! ## What a run may be asked to keep to -/

/-- No operation but `i` that has `i`'s handle satisfies `phase`. -/
def noneElse (phase : OpPc → Bool) (s : OpsState) (i : Nat) : Prop :=
  ∀ j, j < s.nops → j ≠ i → s.key j = s.key i → phase (s.pc j) = false

instance (phase : OpPc → Bool) (s : OpsState) (i : Nat) : Decidable (noneElse phase s i) :=
  inferInstanceAs (Decidable (∀ j, j < s.nops → _))

/-- No handle is one of the three reserved values. -/
def keysOk (_ : OpsState) : OpAct → Prop
  | .handOut h => ¬ reservedKey h
  | _ => True

/-- The implementation hands out a handle that no operation in flight holds,
and never one of the three reserved values. -/
def implOk (s : OpsState) : OpAct → Prop
  | .handOut h => ¬ reservedKey h ∧
      ∀ j, j < s.nops → s.key j = h → (s.pc j).inFlight = false
  | _ => True

/-- A compare-exchange claims no slot for a handle of which an earlier
incarnation's entry is still in the table, and no entry for the release of an
incarnation that stored none. -/
def recycleOk (s : OpsState) : OpAct → Prop
  | .attachTick i =>
      match s.pc i with
      | .attaching (.cas _ slot k) => s.table.key slot = k → noneElse OpPc.holds s i
      | _ => True
  | .releaseTick i =>
      match s.pc i with
      | .releasing fate (.cas slot) => s.table.key slot = s.key i → fate = some .stored
      | _ => True
  | _ => True

/-- A lifetime begins only where no other of the same handle is running. -/
def nonOverlap (s : OpsState) : OpAct → Prop
  | .attach i | .release i => noneElse OpPc.alive s i
  | _ => True

instance (s : OpsState) (a : OpAct) : Decidable (keysOk s a) := by
  cases a <;> unfold keysOk <;> infer_instance

instance (s : OpsState) (a : OpAct) : Decidable (implOk s a) := by
  cases a <;> unfold implOk <;> infer_instance

instance (s : OpsState) (a : OpAct) : Decidable (nonOverlap s a) := by
  cases a <;> unfold nonOverlap <;> infer_instance

instance (s : OpsState) (a : OpAct) : Decidable (recycleOk s a) := by
  cases a with
  | attachTick i | releaseTick i =>
      unfold recycleOk
      dsimp only
      split <;> infer_instance
  | _ => exact isTrue trivial

end AbiWrapper.Ref
