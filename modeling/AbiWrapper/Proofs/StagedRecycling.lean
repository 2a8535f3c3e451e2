import AbiWrapper.Proofs.StagedDistinct

/-!
# Recycled handles

An implementation may hand a handle out again as soon as it has nulled it,
which is before the wrapper has released the earlier incarnation: the
completion bodies release the saved handle after the implementation's call has
returned. In between, the table still has the earlier incarnation's entry, and
the later incarnation's attach may run.

If that attach scans past the old entry it answers `DUPLICATE`, and the block
leaks. But it claims the first free slot it sees, and a tombstone may lie
before the old entry. Then the handle has two entries, the pending release
finds the younger one first, and it frees the block of the operation that is
still in flight. The lock word of the table does not help: it protects an
entry that is being emptied, and here nobody has locked anything yet.

`recycleOk` excludes the compare-exchanges that set this up, and every run that
keeps to it frees its own blocks only. An implementation that hands a handle out
again only when its release has returned keeps to it.
-/

namespace AbiWrapper.Ref

open AbiWrapper.Lib

/-- Each release has freed only the block attached for the incarnation being
released, and nobody has freed the block of an operation in flight. -/
def FreesOwn (s : OpsState) : Prop :=
  ∀ p, p ∈ s.freed → p.2 = p.1 ∧ (s.pc p.2).inFlight = false

instance (s : OpsState) : Decidable (FreesOwn s) :=
  inferInstanceAs (Decidable (∀ p, p ∈ s.freed → _))

theorem OpsInv.freesOwn {slots : Nat} {own : Nat → Option Nat} {s : OpsState}
    (h : OpsInv slots own s) : FreesOwn s := by
  intro p hp
  obtain ⟨hown, hpc⟩ := h.freed p hp
  refine ⟨hown, ?_⟩
  rw [hown, hpc]
  rfl

theorem keysOk_of_implOk {s : OpsState} {a : OpAct} (h : implOk s a) : keysOk s a := by
  cases a with
  | handOut key => exact h.1
  | _ => trivial

/-- In every run in which no compare-exchange claims across a pending release
of the same handle, each release frees its own incarnation's block. -/
theorem recycled_blocks_survive {slots : Nat} {run : List OpAct} {s : OpsState}
    (himpl : Meets (OpsState.step slots) implOk .init run)
    (hrec : Meets (OpsState.step slots) recycleOk .init run)
    (he : exec (OpsState.step slots) .init run = some s) : FreesOwn s := by
  have hkeys := himpl.mono fun s a => keysOk_of_implOk (s := s) (a := a)
  obtain ⟨own, h⟩ := OpsInv.run (hkeys.and hrec) he
  exact h.freesOwn

/-! ## Handles that are released first -/

/-- From being handed out until the release of the handle has returned. -/
def OpPc.unreleased : OpPc → Bool
  | .fresh | .releasing _ .ret => false
  | _ => true

/-- No handle is handed out again before its release has returned. -/
def releasedFirst (s : OpsState) : OpAct → Prop
  | .handOut h => ∀ j, j < s.nops → s.key j = h → (s.pc j).unreleased = false
  | _ => True

theorem OpPc.unreleased_of_alive {pc : OpPc} (h : pc.alive = true) : pc.unreleased = true := by
  cases pc with
  | fresh => cases h
  | releasing fate pc =>
      cases pc with
      | ret => cases h
      | _ => rfl
  | _ => rfl

theorem aliveUniq_of_unreleased {s : OpsState} (h : PhaseUniq OpPc.unreleased s) : AliveUniq s :=
  fun i j hi hj => h i j (OpPc.unreleased_of_alive hi) (OpPc.unreleased_of_alive hj)

/-- A handle that is handed out has no other unreleased operation, and whoever
moves on is the one of its handle. -/
theorem unreleased_step {slots : Nat} {own : Nat → Option Nat} {s s' : OpsState} {a : OpAct}
    (hinv : OpsInv slots own s) (h : PhaseUniq OpPc.unreleased s) (hg : releasedFirst s a)
    (hs : OpsState.step slots s a = some s') : PhaseUniq OpPc.unreleased s' := by
  have move : ∀ {i : Nat} {pc : OpPc} {t : StagedTable} {freed : List (Nat × Block)},
      (s.pc i).unreleased = true → PhaseUniq OpPc.unreleased (s.moved i pc t freed) :=
    fun hi => h.moved fun _ => h.others hi
  cases a with
  | handOut key =>
      obtain rfl := Option.some.inj hs
      refine h.handedOut fun _ j _ hk => ?_
      rcases Nat.lt_or_ge j s.nops with hlt | hge
      · exact hg j hlt hk
      · rw [hinv.fresh j hge]
        rfl
  | attach i =>
      obtain ⟨hpc, rfl⟩ := OpsState.step_attach hs
      exact move (by rw [hpc]; rfl)
  | plain i =>
      obtain ⟨hpc, rfl⟩ := OpsState.step_plain hs
      exact move (by rw [hpc]; rfl)
  | attachTick i =>
      obtain ⟨pc, hpc, -, rfl⟩ := OpsState.step_attachTick hs
      exact move (by rw [hpc]; rfl)
  | null i =>
      rcases OpsState.step_null hs with ⟨fate, hpc, rfl⟩ | ⟨hpc, rfl⟩
      · exact move (by rw [hpc]; rfl)
      · exact move (by rw [hpc]; rfl)
  | release i =>
      obtain ⟨fate, hpc, rfl⟩ := OpsState.step_release hs
      exact move (by rw [hpc]; rfl)
  | releaseTick i =>
      obtain ⟨fate, pc, hpc, hret, rfl⟩ := OpsState.step_releaseTick hs
      refine move ?_
      rw [hpc]
      cases pc with
      | ret => exact absurd rfl hret
      | _ => rfl

/-- What every state of such a run satisfies. -/
def ReleasedInv (slots : Nat) (s : OpsState) : Prop :=
  (∃ own, OpsInv slots own s) ∧ PhaseUniq OpPc.unreleased s

theorem ReleasedInv.init {slots : Nat} : ReleasedInv slots .init :=
  ⟨⟨_, .init⟩, fun _ _ hi => nomatch hi⟩

theorem ReleasedInv.step {slots : Nat} {s s' : OpsState} {a : OpAct} (h : ReleasedInv slots s)
    (hg : implOk s a ∧ releasedFirst s a) (hs : OpsState.step slots s a = some s') :
    ReleasedInv slots s' := by
  obtain ⟨⟨own, hinv⟩, huniq⟩ := h
  have hrec := (aliveUniq_of_unreleased huniq).recycleOk hinv a
  exact ⟨hinv.step (keysOk_of_implOk hg.1) hrec hs, unreleased_step hinv huniq hg.2 hs⟩

/-- An implementation that waits for the releases needs no other condition. -/
theorem released_first_survive {slots : Nat} {run : List OpAct} {s : OpsState}
    (himpl : Meets (OpsState.step slots) implOk .init run)
    (hfirst : Meets (OpsState.step slots) releasedFirst .init run)
    (he : exec (OpsState.step slots) .init run = some s) : FreesOwn s := by
  obtain ⟨⟨own, h⟩, -⟩ := exec_invariant (fun _ _ _ h hg hs => ReleasedInv.step h hg hs)
    ReleasedInv.init (himpl.and hfirst) he
  exact h.freesOwn

/-! ## Two runs -/

/-- Operation 1 gets its handle again while operation 0 has not released it,
and attaches after operation 0's release has claimed its entry. -/
def recycledInTime : List OpAct := List.flatten
  [[.handOut 2226, .attach 0], List.replicate 4 (.attachTick 0),
   [.null 0, .handOut 2226, .release 0], List.replicate 3 (.releaseTick 0),
   [.attach 1], List.replicate 5 (.attachTick 1), List.replicate 4 (.releaseTick 0),
   [.null 1, .release 1], List.replicate 8 (.releaseTick 1)]

theorem recycledInTime_survives :
    ∃ s, exec (OpsState.step stagedRequestSlots) .init recycledInTime = some s ∧
      s.freed = [(0, 0), (1, 1)] ∧ FreesOwn s := by
  obtain ⟨s, hs⟩ := Option.isSome_iff_exists.mp
    (by decide +kernel :
      (exec (OpsState.step stagedRequestSlots) .init recycledInTime).isSome = true)
  have hfreed : (exec (OpsState.step stagedRequestSlots) .init recycledInTime).map
      (·.freed) = some [(0, 0), (1, 1)] := by decide +kernel
  rw [hs] at hfreed
  exact ⟨s, hs, Option.some.inj hfreed,
    recycled_blocks_survive (by decide +kernel) (by decide +kernel) hs⟩

/-- The handles 1173 and 2226 share a home. Operation 0 leaves a tombstone on
it, operation 1's entry is one further, and operation 2 gets operation 1's
handle before operation 1 has released it. -/
def recycledTooEarly : List OpAct := List.flatten
  [[.handOut 1173, .attach 0], List.replicate 4 (.attachTick 0),
   [.handOut 2226, .attach 1], List.replicate 5 (.attachTick 1),
   [.null 0, .release 0], List.replicate 7 (.releaseTick 0),
   [.null 1, .handOut 2226, .attach 2], List.replicate 4 (.attachTick 2),
   [.release 1], List.replicate 7 (.releaseTick 1)]

/-- Operation 1's release frees the block of operation 2, which is in flight. -/
theorem recycledTooEarly_frees_in_flight :
    ¬ ∀ (run : List OpAct) (s : OpsState),
        Meets (OpsState.step stagedRequestSlots) implOk .init run →
        exec (OpsState.step stagedRequestSlots) .init run = some s → FreesOwn s := by
  intro hall
  have hbad : (exec (OpsState.step stagedRequestSlots) .init recycledTooEarly).map
      (fun s => decide (FreesOwn s)) = some false := by decide +kernel
  obtain ⟨s, hs, hf⟩ := Option.map_eq_some_iff.mp hbad
  exact of_decide_eq_false hf (hall _ s (by decide +kernel) hs)

end AbiWrapper.Ref
