import AbiWrapper.Proofs.StagedInvariant

/-!
# Operations of one handle that do not overlap

Where no two lifetimes of one handle overlap, a run keeps to `recycleOk` of its
own accord: whoever could have an entry of the handle in the table is alive,
and there is one of those at most. So the invariant of `StagedInvariant.lean`
holds in every such run, and what a user of the table wants to know is read
off it: no block is lost, freed twice or freed by somebody else's release, and
between calls the live counter is exact.

Two further facts are about how a run goes on rather than about a state. Keys
do not go back to `EMPTY`, and an attach that claimed nothing wrote nothing.
-/

namespace AbiWrapper.Ref

open AbiWrapper.Lib

/-- Of one handle, at most one operation is alive. -/
def AliveUniq (s : OpsState) : Prop :=
  ∀ i j, (s.pc i).alive = true → (s.pc j).alive = true → s.key i = s.key j → i = j

variable {slots : Nat} {own : Nat → Option Nat} {s s' : OpsState} {i : Nat}

theorem noneElse_all (h : OpsInv slots own s) (hn : noneElse OpPc.alive s i) :
    ∀ j, j ≠ i → s.key j = s.key i → (s.pc j).alive = false := by
  intro j hj hk
  by_cases hlt : j < s.nops
  · exact hn j hlt hj hk
  · rw [h.fresh j (by omega)]
    rfl

theorem AliveUniq.phaseUniq (ha : AliveUniq s) : PhaseUniq OpPc.alive s := ha

theorem AliveUniq.moved (ha : AliveUniq s) {pc : OpPc} {t : StagedTable}
    {freed : List (Nat × Block)}
    (hpc : pc.alive = true → (s.pc i).alive = true ∨
      ∀ j, j ≠ i → s.key j = s.key i → (s.pc j).alive = false) :
    AliveUniq (s.moved i pc t freed) := by
  refine ha.phaseUniq.moved fun hp => ?_
  rcases hpc hp with hi | hn
  · exact ha.phaseUniq.others hi
  · exact hn

theorem AliveUniq.step (h : OpsInv slots own s) (ha : AliveUniq s) {a : OpAct}
    (hn : nonOverlap s a) (hs : OpsState.step slots s a = some s') : AliveUniq s' := by
  cases a with
  | handOut key =>
      obtain rfl := Option.some.inj hs
      exact ha.phaseUniq.handedOut nofun
  | attach i =>
      obtain ⟨-, rfl⟩ := OpsState.step_attach hs
      exact ha.moved fun _ => .inr (noneElse_all h hn)
  | plain i =>
      obtain ⟨-, rfl⟩ := OpsState.step_plain hs
      exact ha.moved fun hp => nomatch hp
  | attachTick i =>
      obtain ⟨pc, hpc, hret, rfl⟩ := OpsState.step_attachTick hs
      refine ha.moved fun _ => .inl ?_
      rw [hpc]
      cases pc with
      | ret fate => exact absurd rfl (hret fate)
      | _ => rfl
  | null i =>
      rcases OpsState.step_null hs with ⟨fate, hpc, rfl⟩ | ⟨hpc, rfl⟩
      · refine ha.moved fun hp => .inl ?_
        rw [hpc]
        simpa [OpPc.alive] using hp
      · exact ha.moved fun hp => nomatch hp
  | release i =>
      obtain ⟨fate, -, rfl⟩ := OpsState.step_release hs
      exact ha.moved fun _ => .inr (noneElse_all h hn)
  | releaseTick i =>
      obtain ⟨fate, pc, hpc, hret, rfl⟩ := OpsState.step_releaseTick hs
      refine ha.moved fun _ => .inl ?_
      rw [hpc]
      cases pc with
      | ret => exact absurd rfl hret
      | _ => rfl

/-- Without overlap nothing is claimed across a pending release. -/
theorem AliveUniq.recycleOk (h : OpsInv slots own s) (ha : AliveUniq s) (a : OpAct) :
    recycleOk s a := by
  cases a with
  | attachTick i =>
      simp only [Ref.recycleOk]
      split
      · next probe slot k hpc =>
          intro _ j _ hj hk
          cases hh : (s.pc j).holds with
          | false => rfl
          | true =>
              exact absurd (ha j i (OpPc.alive_of_holds hh) (by rw [hpc]; rfl) hk) hj
      · trivial
  | releaseTick i =>
      simp only [Ref.recycleOk]
      split
      · next fate slot hpc =>
          intro hk
          have hi : i < s.nops := h.lt_nops (by simp [hpc])
          obtain ⟨j, -, hh, hkey⟩ := h.owner_of_key hi hk
          obtain rfl := ha j i (OpPc.alive_of_holds hh) (by rw [hpc]; rfl) hkey
          rw [hpc] at hh
          rcases fate with _ | _ | _ | _
          · cases hh
          · rfl
          · cases hh
          · cases hh
      · trivial
  | _ => trivial

/-- The labels of a run in which lifetimes of one handle do not overlap. -/
def distinctOk (s : OpsState) (a : OpAct) : Prop := keysOk s a ∧ nonOverlap s a

instance (s : OpsState) (a : OpAct) : Decidable (distinctOk s a) :=
  inferInstanceAs (Decidable (_ ∧ _))

/-- What every state of such a run satisfies. -/
def DistinctInv (slots : Nat) (s : OpsState) : Prop := (∃ own, OpsInv slots own s) ∧ AliveUniq s

theorem DistinctInv.init : DistinctInv slots .init := ⟨⟨_, .init⟩, fun _ _ hi => nomatch hi⟩

theorem DistinctInv.step (h : DistinctInv slots s) {a : OpAct} (hg : distinctOk s a)
    (hs : OpsState.step slots s a = some s') : DistinctInv slots s' := by
  obtain ⟨⟨own, hinv⟩, ha⟩ := h
  exact ⟨hinv.step hg.1 (ha.recycleOk hinv a) hs, ha.step hinv hg.2 hs⟩

theorem DistinctInv.run {run : List OpAct} (h : DistinctInv slots s)
    (hm : Meets (OpsState.step slots) distinctOk s run)
    (he : exec (OpsState.step slots) s run = some s') : DistinctInv slots s' :=
  exec_invariant (fun _ _ _ h hg hs => h.step hg hs) h hm he

/-! ## What is read off a state -/

/-- A stored block is in the table, in the hands of its own release, or freed. -/
theorem OpsInv.not_lost (h : OpsInv slots own s) (hs : (s.pc i).stored = true) :
    (∃ slot, slot < slots ∧ own i = some slot ∧ s.table.block slot = some i) ∨
      (s.pc i).carried = some i ∨ (i, i) ∈ s.freed := by
  have hop := h.op i
  have hfate : (s.pc i).fate = some .stored := of_decide_eq_true hs
  cases hpc : s.pc i with
  | fresh | handed | plain => rw [hpc] at hfate; exact nomatch hfate
  | attaching pc =>
      rw [hpc] at hfate hop
      cases pc with
      | ret fate =>
          obtain rfl := Option.some.inj hfate
          obtain ⟨slot, d, ho, hp, hb⟩ := hop
          exact .inl ⟨slot, hp.1.slot_lt, ho, hb⟩
      | _ => exact nomatch hfate
  | nulled fate =>
      rw [hpc] at hfate hop
      obtain rfl := hfate
      obtain ⟨slot, d, ho, hp, hb⟩ := hop
      exact .inl ⟨slot, hp.1.slot_lt, ho, hb⟩
  | releasing fate pc =>
      rw [hpc] at hfate hop
      obtain rfl := hfate
      cases pc with
      | any =>
          obtain ⟨slot, d, ho, hp, hb⟩ := hop
          exact .inl ⟨slot, hp.1.slot_lt, ho, hb⟩
      | load probe slot =>
          obtain ⟨-, o, d, ho, hp, hb, -⟩ := hop
          exact .inl ⟨o, hp.1.slot_lt, ho, hb⟩
      | cas slot =>
          obtain ⟨ho, ⟨d, hp⟩, hb⟩ := hop
          exact .inl ⟨slot, hp.1.slot_lt, ho, hb⟩
      | swap slot => exact .inl ⟨slot, hop.2.2.2, hop.1, hop.2.2.1⟩
      | count slot block => exact .inr (.inl hop.2.2)
      | tomb slot block => exact .inr (.inl hop.2.2)
      | free block => exact .inr (.inl hop.2)
      | ret => exact .inr (.inr hop.2)

/-- Between calls the entries counted are those attached and not released. -/
theorem counted_of_quiet {pc : OpPc} (hq : pc.midCall = false) : pc.counted = pc.attached := by
  cases pc with
  | fresh | handed | plain => rfl
  | attaching pc =>
      cases pc with
      | ret fate => cases fate <;> rfl
      | _ => rfl
  | nulled fate => rcases fate with _ | _ | _ | _ <;> rfl
  | releasing fate pc =>
      cases pc with
      | ret => rcases fate with _ | _ | _ | _ <;> rfl
      | _ => exact nomatch hq

theorem OpsInv.live_quiet (h : OpsInv slots own s) (hq : ∀ i, (s.pc i).midCall = false) :
    s.table.live = countBelow s.nops fun i => (s.pc i).attached := by
  rw [h.live]
  exact countBelow_congr fun i _ => counted_of_quiet (hq i)

/-! ## What holds along a run -/

theorem attachStep_grow {key : UInt64} (hr : ¬ reservedKey key) {block : Option Block}
    {pc : AttachPc} {t : StagedTable} {slot : Nat} (hk : t.key slot ≠ keyEmpty) :
    (attachStep slots key block pc t).2.key slot ≠ keyEmpty := by
  cases pc with
  | load probe slot' =>
      rw [attachStep]
      split
      · exact hk
      · split <;> exact hk
  | cas probe slot' k =>
      rw [attachStep]
      split
      · exact setKey_grow (ne_empty_of_not_reserved hr) hk
      · exact hk
  | store _ | count | ret _ => exact hk

theorem releaseStep_grow {key : UInt64} {pc : ReleasePc} {t : StagedTable} {slot : Nat}
    (hk : t.key slot ≠ keyEmpty) : (releaseStep slots key pc t).2.1.key slot ≠ keyEmpty := by
  cases pc with
  | any =>
      rw [releaseStep]
      split <;> exact hk
  | load probe slot' =>
      rw [releaseStep]
      split
      · exact hk
      · split <;> exact hk
  | cas slot' =>
      rw [releaseStep]
      split
      · exact setKey_grow keyLocked_ne_empty hk
      · exact hk
  | tomb slot' block => exact setKey_grow keyTomb_ne_empty hk
  | swap _ | count _ _ | free _ | ret => exact hk

/-- No step takes a key back to `EMPTY`. -/
theorem OpsInv.step_grow (h : OpsInv slots own s) {a : OpAct}
    (hs : OpsState.step slots s a = some s') {slot : Nat} (hk : s.table.key slot ≠ keyEmpty) :
    s'.table.key slot ≠ keyEmpty := by
  cases a with
  | handOut key =>
      obtain rfl := Option.some.inj hs
      exact hk
  | attach i =>
      obtain ⟨-, rfl⟩ := OpsState.step_attach hs
      exact hk
  | plain i =>
      obtain ⟨-, rfl⟩ := OpsState.step_plain hs
      exact hk
  | attachTick i =>
      obtain ⟨pc, hpc, -, rfl⟩ := OpsState.step_attachTick hs
      have hi : i < s.nops := h.lt_nops (by rw [hpc]; exact nofun)
      exact attachStep_grow (h.keys i hi) hk
  | null i =>
      rcases OpsState.step_null hs with ⟨fate, -, rfl⟩ | ⟨-, rfl⟩ <;> exact hk
  | release i =>
      obtain ⟨fate, -, rfl⟩ := OpsState.step_release hs
      exact hk
  | releaseTick i =>
      obtain ⟨fate, pc, -, -, rfl⟩ := OpsState.step_releaseTick hs
      exact releaseStep_grow hk

theorem DistinctInv.run_grow (h : DistinctInv slots s) {run : List OpAct}
    (hm : Meets (OpsState.step slots) distinctOk s run)
    (he : exec (OpsState.step slots) s run = some s') {slot : Nat}
    (hk : s.table.key slot ≠ keyEmpty) : s'.table.key slot ≠ keyEmpty :=
  (exec_invariant (I := fun s => DistinctInv slots s ∧ s.table.key slot ≠ keyEmpty)
    (fun _ _ _ h hg hs => ⟨h.1.step hg hs, h.1.1.choose_spec.step_grow hs h.2⟩)
    ⟨h, hk⟩ hm he).2

/-- An access of an attach that writes commits the attach to `STORED`. -/
theorem attachStep_committed {key : UInt64} {block : Option Block} {pc : AttachPc}
    {t : StagedTable} (hw : (attachStep slots key block pc t).2 ≠ t) :
    (OpPc.attaching (attachStep slots key block pc t).1).committed = true := by
  cases pc with
  | load probe slot =>
      rw [attachStep] at hw
      split at hw
      · exact absurd rfl hw
      · split at hw <;> exact absurd rfl hw
  | cas probe slot k =>
      rw [attachStep] at hw ⊢
      split at hw
      · next hk =>
          rw [if_pos hk]
          rfl
      · exact absurd rfl hw
  | store slot | count => rfl
  | ret fate => exact absurd rfl hw

theorem moved_committed {j : Nat} {pc : OpPc} {t : StagedTable} {freed : List (Nat × Block)}
    (hc : (s.pc i).committed = true)
    (hpc : (s.pc j).committed = true → pc.committed = true) :
    ((s.moved j pc t freed).pc i).committed = true := by
  change (Function.update s.pc j pc i).committed = true
  by_cases hj : i = j
  · rw [hj, Function.update_self]
    exact hpc (hj ▸ hc)
  · rw [Function.update_of_ne hj]
    exact hc

theorem step_committed {a : OpAct} (hc : (s.pc i).committed = true)
    (hs : OpsState.step slots s a = some s') (hi : i < s.nops) :
    (s'.pc i).committed = true := by
  cases a with
  | handOut key =>
      obtain rfl := Option.some.inj hs
      change (Function.update s.pc s.nops .handed i).committed = true
      rw [Function.update_of_ne (Nat.ne_of_lt hi)]
      exact hc
  | attach j =>
      obtain ⟨hpc, rfl⟩ := OpsState.step_attach hs
      exact moved_committed hc fun hj => by rw [hpc] at hj; exact nomatch hj
  | plain j =>
      obtain ⟨hpc, rfl⟩ := OpsState.step_plain hs
      exact moved_committed hc fun hj => by rw [hpc] at hj; exact nomatch hj
  | attachTick j =>
      obtain ⟨pc, hpc, hret, rfl⟩ := OpsState.step_attachTick hs
      refine moved_committed hc fun hj => ?_
      rw [hpc] at hj
      cases pc with
      | store slot | count => rfl
      | ret fate => exact absurd rfl (hret fate)
      | _ => exact nomatch hj
  | null j =>
      rcases OpsState.step_null hs with ⟨fate, hpc, rfl⟩ | ⟨hpc, rfl⟩
      · refine moved_committed hc fun hj => ?_
        rw [hpc] at hj
        cases fate with
        | stored => rfl
        | _ => exact nomatch hj
      · exact moved_committed hc fun hj => by rw [hpc] at hj; exact nomatch hj
  | release j =>
      obtain ⟨fate, hpc, rfl⟩ := OpsState.step_release hs
      exact moved_committed hc fun hj => by rw [hpc] at hj; exact hj
  | releaseTick j =>
      obtain ⟨fate, pc, hpc, -, rfl⟩ := OpsState.step_releaseTick hs
      exact moved_committed hc fun hj => by rw [hpc] at hj; exact hj

theorem committed_fate {pc : OpPc} {fate : StagedFate} (hc : pc.committed = true)
    (hf : pc.fate = some fate) : fate = .stored := by
  cases pc with
  | fresh | handed | plain => exact nomatch hc
  | attaching pc =>
      cases pc with
      | ret fate' =>
          obtain rfl := Option.some.inj hf
          cases fate' with
          | stored => rfl
          | _ => exact nomatch hc
      | _ => exact nomatch hf
  | nulled fate' | releasing fate' pc =>
      obtain rfl := hf
      exact Option.some.inj (of_decide_eq_true hc)

/-- An attach that does not answer `STORED` has written nothing at any of its
accesses. -/
theorem DistinctInv.unstored_quiet (h : DistinctInv slots s) {run : List OpAct} {s₁ : OpsState}
    {fate : StagedFate} (hs : OpsState.step slots s (.attachTick i) = some s₁)
    (hm : Meets (OpsState.step slots) distinctOk s₁ run)
    (he : exec (OpsState.step slots) s₁ run = some s')
    (hf : (s'.pc i).fate = some fate) (hne : fate ≠ .stored) : s₁.table = s.table := by
  by_contra hw
  have h₁ : DistinctInv slots s₁ := h.step (a := .attachTick i) ⟨trivial, trivial⟩ hs
  obtain ⟨pc, hpc, -, rfl⟩ := OpsState.step_attachTick hs
  have hc₁ : ((s.moved i (.attaching (attachStep slots (s.key i) (some i) pc s.table).1)
      (attachStep slots (s.key i) (some i) pc s.table).2 s.freed).pc i).committed = true := by
    refine Eq.trans ?_ (attachStep_committed hw)
    exact congrArg OpPc.committed (Function.update_self ..)
  have hend := exec_invariant
    (I := fun s => DistinctInv slots s ∧ (s.pc i).committed = true)
    (fun s a s' h hg hs => ⟨h.1.step hg hs, step_committed h.2 hs
      (h.1.1.choose_spec.lt_nops fun hf => by rw [hf] at h; exact nomatch h.2)⟩)
    ⟨h₁, hc₁⟩ hm he
  exact hne (committed_fate hend.2 hf)

/-! ## The table with distinct live keys -/

/-- Nobody frees a block twice. -/
theorem OpsInv.blocks_nodup (h : OpsInv slots own s) : (s.freed.map Prod.snd).Nodup := by
  refine h.nodup.map_on ?_
  rintro ⟨a, b⟩ ha ⟨c, d⟩ hc hbd
  have hb : b = a := (h.freed _ ha).1
  have hd : d = c := (h.freed _ hc).1
  have hbd : b = d := hbd
  rw [← hb, ← hd, hbd]

theorem OpsInv.freed_of_released (h : OpsInv slots own s) (hs : (s.pc i).stored = true)
    (hr : (s.pc i).released = true) : (i, i) ∈ s.freed := by
  have hfate : (s.pc i).fate = some .stored := of_decide_eq_true hs
  have hop := h.op i
  cases hpc : s.pc i with
  | releasing fate pc =>
      rw [hpc] at hr hop hfate
      cases pc with
      | ret =>
          obtain rfl := hfate
          exact hop.2
      | _ => exact nomatch hr
  | _ => rw [hpc] at hr; exact nomatch hr

theorem OpsInv.freed_count (h : OpsInv slots own s) (hs : (s.pc i).stored = true) :
    (s.freed.map Prod.snd).count i = if (s.pc i).released then 1 else 0 := by
  split
  · next hr =>
      exact List.count_eq_one_of_mem h.blocks_nodup
        (List.mem_map.mpr ⟨(i, i), h.freed_of_released hs hr, rfl⟩)
  · next hr =>
      rw [List.count_eq_zero]
      intro hm
      obtain ⟨⟨a, b⟩, hp, rfl⟩ := List.mem_map.mp hm
      obtain ⟨hb, hpc⟩ := h.freed _ hp
      obtain rfl : b = a := hb
      rw [hpc] at hr
      exact hr rfl

theorem OpsInv.placed (h : OpsInv slots own s) (ha : (s.pc i).attached = true) :
    ∃ d slot, Placed slots s.table (s.key i) d slot ∧ s.table.block slot = some i := by
  have hop := h.op i
  unfold OpPc.attached at ha
  split at ha
  · next hpc =>
      rw [hpc] at hop
      obtain ⟨slot, d, -, hp, hb⟩ := hop
      exact ⟨d, slot, hp, hb⟩
  · next hpc =>
      rw [hpc] at hop
      obtain ⟨slot, d, -, hp, hb⟩ := hop
      exact ⟨d, slot, hp, hb⟩
  · exact nomatch ha

/-- What holds of every state of a run in which lifetimes of one handle do not
overlap, and of every way to go on from it. -/
structure Distinct (slots : Nat) (s : OpsState) : Prop where
  /-- A block is freed by the release for its own key, which is then over. -/
  frees_own : ∀ p, p ∈ s.freed → p.2 = p.1 ∧ (s.pc p.1).stored = true ∧
    (s.pc p.1).released = true
  /-- An attached block is freed once, and no sooner than by its release. -/
  freed_once : ∀ i, (s.pc i).stored = true →
    (s.freed.map Prod.snd).count i = if (s.pc i).released then 1 else 0
  not_lost : ∀ i, (s.pc i).stored = true → (s.pc i).released = false →
    (∃ slot, slot < slots ∧ s.table.block slot = some i) ∨ (s.pc i).carried = some i
  /-- The entry of a live key is where a scan for it ends. -/
  chain : ∀ i, (s.pc i).attached = true → ∃ d slot, Placed slots s.table (s.key i) d slot ∧
    s.table.block slot = some i
  never_empty : ∀ run s', Meets (OpsState.step slots) distinctOk s run →
    exec (OpsState.step slots) s run = some s' →
    ∀ slot, s.table.key slot ≠ keyEmpty → s'.table.key slot ≠ keyEmpty
  unstored_quiet : ∀ i s₁ run s' fate, OpsState.step slots s (.attachTick i) = some s₁ →
    Meets (OpsState.step slots) distinctOk s₁ run →
    exec (OpsState.step slots) s₁ run = some s' →
    (s'.pc i).fate = some fate → fate ≠ .stored → s₁.table = s.table
  live : (∀ i, (s.pc i).midCall = false) →
    s.table.live = countBelow s.nops fun i => (s.pc i).attached

theorem DistinctInv.distinct (h : DistinctInv slots s) : Distinct slots s := by
  obtain ⟨own, hinv⟩ := h.1
  refine ⟨fun p hp => ?_, fun i => hinv.freed_count, fun i hs hr => ?_, fun i => hinv.placed,
    fun run s' hm he slot => h.run_grow hm he,
    fun i s₁ run s' fate hs hm he => h.unstored_quiet hs hm he, hinv.live_quiet⟩
  · obtain ⟨hown, hpc⟩ := hinv.freed p hp
    rw [hpc]
    exact ⟨hown, rfl, rfl⟩
  · rcases hinv.not_lost hs with ⟨slot, hlt, -, hb⟩ | hc | hf
    · exact .inl ⟨slot, hlt, hb⟩
    · exact .inr hc
    · rw [(hinv.freed _ hf).2] at hr
      exact nomatch hr

/-- In every interleaving in which lifetimes of one handle do not overlap. -/
theorem staged_distinct {run : List OpAct}
    (hm : Meets (OpsState.step slots) distinctOk .init run)
    (he : exec (OpsState.step slots) .init run = some s) : Distinct slots s :=
  (DistinctInv.init.run hm he).distinct

/-- Two handles with one home, attached and released across each other. -/
def crossedHandles : List OpAct := List.flatten
  [[.handOut 1173, .handOut 2226, .attach 0, .attach 1],
   List.replicate 2 [.attachTick 0, .attachTick 1] |>.flatten,
   List.replicate 2 (.attachTick 0), List.replicate 4 (.attachTick 1),
   [.null 0, .null 1, .release 1, .release 0],
   List.replicate 7 [.releaseTick 0, .releaseTick 1] |>.flatten, [.releaseTick 1]]

theorem crossedHandles_distinct :
    ∃ s, exec (OpsState.step stagedRequestSlots) .init crossedHandles = some s ∧
      s.freed = [(0, 0), (1, 1)] ∧ Distinct stagedRequestSlots s := by
  obtain ⟨s, hs⟩ := Option.isSome_iff_exists.mp
    (by decide +kernel :
      (exec (OpsState.step stagedRequestSlots) .init crossedHandles).isSome = true)
  have hfreed : (exec (OpsState.step stagedRequestSlots) .init crossedHandles).map
      (·.freed) = some [(0, 0), (1, 1)] := by decide +kernel
  rw [hs] at hfreed
  exact ⟨s, hs, Option.some.inj hfreed, staged_distinct (by decide +kernel) hs⟩

end AbiWrapper.Ref
