import AbiWrapper.Ref.StagedOps

/-!
# What every interleaving of the staged table keeps

The table's slots have owners. An operation owns a slot from the
compare-exchange of its attach that claims it to the store of `TOMBSTONE` in
its release, and nobody writes a slot owned by somebody else: that is the
whole of why the interleaving is harmless, and `OpsInv` says it with a ghost
map `own` from operations to slots.

Two facts keep a release on its own entry. A slot's key never goes back to
`EMPTY`, so the probe chain an attach walked is still there when the release
walks it (`Chain`). And at most one operation of a handle has its entry in the
table (`uniq`), so the first entry of the handle on the chain is the
release's own. The second is not kept by every run: an attach claims the first
free slot it sees without looking whether the handle is further down the
chain. `recycleOk` is what a run must respect for it.

`OpsInv.update` is the frame rule; everything a step does is one of its three
instances `move`, `touch` and `claim`.
-/

namespace AbiWrapper.Ref

open AbiWrapper.Lib

/-! ## One operation -/

/-- `slot` is the `probe`-th of the handle's probe sequence. -/
def At (slots : Nat) (h : UInt64) (probe slot : Nat) : Prop :=
  probe < slots ∧ slot = ringSlot slots (stagedHome slots h) probe

/-- No slot before the `d`-th of the handle's probe sequence is `EMPTY`. -/
def Chain (slots : Nat) (t : StagedTable) (h : UInt64) (d : Nat) : Prop :=
  ∀ e, e < d → t.key (ringSlot slots (stagedHome slots h) e) ≠ keyEmpty

/-- The handle's entry is in `slot`, `d` probes from its home. -/
def Placed (slots : Nat) (t : StagedTable) (h : UInt64) (d slot : Nat) : Prop :=
  At slots h d slot ∧ t.key slot = h ∧ Chain slots t h d

/-- What holds of operation `i` with handle `h` that owns `o`, at each of its
program counters. -/
def OpInv (slots : Nat) (t : StagedTable) (freed : List (Nat × Block)) (h : UInt64)
    (i : Nat) (o : Option Nat) : OpPc → Prop
  | .attaching (.load probe slot) => o = none ∧ At slots h probe slot ∧ Chain slots t h probe
  | .attaching (.cas probe slot k) =>
      o = none ∧ At slots h probe slot ∧ Chain slots t h probe ∧
        (k = keyEmpty ∨ (k = keyTomb ∧ t.key slot ≠ keyEmpty))
  | .attaching (.store slot) => o = some slot ∧ ∃ d, Placed slots t h d slot
  | .attaching .count | .attaching (.ret .stored) | .nulled (some .stored)
  | .releasing (some .stored) .any =>
      ∃ slot d, o = some slot ∧ Placed slots t h d slot ∧ t.block slot = some i
  | .releasing (some .stored) (.load probe slot) =>
      At slots h probe slot ∧ ∃ own d, o = some own ∧ Placed slots t h d own ∧
        t.block own = some i ∧ probe ≤ d
  | .releasing (some .stored) (.cas slot) =>
      o = some slot ∧ (∃ d, Placed slots t h d slot) ∧ t.block slot = some i
  | .releasing (some .stored) (.swap slot) =>
      o = some slot ∧ t.key slot = keyLocked ∧ t.block slot = some i ∧ slot < slots
  | .releasing (some .stored) (.count slot block) =>
      o = some slot ∧ t.key slot = keyLocked ∧ block = some i
  | .releasing (some .stored) (.tomb slot block) =>
      o = some slot ∧ t.key slot = keyLocked ∧ block = some i
  | .releasing (some .stored) (.free block) => o = none ∧ block = some i
  | .releasing (some .stored) .ret => o = none ∧ (i, i) ∈ freed
  -- A release of an operation that stored nothing only ever scans.
  | .releasing _ (.swap _) | .releasing _ (.count _ _) | .releasing _ (.tomb _ _)
  | .releasing _ (.free _) => False
  | _ => o = none

theorem At.next {slots probe slot : Nat} {h : UInt64} (ha : At slots h probe slot)
    (hn : probe + 1 < slots) : At slots h (probe + 1) ((slot + 1) % slots) :=
  ⟨hn, by rw [ha.2, ringSlot_succ]⟩

theorem At.slot_lt {slots probe slot : Nat} {h : UInt64} (ha : At slots h probe slot) :
    slot < slots :=
  ha.2 ▸ ringSlot_lt (Nat.lt_of_le_of_lt (Nat.zero_le probe) ha.1)

theorem At.home {slots : Nat} {h : UInt64} (hs : 0 < slots) :
    At slots h 0 (stagedHome slots h) :=
  ⟨hs, (ringSlot_zero (Nat.mod_lt _ hs)).symm⟩

theorem Chain.zero {slots : Nat} {t : StagedTable} {h : UInt64} : Chain slots t h 0 :=
  fun e he => absurd he (by omega)

theorem Chain.succ {slots d slot : Nat} {t : StagedTable} {h : UInt64}
    (hc : Chain slots t h d) (ha : At slots h d slot) (hk : t.key slot ≠ keyEmpty) :
    Chain slots t h (d + 1) := by
  intro e he
  rcases Nat.lt_succ_iff_lt_or_eq.mp he with hlt | rfl
  · exact hc e hlt
  · rw [← ha.2]
    exact hk

theorem Chain.grow {slots d : Nat} {t t' : StagedTable} {h : UInt64}
    (hg : ∀ slot, t.key slot ≠ keyEmpty → t'.key slot ≠ keyEmpty)
    (hc : Chain slots t h d) : Chain slots t' h d :=
  fun e he => hg _ (hc e he)

theorem Placed.frame {slots d slot : Nat} {t t' : StagedTable} {h : UInt64}
    (hg : ∀ slot, t.key slot ≠ keyEmpty → t'.key slot ≠ keyEmpty)
    (hk : t'.key slot = t.key slot) (hp : Placed slots t h d slot) :
    Placed slots t' h d slot :=
  ⟨hp.1, hk.trans hp.2.1, hp.2.2.grow hg⟩

/-- What an operation relies on is its own slot, that keys do not go back to
`EMPTY`, and that frees are not forgotten. -/
theorem OpInv.frame {slots i : Nat} {t t' : StagedTable} {freed freed' : List (Nat × Block)}
    {h : UInt64} {o : Option Nat} {pc : OpPc}
    (hg : ∀ slot, t.key slot ≠ keyEmpty → t'.key slot ≠ keyEmpty)
    (ho : ∀ slot, o = some slot → t'.key slot = t.key slot ∧ t'.block slot = t.block slot)
    (hf : ∀ p, p ∈ freed → p ∈ freed') (hop : OpInv slots t freed h i o pc) :
    OpInv slots t' freed' h i o pc := by
  unfold OpInv at hop ⊢
  split at hop
  · exact ⟨hop.1, hop.2.1, hop.2.2.grow hg⟩
  · obtain ⟨ho, ha, hc, hk⟩ := hop
    exact ⟨ho, ha, hc.grow hg, hk.imp_right fun ht => ⟨ht.1, hg _ ht.2⟩⟩
  · obtain ⟨rfl, d, hp⟩ := hop
    exact ⟨rfl, d, hp.frame hg (ho _ rfl).1⟩
  iterate 4
    · obtain ⟨slot, d, rfl, hp, hb⟩ := hop
      exact ⟨slot, d, rfl, hp.frame hg (ho _ rfl).1, (ho _ rfl).2.trans hb⟩
  · obtain ⟨ha, own, d, rfl, hp, hb, hd⟩ := hop
    exact ⟨ha, own, d, rfl, hp.frame hg (ho _ rfl).1, (ho _ rfl).2.trans hb, hd⟩
  · obtain ⟨rfl, ⟨d, hp⟩, hb⟩ := hop
    exact ⟨rfl, ⟨d, hp.frame hg (ho _ rfl).1⟩, (ho _ rfl).2.trans hb⟩
  · obtain ⟨rfl, hk, hb, hlt⟩ := hop
    exact ⟨rfl, (ho _ rfl).1.trans hk, (ho _ rfl).2.trans hb, hlt⟩
  · obtain ⟨rfl, hk, hb⟩ := hop
    exact ⟨rfl, (ho _ rfl).1.trans hk, hb⟩
  · obtain ⟨rfl, hk, hb⟩ := hop
    exact ⟨rfl, (ho _ rfl).1.trans hk, hb⟩
  · exact hop
  · exact ⟨hop.1, hf _ hop.2⟩
  iterate 4 exact hop.elim
  · exact hop

/-- An owned slot carries its owner's handle, or `LOCKED` while the owner's
release is emptying it. -/
theorem OpInv.own_key {slots i slot : Nat} {t : StagedTable} {freed : List (Nat × Block)}
    {h : UInt64} {pc : OpPc} (hop : OpInv slots t freed h i (some slot) pc) :
    (pc.holds = true ∧ t.key slot = h) ∨ (pc.holds = false ∧ t.key slot = keyLocked) := by
  unfold OpInv at hop
  split at hop
  · exact absurd hop.1 (Option.some_ne_none _)
  · exact absurd hop.1 (Option.some_ne_none _)
  · obtain ⟨ho, d, hp⟩ := hop
    cases ho
    exact .inl ⟨rfl, hp.2.1⟩
  iterate 4
    · obtain ⟨own, d, ho, hp, hb⟩ := hop
      cases ho
      exact .inl ⟨rfl, hp.2.1⟩
  · obtain ⟨ha, own, d, ho, hp, hb, hd⟩ := hop
    cases ho
    exact .inl ⟨rfl, hp.2.1⟩
  · obtain ⟨ho, ⟨d, hp⟩, hb⟩ := hop
    cases ho
    exact .inl ⟨rfl, hp.2.1⟩
  iterate 3
    · obtain ⟨ho, hk, hb⟩ := hop
      cases ho
      exact .inr ⟨rfl, hk⟩
  · exact absurd hop.1 (Option.some_ne_none _)
  · exact absurd hop.1 (Option.some_ne_none _)
  iterate 4 exact hop.elim
  · exact absurd hop (Option.some_ne_none _)

theorem keyLocked_ne_empty : keyLocked ≠ keyEmpty := by decide
theorem keyLocked_ne_tomb : keyLocked ≠ keyTomb := by decide
theorem keyTomb_ne_empty : keyTomb ≠ keyEmpty := by decide

theorem ne_empty_of_not_reserved {h : UInt64} (hr : ¬ reservedKey h) : h ≠ keyEmpty :=
  fun he => hr (.inl he)

theorem ne_locked_of_not_reserved {h : UInt64} (hr : ¬ reservedKey h) : h ≠ keyLocked :=
  fun he => hr (.inr (.inl he))

theorem ne_tomb_of_not_reserved {h : UInt64} (hr : ¬ reservedKey h) : h ≠ keyTomb :=
  fun he => hr (.inr (.inr he))

theorem setKey_grow {t : StagedTable} {slot slot' : Nat} {key : UInt64}
    (hne : key ≠ keyEmpty) (hk : t.key slot ≠ keyEmpty) :
    (t.setKey slot' key).key slot ≠ keyEmpty := by
  by_cases hs : slot = slot'
  · rw [hs, StagedTable.setKey_key, Function.update_self]
    exact hne
  · rw [StagedTable.setKey_key, Function.update_of_ne hs]
    exact hk

/-! ## Phases of which a handle has one operation at most -/

def PhaseUniq (phase : OpPc → Bool) (s : OpsState) : Prop :=
  ∀ i j, phase (s.pc i) = true → phase (s.pc j) = true → s.key i = s.key j → i = j

namespace PhaseUniq

variable {phase : OpPc → Bool} {s : OpsState} {i : Nat}

theorem others (h : PhaseUniq phase s) (hi : phase (s.pc i) = true) :
    ∀ j, j ≠ i → s.key j = s.key i → phase (s.pc j) = false :=
  fun j hj hk => Bool.eq_false_iff.mpr fun hp => hj (h j i hp hi hk)

/-- An operation may enter the phase when no other of its handle is in it. -/
theorem moved (h : PhaseUniq phase s) {pc : OpPc} {t : StagedTable}
    {freed : List (Nat × Block)}
    (hother : phase pc = true → ∀ j, j ≠ i → s.key j = s.key i → phase (s.pc j) = false) :
    PhaseUniq phase (s.moved i pc t freed) := by
  intro a b ha hb hk
  change phase (Function.update s.pc i pc a) = true at ha
  change phase (Function.update s.pc i pc b) = true at hb
  change s.key a = s.key b at hk
  by_cases hai : a = i <;> by_cases hbi : b = i
  · rw [hai, hbi]
  · rw [hai, Function.update_self] at ha
    rw [Function.update_of_ne hbi, hother ha b hbi (hai ▸ hk.symm)] at hb
    exact nomatch hb
  · rw [hbi, Function.update_self] at hb
    rw [Function.update_of_ne hai, hother hb a hai (hbi ▸ hk)] at ha
    exact nomatch ha
  · rw [Function.update_of_ne hai] at ha
    rw [Function.update_of_ne hbi] at hb
    exact h a b ha hb hk

/-- So may a new one. -/
theorem handedOut (h : PhaseUniq phase s) {key : UInt64}
    (hother : phase .handed = true → ∀ j, j ≠ s.nops → s.key j = key → phase (s.pc j) = false) :
    PhaseUniq phase (s.handedOut key) := by
  intro a b ha hb hk
  change phase (Function.update s.pc s.nops .handed a) = true at ha
  change phase (Function.update s.pc s.nops .handed b) = true at hb
  change Function.update s.key s.nops key a = Function.update s.key s.nops key b at hk
  by_cases han : a = s.nops <;> by_cases hbn : b = s.nops
  · rw [han, hbn]
  · rw [han, Function.update_self] at ha hk
    rw [Function.update_of_ne hbn] at hb hk
    exact nomatch (hother ha b hbn hk.symm).symm.trans hb
  · rw [hbn, Function.update_self] at hb hk
    rw [Function.update_of_ne han] at ha hk
    exact nomatch (hother hb a han hk).symm.trans ha
  · rw [Function.update_of_ne han] at ha hk
    rw [Function.update_of_ne hbn] at hb hk
    exact h a b ha hb hk

end PhaseUniq

/-! ## The whole system -/

structure OpsInv (slots : Nat) (own : Nat → Option Nat) (s : OpsState) : Prop where
  keys : ∀ i, i < s.nops → ¬ reservedKey (s.key i)
  fresh : ∀ i, s.nops ≤ i → s.pc i = .fresh
  own_inj : ∀ i j slot, own i = some slot → own j = some slot → i = j
  owned : ∀ slot, s.table.key slot ≠ keyEmpty → s.table.key slot ≠ keyTomb →
    ∃ i, own i = some slot
  op : ∀ i, OpInv slots s.table s.freed (s.key i) i (own i) (s.pc i)
  uniq : ∀ i j, (s.pc i).holds = true → (s.pc j).holds = true → s.key i = s.key j → i = j
  live : s.table.live = countBelow s.nops fun i => (s.pc i).counted
  freed : ∀ p, p ∈ s.freed → p.2 = p.1 ∧ s.pc p.1 = .releasing (some .stored) .ret
  nodup : s.freed.Nodup

theorem OpsInv.init {slots : Nat} : OpsInv slots (fun _ => none) .init where
  keys i hi := absurd hi (Nat.not_lt_zero i)
  fresh _ _ := rfl
  own_inj _ _ _ h _ := nomatch h
  owned _ hk _ := absurd rfl hk
  op _ := rfl
  uniq _ _ h _ _ := nomatch h
  live := rfl
  freed _ h := nomatch h
  nodup := List.nodup_nil

variable {slots : Nat} {own : Nat → Option Nat} {s : OpsState} {i : Nat}

theorem OpsInv.lt_nops (h : OpsInv slots own s) (hpc : s.pc i ≠ .fresh) : i < s.nops :=
  Nat.lt_of_not_le fun hle => hpc (h.fresh i hle)

/-- An owned slot's key is neither of the two that an attach may claim. -/
theorem OpsInv.own_busy (h : OpsInv slots own s) {slot : Nat} (ho : own i = some slot) :
    s.table.key slot ≠ keyEmpty ∧ s.table.key slot ≠ keyTomb := by
  have hop := h.op i
  rw [ho] at hop
  have hi : i < s.nops := by
    refine h.lt_nops fun hf => ?_
    rw [hf] at hop
    exact nomatch hop
  have hr := h.keys i hi
  rcases hop.own_key with ⟨-, hk⟩ | ⟨-, hk⟩
  · rw [hk]
    exact ⟨ne_empty_of_not_reserved hr, ne_tomb_of_not_reserved hr⟩
  · rw [hk]
    exact ⟨keyLocked_ne_empty, keyLocked_ne_tomb⟩

/-- A slot that carries an operation's handle is the slot of an operation with
that handle whose entry is in the table. -/
theorem OpsInv.owner_of_key (h : OpsInv slots own s) (hi : i < s.nops) {slot : Nat}
    (hk : s.table.key slot = s.key i) :
    ∃ j, own j = some slot ∧ (s.pc j).holds = true ∧ s.key j = s.key i := by
  have hr := h.keys i hi
  obtain ⟨j, ho⟩ := h.owned slot (hk ▸ ne_empty_of_not_reserved hr)
    (hk ▸ ne_tomb_of_not_reserved hr)
  have hop := h.op j
  rw [ho] at hop
  rcases hop.own_key with ⟨hh, hj⟩ | ⟨-, hj⟩
  · exact ⟨j, ho, hh, hj.symm.trans hk⟩
  · exact absurd (hk.symm.trans hj) (ne_locked_of_not_reserved hr)

/-- The operation's own entry is the only one of its handle. -/
theorem OpsInv.own_of_key (h : OpsInv slots own s) (hh : (s.pc i).holds = true) {slot : Nat}
    (hk : s.table.key slot = s.key i) : own i = some slot := by
  have hi : i < s.nops := h.lt_nops fun hf => by
    rw [hf] at hh
    exact nomatch hh
  obtain ⟨j, ho, hj, hkey⟩ := h.owner_of_key hi hk
  obtain rfl := h.uniq j i hj hh hkey
  exact ho

theorem OpsInv.owned_other (h : OpsInv slots own s) (ho : own i = none) {slot : Nat}
    (he : s.table.key slot ≠ keyEmpty) (ht : s.table.key slot ≠ keyTomb) :
    ∃ j, j ≠ i ∧ own j = some slot := by
  obtain ⟨j, hoj⟩ := h.owned slot he ht
  refine ⟨j, fun hj => ?_, hoj⟩
  rw [hj, ho] at hoj
  exact nomatch hoj

theorem OpsInv.phaseUniq (h : OpsInv slots own s) : PhaseUniq OpPc.holds s := h.uniq

/-- The frame rule: operation `i` moved, and no slot somebody else owns was
written. -/
theorem OpsInv.update (h : OpsInv slots own s) (hi : i < s.nops)
    {pc : OpPc} {t : StagedTable} {o : Option Nat} {freed : List (Nat × Block)}
    (hframe : ∀ j slot, j ≠ i → own j = some slot →
      t.key slot = s.table.key slot ∧ t.block slot = s.table.block slot)
    (hgrow : ∀ slot, s.table.key slot ≠ keyEmpty → t.key slot ≠ keyEmpty)
    (howned : ∀ slot, t.key slot ≠ keyEmpty → t.key slot ≠ keyTomb →
      o = some slot ∨ ∃ j, j ≠ i ∧ own j = some slot)
    (hinj : ∀ j slot, j ≠ i → own j = some slot → o ≠ some slot)
    (hop : OpInv slots t freed (s.key i) i o pc)
    (huniq : pc.holds = true → ∀ j, j ≠ i → s.key j = s.key i → (s.pc j).holds = false)
    (hlive : t.live = s.table.live - (if (s.pc i).counted then 1 else 0) +
      (if pc.counted then 1 else 0))
    (hfreed : freed = s.freed ∨
      (freed = s.freed ++ [(i, i)] ∧ pc = .releasing (some .stored) .ret))
    (hret : s.pc i ≠ .releasing (some .stored) .ret) :
    OpsInv slots (Function.update own i o) (s.moved i pc t freed) := by
  have hsub : ∀ p, p ∈ s.freed → p ∈ freed := by
    intro p hp
    rcases hfreed with rfl | ⟨rfl, -⟩
    · exact hp
    · exact List.mem_append_left _ hp
  have hnew : ∀ p, p ∈ s.freed → p.1 ≠ i := fun p hp hpi => by
    rw [← hpi] at hret
    exact hret (h.freed p hp).2
  refine ⟨h.keys, ?_, ?_, ?_, ?_, ?_, ?_, ?_, ?_⟩
  · intro j hj
    change s.nops ≤ j at hj
    exact (Function.update_of_ne (by omega) _ _).trans (h.fresh j hj)
  · intro a b slot ha hb
    by_cases hai : a = i <;> by_cases hbi : b = i
    · rw [hai, hbi]
    · rw [hai, Function.update_self] at ha
      rw [Function.update_of_ne hbi] at hb
      exact absurd ha (hinj b slot hbi hb)
    · rw [hbi, Function.update_self] at hb
      rw [Function.update_of_ne hai] at ha
      exact absurd hb (hinj a slot hai ha)
    · rw [Function.update_of_ne hai] at ha
      rw [Function.update_of_ne hbi] at hb
      exact h.own_inj a b slot ha hb
  · intro slot he ht
    rcases howned slot he ht with ho | ⟨j, hj, ho⟩
    · exact ⟨i, (Function.update_self ..).trans ho⟩
    · exact ⟨j, (Function.update_of_ne hj ..).trans ho⟩
  · intro j
    change OpInv slots t freed (s.key j) j (Function.update own i o j)
      (Function.update s.pc i pc j)
    by_cases hj : j = i
    · subst hj
      rw [Function.update_self, Function.update_self]
      exact hop
    · rw [Function.update_of_ne hj, Function.update_of_ne hj]
      exact (h.op j).frame hgrow (fun slot => hframe j slot hj) hsub
  · exact h.phaseUniq.moved huniq
  · change t.live = countBelow s.nops fun j => (Function.update s.pc i pc j).counted
    rw [countBelow_update (p := fun j => (s.pc j).counted) hi
        (fun j hj => by rw [Function.update_of_ne hj]), ← h.live, Function.update_self]
    exact hlive
  · intro p hp
    change p ∈ freed at hp
    change p.2 = p.1 ∧ Function.update s.pc i pc p.1 = _
    rcases hfreed with rfl | ⟨rfl, hpc⟩
    · rw [Function.update_of_ne (hnew p hp)]
      exact h.freed p hp
    · rcases List.mem_append.mp hp with hp | hp
      · rw [Function.update_of_ne (hnew p hp)]
        exact h.freed p hp
      · rw [List.mem_singleton.mp hp, Function.update_self]
        exact ⟨rfl, hpc⟩
  · change freed.Nodup
    rcases hfreed with rfl | ⟨rfl, -⟩
    · exact h.nodup
    · exact List.Nodup.append h.nodup (List.nodup_singleton _)
        fun p hp hpi => hnew p hp (by rw [List.mem_singleton.mp hpi])

theorem OpsInv.move (h : OpsInv slots own s) (hi : i < s.nops) {pc : OpPc}
    (hop : OpInv slots s.table s.freed (s.key i) i (own i) pc)
    (hholds : pc.holds = true → (s.pc i).holds = true)
    (hcount : pc.counted = (s.pc i).counted)
    (hret : s.pc i ≠ .releasing (some .stored) .ret) :
    OpsInv slots own (s.moved i pc s.table s.freed) := by
  have hu := h.update hi (o := own i) (fun _ _ _ _ => ⟨rfl, rfl⟩)
    (fun _ hk => hk)
    (fun slot he ht => by
      obtain ⟨j, ho⟩ := h.owned slot he ht
      by_cases hj : j = i
      · exact .inl (hj ▸ ho)
      · exact .inr ⟨j, hj, ho⟩)
    (fun j slot hj ho hoi => hj (h.own_inj j i slot ho hoi)) hop
    (fun hp => h.phaseUniq.others (hholds hp))
    (by rw [hcount]; omega) (.inl rfl) hret
  rwa [Function.update_eq_self] at hu

/-- A step that writes the slot its operation owns, and keeps or gives up the
slot. -/
theorem OpsInv.touch (h : OpsInv slots own s) (hi : i < s.nops) {slot : Nat}
    (ho : own i = some slot) {pc : OpPc} {t : StagedTable} {o : Option Nat}
    (hkey : ∀ slot', slot' ≠ slot → t.key slot' = s.table.key slot')
    (hblock : ∀ slot', slot' ≠ slot → t.block slot' = s.table.block slot')
    (hbusy : t.key slot ≠ keyEmpty)
    (hkeep : o = some slot ∨ (o = none ∧ t.key slot = keyTomb))
    (hop : OpInv slots t s.freed (s.key i) i o pc)
    (hholds : pc.holds = true → (s.pc i).holds = true)
    (hlive : t.live = s.table.live - (if (s.pc i).counted then 1 else 0) +
      (if pc.counted then 1 else 0))
    (hret : s.pc i ≠ .releasing (some .stored) .ret) :
    OpsInv slots (Function.update own i o) (s.moved i pc t s.freed) := by
  have hne : ∀ j slot', j ≠ i → own j = some slot' → slot' ≠ slot :=
    fun j slot' hj hoj he => hj (h.own_inj j i slot (he ▸ hoj) ho)
  refine h.update hi (fun j slot' hj hoj => ?_) (fun slot' hk => ?_) (fun slot' he ht => ?_)
    (fun j slot' hj hoj hoi => ?_) hop (fun hp => h.phaseUniq.others (hholds hp)) hlive
    (.inl rfl) hret
  · exact ⟨hkey slot' (hne j slot' hj hoj), hblock slot' (hne j slot' hj hoj)⟩
  · by_cases hs : slot' = slot
    · exact hs ▸ hbusy
    · rw [hkey slot' hs]
      exact hk
  · by_cases hs : slot' = slot
    · subst hs
      rcases hkeep with rfl | ⟨-, hk⟩
      · exact .inl rfl
      · exact absurd hk ht
    · rw [hkey slot' hs] at he ht
      obtain ⟨j, hoj⟩ := h.owned slot' he ht
      refine .inr ⟨j, fun hj => hs ?_, hoj⟩
      rw [hj, ho] at hoj
      exact (Option.some.inj hoj).symm
  · rcases hkeep with rfl | ⟨rfl, -⟩
    · exact hne j slot' hj hoj (Option.some.inj hoi).symm
    · exact nomatch hoi

/-- The compare-exchange of an attach that finds the slot still free. -/
theorem OpsInv.claim (h : OpsInv slots own s) (hi : i < s.nops) {probe slot : Nat}
    {k : UInt64} (hpc : s.pc i = .attaching (.cas probe slot k))
    (hk : s.table.key slot = k) (hg : noneElse OpPc.holds s i) :
    OpsInv slots (Function.update own i (some slot))
      (s.moved i (.attaching (.store slot)) (s.table.setKey slot (s.key i)) s.freed) := by
  have hop := h.op i
  rw [hpc] at hop
  obtain ⟨ho, ha, hc, hkk⟩ := hop
  have hr := h.keys i hi
  have hfree : ∀ j slot', own j = some slot' → slot' ≠ slot := by
    intro j slot' hoj he
    subst he
    obtain ⟨he, ht⟩ := h.own_busy hoj
    rw [hk] at he ht
    rcases hkk with h1 | ⟨h1, -⟩
    · exact he h1
    · exact ht h1
  have hgrow : ∀ slot', s.table.key slot' ≠ keyEmpty →
      (s.table.setKey slot (s.key i)).key slot' ≠ keyEmpty :=
    fun slot' => setKey_grow (ne_empty_of_not_reserved hr)
  refine h.update hi (fun j slot' _ hoj => ?_) hgrow (fun slot' he ht => ?_)
    (fun j slot' _ hoj hoi => hfree j slot' hoj (Option.some.inj hoi).symm)
    ⟨rfl, probe, ha, ?_, hc.grow hgrow⟩ (fun _ j hj hkey => ?_) ?_ (.inl rfl) ?_
  · exact ⟨Function.update_of_ne (hfree j slot' hoj) .., rfl⟩
  · by_cases hs : slot' = slot
    · exact .inl (congrArg some hs.symm)
    · rw [StagedTable.setKey_key, Function.update_of_ne hs] at he ht
      exact .inr (h.owned_other ho he ht)
  · exact Function.update_self ..
  · by_cases hjn : j < s.nops
    · exact hg j hjn hj hkey
    · rw [h.fresh j (by omega)]
      rfl
  · rw [hpc]
    exact (Int.sub_zero _).symm.trans (Int.add_zero _).symm
  · rw [hpc]
    exact fun he => nomatch he

/-! ## Steps -/

theorem OpInv.attachNext {t : StagedTable} {freed : List (Nat × Block)} {h : UInt64}
    {probe slot : Nat} (ha : At slots h probe slot) (hc : Chain slots t h probe)
    (hk : t.key slot ≠ keyEmpty) :
    OpInv slots t freed h i none (.attaching (attachNext slots probe slot)) := by
  unfold Ref.attachNext
  split
  · next hn => exact ⟨rfl, ha.next hn, hc.succ ha hk⟩
  · rfl

theorem attachNext_quiet {probe slot : Nat} :
    (OpPc.attaching (attachNext slots probe slot)).holds = false ∧
      (OpPc.attaching (attachNext slots probe slot)).counted = false := by
  unfold attachNext
  split <;> exact ⟨rfl, rfl⟩

theorem OpsInv.attachTick (h : OpsInv slots own s) (hg : recycleOk s (.attachTick i))
    {s' : OpsState} (hs : OpsState.step slots s (.attachTick i) = some s') :
    ∃ own', OpsInv slots own' s' := by
  obtain ⟨pc, hpc, hret, rfl⟩ := OpsState.step_attachTick hs
  have hi : i < s.nops := h.lt_nops fun hf => by rw [hf] at hpc; exact nomatch hpc
  have hop := h.op i
  have hnot : s.pc i ≠ .releasing (some .stored) .ret := by rw [hpc]; exact fun he => nomatch he
  rw [hpc] at hop
  cases pc with
  | load probe slot =>
      obtain ⟨ho, ha, hc⟩ := hop
      simp only [attachStep]
      split
      · next hk =>
          refine ⟨own, h.move hi ⟨ho, ha, hc, ?_⟩ (fun hh => nomatch hh) (by rw [hpc]; rfl) hnot⟩
          rcases hk with hk | hk
          · exact .inl hk
          · exact .inr ⟨hk, hk ▸ keyTomb_ne_empty⟩
      · next hk =>
          split
          · exact ⟨own, h.move hi ho (fun hh => nomatch hh) (by rw [hpc]; rfl) hnot⟩
          · refine ⟨own, h.move hi ?_ (fun hh => ?_) ?_ hnot⟩
            · rw [ho]
              exact OpInv.attachNext ha hc fun he => hk (.inl he)
            · rw [attachNext_quiet.1] at hh
              exact nomatch hh
            · rw [attachNext_quiet.2, hpc]
              rfl
  | cas probe slot k =>
      simp only [attachStep]
      split
      · next hk =>
          have hclaim : noneElse OpPc.holds s i := by
            unfold recycleOk at hg
            simp only [hpc] at hg
            exact hg hk
          exact ⟨_, h.claim hi hpc hk hclaim⟩
      · next hk =>
          obtain ⟨ho, ha, hc, hkk⟩ := hop
          refine ⟨own, h.move hi ?_ (fun hh => ?_) ?_ hnot⟩
          · rw [ho]
            refine OpInv.attachNext ha hc ?_
            rcases hkk with h1 | ⟨-, h1⟩
            · exact h1 ▸ hk
            · exact h1
          · rw [attachNext_quiet.1] at hh
            exact nomatch hh
          · rw [attachNext_quiet.2, hpc]
            rfl
  | store slot =>
      obtain ⟨ho, d, hp⟩ := hop
      have hbusy := h.own_busy ho
      refine ⟨_, h.touch hi ho (o := some slot) (fun _ _ => rfl)
        (fun slot' hs => Function.update_of_ne hs ..) hbusy.1 (.inl rfl)
        ⟨slot, d, rfl, hp, Function.update_self ..⟩ (fun _ => by rw [hpc]; rfl) ?_ hnot⟩
      rw [hpc]
      exact (Int.sub_zero _).symm.trans (Int.add_zero _).symm
  | count =>
      obtain ⟨slot, d, ho, hp, hb⟩ := hop
      have hbusy := h.own_busy ho
      refine ⟨_, h.touch hi ho (o := some slot) (fun _ _ => rfl) (fun _ _ => rfl) hbusy.1
        (.inl rfl) ⟨slot, d, rfl, hp, hb⟩ (fun _ => by rw [hpc]; rfl) ?_ hnot⟩
      rw [hpc]
      exact congrArg (· + 1) (Int.sub_zero _).symm
  | ret fate => exact absurd rfl (hret fate)

theorem OpInv.releaseNext {t : StagedTable} {f : List (Nat × Block)} {h : UInt64}
    {probe slot own d : Nat} (ha : At slots h probe slot) (hp : Placed slots t h d own)
    (hb : t.block own = some i) (hd : probe ≤ d) (hk : t.key slot ≠ h) :
    OpInv slots t f h i (some own) (.releasing (some .stored) (releaseNext slots probe slot)) ∧
      (OpPc.releasing (some .stored) (releaseNext slots probe slot)).counted = true := by
  have hne : probe ≠ d := by
    rintro rfl
    rw [ha.2, ← hp.1.2] at hk
    exact hk hp.2.1
  have hlt := hp.1.1
  have hn : probe + 1 < slots := by omega
  rw [Ref.releaseNext, if_pos hn]
  exact ⟨⟨ha.next hn, own, d, rfl, hp, hb, by omega⟩, rfl⟩

/-- The state after an access of a release whose operation stored an entry. -/
def OpsState.storedAccess (slots : Nat) (s : OpsState) (i : Nat) (pc : ReleasePc) : OpsState :=
  s.moved i (.releasing (some .stored) (releaseStep slots (s.key i) pc s.table).1)
    (releaseStep slots (s.key i) pc s.table).2.1
    (s.freed ++ ((releaseStep slots (s.key i) pc s.table).2.2.map fun b => (i, b)).toList)

theorem OpsInv.lt_of_releasing (h : OpsInv slots own s) {fate : Option StagedFate}
    {pc : ReleasePc} (hpc : s.pc i = .releasing fate pc) : i < s.nops :=
  h.lt_nops fun hf => by rw [hf] at hpc; exact nomatch hpc

theorem releasing_ne_ret {pc : ReleasePc} (hpc : s.pc i = .releasing (some .stored) pc)
    (hret : pc ≠ .ret) : s.pc i ≠ .releasing (some .stored) .ret := by
  rw [hpc]
  intro he
  injection he with _ he
  exact hret he

/-- The entry is counted, so the release scans. -/
theorem OpsInv.releaseAny (h : OpsInv slots own s) (hpc : s.pc i = .releasing (some .stored) .any) :
    ∃ own', OpsInv slots own' (s.storedAccess slots i .any) := by
  have hi := h.lt_of_releasing hpc
  have hop := h.op i
  rw [hpc] at hop
  obtain ⟨slot, d, ho, hp, hb⟩ := hop
  have hslots : 0 < slots := Nat.lt_of_le_of_lt (Nat.zero_le d) hp.1.1
  have hpos : 0 < s.table.live := by
    rw [h.live]
    exact countBelow_pos hi (by rw [hpc]; rfl)
  have hany : stagedAny s.table ∧ 0 < slots :=
    ⟨decide_eq_true (Int.ne_of_gt hpos), hslots⟩
  simp only [OpsState.storedAccess, releaseStep, if_pos hany, Option.map_none,
    Option.toList_none, List.append_nil]
  exact ⟨own, h.move hi ⟨At.home hslots, slot, d, ho, hp, hb, Nat.zero_le d⟩
    (fun _ => by rw [hpc]; rfl) (by rw [hpc]; rfl) (releasing_ne_ret hpc nofun)⟩

/-- A slot that has the handle is the operation's own, and one that has not is
before it, and not empty. -/
theorem OpsInv.releaseLoad (h : OpsInv slots own s) {probe slot : Nat}
    (hpc : s.pc i = .releasing (some .stored) (.load probe slot)) :
    ∃ own', OpsInv slots own' (s.storedAccess slots i (.load probe slot)) := by
  have hi := h.lt_of_releasing hpc
  have hnot := releasing_ne_ret hpc nofun
  have hop := h.op i
  rw [hpc] at hop
  obtain ⟨ha, o, d, ho, hp, hb, hd⟩ := hop
  by_cases hk : s.table.key slot = s.key i
  · have hslot := h.own_of_key (by rw [hpc]; rfl) hk
    simp only [OpsState.storedAccess, releaseStep, hk,
      if_neg (ne_empty_of_not_reserved (h.keys i hi)), ne_eq, not_true, if_false, Option.map_none,
      Option.toList_none, List.append_nil]
    obtain rfl := Option.some.inj (ho.symm.trans hslot)
    exact ⟨own, h.move hi ⟨ho, ⟨d, hp⟩, hb⟩ (fun _ => by rw [hpc]; rfl)
      (by rw [hpc]; rfl) hnot⟩
  · have hne : s.table.key slot ≠ keyEmpty := by
      rcases Nat.lt_or_eq_of_le hd with hlt | rfl
      · rw [ha.2]
        exact hp.2.2 probe hlt
      · rw [ha.2, ← hp.1.2] at hk
        exact absurd hp.2.1 hk
    simp only [OpsState.storedAccess, releaseStep, if_neg hne, ne_eq, hk, not_false_eq_true,
      if_true, Option.map_none, Option.toList_none, List.append_nil]
    obtain ⟨hnext, hcount⟩ := OpInv.releaseNext (f := s.freed) ha hp hb hd hk
    exact ⟨own, h.move hi (ho ▸ hnext) (fun _ => by rw [hpc]; rfl)
      (by rw [hcount, hpc]; rfl) hnot⟩

/-- Nobody else has taken the entry. -/
theorem OpsInv.releaseCas (h : OpsInv slots own s) {slot : Nat}
    (hpc : s.pc i = .releasing (some .stored) (.cas slot)) :
    ∃ own', OpsInv slots own' (s.storedAccess slots i (.cas slot)) := by
  have hop := h.op i
  rw [hpc] at hop
  obtain ⟨ho, ⟨d, hp⟩, hb⟩ := hop
  simp only [OpsState.storedAccess, releaseStep, if_pos hp.2.1, Option.map_none,
    Option.toList_none, List.append_nil]
  have hk : (s.table.setKey slot keyLocked).key slot = keyLocked := Function.update_self ..
  refine ⟨_, h.touch (h.lt_of_releasing hpc) ho (o := some slot)
    (fun slot' hs => Function.update_of_ne hs ..) (fun _ _ => rfl)
    (by rw [hk]; exact keyLocked_ne_empty) (.inl rfl) ⟨rfl, hk, hb, hp.1.slot_lt⟩
    (fun hh => nomatch hh) ?_ (releasing_ne_ret hpc nofun)⟩
  rw [hpc]
  exact (Int.sub_add_cancel _ 1).symm

theorem OpsInv.releaseSwap (h : OpsInv slots own s) {slot : Nat}
    (hpc : s.pc i = .releasing (some .stored) (.swap slot)) :
    ∃ own', OpsInv slots own' (s.storedAccess slots i (.swap slot)) := by
  have hop := h.op i
  rw [hpc] at hop
  obtain ⟨ho, hk, hb, -⟩ := hop
  simp only [OpsState.storedAccess, releaseStep, Option.map_none, Option.toList_none,
    List.append_nil]
  refine ⟨_, h.touch (h.lt_of_releasing hpc) ho (o := some slot) (fun _ _ => rfl)
    (fun slot' hs => Function.update_of_ne hs ..) (hk ▸ keyLocked_ne_empty) (.inl rfl)
    ⟨rfl, hk, hb⟩ (fun hh => nomatch hh) ?_ (releasing_ne_ret hpc nofun)⟩
  rw [hpc]
  exact (Int.sub_add_cancel _ 1).symm

theorem OpsInv.releaseCount (h : OpsInv slots own s) {slot : Nat} {block : Option Block}
    (hpc : s.pc i = .releasing (some .stored) (.count slot block)) :
    ∃ own', OpsInv slots own' (s.storedAccess slots i (.count slot block)) := by
  have hop := h.op i
  rw [hpc] at hop
  obtain ⟨ho, hk, hb⟩ := hop
  simp only [OpsState.storedAccess, releaseStep, Option.map_none, Option.toList_none,
    List.append_nil]
  refine ⟨_, h.touch (h.lt_of_releasing hpc) ho (o := some slot) (fun _ _ => rfl) (fun _ _ => rfl)
    (hk ▸ keyLocked_ne_empty) (.inl rfl) ⟨rfl, hk, hb⟩ (fun hh => nomatch hh) ?_
    (releasing_ne_ret hpc nofun)⟩
  rw [hpc]
  exact (Int.add_zero _).symm

/-- The slot is nobody's from here on. -/
theorem OpsInv.releaseTomb (h : OpsInv slots own s) {slot : Nat} {block : Option Block}
    (hpc : s.pc i = .releasing (some .stored) (.tomb slot block)) :
    ∃ own', OpsInv slots own' (s.storedAccess slots i (.tomb slot block)) := by
  have hop := h.op i
  rw [hpc] at hop
  obtain ⟨ho, hk, hb⟩ := hop
  simp only [OpsState.storedAccess, releaseStep, Option.map_none, Option.toList_none,
    List.append_nil]
  have hk' : (s.table.setKey slot keyTomb).key slot = keyTomb := Function.update_self ..
  refine ⟨_, h.touch (h.lt_of_releasing hpc) ho (o := none)
    (fun slot' hs => Function.update_of_ne hs ..) (fun _ _ => rfl)
    (by rw [hk']; exact keyTomb_ne_empty) (.inr ⟨rfl, hk'⟩) ⟨rfl, hb⟩ (fun hh => nomatch hh) ?_
    (releasing_ne_ret hpc nofun)⟩
  rw [hpc]
  exact (Int.sub_zero _).symm.trans (Int.add_zero _).symm

theorem OpsInv.releaseFree (h : OpsInv slots own s) {block : Option Block}
    (hpc : s.pc i = .releasing (some .stored) (.free block)) :
    ∃ own', OpsInv slots own' (s.storedAccess slots i (.free block)) := by
  have hop := h.op i
  rw [hpc] at hop
  obtain ⟨ho, rfl⟩ := hop
  simp only [OpsState.storedAccess, releaseStep, Option.map_some, Option.toList_some]
  refine ⟨_, h.update (h.lt_of_releasing hpc) (o := none) (fun _ _ _ _ => ⟨rfl, rfl⟩)
    (fun _ hk => hk) (fun slot he ht => .inr (h.owned_other ho he ht))
    (fun _ _ _ _ hoi => nomatch hoi)
    ⟨rfl, List.mem_append_right _ (List.mem_singleton.mpr rfl)⟩
    (fun hh => nomatch hh) ?_ (.inr ⟨rfl, rfl⟩) (releasing_ne_ret hpc nofun)⟩
  rw [hpc]
  exact (Int.sub_zero _).symm.trans (Int.add_zero _).symm

/-- A release of an operation whose attach stored an entry. -/
theorem OpsInv.releaseStored (h : OpsInv slots own s) {pc : ReleasePc}
    (hpc : s.pc i = .releasing (some .stored) pc) (hret : pc ≠ .ret) :
    ∃ own', OpsInv slots own' (s.storedAccess slots i pc) := by
  cases pc with
  | any => exact h.releaseAny hpc
  | load probe slot => exact h.releaseLoad hpc
  | cas slot => exact h.releaseCas hpc
  | swap slot => exact h.releaseSwap hpc
  | count slot block => exact h.releaseCount hpc
  | tomb slot block => exact h.releaseTomb hpc
  | free block => exact h.releaseFree hpc
  | ret => exact absurd rfl hret

/-- The accesses at which a release has claimed nothing. -/
def ReleasePc.scanning : ReleasePc → Bool
  | .any | .load _ _ | .cas _ | .ret => true
  | _ => false

/-- Of an operation that stored nothing, a release only scans. -/
theorem OpInv.idle {t : StagedTable} {freed : List (Nat × Block)} {h : UInt64}
    {o : Option Nat} {fate : Option StagedFate} {pc : ReleasePc}
    (hf : fate ≠ some .stored) :
    OpInv slots t freed h i o (.releasing fate pc) ↔ o = none ∧ pc.scanning = true := by
  rcases fate with _ | _ | _ | _
  · cases pc <;> simp [OpInv, ReleasePc.scanning]
  · exact absurd rfl hf
  · cases pc <;> simp [OpInv, ReleasePc.scanning]
  · cases pc <;> simp [OpInv, ReleasePc.scanning]

theorem idle_quiet {fate : Option StagedFate} {pc : ReleasePc} (hf : fate ≠ some .stored) :
    (OpPc.releasing fate pc).holds = false ∧ (OpPc.releasing fate pc).counted = false := by
  rcases fate with _ | _ | _ | _
  · exact ⟨rfl, rfl⟩
  · exact absurd rfl hf
  · exact ⟨rfl, rfl⟩
  · exact ⟨rfl, rfl⟩

/-- A scanning access changes nothing, unless it is the compare-exchange that
claims an entry. -/
theorem releaseStep_scanning (slots : Nat) {key : UInt64} {pc : ReleasePc} {t : StagedTable}
    (hs : pc.scanning = true) (hc : ∀ slot, pc = .cas slot → t.key slot ≠ key) :
    (releaseStep slots key pc t).1.scanning = true ∧
      (releaseStep slots key pc t).2 = (t, none) := by
  cases pc with
  | any =>
      rw [releaseStep]
      split <;> exact ⟨rfl, rfl⟩
  | load probe slot =>
      rw [releaseStep]
      split
      · exact ⟨rfl, rfl⟩
      · split
        · refine ⟨?_, rfl⟩
          unfold Ref.releaseNext
          split <;> rfl
        · exact ⟨rfl, rfl⟩
  | cas slot =>
      rw [releaseStep, if_neg (hc slot rfl)]
      exact ⟨rfl, rfl⟩
  | ret => exact ⟨rfl, rfl⟩
  | swap _ | count _ _ | tomb _ _ | free _ => exact nomatch hs

theorem OpsInv.releaseTick (h : OpsInv slots own s) (hg : recycleOk s (.releaseTick i))
    {s' : OpsState} (hs : OpsState.step slots s (.releaseTick i) = some s') :
    ∃ own', OpsInv slots own' s' := by
  obtain ⟨fate, pc, hpc, hret, rfl⟩ := OpsState.step_releaseTick hs
  by_cases hf : fate = some .stored
  · subst hf
    exact h.releaseStored hpc hret
  · have hi := h.lt_of_releasing hpc
    have hop := h.op i
    rw [hpc] at hop
    obtain ⟨ho, hscan⟩ := (OpInv.idle hf).mp hop
    have hc : ∀ slot, pc = .cas slot → s.table.key slot ≠ s.key i := by
      rintro slot rfl hk
      unfold recycleOk at hg
      simp only [hpc] at hg
      exact hf (hg hk)
    obtain ⟨hscan', hst⟩ := releaseStep_scanning slots hscan hc
    rw [hst, Option.map_none, Option.toList_none, List.append_nil]
    refine ⟨own, h.move hi ((OpInv.idle hf).mpr ⟨ho, hscan'⟩) (fun hh => ?_) ?_ ?_⟩
    · rw [(idle_quiet hf).1] at hh
      exact nomatch hh
    · rw [(idle_quiet hf).2, hpc, (idle_quiet hf).2]
    · rw [hpc]
      intro he
      injection he with he _
      exact hf he

theorem OpsInv.handOut (h : OpsInv slots own s) {key : UInt64} (hk : ¬ reservedKey key) :
    OpsInv slots own (s.handedOut key) := by
  have hlast : s.pc s.nops = .fresh := h.fresh _ (Nat.le_refl _)
  refine ⟨?_, ?_, h.own_inj, h.owned, ?_, ?_, ?_, ?_, h.nodup⟩
  · intro i hi
    change ¬ reservedKey (Function.update s.key s.nops key i)
    by_cases he : i = s.nops
    · rw [he, Function.update_self]
      exact hk
    · rw [Function.update_of_ne he]
      exact h.keys i (Nat.lt_of_le_of_ne (Nat.lt_succ_iff.mp hi) he)
  · intro i hi
    change s.nops + 1 ≤ i at hi
    exact (Function.update_of_ne (by omega) ..).trans (h.fresh i (by omega))
  · intro i
    change OpInv slots s.table s.freed (Function.update s.key s.nops key i) i (own i)
      (Function.update s.pc s.nops .handed i)
    have hop := h.op i
    by_cases he : i = s.nops
    · subst he
      rw [hlast] at hop
      rw [Function.update_self, Function.update_self]
      exact hop
    · rw [Function.update_of_ne he, Function.update_of_ne he]
      exact hop
  · exact h.phaseUniq.handedOut nofun
  · change s.table.live = countBelow (s.nops + 1) fun j =>
      (Function.update s.pc s.nops .handed j).counted
    rw [countBelow_succ, h.live, Function.update_self]
    refine (Int.add_zero _).symm.trans (congrArg (· + 0) (countBelow_congr fun j hj => ?_))
    rw [Function.update_of_ne (Nat.ne_of_lt hj)]
  · intro p hp
    obtain ⟨hp2, hpc⟩ := h.freed p hp
    refine ⟨hp2, ?_⟩
    change Function.update s.pc s.nops .handed p.1 = _
    refine (Function.update_of_ne ?_ ..).trans hpc
    intro he
    rw [he, hlast] at hpc
    exact nomatch hpc

/-- A call boundary: the operation moves between two program counters of the
same entry. -/
theorem OpsInv.boundary (h : OpsInv slots own s) {pc : OpPc} (hf : s.pc i ≠ .fresh)
    (hop : OpInv slots s.table s.freed (s.key i) i (own i) (s.pc i) →
      OpInv slots s.table s.freed (s.key i) i (own i) pc)
    (hholds : pc.holds = (s.pc i).holds) (hcount : pc.counted = (s.pc i).counted)
    (hret : s.pc i ≠ .releasing (some .stored) .ret) :
    ∃ own', OpsInv slots own' (s.setPc i pc) :=
  ⟨own, h.move (h.lt_nops hf) (hop (h.op i)) (fun hh => hholds ▸ hh) hcount hret⟩

theorem OpsInv.step (h : OpsInv slots own s) {a : OpAct} (hk : keysOk s a)
    (hg : recycleOk s a) {s' : OpsState} (hs : OpsState.step slots s a = some s') :
    ∃ own', OpsInv slots own' s' := by
  cases a with
  | handOut key =>
      obtain rfl := Option.some.inj hs
      exact ⟨own, h.handOut hk⟩
  | attach i =>
      obtain ⟨hpc, rfl⟩ := OpsState.step_attach hs
      refine h.boundary (by rw [hpc]; exact nofun) (fun hop => ?_) ?_ ?_
        (by rw [hpc]; exact nofun)
      · rw [hpc] at hop
        unfold attachStart
        split
        · exact hop
        · split
          · next hslots => exact ⟨hop, At.home hslots, Chain.zero⟩
          · exact hop
      · rw [hpc]
        unfold attachStart
        split
        · rfl
        · split <;> rfl
      · rw [hpc]
        unfold attachStart
        split
        · rfl
        · split <;> rfl
  | plain i =>
      obtain ⟨hpc, rfl⟩ := OpsState.step_plain hs
      exact h.boundary (by rw [hpc]; exact nofun) (fun hop => by rw [hpc] at hop; exact hop)
        (by rw [hpc]; rfl) (by rw [hpc]; rfl) (by rw [hpc]; exact nofun)
  | attachTick i => exact h.attachTick hg hs
  | null i =>
      rcases OpsState.step_null hs with ⟨fate, hpc, rfl⟩ | ⟨hpc, rfl⟩
      · refine h.boundary (by rw [hpc]; exact nofun) (fun hop => ?_) ?_ ?_
          (by rw [hpc]; exact nofun)
        · rw [hpc] at hop
          cases fate <;> exact hop
        · rw [hpc]
          cases fate <;> rfl
        · rw [hpc]
          cases fate <;> rfl
      · exact h.boundary (by rw [hpc]; exact nofun) (fun hop => by rw [hpc] at hop; exact hop)
          (by rw [hpc]; rfl) (by rw [hpc]; rfl) (by rw [hpc]; exact nofun)
  | release i =>
      obtain ⟨fate, hpc, rfl⟩ := OpsState.step_release hs
      refine h.boundary (by rw [hpc]; exact nofun) (fun hop => ?_) ?_ ?_
        (by rw [hpc]; exact nofun)
      · rw [hpc] at hop
        rcases fate with _ | _ | _ | _ <;> exact hop
      · rw [hpc]
        rcases fate with _ | _ | _ | _ <;> rfl
      · rw [hpc]
        rcases fate with _ | _ | _ | _ <;> rfl
  | releaseTick i => exact h.releaseTick hg hs

theorem OpsInv.run {run : List OpAct}
    (hm : Meets (OpsState.step slots) (fun s a => keysOk s a ∧ recycleOk s a) .init run)
    (he : exec (OpsState.step slots) .init run = some s) : ∃ own, OpsInv slots own s :=
  exec_invariant (I := fun s => ∃ own, OpsInv slots own s)
    (fun _ _ _ ⟨_, h⟩ hg hs => h.step hg.1 hg.2 hs) ⟨_, .init⟩ hm he

end AbiWrapper.Ref
