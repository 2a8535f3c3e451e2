import AbiWrapper.Lib.Run
import AbiWrapper.Proofs.StagedTable

/-!
# Histories of the staged table

Two facts about every sequence of attaches and releases that one thread makes.

With handles that are each attached once before they are released, the table
is the map `Entries` says it is, for ever: tombstones cost nothing, and the
table is full when every slot is an entry's and not before. `Tracked.step`
carries this.

With any handles at all, `Reached` is what is left: an entry is on its probe
sequence with no vacant slot before it, and alone. It says nothing of the
counter, which a release of the tombstone's own value takes down. An attach of
a key that is in the table stops at the first slot it may claim, and a
tombstone in front of the key's entry is one: it is refused if and only if
there is none.
-/

namespace AbiWrapper.Ref

open AbiWrapper.Lib

variable {slots : Nat} {t : StagedTable} {s s' : StagedUse} {key : UInt64} {block : Option Block}

/-! ## Each key attached once -/

/-- A handle the implementation hands out is none of the three values, and is
not attached again while it is live. -/
def attachedOnce (s : StagedUse) : StagedCall → Prop
  | .attach key _ => ¬reservedKey key ∧ key ∉ s.liveKeys
  | .release key => ¬reservedKey key

instance (s : StagedUse) : ∀ c, Decidable (attachedOnce s c)
  | .attach _ _ => inferInstanceAs (Decidable (_ ∧ _))
  | .release _ => inferInstanceAs (Decidable (¬_))

theorem step_stored {t' : StagedTable} (h : stagedAttach slots key block s.table = (.stored, t')) :
    s.step slots (.attach key block) = some ⟨t', (key, block) :: s.live⟩ := by
  simp only [StagedUse.step, h]

theorem step_refused {fate : StagedFate} {t' : StagedTable}
    (h : stagedAttach slots key block s.table = (fate, t')) (hfate : fate ≠ .stored) :
    s.step slots (.attach key block) = some ⟨t', s.live⟩ := by
  cases fate with
  | stored => exact absurd rfl hfate
  | duplicate => simp only [StagedUse.step, h]
  | full => simp only [StagedUse.step, h]

/-- The table is the map of what is live. -/
def Tracked (slots : Nat) (s : StagedUse) : Prop := Entries slots s.table s.live

theorem Tracked.init : Tracked slots .init := Entries.init

theorem Tracked.step (h : Tracked slots s) {c : StagedCall} (hg : attachedOnce s c)
    (hs : s.step slots c = some s') : Tracked slots s' := by
  cases c with
  | attach key block =>
      obtain ⟨hkey, hnew⟩ := hg
      rcases Nat.lt_or_ge s.live.length slots with hroom | hfull
      · obtain ⟨t', ht, hent⟩ := Entries.attach h hkey hnew hroom
        rw [step_stored ht] at hs
        cases hs
        exact hent
      · rw [step_refused (Entries.attach_full h hkey hnew hfull) (by simp)] at hs
        cases hs
        exact h
  | release key =>
      cases hs
      by_cases hmem : key ∈ s.liveKeys
      · obtain ⟨e, hm, rfl⟩ := List.mem_map.mp hmem
        obtain ⟨t', ht, hent⟩ := Entries.release h (show (e.1, e.2) ∈ s.live from hm)
        show Entries slots (stagedRelease slots e.1 s.table).1 _
        rw [ht]
        exact hent
      · show Entries slots (stagedRelease slots key s.table).1 _
        rw [Entries.release_missing h hg hmem, List.filter_eq_self.mpr]
        · exact h
        · intro e hm
          exact decide_eq_true fun heq => hmem (heq ▸ List.mem_map_of_mem hm)

theorem Tracked.run {calls : List StagedCall}
    (hm : Meets (StagedUse.step slots) attachedOnce .init calls)
    (he : exec (StagedUse.step slots) .init calls = some s) : Tracked slots s :=
  exec_invariant (fun _ _ _ h hg hs => Tracked.step h hg hs) Tracked.init hm he

/-- What every call answers in a state, and what it frees. -/
structure Capacity (slots : Nat) (s : StagedUse) : Prop where
  distinct : s.liveKeys.Nodup
  full : ∀ key block, ¬reservedKey key → key ∉ s.liveKeys →
    ((stagedAttach slots key block s.table).1 = .full ↔ s.live.length = slots)
  stored : ∀ key block, ¬reservedKey key → key ∉ s.liveKeys →
    ((stagedAttach slots key block s.table).1 = .stored ↔ s.live.length ≠ slots)
  any : stagedAny s.table = true ↔ s.live ≠ []
  missing : ∀ key, ¬reservedKey key → key ∉ s.liveKeys →
    stagedRelease slots key s.table = (s.table, none)
  freed : ∀ key block, (key, block) ∈ s.live → (stagedRelease slots key s.table).2 = block

theorem Tracked.fate (h : Tracked slots s) (hkey : ¬reservedKey key) (hnew : key ∉ s.liveKeys)
    (block : Option Block) :
    (s.live.length ≠ slots ∧ (stagedAttach slots key block s.table).1 = .stored) ∨
      (s.live.length = slots ∧ (stagedAttach slots key block s.table).1 = .full) := by
  rcases Nat.lt_or_ge s.live.length slots with hroom | hfull
  · obtain ⟨t', ht, -⟩ := Entries.attach h hkey hnew hroom
    refine .inl ⟨by omega, ?_⟩
    rw [ht]
  · refine .inr ⟨Nat.le_antisymm (Entries.length_le h) hfull, ?_⟩
    rw [Entries.attach_full h hkey hnew hfull]

theorem Tracked.capacity (h : Tracked slots s) : Capacity slots s where
  distinct := h.keys
  full key block hkey hnew := by
    rcases h.fate hkey hnew block with ⟨hlen, hf⟩ | ⟨hlen, hf⟩ <;> simp [hlen, hf]
  stored key block hkey hnew := by
    rcases h.fate hkey hnew block with ⟨hlen, hf⟩ | ⟨hlen, hf⟩ <;> simp [hlen, hf]
  any := Entries.stagedAny_iff h
  missing _ hkey hnew := Entries.release_missing h hkey hnew
  freed key block hm := by
    obtain ⟨t', ht, -⟩ := Entries.release h hm
    rw [ht]

/-- Every history in which no live key is attached again keeps the table a map
with room for exactly as many entries as it has slots. -/
theorem staged_capacity {calls : List StagedCall}
    (hm : Meets (StagedUse.step slots) attachedOnce .init calls)
    (he : exec (StagedUse.step slots) .init calls = some s) : Capacity slots s :=
  (Tracked.run hm he).capacity

/-- Two handles that hash to one slot of the default table: the second is
stored behind the first, and again in front of its tombstone. -/
def sharedHome : List StagedCall :=
  [.attach 1173 (some 0), .attach 2226 (some 1), .release 1173, .release 2226,
    .attach 2226 (some 2)]

theorem sharedHome_capacity :
    ∃ s, exec (StagedUse.step stagedRequestSlots) .init sharedHome = some s ∧
      s.live = [(2226, some 2)] ∧ Capacity stagedRequestSlots s := by
  have hm : Meets (StagedUse.step stagedRequestSlots) attachedOnce .init sharedHome := by decide
  exact ⟨_, rfl, by decide, staged_capacity hm rfl⟩

/-! ## Any keys at all -/

/-- A key is live in the table. -/
def StagedTable.holds (t : StagedTable) (slots : Nat) (key : UInt64) : Prop :=
  ¬reservedKey key ∧ ∃ s, s < slots ∧ t.key s = key

/-- A tombstone is in front of a key's entry on the key's probe sequence. -/
def StagedTable.tombBefore (t : StagedTable) (slots : Nat) (key : UInt64) : Prop :=
  ∃ d, d < slots ∧ t.key (probeSlot slots key d) = key ∧
    ∃ i, i < d ∧ t.key (probeSlot slots key i) = keyTomb

instance (t : StagedTable) (slots : Nat) (key : UInt64) : Decidable (t.holds slots key) :=
  inferInstanceAs (Decidable (_ ∧ _))

instance (t : StagedTable) (slots : Nat) (key : UInt64) : Decidable (t.tombBefore slots key) :=
  inferInstanceAs (Decidable (∃ d, d < slots ∧ _ ∧ ∃ i, i < d ∧ _))

/-- An entry is reached from its key's home without passing a vacant slot, and
its key is in no other slot. -/
structure Reached (slots : Nat) (t : StagedTable) : Prop where
  placed : ∀ s, s < slots → ¬reservedKey (t.key s) →
    ∃ d, d < slots ∧ probeSlot slots (t.key s) d = s ∧
      ∀ i, i < d → t.key (probeSlot slots (t.key s) i) ≠ keyEmpty
  single : ∀ s, s < slots → ∀ s', s' < slots → t.key s = t.key s' → ¬reservedKey (t.key s) → s = s'

namespace Reached

theorem init : Reached slots .init where
  placed _ _ h := absurd (.inl rfl) h
  single _ _ _ _ _ h := absurd (.inl rfl) h

/-- Nothing depends on the blocks or the counter. -/
theorem congr (h : Reached slots t) {t' : StagedTable} (hk : t'.key = t.key) :
    Reached slots t' where
  placed := by
    rw [hk]
    exact h.placed
  single := by
    rw [hk]
    exact h.single

/-- A tombstone takes an entry out and puts nothing in. -/
theorem bury (h : Reached slots t) {slot : Nat} : Reached slots (t.setKey slot keyTomb) where
  placed s hs hkey := by
    rw [StagedTable.setKey_key, Function.update_apply] at hkey ⊢
    split at hkey
    · exact absurd (.inr (.inr rfl)) hkey
    · next hne =>
        rw [if_neg hne]
        obtain ⟨d, hd, hslot, hchain⟩ := h.placed s hs hkey
        exact ⟨d, hd, hslot, fun i hi => update_ne_empty (by decide) (hchain i hi)⟩
  single s hs s' hs' heq hkey := by
    rw [StagedTable.setKey_key, Function.update_apply] at hkey
    rw [StagedTable.setKey_key, Function.update_apply, Function.update_apply] at heq
    split at hkey
    · exact absurd (.inr (.inr rfl)) hkey
    · next hne =>
        rw [if_neg hne] at heq
        split at heq
        · exact absurd (.inr (.inr heq)) hkey
        · exact h.single s hs s' hs' heq hkey

/-- A key that is in no slot may be put into a slot of its probe sequence that
no vacant slot is before. -/
theorem put (h : Reached slots t) (hkey : ¬reservedKey key)
    (hnew : ∀ s, s < slots → t.key s ≠ key) {e : Nat} (he : e < slots)
    (hbefore : ∀ i, i < e → t.key (probeSlot slots key i) ≠ keyEmpty) :
    Reached slots (t.setKey (probeSlot slots key e) key) where
  placed s hs hplain := by
    have hempty : key ≠ keyEmpty := fun h0 => hkey (.inl h0)
    rw [StagedTable.setKey_key, Function.update_apply] at hplain ⊢
    split at hplain
    · next heq =>
        rw [if_pos heq]
        exact ⟨e, he, heq.symm, fun i hi => update_ne_empty hempty (hbefore i hi)⟩
    · next hne =>
        rw [if_neg hne]
        obtain ⟨d, hd, hslot, hchain⟩ := h.placed s hs hplain
        exact ⟨d, hd, hslot, fun i hi => update_ne_empty hempty (hchain i hi)⟩
  single s hs s' hs' heq hplain := by
    rw [StagedTable.setKey_key, Function.update_apply] at hplain
    rw [StagedTable.setKey_key, Function.update_apply, Function.update_apply] at heq
    split at heq <;> split at heq
    · next h1 h2 => rw [h1, h2]
    · exact absurd heq.symm (hnew s' hs')
    · exact absurd heq (hnew s hs)
    · next h1 _ =>
        rw [if_neg h1] at hplain
        exact h.single s hs s' hs' heq hplain

/-- Where a key that is in the table is: on its probe sequence, at one place,
behind no vacant slot. -/
theorem path (h : Reached slots t) (hlive : t.holds slots key) :
    ∃ d, d < slots ∧ t.key (probeSlot slots key d) = key ∧
      (∀ i, i < d → t.key (probeSlot slots key i) ≠ keyEmpty) ∧
      ∀ i, i < slots → t.key (probeSlot slots key i) = key → i = d := by
  obtain ⟨hkey, s, hs, rfl⟩ := hlive
  obtain ⟨d, hd, hslot, hchain⟩ := h.placed s hs hkey
  refine ⟨d, hd, by rw [hslot], hchain, fun i hi hki => ?_⟩
  have hpos : 0 < slots := by omega
  have heq := h.single s hs _ (probeSlot_lt hpos) hki.symm hkey
  exact ringSlot_inj hi hd (heq.symm.trans hslot.symm)

/-- Behind no tombstone, a key in the table is found before a slot that may be
claimed. -/
theorem attach_refused (h : Reached slots t) (hlive : t.holds slots key)
    (hno : ¬t.tombBefore slots key) : stagedAttach slots key block t = (.duplicate, t) := by
  obtain ⟨d, hd, hk, hchain, huniq⟩ := h.path hlive
  rw [stagedAttach, if_neg hlive.1, ← probeSlot_zero (by omega)]
  refine attachLoop_duplicate (Nat.zero_add slots) (Nat.zero_le d) hd ?_ hk fun i _ hi => ⟨?_, ?_⟩
  · exact not_free_of_plain (hk.symm ▸ hlive.1)
  · intro hfree
    rcases hfree with h0 | htomb
    · exact hchain i hi h0
    · exact hno ⟨d, hd, hk, i, hi, htomb⟩
  · intro hki
    have := huniq i (by omega) hki
    omega

/-- Behind a tombstone, it is stored a second time. -/
theorem attach_again (h : Reached slots t) (hlive : t.holds slots key)
    (htomb : t.tombBefore slots key) (block : Option Block) :
    (stagedAttach slots key block t).1 = .stored := by
  obtain ⟨d, hd, hk, hchain, huniq⟩ := h.path hlive
  obtain ⟨d', hd', hk', i, hi, hti⟩ := htomb
  obtain rfl := huniq d' hd' hk'
  have hex : ∃ e, t.free (probeSlot slots key e) := ⟨i, .inr hti⟩
  have hle : Nat.find hex ≤ i := Nat.find_min' hex (.inr hti)
  rw [stagedAttach, if_neg hlive.1, ← probeSlot_zero (by omega),
    attachLoop_stored (Nat.zero_add slots) (Nat.zero_le _) (show Nat.find hex < slots by omega)
      (Nat.find_spec hex)]
  intro j _ hj
  refine ⟨Nat.find_min hex hj, fun hkj => ?_⟩
  have := huniq j (by omega) hkj
  omega

/-- An attach keeps what is left of the invariant if it does not store a key
behind whose tombstone there is an entry. -/
theorem attach (h : Reached slots t) (hok : t.holds slots key → ¬t.tombBefore slots key) :
    Reached slots (stagedAttach slots key block t).2 := by
  by_cases hlive : t.holds slots key
  · rw [h.attach_refused hlive (hok hlive)]
    exact h
  by_cases hkey : reservedKey key
  · rw [stagedAttach, if_pos hkey]
    exact h
  rcases Nat.eq_zero_or_pos slots with rfl | hpos
  · rw [stagedAttach, if_neg hkey]
    exact h
  have hnew : ∀ s, s < slots → t.key s ≠ key := fun s hs hk => hlive ⟨hkey, s, hs, hk⟩
  rw [stagedAttach, if_neg hkey, ← probeSlot_zero hpos]
  by_cases hex : ∃ e, e < slots ∧ t.free (probeSlot slots key e)
  · obtain ⟨he, hfree⟩ := Nat.find_spec hex
    have hmin : ∀ i, i < Nat.find hex → ¬t.free (probeSlot slots key i) := fun i hi hf =>
      Nat.find_min hex hi ⟨by omega, hf⟩
    rw [attachLoop_stored (Nat.zero_add slots) (Nat.zero_le _) he hfree fun i _ hi =>
      ⟨hmin i hi, hnew _ (probeSlot_lt hpos)⟩]
    exact (h.put hkey hnew he fun i hi h0 => hmin i hi (.inl h0)).congr rfl
  · rw [attachLoop_full (Nat.zero_add slots) fun i _ hi =>
      ⟨fun hf => hex ⟨i, hi, hf⟩, hnew _ (probeSlot_lt hpos)⟩]
    exact h

/-- Whatever its key is, a release leaves at most one slot with a tombstone
that did not have it. -/
theorem releaseLoop {left slot : Nat} (h : Reached slots t) :
    Reached slots (Ref.releaseLoop slots key left slot t).1 := by
  induction left generalizing slot with
  | zero => exact h
  | succ left ih =>
      rw [Ref.releaseLoop]
      split
      · exact h
      · split
        · exact ih
        · have hbury : Reached slots (t.setKey slot keyTomb) := h.bury
          refine hbury.congr ?_
          simp

theorem release (h : Reached slots t) : Reached slots (stagedRelease slots key t).1 := by
  rw [stagedRelease]
  split
  · exact h.releaseLoop
  · exact h

end Reached

/-- An attach of a key that is in the table does not find a tombstone in front
of the key's entry. -/
def noneBuried (slots : Nat) (s : StagedUse) : StagedCall → Prop
  | .attach key _ => s.table.holds slots key → ¬s.table.tombBefore slots key
  | .release _ => True

instance : ∀ c, Decidable (noneBuried slots s c)
  | .attach _ _ => inferInstanceAs (Decidable (_ → _))
  | .release _ => inferInstanceAs (Decidable True)

theorem step_table {c : StagedCall} (hs : s.step slots c = some s') :
    s'.table = match c with
      | .attach key block => (stagedAttach slots key block s.table).2
      | .release key => (stagedRelease slots key s.table).1 := by
  cases c with
  | attach key block =>
      rw [StagedUse.step] at hs
      split at hs <;> next heq =>
        cases hs
        simp [heq]
  | release key =>
      cases hs
      rfl

theorem Reached.step (h : Reached slots s.table) {c : StagedCall} (hg : noneBuried slots s c)
    (hs : s.step slots c = some s') : Reached slots s'.table := by
  rw [step_table hs]
  cases c with
  | attach key block => exact h.attach hg
  | release key => exact h.release

theorem Reached.run {calls : List StagedCall}
    (hm : Meets (StagedUse.step slots) (noneBuried slots) .init calls)
    (he : exec (StagedUse.step slots) .init calls = some s) : Reached slots s.table :=
  exec_invariant (I := fun s => Reached slots s.table) (fun _ _ _ h hg hs => h.step hg hs)
    Reached.init hm he

/-- What an attach of a key that is in the table does, and what follows for
the table. -/
structure DuplicatesRefused (slots : Nat) (t : StagedTable) : Prop where
  refused : ∀ key block, t.holds slots key →
    (stagedAttach slots key block t = (.duplicate, t) ↔ ¬t.tombBefore slots key)
  stored : ∀ key block, t.holds slots key →
    ((stagedAttach slots key block t).1 = .stored ↔ t.tombBefore slots key)
  single : ∀ key, ¬reservedKey key → ∀ s, s < slots → ∀ s', s' < slots →
    t.key s = key → t.key s' = key → s = s'

/-- In every history in which no attach of a live key finds a tombstone in front
of the key's entry, each key has at most one entry, and an attach of a live key
is refused without effect exactly when it does not find one either. -/
theorem duplicate_refused_iff {calls : List StagedCall}
    (hm : Meets (StagedUse.step slots) (noneBuried slots) .init calls)
    (he : exec (StagedUse.step slots) .init calls = some s) :
    DuplicatesRefused slots s.table := by
  have h := Reached.run hm he
  refine ⟨fun key block hlive => ⟨fun heq htomb => ?_, h.attach_refused hlive⟩,
    fun key block hlive => ⟨fun heq => ?_, fun htomb => h.attach_again hlive htomb block⟩, ?_⟩
  · have hst := h.attach_again hlive htomb block
    rw [heq] at hst
    exact nomatch hst
  · by_contra hno
    rw [h.attach_refused hlive hno] at heq
    exact nomatch heq
  · rintro key hkey s hs s' hs' rfl heq
    exact h.single s hs s' hs' heq.symm hkey

/-- The second handle of `sharedHome`, attached again while it is live behind
the first one's tombstone, is stored again. -/
def attachedTwice : List StagedCall :=
  [.attach 1173 (some 0), .attach 2226 (some 1), .release 1173]

theorem duplicate_stored :
    ∃ s, exec (StagedUse.step stagedRequestSlots) .init attachedTwice = some s ∧
      s.table.holds stagedRequestSlots 2226 ∧
      (stagedAttach stagedRequestSlots 2226 (some 2) s.table).1 = .stored ∧
      ∃ slot slot', slot < stagedRequestSlots ∧ slot' < stagedRequestSlots ∧ slot ≠ slot' ∧
        (stagedAttach stagedRequestSlots 2226 (some 2) s.table).2.key slot = 2226 ∧
        (stagedAttach stagedRequestSlots 2226 (some 2) s.table).2.key slot' = 2226 := by
  refine ⟨_, rfl, ⟨by decide, stagedHome stagedRequestSlots 2226 + 1, by decide, by decide⟩,
    by decide, stagedHome stagedRequestSlots 2226, stagedHome stagedRequestSlots 2226 + 1, ?_⟩
  decide

theorem duplicate_refused_twice :
    ∃ s, exec (StagedUse.step 2) .init
        [.attach 1173 (some 0), .attach 2226 (some 1), .attach 2226 (some 2)] = some s ∧
      s.live = [(2226, some 1), (1173, some 0)] ∧ DuplicatesRefused 2 s.table := by
  have hm : Meets (StagedUse.step 2) (noneBuried 2) .init
      [.attach 1173 (some 0), .attach 2226 (some 1), .attach 2226 (some 2)] := by decide
  exact ⟨_, rfl, by decide, duplicate_refused_iff hm rfl⟩

end AbiWrapper.Ref
