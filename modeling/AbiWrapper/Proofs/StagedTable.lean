import AbiWrapper.Lib.Ring
import AbiWrapper.Ref.Staging
import Mathlib.Data.List.Nodup
import Mathlib.Data.Finset.Card
import Mathlib.Tactic.Push

/-!
# The staged table as a finite map

Used by one thread, the table is a map from handles to blocks with room for a
fixed number of them. `Entries` is the connection: every entry is on its probe
sequence with no vacant slot before it, every key that is in the table is an
entry's, and no key is there twice.

The map does not know of tombstones. A slot that was once taken never becomes
vacant again, so an entry stays reachable, and an attach takes a tombstone as
it takes a vacant slot, so none is lost.
-/

namespace AbiWrapper.Ref

open AbiWrapper.Lib

/-- The slot a key's `d`-th probe looks at. -/
def probeSlot (slots : Nat) (key : UInt64) (d : Nat) : Nat :=
  ringSlot slots (stagedHome slots key) d

/-- A slot an attach may claim. -/
def StagedTable.free (t : StagedTable) (slot : Nat) : Prop :=
  t.key slot = keyEmpty ∨ t.key slot = keyTomb

instance (t : StagedTable) (slot : Nat) : Decidable (t.free slot) :=
  inferInstanceAs (Decidable (_ ∨ _))

structure Entries (slots : Nat) (t : StagedTable) (m : List (UInt64 × Option Block)) : Prop where
  keys : (m.map Prod.fst).Nodup
  plain : ∀ e, e ∈ m → ¬reservedKey e.1
  placed : ∀ e, e ∈ m → ∃ d, d < slots ∧ t.key (probeSlot slots e.1 d) = e.1 ∧
    t.block (probeSlot slots e.1 d) = e.2 ∧
    ∀ i, i < d → t.key (probeSlot slots e.1 i) ≠ keyEmpty
  known : ∀ s, s < slots → ¬t.free s → t.key s ∈ m.map Prod.fst
  single : ∀ s, s < slots → ∀ s', s' < slots → t.key s = t.key s' → ¬t.free s → s = s'
  live : t.live = m.length

variable {slots : Nat} {t : StagedTable} {m : List (UInt64 × Option Block)} {key : UInt64}
  {block : Option Block}

theorem stagedHome_lt (hs : 0 < slots) : stagedHome slots key < slots := Nat.mod_lt _ hs

theorem probeSlot_lt {d : Nat} (hs : 0 < slots) : probeSlot slots key d < slots := ringSlot_lt hs

theorem probeSlot_zero (hs : 0 < slots) : probeSlot slots key 0 = stagedHome slots key :=
  ringSlot_zero (stagedHome_lt hs)

theorem probeSlot_succ {d : Nat} :
    (probeSlot slots key d + 1) % slots = probeSlot slots key (d + 1) := ringSlot_succ

/-- A slot that is not vacant stays so when a key or a tombstone is stored. -/
theorem update_ne_empty {keys : Nat → UInt64} {slot i : Nat} {k : UInt64} (hk : k ≠ keyEmpty)
    (hi : keys i ≠ keyEmpty) : Function.update keys slot k i ≠ keyEmpty := by
  rw [Function.update_apply]
  split
  · exact hk
  · exact hi

theorem not_free_of_plain {s : Nat} (h : ¬reservedKey (t.key s)) : ¬t.free s := by
  intro hf
  rcases hf with he | ht
  · exact h (.inl he)
  · exact h (.inr (.inr ht))

/-! ## The loops -/

/-- An attach takes the first slot it may claim. -/
theorem attachLoop_stored {d left e : Nat} (hleft : d + left = slots) (hde : d ≤ e)
    (he : e < slots) (hfree : t.free (probeSlot slots key e))
    (hbefore : ∀ i, d ≤ i → i < e →
      ¬t.free (probeSlot slots key i) ∧ t.key (probeSlot slots key i) ≠ key) :
    attachLoop slots key block left (probeSlot slots key d) t =
      (.stored, ((t.setKey (probeSlot slots key e) key).setBlock (probeSlot slots key e)
        block).addLive 1) := by
  induction left generalizing d with
  | zero => omega
  | succ left ih =>
      rw [attachLoop]
      rcases Nat.eq_or_lt_of_le hde with rfl | hlt
      · exact if_pos hfree
      · obtain ⟨hnot, hne⟩ := hbefore d (Nat.le_refl d) hlt
        rw [if_neg (show ¬(_ ∨ _) from hnot), if_neg hne, probeSlot_succ]
        exact ih (by omega) hlt fun i hi hie => hbefore i (by omega) hie

/-- An attach that meets the key before a slot it may claim leaves the table alone. -/
theorem attachLoop_duplicate {d left e : Nat} (hleft : d + left = slots) (hde : d ≤ e)
    (he : e < slots) (hfree : ¬t.free (probeSlot slots key e))
    (hkey : t.key (probeSlot slots key e) = key)
    (hbefore : ∀ i, d ≤ i → i < e →
      ¬t.free (probeSlot slots key i) ∧ t.key (probeSlot slots key i) ≠ key) :
    attachLoop slots key block left (probeSlot slots key d) t = (.duplicate, t) := by
  induction left generalizing d with
  | zero => omega
  | succ left ih =>
      rw [attachLoop]
      rcases Nat.eq_or_lt_of_le hde with rfl | hlt
      · rw [if_neg (show ¬(_ ∨ _) from hfree), if_pos hkey]
      · obtain ⟨hnot, hne⟩ := hbefore d (Nat.le_refl d) hlt
        rw [if_neg (show ¬(_ ∨ _) from hnot), if_neg hne, probeSlot_succ]
        exact ih (by omega) hlt fun i hi hie => hbefore i (by omega) hie

/-- An attach that meets neither has looked at every slot. -/
theorem attachLoop_full {d left : Nat} (hleft : d + left = slots)
    (hno : ∀ i, d ≤ i → i < slots →
      ¬t.free (probeSlot slots key i) ∧ t.key (probeSlot slots key i) ≠ key) :
    attachLoop slots key block left (probeSlot slots key d) t = (.full, t) := by
  induction left generalizing d with
  | zero => rfl
  | succ left ih =>
      obtain ⟨hnot, hne⟩ := hno d (Nat.le_refl d) (by omega)
      rw [attachLoop, if_neg (show ¬(_ ∨ _) from hnot), if_neg hne, probeSlot_succ]
      exact ih (by omega) fun i hi his => hno i (by omega) his

/-- A release finds the entry that no vacant slot is before. -/
theorem releaseLoop_found {d left e : Nat} (hleft : d + left = slots) (hde : d ≤ e)
    (he : e < slots) (hkey : t.key (probeSlot slots key e) = key) (hne : key ≠ keyEmpty)
    (hbefore : ∀ i, d ≤ i → i < e →
      t.key (probeSlot slots key i) ≠ keyEmpty ∧ t.key (probeSlot slots key i) ≠ key) :
    releaseLoop slots key left (probeSlot slots key d) t =
      ((((t.setKey (probeSlot slots key e) keyLocked).setBlock (probeSlot slots key e)
          none).addLive (-1)).setKey (probeSlot slots key e) keyTomb,
        t.block (probeSlot slots key e)) := by
  induction left generalizing d with
  | zero => omega
  | succ left ih =>
      rw [releaseLoop]
      rcases Nat.eq_or_lt_of_le hde with rfl | hlt
      · simp only [hkey]
        rw [if_neg hne, if_neg (not_not.mpr rfl)]
      · obtain ⟨hempty, hother⟩ := hbefore d (Nat.le_refl d) hlt
        rw [if_neg hempty, if_pos hother, probeSlot_succ]
        exact ih (by omega) hlt fun i hi hie => hbefore i (by omega) hie

theorem releaseLoop_missing {d left : Nat} (hleft : d + left = slots)
    (hno : ∀ i, d ≤ i → i < slots → t.key (probeSlot slots key i) ≠ key) :
    releaseLoop slots key left (probeSlot slots key d) t = (t, none) := by
  induction left generalizing d with
  | zero => rfl
  | succ left ih =>
      rw [releaseLoop]
      split
      · rfl
      · rw [if_pos (hno d (Nat.le_refl d) (by omega)), probeSlot_succ]
        exact ih (by omega) fun i hi his => hno i (by omega) his

/-! ## The map -/

namespace Entries

theorem init : Entries slots .init [] where
  keys := List.nodup_nil
  plain _ h := (List.not_mem_nil h).elim
  placed _ h := (List.not_mem_nil h).elim
  known _ _ h := absurd (.inl rfl) h
  single _ _ _ _ _ h := absurd (.inl rfl) h
  live := rfl

theorem mem_of_key (h : Entries slots t m) (hkey : ¬reservedKey key) {s : Nat} (hs : s < slots)
    (hk : t.key s = key) : key ∈ m.map Prod.fst :=
  hk ▸ h.known s hs (not_free_of_plain (hk ▸ hkey))

/-- A table with fewer entries than slots has a slot that may be claimed. -/
theorem exists_free (h : Entries slots t m) (hroom : m.length < slots) :
    ∃ s, s < slots ∧ t.free s := by
  by_contra hno
  push Not at hno
  have hcard : (m.map Prod.fst).toFinset.card < (Finset.range slots).card := by
    rw [List.toFinset_card_of_nodup h.keys, List.length_map, Finset.card_range]
    exact hroom
  obtain ⟨s, hs, s', hs', hne, heq⟩ :=
    Finset.exists_ne_map_eq_of_card_lt_of_maps_to hcard (f := t.key) fun s hs =>
      List.mem_toFinset.mpr (h.known s (Finset.mem_range.mp hs) (hno s (Finset.mem_range.mp hs)))
  exact hne (h.single s (Finset.mem_range.mp hs) s' (Finset.mem_range.mp hs') heq
    (hno s (Finset.mem_range.mp hs)))

/-- Different entries are in different slots that are not free. -/
theorem length_le_card (h : Entries slots t m) :
    m.length ≤ ((Finset.range slots).filter fun s => ¬t.free s).card := by
  have hsub : (m.map Prod.fst).toFinset ⊆
      ((Finset.range slots).filter fun s => ¬t.free s).image t.key := by
    intro key hkey
    obtain ⟨e, hm, rfl⟩ := List.mem_map.mp (List.mem_toFinset.mp hkey)
    obtain ⟨d, hd, hk, -, -⟩ := h.placed e hm
    refine Finset.mem_image.mpr ⟨probeSlot slots e.1 d, Finset.mem_filter.mpr ⟨?_, ?_⟩, hk⟩
    · exact Finset.mem_range.mpr (probeSlot_lt (by omega))
    · exact not_free_of_plain (hk.symm ▸ h.plain e hm)
  have hcard := (Finset.card_le_card hsub).trans Finset.card_image_le
  rwa [List.toFinset_card_of_nodup h.keys, List.length_map] at hcard

theorem length_le (h : Entries slots t m) : m.length ≤ slots := by
  have hle := h.length_le_card.trans (Finset.card_filter_le _ _)
  rwa [Finset.card_range] at hle

/-- In a table with as many entries as slots every slot is an entry's. -/
theorem none_free (h : Entries slots t m) (hfull : slots ≤ m.length) {s : Nat} (hs : s < slots) :
    ¬t.free s := by
  have hcard : ((Finset.range slots).filter fun s => ¬t.free s).card =
      (Finset.range slots).card := by
    refine Nat.le_antisymm (Finset.card_filter_le _ _) ?_
    rw [Finset.card_range]
    exact hfull.trans h.length_le_card
  exact Finset.card_filter_eq_iff.mp hcard s (Finset.mem_range.mpr hs)

/-- The first slot of a key's probe sequence that may be claimed. -/
theorem exists_first_free (h : Entries slots t m) (hroom : m.length < slots) (key : UInt64) :
    ∃ e, e < slots ∧ t.free (probeSlot slots key e) ∧
      ∀ i, i < e → ¬t.free (probeSlot slots key i) := by
  obtain ⟨s, hs, hfree⟩ := h.exists_free hroom
  obtain ⟨d, hd, rfl⟩ := ringSlot_surj (stagedHome slots key) hs
  have hex : ∃ e, t.free (probeSlot slots key e) := ⟨d, hfree⟩
  exact ⟨Nat.find hex, Nat.lt_of_le_of_lt (Nat.find_min' hex hfree) hd, Nat.find_spec hex,
    fun i hi => Nat.find_min hex hi⟩

/-- What claiming a free slot of a new key's probe sequence makes of the map. -/
theorem claim (h : Entries slots t m) (hkey : ¬reservedKey key) (hnew : key ∉ m.map Prod.fst)
    {e : Nat} (he : e < slots) (hfree : t.free (probeSlot slots key e))
    (hbefore : ∀ i, i < e → ¬t.free (probeSlot slots key i)) :
    Entries slots (((t.setKey (probeSlot slots key e) key).setBlock (probeSlot slots key e)
      block).addLive 1) ((key, block) :: m) := by
  have hpos : 0 < slots := by omega
  have hnone : ∀ s, s < slots → t.key s ≠ key := fun s hs hk => hnew (h.mem_of_key hkey hs hk)
  have hne : key ≠ keyEmpty := fun h0 => hkey (.inl h0)
  have hkeys : (((t.setKey (probeSlot slots key e) key).setBlock (probeSlot slots key e)
      block).addLive 1).key = Function.update t.key (probeSlot slots key e) key := by
    simp
  have hblocks : (((t.setKey (probeSlot slots key e) key).setBlock (probeSlot slots key e)
      block).addLive 1).block = Function.update t.block (probeSlot slots key e) block := by
    simp
  constructor
  · exact List.nodup_cons.mpr ⟨hnew, h.keys⟩
  · intro e' hm
    rcases List.mem_cons.mp hm with rfl | hm
    · exact hkey
    · exact h.plain e' hm
  · intro e' hm
    rcases List.mem_cons.mp hm with rfl | hm
    · refine ⟨e, he, ?_, ?_, fun i hi => ?_⟩
      · rw [hkeys, Function.update_self]
      · rw [hblocks, Function.update_self]
      have hslot : probeSlot slots key i ≠ probeSlot slots key e := fun heq =>
        absurd (ringSlot_inj (by omega) he heq) (by omega)
      rw [hkeys, Function.update_of_ne hslot]
      exact fun h0 => hbefore i hi (.inl h0)
    · -- An entry's own slot is not free, and a slot before it is only filled.
      obtain ⟨d, hd, hk, hb, hchain⟩ := h.placed e' hm
      have hslot : probeSlot slots e'.1 d ≠ probeSlot slots key e := by
        intro heq
        rw [← heq] at hfree
        refine not_free_of_plain ?_ hfree
        rw [hk]
        exact h.plain e' hm
      refine ⟨d, hd, ?_, ?_, fun i hi => ?_⟩
      · rw [hkeys, Function.update_of_ne hslot, hk]
      · rw [hblocks, Function.update_of_ne hslot, hb]
      rw [hkeys]
      exact update_ne_empty hne (hchain i hi)
  · intro s hs hnot
    rw [StagedTable.free, hkeys, Function.update_apply] at hnot
    rw [hkeys, Function.update_apply, List.map_cons]
    split at hnot
    · next heq =>
        rw [if_pos heq]
        exact List.mem_cons_self
    · next hs' =>
        rw [if_neg hs']
        exact List.mem_cons_of_mem _ (h.known s hs hnot)
  · intro s hs s' hs' heq hnot
    rw [StagedTable.free, hkeys, Function.update_apply] at hnot
    rw [hkeys, Function.update_apply, Function.update_apply] at heq
    split at heq <;> split at heq
    · next h1 h2 => rw [h1, h2]
    · exact absurd heq.symm (hnone s' hs')
    · exact absurd heq (hnone s hs)
    · next h1 _ =>
        rw [if_neg h1] at hnot
        exact h.single s hs s' hs' heq hnot
  · simp [h.live]

/-- A new key is stored where there is room. -/
theorem attach (h : Entries slots t m) (hkey : ¬reservedKey key) (hnew : key ∉ m.map Prod.fst)
    (hroom : m.length < slots) :
    ∃ t', stagedAttach slots key block t = (.stored, t') ∧
      Entries slots t' ((key, block) :: m) := by
  have hpos : 0 < slots := by omega
  obtain ⟨e, he, hfree, hbefore⟩ := h.exists_first_free hroom key
  refine ⟨_, ?_, h.claim hkey hnew he hfree hbefore⟩
  rw [stagedAttach, if_neg hkey, ← probeSlot_zero hpos]
  refine attachLoop_stored (Nat.zero_add slots) (Nat.zero_le e) he hfree fun i _ hi => ?_
  exact ⟨hbefore i hi, fun hk => hnew (h.mem_of_key hkey (probeSlot_lt hpos) hk)⟩

/-- A new key is refused where there is none. -/
theorem attach_full (h : Entries slots t m) (hkey : ¬reservedKey key)
    (hnew : key ∉ m.map Prod.fst) (hfull : slots ≤ m.length) :
    stagedAttach slots key block t = (.full, t) := by
  rw [stagedAttach, if_neg hkey]
  rcases Nat.eq_zero_or_pos slots with rfl | hpos
  · rfl
  · rw [← probeSlot_zero hpos]
    refine attachLoop_full (Nat.zero_add slots) fun i _ _ => ⟨?_, fun hk => ?_⟩
    · exact h.none_free hfull (probeSlot_lt hpos)
    · exact hnew (h.mem_of_key hkey (probeSlot_lt hpos) hk)

theorem length_filter_ne {l : List (UInt64 × Option Block)} (hnodup : (l.map Prod.fst).Nodup)
    (hmem : key ∈ l.map Prod.fst) :
    (l.filter fun e => e.1 ≠ key).length + 1 = l.length := by
  induction l with
  | nil => simp at hmem
  | cons e rest ih =>
      rw [List.map_cons, List.nodup_cons] at hnodup
      by_cases he : e.1 = key
      · have hall : rest.filter (fun e => e.1 ≠ key) = rest := by
          rw [List.filter_eq_self]
          intro e' hm
          simp only [ne_eq, decide_eq_true_eq]
          exact fun heq => hnodup.1 (he ▸ heq ▸ List.mem_map_of_mem hm)
        rw [List.filter_cons_of_neg (by simp [he]), hall, List.length_cons]
      · have hrest : key ∈ rest.map Prod.fst := by
          rcases List.mem_cons.mp hmem with heq | hm
          · exact absurd heq.symm he
          · exact hm
        rw [List.filter_cons_of_pos (by simp [he]), List.length_cons, List.length_cons,
          ih hnodup.2 hrest]

/-- What taking a key out makes of the map: its slot has a tombstone, which is
neither vacant nor a key. -/
theorem remove (h : Entries slots t m) (hpos : 0 < slots) {d : Nat}
    (hk : t.key (probeSlot slots key d) = key) (hnot : ¬t.free (probeSlot slots key d)) :
    Entries slots ((((t.setKey (probeSlot slots key d) keyLocked).setBlock
        (probeSlot slots key d) none).addLive (-1)).setKey (probeSlot slots key d) keyTomb)
      (m.filter fun e => e.1 ≠ key) := by
  have hslot : probeSlot slots key d < slots := probeSlot_lt hpos
  generalize probeSlot slots key d = slot at hk hnot hslot
  have hmem : key ∈ m.map Prod.fst := hk ▸ h.known slot hslot hnot
  have hkeys : ((((t.setKey slot keyLocked).setBlock slot none).addLive (-1)).setKey slot
      keyTomb).key = Function.update t.key slot keyTomb := by
    simp
  constructor
  · exact (List.filter_sublist.map _).nodup h.keys
  · exact fun e hm => h.plain e (List.mem_of_mem_filter hm)
  · intro e hm
    obtain ⟨hm, hne⟩ := List.mem_filter.mp hm
    obtain ⟨d', hd', hk', hb', hchain⟩ := h.placed e hm
    have hother : probeSlot slots e.1 d' ≠ slot := by
      intro heq
      rw [heq, hk] at hk'
      exact of_decide_eq_true hne hk'.symm
    refine ⟨d', hd', ?_, (Function.update_of_ne hother _ _).trans hb', fun i hi => ?_⟩
    · rw [hkeys, Function.update_of_ne hother, hk']
    · rw [hkeys]
      exact update_ne_empty (by decide) (hchain i hi)
  · intro s hs hns
    rw [StagedTable.free, hkeys] at hns
    rw [hkeys]
    have hne : s ≠ slot := by
      rintro rfl
      exact hns (.inr (Function.update_self ..))
    rw [Function.update_of_ne hne] at hns ⊢
    obtain ⟨e, hm, he⟩ := List.mem_map.mp (h.known s hs hns)
    refine List.mem_map.mpr ⟨e, List.mem_filter.mpr ⟨hm, decide_eq_true ?_⟩, he⟩
    intro hek
    exact hne (h.single s hs slot hslot (he.symm.trans (hek.trans hk.symm)) hns)
  · intro s hs s' hs' heq hns
    rw [StagedTable.free, hkeys] at hns
    rw [hkeys] at heq
    have hne : s ≠ slot := by
      rintro rfl
      exact hns (.inr (Function.update_self ..))
    rw [Function.update_of_ne hne] at hns heq
    rw [Function.update_apply] at heq
    split at heq
    · exact absurd (.inr heq) hns
    · exact h.single s hs s' hs' heq hns
  · have hlen := length_filter_ne h.keys hmem
    have hlive := h.live
    simp only [StagedTable.setKey_live, StagedTable.addLive_live, StagedTable.setBlock_live]
    omega

/-- Releasing a key of the map gives its block back, and takes it out. -/
theorem release (h : Entries slots t m) (hmem : (key, block) ∈ m) :
    ∃ t', stagedRelease slots key t = (t', block) ∧
      Entries slots t' (m.filter fun e => e.1 ≠ key) := by
  obtain ⟨d, hd, hk, hb, hchain⟩ := h.placed _ hmem
  have hpos : 0 < slots := by omega
  have hkey : ¬reservedKey key := h.plain _ hmem
  have hnot : ¬t.free (probeSlot slots key d) := not_free_of_plain (hk.symm ▸ hkey)
  have hany : stagedAny t = true := by
    rw [stagedAny, h.live]
    simpa using List.ne_nil_of_mem hmem
  refine ⟨_, ?_, h.remove hpos hk hnot⟩
  rw [stagedRelease, if_pos hany, ← probeSlot_zero hpos,
    releaseLoop_found (Nat.zero_add slots) (Nat.zero_le d) hd hk fun h0 => hkey (.inl h0)]
  · rw [hb]
  · refine fun i _ hi => ⟨hchain i hi, fun hki => ?_⟩
    have heq := h.single _ (probeSlot_lt hpos) _ (probeSlot_lt hpos) (hk.trans hki.symm) hnot
    exact absurd (ringSlot_inj hd (by omega) heq) (by omega)

theorem release_missing (h : Entries slots t m) (hkey : ¬reservedKey key)
    (hno : key ∉ m.map Prod.fst) : stagedRelease slots key t = (t, none) := by
  rw [stagedRelease]
  split
  · rcases Nat.eq_zero_or_pos slots with rfl | hpos
    · rfl
    · rw [← probeSlot_zero hpos]
      exact releaseLoop_missing (Nat.zero_add slots) fun i _ _ hk =>
        hno (h.mem_of_key hkey (probeSlot_lt hpos) hk)
  · rfl

theorem stagedAny_iff (h : Entries slots t m) : stagedAny t = true ↔ m ≠ [] := by
  simp [stagedAny, h.live]

end Entries

end AbiWrapper.Ref
