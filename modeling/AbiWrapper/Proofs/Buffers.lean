import AbiWrapper.Proofs.ErrorClass
import AbiWrapper.Proofs.HandleBijection
import AbiWrapper.Ref.Buffers
import Mathlib.Data.List.Nodup
import Mathlib.Data.Nat.Find

/-!
# Whose buffer a detach gives back

Used by one thread, the table is a map from keys to blocks, and it should be
the map of what the implementation has attached of the wrapper's. A detach
never looks at the address it gets: it asks the table, so its answer is right
as long as the two agree.

The undo of a refused attach asks the table as well, by the key it has just
claimed for. What it finds is its own block if no record of the key is in front
of the slot the claim took, and the claim took the first vacant one
(`undo_own`). With a record in front it finds that one, and frees a block that
is still attached (`undo_foreign`).
-/

namespace AbiWrapper.Ref

open AbiWrapper.Lib

variable {slots left slot e b : Nat} {key : UInt64} {t t' : AutobufTable}

/-! ## The loops -/

def AutobufTable.firstVacant (t : AutobufTable) (e : Nat) : Prop :=
  t.scope e = 0 ∧ ∀ j, j < e → t.scope j ≠ 0

theorem AutobufTable.firstVacant.unique {e' : Nat} (h : t.firstVacant e) (h' : t.firstVacant e') :
    e = e' := by
  rcases Nat.lt_trichotomy e e' with hlt | heq | hlt
  · exact absurd h.1 (h'.2 e hlt)
  · exact heq
  · exact absurd h'.1 (h.2 e' hlt)

theorem firstVacant_cases (t : AutobufTable) (slots : Nat) :
    (∀ j, j < slots → t.scope j ≠ 0) ∨ ∃ e, e < slots ∧ t.firstVacant e := by
  by_cases hex : ∃ e, e < slots ∧ t.scope e = 0
  · obtain ⟨he, hv⟩ := Nat.find_spec hex
    exact .inr ⟨Nat.find hex, he, hv, fun j hj h0 =>
      Nat.find_min hex hj ⟨Nat.lt_trans hj he, h0⟩⟩
  · exact .inl fun j hj h0 => hex ⟨j, hj, h0⟩

theorem claimLoop_some (h : slot + left = slots) (hle : slot ≤ e) (he : e < slots)
    (hv : t.firstVacant e) :
    claimLoop key b left slot t = some ((t.setScope e key).setBlock e (some b)) := by
  induction left generalizing slot with
  | zero => omega
  | succ left ih =>
      rw [claimLoop]
      rcases Nat.eq_or_lt_of_le hle with rfl | hlt
      · exact if_pos hv.1
      · rw [if_neg (hv.2 slot hlt)]
        exact ih (by omega) hlt

theorem claimLoop_none (h : slot + left = slots) (hno : ∀ j, j < slots → t.scope j ≠ 0) :
    claimLoop key b left slot t = none := by
  induction left generalizing slot with
  | zero => rfl
  | succ left ih =>
      rw [claimLoop, if_neg (hno slot (by omega))]
      exact ih (by omega)

/-- A slot that a release of the key passes over. -/
def AutobufTable.passes (t : AutobufTable) (key : UInt64) (j : Nat) : Prop :=
  t.scope j = key → t.block j = none

instance (t : AutobufTable) (key : UInt64) (j : Nat) : Decidable (t.passes key j) :=
  inferInstanceAs (Decidable (_ → _))

instance (t : AutobufTable) (e : Nat) : Decidable (t.firstVacant e) :=
  inferInstanceAs (Decidable (_ ∧ _))

theorem unclaimLoop_found (h : slot + left = slots) (hle : slot ≤ e) (he : e < slots)
    (hkey : t.scope e = key) (hb : t.block e = some b)
    (hbefore : ∀ j, j < e → t.passes key j) :
    unclaimLoop key left slot t = ((t.setBlock e none).setScope e 0, some b) := by
  induction left generalizing slot with
  | zero => omega
  | succ left ih =>
      rw [unclaimLoop]
      rcases Nat.eq_or_lt_of_le hle with rfl | hlt
      · rw [if_neg (not_not.mpr hkey), hb]
      · by_cases hother : t.scope slot ≠ key
        · rw [if_pos hother]
          exact ih (by omega) hlt
        · have hnone := hbefore slot hlt (not_not.mp hother)
          rw [if_neg hother, hnone, AutobufTable.setBlock_none hnone]
          exact ih (by omega) hlt

theorem unclaimLoop_missing (h : slot + left = slots) (hno : ∀ j, j < slots → t.passes key j) :
    unclaimLoop key left slot t = (t, none) := by
  induction left generalizing slot with
  | zero => rfl
  | succ left ih =>
      rw [unclaimLoop]
      by_cases hother : t.scope slot ≠ key
      · rw [if_pos hother]
        exact ih (by omega)
      · have hnone := hno slot (by omega) (not_not.mp hother)
        rw [if_neg hother, hnone, AutobufTable.setBlock_none hnone]
        exact ih (by omega)

/-! ## Undoing a claim -/

def AutobufTable.claimed (t : AutobufTable) (e : Nat) (key : UInt64) (b : Nat) : AutobufTable :=
  (t.setScope e key).setBlock e (some b)

theorem autobufClaim_some (hkey : key ≠ 0) (he : e < slots) (hv : t.firstVacant e) :
    autobufClaim slots key (some b) t = (some b, t.claimed e key b, none) := by
  rw [autobufClaim, if_neg hkey]
  simp only [claimLoop_some (Nat.zero_add slots) (Nat.zero_le e) he hv]
  rfl

theorem autobufClaim_none (hkey : key ≠ 0) (hno : ∀ j, j < slots → t.scope j ≠ 0) :
    autobufClaim slots key (some b) t = (none, t, some b) := by
  rw [autobufClaim, if_neg hkey]
  simp only [claimLoop_none (Nat.zero_add slots) hno]

theorem claimed_scope {i : Nat} :
    (t.claimed e key b).scope i = if i = e then key else t.scope i := Function.update_apply _ _ _ _

theorem claimed_block {i : Nat} :
    (t.claimed e key b).block i = if i = e then some b else t.block i :=
  Function.update_apply _ _ _ _

/-- A record is the new one, or an old one elsewhere. -/
theorem claimed_cases {i b' : Nat} (hb : (t.claimed e key b).block i = some b') :
    (i = e ∧ b = b') ∨ (i ≠ e ∧ t.block i = some b') := by
  rw [claimed_block] at hb
  split at hb
  · next hie => exact .inl ⟨hie, Option.some.inj hb⟩
  · next hie => exact .inr ⟨hie, hb⟩

def AutobufTable.unclaimed (t : AutobufTable) (e : Nat) : AutobufTable :=
  (t.setBlock e none).setScope e 0

theorem unclaimed_scope {i : Nat} :
    (t.unclaimed e).scope i = if i = e then 0 else t.scope i := Function.update_apply _ _ _ _

theorem unclaimed_block {i : Nat} :
    (t.unclaimed e).block i = if i = e then none else t.block i := Function.update_apply _ _ _ _

theorem unclaimed_cases {i b' : Nat} (hb : (t.unclaimed e).block i = some b') :
    i ≠ e ∧ t.block i = some b' := by
  rw [unclaimed_block] at hb
  split at hb
  · exact nomatch hb
  · next hie => exact ⟨hie, hb⟩

theorem claimed_undone (hscope : t.scope e = 0) (hblock : t.block e = none) :
    ((t.claimed e key b).setBlock e none).setScope e 0 = t := by
  obtain ⟨scope, block⟩ := t
  simp only [AutobufTable.claimed, AutobufTable.setScope, AutobufTable.setBlock,
    Function.update_idem] at *
  rw [← hscope, ← hblock, Function.update_eq_self, Function.update_eq_self]

/-- With no record of the key in front of the slot that the claim took, the undo
finds the claim's own block and leaves the table as it was. -/
theorem undo_own (he : e < slots) (hscope : t.scope e = 0) (hblock : t.block e = none)
    (hbefore : ∀ j, j < e → t.passes key j) :
    autobufRelease slots key (t.claimed e key b) = (t, some b) := by
  have hne : ∀ j, j < e → j ≠ e := fun j hj => Nat.ne_of_lt hj
  rw [autobufRelease, unclaimLoop_found (Nat.zero_add slots) (Nat.zero_le e) he
    (show (t.claimed e key b).scope e = key from Function.update_self _ _ _)
    (show (t.claimed e key b).block e = some b from Function.update_self _ _ _),
    claimed_undone hscope hblock]
  intro j hj hkey
  have hkey' : t.scope j = key := (Function.update_of_ne (hne j hj) _ _).symm.trans hkey
  exact (Function.update_of_ne (hne j hj) _ _).trans (hbefore j hj hkey')

/-- With a record in front, it finds that one. -/
theorem undo_foreign {i b' : Nat} (hi : i < e) (he : e < slots) (hkey : t.scope i = key)
    (hb : t.block i = some b') (hbefore : ∀ j, j < i → t.passes key j) :
    autobufRelease slots key (t.claimed e key b) =
      (((t.claimed e key b).setBlock i none).setScope i 0, some b') := by
  have hne : ∀ j, j ≤ i → j ≠ e := fun j hj => by omega
  refine unclaimLoop_found (Nat.zero_add slots) (Nat.zero_le i) (by omega)
    ((Function.update_of_ne (hne i (Nat.le_refl i)) _ _).trans hkey)
    ((Function.update_of_ne (hne i (Nat.le_refl i)) _ _).trans hb) fun j hj hkey' => ?_
  have hne' := hne j (Nat.le_of_lt hj)
  have hscope : t.scope j = key := (Function.update_of_ne hne' _ _).symm.trans hkey'
  exact (Function.update_of_ne hne' _ _).trans (hbefore j hj hscope)

/-! ## The invariant -/

/-- The table is the map of what is attached of the wrapper's. -/
structure BufferInv (slots : Nat) (s : BufferState) : Prop where
  vacant : ∀ i, s.table.scope i = 0 ↔ s.table.block i = none
  inRange : ∀ i, s.table.scope i ≠ 0 → i < slots
  record : ∀ i b, s.table.block i = some b →
    ∃ scope, s.attached scope = some (.block b) ∧ scope.key = s.table.scope i
  known : ∀ scope b, s.attached scope = some (.block b) →
    ∃ i, s.table.scope i = scope.key ∧ s.table.block i = some b
  single : ∀ i j, s.table.scope i = s.table.scope j → s.table.scope i ≠ 0 → i = j
  apart : ∀ scope b, s.attached scope = some (.block b) → ∀ other, other.key = scope.key →
    other ≠ scope → s.attached other = none
  owner : ∀ i j b, s.table.block i = some b → s.table.block j = some b → i = j
  allocated : ∀ i b, s.table.block i = some b → b < s.fresh ∧ b ∉ s.freed
  freed : ∀ b, b ∈ s.freed → b < s.fresh
  once : s.freed.Nodup

namespace BufferInv

variable {s s' : BufferState} {scope : BufferScope} {buffer : Buffer} {errors : ErrorTable}

theorem init : BufferInv slots .init where
  vacant _ := ⟨fun _ => rfl, fun _ => rfl⟩
  inRange _ h := absurd rfl h
  record _ _ h := nomatch h
  known _ _ h := nomatch h
  single _ _ _ h := absurd rfl h
  apart _ _ h := nomatch h
  owner _ _ _ h := nomatch h
  allocated _ _ h := nomatch h
  freed _ h := nomatch h
  once := List.nodup_nil

/-- The error codes are nobody's buffer. -/
theorem errors_congr (h : BufferInv slots s) : BufferInv slots { s with errors } :=
  ⟨h.vacant, h.inRange, h.record, h.known, h.single, h.apart, h.owner, h.allocated, h.freed,
    h.once⟩

/-- A block that is allocated and freed again leaves no trace but its name. -/
theorem discarded (h : BufferInv slots s) :
    BufferInv slots { s with fresh := s.fresh + 1, freed := s.freed ++ [s.fresh] } where
  vacant := h.vacant
  inRange := h.inRange
  record := h.record
  known := h.known
  single := h.single
  apart := h.apart
  owner := h.owner
  allocated i b hb := by
    obtain ⟨hlt, hno⟩ := h.allocated i b hb
    refine ⟨Nat.lt_succ_of_lt hlt, fun hm => ?_⟩
    rcases List.mem_append.mp hm with hm | hm
    · exact hno hm
    · exact absurd (List.mem_singleton.mp hm) (Nat.ne_of_lt hlt)
  freed b hb := by
    rcases List.mem_append.mp hb with hb | hb
    · exact Nat.lt_succ_of_lt (h.freed b hb)
    · rw [List.mem_singleton.mp hb]
      exact Nat.lt_succ_self _
  once := by
    refine List.nodup_append_comm.mp (List.nodup_cons.mpr ⟨fun hm => ?_, h.once⟩)
    exact absurd (h.freed _ hm) (Nat.lt_irrefl _)

theorem fresh_succ (h : BufferInv slots s) : BufferInv slots { s with fresh := s.fresh + 1 } :=
  ⟨h.vacant, h.inRange, h.record, h.known, h.single, h.apart, h.owner,
    fun i b hb => ⟨Nat.lt_succ_of_lt (h.allocated i b hb).1, (h.allocated i b hb).2⟩,
    fun b hb => Nat.lt_succ_of_lt (h.freed b hb), h.once⟩

/-- A scope that has no block of the wrapper's gets something else that is none,
or loses what it has. -/
theorem reattach {x : Option Buffer} (h : BufferInv slots s)
    (hno : ∀ b, s.attached scope ≠ some (.block b)) (hx : ∀ b, x ≠ some (.block b))
    (hapart : ∀ other b, other.key = scope.key → s.attached other = some (.block b) → x = none) :
    BufferInv slots { s with attached := Function.update s.attached scope x } where
  vacant := h.vacant
  inRange := h.inRange
  record i b hb := by
    obtain ⟨scope', ha, hk⟩ := h.record i b hb
    refine ⟨scope', (Function.update_of_ne ?_ _ _).trans ha, hk⟩
    rintro rfl
    exact hno b ha
  known scope' b ha := by
    rcases update_cases (P := fun x => x = some (Buffer.block b)) ha with ⟨-, ha'⟩ | ⟨-, ha'⟩
    · exact absurd ha' (hx b)
    · exact h.known scope' b ha'
  single := h.single
  apart scope' b ha other hkey hne := by
    rcases update_cases (P := fun x => x = some (Buffer.block b)) ha with ⟨-, ha'⟩ | ⟨-, ha'⟩
    · exact absurd ha' (hx b)
    · show Function.update s.attached scope x other = none
      by_cases hother : other = scope
      · subst hother
        rw [Function.update_self]
        exact hapart scope' b hkey.symm ha'
      · rw [Function.update_of_ne hother]
        exact h.apart scope' b ha' other hkey hne
  owner := h.owner
  allocated := h.allocated
  freed := h.freed
  once := h.once

/-- The application's memory is attached to a scope whose key no block is
attached to. -/
theorem attachMemory (h : BufferInv slots s) {address : UInt64}
    (hfree : s.attached scope = none) (hapart : ∀ other b, other.key = scope.key →
      s.attached other ≠ some (.block b)) :
    BufferInv slots
      { s with attached := Function.update s.attached scope (some (.memory address)) } :=
  h.reattach (fun _ hb => nomatch hfree.symm.trans hb) nofun
    fun other b hk hb => absurd hb (hapart other b hk)

theorem block_of_key (h : BufferInv slots s) {i : Nat} (hne : s.table.scope i ≠ 0) :
    ∃ b, s.table.block i = some b :=
  Option.ne_none_iff_exists'.mp fun hn => hne ((h.vacant i).mpr hn)

/-! ### A block is attached -/

/-- Nobody's record has the key of a scope that nothing is attached to. -/
theorem keyless (h : BufferInv slots s) (hkey : scope.key ≠ 0) (hfree : s.attached scope = none)
    (hapart : ∀ other, other ≠ scope → other.key = scope.key → s.attached other = none) (i : Nat) :
    s.table.scope i ≠ scope.key := by
  intro hi
  obtain ⟨b, hb⟩ := h.block_of_key (hi ▸ hkey)
  obtain ⟨scope', ha, hk⟩ := h.record i b hb
  by_cases hs : scope' = scope
  · rw [hs, hfree] at ha
    exact nomatch ha
  · rw [hapart scope' hs (hk.trans hi)] at ha
    exact nomatch ha

theorem claimed_record (h : BufferInv slots s) (hfree : s.attached scope = none) {i b : Nat}
    (hb : (s.table.claimed e scope.key s.fresh).block i = some b) :
    ∃ scope', Function.update s.attached scope (some (.block s.fresh)) scope' = some (.block b) ∧
      scope'.key = (s.table.claimed e scope.key s.fresh).scope i := by
  rcases claimed_cases hb with ⟨hie, rfl⟩ | ⟨hie, hold⟩
  · refine ⟨scope, Function.update_self _ _ _, ?_⟩
    rw [claimed_scope, if_pos hie]
  · obtain ⟨scope', ha, hk⟩ := h.record i b hold
    refine ⟨scope', (Function.update_of_ne ?_ _ _).trans ha, ?_⟩
    · rintro rfl
      exact nomatch hfree.symm.trans ha
    · rw [claimed_scope, if_neg hie]
      exact hk

theorem claimed_known (h : BufferInv slots s) (hnone : s.table.block e = none)
    {scope' : BufferScope} {b : Nat}
    (ha : Function.update s.attached scope (some (.block s.fresh)) scope' = some (.block b)) :
    ∃ i, (s.table.claimed e scope.key s.fresh).scope i = scope'.key ∧
      (s.table.claimed e scope.key s.fresh).block i = some b := by
  rcases update_cases (P := fun x => x = some (Buffer.block b)) ha with ⟨rfl, ha'⟩ | ⟨-, ha'⟩
  · cases ha'
    refine ⟨e, ?_, ?_⟩
    · rw [claimed_scope, if_pos rfl]
    · rw [claimed_block, if_pos rfl]
  · obtain ⟨i, hk, hb⟩ := h.known scope' b ha'
    have hie : i ≠ e := by
      rintro rfl
      exact nomatch hnone.symm.trans hb
    refine ⟨i, ?_, ?_⟩
    · rw [claimed_scope, if_neg hie, hk]
    · rw [claimed_block, if_neg hie, hb]

theorem claimed_single (h : BufferInv slots s) (hkeys : ∀ i, s.table.scope i ≠ scope.key)
    {i j : Nat} (heq : (s.table.claimed e scope.key s.fresh).scope i =
      (s.table.claimed e scope.key s.fresh).scope j)
    (hne : (s.table.claimed e scope.key s.fresh).scope i ≠ 0) : i = j := by
  rw [claimed_scope, claimed_scope] at heq
  rw [claimed_scope] at hne
  split at heq <;> split at heq
  · next h1 h2 => rw [h1, h2]
  · exact absurd heq.symm (hkeys j)
  · exact absurd heq (hkeys i)
  · next h1 _ =>
      rw [if_neg h1] at hne
      exact h.single i j heq hne

theorem claimed_owner (h : BufferInv slots s) {key : UInt64} {i j b : Nat}
    (hi : (s.table.claimed e key s.fresh).block i = some b)
    (hj : (s.table.claimed e key s.fresh).block j = some b) : i = j := by
  rcases claimed_cases hi with ⟨hie, rfl⟩ | ⟨-, hold⟩
  · rcases claimed_cases hj with ⟨hje, -⟩ | ⟨-, hold'⟩
    · rw [hie, hje]
    · exact absurd (h.allocated j _ hold').1 (Nat.lt_irrefl _)
  · rcases claimed_cases hj with ⟨-, rfl⟩ | ⟨-, hold'⟩
    · exact absurd (h.allocated i _ hold).1 (Nat.lt_irrefl _)
    · exact h.owner i j b hold hold'

theorem claimed_allocated (h : BufferInv slots s) {key : UInt64} {i b : Nat}
    (hb : (s.table.claimed e key s.fresh).block i = some b) :
    b < s.fresh + 1 ∧ b ∉ s.freed := by
  rcases claimed_cases hb with ⟨-, rfl⟩ | ⟨-, hold⟩
  · exact ⟨Nat.lt_succ_self _, fun hm => absurd (h.freed _ hm) (Nat.lt_irrefl _)⟩
  · obtain ⟨hlt, hno⟩ := h.allocated i b hold
    exact ⟨Nat.lt_succ_of_lt hlt, hno⟩

/-- A claimed block is attached to a scope whose key nothing is attached to. -/
theorem attachBlock (h : BufferInv slots s) (hkey : scope.key ≠ 0) (he : e < slots)
    (hvacant : s.table.scope e = 0) (hfree : s.attached scope = none)
    (hapart : ∀ other, other ≠ scope → other.key = scope.key → s.attached other = none) :
    BufferInv slots { s with
      table := s.table.claimed e scope.key s.fresh
      attached := Function.update s.attached scope (some (.block s.fresh))
      fresh := s.fresh + 1 } where
  vacant i := by
    show (s.table.claimed e scope.key s.fresh).scope i = 0 ↔
      (s.table.claimed e scope.key s.fresh).block i = none
    rw [claimed_scope, claimed_block]
    split
    · exact ⟨fun h0 => absurd h0 hkey, nofun⟩
    · exact h.vacant i
  inRange i hi := by
    by_cases hie : i = e
    · exact hie ▸ he
    · exact h.inRange i (by rwa [claimed_scope, if_neg hie] at hi)
  record _ _ hb := h.claimed_record hfree hb
  known _ _ ha := h.claimed_known ((h.vacant e).mp hvacant) ha
  single _ _ heq hne := h.claimed_single (h.keyless hkey hfree hapart) heq hne
  apart scope' b ha other hk hne := by
    rcases update_cases (P := fun x => x = some (Buffer.block b)) ha with ⟨rfl, -⟩ | ⟨hs, ha'⟩
    · exact (Function.update_of_ne hne _ _).trans (hapart other hne hk)
    · refine (Function.update_of_ne ?_ _ _).trans (h.apart scope' b ha' other hk hne)
      rintro rfl
      exact nomatch (hapart scope' hs hk.symm).symm.trans ha'
  owner _ _ _ hi hj := h.claimed_owner hi hj
  allocated _ _ hb := h.claimed_allocated hb
  freed b hb := Nat.lt_succ_of_lt (h.freed b hb)
  once := h.once

/-! ### A block is detached -/

/-- The record of an attached block is the one a release of its key finds. -/
theorem release_block (h : BufferInv slots s) (ha : s.attached scope = some (.block b)) :
    ∃ i, s.table.scope i = scope.key ∧ s.table.block i = some b ∧
      autobufRelease slots scope.key s.table =
        ((s.table.setBlock i none).setScope i 0, some b) := by
  obtain ⟨i, hk, hb⟩ := h.known scope b ha
  have hne : s.table.scope i ≠ 0 := fun h0 => nomatch hb.symm.trans ((h.vacant i).mp h0)
  refine ⟨i, hk, hb, unclaimLoop_found (Nat.zero_add slots) (Nat.zero_le i) (h.inRange i hne) hk hb
    fun j hj hkj => ?_⟩
  exact absurd (h.single i j (hk.trans hkj.symm) hne) (by omega)

/-- A key that no block is attached to has no record. -/
theorem release_missing (h : BufferInv slots s)
    (hno : ∀ scope' b, scope'.key = key → s.attached scope' ≠ some (.block b)) :
    autobufRelease slots key s.table = (s.table, none) := by
  refine unclaimLoop_missing (Nat.zero_add slots) fun j _ hk => ?_
  cases hb : s.table.block j with
  | none => rfl
  | some b =>
      obtain ⟨scope', ha, hk'⟩ := h.record j b hb
      exact absurd ha (hno scope' b (hk'.trans hk))

theorem detached_cases {scope' : BufferScope} {b : Nat}
    (ha : Function.update s.attached scope none scope' = some (.block b)) :
    scope' ≠ scope ∧ s.attached scope' = some (.block b) := by
  rcases update_cases (P := fun x => x = some (Buffer.block b)) ha with ⟨-, ha'⟩ | ha'
  · exact nomatch ha'
  · exact ha'

theorem unclaimed_record (h : BufferInv slots s) (ha : s.attached scope = some (.block b))
    {i : Nat} (hb : s.table.block i = some b) {j b' : Nat}
    (hj : (s.table.unclaimed i).block j = some b') :
    ∃ scope', Function.update s.attached scope none scope' = some (.block b') ∧
      scope'.key = (s.table.unclaimed i).scope j := by
  obtain ⟨hne, hold⟩ := unclaimed_cases hj
  obtain ⟨scope', ha', hk'⟩ := h.record j b' hold
  refine ⟨scope', (Function.update_of_ne ?_ _ _).trans ha', ?_⟩
  · rintro rfl
    rw [ha] at ha'
    cases ha'
    exact hne (h.owner j i b hold hb)
  · rw [unclaimed_scope, if_neg hne]
    exact hk'

theorem unclaimed_known (h : BufferInv slots s) (ha : s.attached scope = some (.block b))
    {i : Nat} (hk : s.table.scope i = scope.key) {scope' : BufferScope} {b' : Nat}
    (ha' : Function.update s.attached scope none scope' = some (.block b')) :
    ∃ j, (s.table.unclaimed i).scope j = scope'.key ∧
      (s.table.unclaimed i).block j = some b' := by
  obtain ⟨hs, hkept⟩ := detached_cases ha'
  obtain ⟨j, hkj, hj⟩ := h.known scope' b' hkept
  have hne : j ≠ i := by
    rintro rfl
    rw [h.apart scope b ha scope' (hkj.symm.trans hk) hs] at hkept
    exact nomatch hkept
  refine ⟨j, ?_, ?_⟩
  · rw [unclaimed_scope, if_neg hne, hkj]
  · rw [unclaimed_block, if_neg hne, hj]

theorem unclaimed_single (h : BufferInv slots s) {i j j' : Nat}
    (heq : (s.table.unclaimed i).scope j = (s.table.unclaimed i).scope j')
    (hne : (s.table.unclaimed i).scope j ≠ 0) : j = j' := by
  rw [unclaimed_scope, unclaimed_scope] at heq
  rw [unclaimed_scope] at hne
  split at heq <;> split at heq
  · next h1 h2 => rw [h1, h2]
  · next h1 _ => exact absurd (if_pos h1) hne
  · next h1 h2 => exact absurd ((if_neg h1).trans heq) hne
  · next h1 _ =>
      rw [if_neg h1] at hne
      exact h.single j j' heq hne

theorem unclaimed_allocated (h : BufferInv slots s) {i : Nat} (hb : s.table.block i = some b)
    {j b' : Nat} (hj : (s.table.unclaimed i).block j = some b') :
    b' < s.fresh ∧ b' ∉ s.freed ++ [b] := by
  obtain ⟨hne, hold⟩ := unclaimed_cases hj
  obtain ⟨hlt, hno⟩ := h.allocated j b' hold
  refine ⟨hlt, fun hm => ?_⟩
  rcases List.mem_append.mp hm with hm | hm
  · exact hno hm
  · rw [List.mem_singleton.mp hm] at hold
    exact hne (h.owner j i b hold hb)

theorem detachBlock (h : BufferInv slots s) (ha : s.attached scope = some (.block b)) {i : Nat}
    (hk : s.table.scope i = scope.key) (hb : s.table.block i = some b) :
    BufferInv slots { s with
      table := (s.table.setBlock i none).setScope i 0
      attached := Function.update s.attached scope none
      freed := s.freed ++ [b] } where
  vacant j := by
    show (s.table.unclaimed i).scope j = 0 ↔ (s.table.unclaimed i).block j = none
    rw [unclaimed_scope, unclaimed_block]
    split
    · exact ⟨fun _ => rfl, fun _ => rfl⟩
    · exact h.vacant j
  inRange j hj := by
    have hne : (s.table.unclaimed i).scope j ≠ 0 := hj
    rw [unclaimed_scope] at hne
    split at hne
    · exact absurd rfl hne
    · exact h.inRange j hne
  record _ _ hj := h.unclaimed_record ha hb hj
  known _ _ ha' := h.unclaimed_known ha hk ha'
  single _ _ heq hne := h.unclaimed_single heq hne
  apart scope' b' ha' other hk' hne := by
    show Function.update s.attached scope none other = none
    rw [Function.update_apply]
    split
    · rfl
    · exact h.apart scope' b' (detached_cases ha').2 other hk' hne
  owner j j' b' hj hj' := h.owner j j' b' (unclaimed_cases hj).2 (unclaimed_cases hj').2
  allocated _ _ hj := h.unclaimed_allocated hb hj
  freed b' hm := by
    rcases List.mem_append.mp hm with hm | hm
    · exact h.freed b' hm
    · rw [List.mem_singleton.mp hm]
      exact (h.allocated i b hb).1
  once := List.nodup_append_comm.mp (List.nodup_cons.mpr ⟨(h.allocated i b hb).2, h.once⟩)

/-- A scope without a block of the wrapper's loses what it has. -/
theorem detachOther (h : BufferInv slots s) (hno : ∀ b, s.attached scope ≠ some (.block b)) :
    BufferInv slots { s with attached := Function.update s.attached scope none } :=
  h.reattach hno nofun fun _ _ _ _ => rfl

end BufferInv

/-! ## The bodies -/

section Bodies

variable {s : BufferState} {scope : BufferScope} {buffer : Buffer} {impl : ImplErrors}
  {form : BufferForm} {abiBuffer : AbiBuffer} {abiSize size : Int} {automatic malloc : Bool}
  {ierror : Int32} {r : BufferResult}

inductive Claims (slots : Nat) (s : BufferState) (key : UInt64) (malloc : Bool) :
    Option Nat × BufferState → Prop
  | refused (h : malloc = true → key = 0) :
      Claims slots s key malloc (none, { s with fresh := s.fresh + 1 })
  | full (hno : ∀ j, j < slots → s.table.scope j ≠ 0) : Claims slots s key malloc
      (none, { s with fresh := s.fresh + 1, freed := s.freed ++ [s.fresh] })
  | taken {e : Nat} (hm : malloc = true) (hkey : key ≠ 0) (he : e < slots)
      (hv : s.table.firstVacant e) : Claims slots s key malloc
      (some s.fresh, { s with table := s.table.claimed e key s.fresh, fresh := s.fresh + 1 })

theorem claims (slots : Nat) (s : BufferState) (key : UInt64) (malloc : Bool) :
    Claims slots s key malloc (s.claim slots key malloc) := by
  obtain ⟨table, attached, fresh, freed, errors⟩ := s
  by_cases hkey : key = 0
  · have hnone : BufferState.claim slots ⟨table, attached, fresh, freed, errors⟩ key malloc =
        (none, ⟨table, attached, fresh + 1, freed, errors⟩) := by
      simp [BufferState.claim, autobufClaim, hkey]
    rw [hnone]
    exact .refused fun _ => hkey
  cases malloc with
  | false =>
      have hnone : BufferState.claim slots ⟨table, attached, fresh, freed, errors⟩ key false =
          (none, ⟨table, attached, fresh + 1, freed, errors⟩) := by
        simp [BufferState.claim, autobufClaim, hkey]
      rw [hnone]
      exact .refused nofun
  | true =>
      rcases firstVacant_cases table slots with hno | ⟨e, he, hv⟩
      · have hfull : BufferState.claim slots ⟨table, attached, fresh, freed, errors⟩ key true =
            (none, ⟨table, attached, fresh + 1, freed ++ [fresh], errors⟩) := by
          simp [BufferState.claim, autobufClaim_none hkey hno]
        rw [hfull]
        exact .full hno
      · have htaken : BufferState.claim slots ⟨table, attached, fresh, freed, errors⟩ key true =
            (some fresh, ⟨table.claimed e key fresh, attached, fresh + 1, freed, errors⟩) := by
          simp [BufferState.claim, autobufClaim_some hkey he hv]
        rw [htaken]
        exact .taken rfl hkey he hv

theorem finish_refused (h : ierror ≠ 0)
    (hr : attachFinish slots impl scope automatic buffer ierror s = some r) :
    ∃ errors, r.state =
      { (if automatic then (s.release slots scope.key).2 else s) with errors } := by
  rw [attachFinish, BufferState.attachCall, if_pos h, Option.map_some, Option.some.injEq] at hr
  subst hr
  cases automatic with
  | true => exact ⟨_, by simp [BufferState.report, h]; rfl⟩
  | false => exact ⟨_, by simp [BufferState.report]; rfl⟩

theorem finish_accepted (hr : attachFinish slots impl scope automatic buffer 0 s = some r) :
    s.attached scope = none ∧ ∃ errors, r.state =
      { s with attached := Function.update s.attached scope (some buffer), errors } := by
  rw [attachFinish, BufferState.attachCall, if_neg (not_not.mpr rfl)] at hr
  by_cases hfree : s.attached scope = none
  · rw [if_pos hfree, Option.map_some, Option.some.injEq] at hr
    subst hr
    exact ⟨hfree, _, rfl⟩
  · rw [if_neg hfree] at hr
    exact nomatch hr

theorem release_state (slots : Nat) (s : BufferState) (key : UInt64) :
    (s.release slots key).2 =
      { s with
        table := (autobufRelease slots key s.table).1
        freed := s.freed ++ (autobufRelease slots key s.table).2.toList } := rfl

/-- The undo finds the block that was claimed: no record of the key is in front
of the first vacant slot. -/
def AutobufTable.undoable (t : AutobufTable) (slots : Nat) (key : UInt64) : Prop :=
  ∀ e, e < slots → t.firstVacant e → ∀ j, j < e → t.passes key j

instance (t : AutobufTable) (slots : Nat) (key : UInt64) : Decidable (t.undoable slots key) :=
  inferInstanceAs (Decidable (∀ e, e < slots → _))

/-- What a call that the implementation refuses leaves as it was: the records,
what is attached, and whether a block has been freed. -/
structure Untouched (s s' : BufferState) : Prop where
  table : s'.table = s.table
  attached : s'.attached = s.attached
  freed : ∀ b, b < s.fresh → (b ∈ s'.freed ↔ b ∈ s.freed)

theorem Untouched.rfl {errors : ErrorTable} : Untouched s { s with errors } :=
  ⟨Eq.refl _, Eq.refl _, fun _ _ => Iff.refl _⟩

theorem Untouched.discarded {errors : ErrorTable} :
    Untouched s { s with fresh := s.fresh + 1, freed := s.freed ++ [s.fresh], errors } where
  table := Eq.refl _
  attached := Eq.refl _
  freed b hb := by
    rw [List.mem_append, List.mem_singleton]
    exact ⟨fun h => h.resolve_right (Nat.ne_of_lt hb), .inl⟩

/-- The state after a refused attach that took slot `e` and has been undone. -/
theorem undone_state (h : BufferInv slots s) {e : Nat} (he : e < slots)
    (hv : s.table.firstVacant e) (hundo : s.table.undoable slots scope.key) :
    (BufferState.release slots { s with
      table := s.table.claimed e scope.key s.fresh, fresh := s.fresh + 1 } scope.key).2 =
      { s with fresh := s.fresh + 1, freed := s.freed ++ [s.fresh] } := by
  rw [release_state]
  simp only [undo_own he hv.1 ((h.vacant e).mp hv.1) (hundo e he hv), Option.toList_some]

/-- A record in front of the slot that the claim took loses its block. -/
theorem undone_foreign (h : BufferInv slots s) {e : Nat} (he : e < slots) {j : Nat} (hj : j < e)
    (hpass : ¬s.table.passes scope.key j) :
    (BufferState.release slots { s with
      table := s.table.claimed e scope.key s.fresh, fresh := s.fresh + 1 } scope.key).2.table ≠
      s.table := by
  have hex : ∃ j, ¬s.table.passes scope.key j := ⟨j, hpass⟩
  have hle : Nat.find hex ≤ j := Nat.find_min' hex hpass
  have hmin : ∀ k, k < Nat.find hex → s.table.passes scope.key k := fun k hk =>
    not_not.mp (Nat.find_min hex hk)
  have hfound := Nat.find_spec hex
  generalize Nat.find hex = i at hle hmin hfound
  obtain ⟨hkey, hblock⟩ := Classical.not_imp.mp hfound
  obtain ⟨b', hb⟩ := Option.ne_none_iff_exists'.mp hblock
  rw [release_state]
  simp only [undo_foreign (show i < e by omega) he hkey hb hmin]
  intro heq
  have hzero : s.table.scope i = 0 := by
    rw [← heq]
    exact Function.update_self _ _ _
  exact hblock ((h.vacant i).mp hzero)

theorem attachBody_automatic (hform : form ≠ .missing) :
    attachBody slots impl form scope .automatic abiSize malloc ierror s =
      match s.claim slots scope.key malloc with
      | (none, s) => some ⟨abiErrIntern, none, s⟩
      | (some block, s) => attachFinish slots impl scope true (.block block) ierror s := by
  cases form with
  | missing => exact absurd (Eq.refl _) hform
  | own => rfl
  | fallback => rfl

/-- An attach of the application's memory is refused before the call, and
changes nothing, or comes to its call. -/
theorem attachBody_memory {address : UInt64}
    (hr : attachBody slots impl form scope (.memory address) abiSize malloc ierror s = some r) :
    r.state = s ∨ form ≠ .missing ∧
      attachFinish slots impl scope false (.memory address) ierror s = some r := by
  cases form with
  | missing =>
      cases hr
      exact .inl (Eq.refl _)
  | own => exact .inr ⟨nofun, hr⟩
  | fallback =>
      rw [attachBody] at hr
      split at hr
      · cases hr
        exact .inl (Eq.refl _)
      · exact .inr ⟨nofun, hr⟩

/-- An attach that the implementation refuses leaves everything as it was, unless
it was of an automatic buffer whose undo finds another block. -/
theorem attach_refused_iff (h : BufferInv slots s) (herr : ierror ≠ 0)
    (hr : attachBody slots impl form scope abiBuffer abiSize malloc ierror s = some r) :
    Untouched s r.state ↔ (form ≠ .missing → abiBuffer = .automatic → malloc = true →
      s.table.undoable slots scope.key) := by
  have hsame : r.state = s → Untouched s r.state := fun heq => heq ▸ Untouched.rfl
  cases abiBuffer with
  | memory address =>
      refine ⟨fun _ _ => nofun, fun _ => ?_⟩
      rcases attachBody_memory hr with heq | ⟨-, hr⟩
      · exact hsame heq
      · obtain ⟨errors, heq⟩ := finish_refused herr hr
        rw [heq]
        exact .rfl
  | automatic =>
      by_cases hform : form = .missing
      · subst hform
        cases hr
        exact ⟨fun _ hne => absurd (Eq.refl _) hne, fun _ => .rfl⟩
      rw [attachBody_automatic hform] at hr
      have hclaims := claims slots s scope.key malloc
      generalize s.claim slots scope.key malloc = p at hclaims hr
      cases hclaims with
      | refused hnot =>
          cases hr
          refine ⟨fun _ _ _ hm e _ _ j _ hk => ?_, fun _ => ⟨Eq.refl _, Eq.refl _, fun _ _ =>
            Iff.refl _⟩⟩
          exact (h.vacant j).mp (hk.trans (hnot hm))
      | full hno =>
          cases hr
          exact ⟨fun _ _ _ _ e he hv => absurd hv.1 (hno e he), fun _ => .discarded⟩
      | @taken e hm hkey he hv =>
          obtain ⟨errors, heq⟩ := finish_refused herr hr
          rw [if_pos (Eq.refl true)] at heq
          constructor
          · intro hun _ _ _ e' he' hv' j hj
            obtain rfl := hv'.unique hv
            by_contra hpass
            refine undone_foreign h he hj hpass ?_
            rw [heq] at hun
            exact hun.table
          · intro hundo
            rw [heq, undone_state h he hv (hundo hform (Eq.refl _) hm)]
            exact .discarded

/-! ## Histories -/

/-- Nothing is attached to another scope with a scope's key. -/
def BufferState.noneShares (s : BufferState) (scope : BufferScope) : Prop :=
  ∀ other, other ≠ scope → other.key = scope.key → s.attached other = none

/-- No block is attached to another scope with a scope's key. -/
def BufferState.noBlockShares (s : BufferState) (scope : BufferScope) : Prop :=
  ∀ other, other ≠ scope → other.key = scope.key → ∀ b, s.attached other ≠ some (.block b)

/-- What an attach is asked: an automatic one that is refused, that its undo
finds its own block; one that is accepted, that its key names its scope only. -/
def attachOk (slots : Nat) (form : BufferForm) (scope : BufferScope) (abiBuffer : AbiBuffer)
    (malloc : Bool) (ierror : Int32) (s : BufferState) : Prop :=
  form ≠ .missing →
    match abiBuffer with
    | .automatic =>
        malloc = true →
          (ierror ≠ 0 → s.table.undoable slots scope.key) ∧ (ierror = 0 → s.noneShares scope)
    | .memory _ => ierror = 0 → s.noBlockShares scope

/-- A detach of nothing is asked that its key names its scope only. -/
def detachOk (form : BufferForm) (scope : BufferScope) (ierror : Int32) (s : BufferState) : Prop :=
  form ≠ .missing → ierror = 0 → s.attached scope = none → s.noBlockShares scope

theorem BufferInv.attach (h : BufferInv slots s)
    (hg : attachOk slots form scope abiBuffer malloc ierror s)
    (hr : attachBody slots impl form scope abiBuffer abiSize malloc ierror s = some r) :
    BufferInv slots r.state := by
  cases abiBuffer with
  | memory address =>
      rcases attachBody_memory hr with heq | ⟨hform, hr⟩
      · exact heq ▸ h
      by_cases herr : ierror = 0
      · subst herr
        obtain ⟨hfree, errors, heq⟩ := finish_accepted hr
        rw [heq]
        refine (h.attachMemory hfree fun other b hk ha => ?_).errors_congr
        by_cases hs : other = scope
        · rw [hs, hfree] at ha
          exact nomatch ha
        · exact hg hform (Eq.refl 0) other hs hk b ha
      · obtain ⟨errors, heq⟩ := finish_refused herr hr
        rw [heq]
        exact h.errors_congr
  | automatic =>
      by_cases hform : form = .missing
      · subst hform
        cases hr
        exact h
      rw [attachBody_automatic hform] at hr
      have hclaims := claims slots s scope.key malloc
      generalize s.claim slots scope.key malloc = p at hclaims hr
      cases hclaims with
      | refused hnot =>
          cases hr
          exact h.fresh_succ
      | full hno =>
          cases hr
          exact h.discarded
      | @taken e hm hkey he hv =>
          by_cases herr : ierror = 0
          · subst herr
            obtain ⟨hfree, errors, heq⟩ := finish_accepted hr
            rw [heq]
            exact (h.attachBlock hkey he hv.1 hfree ((hg hform hm).2 (Eq.refl 0))).errors_congr
          · obtain ⟨errors, heq⟩ := finish_refused herr hr
            rw [heq, if_pos (Eq.refl true), undone_state h he hv ((hg hform hm).1 herr)]
            exact h.discarded.errors_congr

/-- What a detach that the implementation accepts does to a block of the
wrapper's, and to anything else. -/
theorem detach_block (h : BufferInv slots s) (hform : form ≠ .missing)
    (ha : s.attached scope = some (.block b)) :
    (detachBody slots impl form scope size 0 s).stored = some (.automatic, size) ∧
      (detachBody slots impl form scope size 0 s).state.freed = s.freed ++ [b] ∧
      BufferInv slots (detachBody slots impl form scope size 0 s).state := by
  obtain ⟨i, hk, hb, hrel⟩ := h.release_block ha
  have hbody : detachBody slots impl form scope size 0 s = ⟨0, some (.automatic, size),
      { s with
        table := (s.table.setBlock i none).setScope i 0
        attached := Function.update s.attached scope none
        freed := s.freed ++ [b] }⟩ := by
    cases form with
    | missing => exact absurd (Eq.refl _) hform
    | own => simp [detachBody, BufferState.detachCall, BufferState.release, hrel]
    | fallback => simp [detachBody, BufferState.detachCall, BufferState.release, hrel]
  rw [hbody]
  exact ⟨Eq.refl _, Eq.refl _, h.detachBlock ha hk hb⟩

theorem detach_other (h : BufferInv slots s) (hform : form ≠ .missing)
    (hno : ∀ b, s.attached scope ≠ some (.block b))
    (hshares : s.attached scope = none → s.noBlockShares scope) :
    (detachBody slots impl form scope size 0 s).stored = some (.address (s.address scope), size) ∧
      (detachBody slots impl form scope size 0 s).state.freed = s.freed ∧
      BufferInv slots (detachBody slots impl form scope size 0 s).state := by
  have hrel : autobufRelease slots scope.key s.table = (s.table, none) := by
    refine h.release_missing fun other b hk ha => ?_
    by_cases hs : other = scope
    · exact hno b (hs ▸ ha)
    · exact hshares (h.apart other b ha scope hk.symm (Ne.symm hs)) other hs hk b ha
  have hbody : detachBody slots impl form scope size 0 s = ⟨0, some (.address (s.address scope),
      size), { s with attached := Function.update s.attached scope none }⟩ := by
    cases form with
    | missing => exact absurd (Eq.refl _) hform
    | own => simp [detachBody, BufferState.detachCall, BufferState.release, hrel]
    | fallback => simp [detachBody, BufferState.detachCall, BufferState.release, hrel]
  rw [hbody]
  exact ⟨Eq.refl _, Eq.refl _, h.detachOther hno⟩

theorem detach_refused (herr : ierror ≠ 0) : ∃ errors,
    (detachBody slots impl form scope size ierror s).state = { s with errors } := by
  cases form with
  | missing => exact ⟨s.errors, Eq.refl _⟩
  | own => exact ⟨_, by simp [detachBody, BufferState.detachCall, BufferState.report, herr]; rfl⟩
  | fallback =>
      exact ⟨_, by simp [detachBody, BufferState.detachCall, BufferState.report, herr]; rfl⟩

theorem BufferInv.detach (h : BufferInv slots s) (hg : detachOk form scope ierror s) :
    BufferInv slots (detachBody slots impl form scope size ierror s).state := by
  by_cases herr : ierror = 0
  · subst herr
    by_cases hform : form = .missing
    · subst hform
      exact h
    · by_cases hb : ∃ b, s.attached scope = some (.block b)
      · obtain ⟨b, ha⟩ := hb
        exact (detach_block h hform ha).2.2
      · exact (detach_other h hform (fun b ha => hb ⟨b, ha⟩) (hg hform (Eq.refl 0))).2.2
  · obtain ⟨errors, heq⟩ := detach_refused herr
    rw [heq]
    exact h.errors_congr

end Bodies

/-- What a run is asked, call by call: that the undo of a refused automatic
attach finds its own block, and that a key names one scope wherever a block of
the wrapper's is involved. -/
def bufferOk (slots : Nat) (handles : ImplHandles) (s : BufferState) : BufferCall → Prop
  | .attach form scope abiBuffer _ malloc ierror =>
      attachOk slots form (scope.fromabi handles) abiBuffer malloc ierror s
  | .detach form scope _ ierror => detachOk form (scope.fromabi handles) ierror s

variable {handles : ImplHandles} {impl : ImplErrors} {s s' : BufferState}

theorem BufferInv.step (h : BufferInv slots s) {c : BufferCall} (hg : bufferOk slots handles s c)
    (hs : s.step slots handles impl c = some s') : BufferInv slots s' := by
  cases c with
  | attach form scope abiBuffer abiSize malloc ierror =>
      obtain ⟨r, hr, rfl⟩ := Option.map_eq_some_iff.mp hs
      exact h.attach hg hr
  | detach form scope size ierror =>
      cases hs
      exact h.detach hg

theorem BufferInv.run {calls : List BufferCall}
    (hm : Meets (BufferState.step slots handles impl) (bufferOk slots handles) .init calls)
    (he : exec (BufferState.step slots handles impl) .init calls = some s) : BufferInv slots s :=
  exec_invariant (fun _ _ _ h hg hs => BufferInv.step h hg hs) BufferInv.init hm he

/-- What the next call does, whatever it is and whatever the implementation
answers. -/
structure BufferSafe (slots : Nat) (impl : ImplErrors) (s : BufferState) : Prop where
  refusedAttach : ∀ form scope abiBuffer abiSize malloc ierror r, ierror ≠ 0 →
    attachBody slots impl form scope abiBuffer abiSize malloc ierror s = some r →
    (Untouched s r.state ↔ (form ≠ .missing → abiBuffer = .automatic → malloc = true →
      s.table.undoable slots scope.key))
  refusedDetach : ∀ form scope size ierror, ierror ≠ 0 →
    Untouched s (detachBody slots impl form scope size ierror s).state
  /-- A detach that succeeds tells a block of the wrapper's from anything else. -/
  reported : ∀ form scope size, form ≠ .missing →
    (s.attached scope = none → s.noBlockShares scope) →
    ((detachBody slots impl form scope size 0 s).stored = some (.automatic, size) ↔
      ∃ b, s.address scope = .block b)
  /-- It frees exactly that block. -/
  freed : ∀ form scope size, form ≠ .missing → (s.attached scope = none → s.noBlockShares scope) →
    (detachBody slots impl form scope size 0 s).state.freed = s.freed ++
      match s.address scope with
      | .block b => [b]
      | .memory _ => []
  /-- A block that the implementation has is recorded, and has not been freed. -/
  kept : ∀ scope b, s.attached scope = some (.block b) → b ∉ s.freed ∧
    ∃ i, i < slots ∧ s.table.scope i = scope.key ∧ s.table.block i = some b
  once : s.freed.Nodup

theorem address_cases (s : BufferState) (scope : BufferScope) :
    (∃ b, s.attached scope = some (.block b) ∧ s.address scope = .block b) ∨
      (∀ b, s.attached scope ≠ some (.block b)) ∧ ∃ a, s.address scope = .memory a := by
  rw [BufferState.address]
  cases s.attached scope with
  | none => exact .inr ⟨nofun, 0, rfl⟩
  | some buffer =>
      cases buffer with
      | block b => exact .inl ⟨b, rfl, rfl⟩
      | memory a => exact .inr ⟨nofun, a, rfl⟩

theorem BufferInv.safe (h : BufferInv slots s) : BufferSafe slots impl s where
  refusedAttach form scope abiBuffer abiSize malloc ierror r herr hr :=
    attach_refused_iff h herr hr
  refusedDetach form scope size ierror herr := by
    obtain ⟨errors, heq⟩ := detach_refused herr
    rw [heq]
    exact .rfl
  reported form scope size hform hshares := by
    rcases address_cases s scope with ⟨b, ha, haddr⟩ | ⟨hno, a, haddr⟩
    · rw [(detach_block h hform ha).1, haddr]
      exact ⟨fun _ => ⟨b, rfl⟩, fun _ => rfl⟩
    · rw [(detach_other h hform hno hshares).1, haddr]
      exact ⟨nofun, nofun⟩
  freed form scope size hform hshares := by
    rcases address_cases s scope with ⟨b, ha, haddr⟩ | ⟨hno, a, haddr⟩
    · rw [(detach_block h hform ha).2.1, haddr]
    · rw [(detach_other h hform hno hshares).2.1, haddr, List.append_nil]
  kept scope b ha := by
    obtain ⟨i, hk, hb⟩ := h.known scope b ha
    refine ⟨(h.allocated i b hb).2, i, h.inRange i fun h0 => ?_, hk, hb⟩
    exact nomatch hb.symm.trans ((h.vacant i).mp h0)
  once := h.once

/-- In every run that keeps to `bufferOk` the buffers survive the calls that
fail, and the next refused call leaves all of them alone exactly when it does
too. -/
theorem buffers_survive {calls : List BufferCall}
    (hm : Meets (BufferState.step slots handles impl) (bufferOk slots handles) .init calls)
    (he : exec (BufferState.step slots handles impl) .init calls = some s) :
    BufferSafe slots impl s := (BufferInv.run hm he).safe

/-- A second automatic attach is what an implementation refuses. -/
def attachedAgain : List BufferCall :=
  [.attach .own .process .automatic 0 true 0, .attach .own .process .automatic 0 true 1]

/-- Its undo frees the block of the first. -/
theorem attached_block_freed :
    ∃ s, exec (BufferState.step autobufSlots integerHandles withoutOptional) .init attachedAgain =
        some s ∧ s.attached .process = some (.block 0) ∧ 0 ∈ s.freed := by
  refine ⟨_, rfl, by decide, by decide⟩

/-- After a detach, it is harmless. -/
def attachedAfter : List BufferCall :=
  [.attach .own .process .automatic 0 true 0, .detach .own .process 8388608 0,
    .attach .own .process .automatic 0 true 1]

theorem attachedAfter_survives :
    ∃ s, exec (BufferState.step autobufSlots integerHandles withoutOptional) .init attachedAfter =
        some s ∧ s.freed = [0, 1] ∧ BufferSafe autobufSlots withoutOptional s := by
  have hm : Meets (BufferState.step autobufSlots integerHandles withoutOptional)
      (bufferOk autobufSlots integerHandles) .init attachedAfter := by
    refine Meets.cons ?_ fun s₁ h₁ => Meets.cons ?_ fun s₂ h₂ => Meets.cons ?_ fun _ _ => trivial
    · exact fun _ _ => ⟨fun h => absurd rfl h, fun _ _ _ _ => rfl⟩
    · cases h₁
      exact fun _ _ hno => nomatch hno
    · cases h₁
      cases h₂
      exact fun _ _ => ⟨fun _ => by decide, nofun⟩
  exact ⟨_, rfl, by decide, buffers_survive hm rfl⟩

end AbiWrapper.Ref
