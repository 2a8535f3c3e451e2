import AbiWrapper.Ref.Handles
import Mathlib.Algebra.Group.Nat.Defs

/-!
# The reverse map is a perfect hash

A build tries multipliers until no two keys collide, each time in the table that
the attempt before has left half filled. Two facts make the outcome independent
of the attempts: an attempt clears the keys of all slots, and with a power of
two slots the shift leaves just the bits that number them, so every index, for
every multiplier and every key, is one of a slot that was cleared
(`rmapHash_lt`). The rest is `fill`: a table filled from nothing answers with
the first entry of each key and with nothing else.
-/

namespace AbiWrapper.Ref

open AbiWrapper.Lib

variable {m m' : Rmap} {entries : List (UInt64 × UInt64)} {k : Nat} {mul key : UInt64}

/-! ## The index -/

theorem shiftLoop_pow {fuel shift : Nat} (hk : k ≤ fuel) :
    shiftLoop fuel (2 ^ k) shift = shift - k := by
  induction k generalizing fuel shift with
  | zero => cases fuel <;> rfl
  | succ k ih =>
      obtain ⟨fuel, rfl⟩ : ∃ n, fuel = n + 1 := ⟨fuel - 1, by omega⟩
      have hpos : 0 < 2 ^ k := Nat.two_pow_pos k
      have hhalf : 2 ^ (k + 1) / 2 = 2 ^ k := by omega
      rw [shiftLoop, if_pos (by omega), hhalf, ih (by omega)]
      omega

theorem rmapShift_pow (hk : k < 64) : rmapShift (2 ^ k) = 64 - k := shiftLoop_pow (by omega)

/-- The bits that are left of the product number the slots. -/
theorem rmapHash_lt (hk : 1 ≤ k) (hk' : k < 64) :
    rmapHash mul (rmapShift (2 ^ k)) key < 2 ^ k := by
  have hshift : (UInt64.ofNat (64 - k)).toNat % 64 = 64 - k := by
    rw [UInt64.toNat_ofNat']
    omega
  have hword : (key * mul).toNat < 2 ^ (k + (64 - k)) := by
    rw [show k + (64 - k) = 64 by omega]
    exact UInt64.toNat_lt _
  rw [rmapShift_pow hk', rmapHash, UInt64.toNat_shiftRight, hshift, Nat.shiftRight_eq_div_pow,
    Nat.div_lt_iff_lt_mul (Nat.two_pow_pos _), ← Nat.pow_add]
  exact hword

/-! ## The search -/

/-- A search that succeeds has filled a cleared table. -/
theorem rmapSearch_fill {shift left : Nat} {slots : Nat → Slot UInt64 UInt64}
    (h : rmapSearch m shift entries left mul slots = some m') :
    m'.nslots = m.nslots ∧ m'.shift = shift ∧ ∃ t, (∀ s, s < m.nslots → (t s).key = rmapEmpty) ∧
      fill (rmapHash m'.mul m'.shift) rmapEmpty t 0 entries = (m'.slots, some m'.nkeys) := by
  induction left generalizing mul slots with
  | zero => exact nomatch h
  | succ left ih =>
      rw [rmapSearch] at h
      split at h
      · next slots' stored hfill =>
          obtain rfl := Option.some.inj h
          refine ⟨rfl, rfl, _, fun s hs => ?_, hfill⟩
          rw [if_pos hs]
      · exact ih h

/-- Nothing is in a slot but a key that hashes to it. -/
theorem rmapBuild_owned (h : rmapBuild m entries = some m') {s : Nat} (hs : s < m'.nslots) :
    (m'.slots s).key = rmapEmpty ∨ rmapHash m'.mul m'.shift (m'.slots s).key = s := by
  obtain ⟨hn, -, t, ht, hfill⟩ := rmapSearch_fill h
  rw [hn] at hs
  exact fill_owned (p := (· < m.nslots)) hfill (fun s hs => .inl (ht s hs)) hs

section Build

variable (hslots : m.nslots = 2 ^ k) (hk : 1 ≤ k) (hk' : k < 64)
  (h : rmapBuild m entries = some m')

include hslots hk hk' h

theorem rmapBuild_inRange : rmapHash m'.mul m'.shift key < m'.nslots := by
  obtain ⟨hn, hs, -⟩ := rmapSearch_fill h
  rw [hn, hs, hslots]
  exact rmapHash_lt hk hk'

/-- A map that was built finds the first entry of every key it was built from
and misses every other. -/
theorem rmapBuild_lookup (hkey : key ≠ rmapEmpty) : rmapLookup m' key = firstOf key entries := by
  obtain ⟨hn, -, t, ht, hfill⟩ := rmapSearch_fill h
  refine fill_vacant_lookup hfill (fun key => ht _ ?_) hkey
  rw [← hn]
  exact rmapBuild_inRange hslots hk hk' h

/-- Its slots are enough for the distinct keys. -/
theorem rmapBuild_card (hkeys : ∀ e, e ∈ entries → e.1 ≠ rmapEmpty) :
    (entries.map Prod.fst).toFinset.card ≤ m.nslots := by
  rw [← (rmapSearch_fill h).1]
  have hrange : ∀ key, rmapHash m'.mul m'.shift key < m'.nslots := fun key =>
    rmapBuild_inRange hslots hk hk' h
  refine card_keys_le (t := m'.slots) hrange fun e he => ?_
  show (rmapLookup m' e.1).isSome = true
  rw [rmapBuild_lookup hslots hk hk' h (hkeys e he), firstOf_eq_find?, Option.isSome_map,
    List.find?_isSome]
  exact ⟨e, he, decide_eq_true rfl⟩

end Build

/-! ## The map as a whole -/

/-- A built map: the answer for every key, the index for every key, and that
all its slots have is what the list gave them. -/
structure PerfectHash (m : Rmap) (entries : List (UInt64 × UInt64)) : Prop where
  lookup : ∀ key, key ≠ rmapEmpty →
    rmapLookup m key = (entries.find? fun e => e.1 = key).map Prod.snd
  inRange : ∀ key, rmapHash m.mul m.shift key < m.nslots
  clean : ∀ s, s < m.nslots → (m.slots s).key ≠ rmapEmpty →
    entries.find? (fun e => e.1 = (m.slots s).key) = some ((m.slots s).key, (m.slots s).val) ∧
      rmapHash m.mul m.shift (m.slots s).key = s

theorem PerfectHash.of_build (hslots : m.nslots = 2 ^ k) (hk : 1 ≤ k) (hk' : k < 64)
    (h : rmapBuild m entries = some m') : PerfectHash m' entries := by
  have hlookup : ∀ key, key ≠ rmapEmpty →
      rmapLookup m' key = (entries.find? fun e => e.1 = key).map Prod.snd := fun key hkey => by
    rw [rmapBuild_lookup hslots hk hk' h hkey, firstOf_eq_find?]
  refine ⟨hlookup, fun _ => rmapBuild_inRange hslots hk hk' h, fun s hs hne => ?_⟩
  have hhash := (rmapBuild_owned h hs).resolve_left hne
  have hfound : rmapLookup m' (m'.slots s).key = some (m'.slots s).val := by
    rw [rmapLookup, slotLookup, hhash, if_pos rfl]
  rw [hlookup _ hne, Option.map_eq_some_iff] at hfound
  obtain ⟨e, hfind, hval⟩ := hfound
  have hkey : e.1 = (m'.slots s).key := of_decide_eq_true (List.find?_some hfind :)
  rw [hfind, ← hkey, ← hval]
  exact ⟨rfl, hkey ▸ hhash⟩

/-- For every list of keys with their ABI values and every power of two of
slots: each index of every attempt is in range; a build that succeeds gives the
list's first entry of each key and nothing else; and it does not succeed with
more distinct keys than slots. -/
theorem rmap_perfect_hash (hslots : m.nslots = 2 ^ k) (hk : 1 ≤ k) (hk' : k < 64)
    (hkeys : ∀ e, e ∈ entries → e.1 ≠ rmapEmpty) :
    (∀ mul key, rmapHash mul (rmapShift m.nslots) key < m.nslots) ∧
      (∀ m', rmapBuild m entries = some m' → PerfectHash m' entries) ∧
      (m.nslots < (entries.map Prod.fst).toFinset.card → rmapBuild m entries = none) := by
  refine ⟨fun mul key => ?_, fun m' h => .of_build hslots hk hk' h, fun hmany => ?_⟩
  · rw [hslots]
    exact rmapHash_lt hk hk'
  · cases h : rmapBuild m entries with
    | none => rfl
    | some m' =>
        have := rmapBuild_card hslots hk hk' h hkeys
        omega

/-- Three keys, one of them twice, in four slots whose first multipliers do not
separate them. -/
def aliasedKeys : List (UInt64 × UInt64) := [(5, 0x201), (18, 0x202), (5, 0x203), (31, 0x204)]

theorem aliasedKeys_perfectHash :
    ∃ m', rmapBuild (.static 4) aliasedKeys = some m' ∧ m'.mul ≠ 0x9e3779b97f4a7c15 ∧
      PerfectHash m' aliasedKeys ∧ rmapLookup m' 5 = some 0x201 := by
  have hslots : (Rmap.static 4).nslots = 2 ^ 2 := rfl
  have hkeys : ∀ e, e ∈ aliasedKeys → e.1 ≠ rmapEmpty := by simp [aliasedKeys, rmapEmpty]
  have hbuild := (rmap_perfect_hash hslots (by decide) (by decide) hkeys).2.1
  have hmul : (rmapBuild (.static 4) aliasedKeys).map Rmap.mul = some 0xe8c362dc1e24364f := by
    decide +kernel
  cases h : rmapBuild (.static 4) aliasedKeys with
  | none =>
      rw [h] at hmul
      exact nomatch hmul
  | some m' =>
      rw [h, Option.map_some, Option.some.injEq] at hmul
      refine ⟨m', rfl, by rw [hmul]; decide, hbuild m' h, ?_⟩
      exact (hbuild m' h).lookup 5 (by decide)

end AbiWrapper.Ref
