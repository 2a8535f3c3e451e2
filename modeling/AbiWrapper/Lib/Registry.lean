import Mathlib.Logic.Function.Basic
import AbiWrapper.Lib.CInt

/-!
# Append-only registries

A table of fixed capacity whose entries are claimed in order and never change.
A value is found by scanning from the newest entry down, and an entry is named
to the outside by a base plus its slot. The way back subtracts the base, and is
undefined for the lowest integers, for which the difference is not an `int`.

`Registry` carries what makes it well formed: the counter stays within the
table, the slots below it are taken and the slots from it on are vacant. The
counter of a full table is the capacity, whatever is tried on it.

`Extends` is how a registry changes over time. It is a preorder, every
operation is a step along it, and everything a user may rely on later — that a
slot keeps its entry — is stated against it.
-/

namespace AbiWrapper.Lib

variable {α : Type}

structure Registry (α : Type) (cap : Nat) (vacant : α) where
  slot : Nat → α
  count : Nat
  count_le : count ≤ cap
  taken : ∀ i, i < count → slot i ≠ vacant
  vacant_from : ∀ i, count ≤ i → slot i = vacant

/-- The newest of the first `n` slots that has `a`. -/
def newest [DecidableEq α] (slot : Nat → α) (a : α) : Nat → Option Nat
  | 0 => none
  | n + 1 => if slot n = a then some n else newest slot a n

theorem newest_eq_some [DecidableEq α] {slot : Nat → α} {a : α} {n i : Nat}
    (h : newest slot a n = some i) : i < n ∧ slot i = a := by
  induction n with
  | zero => exact nomatch h
  | succ n ih =>
      rw [newest] at h
      split at h
      · next ha =>
          obtain rfl := Option.some.inj h
          exact ⟨Nat.lt_succ_self n, ha⟩
      · obtain ⟨hlt, hi⟩ := ih h
        exact ⟨Nat.lt_succ_of_lt hlt, hi⟩

theorem newest_eq_none [DecidableEq α] {slot : Nat → α} {a : α} {n : Nat} :
    newest slot a n = none ↔ ∀ i, i < n → slot i ≠ a := by
  induction n with
  | zero => exact ⟨fun _ i hi => absurd hi (Nat.not_lt_zero i), fun _ => rfl⟩
  | succ n ih =>
      rw [newest]
      split
      · next ha =>
          exact ⟨nofun, fun h => absurd ha (h n (Nat.lt_succ_self n))⟩
      · next ha =>
          rw [ih]
          refine ⟨fun h i hi => ?_, fun h i hi => h i (Nat.lt_succ_of_lt hi)⟩
          rcases Nat.lt_succ_iff_lt_or_eq.mp hi with hlt | rfl
          · exact h i hlt
          · exact ha

theorem newest_congr [DecidableEq α] {slot slot' : Nat → α} {a : α} {n : Nat}
    (h : ∀ i, i < n → slot' i = slot i) : newest slot' a n = newest slot a n := by
  induction n with
  | zero => rfl
  | succ n ih =>
      rw [newest, newest, h n (Nat.lt_succ_self n),
        ih fun i hi => h i (Nat.lt_succ_of_lt hi)]

namespace Registry

variable {cap : Nat} {vacant : α}

def empty : Registry α cap vacant where
  slot _ := vacant
  count := 0
  count_le := Nat.zero_le cap
  taken i hi := absurd hi (Nat.not_lt_zero i)
  vacant_from _ _ := rfl

/-- The newest slot of a value. -/
def find [DecidableEq α] (r : Registry α cap vacant) (a : α) : Option Nat :=
  newest r.slot a r.count

/-- Claims the next slot for `a`, or has no room. -/
def append (r : Registry α cap vacant) (a : α) (ha : a ≠ vacant) :
    Option (Nat × Registry α cap vacant) :=
  if h : r.count < cap then
    some (r.count,
      { slot := Function.update r.slot r.count a
        count := r.count + 1
        count_le := h
        taken := fun i hi => by
          rcases Nat.lt_succ_iff_lt_or_eq.mp hi with hlt | rfl
          · rw [Function.update_of_ne (Nat.ne_of_lt hlt)]
            exact r.taken i hlt
          · rw [Function.update_self]
            exact ha
        vacant_from := fun i hi => by
          rw [Function.update_of_ne (Nat.ne_of_gt hi)]
          exact r.vacant_from i (Nat.le_of_succ_le hi) })
  else none

/-- The later registry has all entries of the earlier one where they were. -/
def Extends (r r' : Registry α cap vacant) : Prop :=
  r.count ≤ r'.count ∧ ∀ i, i < r.count → r'.slot i = r.slot i

variable {r r' r'' : Registry α cap vacant} {a : α} {ha : a ≠ vacant} {i : Nat}

theorem Extends.refl (r : Registry α cap vacant) : r.Extends r :=
  ⟨Nat.le_refl _, fun _ _ => rfl⟩

theorem Extends.trans (h : r.Extends r') (h' : r'.Extends r'') : r.Extends r'' :=
  ⟨Nat.le_trans h.1 h'.1, fun i hi =>
    (h'.2 i (Nat.lt_of_lt_of_le hi h.1)).trans (h.2 i hi)⟩

theorem append_eq_none : r.append a ha = none ↔ r.count = cap := by
  have hle := r.count_le
  rw [append]
  split
  · exact ⟨nofun, fun h => by omega⟩
  · exact ⟨fun _ => by omega, fun _ => rfl⟩

theorem append_eq_some (h : r.append a ha = some (i, r')) :
    i = r.count ∧ i < cap ∧ r'.count = r.count + 1 ∧
      r'.slot = Function.update r.slot r.count a := by
  rw [append] at h
  split at h
  · next hlt =>
      obtain ⟨rfl, rfl⟩ := Prod.mk.inj (Option.some.inj h)
      exact ⟨rfl, hlt, rfl, rfl⟩
  · exact nomatch h

theorem append_extends (h : r.append a ha = some (i, r')) : r.Extends r' := by
  obtain ⟨-, -, hcount, hslot⟩ := append_eq_some h
  refine ⟨by omega, fun j hj => ?_⟩
  rw [hslot, Function.update_of_ne (Nat.ne_of_lt hj)]

theorem append_slot (h : r.append a ha = some (i, r')) : i < r'.count ∧ r'.slot i = a := by
  obtain ⟨rfl, -, hcount, hslot⟩ := append_eq_some h
  rw [hslot, Function.update_self]
  exact ⟨by omega, rfl⟩

theorem find_eq_some [DecidableEq α] (h : r.find a = some i) :
    i < r.count ∧ i < cap ∧ r.slot i = a := by
  obtain ⟨hlt, hi⟩ := newest_eq_some h
  have hle := r.count_le
  exact ⟨hlt, by omega, hi⟩

theorem find_eq_none [DecidableEq α] :
    r.find a = none ↔ ∀ i, i < r.count → r.slot i ≠ a := newest_eq_none

/-- A value is found where it was appended last. -/
theorem append_find_self [DecidableEq α] (h : r.append a ha = some (i, r')) :
    r'.find a = some i := by
  obtain ⟨rfl, -, hcount, hslot⟩ := append_eq_some h
  rw [find, hcount, newest, hslot, Function.update_self]
  exact if_pos rfl

theorem append_find_of_ne [DecidableEq α] {b : α} (h : r.append a ha = some (i, r'))
    (hb : b ≠ a) : r'.find b = r.find b := by
  obtain ⟨rfl, -, hcount, hslot⟩ := append_eq_some h
  rw [find, hcount, newest, hslot, Function.update_self, if_neg hb.symm]
  exact newest_congr fun j hj => Function.update_of_ne (Nat.ne_of_lt hj) _ _

theorem lt_count_of_slot (h : r.slot i ≠ vacant) : i < r.count :=
  Nat.lt_of_not_le fun hle => h (r.vacant_from i hle)

/-- A full registry has nothing to become. -/
theorem Extends.eq_of_full (h : r.Extends r') (hfull : r.count = cap) : r' = r := by
  have hcount : r'.count = r.count := by
    have hle := r'.count_le
    have hge := h.1
    omega
  have hslot : r'.slot = r.slot := by
    funext i
    by_cases hi : i < r.count
    · exact h.2 i hi
    · rw [r.vacant_from i (by omega), r'.vacant_from i (by omega)]
  cases r
  cases r'
  cases hcount
  cases hslot
  rfl

/-- What a value was found at stays its entry. -/
theorem Extends.slot_of_lt (h : r.Extends r') (hi : i < r.count) (hs : r.slot i = a) :
    i < r'.count ∧ r'.slot i = a :=
  ⟨Nat.lt_of_lt_of_le hi h.1, (h.2 i hi).trans hs⟩

end Registry

/-! ## Naming entries to the outside -/

/-- The integer that names a slot. -/
def codeOf (base : Int32) (slot : Nat) : Int32 := base + Int32.ofNat slot

/-- `value - base`, as an `int`. -/
def slotIndex (base value : Int32) : Option Int := CInt.int.sub value.toInt base.toInt

/-- The slot an integer names, if it names one of the first `cap`. -/
def slotOf (cap : Nat) (base value : Int32) : Option (Option Nat) :=
  (slotIndex base value).map fun (slot : Int) =>
    if slot < 0 ∨ cap ≤ slot then none else some slot.toNat

/-- Every slot has an integer. -/
structure SlotRange (cap : Nat) (base : Int32) : Prop where
  base_nonneg : 0 ≤ base.toInt
  fits : base.toInt + cap ≤ 2147483648

variable {cap slot : Nat} {base value : Int32}

theorem codeOf_toInt (hb : 0 ≤ base.toInt) (h : base.toInt + slot < 2147483648) :
    (codeOf base slot).toInt = base.toInt + slot := by
  rw [codeOf, Int32.toInt_add, Int32.toInt_ofNat_of_lt (by omega)]
  exact Int.bmod_eq_of_le (by omega) (by omega)

theorem slotIndex_isSome (hb : 0 ≤ base.toInt) :
    (slotIndex base value).isSome = true ↔ -2147483648 + base.toInt ≤ value.toInt := by
  have hhigh := value.toInt_lt
  rw [slotIndex, CInt.sub, CInt.result_signed rfl, CInt.int_holds]
  omega

theorem slotIndex_eq (hb : 0 ≤ base.toInt) (hv : -2147483648 + base.toInt ≤ value.toInt) :
    slotIndex base value = some (value.toInt - base.toInt) := by
  have hhigh := value.toInt_lt
  exact CInt.sub_eq (CInt.int_holds.mpr (by omega))

theorem slotOf_isSome (hb : 0 ≤ base.toInt) :
    (slotOf cap base value).isSome = true ↔ -2147483648 + base.toInt ≤ value.toInt := by
  rw [slotOf, Option.isSome_map, slotIndex_isSome hb]

theorem slotOf_eq (hb : 0 ≤ base.toInt) (hv : -2147483648 + base.toInt ≤ value.toInt) :
    slotOf cap base value =
      some (if value.toInt - base.toInt < 0 ∨ cap ≤ value.toInt - base.toInt then none
        else some (value.toInt - base.toInt).toNat) := by
  rw [slotOf, slotIndex_eq hb hv]
  rfl

theorem slotOf_codeOf (hr : SlotRange cap base) (h : slot < cap) :
    slotOf cap base (codeOf base slot) = some (some slot) := by
  have hb := hr.base_nonneg
  have hfits := hr.fits
  have hcode : (codeOf base slot).toInt = base.toInt + slot := codeOf_toInt hb (by omega)
  have hsub : (codeOf base slot).toInt - base.toInt = slot := by omega
  rw [slotOf_eq hb (by omega), hsub, if_neg (by omega)]
  rfl

theorem slotOf_eq_some (hr : SlotRange cap base) (h : slotOf cap base value = some (some slot)) :
    slot < cap ∧ value = codeOf base slot := by
  have hb := hr.base_nonneg
  have hfits := hr.fits
  have hv : -2147483648 + base.toInt ≤ value.toInt := by
    have hsome : (slotOf cap base value).isSome = true := by
      rw [h]
      rfl
    exact (slotOf_isSome hb).mp hsome
  rw [slotOf_eq hb hv] at h
  split at h
  · cases h
  · next hin =>
      cases h
      refine ⟨by omega, Int32.toInt_inj.mp ?_⟩
      rw [codeOf_toInt hb (by omega)]
      omega

end AbiWrapper.Lib
