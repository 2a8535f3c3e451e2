import Mathlib.Algebra.Order.Ring.Int

/-!
# Integer types of C

A value of an integer type is a mathematical integer. What the type adds is a
range, and what becomes of a result outside it. An unsigned type takes the
result modulo two to its width. A signed type has no result: the behaviour is
undefined, and so it is if a shift is as wide as the type. A computation is an
`Option`, and `none` is undefined behaviour.

A conversion is always defined. That of a value out of range to a signed type
keeps its low bits.

All that a proof needs of an operation is that it is exact where its exact
result is in range.
-/

namespace AbiWrapper.Lib

structure CInt where
  width : Nat
  signed : Bool
deriving DecidableEq, Repr

namespace CInt

def int : CInt := ⟨32, true⟩
def longLong : CInt := ⟨64, true⟩
def uint64 : CInt := ⟨64, false⟩

def minValue (t : CInt) : Int := if t.signed then -2 ^ (t.width - 1) else 0
def maxValue (t : CInt) : Int := if t.signed then 2 ^ (t.width - 1) - 1 else 2 ^ t.width - 1

def holds (t : CInt) (v : Int) : Prop := t.minValue ≤ v ∧ v ≤ t.maxValue

instance (t : CInt) (v : Int) : Decidable (t.holds v) := inferInstanceAs (Decidable (_ ∧ _))

/-- What an operation yields whose exact result is `v`. -/
def result (t : CInt) (v : Int) : Option Int :=
  if t.signed then (if t.holds v then some v else none) else some (v % 2 ^ t.width)

def add (t : CInt) (a b : Int) : Option Int := t.result (a + b)
def sub (t : CInt) (a b : Int) : Option Int := t.result (a - b)
def mul (t : CInt) (a b : Int) : Option Int := t.result (a * b)
def neg (t : CInt) (a : Int) : Option Int := t.result (-a)

def shiftLeft (t : CInt) (a shift : Int) : Option Int :=
  if 0 ≤ a ∧ 0 ≤ shift ∧ shift < t.width then t.result (a * 2 ^ shift.toNat) else none

def convert (t : CInt) (v : Int) : Int :=
  if t.signed then v.bmod (2 ^ t.width) else v % 2 ^ t.width

variable {t : CInt} {a b v shift : Int}

theorem emod_eq (hs : t.signed = false) (h : t.holds v) : v % 2 ^ t.width = v := by
  simp only [holds, minValue, maxValue, hs, Bool.false_eq_true, if_false] at h
  exact Int.emod_eq_of_lt h.1 (Int.lt_of_le_sub_one h.2)

theorem result_eq (h : t.holds v) : t.result v = some v := by
  rw [result]
  cases hs : t.signed with
  | true => rw [if_pos rfl, if_pos h]
  | false => rw [if_neg Bool.false_ne_true, emod_eq hs h]

theorem result_signed (hs : t.signed = true) : (t.result v).isSome = true ↔ t.holds v := by
  rw [result, if_pos hs]
  split <;> simp_all

theorem add_eq (h : t.holds (a + b)) : t.add a b = some (a + b) := result_eq h

theorem sub_eq (h : t.holds (a - b)) : t.sub a b = some (a - b) := result_eq h

theorem mul_eq (h : t.holds (a * b)) : t.mul a b = some (a * b) := result_eq h

theorem neg_eq (h : t.holds (-a)) : t.neg a = some (-a) := result_eq h

theorem shiftLeft_eq (ha : 0 ≤ a) (hs : 0 ≤ shift) (hw : shift < t.width)
    (h : t.holds (a * 2 ^ shift.toNat)) :
    t.shiftLeft a shift = some (a * 2 ^ shift.toNat) := by
  rw [shiftLeft, if_pos ⟨ha, hs, hw⟩, result_eq h]

theorem convert_eq (hw : 0 < t.width) (h : t.holds v) : t.convert v = v := by
  rw [convert]
  cases hs : t.signed with
  | true =>
      simp only [holds, minValue, maxValue, hs, if_true] at h
      obtain ⟨n, hn⟩ : ∃ n, t.width = n + 1 := ⟨t.width - 1, by omega⟩
      have hpow : (2 : Int) ^ t.width = 2 * 2 ^ (t.width - 1) := by
        rw [hn, Nat.add_sub_cancel, Int.pow_succ, Int.mul_comm]
      rw [if_pos rfl]
      refine Int.bmod_eq_of_le_mul_two ?_ ?_ <;> push_cast <;> omega
  | false => rw [if_neg Bool.false_ne_true, emod_eq hs h]

theorem int_holds : int.holds v ↔ -2147483648 ≤ v ∧ v ≤ 2147483647 := Iff.rfl

theorem longLong_holds :
    longLong.holds v ↔ -9223372036854775808 ≤ v ∧ v ≤ 9223372036854775807 := Iff.rfl

theorem uint64_holds : uint64.holds v ↔ 0 ≤ v ∧ v ≤ 18446744073709551615 := Iff.rfl

end CInt

end AbiWrapper.Lib
