import AbiWrapper.Ref.Arithmetic
import AbiWrapper.Ref.Datatypes

/-!
# The range test of a large count

The magnitude is the weight of the destination's sign bit, so at most two to the
63. A count that is not negative is below it or is not. For a negative one the
test adds one first, which no `int64_t` below zero overflows, and what is left
can be negated. So every operation is exact, at any width of up to eight bytes,
and the test is that of the destination's range.
-/

namespace AbiWrapper.Ref

open AbiWrapper.Lib

variable {v : Int64} {bytes : Nat} {out : Int}

theorem int64_holds (v : Int64) : CInt.longLong.holds v.toInt := by
  have hlow := v.le_toInt
  have hhigh := v.toInt_lt
  rw [CInt.longLong_holds]
  omega

theorem pow_le_sign {k : Nat} (hk : k ≤ 63) : 0 < (2 : Int) ^ k ∧ (2 : Int) ^ k ≤ 2 ^ 63 := by
  have hle : 2 ^ k ≤ 2 ^ 63 := Nat.pow_le_pow_right (by decide) hk
  exact ⟨Int.pow_pos (by decide), by exact_mod_cast hle⟩

/-- The weight of the sign bit. -/
theorem magnitude_eq (hpos : 0 < bytes) (hle : bytes ≤ 8) :
    magnitude bytes = some (2 ^ (8 * bytes - 1)) := by
  have hpow := @pow_le_sign (8 * bytes - 1) (by omega)
  have hbits : CInt.uint64.mul bytes 8 = some (bytes * 8 : Int) :=
    CInt.mul_eq (CInt.uint64_holds.mpr (by omega))
  have hshift : CInt.uint64.sub (bytes * 8 : Int) 1 = some (bytes * 8 - 1 : Int) :=
    CInt.sub_eq (CInt.uint64_holds.mpr (by omega))
  have htoNat : (bytes * 8 - 1 : Int).toNat = 8 * bytes - 1 := by omega
  simp only [magnitude, hbits, hshift, Option.bind_eq_bind, Option.bind_some]
  rw [CInt.shiftLeft_eq (by decide) (by omega) (show (bytes * 8 - 1 : Int) < 64 by omega), htoNat,
    Int.one_mul]
  rw [htoNat, CInt.uint64_holds, Int.one_mul]
  omega

theorem fits_eq (hpos : 0 < bytes) (hle : bytes ≤ 8) :
    fits v bytes =
      some (decide (-2 ^ (8 * bytes - 1) ≤ v.toInt ∧ v.toInt < 2 ^ (8 * bytes - 1))) := by
  obtain ⟨hpow, hpow'⟩ := @pow_le_sign (8 * bytes - 1) (by omega)
  have hv := CInt.longLong_holds.mp (int64_holds v)
  rw [fits, magnitude_eq hpos hle]
  show (if 0 ≤ v.toInt then _ else _) = _
  split
  · next h0 =>
      rw [CInt.convert_eq (by decide) (CInt.uint64_holds.mpr (by omega))]
      exact congrArg some (decide_eq_decide.mpr (by omega))
  · next h0 =>
      have hnext : CInt.longLong.add v.toInt 1 = some (v.toInt + 1) :=
        CInt.add_eq (CInt.longLong_holds.mpr (by omega))
      have hopposite : CInt.longLong.neg (v.toInt + 1) = some (-(v.toInt + 1)) :=
        CInt.neg_eq (CInt.longLong_holds.mpr (by omega))
      simp only [hnext, hopposite, Option.bind_eq_bind, Option.bind_some]
      rw [CInt.convert_eq (by decide) (CInt.uint64_holds.mpr (by omega))]
      exact congrArg some (decide_eq_decide.mpr (by omega))

/-- The test is the one by which the bodies' models tell what fits. -/
theorem fits_fitsBytes (hpos : 0 < bytes) (hle : bytes ≤ 8) :
    fits v bytes = some (decide (fitsBytes bytes v.toInt)) := by
  have hshift : ((1 <<< (8 * bytes - 1) : Nat) : Int) = 2 ^ (8 * bytes - 1) := by
    rw [Nat.one_shiftLeft, Int.natCast_pow]
    rfl
  rw [fits_eq hpos hle]
  refine congrArg some (decide_eq_decide.mpr ?_)
  rw [fitsBytes, hshift]
  omega

theorem fits_fitsInt : fits v 4 = some (decide (fitsInt v.toInt)) := by
  rw [fits_eq (by decide) (by decide)]
  refine congrArg some (decide_eq_decide.mpr ?_)
  rw [fitsInt]
  omega

/-! ## Narrowing -/

/-- A count narrowed to a signed type of some bytes, as it should be. -/
def narrowed (bytes : Nat) (v out : Int) : Narrowed :=
  if -2 ^ (8 * bytes - 1) ≤ v ∧ v < 2 ^ (8 * bytes - 1) then ⟨true, v⟩ else ⟨false, out⟩

theorem narrowTo_eq (hpos : 0 < bytes) (hle : bytes ≤ 8) :
    narrowTo bytes v out = some (narrowed bytes v.toInt out) := by
  rw [narrowTo, fits_eq hpos hle, narrowed]
  by_cases h : -2 ^ (8 * bytes - 1) ≤ v.toInt ∧ v.toInt < 2 ^ (8 * bytes - 1)
  · rw [if_pos h, decide_eq_true h]
    show some (Narrowed.mk true _) = _
    have hholds : CInt.holds ⟨8 * bytes, true⟩ v.toInt :=
      ⟨h.1, Int.le_sub_one_of_lt h.2⟩
    rw [CInt.convert_eq (show 0 < 8 * bytes by omega) hholds]
  · rw [if_neg h, decide_eq_false h]
    rfl

/-- Whatever the count and the destination's old value, with no undefined
behaviour on the way, to an `int` and to an `MPI_Aint` of either width. -/
theorem narrowing_exact (v : Int64) (out : Int) :
    narrowInt v out = some (narrowed 4 v.toInt out) ∧
      ∀ bytes, bytes = 4 ∨ bytes = 8 →
        narrowAint bytes v out = some (narrowed bytes v.toInt out) := by
  constructor
  · exact narrowTo_eq (by decide) (by decide)
  · intro bytes hbytes
    exact narrowTo_eq (by omega) (by omega)

end AbiWrapper.Ref
