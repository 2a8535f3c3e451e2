import AbiWrapper.Ref.Arithmetic
import AbiWrapper.Ref.Spawn
import Mathlib.Algebra.BigOperators.Group.Finset.Basic
import Mathlib.Algebra.Order.BigOperators.Group.Finset

/-!
# Adding up degrees

Before each addition the sum is an `int`'s and not negative, and the degree is an
`int`'s, so the `long long` has room to spare however long the array is. The test
comes after the addition, and since no degree is negative, a sum that is too
large once stays so: that the loop stops at the first one is as good as looking
at the whole.
-/

namespace AbiWrapper.Ref

open AbiWrapper.Lib

variable {degrees : Nat → Int32} {i left : Nat} {sum : Int}

/-- The degrees from `i` on. -/
def degreeSum (degrees : Nat → Int32) (i n : Nat) : Int :=
  ∑ k ∈ Finset.range n, (degrees (i + k)).toInt

theorem degreeSum_succ :
    degreeSum degrees i (left + 1) = (degrees i).toInt + degreeSum degrees (i + 1) left := by
  have hshift : ∀ k, degrees (i + (k + 1)) = degrees (i + 1 + k) := fun k => by
    rw [Nat.add_assoc, Nat.add_comm k]
  rw [degreeSum, Finset.sum_range_succ', Int.add_comm]
  simp only [hshift, Nat.add_zero]
  rfl

/-- What is left to be added is, and the sum with it is an `int`'s. -/
structure SumFits (degrees : Nat → Int32) (i left : Nat) (sum : Int) : Prop where
  nonneg : ∀ k, k < left → 0 ≤ (degrees (i + k)).toInt
  fits : sum + degreeSum degrees i left ≤ 2147483647

theorem SumFits.degreeSum_nonneg (h : SumFits degrees i left sum) :
    0 ≤ degreeSum degrees i left :=
  Finset.sum_nonneg fun k hk => h.nonneg k (Finset.mem_range.mp hk)

theorem sumFits_succ : SumFits degrees i (left + 1) sum ↔
    0 ≤ (degrees i).toInt ∧ SumFits degrees (i + 1) left (sum + (degrees i).toInt) := by
  constructor
  · intro h
    have hfits := h.fits
    rw [degreeSum_succ] at hfits
    refine ⟨h.nonneg 0 (Nat.succ_pos left), fun k hk => ?_, by omega⟩
    have hnonneg := h.nonneg (k + 1) (Nat.succ_lt_succ hk)
    rwa [Nat.add_comm k, ← Nat.add_assoc] at hnonneg
  · rintro ⟨h0, h⟩
    have hfits := h.fits
    refine ⟨fun k hk => ?_, by rw [degreeSum_succ]; omega⟩
    cases k with
    | zero => exact h0
    | succ k =>
        have hnonneg := h.nonneg k (Nat.lt_of_succ_lt_succ hk)
        rwa [Nat.add_assoc, Nat.add_comm 1] at hnonneg

/-- An iteration: nothing in it overflows, and it stops at a degree that is
negative or takes the sum past an `int`. -/
theorem sumDegreesFrom_succ (hi : i + (left + 1) ≤ 2147483647) (h0 : 0 ≤ sum)
    (hsum : sum ≤ 2147483647) :
    sumDegreesFrom degrees i sum (left + 1) =
      if (degrees i).toInt < 0 ∨ 2147483647 < sum + (degrees i).toInt then some none
      else sumDegreesFrom degrees ((i + 1 : Nat) : Int) (sum + (degrees i).toInt) left := by
  have hlow := (degrees i).le_toInt
  have hhigh := (degrees i).toInt_lt
  rw [sumDegreesFrom, Int.toNat_natCast]
  by_cases hneg : (degrees i).toInt < 0
  · rw [if_pos hneg, if_pos (Or.inl hneg)]
    rfl
  · have hadd : CInt.longLong.add sum (degrees i).toInt = some (sum + (degrees i).toInt) :=
      CInt.add_eq (CInt.longLong_holds.mpr (by omega))
    have hinc : CInt.int.add (i : Int) 1 = some ((i + 1 : Nat) : Int) :=
      CInt.add_eq (CInt.int_holds.mpr (by omega))
    rw [if_neg hneg, hadd, Option.bind_eq_bind, Option.bind_some]
    by_cases hover : 2147483647 < sum + (degrees i).toInt
    · rw [if_pos hover, if_pos (Or.inr hover)]
      rfl
    · rw [if_neg hover, if_neg (not_or.mpr ⟨hneg, hover⟩), hinc, Option.bind_some]

/-- The loop answers with the sum exactly if that fits. -/
theorem sumDegreesFrom_spec (hi : i + left ≤ 2147483647) (h0 : 0 ≤ sum) (hsum : sum ≤ 2147483647) :
    ∃ r, sumDegreesFrom degrees i sum left = some r ∧
      ∀ total, r = some total ↔
        SumFits degrees i left sum ∧ total = sum + degreeSum degrees i left := by
  induction left generalizing i sum with
  | zero =>
      have hzero : degreeSum degrees i 0 = 0 := rfl
      refine ⟨some sum, rfl, fun total => ?_⟩
      have hfits : SumFits degrees i 0 sum := ⟨fun k hk => absurd hk (Nat.not_lt_zero k), by omega⟩
      rw [hzero, Int.add_zero, Option.some_inj]
      exact ⟨fun h => ⟨hfits, h.symm⟩, fun h => h.2.symm⟩
  | succ left ih =>
      rw [sumDegreesFrom_succ hi h0 hsum]
      split
      · next hstop =>
          refine ⟨none, rfl, fun total => iff_of_false nofun fun h => ?_⟩
          obtain ⟨hnonneg, hrest⟩ := sumFits_succ.mp h.1
          have hdegrees := hrest.degreeSum_nonneg
          have hfits := hrest.fits
          omega
      · next hgo =>
          obtain ⟨r, hr, hspec⟩ := @ih (i + 1) (sum + (degrees i).toInt) (by omega) (by omega)
            (by omega)
          refine ⟨r, hr, fun total => ?_⟩
          rw [hspec, sumFits_succ, degreeSum_succ, Int.add_assoc]
          exact ⟨fun h => ⟨⟨by omega, h.1⟩, h.2⟩, fun h => ⟨h.1.2, h.2⟩⟩

/-- The loop over ends and results that spawning has is this one. -/
theorem sumDegreesFrom_eq_loop {sum : Nat} (hi : i + left ≤ 2147483647) (hsum : sum ≤ 2147483647) :
    sumDegreesFrom degrees i sum left =
      match (sumDegreesLoop (fun k => some (degrees k).toInt) i sum left).2 with
      | .total n => some (some (n : Int))
      | .refused => some none
      | .fault => none := by
  induction left generalizing i sum with
  | zero => rfl
  | succ left ih =>
      rw [sumDegreesFrom_succ hi (Int.natCast_nonneg sum) (by omega), sumDegreesLoop]
      by_cases hneg : (degrees i).toInt < 0
      · simp only [hneg, true_or, if_true]
      · obtain ⟨d, hd⟩ := Int.eq_ofNat_of_zero_le (Int.not_lt.mp hneg)
        by_cases hover : 2147483647 < sum + d
        · have hover' : (2147483647 : Int) < (sum : Int) + (d : Int) := by omega
          simp only [hd, hover, hover', Int.toNat_natCast, or_true, if_true, if_false,
            Int.not_ofNat_neg]
        · have hover' : ¬ (2147483647 : Int) < (sum : Int) + (d : Int) := by omega
          simp only [hd, hover, hover', Int.toNat_natCast, or_false, if_false, Int.not_ofNat_neg]
          exact ih (by omega) (by omega)

theorem degreeSum_zero :
    degreeSum degrees 0 left = ∑ k ∈ Finset.range left, (degrees k).toInt := by
  simp only [degreeSum, Nat.zero_add]

/-- From the first entry and with nothing added up, all degrees are asked for. -/
theorem sumFits_zero : SumFits degrees 0 left 0 ↔
    (∀ k, k < left → 0 ≤ (degrees k).toInt) ∧
      ∑ k ∈ Finset.range left, (degrees k).toInt ≤ 2147483647 := by
  rw [← degreeSum_zero]
  constructor
  · intro h
    have hsum := h.fits
    refine ⟨fun k hk => ?_, by omega⟩
    have hnonneg := h.nonneg k hk
    rwa [Nat.zero_add] at hnonneg
  · rintro ⟨hnonneg, hsum⟩
    refine ⟨fun k hk => ?_, by omega⟩
    rw [Nat.zero_add]
    exact hnonneg k hk

/-- Whatever the degrees are and however many, nothing overflows. It succeeds
exactly if they are degrees and their sum is an `int`'s, and stores that. -/
theorem degrees_sum_exact (degrees : Nat → Int32) (n total : Int32) :
    ∃ ok total', sumDegrees degrees n total = some (ok, total') ∧
      (ok = true ↔ 0 ≤ n.toInt ∧ (∀ i : Nat, i < n.toInt → 0 ≤ (degrees i).toInt) ∧
        ∑ i ∈ Finset.range n.toInt.toNat, (degrees i).toInt ≤ 2147483647) ∧
      (ok = true → total'.toInt = ∑ i ∈ Finset.range n.toInt.toNat, (degrees i).toInt) ∧
      (ok = false → total' = total) := by
  rw [sumDegrees]
  by_cases hn : n < 0
  · have hneg : n.toInt < 0 := Int32.lt_iff_toInt_lt.mp hn
    rw [if_pos hn]
    exact ⟨false, total, rfl, iff_of_false nofun fun h => absurd h.1 (by omega), nofun,
      fun _ => rfl⟩
  · have hneg : ¬ n.toInt < 0 := fun h => hn (Int32.lt_iff_toInt_lt.mpr h)
    have hhigh := n.toInt_lt
    have hclamp : n.toNatClampNeg = n.toInt.toNat := rfl
    obtain ⟨r, hr, hspec⟩ := @sumDegreesFrom_spec degrees 0 n.toInt.toNat 0 (by omega) (by omega)
      (by omega)
    have hfits : SumFits degrees 0 n.toInt.toNat 0 ↔
        0 ≤ n.toInt ∧ (∀ i : Nat, i < n.toInt → 0 ≤ (degrees i).toInt) ∧
          ∑ i ∈ Finset.range n.toInt.toNat, (degrees i).toInt ≤ 2147483647 := by
      rw [sumFits_zero, and_iff_right (Int.not_lt.mp hneg)]
      simp only [Int.lt_toNat]
    rw [Int.natCast_zero] at hr
    rw [if_neg hn, hclamp, hr, Option.bind_eq_bind, Option.bind_some, ← hfits]
    cases r with
    | none =>
        refine ⟨false, total, rfl, iff_of_false nofun fun h => ?_, nofun, fun _ => rfl⟩
        exact absurd ((hspec _).mpr ⟨h, rfl⟩) nofun
    | some sum =>
        obtain ⟨h, rfl⟩ := (hspec sum).mp rfl
        have hlow := h.degreeSum_nonneg
        have hsum := h.fits
        refine ⟨true, _, rfl, iff_of_true rfl h, fun _ => ?_, nofun⟩
        rw [CInt.convert_eq (by decide) (CInt.int_holds.mpr (by omega)),
          Int32.toInt_ofInt_of_le (by omega) (by omega), degreeSum_zero, Int.zero_add]

end AbiWrapper.Ref
