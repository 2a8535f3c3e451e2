import Mathlib.Algebra.Order.Group.Nat
import Mathlib.Data.Nat.Init

/-!
# Blocks in a row

Blocks of given sizes are placed one after the other, each at the first multiple
of an alignment that the block before it leaves free. `placed` is where the next
block would begin, and so the size of the whole.

Numbers are unbounded here. A machine whose offsets stop at a greatest value has
the same layout up to that value: `min_roundUp` is what an induction over a
computation that saturates has to know.
-/

namespace AbiWrapper.Lib

/-- The first multiple of `a` that is not below `x`. -/
def roundUp (a x : Nat) : Nat := (x + (a - 1)) / a * a

variable {a x y m size i j : Nat} {sizes : List Nat}

theorem le_roundUp (ha : 0 < a) : x ≤ roundUp a x := by
  rw [roundUp]
  have hdiv := Nat.div_add_mod (x + (a - 1)) a
  have hmod := Nat.mod_lt (x + (a - 1)) ha
  rw [Nat.mul_comm] at hdiv
  omega

theorem dvd_roundUp : a ∣ roundUp a x := Nat.dvd_mul_left _ _

theorem roundUp_mono (h : x ≤ y) : roundUp a x ≤ roundUp a y :=
  Nat.mul_le_mul_right a (Nat.div_le_div_right (Nat.add_le_add_right h _))

/-- It does not matter when a computation is cut off. -/
theorem min_roundUp (ha : 0 < a) :
    min m (roundUp a (min m x + size)) = min m (roundUp a (x + size)) := by
  rcases Nat.le_total x m with hx | hx
  · rw [Nat.min_eq_right hx]
  · rw [Nat.min_eq_left hx]
    have hm : m + size ≤ roundUp a (m + size) := le_roundUp ha
    have hmono : roundUp a (m + size) ≤ roundUp a (x + size) :=
      roundUp_mono (Nat.add_le_add_right hx size)
    omega

/-- Where the block after blocks of these sizes begins. -/
def placed (a : Nat) (sizes : List Nat) : Nat :=
  sizes.foldl (fun off size => roundUp a (off + size)) 0

theorem placed_append : placed a (sizes ++ [size]) = roundUp a (placed a sizes + size) := by
  rw [placed, List.foldl_append]
  rfl

theorem dvd_placed : a ∣ placed a sizes := by
  rcases List.eq_nil_or_concat sizes with rfl | ⟨front, last, rfl⟩
  · exact Nat.dvd_zero a
  · rw [List.concat_eq_append, placed_append]
    exact dvd_roundUp

theorem placed_take (h : i < sizes.length) :
    placed a (sizes.take (i + 1)) = roundUp a (placed a (sizes.take i) + sizes[i]) := by
  rw [List.take_succ_eq_append_getElem h, placed_append]

theorem placed_mono (ha : 0 < a) (hij : i ≤ j) :
    placed a (sizes.take i) ≤ placed a (sizes.take j) := by
  induction j, hij using Nat.le_induction with
  | base => exact Nat.le_refl _
  | succ j _ ih =>
      rcases Nat.lt_or_ge j sizes.length with hj | hj
      · rw [placed_take hj]
        exact Nat.le_trans ih (Nat.le_trans (Nat.le_add_right _ _) (le_roundUp ha))
      · have hall : sizes.take (j + 1) = sizes.take j := by
          rw [List.take_of_length_le hj, List.take_of_length_le (Nat.le_succ_of_le hj)]
        rwa [hall]

/-- A block ends before any later one begins, and before the whole ends. -/
theorem placed_end (ha : 0 < a) (h : i < sizes.length) (hij : i < j) :
    placed a (sizes.take i) + sizes[i] ≤ placed a (sizes.take j) :=
  calc placed a (sizes.take i) + sizes[i]
      ≤ roundUp a (placed a (sizes.take i) + sizes[i]) := le_roundUp ha
    _ = placed a (sizes.take (i + 1)) := (placed_take h).symm
    _ ≤ placed a (sizes.take j) := placed_mono ha hij

end AbiWrapper.Lib
