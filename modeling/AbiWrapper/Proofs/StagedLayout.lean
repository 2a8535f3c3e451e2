import Mathlib.Data.List.Induction
import AbiWrapper.Lib.Layout
import AbiWrapper.Ref.Arithmetic

/-!
# Where the arrays of a block are

`mpiwrapper_staged_next` is the padded layout of unbounded numbers, cut off at
`SIZE_MAX` (`stagedNext_toNat`). Each of its three tests stands for a place where
the numbers would get beyond it: the product, the sum, and the padding. The last
needs that the alignment divides the number after `SIZE_MAX`, so that there is no
multiple of it in between.

What is cut off once stays cut off, so a whole layout is the unbounded one or is
`SIZE_MAX`, and that the arrays do not overlap is a fact about the unbounded one.
-/

namespace AbiWrapper.Ref

open AbiWrapper.Lib

variable {w : Nat} {a : Fin w} {off n size x : BitVec w} {arrays : List (StagedArray w)}

/-- How many bytes an array has, if there were any number of them. -/
def StagedArray.bytes (array : StagedArray w) : Nat := array.n.toNat * array.size.toNat

/-- Where the first `k` arrays end, each padded, if there were any number of bytes. -/
def paddedPrefix (a : Fin w) (arrays : List (StagedArray w)) (k : Nat) : Nat :=
  placed (2 ^ a.val) ((arrays.map StagedArray.bytes).take k)

/-! ## One array -/

theorem twoPow_toNat : (BitVec.twoPow w a).toNat = 2 ^ a.val :=
  BitVec.toNat_twoPow_of_lt a.isLt

theorem align_le : 2 ^ a.val ≤ 2 ^ w := Nat.pow_le_pow_right (by decide) (Nat.le_of_lt a.isLt)

theorem pred_align_toNat : (BitVec.twoPow w a - 1#w).toNat = 2 ^ a.val - 1 := by
  have hone : (1#w).toNat = 1 := BitVec.toNat_one (Nat.zero_lt_of_lt a.isLt)
  have hle : 1#w ≤ BitVec.twoPow w a := by
    rw [BitVec.le_def, twoPow_toNat, hone]
    exact Nat.two_pow_pos _
  rw [BitVec.toNat_sub_of_le hle, twoPow_toNat, hone]

/-- The low bits are cleared. -/
theorem and_not_toNat : (x &&& ~~~(BitVec.twoPow w a - 1#w)).toNat =
    x.toNat / 2 ^ a.val * 2 ^ a.val := by
  have hpos : 0 < 2 ^ a.val := Nat.two_pow_pos _
  have hlt : 2 ^ a.val - 1 < 2 ^ w := by
    have := @align_le w a
    omega
  rw [BitVec.toNat_and, BitVec.toNat_not, pred_align_toNat]
  apply Nat.eq_of_testBit_eq
  intro i
  rw [Nat.testBit_and, Nat.sub_sub, Nat.add_comm 1, Nat.testBit_two_pow_sub_succ hlt,
    Nat.testBit_two_pow_sub_one, Nat.testBit_mul_two_pow, Nat.testBit_div_two_pow]
  by_cases hai : a.val ≤ i
  · rw [Nat.sub_add_cancel hai]
    by_cases hi : i < w
    · simp [hai, hi]
    · have hx : x.toNat < 2 ^ i :=
        Nat.lt_of_lt_of_le x.isLt (Nat.pow_le_pow_right (by decide) (by omega))
      simp [Nat.testBit_lt_two_pow hx]
  · simp [hai, Nat.lt_of_not_le hai]

/-- Between `SIZE_MAX` and the number after it there is no multiple of the
alignment. -/
theorem pow_le_roundUp {y : Nat} (h : 2 ^ w < y + 2 ^ a.val) : 2 ^ w ≤ roundUp (2 ^ a.val) y := by
  have hdvd : 2 ^ a.val ∣ 2 ^ w := Nat.pow_dvd_pow 2 (Nat.le_of_lt a.isLt)
  have hle : y ≤ roundUp (2 ^ a.val) y := le_roundUp (Nat.two_pow_pos _)
  exact Nat.le_of_lt_add_of_dvd (by omega) hdvd dvd_roundUp

theorem allOnes_sub_toNat : (BitVec.allOnes w - x).toNat = 2 ^ w - 1 - x.toNat := by
  have hle : x ≤ BitVec.allOnes w := by
    rw [BitVec.le_def, BitVec.toNat_allOnes]
    exact Nat.le_sub_one_of_lt x.isLt
  rw [BitVec.toNat_sub_of_le hle, BitVec.toNat_allOnes]

/-- The test before the sum is made. -/
theorem overflows_iff : (size ≠ 0#w ∧ (BitVec.allOnes w - off) / size < n) ↔
    2 ^ w - 1 < off.toNat + n.toNat * size.toNat := by
  have hoff := off.isLt
  rcases Nat.eq_zero_or_pos size.toNat with h0 | hpos
  · have hsize : size = 0#w := BitVec.eq_of_toNat_eq h0
    simp [hsize]
    omega
  · have hne : size ≠ 0#w := fun h => by simp [h] at hpos
    rw [BitVec.lt_def, BitVec.toNat_udiv, allOnes_sub_toNat, Nat.div_lt_iff_lt_mul hpos]
    exact ⟨fun h => by have := h.2; omega, fun h => ⟨hne, by omega⟩⟩

/-- Where there is room for the padding, the mask rounds up. -/
theorem padded_toNat (h : x.toNat + (2 ^ a.val - 1) < 2 ^ w) :
    ((x + BitVec.twoPow w a - 1#w) &&& ~~~(BitVec.twoPow w a - 1#w)).toNat =
      roundUp (2 ^ a.val) x.toNat := by
  have hadd : x + BitVec.twoPow w a - 1#w = x + (BitVec.twoPow w a - 1#w) := by
    rw [BitVec.sub_eq_add_neg, BitVec.sub_eq_add_neg, BitVec.add_assoc]
  have hpadded : (x + (BitVec.twoPow w a - 1#w)).toNat = x.toNat + (2 ^ a.val - 1) := by
    rw [BitVec.toNat_add, pred_align_toNat, Nat.mod_eq_of_lt h]
  rw [hadd, and_not_toNat, hpadded]
  rfl

/-- The layout of one array, cut off at `SIZE_MAX`. -/
theorem stagedNext_toNat : (stagedNext (BitVec.twoPow w a) off n size).toNat =
    min (2 ^ w - 1) (roundUp (2 ^ a.val) (off.toNat + n.toNat * size.toNat)) := by
  have hpos : 0 < 2 ^ a.val := Nat.two_pow_pos _
  have hle := @align_le w a
  have hoff := off.isLt
  have hround := @le_roundUp (2 ^ a.val) (off.toNat + n.toNat * size.toNat) hpos
  rw [stagedNext]
  split
  · next h =>
      -- The product or the sum is beyond it, or the offset was.
      have hbeyond : 2 ^ w - 1 ≤ off.toNat + n.toNat * size.toNat := by
        rcases h with h | h
        · rw [h, BitVec.toNat_allOnes]
          exact Nat.le_add_right _ _
        · exact Nat.le_of_lt (overflows_iff.mp h)
      rw [BitVec.toNat_allOnes]
      omega
  · next h =>
      rw [overflows_iff] at h
      have hsum : (off + n * size).toNat = off.toNat + n.toNat * size.toNat := by
        have hlt : off.toNat + n.toNat * size.toNat < 2 ^ w := by
          by_contra hge
          exact h (.inr (by omega))
        rw [BitVec.toNat_add, BitVec.toNat_mul, Nat.add_mod_mod, Nat.mod_eq_of_lt hlt]
      have hsumlt := (off + n * size).isLt
      simp only []
      split
      · next hpad =>
          -- The padding is beyond it.
          rw [BitVec.lt_def, allOnes_sub_toNat, pred_align_toNat, hsum] at hpad
          have hbeyond : 2 ^ w ≤ roundUp (2 ^ a.val) (off.toNat + n.toNat * size.toNat) :=
            pow_le_roundUp (by omega)
          rw [BitVec.toNat_allOnes]
          omega
      · next hpad =>
          rw [BitVec.lt_def, allOnes_sub_toNat, pred_align_toNat, hsum] at hpad
          have hroom : (off + n * size).toNat + (2 ^ a.val - 1) < 2 ^ w := by omega
          have hresult : roundUp (2 ^ a.val) (off.toNat + n.toNat * size.toNat) ≤
              off.toNat + n.toNat * size.toNat + (2 ^ a.val - 1) := Nat.div_mul_le_self _ _
          rw [padded_toNat hroom, hsum]
          exact (Nat.min_eq_right (by omega)).symm

/-! ## A block -/

theorem stagedOffset_append {array : StagedArray w} {align : BitVec w} :
    stagedOffset align (arrays ++ [array]) =
      stagedNext align (stagedOffset align arrays) array.n array.size := by
  rw [stagedOffset, List.foldl_append]
  rfl

/-- A whole layout, cut off at `SIZE_MAX`. -/
theorem stagedOffset_toNat : (stagedOffset (BitVec.twoPow w a) arrays).toNat =
    min (2 ^ w - 1) (placed (2 ^ a.val) (arrays.map StagedArray.bytes)) := by
  induction arrays using List.reverseRecOn with
  | nil => simp [stagedOffset, placed]
  | append_singleton front array ih =>
      rw [stagedOffset_append, stagedNext_toNat, ih, List.map_append, List.map_singleton,
        placed_append]
      exact min_roundUp (Nat.two_pow_pos _)

theorem stagedOffset_take (k : Nat) : (stagedOffset (BitVec.twoPow w a) (arrays.take k)).toNat =
    min (2 ^ w - 1) (paddedPrefix a arrays k) := by
  rw [stagedOffset_toNat, paddedPrefix, List.map_take]

theorem poison_iff (k : Nat) : stagedOffset (BitVec.twoPow w a) (arrays.take k) = BitVec.allOnes w ↔
    2 ^ w - 1 ≤ paddedPrefix a arrays k := by
  rw [← BitVec.toNat_inj, stagedOffset_take, BitVec.toNat_allOnes]
  omega

theorem paddedPrefix_mono {i j : Nat} (hij : i ≤ j) :
    paddedPrefix a arrays i ≤ paddedPrefix a arrays j :=
  placed_mono (Nat.two_pow_pos _) hij

/-- What is poison stays poison, whatever comes after. -/
theorem poison_sticky {later : List (StagedArray w)}
    (h : stagedOffset (BitVec.twoPow w a) arrays = BitVec.allOnes w) :
    stagedOffset (BitVec.twoPow w a) (arrays ++ later) = BitVec.allOnes w := by
  have hfront : (arrays ++ later).take arrays.length = arrays := List.take_left
  have hall : (arrays ++ later).take (arrays ++ later).length = arrays ++ later := List.take_length
  rw [← hfront, poison_iff] at h
  rw [← hall, poison_iff]
  exact Nat.le_trans h (paddedPrefix_mono (by simp))

/-- Of a block that is not poison: each array is aligned, and ends before the
later ones begin and before the block ends. -/
structure Laid (a : Fin w) (arrays : List (StagedArray w)) (i : Nat) (array : StagedArray w) :
    Prop where
  aligned : 2 ^ a.val ∣ (stagedOffset (BitVec.twoPow w a) (arrays.take i)).toNat
  before : ∀ j, i < j → j < arrays.length →
    (stagedOffset (BitVec.twoPow w a) (arrays.take i)).toNat + array.bytes ≤
      (stagedOffset (BitVec.twoPow w a) (arrays.take j)).toNat
  inside : (stagedOffset (BitVec.twoPow w a) (arrays.take i)).toNat + array.bytes ≤
    (stagedOffset (BitVec.twoPow w a) arrays).toNat

/-- A layout is poison exactly if one of its padded prefixes is `SIZE_MAX` or
beyond. Then the layout of more arrays is poison too, and no block is asked for.
Otherwise every array is where it can be. -/
theorem staged_layout (w : Nat) (a : Fin w) (arrays : List (StagedArray w)) :
    (stagedOffset (BitVec.twoPow w a) arrays = BitVec.allOnes w ↔
        ∃ k, k ≤ arrays.length ∧ 2 ^ w - 1 ≤ paddedPrefix a arrays k) ∧
      (stagedOffset (BitVec.twoPow w a) arrays = BitVec.allOnes w → ∀ later malloc,
        stagedOffset (BitVec.twoPow w a) (arrays ++ later) = BitVec.allOnes w ∧
          stagedBlock (BitVec.twoPow w a) malloc (arrays ++ later) = none) ∧
      (stagedOffset (BitVec.twoPow w a) arrays ≠ BitVec.allOnes w →
        ∀ i array, arrays[i]? = some array → Laid a arrays i array) := by
  have hall : arrays.take arrays.length = arrays := List.take_length
  have hpoison := @poison_iff w a arrays arrays.length
  rw [hall] at hpoison
  refine ⟨?_, ?_, ?_⟩
  · rw [hpoison]
    constructor
    · exact fun h => ⟨arrays.length, Nat.le_refl _, h⟩
    · rintro ⟨k, hk, h⟩
      exact Nat.le_trans h (paddedPrefix_mono hk)
  · intro h later malloc
    have hsticky : stagedOffset (BitVec.twoPow w a) (arrays ++ later) = BitVec.allOnes w :=
      poison_sticky h
    exact ⟨hsticky, by rw [stagedBlock, hsticky]; exact if_pos rfl⟩
  · intro h i array hi
    obtain ⟨hlt, harray⟩ := List.getElem?_eq_some_iff.mp hi
    have hbelow := mt hpoison.mpr h
    have hfits : ∀ k, k ≤ arrays.length →
        (stagedOffset (BitVec.twoPow w a) (arrays.take k)).toNat = paddedPrefix a arrays k := by
      intro k hk
      have hmono : paddedPrefix a arrays k ≤ paddedPrefix a arrays arrays.length :=
        paddedPrefix_mono hk
      rw [stagedOffset_take]
      omega
    have hend : ∀ j, i < j → paddedPrefix a arrays i + array.bytes ≤ paddedPrefix a arrays j := by
      intro j hij
      have hmap : i < (arrays.map StagedArray.bytes).length := by rwa [List.length_map]
      have hplaced := @placed_end (2 ^ a.val) i j _ (Nat.two_pow_pos _) hmap hij
      rwa [List.getElem_map, harray] at hplaced
    have hbefore : ∀ j, i < j → j ≤ arrays.length →
        (stagedOffset (BitVec.twoPow w a) (arrays.take i)).toNat + array.bytes ≤
          (stagedOffset (BitVec.twoPow w a) (arrays.take j)).toNat := by
      intro j hij hj
      rw [hfits i (Nat.le_of_lt hlt), hfits j hj]
      exact hend j hij
    refine ⟨?_, fun j hij hj => hbefore j hij (Nat.le_of_lt hj), ?_⟩
    · rw [hfits i (Nat.le_of_lt hlt)]
      exact dvd_placed
    · have hwhole := hbefore arrays.length hlt (Nat.le_refl _)
      rwa [hall] at hwhole

end AbiWrapper.Ref
