import Mathlib.Data.List.Nodup

/-!
# Translating sets of flags

A mask is a set of bits, and a flag is a single one. `translate` goes through a
table of pairs and sets the second of each whose first the mask has. Masks are
compared bit by bit, and of a translated mask `getLsbD_translate` says what each
bit is.

Two facts follow. A union is translated to the union, whatever the table. And if
no two rows have the same second flag, translating back along the same table
gives what the mask has of the first flags.
-/

namespace AbiWrapper.Lib

variable {w : Nat} {rows : List (BitVec w × BitVec w)} {m n : BitVec w} {i : Nat}

def translate (rows : List (BitVec w × BitVec w)) (m : BitVec w) : BitVec w :=
  rows.foldl (fun mode row => if m &&& row.1 ≠ 0#w then mode ||| row.2 else mode) 0#w

def union (flags : List (BitVec w)) : BitVec w := flags.foldl (fun m flag => m ||| flag) 0#w

/-- A mask of one bit. -/
def IsFlag (flag : BitVec w) : Prop := ∃ k, k < w ∧ flag = BitVec.twoPow w k

instance (flag : BitVec w) : Decidable (IsFlag flag) :=
  inferInstanceAs (Decidable (∃ k, k < w ∧ _))

/-! ## Bit by bit -/

theorem getLsbD_foldl_translate {mode : BitVec w} :
    (rows.foldl (fun mode row => if m &&& row.1 ≠ 0#w then mode ||| row.2 else mode)
        mode).getLsbD i =
      (mode.getLsbD i || rows.any fun row => decide (m &&& row.1 ≠ 0#w) && row.2.getLsbD i) := by
  induction rows generalizing mode with
  | nil => simp
  | cons row rest ih =>
      rw [List.foldl_cons, ih, List.any_cons]
      by_cases h : m &&& row.1 = 0#w
      · simp [h]
      · simp [h, Bool.or_assoc]

theorem getLsbD_translate : (translate rows m).getLsbD i =
    rows.any fun row => decide (m &&& row.1 ≠ 0#w) && row.2.getLsbD i := by
  rw [translate, getLsbD_foldl_translate]
  simp

theorem getLsbD_union {flags : List (BitVec w)} :
    (union flags).getLsbD i = flags.any fun flag => flag.getLsbD i := by
  have hfold : ∀ m : BitVec w, (flags.foldl (fun m flag => m ||| flag) m).getLsbD i =
      (m.getLsbD i || flags.any fun flag => flag.getLsbD i) := by
    induction flags with
    | nil => simp
    | cons flag rest ih =>
        intro m
        rw [List.foldl_cons, ih, List.any_cons, BitVec.getLsbD_or, Bool.or_assoc]
  rw [union, hfold]
  simp

theorem or_and_ne_zero {flag : BitVec w} :
    (m ||| n) &&& flag ≠ 0#w ↔ m &&& flag ≠ 0#w ∨ n &&& flag ≠ 0#w := by
  have hdistrib : (m ||| n) &&& flag = (m &&& flag) ||| (n &&& flag) := by
    ext k hk
    simp [Bool.and_or_distrib_right]
  rw [hdistrib, ne_eq, BitVec.or_eq_zero_iff, not_and_or]

/-- A mask has a flag if it has its bit. -/
theorem IsFlag.and_ne_zero {flag : BitVec w} (h : IsFlag flag) (hi : flag.getLsbD i = true) :
    m &&& flag ≠ 0#w ↔ m.getLsbD i = true := by
  obtain ⟨k, hk, rfl⟩ := h
  obtain rfl : k = i := by simpa [BitVec.getLsbD_twoPow, hk] using hi
  have hne : BitVec.twoPow w k ≠ 0#w := by
    intro h0
    simp [h0] at hi
  rw [BitVec.and_twoPow]
  split
  · next hm => exact iff_of_true hne hm
  · next hm => exact iff_of_false (by simp) hm

theorem IsFlag.bit {flag : BitVec w} (h : IsFlag flag) : ∃ k, flag.getLsbD k = true := by
  obtain ⟨k, hk, rfl⟩ := h
  exact ⟨k, by simp [hk]⟩

theorem IsFlag.eq_of_bit {flag flag' : BitVec w} (h : IsFlag flag) (h' : IsFlag flag')
    (hi : flag.getLsbD i = true) (hi' : flag'.getLsbD i = true) : flag = flag' := by
  obtain ⟨k, hk, rfl⟩ := h
  obtain ⟨k', hk', rfl⟩ := h'
  obtain rfl : k = i := by simpa [BitVec.getLsbD_twoPow, hk] using hi
  obtain rfl : k' = k := by simpa [BitVec.getLsbD_twoPow, hk'] using hi'
  rfl

/-! ## The translation -/

theorem translate_or : translate rows (m ||| n) = translate rows m ||| translate rows n := by
  ext i hi
  simp only [← BitVec.getLsbD_eq_getElem, BitVec.getLsbD_or, getLsbD_translate]
  rw [Bool.eq_iff_iff]
  simp only [Bool.or_eq_true, List.any_eq_true, Bool.and_eq_true, decide_eq_true_eq,
    or_and_ne_zero]
  constructor
  · rintro ⟨row, hrow, hm | hn, hbit⟩
    · exact .inl ⟨row, hrow, hm, hbit⟩
    · exact .inr ⟨row, hrow, hn, hbit⟩
  · rintro (⟨row, hrow, hm, hbit⟩ | ⟨row, hrow, hn, hbit⟩)
    · exact ⟨row, hrow, .inl hm, hbit⟩
    · exact ⟨row, hrow, .inr hn, hbit⟩

/-- A translated mask has the second flag of a row exactly if the mask has the
first. -/
theorem translate_and_ne_zero (hsnd : ∀ row, row ∈ rows → IsFlag row.2)
    (hnodup : (rows.map Prod.snd).Nodup) {row : BitVec w × BitVec w} (hrow : row ∈ rows) :
    translate rows m &&& row.2 ≠ 0#w ↔ m &&& row.1 ≠ 0#w := by
  obtain ⟨k, hk⟩ := (hsnd row hrow).bit
  rw [(hsnd row hrow).and_ne_zero hk, getLsbD_translate]
  simp only [List.any_eq_true, Bool.and_eq_true, decide_eq_true_eq]
  constructor
  · rintro ⟨row', hrow', hm, hbit⟩
    have hflag := (hsnd row' hrow').eq_of_bit (hsnd row hrow) hbit hk
    rwa [← List.inj_on_of_nodup_map hnodup hrow' hrow hflag]
  · exact fun hm => ⟨row, hrow, hm, hk⟩

theorem translate_back (hfst : ∀ row, row ∈ rows → IsFlag row.1)
    (hsnd : ∀ row, row ∈ rows → IsFlag row.2) (hnodup : (rows.map Prod.snd).Nodup) :
    translate (rows.map Prod.swap) (translate rows m) = m &&& union (rows.map Prod.fst) := by
  ext i hi
  simp only [← BitVec.getLsbD_eq_getElem, BitVec.getLsbD_and, getLsbD_translate, getLsbD_union]
  rw [Bool.eq_iff_iff]
  simp only [List.any_map, List.any_eq_true, Function.comp_apply, Prod.fst_swap, Prod.snd_swap,
    Bool.and_eq_true, decide_eq_true_eq]
  constructor
  · rintro ⟨row, hrow, hm, hbit⟩
    rw [translate_and_ne_zero hsnd hnodup hrow, (hfst row hrow).and_ne_zero hbit] at hm
    exact ⟨hm, row, hrow, hbit⟩
  · rintro ⟨hm, row, hrow, hbit⟩
    refine ⟨row, hrow, ?_, hbit⟩
    rwa [translate_and_ne_zero hsnd hnodup hrow, (hfst row hrow).and_ne_zero hbit]

end AbiWrapper.Lib
