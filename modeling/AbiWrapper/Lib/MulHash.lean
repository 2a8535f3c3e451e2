import Mathlib.Data.UInt
import Mathlib.Tactic.Ring

/-!
# Hashes that exclude-or and multiply

Each byte is exclusive-ored into the low end of a word, and the word is
multiplied. Multiplying by a number that has an inverse loses nothing, so what
comes behind a difference does not undo it. That messages which differ in two
bytes next to each other do not hash alike needs more: what the first byte
changes has to come out above the second, which it does where the multiplier is
`2 ^ 24 + k` with a small `k`.
-/

namespace AbiWrapper.Lib

/-- One byte. -/
def mulStep (p h : UInt32) (b : UInt8) : UInt32 := (h ^^^ b.toUInt32) * p

def mulHash (p h : UInt32) (data : List UInt8) : UInt32 := data.foldl (mulStep p) h

variable {p q h h' : UInt32} {b b' c c' : UInt8} {data before behind : List UInt8} {k : Nat}

theorem mulHash_cons : mulHash p h (b :: data) = mulHash p (mulStep p h b) data := rfl

theorem mulHash_append : mulHash p h (before ++ data) = mulHash p (mulHash p h before) data :=
  List.foldl_append

theorem mulStep_inj (hp : p * q = 1) (he : mulStep p h b = mulStep p h' c) :
    h ^^^ b.toUInt32 = h' ^^^ c.toUInt32 := by
  rw [mulStep, mulStep] at he
  rw [← UInt32.mul_one (h ^^^ _), ← UInt32.mul_one (h' ^^^ _), ← hp, ← UInt32.mul_assoc, he,
    UInt32.mul_assoc]

/-- What comes behind a difference does not undo it. -/
theorem mulHash_inj (hp : p * q = 1) (he : mulHash p h data = mulHash p h' data) : h = h' := by
  induction data generalizing h h' with
  | nil => exact he
  | cons b data ih =>
      have hx := mulStep_inj hp (ih he)
      rw [← UInt32.xor_zero (a := h), ← UInt32.xor_self (a := b.toUInt32), ← UInt32.xor_assoc, hx,
        UInt32.xor_assoc, UInt32.xor_self, UInt32.xor_zero]

theorem xor_byte_div : (h ^^^ b.toUInt32).toNat / 256 = h.toNat / 256 := by
  have hb : b.toNat / 2 ^ 8 = 0 := Nat.div_eq_of_lt b.toNat_lt
  rw [UInt32.toNat_xor, UInt8.toNat_toUInt32]
  have hx := Nat.xor_div_two_pow (a := h.toNat) (b := b.toNat) (n := 8)
  rw [hb, Nat.xor_zero] at hx
  exact hx

theorem xor_byte_inj (he : h ^^^ b.toUInt32 = h ^^^ c.toUInt32) : b = c :=
  UInt8.toUInt32_inj.mp ((UInt32.xor_right_inj h).mp he)

/-- Where the multiplier is `2 ^ 24 + k`, each step of the low byte moves the
product by more than a byte and by less than the modulus. -/
theorem product_apart {hi r s : Nat} (hk : k < 2 ^ 16) (hrs : r < s) (hs : s < 256) :
    (256 * hi + r) * (2 ^ 24 + k) % 2 ^ 32 / 256 ≠
      (256 * hi + s) * (2 ^ 24 + k) % 2 ^ 32 / 256 := by
  have hle : r * k ≤ s * k := Nat.mul_le_mul_right k (Nat.le_of_lt hrs)
  have hsk : s * k ≤ 255 * k := Nat.mul_le_mul_right k (by omega)
  have expand : ∀ r, (256 * hi + r) * (2 ^ 24 + k) =
      2 ^ 32 * hi + 256 * (hi * k) + 2 ^ 24 * r + r * k := by
    intro r
    ring
  rw [expand, expand]
  omega

theorem low_byte_of_product {x y : UInt32} (hk : k < 2 ^ 16) (hpk : p.toNat = 2 ^ 24 + k)
    (hxy : x.toNat / 256 = y.toNat / 256) (he : (x * p).toNat / 256 = (y * p).toNat / 256) :
    x = y := by
  rw [UInt32.toNat_mul, UInt32.toNat_mul, hpk, ← Nat.div_add_mod x.toNat 256,
    ← Nat.div_add_mod y.toNat 256, hxy] at he
  have hr := Nat.mod_lt x.toNat (show 0 < 256 by omega)
  have hs := Nat.mod_lt y.toNat (show 0 < 256 by omega)
  apply UInt32.toNat_inj.mp
  rcases Nat.lt_trichotomy (x.toNat % 256) (y.toNat % 256) with hlt | heq | hlt
  · exact absurd he (product_apart hk hlt hs)
  · omega
  · exact absurd he.symm (product_apart hk hlt hr)

/-- Two bytes next to each other that are different make the hash different. -/
theorem mulHash_two_bytes (hp : p * q = 1) (hk : k < 2 ^ 16) (hpk : p.toNat = 2 ^ 24 + k)
    (he : mulHash p h (before ++ b :: b' :: behind) = mulHash p h (before ++ c :: c' :: behind)) :
    b = c ∧ b' = c' := by
  rw [mulHash_append, mulHash_append, mulHash_cons, mulHash_cons, mulHash_cons,
    mulHash_cons] at he
  have hsecond := mulStep_inj hp (mulHash_inj hp he)
  have hdiv : (mulStep p (mulHash p h before) b).toNat / 256 =
      (mulStep p (mulHash p h before) c).toNat / 256 := by
    rw [← xor_byte_div (b := b'), hsecond, xor_byte_div]
  have hfirst := low_byte_of_product hk hpk (xor_byte_div.trans xor_byte_div.symm) hdiv
  have hb := xor_byte_inj hfirst
  rw [hb] at hsecond
  exact ⟨hb, xor_byte_inj hsecond⟩

end AbiWrapper.Lib
