import Mathlib.Init

/-!
# Objects as bytes

An object is its bytes, counted from its first. `copy` and `set` are the two
block operations, and an `int` is four bytes that some format gives a meaning.
Of the format only two things are asked: that it reads no other bytes, and that
it reads what it wrote.

Every operation changes the bytes of one range, so each has two lemmas: what a
byte of the range becomes, and that any other stays.
-/

namespace AbiWrapper.Lib

abbrev Bytes := Nat → UInt8

/-- `memcpy(m + off, src + srcOff, len)`. -/
def Bytes.copy (m : Bytes) (off : Nat) (src : Bytes) (srcOff len : Nat) : Bytes := fun a =>
  if off ≤ a ∧ a < off + len then src (srcOff + (a - off)) else m a

/-- `memset(m + off, v, len)`. -/
def Bytes.set (m : Bytes) (off : Nat) (v : UInt8) (len : Nat) : Bytes := fun a =>
  if off ≤ a ∧ a < off + len then v else m a

/-- The representation of an `int`. -/
structure IntFormat where
  enc : Int32 → Bytes
  dec : Bytes → Int32
  /-- An `int` is the four bytes it starts with. -/
  dec_congr : ∀ {b b' : Bytes}, (∀ i, i < 4 → b i = b' i) → dec b = dec b'
  dec_enc : ∀ v, dec (enc v) = v

def Bytes.getInt (fmt : IntFormat) (m : Bytes) (off : Nat) : Int32 := fmt.dec fun i => m (off + i)

def Bytes.putInt (fmt : IntFormat) (m : Bytes) (off : Nat) (v : Int32) : Bytes :=
  m.copy off (fmt.enc v) 0 4

namespace Bytes

variable {fmt : IntFormat} {m src : Bytes} {off srcOff len a i : Nat} {v : Int32} {b : UInt8}

theorem copy_at (hi : i < len) : m.copy off src srcOff len (off + i) = src (srcOff + i) := by
  rw [copy, if_pos (by omega), Nat.add_sub_cancel_left]

theorem copy_outside (h : a < off ∨ off + len ≤ a) : m.copy off src srcOff len a = m a := by
  rw [copy, if_neg (by omega)]

theorem set_inside (h : off ≤ a) (h' : a < off + len) : m.set off b len a = b := by
  rw [set, if_pos ⟨h, h'⟩]

theorem putInt_outside (h : a < off ∨ off + 4 ≤ a) : m.putInt fmt off v a = m a := copy_outside h

theorem getInt_congr {m' : Bytes} {off' : Nat} (h : ∀ i, i < 4 → m (off + i) = m' (off' + i)) :
    m.getInt fmt off = m'.getInt fmt off' := fmt.dec_congr h

theorem getInt_putInt : (m.putInt fmt off v).getInt fmt off = v := by
  refine (fmt.dec_congr fun i hi => ?_).trans (fmt.dec_enc v)
  show m.copy off (fmt.enc v) 0 4 (off + i) = fmt.enc v i
  rw [copy_at hi, Nat.zero_add]

theorem getInt_putInt_ne {off' : Nat} (h : off' + 4 ≤ off ∨ off + 4 ≤ off') :
    (m.putInt fmt off v).getInt fmt off' = m.getInt fmt off' :=
  getInt_congr fun i hi => putInt_outside (by omega)

theorem getInt_copy_ne {off' : Nat} (h : off' + 4 ≤ off ∨ off + len ≤ off') :
    (m.copy off src srcOff len).getInt fmt off' = m.getInt fmt off' :=
  getInt_congr fun i hi => copy_outside (by omega)

end Bytes

theorem sum_bytes {n : Nat} (h : n < 4294967296) :
    n % 256 + 256 * (n / 256 % 256) + 65536 * (n / 65536 % 256) + 16777216 * (n / 16777216 % 256) =
      n := by
  omega

/-- The least significant byte first. -/
def IntFormat.littleEndian : IntFormat where
  enc v i := UInt8.ofNat (v.toUInt32.toNat / [1, 256, 65536, 16777216].getD i 1)
  dec b := (UInt32.ofNat
    ((b 0).toNat + 256 * (b 1).toNat + 65536 * (b 2).toNat + 16777216 * (b 3).toNat)).toInt32
  dec_congr h := by rw [h 0 (by omega), h 1 (by omega), h 2 (by omega), h 3 (by omega)]
  dec_enc v := by
    have hsum := sum_bytes v.toUInt32.toNat_lt
    simp only [UInt8.toNat_ofNat', List.getD_cons_zero, List.getD_cons_succ, Nat.div_one]
    rw [hsum, UInt32.ofNat_toNat]
    rfl

end AbiWrapper.Lib
