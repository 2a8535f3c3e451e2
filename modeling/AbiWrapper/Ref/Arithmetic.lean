import AbiWrapper.Lib.CInt

/-!
# Arithmetic on what callers supply (internal.h, extents.c)

Three functions compute with numbers that nobody has looked at: whether a large
count fits a smaller type, how an array follows another in one block, and what an
array of degrees adds up to. The other modules have their results. Here is how
they come by them, operation by operation in the types that the code has, so
that it can be said whether an operation overflows.

What is undefined is `none`. In the layout of a block `size_t` is a bit vector of
any width.
-/

namespace AbiWrapper.Ref

open AbiWrapper.Lib

/-! ## Large counts -/

/-- `(uint64_t)1 << (bytes * CHAR_BIT - 1)`. -/
def magnitude (bytes : Nat) : Option Int := do
  let bits ← CInt.uint64.mul bytes 8
  let shift ← CInt.uint64.sub bits 1
  CInt.uint64.shiftLeft 1 shift

/-- `mpiwrapper_fits`. An `MPIABI_Count` is of 64 bits. -/
def fits (v : Int64) (bytes : Nat) : Option Bool := do
  let magnitude ← magnitude bytes
  if 0 ≤ v.toInt then
    pure (CInt.uint64.convert v.toInt < magnitude)
  else
    let next ← CInt.longLong.add v.toInt 1
    let opposite ← CInt.longLong.neg next
    pure (CInt.uint64.convert opposite < magnitude)

/-- What a narrowing returns, and the destination after it. -/
structure Narrowed where
  ok : Bool
  out : Int
deriving DecidableEq, Repr

/-- A narrowing to a signed type of some bytes. -/
def narrowTo (bytes : Nat) (v : Int64) (out : Int) : Option Narrowed := do
  if ← fits v bytes then
    pure ⟨true, CInt.convert ⟨8 * bytes, true⟩ v.toInt⟩
  else
    pure ⟨false, out⟩

def narrowInt (v : Int64) (out : Int) : Option Narrowed := narrowTo 4 v out

/-- `mpiwrapper_narrow_aint`, by `sizeof(MPI_Aint)`. -/
def narrowAint (aintBytes : Nat) (v : Int64) (out : Int) : Option Narrowed :=
  narrowTo aintBytes v out

/-! ## One block, several arrays -/

/-- `mpiwrapper_staged_next`, by `MPIWRAPPER_STAGED_ALIGN`. -/
def stagedNext {w : Nat} (align off n size : BitVec w) : BitVec w :=
  let sizeMax := BitVec.allOnes w
  if off = sizeMax ∨ size ≠ 0#w ∧ (sizeMax - off) / size < n then sizeMax
  else
    let off := off + n * size
    if sizeMax - (align - 1#w) < off then sizeMax
    else (off + align - 1#w) &&& ~~~(align - 1#w)

/-- An array of a block: how many elements, and the size of one. -/
structure StagedArray (w : Nat) where
  n : BitVec w
  size : BitVec w

/-- `off_` of the array after `arrays`, and `nbytes` after all. -/
def stagedOffset {w : Nat} (align : BitVec w) (arrays : List (StagedArray w)) : BitVec w :=
  arrays.foldl (fun off a => stagedNext align off a.n a.size) 0#w

/-- `if (nbytes != SIZE_MAX) block = malloc(nbytes);` -/
def stagedBlock {w : Nat} (align : BitVec w) (malloc : BitVec w → Option Nat)
    (arrays : List (StagedArray w)) : Option Nat :=
  let nbytes := stagedOffset align arrays
  if nbytes = BitVec.allOnes w then none else malloc nbytes

/-! ## Degrees -/

/-- The loop of `mpiwrapper_sum_degrees` from `i` on, with the iterations that are
left. The sum, or none if it returns zero. -/
def sumDegreesFrom (degrees : Nat → Int32) (i sum : Int) : Nat → Option (Option Int)
  | 0 => pure (some sum)
  | left + 1 =>
      let degree := (degrees i.toNat).toInt
      if degree < 0 then pure none
      else do
        let sum ← CInt.longLong.add sum degree
        if 2147483647 < sum then pure none
        else
          let i ← CInt.int.add i 1
          sumDegreesFrom degrees i sum left

/-- `mpiwrapper_sum_degrees`: what it returns, and `*total` after it. -/
def sumDegrees (degrees : Nat → Int32) (n total : Int32) : Option (Bool × Int32) :=
  if n < 0 then pure (false, total)
  else do
    match ← sumDegreesFrom degrees 0 0 n.toNatClampNeg with
    | some sum => pure (true, Int32.ofInt (CInt.int.convert sum))
    | none => pure (false, total)

end AbiWrapper.Ref
