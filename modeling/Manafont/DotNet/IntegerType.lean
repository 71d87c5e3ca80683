import Mathlib.Algebra.Ring.Int.Defs

/-!
# Integer types

An integer type of C# is its size in bytes and its sign.  A value of it is an integer between
`MinValue` and `MaxValue`, and lies in memory as its two's-complement bits: `Value.bits` and
`Value.ofBits` are inverse to each other.
-/

namespace Manafont

/-- An integer type of C#, by `sizeof(T)` and its sign. -/
structure IntegerType where
  size : Nat
  signed : Bool
  size_pos : 0 < size
  deriving DecidableEq

namespace IntegerType

def long : IntegerType := { size := 8, signed := true, size_pos := by decide }

variable (T : IntegerType)

def minValue : Int := if T.signed then -2 ^ (8 * T.size - 1) else 0

def maxValue : Int := if T.signed then 2 ^ (8 * T.size - 1) - 1 else 2 ^ (8 * T.size) - 1

/-- A value of the type. -/
@[ext] structure Value where
  val : Int
  min_le : T.minValue ≤ val
  le_max : val ≤ T.maxValue
  deriving DecidableEq

variable {T}

def Value.bits (v : T.Value) : BitVec (8 * T.size) := BitVec.ofInt _ v.val

def Value.ofBits (bits : BitVec (8 * T.size)) : T.Value where
  val := if T.signed then bits.toInt else bits.toNat
  min_le := by
    rw [minValue]
    split
    · exact bits.le_toInt
    · exact Int.natCast_nonneg _
  le_max := by
    rw [maxValue]
    split
    · exact Int.le_sub_one_of_lt bits.toInt_lt
    · have hlt : (bits.toNat : Int) < 2 ^ (8 * T.size) := mod_cast bits.isLt
      exact Int.le_sub_one_of_lt hlt

/-- **A value comes back from its bits**, -/
theorem Value.ofBits_bits (v : T.Value) : ofBits v.bits = v := by
  have hmin := v.min_le
  have hmax := v.le_max
  apply Value.ext
  show (if T.signed then (BitVec.ofInt _ v.val).toInt else (BitVec.ofInt _ v.val).toNat) = v.val
  rw [minValue] at hmin
  rw [maxValue] at hmax
  split
  · rename_i hsigned
    rw [if_pos hsigned] at hmin hmax
    have hpos := T.size_pos
    exact BitVec.toInt_ofInt_eq_self (by omega) hmin (Int.lt_of_le_sub_one hmax)
  · rename_i hsigned
    rw [if_neg hsigned] at hmin hmax
    rw [BitVec.toNat_ofInt]
    have hmod := Int.emod_eq_of_lt hmin (Int.lt_of_le_sub_one hmax)
    push_cast
    rw [hmod]
    exact Int.toNat_of_nonneg hmin

/-- **and bits from their value.** -/
theorem Value.bits_ofBits (bits : BitVec (8 * T.size)) : (ofBits bits).bits = bits := by
  show BitVec.ofInt _ (if T.signed then bits.toInt else bits.toNat) = bits
  split
  · exact BitVec.ofInt_toInt
  · rw [BitVec.ofInt_natCast, BitVec.ofNat_toNat, BitVec.setWidth_eq]

end IntegerType

end Manafont
