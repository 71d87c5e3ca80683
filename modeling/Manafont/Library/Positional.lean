import Mathlib.Data.Nat.Digits.Defs
import Mathlib.Tactic.Ring

/-!
# Numbers as bytes

`lowFirst w n` writes `n` on `w` bytes with the lowest byte first and `value`
reads such bytes back.  They are inverse to each other as far as `w` bytes go:
`value_lowFirst` loses what does not fit and `lowFirst_value` loses nothing.
The other byte order is the reversed list.

`twosComplement w v` is an integer on `w` bytes, negative or not, with the highest
byte first.  Writing what is left of it modulo `256 ^ w` gives the same bytes
(`reverse_lowFirst_emod`).
-/

namespace Positional

/-- The `w` lowest bytes of `n`, lowest first. -/
def lowFirst : Nat → Nat → List UInt8
  | 0, _ => []
  | w + 1, n => UInt8.ofNat n :: lowFirst w (n / 256)

/-- The number whose bytes, lowest first, are `bs`. -/
def value (bs : List UInt8) : Nat := Nat.ofDigits 256 (bs.map UInt8.toNat)

@[simp] theorem lowFirst_length (w n : Nat) : (lowFirst w n).length = w := by
  induction w generalizing n with
  | zero => rfl
  | succ w ih => rw [lowFirst, List.length_cons, ih]

@[simp] theorem value_nil : value [] = 0 := rfl

theorem value_cons (b : UInt8) (bs : List UInt8) : value (b :: bs) = b.toNat + 256 * value bs := by
  rw [value, List.map_cons, Nat.ofDigits_cons]
  rfl

theorem value_lt (bs : List UInt8) : value bs < 256 ^ bs.length := by
  have h := Nat.ofDigits_lt_base_pow_length (b := 256) (l := bs.map UInt8.toNat) (by omega)
    (fun x hx => by
      obtain ⟨b, -, rfl⟩ := List.mem_map.mp hx
      exact b.toNat_lt)
  rwa [List.length_map] at h

/-- Writing keeps a number up to what its bytes can hold. -/
theorem value_lowFirst (w n : Nat) : value (lowFirst w n) = n % 256 ^ w := by
  induction w generalizing n with
  | zero => rw [lowFirst, value_nil, Nat.pow_zero, Nat.mod_one]
  | succ w ih =>
    have hb : (UInt8.ofNat n).toNat = n % 256 := by simp
    rw [lowFirst, value_cons, ih, hb, Nat.pow_succ, Nat.mul_comm (256 ^ w), Nat.mod_mul]

theorem lowFirst_value (bs : List UInt8) : lowFirst bs.length (value bs) = bs := by
  induction bs with
  | nil => rfl
  | cons b bs ih =>
    have hlt := b.toNat_lt
    have hq : (b.toNat + 256 * value bs) / 256 = value bs := by omega
    have hr : UInt8.ofNat (b.toNat + 256 * value bs) = b := by
      apply UInt8.toNat_inj.mp
      rw [UInt8.toNat_ofNat']
      omega
    rw [List.length_cons, value_cons, lowFirst, hq, hr, ih]

theorem value_injective {bs cs : List UInt8} (hlen : bs.length = cs.length)
    (h : value bs = value cs) : bs = cs := by
  rw [← lowFirst_value bs, ← lowFirst_value cs, hlen, h]

/-! ### Integers -/

theorem getElem_lowFirst {w n i : Nat} (h : i < (lowFirst w n).length) :
    (lowFirst w n)[i] = UInt8.ofNat (n / 256 ^ i) := by
  induction w generalizing n i with
  | zero => exact absurd h (Nat.not_lt_zero _)
  | succ w ih =>
    cases i with
    | zero => rw [Nat.pow_zero, Nat.div_one]; rfl
    | succ i =>
      have hi : i < (lowFirst w (n / 256)).length := Nat.lt_of_succ_lt_succ h
      calc (lowFirst w (n / 256))[i] = UInt8.ofNat (n / 256 / 256 ^ i) := ih hi
        _ = UInt8.ofNat (n / 256 ^ (i + 1)) := by
          rw [Nat.div_div_eq_div_mul, Nat.pow_succ, Nat.mul_comm (256 ^ i)]

/-- The two's-complement form of an integer on `w` bytes, highest byte first: each byte is what
its power of 256 goes into the integer, rounded down and modulo 256. -/
def twosComplement (w : Nat) (v : Int) : List UInt8 :=
  List.ofFn fun i : Fin w => UInt8.ofInt (v / 256 ^ (w - 1 - i))

@[simp] theorem length_twosComplement (w : Nat) (v : Int) : (twosComplement w v).length = w :=
  List.length_ofFn

/-- The lower digits of an integer are those of its remainder. -/
theorem emod_pow_ediv_pow (v : Int) {w i : Nat} (h : i < w) :
    v % 256 ^ w / 256 ^ i % 256 = v / 256 ^ i % 256 := by
  obtain ⟨k, rfl⟩ : ∃ k, w = i + 1 + k := ⟨w - (i + 1), by omega⟩
  have hpow : (256 : Int) ^ (i + 1 + k) = 256 ^ i * (256 * 256 ^ k) := by
    rw [Int.pow_add, Int.pow_succ, Int.mul_assoc]
  have hpos : (256 : Int) ^ i ≠ 0 := Int.pow_ne_zero (by decide)
  have hsplit := Int.emod_add_mul_ediv v (256 ^ (i + 1 + k))
  conv_rhs => rw [← hsplit, hpow, Int.mul_assoc, Int.add_mul_ediv_left _ _ hpos, Int.mul_assoc,
    Int.add_mul_emod_self_left]
  rw [hpow]

/-- **The lowest bytes of a remainder**, reversed, are the two's-complement form. -/
theorem reverse_lowFirst_emod (w : Nat) (v : Int) :
    (lowFirst w (v % 256 ^ w).toNat).reverse = twosComplement w v := by
  obtain ⟨n, hn⟩ : ∃ n : Nat, v % 256 ^ w = n :=
    Int.eq_ofNat_of_zero_le (Int.emod_nonneg _ (Int.pow_ne_zero (by decide)))
  rw [hn, Int.toNat_natCast]
  refine List.ext_getElem (by simp) fun i hi hi' => ?_
  rw [length_twosComplement] at hi'
  have hdigit : v / 256 ^ (w - 1 - i) % 256 = ((n / 256 ^ (w - 1 - i) % 256 : Nat) : Int) := by
    rw [← emod_pow_ediv_pow v (show w - 1 - i < w by omega), hn]
    push_cast
    rfl
  rw [List.getElem_reverse, getElem_lowFirst, lowFirst_length]
  simp only [twosComplement, List.getElem_ofFn]
  rw [UInt8.ofInt, show (2 : Int) ^ 8 = 256 from rfl, hdigit, Int.toNat_natCast]
  exact UInt8.ofNat_mod_size.symm

example : twosComplement 3 (-2) = [0xFF, 0xFF, 0xFE] := by decide

end Positional
