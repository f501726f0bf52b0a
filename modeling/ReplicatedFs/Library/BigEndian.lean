import Mathlib.Algebra.GroupWithZero.Nat
import Mathlib.Data.List.Induction

/-!
# `ReplicatedFs.Library.BigEndian`: numbers as bytes, the most significant one first

`bigEndian k n` writes the last `k` bytes of a number, and `ofBigEndian` reads any bytes.

* `ofBigEndian_bigEndian`: reading what was written gives the number modulo `256 ^ k`.
* `bigEndian_ofBigEndian`: every byte string is what its own number is written as. So the byte
  strings of a fixed length are exactly the numbers below a bound.
-/

set_option autoImplicit false

namespace Library

/-- The number as `k` bytes. What does not fit is cut off. -/
def bigEndian : Nat → Nat → List UInt8
  | 0, _ => []
  | k + 1, n => bigEndian k (n / 256) ++ [UInt8.ofNat n]

/-- The number that the bytes stand for. -/
def ofBigEndian (bytes : List UInt8) : Nat :=
  bytes.foldl (fun n b => 256 * n + b.toNat) 0

/-- The number of bytes is fixed, whatever the number is. A number that does not fit is cut off at
the front. -/
@[simp] theorem length_bigEndian (k n : Nat) : (bigEndian k n).length = k := by
  induction k generalizing n with
  | zero => rfl
  | succ k ih => simp [bigEndian, ih]

/-- The last byte is the least significant one. The recursion of `bigEndian` is the same from the
other side. -/
@[simp] theorem ofBigEndian_concat (bytes : List UInt8) (b : UInt8) :
    ofBigEndian (bytes ++ [b]) = 256 * ofBigEndian bytes + b.toNat := by
  simp [ofBigEndian]

/-- What is written is read again, up to what was cut off. For a number below `256 ^ k` this is the
number itself. -/
theorem ofBigEndian_bigEndian (k n : Nat) : ofBigEndian (bigEndian k n) = n % 256 ^ k := by
  induction k generalizing n with
  | zero => simp [bigEndian, ofBigEndian, Nat.mod_one]
  | succ k ih =>
    rw [bigEndian, ofBigEndian_concat, ih, UInt8.toNat_ofNat']
    -- The last byte is the last digit, and the others are the digits of the quotient.
    show 256 * (n / 256 % 256 ^ k) + n % 256 = n % 256 ^ (k + 1)
    rw [Nat.pow_succ', Nat.mod_mul]
    omega

/-- The bytes of a fixed length stand for numbers below a bound. -/
theorem ofBigEndian_lt (bytes : List UInt8) : ofBigEndian bytes < 256 ^ bytes.length := by
  induction bytes using List.reverseRecOn with
  | nil => simp [ofBigEndian]
  | append_singleton bytes b ih =>
    have hb : b.toNat < 256 := b.toNat_lt
    rw [ofBigEndian_concat, List.length_append, List.length_singleton, Nat.pow_succ']
    omega

/-- Every byte string is what its number is written as, so a header that was read can only have been
written for this number. -/
theorem bigEndian_ofBigEndian (bytes : List UInt8) :
    bigEndian bytes.length (ofBigEndian bytes) = bytes := by
  -- Induction from the back, where the definition of `bigEndian` puts its bytes.
  induction bytes using List.reverseRecOn with
  | nil => rfl
  | append_singleton bytes b ih =>
    have hb : b.toNat < 256 := b.toNat_lt
    rw [ofBigEndian_concat, List.length_append, List.length_singleton, bigEndian]
    have hdiv : (256 * ofBigEndian bytes + b.toNat) / 256 = ofBigEndian bytes := by omega
    have hlast : UInt8.ofNat (256 * ofBigEndian bytes + b.toNat) = b := by
      apply UInt8.toNat_inj.mp
      rw [UInt8.toNat_ofNat']
      show (256 * ofBigEndian bytes + b.toNat) % 256 = b.toNat
      omega
    rw [hdiv, ih, hlast]

end Library
