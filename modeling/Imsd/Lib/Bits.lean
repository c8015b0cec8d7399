import Imsd.Lib.Bytes
import Mathlib.Data.Nat.BitIndices
import Mathlib.Data.Nat.Bitwise
import Mathlib.Tactic

/-!
# The number of ones

`bitCount n` is the number of ones among the binary digits of `n`.

* `bitCount_and_pred`: `n &&& (n - 1)` has one of them less.
* `bitCount_add_two_pow_mul`: the ones of the low digits and those of the high ones add up, so the
  bytes of a number can be counted one by one (`bitCount_ofLE`), in any order
  (`bitCount_ofLE_perm`).
* `bitCount_two_pow_sub_one`, `bitCount_two_pow_mul`: ones in a row.
-/

namespace Bits

/-- The number of ones among the binary digits. -/
def bitCount (n : ℕ) : ℕ := n.bitIndices.length

@[simp] theorem bitCount_zero : bitCount 0 = 0 := by simp [bitCount]

@[simp] theorem bitCount_two_mul (n : ℕ) : bitCount (2 * n) = bitCount n := by simp [bitCount]

@[simp] theorem bitCount_two_mul_add_one (n : ℕ) : bitCount (2 * n + 1) = bitCount n + 1 := by
  simp [bitCount]

@[simp] theorem bitCount_two_pow_mul (k n : ℕ) : bitCount (2 ^ k * n) = bitCount n := by
  simp [bitCount]

theorem two_mul_and_two_mul_add_one (a b : ℕ) : 2 * a &&& (2 * b + 1) = 2 * (a &&& b) := by
  simpa [Nat.bit_false_apply, Nat.bit_true_apply] using Nat.land_bit false a true b

/-- The lowest one is cleared. -/
theorem bitCount_and_pred {n : ℕ} (h : n ≠ 0) : bitCount (n &&& (n - 1)) + 1 = bitCount n := by
  induction n using Nat.strongRecOn with
  | ind n ih =>
    obtain ⟨m, rfl | rfl⟩ := Nat.even_or_odd' n
    · -- the last digit stays `0`, and the others are cleared as they would be on their own
      have hm : m ≠ 0 := by omega
      have hpred : 2 * m - 1 = 2 * (m - 1) + 1 := by omega
      rw [hpred, two_mul_and_two_mul_add_one, bitCount_two_mul, bitCount_two_mul,
        ih m (by omega) hm]
    · have hand : 2 * m + 1 &&& (2 * m + 1 - 1) = 2 * m := by
        rw [Nat.add_sub_cancel, Nat.and_comm, two_mul_and_two_mul_add_one, Nat.and_self]
      rw [hand, bitCount_two_mul, bitCount_two_mul_add_one]

/-- The ones of the `k` low digits and of the others. -/
theorem bitCount_add_two_pow_mul {k a : ℕ} (h : a < 2 ^ k) (b : ℕ) :
    bitCount (a + 2 ^ k * b) = bitCount a + bitCount b := by
  induction k generalizing a with
  | zero =>
    obtain rfl : a = 0 := by simpa using h
    simp
  | succ k ih =>
    have hpow : 2 ^ (k + 1) * b = 2 * (2 ^ k * b) := by rw [pow_succ', mul_assoc]
    rw [pow_succ'] at h
    obtain ⟨m, rfl | rfl⟩ := Nat.even_or_odd' a
    · rw [hpow, ← mul_add, bitCount_two_mul, bitCount_two_mul, ih (by omega)]
    · have hsum : 2 * m + 1 + 2 * (2 ^ k * b) = 2 * (m + 2 ^ k * b) + 1 := by ring
      rw [hpow, hsum, bitCount_two_mul_add_one, bitCount_two_mul_add_one, ih (by omega)]
      ring

theorem bitCount_two_pow_sub_one (k : ℕ) : bitCount (2 ^ k - 1) = k := by
  induction k with
  | zero => simp
  | succ k ih =>
    have hpos : 0 < 2 ^ k := Nat.two_pow_pos k
    have hsum : 2 ^ (k + 1) - 1 = 2 * (2 ^ k - 1) + 1 := by
      rw [pow_succ']
      omega
    rw [hsum, bitCount_two_mul_add_one, ih]

/-- The bytes of a number can be counted one by one. -/
theorem bitCount_ofLE (bs : List UInt8) :
    bitCount (Bytes.ofLE bs) = (bs.map fun b => bitCount b.toNat).sum := by
  induction bs with
  | nil => simp
  | cons b bs ih =>
    have hb : b.toNat < 2 ^ 8 := b.toNat_lt
    rw [Bytes.ofLE_cons, show 256 = 2 ^ 8 from rfl, bitCount_add_two_pow_mul hb, ih]
    rfl

/-- The order of the bytes does not matter. -/
theorem bitCount_ofLE_perm {bs bs' : List UInt8} (h : bs.Perm bs') :
    bitCount (Bytes.ofLE bs) = bitCount (Bytes.ofLE bs') := by
  rw [bitCount_ofLE, bitCount_ofLE]
  exact (h.map _).sum_eq

end Bits
