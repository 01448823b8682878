/-
Numbers as fixed numbers of bytes.

`toBytes k n` are the `k` lowest bytes of `n`, the lowest first, which is what storing a number
in a field of `k` bytes comes to on a machine of that byte order.  Reading the field gives the
number back modulo `256 ^ k`, so a signed number comes back if it is in the range of the field.
-/
import Mathlib.Data.List.Basic
import Mathlib.Algebra.Order.Ring.Int

namespace Bytes

/-- The `k` lowest bytes, the lowest first. -/
def toBytes : Nat → Nat → List UInt8
  | 0, _ => []
  | k + 1, n => UInt8.ofNat n :: toBytes k (n / 256)

def ofBytes : List UInt8 → Nat
  | [] => 0
  | b :: rest => b.toNat + 256 * ofBytes rest

@[simp] theorem toBytes_length (k n : Nat) : (toBytes k n).length = k := by
  induction k generalizing n with
  | zero => rfl
  | succ k ih => rw [toBytes, List.length_cons, ih]

theorem ofBytes_toBytes (k n : Nat) : ofBytes (toBytes k n) = n % 256 ^ k := by
  induction k generalizing n with
  | zero => simp [toBytes, ofBytes, Nat.mod_one]
  | succ k ih =>
      have hbyte : (UInt8.ofNat n).toNat = n % 256 := by simp
      rw [toBytes, ofBytes, hbyte, ih, Nat.pow_succ, Nat.mul_comm (256 ^ k) 256, Nat.mod_mul]

/-- The bytes of an integer in two's complement. -/
def ofInt (k : Nat) (n : Int) : List UInt8 := toBytes k (n % 256 ^ k).toNat

/-- The integer in two's complement that the bytes stand for. -/
def toInt (bytes : List UInt8) : Int := Int.bmod (ofBytes bytes) (256 ^ bytes.length)

@[simp] theorem ofInt_length (k : Nat) (n : Int) : (ofInt k n).length = k := toBytes_length k _

theorem ofBytes_ofInt (k : Nat) (n : Int) : (ofBytes (ofInt k n) : Int) = n % 256 ^ k := by
  have hpos : (0 : Int) < 256 ^ k := pow_pos (by decide) k
  have hnonneg : 0 ≤ n % 256 ^ k := Int.emod_nonneg n hpos.ne'
  unfold ofInt
  rw [ofBytes_toBytes, Int.natCast_mod, Int.toNat_of_nonneg hnonneg]
  push_cast
  exact Int.emod_emod_of_dvd n dvd_rfl

/-- An integer in the range of the field comes back. -/
theorem toInt_ofInt (k : Nat) (n : Int) (hlow : -(256 ^ k) ≤ 2 * n) (hhigh : 2 * n < 256 ^ k) :
    toInt (ofInt k n) = n := by
  unfold toInt
  rw [ofBytes_ofInt, ofInt_length]
  have hmod : n % 256 ^ k = n % ((256 ^ k : Nat) : Int) := by push_cast; rfl
  rw [hmod, Int.emod_bmod]
  apply Int.bmod_eq_of_le
  · push_cast
    omega
  · push_cast
    omega

end Bytes
