import Mathlib.Algebra.Order.Ring.Nat
import Mathlib.Data.Nat.ModEq
import Mathlib.Tactic.Ring
import Mathlib.Tactic.Common

/-!
# Big-endian byte strings

Fixed-width big-endian representation of natural numbers: `toBytes n v` is the low `n` bytes of
`v`, most significant first, and `ofBytes` reads a byte string back.

* `ofBytes_toBytes` — reading what was written gives the value modulo `256 ^ n`.
* `toBytes_ofBytes` — writing what was read gives the byte string.
* `ofBytes_cons_or` — reading with shifts and ors.
-/

namespace Fproxy.BigEndian

/-- The value of a big-endian byte string. -/
def ofBytes : List UInt8 → ℕ
  | [] => 0
  | b :: bs => b.toNat * 256 ^ bs.length + ofBytes bs

/-- The low `n` bytes of `v`, most significant first. -/
def toBytes : ℕ → ℕ → List UInt8
  | 0, _ => []
  | n + 1, v => UInt8.ofNat (v / 256 ^ n) :: toBytes n v

@[simp] theorem toBytes_length (n v : ℕ) : (toBytes n v).length = n := by
  induction n with
  | zero => rfl
  | succ n ih => simp [toBytes, ih]

theorem ofBytes_lt (bs : List UInt8) : ofBytes bs < 256 ^ bs.length := by
  induction bs with
  | nil => simp [ofBytes]
  | cons b bs ih =>
      have hb : b.toNat < 256 := b.toNat_lt
      have hmul : b.toNat * 256 ^ bs.length ≤ 255 * 256 ^ bs.length :=
        Nat.mul_le_mul_right _ (by omega)
      have hpow : 256 ^ (b :: bs).length = 255 * 256 ^ bs.length + 256 ^ bs.length := by
        rw [List.length_cons, pow_succ]
        ring
      rw [ofBytes, hpow]
      omega

/-- **Write, then read.** -/
theorem ofBytes_toBytes (n v : ℕ) : ofBytes (toBytes n v) = v % 256 ^ n := by
  induction n with
  | zero => simp [toBytes, ofBytes, Nat.mod_one]
  | succ n ih =>
      have hbyte : (UInt8.ofNat (v / 256 ^ n)).toNat = v / 256 ^ n % 256 := by simp
      rw [toBytes, ofBytes, toBytes_length, ih, hbyte, Nat.mod_pow_succ]
      ring

/-- Only the value modulo `256 ^ n` is written. -/
theorem toBytes_add_mul (n v k : ℕ) : toBytes n (v + 256 ^ n * k) = toBytes n v := by
  induction n generalizing k with
  | zero => rfl
  | succ n ih =>
      have hsplit : v + 256 ^ (n + 1) * k = v + 256 ^ n * (256 * k) := by
        rw [pow_succ]
        ring
      have hdiv : (v + 256 ^ n * (256 * k)) / 256 ^ n = v / 256 ^ n + 256 * k :=
        Nat.add_mul_div_left _ _ (Nat.pow_pos (by omega))
      rw [toBytes, toBytes, hsplit, ih, hdiv]
      congr 1
      apply UInt8.toNat_inj.mp
      simp

/-- **Read, then write.** -/
theorem toBytes_ofBytes (bs : List UInt8) : toBytes bs.length (ofBytes bs) = bs := by
  induction bs with
  | nil => rfl
  | cons b bs ih =>
      have hlt := ofBytes_lt bs
      have hdiv : (b.toNat * 256 ^ bs.length + ofBytes bs) / 256 ^ bs.length = b.toNat := by
        rw [Nat.mul_comm, Nat.mul_add_div (Nat.pow_pos (by omega)), Nat.div_eq_of_lt hlt,
          Nat.add_zero]
      have htail : toBytes bs.length (b.toNat * 256 ^ bs.length + ofBytes bs) = bs := by
        rw [Nat.add_comm, Nat.mul_comm, toBytes_add_mul, ih]
      rw [List.length_cons, ofBytes, toBytes, hdiv, htail, UInt8.ofNat_toNat]

theorem toBytes_ofBytes_of_length {n : ℕ} {bs : List UInt8} (h : bs.length = n) :
    toBytes n (ofBytes bs) = bs := by
  rw [← h, toBytes_ofBytes]

/-- Reading with shifts: the first byte goes above all the others. -/
theorem ofBytes_cons_or (b : UInt8) (bs : List UInt8) :
    ofBytes (b :: bs) = b.toNat <<< (8 * bs.length) ||| ofBytes bs := by
  have hlt : ofBytes bs < 2 ^ (8 * bs.length) := by
    rw [Nat.pow_mul]
    exact ofBytes_lt bs
  rw [← Nat.shiftLeft_add_eq_or_of_lt hlt, Nat.shiftLeft_eq, Nat.pow_mul, ofBytes]

end Fproxy.BigEndian
