import Dusty.Bytes
import Mathlib.Tactic.Ring

/-! # Big-endian numbers

A number in a fixed number of bytes, most significant byte first, and the number some bytes
stand for (`readBigEndian_bigEndian`). -/

namespace Dusty

/-- The last `width` base-256 digits of a number. -/
def bigEndian : ℕ → ℕ → Bytes
  | 0, _ => []
  | width + 1, n => bigEndian width (n / 256) ++ [n.toUInt8]

/-- The number the bytes stand for. -/
def readBigEndian (bytes : Bytes) : ℕ := bytes.foldl (fun acc b => acc * 256 + b.toNat) 0

@[simp] theorem length_bigEndian (width n : ℕ) : (bigEndian width n).length = width := by
  induction width generalizing n with
  | zero => rfl
  | succ width ih => simp [bigEndian, ih]

theorem readBigEndian_append (bytes : Bytes) (b : UInt8) :
    readBigEndian (bytes ++ [b]) = readBigEndian bytes * 256 + b.toNat := by
  simp [readBigEndian]

theorem readBigEndian_mod (width n : ℕ) : readBigEndian (bigEndian width n) = n % 256 ^ width := by
  induction width generalizing n with
  | zero => simp [bigEndian, readBigEndian, Nat.mod_one]
  | succ width ih =>
      have hbyte : n.toUInt8.toNat = n % 256 := by simp
      rw [bigEndian, readBigEndian_append, ih, hbyte, pow_succ, Nat.mul_comm (256 ^ width) 256,
        Nat.mod_mul]
      ring

/-- **Reading back a number** that fits. -/
theorem readBigEndian_bigEndian {width n : ℕ} (h : n < 256 ^ width) :
    readBigEndian (bigEndian width n) = n := by
  rw [readBigEndian_mod, Nat.mod_eq_of_lt h]

end Dusty
