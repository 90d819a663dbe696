import Mathlib

/-! Unsigned integers as bytes of a fixed width, the least significant byte first. -/
namespace LittleEndian

/-- The lowest `w` bytes of a number. -/
def put : Nat → Nat → List UInt8
  | 0, _ => []
  | w + 1, n => UInt8.ofNat n :: put w (n / 256)

/-- The number whose bytes these are. -/
def get : List UInt8 → Nat
  | [] => 0
  | b :: bs => b.toNat + 256 * get bs

@[simp] theorem length_put (w n : Nat) : (put w n).length = w := by
  induction w generalizing n with
  | zero => rfl
  | succ w ih => rw [put, List.length_cons, ih]

/-- A number that fits the width is read back. -/
theorem get_put {w n : Nat} (h : n < 256 ^ w) : get (put w n) = n := by
  induction w generalizing n with
  | zero =>
    have hn : n = 0 := by omega
    rw [hn]
    rfl
  | succ w ih =>
    have hdiv : n / 256 < 256 ^ w := by
      rw [Nat.pow_succ] at h
      omega
    have hbyte : (UInt8.ofNat n).toNat = n % 256 := UInt8.toNat_ofNat'
    rw [put, get, ih hdiv, hbyte]
    omega

end LittleEndian
