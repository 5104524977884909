import Mathlib.Algebra.Ring.Nat
import Mathlib.Tactic.Ring

/-!
Unsigned integers as bytes in network byte order, the most significant byte first.

`networkBytes k n` are the `k` low bytes of `n`, and `hostValue` reads a number back: what comes
back is `n` modulo `256 ^ k` (`hostValue_networkBytes`).
-/

namespace SwifCodec.Library

/-- The `k` low bytes of a number, the most significant one first. -/
def networkBytes : ℕ → ℕ → List (BitVec 8)
  | 0, _ => []
  | k + 1, n => BitVec.ofNat 8 (n / 256 ^ k) :: networkBytes k n

/-- The number that bytes in network byte order stand for. -/
def hostValue : List (BitVec 8) → ℕ
  | [] => 0
  | byte :: rest => byte.toNat * 256 ^ rest.length + hostValue rest

@[simp] theorem length_networkBytes (k n : ℕ) : (networkBytes k n).length = k := by
  induction k with
  | zero => rfl
  | succ k ih => rw [networkBytes, List.length_cons, ih]

/-- Reading a number back keeps its low bytes. -/
theorem hostValue_networkBytes (k n : ℕ) : hostValue (networkBytes k n) = n % 256 ^ k := by
  induction k with
  | zero => rw [networkBytes, hostValue, pow_zero, Nat.mod_one]
  | succ k ih =>
      have digits : n % 256 ^ (k + 1) = n % 256 ^ k + 256 ^ k * (n / 256 ^ k % 256) := by
        rw [pow_succ, Nat.mod_mul]
      rw [networkBytes, hostValue, ih, length_networkBytes, digits, BitVec.toNat_ofNat]
      ring

end SwifCodec.Library
