import Mathlib.Algebra.Order.Ring.Nat
import Mathlib.Data.List.Induction

namespace WgMesh.BigEndian

/-!
# Numbers in network byte order

The number that a list of bytes stands for, most significant byte first, and the
bytes of a number.
-/

/-- The number of a list of bytes. -/
def number (bytes : List UInt8) : Nat :=
  bytes.foldl (fun value byte => value * 256 + byte.toNat) 0

/-- The last bytes of a number. -/
def bytesOf : Nat → Nat → List UInt8
  | 0, _ => []
  | count + 1, value => bytesOf count (value / 256) ++ [UInt8.ofNat value]

@[simp] theorem length_bytesOf
    (count value : Nat) :
    (bytesOf count value).length = count := by
  induction count generalizing value with
  | zero => rfl
  | succ count inductionHypothesis => simp [bytesOf, inductionHypothesis]

theorem number_concat
    (bytes : List UInt8)
    (byte : UInt8) :
    number (bytes ++ [byte]) = number bytes * 256 + byte.toNat := by
  simp [number]

theorem number_append
    (front back : List UInt8) :
    number (front ++ back) =
      number front * 256 ^ back.length + number back := by
  induction back using List.reverseRecOn with
  | nil => simp [number]
  | append_singleton back byte inductionHypothesis =>
      rw [← List.append_assoc, number_concat, number_concat,
        inductionHypothesis, List.length_append, List.length_singleton,
        Nat.pow_succ, Nat.add_mul, Nat.mul_assoc, Nat.add_assoc]

/-- A number has at most eight bits for each byte. -/
theorem number_lt
    (bytes : List UInt8) :
    number bytes < 256 ^ bytes.length := by
  induction bytes using List.reverseRecOn with
  | nil => exact Nat.one_pos
  | append_singleton bytes byte inductionHypothesis =>
      have small := byte.toNat_lt
      rw [number_concat, List.length_append, List.length_singleton,
        Nat.pow_succ]
      omega

/-- The bytes of a number that fits stand for it. -/
theorem number_bytesOf
    {count value : Nat}
    (fits : value < 256 ^ count) :
    number (bytesOf count value) = value := by
  induction count generalizing value with
  | zero =>
      rw [Nat.pow_zero] at fits
      have zero : value = 0 := by omega
      rw [zero]
      rfl
  | succ count inductionHypothesis =>
      have rest : value / 256 < 256 ^ count := by
        rw [Nat.pow_succ] at fits
        omega
      have byte : (UInt8.ofNat value).toNat = value % 256 := by
        simp
      rw [bytesOf, number_concat, inductionHypothesis rest, byte]
      omega

end WgMesh.BigEndian
