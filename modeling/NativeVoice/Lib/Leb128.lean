import Mathlib.Data.List.Basic
import Mathlib.Data.Nat.Bits
import Mathlib.Tactic.Ring

/-!
# LEB128

The little-endian base-128 code of the natural numbers: seven bits a byte, the lowest first, the
high bit set on every byte but the last. `decode` reads one number off the front of a byte string;
`decode_encode` is the round trip and `encode_length` the length of a code.
-/

namespace Lib.Leb128

/-- The shortest code of `n`. -/
def encode (n : ℕ) : List UInt8 :=
  if n < 128 then [UInt8.ofNat n] else UInt8.ofNat (128 + n % 128) :: encode (n / 128)
termination_by n
decreasing_by omega

/-- The number at the front of a byte string, and the bytes after it. -/
def decode : List UInt8 → Option (ℕ × List UInt8)
  | [] => none
  | b :: bs =>
    if b.toNat < 128 then some (b.toNat, bs)
    else (decode bs).map fun (n, rest) => (b.toNat - 128 + 128 * n, rest)

/-- The number of bytes of the code of `n`. -/
def size (n : ℕ) : ℕ := if n < 128 then 1 else 1 + size (n / 128)
termination_by n
decreasing_by omega

theorem encode_of_lt {n : ℕ} (h : n < 128) : encode n = [UInt8.ofNat n] := by
  rw [encode, if_pos h]

theorem encode_of_le {n : ℕ} (h : 128 ≤ n) :
    encode n = UInt8.ofNat (128 + n % 128) :: encode (n / 128) := by
  rw [encode, if_neg (by omega)]

theorem size_of_lt {n : ℕ} (h : n < 128) : size n = 1 := by
  rw [size, if_pos h]

theorem size_of_le {n : ℕ} (h : 128 ≤ n) : size n = 1 + size (n / 128) := by
  rw [size, if_neg (by omega)]

theorem size_pos (n : ℕ) : 0 < size n := by
  rw [size]
  split <;> omega

@[simp] theorem length_encode (n : ℕ) : (encode n).length = size n := by
  induction n using Nat.strongRecOn with
  | ind n ih =>
    by_cases h : n < 128
    · rw [encode_of_lt h, size_of_lt h, List.length_singleton]
    · rw [encode_of_le (by omega), size_of_le (by omega), List.length_cons, ih _ (by omega),
        Nat.add_comm]

theorem encode_ne_nil (n : ℕ) : encode n ≠ [] := by
  have h := size_pos n
  rw [← length_encode] at h
  exact List.ne_nil_of_length_pos h

/-- **Round trip**: a code followed by anything reads back as its number and that rest. -/
theorem decode_encode (n : ℕ) (rest : List UInt8) : decode (encode n ++ rest) = some (n, rest) := by
  induction n using Nat.strongRecOn with
  | ind n ih =>
    by_cases h : n < 128
    · have hb : (UInt8.ofNat n).toNat = n := by simp; omega
      rw [encode_of_lt h, List.singleton_append, decode, hb, if_pos h]
    · have hb : (UInt8.ofNat (128 + n % 128)).toNat = 128 + n % 128 := by simp; omega
      rw [encode_of_le (by omega), List.cons_append, decode, hb, if_neg (by omega),
        ih _ (by omega), Option.map_some, Option.some.injEq, Prod.mk.injEq]
      simp only [and_true]
      omega

theorem size_mono {m n : ℕ} (h : m ≤ n) : size m ≤ size n := by
  induction m using Nat.strongRecOn generalizing n with
  | ind m ih =>
    by_cases hm : m < 128
    · rw [size_of_lt hm]
      exact size_pos n
    · have := ih (m / 128) (by omega) (n := n / 128) (by omega)
      rw [size_of_le (by omega), size_of_le (n := n) (by omega)]
      omega

/-- A code has at most `k` bytes exactly when its number is below `128 ^ k`. -/
theorem size_le_iff {k n : ℕ} (hk : 0 < k) : size n ≤ k ↔ n < 128 ^ k := by
  induction k generalizing n with
  | zero => omega
  | succ k ih =>
    by_cases hn : n < 128
    · have : 128 ^ 1 ≤ 128 ^ (k + 1) := Nat.pow_le_pow_right (by omega) (by omega)
      rw [size_of_lt hn]
      constructor <;> intro <;> omega
    · rw [size_of_le (by omega)]
      rcases Nat.eq_zero_or_pos k with rfl | hk'
      · have := size_pos (n / 128)
        simp only [zero_add, pow_one]
        omega
      · rw [pow_succ, ← Nat.div_lt_iff_lt_mul (by omega), ← ih hk']
        omega

end Lib.Leb128
