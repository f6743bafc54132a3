import Mathlib.Data.List.Basic
import Mathlib.Data.Nat.Bits
import Mathlib.Tactic.Ring

/-!
# Bit strings

Numbers and bytes as strings of bits, the highest bit first. `field n v` is the number `v` in `n`
bits, `value` the number that a string of bits stands for, and `ofBytes` the bits of a string of
bytes; `value_field` and `getElem?_ofBytes` say how they belong together.
-/

namespace Lib.Bits

/-- The lowest `n` bits of `v`. -/
def field : ℕ → ℕ → List Bool
  | 0, _ => []
  | n + 1, v => v.testBit n :: field n v

/-- The number that `bits` stand for behind the digits of `v`. -/
def valueFrom (v : ℕ) (bits : List Bool) : ℕ := bits.foldl (fun v b => 2 * v + b.toNat) v

def value (bits : List Bool) : ℕ := valueFrom 0 bits

/-- The bits of a string of bytes. -/
def ofBytes (bytes : List UInt8) : List Bool := bytes.flatMap fun b => field 8 b.toNat

@[simp] theorem length_field (n v : ℕ) : (field n v).length = n := by
  induction n with
  | zero => rfl
  | succ n ih => rw [field, List.length_cons, ih]

@[simp] theorem valueFrom_nil (v : ℕ) : valueFrom v [] = v := rfl

@[simp] theorem valueFrom_cons (v : ℕ) (b : Bool) (bits : List Bool) :
    valueFrom v (b :: bits) = valueFrom (2 * v + b.toNat) bits := rfl

theorem valueFrom_eq (v : ℕ) (bits : List Bool) :
    valueFrom v bits = v * 2 ^ bits.length + value bits := by
  induction bits generalizing v with
  | nil => simp [value]
  | cons b bits ih =>
    rw [value, valueFrom_cons, valueFrom_cons, ih, ih (2 * 0 + b.toNat), List.length_cons, pow_succ]
    ring

theorem le_valueFrom (v : ℕ) (bits : List Bool) : v ≤ valueFrom v bits := by
  rw [valueFrom_eq]
  exact Nat.le_add_right_of_le (Nat.le_mul_of_pos_right v (Nat.two_pow_pos _))

theorem value_cons (b : Bool) (bits : List Bool) :
    value (b :: bits) = b.toNat * 2 ^ bits.length + value bits := by
  rw [value, valueFrom_cons, valueFrom_eq, Nat.mul_zero, Nat.zero_add]

theorem value_append (l₁ l₂ : List Bool) :
    value (l₁ ++ l₂) = value l₁ * 2 ^ l₂.length + value l₂ := by
  rw [← valueFrom_eq, value, value, valueFrom, List.foldl_append]
  rfl

theorem value_lt (bits : List Bool) : value bits < 2 ^ bits.length := by
  induction bits with
  | nil => simp [value]
  | cons b bits ih =>
    have hb : b.toNat * 2 ^ bits.length ≤ 1 * 2 ^ bits.length :=
      Nat.mul_le_mul_right _ (Nat.le_of_lt_succ b.toNat_lt)
    rw [value_cons, List.length_cons, pow_succ]
    omega

theorem value_field (n v : ℕ) : value (field n v) = v % 2 ^ n := by
  induction n with
  | zero => simp [field, value, Nat.mod_one]
  | succ n ih =>
    rw [field, value_cons, length_field, ih, Nat.toNat_testBit, Nat.mod_pow_succ, Nat.mul_comm,
      Nat.add_comm]

theorem getElem?_field {n i : ℕ} (h : i < n) (v : ℕ) :
    (field n v)[i]? = some (v.testBit (n - 1 - i)) := by
  induction n generalizing i with
  | zero => omega
  | succ n ih =>
    cases i with
    | zero => rfl
    | succ i =>
      rw [field, List.getElem?_cons_succ, ih (by omega)]
      congr 2
      omega

theorem getElem?_ofBytes (bytes : List UInt8) (i : ℕ) :
    (ofBytes bytes)[i]? = bytes[i / 8]?.map fun b => b.toNat.testBit (7 - i % 8) := by
  induction bytes generalizing i with
  | nil => simp [ofBytes]
  | cons b bytes ih =>
    rw [ofBytes, List.flatMap_cons, ← ofBytes, List.getElem?_append, length_field]
    split
    case isTrue h =>
      rw [getElem?_field h, Nat.div_eq_of_lt h, Nat.mod_eq_of_lt h]
      rfl
    case isFalse h =>
      obtain ⟨i, rfl⟩ := Nat.exists_eq_add_of_le (Nat.not_lt.mp h)
      rw [ih, Nat.add_sub_cancel_left, Nat.add_div_left _ (by omega), List.getElem?_cons_succ,
        Nat.add_mod_left]

end Lib.Bits
