import Mathlib.Algebra.Ring.Nat
import Mathlib.Data.List.Basic

/-!
# Machine arithmetic and slices

What the functions of `src/src` can do besides computing a value. A function that returns
`Result<T, E>` and may stop with a panic is a value of `Fallible E T`; a method of `&mut self` also
returns the state it leaves behind, on every exit.

The arithmetic of a `usize` or a `u8` depends on the build: with overflow checks (`debug`) an
overflow panics, without them (`release`, the build that is shipped) it wraps. The operations below
take the build as an argument. A `usize` has 64 bits.
-/

namespace NativeVoice

abbrev Bytes := List UInt8

/-- Why a function did not return `Ok`: it returned `Err(e)`, or it panicked. -/
inductive Stop (ε : Type)
  | err (e : ε)
  | panic
  deriving DecidableEq

abbrev Fallible (ε α : Type) := Except (Stop ε) α

instance {ε α : Type} [DecidableEq ε] [DecidableEq α] : DecidableEq (Fallible ε α)
  | .ok a, .ok b => decidable_of_iff (a = b) (by simp)
  | .error s, .error t => decidable_of_iff (s = t) (by simp)
  | .ok _, .error _ => isFalse (by simp)
  | .error _, .ok _ => isFalse (by simp)

section Bind

variable {ε α β : Type}

@[simp] theorem ok_bind (a : α) (f : α → Fallible ε β) : (Except.ok a >>= f) = f a := rfl

@[simp] theorem error_bind (e : Stop ε) (f : α → Fallible ε β) :
    ((Except.error e : Fallible ε α) >>= f) = .error e := rfl

@[simp] theorem throw_eq (e : Stop ε) : (throw e : Fallible ε α) = .error e := rfl

@[simp] theorem pure_eq (a : α) : (pure a : Fallible ε α) = .ok a := rfl

@[simp] theorem bind_ok (x : Fallible ε α) : (x >>= Except.ok) = x := by
  cases x <;> rfl

/-- A sequence that returns is two parts that return. -/
theorem bind_eq_ok {x : Fallible ε α} {f : α → Fallible ε β} {r : β} :
    (x >>= f) = .ok r ↔ ∃ a, x = .ok a ∧ f a = .ok r := by
  cases x <;> simp

/-- A sequence that stops does so in its first part, or in the second one behind it. -/
theorem bind_eq_error {x : Fallible ε α} {f : α → Fallible ε β} {e : Stop ε} :
    (x >>= f) = .error e ↔ x = .error e ∨ ∃ a, x = .ok a ∧ f a = .error e := by
  cases x <;> simp

theorem bind_ne_panic {x : Fallible ε α} {f : α → Fallible ε β} (hx : x ≠ .error .panic)
    (hf : ∀ a, x = .ok a → f a ≠ .error .panic) : (x >>= f) ≠ .error .panic := fun h => by
  rcases bind_eq_error.mp h with h | ⟨a, ha, h⟩
  · exact hx h
  · exact hf a ha h

end Bind

/-- Whether the compiler checks integer arithmetic for overflow. -/
inductive Build
  | debug
  | release
  deriving DecidableEq

namespace Build

variable {ε : Type} (b : Build)

/-- The result `v` of an operation on `n`-bit integers, computed without bound. -/
def wrap (n v : ℕ) : Fallible ε ℕ :=
  if v < 2 ^ n then .ok v else match b with
    | debug => .error .panic
    | release => .ok (v % 2 ^ n)

/-- `x + y` on `usize`. -/
def addUsize (x y : ℕ) : Fallible ε ℕ := b.wrap 64 (x + y)

/-- `x - y` on `usize`. -/
def subUsize (x y : ℕ) : Fallible ε ℕ :=
  if y ≤ x then .ok (x - y) else match b with
    | debug => .error .panic
    | release => .ok (2 ^ 64 + x - y)

/-- `x * y` on `usize`. -/
def mulUsize (x y : ℕ) : Fallible ε ℕ := b.wrap 64 (x * y)

/-- `x << k` on `usize`. -/
def shlUsize (x k : ℕ) : Fallible ε ℕ :=
  if k < 64 then .ok (x <<< k % 2 ^ 64) else match b with
    | debug => .error .panic
    | release => .ok (x <<< (k % 64) % 2 ^ 64)

/-- `x += 1` on `u8`. -/
def incrU8 (x : UInt8) : Fallible ε UInt8 :=
  if x = 255 then match b with
    | debug => .error .panic
    | release => .ok 0
  else .ok (x + 1)

/-- `x - y` on `i32`. -/
def subI32 (x y : Int32) : Fallible ε Int32 :=
  if Int32.minValue.toInt ≤ x.toInt - y.toInt ∧ x.toInt - y.toInt ≤ Int32.maxValue.toInt then
    .ok (x - y)
  else match b with
    | debug => .error .panic
    | release => .ok (x - y)

theorem addUsize_of_lt {x y : ℕ} (h : x + y < 2 ^ 64) :
    b.addUsize x y = (.ok (x + y) : Fallible ε ℕ) := by
  unfold addUsize wrap
  exact if_pos h

/-- Without a panic a sum is the exact one, or one that is smaller than either summand. -/
theorem addUsize_eq_ok {x y z : ℕ} (hx : x < 2 ^ 64) (hy : y < 2 ^ 64)
    (h : b.addUsize x y = (.ok z : Fallible ε ℕ)) : z = x + y ∨ z < x := by
  unfold addUsize wrap at h
  split at h
  · exact .inl (Except.ok.inj h).symm
  · cases b with
    | debug => simp at h
    | release =>
      obtain rfl := Except.ok.inj h
      right
      omega

theorem subUsize_of_le {x y : ℕ} (h : y ≤ x) : b.subUsize x y = (.ok (x - y) : Fallible ε ℕ) := by
  unfold subUsize
  exact if_pos h

theorem mulUsize_of_lt {x y : ℕ} (h : x * y < 2 ^ 64) :
    b.mulUsize x y = (.ok (x * y) : Fallible ε ℕ) := by
  unfold mulUsize wrap
  exact if_pos h

theorem shlUsize_of_lt {x k : ℕ} (hk : k < 64) (h : x * 2 ^ k < 2 ^ 64) :
    b.shlUsize x k = (.ok (x * 2 ^ k) : Fallible ε ℕ) := by
  unfold shlUsize
  rw [if_pos hk, Nat.shiftLeft_eq, Nat.mod_eq_of_lt h]

theorem incrU8_of_ne {x : UInt8} (h : x ≠ 255) : b.incrU8 x = (.ok (x + 1) : Fallible ε UInt8) := by
  unfold incrU8
  exact if_neg h

end Build

section Slices

variable {ε α : Type}

/-- `xs[i]`. -/
def index (xs : List α) (i : ℕ) : Fallible ε α :=
  match xs[i]? with
  | some x => .ok x
  | none => .error .panic

/-- `&xs[a..]`. -/
def sliceFrom (xs : List α) (a : ℕ) : Fallible ε (List α) :=
  if a ≤ xs.length then .ok (xs.drop a) else .error .panic

/-- `&xs[a..b]`. -/
def slice (xs : List α) (a b : ℕ) : Fallible ε (List α) :=
  if a ≤ b ∧ b ≤ xs.length then .ok ((xs.drop a).take (b - a)) else .error .panic

/-- `xs[i] = v`. -/
def setIndex (xs : List α) (i : ℕ) (v : α) : Fallible ε (List α) :=
  if i < xs.length then .ok (xs.set i v) else .error .panic

/-- `xs[a..b].copy_from_slice(src)`. -/
def copyFromSlice (xs : List α) (a b : ℕ) (src : List α) : Fallible ε (List α) :=
  if (a ≤ b ∧ b ≤ xs.length) ∧ src.length = b - a then .ok (xs.take a ++ (src ++ xs.drop b))
  else .error .panic

theorem index_of_lt {xs : List α} {i : ℕ} (h : i < xs.length) :
    index xs i = (.ok xs[i] : Fallible ε α) := by
  rw [index, List.getElem?_eq_getElem h]

theorem index_ne_panic {xs : List α} {i : ℕ} (h : i < xs.length) :
    (index xs i : Fallible ε α) ≠ .error .panic := by
  rw [index_of_lt h]
  simp

theorem sliceFrom_of_le {xs : List α} {a : ℕ} (h : a ≤ xs.length) :
    sliceFrom xs a = (.ok (xs.drop a) : Fallible ε (List α)) := by
  rw [sliceFrom, if_pos h]

theorem slice_of_le {xs : List α} {a b : ℕ} (hab : a ≤ b) (hb : b ≤ xs.length) :
    slice xs a b = (.ok ((xs.drop a).take (b - a)) : Fallible ε (List α)) := by
  rw [slice, if_pos ⟨hab, hb⟩]

theorem index_eq_ok {xs : List α} {i : ℕ} {x : α} :
    index xs i = (.ok x : Fallible ε α) ↔ xs[i]? = some x := by
  unfold index
  cases xs[i]? <;> simp

theorem sliceFrom_eq_ok {xs ys : List α} {a : ℕ} :
    sliceFrom xs a = (.ok ys : Fallible ε (List α)) ↔ a ≤ xs.length ∧ xs.drop a = ys := by
  unfold sliceFrom
  split
  · rename_i h
    simp [h]
  · rename_i h
    simp [h]

theorem slice_eq_ok {xs ys : List α} {a b : ℕ} :
    slice xs a b = (.ok ys : Fallible ε (List α)) ↔
      (a ≤ b ∧ b ≤ xs.length) ∧ (xs.drop a).take (b - a) = ys := by
  unfold slice
  split
  · rename_i h
    simp [h]
  · rename_i h
    simp [h]

theorem index_append (xs ys : List α) (x : α) :
    index (xs ++ x :: ys) xs.length = (.ok x : Fallible ε α) := by
  rw [index_of_lt (by simp)]
  simp

theorem sliceFrom_append (xs ys : List α) :
    sliceFrom (xs ++ ys) xs.length = (.ok ys : Fallible ε (List α)) := by
  rw [sliceFrom_of_le (by simp), List.drop_left]

theorem index_append_right (xs ys : List α) (i : ℕ) :
    index (xs ++ ys) (xs.length + i) = (index ys i : Fallible ε α) := by
  rw [index, List.getElem?_append_right (by omega), Nat.add_sub_cancel_left, index]

theorem setIndex_append_right (xs : List α) {ys : List α} {i : ℕ} (h : i < ys.length) (v : α) :
    setIndex (xs ++ ys) (xs.length + i) v = (.ok (xs ++ ys.set i v) : Fallible ε (List α)) := by
  rw [setIndex, if_pos (by rw [List.length_append]; omega), List.set_append_right _ _ (by omega),
    Nat.add_sub_cancel_left]

theorem copyFromSlice_of_le {xs src : List α} {a b : ℕ} (hab : a ≤ b) (hb : b ≤ xs.length)
    (hsrc : src.length = b - a) :
    copyFromSlice xs a b src = (.ok (xs.take a ++ (src ++ xs.drop b)) : Fallible ε (List α)) := by
  rw [copyFromSlice, if_pos ⟨⟨hab, hb⟩, hsrc⟩]

theorem slice_append (xs ys zs : List α) :
    slice (xs ++ (ys ++ zs)) xs.length (xs.length + ys.length) =
      (.ok ys : Fallible ε (List α)) := by
  rw [slice_of_le (by omega) (by simp), List.drop_left]
  simp

end Slices

section Loops

variable {ε α : Type}

/-- `for i in 0..n`, with what the loop changes as its state. -/
def forRange (n : ℕ) (f : ℕ → α → Fallible ε α) (s : α) : Fallible ε α :=
  (List.range n).foldlM (fun s i => f i s) s

/-- **A loop returns with its invariant.** `I i` holds in front of the pass `i`. -/
theorem forRange_ok {n : ℕ} {f : ℕ → α → Fallible ε α} {s : α} (I : ℕ → α → Prop) (hstart : I 0 s)
    (hpass : ∀ i < n, ∀ s, I i s → ∃ s', f i s = .ok s' ∧ I (i + 1) s') :
    ∃ s', forRange n f s = .ok s' ∧ I n s' := by
  unfold forRange
  induction n with
  | zero => exact ⟨s, rfl, hstart⟩
  | succ n ih =>
    obtain ⟨s₁, hrun, hI⟩ := ih fun i hi => hpass i (by omega)
    obtain ⟨s₂, hlast, hI'⟩ := hpass n (by omega) s₁ hI
    refine ⟨s₂, ?_, hI'⟩
    rw [List.range_succ, List.foldlM_append, hrun, ok_bind, List.foldlM_cons, hlast, ok_bind]
    rfl

end Loops

end NativeVoice
