import Mathlib.Data.List.Basic
import Mathlib.Algebra.Order.Group.Nat
import Mathlib.Algebra.Order.Floor.Div

/-!
# Cutting a list into chunks

`chunksOf n l` cuts `l` into consecutive pieces of length `n`, the last of which may be shorter.
-/

namespace Lib.Chunks

variable {α : Type*} (n : ℕ)

def chunksOf (l : List α) : List (List α) :=
  if l = [] ∨ n = 0 then [] else l.take n :: chunksOf (l.drop n)
termination_by l.length
decreasing_by
  rename_i h
  have := List.length_pos_iff.2 (not_or.1 h).1
  simp only [List.length_drop]
  omega

@[simp] theorem chunksOf_nil : chunksOf n ([] : List α) = [] := by
  rw [chunksOf, if_pos (.inl rfl)]

variable {n} (hn : 0 < n)

include hn

theorem chunksOf_of_ne_nil {l : List α} (hl : l ≠ []) :
    chunksOf n l = l.take n :: chunksOf n (l.drop n) := by
  rw [chunksOf, if_neg (by simp [hl, hn.ne'])]

/-- To prove something of all lists, prove it of `[]` and of any list whose tail behind the first
chunk has it. -/
theorem chunk_induction {P : List α → Prop} (nil : P [])
    (chunk : ∀ l, l ≠ [] → P (l.drop n) → P l) (l : List α) : P l := by
  induction h : l.length using Nat.strongRecOn generalizing l with
  | ind k ih =>
    by_cases hl : l = []
    · exact hl ▸ nil
    · have := List.length_pos_iff.2 hl
      exact chunk l hl (ih (l.drop n).length (by simp; omega) _ rfl)

theorem flatten_chunksOf (l : List α) : (chunksOf n l).flatten = l := by
  induction l using chunk_induction hn with
  | nil => simp
  | chunk l hl ih => rw [chunksOf_of_ne_nil hn hl, List.flatten_cons, ih, List.take_append_drop]

theorem mem_chunksOf {l c : List α} (hc : c ∈ chunksOf n l) : c ≠ [] ∧ c.length ≤ n := by
  induction l using chunk_induction hn with
  | nil => simp at hc
  | chunk l hl ih =>
    rw [chunksOf_of_ne_nil hn hl, List.mem_cons] at hc
    rcases hc with rfl | hc
    · exact ⟨by simp [hl, hn.ne'], List.length_take_le _ _⟩
    · exact ih hc

theorem length_chunksOf (l : List α) : (chunksOf n l).length = (l.length + n - 1) / n := by
  induction l using chunk_induction hn with
  | nil => simp [Nat.div_eq_of_lt (by omega : n - 1 < n)]
  | chunk l hl ih =>
    have hpos := List.length_pos_iff.2 hl
    rw [chunksOf_of_ne_nil hn hl, List.length_cons, ih, List.length_drop]
    by_cases h : l.length ≤ n
    · rw [Nat.sub_eq_zero_of_le h, Nat.div_eq_of_lt (by omega)]
      exact (Nat.div_eq_of_lt_le (by omega) (by omega)).symm
    · rw [show l.length + n - 1 = l.length - n + n - 1 + n by omega, Nat.add_div_right _ hn]

theorem chunksOf_ne_nil {l : List α} (hl : l ≠ []) : chunksOf n l ≠ [] := by
  rw [chunksOf_of_ne_nil hn hl]
  exact List.cons_ne_nil _ _

end Lib.Chunks
