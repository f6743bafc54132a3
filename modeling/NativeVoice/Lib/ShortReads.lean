import Mathlib.Data.List.Basic

/-!
# Streams with short reads

A stream gives at least one element if it is asked for some and has any, but it need not give all
that it is asked for. How much it gives is up to `choice`, anew at every read.

* `readExact` reads on until it has as many elements as it wants, or the stream ends.
* `readExact_eq`: what it reads does not depend on the single reads.
-/

namespace Lib.ShortReads

structure Stream (α : Type*) where
  left : List α
  choice : ℕ → ℕ
  reads : ℕ := 0

variable {α : Type*}

namespace Stream

/-- A read of up to `n` elements. -/
def read (s : Stream α) (n : ℕ) : List α × Stream α :=
  let k := min n (max 1 (s.choice s.reads))
  (s.left.take k, { s with left := s.left.drop k, reads := s.reads + 1 })

/-- The loop of reads up to `size` elements. -/
def readFrom (size : ℕ) : ℕ → List α → Stream α → List α × Stream α
  | 0, chunks, s => (chunks, s)
  | fuel + 1, chunks, s =>
    if chunks.length < size then
      let (chunk, s) := s.read (size - chunks.length)
      if chunk.isEmpty then (chunks, s) else readFrom size fuel (chunks ++ chunk) s
    else (chunks, s)

/-- Reads until there are `size` elements. A read that is not empty gives one at least, so that
`size` reads are enough. -/
def readExact (s : Stream α) (size : ℕ) : List α × Stream α := readFrom size size [] s

theorem read_fst (s : Stream α) {n : ℕ} (hn : 0 < n) (hleft : s.left ≠ []) :
    (s.read n).1 ≠ [] ∧ (s.read n).1.length ≤ n := by
  have hpos := List.length_pos_iff.2 hleft
  constructor
  · rw [← List.length_pos_iff]
    simp only [read, List.length_take]
    omega
  · simp only [read, List.length_take]
    omega

theorem read_append (s : Stream α) (n : ℕ) : (s.read n).1 ++ (s.read n).2.left = s.left :=
  List.take_append_drop _ _

theorem readFrom_eq {size fuel : ℕ} (chunks : List α) (s : Stream α)
    (hfuel : size ≤ chunks.length + fuel) (hsize : chunks.length ≤ size) :
    ∃ s', readFrom size fuel chunks s =
        (chunks ++ s.left.take (size - chunks.length), s') ∧
      s'.left = s.left.drop (size - chunks.length) := by
  induction fuel generalizing chunks s with
  | zero =>
    obtain rfl : size = chunks.length := by omega
    exact ⟨s, by simp [readFrom], by simp⟩
  | succ fuel ih =>
    rw [readFrom]
    by_cases hmore : chunks.length < size
    · rw [if_pos hmore]
      by_cases hleft : s.left = []
      · have hread : (s.read (size - chunks.length)).1 = [] := by simp [read, hleft]
        dsimp only
        rw [if_pos (by rw [hread]; rfl)]
        exact ⟨(s.read (size - chunks.length)).2, by simp [hleft], by simp [read, hleft]⟩
      · obtain ⟨hne, hlen⟩ := s.read_fst (by omega : 0 < size - chunks.length) hleft
        have happend := s.read_append (size - chunks.length)
        dsimp only
        rw [if_neg (by simpa using hne)]
        generalize s.read (size - chunks.length) = r at hne hlen happend ⊢
        obtain ⟨chunk, s₁⟩ := r
        dsimp only at hne hlen happend ⊢
        have hpos := List.length_pos_iff.2 hne
        obtain ⟨s', heq, hleft'⟩ := ih (chunks ++ chunk) s₁
          (by rw [List.length_append]; omega) (by rw [List.length_append]; omega)
        have hsub : size - (chunks ++ chunk).length = size - chunks.length - chunk.length := by
          rw [List.length_append]
          omega
        refine ⟨s', ?_, ?_⟩
        · rw [heq, hsub, ← happend, List.append_assoc, List.take_append,
            List.take_of_length_le hlen]
        · rw [hleft', hsub, ← happend, List.drop_append, List.drop_of_length_le hlen,
            List.nil_append]
    · obtain rfl : size = chunks.length := by omega
      rw [if_neg hmore]
      exact ⟨s, by simp, by simp⟩

/-- **Reading exactly** gives what is at the front of the stream, whatever the single reads. -/
theorem readExact_eq (s : Stream α) (size : ℕ) : ∃ s', s.readExact size = (s.left.take size, s') ∧
    s'.left = s.left.drop size := by
  obtain ⟨s', heq, hleft⟩ := readFrom_eq [] s (by simp : size ≤ 0 + size) (Nat.zero_le _)
  exact ⟨s', heq, hleft⟩

theorem readExact_append {s : Stream α} {front rest : List α} (h : s.left = front ++ rest) :
    ∃ s', s.readExact front.length = (front, s') ∧ s'.left = rest := by
  obtain ⟨s', heq, hleft⟩ := s.readExact_eq front.length
  rw [h, List.take_left] at heq
  rw [h, List.drop_left] at hleft
  exact ⟨s', heq, hleft⟩

/-- At the end of the stream. -/
theorem readExact_nil {s : Stream α} (h : s.left = []) (size : ℕ) :
    ∃ s', s.readExact size = ([], s') ∧ s'.left = [] := by
  obtain ⟨s', heq, hleft⟩ := s.readExact_eq size
  rw [h, List.take_nil] at heq
  rw [h, List.drop_nil] at hleft
  exact ⟨s', heq, hleft⟩

end Stream

end Lib.ShortReads
