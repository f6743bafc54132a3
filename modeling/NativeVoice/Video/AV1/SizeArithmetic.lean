import NativeVoice.Video.AV1.Plan

/-!
# The sizes of AV1 fragments

`read_leb128`, `write_leb128`, `leb128_size` and `max_fragment_size` of `src/src/video/av1.rs`, at
all the sizes that a `usize` can have. The model of the packetizer computes the thresholds of
`max_fragment_size` without bound; here they are shifted and added as `usize`.

* `maxFragmentSizeRounds` is the loop of `max_fragment_size`, for some rounds.
* `lt_add_size`: a fragment that needs the room of the next threshold does not fit.
* `size_arithmetic_exact`: a code reads back as its number, and the fragment that is chosen is the
  longest one that fits together with its size.
-/

namespace NativeVoice.Video

open Lib

/-- The first rounds of the loop of `max_fragment_size`, from that with `bytes` on; `none` if there
are more. -/
def maxFragmentSizeRounds (b : Build) (remainingBytes : ℕ) :
    ℕ → ℕ → Option (Fallible PacketError ℕ)
  | 0, _ => none
  | rounds + 1, bytes =>
    match b.shlUsize (ε := PacketError) 1 (7 * bytes) >>= fun power => b.addUsize power bytes with
    | .error stop => some (.error stop)
    | .ok threshold =>
      if remainingBytes < threshold then some (b.subUsize remainingBytes bytes)
      else maxFragmentSizeRounds b remainingBytes rounds (bytes + 1)

/-- The threshold of one of the first nine rounds fits a `usize`. -/
theorem threshold_eq (b : Build) {k : ℕ} (hk : k < 9) :
    (b.shlUsize (ε := PacketError) 1 (7 * (k + 1)) >>= fun power => b.addUsize power (k + 1)) =
      .ok (2 ^ (7 * (k + 1)) + (k + 1)) := by
  have hpow : 2 ^ (7 * (k + 1)) ≤ 2 ^ 63 := Nat.pow_le_pow_right (by omega) (by omega)
  rw [b.shlUsize_of_lt (by omega) (by omega), Nat.one_mul, ok_bind, b.addUsize_of_lt (by omega)]

/-- What does not fit in the room up to a threshold needs a size of more bytes. -/
theorem lt_add_size {k r g : ℕ} (hk : k = 0 ∨ 2 ^ (7 * k) + k ≤ r) (hg : r - (k + 1) < g) :
    r < g + Leb128.size g := by
  have hsize : k + 1 ≤ Leb128.size g := by
    rcases hk with rfl | hk
    · exact Leb128.size_pos g
    · by_contra hshort
      have hpos := Leb128.size_pos g
      have hlt := (Leb128.size_le_iff (n := g) (by omega : 0 < k)).1 (by omega)
      rw [show (128 : ℕ) = 2 ^ 7 by rfl, ← pow_mul] at hlt
      omega
  omega

/-- **The loop** from a round on that is reached: it ends within nine rounds in all. -/
theorem maxFragmentSizeRounds_spec (b : Build) {r : ℕ} (hr : 2 ≤ r) (hlt : r < 2 ^ 63) :
    ∀ rounds k, k + rounds = 9 → (k = 0 ∨ 2 ^ (7 * k) + k ≤ r) → rounds ≠ 0 →
      ∃ f, maxFragmentSizeRounds b r rounds (k + 1) = some (.ok f) ∧
        maxFragmentSizeFrom b r (k + 1) = .ok f ∧
        1 ≤ f ∧ f + Leb128.size f ≤ r ∧ ∀ g, f < g → r < g + Leb128.size g := by
  intro rounds
  induction rounds with
  | zero => exact fun _ _ _ hne => absurd rfl hne
  | succ rounds ih =>
    intro k hrounds hk _
    have hroom : k + 1 < r := by
      rcases hk with rfl | hk
      · omega
      · have : 2 ≤ 2 ^ (7 * k) ∨ k = 0 := by
          rcases Nat.eq_zero_or_pos k with rfl | hpos
          · exact .inr rfl
          · exact .inl (Nat.le_self_pow (by omega) 2)
        omega
    rw [maxFragmentSizeRounds, threshold_eq b (by omega), maxFragmentSizeFrom, Nat.shiftLeft_eq,
      Nat.one_mul]
    dsimp only
    by_cases hend : r < 2 ^ (7 * (k + 1)) + (k + 1)
    · have hsize : Leb128.size (r - (k + 1)) ≤ k + 1 := by
        rw [Leb128.size_le_iff (by omega), show (128 : ℕ) = 2 ^ 7 by rfl, ← pow_mul]
        omega
      rw [if_pos hend, if_pos hend, b.subUsize_of_le hroom.le]
      exact ⟨r - (k + 1), rfl, rfl, by omega, by omega, fun g hg => lt_add_size hk hg⟩
    · rw [if_neg hend, if_neg hend]
      refine ih (k + 1) (by omega) (.inr (by omega)) ?_
      -- the ninth threshold is beyond the room
      rintro rfl
      have : 2 ^ 63 ≤ 2 ^ (7 * (k + 1)) := Nat.pow_le_pow_right (by omega) (by omega)
      omega

/-- **The arithmetic of sizes is exact**: every `usize` is read back from its code, and up to half
of the range the fragment for a room is the longest one that fits with its size. -/
theorem size_arithmetic_exact (b : Build) :
    (∀ n < 2 ^ 64, ∀ rest : Bytes, readLeb128 (writeLeb128 n ++ rest) = .ok (n, leb128Size n)) ∧
      ∀ r, 2 ≤ r → r < 2 ^ 63 → ∃ f, maxFragmentSizeRounds b r 9 1 = some (.ok f) ∧
        maxFragmentSize b r = .ok f ∧ 1 ≤ f ∧ f + leb128Size f ≤ r ∧
        ∀ g, f < g → r < g + leb128Size g := by
  constructor
  · intro n hn rest
    rw [writeLeb128_eq, leb128Size_eq]
    exact readLeb128_encode hn rest
  · intro r hr hlt
    obtain ⟨f, hrounds, hfrom, hpos, hfits, hmax⟩ :=
      maxFragmentSizeRounds_spec b hr hlt 9 0 rfl (.inl rfl) (by omega)
    refine ⟨f, hrounds, ?_, hpos, by rwa [leb128Size_eq], fun g hg => ?_⟩
    · rw [maxFragmentSize, if_neg (by omega), hfrom]
    · rw [leb128Size_eq]
      exact hmax g hg

/-- A room behind a jump of the size, and the greatest `usize`. -/
theorem size_arithmetic_exact_boundary :
    readLeb128 (writeLeb128 (2 ^ 64 - 1) ++ [0]) = .ok (2 ^ 64 - 1, leb128Size (2 ^ 64 - 1)) ∧
      ∃ f, maxFragmentSizeRounds .debug 129 9 1 = some (.ok f) ∧
        maxFragmentSize .debug 129 = .ok f ∧
        1 ≤ f ∧ f + leb128Size f ≤ 129 ∧ ∀ g, f < g → 129 < g + leb128Size g :=
  ⟨(size_arithmetic_exact .debug).1 _ (by decide) [0],
    (size_arithmetic_exact .debug).2 129 (by decide) (by decide)⟩

end NativeVoice.Video
