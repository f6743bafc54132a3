import Mathlib.Data.Finset.Card
import Mathlib.Data.Finset.Range
import Mathlib.Data.List.Chain
import Mathlib.Data.List.Nodup
import Mathlib.Data.List.Range
import Mathlib.Data.UInt

/-!
# Consecutive sequence numbers

RTP sequence numbers have 16 bits and follow each other modulo `2 ^ 16`.
-/

namespace NativeVoice

/-- A step, and `i` more. -/
theorem add_one_add_ofNat (n : UInt16) (i : ℕ) :
    n + 1 + UInt16.ofNat i = n + UInt16.ofNat (i + 1) := by
  rw [UInt16.ofNat_add, UInt16.add_assoc, UInt16.add_comm 1 (UInt16.ofNat i)]
  rfl

/-- Fewer than `2 ^ 16` steps lead to different sequence numbers. -/
theorem add_ofNat_inj (n : UInt16) {i j : ℕ} (hi : i < 2 ^ 16) (hj : j < 2 ^ 16) :
    n + UInt16.ofNat i = n + UInt16.ofNat j ↔ i = j := by
  refine ⟨fun h => ?_, fun h => by rw [h]⟩
  have := congrArg UInt16.toNat ((UInt16.add_right_inj n).1 h)
  simp only [UInt16.toNat_ofNat'] at this
  omega

/-- Distinct sequence numbers are at most `2 ^ 16`. -/
theorem length_le_of_nodup {l : List UInt16} (h : l.Nodup) : l.length ≤ 2 ^ 16 := by
  have hnodup : (l.map UInt16.toNat).Nodup := h.map fun _ _ => UInt16.toNat_inj.1
  have hsub : (l.map UInt16.toNat).toFinset ⊆ Finset.range (2 ^ 16) := by
    intro x hx
    rw [List.mem_toFinset, List.mem_map] at hx
    obtain ⟨n, -, rfl⟩ := hx
    exact Finset.mem_range.2 n.toNat_lt
  have := Finset.card_le_card hsub
  rwa [List.toFinset_card_of_nodup hnodup, List.length_map, Finset.card_range] at this

theorem nodup_eraseDups (l : List UInt16) : l.eraseDups.Nodup := by
  cases l with
  | nil => simp
  | cons a l =>
    rw [List.eraseDups_cons, List.nodup_cons]
    exact ⟨by simp [List.mem_eraseDups], nodup_eraseDups _⟩
termination_by l.length
decreasing_by
  exact Nat.lt_succ_of_le (List.length_filter_le _ _)

/-- Sequence numbers that follow each other. -/
def Consecutive (l : List UInt16) : Prop := l.IsChain fun a b => b = a + 1

namespace Consecutive

theorem eq_map_range {a : UInt16} {l : List UInt16} (h : Consecutive (a :: l)) :
    a :: l = (List.range (l.length + 1)).map fun i => a + UInt16.ofNat i := by
  induction l generalizing a with
  | nil => simp
  | cons b l ih =>
    obtain ⟨rfl, hl⟩ := List.isChain_cons_cons.1 h
    rw [ih hl, List.length_map, List.length_range, List.range_succ_eq_map (n := l.length + 1),
      List.map_cons, List.map_map]
    congr 1
    · simp
    · refine List.map_congr_left fun i _ => ?_
      rw [Function.comp_apply, add_one_add_ofNat]

/-- **At most `2 ^ 16` consecutive sequence numbers** are distinct. -/
theorem nodup {l : List UInt16} (h : Consecutive l) (hlen : l.length ≤ 2 ^ 16) : l.Nodup := by
  cases l with
  | nil => exact List.nodup_nil
  | cons a l =>
    rw [h.eq_map_range]
    refine List.Nodup.map_on (fun i hi j hj hij => ?_) List.nodup_range
    rw [List.mem_range] at hi hj
    rw [List.length_cons] at hlen
    exact (add_ofNat_inj a (by omega) (by omega)).1 hij

theorem append {a b : List UInt16} (ha : Consecutive a) (hb : Consecutive b)
    (h : ∀ x ∈ a.getLast?, ∀ y ∈ b.head?, y = x + 1) : Consecutive (a ++ b) :=
  List.isChain_append.2 ⟨ha, hb, h⟩

end Consecutive

end NativeVoice
