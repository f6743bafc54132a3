import Mathlib.Data.List.GetD
import Mathlib.Data.Nat.ModEq
import NativeVoice.Lib.Chunks
import NativeVoice.Lib.Transducer

/-!
# Reading rows in columns

Several rows are read at once, an entry of each in every step. A row that has come to its end takes
no part any more.

* `outputs_columns`: the steps go through the columns.
* `getElem?_chunksOf`: the pieces of a row that was cut.
* `take_drop_flatten`, `getD_flatten`: the pieces and entries of pieces of one length that are put
  together.
-/

namespace Lib.Columns

variable {α ω : Type*}

/-- Reads the next entry of every row. -/
def step (f : List α → ω) (rows : List (List α)) (_ : Unit) : ω × List (List α) :=
  (f (rows.filterMap List.head?), rows.map List.tail)

/-- **The steps go through the columns**, one after the other. -/
theorem outputs_columns (f : List α → ω) (rows : List (List α)) (n : ℕ) :
    Transducer.outputs (step f) rows (List.replicate n ()) =
      (List.range n).map fun k => f (rows.filterMap (·[k]?)) := by
  induction n generalizing rows with
  | zero => rfl
  | succ n ih =>
    have hhead : rows.filterMap List.head? = rows.filterMap (·[0]?) :=
      congrArg (rows.filterMap ·) (funext fun row => List.head?_eq_getElem?)
    have htail (k : ℕ) : (rows.map List.tail).filterMap (·[k]?) = rows.filterMap (·[k + 1]?) := by
      rw [List.filterMap_map]
      congr 1
      funext row
      simp
    rw [List.replicate_succ, Transducer.outputs_cons, List.range_succ_eq_map, List.map_cons,
      List.map_map]
    congr 1
    · rw [step, hhead]
    · rw [step, ih]
      refine List.map_congr_left fun k _ => ?_
      rw [htail]
      rfl

/-- The pieces of a list. -/
theorem getElem?_chunksOf {n : ℕ} (hn : 0 < n) (l : List α) (k : ℕ) :
    (Chunks.chunksOf n l)[k]? =
      if n * k < l.length then some ((l.drop (n * k)).take n) else none := by
  induction l using Chunks.chunk_induction hn generalizing k with
  | nil => simp
  | chunk l hl ih =>
    rw [Chunks.chunksOf_of_ne_nil hn hl]
    cases k with
    | zero =>
      rw [if_pos (by simpa using List.length_pos_iff.2 hl)]
      simp
    | succ k =>
      rw [List.getElem?_cons_succ, ih, List.length_drop, List.drop_drop, mul_add, mul_one]
      congr 1
      · rw [eq_iff_iff]
        omega
      · rw [add_comm]

/-- Pieces of one length that are put together are cut again. -/
theorem chunksOf_flatten {n : ℕ} (hn : 0 < n) {blocks : List (List α)}
    (hblocks : ∀ block ∈ blocks, block.length = n) : Chunks.chunksOf n blocks.flatten = blocks := by
  induction blocks with
  | nil => exact Chunks.chunksOf_nil n
  | cons block blocks ih =>
    have hlen := hblocks block (by simp)
    have hne : (block :: blocks).flatten ≠ [] := by
      rw [List.flatten_cons, ne_eq, List.append_eq_nil_iff, not_and]
      rintro rfl
      exact absurd hlen hn.ne
    rw [Chunks.chunksOf_of_ne_nil hn hne, List.flatten_cons, List.take_left' hlen,
      List.drop_left' hlen, ih fun b hb => hblocks b (List.mem_cons_of_mem _ hb)]

/-- An entry of pieces that are put together. -/
theorem getD_flatten {n : ℕ} (hn : 0 < n) {blocks : List (List α)}
    (hblocks : ∀ block ∈ blocks, block.length = n) (i : ℕ) (d : α) :
    blocks.flatten.getD i d = (blocks.getD (i / n) []).getD (i % n) d := by
  induction blocks generalizing i with
  | nil => simp
  | cons block blocks ih =>
    have hlen := hblocks block (by simp)
    have hrest := ih fun b hb => hblocks b (List.mem_cons_of_mem _ hb)
    rw [List.flatten_cons]
    rcases Nat.lt_or_ge i n with hlt | hge
    · rw [Nat.div_eq_of_lt hlt, Nat.mod_eq_of_lt hlt, List.getD_cons_zero,
        List.getD_append _ _ _ _ (by omega)]
    · obtain ⟨j, rfl⟩ := Nat.exists_eq_add_of_le hge
      rw [List.getD_append_right _ _ _ _ (by omega), hlen, Nat.add_sub_cancel_left, hrest,
        Nat.add_div_left _ hn, Nat.add_mod_left, List.getD_cons_succ]

/-- A piece of pieces that are put together. -/
theorem take_drop_flatten {n : ℕ} (hn : 0 < n) {blocks : List (List α)}
    (hblocks : ∀ block ∈ blocks, block.length = n) (k : ℕ) :
    (blocks.flatten.drop (n * k)).take n = blocks.getD k [] := by
  have hpiece := getElem?_chunksOf hn blocks.flatten k
  rw [chunksOf_flatten hn hblocks] at hpiece
  rw [List.getD_eq_getElem?_getD, hpiece]
  split
  · rfl
  · rename_i hend
    rw [List.drop_eq_nil_of_le (Nat.not_lt.1 hend), List.take_nil]
    rfl

end Lib.Columns
