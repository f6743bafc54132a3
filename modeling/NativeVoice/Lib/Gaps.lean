import Mathlib.Data.List.Infix
import Mathlib.Data.List.TakeWhile

/-!
# Gaps between marks

Some elements of a list are marks. `Within n` says that no more than `n` others stand in a row.

* `WithinFrom` counts along the list, from those that stood in a row before it.
* `withinFrom_zero`: counting from none decides `Within`.
* `within_flatMap`: in a list that is put together from pieces, only the pieces between two with
  marks count.
-/

namespace Lib.Gaps

variable {α : Type*} (n : ℕ) (mark : α → Bool)

/-- Any part of the list without a mark has at most `n` elements. -/
def Within (l : List α) : Prop :=
  ∀ mid, mid <:+: l → (∀ a ∈ mid, mark a = false) → mid.length ≤ n

/-- The same behind `c` elements without a mark. -/
def WithinFrom : ℕ → List α → Prop
  | c, [] => c ≤ n
  | c, a :: l => if mark a then c ≤ n ∧ WithinFrom 0 l else WithinFrom (c + 1) l

variable {n mark} {a : α} {l : List α}

/-- The elements in front of the first mark. -/
theorem length_le_takeWhile {mid : List α} (h : mid <+: l) (hmid : ∀ a ∈ mid, mark a = false) :
    mid.length ≤ (l.takeWhile fun a => !mark a).length := by
  obtain ⟨rest, rfl⟩ := h
  rw [List.takeWhile_append_of_pos fun a ha => by simp [hmid a ha], List.length_append]
  omega

theorem Within.takeWhile (h : Within n mark l) :
    (l.takeWhile fun a => !mark a).length ≤ n := by
  refine h _ (List.takeWhile_prefix _).isInfix fun a ha => ?_
  simpa using List.mem_takeWhile_imp ha

theorem within_cons : Within n mark (a :: l) ↔
    ((a :: l).takeWhile fun a => !mark a).length ≤ n ∧ Within n mark l := by
  constructor
  · exact fun h => ⟨h.takeWhile, fun mid hmid => h mid (hmid.trans (List.suffix_cons a l).isInfix)⟩
  · rintro ⟨hfront, h⟩ mid hmid hmark
    rcases List.infix_cons_iff.1 hmid with hstart | hinfix
    · exact Nat.le_trans (length_le_takeWhile hstart hmark) hfront
    · exact h mid hinfix hmark

theorem withinFrom_iff (c : ℕ) (l : List α) : WithinFrom n mark c l ↔
    c + (l.takeWhile fun a => !mark a).length ≤ n ∧ Within n mark l := by
  induction l generalizing c with
  | nil =>
    refine ⟨fun h => ⟨h, fun mid hmid _ => ?_⟩, fun h => h.1⟩
    rw [List.infix_nil.1 hmid]
    exact Nat.zero_le _
  | cons a l ih =>
    rw [WithinFrom, within_cons]
    cases hmark : mark a with
    | true =>
      rw [if_pos rfl, ih, List.takeWhile_cons_of_neg (by simp [hmark]), List.length_nil]
      constructor
      · exact fun h => ⟨h.1, Nat.zero_le _, h.2.2⟩
      · exact fun h => ⟨h.1, (Nat.zero_add _).symm ▸ h.2.2.takeWhile, h.2.2⟩
    | false =>
      rw [if_neg (by simp), ih, List.takeWhile_cons_of_pos (by simp [hmark]), List.length_cons]
      constructor
      · exact fun h => ⟨by omega, by omega, h.2⟩
      · exact fun h => ⟨by omega, h.2.2⟩

/-- **Counting along the list** decides how many elements stand in a row. -/
theorem withinFrom_zero : WithinFrom n mark 0 l ↔ Within n mark l := by
  rw [withinFrom_iff, Nat.zero_add]
  exact ⟨fun h => h.2, fun h => ⟨h.takeWhile, h⟩⟩

theorem withinFrom_cons_of_mark (c : ℕ) (h : mark a = true) :
    WithinFrom n mark c (a :: l) ↔ c ≤ n ∧ WithinFrom n mark 0 l := by
  rw [WithinFrom, if_pos h]

theorem withinFrom_marks (c : ℕ) {marks : List α} (h : ∀ a ∈ marks, mark a = true)
    (hne : marks ≠ []) : WithinFrom n mark c (marks ++ l) ↔ c ≤ n ∧ WithinFrom n mark 0 l := by
  induction marks generalizing c with
  | nil => exact absurd rfl hne
  | cons a marks ih =>
    rw [List.cons_append, withinFrom_cons_of_mark c (h a List.mem_cons_self)]
    cases marks with
    | nil => rfl
    | cons a' marks =>
      rw [ih 0 (fun b hb => h b (List.mem_cons_of_mem _ hb)) (by simp)]
      exact and_congr_right fun _ => and_iff_right (Nat.zero_le n)

/-- Elements without a mark are counted. -/
theorem withinFrom_append (c : ℕ) {mid : List α} (h : ∀ a ∈ mid, mark a = false) :
    WithinFrom n mark c (mid ++ l) ↔ WithinFrom n mark (c + mid.length) l := by
  induction mid generalizing c with
  | nil => rfl
  | cons a mid ih =>
    rw [List.cons_append, WithinFrom, if_neg (by simp [h a List.mem_cons_self]),
      ih _ fun b hb => h b (List.mem_cons_of_mem _ hb), List.length_cons, Nat.add_assoc,
      Nat.add_comm 1]

/-- Only the marks count. -/
theorem withinFrom_map (c : ℕ) (l : List α) :
    WithinFrom n id c (l.map mark) ↔ WithinFrom n mark c l := by
  induction l generalizing c with
  | nil => rfl
  | cons a l ih => rw [List.map_cons, WithinFrom, WithinFrom, ih, ih, id]

theorem within_map (l : List α) : Within n id (l.map mark) ↔ Within n mark l := by
  rw [← withinFrom_zero, withinFrom_map, withinFrom_zero]

/-! ## Lists of pieces

Every piece has some marks, and then some other elements. -/

section Pieces

variable {β : Type*} {marks others : β → List α} (hmarks : ∀ b, ∀ a ∈ marks b, mark a = true)
  (hothers : ∀ b, ∀ a ∈ others b, mark a = false)

include hmarks hothers

theorem withinFrom_flatMap (c : ℕ) (l : List β) :
    WithinFrom n mark c (l.flatMap fun b => marks b ++ others b) ↔
      (∀ mid, mid <+: l → (∀ b ∈ mid, marks b = []) → c + (mid.flatMap others).length ≤ n) ∧
        ∀ mid, mid <:+: l → (∀ b ∈ mid.tail, marks b = []) → (mid.flatMap others).length ≤ n := by
  induction l generalizing c with
  | nil =>
    constructor
    · refine fun h => ⟨fun mid hmid _ => ?_, fun mid hmid _ => ?_⟩
      · rw [List.prefix_nil.1 hmid]
        exact h
      · rw [List.infix_nil.1 hmid]
        exact Nat.zero_le n
    · exact fun h => h.1 [] List.prefix_rfl fun _ hb => absurd hb List.not_mem_nil
  | cons b l ih =>
    -- the parts of the list that begin with `b`
    have hfront (P : List β → Prop) (hnil : P []) :
        (∀ mid, mid <+: b :: l → P mid) ↔ ∀ mid, mid <+: l → P (b :: mid) := by
      refine ⟨fun h mid hmid => h _ (List.cons_prefix_cons.2 ⟨rfl, hmid⟩), fun h mid hmid => ?_⟩
      cases mid with
      | nil => exact hnil
      | cons b' mid =>
        obtain ⟨rfl, htail⟩ := List.cons_prefix_cons.1 hmid
        exact h mid htail
    have hinfix (P : List β → Prop) (hnil : P []) : (∀ mid, mid <:+: b :: l → P mid) ↔
        (∀ mid, mid <+: l → P (b :: mid)) ∧ ∀ mid, mid <:+: l → P mid := by
      rw [← hfront P hnil]
      simp only [List.infix_cons_iff, or_imp, forall_and]
    rw [List.flatMap_cons, List.append_assoc, hinfix _ fun _ => Nat.zero_le n]
    simp only [List.tail_cons, List.flatMap_cons, List.length_append]
    by_cases hnone : marks b = []
    · rw [hnone, List.nil_append, withinFrom_append c (hothers b), ih]
      constructor
      · rintro ⟨hstart, hrest⟩
        refine ⟨fun mid hmid hmid' => ?_, fun mid hmid hmid' => ?_, hrest⟩
        · cases mid with
          | nil =>
            have := hstart [] (List.nil_prefix) fun _ hb => absurd hb List.not_mem_nil
            rw [List.flatMap_nil, List.length_nil] at this ⊢
            omega
          | cons b' mid =>
            obtain ⟨rfl, htail⟩ := List.cons_prefix_cons.1 hmid
            have := hstart mid htail fun b hb => hmid' b (List.mem_cons_of_mem _ hb)
            rw [List.flatMap_cons, List.length_append]
            omega
        · have := hstart mid hmid hmid'
          omega
      · rintro ⟨hstart, -, hrest⟩
        refine ⟨fun mid hmid hmid' => ?_, hrest⟩
        have := hstart (b :: mid) (List.cons_prefix_cons.2 ⟨rfl, hmid⟩)
          (List.forall_mem_cons.2 ⟨hnone, hmid'⟩)
        rw [List.flatMap_cons, List.length_append] at this
        omega
    · rw [withinFrom_marks c (hmarks b) hnone, withinFrom_append 0 (hothers b), ih, Nat.zero_add]
      refine and_congr_left' ⟨fun hc mid hmid hmid' => ?_, fun hstart => ?_⟩
      · cases mid with
        | nil => exact hc
        | cons b' mid =>
          obtain ⟨rfl, -⟩ := List.cons_prefix_cons.1 hmid
          exact absurd (hmid' b' List.mem_cons_self) hnone
      · exact hstart [] List.nil_prefix fun _ hb => absurd hb List.not_mem_nil

/-- **Between two pieces with marks**, and from the first of them on, the other elements stand in a
row. -/
theorem within_flatMap (l : List β) :
    Within n mark (l.flatMap fun b => marks b ++ others b) ↔
      ∀ mid, mid <:+: l → (∀ b ∈ mid.tail, marks b = []) → (mid.flatMap others).length ≤ n := by
  rw [← withinFrom_zero, withinFrom_flatMap hmarks hothers]
  refine and_iff_right_of_imp fun h mid hmid hmid' => ?_
  rw [Nat.zero_add]
  exact h mid hmid.isInfix fun b hb => hmid' b (List.mem_of_mem_tail hb)

end Pieces

end Lib.Gaps
