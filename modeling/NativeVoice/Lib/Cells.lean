import Mathlib.Algebra.Ring.Nat
import Mathlib.Data.List.Basic

/-!
# Lists of cells of one size

A list whose entries are read `k` at a time: the cell `c` is the `k` entries from `k * c` on.

* `write` puts whole cells over a list; `cell_write` is what every cell is afterwards.
* `cell_run` reads the cells of a run of cells.
* `ofCells` is the list with given cells; `ext_cell`: a list of cells is determined by its cells.
* `pixel`: the cells of a list laid out in rows, for which `pixel_write` and `ext_pixel` say the
  same.
-/

namespace Lib.Cells

variable {α : Type} {k : ℕ}

/-- The cell `c` of the list. -/
def cell (k : ℕ) (l : List α) (c : ℕ) : List α := (l.drop (k * c)).take k

/-- The list with `src` put over it, from its cell `c` on. -/
def write (k : ℕ) (l : List α) (c : ℕ) (src : List α) : List α :=
  l.take (k * c) ++ (src ++ l.drop (k * c + src.length))

/-- The entry `i` of a cell is the one behind the `k * c` entries of the earlier cells. -/
theorem getElem?_cell (l : List α) (c : ℕ) {i : ℕ} (hi : i < k) :
    (cell k l c)[i]? = l[k * c + i]? := by
  rw [cell, List.getElem?_take_of_lt hi, List.getElem?_drop]

theorem length_cell {l : List α} {c : ℕ} (h : k * (c + 1) ≤ l.length) :
    (cell k l c).length = k := by
  rw [Nat.mul_succ] at h
  rw [cell, List.length_take, List.length_drop]
  omega

theorem cell_zero {l : List α} (h : l.length = k) : cell k l 0 = l := by
  rw [cell, Nat.mul_zero, List.drop_zero, List.take_of_length_le (Nat.le_of_eq h)]

/-- A cell is determined by its entries. -/
theorem cell_eq_iff {l l' : List α} {c c' : ℕ} :
    cell k l c = cell k l' c' ↔ ∀ i < k, l[k * c + i]? = l'[k * c' + i]? := by
  constructor
  · intro h i hi
    rw [← getElem?_cell l c hi, ← getElem?_cell l' c' hi, h]
  · intro h
    apply List.ext_getElem?
    intro i
    by_cases hi : i < k
    · rw [getElem?_cell l c hi, getElem?_cell l' c' hi, h i hi]
    · have hnone : ∀ (m : List α) (d : ℕ), (cell k m d)[i]? = none := fun m d => by
        apply List.getElem?_eq_none
        rw [cell, List.length_take]
        omega
      rw [hnone, hnone]

/-! ## Writing cells -/

theorem length_write {l src : List α} {c : ℕ} (h : k * c + src.length ≤ l.length) :
    (write k l c src).length = l.length := by
  rw [write, List.length_append, List.length_append, List.length_take, List.length_drop]
  omega

theorem write_cell {l : List α} {c : ℕ} (h : k * (c + 1) ≤ l.length) :
    write k l c (cell k l c) = l := by
  rw [write, length_cell h, cell, ← List.drop_drop, List.take_append_drop, List.take_append_drop]

theorem getElem?_write {l src : List α} {c : ℕ} (h : k * c + src.length ≤ l.length) (i : ℕ) :
    (write k l c src)[i]? =
      if k * c ≤ i ∧ i < k * c + src.length then src[i - k * c]? else l[i]? := by
  have htake : (l.take (k * c)).length = k * c := by
    rw [List.length_take]
    omega
  rw [write]
  split
  · rename_i hi
    rw [List.getElem?_append_right (by omega), htake, List.getElem?_append_left (by omega)]
  · rename_i hi
    by_cases hlow : i < k * c
    · rw [List.getElem?_append_left (by omega), List.getElem?_take_of_lt hlow]
    · rw [List.getElem?_append_right (by omega), htake, List.getElem?_append_right (by omega),
        List.getElem?_drop]
      congr 1
      omega

/-- **A write is seen in the cells it covers and in no other.** -/
theorem cell_write {l src : List α} {c m : ℕ} (hsrc : src.length = k * m)
    (h : k * (c + m) ≤ l.length) (d : ℕ) :
    cell k (write k l c src) d =
      if c ≤ d ∧ d < c + m then cell k src (d - c) else cell k l d := by
  have hfit : k * c + src.length ≤ l.length := by
    rw [hsrc, ← Nat.mul_add]
    exact h
  split
  · rename_i hd
    obtain ⟨j, rfl⟩ := Nat.exists_eq_add_of_le hd.1
    rw [Nat.add_sub_cancel_left, cell_eq_iff]
    intro i hi
    have hj : k * (j + 1) ≤ k * m := Nat.mul_le_mul_left k (by omega)
    rw [Nat.mul_succ] at hj
    rw [getElem?_write hfit, Nat.mul_add, if_pos (by omega)]
    congr 1
    omega
  · rename_i hd
    rw [cell_eq_iff]
    intro i hi
    rw [getElem?_write hfit, if_neg]
    rintro ⟨hlow, hhigh⟩
    -- the entry lies in the cell `d`, so the bounds on the entry are bounds on `d`
    rw [hsrc, ← Nat.mul_add] at hhigh
    have hcd : c < d + 1 := Nat.lt_of_mul_lt_mul_left (a := k) (by rw [Nat.mul_succ]; omega)
    have hdm : d < c + m := Nat.lt_of_mul_lt_mul_left (a := k) (by omega)
    omega

/-- The cells of `m` cells in a row. -/
theorem cell_run (l : List α) (c : ℕ) {m j : ℕ} (hj : j < m) :
    cell k ((l.drop (k * c)).take (k * m)) j = cell k l (c + j) := by
  rw [cell_eq_iff]
  intro i hi
  have hfit : k * (j + 1) ≤ k * m := Nat.mul_le_mul_left k (by omega)
  rw [Nat.mul_succ] at hfit
  rw [List.getElem?_take_of_lt (by omega), List.getElem?_drop, Nat.mul_add]
  congr 1
  omega

/-- **A list of cells is determined by its cells.** -/
theorem ext_cell {l l' : List α} {n : ℕ} (hl : l.length = k * n) (hl' : l'.length = k * n)
    (h : ∀ c < n, cell k l c = cell k l' c) : l = l' := by
  apply List.ext_getElem?
  intro i
  by_cases hi : i < k * n
  · have hk : 0 < k := by
      rcases Nat.eq_zero_or_pos k with rfl | hk
      · omega
      · exact hk
    have hcell := cell_eq_iff.1 (h (i / k) (Nat.div_lt_of_lt_mul hi)) (i % k) (Nat.mod_lt i hk)
    rwa [Nat.div_add_mod] at hcell
  · rw [List.getElem?_eq_none (by omega), List.getElem?_eq_none (by omega)]

/-! ## The list with given cells -/

def ofCells (n : ℕ) (f : ℕ → List α) : List α := (List.range n).flatMap f

section OfCells

variable {n : ℕ} {f : ℕ → List α}

theorem ofCells_succ : ofCells (n + 1) f = ofCells n f ++ f n := by
  rw [ofCells, ofCells, List.range_succ, List.flatMap_append, List.flatMap_singleton]

theorem length_ofCells (h : ∀ c < n, (f c).length = k) : (ofCells n f).length = k * n := by
  induction n with
  | zero => rfl
  | succ n ih =>
    rw [ofCells_succ, List.length_append, ih fun c hc => h c (by omega), h n (by omega),
      Nat.mul_succ]

theorem cell_ofCells (h : ∀ c < n, (f c).length = k) {c : ℕ} (hc : c < n) :
    cell k (ofCells n f) c = f c := by
  induction n with
  | zero => omega
  | succ n ih =>
    have hlength := length_ofCells fun c hc => h c (Nat.lt_succ_of_lt hc)
    rw [ofCells_succ, cell]
    rcases Nat.lt_succ_iff_lt_or_eq.1 hc with hc | rfl
    · have hfit : k * (c + 1) ≤ k * n := Nat.mul_le_mul_left k hc
      rw [Nat.mul_succ] at hfit
      rw [List.drop_append_of_le_length (by omega), List.take_append_of_le_length]
      · exact ih (fun c hc => h c (by omega)) hc
      · rw [List.length_drop]
        omega
    · rw [← hlength, List.drop_left, List.take_of_length_le (Nat.le_of_eq (h c (by omega)))]

end OfCells

/-! ## Cells in rows -/

/-- The cell in the column `x` of the row `y`, in rows of `w` cells. -/
def pixel (k w : ℕ) (l : List α) (x y : ℕ) : List α := cell k l (y * w + x)

section Rows

variable {w : ℕ}

/-- A run of cells within a row. -/
theorem mem_run_iff {x y m px py : ℕ} (hm : x + m ≤ w) (hpx : px < w) :
    y * w + x ≤ py * w + px ∧ py * w + px < y * w + x + m ↔ py = y ∧ x ≤ px ∧ px < x + m := by
  constructor
  · rintro ⟨hlow, hhigh⟩
    rcases Nat.lt_trichotomy py y with hlt | rfl | hgt
    · have hrow : (py + 1) * w ≤ y * w := Nat.mul_le_mul_right w hlt
      rw [Nat.succ_mul] at hrow
      omega
    · omega
    · have hrow : (y + 1) * w ≤ py * w := Nat.mul_le_mul_right w hgt
      rw [Nat.succ_mul] at hrow
      omega
  · rintro ⟨rfl, hlow, hhigh⟩
    omega

/-- The cell in a row lies in the list. -/
theorem row_lt {h x y : ℕ} (hx : x < w) (hy : y < h) : y * w + x < w * h := by
  have hrow : (y + 1) * w ≤ h * w := Nat.mul_le_mul_right w hy
  rw [Nat.succ_mul, Nat.mul_comm h w] at hrow
  omega

/-- **A run written within a row is seen in its pixels and in no other.** -/
theorem pixel_write {l src : List α} {x y m : ℕ} (hsrc : src.length = k * m)
    (hfit : k * (y * w + x + m) ≤ l.length) (hm : x + m ≤ w) {px : ℕ} (hpx : px < w) (py : ℕ) :
    pixel k w (write k l (y * w + x) src) px py =
      if py = y ∧ x ≤ px ∧ px < x + m then cell k src (px - x) else pixel k w l px py := by
  rw [pixel, cell_write hsrc hfit]
  by_cases hin : py = y ∧ x ≤ px ∧ px < x + m
  · rw [if_pos hin, if_pos ((mem_run_iff hm hpx).2 hin), hin.1, Nat.add_sub_add_left]
  · rw [if_neg hin, if_neg fun h => hin ((mem_run_iff hm hpx).1 h), pixel]

/-- **A list of pixels is determined by its pixels.** -/
theorem ext_pixel {h : ℕ} {l l' : List α} (hl : l.length = k * (w * h))
    (hl' : l'.length = k * (w * h))
    (hpixel : ∀ x < w, ∀ y < h, pixel k w l x y = pixel k w l' x y) : l = l' := by
  apply ext_cell hl hl'
  intro c hc
  have hw : 0 < w := by
    rcases Nat.eq_zero_or_pos w with rfl | hw
    · omega
    · exact hw
  have hrow := hpixel (c % w) (Nat.mod_lt c hw) (c / w) (Nat.div_lt_of_lt_mul hc)
  rwa [pixel, pixel, Nat.mul_comm, Nat.div_add_mod] at hrow

end Rows

end Lib.Cells
