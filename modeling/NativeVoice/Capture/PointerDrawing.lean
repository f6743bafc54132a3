import Mathlib.Tactic.Ring
import NativeVoice.Capture.PointerPixels

/-!
# Drawing and restoring a clip

The loops of `src/src/capture/windows.rs` over the part of the output that a pointer covers.

* `pointerClip_some` and `pointerClip_none`: the clip is what the shape covers of the output, as
  long as its position can be negated in 32 bits.
* `savePointerRestore_ok` and `restorePointer_ok`: what was saved of an image puts back any frame
  that differs from it inside the clip only.
* `drawRow_ok` and `drawWith_ok`: every pixel of the clip is drawn once, no other pixel is touched,
  and restoring takes the pointer away.

None of the functions panics, since the bytes of the frame fit in a `Vec`.
-/

namespace NativeVoice.Capture

open Lib.Cells

/-! ## The clip -/

/-- A shape of this size at `x` covers `a`, in one direction. -/
def Covers (x : ℤ) (size a : ℕ) : Prop := 0 ≤ (a : ℤ) - x ∧ (a : ℤ) - x < size

instance (x : ℤ) (size a : ℕ) : Decidable (Covers x size a) :=
  inferInstanceAs (Decidable (_ ∧ _))

def PointerClip.Contains (clip : PointerClip) (px py : ℕ) : Prop :=
  (clip.dstX ≤ px ∧ px < clip.dstX + clip.width) ∧ clip.dstY ≤ py ∧ py < clip.dstY + clip.height

theorem clampToUsize_eq (x : Int32) : clampToUsize x = x.toInt.toNat := by
  have hmax : max x 0 = if x ≤ 0 then 0 else x := rfl
  have hzero : (0 : Int32).toInt = 0 := rfl
  rw [clampToUsize, hmax]
  split
  · rename_i h
    rw [Int32.le_iff_toInt_le, hzero] at h
    exact (Int.toNat_of_nonpos h).symm
  · rfl

/-- The least position is the one that negation does not reach: it falls short by one. -/
theorem clampToUsize_saturatingNeg (x : Int32) :
    clampToUsize (saturatingNeg x) =
      if x = Int32.minValue then 2 ^ 31 - 1 else (-x.toInt).toNat := by
  rw [saturatingNeg]
  split
  · rfl
  · rename_i h
    rw [← Int32.toInt_inj, Int32.toInt_minValue] at h
    have hlow := x.le_toInt
    have hhigh := x.toInt_lt
    rw [clampToUsize_eq, Int32.toInt_neg, Int.bmod]
    congr 1
    omega

section Direction

variable {x : Int32} {size frame a : ℕ}

/-- Where the shape begins or the output ends before its clip, it covers nothing of the output. -/
theorem not_covers (hreach : x = Int32.minValue → size < 2 ^ 31) (ha : a < frame)
    (h : size ≤ clampToUsize (saturatingNeg x) ∨ frame ≤ clampToUsize x) :
    ¬ Covers x.toInt size a := by
  have hlow := x.le_toInt
  rw [clampToUsize_saturatingNeg, clampToUsize_eq] at h
  rintro ⟨hstart, hend⟩
  split at h
  · rename_i hmin
    have hsize := hreach hmin
    rw [hmin, Int32.toInt_minValue] at hstart hend h
    omega
  · omega

theorem covers_iff (hreach : x = Int32.minValue → size < 2 ^ 31) (ha : a < frame)
    (hsrc : clampToUsize (saturatingNeg x) < size) (hdst : clampToUsize x < frame) :
    (clampToUsize x ≤ a ∧ a < clampToUsize x +
      min (size - clampToUsize (saturatingNeg x)) (frame - clampToUsize x)) ↔
        Covers x.toInt size a := by
  rw [clampToUsize_saturatingNeg] at hsrc ⊢
  rw [clampToUsize_eq] at hdst ⊢
  rw [Covers]
  split at hsrc
  · rename_i hmin
    have hsize := hreach hmin
    omega
  · rename_i hmin
    rw [if_neg hmin]
    omega

theorem column_eq (hreach : x = Int32.minValue → size < 2 ^ 31)
    (hsrc : clampToUsize (saturatingNeg x) < size) (ha : clampToUsize x ≤ a) :
    clampToUsize (saturatingNeg x) + (a - clampToUsize x) = ((a : ℤ) - x.toInt).toNat := by
  rw [clampToUsize_saturatingNeg] at hsrc ⊢
  rw [clampToUsize_eq] at ha ⊢
  split at hsrc
  · rename_i hmin
    have hsize := hreach hmin
    omega
  · rename_i hmin
    rw [if_neg hmin]
    omega

/-- A clip ends where the shape or the output does. -/
theorem add_le_bound {start length bound : ℕ} (h : length ≤ bound - start)
    (hstart : start < bound) : start + length ≤ bound := by
  omega

theorem clampToUsize_lt (x : Int32) : clampToUsize x < 2 ^ 31 := by
  have hhigh := x.toInt_lt
  rw [clampToUsize_eq]
  omega

end Direction

/-- A clip that shows a shape of this size: what it contains is what the shape covers, from the
right place in the shape. -/
structure PointerClip.Shows (o : Output) (p : PointerState) (shapeWidth shapeHeight : ℕ)
    (clip : PointerClip) : Prop where
  fits_x : clip.dstX + clip.width ≤ o.width.toNat
  fits_y : clip.dstY + clip.height ≤ o.height.toNat
  shape_x : clip.srcX + clip.width ≤ shapeWidth
  shape_y : clip.srcY + clip.height ≤ shapeHeight
  src_x : clip.srcX < 2 ^ 31
  src_y : clip.srcY < 2 ^ 31
  contains_iff : ∀ px < o.width.toNat, ∀ py < o.height.toNat,
    clip.Contains px py ↔ Covers p.x.toInt shapeWidth px ∧ Covers p.y.toInt shapeHeight py
  column : ∀ px, clip.dstX ≤ px → clip.srcX + (px - clip.dstX) = ((px : ℤ) - p.x.toInt).toNat
  row : ∀ py, clip.dstY ≤ py → clip.srcY + (py - clip.dstY) = ((py : ℤ) - p.y.toInt).toNat

section Clip

variable {o : Output} {p : PointerState} {shapeWidth shapeHeight : ℕ}
  (hx : p.x = Int32.minValue → shapeWidth < 2 ^ 31)
  (hy : p.y = Int32.minValue → shapeHeight < 2 ^ 31)

include hx hy

theorem pointerClip_none (h : pointerClip o p shapeWidth shapeHeight = none) {px py : ℕ}
    (hpx : px < o.width.toNat) (hpy : py < o.height.toNat) :
    ¬ (Covers p.x.toInt shapeWidth px ∧ Covers p.y.toInt shapeHeight py) := by
  rintro ⟨hcx, hcy⟩
  have hsrcX : ¬ shapeWidth ≤ clampToUsize (saturatingNeg p.x) := fun h =>
    not_covers hx hpx (.inl h) hcx
  have hsrcY : ¬ shapeHeight ≤ clampToUsize (saturatingNeg p.y) := fun h =>
    not_covers hy hpy (.inl h) hcy
  have hdstX : ¬ o.width.toNat ≤ clampToUsize p.x := fun h => not_covers hx hpx (.inr h) hcx
  have hdstY : ¬ o.height.toNat ≤ clampToUsize p.y := fun h => not_covers hy hpy (.inr h) hcy
  have hwidth : o.width ≠ 0 := by
    rintro hzero
    rw [hzero] at hpx
    exact Nat.not_lt_zero px hpx
  have hheight : o.height ≠ 0 := by
    rintro hzero
    rw [hzero] at hpy
    exact Nat.not_lt_zero py hpy
  rw [pointerClip, if_neg, if_neg, if_neg] at h
  · cases h
  · omega
  · omega
  · rintro (hzero | hzero | hzero | hzero)
    · omega
    · omega
    · exact hwidth hzero
    · exact hheight hzero

theorem pointerClip_some {clip : PointerClip}
    (h : pointerClip o p shapeWidth shapeHeight = some clip) :
    clip.Shows o p shapeWidth shapeHeight := by
  rw [pointerClip] at h
  split at h
  · cases h
  · dsimp only at h
    split at h
    · cases h
    · rename_i hin
      rw [not_or, not_or, not_or, Nat.not_le, Nat.not_le, Nat.not_le, Nat.not_le] at hin
      obtain ⟨hsrcX, hsrcY, hdstX, hdstY⟩ := hin
      split at h
      · cases h
      · have hclip := (Option.some.inj h).symm
        have hdstXEq : clip.dstX = clampToUsize p.x := by rw [hclip]
        have hdstYEq : clip.dstY = clampToUsize p.y := by rw [hclip]
        have hsrcXEq : clip.srcX = clampToUsize (saturatingNeg p.x) := by rw [hclip]
        have hsrcYEq : clip.srcY = clampToUsize (saturatingNeg p.y) := by rw [hclip]
        have hwidth : clip.width = min (shapeWidth - clampToUsize (saturatingNeg p.x))
            (o.width.toNat - clampToUsize p.x) := by rw [hclip]
        have hheight : clip.height = min (shapeHeight - clampToUsize (saturatingNeg p.y))
            (o.height.toNat - clampToUsize p.y) := by rw [hclip]
        constructor
        · rw [hdstXEq, hwidth]
          exact add_le_bound (min_le_right _ _) hdstX
        · rw [hdstYEq, hheight]
          exact add_le_bound (min_le_right _ _) hdstY
        · rw [hsrcXEq, hwidth]
          exact add_le_bound (min_le_left _ _) hsrcX
        · rw [hsrcYEq, hheight]
          exact add_le_bound (min_le_left _ _) hsrcY
        · rw [hsrcXEq]
          exact clampToUsize_lt _
        · rw [hsrcYEq]
          exact clampToUsize_lt _
        · intro px hpx py hpy
          rw [PointerClip.Contains, hdstXEq, hdstYEq, hwidth, hheight,
            covers_iff hx hpx hsrcX hdstX, covers_iff hy hpy hsrcY hdstY]
        · intro px hpx
          rw [hdstXEq] at hpx ⊢
          rw [hsrcXEq, column_eq hx hsrcX hpx]
        · intro py hpy
          rw [hdstYEq] at hpy ⊢
          rw [hsrcYEq, column_eq hy hsrcY hpy]

end Clip

/-! ## The rows of a clip -/

theorem run_end_le {w h x y m : ℕ} (hy : y < h) (hm : x + m ≤ w) :
    4 * (y * w + x + m) ≤ 4 * (w * h) := by
  have hrow : (y + 1) * w ≤ h * w := Nat.mul_le_mul_right w hy
  rw [Nat.succ_mul, Nat.mul_comm h w] at hrow
  omega

/-- A frame of `w * h` pixels that fits in a `Vec`. -/
structure Fits (w h : ℕ) : Prop where
  width_lt : w < 2 ^ 32
  height_lt : h < 2 ^ 32
  length_lt : 4 * (w * h) < 2 ^ 63

section Rows

variable (b : Build) {w h width height dstX dstY row : ℕ} (hfits : Fits w h)
  (hx : dstX + width ≤ w) (hy : dstY + height ≤ h) (hrow : row < height)

include hfits hx hy hrow

theorem rowBounds_eq :
    rowBounds b (w * 4) (width * 4) dstX dstY row = .ok
      { frameStart := 4 * ((dstY + row) * w + dstX)
        frameEnd := 4 * ((dstY + row) * w + dstX) + 4 * width
        restoreStart := 4 * (row * width)
        restoreEnd := 4 * (row * width) + 4 * width } := by
  obtain ⟨hw, hh, hlength⟩ := hfits
  have hframe := run_end_le (w := w) (x := dstX) (m := width) (show dstY + row < h by omega) hx
  have hsaved : (row + 1) * width ≤ h * w := Nat.mul_le_mul (by omega) (by omega)
  have hframeTop : (dstY + row) * (w * 4) = 4 * ((dstY + row) * w) := by ring
  have hrestoreStart : row * (width * 4) = 4 * (row * width) := by ring
  rw [Nat.succ_mul, Nat.mul_comm h w] at hsaved
  rw [rowBounds, b.addUsize_of_lt (by omega), ok_bind, b.mulUsize_of_lt (by omega), ok_bind,
    b.mulUsize_of_lt (by omega), ok_bind, b.addUsize_of_lt (by omega), ok_bind,
    b.addUsize_of_lt (by omega), ok_bind, b.mulUsize_of_lt (by omega), ok_bind,
    b.addUsize_of_lt (by omega), ok_bind, pure_eq, hframeTop, hrestoreStart]
  congr 2 <;> omega

end Rows

/-! ## Saving and restoring -/

/-- Whole cells are put in with `copy_from_slice`. -/
theorem copyFromSlice_cells {l src : Bytes} {c m : ℕ} (hsrc : src.length = 4 * m)
    (hfit : 4 * c + 4 * m ≤ l.length) :
    copyFromSlice l (4 * c) (4 * c + 4 * m) src =
      (.ok (write 4 l c src) : Fallible String Bytes) := by
  rw [copyFromSlice_of_le (by omega) hfit (by omega), write, hsrc]

theorem length_cells {l : Bytes} {c m : ℕ} (hfit : 4 * c + 4 * m ≤ l.length) :
    ((l.drop (4 * c)).take (4 * m)).length = 4 * m := by
  rw [List.length_take, List.length_drop]
  omega

/-- The pixels saved for the first rows of a clip are those of the image. -/
structure PointerClip.Saves (o : Output) (clip : PointerClip) (image : Bytes) (rows : ℕ)
    (pixels : Bytes) : Prop where
  fits_x : clip.dstX + clip.width ≤ o.width.toNat
  fits_y : clip.dstY + clip.height ≤ o.height.toNat
  length_eq : pixels.length = 4 * (clip.width * clip.height)
  pixel_eq : ∀ row < rows, ∀ col < clip.width,
    pixel 4 clip.width pixels col row =
      pixel 4 o.width.toNat image (clip.dstX + col) (clip.dstY + row)

/-- The first rows of a clip are put back: the frame may differ from the image in the others. -/
structure PointerClip.PutBack (o : Output) (clip : PointerClip) (image : Bytes) (rows : ℕ)
    (frame : Bytes) : Prop where
  length_eq : frame.length = 4 * (o.width.toNat * o.height.toNat)
  pixel_eq : ∀ px < o.width.toNat, ∀ py < o.height.toNat,
    ¬ (clip.Contains px py ∧ clip.dstY + rows ≤ py) →
      pixel 4 o.width.toNat frame px py = pixel 4 o.width.toNat image px py

section Restore

variable (b : Build) {o : Output} {clip : PointerClip} {image frame pixels : Bytes} {row : ℕ}
  (hfits : Fits o.width.toNat o.height.toNat)

/-- One more row is saved. -/
theorem PointerClip.Saves.next (hsaves : clip.Saves o image row pixels)
    (himage : image.length = 4 * (o.width.toNat * o.height.toNat)) (hrow : row < clip.height) :
    clip.Saves o image (row + 1) (write 4 pixels (row * clip.width)
      ((image.drop (4 * ((clip.dstY + row) * o.width.toNat + clip.dstX))).take
        (4 * clip.width))) := by
  obtain ⟨hx, hy, hpixels, hsaved⟩ := hsaves
  have hrun := run_end_le (show clip.dstY + row < o.height.toNat by omega) hx
  have hfit := run_end_le (w := clip.width) (x := 0) (m := clip.width) hrow (by omega)
  have hsrc := length_cells (l := image)
    (c := (clip.dstY + row) * o.width.toNat + clip.dstX) (m := clip.width) (by omega)
  refine ⟨hx, hy, ?_, fun r hr col hcol => ?_⟩
  · rw [length_write (by omega), hpixels]
  · have hwrite := pixel_write (x := 0) hsrc (hfit.trans_eq hpixels.symm) (by omega) hcol r
    rw [Nat.add_zero] at hwrite
    rw [hwrite]
    rcases Nat.lt_succ_iff_lt_or_eq.1 hr with hr | rfl
    · rw [if_neg (by omega), hsaved r hr col hcol]
    · rw [if_pos (by omega), Nat.sub_zero, cell_run _ _ hcol, pixel, Nat.add_assoc]

/-- One more row is put back. -/
theorem PointerClip.PutBack.next (hback : clip.PutBack o image row frame)
    (hsaves : clip.Saves o image clip.height pixels) (hrow : row < clip.height) :
    clip.PutBack o image (row + 1) (write 4 frame ((clip.dstY + row) * o.width.toNat + clip.dstX)
      ((pixels.drop (4 * (row * clip.width))).take (4 * clip.width))) := by
  obtain ⟨hlength, hpixel⟩ := hback
  obtain ⟨hx, hy, hpixels, hsaved⟩ := hsaves
  have hrun := run_end_le (show clip.dstY + row < o.height.toNat by omega) hx
  have hfit := run_end_le (w := clip.width) (x := 0) (m := clip.width) hrow (by omega)
  have hsrc := length_cells (l := pixels) (c := row * clip.width) (m := clip.width) (by omega)
  refine ⟨?_, fun px hpx py hpy hout => ?_⟩
  · rw [length_write (by omega), hlength]
  · rw [pixel_write hsrc (hrun.trans_eq hlength.symm) hx hpx]
    split
    · rename_i hin
      obtain ⟨rfl, hlow, hhigh⟩ := hin
      have hcol : px - clip.dstX < clip.width := by omega
      have hsame := hsaved row hrow (px - clip.dstX) hcol
      rw [Nat.add_sub_cancel' hlow] at hsame
      rw [cell_run _ _ hcol, ← hsame, pixel]
    · rename_i hin
      apply hpixel px hpx py hpy
      rintro ⟨hcontains, hlow⟩
      have hcolumn := hcontains.1
      exact hout ⟨hcontains, by omega⟩

/-- Where all rows are put back, the frame is the image. -/
theorem PointerClip.PutBack.eq_image (hback : clip.PutBack o image clip.height frame)
    (himage : image.length = 4 * (o.width.toNat * o.height.toNat)) : frame = image := by
  apply ext_pixel hback.length_eq himage
  intro px hpx py hpy
  apply hback.pixel_eq px hpx py hpy
  rintro ⟨hcontains, hlow⟩
  have hrow := hcontains.2
  omega

include hfits

theorem saveRow_ok (hsaves : clip.Saves o image row pixels)
    (himage : image.length = 4 * (o.width.toNat * o.height.toNat)) (hrow : row < clip.height) :
    ∃ pixels', saveRow b image clip (o.width.toNat * 4) (clip.width * 4) row pixels =
      .ok pixels' ∧ clip.Saves o image (row + 1) pixels' := by
  refine ⟨_, ?_, hsaves.next himage hrow⟩
  obtain ⟨hx, hy, hpixels, -⟩ := hsaves
  have hrun := run_end_le (show clip.dstY + row < o.height.toNat by omega) hx
  have hsaved := run_end_le (w := clip.width) (x := 0) (m := clip.width) hrow (by omega)
  rw [saveRow, rowBounds_eq b hfits hx hy hrow, ok_bind]
  dsimp only
  rw [if_neg (by omega), slice_of_le (by omega) (by omega), ok_bind, Nat.add_sub_cancel_left,
    copyFromSlice_cells (length_cells (by omega)) (by omega)]

theorem restoreRow_ok (hback : clip.PutBack o image row frame)
    (hsaves : clip.Saves o image clip.height pixels) (hrow : row < clip.height) :
    ∃ frame', restoreRow b (clip.restore pixels) (o.width.toNat * 4) (clip.width * 4) row frame =
      .ok frame' ∧ clip.PutBack o image (row + 1) frame' := by
  refine ⟨_, ?_, hback.next hsaves hrow⟩
  have hframe := hback.length_eq
  obtain ⟨hx, hy, hpixels, -⟩ := hsaves
  have hrun := run_end_le (show clip.dstY + row < o.height.toNat by omega) hx
  have hsaved := run_end_le (w := clip.width) (x := 0) (m := clip.width) hrow (by omega)
  rw [restoreRow, PointerClip.restore, rowBounds_eq b hfits hx hy hrow, ok_bind]
  dsimp only
  rw [if_neg (by omega), slice_of_le (by omega) (by omega), ok_bind, Nat.add_sub_cancel_left,
    copyFromSlice_cells (length_cells (by omega)) (by omega)]

theorem savePointerRestore_ok {s : DesktopFrameSource}
    (hlength : s.lastFrame.length = 4 * (o.width.toNat * o.height.toNat))
    (hx : clip.dstX + clip.width ≤ o.width.toNat) (hy : clip.dstY + clip.height ≤ o.height.toNat) :
    ∃ pixels, savePointerRestore b o s clip =
        .ok { s with pointerRestore := some (clip.restore pixels) } ∧
      clip.Saves o s.lastFrame clip.height pixels := by
  have hsize : clip.width * 4 * clip.height = 4 * (clip.width * clip.height) := by ring
  have hle : clip.width * clip.height ≤ o.width.toNat * o.height.toNat :=
    Nat.mul_le_mul (by omega) (by omega)
  have hw := hfits.width_lt
  have hmax := hfits.length_lt
  have hstart : clip.Saves o s.lastFrame 0 (List.replicate (clip.width * 4 * clip.height) 0) :=
    ⟨hx, hy, by rw [List.length_replicate, hsize], fun row hrow => absurd hrow (Nat.not_lt_zero _)⟩
  obtain ⟨pixels, hloop, hsaves⟩ := forRange_ok (clip.Saves o s.lastFrame) hstart
    fun row hrow pixels hI => saveRow_ok b hfits hI hlength hrow
  refine ⟨pixels, ?_, hsaves⟩
  rw [savePointerRestore, b.mulUsize_of_lt (by omega), ok_bind, b.mulUsize_of_lt (by omega),
    ok_bind, b.mulUsize_of_lt (by omega), ok_bind, hloop, ok_bind, pure_eq]

/-- **Restoring undoes what happened inside the clip.** -/
theorem restorePointer_ok {s : DesktopFrameSource}
    (hrestore : s.pointerRestore = some (clip.restore pixels))
    (hsaves : clip.Saves o image clip.height pixels)
    (himage : image.length = 4 * (o.width.toNat * o.height.toNat))
    (hframe : s.lastFrame.length = 4 * (o.width.toNat * o.height.toNat))
    (houtside : ∀ px < o.width.toNat, ∀ py < o.height.toNat, ¬ clip.Contains px py →
      pixel 4 o.width.toNat s.lastFrame px py = pixel 4 o.width.toNat image px py) :
    restorePointer b o s = .ok { s with lastFrame := image, pointerRestore := none } := by
  have hx := hsaves.fits_x
  have hw := hfits.width_lt
  have hstart : clip.PutBack o image 0 s.lastFrame := ⟨hframe, fun px hpx py hpy hout =>
    houtside px hpx py hpy fun hin => hout ⟨hin, hin.2.1⟩⟩
  obtain ⟨frame, hloop, hback⟩ := forRange_ok (clip.PutBack o image) hstart
    fun row hrow frame hI => restoreRow_ok b hfits hI hsaves hrow
  rw [PointerClip.restore] at hloop
  rw [restorePointer, hrestore]
  dsimp only [PointerClip.restore]
  rw [b.mulUsize_of_lt (by omega), ok_bind, b.mulUsize_of_lt (by omega), ok_bind, hloop, ok_bind,
    hback.eq_image himage, pure_eq]

end Restore

/-! ## Drawing -/

/-- What a function that draws one pixel is to do: `paint` gives the new pixel. It may rely on the
frame having room for the pixels in front of it, which keeps its indices in range. -/
structure Paints (o : Output) (shapeWidth shapeHeight : ℕ) (draw : PixelDrawing)
    (paint : (shapeX shapeY : ℕ) → Bytes → Bytes) : Prop where
  length_eq : ∀ shapeX shapeY pixel, pixel.length = 4 → (paint shapeX shapeY pixel).length = 4
  draw_eq : ∀ shapeX shapeY c frame, shapeX < shapeWidth → shapeY < shapeHeight →
    shapeX + 2 ≤ 2 ^ 31 + o.width.toNat → shapeY + 2 ≤ 2 ^ 31 + o.height.toNat →
    4 * c + 4 ≤ frame.length → frame.length < 2 ^ 63 →
      draw shapeX shapeY (4 * c) frame =
        .ok (write 4 frame c (paint shapeX shapeY (cell 4 frame c)))

/-- The frame with the first rows of the clip drawn, and the first columns of the next row. -/
structure PartlyDrawn (o : Output) (clip : PointerClip)
    (paint : (shapeX shapeY : ℕ) → Bytes → Bytes) (image : Bytes) (row col : ℕ)
    (frame : Bytes) : Prop where
  length_eq : frame.length = 4 * (o.width.toNat * o.height.toNat)
  inside : ∀ px < o.width.toNat, ∀ py < o.height.toNat, clip.Contains px py →
    py < clip.dstY + row ∨ py = clip.dstY + row ∧ px < clip.dstX + col →
      pixel 4 o.width.toNat frame px py =
        paint (clip.srcX + (px - clip.dstX)) (clip.srcY + (py - clip.dstY))
          (pixel 4 o.width.toNat image px py)
  outside : ∀ px < o.width.toNat, ∀ py < o.height.toNat,
    ¬ (clip.Contains px py ∧
      (py < clip.dstY + row ∨ py = clip.dstY + row ∧ px < clip.dstX + col)) →
      pixel 4 o.width.toNat frame px py = pixel 4 o.width.toNat image px py

section Loops

variable (b : Build) {o : Output} {p : PointerState} {clip : PointerClip}
  {shapeWidth shapeHeight : ℕ} {draw : PixelDrawing}
  {paint : (shapeX shapeY : ℕ) → Bytes → Bytes} {image frame : Bytes} {row col : ℕ}

/-- One more pixel is drawn. -/
theorem PartlyDrawn.next (hdrawn : PartlyDrawn o clip paint image row col frame) {new : Bytes}
    (hlength : new.length = 4)
    (hnew : new = paint (clip.srcX + col) (clip.srcY + row)
      (pixel 4 o.width.toNat image (clip.dstX + col) (clip.dstY + row)))
    (hshows : clip.Shows o p shapeWidth shapeHeight) (hrow : row < clip.height)
    (hcol : col < clip.width) :
    PartlyDrawn o clip paint image row (col + 1)
      (write 4 frame ((clip.dstY + row) * o.width.toNat + (clip.dstX + col)) new) := by
  have hx := hshows.fits_x
  have hy := hshows.fits_y
  have hframe := hdrawn.length_eq
  have hfit := run_end_le (w := o.width.toNat) (x := clip.dstX + col) (m := 1)
    (show clip.dstY + row < o.height.toNat by omega) (by omega)
  have hwrite {px : ℕ} (hpx : px < o.width.toNat) (py : ℕ) :=
    pixel_write (m := 1) hlength (hfit.trans_eq hframe.symm) (by omega) hpx py
  constructor
  · rw [length_write (by omega), hframe]
  · intro px hpx py hpy hin hbefore
    rw [hwrite hpx]
    by_cases h : px = clip.dstX + col ∧ py = clip.dstY + row
    · obtain ⟨rfl, rfl⟩ := h
      rw [if_pos (by omega), Nat.sub_self, cell_zero hlength, hnew, Nat.add_sub_cancel_left,
        Nat.add_sub_cancel_left]
    · rw [if_neg (by omega), hdrawn.inside px hpx py hpy hin (by omega)]
  · intro px hpx py hpy hout
    rw [hwrite hpx, if_neg]
    · apply hdrawn.outside px hpx py hpy
      rintro ⟨hin, hbefore⟩
      exact hout ⟨hin, by omega⟩
    · rintro ⟨rfl, hlow, hhigh⟩
      refine hout ⟨⟨⟨?_, ?_⟩, ?_, ?_⟩, ?_⟩ <;> omega

/-- Behind the last column of a row stands the next row. -/
theorem PartlyDrawn.next_row (hdrawn : PartlyDrawn o clip paint image row clip.width frame) :
    PartlyDrawn o clip paint image (row + 1) 0 frame where
  length_eq := hdrawn.length_eq
  inside px hpx py hpy hin hbefore := by
    have hcolumn := hin.1
    exact hdrawn.inside px hpx py hpy hin (by omega)
  outside px hpx py hpy hout := by
    apply hdrawn.outside px hpx py hpy
    rintro ⟨hin, hbefore⟩
    exact hout ⟨hin, by omega⟩

section Bodies

variable (hfits : Fits o.width.toNat o.height.toNat)
  (hpaints : Paints o shapeWidth shapeHeight draw paint)
  (hshows : clip.Shows o p shapeWidth shapeHeight) (hrow : row < clip.height)

include hfits hpaints hshows hrow

theorem drawColumn_ok (hdrawn : PartlyDrawn o clip paint image row col frame)
    (hcol : col < clip.width) :
    ∃ frame', drawColumn b clip draw (clip.srcY + row)
        (4 * ((clip.dstY + row) * o.width.toNat)) col frame = .ok frame' ∧
      PartlyDrawn o clip paint image row (col + 1) frame' := by
  obtain ⟨hw, hh, hmax⟩ := hfits
  obtain ⟨hx, hy, hshapeX, hshapeY, hsrcX, hsrcY, -, -, -⟩ := id hshows
  have hframe := hdrawn.length_eq
  have hfit := run_end_le (w := o.width.toNat) (x := clip.dstX + col) (m := 1)
    (show clip.dstY + row < o.height.toNat by omega) (by omega)
  have hold : cell 4 frame ((clip.dstY + row) * o.width.toNat + (clip.dstX + col)) =
      pixel 4 o.width.toNat image (clip.dstX + col) (clip.dstY + row) :=
    hdrawn.outside (clip.dstX + col) (by omega) (clip.dstY + row) (by omega) (by omega)
  have hlength := hpaints.length_eq (clip.srcX + col) (clip.srcY + row) _
    (length_cell (hfit.trans_eq hframe.symm))
  have hindex : 4 * ((clip.dstY + row) * o.width.toNat) + (clip.dstX + col) * 4 =
      4 * ((clip.dstY + row) * o.width.toNat + (clip.dstX + col)) := by ring
  refine ⟨_, ?_, hdrawn.next hlength (by rw [hold]) hshows hrow hcol⟩
  rw [drawColumn, b.addUsize_of_lt (by omega), ok_bind, b.addUsize_of_lt (by omega), ok_bind,
    b.mulUsize_of_lt (by omega), ok_bind, b.addUsize_of_lt (by omega), ok_bind, hindex]
  exact hpaints.draw_eq _ _ _ _ (by omega) (by omega) (by omega) (by omega) (by omega) (by omega)

/-- **A row is drawn pixel by pixel.** -/
theorem drawRow_ok (hdrawn : PartlyDrawn o clip paint image row 0 frame) :
    ∃ frame', drawRow b clip draw (o.width.toNat * 4) row frame = .ok frame' ∧
      PartlyDrawn o clip paint image (row + 1) 0 frame' := by
  obtain ⟨hw, hh, hmax⟩ := id hfits
  obtain ⟨hx, hy, -, -, -, hsrcY, -, -, -⟩ := id hshows
  have hfit := run_end_le (w := o.width.toNat) (x := clip.dstX) (m := clip.width)
    (show clip.dstY + row < o.height.toNat by omega) hx
  have hframeRow : (clip.dstY + row) * (o.width.toNat * 4) =
      4 * ((clip.dstY + row) * o.width.toNat) := by ring
  obtain ⟨frame', hloop, hdrawn'⟩ := forRange_ok (PartlyDrawn o clip paint image row) hdrawn
    fun col hcol frame hI => drawColumn_ok b hfits hpaints hshows hrow hI hcol
  refine ⟨frame', ?_, hdrawn'.next_row⟩
  rw [drawRow, b.addUsize_of_lt (by omega), ok_bind, b.addUsize_of_lt (by omega), ok_bind,
    b.mulUsize_of_lt (by omega), ok_bind, hframeRow, hloop]

end Bodies

/-- **A pointer is drawn on what it covers, and restoring takes it away.** -/
theorem drawWith_ok (hfits : Fits o.width.toNat o.height.toNat) {s : DesktopFrameSource}
    (hnone : s.pointerRestore = none)
    (hlength : s.lastFrame.length = 4 * (o.width.toNat * o.height.toNat))
    (hx : s.pointer.x = Int32.minValue → s.pointer.shapeInfo.width.toNat < 2 ^ 31)
    (hy : s.pointer.y = Int32.minValue → shapeHeight < 2 ^ 31)
    (hpaints : Paints o s.pointer.shapeInfo.width.toNat shapeHeight draw paint) :
    ∃ s', drawWith b o s shapeHeight draw = .ok s' ∧ s'.pointer = s.pointer ∧
      s'.lastFrame.length = s.lastFrame.length ∧ restorePointer b o s' = .ok s ∧
      ∀ px < o.width.toNat, ∀ py < o.height.toNat,
        pixel 4 o.width.toNat s'.lastFrame px py =
          if Covers s.pointer.x.toInt s.pointer.shapeInfo.width.toNat px ∧
            Covers s.pointer.y.toInt shapeHeight py then
            paint ((px : ℤ) - s.pointer.x.toInt).toNat ((py : ℤ) - s.pointer.y.toInt).toNat
              (pixel 4 o.width.toNat s.lastFrame px py)
          else pixel 4 o.width.toNat s.lastFrame px py := by
  cases hclip : pointerClip o s.pointer s.pointer.shapeInfo.width.toNat shapeHeight with
  | none =>
    refine ⟨s, ?_, rfl, rfl, ?_, fun px hpx py hpy => ?_⟩
    · rw [drawWith, hclip]
    · rw [restorePointer, hnone]
    · rw [if_neg (pointerClip_none hx hy hclip hpx hpy)]
  | some clip =>
    have hshows := pointerClip_some hx hy hclip
    obtain ⟨pixels, hsave, hsaves⟩ :=
      savePointerRestore_ok b hfits hlength hshows.fits_x hshows.fits_y
    have hstart : PartlyDrawn o clip paint s.lastFrame 0 0 s.lastFrame := {
      length_eq := hlength
      inside := fun px hpx py hpy hin hbefore => by
        obtain ⟨hcolumn, hrow⟩ := hin
        omega
      outside := fun px hpx py hpy hout => rfl }
    obtain ⟨frame, hloop, hdrawn⟩ := forRange_ok (n := clip.height)
      (f := drawRow b clip draw (o.width.toNat * 4))
      (fun row frame => PartlyDrawn o clip paint s.lastFrame row 0 frame) hstart
      (fun row hrow frame hI => drawRow_ok b hfits hpaints hshows hrow hI)
    have hw := hfits.width_lt
    refine ⟨{ s with pointerRestore := some (clip.restore pixels), lastFrame := frame }, ?_, rfl,
      hdrawn.length_eq.trans hlength.symm, ?_, fun px hpx py hpy => ?_⟩
    · rw [drawWith, hclip]
      dsimp only
      rw [hsave, ok_bind, b.mulUsize_of_lt (by omega), ok_bind, hloop, ok_bind, pure_eq]
    · rw [restorePointer_ok b hfits rfl hsaves hlength hdrawn.length_eq fun px hpx py hpy hout =>
        hdrawn.outside px hpx py hpy fun h => hout h.1, ← hnone]
    · have hcontains := hshows.contains_iff px hpx py hpy
      by_cases hin : clip.Contains px py
      · have hpixel := hdrawn.inside px hpx py hpy hin (.inl hin.2.2)
        rw [hshows.column px hin.1.1, hshows.row py hin.2.1] at hpixel
        rw [if_pos (hcontains.1 hin), hpixel]
      · rw [if_neg fun h => hin (hcontains.2 h)]
        exact hdrawn.outside px hpx py hpy fun h => hin h.1

end Loops

end NativeVoice.Capture
