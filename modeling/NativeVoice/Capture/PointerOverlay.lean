import NativeVoice.Capture.PointerDrawing

/-!
# The pointer on the desktop

What `capture_frame` of `src/src/capture/windows.rs` keeps, over any sequence of events: the latest
image with the current pointer on it, and the pixels that give the image back.

* `overlay` is an image with a pointer drawn on it once, pixel by pixel; `Desktop` is what the
  events say, the latest image and the current pointer, which stands anywhere in the integers.
* `drawPointer_ok`: drawing makes the overlay, and restoring undoes it.
* `captureFrames_exact`: the state shows the desktop after every event, as long as every position
  fits in 32 bits relative to the output, and no pointer that is drawn stands at the least of them
  with a shape of `2 ^ 31` pixels or more.
* `not_captureFrames_exact`: there the position is negated with saturation, and the shape is drawn
  one pixel off; and a position that does not fit wraps to the other side of the output.
-/

namespace NativeVoice.Capture

open Lib.Cells

/-! ## An image under a pointer -/

/-- A pointer, with its place relative to the output. -/
structure DesktopPointer where
  visible : Bool := false
  x : ℤ := 0
  y : ℤ := 0
  shape : Bytes := []
  shapeInfo : PointerShapeInfo := {}

/-- The pointer that the state of a source stands for. -/
def PointerState.onDesktop (p : PointerState) : DesktopPointer where
  visible := p.visible
  x := p.x.toInt
  y := p.y.toInt
  shape := p.shape
  shapeInfo := p.shapeInfo

/-- The rows that a shape covers: a monochrome shape has two masks, one over the other. -/
def DesktopPointer.rows (p : DesktopPointer) : ℕ :=
  if p.shapeInfo.shapeType = monochromeShape then p.shapeInfo.height.toNat / 2
  else p.shapeInfo.height.toNat

/-- A pixel of the desktop under the pixel of a pointer. -/
def pointerPixel (p : DesktopPointer) (shapeX shapeY : ℕ) (image : Bytes) : Bytes :=
  let pitch := p.shapeInfo.pitch.toNat
  if p.shapeInfo.shapeType = colorShape then
    colorOver (shapePixel p.shape pitch shapeX shapeY) image
  else if p.shapeInfo.shapeType = maskedColorShape then
    maskedColorOver (shapePixel p.shape pitch shapeX shapeY) image
  else if p.shapeInfo.shapeType = monochromeShape then
    masksOver p.shape pitch p.rows shapeX shapeY image
  else image

/-- The pixel at `px` and `py` of the desktop, under the pointer where it is visible and covers
it. -/
def underPointer (p : DesktopPointer) (px py : ℕ) (image : Bytes) : Bytes :=
  if p.visible ∧ Covers p.x p.shapeInfo.width.toNat px ∧ Covers p.y p.rows py then
    pointerPixel p ((px : ℤ) - p.x).toNat ((py : ℤ) - p.y).toNat image
  else image

/-- **An image with a pointer drawn on it**, every pixel once. -/
def overlay (o : Output) (p : DesktopPointer) (image : Bytes) : Bytes :=
  ofCells (o.width.toNat * o.height.toNat) fun c =>
    underPointer p (c % o.width.toNat) (c / o.width.toNat) (cell 4 image c)

/-- What the events say: the latest image, and the current pointer. -/
structure Desktop (o : Output) where
  image : Option (DesktopImage o) := none
  pointer : DesktopPointer := {}

section Events

variable {o : Output}

/-- The pointer where an event puts it. -/
def CaptureEvent.placed (event : CaptureEvent o) (p : DesktopPointer) : DesktopPointer :=
  match event.position with
  | none => p
  | some position =>
    { p with
      visible := position.visible
      x := position.x.toInt - o.outputLeft.toInt
      y := position.y.toInt - o.outputTop.toInt }

/-- The pointer behind an event, with the shape that the event brings. -/
def CaptureEvent.pointerAfter (event : CaptureEvent o) (p : DesktopPointer) : DesktopPointer :=
  if event.shape.buffer = [] then event.placed p
  else
    { event.placed p with
      shape := event.shape.buffer.take event.shape.requiredSize.toNat
      shapeInfo := event.shape.shapeInfo }

def Desktop.after (d : Desktop o) (event : CaptureEvent o) : Desktop o where
  image := event.image <|> d.image
  pointer := event.pointerAfter d.pointer

def desktopOf (events : List (CaptureEvent o)) : Desktop o := events.foldl Desktop.after {}

/-- The frame that shows the desktop, which is empty before the first image. -/
def Desktop.shown (d : Desktop o) : Bytes :=
  match d.image with
  | none => []
  | some image => overlay o d.pointer image.bytes

/-- The frame without the pointer. -/
def Desktop.undrawn (d : Desktop o) : Bytes :=
  match d.image with
  | none => []
  | some image => image.bytes

/-- A place that an `i32` holds. -/
def InI32 (x : ℤ) : Prop := Int32.minValue.toInt ≤ x ∧ x ≤ Int32.maxValue.toInt

/-- The position that an event reports fits in 32 bits relative to the output. -/
def CaptureEvent.FitsI32 (event : CaptureEvent o) : Prop :=
  ∀ position ∈ event.position,
    InI32 (position.x.toInt - o.outputLeft.toInt) ∧ InI32 (position.y.toInt - o.outputTop.toInt)

/-- A pointer that `draw_pointer` draws. -/
def DesktopPointer.Drawn (p : DesktopPointer) : Prop :=
  p.visible ∧ p.shape ≠ [] ∧ (p.shapeInfo.shapeType = colorShape ∨
    p.shapeInfo.shapeType = maskedColorShape ∨ p.shapeInfo.shapeType = monochromeShape)

/-- The least position of 32 bits has no negative: a shape that stands there must be too small to
reach the output. -/
def DesktopPointer.InReach (p : DesktopPointer) : Prop :=
  p.Drawn → (p.x = Int32.minValue.toInt → p.shapeInfo.width.toNat < 2 ^ 31) ∧
    (p.y = Int32.minValue.toInt → p.rows < 2 ^ 31)

/-- Every event has a position that fits, and leaves a pointer in reach. -/
def Desktop.InReach : Desktop o → List (CaptureEvent o) → Prop
  | _, [] => True
  | d, event :: events =>
    event.FitsI32 ∧ (d.after event).pointer.InReach ∧ (d.after event).InReach events

/-- **The overlay is exact and reversible**: the events are taken in without a panic, the frame
shows the desktop, and restoring gives back the image. -/
def Exact (b : Build) (events : List (CaptureEvent o)) : Prop :=
  ∃ s, captureFrames b events = .ok s ∧ s.lastFrame = (desktopOf events).shown ∧
    ∃ s', restorePointer b o s = .ok s' ∧ s'.lastFrame = (desktopOf events).undrawn

end Events

/-! ## Overlays by their pixels -/

section Overlay

variable {o : Output} {p : DesktopPointer} {image frame : Bytes}

theorem length_pointerPixel (shapeX shapeY : ℕ) {pixel : Bytes} (h : pixel.length = 4) :
    (pointerPixel p shapeX shapeY pixel).length = 4 := by
  unfold pointerPixel
  split
  · exact length_colorOver _ h
  · split
    · exact length_maskedColorOver _ h
    · split
      · exact length_masksOver _ _ _ _ _ h
      · exact h

theorem length_underPointer (px py : ℕ) {pixel : Bytes} (h : pixel.length = 4) :
    (underPointer p px py pixel).length = 4 := by
  unfold underPointer
  split
  · exact length_pointerPixel _ _ h
  · exact h

/-- An empty shape leaves every pixel alone. -/
theorem pointerPixel_of_shape_nil (h : p.shape = []) (shapeX shapeY : ℕ) (pixel : Bytes) :
    pointerPixel p shapeX shapeY pixel = pixel := by
  have hshape : (shapePixel p.shape p.shapeInfo.pitch.toNat shapeX shapeY).length < 4 := by
    rw [shapePixel, h, List.drop_nil, List.take_nil]
    decide
  have hmask : maskByte p.shape p.shapeInfo.pitch.toNat shapeX shapeY = none := by
    rw [maskByte, h]
    rfl
  rw [pointerPixel, colorOver_of_length_lt hshape, maskedColorOver_of_length_lt hshape, masksOver,
    hmask, ite_self, ite_self, ite_self]

theorem underPointer_of_not_drawn (h : ¬ p.Drawn) (px py : ℕ) (pixel : Bytes) :
    underPointer p px py pixel = pixel := by
  unfold underPointer
  split
  · rename_i hcovered
    by_cases hshape : p.shape = []
    · rw [pointerPixel_of_shape_nil hshape]
    · rw [pointerPixel, if_neg fun htype => h ⟨hcovered.1, hshape, .inl htype⟩,
        if_neg fun htype => h ⟨hcovered.1, hshape, .inr (.inl htype)⟩,
        if_neg fun htype => h ⟨hcovered.1, hshape, .inr (.inr htype)⟩]
  · rfl

section Image

variable (himage : image.length = 4 * (o.width.toNat * o.height.toNat))

include himage

theorem length_cell_overlay {c : ℕ} (hc : c < o.width.toNat * o.height.toNat) :
    (underPointer p (c % o.width.toNat) (c / o.width.toNat) (cell 4 image c)).length = 4 :=
  length_underPointer _ _ (length_cell (by omega))

theorem length_overlay : (overlay o p image).length = 4 * (o.width.toNat * o.height.toNat) :=
  length_ofCells fun _ hc => length_cell_overlay himage hc

theorem pixel_overlay {px py : ℕ} (hpx : px < o.width.toNat) (hpy : py < o.height.toNat) :
    pixel 4 o.width.toNat (overlay o p image) px py =
      underPointer p px py (pixel 4 o.width.toNat image px py) := by
  have hw : 0 < o.width.toNat := by omega
  have hcolumn : (py * o.width.toNat + px) % o.width.toNat = px := by
    rw [Nat.mul_comm, Nat.mul_add_mod, Nat.mod_eq_of_lt hpx]
  have hrow : (py * o.width.toNat + px) / o.width.toNat = py := by
    rw [Nat.mul_comm, Nat.mul_add_div hw, Nat.div_eq_of_lt hpx, Nat.add_zero]
  rw [pixel, overlay, cell_ofCells (fun _ hc => length_cell_overlay himage hc) (row_lt hpx hpy),
    hcolumn, hrow, pixel]

/-- A frame is the overlay if its pixels are. -/
theorem eq_overlay (hframe : frame.length = 4 * (o.width.toNat * o.height.toNat))
    (h : ∀ px < o.width.toNat, ∀ py < o.height.toNat, pixel 4 o.width.toNat frame px py =
      underPointer p px py (pixel 4 o.width.toNat image px py)) : frame = overlay o p image :=
  ext_pixel hframe (length_overlay himage) fun px hpx py hpy => by
    rw [h px hpx py hpy, pixel_overlay himage hpx hpy]

/-- A pointer that is not drawn leaves the image as it is. -/
theorem overlay_of_not_drawn (h : ¬ p.Drawn) : overlay o p image = image :=
  ext_pixel (length_overlay himage) himage fun px hpx py hpy => by
    rw [pixel_overlay himage hpx hpy, underPointer_of_not_drawn h]

/-- Where there are no pixels there is nothing to draw on. -/
theorem overlay_of_nil (h : image = []) : overlay o p image = [] := by
  rw [← List.length_eq_zero_iff, length_overlay himage, ← himage, h]
  rfl

end Image

end Overlay

/-! ## Restoring -/

section Restoring

variable (b : Build) (o : Output)

/-- The frame that `restore_pointer` leaves. -/
def restoredFrame (frame : Bytes) (restore : Option PointerRestore) : Fallible String Bytes := do
  let s ← restorePointer b o { lastFrame := frame, pointerRestore := restore }
  return s.lastFrame

/-- Restoring depends on the frame and the saved pixels only, and changes nothing else. -/
theorem restorePointer_eq (s : DesktopFrameSource) :
    restorePointer b o s = restoredFrame b o s.lastFrame s.pointerRestore >>= fun frame =>
      .ok { s with lastFrame := frame, pointerRestore := none } := by
  unfold restoredFrame restorePointer
  cases hrestore : s.pointerRestore with
  | none =>
    simp only [ok_bind, pure_eq]
    rw [← hrestore]
  | some restore => simp only [bind_assoc, ok_bind, pure_eq]

end Restoring

/-! ## The three types of shapes -/

section Types

variable (b : Build) {o : Output} (p : PointerState)

theorem PointerState.rows_eq_height (h : p.shapeInfo.shapeType = colorShape ∨
    p.shapeInfo.shapeType = maskedColorShape) :
    p.onDesktop.rows = p.shapeInfo.height.toNat := by
  have hother : p.shapeInfo.shapeType ≠ monochromeShape := by
    rcases h with h | h
    · rw [h]
      decide
    · rw [h]
      decide
  exact if_neg hother

/-- No index into a shape of four bytes a pixel overflows: where it could, the output would have
more bytes than a `Vec` holds. -/
theorem shapeIndex_lt (hfits : Fits o.width.toNat o.height.toNat) {shapeX shapeY : ℕ}
    (hx : shapeX < p.shapeInfo.width.toNat) (hy : shapeY < p.shapeInfo.height.toNat)
    (hx' : shapeX + 2 ≤ 2 ^ 31 + o.width.toNat) (hy' : shapeY + 2 ≤ 2 ^ 31 + o.height.toNat) :
    shapeY * p.shapeInfo.pitch.toNat + shapeX * 4 + 4 < 2 ^ 64 := by
  have hwidth := p.shapeInfo.width.toNat_lt
  have hheight := p.shapeInfo.height.toNat_lt
  have hpitch : shapeY * p.shapeInfo.pitch.toNat ≤ shapeY * (2 ^ 32 - 1) :=
    Nat.mul_le_mul_left _ (Nat.le_pred_of_lt p.shapeInfo.pitch.toNat_lt)
  rcases Nat.lt_or_ge shapeY (2 ^ 32 - 2) with hlow | hhigh
  · omega
  · -- the last row of a shape of the greatest height
    have hcolumn : shapeX < 3 * 2 ^ 30 - 1 := by
      by_contra hcolumn
      have harea : (2 ^ 30 + 1) * 2 ^ 31 ≤ o.width.toNat * o.height.toNat :=
        Nat.mul_le_mul (by omega) (by omega)
      have hlength := hfits.length_lt
      omega
    omega

theorem maskIndex_lt {shapeHeight shapeX shapeY : ℕ}
    (hheight : 2 * shapeHeight ≤ p.shapeInfo.height.toNat)
    (hx : shapeX < p.shapeInfo.width.toNat) (hy : shapeY < shapeHeight) :
    (shapeY + shapeHeight) * p.shapeInfo.pitch.toNat + shapeX / 8 < 2 ^ 64 := by
  have hwidth := p.shapeInfo.width.toNat_lt
  have hlt := p.shapeInfo.height.toNat_lt
  have hpitch : (shapeY + shapeHeight) * p.shapeInfo.pitch.toNat ≤
      (shapeY + shapeHeight) * (2 ^ 32 - 1) :=
    Nat.mul_le_mul_left _ (Nat.le_pred_of_lt p.shapeInfo.pitch.toNat_lt)
  omega

variable (hfits : Fits o.width.toNat o.height.toNat)

include hfits

theorem colorPixel_paints (htype : p.shapeInfo.shapeType = colorShape) :
    Paints o p.shapeInfo.width.toNat p.onDesktop.rows (colorPixel b p)
      (pointerPixel p.onDesktop) := by
  have hrows := p.rows_eq_height (.inl htype)
  have hpixel : pointerPixel p.onDesktop = fun shapeX shapeY =>
      colorOver (shapePixel p.shape p.shapeInfo.pitch.toNat shapeX shapeY) := by
    funext shapeX shapeY pixel
    exact if_pos htype
  rw [hrows, hpixel]
  exact {
    length_eq := fun _ _ _ h => length_colorOver _ h
    draw_eq := fun _ _ _ _ hx hy hx' hy' hin hlength =>
      colorPixel_eq b p (shapeIndex_lt p hfits hx hy hx' hy') hin hlength }

theorem maskedColorPixel_paints (htype : p.shapeInfo.shapeType = maskedColorShape) :
    Paints o p.shapeInfo.width.toNat p.onDesktop.rows (maskedColorPixel b p)
      (pointerPixel p.onDesktop) := by
  have hrows := p.rows_eq_height (.inr htype)
  have hother : ¬ p.onDesktop.shapeInfo.shapeType = colorShape := by
    rw [PointerState.onDesktop, htype]
    decide
  have hpixel : pointerPixel p.onDesktop = fun shapeX shapeY =>
      maskedColorOver (shapePixel p.shape p.shapeInfo.pitch.toNat shapeX shapeY) := by
    funext shapeX shapeY pixel
    exact (if_neg hother).trans (if_pos htype)
  rw [hrows, hpixel]
  exact {
    length_eq := fun _ _ _ h => length_maskedColorOver _ h
    draw_eq := fun _ _ _ _ hx hy hx' hy' hin hlength =>
      maskedColorPixel_eq b p (shapeIndex_lt p hfits hx hy hx' hy') hin hlength }

omit hfits in
theorem monochromePixel_paints (htype : p.shapeInfo.shapeType = monochromeShape) :
    Paints o p.shapeInfo.width.toNat p.onDesktop.rows
      (monochromePixel b p (p.shapeInfo.height.toNat / 2)) (pointerPixel p.onDesktop) := by
  have hlt := p.shapeInfo.height.toNat_lt
  have hrows : p.onDesktop.rows = p.shapeInfo.height.toNat / 2 := if_pos htype
  have hother : ¬ p.onDesktop.shapeInfo.shapeType = colorShape ∧
      ¬ p.onDesktop.shapeInfo.shapeType = maskedColorShape := by
    rw [PointerState.onDesktop, htype]
    decide
  have hpixel : pointerPixel p.onDesktop =
      masksOver p.shape p.shapeInfo.pitch.toNat (p.shapeInfo.height.toNat / 2) := by
    funext shapeX shapeY pixel
    rw [← hrows]
    exact (if_neg hother.1).trans ((if_neg hother.2).trans (if_pos htype))
  rw [hrows, hpixel]
  exact {
    length_eq := fun _ _ _ h => length_masksOver _ _ _ _ _ h
    draw_eq := fun _ _ _ _ hx hy _ _ hin hlength =>
      monochromePixel_eq b p (maskIndex_lt p (by omega) hx hy) (by omega) hin hlength }

end Types

/-! ## Drawing a pointer -/

section Draw

variable (b : Build) {o : Output}

theorem DesktopImage.length_pixels (image : DesktopImage o) :
    image.bytes.length = 4 * (o.width.toNat * o.height.toNat) := by
  rw [image.length_eq, Nat.mul_comm]

theorem DesktopImage.fits (image : DesktopImage o) : Fits o.width.toNat o.height.toNat where
  width_lt := o.width.toNat_lt
  height_lt := o.height.toNat_lt
  length_lt := image.length_pixels ▸ image.length_lt

/-- The frame shows the image under the pointer, and restoring gives the image back. -/
def Displays (p : DesktopPointer) (image frame : Bytes) (restore : Option PointerRestore) : Prop :=
  frame = overlay o p image ∧ restoredFrame b o frame restore = .ok image

/-- A pointer drawn with the pixels of its type is the overlay. -/
theorem drawWith_displays (image : DesktopImage o) {s : DesktopFrameSource} {draw : PixelDrawing}
    (hframe : s.lastFrame = image.bytes) (hnone : s.pointerRestore = none)
    (hdrawn : s.pointer.onDesktop.Drawn) (hreach : s.pointer.onDesktop.InReach)
    (hpaints : Paints o s.pointer.shapeInfo.width.toNat s.pointer.onDesktop.rows draw
      (pointerPixel s.pointer.onDesktop)) :
    ∃ s', drawWith b o s s.pointer.onDesktop.rows draw = .ok s' ∧ s'.pointer = s.pointer ∧
      Displays b (o := o) s.pointer.onDesktop image.bytes s'.lastFrame s'.pointerRestore := by
  have himage := image.length_pixels
  obtain ⟨hx, hy⟩ := hreach hdrawn
  obtain ⟨s', hdraw, hpointer, hlength, hrestore, hpixel⟩ :=
    drawWith_ok b image.fits hnone (hframe ▸ himage) (fun h => hx (congrArg Int32.toInt h))
      (fun h => hy (congrArg Int32.toInt h)) hpaints
  refine ⟨s', hdraw, hpointer, ?_, ?_⟩
  · apply eq_overlay himage (hlength.trans (hframe ▸ himage))
    intro px hpx py hpy
    rw [hpixel px hpx py hpy, hframe]
    change _ = if s.pointer.visible ∧ Covers s.pointer.x.toInt s.pointer.shapeInfo.width.toNat px ∧
      Covers s.pointer.y.toInt s.pointer.onDesktop.rows py then _ else _
    by_cases hcovers : Covers s.pointer.x.toInt s.pointer.shapeInfo.width.toNat px ∧
        Covers s.pointer.y.toInt s.pointer.onDesktop.rows py
    · rw [if_pos hcovers, if_pos ⟨hdrawn.1, hcovers⟩]
      rfl
    · rw [if_neg hcovers, if_neg fun h => hcovers h.2]
  · rw [restorePointer_eq] at hrestore
    obtain ⟨frame, hrestored, hs⟩ := bind_eq_ok.1 hrestore
    have hsame : frame = s.lastFrame :=
      congrArg DesktopFrameSource.lastFrame (Except.ok.inj hs)
    rw [hrestored, hsame, hframe]

/-- **Drawing makes the overlay, and restoring undoes it.** -/
theorem drawPointer_ok (image : DesktopImage o) {s : DesktopFrameSource}
    (hframe : s.lastFrame = image.bytes) (hnone : s.pointerRestore = none)
    (hreach : s.pointer.onDesktop.InReach) :
    ∃ s', drawPointer b o s = .ok s' ∧ s'.pointer = s.pointer ∧
      Displays b (o := o) s.pointer.onDesktop image.bytes s'.lastFrame s'.pointerRestore := by
  have hsame (h : overlay o s.pointer.onDesktop image.bytes = image.bytes) :
      Displays b (o := o) s.pointer.onDesktop image.bytes s.lastFrame s.pointerRestore := by
    refine ⟨by rw [hframe, h], ?_⟩
    rw [hnone, hframe]
    rfl
  by_cases hempty : image.bytes = []
  · refine ⟨s, ?_, rfl, hsame ?_⟩
    · rw [drawPointer, if_pos]
      rw [hframe, hempty]
      simp
    · rw [overlay_of_nil image.length_pixels hempty, hempty]
  · by_cases hdrawn : s.pointer.onDesktop.Drawn
    · have hvisible : s.pointer.visible = true := hdrawn.1
      have hshape : s.pointer.shape ≠ [] := hdrawn.2.1
      have htype : s.pointer.shapeInfo.shapeType = colorShape ∨
          s.pointer.shapeInfo.shapeType = maskedColorShape ∨
          s.pointer.shapeInfo.shapeType = monochromeShape := hdrawn.2.2
      rw [drawPointer, if_neg (by simp [hvisible, hshape, hframe, hempty])]
      rcases htype with htype | htype | htype
      · rw [if_pos htype, drawColorPointer, ← s.pointer.rows_eq_height (.inl htype)]
        exact drawWith_displays b image hframe hnone hdrawn hreach
          (colorPixel_paints b s.pointer image.fits htype)
      · rw [if_neg (by rw [htype]; decide), if_pos htype, drawMaskedColorPointer,
          ← s.pointer.rows_eq_height (.inr htype)]
        exact drawWith_displays b image hframe hnone hdrawn hreach
          (maskedColorPixel_paints b s.pointer image.fits htype)
      · have hrows : s.pointer.onDesktop.rows = s.pointer.shapeInfo.height.toNat / 2 := if_pos htype
        rw [if_neg (by rw [htype]; decide), if_neg (by rw [htype]; decide), if_pos htype,
          drawMonochromePointer]
        have hpaints := monochromePixel_paints b (o := o) s.pointer htype
        rw [← hrows] at hpaints ⊢
        exact drawWith_displays b image hframe hnone hdrawn hreach hpaints
    · refine ⟨s, ?_, rfl, hsame (overlay_of_not_drawn image.length_pixels hdrawn)⟩
      unfold drawPointer
      split
      · rfl
      · rename_i hskip
        simp only [Bool.or_eq_true, Bool.not_eq_eq_eq_not, Bool.not_true, List.isEmpty_iff, not_or,
          Bool.not_eq_false] at hskip
        obtain ⟨⟨hvisible, hshape⟩, -⟩ := hskip
        have htype : ¬ (s.pointer.shapeInfo.shapeType = colorShape ∨
            s.pointer.shapeInfo.shapeType = maskedColorShape ∨
            s.pointer.shapeInfo.shapeType = monochromeShape) := fun htype =>
          hdrawn ⟨hvisible, hshape, htype⟩
        rw [if_neg fun h => htype (.inl h), if_neg fun h => htype (.inr (.inl h)),
          if_neg fun h => htype (.inr (.inr h))]

end Draw

/-! ## One event -/

section Step

variable (b : Build) {o : Output}

/-- The latest image is displayed under the pointer, and before the first one there is nothing. -/
def DisplaysLatest (image : Option (DesktopImage o)) (p : DesktopPointer) (frame : Bytes)
    (restore : Option PointerRestore) : Prop :=
  match image with
  | none => frame = [] ∧ restore = none
  | some image => Displays b (o := o) p image.bytes frame restore

/-- What the state keeps: the current pointer, and the latest image under it. -/
structure Keeps (s : DesktopFrameSource) (d : Desktop o) : Prop where
  pointer_eq : s.pointer.onDesktop = d.pointer
  displays : DisplaysLatest b d.image d.pointer s.lastFrame s.pointerRestore

/-- Whether an event tells something about the pointer. -/
def CaptureEvent.updatesPointer (event : CaptureEvent o) : Bool :=
  event.position.isSome || !event.shape.buffer.isEmpty

theorem CaptureEvent.pointerAfter_of_not_updates {event : CaptureEvent o}
    (h : event.updatesPointer = false) (p : DesktopPointer) : event.pointerAfter p = p := by
  rw [CaptureEvent.updatesPointer, Bool.or_eq_false_iff] at h
  obtain ⟨hposition, hshape⟩ := h
  rw [Option.isSome_eq_false_iff, Option.isNone_iff_eq_none] at hposition
  have hbuffer : event.shape.buffer = [] := by simpa using hshape
  rw [CaptureEvent.pointerAfter, if_pos hbuffer, CaptureEvent.placed, hposition]

omit b in
theorem toInt_sub_of_inI32 {x y : Int32} (h : InI32 (x.toInt - y.toInt)) :
    (x - y).toInt = x.toInt - y.toInt := by
  have hlow : -2 ^ 31 ≤ x.toInt - y.toInt := h.1
  have hhigh : x.toInt - y.toInt ≤ 2 ^ 31 - 1 := h.2
  rw [Int32.toInt_sub, Int.bmod]
  omega

/-- A difference that fits passes the overflow checks of either build. -/
theorem subI32_of_inI32 {x y : Int32} (h : InI32 (x.toInt - y.toInt)) :
    b.subI32 x y = (.ok (x - y) : Fallible String Int32) := if_pos h

theorem placePointer_ok {event : CaptureEvent o} (hfits : event.FitsI32) (p : PointerState) :
    ∃ p', placePointer b o p event.position = .ok (event.position.isSome, p') ∧
      p'.onDesktop = event.placed p.onDesktop := by
  unfold CaptureEvent.placed
  unfold CaptureEvent.FitsI32 at hfits
  cases hposition : event.position with
  | none => exact ⟨p, rfl, rfl⟩
  | some position =>
    obtain ⟨hx, hy⟩ := hfits position hposition
    refine ⟨{ p with
      visible := position.visible
      x := position.x - o.outputLeft
      y := position.y - o.outputTop }, ?_, ?_⟩
    · rw [placePointer, subI32_of_inI32 b hx, ok_bind, subI32_of_inI32 b hy, ok_bind]
      rfl
    · rw [PointerState.onDesktop, toInt_sub_of_inI32 hx, toInt_sub_of_inI32 hy]
      rfl

theorem updatePointer_ok {event : CaptureEvent o} (hfits : event.FitsI32)
    (s : DesktopFrameSource) :
    ∃ p, updatePointer b s event = .ok (event.updatesPointer, { s with pointer := p }) ∧
      p.onDesktop = event.pointerAfter s.pointer.onDesktop := by
  obtain ⟨p, hplace, hplaced⟩ := placePointer_ok b hfits s.pointer
  rw [updatePointer, hplace, ok_bind, CaptureEvent.updatesPointer, CaptureEvent.pointerAfter]
  dsimp only
  by_cases hbuffer : event.shape.buffer = []
  · refine ⟨p, ?_, by rw [if_pos hbuffer, hplaced]⟩
    rw [if_pos (by rw [hbuffer]; rfl), hbuffer, pure_eq]
    simp
  · have hfull : event.shape.buffer.isEmpty = false := by simpa using hbuffer
    refine ⟨{ p with
      shape := event.shape.buffer.take event.shape.requiredSize.toNat
      shapeInfo := event.shape.shapeInfo }, ?_, ?_⟩
    · rw [if_neg (by rw [hfull]; decide), hfull, pure_eq]
      simp
    · rw [if_neg hbuffer, ← hplaced]
      rfl

/-- A frame that changed, or a pointer that did, leads to the new overlay. -/
theorem redrawPointer_ok (image : DesktopImage o) {copied updated : Bool} {s t : DesktopFrameSource}
    (hchange : (copied || updated) = true) (hundraw : undrawPointer b o copied updated s = .ok t)
    (hframe : t.lastFrame = image.bytes) (hnone : t.pointerRestore = none)
    (hreach : t.pointer.onDesktop.InReach) :
    ∃ captured s', redrawPointer b o copied updated s = .ok (captured, s') ∧
      s'.pointer = t.pointer ∧
      Displays b (o := o) t.pointer.onDesktop image.bytes s'.lastFrame s'.pointerRestore := by
  obtain ⟨drawn, hdraw, hpointer, hdisplays⟩ := drawPointer_ok b image hframe hnone hreach
  rw [redrawPointer, hundraw, ok_bind, hchange, Bool.true_and]
  cases hempty : t.lastFrame.isEmpty with
  | false =>
    rw [if_pos (by decide), hdraw, ok_bind]
    exact ⟨_, _, rfl, hpointer, hdisplays⟩
  | true =>
    -- there is nothing to draw on, and drawing would not change the state
    have hsame : drawPointer b o t = .ok t := by
      rw [drawPointer, hempty, Bool.or_true, if_pos rfl]
    obtain rfl := Except.ok.inj (hsame.symm.trans hdraw)
    rw [if_neg (by decide)]
    exact ⟨_, _, rfl, rfl, hdisplays⟩

/-- A new image is displayed under the pointer. -/
theorem redrawPointer_image (image : DesktopImage o) (updated : Bool) {s : DesktopFrameSource}
    (hframe : s.lastFrame = image.bytes) (hreach : s.pointer.onDesktop.InReach) :
    ∃ captured s', redrawPointer b o true updated s = .ok (captured, s') ∧
      s'.pointer = s.pointer ∧
      DisplaysLatest b (some image) s.pointer.onDesktop s'.lastFrame s'.pointerRestore :=
  redrawPointer_ok b image (t := { s with pointerRestore := none }) rfl rfl hframe rfl hreach

/-- A new pointer is displayed on the same image. -/
theorem redrawPointer_pointer {image : Option (DesktopImage o)} {p : DesktopPointer}
    {s : DesktopFrameSource} (hdisplays : DisplaysLatest b image p s.lastFrame s.pointerRestore)
    (hreach : s.pointer.onDesktop.InReach) :
    ∃ captured s', redrawPointer b o false true s = .ok (captured, s') ∧ s'.pointer = s.pointer ∧
      DisplaysLatest b image s.pointer.onDesktop s'.lastFrame s'.pointerRestore := by
  cases image with
  | none =>
    obtain ⟨hframe, hnone⟩ := hdisplays
    have hundraw : undrawPointer b o false true s = .ok s := by
      rw [undrawPointer, if_neg Bool.false_ne_true, if_pos rfl, restorePointer, hnone]
    refine ⟨false, s, ?_, rfl, hframe, hnone⟩
    rw [redrawPointer, hundraw, ok_bind, hframe]
    rfl
  | some image =>
    obtain ⟨-, hrestored⟩ := hdisplays
    apply redrawPointer_ok b image
      (t := { s with lastFrame := image.bytes, pointerRestore := none }) rfl _ rfl rfl hreach
    rw [undrawPointer, if_neg Bool.false_ne_true, if_pos rfl, restorePointer_eq, hrestored, ok_bind]

/-- **An event keeps the desktop displayed** if its position fits and its pointer is in reach. -/
theorem captureFrame_ok {s : DesktopFrameSource} {d : Desktop o} {event : CaptureEvent o}
    (hkeeps : Keeps b s d) (hfits : event.FitsI32) (hreach : (d.after event).pointer.InReach) :
    ∃ captured s', captureFrame b s event = .ok (captured, s') ∧ Keeps b s' (d.after event) := by
  obtain ⟨hpointer, hdisplays⟩ := hkeeps
  unfold captureFrame
  dsimp only
  cases himage : event.image with
  | some image =>
    have hlatest : (d.after event).image = some image := by
      rw [Desktop.after, himage]
      rfl
    rw [copyAcquiredFrame]
    dsimp only
    obtain ⟨p, hupdate, hp⟩ := updatePointer_ok b hfits { s with
      captureAttemptsTotal := s.captureAttemptsTotal + 1
      lastFrame := image.bytes }
    have hafter : p.onDesktop = (d.after event).pointer := by
      rw [hp, Desktop.after, hpointer]
    rw [← hafter] at hreach
    rw [hupdate, ok_bind]
    obtain ⟨captured, s', hrun, hpointer', hdisplays'⟩ :=
      redrawPointer_image b image event.updatesPointer
        (s := countFrame true event.updatesPointer { s with
          captureAttemptsTotal := s.captureAttemptsTotal + 1
          lastFrame := image.bytes
          pointer := p }) rfl hreach
    refine ⟨captured, s', hrun, (congrArg PointerState.onDesktop hpointer').trans hafter, ?_⟩
    rw [hlatest, ← hafter]
    exact hdisplays'
  | none =>
    have hlatest : (d.after event).image = d.image := by
      rw [Desktop.after, himage]
      rfl
    rw [copyAcquiredFrame]
    dsimp only
    obtain ⟨p, hupdate, hp⟩ := updatePointer_ok b hfits { s with
      captureAttemptsTotal := s.captureAttemptsTotal + 1 }
    have hafter : p.onDesktop = (d.after event).pointer := by
      rw [hp, Desktop.after, hpointer]
    rw [hupdate, ok_bind]
    cases hupdates : event.updatesPointer with
    | true =>
      rw [← hafter] at hreach
      obtain ⟨captured, s', hrun, hpointer', hdisplays'⟩ :=
        redrawPointer_pointer b (p := d.pointer)
          (s := countFrame false true { s with
            captureAttemptsTotal := s.captureAttemptsTotal + 1
            pointer := p }) hdisplays hreach
      refine ⟨captured, s', hrun, (congrArg PointerState.onDesktop hpointer').trans hafter, ?_⟩
      rw [hlatest, ← hafter]
      exact hdisplays'
    | false =>
      refine ⟨false, _, rfl, hafter, ?_⟩
      rw [hlatest, Desktop.after, CaptureEvent.pointerAfter_of_not_updates hupdates]
      exact hdisplays

end Step

/-! ## Every run -/

section Runs

variable (b : Build) {o : Output}

/-- A run from any state that keeps the desktop. -/
theorem foldlM_captureFrame {events : List (CaptureEvent o)} {s : DesktopFrameSource}
    {d : Desktop o} (hkeeps : Keeps b s d) (hreach : d.InReach events) :
    ∃ s', (events.foldlM (fun s event => do
        let (_, s) ← captureFrame b s event
        return s) s : Fallible String DesktopFrameSource) = .ok s' ∧
      Keeps b s' (events.foldl Desktop.after d) := by
  induction events generalizing s d with
  | nil => exact ⟨s, rfl, hkeeps⟩
  | cons event events ih =>
    obtain ⟨hfits, hreach, hrest⟩ := hreach
    obtain ⟨captured, s₁, hrun, hkeeps₁⟩ := captureFrame_ok b hkeeps hfits hreach
    obtain ⟨s', hruns, hkeeps'⟩ := ih hkeeps₁ hrest
    refine ⟨s', ?_, hkeeps'⟩
    rw [List.foldlM_cons, hrun, ok_bind]
    exact hruns

theorem Desktop.InReach.take {d : Desktop o} {events : List (CaptureEvent o)}
    (h : d.InReach events) (n : ℕ) : d.InReach (events.take n) := by
  induction events generalizing d n with
  | nil =>
    rw [List.take_nil]
    exact h
  | cons event events ih =>
    cases n with
    | zero => exact trivial
    | succ n =>
      rw [List.take_succ_cons]
      exact ⟨h.1, h.2.1, ih h.2.2 n⟩

/-- **The overlay is exact and reversible after every event.** -/
theorem captureFrames_exact {events : List (CaptureEvent o)}
    (hreach : Desktop.InReach {} events) (n : ℕ) : Exact b (events.take n) := by
  have hstart : Keeps b {} ({} : Desktop o) := ⟨rfl, rfl, rfl⟩
  obtain ⟨s, hrun, -, hdisplays⟩ := foldlM_captureFrame b hstart (hreach.take n)
  change DisplaysLatest b (desktopOf (events.take n)).image _ _ _ at hdisplays
  refine ⟨s, hrun, ?_⟩
  unfold Desktop.shown Desktop.undrawn
  cases himage : (desktopOf (events.take n)).image with
  | none =>
    rw [himage] at hdisplays
    obtain ⟨hframe, hnone⟩ := hdisplays
    refine ⟨hframe, s, ?_, hframe⟩
    rw [restorePointer, hnone]
  | some image =>
    rw [himage] at hdisplays
    obtain ⟨hframe, hrestored⟩ := hdisplays
    refine ⟨hframe, { s with lastFrame := image.bytes, pointerRestore := none }, ?_, rfl⟩
    rw [restorePointer_eq, hrestored, ok_bind]

end Runs

/-! ## A pointer far away -/

/-- One pixel, at this place on the desktop. -/
def pixelOutput (outputLeft : Int32) : Output where
  width := 1
  height := 1
  outputLeft
  outputTop := 0

/-- An opaque color pointer of so many equal pixels in each direction, with a new image. -/
def opaquePointer {o : Output} (image : DesktopImage o) (x y : Int32) (width height : UInt32) :
    CaptureEvent o where
  image := some image
  position := some ⟨true, x, y⟩
  shape := ⟨[1, 2, 3, 255, 1, 2, 3, 255], 8, { shapeType := colorShape, width, height, pitch := 0 }⟩

def pixelImage (outputLeft : Int32) : DesktopImage (pixelOutput outputLeft) where
  bytes := [10, 20, 30, 40]
  length_eq := by rfl
  length_lt := by decide

/-- The pointer is moved, on the same image. -/
def movedPointer {o : Output} (y : Int32) : CaptureEvent o where
  image := none
  position := some ⟨true, 0, y⟩
  shape := ⟨[], 0, {}⟩

/-- The last row of the pointer lies on the output, and then the pointer is moved away. -/
theorem captureFrames_exact_moved :
    Exact .debug ([opaquePointer (pixelImage 0) 0 (-2) 1 3, movedPointer (-3)].take 2) := by
  have hreach : Desktop.InReach {}
      [opaquePointer (pixelImage 0) 0 (-2) 1 3, movedPointer (-3)] := by
    refine ⟨?_, fun _ => ⟨fun _ => by decide, fun _ => by decide⟩, ?_,
      fun _ => ⟨fun _ => by decide, fun _ => by decide⟩, trivial⟩
    · rintro _ ⟨⟩
      exact ⟨⟨by decide, by decide⟩, by decide, by decide⟩
    · rintro _ ⟨⟩
      exact ⟨⟨by decide, by decide⟩, by decide, by decide⟩
  exact captureFrames_exact .debug hreach 2

/-- A shape whose rows end above the output, but one is drawn; and a pointer far to the right of an
output at the left end of the desktop, which is drawn one pixel to the left of it. -/
theorem not_captureFrames_exact :
    ¬ Exact .release [opaquePointer (pixelImage 0) 0 Int32.minValue 1 0x80000000] ∧
      ¬ Exact .release [opaquePointer (pixelImage Int32.minValue) Int32.maxValue 0 2 1] := by
  have hnot {o : Output} {events : List (CaptureEvent o)}
      (hdrawn : (captureFrames .release events).map DesktopFrameSource.lastFrame =
        .ok [1, 2, 3, 255])
      (hshown : (desktopOf events).shown = [10, 20, 30, 40]) : ¬ Exact .release events := by
    rintro ⟨s, hrun, hframe, -⟩
    rw [hrun, Except.map, hframe, hshown] at hdrawn
    cases hdrawn
  exact ⟨hnot (by decide) (by decide), hnot (by decide) (by decide)⟩

end NativeVoice.Capture
