import NativeVoice.Transport.Crypto

/-!
# Desktop capture

`DesktopFrameSource` of `src/src/capture/windows.rs`: the frame it keeps, and the pointer that it
draws on it. The system reports a new desktop image, a moved pointer and a new pointer shape in any
combination; `capture_frame` takes the report in, `update_pointer` and `draw_pointer` do the work,
and the pixels below the pointer are kept aside to undo the drawing when only the pointer changes.

A report is what the calls to the system give when they succeed. The pixels of a frame are four
bytes each: blue, green, red and alpha.
-/

namespace NativeVoice.Capture

/-! ## What the system reports -/

/-- The duplicated output: its size, and its place on the desktop. -/
structure Output where
  width : UInt32
  height : UInt32
  outputLeft : Int32
  outputTop : Int32

/-- `DXGI_OUTDUPL_POINTER_SHAPE_INFO`. -/
structure PointerShapeInfo where
  shapeType : UInt32 := 0
  width : UInt32 := 0
  height : UInt32 := 0
  pitch : UInt32 := 0
  deriving DecidableEq

/-- `DXGI_OUTDUPL_POINTER_SHAPE_TYPE_MONOCHROME`. -/
def monochromeShape : UInt32 := 1

/-- `DXGI_OUTDUPL_POINTER_SHAPE_TYPE_COLOR`. -/
def colorShape : UInt32 := 2

/-- `DXGI_OUTDUPL_POINTER_SHAPE_TYPE_MASKED_COLOR`. -/
def maskedColorShape : UInt32 := 4

/-- An image of the whole output. It is held in a `Vec`, which has at most `isize::MAX` bytes. -/
structure DesktopImage (o : Output) where
  bytes : Bytes
  length_eq : bytes.length = o.width.toNat * o.height.toNat * 4
  length_lt : bytes.length < 2 ^ 63

/-- `PointerPosition`, with the position on the desktop. -/
structure PointerPosition where
  visible : Bool
  x : Int32
  y : Int32

/-- What `GetFramePointerShape` leaves in a buffer of `PointerShapeBufferSize` bytes. -/
structure PointerShape where
  buffer : Bytes
  requiredSize : UInt32
  shapeInfo : PointerShapeInfo

/-- An acquired frame: the image if there is a new one, the pointer position if the mouse was
updated, and the pointer shape (an empty buffer for `PointerShapeBufferSize == 0`). -/
structure CaptureEvent (o : Output) where
  image : Option (DesktopImage o)
  position : Option PointerPosition
  shape : PointerShape

/-! ## The state -/

structure PointerState where
  visible : Bool := false
  x : Int32 := 0
  y : Int32 := 0
  shape : Bytes := []
  shapeInfo : PointerShapeInfo := {}
  deriving DecidableEq

structure PointerClip where
  srcX : ℕ
  srcY : ℕ
  dstX : ℕ
  dstY : ℕ
  width : ℕ
  height : ℕ
  deriving DecidableEq

structure PointerRestore where
  dstX : ℕ
  dstY : ℕ
  width : ℕ
  height : ℕ
  pixels : Bytes
  deriving DecidableEq

/-- The saved pixels of a clip. -/
def PointerClip.restore (clip : PointerClip) (pixels : Bytes) : PointerRestore where
  dstX := clip.dstX
  dstY := clip.dstY
  width := clip.width
  height := clip.height
  pixels := pixels

/-- What `capture_frame` reads and changes of a `DesktopFrameSource`. -/
structure DesktopFrameSource where
  lastFrame : Bytes := []
  frameGeneration : UInt64 := 0
  pointer : PointerState := {}
  pointerRestore : Option PointerRestore := none
  framesCapturedTotal : UInt64 := 0
  framesCopiedTotal : UInt64 := 0
  pointerUpdatesTotal : UInt64 := 0
  captureAttemptsTotal : UInt64 := 0
  deriving DecidableEq

/-! ## The pointer on the output -/

/-- `i32::saturating_neg`. -/
def saturatingNeg (x : Int32) : Int32 := if x = Int32.minValue then Int32.maxValue else -x

/-- `x.max(0) as usize`. -/
def clampToUsize (x : Int32) : ℕ := (max x 0).toNatClampNeg

/-- `pointer_clip`: the part of a shape of this size that lies on the output. The tests in front of
the differences make them exact. -/
def pointerClip (o : Output) (p : PointerState) (shapeWidth shapeHeight : ℕ) :
    Option PointerClip :=
  if shapeWidth = 0 ∨ shapeHeight = 0 ∨ o.width = 0 ∨ o.height = 0 then none
  else
    let dstX := clampToUsize p.x
    let dstY := clampToUsize p.y
    let srcX := clampToUsize (saturatingNeg p.x)
    let srcY := clampToUsize (saturatingNeg p.y)
    let frameWidth := o.width.toNat
    let frameHeight := o.height.toNat
    if shapeWidth ≤ srcX ∨ shapeHeight ≤ srcY ∨ frameWidth ≤ dstX ∨ frameHeight ≤ dstY then none
    else
      let width := min (shapeWidth - srcX) (frameWidth - dstX)
      let height := min (shapeHeight - srcY) (frameHeight - dstY)
      if width = 0 ∨ height = 0 then none
      else some { srcX, srcY, dstX, dstY, width, height }

/-! ## Saving and restoring pixels -/

section Rows

variable (b : Build) (o : Output)

/-- Where a row is in the frame and among the saved pixels. -/
structure RowBounds where
  frameStart : ℕ
  frameEnd : ℕ
  restoreStart : ℕ
  restoreEnd : ℕ

/-- The bounds that the loops over the rows begin with, in both functions. -/
def rowBounds (frameStride restoreStride dstX dstY row : ℕ) : Fallible String RowBounds := do
  let frameTop ← b.mulUsize (← b.addUsize dstY row) frameStride
  let frameStart ← b.addUsize frameTop (← b.mulUsize dstX 4)
  let frameEnd ← b.addUsize frameStart restoreStride
  let restoreStart ← b.mulUsize row restoreStride
  let restoreEnd ← b.addUsize restoreStart restoreStride
  return { frameStart, frameEnd, restoreStart, restoreEnd }

/-- The loop body of `save_pointer_restore`. -/
def saveRow (lastFrame : Bytes) (clip : PointerClip) (frameStride restoreStride row : ℕ)
    (pixels : Bytes) : Fallible String Bytes := do
  let bounds ← rowBounds b frameStride restoreStride clip.dstX clip.dstY row
  if lastFrame.length < bounds.frameEnd then return pixels
  let saved ← slice lastFrame bounds.frameStart bounds.frameEnd
  copyFromSlice pixels bounds.restoreStart bounds.restoreEnd saved

/-- The loop body of `restore_pointer`. -/
def restoreRow (restore : PointerRestore) (frameStride restoreStride row : ℕ) (frame : Bytes) :
    Fallible String Bytes := do
  let bounds ← rowBounds b frameStride restoreStride restore.dstX restore.dstY row
  if frame.length < bounds.frameEnd ∨ restore.pixels.length < bounds.restoreEnd then return frame
  let saved ← slice restore.pixels bounds.restoreStart bounds.restoreEnd
  copyFromSlice frame bounds.frameStart bounds.frameEnd saved

/-- `save_pointer_restore`. -/
def savePointerRestore (s : DesktopFrameSource) (clip : PointerClip) :
    Fallible String DesktopFrameSource := do
  let frameStride ← b.mulUsize o.width.toNat 4
  let restoreStride ← b.mulUsize clip.width 4
  let size ← b.mulUsize restoreStride clip.height
  let pixels ← forRange clip.height (saveRow b s.lastFrame clip frameStride restoreStride)
    (List.replicate size 0)
  return { s with pointerRestore := some (clip.restore pixels) }

/-- `restore_pointer`. -/
def restorePointer (s : DesktopFrameSource) : Fallible String DesktopFrameSource :=
  match s.pointerRestore with
  | none => .ok s
  | some restore => do
    let frameStride ← b.mulUsize o.width.toNat 4
    let restoreStride ← b.mulUsize restore.width 4
    let lastFrame ← forRange restore.height (restoreRow b restore frameStride restoreStride)
      s.lastFrame
    return { s with lastFrame, pointerRestore := none }

end Rows

/-! ## One pixel

What the loops of the three drawing functions do for a pixel: `shapeX` and `shapeY` are its column
and its row in the shape, `frameIndex` is where it is in the frame. -/

section Pixels

variable (b : Build)

/-- `read_u32_le`. -/
def readU32Le (bytes : Bytes) (i : ℕ) : Fallible String UInt32 := do
  let b0 ← index bytes i
  let b1 ← index bytes (← b.addUsize i 1)
  let b2 ← index bytes (← b.addUsize i 2)
  let b3 ← index bytes (← b.addUsize i 3)
  return u32FromBe b3 b2 b1 b0

/-- `frame[i..i + 4].copy_from_slice(pixel)`. -/
def putPixel (frame : Bytes) (i : ℕ) (pixel : Bytes) : Fallible String Bytes := do
  copyFromSlice frame i (← b.addUsize i 4) pixel

/-- A channel of a color pointer over the frame. The sum is at most `255 * 255 + 127`, so the `u32`
does not overflow. -/
def blend (foreground background alpha : UInt8) : UInt8 :=
  UInt8.ofNat
    ((foreground.toNat * alpha.toNat + background.toNat * (255 - alpha.toNat) + 127) / 255)

/-- The innermost loop body of `draw_color_pointer`. -/
def blendChannel (shape : Bytes) (alpha : UInt8) (shapeIndex frameIndex channel : ℕ)
    (frame : Bytes) : Fallible String Bytes := do
  let foreground ← index shape (← b.addUsize shapeIndex channel)
  let background ← index frame (← b.addUsize frameIndex channel)
  setIndex frame (← b.addUsize frameIndex channel) (blend foreground background alpha)

/-- The loop body of `draw_color_pointer`. -/
def colorPixel (p : PointerState) (shapeX shapeY frameIndex : ℕ) (frame : Bytes) :
    Fallible String Bytes := do
  let shapeRow ← b.mulUsize shapeY p.shapeInfo.pitch.toNat
  let shapeIndex ← b.addUsize shapeRow (← b.mulUsize shapeX 4)
  if p.shape.length < (← b.addUsize shapeIndex 4) then return frame
  if frame.length < (← b.addUsize frameIndex 4) then return frame
  let alpha ← index p.shape (← b.addUsize shapeIndex 3)
  if alpha = 0 then return frame
  if alpha = 255 then
    let pixel ← slice p.shape shapeIndex (← b.addUsize shapeIndex 4)
    let frame ← putPixel b frame frameIndex pixel
    setIndex frame (← b.addUsize frameIndex 3) 255
  else
    let frame ← forRange 3 (blendChannel b p.shape alpha shapeIndex frameIndex) frame
    setIndex frame (← b.addUsize frameIndex 3) 255

/-- The loop body of `draw_masked_color_pointer`. -/
def maskedColorPixel (p : PointerState) (shapeX shapeY frameIndex : ℕ) (frame : Bytes) :
    Fallible String Bytes := do
  let shapeRow ← b.mulUsize shapeY p.shapeInfo.pitch.toNat
  let shapeIndex ← b.addUsize shapeRow (← b.mulUsize shapeX 4)
  if p.shape.length < (← b.addUsize shapeIndex 4) then return frame
  if frame.length < (← b.addUsize frameIndex 4) then return frame
  let shapePixel ← readU32Le b p.shape shapeIndex
  let framePixel ← readU32Le b frame frameIndex
  let output := if shapePixel &&& 0xFF000000 ≠ 0 then (framePixel ^^^ shapePixel) ||| 0xFF000000
    else shapePixel ||| 0xFF000000
  putPixel b frame frameIndex (u32LeBytes output)

/-- The loop body of `draw_monochrome_pointer`: the shape has an AND mask over an XOR mask, of
`shapeHeight` rows each. -/
def monochromePixel (p : PointerState) (shapeHeight shapeX shapeY frameIndex : ℕ) (frame : Bytes) :
    Fallible String Bytes := do
  let shapePitch := p.shapeInfo.pitch.toNat
  let byteIndex := shapeX / 8
  let bit : UInt8 := 0x80 >>> UInt8.ofNat (shapeX % 8)
  let andIndex ← b.addUsize (← b.mulUsize shapeY shapePitch) byteIndex
  let xorIndex ← b.addUsize (← b.mulUsize (← b.addUsize shapeY shapeHeight) shapePitch) byteIndex
  if p.shape.length ≤ xorIndex then return frame
  if frame.length < (← b.addUsize frameIndex 4) then return frame
  let andMask : UInt32 := if (← index p.shape andIndex) &&& bit ≠ 0 then 0xFFFFFFFF else 0xFF000000
  let xorMask : UInt32 := if (← index p.shape xorIndex) &&& bit ≠ 0 then 0x00FFFFFF else 0
  let framePixel ← readU32Le b frame frameIndex
  putPixel b frame frameIndex (u32LeBytes ((framePixel &&& andMask) ^^^ xorMask))

end Pixels

/-! ## Drawing -/

section Drawing

variable (b : Build) (o : Output)

/-- The function that draws one pixel. -/
abbrev PixelDrawing := (shapeX shapeY frameIndex : ℕ) → Bytes → Fallible String Bytes

/-- The body of the loop over the columns. -/
def drawColumn (clip : PointerClip) (draw : PixelDrawing) (shapeY frameRow col : ℕ)
    (frame : Bytes) : Fallible String Bytes := do
  let shapeX ← b.addUsize clip.srcX col
  let frameIndex ← b.addUsize frameRow (← b.mulUsize (← b.addUsize clip.dstX col) 4)
  draw shapeX shapeY frameIndex frame

/-- The body of the loop over the rows. -/
def drawRow (clip : PointerClip) (draw : PixelDrawing) (frameStride row : ℕ) (frame : Bytes) :
    Fallible String Bytes := do
  let shapeY ← b.addUsize clip.srcY row
  let frameRow ← b.mulUsize (← b.addUsize clip.dstY row) frameStride
  forRange clip.width (drawColumn b clip draw shapeY frameRow) frame

/-- A pointer of so many rows, drawn with the function that draws one pixel. -/
def drawWith (s : DesktopFrameSource) (shapeHeight : ℕ) (draw : PixelDrawing) :
    Fallible String DesktopFrameSource :=
  match pointerClip o s.pointer s.pointer.shapeInfo.width.toNat shapeHeight with
  | none => .ok s
  | some clip => do
    let s ← savePointerRestore b o s clip
    let frameStride ← b.mulUsize o.width.toNat 4
    let lastFrame ← forRange clip.height (drawRow b clip draw frameStride) s.lastFrame
    return { s with lastFrame }

/-- `draw_color_pointer`. -/
def drawColorPointer (s : DesktopFrameSource) : Fallible String DesktopFrameSource :=
  drawWith b o s s.pointer.shapeInfo.height.toNat (colorPixel b s.pointer)

/-- `draw_masked_color_pointer`. -/
def drawMaskedColorPointer (s : DesktopFrameSource) : Fallible String DesktopFrameSource :=
  drawWith b o s s.pointer.shapeInfo.height.toNat (maskedColorPixel b s.pointer)

/-- `draw_monochrome_pointer`. -/
def drawMonochromePointer (s : DesktopFrameSource) : Fallible String DesktopFrameSource :=
  let shapeHeight := s.pointer.shapeInfo.height.toNat / 2
  drawWith b o s shapeHeight (monochromePixel b s.pointer shapeHeight)

/-- `draw_pointer`. -/
def drawPointer (s : DesktopFrameSource) : Fallible String DesktopFrameSource :=
  if !s.pointer.visible || s.pointer.shape.isEmpty || s.lastFrame.isEmpty then .ok s
  else if s.pointer.shapeInfo.shapeType = colorShape then drawColorPointer b o s
  else if s.pointer.shapeInfo.shapeType = maskedColorShape then drawMaskedColorPointer b o s
  else if s.pointer.shapeInfo.shapeType = monochromeShape then drawMonochromePointer b o s
  else .ok s

/-! ## Capturing -/

/-- `copy_acquired_frame`. -/
def copyAcquiredFrame {o : Output} (s : DesktopFrameSource) (image : Option (DesktopImage o)) :
    Bool × DesktopFrameSource :=
  match image with
  | none => (false, s)
  | some image => (true, { s with lastFrame := image.bytes })

/-- The first part of `update_pointer`: a reported position is made relative to the output. -/
def placePointer (p : PointerState) :
    Option PointerPosition → Fallible String (Bool × PointerState)
  | none => .ok (false, p)
  | some position => do
    let x ← b.subI32 position.x o.outputLeft
    let y ← b.subI32 position.y o.outputTop
    return (true, { p with visible := position.visible, x, y })

/-- What `capture_frame` does about the pixels below the pointer: a new image has no pointer on it,
and behind an update of the pointer the old one goes. -/
def undrawPointer (copiedFrame updatedPointer : Bool) (s : DesktopFrameSource) :
    Fallible String DesktopFrameSource :=
  if copiedFrame then .ok { s with pointerRestore := none }
  else if updatedPointer then restorePointer b o s
  else .ok s

/-- The last part of `capture_frame`: the pointer is drawn again on what changed. -/
def redrawPointer (copiedFrame updatedPointer : Bool) (s : DesktopFrameSource) :
    Fallible String (Bool × DesktopFrameSource) := do
  let s ← undrawPointer b o copiedFrame updatedPointer s
  if (copiedFrame || updatedPointer) && !s.lastFrame.isEmpty then
    let s ← drawPointer b o s
    return (true, { s with
      frameGeneration := s.frameGeneration + 1
      framesCapturedTotal := s.framesCapturedTotal + 1 })
  else return (false, s)

variable {o}

/-- `update_pointer`. -/
def updatePointer (s : DesktopFrameSource) (event : CaptureEvent o) :
    Fallible String (Bool × DesktopFrameSource) := do
  let (updated, pointer) ← placePointer b o s.pointer event.position
  if event.shape.buffer.isEmpty then return (updated, { s with pointer })
  else
    let shape := event.shape.buffer.take event.shape.requiredSize.toNat
    return (true, { s with pointer := { pointer with shape, shapeInfo := event.shape.shapeInfo } })

/-- The counters of `capture_frame` for what it was given. -/
def countFrame (copiedFrame updatedPointer : Bool) (s : DesktopFrameSource) : DesktopFrameSource :=
  { s with
    framesCopiedTotal := if copiedFrame then s.framesCopiedTotal + 1 else s.framesCopiedTotal
    pointerUpdatesTotal :=
      if updatedPointer then s.pointerUpdatesTotal + 1 else s.pointerUpdatesTotal }

/-- `capture_frame` on an acquired frame. -/
def captureFrame (s : DesktopFrameSource) (event : CaptureEvent o) :
    Fallible String (Bool × DesktopFrameSource) := do
  let s := { s with captureAttemptsTotal := s.captureAttemptsTotal + 1 }
  let (copiedFrame, s) := copyAcquiredFrame s event.image
  let (updatedPointer, s) ← updatePointer b s event
  redrawPointer b o copiedFrame updatedPointer (countFrame copiedFrame updatedPointer s)

/-- `capture_frame` on one acquired frame after the other, from a new source. -/
def captureFrames (events : List (CaptureEvent o)) : Fallible String DesktopFrameSource :=
  events.foldlM (fun s event => do
    let (_, s) ← captureFrame b s event
    return s) {}

end Drawing

end NativeVoice.Capture
