import NativeVoice.Capture.Windows
import NativeVoice.Lib.Cells

/-!
# The pixels of a pointer

What a pointer shape does to one pixel of the desktop, byte for byte, and that the loop bodies of
the three drawing functions of `src/src/capture/windows.rs` do that and nothing else.

* `colorOver`, `maskedColorOver`, `monochromeOver`: a pixel under a pixel of each type of shape.
* `u32FromBe_xor` and its companions: masks on a pixel read as a number are masks on its bytes.
* `colorPixel_eq`, `maskedColorPixel_eq`, `monochromePixel_eq`: the loop bodies.
-/

namespace NativeVoice.Capture

open Lib.Cells

/-! ## A pixel under a pointer -/

/-- A color pointer is transparent where its alpha is zero, and lies over the desktop elsewhere. -/
def colorOver : (shape image : Bytes) → Bytes
  | [s0, s1, s2, alpha], [b0, b1, b2, b3] =>
    if alpha = 0 then [b0, b1, b2, b3]
    else [blend s0 b0 alpha, blend s1 b1 alpha, blend s2 b2 alpha, 255]
  | _, image => image

/-- A masked color pointer inverts the desktop by its color where its mask is set, and hides the
desktop elsewhere. -/
def maskedColorOver : (shape image : Bytes) → Bytes
  | [s0, s1, s2, mask], [b0, b1, b2, _] =>
    if mask = 0 then [s0, s1, s2, 255] else [b0 ^^^ s0, b1 ^^^ s1, b2 ^^^ s2, 255]
  | _, image => image

/-- The bits of the two masks make a pixel black, white, transparent or inverted. -/
def monochromeOver (andBit xorBit : Bool) : (image : Bytes) → Bytes
  | [b0, b1, b2, b3] =>
    match andBit, xorBit with
    | false, false => [0, 0, 0, b3]
    | false, true => [255, 255, 255, b3]
    | true, false => [b0, b1, b2, b3]
    | true, true => [~~~b0, ~~~b1, ~~~b2, b3]
  | image => image

/-- The bit for the column `x` of a row of a mask. -/
def maskBit (byte : UInt8) (x : ℕ) : Bool := byte &&& (0x80 >>> UInt8.ofNat (x % 8)) ≠ 0

/-- The pixel of a shape with four bytes a pixel. It is shorter where the buffer ends. -/
def shapePixel (shape : Bytes) (pitch shapeX shapeY : ℕ) : Bytes :=
  (shape.drop (shapeY * pitch + shapeX * 4)).take 4

/-- The byte of a mask for the column `shapeX`. -/
def maskByte (shape : Bytes) (pitch shapeX shapeY : ℕ) : Option UInt8 :=
  shape[shapeY * pitch + shapeX / 8]?

/-- A pixel of the desktop under both masks, which leave it alone where the buffer ends. -/
def masksOver (shape : Bytes) (pitch shapeHeight shapeX shapeY : ℕ) (image : Bytes) : Bytes :=
  match maskByte shape pitch shapeX shapeY,
    maskByte shape pitch shapeX (shapeY + shapeHeight) with
  | some andByte, some xorByte =>
    monochromeOver (maskBit andByte shapeX) (maskBit xorByte shapeX) image
  | _, _ => image

theorem length_colorOver (shape : Bytes) {image : Bytes} (h : image.length = 4) :
    (colorOver shape image).length = 4 := by
  fun_cases colorOver shape image with
  | case1 => rfl
  | case2 => rfl
  | case3 => exact h

theorem length_maskedColorOver (shape : Bytes) {image : Bytes} (h : image.length = 4) :
    (maskedColorOver shape image).length = 4 := by
  fun_cases maskedColorOver shape image with
  | case1 => rfl
  | case2 => rfl
  | case3 => exact h

theorem length_monochromeOver (andBit xorBit : Bool) {image : Bytes} (h : image.length = 4) :
    (monochromeOver andBit xorBit image).length = 4 := by
  obtain ⟨b0, b1, b2, b3, rfl⟩ := List.length_eq_four.1 h
  cases andBit <;> cases xorBit <;> rfl

theorem length_masksOver (shape : Bytes) (pitch shapeHeight shapeX shapeY : ℕ) {image : Bytes}
    (h : image.length = 4) :
    (masksOver shape pitch shapeHeight shapeX shapeY image).length = 4 := by
  unfold masksOver
  split
  · exact length_monochromeOver _ _ h
  · exact h

/-! ## Pixels as numbers -/

theorem getLsbD_u32FromBe (b0 b1 b2 b3 : UInt8) {i : ℕ} (hi : i < 32) :
    (u32FromBe b3 b2 b1 b0).toBitVec.getLsbD i =
      if i < 8 then b0.toBitVec.getLsbD i
      else if i < 16 then b1.toBitVec.getLsbD (i - 8)
      else if i < 24 then b2.toBitVec.getLsbD (i - 16)
      else b3.toBitVec.getLsbD (i - 24) := by
  simp only [u32FromBe, UInt32.toBitVec_or, UInt32.toBitVec_shiftLeft, UInt8.toBitVec_toUInt32]
  simp
  grind

/-- A byte of a number, by its bits. -/
theorem toUInt8_shiftRight_eq {x k : UInt32} {byte : UInt8} {n : ℕ} (hn : k.toNat = n)
    (hlt : n < 32) (h : ∀ i < 8, x.toBitVec.getLsbD (n + i) = byte.toBitVec.getLsbD i) :
    (x >>> k).toUInt8 = byte := by
  apply UInt8.toBitVec_inj.1
  apply BitVec.eq_of_getLsbD_eq
  intro i hi
  have hmod : (k.toBitVec % 32).toNat = n := by
    rw [BitVec.toNat_umod, UInt32.toNat_toBitVec, hn]
    exact Nat.mod_eq_of_lt hlt
  rw [UInt32.toBitVec_toUInt8, BitVec.getLsbD_setWidth, decide_eq_true hi, Bool.true_and,
    UInt32.toBitVec_shiftRight, BitVec.ushiftRight_eq', BitVec.getLsbD_ushiftRight, hmod, h i hi]

/-- `to_le_bytes` undoes `from_le_bytes`. -/
theorem u32LeBytes_u32FromBe (b0 b1 b2 b3 : UInt8) :
    u32LeBytes (u32FromBe b3 b2 b1 b0) = [b0, b1, b2, b3] := by
  have hbits (i : ℕ) (hi : i < 32) := getLsbD_u32FromBe b0 b1 b2 b3 hi
  have h0 : (u32FromBe b3 b2 b1 b0 >>> 0).toUInt8 = b0 :=
    toUInt8_shiftRight_eq rfl (by decide) fun i hi => by grind
  have h1 : (u32FromBe b3 b2 b1 b0 >>> 8).toUInt8 = b1 :=
    toUInt8_shiftRight_eq rfl (by decide) fun i hi => by grind
  have h2 : (u32FromBe b3 b2 b1 b0 >>> 16).toUInt8 = b2 :=
    toUInt8_shiftRight_eq rfl (by decide) fun i hi => by grind
  have h3 : (u32FromBe b3 b2 b1 b0 >>> 24).toUInt8 = b3 :=
    toUInt8_shiftRight_eq rfl (by decide) fun i hi => by grind
  rw [UInt32.shiftRight_zero] at h0
  rw [u32LeBytes, h0, h1, h2, h3]

/-- What is done to the bits of a number is done to the bits of its bytes. -/
theorem u32FromBe_bitwise {op : UInt32 → UInt32 → UInt32} {byteOp : UInt8 → UInt8 → UInt8}
    (f : Bool → Bool → Bool)
    (hop : ∀ x y i, (op x y).toBitVec.getLsbD i = f (x.toBitVec.getLsbD i) (y.toBitVec.getLsbD i))
    (hbyteOp : ∀ x y i,
      (byteOp x y).toBitVec.getLsbD i = f (x.toBitVec.getLsbD i) (y.toBitVec.getLsbD i))
    (a0 a1 a2 a3 b0 b1 b2 b3 : UInt8) :
    op (u32FromBe a3 a2 a1 a0) (u32FromBe b3 b2 b1 b0) =
      u32FromBe (byteOp a3 b3) (byteOp a2 b2) (byteOp a1 b1) (byteOp a0 b0) := by
  apply UInt32.toBitVec_inj.1
  apply BitVec.eq_of_getLsbD_eq
  intro i hi
  rw [hop, getLsbD_u32FromBe _ _ _ _ hi, getLsbD_u32FromBe _ _ _ _ hi,
    getLsbD_u32FromBe _ _ _ _ hi]
  split
  · rw [hbyteOp]
  · split
    · rw [hbyteOp]
    · split
      · rw [hbyteOp]
      · rw [hbyteOp]

theorem u32FromBe_xor (a0 a1 a2 a3 b0 b1 b2 b3 : UInt8) :
    u32FromBe a3 a2 a1 a0 ^^^ u32FromBe b3 b2 b1 b0 =
      u32FromBe (a3 ^^^ b3) (a2 ^^^ b2) (a1 ^^^ b1) (a0 ^^^ b0) := by
  apply u32FromBe_bitwise xor
  · intro x y i
    rw [UInt32.toBitVec_xor, BitVec.getLsbD_xor]
  · intro x y i
    rw [UInt8.toBitVec_xor, BitVec.getLsbD_xor]

theorem u32FromBe_and (a0 a1 a2 a3 b0 b1 b2 b3 : UInt8) :
    u32FromBe a3 a2 a1 a0 &&& u32FromBe b3 b2 b1 b0 =
      u32FromBe (a3 &&& b3) (a2 &&& b2) (a1 &&& b1) (a0 &&& b0) := by
  apply u32FromBe_bitwise and
  · intro x y i
    rw [UInt32.toBitVec_and, BitVec.getLsbD_and]
  · intro x y i
    rw [UInt8.toBitVec_and, BitVec.getLsbD_and]

theorem u32FromBe_or (a0 a1 a2 a3 b0 b1 b2 b3 : UInt8) :
    u32FromBe a3 a2 a1 a0 ||| u32FromBe b3 b2 b1 b0 =
      u32FromBe (a3 ||| b3) (a2 ||| b2) (a1 ||| b1) (a0 ||| b0) := by
  apply u32FromBe_bitwise or
  · intro x y i
    rw [UInt32.toBitVec_or, BitVec.getLsbD_or]
  · intro x y i
    rw [UInt8.toBitVec_or, BitVec.getLsbD_or]

theorem u32FromBe_ne_zero {b3 : UInt8} (h : b3 ≠ 0) (b0 b1 b2 : UInt8) :
    u32FromBe b3 b2 b1 b0 ≠ 0 := by
  intro hzero
  have hbytes := u32LeBytes_u32FromBe b0 b1 b2 b3
  rw [hzero] at hbytes
  exact h (List.cons.inj (List.cons.inj (List.cons.inj (List.cons.inj hbytes).2).2).2).1.symm

theorem maskedColor_output (s0 s1 s2 s3 b0 b1 b2 b3 : UInt8) :
    u32LeBytes (if u32FromBe s3 s2 s1 s0 &&& 0xFF000000 ≠ 0 then
        (u32FromBe b3 b2 b1 b0 ^^^ u32FromBe s3 s2 s1 s0) ||| 0xFF000000
      else u32FromBe s3 s2 s1 s0 ||| 0xFF000000) =
      maskedColorOver [s0, s1, s2, s3] [b0, b1, b2, b3] := by
  have hmask : (0xFF000000 : UInt32) = u32FromBe (-1) 0 0 0 := by decide
  rw [hmask, u32FromBe_and, u32FromBe_xor, u32FromBe_or, u32FromBe_or]
  simp only [UInt8.and_neg_one, UInt8.and_zero, UInt8.or_neg_one, UInt8.or_zero, maskedColorOver]
  by_cases hs : s3 = 0
  · rw [if_pos hs, hs, if_neg (by decide), u32LeBytes_u32FromBe]
    rfl
  · rw [if_neg hs, if_pos (u32FromBe_ne_zero hs 0 0 0), u32LeBytes_u32FromBe]
    rfl

theorem monochrome_output (andBit xorBit : Bool) (b0 b1 b2 b3 : UInt8) :
    u32LeBytes ((u32FromBe b3 b2 b1 b0 &&& if andBit then 0xFFFFFFFF else 0xFF000000) ^^^
        if xorBit then 0x00FFFFFF else 0) =
      monochromeOver andBit xorBit [b0, b1, b2, b3] := by
  have hand : (if andBit then 0xFFFFFFFF else 0xFF000000 : UInt32) =
      u32FromBe (-1) (if andBit then -1 else 0) (if andBit then -1 else 0)
        (if andBit then -1 else 0) := by
    cases andBit <;> decide
  have hxor : (if xorBit then 0x00FFFFFF else 0 : UInt32) =
      u32FromBe 0 (if xorBit then -1 else 0) (if xorBit then -1 else 0)
        (if xorBit then -1 else 0) := by
    cases xorBit <;> decide
  rw [hand, hxor, u32FromBe_and, u32FromBe_xor, u32LeBytes_u32FromBe]
  have hones : (255 : UInt8) = -1 := rfl
  cases andBit <;> cases xorBit <;> simp [monochromeOver, hones]

theorem blend_opaque (foreground background : UInt8) :
    blend foreground background 255 = foreground := by
  have hsum : (foreground.toNat * 255 + background.toNat * (255 - 255) + 127) / 255 =
      foreground.toNat := by
    omega
  have halpha : UInt8.toNat 255 = 255 := rfl
  rw [blend, halpha, hsum, UInt8.ofNat_toNat]

/-! ## The loop bodies

A pixel of the frame is taken out of the frame, so that what the loop body reads and writes stands
behind the pixels in front of it. -/

variable (b : Build) (p : PointerState)

theorem exists_eq_append_four {l : Bytes} {i : ℕ} (h : i + 4 ≤ l.length) :
    ∃ front b0 b1 b2 b3 back, l = front ++ ([b0, b1, b2, b3] ++ back) ∧ front.length = i := by
  have htake : ((l.drop i).take 4).length = 4 := by
    rw [List.length_take, List.length_drop]
    omega
  obtain ⟨b0, b1, b2, b3, hfour⟩ := List.length_eq_four.1 htake
  refine ⟨l.take i, b0, b1, b2, b3, (l.drop i).drop 4, ?_, ?_⟩
  · rw [← hfour, List.take_append_drop, List.take_append_drop]
  · rw [List.length_take]
    omega

section Around

variable {front back : Bytes} (b0 b1 b2 b3 : UInt8)

theorem cell_around {c : ℕ} (hfront : front.length = 4 * c) :
    cell 4 (front ++ ([b0, b1, b2, b3] ++ back)) c = [b0, b1, b2, b3] := by
  rw [cell, ← hfront, List.drop_left]
  rfl

theorem write_around {c : ℕ} (hfront : front.length = 4 * c) {pixel : Bytes}
    (hpixel : pixel.length = 4) :
    write 4 (front ++ ([b0, b1, b2, b3] ++ back)) c pixel = front ++ (pixel ++ back) := by
  rw [write, hpixel, ← hfront, List.take_left, ← List.drop_drop, List.drop_left]
  rfl

theorem putPixel_around {i : ℕ} (hfront : front.length = i) (hlt : i + 4 < 2 ^ 64) {pixel : Bytes}
    (hpixel : pixel.length = 4) :
    putPixel b (front ++ ([b0, b1, b2, b3] ++ back)) i pixel = .ok (front ++ (pixel ++ back)) := by
  subst hfront
  have hlength : front.length + 4 ≤ (front ++ ([b0, b1, b2, b3] ++ back)).length := by
    rw [List.length_append, List.length_append]
    exact Nat.add_le_add_left (Nat.le_add_right 4 _) _
  rw [putPixel, b.addUsize_of_lt hlt, ok_bind,
    copyFromSlice_of_le (Nat.le_add_right _ _) hlength (by omega), List.take_left, ← List.drop_drop,
    List.drop_left]
  rfl

theorem index_around {i k : ℕ} (hfront : front.length = i) {byte : UInt8}
    (hk : [b0, b1, b2, b3][k]? = some byte) :
    index (front ++ ([b0, b1, b2, b3] ++ back)) (i + k) = (.ok byte : Fallible String UInt8) := by
  have hlt : k < 4 := (List.getElem?_eq_some_iff.1 hk).1
  rw [← hfront, index_append_right, index_eq_ok, List.getElem?_append_left hlt, hk]

theorem setIndex_around {i k : ℕ} (hfront : front.length = i) (hk : k < 4) (byte : UInt8) :
    setIndex (front ++ ([b0, b1, b2, b3] ++ back)) (i + k) byte =
      (.ok (front ++ ([b0, b1, b2, b3].set k byte ++ back)) : Fallible String Bytes) := by
  rw [← hfront, setIndex_append_right _ (by simp; omega), List.set_append_left _ _ hk]

theorem slice_around {i : ℕ} (hfront : front.length = i) :
    slice (front ++ ([b0, b1, b2, b3] ++ back)) i (i + 4) =
      (.ok [b0, b1, b2, b3] : Fallible String Bytes) := by
  subst hfront
  exact slice_append front [b0, b1, b2, b3] back

theorem readU32Le_around {i : ℕ} (hfront : front.length = i) (hlt : i + 4 < 2 ^ 64) :
    readU32Le b (front ++ ([b0, b1, b2, b3] ++ back)) i = .ok (u32FromBe b3 b2 b1 b0) := by
  have h0 : index (front ++ ([b0, b1, b2, b3] ++ back)) (i + 0) =
      (.ok b0 : Fallible String UInt8) := index_around b0 b1 b2 b3 hfront rfl
  rw [Nat.add_zero] at h0
  rw [readU32Le, h0, ok_bind, b.addUsize_of_lt (by omega), ok_bind,
    index_around b0 b1 b2 b3 hfront rfl, ok_bind, b.addUsize_of_lt (by omega), ok_bind,
    index_around b0 b1 b2 b3 hfront rfl, ok_bind, b.addUsize_of_lt (by omega), ok_bind,
    index_around b0 b1 b2 b3 hfront rfl, ok_bind, pure_eq]

theorem blendChannel_around {sfront sback : Bytes} (s0 s1 s2 alpha : UInt8) {i j k : ℕ}
    (hsfront : sfront.length = i) (hfront : front.length = j) (hi : i + 4 < 2 ^ 64)
    (hj : j + 4 < 2 ^ 64) {s byte : UInt8} (hs : [s0, s1, s2, alpha][k]? = some s)
    (hbyte : [b0, b1, b2, b3][k]? = some byte) :
    blendChannel b (sfront ++ ([s0, s1, s2, alpha] ++ sback)) alpha i j k
        (front ++ ([b0, b1, b2, b3] ++ back)) =
      .ok (front ++ ([b0, b1, b2, b3].set k (blend s byte alpha) ++ back)) := by
  have hk : k < 4 := (List.getElem?_eq_some_iff.1 hs).1
  rw [blendChannel, b.addUsize_of_lt (by omega), ok_bind, index_around s0 s1 s2 alpha hsfront hs,
    ok_bind, b.addUsize_of_lt (by omega), ok_bind, index_around b0 b1 b2 b3 hfront hbyte, ok_bind,
    ok_bind, setIndex_around _ _ _ _ hfront hk]

end Around

variable {shapeX shapeY c : ℕ} {frame : Bytes}

theorem colorOver_of_length_lt {shape : Bytes} (h : shape.length < 4) (image : Bytes) :
    colorOver shape image = image := by
  fun_cases colorOver shape image with
  | case1 => rfl
  | case2 => simp at h
  | case3 => rfl

theorem maskedColorOver_of_length_lt {shape : Bytes} (h : shape.length < 4) (image : Bytes) :
    maskedColorOver shape image = image := by
  fun_cases maskedColorOver shape image with
  | case1 => simp at h
  | case2 => simp at h
  | case3 => rfl

theorem length_shapePixel_lt
    (h : p.shape.length < shapeY * p.shapeInfo.pitch.toNat + shapeX * 4 + 4) :
    (shapePixel p.shape p.shapeInfo.pitch.toNat shapeX shapeY).length < 4 := by
  rw [shapePixel, List.length_take, List.length_drop]
  omega

theorem maskedColorPixel_eq
    (hspace : shapeY * p.shapeInfo.pitch.toNat + shapeX * 4 + 4 < 2 ^ 64)
    (hin : 4 * c + 4 ≤ frame.length) (hlength : frame.length < 2 ^ 63) :
    maskedColorPixel b p shapeX shapeY (4 * c) frame =
      .ok (write 4 frame c (maskedColorOver
        (shapePixel p.shape p.shapeInfo.pitch.toNat shapeX shapeY) (cell 4 frame c))) := by
  rw [maskedColorPixel, b.mulUsize_of_lt (by omega), ok_bind, b.mulUsize_of_lt (by omega), ok_bind,
    b.addUsize_of_lt (by omega), ok_bind, b.addUsize_of_lt (by omega), ok_bind]
  by_cases hend : p.shape.length < shapeY * p.shapeInfo.pitch.toNat + shapeX * 4 + 4
  · rw [if_pos hend, maskedColorOver_of_length_lt (length_shapePixel_lt p hend), write_cell hin,
      pure_eq]
  · rw [if_neg hend, b.addUsize_of_lt (by omega), ok_bind, if_neg (by omega)]
    obtain ⟨sfront, s0, s1, s2, s3, sback, hshape, hsfront⟩ :=
      exists_eq_append_four (Nat.le_of_not_lt hend)
    obtain ⟨front, b0, b1, b2, b3, back, rfl, hfront⟩ := exists_eq_append_four hin
    have hpixel : shapePixel p.shape p.shapeInfo.pitch.toNat shapeX shapeY = [s0, s1, s2, s3] := by
      rw [shapePixel, hshape, ← hsfront, List.drop_left]
      rfl
    rw [hpixel, cell_around _ _ _ _ hfront, ← maskedColor_output, hshape,
      readU32Le_around b s0 s1 s2 s3 hsfront hspace, ok_bind,
      readU32Le_around b b0 b1 b2 b3 hfront (by omega), ok_bind,
      putPixel_around b b0 b1 b2 b3 hfront (by omega) rfl, write_around b0 b1 b2 b3 hfront rfl]

theorem colorPixel_eq (hspace : shapeY * p.shapeInfo.pitch.toNat + shapeX * 4 + 4 < 2 ^ 64)
    (hin : 4 * c + 4 ≤ frame.length) (hlength : frame.length < 2 ^ 63) :
    colorPixel b p shapeX shapeY (4 * c) frame =
      .ok (write 4 frame c (colorOver
        (shapePixel p.shape p.shapeInfo.pitch.toNat shapeX shapeY) (cell 4 frame c))) := by
  rw [colorPixel, b.mulUsize_of_lt (by omega), ok_bind, b.mulUsize_of_lt (by omega), ok_bind,
    b.addUsize_of_lt (by omega), ok_bind, b.addUsize_of_lt (by omega), ok_bind]
  by_cases hend : p.shape.length < shapeY * p.shapeInfo.pitch.toNat + shapeX * 4 + 4
  · rw [if_pos hend, colorOver_of_length_lt (length_shapePixel_lt p hend), write_cell hin, pure_eq]
  · rw [if_neg hend, b.addUsize_of_lt (by omega), ok_bind, if_neg (by omega)]
    obtain ⟨sfront, s0, s1, s2, alpha, sback, hshape, hsfront⟩ :=
      exists_eq_append_four (Nat.le_of_not_lt hend)
    obtain ⟨front, b0, b1, b2, b3, back, rfl, hfront⟩ := exists_eq_append_four hin
    have hpixel :
        shapePixel p.shape p.shapeInfo.pitch.toNat shapeX shapeY = [s0, s1, s2, alpha] := by
      rw [shapePixel, hshape, ← hsfront, List.drop_left]
      rfl
    rw [hpixel, cell_around _ _ _ _ hfront, colorOver, hshape, b.addUsize_of_lt (by omega), ok_bind,
      index_around s0 s1 s2 alpha hsfront rfl, ok_bind]
    by_cases htransparent : alpha = 0
    · rw [if_pos htransparent, if_pos htransparent, write_around b0 b1 b2 b3 hfront rfl, pure_eq]
    · rw [if_neg htransparent, if_neg htransparent, write_around b0 b1 b2 b3 hfront rfl]
      by_cases hopaque : alpha = 255
      · rw [if_pos hopaque, ok_bind, slice_around _ _ _ _ hsfront, ok_bind,
          putPixel_around b b0 b1 b2 b3 hfront (by omega) rfl, ok_bind,
          b.addUsize_of_lt (by omega), ok_bind, setIndex_around _ _ _ _ hfront (by omega), hopaque,
          blend_opaque, blend_opaque, blend_opaque]
        rfl
      · have hrange : List.range 3 = [0, 1, 2] := rfl
        rw [if_neg hopaque, forRange, hrange]
        have hchannel (x0 x1 x2 : UInt8) {k : ℕ} {s byte : UInt8}
            (hs : [s0, s1, s2, alpha][k]? = some s) (hbyte : [x0, x1, x2, b3][k]? = some byte) :
            blendChannel b (sfront ++ ([s0, s1, s2, alpha] ++ sback)) alpha
                (shapeY * p.shapeInfo.pitch.toNat + shapeX * 4) (4 * c) k
                (front ++ ([x0, x1, x2, b3] ++ back)) =
              .ok (front ++ ([x0, x1, x2, b3].set k (blend s byte alpha) ++ back)) :=
          blendChannel_around b x0 x1 x2 b3 s0 s1 s2 alpha hsfront hfront hspace (by omega) hs hbyte
        rw [List.foldlM_cons, hchannel b0 b1 b2 rfl rfl, ok_bind, List.set_cons_zero,
          List.foldlM_cons, hchannel (blend s0 b0 alpha) b1 b2 rfl rfl, ok_bind, List.set_cons_succ,
          List.set_cons_zero, List.foldlM_cons,
          hchannel (blend s0 b0 alpha) (blend s1 b1 alpha) b2 rfl rfl, ok_bind, List.foldlM_nil,
          pure_eq, ok_bind, b.addUsize_of_lt (by omega), ok_bind]
        exact setIndex_around _ _ _ _ hfront (by omega) 255

theorem monochromePixel_eq {shapeHeight : ℕ}
    (hspace : (shapeY + shapeHeight) * p.shapeInfo.pitch.toNat + shapeX / 8 < 2 ^ 64)
    (hrow : shapeY + shapeHeight < 2 ^ 64) (hin : 4 * c + 4 ≤ frame.length)
    (hlength : frame.length < 2 ^ 63) :
    monochromePixel b p shapeHeight shapeX shapeY (4 * c) frame =
      .ok (write 4 frame c (masksOver p.shape p.shapeInfo.pitch.toNat shapeHeight shapeX shapeY
        (cell 4 frame c))) := by
  have hand : shapeY * p.shapeInfo.pitch.toNat ≤
      (shapeY + shapeHeight) * p.shapeInfo.pitch.toNat := Nat.mul_le_mul_right _ (by omega)
  rw [monochromePixel, b.mulUsize_of_lt (by omega), ok_bind, b.addUsize_of_lt (by omega), ok_bind,
    b.addUsize_of_lt hrow, ok_bind, b.mulUsize_of_lt (by omega), ok_bind,
    b.addUsize_of_lt hspace, ok_bind]
  by_cases hend : p.shape.length ≤ (shapeY + shapeHeight) * p.shapeInfo.pitch.toNat + shapeX / 8
  · have hnone : maskByte p.shape p.shapeInfo.pitch.toNat shapeX (shapeY + shapeHeight) = none :=
      List.getElem?_eq_none hend
    have hsame : masksOver p.shape p.shapeInfo.pitch.toNat shapeHeight shapeX shapeY
        (cell 4 frame c) = cell 4 frame c := by
      rw [masksOver, hnone]
      cases maskByte p.shape p.shapeInfo.pitch.toNat shapeX shapeY <;> rfl
    rw [if_pos hend, hsame, write_cell hin, pure_eq]
  · rw [if_neg hend, b.addUsize_of_lt (by omega), ok_bind, if_neg (by omega)]
    obtain ⟨front, b0, b1, b2, b3, back, rfl, hfront⟩ := exists_eq_append_four hin
    have handIndex := List.getElem?_eq_getElem (l := p.shape)
      (i := shapeY * p.shapeInfo.pitch.toNat + shapeX / 8) (by omega)
    have hxorIndex := List.getElem?_eq_getElem (l := p.shape) (Nat.lt_of_not_le hend)
    have hmasks : masksOver p.shape p.shapeInfo.pitch.toNat shapeHeight shapeX shapeY
        [b0, b1, b2, b3] = monochromeOver
          (maskBit p.shape[shapeY * p.shapeInfo.pitch.toNat + shapeX / 8] shapeX)
          (maskBit p.shape[(shapeY + shapeHeight) * p.shapeInfo.pitch.toNat + shapeX / 8] shapeX)
          [b0, b1, b2, b3] := by
      rw [masksOver, maskByte, maskByte, handIndex, hxorIndex]
    rw [cell_around _ _ _ _ hfront, hmasks, ← monochrome_output, index_eq_ok.2 handIndex, ok_bind,
      index_eq_ok.2 hxorIndex, ok_bind, readU32Le_around b b0 b1 b2 b3 hfront (by omega), ok_bind,
      putPixel_around b b0 b1 b2 b3 hfront (by omega) rfl, write_around b0 b1 b2 b3 hfront rfl]
    simp only [maskBit, decide_eq_true_eq]

end NativeVoice.Capture
