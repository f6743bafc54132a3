import NativeVoice.Lib.Bits
import NativeVoice.Video.VP9

/-!
# The uncompressed header of VP9 key frames

What `frame_info` of `src/src/video/vp9.rs` announces of a key frame, against the syntax of the
uncompressed header. `KeyFrameHeader` has the fields of the syntax up to the frame size, and `bits`
writes them as the syntax does.

* `skipVp9ColorConfig_of_bits`: the colour configuration is skipped as a whole, but in the profiles
  1 and 3 one bit too many is skipped behind the colour space RGB.
* `frameInfo_eq_iff`: `frame_info` announces the size of the frame unless this happens and the bit
  makes a difference.
-/

namespace NativeVoice.Video

open Lib.Bits

/-! ## The reader -/

namespace BitReader

/-- The bits that are left. -/
def bits (r : BitReader) : List Bool := (ofBytes r.data).drop r.offset

variable {r : BitReader} {b : Bool} {bs rest : List Bool}

theorem bit_eq : ∀ (byte : UInt8) (i : Fin 8),
    (byte >>> UInt8.ofNat (7 - i)) &&& 1 = (byte.toNat.testBit (7 - i)).toUInt8 := by
  rintro ⟨byte⟩
  revert byte
  decide

theorem readBit_of_bits (h : r.bits = b :: rest) :
    ∃ r', r.readBit = (some b.toUInt8, r') ∧ r'.bits = rest := by
  have hget : (ofBytes r.data)[r.offset]? = some b := by
    rw [← List.head?_drop, ← bits, h, List.head?_cons]
  rw [getElem?_ofBytes] at hget
  obtain ⟨byte, hbyte, rfl⟩ := Option.map_eq_some_iff.mp hget
  refine ⟨{ r with offset := r.offset + 1 }, ?_, ?_⟩
  · rw [readBit, hbyte]
    dsimp only
    rw [bit_eq byte ⟨r.offset % 8, Nat.mod_lt _ (by omega)⟩]
  · rw [bits, ← List.drop_drop, ← bits, h, List.drop_one, List.tail_cons]

theorem readBit_of_nil (h : r.bits = []) : r.readBit = (none, r) := by
  have hget : (ofBytes r.data)[r.offset]? = none := by
    rw [← List.head?_drop, ← bits, h, List.head?_nil]
  rw [getElem?_ofBytes, Option.map_eq_none_iff] at hget
  rw [readBit, hget]

theorem toNat_shift_or {v : UInt32} {b : Bool} (h : 2 * v.toNat + b.toNat < 2 ^ 32) :
    ((v <<< 1) ||| b.toUInt8.toUInt32).toNat = 2 * v.toNat + b.toNat := by
  have hb : b.toUInt8.toUInt32.toNat = b.toNat := by cases b <;> rfl
  have hshift : (v <<< 1).toNat = v.toNat <<< 1 := by
    rw [UInt32.toNat_shiftLeft]
    refine Nat.mod_eq_of_lt ?_
    change v.toNat <<< 1 < _
    rw [Nat.shiftLeft_eq]
    omega
  rw [UInt32.toNat_or, hb, hshift, ← Nat.shiftLeft_add_eq_or_of_lt b.toNat_lt, Nat.shiftLeft_eq,
    Nat.mul_comm]

theorem readBitsFrom_of_bits {v : UInt32} (h : r.bits = bs ++ rest)
    (hv : valueFrom v.toNat bs < 2 ^ 32) :
    ∃ r', r.readBitsFrom v bs.length = (some (UInt32.ofNat (valueFrom v.toNat bs)), r') ∧
      r'.bits = rest := by
  induction bs generalizing r v with
  | nil => exact ⟨r, by simp [readBitsFrom], h⟩
  | cons b bs ih =>
    obtain ⟨r', hread, hr'⟩ := readBit_of_bits h
    rw [valueFrom_cons] at hv ⊢
    have hnext := toNat_shift_or ((le_valueFrom _ bs).trans_lt hv)
    rw [List.length_cons, readBitsFrom, hread]
    rw [← hnext] at hv ⊢
    exact ih hr' hv

theorem readBits_of_bits (hlen : bs.length ≤ 32) (h : r.bits = bs ++ rest) :
    ∃ r', r.readBits bs.length = (some (UInt32.ofNat (value bs)), r') ∧ r'.bits = rest :=
  readBitsFrom_of_bits (v := 0) h
    ((value_lt bs).trans_le (Nat.pow_le_pow_right (by omega) hlen))

/-- A field of at most 32 bits is read as the number in it. -/
theorem readBits_field {n v : ℕ} (hn : n ≤ 32) (hv : v < 2 ^ n) (h : r.bits = field n v ++ rest) :
    ∃ r', r.readBits n = (some (UInt32.ofNat v), r') ∧ r'.bits = rest := by
  obtain ⟨r', hread, hr'⟩ := readBits_of_bits (by rwa [length_field]) h
  rw [length_field, value_field, Nat.mod_eq_of_lt hv] at hread
  exact ⟨r', hread, hr'⟩

theorem readBitsFrom_of_short {v : UInt32} {n : ℕ} (h : r.bits.length < n) :
    (r.readBitsFrom v n).1 = none := by
  induction n generalizing r v with
  | zero => omega
  | succ n ih =>
    rw [readBitsFrom]
    cases hbits : r.bits with
    | nil => rw [readBit_of_nil hbits]
    | cons b bs =>
      obtain ⟨r', hread, hr'⟩ := readBit_of_bits hbits
      rw [hread]
      rw [hbits, ← hr', List.length_cons] at h
      exact ih (by omega)

theorem skipBits_of_bits (h : r.bits = bs ++ rest) :
    ∃ r', skipBits r bs.length = (true, r') ∧ r'.bits = rest := by
  induction bs generalizing r with
  | nil => exact ⟨r, rfl, h⟩
  | cons b bs ih =>
    obtain ⟨r', hread, hr'⟩ := readBit_of_bits h
    rw [List.length_cons, skipBits, hread]
    exact ih hr'

end BitReader

/-! ## Key frames -/

def CS_RGB : Fin 8 := 7

/-- The fields of the uncompressed header of a key frame up to the frame size. The profile and the
colour space decide which of them are written. -/
structure KeyFrameHeader where
  profile : Fin 4
  showFrame : Bool
  errorResilient : Bool
  twelveBit : Bool
  colorSpace : Fin 8
  colorRange : Bool
  subsamplingX : Bool
  subsamplingY : Bool
  width : UInt16
  height : UInt16
  width_pos : width ≠ 0
  height_pos : height ≠ 0

namespace KeyFrameHeader

variable (h : KeyFrameHeader)

/-- `color_config()`. -/
def colorConfig : List Bool :=
  (if h.profile ≥ 2 then [h.twelveBit] else []) ++ field 3 h.colorSpace ++
    if h.colorSpace ≠ CS_RGB then
      h.colorRange ::
        if h.profile = 1 ∨ h.profile = 3 then [h.subsamplingX, h.subsamplingY, false] else []
    else if h.profile = 1 ∨ h.profile = 3 then [false] else []

/-- `frame_size()`. -/
def frameSize : List Bool :=
  field 16 (h.width.toNat - 1) ++ field 16 (h.height.toNat - 1)

/-- `uncompressed_header()`, up to the frame size. -/
def bits : List Bool :=
  field 2 2 ++ (h.profile.val.testBit 0 :: h.profile.val.testBit 1 ::
    ((if h.profile = 3 then [false] else []) ++
      (false :: false :: h.showFrame :: h.errorResilient :: (field 24 0x498342 ++ (h.colorConfig ++
        h.frameSize)))))

/-- The colour space RGB in a profile with a reserved bit behind it. -/
def ReservedRgb : Prop := (h.profile = 1 ∨ h.profile = 3) ∧ h.colorSpace = CS_RGB

end KeyFrameHeader

namespace VP9Packetizer

open BitReader

variable {h : KeyFrameHeader} {r : BitReader} {rest : List Bool}

theorem readDimension_of_bits {bs : List Bool} (hlen : bs.length = 16) (hr : r.bits = bs ++ rest) :
    ∃ r', readDimension r =
      (if value bs + 1 < 2 ^ 16 then some (UInt16.ofNat (value bs + 1)) else none, r') ∧
        r'.bits = rest := by
  obtain ⟨r', hread, hr'⟩ := readBits_of_bits (by omega) hr
  rw [hlen] at hread
  have hnat : (UInt32.ofNat (value bs)).toNat = value bs := by
    rw [UInt32.toNat_ofNat', Nat.mod_eq_of_lt]
    exact (value_lt bs).trans_le (Nat.pow_le_pow_right (by omega) (by omega))
  refine ⟨r', ?_, hr'⟩
  rw [readDimension, hread]
  dsimp only
  rw [hnat]

/-- A dimension is read where it is written. -/
theorem readDimension_field {w : UInt16} (hw : w ≠ 0)
    (hr : r.bits = field 16 (w.toNat - 1) ++ rest) :
    ∃ r', readDimension r = (some w, r') ∧ r'.bits = rest := by
  obtain ⟨r', hread, hr'⟩ := readDimension_of_bits (length_field _ _) hr
  have hpos : w.toNat ≠ 0 := fun h => hw (UInt16.toNat_inj.mp h)
  have hlt := w.toNat_lt
  have hvalue : (w.toNat - 1) % 2 ^ 16 + 1 = w.toNat := by omega
  rw [value_field, hvalue, if_pos hlt, UInt16.ofNat_toNat] at hread
  exact ⟨r', hread, hr'⟩

theorem one_iff {w : UInt16} (hw : w ≠ 0) {b : Bool} :
    2 * ((w.toNat - 1) % 2 ^ 15) + b.toNat = w.toNat - 1 ↔ w = 1 ∧ b = false := by
  have hpos : w.toNat ≠ 0 := fun h => hw (UInt16.toNat_inj.mp h)
  have hlt := w.toNat_lt
  have hone : w = 1 ↔ w.toNat = 1 := UInt16.toNat_inj.symm
  rw [hone]
  cases b <;> simp only [Bool.toNat_true, Bool.toNat_false, Bool.true_eq_false, and_true, and_false,
    iff_false] <;> omega

/-- One bit late, a dimension is still read if it is one and the bit behind it is not set. -/
theorem readDimension_late {w : UInt16} (hw : w ≠ 0) {b : Bool}
    (hr : r.bits = field 15 (w.toNat - 1) ++ b :: rest) :
    ∃ r' dimension, readDimension r = (dimension, r') ∧ r'.bits = rest ∧
      (dimension = some w ↔ w = 1 ∧ b = false) := by
  rw [List.append_cons] at hr
  obtain ⟨r', hread, hr'⟩ := readDimension_of_bits (by simp) hr
  refine ⟨r', _, hread, hr', ?_⟩
  have hvalue : value (field 15 (w.toNat - 1) ++ [b]) = 2 * ((w.toNat - 1) % 2 ^ 15) + b.toNat := by
    rw [value_append, value_field, value_cons]
    simp [value, Nat.mul_comm]
  rw [hvalue, ← one_iff hw]
  have hpos : w.toNat ≠ 0 := fun h => hw (UInt16.toNat_inj.mp h)
  have hlt := w.toNat_lt
  have hb := b.toNat_lt
  split
  case isTrue h =>
    rw [Option.some.injEq, ← UInt16.toNat_inj, UInt16.toNat_ofNat', Nat.mod_eq_of_lt h]
    omega
  case isFalse h =>
    simp only [reduceCtorEq, false_iff]
    omega

theorem readDimension_short {v : ℕ} (hr : r.bits = field 15 v) : (readDimension r).1 = none := by
  have hnone := readBitsFrom_of_short (r := r) (v := 0) (n := 16) (by rw [hr]; simp)
  rw [readDimension, readBits]
  generalize r.readBitsFrom 0 16 = read at hnone
  obtain ⟨dimension, r'⟩ := read
  obtain rfl : dimension = none := hnone
  rfl

theorem profile_cases : ∀ p : Fin 4, (UInt8.ofNat p ≥ 2 ↔ p ≥ 2) ∧
    (UInt8.ofNat p = 1 || UInt8.ofNat p = 3) = decide (p = 1 ∨ p = 3) := by
  decide

theorem ofNat_eq_seven_iff : ∀ c : Fin 8, UInt32.ofNat c = 7 ↔ c = CS_RGB := by
  decide

/-- The bit depth and the colour space are read alike in all cases. -/
theorem skipVp9ColorConfig_eq {tail : List Bool}
    (hr : r.bits = (if h.profile ≥ 2 then [h.twelveBit] else []) ++ field 3 h.colorSpace ++ tail) :
    ∃ r' : BitReader, r'.bits = tail ∧ skipVp9ColorConfig r (UInt8.ofNat h.profile) =
      if h.colorSpace = CS_RGB then
        if h.profile = 1 ∨ h.profile = 3 then skipBits r' 2 else (true, r')
      else match skipBits r' 1 with
        | (false, reader) => (false, reader)
        | (true, reader) =>
          if h.profile = 1 ∨ h.profile = 3 then skipBits reader 3 else (true, reader) := by
  obtain ⟨hge, hodd⟩ := profile_cases h.profile
  rw [List.append_assoc] at hr
  obtain ⟨r₁, hdepth, hr₁⟩ : ∃ r', (if UInt8.ofNat h.profile ≥ 2 then skipBits r 1 else (true, r)) =
      (true, r') ∧ r'.bits = field 3 h.colorSpace ++ tail := by
    by_cases hp : h.profile ≥ 2
    · rw [if_pos (hge.mpr hp)]
      rw [if_pos hp] at hr
      exact skipBits_of_bits hr
    · rw [if_neg (mt hge.mp hp)]
      rw [if_neg hp] at hr
      exact ⟨r, rfl, hr⟩
  obtain ⟨r₂, hspace, hr₂⟩ := readBits_field (by decide) h.colorSpace.isLt hr₁
  refine ⟨r₂, hr₂, ?_⟩
  rcases hskip : skipBits r₂ 1 with ⟨_ | _, reader⟩ <;>
    simp only [skipVp9ColorConfig, hdepth, hspace, hskip, hodd, ofNat_eq_seven_iff,
      decide_eq_true_eq, Bool.not_true, Bool.false_eq_true, if_false]

theorem skipVp9ColorConfig_of_bits (hr : r.bits = h.colorConfig ++ rest) (hrgb : ¬ h.ReservedRgb) :
    ∃ r', skipVp9ColorConfig r (UInt8.ofNat h.profile) = (true, r') ∧ r'.bits = rest := by
  rw [KeyFrameHeader.colorConfig, List.append_assoc] at hr
  obtain ⟨r₁, hr₁, heq⟩ := skipVp9ColorConfig_eq hr
  rw [heq]
  by_cases hc : h.colorSpace = CS_RGB
  · have hp : ¬ (h.profile = 1 ∨ h.profile = 3) := fun hp => hrgb ⟨hp, hc⟩
    rw [if_neg (not_not.mpr hc), if_neg hp] at hr₁
    rw [if_pos hc, if_neg hp]
    exact ⟨r₁, rfl, hr₁⟩
  · rw [if_pos hc, List.cons_append] at hr₁
    have hr₁' : r₁.bits = [_] ++ _ := hr₁
    obtain ⟨r₂, hrange, hr₂⟩ := skipBits_of_bits hr₁'
    rw [if_neg hc, show skipBits r₁ 1 = (true, r₂) from hrange]
    by_cases hp : h.profile = 1 ∨ h.profile = 3
    · rw [if_pos hp] at hr₂
      dsimp only
      rw [if_pos hp]
      exact skipBits_of_bits hr₂
    · rw [if_neg hp] at hr₂
      dsimp only
      rw [if_neg hp]
      exact ⟨r₂, rfl, hr₂⟩

/-- Behind RGB two bits are skipped where the syntax has one. -/
theorem skipVp9ColorConfig_of_reservedRgb {b : Bool} (hr : r.bits = h.colorConfig ++ b :: rest)
    (hrgb : h.ReservedRgb) :
    ∃ r', skipVp9ColorConfig r (UInt8.ofNat h.profile) = (true, r') ∧ r'.bits = rest := by
  obtain ⟨hp, hc⟩ := hrgb
  rw [KeyFrameHeader.colorConfig, List.append_assoc] at hr
  obtain ⟨r₁, hr₁, heq⟩ := skipVp9ColorConfig_eq hr
  rw [if_neg (not_not.mpr hc), if_pos hp] at hr₁
  rw [heq, if_pos hc, if_pos hp]
  have hr₁' : r₁.bits = [false, b] ++ rest := hr₁
  exact skipBits_of_bits hr₁'

/-- The size that is read behind the colour configuration. -/
def frameInfoOfSize (reader : BitReader) : VP9FrameInfo :=
  let (width, reader) := readDimension reader
  let (height, _) := readDimension reader
  { predicted := false, resolution := width.bind fun w => height.map fun h => (w, h) }

theorem profile_bits : ∀ p : Fin 4,
    (p.val.testBit 0).toUInt8 ||| ((p.val.testBit 1).toUInt8 <<< 1) = UInt8.ofNat p ∧
      (UInt8.ofNat p = 3 ↔ p = 3) := by
  decide

theorem frameInfo_of_bits {frame : Bytes} (hr : ofBytes frame = h.bits ++ rest) :
    ∃ r : BitReader, r.bits = h.colorConfig ++ (h.frameSize ++ rest) ∧
      frameInfo frame = match skipVp9ColorConfig r (UInt8.ofNat h.profile) with
        | (false, _) => { predicted := false, resolution := none }
        | (true, reader) => frameInfoOfSize reader := by
  have hr₀ : (⟨frame, 0⟩ : BitReader).bits = field 2 2 ++ (h.profile.val.testBit 0 ::
      h.profile.val.testBit 1 :: ((if h.profile = 3 then [false] else []) ++ (false :: false ::
        h.showFrame :: h.errorResilient :: (field 24 0x498342 ++ (h.colorConfig ++
          (h.frameSize ++ rest)))))) := by
    rw [BitReader.bits, List.drop_zero, hr]
    simp only [KeyFrameHeader.bits, List.append_assoc, List.cons_append]
  obtain ⟨hprofile, hthree⟩ := profile_bits h.profile
  obtain ⟨r₁, hmarker, hr₁⟩ := readBits_field (by decide) (by decide) hr₀
  obtain ⟨r₂, hlow, hr₂⟩ := readBit_of_bits hr₁
  obtain ⟨r₃, hhigh, hr₃⟩ := readBit_of_bits hr₂
  obtain ⟨r₄, hreserved, hr₄⟩ : ∃ r',
      (if UInt8.ofNat h.profile = 3 then skipBits r₃ 1 else (true, r₃)) = (true, r') ∧
        r'.bits = false :: false :: h.showFrame :: h.errorResilient ::
          (field 24 0x498342 ++ (h.colorConfig ++ (h.frameSize ++ rest))) := by
    by_cases hp : h.profile = 3
    · rw [if_pos (hthree.mpr hp)]
      rw [if_pos hp] at hr₃
      exact skipBits_of_bits hr₃
    · rw [if_neg (mt hthree.mp hp)]
      rw [if_neg hp] at hr₃
      exact ⟨r₃, rfl, hr₃⟩
  obtain ⟨r₅, hexisting, hr₅⟩ := readBit_of_bits hr₄
  obtain ⟨r₆, htype, hr₆⟩ := readBit_of_bits hr₅
  obtain ⟨r₇, hshow, hr₇⟩ := readBit_of_bits hr₆
  obtain ⟨r₈, herror, hr₈⟩ := readBit_of_bits hr₇
  obtain ⟨r₉, hsync, hr₉⟩ := readBits_field (by decide) (by decide) hr₈
  refine ⟨r₉, hr₉, ?_⟩
  simp only [frameInfo, hmarker, hlow, hhigh, hprofile, frameInfoOfProfile, hreserved, hexisting,
    htype, hshow, herror, hsync]
  rfl

theorem frameInfoOfSize_of_bits (hr : r.bits = h.frameSize ++ rest) :
    frameInfoOfSize r = { predicted := false, resolution := some (h.width, h.height) } := by
  rw [KeyFrameHeader.frameSize, List.append_assoc] at hr
  obtain ⟨r₁, hwidth, hr₁⟩ := readDimension_field h.width_pos hr
  obtain ⟨r₂, hheight, -⟩ := readDimension_field h.height_pos hr₁
  simp only [frameInfoOfSize, hwidth, hheight, Option.bind_some, Option.map_some]

theorem frameInfoOfSize_late (hr : r.bits = (h.frameSize ++ rest).tail) :
    frameInfoOfSize r = { predicted := false, resolution := some (h.width, h.height) } ↔
      h.width = 1 ∧ h.height = 1 ∧ rest.head? = some false := by
  have hr' : r.bits = field 15 (h.width.toNat - 1) ++ (h.height.toNat - 1).testBit 15 ::
      (field 15 (h.height.toNat - 1) ++ rest) := by
    rw [hr, KeyFrameHeader.frameSize, List.append_assoc]
    rfl
  obtain ⟨r₁, width, hwidth, hr₁, hwidth_iff⟩ := readDimension_late h.width_pos hr'
  have hone : h.height = 1 → (h.height.toNat - 1).testBit 15 = false := fun hh => by rw [hh]; rfl
  have hsize : frameInfoOfSize r = { predicted := false, resolution := some (h.width, h.height) } ↔
      width = some h.width ∧ (readDimension r₁).1 = some h.height := by
    simp [frameInfoOfSize, hwidth, Option.bind_eq_some_iff]
  rw [hsize, hwidth_iff]
  cases rest with
  | nil =>
    rw [List.append_nil] at hr₁
    simp [readDimension_short hr₁]
  | cons d rest =>
    obtain ⟨r₂, height, hheight, -, hheight_iff⟩ := readDimension_late h.height_pos hr₁
    rw [hheight, hheight_iff, List.head?_cons, Option.some.injEq]
    exact ⟨fun ⟨⟨hw, _⟩, hh, hd⟩ => ⟨hw, hh, hd⟩, fun ⟨hw, hh, hd⟩ => ⟨⟨hw, hone hh⟩, hh, hd⟩⟩

/-- **The announced size**: `frame_info` reads the size of a key frame as it is written, but for
frames in RGB in the profiles 1 and 3. Of these it reads a size of one by one before a bit that is
not set, and no other. -/
theorem frameInfo_eq_iff {frame : Bytes} (hr : ofBytes frame = h.bits ++ rest) :
    frameInfo frame = { predicted := false, resolution := some (h.width, h.height) } ↔
      ¬ h.ReservedRgb ∨ h.width = 1 ∧ h.height = 1 ∧ rest.head? = some false := by
  obtain ⟨r, hbits, hinfo⟩ := frameInfo_of_bits hr
  rw [hinfo]
  by_cases hrgb : h.ReservedRgb
  · have hcons : h.frameSize ++ rest =
        (h.width.toNat - 1).testBit 15 :: (h.frameSize ++ rest).tail := rfl
    rw [hcons] at hbits
    obtain ⟨r', hskip, hr'⟩ := skipVp9ColorConfig_of_reservedRgb hbits hrgb
    rw [hskip, frameInfoOfSize_late hr']
    simp [hrgb]
  · obtain ⟨r', hskip, hr'⟩ := skipVp9ColorConfig_of_bits hbits hrgb
    rw [hskip]
    dsimp only
    rw [frameInfoOfSize_of_bits hr']
    simp [hrgb]

/-- A frame of 1 by 1 in RGB and the profile 1, before a bit that is not set. -/
theorem frameInfo_eq_iff_one_by_one :
    frameInfo [162, 73, 131, 66, 224, 0, 0, 0, 0] =
      { predicted := false, resolution := some (1, 1) } ↔ True := by
  have hbits : ofBytes [162, 73, 131, 66, 224, 0, 0, 0, 0] =
      KeyFrameHeader.bits ⟨1, true, false, false, CS_RGB, false, false, false, 1, 1, by decide,
        by decide⟩ ++ [false, false, false, false] := by decide
  exact (frameInfo_eq_iff hbits).trans (by simp [KeyFrameHeader.ReservedRgb])

/-- A frame of 640 by 480 in RGB and the profile 1 is announced with 1279 by 959. -/
theorem frameInfo_not_announced : ¬ ∀ (h : KeyFrameHeader) (rest : List Bool) (frame : Bytes),
    ofBytes frame = h.bits ++ rest →
      frameInfo frame = { predicted := false, resolution := some (h.width, h.height) } := by
  intro hall
  have hframe := hall ⟨1, true, false, false, CS_RGB, false, false, false, 640, 480, by decide,
    by decide⟩ [false, false, false, false] [162, 73, 131, 66, 224, 39, 240, 29, 240] (by decide)
  exact absurd hframe (by decide)

end VP9Packetizer

end NativeVoice.Video
