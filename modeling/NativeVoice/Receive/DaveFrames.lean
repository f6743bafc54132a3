import Mathlib.Data.List.GetD
import NativeVoice.Receive.Dave

/-!
# The frames of the DAVE protocol

`_looks_like_dave_protocol_frame` of `src/discord/ext/native_voice/dave.py` reads the trailer of a
frame from its end, and the numbers in it from their front. Here the frames are given by their
grammar, with no reader in it: `DaveFrame` is a frame taken apart, and `DaveFrame.bytes` puts it
together.

* `readLeb128Uint64_eq_some_iff`: a number is read exactly off the front of one of its codes.
* `validUnencryptedRanges_iff`: the bytes behind the nonce pass exactly when they are the codes of
  ranges in order, none of which reaches behind the frame.
* `looksLikeDaveProtocolFrame_iff`: the frames that pass are those of the grammar.
-/

namespace NativeVoice.Receive

/-! ## Numbers -/

/-- A LEB128 code of an unsigned number of 64 bits. After nine bytes with the high bit one bit of
the number is left. -/
structure Leb128Code where
  high : Bytes
  last : UInt8
  high_bit : ∀ b ∈ high, 0x80 ≤ b
  last_bit : high.length ≤ 8 ∧ last < 0x80 ∨ high.length = 9 ∧ last ≤ 1

/-- The number that bytes with the high bit and a last byte stand for, seven bits a byte. -/
def leb128Value (high : Bytes) (last : UInt8) : ℕ :=
  high.foldr (fun b n => (b &&& 0x7F).toNat + 2 ^ 7 * n) last.toNat

namespace Leb128Code

def bytes (c : Leb128Code) : Bytes := c.high ++ [c.last]

def value (c : Leb128Code) : ℕ := leb128Value c.high c.last

end Leb128Code

theorem high_bit_eq_zero_iff : ∀ b : UInt8, b &&& 0x80 = 0 ↔ b < 0x80 := by
  rintro ⟨b⟩
  revert b
  decide

theorem toNat_low_bits_of_lt : ∀ b : UInt8, b < 0x80 → (b &&& 0x7F).toNat = b.toNat := by
  rintro ⟨b⟩
  revert b
  decide

theorem toNat_low_bits_lt (b : UInt8) : (b &&& 0x7F).toNat < 2 ^ 7 := by
  rw [UInt8.toNat_and]
  exact Nat.and_lt_two_pow _ (by decide)

/-- The bits of a byte go above those read so far. -/
theorem or_shiftLeft {value fillBits : ℕ} (h : value < 2 ^ fillBits) (n : ℕ) :
    value ||| n <<< fillBits = value + 2 ^ fillBits * n := by
  rw [Nat.or_comm, ← Nat.shiftLeft_add_eq_or_of_lt h, Nat.shiftLeft_eq, Nat.add_comm, Nat.mul_comm]

theorem leb128Value_cons (b : UInt8) (high : Bytes) (last : UInt8) :
    leb128Value (b :: high) last = (b &&& 0x7F).toNat + 2 ^ 7 * leb128Value high last := rfl

/-- The first byte of a code is its last one, or is followed by a code. -/
theorem exists_append_cons_iff {byte : UInt8} {buffer rest : Bytes} {P : Bytes → UInt8 → Prop} :
    (∃ high last, byte :: buffer = high ++ last :: rest ∧ P high last) ↔
      buffer = rest ∧ P [] byte ∨
        ∃ high last, buffer = high ++ last :: rest ∧ P (byte :: high) last := by
  constructor
  · rintro ⟨high, last, h, hP⟩
    cases high with
    | nil =>
      obtain ⟨rfl, rfl⟩ := List.cons.inj h
      exact .inl ⟨rfl, hP⟩
    | cons b high =>
      obtain ⟨rfl, rfl⟩ := List.cons.inj h
      exact .inr ⟨high, last, rfl, hP⟩
  · rintro (⟨rfl, hP⟩ | ⟨high, last, rfl, hP⟩)
    · exact ⟨[], byte, rfl, hP⟩
    · exact ⟨byte :: high, last, rfl, hP⟩

theorem add_low_bits_lt {value k : ℕ} (hv : value < 2 ^ (7 * k)) (byte : UInt8) :
    value + 2 ^ (7 * k) * (byte &&& 0x7F).toNat < 2 ^ (7 * (k + 1)) :=
  calc value + 2 ^ (7 * k) * (byte &&& 0x7F).toNat
    _ < 2 ^ (7 * k) + 2 ^ (7 * k) * (byte &&& 0x7F).toNat := Nat.add_lt_add_right hv _
    _ = 2 ^ (7 * k) * ((byte &&& 0x7F).toNat + 1) := by rw [Nat.mul_succ, Nat.add_comm]
    _ ≤ 2 ^ (7 * k) * 2 ^ 7 := Nat.mul_le_mul_left _ (toNat_low_bits_lt byte)
    _ = 2 ^ (7 * (k + 1)) := by rw [← Nat.pow_add, Nat.mul_succ]

/-- The loop, after `k` bytes with the high bit. -/
theorem readLeb128Loop_eq_some_iff {value k n : ℕ} {buffer rest : Bytes} (hk : k ≤ 9)
    (hv : value < 2 ^ (7 * k)) :
    readLeb128Loop value (7 * k) buffer = some (n, rest) ↔
      ∃ high last, buffer = high ++ last :: rest ∧ (∀ b ∈ high, 0x80 ≤ b) ∧
        (k + high.length ≤ 8 ∧ last < 0x80 ∨ k + high.length = 9 ∧ last ≤ 1) ∧
        n = value + 2 ^ (7 * k) * leb128Value high last := by
  induction buffer generalizing value k with
  | nil => simp [readLeb128Loop]
  | cons byte buffer ih =>
    rw [exists_append_cons_iff]
    have hfill : 7 * k < 64 - 7 ↔ k ≤ 8 := by omega
    simp only [readLeb128Loop, hfill, or_shiftLeft hv, high_bit_eq_zero_iff, List.length_nil,
      List.length_cons, List.forall_mem_cons, leb128Value_cons]
    by_cases hk' : k ≤ 8
    · have hk9 : k ≠ 9 := by omega
      by_cases hb : byte < 0x80
      · have hge : ¬ 0x80 ≤ byte := UInt8.not_le.mpr hb
        simp only [hk', hb, hge, hk9, toNat_low_bits_of_lt byte hb, if_true, Option.some.injEq,
          Prod.mk.injEq, leb128Value, List.foldr_nil, List.not_mem_nil, false_implies,
          implies_true, Nat.add_zero, true_and, false_and, or_false, exists_const, and_comm,
          eq_comm]
      · have hge : 0x80 ≤ byte := UInt8.not_lt.mp hb
        have hcode (m : ℕ) : value + 2 ^ (7 * k) * ((byte &&& 0x7F).toNat + 2 ^ 7 * m) =
            value + 2 ^ (7 * k) * (byte &&& 0x7F).toNat + 2 ^ (7 * (k + 1)) * m := by
          rw [Nat.mul_add, ← Nat.mul_assoc, ← Nat.pow_add, ← Nat.mul_succ, Nat.add_assoc]
        rw [if_pos hk', if_neg hb, ← Nat.mul_succ, ih (by omega) (add_low_bits_lt hv byte)]
        simp only [hb, hge, hk9, hcode, Nat.add_zero, and_false, false_and, or_false, false_or,
          true_and, Nat.add_assoc, Nat.add_comm 1]
    · obtain rfl : k = 9 := by omega
      have hlong (high : Bytes) : ¬ 9 + (high.length + 1) ≤ 8 ∧ 9 + (high.length + 1) ≠ 9 := by
        omega
      simp only [hlong, hk', if_false, false_and, or_false, and_false, exists_const, false_or,
        Nat.add_zero, true_and]
      split
      case isTrue hb =>
        simp [hb, leb128Value, and_comm, eq_comm]
      case isFalse hb =>
        simp [hb]

/-- **Numbers**: what `_read_leb128_uint64` reads is the number of a code at the front of the bytes,
and what it leaves is behind the code. -/
theorem readLeb128Uint64_eq_some_iff {buffer rest : Bytes} {n : ℕ} :
    readLeb128Uint64 buffer = some (n, rest) ↔
      ∃ c : Leb128Code, buffer = c.bytes ++ rest ∧ c.value = n := by
  rw [readLeb128Uint64, ← Nat.mul_zero 7, readLeb128Loop_eq_some_iff (Nat.zero_le 9) (by decide)]
  simp only [Nat.mul_zero, Nat.zero_add, pow_zero, Nat.one_mul]
  constructor
  · rintro ⟨high, last, rfl, hhigh, hlast, rfl⟩
    exact ⟨⟨high, last, hhigh, hlast⟩, by simp [Leb128Code.bytes], rfl⟩
  · rintro ⟨⟨high, last, hhigh, hlast⟩, rfl, rfl⟩
    exact ⟨high, last, by simp [Leb128Code.bytes], hhigh, hlast, rfl⟩

/-! ## Ranges -/

/-- An unencrypted range of a frame: the codes of its offset and its size. -/
structure UnencryptedRange where
  offset : Leb128Code
  size : Leb128Code

namespace UnencryptedRange

def bytes (r : UnencryptedRange) : Bytes := r.offset.bytes ++ r.size.bytes

def endOffset (r : UnencryptedRange) : ℕ := r.offset.value + r.size.value

/-- `Ordered frameSize previousEnd ranges`: every range begins at or behind the end of the one
before it, the first at or behind `previousEnd`, and ends within the frame. -/
def Ordered (frameSize : ℕ) : ℕ → List UnencryptedRange → Prop
  | _, [] => True
  | previousEnd, r :: ranges =>
    previousEnd ≤ r.offset.value ∧ r.endOffset ≤ frameSize ∧ Ordered frameSize r.endOffset ranges

end UnencryptedRange

@[simp] theorem validUnencryptedRanges_nil (frameSize previousEnd : ℕ) :
    validUnencryptedRanges frameSize previousEnd [] = true := by
  rw [validUnencryptedRanges, List.isEmpty_nil, if_pos rfl]

theorem Leb128Code.bytes_ne_nil (c : Leb128Code) : c.bytes ≠ [] := by
  simp [Leb128Code.bytes]

theorem readLeb128Uint64_bytes (c : Leb128Code) (rest : Bytes) :
    readLeb128Uint64 (c.bytes ++ rest) = some (c.value, rest) :=
  readLeb128Uint64_eq_some_iff.mpr ⟨c, rfl, rfl⟩

/-- The loop takes one range at a time. -/
theorem validUnencryptedRanges_bytes (frameSize previousEnd : ℕ) (r : UnencryptedRange)
    (rest : Bytes) :
    validUnencryptedRanges frameSize previousEnd (r.bytes ++ rest) = true ↔
      previousEnd ≤ r.offset.value ∧ r.endOffset ≤ frameSize ∧
        validUnencryptedRanges frameSize r.endOffset rest = true := by
  have hoffset := readLeb128Uint64_bytes r.offset (r.size.bytes ++ rest)
  have hsize := readLeb128Uint64_bytes r.size rest
  rw [validUnencryptedRanges, if_neg (by simp [UnencryptedRange.bytes, r.offset.bytes_ne_nil]),
    UnencryptedRange.bytes, List.append_assoc]
  split
  case h_1 h => rw [hoffset] at h; cases h
  case h_2 h =>
    rw [hoffset] at h
    obtain ⟨rfl, rfl⟩ := Prod.mk.inj (Option.some.inj h)
    split
    case h_1 h => rw [hsize] at h; cases h
    case h_2 h =>
      rw [hsize] at h
      obtain ⟨rfl, rfl⟩ := Prod.mk.inj (Option.some.inj h)
      change (if r.offset.value < previousEnd ∨ r.endOffset > frameSize then false
        else validUnencryptedRanges frameSize r.endOffset rest) = true ↔ _
      rw [Bool.if_false_left, Bool.and_eq_true, Bool.not_eq_true', decide_eq_false_iff_not,
        not_or, Nat.not_lt, Nat.not_lt, and_assoc]

/-- **Ranges**: the bytes that pass are the codes of ranges in order within the frame. -/
theorem validUnencryptedRanges_iff {frameSize previousEnd : ℕ} {buffer : Bytes} :
    validUnencryptedRanges frameSize previousEnd buffer = true ↔
      ∃ ranges : List UnencryptedRange, buffer = ranges.flatMap UnencryptedRange.bytes ∧
        UnencryptedRange.Ordered frameSize previousEnd ranges := by
  constructor
  · intro h
    fun_induction validUnencryptedRanges frameSize previousEnd buffer with
    | case1 previousEnd buffer hempty =>
      exact ⟨[], List.isEmpty_iff.mp hempty, trivial⟩
    | case2 => cases h
    | case3 => cases h
    | case4 => cases h
    | case5 previousEnd buffer hne rangeOffset buffer₁ h₁ rangeSize buffer₂ h₂ rangeEnd hr ih =>
      obtain ⟨offset, rfl, rfl⟩ := readLeb128Uint64_eq_some_iff.mp h₁
      obtain ⟨size, rfl, rfl⟩ := readLeb128Uint64_eq_some_iff.mp h₂
      obtain ⟨ranges, rfl, hranges⟩ := ih h
      obtain ⟨hoffset, hend⟩ := not_or.mp hr
      refine ⟨⟨offset, size⟩ :: ranges, ?_, Nat.not_lt.mp hoffset, Nat.not_lt.mp hend, hranges⟩
      rw [List.flatMap_cons, UnencryptedRange.bytes, List.append_assoc]
  · rintro ⟨ranges, rfl, h⟩
    induction ranges generalizing previousEnd with
    | nil => exact validUnencryptedRanges_nil _ _
    | cons r ranges ih =>
      obtain ⟨hoffset, hend, h⟩ := h
      rw [List.flatMap_cons, validUnencryptedRanges_bytes]
      exact ⟨hoffset, hend, ih h⟩

/-! ## Frames -/

/-- A frame of the protocol, taken apart. The size counts everything behind the encrypted body, the
size itself and the marker among it. -/
structure DaveFrame where
  body : Bytes
  tag : Bytes
  nonce : Leb128Code
  ranges : List UnencryptedRange
  size : UInt8

namespace DaveFrame

def trailer (f : DaveFrame) : Bytes :=
  f.tag ++ f.nonce.bytes ++ f.ranges.flatMap UnencryptedRange.bytes ++ [f.size] ++ DAVE_MARKER

def bytes (f : DaveFrame) : Bytes := f.body ++ f.trailer

structure WellFormed (f : DaveFrame) : Prop where
  tag : f.tag.length = DAVE_TAG_SIZE
  size : f.size.toNat = f.trailer.length
  minSize : DAVE_MIN_SIZE ≤ f.size.toNat
  ranges : UnencryptedRange.Ordered f.bytes.length 0 f.ranges

end DaveFrame

/-- A frame that passes ends in the size of its trailer and the marker. -/
theorem exists_trailer {payload : Bytes} (h : looksLikeDaveProtocolFrame payload = true) :
    ∃ body inner size, payload = body ++ (inner ++ size :: DAVE_MARKER) ∧
      size.toNat = inner.length + (DAVE_SIZE_SIZE + DAVE_MARKER_SIZE) ∧
      DAVE_TAG_SIZE ≤ inner.length := by
  unfold looksLikeDaveProtocolFrame at h
  simp only [Bool.if_false_left, Bool.and_eq_true, Bool.not_eq_true', decide_eq_false_iff_not,
    not_or, Nat.not_lt, not_not] at h
  generalize hs : (payload.getD (payload.length - (DAVE_SIZE_SIZE + DAVE_MARKER_SIZE)) 0).toNat = s
    at h
  obtain ⟨-, -, ⟨hmin, hle⟩, ⟨hsize, hmarker⟩, -⟩ := h
  generalize hsup : payload.drop (payload.length - s) = supplemental at hsize hmarker
  have hlen : supplemental.length = s := by
    rw [← hsup, List.length_drop]
    omega
  have hend : s - DAVE_SIZE_SIZE - DAVE_MARKER_SIZE < supplemental.length := by
    simp only [DAVE_MIN_SIZE, DAVE_TAG_SIZE, DAVE_SIZE_SIZE] at hmin ⊢
    omega
  generalize he : s - DAVE_SIZE_SIZE - DAVE_MARKER_SIZE = rangesEnd at hsize hmarker hend
  have hinner : (supplemental.take rangesEnd).length = rangesEnd :=
    List.length_take_of_le hend.le
  simp only [DAVE_MIN_SIZE, DAVE_SIZE_SIZE] at hmin he
  refine ⟨payload.take (payload.length - s), supplemental.take rangesEnd, supplemental[rangesEnd],
    ?_, ?_, ?_⟩
  · rw [← hmarker, DAVE_SIZE_SIZE, ← List.drop_eq_getElem_cons hend, List.take_append_drop, ← hsup,
      List.take_append_drop]
  · rw [← List.getD_eq_getElem _ 0 hend, hsize, hinner, DAVE_SIZE_SIZE]
    omega
  · omega

/-- Once the trailer is found, the numbers in it decide. -/
theorem looksLikeDaveProtocolFrame_trailer {body inner : Bytes} {size : UInt8}
    (hsize : size.toNat = inner.length + (DAVE_SIZE_SIZE + DAVE_MARKER_SIZE))
    (htag : DAVE_TAG_SIZE ≤ inner.length) :
    looksLikeDaveProtocolFrame (body ++ (inner ++ size :: DAVE_MARKER)) = true ↔
      ∃ nonce ranges, readLeb128Uint64 (inner.drop DAVE_TAG_SIZE) = some (nonce, ranges) ∧
        validUnencryptedRanges (body ++ (inner ++ size :: DAVE_MARKER)).length 0 ranges = true := by
  unfold looksLikeDaveProtocolFrame
  simp only [Bool.if_false_left, Bool.and_eq_true, Bool.not_eq_true', decide_eq_false_iff_not,
    not_or, Nat.not_lt, not_not]
  generalize hp : body ++ (inner ++ size :: DAVE_MARKER) = payload
  have hmarker : DAVE_MARKER.length = 2 := rfl
  have hlen : payload.length = body.length + size.toNat := by
    rw [← hp, hsize]
    simp [DAVE_MARKER_SIZE, DAVE_SIZE_SIZE]
    omega
  have hdrop : payload.drop (payload.length - size.toNat) = inner ++ size :: DAVE_MARKER := by
    rw [hlen, Nat.add_sub_cancel, ← hp, List.drop_left]
  have hends :
      payload.length - (DAVE_SIZE_SIZE + DAVE_MARKER_SIZE) = body.length + inner.length := by
    omega
  have hat : payload.getD (payload.length - (DAVE_SIZE_SIZE + DAVE_MARKER_SIZE)) 0 = size := by
    rw [hends, ← hp, ← List.append_assoc, ← List.length_append]
    simp
  have hinner : size.toNat - DAVE_SIZE_SIZE - DAVE_MARKER_SIZE = inner.length := by
    omega
  rw [hat, hdrop, hinner]
  have hmin : DAVE_MIN_SIZE ≤ size.toNat := by
    simp only [DAVE_MIN_SIZE]
    omega
  have hsuffix : DAVE_MARKER <:+ payload := ⟨body ++ (inner ++ [size]), by rw [← hp]; simp⟩
  have hle : size.toNat ≤ payload.length := by omega
  have hget : (inner ++ size :: DAVE_MARKER).getD inner.length 0 = size := by simp
  have hmark :
      (inner ++ size :: DAVE_MARKER).drop (inner.length + DAVE_SIZE_SIZE) = DAVE_MARKER := by
    simp [DAVE_SIZE_SIZE]
  have htake : (inner ++ size :: DAVE_MARKER).take inner.length = inner := List.take_left
  rw [hget, hmark, htake]
  cases hread : readLeb128Uint64 (inner.drop DAVE_TAG_SIZE) with
  | none => simp
  | some result =>
    obtain ⟨nonce, ranges⟩ := result
    simp [hmin, hmin.trans hle, hsuffix, hle]

/-- **The grammar of frames**: `_looks_like_dave_protocol_frame` accepts the byte strings that are a
well-formed frame put together, and no others. -/
theorem looksLikeDaveProtocolFrame_iff (payload : Bytes) :
    looksLikeDaveProtocolFrame payload = true ↔
      ∃ f : DaveFrame, f.WellFormed ∧ payload = f.bytes := by
  have htrailer (body tag : Bytes) (nonce : Leb128Code) (ranges : List UnencryptedRange)
      (size : UInt8) : DaveFrame.trailer ⟨body, tag, nonce, ranges, size⟩ =
        tag ++ (nonce.bytes ++ ranges.flatMap UnencryptedRange.bytes) ++ size :: DAVE_MARKER := by
    simp [DaveFrame.trailer]
  constructor
  · intro h
    obtain ⟨body, inner, size, rfl, hsize, hinner⟩ := exists_trailer h
    obtain ⟨n, rest, hnonce, hranges⟩ := (looksLikeDaveProtocolFrame_trailer hsize hinner).mp h
    obtain ⟨tag, middle, rfl, htag⟩ : ∃ tag middle, inner = tag ++ middle ∧
        tag.length = DAVE_TAG_SIZE :=
      ⟨inner.take DAVE_TAG_SIZE, inner.drop DAVE_TAG_SIZE, (List.take_append_drop ..).symm,
        List.length_take_of_le hinner⟩
    rw [← htag, List.drop_left] at hnonce
    obtain ⟨nonce, rfl, rfl⟩ := readLeb128Uint64_eq_some_iff.mp hnonce
    obtain ⟨ranges, rfl, hordered⟩ := validUnencryptedRanges_iff.mp hranges
    refine ⟨⟨body, tag, nonce, ranges, size⟩, ⟨htag, ?_, ?_, ?_⟩, ?_⟩
    · rw [htrailer, hsize]
      simp only [List.length_append, List.length_cons, DAVE_MARKER_SIZE, DAVE_SIZE_SIZE,
        Nat.add_comm 1]
    · rw [DAVE_MIN_SIZE, hsize]
      omega
    · rwa [DaveFrame.bytes, htrailer]
    · rw [DaveFrame.bytes, htrailer]
  · rintro ⟨⟨body, tag, nonce, ranges, size⟩, hf, rfl⟩
    have hsize := hf.size
    have hordered := hf.ranges
    rw [htrailer, List.length_append] at hsize
    rw [DaveFrame.bytes, htrailer] at hordered ⊢
    rw [looksLikeDaveProtocolFrame_trailer hsize (by rw [List.length_append, hf.tag]; omega),
      ← hf.tag, List.drop_left]
    exact ⟨_, _, readLeb128Uint64_bytes nonce _, validUnencryptedRanges_iff.mpr ⟨_, rfl, hordered⟩⟩

example : looksLikeDaveProtocolFrame
    ([7, 7] ++ (List.replicate 8 0 ++ [0x85, 0x01, 0, 1, 1, 2] ++ [17, 0xFA, 0xFA])) = true := by
  decide +kernel

end NativeVoice.Receive
