import NativeVoice.Rust

/-!
# RTP packets

The errors of the packet functions and the packets that the packetizers make
(`src/src/rtp/mod.rs`).
-/

namespace NativeVoice

inductive PacketError
  | tooShort
  | invalidVersion (version : UInt8)
  | truncatedExtension
  | payloadTooLarge
  | emptyFrame
  | unsupportedCodec
  | invalidPayload
  deriving DecidableEq

/-- The message of an error. -/
def PacketError.toString : PacketError → String
  | tooShort => "Packet is too short"
  | invalidVersion version => s!"Invalid RTP version {version}"
  | truncatedExtension => "RTP extension header is truncated"
  | payloadTooLarge => "Payload is larger than the configured MTU"
  | emptyFrame => "Media frame is empty"
  | unsupportedCodec => "Unsupported codec"
  | invalidPayload => "Invalid media payload"

/-- `u16::to_be_bytes`. -/
def u16BeBytes (x : UInt16) : Bytes := [(x >>> 8).toUInt8, x.toUInt8]

/-- `u32::to_be_bytes`. -/
def u32BeBytes (x : UInt32) : Bytes :=
  [(x >>> 24).toUInt8, (x >>> 16).toUInt8, (x >>> 8).toUInt8, x.toUInt8]

/-- `u16::from_be_bytes([hi, lo])`. -/
def u16FromBe (hi lo : UInt8) : UInt16 := hi.toUInt16 <<< 8 ||| lo.toUInt16

/-- `u32::from_be_bytes([b0, b1, b2, b3])`. -/
def u32FromBe (b0 b1 b2 b3 : UInt8) : UInt32 :=
  b0.toUInt32 <<< 24 ||| b1.toUInt32 <<< 16 ||| b2.toUInt32 <<< 8 ||| b3.toUInt32

theorem u16FromBe_u16BeBytes (x : UInt16) : u16FromBe (x >>> 8).toUInt8 x.toUInt8 = x := by
  apply UInt16.toBitVec_inj.1
  apply BitVec.eq_of_getLsbD_eq
  intro i hi
  simp only [u16FromBe, UInt16.toBitVec_or, UInt16.toBitVec_shiftLeft, UInt8.toBitVec_toUInt16,
    UInt16.toBitVec_toUInt8, UInt16.toBitVec_shiftRight]
  simp
  grind

theorem u32FromBe_u32BeBytes (x : UInt32) :
    u32FromBe (x >>> 24).toUInt8 (x >>> 16).toUInt8 (x >>> 8).toUInt8 x.toUInt8 = x := by
  apply UInt32.toBitVec_inj.1
  apply BitVec.eq_of_getLsbD_eq
  intro i hi
  simp only [u32FromBe, UInt32.toBitVec_or, UInt32.toBitVec_shiftLeft, UInt8.toBitVec_toUInt32,
    UInt32.toBitVec_toUInt8, UInt32.toBitVec_shiftRight]
  simp
  grind

theorem u16BeBytes_injective {x y : UInt16} (h : u16BeBytes x = u16BeBytes y) : x = y := by
  simp only [u16BeBytes, List.cons.injEq, and_true] at h
  rw [← u16FromBe_u16BeBytes x, ← u16FromBe_u16BeBytes y, h.1, h.2]

theorem u32BeBytes_injective {x y : UInt32} (h : u32BeBytes x = u32BeBytes y) : x = y := by
  simp only [u32BeBytes, List.cons.injEq, and_true] at h
  obtain ⟨h0, h1, h2, h3⟩ := h
  rw [← u32FromBe_u32BeBytes x, ← u32FromBe_u32BeBytes y, h0, h1, h2, h3]

/-- `RtpPacket::new_header`. -/
def newHeader (payloadType : UInt8) (sequence : UInt16) (timestamp ssrc : UInt32)
    (marker extended : Bool) : Bytes :=
  [0x80 ||| (if extended then 0x10 else 0), payloadType ||| (if marker then 0x80 else 0)] ++
    u16BeBytes sequence ++ u32BeBytes timestamp ++ u32BeBytes ssrc ++
    if extended then [0xBE, 0xDE, 0x00, 0x01] else []

structure MediaPacket where
  header : Bytes
  payload : Bytes
  marker : Bool
  sequence : UInt16
  timestamp : UInt32
  ssrc : UInt32
  payloadType : UInt8
  deriving DecidableEq

end NativeVoice
