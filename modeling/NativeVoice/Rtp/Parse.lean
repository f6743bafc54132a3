import NativeVoice.Rtp.Packet

/-!
# Parsing RTP packets

`RtpPacket::parse` of `src/src/rtp/mod.rs`, which reads the clear part of a protected packet, and
what it makes of the packets that the senders build.
-/

namespace NativeVoice

structure RtpPacket where
  header : Bytes
  encryptedPayload : Bytes
  nonceSuffix : Bytes
  extensionPayloadLen : ℕ
  payloadType : UInt8
  marker : Bool
  padded : Bool
  sequence : UInt16
  timestamp : UInt32
  ssrc : UInt32
  extended : Bool
  extensionProfile : UInt16
  deriving DecidableEq

namespace RtpPacket

/-- The header of an extension behind `headerLen` bytes: the length of the header with it, the
length of the payload that it announces, and its profile. -/
def parseExtension (data : Bytes) (headerLen : ℕ) : Fallible PacketError (ℕ × ℕ × UInt16) :=
  if data.length < headerLen + 4 then .error (.err .truncatedExtension)
  else do
    let p0 ← index data headerLen
    let p1 ← index data (headerLen + 1)
    let w0 ← index data (headerLen + 2)
    let w1 ← index data (headerLen + 3)
    let extensionPayloadLen := (u16FromBe w0 w1).toNat * 4
    if data.length < headerLen + 4 + extensionPayloadLen + 4 then
      .error (.err .truncatedExtension)
    else return (headerLen + 4, extensionPayloadLen, u16FromBe p0 p1)

def parse (data : Bytes) : Fallible PacketError RtpPacket :=
  if data.length < 12 + 4 then .error (.err .tooShort)
  else do
    let b0 ← index data 0
    let version := b0 >>> 6
    if version ≠ 2 then .error (.err (.invalidVersion version))
    else
      let csrcCount := (b0 &&& 0x0F).toNat
      let extended := b0 &&& 0x10 != 0
      let headerLen := 12 + csrcCount * 4
      if data.length < headerLen + 4 then .error (.err .tooShort)
      else do
        let (headerLen, extensionPayloadLen, extensionProfile) ←
          if extended then parseExtension data headerLen else .ok (headerLen, 0, 0)
        if data.length < headerLen + 4 then .error (.err .tooShort)
        else do
          let nonceOffset := data.length - 4
          let nonceSuffix ← sliceFrom data nonceOffset
          let header ← slice data 0 headerLen
          let encryptedPayload ← slice data headerLen nonceOffset
          let b1 ← index data 1
          let s0 ← index data 2
          let s1 ← index data 3
          let t0 ← index data 4
          let t1 ← index data 5
          let t2 ← index data 6
          let t3 ← index data 7
          let r0 ← index data 8
          let r1 ← index data 9
          let r2 ← index data 10
          let r3 ← index data 11
          return {
            header := header
            encryptedPayload := encryptedPayload
            nonceSuffix := nonceSuffix
            extensionPayloadLen := extensionPayloadLen
            payloadType := b1 &&& 0x7F
            marker := b1 &&& 0x80 != 0
            padded := b0 &&& 0x20 != 0
            sequence := u16FromBe s0 s1
            timestamp := u32FromBe t0 t1 t2 t3
            ssrc := u32FromBe r0 r1 r2 r3
            extended := extended
            extensionProfile := extensionProfile }

/-! ## What the senders build -/

/-- A header of `new_header` with the header of a one-byte extension of `words` words. -/
def extendedHeader (payloadType : UInt8) (sequence : UInt16) (timestamp ssrc : UInt32)
    (marker : Bool) (words : UInt16) : Bytes :=
  [0x90, payloadType ||| if marker then 0x80 else 0] ++ u16BeBytes sequence ++
    u32BeBytes timestamp ++ u32BeBytes ssrc ++ [0xBE, 0xDE] ++ u16BeBytes words

@[simp] theorem length_extendedHeader (payloadType : UInt8) (sequence : UInt16)
    (timestamp ssrc : UInt32) (marker : Bool) (words : UInt16) :
    (extendedHeader payloadType sequence timestamp ssrc marker words).length = 16 := rfl

theorem markerByte_bits {payloadType : UInt8} (h : payloadType < 128) (marker : Bool) :
    (payloadType ||| if marker then 0x80 else 0) &&& 0x7F = payloadType ∧
      ((payloadType ||| if marker then 0x80 else 0) &&& 0x80 != 0) = marker := by
  have hall : ∀ p < 128, ∀ m : Bool,
      (UInt8.ofNat p ||| if m then 0x80 else 0) &&& 0x7F = UInt8.ofNat p ∧
        ((UInt8.ofNat p ||| if m then 0x80 else 0) &&& 0x80 != 0) = m := by decide
  have := hall payloadType.toNat h marker
  rwa [UInt8.ofNat_toNat] at this

/-- **A packet with such a header is parsed** into the fields it was built from. -/
theorem parse_extendedHeader {payloadType : UInt8} (hpt : payloadType < 128) (sequence : UInt16)
    (timestamp ssrc : UInt32) (marker : Bool) (words : UInt16) (body suffix : Bytes)
    (hbody : words.toNat * 4 ≤ body.length) (hsuffix : suffix.length = 4) :
    parse (extendedHeader payloadType sequence timestamp ssrc marker words ++ body ++ suffix) =
      .ok {
        header := extendedHeader payloadType sequence timestamp ssrc marker words
        encryptedPayload := body
        nonceSuffix := suffix
        extensionPayloadLen := words.toNat * 4
        payloadType := payloadType
        marker := marker
        padded := false
        sequence := sequence
        timestamp := timestamp
        ssrc := ssrc
        extended := true
        extensionProfile := 0xBEDE } := by
  obtain ⟨hpt', hmarker⟩ := markerByte_bits hpt marker
  set header := extendedHeader payloadType sequence timestamp ssrc marker words with hheader
  have hlen : (header ++ body ++ suffix).length = 16 + body.length + 4 := by
    simp [hheader, hsuffix, Nat.add_assoc]
  have hindex (i : ℕ) (x : UInt8) (h : header[i]? = some x) :
      index (header ++ body ++ suffix) i = (.ok x : Fallible PacketError UInt8) := by
    rw [index_eq_ok, List.append_assoc, List.getElem?_append_left, h]
    exact (List.getElem?_eq_some_iff.1 h).1
  have hsliceHeader : slice (header ++ body ++ suffix) 0 16 =
      (.ok header : Fallible PacketError Bytes) := by
    have := slice_append (ε := PacketError) [] header (body ++ suffix)
    simpa [hheader] using this
  have hsliceBody : slice (header ++ body ++ suffix) 16 (16 + body.length) =
      (.ok body : Fallible PacketError Bytes) := by
    have := slice_append (ε := PacketError) header body suffix
    simpa [hheader] using this
  have hsliceSuffix : sliceFrom (header ++ body ++ suffix) (16 + body.length) =
      (.ok suffix : Fallible PacketError Bytes) := by
    have := sliceFrom_append (ε := PacketError) (header ++ body) suffix
    simpa [hheader] using this
  have hextension : parseExtension (header ++ body ++ suffix) 12 =
      .ok (16, words.toNat * 4, 0xBEDE) := by
    rw [parseExtension, if_neg (by omega), hindex 12 0xBE rfl, hindex 13 0xDE rfl,
      hindex 14 _ rfl, hindex 15 _ rfl]
    simp only [ok_bind, u16FromBe_u16BeBytes]
    rw [if_neg (by omega)]
    rfl
  have hversion : ¬ (0x90 : UInt8) >>> 6 ≠ 2 := by decide
  have hextended : ((0x90 : UInt8) &&& 0x10 != 0) = true := rfl
  have hcsrc : 12 + ((0x90 : UInt8) &&& 0x0F).toNat * 4 = 12 := rfl
  have hoffset : (header ++ body ++ suffix).length - 4 = 16 + body.length := by omega
  rw [parse, if_neg (by omega), hindex 0 0x90 rfl, ok_bind]
  dsimp only
  rw [if_neg hversion, hextended, hcsrc, if_neg (by omega), if_pos rfl, hextension, ok_bind]
  dsimp only
  rw [if_neg (by omega), hoffset, hsliceSuffix, hsliceHeader, hsliceBody, hindex 1 _ rfl,
    hindex 2 _ rfl, hindex 3 _ rfl, hindex 4 _ rfl, hindex 5 _ rfl, hindex 6 _ rfl,
    hindex 7 _ rfl, hindex 8 _ rfl, hindex 9 _ rfl, hindex 10 _ rfl, hindex 11 _ rfl]
  simp only [ok_bind, u16FromBe_u16BeBytes, u32FromBe_u32BeBytes, hpt', hmarker]
  rfl

end RtpPacket

end NativeVoice
