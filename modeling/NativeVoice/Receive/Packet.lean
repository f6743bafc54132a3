import NativeVoice.Transport.RoundTrip

/-!
# Received packets

What `_decode_decoded_media_packet` of `src/discord/ext/native_voice/client.py` does with a packet
before it looks at its media: finding the codec of its payload type, and giving a packet that was
sent again the place of the packet that it repeats.
-/

namespace NativeVoice.Receive

open Transport

inductive MediaType
  | audio
  | video
  deriving DecidableEq

/-- The tables of `_CodecLookups` that a receiver uses. -/
structure CodecLookups where
  payloadTypes : UInt8 → Option (MediaType × String)
  rtxPayloadTypes : UInt8 → Option (MediaType × String × UInt8)

/-- What a receiver knows of the connection. -/
structure Connection where
  rtxEnabled : Bool
  lookups : CodecLookups
  rtxSsrcMediaSsrcs : UInt32 → Option UInt32
  ssrcUserIds : UInt32 → Option ℕ

structure RTPPacket where
  mediaType : MediaType
  codec : String
  payload : Bytes
  payloadType : UInt8
  marker : Bool
  sequence : UInt16
  timestamp : UInt32
  ssrc : UInt32
  userId : Option ℕ
  raw : Bytes
  extensionPayload : Bytes
  rtpExtended : Bool
  rtpExtensions : List (UInt8 × Bytes)
  rtx : Bool
  rtxSsrc : Option UInt32
  rtxPayloadType : Option UInt8
  deriving DecidableEq

/-- A packet with its codec, at the place of the packet that it repeats. -/
structure ReceivedPacket where
  decoded : DecodedRTPPacket
  mediaType : MediaType
  codec : String
  ssrc : UInt32
  userId : Option ℕ
  raw : Bytes
  rtpPacket : RTPPacket
  deriving DecidableEq

/-- The SSRC of the packets that are sent again on an SSRC of their own. -/
def mediaSsrcForRtxSsrc (c : Connection) (ssrc : UInt32) : Option UInt32 :=
  match c.rtxSsrcMediaSsrcs ssrc with
  | some mediaSsrc => some mediaSsrc
  | none => if ssrc > 0 then some (ssrc - 1) else none

/-- `_rtx_ssrc_for_video_stream`, for a stream with the given SSRCs. -/
def rtxSsrcForVideoStream (ssrc : UInt32) (rtxSsrc : Option UInt32) : UInt32 :=
  match rtxSsrc with
  | some rtxSsrc => rtxSsrc
  | none => ssrc + 1

def rtpPacketFromDecoded (decoded : DecodedRTPPacket) (mediaType : MediaType) (codec : String)
    (ssrc : UInt32) (userId : Option ℕ) (raw : Bytes) (rtx : Bool) (rtxSsrc : Option UInt32)
    (rtxPayloadType : Option UInt8) : RTPPacket where
  mediaType := mediaType
  codec := codec
  payload := decoded.payload
  payloadType := decoded.payloadType
  marker := decoded.marker
  sequence := decoded.sequence
  timestamp := decoded.timestamp
  ssrc := ssrc
  userId := userId
  raw := raw
  extensionPayload := decoded.extensionPayload
  rtpExtended := decoded.extended
  rtpExtensions := decoded.rtpExtensions
  rtx := rtx
  rtxSsrc := rtxSsrc
  rtxPayloadType := rtxPayloadType

/-- The packet that a packet of an RTX payload type repeats, unless it is too short. -/
def recoverRtx (c : Connection) (decoded : DecodedRTPPacket) (associatedPayloadType : UInt8) :
    Option DecodedRTPPacket :=
  match decoded.payload with
  | hi :: lo :: payload =>
    some { decoded with
      payloadType := associatedPayloadType
      sequence := u16FromBe hi lo
      payload := payload
      ssrc := (mediaSsrcForRtxSsrc c decoded.ssrc).getD decoded.ssrc }
  | _ => none

/-- `_decode_decoded_media_packet` up to the RTP packet, or `none` for a packet that it ignores. -/
def receivePacket (c : Connection) (decoded : DecodedRTPPacket) (raw : Bytes) :
    Option ReceivedPacket :=
  match if c.rtxEnabled then c.lookups.rtxPayloadTypes decoded.payloadType else none with
  | some (mediaType, codec, associatedPayloadType) =>
    (recoverRtx c decoded associatedPayloadType).map fun recovered =>
      { decoded := recovered
        mediaType
        codec
        ssrc := recovered.ssrc
        userId := c.ssrcUserIds recovered.ssrc
        raw
        rtpPacket := rtpPacketFromDecoded recovered mediaType codec recovered.ssrc
          (c.ssrcUserIds recovered.ssrc) raw true (some decoded.ssrc) (some decoded.payloadType) }
  | none => (c.lookups.payloadTypes decoded.payloadType).map fun codecInfo =>
      { decoded
        mediaType := codecInfo.1
        codec := codecInfo.2
        ssrc := decoded.ssrc
        userId := c.ssrcUserIds decoded.ssrc
        raw
        rtpPacket := rtpPacketFromDecoded decoded codecInfo.1 codecInfo.2 decoded.ssrc
          (c.ssrcUserIds decoded.ssrc) raw false none none }

/-- Without an SSRC of its own, a stream is sent again on the SSRC that is mapped back to it. -/
theorem mediaSsrcForRtxSsrc_rtxSsrcForVideoStream {c : Connection} {ssrc : UInt32}
    (hssrc : ssrc ≠ 0xFFFFFFFF)
    (h : c.rtxSsrcMediaSsrcs (rtxSsrcForVideoStream ssrc none) = none) :
    mediaSsrcForRtxSsrc c (rtxSsrcForVideoStream ssrc none) = some ssrc := by
  have hpos : rtxSsrcForVideoStream ssrc none > 0 := by
    rw [rtxSsrcForVideoStream, gt_iff_lt, UInt32.lt_iff_toNat_lt, UInt32.toNat_add]
    have hne : ssrc.toNat ≠ 4294967295 := fun heq => hssrc (UInt32.toNat_inj.1 heq)
    have := ssrc.toNat_lt
    simp only [UInt32.toNat_zero, UInt32.toNat_one]
    omega
  rw [mediaSsrcForRtxSsrc, h]
  dsimp only
  rw [if_pos hpos, rtxSsrcForVideoStream, UInt32.add_sub_cancel]

/-- A packet of an RTX payload type, at the place of the packet that it repeats. -/
theorem receivePacket_rtx {c : Connection} (hrtx : c.rtxEnabled = true) {decoded : DecodedRTPPacket}
    {mediaType : MediaType} {codec : String} {associatedPayloadType : UInt8}
    (hlookup : c.lookups.rtxPayloadTypes decoded.payloadType =
      some (mediaType, codec, associatedPayloadType)) {mediaSsrc : UInt32}
    (hssrc : mediaSsrcForRtxSsrc c decoded.ssrc = some mediaSsrc) {sequence : UInt16}
    {payload : Bytes} (hpayload : decoded.payload = u16BeBytes sequence ++ payload) (raw : Bytes) :
    ∃ received, receivePacket c decoded raw = some received ∧ received.decoded = { decoded with
      payloadType := associatedPayloadType
      sequence := sequence
      payload := payload
      ssrc := mediaSsrc } := by
  have hrecover : recoverRtx c decoded associatedPayloadType = some { decoded with
      payloadType := associatedPayloadType
      sequence := sequence
      payload := payload
      ssrc := mediaSsrc } := by
    rw [recoverRtx, hpayload, hssrc]
    simp only [u16BeBytes, List.cons_append, List.nil_append, u16FromBe_u16BeBytes]
    rfl
  rw [receivePacket, hrtx, if_pos rfl, hlookup]
  dsimp only
  rw [hrecover]
  exact ⟨_, rfl, rfl⟩

end NativeVoice.Receive
