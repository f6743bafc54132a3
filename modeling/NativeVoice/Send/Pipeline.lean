import NativeVoice.Lib.FifoCache
import NativeVoice.Transport.RoundTrip
import NativeVoice.Video.AV1.Packetizer
import NativeVoice.Video.H264
import NativeVoice.Video.H265
import NativeVoice.Video.VP8
import NativeVoice.Video.VP9

/-!
# The video send pipeline

`VideoSendPipelineState` of `src/src/python/video_send.rs`: the video streams that are sent, each
with its packetizer and the cache of packets that can be sent again, and what
`prepare_video_frame_inner`, `prepare_video_rtx_packet_inner` and
`prepare_video_rtx_for_nack_inner` make of them.

The numbers drawn at random when a packetizer or a pipeline is made, and the clock that
`build_video_extension_payload` reads for every packet, are arguments.
-/

namespace NativeVoice.Send

open Lib Video Transport

def RTX_CACHE_MAX_PACKETS : ℕ := 16384

inductive VideoCodec
  | av1
  | h264
  | h265
  | vp8
  | vp9
  deriving DecidableEq

/-! ## Packetizers -/

inductive PipelinePacketizer (ρ : Type)
  | av1 (packetizer : AV1Packetizer ρ)
  | h264 (packetizer : H264Packetizer ρ)
  | h265 (packetizer : H265Packetizer ρ)
  | vp8 (packetizer : VP8Packetizer ρ)
  | vp9 (packetizer : VP9Packetizer ρ)
  deriving DecidableEq

namespace PipelinePacketizer

variable {τ ρ : Type} (clock : TickClock τ ρ)

def new (codec : VideoCodec) (ssrc : UInt32) (payloadType : UInt8) (sequence : UInt16)
    (timestamp : UInt32) : PipelinePacketizer ρ :=
  match codec with
  | .av1 => .av1 (AV1Packetizer.new clock ssrc payloadType sequence timestamp)
  | .h264 => .h264 (H264Packetizer.new clock ssrc payloadType sequence timestamp)
  | .h265 => .h265 (H265Packetizer.new clock ssrc payloadType sequence timestamp)
  | .vp8 => .vp8 (VP8Packetizer.new clock ssrc payloadType sequence timestamp)
  | .vp9 => .vp9 (VP9Packetizer.new clock ssrc payloadType sequence timestamp)

def packetize (b : Build) (frame : Bytes) (metadataFrame : Option Bytes) (frameTimeMs : τ) :
    PipelinePacketizer ρ → Fallible PacketError (List MediaPacket) × PipelinePacketizer ρ
  | .av1 packetizer =>
    (AV1Packetizer.packetize clock b packetizer frame frameTimeMs).map id .av1
  | .h264 packetizer => (H264Packetizer.packetize clock packetizer frame frameTimeMs).map id .h264
  | .h265 packetizer => (H265Packetizer.packetize clock packetizer frame frameTimeMs).map id .h265
  | .vp8 packetizer => (packetizer.packetize clock frame frameTimeMs).map id .vp8
  | .vp9 packetizer =>
    (packetizer.packetizeWithMetadataFrame clock frame (metadataFrame.getD frame) frameTimeMs).map
      id .vp9

/-- The state that the packetizers of all codecs have. -/
def state : PipelinePacketizer ρ → PacketizerState ρ
  | .av1 packetizer => packetizer
  | .h264 packetizer => packetizer
  | .h265 packetizer => packetizer
  | .vp8 packetizer => packetizer.state
  | .vp9 packetizer => packetizer.state

def timestamp (packetizer : PipelinePacketizer ρ) : UInt32 := packetizer.state.timestamp

end PipelinePacketizer

/-! ## Streams -/

structure SentVideoPacket where
  payload : Bytes
  marker : Bool
  sequence : UInt16
  timestamp : UInt32
  deriving DecidableEq

structure PipelineStream (ρ : Type) where
  codec : VideoCodec
  payloadType : UInt8
  rid : String
  rtxPayloadType : Option UInt8
  rtxSsrc : UInt32
  rtxSequence : UInt16
  packetizer : PipelinePacketizer ρ
  rtxCache : UInt16 → Option SentVideoPacket
  rtxOrder : List UInt16

namespace PipelineStream

variable {τ ρ : Type} (clock : TickClock τ ρ)

def new (codec : VideoCodec) (mediaSsrc : UInt32) (payloadType : UInt8)
    (rtxPayloadType : Option UInt8) (rtxSsrc : UInt32) (rid : String) (sequence : UInt16)
    (timestamp : UInt32) : PipelineStream ρ where
  codec := codec
  payloadType := payloadType
  rid := rid
  rtxPayloadType := rtxPayloadType
  rtxSsrc := rtxSsrc
  rtxSequence := 0
  packetizer := .new clock codec mediaSsrc payloadType sequence timestamp
  rtxCache := fun _ => none
  rtxOrder := []

def update (stream : PipelineStream ρ) (rtxPayloadType : Option UInt8) (rtxSsrc : UInt32)
    (rid : String) : PipelineStream ρ :=
  let stream := { stream with rtxPayloadType, rtxSsrc, rid }
  if stream.rtxPayloadType = none ∨ stream.rtxSsrc = 0 then
    { stream with rtxCache := fun _ => none, rtxOrder := [], rtxSequence := 0 }
  else stream

def rtxActive (stream : PipelineStream ρ) : Bool :=
  stream.rtxPayloadType.isSome && stream.rtxSsrc != 0

def cacheMediaPacket (stream : PipelineStream ρ) (payload : Bytes) (marker : Bool)
    (sequence : UInt16) (timestamp : UInt32) : PipelineStream ρ :=
  if !stream.rtxActive then stream
  else
    let (rtxCache, rtxOrder) := FifoCache.push RTX_CACHE_MAX_PACKETS stream.rtxCache
      stream.rtxOrder sequence { payload, marker, sequence, timestamp }
    { stream with rtxCache, rtxOrder }

end PipelineStream

/-! ## Prepared packets -/

structure PreparedRTPPacket where
  header : Bytes
  payload : Bytes
  deriving DecidableEq

structure PreparedVideoSend where
  packets : List PreparedRTPPacket
  transportSequence : UInt16
  rtpTimestamp : UInt32
  lastSequence : Option UInt16
  deriving DecidableEq

structure PreparedRTXSend where
  packet : Option PreparedRTPPacket
  rtxSsrc : UInt32
  rtxSequence : UInt16
  transportSequence : UInt16
  deriving DecidableEq

structure NackResendSummary where
  resent : ℕ
  mediaSsrc : UInt32
  rtxSsrc : UInt32
  lastRtxSequence : UInt16
  transportSequence : UInt16
  deriving DecidableEq

structure PreparedNackResend where
  packets : List PreparedRTPPacket
  summary : NackResendSummary
  deriving DecidableEq

/-- `packet_error`, on a call that may also have panicked. -/
def packetError : Stop PacketError → Stop SendError
  | .err error => .err (.value error.toString)
  | .panic => .panic

/-- A prepared packet: the header with the header of the extension, and the payload of the extension
in front of the payload of the packet. -/
def withExtension (header : Bytes) (extensionPayload : Except PyErr Bytes) (payload : Bytes) :
    Except SendError PreparedRTPPacket :=
  match extensionPayload with
  | .error err => .error (.value err.toString)
  | .ok extensionPayload => match headerWithOneByteExtensions header extensionPayload with
    | .error err => .error (.value err.toString)
    | .ok header => .ok { header := header, payload := extensionPayload ++ payload }

structure VideoSendPipelineState (ρ : Type) where
  streams : UInt32 → Option (PipelineStream ρ)
  transportSequence : UInt16

/-- The loop of `prepare_video_frame_inner` over the packets of the frame. -/
def prepareMediaPackets {ρ : Type} (mediaStreamType : String) (now : ℕ → UInt32)
    (stream : PipelineStream ρ) (transportSequence : UInt16) :
    List MediaPacket → Except SendError (List PreparedRTPPacket) × PipelineStream ρ × UInt16
  | [] => (.ok [], stream, transportSequence)
  | packet :: packets =>
    let transportSequence := transportSequence + 1
    match withExtension packet.header
      (buildVideoExtensionPayload transportSequence stream.rid mediaStreamType false (now 0))
      packet.payload with
    | .error e => (.error e, stream, transportSequence)
    | .ok prepared =>
      let stream := stream.cacheMediaPacket packet.payload packet.marker packet.sequence
        packet.timestamp
      match prepareMediaPackets mediaStreamType (fun i => now (i + 1)) stream transportSequence
        packets with
      | (.error e, after) => (.error e, after)
      | (.ok rest, after) => (.ok (prepared :: rest), after)

/-! ## The pipeline -/

def parseVideoCodec (codec : String) : Except PyErr VideoCodec :=
  match codec.toUpper with
  | "AV1" => .ok .av1
  | "H264" => .ok .h264
  | "H265" => .ok .h265
  | "VP8" => .ok .vp8
  | "VP9" => .ok .vp9
  | _ => .error (.valueError s!"Unsupported video codec: {codec}")

def validatePayloadType (payloadType : UInt16) (name : String) : Except PyErr UInt8 :=
  if payloadType > 0x7F then .error (.valueError s!"{name} must be in range 0..=127")
  else .ok payloadType.toUInt8

namespace VideoSendPipelineState

variable {τ ρ : Type} (clock : TickClock τ ρ)

def new (transportSequence : UInt16) : VideoSendPipelineState ρ where
  streams := fun _ => none
  transportSequence := transportSequence

/-- The stream object under an SSRC, replaced or entered. -/
def setStream (s : VideoSendPipelineState ρ) (mediaSsrc : UInt32) (stream : PipelineStream ρ) :
    VideoSendPipelineState ρ :=
  { s with streams := Function.update s.streams mediaSsrc (some stream) }

/-- `configure_stream`, once its arguments are checked. -/
def configure (s : VideoSendPipelineState ρ) (codec : VideoCodec) (mediaSsrc : UInt32)
    (payloadType : UInt8) (rtxPayloadType : Option UInt8) (rtxSsrc : UInt32) (rid : String)
    (sequence : UInt16) (timestamp : UInt32) : VideoSendPipelineState ρ :=
  let fresh := s.setStream mediaSsrc
    (.new clock codec mediaSsrc payloadType rtxPayloadType rtxSsrc rid sequence timestamp)
  match s.streams mediaSsrc with
  | none => fresh
  | some stream =>
    if stream.codec = codec ∧ stream.payloadType = payloadType then
      s.setStream mediaSsrc (stream.update rtxPayloadType rtxSsrc rid)
    else fresh

/-- The checks of `configure_stream`. -/
def checkStream (codec : String) (payloadType : UInt16) (rtxPayloadType : Option UInt16) :
    Except PyErr (VideoCodec × UInt8 × Option UInt8) := do
  let codec ← parseVideoCodec codec
  let payloadType ← validatePayloadType payloadType "payload_type"
  let rtxPayloadType ← match rtxPayloadType with
    | none => pure none
    | some payloadType => do
      let payloadType ← validatePayloadType payloadType "rtx_payload_type"
      pure (some payloadType)
  return (codec, payloadType, rtxPayloadType)

def configureStream (s : VideoSendPipelineState ρ) (codec : String) (mediaSsrc : UInt32)
    (payloadType : UInt16) (rtxPayloadType : Option UInt16) (rtxSsrc : UInt32) (rid : String)
    (sequence : UInt16) (timestamp : UInt32) :
    Except PyErr Unit × VideoSendPipelineState ρ :=
  match checkStream codec payloadType rtxPayloadType with
  | .error e => (.error e, s)
  | .ok (codec, payloadType, rtxPayloadType) =>
    (.ok (), s.configure clock codec mediaSsrc payloadType rtxPayloadType rtxSsrc rid sequence
      timestamp)

def retainStreams (s : VideoSendPipelineState ρ) (mediaSsrcs : List UInt32) :
    VideoSendPipelineState ρ :=
  { s with streams := fun mediaSsrc =>
      if mediaSsrc ∈ mediaSsrcs then s.streams mediaSsrc else none }

def clear (_s : VideoSendPipelineState ρ) (transportSequence : UInt16) :
    VideoSendPipelineState ρ where
  streams := fun _ => none
  transportSequence := transportSequence

def unknownStream (mediaSsrc : UInt32) : SendError :=
  .value s!"Unknown video stream SSRC: {mediaSsrc}"

def prepareVideoFrameInner (b : Build) (s : VideoSendPipelineState ρ) (mediaSsrc : UInt32)
    (frame : Bytes) (metadataFrame : Option Bytes) (frameTimeMs : τ) (mediaStreamType : String)
    (now : ℕ → UInt32) : Fallible SendError PreparedVideoSend × VideoSendPipelineState ρ :=
  match s.streams mediaSsrc with
  | none => (.error (.err (unknownStream mediaSsrc)), s)
  | some stream =>
    let rtpTimestamp := stream.packetizer.timestamp
    match stream.packetizer.packetize clock b frame metadataFrame frameTimeMs with
    | (.error e, packetizer) =>
      (.error (packetError e), s.setStream mediaSsrc { stream with packetizer })
    | (.ok packets, packetizer) =>
      match prepareMediaPackets mediaStreamType now { stream with packetizer } s.transportSequence
        packets with
      | (.error e, stream, transportSequence) =>
        (.error (.err e), { s.setStream mediaSsrc stream with transportSequence })
      | (.ok prepared, stream, transportSequence) =>
        (.ok { packets := prepared
               transportSequence
               rtpTimestamp
               lastSequence := packets.getLast?.map MediaPacket.sequence },
          { s.setStream mediaSsrc stream with transportSequence })

/-- What `prepare_video_rtx_packet_inner` returns without a packet. -/
def nothingPrepared (s : VideoSendPipelineState ρ) : PreparedRTXSend where
  packet := none
  rtxSsrc := 0
  rtxSequence := 0
  transportSequence := s.transportSequence

def prepareVideoRtxPacketInner (s : VideoSendPipelineState ρ) (mediaSsrc : UInt32)
    (sequence : UInt16) (mediaStreamType : String) (now : UInt32) :
    Except SendError PreparedRTXSend × VideoSendPipelineState ρ :=
  match s.streams mediaSsrc with
  | none => (.error (unknownStream mediaSsrc), s)
  | some stream => match stream.rtxPayloadType with
    | none => (.ok s.nothingPrepared, s)
    | some rtxPayloadType =>
      if stream.rtxSsrc = 0 then (.ok s.nothingPrepared, s)
      else match stream.rtxCache sequence with
        | none => (.ok s.nothingPrepared, s)
        | some packet =>
          let rtxSequence := stream.rtxSequence + 1
          let transportSequence := s.transportSequence + 1
          let s := { s.setStream mediaSsrc { stream with rtxSequence } with transportSequence }
          match withExtension
            (newHeader rtxPayloadType rtxSequence packet.timestamp stream.rtxSsrc packet.marker
              false)
            (buildVideoExtensionPayload transportSequence stream.rid mediaStreamType true now)
            (u16BeBytes packet.sequence ++ packet.payload) with
          | .error e => (.error e, s)
          | .ok prepared =>
            (.ok { packet := some prepared
                   rtxSsrc := stream.rtxSsrc
                   rtxSequence
                   transportSequence }, s)

/-- What the loops of `prepare_video_rtx_for_nack_inner` have put together so far. -/
structure Resend where
  packets : List PreparedRTPPacket := []
  resent : ℕ := 0
  rtxSsrc : UInt32 := 0
  lastRtxSequence : UInt16 := 0
  deriving DecidableEq

def Resend.add (r : Resend) (prepared : PreparedRTXSend) : Resend :=
  match prepared.packet with
  | none => r
  | some packet =>
    { packets := r.packets ++ [packet]
      resent := r.resent + 1
      rtxSsrc := prepared.rtxSsrc
      lastRtxSequence := prepared.rtxSequence }

/-- Preparing packets of a stream to be sent again, one after the other. The clock is read once for
every packet that is prepared. -/
def prepareResends (mediaSsrc : UInt32) (mediaStreamType : String) (now : ℕ → UInt32)
    (s : VideoSendPipelineState ρ) (r : Resend) :
    List UInt16 → Except SendError Resend × VideoSendPipelineState ρ
  | [] => (.ok r, s)
  | sequence :: sequences =>
    match s.prepareVideoRtxPacketInner mediaSsrc sequence mediaStreamType (now r.resent) with
    | (.error e, s) => (.error e, s)
    | (.ok prepared, s) =>
      prepareResends mediaSsrc mediaStreamType now s (r.add prepared) sequences

/-- The sequence numbers that the two loops of `prepare_video_rtx_for_nack_inner` go through for a
`chunk`: `pid`, and one for each bit of `blp` that is set. -/
def nackSequences (pid blp : UInt16) : List UInt16 :=
  pid :: ((List.range 16).filter fun bit => blp &&& 1 <<< UInt16.ofNat bit != 0).map
    fun bit => pid + UInt16.ofNat (bit + 1)

/-- The sequence numbers of `chunks_exact(4)`. -/
def nackBodySequences : Bytes → List UInt16
  | p0 :: p1 :: b0 :: b1 :: chunks =>
    nackSequences (u16FromBe p0 p1) (u16FromBe b0 b1) ++ nackBodySequences chunks
  | _ => []

def prepareVideoRtxForNackInner (s : VideoSendPipelineState ρ) (payload : Bytes)
    (mediaStreamType : String) (now : ℕ → UInt32) :
    Except SendError PreparedNackResend × VideoSendPipelineState ρ :=
  match payload with
  | r0 :: r1 :: r2 :: r3 :: chunks =>
    if chunks.length < 4 then (.ok ⟨[], ⟨0, 0, 0, 0, s.transportSequence⟩⟩, s)
    else
      let mediaSsrc := u32FromBe r0 r1 r2 r3
      if (s.streams mediaSsrc).isNone then
        (.ok ⟨[], ⟨0, mediaSsrc, 0, 0, s.transportSequence⟩⟩, s)
      else match s.prepareResends mediaSsrc mediaStreamType now {} (nackBodySequences chunks) with
        | (.error e, s) => (.error e, s)
        | (.ok r, s) =>
          (.ok { packets := r.packets
                 summary := {
                   resent := r.resent
                   mediaSsrc
                   rtxSsrc := r.rtxSsrc
                   lastRtxSequence := r.lastRtxSequence
                   transportSequence := s.transportSequence } }, s)
  | _ => (.ok ⟨[], ⟨0, 0, 0, 0, s.transportSequence⟩⟩, s)

end VideoSendPipelineState

end NativeVoice.Send
