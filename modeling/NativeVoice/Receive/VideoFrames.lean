import NativeVoice.Lib.Batch
import NativeVoice.Receive.Dave
import NativeVoice.Receive.ReorderBuffer
import NativeVoice.Receive.VideoDepacketizer

/-!
# Received video

How the receiver of `src/discord/ext/native_voice/client.py` makes frames of video packets:
`_decode_video_packets` and `_decode_video_frame`, and the queue of the frames that the DAVE session
cannot decrypt yet.

An SSRC with a payload type is a `StreamKey`. Each has a reorder buffer, a depacketizer and the list
of the RTP packets since the last frame. Statistics and RTCP times are left out.

* `stashDaveVideoFrame_spec` and `retryLoop_spec`: what is queued, and what comes out of the queue.
* `completeVideoFrame_spec`: what becomes of a frame that is put together.
* `decodeVideoFrame_of_error`, `_of_none` and `_of_some`: `_decode_video_frame`, by what the
  depacketizer says.
-/

namespace NativeVoice.Receive

open Video Transport Lib Batch

/-- `MediaPacket` of `src/discord/ext/native_voice/media.py`. -/
structure MediaPacket where
  mediaType : MediaType
  codec : String
  payload : Bytes
  payloadType : UInt8
  marker : Bool
  sequence : UInt16
  timestamp : UInt32
  ssrc : UInt32
  userId : Option ℕ
  raw : Bytes
  extensionPayload : Bytes
  rtpExtended : Bool
  rtpExtensions : List (UInt8 × Bytes)
  rtpPackets : List RTPPacket
  receivedAt : ℚ
  deriving DecidableEq

structure ReceivedVideoPacket where
  decoded : DecodedRTPPacket
  codec : String
  ssrc : UInt32
  userId : Option ℕ
  raw : Bytes
  rtpPacket : RTPPacket
  receivedAt : ℚ
  deriving DecidableEq

structure PendingDaveVideoFrame where
  decoded : DecodedRTPPacket
  codec : String
  ssrc : UInt32
  userId : Option ℕ
  raw : Bytes
  payload : Bytes
  rtpPackets : List RTPPacket
  receivedAt : ℚ
  queuedAt : ℚ
  deriving DecidableEq

abbrev StreamKey := UInt32 × UInt8

def ReceivedVideoPacket.key (p : ReceivedVideoPacket) : StreamKey := (p.ssrc, p.decoded.payloadType)

/-- What the receiver keeps between packets. The list of a key that has none is empty. -/
structure ReceiveState (σ : Type) where
  environment : σ
  reorderBuffers : StreamKey → Option (ReorderBuffer ReceivedVideoPacket) := fun _ => none
  depacketizers : StreamKey → Option VideoDepacketizer := fun _ => none
  frameRtpPackets : StreamKey → List RTPPacket := fun _ => []
  pendingDaveVideoFrames : List PendingDaveVideoFrame := []

/-- The settings of the receiver, and the payload of a silent Opus packet. -/
structure Receiver (σ : Type) where
  build : Build
  env : Environment σ
  opusSilence : Bytes
  videoReceiveReorderMaxPackets : ℤ
  videoReceiveReorderMaxDelay : ℚ

/-- The exceptions of the methods below. -/
inductive ReceiveError
  | unsupportedVideoCodec (codec : String)
  | packet (e : Stop PacketError)
  deriving DecidableEq

def ReceiveError.message : ReceiveError → String
  | unsupportedVideoCodec codec => s!"Unsupported video codec: {codec}"
  | packet (.err e) => e.toString
  | packet .panic => ""

def makeVideoDepacketizer (codec : String) : Except ReceiveError VideoDepacketizer :=
  match VideoDepacketizer.factories codec.toUpper with
  | some depacketizer => .ok depacketizer
  | none => .error (.unsupportedVideoCodec codec)

def makeVideoMediaPacket (decoded : DecodedRTPPacket) (codec : String) (ssrc : UInt32)
    (userId : Option ℕ) (raw payload : Bytes) (rtpPackets : List RTPPacket) (receivedAt : ℚ) :
    MediaPacket where
  mediaType := .video
  codec := codec
  payload := payload
  payloadType := decoded.payloadType
  marker := true
  sequence := decoded.sequence
  timestamp := decoded.timestamp
  ssrc := ssrc
  userId := userId
  raw := raw
  extensionPayload := decoded.extensionPayload
  rtpExtended := decoded.extended
  rtpExtensions := decoded.rtpExtensions
  rtpPackets := rtpPackets
  receivedAt := receivedAt

/-! ## Frames that wait for the DAVE session -/

section Pending

variable {σ : Type} (env : Environment σ)

/-- The frames that are not too old, from the first one on. -/
def unexpired (now : ℚ) (frames : List PendingDaveVideoFrame) : List PendingDaveVideoFrame :=
  frames.dropWhile fun frame => now - frame.queuedAt > DAVE_PENDING_VIDEO_MAX_AGE

def stashDaveVideoFrame (st : ReceiveState σ) (p : ReceivedVideoPacket) (payload : Bytes)
    (rtpPackets : List RTPPacket) : ReceiveState σ :=
  let (now, environment) := env.perfCounter st.environment
  let frames := unexpired now st.pendingDaveVideoFrames
  let frames := if frames.length ≥ DAVE_PENDING_VIDEO_MAX_FRAMES then frames.tail else frames
  let frame := {
    decoded := p.decoded
    codec := p.codec
    ssrc := p.ssrc
    userId := p.userId
    raw := p.raw
    payload := payload
    rtpPackets := rtpPackets
    receivedAt := p.receivedAt
    queuedAt := now }
  { st with environment, pendingDaveVideoFrames := frames ++ [frame] }

/-- The loop of `_retry_pending_dave_video_frames`: the media packets of the frames that are
decrypted, and the frames that remain. -/
def retryLoop (now : ℚ) (s : σ) :
    List PendingDaveVideoFrame → List MediaPacket × List PendingDaveVideoFrame × σ
  | [] => ([], [], s)
  | frame :: frames =>
    if now - frame.queuedAt > DAVE_PENDING_VIDEO_MAX_AGE then retryLoop now s frames
    else
      let (canAttempt, s) := env.canAttemptVideoDaveDecrypt frame.userId s
      if !canAttempt then
        let (ready, remaining, s) := retryLoop now s frames
        (ready, frame :: remaining, s)
      else match env.decryptVideoFrame frame.userId frame.payload s with
        | (.error exc, s) =>
          let (ready, remaining, s) := retryLoop now s frames
          (ready, if isRetryableDaveDecryptError exc then frame :: remaining else remaining, s)
        | (.ok payload, s) =>
          let (ready, remaining, s) := retryLoop now s frames
          (makeVideoMediaPacket frame.decoded frame.codec frame.ssrc frame.userId frame.raw payload
            frame.rtpPackets frame.receivedAt :: ready, remaining, s)

def retryPendingDaveVideoFrames (st : ReceiveState σ) : List MediaPacket × ReceiveState σ :=
  if st.pendingDaveVideoFrames.isEmpty then ([], st)
  else
    let (now, s) := env.perfCounter st.environment
    let (ready, remaining, s) := retryLoop env now s st.pendingDaveVideoFrames
    (ready, { st with environment := s, pendingDaveVideoFrames := remaining })

/-- A frame of `p`, as it is queued. -/
def ReceivedVideoPacket.pending (p : ReceivedVideoPacket) (payload : Bytes)
    (rtpPackets : List RTPPacket) (queuedAt : ℚ) : PendingDaveVideoFrame where
  decoded := p.decoded
  codec := p.codec
  ssrc := p.ssrc
  userId := p.userId
  raw := p.raw
  payload := payload
  rtpPackets := rtpPackets
  receivedAt := p.receivedAt
  queuedAt := queuedAt

/-- The frame of `p` is queued behind frames that were in the queue; nothing else changes. -/
theorem stashDaveVideoFrame_spec (st : ReceiveState σ) (p : ReceivedVideoPacket) (payload : Bytes)
    (rtpPackets : List RTPPacket) : ∃ environment frames queuedAt,
      stashDaveVideoFrame env st p payload rtpPackets =
        { st with
          environment
          pendingDaveVideoFrames := frames ++ [p.pending payload rtpPackets queuedAt] } ∧
      frames.Sublist st.pendingDaveVideoFrames := by
  refine ⟨_, _, _, rfl, ?_⟩
  have hdrop : (unexpired (env.perfCounter st.environment).1 st.pendingDaveVideoFrames).Sublist
      st.pendingDaveVideoFrames := List.dropWhile_sublist _
  split
  · exact (List.tail_sublist _).trans hdrop
  · exact hdrop

/-- A media packet that is made of a frame in the queue. -/
def PendingDaveVideoFrame.Yields (env : Environment σ) (frame : PendingDaveVideoFrame)
    (m : MediaPacket) : Prop :=
  ∃ payload, env.Opens frame.payload payload ∧
    m = makeVideoMediaPacket frame.decoded frame.codec frame.ssrc frame.userId frame.raw payload
      frame.rtpPackets frame.receivedAt

theorem retryLoop_spec (now : ℚ) (s : σ) (frames : List PendingDaveVideoFrame) :
    (∀ m ∈ (retryLoop env now s frames).1, ∃ frame ∈ frames, frame.Yields env m) ∧
      ∀ frame ∈ (retryLoop env now s frames).2.1, frame ∈ frames := by
  induction frames generalizing s with
  | nil => exact ⟨fun _ hm => absurd hm List.not_mem_nil, fun f hf => hf⟩
  | cons frame frames ih =>
    -- what comes of the frames behind the first one
    have hready : ∀ s, ∀ m ∈ (retryLoop env now s frames).1,
        ∃ f ∈ frame :: frames, f.Yields env m := fun s m hm =>
      ((ih s).1 m hm).imp fun f hf => ⟨List.mem_cons_of_mem _ hf.1, hf.2⟩
    have hremaining : ∀ s, ∀ f ∈ (retryLoop env now s frames).2.1, f ∈ frame :: frames :=
      fun s f hf => List.mem_cons_of_mem _ ((ih s).2 f hf)
    have hkept : ∀ s, ∀ f ∈ frame :: (retryLoop env now s frames).2.1, f ∈ frame :: frames :=
      fun s f hf => (List.mem_cons.1 hf).elim (fun heq => heq ▸ List.mem_cons_self)
        (hremaining s f)
    unfold retryLoop
    split
    · exact ⟨hready s, hremaining s⟩
    dsimp only
    split
    · exact ⟨hready _, hkept _⟩
    split
    · refine ⟨hready _, fun f hf => ?_⟩
      dsimp only at hf
      split at hf
      · exact hkept _ f hf
      · exact hremaining _ f hf
    · rename_i payload s' hdecrypt
      refine ⟨fun m hm => ?_, hremaining _⟩
      rcases List.mem_cons.1 hm with rfl | hm
      · exact ⟨frame, List.mem_cons_self, payload,
          Environment.opens_decryptVideoFrame (congrArg Prod.fst hdecrypt), rfl⟩
      · exact hready _ m hm

/-- Only the queue and the environment change, and the queue gets no new frames. -/
theorem retryPendingDaveVideoFrames_spec (st : ReceiveState σ) : ∃ environment frames,
    (retryPendingDaveVideoFrames env st).2 =
      { st with environment, pendingDaveVideoFrames := frames } ∧
    (∀ f ∈ frames, f ∈ st.pendingDaveVideoFrames) ∧
    ∀ m ∈ (retryPendingDaveVideoFrames env st).1,
      ∃ frame ∈ st.pendingDaveVideoFrames, frame.Yields env m := by
  unfold retryPendingDaveVideoFrames
  split
  · exact ⟨_, _, rfl, fun f hf => hf, fun _ hm => absurd hm List.not_mem_nil⟩
  · have h := retryLoop_spec env (env.perfCounter st.environment).1
      (env.perfCounter st.environment).2 st.pendingDaveVideoFrames
    exact ⟨_, _, rfl, h.2, h.1⟩

end Pending

/-! ## Frames -/

namespace Receiver

variable {σ : Type} (r : Receiver σ)

/-- `_decode_video_frame` behind the depacketizer, which has put `frame` together. -/
def completeVideoFrame (st : ReceiveState σ) (p : ReceivedVideoPacket) (frame : Bytes)
    (rtpPackets : List RTPPacket) : Option MediaPacket × ReceiveState σ :=
  let looksLikeDave := looksLikeDaveProtocolFrame frame
  let (canAttempt, s) := if looksLikeDave
    then r.env.canAttemptVideoDaveDecrypt p.userId st.environment else (true, st.environment)
  if looksLikeDave && !canAttempt then
    (none, stashDaveVideoFrame r.env { st with environment := s } p frame rtpPackets)
  else match r.env.decryptVideoFrame p.userId frame s with
    | (.error exc, s) =>
      let st := { st with environment := s }
      if looksLikeDave && isRetryableDaveDecryptError exc then
        (none, stashDaveVideoFrame r.env st p frame rtpPackets)
      else (none, st)
    | (.ok payload, s) =>
      (some (makeVideoMediaPacket p.decoded p.codec p.ssrc p.userId p.raw payload rtpPackets
        p.receivedAt), { st with environment := s })

/-- The depacketizer of a packet, which is made for the first one of its key. -/
def depacketizerFor (st : ReceiveState σ) (p : ReceivedVideoPacket) :
    Except ReceiveError VideoDepacketizer :=
  match st.depacketizers p.key with
  | some depacketizer => .ok depacketizer
  | none => makeVideoDepacketizer p.codec

/-- `depacketizer.push_packet` with the fields of a packet. -/
def pushDecoded (depacketizer : VideoDepacketizer) (decoded : DecodedRTPPacket) :
    Fallible PacketError (Option Bytes) × VideoDepacketizer :=
  depacketizer.pushPacket r.build decoded.payload decoded.marker decoded.sequence decoded.timestamp

def decodeVideoFrame (st : ReceiveState σ) (p : ReceivedVideoPacket) :
    Except ReceiveError (Option MediaPacket) × ReceiveState σ :=
  match depacketizerFor st p with
  | .error e => (.error e, st)
  | .ok depacketizer =>
    let frameRtpPackets := st.frameRtpPackets p.key ++ [p.rtpPacket]
    match r.pushDecoded depacketizer p.decoded with
    | (.error e, depacketizer) =>
      (.error (.packet e), { st with
        depacketizers := Function.update st.depacketizers p.key (some depacketizer)
        frameRtpPackets := Function.update st.frameRtpPackets p.key frameRtpPackets })
    | (.ok none, depacketizer) =>
      (.ok none, { st with
        depacketizers := Function.update st.depacketizers p.key (some depacketizer)
        frameRtpPackets := Function.update st.frameRtpPackets p.key
          (if p.decoded.marker then [] else frameRtpPackets) })
    | (.ok (some frame), depacketizer) =>
      let (packet, st) := r.completeVideoFrame { st with
        depacketizers := Function.update st.depacketizers p.key (some depacketizer)
        frameRtpPackets := Function.update st.frameRtpPackets p.key [] } p frame frameRtpPackets
      (.ok packet, st)

/-- The packets of a key that are ready with a packet of it. -/
def readyVideoPackets (rtxEnabled : Bool) (st : ReceiveState σ) (p : ReceivedVideoPacket) :
    List ReceivedVideoPacket × ReceiveState σ :=
  if rtxEnabled then
    let buffer := (st.reorderBuffers p.key).getD {
      maxPackets := (max 1 r.videoReceiveReorderMaxPackets).toNat
      maxDelay := r.videoReceiveReorderMaxDelay }
    let (now, environment) := r.env.perfCounter st.environment
    let (ready, buffer) := buffer.push p.decoded.sequence p now
    (ready, { st with
      environment
      reorderBuffers := Function.update st.reorderBuffers p.key (some buffer) })
  else ([p], st)

/-- A call of `_decode_video_frame` in the loop of `_decode_video_packets`. -/
def decodeReadyPacket (st : ReceiveState σ) (p : ReceivedVideoPacket) :
    Except ReceiveError (List MediaPacket) × ReceiveState σ :=
  let (packet, st) := r.decodeVideoFrame st p
  (packet.map Option.toList, st)

def decodeVideoPackets (rtxEnabled : Bool) (st : ReceiveState σ) (p : ReceivedVideoPacket) :
    Except ReceiveError (List MediaPacket) × ReceiveState σ :=
  let (ready, st) := r.readyVideoPackets rtxEnabled st p
  collect r.decodeReadyPacket st ready

variable {r}

/-- **A frame that is put together** is delivered, opened, with the RTP packets that are given for
it, or queued with them, or dropped; the depacketizers do not change. -/
theorem completeVideoFrame_spec (st : ReceiveState σ) (p : ReceivedVideoPacket) (frame : Bytes)
    (rtpPackets : List RTPPacket) : ∃ environment frames,
      (r.completeVideoFrame st p frame rtpPackets).2 =
        { st with environment, pendingDaveVideoFrames := frames } ∧
      (∀ f ∈ frames, f ∈ st.pendingDaveVideoFrames ∨ f.ssrc = p.ssrc ∧ f.decoded = p.decoded ∧
        f.payload = frame ∧ f.rtpPackets = rtpPackets) ∧
      ∀ m, (r.completeVideoFrame st p frame rtpPackets).1 = some m → ∃ payload,
        r.env.Opens frame payload ∧ m = makeVideoMediaPacket p.decoded p.codec p.ssrc p.userId p.raw
          payload rtpPackets p.receivedAt := by
  have hstash : ∀ s, ∃ environment frames,
      stashDaveVideoFrame r.env { st with environment := s } p frame rtpPackets =
        { st with environment, pendingDaveVideoFrames := frames } ∧
      ∀ f ∈ frames, f ∈ st.pendingDaveVideoFrames ∨ f.ssrc = p.ssrc ∧ f.decoded = p.decoded ∧
        f.payload = frame ∧ f.rtpPackets = rtpPackets := by
    intro s
    obtain ⟨environment, frames, queuedAt, heq, hold⟩ :=
      stashDaveVideoFrame_spec r.env { st with environment := s } p frame rtpPackets
    refine ⟨environment, _, heq, fun g hg => ?_⟩
    rcases List.mem_append.1 hg with hg | hg
    · exact .inl (hold.subset hg)
    · obtain rfl := List.mem_singleton.1 hg
      exact .inr ⟨rfl, rfl, rfl, rfl⟩
  unfold completeVideoFrame
  dsimp only
  generalize (if looksLikeDaveProtocolFrame frame = true then _ else _ : Bool × σ) = attempt
  split
  · obtain ⟨environment, frames, heq, hframes⟩ := hstash _
    exact ⟨environment, frames, heq, hframes, fun m hm => by cases hm⟩
  split
  · split
    · obtain ⟨environment, frames, heq, hframes⟩ := hstash _
      exact ⟨environment, frames, heq, hframes, fun m hm => by cases hm⟩
    · exact ⟨_, _, rfl, fun f hf => .inl hf, fun m hm => by cases hm⟩
  · rename_i payload s hdecrypt
    refine ⟨_, _, rfl, fun f hf => .inl hf, fun m hm => ?_⟩
    exact ⟨payload, Environment.opens_decryptVideoFrame (congrArg Prod.fst hdecrypt),
      (Option.some.inj hm).symm⟩

section decodeVideoFrame

variable {st : ReceiveState σ} {p : ReceivedVideoPacket} {d d' : VideoDepacketizer}

theorem decodeVideoFrame_of_unsupported {e : ReceiveError} (h : depacketizerFor st p = .error e) :
    r.decodeVideoFrame st p = (.error e, st) := by
  simp only [decodeVideoFrame, h]

/-- The state once the depacketizer of a packet has become `d`, with these RTP packets kept. -/
def keep (st : ReceiveState σ) (p : ReceivedVideoPacket) (d : VideoDepacketizer)
    (frameRtpPackets : List RTPPacket) : ReceiveState σ :=
  { st with
    depacketizers := Function.update st.depacketizers p.key (some d)
    frameRtpPackets := Function.update st.frameRtpPackets p.key frameRtpPackets }

theorem decodeVideoFrame_of_error {e : Stop PacketError} (h : depacketizerFor st p = .ok d)
    (hpush : r.pushDecoded d p.decoded = (.error e, d')) : r.decodeVideoFrame st p =
      (.error (.packet e), keep st p d' (st.frameRtpPackets p.key ++ [p.rtpPacket])) := by
  simp only [decodeVideoFrame, h, hpush, keep]

theorem decodeVideoFrame_of_none (h : depacketizerFor st p = .ok d)
    (hpush : r.pushDecoded d p.decoded = (.ok none, d')) : r.decodeVideoFrame st p =
      (.ok none, keep st p d'
        (if p.decoded.marker then [] else st.frameRtpPackets p.key ++ [p.rtpPacket])) := by
  simp only [decodeVideoFrame, h, hpush, keep]

theorem decodeVideoFrame_of_some {frame : Bytes} (h : depacketizerFor st p = .ok d)
    (hpush : r.pushDecoded d p.decoded = (.ok (some frame), d')) : r.decodeVideoFrame st p =
      let (packet, st') := r.completeVideoFrame (keep st p d' []) p frame
        (st.frameRtpPackets p.key ++ [p.rtpPacket])
      (.ok packet, st') := by
  simp only [decodeVideoFrame, h, hpush, keep]

end decodeVideoFrame

end Receiver

end NativeVoice.Receive
