import NativeVoice.Media.ConfigKeyframes
import NativeVoice.Send.VideoStreams
import NativeVoice.Video.StripFiller

/-!
# Sending frames, and sending keyframes again

`send_video_frame`, `send_video_frames`, `_handle_rtcp_pli` and `_send_requested_video_keyframes` of
`src/discord/ext/native_voice/client.py`, and what they call. The frames since the last keyframe
that carried its parameter sets are kept, and sent again to those who ask for one.

* `sendVideoFrame` sends a frame on one of the active streams.
* `VideoClient.run` are the runs of a client: calls of the application and the player, of the
  gateway, and of the packets of others, in any order.
* `Fits.step`: the codecs and streams that a client uses are those that were negotiated.
* `consistent_run`: a client is at one with its pipeline, in every run.
-/

namespace NativeVoice.Send

open Lib Video Receive Media

/-- What a call of `send_video_frame` meets: the DAVE session, which may raise, the clock, where the
pipeline is interrupted, and whether the socket takes the sender report. -/
structure FrameEnv where
  applyDave : Bytes → Option Bytes := some
  now : ℕ → UInt32 := fun _ => 0
  interrupted : Option ℕ := none
  reportAccepted : Bool := true

/-- The length of a packet once it is sealed. -/
def sealedLength (packet : PreparedRTPPacket) : ℕ :=
  packet.header.length + packet.payload.length + 20

theorem length_encryptRtp {aead : Aead} (haead : aead.Lawful) {crypto : TransportCrypto}
    {packet : PreparedRTPPacket} {data : Bytes}
    (h : (crypto.encryptRtp aead packet.header packet.payload).1 = .ok data) :
    data.length = sealedLength packet := by
  obtain ⟨ciphertext, hsealed, rfl⟩ := TransportCrypto.encryptRtp_eq_ok.1 h
  have hlen := haead.length_encrypt _ _ _ _ _ _ hsealed
  simp only [List.length_append, length_u32LeBytes, sealedLength]
  omega

/-- The codecs with parameter sets. -/
def nalCodecOf (codec : String) : Option Media.NalCodec :=
  if codec.toUpper = "H264" then some .h264 else if codec.toUpper = "H265" then some .h265 else none

/-- `_is_config_keyframe`. -/
def isConfigKeyframeOf (codec : String) (frame : Bytes) : Bool :=
  (nalCodecOf codec).any (isConfigKeyframe · frame)

namespace VideoClient

variable {τ ρ : Type}

/-! ## One frame -/

/-- `_resolve_video_send_stream`. -/
def resolveVideoSendStream (c : VideoClient τ ρ) :
    Option VoiceStream → Except ClientError NegotiatedStream
  | none => match c.activeVideoStreams with
    | [] => .error .noActiveStream
    | stream :: _ => .ok stream
  | some stream =>
    match c.activeVideoStreams.find? fun active =>
      active.1.ssrc = stream.ssrc ∨ active.1.rid = stream.rid with
    | none => .error .streamNotActive
    | some active => .ok active

/-- `_cache_video_frame`. -/
def cacheVideoFrame (maxFrames : ℤ) (c : VideoClient τ ρ) (mediaSsrc : UInt32)
    (frame : CachedFrame τ) : VideoClient τ ρ :=
  match c.videoCodec with
  | none => c
  | some codec =>
    if c.videoKeyframeReplayActive then c
    else
      let config := isConfigKeyframeOf codec frame.frame
      let c := { c with events := c.events ++ [VideoEvent.taken mediaSsrc frame config] }
      if config then
        { c with videoKeyframes := Function.update c.videoKeyframes mediaSsrc (some [frame]) }
      else match c.videoKeyframes mediaSsrc with
      | none => c
      | some frames =>
        if (frames.length : ℤ) ≥ max 1 maxFrames then
          { c with videoKeyframes := Function.update c.videoKeyframes mediaSsrc none }
        else
          { c with
            videoKeyframes :=
              Function.update c.videoKeyframes mediaSsrc (some (frames ++ [frame])) }

/-- `_record_video_packet_send`. -/
def recordVideoPacketSend (c : VideoClient τ ρ) (ssrc : UInt32) (packets octets : ℕ) :
    VideoClient τ ρ :=
  { c with
    videoPacketCounts := Function.update c.videoPacketCounts ssrc
      (some ((c.videoPacketCounts ssrc).getD 0 + packets))
    videoOctetCounts := Function.update c.videoOctetCounts ssrc
      (some (((c.videoOctetCounts ssrc).getD 0 + octets) % 2 ^ 32)) }

variable (clock : TickClock τ ρ) (b : Build) (media : MediaClock τ) (settings : VideoSettings)

/-- `_maybe_send_video_rtcp_sender_report`. A report that the socket does not take is dropped, and
counts as sent all the same. -/
def maybeSendVideoRtcpSenderReport (c : VideoClient τ ρ) (mediaSsrc rtpTimestamp : UInt32)
    (accepted : Bool) : VideoClient τ ρ :=
  let mediaTimeMs := (c.videoMediaTimesMs mediaSsrc).getD media.zero
  let lastRtcpMediaTimeMs := (c.videoLastRtcpMediaTimesMs mediaSsrc).getD media.minusOne
  if media.second mediaTimeMs ≤ media.second lastRtcpMediaTimeMs then c
  else { c with
    events := c.events ++ [.report {
      ssrc := mediaSsrc
      rtpTimestamp
      packetCount := (c.videoPacketCounts mediaSsrc).getD 0 % 2 ^ 32
      octetCount := (c.videoOctetCounts mediaSsrc).getD 0 % 2 ^ 32 } accepted]
    videoLastRtcpMediaTimesMs :=
      Function.update c.videoLastRtcpMediaTimesMs mediaSsrc (some mediaTimeMs) }

/-- The frame `data` was sent. -/
def logSent (c : VideoClient τ ρ) (mediaSsrc : UInt32) (data : Bytes) (packets octets : ℕ)
    (rtpTimestamp : UInt32) : VideoClient τ ρ :=
  { c with
    events := c.events ++ [.sent mediaSsrc data packets octets rtpTimestamp
      ((c.videoMediaTimesMs mediaSsrc).getD media.zero)] }

def setSender (c : VideoClient τ ρ) (sender : VideoSender ρ) : VideoClient τ ρ := { c with sender }

/-- `_send_video_frame_raw`, for the frame that was handed over as `data`. -/
def sendVideoFrameRaw (c : VideoClient τ ρ) (codec : String) (mediaSsrc : UInt32)
    (data originalFrame frame : Bytes) (frameTimeMs : τ) (env : FrameEnv) :
    Except ClientError ℕ × VideoClient τ ρ :=
  let metadataFrame := if codec.toUpper = "VP9" then some originalFrame else none
  let prepared := (c.sender.pipeline.prepareVideoFrameInner clock b mediaSsrc frame metadataFrame
    frameTimeMs settings.mediaStreamType env.now).1
  let c := c.setSender (c.sender.sendVideoFrameRaw clock b codec mediaSsrc originalFrame frame
    frameTimeMs settings.mediaStreamType env.now env.interrupted)
  match prepared with
  | .error _ => (.error .send, c)
  | .ok prepared =>
    if env.interrupted.isSome then (.error .send, c)
    else
      let sent := prepared.packets.length
      let octets := (prepared.packets.map sealedLength).sum
      let c := c.logSent media mediaSsrc data sent octets prepared.rtpTimestamp
      if sent = 0 then (.ok 0, c)
      else
        let c := c.recordVideoPacketSend mediaSsrc sent octets
        (.ok sent, c.maybeSendVideoRtcpSenderReport media mediaSsrc prepared.rtpTimestamp
          env.reportAccepted)

/-- A call that raises goes into the history. -/
def logFailed (stream : Option VoiceStream) (data : Bytes) :
    Except ClientError ℕ × VideoClient τ ρ → Except ClientError ℕ × VideoClient τ ρ
  | (.error e, c) => (.error e, { c with events := c.events ++ [.failed stream data] })
  | (.ok sent, c) => (.ok sent, c)

/-- The body of `send_video_frame`. -/
def sendVideoFrameInner (c : VideoClient τ ρ) (data : Bytes) (frameTimeMs : τ)
    (stream : Option VoiceStream) (env : FrameEnv) : Except ClientError ℕ × VideoClient τ ρ :=
  if !c.connected then (.error .notConnected, c)
  else match c.videoCodec with
  | none => (.error .videoNotStarted, c)
  | some codec => match c.resolveVideoSendStream stream with
    | .error e => (.error e, c)
    | .ok stream =>
      let mediaSsrc := stream.ssrc
      let originalFrame := if codec.toUpper = "H264" then stripH264FillerNalus data else data
      let c := c.cacheVideoFrame settings.videoKeyframeReplayMaxFrames mediaSsrc
        ⟨originalFrame, frameTimeMs, stream⟩
      match env.applyDave originalFrame with
      | none => (.error .dave, c)
      | some frame =>
        let frameTimeMs := media.atLeast frameTimeMs
        let mediaTimeMs := (c.videoMediaTimesMs mediaSsrc).getD media.zero
        match c.sendVideoFrameRaw clock b media settings codec mediaSsrc data originalFrame frame
          frameTimeMs env with
        | (.error e, c) => (.error e, c)
        | (.ok sent, c) =>
          (.ok sent, { c with
            videoMediaTimesMs := Function.update c.videoMediaTimesMs mediaSsrc
              (some (media.add mediaTimeMs frameTimeMs)) })

/-- `send_video_frame`. -/
def sendVideoFrame (c : VideoClient τ ρ) (data : Bytes) (frameTimeMs : τ)
    (stream : Option VoiceStream) (env : FrameEnv) : Except ClientError ℕ × VideoClient τ ρ :=
  logFailed stream data (c.sendVideoFrameInner clock b media settings data frameTimeMs stream env)

/-! ## Several frames -/

/-- `send_video_frames`. -/
def sendVideoFrames (env : ℕ → FrameEnv) (c : VideoClient τ ρ) (sent : ℕ) :
    List (String × Bytes × τ) → Except ClientError ℕ × VideoClient τ ρ
  | [] => (.ok sent, c)
  | (rid, data, frameTimeMs) :: frames =>
    match c.activeVideoStreamsByRid rid with
    | none => sendVideoFrames (fun i => env (i + 1)) c sent frames
    | some stream =>
      match c.sendVideoFrame clock b media settings data (media.atLeast frameTimeMs) (some stream.1)
        (env 0) with
      | (.error e, c) => (.error e, c)
      | (.ok packets, c) => sendVideoFrames (fun i => env (i + 1)) c (sent + packets) frames

/-- `_handle_rtcp_pli`. -/
def handleRtcpPli (c : VideoClient τ ρ) : Bytes → VideoClient τ ρ
  | s0 :: s1 :: s2 :: s3 :: _ =>
    let mediaSsrc := u32FromBe s0 s1 s2 s3
    if (c.sender.pipeline.streams mediaSsrc).isNone then c
    else if mediaSsrc ∈ c.videoKeyframeResendRequests then c
    else { c with videoKeyframeResendRequests := c.videoKeyframeResendRequests ++ [mediaSsrc] }
  | _ => c

theorem handleRtcpPli_spec (c : VideoClient τ ρ) (payload : Bytes) :
    ∃ requests, c.handleRtcpPli payload = { c with videoKeyframeResendRequests := requests } := by
  unfold handleRtcpPli
  split
  · dsimp only
    split
    · exact ⟨_, rfl⟩
    · split
      · exact ⟨_, rfl⟩
      · exact ⟨_, rfl⟩
  · exact ⟨_, rfl⟩

/-- The frames of one cache are sent again, until one of them raises. -/
def replayFrames (env : ℕ → FrameEnv) (c : VideoClient τ ρ) :
    List (CachedFrame τ) → Bool × VideoClient τ ρ
  | [] => (true, c)
  | frame :: frames =>
    match c.sendVideoFrame clock b media settings frame.frame frame.frameTimeMs
      (some frame.stream.1) (env 0) with
    | (.error _, c) => (false, c)
    | (.ok _, c) => replayFrames (fun i => env (i + 1)) c frames

def setReplaying (c : VideoClient τ ρ) (videoKeyframeReplayActive : Bool) : VideoClient τ ρ :=
  { c with videoKeyframeReplayActive }

/-- The loop of `_send_requested_video_keyframes` over the requests. -/
def replayRequests (env : UInt32 → ℕ → FrameEnv) (c : VideoClient τ ρ) :
    List UInt32 → Bool × VideoClient τ ρ
  | [] => (false, c)
  | mediaSsrc :: requests =>
    match c.videoKeyframes mediaSsrc with
    | none | some [] => replayRequests env c requests
    | some (frame :: frames) =>
      let (all, c) := (c.setReplaying true).replayFrames clock b media settings (env mediaSsrc)
        (frame :: frames)
      let (sent, c) := replayRequests env (c.setReplaying false) requests
      (all || sent, c)

/-- `_send_requested_video_keyframes`, which meets the requests in some order. -/
def sendRequestedVideoKeyframes (c : VideoClient τ ρ) (order : List UInt32)
    (env : UInt32 → ℕ → FrameEnv) : Bool × VideoClient τ ρ :=
  { c with videoKeyframeResendRequests := [] }.replayRequests clock b media settings env order

/-! ## Runs -/

/-- What happens to a client. -/
inductive Action (τ : Type)
  /-- The voice server negotiates streams and a codec. -/
  | negotiate (streams : List VoiceStream) (codec : Option String)
  | setConnected (connected : Bool)
  | sourceChanged (simulcast : Bool)
  | runScheduled (env : ApplyEnv)
  | startVideo (width height fps bitrate : ℤ) (env : ApplyEnv)
  | onMediaSinkWants (wants : UInt32 → Option ℤ) (any : Option ℤ) (env : ApplyEnv)
  /-- `stop_video` up to the answer of the gateway. -/
  | stopVideo
  | finishStopVideo (transportSequence : UInt16)
  | receiverReport (senderSsrc : UInt32) (reportCount : ℕ) (payload : Bytes) (now : ℚ)
  | rtcpPli (payload : Bytes)
  | rtcpNack (payload : Bytes) (now : ℕ → UInt32) (interrupted : Option ℕ)
  | sendVideoFrame (data : Bytes) (frameTimeMs : τ) (stream : Option VoiceStream) (env : FrameEnv)
  | sendVideoFrames (frames : List (String × Bytes × τ)) (env : ℕ → FrameEnv)
  | sendRequestedKeyframes (order : List UInt32) (env : UInt32 → ℕ → FrameEnv)

def step (c : VideoClient τ ρ) : Action τ → VideoClient τ ρ
  | .negotiate streams codec => { c with videoStreams := streams, negotiatedCodec := codec }
  | .setConnected connected => { c with connected }
  | .sourceChanged simulcast => c.mediaPlayerSourceChanged simulcast
  | .runScheduled env => (c.runScheduled clock media settings env).2
  | .startVideo width height fps bitrate env =>
    (c.startVideo clock media settings width height fps bitrate env).2
  | .onMediaSinkWants wants any env => (c.onMediaSinkWants clock media settings wants any env).2
  | .stopVideo => { c with lastVideoState := none }
  | .finishStopVideo transportSequence => c.finishStopVideo transportSequence
  | .receiverReport senderSsrc reportCount payload now =>
    { c with
      rtcpReceiverReports := handleRtcpReceiverReport settings.rtcpReceiverReportTtl senderSsrc
        reportCount payload now c.rtcpReceiverReports }
  | .rtcpPli payload => c.handleRtcpPli payload
  | .rtcpNack payload now interrupted =>
    { c with
      sender := c.sender.handleRtcpNack payload settings.mediaStreamType now interrupted }
  | .sendVideoFrame data frameTimeMs stream env =>
    (c.sendVideoFrame clock b media settings data frameTimeMs stream env).2
  | .sendVideoFrames frames env => (c.sendVideoFrames clock b media settings env 0 frames).2
  | .sendRequestedKeyframes order env =>
    if order.Perm c.videoKeyframeResendRequests then
      (c.sendRequestedVideoKeyframes clock b media settings order env).2
    else c

def new (transportSequence : UInt16) : VideoClient τ ρ := { sender := .new transportSequence }

def run (transportSequence : UInt16) (actions : List (Action τ)) : VideoClient τ ρ :=
  actions.foldl (step clock b media settings) (new transportSequence)

end VideoClient

/-! ## What sending leaves alone -/

section Setup

open VideoSendPipelineState

variable {τ ρ : Type}

theorem setup_cacheMediaPacket (p : PipelineStream ρ) (payload : Bytes) (marker : Bool)
    (sequence : UInt16) (timestamp : UInt32) :
    (p.cacheMediaPacket payload marker sequence timestamp).setup = p.setup := by
  unfold PipelineStream.cacheMediaPacket
  split <;> rfl

theorem setup_prepareMediaPackets (mediaStreamType : String) (now : ℕ → UInt32)
    (p : PipelineStream ρ) (transportSequence : UInt16) (packets : List MediaPacket) :
    (prepareMediaPackets mediaStreamType now p transportSequence packets).2.1.setup = p.setup := by
  induction packets generalizing now p transportSequence with
  | nil => rfl
  | cons packet packets ih =>
    unfold prepareMediaPackets
    dsimp only
    split
    · rfl
    · have hrest := ih (fun i => now (i + 1)) (p.cacheMediaPacket packet.payload packet.marker
        packet.sequence packet.timestamp) (transportSequence + 1)
      rw [setup_cacheMediaPacket] at hrest
      split <;> rename_i heq <;> rw [heq] at hrest <;> exact hrest

theorem setup_prepareVideoFrameInner (clock : TickClock τ ρ) (b : Build)
    (s : VideoSendPipelineState ρ) (mediaSsrc : UInt32) (frame : Bytes)
    (metadataFrame : Option Bytes) (frameTimeMs : τ) (mediaStreamType : String) (now : ℕ → UInt32) :
    (s.prepareVideoFrameInner clock b mediaSsrc frame metadataFrame frameTimeMs mediaStreamType
      now).2.setup = s.setup := by
  funext ssrc
  have hput {p p' : PipelineStream ρ} (hs : s.streams mediaSsrc = some p) (h : p'.setup = p.setup) :
      (s.setStream mediaSsrc p').setup ssrc = s.setup ssrc := by
    rw [setup_setStream, h]
    split
    · rename_i heq
      rw [heq, VideoSendPipelineState.setup, hs]
      rfl
    · rfl
  unfold prepareVideoFrameInner
  split
  · rfl
  · rename_i stream hs
    dsimp only
    split
    · exact hput hs rfl
    · rename_i packets packetizer _
      have hloop := setup_prepareMediaPackets mediaStreamType now { stream with packetizer }
        s.transportSequence packets
      split
      · rename_i heq
        rw [heq] at hloop
        exact hput hs hloop
      · rename_i heq
        rw [heq] at hloop
        exact hput hs hloop

theorem VideoSendPipelineState.SameStreams.setup {s s' : VideoSendPipelineState ρ}
    (h : SameStreams s s') : s'.setup = s.setup := by
  obtain ⟨rtxSequence, h⟩ := h
  funext ssrc
  rw [VideoSendPipelineState.setup, VideoSendPipelineState.setup, h, Option.map_map]
  rfl

end Setup

namespace VideoClient

variable {τ ρ : Type} {clock : TickClock τ ρ} {b : Build} {media : MediaClock τ}
variable {settings : VideoSettings} {c c' c'' : VideoClient τ ρ}

/-- Two clients with the same streams. -/
structure SameSelection (c c' : VideoClient τ ρ) : Prop where
  videoStreams : c'.videoStreams = c.videoStreams
  negotiatedCodec : c'.negotiatedCodec = c.negotiatedCodec
  scheduled : c'.scheduled = c.scheduled
  videoCodec : c'.videoCodec = c.videoCodec
  videoRtxPayloadType : c'.videoRtxPayloadType = c.videoRtxPayloadType
  videoRtxSsrcs : c'.videoRtxSsrcs = c.videoRtxSsrcs
  active : c'.activeVideoStreams = c.activeVideoStreams
  byRid : c'.activeVideoStreamsByRid = c.activeVideoStreamsByRid
  setup : c'.sender.pipeline.setup = c.sender.pipeline.setup

theorem SameSelection.refl (c : VideoClient τ ρ) : SameSelection c c :=
  ⟨rfl, rfl, rfl, rfl, rfl, rfl, rfl, rfl, rfl⟩

theorem SameSelection.trans (h : SameSelection c c') (h' : SameSelection c' c'') :
    SameSelection c c'' where
  videoStreams := h'.videoStreams.trans h.videoStreams
  negotiatedCodec := h'.negotiatedCodec.trans h.negotiatedCodec
  scheduled := h'.scheduled.trans h.scheduled
  videoCodec := h'.videoCodec.trans h.videoCodec
  videoRtxPayloadType := h'.videoRtxPayloadType.trans h.videoRtxPayloadType
  videoRtxSsrcs := h'.videoRtxSsrcs.trans h.videoRtxSsrcs
  active := h'.active.trans h.active
  byRid := h'.byRid.trans h.byRid
  setup := h'.setup.trans h.setup

theorem Consistent.of_same (h : c.Consistent settings) (hsame : SameSelection c c') :
    c'.Consistent settings where
  started := by rw [hsame.videoCodec, hsame.active]; exact h.started
  byRid := by rw [hsame.byRid, hsame.active]; exact h.byRid
  ready := by
    rw [hsame.active]
    intro stream hstream
    have hsome := h.ready stream hstream
    have hsetup := congrFun hsame.setup stream.ssrc
    rw [VideoSendPipelineState.setup, VideoSendPipelineState.setup] at hsetup
    rw [← Option.isSome_map (f := PipelineStream.setup), hsetup, Option.isSome_map]
    exact hsome
  setUp := by
    intro ssrc
    rw [hsame.setup, h.setUp, expectedSetup, expectedSetup, hsame.videoCodec,
      hsame.videoRtxPayloadType, hsame.videoRtxSsrcs, hsame.active]

theorem sameSelection_setReplaying (c : VideoClient τ ρ) (active : Bool) :
    SameSelection c (c.setReplaying active) := { SameSelection.refl c with }

theorem sameSelection_cacheVideoFrame (maxFrames : ℤ) (c : VideoClient τ ρ) (mediaSsrc : UInt32)
    (frame : CachedFrame τ) : SameSelection c (c.cacheVideoFrame maxFrames mediaSsrc frame) := by
  unfold cacheVideoFrame
  split
  · exact .refl c
  · split
    · exact .refl c
    · dsimp only
      split
      · exact { SameSelection.refl c with }
      · split
        · exact { SameSelection.refl c with }
        · split
          · exact { SameSelection.refl c with }
          · exact { SameSelection.refl c with }

theorem sameSelection_maybeSendVideoRtcpSenderReport (c : VideoClient τ ρ)
    (mediaSsrc rtpTimestamp : UInt32) (accepted : Bool) :
    SameSelection c (c.maybeSendVideoRtcpSenderReport media mediaSsrc rtpTimestamp accepted) := by
  unfold maybeSendVideoRtcpSenderReport
  dsimp only
  split
  · exact .refl c
  · exact { SameSelection.refl c with }

variable (clock b) in
theorem pipeline_sendVideoFrameRaw (s : VideoSender ρ) (codec : String) (mediaSsrc : UInt32)
    (originalFrame frame : Bytes) (frameTimeMs : τ) (mediaStreamType : String) (now : ℕ → UInt32)
    (interrupted : Option ℕ) :
    (s.sendVideoFrameRaw clock b codec mediaSsrc originalFrame frame frameTimeMs mediaStreamType now
      interrupted).pipeline =
      (s.pipeline.prepareVideoFrameInner clock b mediaSsrc frame
        (if codec.toUpper = "VP9" then some originalFrame else none) frameTimeMs mediaStreamType
        now).2 := by
  unfold VideoSender.sendVideoFrameRaw
  dsimp only
  split
  · rename_i heq
    rw [heq]
  · rename_i heq
    rw [heq]
    dsimp only
    unfold VideoSender.emit VideoSender.recordRtpSendStats
    split
    · rfl
    · split
      · rfl
      · split <;> rfl

variable (clock b media settings) in
theorem sameSelection_sendVideoFrameRaw (c : VideoClient τ ρ) (codec : String) (mediaSsrc : UInt32)
    (data originalFrame frame : Bytes) (frameTimeMs : τ) (env : FrameEnv) :
    SameSelection c (c.sendVideoFrameRaw clock b media settings codec mediaSsrc data originalFrame
      frame frameTimeMs env).2 := by
  have hsetup := (congrArg VideoSendPipelineState.setup (pipeline_sendVideoFrameRaw clock b
    c.sender codec mediaSsrc originalFrame frame frameTimeMs settings.mediaStreamType env.now
    env.interrupted)).trans (setup_prepareVideoFrameInner ..)
  unfold sendVideoFrameRaw
  dsimp only
  split
  · exact ⟨rfl, rfl, rfl, rfl, rfl, rfl, rfl, rfl, hsetup⟩
  · split
    · exact ⟨rfl, rfl, rfl, rfl, rfl, rfl, rfl, rfl, hsetup⟩
    · split
      · exact ⟨rfl, rfl, rfl, rfl, rfl, rfl, rfl, rfl, hsetup⟩
      · refine .trans ?_ (sameSelection_maybeSendVideoRtcpSenderReport _ _ _ _)
        exact ⟨rfl, rfl, rfl, rfl, rfl, rfl, rfl, rfl, hsetup⟩

variable (clock b media settings) in
theorem sameSelection_sendVideoFrameInner (c : VideoClient τ ρ) (data : Bytes) (frameTimeMs : τ)
    (stream : Option VoiceStream) (env : FrameEnv) :
    SameSelection c
      (c.sendVideoFrameInner clock b media settings data frameTimeMs stream env).2 := by
  unfold sendVideoFrameInner
  split
  · exact .refl c
  · split
    · exact .refl c
    · split
      · exact .refl c
      · rename_i codec _ _ stream _
        dsimp only
        have hcache := sameSelection_cacheVideoFrame settings.videoKeyframeReplayMaxFrames c
          stream.ssrc ⟨if codec.toUpper = "H264" then stripH264FillerNalus data else data,
            frameTimeMs, stream⟩
        split
        · exact hcache
        · rename_i frame _
          have hraw := hcache.trans (sameSelection_sendVideoFrameRaw clock b
            media settings _ codec stream.ssrc data
            (if codec.toUpper = "H264" then stripH264FillerNalus data else data) frame
            (media.atLeast frameTimeMs) env)
          split
          · rename_i heq
            rw [heq] at hraw
            exact hraw
          · rename_i heq
            rw [heq] at hraw
            exact { hraw with }

variable (clock b media settings) in
theorem sameSelection_sendVideoFrame (c : VideoClient τ ρ) (data : Bytes) (frameTimeMs : τ)
    (stream : Option VoiceStream) (env : FrameEnv) :
    SameSelection c (c.sendVideoFrame clock b media settings data frameTimeMs stream env).2 := by
  have hinner := sameSelection_sendVideoFrameInner clock b media settings c data frameTimeMs stream
    env
  unfold sendVideoFrame
  generalize c.sendVideoFrameInner clock b media settings data frameTimeMs stream env =
    r at hinner ⊢
  obtain ⟨answer, c'⟩ := r
  cases answer with
  | ok sent => exact hinner
  | error e => exact { hinner with }

theorem sameSelection_sendVideoFrames (env : ℕ → FrameEnv) (c : VideoClient τ ρ) (sent : ℕ)
    (frames : List (String × Bytes × τ)) :
    SameSelection c (c.sendVideoFrames clock b media settings env sent frames).2 := by
  induction frames generalizing env c sent with
  | nil => exact .refl c
  | cons frame frames ih =>
    obtain ⟨rid, data, frameTimeMs⟩ := frame
    unfold sendVideoFrames
    split
    · exact ih ..
    · rename_i stream _
      have hframe := sameSelection_sendVideoFrame clock b media settings c data
        (media.atLeast frameTimeMs) (some stream.1) (env 0)
      split
      · rename_i heq
        rw [heq] at hframe
        exact hframe
      · rename_i heq
        rw [heq] at hframe
        exact hframe.trans (ih ..)

variable (clock b media settings) in
theorem sameSelection_replayFrames (env : ℕ → FrameEnv) (c : VideoClient τ ρ)
    (frames : List (CachedFrame τ)) :
    SameSelection c (c.replayFrames clock b media settings env frames).2 := by
  induction frames generalizing env c with
  | nil => exact .refl c
  | cons frame frames ih =>
    unfold replayFrames
    have hframe := sameSelection_sendVideoFrame clock b media settings c frame.frame
      frame.frameTimeMs (some frame.stream.1) (env 0)
    split
    · rename_i heq
      rw [heq] at hframe
      exact hframe
    · rename_i heq
      rw [heq] at hframe
      exact hframe.trans (ih ..)

theorem sameSelection_replayRequests (env : UInt32 → ℕ → FrameEnv) (c : VideoClient τ ρ)
    (requests : List UInt32) :
    SameSelection c (c.replayRequests clock b media settings env requests).2 := by
  induction requests generalizing c with
  | nil => exact .refl c
  | cons mediaSsrc requests ih =>
    unfold replayRequests
    split
    · exact ih c
    · exact ih c
    · rename_i frame frames _
      dsimp only
      exact (((sameSelection_setReplaying c true).trans (sameSelection_replayFrames ..)).trans
        (sameSelection_setReplaying _ false)).trans (ih _)

/-! ## Clients and pipelines -/

/-- What the voice server negotiates can be sent: the client has the codec, and RTX has SSRCs. -/
def Action.Fits (settings : VideoSettings) : Action τ → Prop
  | .negotiate streams codec =>
    (∀ stream ∈ streams, ∀ ssrc, stream.ssrc = some ssrc →
      stream.rtxSsrc.getD (ssrc.toNat + 1) < 2 ^ 32) ∧
    ∀ name, codec = some name → settings.Supports name.toUpper
  | _ => True

/-- What a client may still use was negotiated. -/
structure Fits (settings : VideoSettings) (c : VideoClient τ ρ) : Prop where
  streams : ∀ stream ∈ c.negotiatedVideoStreams, stream.rtxSsrc < 2 ^ 32
  negotiated : ∀ name, c.negotiatedCodec = some name → settings.Supports name.toUpper
  codec : ∀ codec, c.videoCodec = some codec → settings.Supports codec
  scheduled : ∀ call ∈ c.scheduled, settings.Supports call.1

/-- What a client uses can be sent, and its pipeline is set up for it. -/
structure Sound (settings : VideoSettings) (c : VideoClient τ ρ) : Prop where
  fits : c.Fits settings
  consistent : c.Consistent settings

theorem Sound.of_same (h : c.Sound settings) (hsame : SameSelection c c') : c'.Sound settings where
  fits :=
    { streams := by
        rw [negotiatedVideoStreams, hsame.videoStreams]
        exact h.fits.streams
      negotiated := by rw [hsame.negotiatedCodec]; exact h.fits.negotiated
      codec := by rw [hsame.videoCodec]; exact h.fits.codec
      scheduled := by rw [hsame.scheduled]; exact h.fits.scheduled }
  consistent := h.consistent.of_same hsame

theorem Sound.apply (h : c.Sound settings) {codec : String} (hsupports : settings.Supports codec)
    (params : VideoStartParams) (reset : Bool) (env : ApplyEnv) :
    (c.applySelectedVideoStream clock media settings codec params reset env).2.Sound settings := by
  have hframe := applySelectedVideoStream_frame clock media settings codec params c reset env
  constructor
  · constructor
    · rw [negotiatedVideoStreams, hframe.videoStreams]
      exact h.fits.streams
    · rw [hframe.negotiatedCodec]
      exact h.fits.negotiated
    · intro codec' hcodec'
      rcases hframe.videoCodec with hsame | hnew
      · exact h.fits.codec codec' (hsame ▸ hcodec')
      · rw [hnew] at hcodec'
        exact Option.some.inj hcodec' ▸ hsupports
    · rw [hframe.scheduled]
      exact h.fits.scheduled
  · rcases applySelectedVideoStream_consistent clock media params reset env hsupports
      h.fits.streams with hsame | hconsistent
    · rw [hsame]
      exact h.consistent
    · exact hconsistent

theorem pipeline_handleRtcpNack (s : VideoSender ρ) (payload : Bytes) (mediaStreamType : String)
    (now : ℕ → UInt32) (interrupted : Option ℕ) :
    (s.handleRtcpNack payload mediaStreamType now interrupted).pipeline.setup =
      s.pipeline.setup := by
  have hsame :=
    (VideoSendPipelineState.sameStreams_prepareVideoRtxForNackInner s.pipeline payload
      mediaStreamType now).setup
  unfold VideoSender.handleRtcpNack
  split
  · split
    · rfl
    · split
      · rfl
      · split
        · rename_i heq
          rw [heq] at hsame
          exact hsame
        · rename_i heq
          rw [heq] at hsame
          unfold VideoSender.emit VideoSender.recordRtpSendStats
          dsimp only
          split
          · exact hsame
          · split
            · exact hsame
            · exact hsame
  · rfl

theorem Sound.step (h : c.Sound settings) {action : Action τ} (hfits : action.Fits settings) :
    (c.step clock b media settings action).Sound settings := by
  cases action with
  | negotiate streams codec =>
    refine ⟨⟨?_, hfits.2, h.fits.codec, h.fits.scheduled⟩, { h.consistent with }⟩
    intro stream hstream
    obtain ⟨stream', hmem, heq⟩ := List.mem_filterMap.1 hstream
    split at heq
    · rename_i hssrc
      obtain rfl := Option.some.inj heq
      exact hfits.1 stream' hmem _ (Option.some_get hssrc).symm
    · cases heq
  | setConnected connected => exact h.of_same { SameSelection.refl c with }
  | sourceChanged simulcast =>
    obtain ⟨scheduled, heq, hscheduled⟩ := c.mediaPlayerSourceChanged_spec simulcast
    rw [VideoClient.step, heq]
    refine ⟨{ h.fits with scheduled := fun call hcall => ?_ }, { h.consistent with }⟩
    rcases hscheduled call hcall with hold | hcodec
    · exact h.fits.scheduled call hold
    · exact h.fits.codec call.1 hcodec
  | runScheduled env =>
    rw [VideoClient.step]
    rcases c.runScheduled_cases clock media settings env with
      heq | ⟨codec, params, scheduled, hscheduled, heq⟩
    · rw [heq]
      exact h
    · have hcall := h.fits.scheduled (codec, params) (by rw [hscheduled]; exact List.mem_cons_self)
      have hrest : Sound settings { c with scheduled } :=
        ⟨{ h.fits with
            scheduled := fun call hmem => h.fits.scheduled call
              (by rw [hscheduled]; exact List.mem_cons_of_mem _ hmem) },
          { h.consistent with }⟩
      rw [heq]
      exact hrest.apply hcall params false env
  | startVideo width height fps bitrate env =>
    rw [VideoClient.step]
    rcases c.startVideo_cases clock media settings width height fps bitrate env with
      heq | ⟨codec, params, hcodec, heq⟩
    · rw [heq]
      exact h
    · have hparams : Sound settings { c with videoStartParams := some params } :=
        h.of_same { SameSelection.refl c with }
      rw [heq]
      exact hparams.apply (h.fits.negotiated codec hcodec) params true env
  | onMediaSinkWants wants any env =>
    have hwants : Sound settings { c with
        remoteMediaSinkWants := wants
        remoteMediaSinkWantsAny := any
        remoteMediaSinkWantsReceived := true } := h.of_same { SameSelection.refl c with }
    rw [VideoClient.step]
    rcases c.onMediaSinkWants_cases clock media settings wants any env with
      heq | ⟨codec, params, hcodec, heq⟩
    · rw [heq]
      exact hwants
    · rw [heq]
      exact hwants.apply (h.fits.codec codec hcodec) params false env
  | stopVideo => exact h.of_same { SameSelection.refl c with }
  | finishStopVideo transportSequence =>
    exact ⟨⟨h.fits.streams, h.fits.negotiated, fun _ hcodec => absurd hcodec (by
      simp [VideoClient.step, VideoClient.finishStopVideo]), h.fits.scheduled⟩,
      finishStopVideo_consistent transportSequence⟩
  | receiverReport senderSsrc reportCount payload now =>
    exact h.of_same { SameSelection.refl c with }
  | rtcpPli payload =>
    obtain ⟨requests, heq⟩ := c.handleRtcpPli_spec payload
    rw [VideoClient.step, heq]
    exact h.of_same { SameSelection.refl c with }
  | rtcpNack payload now interrupted =>
    exact h.of_same { SameSelection.refl c with setup := pipeline_handleRtcpNack .. }
  | sendVideoFrame data frameTimeMs stream env => exact h.of_same (sameSelection_sendVideoFrame ..)
  | sendVideoFrames frames env => exact h.of_same (sameSelection_sendVideoFrames ..)
  | sendRequestedKeyframes order env =>
    rw [VideoClient.step]
    split
    · have hrequests : SameSelection c { c with videoKeyframeResendRequests := [] } :=
        { SameSelection.refl c with }
      exact h.of_same (hrequests.trans (sameSelection_replayRequests ..))
    · exact h

variable (clock b media) in
theorem sound_run (transportSequence : UInt16) {actions : List (Action τ)}
    (hfits : ∀ action ∈ actions, action.Fits settings) :
    (run clock b media settings transportSequence actions).Sound settings := by
  induction actions using List.reverseRecOn with
  | nil =>
    refine ⟨⟨fun _ h => absurd h List.not_mem_nil, fun _ h => absurd h (by simp [run, new]),
      fun _ h => absurd h (by simp [run, new]), fun _ h => absurd h List.not_mem_nil⟩, ?_⟩
    exact ⟨⟨fun _ => rfl, fun _ => rfl⟩, fun _ => rfl, fun _ h => absurd h List.not_mem_nil,
      fun _ => rfl⟩
  | append_singleton actions action ih =>
    rw [run, List.foldl_concat]
    exact (ih fun a h => hfits a (List.mem_append_left _ h)).step
      (hfits action (List.mem_append_right _ (List.mem_singleton.2 rfl)))

variable (clock b media) in
/-- **A client and its pipeline agree on the streams**, in every run: the pipeline is set up for the
active streams and for no others, with the codec, the payload types and the RTX streams that the
client has for them, so that a frame for an active stream finds its stream in the pipeline. -/
theorem consistent_run (transportSequence : UInt16) {actions : List (Action τ)}
    (hfits : ∀ action ∈ actions, action.Fits settings) :
    let c := run clock b media settings transportSequence actions
    c.Consistent settings ∧ ∀ stream active, c.resolveVideoSendStream stream = .ok active →
      (c.sender.pipeline.streams active.ssrc).isSome = true := by
  intro c
  have hconsistent : c.Consistent settings :=
    (sound_run clock b media transportSequence hfits).consistent
  refine ⟨hconsistent, fun stream active hresolve => hconsistent.ready active ?_⟩
  cases stream with
  | none =>
    rw [resolveVideoSendStream] at hresolve
    split at hresolve
    · cases hresolve
    · rename_i streams hactive
      obtain rfl := Except.ok.inj hresolve
      rw [hactive]
      exact List.mem_cons_self
  | some stream =>
    rw [resolveVideoSendStream] at hresolve
    split at hresolve
    · cases hresolve
    · rename_i found hfind
      obtain rfl := Except.ok.inj hresolve
      exact List.mem_of_find?_eq_some hfind

/-- Two streams of a source with simulcast, of which the others ask for both. -/
def simulcastRun : List (Action ℚ) :=
  [.negotiate
      [{ rid := "100", ssrc := some 10, rtxSsrc := some 11, active := true, quality := 100
         maxBitrate := none, maxFramerate := none, maxResolution := none },
        { rid := "50", ssrc := some 20, rtxSsrc := some 21, active := true, quality := 50
          maxBitrate := none, maxFramerate := none, maxResolution := none }] (some "h264"),
    .sourceChanged true, .startVideo 1280 720 30 0 {},
    .onMediaSinkWants (fun _ => none) (some 100) {}]

/-- A configuration with one codec. -/
def h264Settings : VideoSettings where
  codecs := [{ type := "video", name := "H264", payloadType := 103, rtxPayloadType := some 104 }]

theorem supports_h264 : h264Settings.Supports "h264".toUpper :=
  ⟨⟨"video", "H264", 103, some 104⟩, by decide +kernel, (.h264, 103, some 104), by decide +kernel⟩

theorem consistent_run_simulcastRun :
    let c := run rationalTicks .release MediaClock.exact h264Settings 0 simulcastRun
    c.activeVideoStreams.map NegotiatedStream.ssrc = [10, 20] ∧ c.Consistent h264Settings ∧
      ∀ stream active, c.resolveVideoSendStream stream = .ok active →
        (c.sender.pipeline.streams active.ssrc).isSome = true := by
  refine ⟨by decide +kernel, consistent_run rationalTicks .release MediaClock.exact 0 ?_⟩
  intro action haction
  simp only [simulcastRun, List.mem_cons, List.not_mem_nil, or_false] at haction
  rcases haction with rfl | rfl | rfl | rfl
  · refine ⟨fun stream hstream ssrc hssrc => ?_, fun name hname => ?_⟩
    · simp only [List.mem_cons, List.not_mem_nil, or_false] at hstream
      rcases hstream with rfl | rfl <;> simp
    · exact Option.some.inj hname ▸ supports_h264
  all_goals exact trivial

end VideoClient

end NativeVoice.Send
