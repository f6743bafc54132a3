import NativeVoice.Receive.ReceiverReports
import NativeVoice.Send.Statistics

/-!
# The video streams of a client

Which of the negotiated streams a client sends its video on, and how it sets its pipeline up for
them: `start_video`, `on_media_sink_wants`, `stop_video` and what they call, of
`src/discord/ext/native_voice/client.py`.

* `selectActiveVideoStreams` selects the streams, by what the others ask for.
* `applySelectedVideoStream` sets the client and its pipeline up for the selected streams. It may
  fail halfway: `Misconfigured` tells when.
* `configureStreams_streams`: what the pipeline looks like when it does not fail.
-/

namespace NativeVoice.Send

open Lib Video Receive

/-! ## Streams and codecs -/

structure VoiceStreamResolution where
  type : String
  width : ℤ
  height : ℤ
  deriving DecidableEq

def VoiceStreamResolution.fixed (width height : ℤ) : VoiceStreamResolution :=
  { type := "fixed", width, height }

structure VoiceStream where
  rid : String
  ssrc : Option UInt32
  rtxSsrc : Option ℕ
  active : Bool
  quality : ℤ
  maxBitrate : Option ℤ
  maxFramerate : Option ℤ
  maxResolution : Option VoiceStreamResolution
  deriving DecidableEq

/-- A stream that has an SSRC. -/
abbrev NegotiatedStream := { stream : VoiceStream // stream.ssrc.isSome = true }

namespace NegotiatedStream

/-- `_require_video_stream_ssrc`, which finds one. -/
def ssrc (stream : NegotiatedStream) : UInt32 := stream.1.ssrc.get stream.2

def rid (stream : NegotiatedStream) : String := stream.1.rid

/-- `_rtx_ssrc_for_video_stream`. -/
def rtxSsrc (stream : NegotiatedStream) : ℕ := stream.1.rtxSsrc.getD (stream.ssrc.toNat + 1)

end NegotiatedStream

structure VoiceCodec where
  type : String
  name : String
  payloadType : UInt16
  rtxPayloadType : Option UInt16
  deriving DecidableEq

/-- What a client is configured with. -/
structure VideoSettings where
  rtxEnabled : Bool := true
  codecs : List VoiceCodec
  mediaStreamType : String := "video"
  rtcpReceiverReportTtl : ℚ := 30
  videoKeyframeReplayMaxFrames : ℤ := 60

namespace VideoSettings

/-- The last video codec of a name, which the lookups keep. -/
def videoCodec (settings : VideoSettings) (normalized : String) : Option VoiceCodec :=
  (settings.codecs.filter fun codec =>
    codec.type = "video" ∧ codec.name.toUpper = normalized).getLast?

def rtxPayloadTypeForCodec (settings : VideoSettings) (codec : String) : Option UInt16 :=
  if settings.rtxEnabled then (settings.videoCodec codec.toUpper).bind VoiceCodec.rtxPayloadType
  else none

/-- The pipeline takes a codec as the client configures it. -/
def Supports (settings : VideoSettings) (codec : String) : Prop :=
  ∃ voiceCodec, settings.videoCodec codec.toUpper = some voiceCodec ∧
    ∃ checked, VideoSendPipelineState.checkStream codec voiceCodec.payloadType
      (settings.rtxPayloadTypeForCodec codec) = .ok checked

end VideoSettings

structure VideoStartParams where
  width : ℤ
  height : ℤ
  fps : ℤ
  bitrate : ℤ
  deriving DecidableEq

def nativeVideoBitrate (height fps : ℤ) : ℤ :=
  if height ≥ 721 ∨ fps ≥ 31 then 8000000 else 4000000

/-- What `_announce_video_state` sends: the SSRCs of the first stream and of its RTX, and the
streams. -/
structure VideoState where
  videoSsrc : UInt32
  rtxSsrc : ℕ
  streams : List VoiceStream
  deriving DecidableEq

inductive ClientError
  | notConnected
  | noVideoCodec
  | noVideoStreams (mediaStreamType : String)
  | unsupportedVideoCodec (codec : String)
  | videoNotStarted
  | noActiveStream
  | streamNotActive
  /-- An argument of the pipeline that does not fit. -/
  | overflow
  | pipeline (error : PyErr)
  /-- The pipeline fails, or is interrupted, while it sends a frame. -/
  | send
  | dave
  | gateway
  deriving DecidableEq

/-- The text of a `ClientException`. -/
def ClientError.message : ClientError → Option String
  | notConnected => some "Not connected to voice"
  | noVideoCodec => some "Voice server did not negotiate a video codec"
  | noVideoStreams mediaStreamType =>
    some s!"Voice server did not negotiate a {mediaStreamType} SSRC for this connection"
  | unsupportedVideoCodec codec => some s!"Unsupported video codec: {codec}"
  | videoNotStarted => some "Video has not been started"
  | noActiveStream => some "No active video stream is selected"
  | streamNotActive => some "Video stream is not active"
  | _ => none

/-- The arithmetic of the media times: `max(0.001, ·)` and `· // 1000` are those of floats. -/
structure MediaClock (τ : Type) where
  zero : τ
  minusOne : τ
  atLeast : τ → τ
  add : τ → τ → τ
  second : τ → ℤ

/-- The arithmetic of media times over the rationals. -/
def MediaClock.exact : MediaClock ℚ where
  zero := 0
  minusOne := -1
  atLeast := max (1 / 1000)
  add := (· + ·)
  second timeMs := ⌊timeMs / 1000⌋

/-- `TickClock.exact` for durations that are finite. -/
def rationalTicks : TickClock ℚ ℚ where
  zero := 0
  advance frameTimeMs := TickClock.exact.advance (some frameTimeMs)

/-! ## The client -/

/-- A frame of the cache, with its duration. -/
structure CachedFrame (τ : Type) where
  frame : Bytes
  frameTimeMs : τ
  stream : NegotiatedStream

structure SenderReport where
  ssrc : UInt32
  rtpTimestamp : UInt32
  packetCount : ℕ
  octetCount : ℕ
  deriving DecidableEq

/-- What happens with frames and reports. -/
inductive VideoEvent (τ : Type)
  /-- A frame is handed over, which may be a keyframe with its parameter sets. -/
  | taken (ssrc : UInt32) (frame : CachedFrame τ) (config : Bool)
  /-- A frame is sent, in some packets, from a media time on. -/
  | sent (ssrc : UInt32) (frame : Bytes) (packets octets : ℕ) (rtpTimestamp : UInt32)
    (mediaTimeMs : τ)
  /-- A call of `send_video_frame` raises. -/
  | failed (stream : Option VoiceStream) (frame : Bytes)
  /-- A report is made, which the socket may not take. -/
  | report (report : SenderReport) (accepted : Bool)
  /-- The pipeline and the counters start anew. -/
  | cleared
  | stopped

structure VideoClient (τ ρ : Type) where
  connected : Bool := true
  /-- The streams and the codec of the connection. -/
  videoStreams : List VoiceStream := []
  negotiatedCodec : Option String := none
  videoSourceSupportsSimulcast : Bool := false
  remoteMediaSinkWants : UInt32 → Option ℤ := fun _ => none
  remoteMediaSinkWantsAny : Option ℤ := none
  remoteMediaSinkWantsReceived : Bool := false
  rtcpReceiverReports : ReceiverReports := ∅
  videoCodec : Option String := none
  videoStartParams : Option VideoStartParams := none
  videoRtxPayloadType : Option UInt16 := none
  videoSsrc : UInt32 := 0
  videoRtxSsrcs : UInt32 → Option ℕ := fun _ => none
  activeVideoStreams : List NegotiatedStream := []
  activeVideoStreamsByRid : String → Option NegotiatedStream := fun _ => none
  videoStateStreams : List VoiceStream := []
  lastVideoState : Option VideoState := none
  sender : VideoSender ρ
  videoPacketCounts : UInt32 → Option ℕ := fun _ => none
  videoOctetCounts : UInt32 → Option ℕ := fun _ => none
  videoMediaTimesMs : UInt32 → Option τ := fun _ => none
  videoLastRtcpMediaTimesMs : UInt32 → Option τ := fun _ => none
  videoKeyframes : UInt32 → Option (List (CachedFrame τ)) := fun _ => none
  videoKeyframeResendRequests : List UInt32 := []
  videoKeyframeReplayActive : Bool := false
  /-- The calls of `_apply_selected_video_stream` that are to be made, with their codec. -/
  scheduled : List (String × VideoStartParams) := []
  /-- The history. -/
  events : List (VideoEvent τ) := []

/-- What a call of `_apply_selected_video_stream` meets: the clock, the random numbers that the
pipeline takes, and whether the gateway takes the announcement. -/
structure ApplyEnv where
  now : ℕ → ℚ := fun _ => 0
  transportSequence : UInt16 := 0
  random : UInt32 → UInt16 × UInt32 := fun _ => (0, 0)
  gateway : Bool := true

namespace VideoClient

variable {τ ρ : Type}

/-! ## Selection -/

def negotiatedVideoStreams (c : VideoClient τ ρ) : List NegotiatedStream :=
  c.videoStreams.filterMap fun stream =>
    if h : stream.ssrc.isSome = true then some ⟨stream, h⟩ else none

def videoStreamHasRemoteReceivers (c : VideoClient τ ρ) (ttl now : ℚ) (reports : ReceiverReports)
    (stream : NegotiatedStream) : Bool × ReceiverReports :=
  let reports := pruneRtcpReceiverReports ttl now reports
  let wanted :=
    if reports.items.any fun report => report.2.sourceSsrc = stream.ssrc then true
    else if !c.remoteMediaSinkWantsReceived then false
    else match c.remoteMediaSinkWants stream.ssrc with
      | some want => 0 < want
      | none => c.remoteMediaSinkWantsAny.any (0 < ·)
  (wanted, reports)

def videoStreamShouldSend (c : VideoClient τ ρ) (ttl now : ℚ) (reports : ReceiverReports)
    (stream : NegotiatedStream) : Bool × ReceiverReports :=
  if !stream.1.active then (false, reports)
  else if stream.1.quality ≥ 100 then (true, reports)
  else c.videoStreamHasRemoteReceivers ttl now reports stream

/-- The streams that should be sent, asked one after the other. -/
def sendingStreams (c : VideoClient τ ρ) (ttl : ℚ) :
    (ℕ → ℚ) → ReceiverReports → List NegotiatedStream → List NegotiatedStream × ReceiverReports
  | _, reports, [] => ([], reports)
  | now, reports, stream :: streams =>
    let (send, reports) := c.videoStreamShouldSend ttl (now 0) reports stream
    let (sending, reports) := c.sendingStreams ttl (fun i => now (i + 1)) reports streams
    (if send then stream :: sending else sending, reports)

/-- The first stream of the highest quality. -/
def bestStream : List NegotiatedStream → Option NegotiatedStream
  | [] => none
  | stream :: streams => some (streams.foldl
      (fun best stream => if best.1.quality < stream.1.quality then stream else best) stream)

/-- `_select_active_video_streams`. -/
def selectActiveVideoStreams (c : VideoClient τ ρ) (ttl : ℚ) (now : ℕ → ℚ)
    (streams : List NegotiatedStream) : List NegotiatedStream × ReceiverReports :=
  let best := (bestStream streams).toList
  if !c.videoSourceSupportsSimulcast then (best, c.rtcpReceiverReports)
  else
    let (active, reports) := c.sendingStreams ttl now c.rtcpReceiverReports streams
    (if active.isEmpty then best else active, reports)

/-! ## Setting up -/

variable (clock : TickClock τ ρ) (media : MediaClock τ) (settings : VideoSettings)

/-- `_video_state_for_streams`. -/
def videoStateForStreams (c : VideoClient τ ρ) (params : VideoStartParams)
    (streams : List NegotiatedStream) : List VoiceStream :=
  streams.map fun stream =>
    let rtxSsrc :=
      if settings.rtxEnabled && c.videoRtxPayloadType.isSome then stream.rtxSsrc else 0
    { stream.1 with
      active := true
      rtxSsrc := if rtxSsrc = 0 then none else some rtxSsrc
      maxBitrate := some (stream.1.maxBitrate.getD
        (if stream.1.quality ≥ 100 then params.bitrate else max 1 (params.bitrate / 4)))
      maxFramerate := some (stream.1.maxFramerate.getD params.fps)
      maxResolution := some (stream.1.maxResolution.getD (.fixed params.width params.height)) }

def videoRtxActiveForSsrc (c : VideoClient τ ρ) (mediaSsrc : UInt32) : Bool :=
  settings.rtxEnabled && c.videoRtxPayloadType.isSome && (c.videoRtxSsrcs mediaSsrc).getD 0 != 0

def videoState (c : VideoClient τ ρ) : VideoState where
  videoSsrc := c.videoSsrc
  rtxSsrc :=
    if c.videoRtxActiveForSsrc settings c.videoSsrc then (c.videoRtxSsrcs c.videoSsrc).getD 0 else 0
  streams := c.videoStateStreams

/-- `_announce_video_state`, which remembers the state before the gateway takes it. -/
def announceVideoState (c : VideoClient τ ρ) (force gateway : Bool) :
    Except ClientError Unit × VideoClient τ ρ :=
  let videoState := c.videoState settings
  if !force && c.lastVideoState = some videoState then (.ok (), c)
  else
    (if gateway then .ok () else .error .gateway, { c with lastVideoState := some videoState })

def resetVideoStreamCounters (c : VideoClient τ ρ) (ssrc : UInt32) : VideoClient τ ρ :=
  { c with
    videoPacketCounts := Function.update c.videoPacketCounts ssrc (some 0)
    videoOctetCounts := Function.update c.videoOctetCounts ssrc (some 0)
    videoMediaTimesMs := Function.update c.videoMediaTimesMs ssrc (some media.zero)
    videoLastRtcpMediaTimesMs :=
      Function.update c.videoLastRtcpMediaTimesMs ssrc (some media.minusOne) }

def clearVideoSendCaches (c : VideoClient τ ρ) (transportSequence : UInt16) : VideoClient τ ρ :=
  { c with
    sender := { c.sender with pipeline := c.sender.pipeline.clear transportSequence }
    videoPacketCounts := fun _ => none
    videoOctetCounts := fun _ => none
    videoMediaTimesMs := fun _ => none
    videoLastRtcpMediaTimesMs := fun _ => none
    events := c.events ++ [.cleared] }

/-- The loop of `_apply_selected_video_stream` over the selected streams. -/
def configureStreams (codec : String) (payloadType : UInt16) (random : UInt32 → UInt16 × UInt32)
    (c : VideoClient τ ρ) :
    List NegotiatedStream → Except ClientError Unit × VideoClient τ ρ
  | [] => (.ok (), c)
  | stream :: streams =>
    let ssrc := stream.ssrc
    let c := if (c.videoPacketCounts ssrc).isNone then c.resetVideoStreamCounters media ssrc else c
    let rtxSsrc := (c.videoRtxSsrcs ssrc).getD 0
    if rtxSsrc ≥ 2 ^ 32 then (.error .overflow, c)
    else match c.sender.pipeline.configureStream clock codec ssrc payloadType c.videoRtxPayloadType
      (UInt32.ofNat rtxSsrc) stream.rid (random ssrc).1 (random ssrc).2 with
    | (.error e, pipeline) =>
      (.error (.pipeline e), { c with sender := { c.sender with pipeline } })
    | (.ok (), pipeline) =>
      configureStreams codec payloadType random
        { c with sender := { c.sender with pipeline } } streams

/-- `_video_rtx_ssrcs`, as `_apply_selected_video_stream` sets it. -/
def rtxSsrcs (rtx : Bool) (streams : List NegotiatedStream) (ssrc : UInt32) : Option ℕ :=
  ((streams.filter fun stream => stream.ssrc = ssrc).getLast?).map fun stream =>
    if rtx then stream.rtxSsrc else 0

/-- `_apply_selected_video_stream` from where the streams are selected to where they are configured:
what does not belong to them goes. -/
def retainSelected (c : VideoClient τ ρ) (codec : String)
    (negotiatedStreams : List NegotiatedStream)
    (selected : NegotiatedStream) (others : List NegotiatedStream)
    (rtcpReceiverReports : ReceiverReports) (reset : Bool) (env : ApplyEnv) : VideoClient τ ρ :=
  let videoRtxPayloadType := settings.rtxPayloadTypeForCodec codec
  let c := if reset then c.clearVideoSendCaches env.transportSequence else c
  let pipeline := c.sender.pipeline.retainStreams ((selected :: others).map NegotiatedStream.ssrc)
  { c with
    rtcpReceiverReports
    videoCodec := some codec
    videoRtxPayloadType
    videoSsrc := selected.ssrc
    sender := { c.sender with pipeline }
    videoRtxSsrcs :=
      rtxSsrcs (settings.rtxEnabled && videoRtxPayloadType.isSome) negotiatedStreams }

/-- `_apply_selected_video_stream` from where the streams are configured to the announcement. -/
def activateSelected (c : VideoClient τ ρ) (params : VideoStartParams)
    (negotiatedStreams selectedStreams : List NegotiatedStream) : VideoClient τ ρ :=
  let stateStreams := if c.videoSourceSupportsSimulcast then negotiatedStreams else selectedStreams
  { c with
    activeVideoStreams := selectedStreams
    activeVideoStreamsByRid := fun rid =>
      (selectedStreams.filter fun stream : NegotiatedStream => stream.rid = rid).getLast?
    videoStateStreams := c.videoStateForStreams settings params stateStreams }

/-- `_apply_selected_video_stream`, up to the choice of the RTCP listener. There is no stream to
select only where none is negotiated. -/
def applySelectedVideoStream (c : VideoClient τ ρ) (codec : String) (params : VideoStartParams)
    (reset : Bool) (env : ApplyEnv) : Except ClientError Unit × VideoClient τ ρ :=
  let negotiatedStreams := c.negotiatedVideoStreams
  match c.selectActiveVideoStreams settings.rtcpReceiverReportTtl env.now negotiatedStreams with
  | ([], _) => (.error (.noVideoStreams settings.mediaStreamType), c)
  | (selected :: others, rtcpReceiverReports) =>
    let c := c.retainSelected settings codec negotiatedStreams selected others rtcpReceiverReports
      reset env
    match settings.videoCodec codec.toUpper with
    | none => (.error (.unsupportedVideoCodec codec), c)
    | some voiceCodec =>
      match configureStreams clock media codec voiceCodec.payloadType env.random c
        (selected :: others) with
      | (.error e, c) => (.error e, c)
      | (.ok (), c) =>
        (c.activateSelected settings params negotiatedStreams
          (selected :: others)).announceVideoState
          settings reset env.gateway

/-- `start_video`. -/
def startVideo (c : VideoClient τ ρ) (width height fps bitrate : ℤ) (env : ApplyEnv) :
    Except ClientError Unit × VideoClient τ ρ :=
  if !c.connected then (.error .notConnected, c)
  else match c.negotiatedCodec with
  | none => (.error .noVideoCodec, c)
  | some codec =>
    let params : VideoStartParams :=
      { width, height, fps
        bitrate := if bitrate > 0 then bitrate else nativeVideoBitrate height fps }
    { c with videoStartParams := some params }.applySelectedVideoStream clock media settings
      codec.toUpper params true env

/-- `on_media_sink_wants`, what it tells the source of the player apart. -/
def onMediaSinkWants (c : VideoClient τ ρ) (wants : UInt32 → Option ℤ) (any : Option ℤ)
    (env : ApplyEnv) : Except ClientError Unit × VideoClient τ ρ :=
  let c := { c with
    remoteMediaSinkWants := wants
    remoteMediaSinkWantsAny := any
    remoteMediaSinkWantsReceived := true }
  match c.videoStartParams, c.videoCodec with
  | some params, some codec =>
    c.applySelectedVideoStream clock media settings codec params false env
  | _, _ => (.ok (), c)

/-- `_media_player_source_changed`. -/
def mediaPlayerSourceChanged (c : VideoClient τ ρ) (simulcast : Bool) : VideoClient τ ρ :=
  let c := { c with videoSourceSupportsSimulcast := simulcast }
  match c.videoStartParams, c.videoCodec with
  | some params, some codec =>
    if c.connected then { c with scheduled := c.scheduled ++ [(codec, params)] } else c
  | _, _ => c

/-- The first of the scheduled calls is made. -/
def runScheduled (c : VideoClient τ ρ) (env : ApplyEnv) :
    Except ClientError Unit × VideoClient τ ρ :=
  match c.scheduled with
  | [] => (.ok (), c)
  | (codec, params) :: scheduled =>
    { c with scheduled }.applySelectedVideoStream clock media settings codec params false env

/-- `stop_video` from where the gateway has taken the announcement that there is no video. -/
def finishStopVideo (c : VideoClient τ ρ) (transportSequence : UInt16) : VideoClient τ ρ :=
  let c := c.clearVideoSendCaches transportSequence
  { c with
    videoCodec := none
    videoStartParams := none
    videoStateStreams := []
    activeVideoStreams := []
    activeVideoStreamsByRid := fun _ => none
    videoSsrc := 0
    videoRtxPayloadType := none
    videoRtxSsrcs := fun _ => none
    videoKeyframes := fun _ => none
    videoKeyframeResendRequests := []
    videoKeyframeReplayActive := false
    events := c.events ++ [.stopped] }

/-- A change of the source may schedule a call, which is for the codec of the client. -/
theorem mediaPlayerSourceChanged_spec (c : VideoClient τ ρ) (simulcast : Bool) :
    ∃ scheduled, c.mediaPlayerSourceChanged simulcast =
        { c with videoSourceSupportsSimulcast := simulcast, scheduled } ∧
      ∀ call ∈ scheduled, call ∈ c.scheduled ∨ c.videoCodec = some call.1 := by
  rw [mediaPlayerSourceChanged]
  dsimp only
  split
  · rename_i params codec _ hcodec
    split
    · refine ⟨c.scheduled ++ [(codec, params)], rfl, fun call hcall => ?_⟩
      rcases List.mem_append.1 hcall with hold | hnew
      · exact .inl hold
      · rw [List.mem_singleton.1 hnew]
        exact .inr hcodec
    · exact ⟨c.scheduled, rfl, fun _ => .inl⟩
  · exact ⟨c.scheduled, rfl, fun _ => .inl⟩

theorem runScheduled_cases (c : VideoClient τ ρ) (env : ApplyEnv) :
    (c.runScheduled clock media settings env).2 = c ∨
      ∃ codec params scheduled, c.scheduled = (codec, params) :: scheduled ∧
        (c.runScheduled clock media settings env).2 =
          ({ c with scheduled }.applySelectedVideoStream clock media settings codec params false
            env).2 := by
  rw [runScheduled]
  split
  · exact .inl rfl
  · rename_i codec params scheduled hscheduled
    exact .inr ⟨codec, params, scheduled, hscheduled, rfl⟩

theorem startVideo_cases (c : VideoClient τ ρ) (width height fps bitrate : ℤ) (env : ApplyEnv) :
    (c.startVideo clock media settings width height fps bitrate env).2 = c ∨
      ∃ codec params, c.negotiatedCodec = some codec ∧
        (c.startVideo clock media settings width height fps bitrate env).2 =
          ({ c with videoStartParams := some params }.applySelectedVideoStream clock media settings
            codec.toUpper params true env).2 := by
  rw [startVideo]
  split
  · exact .inl rfl
  · split
    · exact .inl rfl
    · rename_i codec hcodec
      exact .inr ⟨codec, _, hcodec, rfl⟩

theorem onMediaSinkWants_cases (c : VideoClient τ ρ) (wants : UInt32 → Option ℤ) (any : Option ℤ)
    (env : ApplyEnv) :
    let c' := { c with
      remoteMediaSinkWants := wants
      remoteMediaSinkWantsAny := any
      remoteMediaSinkWantsReceived := true }
    (c.onMediaSinkWants clock media settings wants any env).2 = c' ∨
      ∃ codec params, c.videoCodec = some codec ∧
        (c.onMediaSinkWants clock media settings wants any env).2 =
          (c'.applySelectedVideoStream clock media settings codec params false env).2 := by
  rw [onMediaSinkWants]
  dsimp only
  split
  · rename_i params codec _ hcodec
    exact .inr ⟨codec, params, hcodec, rfl⟩
  · exact .inl rfl

end VideoClient

/-! ## Configuring a stream -/

section Configure

open VideoSendPipelineState

variable {τ ρ : Type} {clock : TickClock τ ρ} {s : VideoSendPipelineState ρ}

/-- What the pipeline knows of a stream, but for its packets. -/
structure StreamSetup where
  codec : VideoCodec
  payloadType : UInt8
  rid : String
  rtxPayloadType : Option UInt8
  rtxSsrc : UInt32
  deriving DecidableEq

def PipelineStream.setup (p : PipelineStream ρ) : StreamSetup :=
  ⟨p.codec, p.payloadType, p.rid, p.rtxPayloadType, p.rtxSsrc⟩

/-- The setup of the stream under an SSRC. -/
def VideoSendPipelineState.setup (s : VideoSendPipelineState ρ) (ssrc : UInt32) :
    Option StreamSetup :=
  (s.streams ssrc).map PipelineStream.setup

theorem setup_setStream (mediaSsrc ssrc : UInt32) (p : PipelineStream ρ) :
    (s.setStream mediaSsrc p).setup ssrc =
      if ssrc = mediaSsrc then some p.setup else s.setup ssrc := by
  unfold VideoSendPipelineState.setup setStream
  by_cases h : ssrc = mediaSsrc
  · subst h
    simp
  · simp [h]

theorem setup_update (p : PipelineStream ρ) (rtxPayloadType : Option UInt8) (rtxSsrc : UInt32)
    (rid : String) : (p.update rtxPayloadType rtxSsrc rid).setup =
      { p.setup with rtxPayloadType, rtxSsrc, rid } := by
  unfold PipelineStream.update
  dsimp only
  split <;> rfl

theorem setup_configure (codec : VideoCodec) (mediaSsrc : UInt32) (payloadType : UInt8)
    (rtxPayloadType : Option UInt8) (rtxSsrc : UInt32) (rid : String) (sequence : UInt16)
    (timestamp ssrc : UInt32) :
    (s.configure clock codec mediaSsrc payloadType rtxPayloadType rtxSsrc rid sequence
      timestamp).setup ssrc =
      if ssrc = mediaSsrc then some ⟨codec, payloadType, rid, rtxPayloadType, rtxSsrc⟩
      else s.setup ssrc := by
  unfold configure
  dsimp only
  split
  · exact setup_setStream ..
  · split
    · rename_i stream _ hsame
      rw [setup_setStream, setup_update]
      simp [PipelineStream.setup, hsame]
    · exact setup_setStream ..

variable (clock) in
theorem setup_configureStream {codec : String} {payloadType : UInt16}
    {rtxPayloadType : Option UInt16} {checked : VideoCodec × UInt8 × Option UInt8}
    (h : checkStream codec payloadType rtxPayloadType = .ok checked) (mediaSsrc rtxSsrc : UInt32)
    (rid : String) (sequence : UInt16) (timestamp : UInt32) :
    ∃ s', s.configureStream clock codec mediaSsrc payloadType rtxPayloadType rtxSsrc rid sequence
        timestamp = (.ok (), s') ∧
      ∀ ssrc, s'.setup ssrc =
        if ssrc = mediaSsrc then some ⟨checked.1, checked.2.1, rid, checked.2.2, rtxSsrc⟩
        else s.setup ssrc := by
  refine ⟨s.configure clock checked.1 mediaSsrc checked.2.1 checked.2.2 rtxSsrc rid sequence
    timestamp, ?_, fun ssrc => setup_configure ..⟩
  rw [configureStream, h]

end Configure

namespace VideoClient

variable {τ ρ : Type} {clock : TickClock τ ρ} {media : MediaClock τ} {settings : VideoSettings}
variable {c : VideoClient τ ρ} {codec : String} {params : VideoStartParams}

/-- The setup of the last stream with an SSRC, as it is configured. -/
def setupIn (checked : VideoCodec × UInt8 × Option UInt8) (rtxSsrcs : UInt32 → Option ℕ)
    (streams : List NegotiatedStream) (ssrc : UInt32) : Option StreamSetup :=
  ((streams.filter fun stream => stream.ssrc = ssrc).getLast?).map fun stream =>
    ⟨checked.1, checked.2.1, stream.rid, checked.2.2, UInt32.ofNat ((rtxSsrcs ssrc).getD 0)⟩

theorem setupIn_cons (checked : VideoCodec × UInt8 × Option UInt8) (rtxSsrcs : UInt32 → Option ℕ)
    (stream : NegotiatedStream) (streams : List NegotiatedStream) (ssrc : UInt32) :
    setupIn checked rtxSsrcs (stream :: streams) ssrc =
      (setupIn checked rtxSsrcs streams ssrc).or (setupIn checked rtxSsrcs [stream] ssrc) := by
  unfold setupIn
  by_cases h : stream.ssrc = ssrc
  · rw [List.filter_cons_of_pos (by simpa using h), List.filter_cons_of_pos (by simpa using h),
      List.getLast?_cons]
    cases (streams.filter fun stream => stream.ssrc = ssrc).getLast? <;> simp
  · rw [List.filter_cons_of_neg (by simpa using h), List.filter_cons_of_neg (by simpa using h)]
    simp

variable (clock media) in
/-- **The pipeline behind the loop**: it is set up for the streams, and as before for all others.
The rest of the client but for the counters is left alone. -/
theorem configureStreams_eq_ok {payloadType : UInt16} {checked : VideoCodec × UInt8 × Option UInt8}
    (random : UInt32 → UInt16 × UInt32) (streams : List NegotiatedStream)
    (hcheck : VideoSendPipelineState.checkStream codec payloadType c.videoRtxPayloadType =
      .ok checked)
    (hfits : ∀ stream ∈ streams, (c.videoRtxSsrcs stream.ssrc).getD 0 < 2 ^ 32) :
    ∃ pipeline packetCounts octetCounts mediaTimes lastTimes,
      configureStreams clock media codec payloadType random c streams = (.ok (), { c with
        sender := { c.sender with pipeline }
        videoPacketCounts := packetCounts
        videoOctetCounts := octetCounts
        videoMediaTimesMs := mediaTimes
        videoLastRtcpMediaTimesMs := lastTimes }) ∧
      ∀ ssrc, pipeline.setup ssrc =
        (setupIn checked c.videoRtxSsrcs streams ssrc).or (c.sender.pipeline.setup ssrc) := by
  induction streams generalizing c with
  | nil => exact ⟨_, _, _, _, _, rfl, fun ssrc => rfl⟩
  | cons stream streams ih =>
    have hfit := hfits stream List.mem_cons_self
    unfold configureStreams
    dsimp only
    generalize hc : (if (c.videoPacketCounts stream.ssrc).isNone = true then
      c.resetVideoStreamCounters media stream.ssrc else c) = c'
    obtain ⟨packetCounts, octetCounts, mediaTimes, lastTimes, rfl⟩ : ∃ packetCounts octetCounts
        mediaTimes lastTimes, c' = { c with
          videoPacketCounts := packetCounts
          videoOctetCounts := octetCounts
          videoMediaTimesMs := mediaTimes
          videoLastRtcpMediaTimesMs := lastTimes } := by
      rw [← hc]
      split
      · exact ⟨_, _, _, _, rfl⟩
      · exact ⟨_, _, _, _, rfl⟩
    dsimp only at hfit ⊢
    rw [if_neg (Nat.not_le.2 hfit)]
    obtain ⟨pipeline, hconfigure, hsetup⟩ := setup_configureStream clock
      (s := c.sender.pipeline) hcheck stream.ssrc
      (UInt32.ofNat ((c.videoRtxSsrcs stream.ssrc).getD 0)) stream.rid (random stream.ssrc).1
      (random stream.ssrc).2
    rw [hconfigure]
    obtain ⟨pipeline', packetCounts', octetCounts', mediaTimes', lastTimes', heq, hsetup'⟩ :=
      ih (c := { c with
        sender := { c.sender with pipeline }
        videoPacketCounts := packetCounts
        videoOctetCounts := octetCounts
        videoMediaTimesMs := mediaTimes
        videoLastRtcpMediaTimesMs := lastTimes }) hcheck
        fun stream' h => hfits stream' (List.mem_cons_of_mem _ h)
    refine ⟨pipeline', packetCounts', octetCounts', mediaTimes', lastTimes', heq, fun ssrc => ?_⟩
    rw [hsetup', setupIn_cons, Option.or_assoc, hsetup]
    congr 1
    unfold setupIn
    by_cases h : ssrc = stream.ssrc
    · subst h
      simp
    · simp [h, Ne.symm h]

/-! ## The selected streams -/

/-- What the pipeline is to be set up for: the active streams, as the client has them. -/
def expectedSetup (settings : VideoSettings) (c : VideoClient τ ρ) (ssrc : UInt32) :
    Option StreamSetup := do
  let codec ← c.videoCodec
  let voiceCodec ← settings.videoCodec codec.toUpper
  let checked ← (VideoSendPipelineState.checkStream codec voiceCodec.payloadType
    c.videoRtxPayloadType).toOption
  setupIn checked c.videoRtxSsrcs c.activeVideoStreams ssrc

/-- The client is at one with its pipeline. -/
structure Consistent (settings : VideoSettings) (c : VideoClient τ ρ) : Prop where
  started : c.videoCodec = none ↔ c.activeVideoStreams = []
  byRid : ∀ rid, c.activeVideoStreamsByRid rid =
    (c.activeVideoStreams.filter fun stream : NegotiatedStream => stream.rid = rid).getLast?
  ready : ∀ stream ∈ c.activeVideoStreams,
    (c.sender.pipeline.streams stream.ssrc).isSome = true
  setUp : ∀ ssrc, c.sender.pipeline.setup ssrc = c.expectedSetup settings ssrc

theorem setupIn_eq_none {checked : VideoCodec × UInt8 × Option UInt8}
    {rtxSsrcs : UInt32 → Option ℕ} {streams : List NegotiatedStream} {ssrc : UInt32} :
    setupIn checked rtxSsrcs streams ssrc = none ↔ ∀ stream ∈ streams, stream.ssrc ≠ ssrc := by
  simp [setupIn]

/-- The RTX SSRC of a negotiated stream fits. -/
theorem rtxSsrcs_lt {streams : List NegotiatedStream} (rtx : Bool)
    (hfits : ∀ stream ∈ streams, stream.rtxSsrc < 2 ^ 32) (ssrc : UInt32) :
    (rtxSsrcs rtx streams ssrc).getD 0 < 2 ^ 32 := by
  unfold rtxSsrcs
  cases hlast : (streams.filter fun stream : NegotiatedStream => stream.ssrc = ssrc).getLast? with
  | none => simp
  | some stream =>
    have hmem := List.mem_of_mem_filter (List.mem_of_getLast? hlast)
    have hfit := hfits stream hmem
    cases rtx with
    | true => exact hfit
    | false => exact Nat.two_pow_pos 32

theorem announceVideoState_eq (c : VideoClient τ ρ) (force gateway : Bool) :
    ∃ lastVideoState, (c.announceVideoState settings force gateway).2 =
      { c with lastVideoState } := by
  unfold announceVideoState
  dsimp only
  split
  · exact ⟨_, rfl⟩
  · exact ⟨_, rfl⟩

/-- Streams that are not selected are gone before the others are configured. -/
theorem setup_retainSelected {negotiatedStreams : List NegotiatedStream}
    {selected : NegotiatedStream}
    {others : List NegotiatedStream} {reports : ReceiverReports} {reset : Bool} {env : ApplyEnv}
    {ssrc : UInt32} (h : ∀ stream ∈ selected :: others, stream.ssrc ≠ ssrc) :
    (c.retainSelected settings codec negotiatedStreams selected others reports reset
      env).sender.pipeline.setup ssrc = none := by
  have hmem : ssrc ∉ (selected :: others).map NegotiatedStream.ssrc := by
    intro hmem
    obtain ⟨stream, hstream, heq⟩ := List.mem_map.1 hmem
    exact h stream hstream heq
  unfold retainSelected VideoSendPipelineState.setup VideoSendPipelineState.retainStreams
  dsimp only
  rw [if_neg hmem]
  rfl

variable (clock media params) in
/-- **Setting up succeeds or does not start**: it makes the client and its pipeline agree on the
streams, unless none is negotiated. -/
theorem applySelectedVideoStream_consistent (reset : Bool) (env : ApplyEnv)
    (hsupports : settings.Supports codec)
    (hfits : ∀ stream ∈ c.negotiatedVideoStreams, stream.rtxSsrc < 2 ^ 32) :
    (c.applySelectedVideoStream clock media settings codec params reset env).2 = c ∨
      (c.applySelectedVideoStream clock media settings codec params reset env).2.Consistent
        settings := by
  obtain ⟨voiceCodec, hcodec, checked, hchecked⟩ := hsupports
  unfold applySelectedVideoStream
  dsimp only
  split
  · exact .inl rfl
  · rename_i selected others reports _
    right
    rw [hcodec]
    dsimp only
    obtain ⟨pipeline, packetCounts, octetCounts, mediaTimes, lastTimes, heq, hsetup⟩ :=
      configureStreams_eq_ok clock media
        (c := c.retainSelected settings codec c.negotiatedVideoStreams selected others reports reset
          env) env.random (selected :: others) hchecked fun _ _ => rtxSsrcs_lt _ hfits _
    rw [heq]
    dsimp only
    obtain ⟨lastVideoState, heq'⟩ := announceVideoState_eq _ _ _
    rw [heq']
    have hpipeline : ∀ ssrc, pipeline.setup ssrc = setupIn checked
        (rtxSsrcs (settings.rtxEnabled && (settings.rtxPayloadTypeForCodec codec).isSome)
          c.negotiatedVideoStreams) (selected :: others) ssrc := by
      intro ssrc
      refine (hsetup ssrc).trans ?_
      change (setupIn checked (rtxSsrcs _ c.negotiatedVideoStreams) (selected :: others)
        ssrc).or _ = _
      cases hin : setupIn checked (rtxSsrcs (settings.rtxEnabled &&
        (settings.rtxPayloadTypeForCodec codec).isSome) c.negotiatedVideoStreams)
          (selected :: others) ssrc with
      | some setup => rfl
      | none => exact setup_retainSelected (setupIn_eq_none.1 hin)
    refine ⟨by simp [activateSelected, retainSelected], fun rid => rfl, fun stream hstream => ?_,
      fun ssrc => ?_⟩
    · have hsome : (pipeline.setup stream.ssrc).isSome = true := by
        rw [hpipeline, ← Option.ne_none_iff_isSome]
        exact fun hnone => setupIn_eq_none.1 hnone stream hstream rfl
      have hready : (pipeline.streams stream.ssrc).isSome = true := by
        simpa [VideoSendPipelineState.setup] using hsome
      exact hready
    · refine (hpipeline ssrc).trans ?_
      simp only [expectedSetup, activateSelected, retainSelected, Option.bind_eq_bind,
        Option.bind_some, hcodec, hchecked, Except.toOption]

theorem finishStopVideo_consistent (transportSequence : UInt16) :
    (c.finishStopVideo transportSequence).Consistent settings where
  started := ⟨fun _ => rfl, fun _ => rfl⟩
  byRid _ := rfl
  ready _ h := absurd h List.not_mem_nil
  setUp _ := rfl

/-! ## What is left alone -/

variable (clock media codec) in
/-- The loop changes the pipeline and the counters only. -/
theorem configureStreams_frame (payloadType : UInt16) (random : UInt32 → UInt16 × UInt32)
    (streams : List NegotiatedStream) :
    ∃ pipeline packetCounts octetCounts mediaTimes lastTimes,
      (configureStreams clock media codec payloadType random c streams).2 = { c with
        sender := { c.sender with pipeline }
        videoPacketCounts := packetCounts
        videoOctetCounts := octetCounts
        videoMediaTimesMs := mediaTimes
        videoLastRtcpMediaTimesMs := lastTimes } := by
  induction streams generalizing c with
  | nil => exact ⟨_, _, _, _, _, rfl⟩
  | cons stream streams ih =>
    unfold configureStreams
    dsimp only
    generalize hc : (if (c.videoPacketCounts stream.ssrc).isNone = true then
      c.resetVideoStreamCounters media stream.ssrc else c) = c'
    obtain ⟨packetCounts, octetCounts, mediaTimes, lastTimes, rfl⟩ : ∃ packetCounts octetCounts
        mediaTimes lastTimes, c' = { c with
          videoPacketCounts := packetCounts
          videoOctetCounts := octetCounts
          videoMediaTimesMs := mediaTimes
          videoLastRtcpMediaTimesMs := lastTimes } := by
      rw [← hc]
      split
      · exact ⟨_, _, _, _, rfl⟩
      · exact ⟨_, _, _, _, rfl⟩
    split
    · exact ⟨_, _, _, _, _, rfl⟩
    · split
      · exact ⟨_, _, _, _, _, rfl⟩
      · obtain ⟨pipeline, _, _, _, _, heq⟩ := ih (c := { c with
          sender := { c.sender with pipeline := _ }
          videoPacketCounts := packetCounts
          videoOctetCounts := octetCounts
          videoMediaTimesMs := mediaTimes
          videoLastRtcpMediaTimesMs := lastTimes })
        exact ⟨pipeline, _, _, _, _, heq⟩

/-- What `_apply_selected_video_stream` leaves alone. -/
structure Applied (codec : String) (c c' : VideoClient τ ρ) : Prop where
  videoStreams : c'.videoStreams = c.videoStreams
  negotiatedCodec : c'.negotiatedCodec = c.negotiatedCodec
  scheduled : c'.scheduled = c.scheduled
  videoKeyframes : c'.videoKeyframes = c.videoKeyframes
  replayActive : c'.videoKeyframeReplayActive = c.videoKeyframeReplayActive
  requests : c'.videoKeyframeResendRequests = c.videoKeyframeResendRequests
  videoCodec : c'.videoCodec = c.videoCodec ∨ c'.videoCodec = some codec
  events : c'.events = c.events ∨ c'.events = c.events ++ [.cleared]

variable (clock media settings codec params) in
theorem applySelectedVideoStream_frame (c : VideoClient τ ρ) (reset : Bool) (env : ApplyEnv) :
    Applied codec c (c.applySelectedVideoStream clock media settings codec params reset env).2 := by
  have hretain (selected others reports) : Applied codec c (c.retainSelected settings codec
      c.negotiatedVideoStreams selected others reports reset env) := by
    unfold retainSelected
    cases reset with
    | false => exact ⟨rfl, rfl, rfl, rfl, rfl, rfl, .inr rfl, .inl rfl⟩
    | true => exact ⟨rfl, rfl, rfl, rfl, rfl, rfl, .inr rfl, .inr rfl⟩
  unfold applySelectedVideoStream
  dsimp only
  split
  · exact ⟨rfl, rfl, rfl, rfl, rfl, rfl, .inl rfl, .inl rfl⟩
  · rename_i selected others reports _
    have h := hretain selected others reports
    split
    · exact h
    · rename_i voiceCodec _
      have hframe := configureStreams_frame clock media codec
        (c := c.retainSelected settings codec c.negotiatedVideoStreams selected others reports reset
          env) voiceCodec.payloadType env.random (selected :: others)
      obtain ⟨pipeline, packetCounts, octetCounts, mediaTimes, lastTimes, heq⟩ := hframe
      split
      · rename_i hconf
        rw [hconf] at heq
        dsimp only at heq ⊢
        rw [heq]
        exact { h with }
      · rename_i hconf
        rw [hconf] at heq
        dsimp only at heq ⊢
        obtain ⟨lastVideoState, heq'⟩ := announceVideoState_eq _ _ _
        rw [heq', heq]
        exact { h with }

end VideoClient

end NativeVoice.Send
