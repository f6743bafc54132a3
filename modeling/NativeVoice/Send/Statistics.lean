import NativeVoice.Send.Concurrent

/-!
# Recorded send statistics

What `_send_video_frame_raw`, `_send_video_rtx_packet` and `_handle_rtcp_nack` of
`src/discord/ext/native_voice/client.py` record in `_rtp_send_stats` about the packets that the
pipeline sends for them. The pipeline returns the last transport-wide sequence number that it used;
the two RTX paths record it, the path of video frames records the number before it.

* `statistics_match_iff`: what is recorded for an SSRC is on its last packet if and only if an RTX
  path sent that packet.
* `not_statisticsMatch`: one frame is enough.
-/

namespace NativeVoice.Send

open Lib Video Transport

structure RTPSendStats where
  ssrc : UInt32
  sequence : UInt16
  transportSequence : Option UInt16
  deriving DecidableEq

inductive SendPath
  | videoFrame
  | rtxPacket
  | rtcpNack
  deriving DecidableEq

/-- A packet on the wire, with the path that sent it, and whether its call returned: a call that is
interrupted raises, also when packets of it were sent before. -/
structure Sent where
  packet : PreparedRTPPacket
  path : SendPath
  returned : Bool
  deriving DecidableEq

structure VideoSender (ρ : Type) where
  pipeline : VideoSendPipelineState ρ
  rtpSendStats : UInt32 → Option RTPSendStats
  wire : List Sent

namespace VideoSender

variable {τ ρ : Type} (clock : TickClock τ ρ) (b : Build)

def new (transportSequence : UInt16) : VideoSender ρ where
  pipeline := .new transportSequence
  rtpSendStats := fun _ => none
  wire := []

def recordRtpSendStats (s : VideoSender ρ) (ssrc : UInt32) (sequence transportSequence : UInt16) :
    VideoSender ρ :=
  { s with
    rtpSendStats := Function.update s.rtpSendStats ssrc
      (some ⟨ssrc, sequence, some transportSequence⟩) }

/-- The packets of a call on the wire: all of them, or those before an interruption. -/
def onWire (packets : List PreparedRTPPacket) (path : SendPath) (interrupted : Option ℕ) :
    List Sent :=
  (packets.take (interrupted.getD packets.length)).map fun packet =>
    ⟨packet, path, interrupted.isNone⟩

def emit (s : VideoSender ρ) (packets : List PreparedRTPPacket) (path : SendPath)
    (interrupted : Option ℕ) : VideoSender ρ :=
  { s with wire := s.wire ++ onWire packets path interrupted }

/-- `_send_video_frame_raw`, `interrupted` after so many packets or not at all. -/
def sendVideoFrameRaw (s : VideoSender ρ) (codec : String) (mediaSsrc : UInt32)
    (originalFrame frame : Bytes) (frameTimeMs : τ) (mediaStreamType : String) (now : ℕ → UInt32)
    (interrupted : Option ℕ) : VideoSender ρ :=
  let metadataFrame := if codec.toUpper = "VP9" then some originalFrame else none
  match s.pipeline.prepareVideoFrameInner clock b mediaSsrc frame metadataFrame frameTimeMs
    mediaStreamType now with
  | (.error _, pipeline) => { s with pipeline }
  | (.ok prepared, pipeline) =>
    let s := { s with pipeline }.emit prepared.packets .videoFrame interrupted
    let sent := prepared.packets.length
    if interrupted.isSome then s
    else if sent = 0 then s
    else match prepared.lastSequence with
      | none => s
      | some lastSequence =>
        s.recordRtpSendStats mediaSsrc lastSequence (prepared.transportSequence - 1)

/-- `_send_video_rtx_packet`, with the RTX settings that the client has for the stream. -/
def sendVideoRtxPacket (s : VideoSender ρ) (rtxEnabled : Bool) (rtxPayloadType : Option UInt8)
    (rtxSsrc mediaSsrc : UInt32) (sequence : ℤ) (mediaStreamType : String) (now : UInt32)
    (interrupted : Option ℕ) : VideoSender ρ :=
  if !rtxEnabled ∨ rtxPayloadType = none ∨ rtxSsrc = 0 then s
  else match s.pipeline.prepareVideoRtxPacketInner mediaSsrc (UInt16.ofInt sequence) mediaStreamType
    now with
  | (.error _, pipeline) => { s with pipeline }
  | (.ok prepared, pipeline) =>
    let s := { s with pipeline }.emit prepared.packet.toList .rtxPacket interrupted
    if interrupted.isSome then s
    else if prepared.packet = none then s
    else s.recordRtpSendStats prepared.rtxSsrc prepared.rtxSequence prepared.transportSequence

def handleRtcpNack (s : VideoSender ρ) (payload : Bytes) (mediaStreamType : String)
    (now : ℕ → UInt32) (interrupted : Option ℕ) : VideoSender ρ :=
  match payload with
  | r0 :: r1 :: r2 :: r3 :: chunks =>
    if chunks.length < 4 then s
    else if (s.pipeline.streams (u32FromBe r0 r1 r2 r3)).isNone then s
    else match s.pipeline.prepareVideoRtxForNackInner payload mediaStreamType now with
    | (.error _, pipeline) => { s with pipeline }
    | (.ok prepared, pipeline) =>
      let s := { s with pipeline }.emit prepared.packets .rtcpNack interrupted
      if interrupted.isSome then s
      else if prepared.summary.resent = 0 then s
      else s.recordRtpSendStats prepared.summary.rtxSsrc prepared.summary.lastRtxSequence
        prepared.summary.transportSequence
  | _ => s

/-- What the client does with the pipeline. -/
inductive Act (τ : Type)
  | configureStream (codec : String) (mediaSsrc : UInt32) (payloadType : UInt16)
    (rtxPayloadType : Option UInt16) (rtxSsrc : UInt32) (rid : String) (sequence : UInt16)
    (timestamp : UInt32)
  | retainStreams (mediaSsrcs : List UInt32)
  | clear (transportSequence : UInt16)
  | sendVideoFrameRaw (codec : String) (mediaSsrc : UInt32) (originalFrame frame : Bytes)
    (frameTimeMs : τ) (mediaStreamType : String) (now : ℕ → UInt32) (interrupted : Option ℕ)
  | sendVideoRtxPacket (rtxEnabled : Bool) (rtxPayloadType : Option UInt8)
    (rtxSsrc mediaSsrc : UInt32) (sequence : ℤ) (mediaStreamType : String) (now : UInt32)
    (interrupted : Option ℕ)
  | handleRtcpNack (payload : Bytes) (mediaStreamType : String) (now : ℕ → UInt32)
    (interrupted : Option ℕ)

def step (s : VideoSender ρ) : Act τ → VideoSender ρ
  | .configureStream codec mediaSsrc payloadType rtxPayloadType rtxSsrc rid sequence timestamp =>
    { s with pipeline := (s.pipeline.configureStream clock codec mediaSsrc payloadType
      rtxPayloadType rtxSsrc rid sequence timestamp).2 }
  | .retainStreams mediaSsrcs => { s with pipeline := s.pipeline.retainStreams mediaSsrcs }
  | .clear transportSequence => { s with pipeline := s.pipeline.clear transportSequence }
  | .sendVideoFrameRaw codec mediaSsrc originalFrame frame frameTimeMs mediaStreamType now
      interrupted =>
    s.sendVideoFrameRaw clock b codec mediaSsrc originalFrame frame frameTimeMs mediaStreamType now
      interrupted
  | .sendVideoRtxPacket rtxEnabled rtxPayloadType rtxSsrc mediaSsrc sequence mediaStreamType now
      interrupted =>
    s.sendVideoRtxPacket rtxEnabled rtxPayloadType rtxSsrc mediaSsrc sequence mediaStreamType now
      interrupted
  | .handleRtcpNack payload mediaStreamType now interrupted =>
    s.handleRtcpNack payload mediaStreamType now interrupted

def run (transportSequence : UInt16) (acts : List (Act τ)) : VideoSender ρ :=
  acts.foldl (step clock b) (new transportSequence)

/-! ## The invariant -/

/-- The last packet sent on an SSRC. -/
def lastSent (s : VideoSender ρ) (ssrc : UInt32) : Option Sent :=
  (s.wire.filter fun e => e.packet.ssrc = some ssrc).getLast?

/-- The transport-wide sequence number recorded for an SSRC. -/
def recordedSequence (s : VideoSender ρ) (ssrc : UInt32) : Option UInt16 :=
  (s.rtpSendStats ssrc).bind RTPSendStats.transportSequence

/-- What a path records of the last number that a call used. -/
def recordedBy (path : SendPath) (n : UInt16) : UInt16 :=
  if path = .videoFrame then n - 1 else n

/-- The statistics are those of the path that sent the last packet, if its call returned. -/
structure Accurate (s : VideoSender ρ) : Prop where
  consistent : s.pipeline.Consistent
  records : ∀ ssrc e, s.lastSent ssrc = some e → e.returned →
    ∃ n, e.packet.transportSequence = some n ∧ s.recordedSequence ssrc = some (recordedBy e.path n)

variable {clock b} {s : VideoSender ρ}

theorem accurate_new (transportSequence : UInt16) : (new transportSequence : VideoSender ρ).Accurate
    where
  consistent := ⟨fun _ => {}, Tracked.recorded_new transportSequence⟩
  records ssrc e he := by cases he

theorem Accurate.setPipeline (h : s.Accurate) {pipeline : VideoSendPipelineState ρ}
    (hconsistent : pipeline.Consistent) : ({ s with pipeline } : VideoSender ρ).Accurate where
  consistent := hconsistent
  records := h.records

/-- Packets on another SSRC, or none. -/
theorem lastSent_emit_of_ne {packets : List PreparedRTPPacket} {path : SendPath}
    {interrupted : Option ℕ} {ssrc : UInt32}
    (h : ∀ e ∈ onWire packets path interrupted, e.packet.ssrc ≠ some ssrc) :
    (s.emit packets path interrupted).lastSent ssrc = s.lastSent ssrc := by
  have hnone : (onWire packets path interrupted).filter
      (fun e => e.packet.ssrc = some ssrc) = [] := by
    rw [List.filter_eq_nil_iff]
    simpa using h
  rw [lastSent, emit, List.filter_append, hnone, List.append_nil, lastSent]

/-- Packets on the SSRC. -/
theorem lastSent_emit_of_eq {packets : List PreparedRTPPacket} {path : SendPath}
    {interrupted : Option ℕ} {ssrc : UInt32}
    (h : ∀ e ∈ onWire packets path interrupted, e.packet.ssrc = some ssrc)
    (hne : onWire packets path interrupted ≠ []) :
    (s.emit packets path interrupted).lastSent ssrc =
      (onWire packets path interrupted).getLast? := by
  have hall : (onWire packets path interrupted).filter (fun e => e.packet.ssrc = some ssrc) =
      onWire packets path interrupted := by
    rw [List.filter_eq_self]
    simpa using h
  rw [lastSent, emit, List.filter_append, hall, List.getLast?_append_of_ne_nil _ hne]

theorem ssrc_of_mem_onWire {packets : List PreparedRTPPacket} {path : SendPath}
    {interrupted : Option ℕ} {ssrc : UInt32} (h : ∀ p ∈ packets, p.ssrc = some ssrc) :
    ∀ e ∈ onWire packets path interrupted, e.packet.ssrc = some ssrc := by
  intro e he
  obtain ⟨p, hp, rfl⟩ := List.mem_map.1 he
  exact h p (List.mem_of_mem_take hp)

/-- A call that is interrupted records nothing. -/
theorem Accurate.interrupt (h : s.Accurate) {packets : List PreparedRTPPacket} {ssrc : UInt32}
    (hssrc : ∀ p ∈ packets, p.ssrc = some ssrc) (path : SendPath) {interrupted : Option ℕ}
    (hi : interrupted.isSome) : (s.emit packets path interrupted).Accurate where
  consistent := h.consistent
  records ssrc' e he hreturned := by
    by_cases hsame : ssrc' = ssrc ∧ onWire packets path interrupted ≠ []
    · obtain ⟨rfl, hne⟩ := hsame
      rw [lastSent_emit_of_eq (ssrc_of_mem_onWire hssrc) hne] at he
      obtain ⟨p, -, rfl⟩ := List.mem_map.1 (List.mem_of_getLast? he)
      obtain ⟨k, rfl⟩ := Option.isSome_iff_exists.1 hi
      cases hreturned
    · rw [lastSent_emit_of_ne fun e' he' heq => ?_] at he
      · exact h.records ssrc' e he hreturned
      · rw [ssrc_of_mem_onWire hssrc e' he'] at heq
        exact hsame ⟨(Option.some.inj heq).symm, List.ne_nil_of_mem he'⟩

/-- A call that returns records what its path records of the last number. -/
theorem Accurate.record (h : s.Accurate) {packets : List PreparedRTPPacket} {ssrc : UInt32}
    (hssrc : ∀ p ∈ packets, p.ssrc = some ssrc) (hne : packets ≠ []) (path : SendPath)
    {n n' : UInt16} (hnumbered : Numbered n packets n') (sequence : UInt16) :
    ((s.emit packets path none).recordRtpSendStats ssrc sequence
      (recordedBy path n')).Accurate where
  consistent := h.consistent
  records ssrc' e he hreturned := by
    have hwire : onWire packets path none = packets.map fun packet => ⟨packet, path, true⟩ := by
      rw [onWire, Option.getD_none, List.take_length]
      rfl
    by_cases hsame : ssrc' = ssrc
    · subst hsame
      have hlast := lastSent_emit_of_eq (s := s) (ssrc_of_mem_onWire hssrc)
        (show onWire packets path none ≠ [] by rw [hwire]; simpa using hne)
      have he : (s.emit packets path none).lastSent ssrc' = some e := he
      rw [hlast, hwire, List.getLast?_map, Option.map_eq_some_iff] at he
      obtain ⟨p, hp, rfl⟩ := he
      exact ⟨n', hnumbered.last hp, by simp [recordedSequence, recordRtpSendStats]⟩
    · have he : (s.emit packets path none).lastSent ssrc' = some e := he
      rw [lastSent_emit_of_ne fun e' he' heq => ?_] at he
      · obtain ⟨m, hm, hrecorded⟩ := h.records ssrc' e he hreturned
        refine ⟨m, hm, ?_⟩
        rw [← hrecorded]
        simp [recordedSequence, recordRtpSendStats, emit, Function.update_of_ne hsame]
      · rw [ssrc_of_mem_onWire hssrc e' he'] at heq
        exact hsame (Option.some.inj heq).symm

/-- A call that sends nothing. -/
theorem emit_nil (s : VideoSender ρ) (path : SendPath) (interrupted : Option ℕ) :
    s.emit [] path interrupted = s := by
  simp [emit, onWire]

/-! ## Every call -/

theorem Accurate.sendVideoFrameRaw (h : s.Accurate) (codec : String) (mediaSsrc : UInt32)
    (originalFrame frame : Bytes) (frameTimeMs : τ) (mediaStreamType : String) (now : ℕ → UInt32)
    (interrupted : Option ℕ) :
    (s.sendVideoFrameRaw clock b codec mediaSsrc originalFrame frame frameTimeMs mediaStreamType now
      interrupted).Accurate := by
  unfold VideoSender.sendVideoFrameRaw
  dsimp only
  generalize hmetadata : (if codec.toUpper = "VP9" then some originalFrame else none) =
    metadataFrame
  have hnext := h.consistent.step clock b
    (.sendVideoFrame mediaSsrc frame metadataFrame frameTimeMs mediaStreamType now)
  simp only [VideoSendPipelineState.step] at hnext
  obtain ⟨history, hrecorded⟩ := h.consistent
  rcases VideoSendPipelineState.prepareVideoFrameInner_numbered clock b
    (fun stream hs => ⟨(hrecorded mediaSsrc stream hs).mtu, (hrecorded mediaSsrc stream hs).ssrc⟩)
    frame metadataFrame frameTimeMs mediaStreamType now with
    ⟨e, heq⟩ | ⟨prepared, pipeline, heq, hnumbered, hlast, hne, hsequence, hssrc⟩
  · rw [heq]
    exact h.setPipeline h.consistent
  · rw [heq] at hnext ⊢
    have hset := h.setPipeline hnext
    dsimp only
    split
    · rename_i hi
      exact hset.interrupt hssrc .videoFrame hi
    · rename_i hi
      obtain rfl : interrupted = none := by simpa using hi
      obtain ⟨lastSequence, hlastSequence⟩ := Option.isSome_iff_exists.1 hsequence
      rw [if_neg (by simpa using hne), hlastSequence, hlast]
      exact hset.record hssrc hne .videoFrame hnumbered lastSequence

theorem Accurate.sendVideoRtxPacket (h : s.Accurate) (rtxEnabled : Bool)
    (rtxPayloadType : Option UInt8) (rtxSsrc mediaSsrc : UInt32) (sequence : ℤ)
    (mediaStreamType : String) (now : UInt32) (interrupted : Option ℕ) :
    (s.sendVideoRtxPacket rtxEnabled rtxPayloadType rtxSsrc mediaSsrc sequence mediaStreamType now
      interrupted).Accurate := by
  unfold VideoSender.sendVideoRtxPacket
  by_cases hoff : !rtxEnabled ∨ rtxPayloadType = none ∨ rtxSsrc = 0
  · rw [if_pos hoff]
    exact h
  · rw [if_neg hoff]
    have hnext := h.consistent.of_sameStreams
      (s.pipeline.sameStreams_prepareVideoRtxPacketInner mediaSsrc (UInt16.ofInt sequence)
        mediaStreamType now)
    rcases s.pipeline.prepareVideoRtxPacketInner_numbered mediaSsrc (UInt16.ofInt sequence)
      mediaStreamType now with ⟨e, heq⟩ | ⟨prepared, pipeline, heq, hnumbered, hlast, hssrc⟩
    · rw [heq]
      exact h.setPipeline h.consistent
    · rw [heq] at hnext ⊢
      have hset := h.setPipeline hnext
      have hssrc' : ∀ p ∈ prepared.packet.toList, p.ssrc = some prepared.rtxSsrc := by
        simpa using hssrc
      dsimp only
      split
      · rename_i hi
        exact hset.interrupt hssrc' .rtxPacket hi
      · rename_i hi
        obtain rfl : interrupted = none := by simpa using hi
        split
        · rename_i hnone
          rw [hnone, Option.toList_none, emit_nil]
          exact hset
        · rename_i hsome
          rw [hlast]
          exact hset.record hssrc' (by simpa using hsome) .rtxPacket hnumbered prepared.rtxSequence

theorem Accurate.handleRtcpNack (h : s.Accurate) (payload : Bytes) (mediaStreamType : String)
    (now : ℕ → UInt32) (interrupted : Option ℕ) :
    (s.handleRtcpNack payload mediaStreamType now interrupted).Accurate := by
  have hnext := h.consistent.of_sameStreams
    (s.pipeline.sameStreams_prepareVideoRtxForNackInner payload mediaStreamType now)
  obtain ⟨prepared, pipeline, heq, hnumbered, hlast, hresent, hssrc⟩ :=
    s.pipeline.prepareVideoRtxForNackInner_numbered payload mediaStreamType now
  unfold VideoSender.handleRtcpNack
  split
  · rename_i r0 r1 r2 r3 chunks
    by_cases hshort : chunks.length < 4
    · rw [if_pos hshort]
      exact h
    · rw [if_neg hshort]
      by_cases hstream : (s.pipeline.streams (u32FromBe r0 r1 r2 r3)).isNone
      · rw [if_pos hstream]
        exact h
      · rw [if_neg hstream, heq]
        rw [heq] at hnext
        have hset := h.setPipeline hnext
        dsimp only
        split
        · rename_i hi
          exact hset.interrupt hssrc .rtcpNack hi
        · rename_i hi
          obtain rfl : interrupted = none := by simpa using hi
          rw [hresent]
          split
          · rename_i hnone
            rw [List.length_eq_zero_iff.1 hnone, emit_nil]
            exact hset
          · rename_i hsome
            rw [hlast]
            exact hset.record hssrc (by simpa using hsome) .rtcpNack hnumbered _
  · exact h

/-- **Every call keeps the statistics of its path.** -/
theorem Accurate.step (h : s.Accurate) (act : Act τ) : (s.step clock b act).Accurate := by
  cases act with
  | configureStream codec mediaSsrc payloadType rtxPayloadType rtxSsrc rid sequence timestamp =>
    exact h.setPipeline (h.consistent.step clock b (.configureStream codec
      mediaSsrc payloadType rtxPayloadType rtxSsrc rid sequence timestamp))
  | retainStreams mediaSsrcs =>
    exact h.setPipeline (h.consistent.step clock b (.retainStreams mediaSsrcs))
  | clear transportSequence =>
    exact h.setPipeline (h.consistent.step clock b (.clear transportSequence))
  | sendVideoFrameRaw codec mediaSsrc originalFrame frame frameTimeMs mediaStreamType now
      interrupted =>
    exact h.sendVideoFrameRaw codec mediaSsrc originalFrame frame frameTimeMs mediaStreamType now
      interrupted
  | sendVideoRtxPacket rtxEnabled rtxPayloadType rtxSsrc mediaSsrc sequence mediaStreamType now
      interrupted =>
    exact h.sendVideoRtxPacket rtxEnabled rtxPayloadType rtxSsrc mediaSsrc sequence mediaStreamType
      now interrupted
  | handleRtcpNack payload mediaStreamType now interrupted =>
    exact h.handleRtcpNack payload mediaStreamType now interrupted

theorem accurate_run (transportSequence : UInt16) (acts : List (Act τ)) :
    (run clock b transportSequence acts : VideoSender ρ).Accurate := by
  unfold run
  generalize hs : (new transportSequence : VideoSender ρ) = s
  have h : s.Accurate := hs ▸ accurate_new transportSequence
  clear hs
  induction acts generalizing s with
  | nil => exact h
  | cons act acts ih => exact ih _ (h.step act)

end VideoSender

/-! ## What the statistics say -/

/-- What is recorded for an SSRC is what its last packet carries. -/
def StatisticsMatch {ρ : Type} (s : VideoSender ρ) (ssrc : UInt32) : Prop :=
  ∀ e, s.lastSent ssrc = some e → s.recordedSequence ssrc = e.packet.transportSequence

/-- **Statistics and wire.** After any run, for an SSRC whose last packet was sent by a call that
returned, the transport-wide sequence number recorded is the one on that packet if and only if one
of the two RTX paths sent it. -/
theorem statistics_match_iff {τ ρ : Type} (clock : TickClock τ ρ) (b : Build)
    (transportSequence : UInt16) (acts : List (VideoSender.Act τ)) {ssrc : UInt32} {e : Sent}
    (hlast : (VideoSender.run clock b transportSequence acts).lastSent ssrc = some e)
    (hreturned : e.returned) :
    StatisticsMatch (VideoSender.run clock b transportSequence acts) ssrc ↔
      e.path ≠ .videoFrame := by
  obtain ⟨n, hn, hrecorded⟩ :=
    (VideoSender.accurate_run transportSequence acts).records ssrc e hlast
    hreturned
  have hmatch : StatisticsMatch (VideoSender.run clock b transportSequence acts) ssrc ↔
      VideoSender.recordedBy e.path n = n := by
    constructor
    · intro h
      have heq := h e hlast
      rw [hrecorded, hn] at heq
      exact Option.some.inj heq
    · intro h e' he'
      obtain rfl := Option.some.inj (hlast.symm.trans he')
      rw [hrecorded, hn, h]
  rw [hmatch, VideoSender.recordedBy]
  split
  · rename_i hpath
    simp [hpath]
  · rename_i hpath
    simp [hpath]

/-- One frame of one packet on a stream, and the packet once more for a negative acknowledgement. -/
def frameAndNack : List (VideoSender.Act (Option ℚ)) :=
  [.configureStream "VP8" 7 101 (some 102) 8 "100" 65534 90000,
    .sendVideoFrameRaw "VP8" 7 [] [1, 2, 3] (some 33) "video" (fun _ => 0) none,
    .handleRtcpNack [0, 0, 0, 7, 255, 255, 0, 0] "video" (fun _ => 0) none]

theorem statistics_match_iff_frameAndNack :
    StatisticsMatch (VideoSender.run TickClock.exact .release 0 frameAndNack) 8 ∧
      ¬StatisticsMatch (VideoSender.run TickClock.exact .release 0 frameAndNack) 7 := by
  have hlast : ((VideoSender.run TickClock.exact .release 0 frameAndNack).lastSent 8).map
      (fun e => (e.path, e.returned)) = some (.rtcpNack, true) ∧
      ((VideoSender.run TickClock.exact .release 0 frameAndNack).lastSent 7).map
      (fun e => (e.path, e.returned)) = some (.videoFrame, true) := by decide +kernel
  simp only [Option.map_eq_some_iff, Prod.mk.injEq] at hlast
  obtain ⟨⟨e, he, hpath, hreturned⟩, f, hf, hpath', hreturned'⟩ := hlast
  exact ⟨(statistics_match_iff TickClock.exact .release 0 frameAndNack he hreturned).2
      (by simp [hpath]),
    fun h => (statistics_match_iff TickClock.exact .release 0 frameAndNack hf hreturned').1 h
      hpath'⟩

/-- **What is recorded is not what was sent**, after one frame. -/
theorem not_statisticsMatch : ¬∀ (acts : List (VideoSender.Act (Option ℚ))) (ssrc : UInt32),
    StatisticsMatch (VideoSender.run TickClock.exact .release 0 acts) ssrc := by
  intro h
  have hlast : ((VideoSender.run TickClock.exact .release 0 (frameAndNack.take 2)).lastSent 7).map
      (fun e => e.packet.transportSequence) = some (some 1) := by decide +kernel
  have hrecorded : (VideoSender.run TickClock.exact .release 0
      (frameAndNack.take 2)).recordedSequence 7 = some 0 := by decide +kernel
  obtain ⟨e, he, hsequence⟩ := Option.map_eq_some_iff.1 hlast
  have hmatch := h (frameAndNack.take 2) 7 e he
  rw [hrecorded, hsequence] at hmatch
  exact absurd hmatch (by decide)

end NativeVoice.Send
