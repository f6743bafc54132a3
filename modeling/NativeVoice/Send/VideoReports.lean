import Mathlib.Algebra.BigOperators.Group.List.Basic
import NativeVoice.Send.VideoSending

/-!
# Sender reports of video

When `_maybe_send_video_rtcp_sender_report` sends a report in a run of a client, and what the report
says.

* `sends`: the frames that were sent on a stream since its counters started anew.
* `Reported`: the histories in which the first frame of every second of media time is followed by a
  report of all packets so far, which the socket takes or not, and no other event is.
* `Reporting`: what the counters of a stream have to do with the history.
* `reported_run`: the history of every run is of this kind.
-/

namespace NativeVoice.Send

open Lib Video

/-- What the media times of the code do: they start at zero and do not go back. -/
structure MediaClock.Lawful {τ : Type} (media : MediaClock τ) : Prop where
  zero : media.second media.zero = 0
  minusOne : media.second media.minusOne < 0
  add : ∀ time frameTimeMs,
    media.second time ≤ media.second (media.add time (media.atLeast frameTimeMs))

/-- The packets of a frame that was sent. -/
structure FrameSend (τ : Type) where
  packets : ℕ
  octets : ℕ
  mediaTimeMs : τ

section Histories

variable {τ : Type} (media : MediaClock τ)

/-- The frames of a stream behind one more event. -/
def sendsStep (ssrc : UInt32) (sends : List (FrameSend τ)) : VideoEvent τ → List (FrameSend τ)
  | .cleared => []
  | .sent mediaSsrc _ packets octets _ mediaTimeMs =>
    if mediaSsrc = ssrc ∧ packets ≠ 0 then sends ++ [{ packets, octets, mediaTimeMs }] else sends
  | _ => sends

/-- The frames that were sent in packets on a stream, since the counters started anew. -/
def sends (ssrc : UInt32) (events : List (VideoEvent τ)) : List (FrameSend τ) :=
  events.foldl (sendsStep ssrc) []

theorem sends_concat (ssrc : UInt32) (events : List (VideoEvent τ)) (event : VideoEvent τ) :
    sends ssrc (events ++ [event]) = sendsStep ssrc (sends ssrc events) event :=
  List.foldl_concat ..

theorem sends_report (ssrc : UInt32) (events : List (VideoEvent τ)) (report : SenderReport)
    (accepted : Bool) : sends ssrc (events ++ [.report report accepted]) = sends ssrc events :=
  sends_concat ..

/-- No frame was sent on the stream in the second of media time, or later. -/
def FirstOfSecond (ssrc : UInt32) (events : List (VideoEvent τ)) (mediaTimeMs : τ) : Prop :=
  ∀ send ∈ sends ssrc events, media.second send.mediaTimeMs < media.second mediaTimeMs

/-- The report of a stream behind some events. -/
def reportOf (ssrc rtpTimestamp : UInt32) (events : List (VideoEvent τ)) : SenderReport where
  ssrc
  rtpTimestamp
  packetCount := ((sends ssrc events).map FrameSend.packets).sum % 2 ^ 32
  octetCount := ((sends ssrc events).map FrameSend.octets).sum % 2 ^ 32

/-- The histories in which reports come once in a second of media time, and tell of all packets. -/
inductive Reported : List (VideoEvent τ) → Prop
  | nil : Reported []
  | taken {events : List (VideoEvent τ)} {ssrc : UInt32} {frame : CachedFrame τ} {config : Bool} :
    Reported events → Reported (events ++ [.taken ssrc frame config])
  | failed {events : List (VideoEvent τ)} {stream : Option VoiceStream} {frame : Bytes} :
    Reported events → Reported (events ++ [.failed stream frame])
  | cleared {events : List (VideoEvent τ)} : Reported events → Reported (events ++ [.cleared])
  | stopped {events : List (VideoEvent τ)} : Reported events → Reported (events ++ [.stopped])
  /-- A frame of a second in which another was sent. -/
  | sent {events : List (VideoEvent τ)} {ssrc rtpTimestamp : UInt32} {frame : Bytes}
    {packets octets : ℕ} {mediaTimeMs : τ} :
    Reported events → packets = 0 ∨ ¬ FirstOfSecond media ssrc events mediaTimeMs →
    Reported (events ++ [.sent ssrc frame packets octets rtpTimestamp mediaTimeMs])
  /-- The first frame of a second. A report that the socket does not take is not made again. -/
  | report {events : List (VideoEvent τ)} {ssrc rtpTimestamp : UInt32} {frame : Bytes}
    {packets octets : ℕ} {mediaTimeMs : τ} {accepted : Bool} :
    Reported events → packets ≠ 0 → FirstOfSecond media ssrc events mediaTimeMs →
    Reported (events ++ [.sent ssrc frame packets octets rtpTimestamp mediaTimeMs] ++
      [.report (reportOf ssrc rtpTimestamp
        (events ++ [.sent ssrc frame packets octets rtpTimestamp mediaTimeMs])) accepted])

end Histories

/-! ## The counters of a stream -/

section Counters

variable {τ : Type}

/-- The counters of a stream agree with the frames that were sent on it. -/
structure Counters (media : MediaClock τ) (packetCount octetCount : Option ℕ)
    (mediaTime lastTime : Option τ) (sends : List (FrameSend τ)) : Prop where
  packets : packetCount.getD 0 = (sends.map FrameSend.packets).sum
  octets : octetCount.getD 0 = (sends.map FrameSend.octets).sum % 2 ^ 32
  fresh : packetCount = none → sends = []
  nonneg : 0 ≤ media.second (mediaTime.getD media.zero)
  notBefore : ∀ send ∈ sends,
    media.second send.mediaTimeMs ≤ media.second (mediaTime.getD media.zero)
  noReport : sends = [] → media.second (lastTime.getD media.minusOne) < 0
  lastReport : sends ≠ [] → ∃ send ∈ sends,
    media.second send.mediaTimeMs = media.second (lastTime.getD media.minusOne)
  allReported : ∀ send ∈ sends,
    media.second send.mediaTimeMs ≤ media.second (lastTime.getD media.minusOne)

variable {media : MediaClock τ} {packetCount octetCount : Option ℕ} {mediaTime lastTime : Option τ}
variable {sends : List (FrameSend τ)}

theorem Counters.empty (hmedia : media.Lawful) : Counters media none none none none [] where
  packets := rfl
  octets := rfl
  fresh _ := rfl
  nonneg := hmedia.zero.ge
  notBefore := by simp
  noReport _ := hmedia.minusOne
  lastReport h := absurd rfl h
  allReported := by simp

/-- `_reset_video_stream_counters`, for a stream that has none. -/
theorem Counters.reset (h : Counters media none octetCount mediaTime lastTime sends)
    (hmedia : media.Lawful) :
    Counters media (some 0) (some 0) (some media.zero) (some media.minusOne) sends := by
  obtain rfl := h.fresh rfl
  exact { Counters.empty hmedia with fresh := fun h => absurd h (by simp) }

/-- The media time goes on. -/
theorem Counters.advance (h : Counters media packetCount octetCount mediaTime lastTime sends)
    (hmedia : media.Lawful) (frameTimeMs : τ) :
    Counters media packetCount octetCount
      (some (media.add (mediaTime.getD media.zero) (media.atLeast frameTimeMs)))
      lastTime sends where
  packets := h.packets
  octets := h.octets
  fresh := h.fresh
  nonneg := h.nonneg.trans (hmedia.add ..)
  notBefore send hsend := (h.notBefore send hsend).trans (hmedia.add ..)
  noReport := h.noReport
  lastReport := h.lastReport
  allReported := h.allReported

/-- A frame is the first of its second, if and only if the last report is of a second before. -/
theorem Counters.first_iff (h : Counters media packetCount octetCount mediaTime lastTime sends) :
    (∀ send ∈ sends, media.second send.mediaTimeMs <
      media.second (mediaTime.getD media.zero)) ↔
      media.second (lastTime.getD media.minusOne) < media.second (mediaTime.getD media.zero) := by
  constructor
  · intro hfirst
    by_cases hempty : sends = []
    · exact (h.noReport hempty).trans_le h.nonneg
    · obtain ⟨send, hsend, heq⟩ := h.lastReport hempty
      exact heq ▸ hfirst send hsend
  · intro hlast send hsend
    exact (h.allReported send hsend).trans_lt hlast

/-- A frame is sent, and reported if it is the first of its second. -/
theorem Counters.send (h : Counters media packetCount octetCount mediaTime lastTime sends)
    (packets octets : ℕ) :
    Counters media (some (packetCount.getD 0 + packets))
      (some ((octetCount.getD 0 + octets) % 2 ^ 32)) mediaTime
      (if media.second (mediaTime.getD media.zero) ≤
          media.second (lastTime.getD media.minusOne) then
        lastTime else some (mediaTime.getD media.zero))
      (sends ++ [{ packets, octets, mediaTimeMs := mediaTime.getD media.zero }]) := by
  have hle : media.second (mediaTime.getD media.zero) ≤
      media.second (lastTime.getD media.minusOne) →
      media.second (mediaTime.getD media.zero) = media.second (lastTime.getD media.minusOne) := by
    intro hle
    refine le_antisymm hle ?_
    by_cases hempty : sends = []
    · exact absurd (hle.trans_lt (h.noReport hempty)) (not_lt.2 h.nonneg)
    · obtain ⟨send, hsend, heq⟩ := h.lastReport hempty
      exact heq ▸ h.notBefore send hsend
  refine ⟨?_, ?_, fun h => absurd h (by simp), h.nonneg, ?_, fun h => absurd h (by simp), ?_, ?_⟩
  · simp [h.packets]
  · simp only [Option.getD_some, h.octets, List.map_append, List.map_cons, List.map_nil,
      List.sum_append, List.sum_cons, List.sum_nil, Nat.add_zero, Nat.mod_add_mod]
  · intro send hsend
    rcases List.mem_append.1 hsend with hold | hnew
    · exact h.notBefore send hold
    · rw [List.mem_singleton.1 hnew]
  · intro _
    refine ⟨_, List.mem_append_right _ (List.mem_singleton.2 rfl), ?_⟩
    split
    · rename_i hreported
      exact hle hreported
    · rfl
  · intro send hsend
    split
    · rename_i hreported
      rcases List.mem_append.1 hsend with hold | hnew
      · exact h.allReported send hold
      · rw [List.mem_singleton.1 hnew]
        exact hreported
    · rcases List.mem_append.1 hsend with hold | hnew
      · exact h.notBefore send hold
      · rw [List.mem_singleton.1 hnew]
        rfl

end Counters

namespace VideoClient

variable {τ ρ : Type} {clock : TickClock τ ρ} {b : Build} {media : MediaClock τ}
variable {settings : VideoSettings} {c c' : VideoClient τ ρ}

/-- The history is one of those, and the counters agree with it. -/
structure Reports (media : MediaClock τ) (c : VideoClient τ ρ) : Prop where
  log : Reported media c.events
  counters : ∀ ssrc, Counters media (c.videoPacketCounts ssrc) (c.videoOctetCounts ssrc)
    (c.videoMediaTimesMs ssrc) (c.videoLastRtcpMediaTimesMs ssrc) (sends ssrc c.events)

/-- An event that is no frame and no new start. -/
theorem Reports.event (h : c.Reports media) (event : VideoEvent τ)
    (hlog : Reported media (c.events ++ [event]))
    (hsends : ∀ ssrc, sendsStep ssrc (sends ssrc c.events) event = sends ssrc c.events) :
    Reports media { c with events := c.events ++ [event] } where
  log := hlog
  counters ssrc := by
    dsimp only
    rw [sends_concat, hsends]
    exact h.counters ssrc

theorem Reports.cacheVideoFrame (h : c.Reports media) (maxFrames : ℤ) (mediaSsrc : UInt32)
    (frame : CachedFrame τ) : (c.cacheVideoFrame maxFrames mediaSsrc frame).Reports media := by
  unfold VideoClient.cacheVideoFrame
  split
  · exact h
  · split
    · exact h
    · rename_i codec _ _
      have hevent := h.event (.taken mediaSsrc frame (isConfigKeyframeOf codec frame.frame))
        h.log.taken fun _ => rfl
      dsimp only
      split
      · exact { hevent with }
      · split
        · exact hevent
        · split <;> exact { hevent with }

theorem Reports.clearVideoSendCaches (h : c.Reports media) (hmedia : media.Lawful)
    (transportSequence : UInt16) : (c.clearVideoSendCaches transportSequence).Reports media where
  log := h.log.cleared
  counters ssrc := by
    have hsends : sends ssrc (c.clearVideoSendCaches transportSequence).events = [] :=
      sends_concat ..
    rw [hsends]
    exact .empty hmedia

theorem Reports.resetVideoStreamCounters (h : c.Reports media) (hmedia : media.Lawful)
    {ssrc : UInt32} (hnone : c.videoPacketCounts ssrc = none) :
    (c.resetVideoStreamCounters media ssrc).Reports media where
  log := h.log
  counters ssrc' := by
    have hcounters := h.counters ssrc'
    unfold VideoClient.resetVideoStreamCounters
    dsimp only
    by_cases heq : ssrc' = ssrc
    · subst heq
      simp only [Function.update_self]
      rw [hnone] at hcounters
      exact hcounters.reset hmedia
    · simp only [Function.update_of_ne heq]
      exact hcounters

variable (clock) in
theorem Reports.configureStreams (h : c.Reports media) (hmedia : media.Lawful) (codec : String)
    (payloadType : UInt16) (random : UInt32 → UInt16 × UInt32) (streams : List NegotiatedStream) :
    (configureStreams clock media codec payloadType random c streams).2.Reports media := by
  induction streams generalizing c with
  | nil => exact h
  | cons stream streams ih =>
    have hreset : (if (c.videoPacketCounts stream.ssrc).isNone = true then
        c.resetVideoStreamCounters media stream.ssrc else c).Reports media := by
      split
      · rename_i hnone
        exact h.resetVideoStreamCounters hmedia (Option.isNone_iff_eq_none.1 hnone)
      · exact h
    unfold VideoClient.configureStreams
    dsimp only
    generalize (if (c.videoPacketCounts stream.ssrc).isNone = true then
      c.resetVideoStreamCounters media stream.ssrc else c) = c' at hreset ⊢
    split
    · exact hreset
    · split
      · exact { hreset with }
      · exact ih { hreset with }

variable (clock settings) in
theorem Reports.applySelectedVideoStream (h : c.Reports media) (hmedia : media.Lawful)
    (codec : String) (params : VideoStartParams) (reset : Bool) (env : ApplyEnv) :
    (c.applySelectedVideoStream clock media settings codec params reset env).2.Reports media := by
  have hretain (selected others reports) : (c.retainSelected settings codec
      c.negotiatedVideoStreams selected others reports reset env).Reports media := by
    unfold retainSelected
    cases reset with
    | true => exact { h.clearVideoSendCaches hmedia env.transportSequence with }
    | false => exact { h with }
  unfold VideoClient.applySelectedVideoStream
  dsimp only
  split
  · exact h
  · rename_i selected others reports _
    have hselected := hretain selected others reports
    split
    · exact hselected
    · rename_i voiceCodec _
      have hconfigured := hselected.configureStreams clock hmedia codec voiceCodec.payloadType
        env.random (selected :: others)
      split
      · rename_i heq
        rw [heq] at hconfigured
        exact hconfigured
      · rename_i heq
        rw [heq] at hconfigured
        obtain ⟨lastVideoState, heq'⟩ := announceVideoState_eq _ _ _
        rw [heq']
        exact { hconfigured with }

/-! ## Sending -/

/-- A frame in some packets is counted, and reported if it is the first of its second. -/
theorem Reports.send (h : c.Reports media) (mediaSsrc : UInt32) (data : Bytes) {packets : ℕ}
    (hpackets : packets ≠ 0) (octets : ℕ) (rtpTimestamp : UInt32) (accepted : Bool) :
    (((c.logSent media mediaSsrc data packets octets rtpTimestamp).recordVideoPacketSend mediaSsrc
      packets octets).maybeSendVideoRtcpSenderReport media mediaSsrc rtpTimestamp
      accepted).Reports media := by
  have hcounters := h.counters mediaSsrc
  generalize hevents : c.events ++ [.sent mediaSsrc data packets octets rtpTimestamp
    ((c.videoMediaTimesMs mediaSsrc).getD media.zero)] = events
  have hsends (ssrc : UInt32) : sends ssrc events = sends ssrc c.events ++
      if mediaSsrc = ssrc then [⟨packets, octets, (c.videoMediaTimesMs mediaSsrc).getD media.zero⟩]
      else [] := by
    rw [← hevents, sends_concat, sendsStep]
    by_cases hssrc : mediaSsrc = ssrc
    · rw [if_pos ⟨hssrc, hpackets⟩, if_pos hssrc]
    · rw [if_neg (fun h => hssrc h.1), if_neg hssrc, List.append_nil]
  have hself := hsends mediaSsrc
  rw [if_pos rfl] at hself
  have hsent := hcounters.send packets octets
  have hother {ssrc : UInt32} (hne : ssrc ≠ mediaSsrc) :
        sends ssrc events = sends ssrc c.events := by
    rw [hsends, if_neg (Ne.symm hne), List.append_nil]
  have hfirst : FirstOfSecond media mediaSsrc c.events
      ((c.videoMediaTimesMs mediaSsrc).getD media.zero) ↔ _ := hcounters.first_iff
  unfold maybeSendVideoRtcpSenderReport recordVideoPacketSend logSent
  dsimp only
  rw [hevents]
  split
  · rename_i hreported
    rw [if_pos hreported] at hsent
    refine ⟨?_, fun ssrc => ?_⟩
    · rw [← hevents]
      exact h.log.sent (.inr fun hfirst' => absurd (hfirst.1 hfirst') (not_lt.2 hreported))
    · dsimp only
      by_cases hssrc : ssrc = mediaSsrc
      · subst hssrc
        rw [Function.update_self, Function.update_self, hself]
        exact hsent
      · rw [Function.update_of_ne hssrc, Function.update_of_ne hssrc, hother hssrc]
        exact h.counters ssrc
  · rename_i hreported
    rw [if_neg hreported] at hsent
    refine ⟨?_, fun ssrc => ?_⟩
    · have hreport : Reported media
          (events ++ [.report (reportOf mediaSsrc rtpTimestamp events) accepted]) := by
        rw [← hevents]
        exact h.log.report hpackets (hfirst.2 (not_le.1 hreported))
      have hoctets := hsent.octets
      rw [Option.getD_some] at hoctets
      rw [reportOf, hself, ← hsent.packets, ← hoctets] at hreport
      dsimp only
      rw [Function.update_self, Function.update_self, Option.getD_some, Option.getD_some,
        Nat.mod_mod]
      exact hreport
    · dsimp only
      rw [sends_report]
      by_cases hssrc : ssrc = mediaSsrc
      · subst hssrc
        rw [Function.update_self, Function.update_self, Function.update_self, hself]
        exact hsent
      · rw [Function.update_of_ne hssrc, Function.update_of_ne hssrc, Function.update_of_ne hssrc,
          hother hssrc]
        exact h.counters ssrc

variable (clock b settings) in
theorem Reports.sendVideoFrameRaw (h : c.Reports media) (codec : String) (mediaSsrc : UInt32)
    (data originalFrame frame : Bytes) (frameTimeMs : τ) (env : FrameEnv) :
    (c.sendVideoFrameRaw clock b media settings codec mediaSsrc data originalFrame frame frameTimeMs
      env).2.Reports media := by
  unfold VideoClient.sendVideoFrameRaw
  dsimp only
  generalize hsender : c.setSender _ = c'
  have hsent : c'.Reports media := by
    rw [← hsender]
    exact { h with }
  split
  · exact hsent
  · split
    · exact hsent
    · split
      · rename_i prepared _ _ hempty
        rw [hempty]
        refine hsent.event _ (hsent.log.sent (.inl rfl)) fun ssrc => ?_
        rw [sendsStep, if_neg fun h => h.2 rfl]
      · rename_i hpackets
        exact hsent.send mediaSsrc data hpackets _ _ _

theorem mediaTimes_maybeSendVideoRtcpSenderReport (c : VideoClient τ ρ)
    (mediaSsrc rtpTimestamp : UInt32) (accepted : Bool) :
    (c.maybeSendVideoRtcpSenderReport media mediaSsrc rtpTimestamp accepted).videoMediaTimesMs =
      c.videoMediaTimesMs := by
  unfold maybeSendVideoRtcpSenderReport
  dsimp only
  split <;> rfl

variable (clock b media settings) in
theorem mediaTimes_sendVideoFrameRaw (c : VideoClient τ ρ) (codec : String) (mediaSsrc : UInt32)
    (data originalFrame frame : Bytes) (frameTimeMs : τ) (env : FrameEnv) :
    (c.sendVideoFrameRaw clock b media settings codec mediaSsrc data originalFrame frame frameTimeMs
      env).2.videoMediaTimesMs = c.videoMediaTimesMs := by
  unfold VideoClient.sendVideoFrameRaw
  dsimp only
  split
  · rfl
  · split
    · rfl
    · split
      · rfl
      · exact mediaTimes_maybeSendVideoRtcpSenderReport ..

variable (clock b settings) in
theorem Reports.sendVideoFrameInner (h : c.Reports media) (hmedia : media.Lawful) (data : Bytes)
    (frameTimeMs : τ) (stream : Option VoiceStream) (env : FrameEnv) :
    (c.sendVideoFrameInner clock b media settings data frameTimeMs stream env).2.Reports
      media := by
  unfold VideoClient.sendVideoFrameInner
  split
  · exact h
  · split
    · exact h
    · split
      · exact h
      · rename_i codec _ _ stream _
        dsimp only
        generalize hcache :
          c.cacheVideoFrame settings.videoKeyframeReplayMaxFrames stream.ssrc _ = c'
        have hcached : c'.Reports media := hcache ▸ h.cacheVideoFrame ..
        split
        · exact hcached
        · rename_i frame _
          have hraw := hcached.sendVideoFrameRaw clock b settings codec stream.ssrc data
            (if codec.toUpper = "H264" then stripH264FillerNalus data else data) frame
            (media.atLeast frameTimeMs) env
          have htimes :=
            mediaTimes_sendVideoFrameRaw clock b media settings c' codec stream.ssrc data
            (if codec.toUpper = "H264" then stripH264FillerNalus data else data) frame
            (media.atLeast frameTimeMs) env
          split
          · rename_i heq
            rw [heq] at hraw
            exact hraw
          · rename_i sent c'' heq
            rw [heq] at hraw htimes
            refine ⟨hraw.log, fun ssrc => ?_⟩
            have hcounters := hraw.counters ssrc
            dsimp only at hcounters htimes ⊢
            by_cases hssrc : ssrc = stream.ssrc
            · subst hssrc
              rw [Function.update_self, ← htimes]
              exact hcounters.advance hmedia frameTimeMs
            · rw [Function.update_of_ne hssrc]
              exact hcounters

variable (clock b settings) in
theorem Reports.sendVideoFrame (h : c.Reports media) (hmedia : media.Lawful) (data : Bytes)
    (frameTimeMs : τ) (stream : Option VoiceStream) (env : FrameEnv) :
    (c.sendVideoFrame clock b media settings data frameTimeMs stream env).2.Reports media := by
  have hinner := h.sendVideoFrameInner clock b settings hmedia data frameTimeMs stream env
  unfold VideoClient.sendVideoFrame
  generalize c.sendVideoFrameInner clock b media settings data frameTimeMs stream env =
    r at hinner ⊢
  obtain ⟨answer, c'⟩ := r
  cases answer with
  | ok sent => exact hinner
  | error e => exact hinner.event _ hinner.log.failed fun _ => rfl

theorem Reports.sendVideoFrames (h : c.Reports media) (hmedia : media.Lawful) (env : ℕ → FrameEnv)
    (sent : ℕ) (frames : List (String × Bytes × τ)) :
    (c.sendVideoFrames clock b media settings env sent frames).2.Reports media := by
  induction frames generalizing env c sent with
  | nil => exact h
  | cons frame frames ih =>
    obtain ⟨rid, data, frameTimeMs⟩ := frame
    unfold VideoClient.sendVideoFrames
    split
    · exact ih h _ _
    · rename_i stream _
      have hframe := h.sendVideoFrame clock b settings hmedia data (media.atLeast frameTimeMs)
        (some stream.1) (env 0)
      split
      · rename_i heq
        rw [heq] at hframe
        exact hframe
      · rename_i heq
        rw [heq] at hframe
        exact ih hframe _ _

theorem Reports.replayFrames (h : c.Reports media) (hmedia : media.Lawful) (env : ℕ → FrameEnv)
    (frames : List (CachedFrame τ)) :
    (c.replayFrames clock b media settings env frames).2.Reports media := by
  induction frames generalizing env c with
  | nil => exact h
  | cons frame frames ih =>
    unfold VideoClient.replayFrames
    have hframe := h.sendVideoFrame clock b settings hmedia frame.frame frame.frameTimeMs
      (some frame.stream.1) (env 0)
    split
    · rename_i heq
      rw [heq] at hframe
      exact hframe
    · rename_i heq
      rw [heq] at hframe
      exact ih hframe _

theorem Reports.replayRequests (h : c.Reports media) (hmedia : media.Lawful)
    (env : UInt32 → ℕ → FrameEnv) (requests : List UInt32) :
    (c.replayRequests clock b media settings env requests).2.Reports media := by
  induction requests generalizing c with
  | nil => exact h
  | cons mediaSsrc requests ih =>
    unfold VideoClient.replayRequests
    split
    · exact ih h
    · exact ih h
    · dsimp only
      have hactive : (c.setReplaying true).Reports media := { h with }
      exact ih { hactive.replayFrames hmedia (env mediaSsrc) _ with }

/-! ## Runs -/

theorem Reports.step (h : c.Reports media) (hmedia : media.Lawful) (action : Action τ) :
    (c.step clock b media settings action).Reports media := by
  cases action with
  | negotiate streams codec => exact { h with }
  | setConnected connected => exact { h with }
  | sourceChanged simulcast =>
    obtain ⟨scheduled, heq, -⟩ := c.mediaPlayerSourceChanged_spec simulcast
    rw [VideoClient.step, heq]
    exact { h with }
  | runScheduled env =>
    rw [VideoClient.step]
    rcases c.runScheduled_cases clock media settings env with
      heq | ⟨codec, params, scheduled, -, heq⟩
    · rw [heq]
      exact h
    · have hrest : Reports media { c with scheduled } := { h with }
      rw [heq]
      exact hrest.applySelectedVideoStream clock settings hmedia codec params false env
  | startVideo width height fps bitrate env =>
    rw [VideoClient.step]
    rcases c.startVideo_cases clock media settings width height fps bitrate env with
      heq | ⟨codec, params, -, heq⟩
    · rw [heq]
      exact h
    · have hparams : Reports media { c with videoStartParams := some params } := { h with }
      rw [heq]
      exact hparams.applySelectedVideoStream clock settings hmedia _ params true env
  | onMediaSinkWants wants any env =>
    have hwants : Reports media { c with
        remoteMediaSinkWants := wants
        remoteMediaSinkWantsAny := any
        remoteMediaSinkWantsReceived := true } := { h with }
    rw [VideoClient.step]
    rcases c.onMediaSinkWants_cases clock media settings wants any env with
      heq | ⟨codec, params, -, heq⟩
    · rw [heq]
      exact hwants
    · rw [heq]
      exact hwants.applySelectedVideoStream clock settings hmedia codec params false env
  | stopVideo => exact { h with }
  | finishStopVideo transportSequence =>
    have hcleared := h.clearVideoSendCaches hmedia transportSequence
    exact { hcleared.event .stopped hcleared.log.stopped fun _ => rfl with }
  | receiverReport senderSsrc reportCount payload now => exact { h with }
  | rtcpPli payload =>
    obtain ⟨requests, heq⟩ := c.handleRtcpPli_spec payload
    rw [VideoClient.step, heq]
    exact { h with }
  | rtcpNack payload now interrupted => exact { h with }
  | sendVideoFrame data frameTimeMs stream env => exact h.sendVideoFrame clock b settings hmedia ..
  | sendVideoFrames frames env => exact h.sendVideoFrames hmedia ..
  | sendRequestedKeyframes order env =>
    rw [VideoClient.step]
    split
    · have hrequests : Reports media { c with videoKeyframeResendRequests := [] } := { h with }
      exact hrequests.replayRequests hmedia env order
    · exact h

end VideoClient

end NativeVoice.Send
