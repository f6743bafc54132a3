import Mathlib.Data.List.Forall2
import NativeVoice.Lib.SinceMark
import NativeVoice.Send.VideoSending

/-!
# The frames that are kept to be sent again

What `_cache_video_frame` keeps of a stream in a run of a client, and what
`_send_requested_video_keyframes` sends of it.

* `takenFrames`: the frames that were handed over for a stream since the video was last stopped.
* `Cached.step`: what is kept is what came since the last keyframe with its parameter sets.
* `cache_run`: this, in every run.
* `Resends`: the frames of a cache are sent one after the other, up to the first for which
  `send_video_frame` raises.
* `replay_run`: every request is met so, and what is kept stays.
-/

namespace NativeVoice.Send

open Lib Video

/-- The greatest number of frames that are kept. -/
def VideoSettings.replayLimit (settings : VideoSettings) : ℕ :=
  (max 1 settings.videoKeyframeReplayMaxFrames).toNat

theorem VideoSettings.replayLimit_pos (settings : VideoSettings) : 1 ≤ settings.replayLimit := by
  unfold replayLimit
  omega

namespace VideoClient

variable {τ ρ : Type} {clock : TickClock τ ρ} {b : Build} {media : MediaClock τ}
variable {settings : VideoSettings} {c c' c'' : VideoClient τ ρ}

/-- The frames for a stream behind one more event. -/
def takenStep (ssrc : UInt32) (taken : List (CachedFrame τ × Bool)) :
    VideoEvent τ → List (CachedFrame τ × Bool)
  | .stopped => []
  | .taken mediaSsrc frame config => if mediaSsrc = ssrc then taken ++ [(frame, config)] else taken
  | _ => taken

/-- The frames that were handed over for a stream since the video was last stopped, each with
whether it is a keyframe with its parameter sets. -/
def takenFrames (ssrc : UInt32) (events : List (VideoEvent τ)) : List (CachedFrame τ × Bool) :=
  events.foldl (takenStep ssrc) []

theorem takenFrames_concat (ssrc : UInt32) (events : List (VideoEvent τ)) (event : VideoEvent τ) :
    takenFrames ssrc (events ++ [event]) = takenStep ssrc (takenFrames ssrc events) event :=
  List.foldl_concat ..

/-- A call of `send_video_frame`: it has sent the frame on a stream, or raised. -/
inductive SendCall
  | sent (ssrc : UInt32) (frame : Bytes)
  | failed (stream : Option VoiceStream) (frame : Bytes)

/-- The calls of `send_video_frame`. -/
def sendCalls (events : List (VideoEvent τ)) : List SendCall :=
  events.filterMap fun event => match event with
    | .sent ssrc frame _ _ _ _ => some (.sent ssrc frame)
    | .failed stream frame => some (.failed stream frame)
    | _ => none

/-- What is kept of each stream is what came since its last keyframe. -/
structure Cached (settings : VideoSettings) (c : VideoClient τ ρ) : Prop where
  holds : ∀ ssrc, SinceMark.Holds settings.replayLimit (takenFrames ssrc c.events)
    (c.videoKeyframes ssrc)
  idle : c.videoKeyframeReplayActive = false

/-! ## What leaves the frames alone -/

/-- Two clients that keep the same frames. -/
structure SameCache (c c' : VideoClient τ ρ) : Prop where
  videoKeyframes : c'.videoKeyframes = c.videoKeyframes
  replayActive : c'.videoKeyframeReplayActive = c.videoKeyframeReplayActive
  requests : c'.videoKeyframeResendRequests = c.videoKeyframeResendRequests
  taken : ∀ ssrc, takenFrames ssrc c'.events = takenFrames ssrc c.events

theorem SameCache.refl (c : VideoClient τ ρ) : SameCache c c := ⟨rfl, rfl, rfl, fun _ => rfl⟩

theorem SameCache.trans (h : SameCache c c') (h' : SameCache c' c'') : SameCache c c'' where
  videoKeyframes := h'.videoKeyframes.trans h.videoKeyframes
  replayActive := h'.replayActive.trans h.replayActive
  requests := h'.requests.trans h.requests
  taken ssrc := (h'.taken ssrc).trans (h.taken ssrc)

theorem Cached.of_same (h : c.Cached settings) (hsame : SameCache c c') : c'.Cached settings where
  holds ssrc := by
    rw [hsame.videoKeyframes, hsame.taken]
    exact h.holds ssrc
  idle := hsame.replayActive.trans h.idle

theorem sameCache_apply (c : VideoClient τ ρ) (codec : String) (params : VideoStartParams)
    (reset : Bool) (env : ApplyEnv) :
    SameCache c (c.applySelectedVideoStream clock media settings codec params reset env).2 := by
  have hframe := applySelectedVideoStream_frame clock media settings codec params c reset env
  refine ⟨hframe.videoKeyframes, hframe.replayActive, hframe.requests, fun ssrc => ?_⟩
  rcases hframe.events with hevents | hevents
  · rw [hevents]
  · rw [hevents, takenFrames_concat]
    rfl

variable (media) in
theorem sameCache_maybeSendVideoRtcpSenderReport (c : VideoClient τ ρ)
    (mediaSsrc rtpTimestamp : UInt32) (accepted : Bool) :
    let c' := c.maybeSendVideoRtcpSenderReport media mediaSsrc rtpTimestamp accepted
    SameCache c c' ∧ sendCalls c'.events = sendCalls c.events := by
  unfold maybeSendVideoRtcpSenderReport
  dsimp only
  split
  · exact ⟨.refl c, rfl⟩
  · refine ⟨⟨rfl, rfl, rfl, fun ssrc => takenFrames_concat ..⟩, ?_⟩
    simp [sendCalls]

theorem sameCache_setSender (c : VideoClient τ ρ) (sender : VideoSender ρ) :
    SameCache c (c.setSender sender) := { SameCache.refl c with }

variable (media) in
theorem sameCache_logSent (c : VideoClient τ ρ) (mediaSsrc : UInt32) (data : Bytes)
    (packets octets : ℕ) (rtpTimestamp : UInt32) :
    SameCache c (c.logSent media mediaSsrc data packets octets rtpTimestamp) :=
  ⟨rfl, rfl, rfl, fun _ => takenFrames_concat ..⟩

theorem sendCalls_logSent (c : VideoClient τ ρ) (mediaSsrc : UInt32) (data : Bytes)
    (packets octets : ℕ) (rtpTimestamp : UInt32) :
    sendCalls (c.logSent media mediaSsrc data packets octets rtpTimestamp).events =
      sendCalls c.events ++ [.sent mediaSsrc data] := by
  simp [logSent, sendCalls]

theorem sameCache_recordVideoPacketSend (c : VideoClient τ ρ) (ssrc : UInt32) (packets octets : ℕ) :
    SameCache c (c.recordVideoPacketSend ssrc packets octets) := { SameCache.refl c with }

/-- What a call that returns has sent. -/
def sentIf {ε α : Type} (ssrc : UInt32) (data : Bytes) : Except ε α → List SendCall
  | .ok _ => [.sent ssrc data]
  | .error _ => []

variable (clock b media settings) in
/-- A frame that the pipeline sends is sent once. -/
theorem sendVideoFrameRaw_cache (c : VideoClient τ ρ) (codec : String) (mediaSsrc : UInt32)
    (data originalFrame frame : Bytes) (frameTimeMs : τ) (env : FrameEnv) :
    let r := c.sendVideoFrameRaw clock b media settings codec mediaSsrc data originalFrame frame
      frameTimeMs env
    SameCache c r.2 ∧ sendCalls r.2.events = sendCalls c.events ++ sentIf mediaSsrc data r.1 := by
  unfold sendVideoFrameRaw
  dsimp only
  split
  · exact ⟨sameCache_setSender .., (List.append_nil _).symm⟩
  · split
    · exact ⟨sameCache_setSender .., (List.append_nil _).symm⟩
    · have hsent (packets octets rtpTimestamp) := (sameCache_setSender c
        (c.sender.sendVideoFrameRaw clock b codec mediaSsrc originalFrame frame frameTimeMs
          settings.mediaStreamType env.now env.interrupted)).trans
        (sameCache_logSent media _ mediaSsrc data packets octets rtpTimestamp)
      split
      · exact ⟨hsent .., sendCalls_logSent ..⟩
      · have hreport (counted : VideoClient τ ρ) (mediaSsrc rtpTimestamp : UInt32) :=
          sameCache_maybeSendVideoRtcpSenderReport media counted mediaSsrc rtpTimestamp
            env.reportAccepted
        exact ⟨((hsent ..).trans (sameCache_recordVideoPacketSend ..)).trans (hreport ..).1,
          (hreport ..).2.trans (sendCalls_logSent ..)⟩

/-- While frames are sent again, what is kept stays. -/
theorem cacheVideoFrame_of_replay (h : c.videoKeyframeReplayActive = true) (maxFrames : ℤ)
    (mediaSsrc : UInt32) (frame : CachedFrame τ) :
    c.cacheVideoFrame maxFrames mediaSsrc frame = c := by
  unfold cacheVideoFrame
  split
  · rfl
  · exact if_pos h

theorem sendCalls_cacheVideoFrame (maxFrames : ℤ) (c : VideoClient τ ρ) (mediaSsrc : UInt32)
    (frame : CachedFrame τ) :
    sendCalls (c.cacheVideoFrame maxFrames mediaSsrc frame).events = sendCalls c.events := by
  unfold cacheVideoFrame
  split
  · rfl
  · dsimp only
    split
    · rfl
    · split
      · simp [sendCalls]
      · split
        · simp [sendCalls]
        · split <;> simp [sendCalls]

/-- A frame is kept before it is sent. -/
def Keeps (settings : VideoSettings) (c c' : VideoClient τ ρ) : Prop :=
  ∃ cached, (cached = c ∨ ∃ mediaSsrc frame,
      cached = c.cacheVideoFrame settings.videoKeyframeReplayMaxFrames mediaSsrc frame) ∧
    SameCache cached c'

theorem Keeps.of_same (h : SameCache c c') : Keeps settings c c' := ⟨c, .inl rfl, h⟩

variable (clock b media settings) in
theorem sendVideoFrameInner_cases (c : VideoClient τ ρ) (data : Bytes) (frameTimeMs : τ)
    (stream : Option VoiceStream) (env : FrameEnv) :
    let r := c.sendVideoFrameInner clock b media settings data frameTimeMs stream env
    Keeps settings c r.2 ∧ ((∃ e, r.1 = .error e) ∧ sendCalls r.2.events = sendCalls c.events ∨
      (∃ packets, r.1 = .ok packets) ∧ ∃ active, c.resolveVideoSendStream stream = .ok active ∧
        sendCalls r.2.events = sendCalls c.events ++ [.sent active.ssrc data]) := by
  unfold sendVideoFrameInner
  split
  · exact ⟨.of_same (.refl c), .inl ⟨⟨_, rfl⟩, rfl⟩⟩
  · split
    · exact ⟨.of_same (.refl c), .inl ⟨⟨_, rfl⟩, rfl⟩⟩
    · split
      · exact ⟨.of_same (.refl c), .inl ⟨⟨_, rfl⟩, rfl⟩⟩
      · rename_i codec _ _ active hresolve
        dsimp only
        generalize hframe : CachedFrame.mk _ frameTimeMs active = cachedFrame
        have hcached :=
          sendCalls_cacheVideoFrame settings.videoKeyframeReplayMaxFrames c active.ssrc
          cachedFrame
        split
        · exact ⟨⟨_, .inr ⟨_, _, rfl⟩, .refl _⟩, .inl ⟨⟨_, rfl⟩, hcached⟩⟩
        · rename_i frame _
          have hraw := sendVideoFrameRaw_cache clock b media settings
            (c.cacheVideoFrame settings.videoKeyframeReplayMaxFrames active.ssrc cachedFrame) codec
            active.ssrc data (if codec.toUpper = "H264" then stripH264FillerNalus data else data)
            frame (media.atLeast frameTimeMs) env
          dsimp only at hraw
          rw [hcached] at hraw
          split
          · rename_i heq
            rw [heq] at hraw
            exact ⟨⟨_, .inr ⟨_, _, rfl⟩, hraw.1⟩,
              .inl ⟨⟨_, rfl⟩, hraw.2.trans (List.append_nil _)⟩⟩
          · rename_i heq
            rw [heq] at hraw
            exact ⟨⟨_, .inr ⟨_, _, rfl⟩, { hraw.1 with }⟩,
              .inr ⟨⟨_, rfl⟩, active, hresolve, hraw.2⟩⟩

variable (clock b media settings) in
/-- A frame is kept before it is sent, and the call sends it once or raises. -/
theorem sendVideoFrame_cases (c : VideoClient τ ρ) (data : Bytes) (frameTimeMs : τ)
    (stream : Option VoiceStream) (env : FrameEnv) :
    let r := c.sendVideoFrame clock b media settings data frameTimeMs stream env
    Keeps settings c r.2 ∧ ((∃ e, r.1 = .error e) ∧
        sendCalls r.2.events = sendCalls c.events ++ [.failed stream data] ∨
      (∃ packets, r.1 = .ok packets) ∧ ∃ active, c.resolveVideoSendStream stream = .ok active ∧
        sendCalls r.2.events = sendCalls c.events ++ [.sent active.ssrc data]) := by
  have hinner := sendVideoFrameInner_cases clock b media settings c data frameTimeMs stream env
  unfold sendVideoFrame
  generalize c.sendVideoFrameInner clock b media settings data frameTimeMs stream env =
    r at hinner ⊢
  obtain ⟨answer, c'⟩ := r
  dsimp only at hinner
  obtain ⟨⟨cached, hcached, hsame⟩, hcalls⟩ := hinner
  cases answer with
  | ok sent =>
    rcases hcalls with ⟨⟨e, he⟩, -⟩ | hsent
    · cases he
    · exact ⟨⟨cached, hcached, hsame⟩, .inr hsent⟩
  | error e =>
    rcases hcalls with ⟨-, hcalls⟩ | ⟨⟨packets, hok⟩, -⟩
    · refine ⟨⟨cached, hcached, hsame.trans ?_⟩, .inl ⟨⟨e, rfl⟩, ?_⟩⟩
      · exact ⟨rfl, rfl, rfl, fun _ => takenFrames_concat ..⟩
      · rw [← hcalls]
        simp [logFailed, sendCalls]
    · cases hok

/-! ## What is kept -/

/-- A frame that is handed over is taken, as the store of its stream takes it. -/
theorem cacheVideoFrame_eq {codec : String} (hcodec : c.videoCodec = some codec)
    (hidle : c.videoKeyframeReplayActive = false) (mediaSsrc : UInt32) (frame : CachedFrame τ) :
    let config := isConfigKeyframeOf codec frame.frame
    c.cacheVideoFrame settings.videoKeyframeReplayMaxFrames mediaSsrc frame = { c with
      events := c.events ++ [.taken mediaSsrc frame config]
      videoKeyframes := Function.update c.videoKeyframes mediaSsrc
        (SinceMark.push settings.replayLimit (c.videoKeyframes mediaSsrc) frame config) } := by
  intro config
  unfold cacheVideoFrame SinceMark.push
  rw [hcodec]
  dsimp only
  rw [if_neg (by simp [hidle])]
  by_cases hconfig : config = true
  · rw [if_pos hconfig, if_pos hconfig]
  · rw [if_neg hconfig, if_neg hconfig]
    cases hstore : c.videoKeyframes mediaSsrc with
    | none =>
      dsimp only
      rw [← hstore, Function.update_eq_self]
    | some frames =>
      have hlimit : (frames.length : ℤ) ≥ max 1 settings.videoKeyframeReplayMaxFrames ↔
          settings.replayLimit ≤ frames.length := by
        unfold VideoSettings.replayLimit
        omega
      dsimp only
      by_cases hfull : settings.replayLimit ≤ frames.length
      · rw [if_pos (hlimit.2 hfull), if_pos hfull]
      · rw [if_neg (fun h => hfull (hlimit.1 h)), if_neg hfull]

theorem Cached.cacheVideoFrame (h : c.Cached settings) (mediaSsrc : UInt32)
    (frame : CachedFrame τ) :
    (c.cacheVideoFrame settings.videoKeyframeReplayMaxFrames mediaSsrc frame).Cached settings := by
  cases hcodec : c.videoCodec with
  | none =>
    unfold VideoClient.cacheVideoFrame
    rw [hcodec]
    exact h
  | some codec =>
    rw [cacheVideoFrame_eq hcodec h.idle]
    refine ⟨fun ssrc => ?_, h.idle⟩
    dsimp only
    rw [takenFrames_concat, takenStep]
    by_cases hssrc : mediaSsrc = ssrc
    · subst hssrc
      rw [if_pos rfl, Function.update_self]
      exact (h.holds mediaSsrc).push settings.replayLimit_pos frame _
    · rw [if_neg hssrc, Function.update_of_ne (Ne.symm hssrc)]
      exact h.holds ssrc

variable (clock b media) in
theorem Cached.sendVideoFrame (h : c.Cached settings) (data : Bytes) (frameTimeMs : τ)
    (stream : Option VoiceStream) (env : FrameEnv) :
    (c.sendVideoFrame clock b media settings data frameTimeMs stream env).2.Cached settings := by
  obtain ⟨⟨cached, hcached, hsame⟩, -⟩ :=
    sendVideoFrame_cases clock b media settings c data frameTimeMs stream env
  rcases hcached with rfl | ⟨mediaSsrc, frame, rfl⟩
  · exact h.of_same hsame
  · exact (h.cacheVideoFrame mediaSsrc frame).of_same hsame

theorem Cached.sendVideoFrames (h : c.Cached settings) (env : ℕ → FrameEnv) (sent : ℕ)
    (frames : List (String × Bytes × τ)) :
    (c.sendVideoFrames clock b media settings env sent frames).2.Cached settings := by
  induction frames generalizing env c sent with
  | nil => exact h
  | cons frame frames ih =>
    obtain ⟨rid, data, frameTimeMs⟩ := frame
    unfold VideoClient.sendVideoFrames
    split
    · exact ih h _ _
    · rename_i stream _
      have hframe := h.sendVideoFrame clock b media data
        (media.atLeast frameTimeMs) (some stream.1) (env 0)
      split
      · rename_i heq
        rw [heq] at hframe
        exact hframe
      · rename_i heq
        rw [heq] at hframe
        exact ih hframe _ _

/-! ## What is sent again -/

/-- The frames that are kept of a stream. -/
def keptFrames (c : VideoClient τ ρ) (ssrc : UInt32) : List (CachedFrame τ) :=
  (c.videoKeyframes ssrc).getD []

/-- The frames of a cache are sent one after the other, each on the active stream that its own
stream leads to, up to the first for which `send_video_frame` raises. The last argument tells
whether none did. -/
inductive Resends (c : VideoClient τ ρ) : List (CachedFrame τ) → List SendCall → Bool → Prop
  | nil : Resends c [] [] true
  | failed (frame : CachedFrame τ) (frames : List (CachedFrame τ)) :
    Resends c (frame :: frames) [.failed (some frame.stream.1) frame.frame] false
  | sent {frame : CachedFrame τ} {frames : List (CachedFrame τ)} {calls : List SendCall}
    {all : Bool} {active : NegotiatedStream} :
    c.resolveVideoSendStream (some frame.stream.1) = .ok active → Resends c frames calls all →
    Resends c (frame :: frames) (.sent active.ssrc frame.frame :: calls) all

theorem resolveVideoSendStream_congr (h : c'.activeVideoStreams = c.activeVideoStreams)
    (stream : Option VoiceStream) :
    c'.resolveVideoSendStream stream = c.resolveVideoSendStream stream := by
  cases stream with
  | none => rw [resolveVideoSendStream, resolveVideoSendStream, h]
  | some stream => rw [resolveVideoSendStream, resolveVideoSendStream, h]

theorem Resends.congr {frames : List (CachedFrame τ)} {calls : List SendCall} {all : Bool}
    (h : c'.Resends frames calls all) (hactive : c'.activeVideoStreams = c.activeVideoStreams) :
    c.Resends frames calls all := by
  induction h with
  | nil => exact .nil
  | failed frame frames => exact .failed frame frames
  | sent hresolve _ ih => exact .sent (resolveVideoSendStream_congr hactive _ ▸ hresolve) ih

variable (clock b media settings) in
/-- The frames of a cache are sent in their order, up to the first that fails. -/
theorem replayFrames_spec (env : ℕ → FrameEnv) (hactive : c.videoKeyframeReplayActive = true)
    (frames : List (CachedFrame τ)) :
    let r := c.replayFrames clock b media settings env frames
    SameCache c r.2 ∧ ∃ calls, c.Resends frames calls r.1 ∧
      sendCalls r.2.events = sendCalls c.events ++ calls := by
  induction frames generalizing env c with
  | nil => exact ⟨.refl c, [], .nil, (List.append_nil _).symm⟩
  | cons frame frames ih =>
    obtain ⟨⟨cached, hcached, hsame⟩, hcalls⟩ := sendVideoFrame_cases clock b media settings c
      frame.frame frame.frameTimeMs (some frame.stream.1) (env 0)
    have hselection := sameSelection_sendVideoFrame clock b media settings c frame.frame
      frame.frameTimeMs (some frame.stream.1) (env 0)
    have hsame : SameCache c (c.sendVideoFrame clock b media settings frame.frame frame.frameTimeMs
        (some frame.stream.1) (env 0)).2 := by
      rcases hcached with rfl | ⟨mediaSsrc, cachedFrame, rfl⟩
      · exact hsame
      · rwa [cacheVideoFrame_of_replay hactive] at hsame
    unfold replayFrames
    split
    · rename_i heq
      rw [heq] at hsame hcalls
      rcases hcalls with ⟨-, hfailed⟩ | ⟨⟨packets, hok⟩, -⟩
      · exact ⟨hsame, _, .failed frame frames, hfailed⟩
      · cases hok
    · rename_i heq
      rw [heq] at hsame hcalls hselection
      rcases hcalls with ⟨⟨e, he⟩, -⟩ | ⟨-, active, hresolve, hsent⟩
      · cases he
      · obtain ⟨hrest, calls, hresends, hevents⟩ := ih (fun i => env (i + 1))
          (hsame.replayActive.trans hactive)
        refine ⟨hsame.trans hrest, _, .sent hresolve (hresends.congr hselection.active), ?_⟩
        rw [hevents, hsent, List.append_assoc]
        rfl

variable (clock b media settings) in
/-- The requests are met one after the other, and what is kept stays. -/
theorem replayRequests_spec (env : UInt32 → ℕ → FrameEnv)
    (hidle : c.videoKeyframeReplayActive = false) (requests : List UInt32) :
    let r := c.replayRequests clock b media settings env requests
    SameCache c r.2 ∧ ∃ replayed : List (List SendCall × Bool),
      List.Forall₂ (fun ssrc answer => c.Resends (c.keptFrames ssrc) answer.1 answer.2) requests
        replayed ∧
      sendCalls r.2.events = sendCalls c.events ++ (replayed.map Prod.fst).flatten ∧
      (r.1 = true ↔ ∃ x ∈ requests.zip replayed, c.keptFrames x.1 ≠ [] ∧ x.2.2 = true) := by
  induction requests generalizing c with
  | nil => exact ⟨.refl c, [], .nil, (List.append_nil _).symm, by simp [replayRequests]⟩
  | cons mediaSsrc requests ih =>
    have hnone (hkept : c.keptFrames mediaSsrc = []) :
        let r := c.replayRequests clock b media settings env requests
        SameCache c r.2 ∧ ∃ replayed : List (List SendCall × Bool),
          List.Forall₂ (fun ssrc answer => c.Resends (c.keptFrames ssrc) answer.1 answer.2)
            (mediaSsrc :: requests) replayed ∧
          sendCalls r.2.events = sendCalls c.events ++ (replayed.map Prod.fst).flatten ∧
          (r.1 = true ↔ ∃ x ∈ (mediaSsrc :: requests).zip replayed,
            c.keptFrames x.1 ≠ [] ∧ x.2.2 = true) := by
      obtain ⟨hsame, replayed, hreplayed, hevents, hall⟩ := ih hidle
      refine ⟨hsame, ([], true) :: replayed, .cons (hkept ▸ .nil) hreplayed, hevents, ?_⟩
      rw [hall, List.zip_cons_cons]
      simp [hkept]
    unfold replayRequests
    split
    · rename_i hkept
      exact hnone (by rw [keptFrames, hkept]; rfl)
    · rename_i hkept
      exact hnone (by rw [keptFrames, hkept]; rfl)
    · rename_i frame frames hkept
      dsimp only
      obtain ⟨hreplay, calls, hresends, hevents⟩ := replayFrames_spec clock b media settings
        (c := c.setReplaying true) (env mediaSsrc) rfl (frame :: frames)
      have hselection := (sameSelection_setReplaying c true).trans
        (sameSelection_replayFrames clock b media settings (env mediaSsrc) (c.setReplaying true)
          (frame :: frames))
      generalize (c.setReplaying true).replayFrames clock b media settings (env mediaSsrc)
        (frame :: frames) = r at hreplay hresends hevents hselection ⊢
      have hback : SameCache c (r.2.setReplaying false) :=
        ⟨hreplay.videoKeyframes, hidle.symm, hreplay.requests, hreplay.taken⟩
      obtain ⟨hsame, replayed, hreplayed, hevents', hall⟩ := ih (c := r.2.setReplaying false) rfl
      have hkeep (ssrc : UInt32) :
          (r.2.setReplaying false).keptFrames ssrc = c.keptFrames ssrc := by
        rw [keptFrames, keptFrames, hback.videoKeyframes]
      have hfirst : c.keptFrames mediaSsrc = frame :: frames := by
        rw [keptFrames, hkept]
        rfl
      have hrest : List.Forall₂ (fun ssrc answer => c.Resends (c.keptFrames ssrc) answer.1 answer.2)
          requests replayed :=
        hreplayed.imp fun ssrc answer h => (hkeep ssrc ▸ h).congr hselection.active
      simp only [hkeep] at hall
      refine ⟨hback.trans hsame, (calls, r.1) :: replayed, .cons ?_ hrest, ?_, ?_⟩
      · rw [hfirst]
        exact hresends.congr rfl
      · rw [hevents', List.map_cons, List.flatten_cons, ← List.append_assoc]
        exact congrArg (· ++ _) hevents
      · rw [Bool.or_eq_true, hall, List.zip_cons_cons]
        simp [hfirst]

/-! ## Runs -/

theorem Cached.step (h : c.Cached settings) (action : Action τ) :
    (c.step clock b media settings action).Cached settings := by
  cases action with
  | negotiate streams codec => exact { h with }
  | setConnected connected => exact { h with }
  | sourceChanged simulcast =>
    obtain ⟨scheduled, heq, -⟩ := c.mediaPlayerSourceChanged_spec simulcast
    rw [VideoClient.step, heq]
    exact { h with }
  | runScheduled env =>
    rw [VideoClient.step]
    rcases c.runScheduled_cases clock media settings env with
      heq | ⟨codec, params, scheduled, -, heq⟩
    · rw [heq]
      exact h
    · have hrest : Cached settings { c with scheduled } := { h with }
      rw [heq]
      exact hrest.of_same (sameCache_apply ..)
  | startVideo width height fps bitrate env =>
    rw [VideoClient.step]
    rcases c.startVideo_cases clock media settings width height fps bitrate env with
      heq | ⟨codec, params, -, heq⟩
    · rw [heq]
      exact h
    · have hparams : Cached settings { c with videoStartParams := some params } := { h with }
      rw [heq]
      exact hparams.of_same (sameCache_apply ..)
  | onMediaSinkWants wants any env =>
    have hwants : Cached settings { c with
        remoteMediaSinkWants := wants
        remoteMediaSinkWantsAny := any
        remoteMediaSinkWantsReceived := true } := { h with }
    rw [VideoClient.step]
    rcases c.onMediaSinkWants_cases clock media settings wants any env with
      heq | ⟨codec, params, -, heq⟩
    · rw [heq]
      exact hwants
    · rw [heq]
      exact hwants.of_same (sameCache_apply ..)
  | stopVideo => exact { h with }
  | finishStopVideo transportSequence =>
    refine ⟨fun ssrc => ?_, rfl⟩
    have htaken : takenFrames ssrc (c.finishStopVideo transportSequence).events = [] :=
      takenFrames_concat ..
    rw [VideoClient.step, htaken]
    exact .nil
  | receiverReport senderSsrc reportCount payload now => exact { h with }
  | rtcpPli payload =>
    obtain ⟨requests, heq⟩ := c.handleRtcpPli_spec payload
    rw [VideoClient.step, heq]
    exact { h with }
  | rtcpNack payload now interrupted => exact { h with }
  | sendVideoFrame data frameTimeMs stream env => exact h.sendVideoFrame ..
  | sendVideoFrames frames env => exact h.sendVideoFrames ..
  | sendRequestedKeyframes order env =>
    rw [VideoClient.step]
    split
    · have hrequests : Cached settings { c with videoKeyframeResendRequests := [] } := { h with }
      exact hrequests.of_same
        (replayRequests_spec clock b media settings env hrequests.idle order).1
    · exact h

section Runs

variable (clock b media settings)

theorem cached_run (transportSequence : UInt16) (actions : List (Action τ)) :
    (run clock b media settings transportSequence actions).Cached settings := by
  induction actions using List.reverseRecOn with
  | nil => exact ⟨fun ssrc => .nil, rfl⟩
  | append_singleton actions action ih =>
    rw [run, List.foldl_concat]
    exact ih.step action

/-- **What is sent again**, in every run: for each request, in their order, the frames that are kept
of its stream, each on the active stream that its own leads to, up to the first for which
`send_video_frame` raises; nothing else is sent. What is kept stays, no request is left, and the
answer tells whether some stream had frames that were all sent. -/
theorem replay_run (transportSequence : UInt16) (actions : List (Action τ)) (order : List UInt32)
    (env : UInt32 → ℕ → FrameEnv) :
    let c := run clock b media settings transportSequence actions
    let r := c.sendRequestedVideoKeyframes clock b media settings order env
    r.2.videoKeyframes = c.videoKeyframes ∧ r.2.videoKeyframeResendRequests = [] ∧
      r.2.videoKeyframeReplayActive = false ∧
      ∃ replayed : List (List SendCall × Bool),
        List.Forall₂ (fun ssrc answer => c.Resends (c.keptFrames ssrc) answer.1 answer.2) order
          replayed ∧
        sendCalls r.2.events = sendCalls c.events ++ (replayed.map Prod.fst).flatten ∧
        (r.1 = true ↔ ∃ x ∈ order.zip replayed, c.keptFrames x.1 ≠ [] ∧ x.2.2 = true) := by
  intro c r
  have hidle : ({ c with videoKeyframeResendRequests := [] } :
      VideoClient τ ρ).videoKeyframeReplayActive = false :=
    (cached_run clock b media settings transportSequence actions).idle
  obtain ⟨hsame, replayed, hreplayed, hcalls, hall⟩ :=
    replayRequests_spec clock b media settings env hidle order
  exact ⟨hsame.videoKeyframes, hsame.requests, hsame.replayActive.trans hidle, replayed,
    hreplayed.imp fun _ _ h => h.congr rfl, hcalls, hall⟩

end Runs

end VideoClient

end NativeVoice.Send
