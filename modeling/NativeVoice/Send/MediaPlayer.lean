import Mathlib.Data.NNRat.Defs
import Mathlib.Data.Rat.Floor
import Mathlib.Tactic.Linarith
import Mathlib.Tactic.Ring
import NativeVoice.Lib.Monitor
import NativeVoice.Rust

/-!
# The media player

The loop of `MediaPlayer` in `src/discord/ext/native_voice/player.py`, which sends the sound and the
frames of a source when they are due. What the loop asks of the others in a pass (the clock, the
source, the client, whether it is stopped, paused or given another source) is the input of the pass,
so the other threads may do anything between two of its questions. A pass of the inner loop over the
video is a `VideoTurn`, of the outer one a `Turn`. The times are exact, where the floats of the
source are rounded.

* `Protocol` is a monitor of what the player may do; `Playing` relates it to the state of the loop.
* `follows_step`: a pass follows the protocol.
* `media_clock_run`: nothing is sent before its time, and video does not catch up in bursts.
* `silence_run`: when silence is sent, and when none is left to be sent.
-/

namespace NativeVoice.Send

open Lib Monitor

/-! ## The source -/

/-- What the player asks of a source when it starts with it, and the speaking flags that the client
has for it. -/
structure PlayerSource where
  hasAudio : Bool
  hasVideo : Bool
  speakingFlags : ℕ
  deriving DecidableEq

/-- How the video of a source is to be sent, whenever the player asks; `fps` is that of its video
config. -/
structure VideoTiming where
  videoRealtime : Bool
  fps : Option ℤ
  videoCatchupFrames : ℤ
  videoRetryDelay : ℚ
  deriving DecidableEq

namespace VideoTiming

variable (v : VideoTiming)

/-- `_video_retry_delay`. -/
def retryDelay : ℚ := max (1 / 1000) (min v.videoRetryDelay (2 / 100))

/-- `_video_catchup_frames`. -/
def catchupFrames : ℕ :=
  if !v.videoRealtime then 1 else (max 1 (min v.videoCatchupFrames 16)).toNat

/-- `_video_pacing_time`, with the frame times in milliseconds, of which there is at least one. -/
def videoPacingTime (first : ℚ) (frameTimes : List ℚ) : ℚ :=
  match v.videoRealtime, v.fps with
  | true, some fps => 1 / (max 1 fps : ℤ)
  | _, _ => max (1 / 1000) (frameTimes.foldl max first) / 1000

/-- The time that a replay of keyframes takes. -/
def keyframePacingTime : ℚ :=
  match v.fps with
  | some fps => 1 / (max 1 fps : ℤ)
  | none => 2 / 100

def nextVideoTime (nextVideo frameTime now : ℚ) : ℚ :=
  let target := nextVideo + frameTime
  if v.videoRealtime then
    if now ≤ target then target
    else if now - target > frameTime * 2 then now + frameTime
    else target + (⌊(now - target) / frameTime⌋ + 1) * frameTime
  else if now - target > frameTime then now
  else target

end VideoTiming

/-! ## The loop -/

/-- What is left of a future that starts the video, when the loop asks. -/
inductive TransportStart
  | none
  | pending
  | failed
  | started
  deriving DecidableEq

/-- What a pass over the video finds: the time, the start of the video, whether the player is
stopped, whether there are active streams, whether keyframes were sent again, what the source gives
(frames by their frame times), the time that passed until the clock is read again, and the settings
for the pacing and then for the next video time. -/
structure VideoTurn where
  now : ℚ
  transport : TransportStart
  ended : Bool
  streams : Bool
  keyframes : Bool
  frames : Option (List ℚ)
  elapsed : ℚ≥0
  pacing : VideoTiming
  settings : VideoTiming

/-- What a pass of the loop finds. -/
structure Turn where
  ended : Bool
  source : Option PlayerSource
  sourceAt : ℚ
  resumed : Bool
  resumedAt : ℚ
  connected : Bool
  reconnected : Bool
  endedMeanwhile : Bool
  reconnectedAt : ℚ
  now : ℚ
  data : Bytes
  connectedAtEnd : Bool
  /-- For `_video_catchup_frames`. -/
  catchup : VideoTiming
  video : ℕ → VideoTurn
  finished : Bool
  connectedAfter : Bool

inductive PlayerEvent
  /-- The player starts with a source. -/
  | source (hasAudio hasVideo : Bool) (now : ℚ)
  | speak (flags : ℕ)
  /-- The player waits until it is resumed. -/
  | paused
  /-- It goes on, after it was resumed or connected again. -/
  | resumed (now : ℚ)
  /-- The source is read for sound, which is sent. -/
  | audio (now : ℚ)
  /-- It is read for sound, and has no more. -/
  | audioEnded
  | silence
  /-- The sound has ended while there was no connection. -/
  | skipped
  /-- The source is read for frames, which are sent. -/
  | video (now frameTime : ℚ)
  /-- It is read for frames, and has none yet. -/
  | noFrames
  /-- It is read for frames, and has no more. -/
  | videoEnded
  | keyframes (now frameTime : ℚ)
  /-- The loop is left, with or without a connection. -/
  | left (connected : Bool)
  /-- The function returns out of the loop. -/
  | returned
  deriving DecidableEq

structure MediaPlayer where
  hasAudio : Bool := false
  speakingFlags : ℕ := 0
  audioDone : Bool := true
  videoDone : Bool := true
  nextAudio : ℚ
  nextVideo : ℚ
  audioSilenceSent : Bool := true
  ended : Bool := false

/-- Whether a part of a pass lets the loop go on, ends the pass, breaks out of the loop or
returns. -/
inductive Flow
  | next
  | continue
  | break
  | return
  deriving DecidableEq

def DELAY : ℚ := 2 / 100

/-- The flag of a shared sound. -/
def SOUNDSHARE : ℕ := 2

namespace MediaPlayer

variable (p : MediaPlayer)

/-- `_audio_silence_speaking_flags`. -/
def audioSilenceSpeakingFlags (flags : ℕ) : ℕ := if flags.testBit 1 then SOUNDSHARE else 0

/-- The first part of a pass: another source. -/
def takeSource (e : Turn) : List PlayerEvent × MediaPlayer :=
  match e.source with
  | none => ([], p)
  | some source =>
    ([.source source.hasAudio source.hasVideo e.sourceAt, .speak source.speakingFlags],
      { p with
        hasAudio := source.hasAudio
        speakingFlags := source.speakingFlags
        audioDone := !source.hasAudio
        videoDone := !source.hasVideo
        audioSilenceSent := !source.hasAudio
        nextAudio := e.sourceAt
        nextVideo := e.sourceAt })

/-- The second part: a pause. -/
def pause (e : Turn) : List PlayerEvent × MediaPlayer × Flow :=
  if e.resumed then ([], p, .next)
  else
    (if p.hasAudio ∧ ¬ p.audioSilenceSent then [.silence, .paused, .resumed e.resumedAt]
      else [.paused, .resumed e.resumedAt],
      { p with
        audioSilenceSent := p.audioSilenceSent || p.hasAudio
        nextAudio := e.resumedAt
        nextVideo := e.resumedAt },
      .continue)

/-- The third part: no connection. -/
def reconnect (e : Turn) : List PlayerEvent × MediaPlayer × Flow :=
  if e.connected then ([], p, .next)
  else if e.endedMeanwhile ∨ ¬ e.reconnected then ([], p, .return)
  else
    ([.speak p.speakingFlags, .resumed e.reconnectedAt],
      { p with nextAudio := e.reconnectedAt, nextVideo := e.reconnectedAt }, .next)

/-- The fourth part: sound. -/
def playAudio (e : Turn) : List PlayerEvent × MediaPlayer :=
  if ¬ p.audioDone ∧ p.nextAudio ≤ e.now then
    if e.data ≠ [] then
      ([.audio e.now], { p with audioSilenceSent := false, nextAudio := p.nextAudio + DELAY })
    else if ¬ p.videoDone ∧ ¬ p.audioSilenceSent then
      let flags := audioSilenceSpeakingFlags p.speakingFlags
      (.audioEnded :: if e.connectedAtEnd then [.speak flags, .silence] else [.skipped],
        { p with audioDone := true, speakingFlags := flags, audioSilenceSent := true })
    else ([.audioEnded], { p with audioDone := true })
  else ([], p)

/-- `_video_transport_started`: whether it has, and whether the player is stopped. -/
def videoTransportStarted : TransportStart → Bool
  | .none | .started => true
  | .pending | .failed => false

/-- A pass over the video, after the checks of the clock: `continue` breaks out of its loop. -/
def playFrame (turn : VideoTurn) : List PlayerEvent × MediaPlayer × Flow :=
  let after := turn.now + turn.elapsed
  if !videoTransportStarted turn.transport then
    ([], { p with nextVideo := after + 2 / 100 }, .continue)
  else if turn.ended then ([], p, .return)
  else if !turn.streams then ([], { p with nextVideo := after + 2 / 100 }, .continue)
  else if turn.keyframes then
    let frameTime := turn.pacing.keyframePacingTime
    ([.keyframes turn.now frameTime],
      { p with nextVideo := turn.settings.nextVideoTime p.nextVideo frameTime after }, .continue)
  else match turn.frames with
  | none => ([.videoEnded], { p with videoDone := true }, .continue)
  | some [] => ([.noFrames], { p with nextVideo := after + turn.settings.retryDelay }, .continue)
  | some (first :: frameTimes) =>
    let frameTime := turn.pacing.videoPacingTime first frameTimes
    ([.video turn.now frameTime],
      { p with nextVideo := turn.settings.nextVideoTime p.nextVideo frameTime after }, .next)

/-- The loop over the video, with the number of passes that are left. -/
def playVideo (video : ℕ → VideoTurn) :
    ℕ → ℕ → MediaPlayer → List PlayerEvent × MediaPlayer × Flow
  | 0, _, p => ([], p, .next)
  | left + 1, index, p =>
    let turn := video index
    if turn.now < p.nextVideo ∨ 0 < index ∧ ¬ p.audioDone ∧ p.nextAudio ≤ turn.now then
      ([], p, .next)
    else match p.playFrame turn with
    | (events, p, .next) =>
      let (events', p, flow) := playVideo video left (index + 1) p
      (events ++ events', p, flow)
    | (events, p, .return) => (events, p, .return)
    | (events, p, _) => (events, p, .next)

/-- The loop has been left by its condition or a break. -/
def leave (connected : Bool) : List PlayerEvent × MediaPlayer :=
  ((if p.hasAudio ∧ ¬ p.audioSilenceSent ∧ connected then [.silence] else []) ++ [.left connected],
    { p with ended := true })

/-- The fifth part: video. -/
def playVideos (e : Turn) : List PlayerEvent × MediaPlayer × Flow :=
  if ¬ p.videoDone ∧ p.nextVideo ≤ e.now then playVideo e.video e.catchup.catchupFrames 0 p
  else ([], p, .next)

/-- The last parts of a pass: the video, and whether all is done. -/
def finishTurn (e : Turn) : List PlayerEvent × MediaPlayer × Flow :=
  match p.playVideos e with
  | (events, p, .return) => (events, p, .return)
  | (events, p, _) =>
    (events, p, if p.audioDone && p.videoDone || e.finished then .break else .continue)

/-- What comes of the parts of a pass after that of the source. -/
def afterSource (e : Turn) : List PlayerEvent × MediaPlayer × Flow :=
  match p.pause e with
  | (events, p, .next) =>
    match p.reconnect e with
    | (connecting, p, .next) =>
      let (sound, p) := p.playAudio e
      let (rest, p, flow) := p.finishTurn e
      (events ++ (connecting ++ (sound ++ rest)), p, flow)
    | (events', p, flow) => (events ++ events', p, flow)
  | result => result

/-- A pass of the loop. A player that has ended does nothing. -/
def step (e : Turn) : List PlayerEvent × MediaPlayer :=
  if p.ended then ([], p)
  else if e.ended then p.leave e.connectedAfter
  else
    let (events, p) := p.takeSource e
    match p.afterSource e with
    | (events', p, .break) =>
      let (last, p) := p.leave e.connectedAfter
      (events ++ (events' ++ last), p)
    | (events', p, .return) => (events ++ (events' ++ [.returned]), { p with ended := true })
    | (events', p, _) => (events ++ events', p)

/-- A player that starts at some time. -/
def new (start : ℚ) : MediaPlayer := { nextAudio := start, nextVideo := start }

/-- What a player does that starts at some time. -/
def events (start : ℚ) (turns : List Turn) : List PlayerEvent :=
  (Transducer.outputs step (new start) turns).flatten

end MediaPlayer

/-! ## The protocol -/

/-- What the monitor of a player knows: when sound and video may be sent next, whether there is more
of each, whether silence is to be sent before the player waits or ends, and whether it has ended. -/
structure Protocol where
  audioClock : ℚ
  videoClock : ℚ
  audioOpen : Bool := false
  videoOpen : Bool := false
  owed : Bool := false
  ended : Bool := false

namespace Protocol

variable (s : Protocol)

/-- Frames, or keyframes that are sent again: the next ones are due when these have been shown, and
at most one frame earlier than that after a delay. -/
def shown (now frameTime : ℚ) : Option Protocol :=
  if s.videoOpen ∧ s.videoClock ≤ now ∧ 0 < frameTime then
    some { s with videoClock := max (s.videoClock + frameTime) (now - frameTime) }
  else none

def next (s : Protocol) (event : PlayerEvent) : Option Protocol :=
  if s.ended then none
  else match event with
  | .source hasAudio hasVideo now =>
    some { s with
      audioClock := now
      videoClock := now
      audioOpen := hasAudio
      videoOpen := hasVideo
      owed := hasAudio }
  | .speak _ => some s
  | .paused => if s.owed then none else some s
  | .resumed now => some { s with audioClock := now, videoClock := now }
  | .audio now =>
    if s.audioOpen ∧ s.audioClock ≤ now then
      some { s with audioClock := s.audioClock + DELAY, owed := true }
    else none
  | .audioEnded => if s.audioOpen then some { s with audioOpen := false } else none
  | .silence => if s.owed then some { s with owed := false } else none
  | .skipped =>
    if s.owed ∧ ¬ s.audioOpen ∧ s.videoOpen then some { s with owed := false } else none
  | .video now frameTime => s.shown now frameTime
  | .keyframes now frameTime => s.shown now frameTime
  | .noFrames => if s.videoOpen then some s else none
  | .videoEnded => if s.videoOpen then some { s with videoOpen := false } else none
  | .left connected => if connected ∧ s.owed then none else some { s with ended := true }
  | .returned => some { s with ended := true }

/-- A player that starts at some time. -/
def new (start : ℚ) : Protocol := { audioClock := start, videoClock := start }

end Protocol

namespace PlayerEvent

/-- The duration of the frames that are sent. -/
def frameTime : PlayerEvent → ℚ
  | .video _ frameTime => frameTime
  | .keyframes _ frameTime => frameTime
  | _ => 0

/-- What an event makes of whether silence is owed: it is for sound, and for a source with sound
that has just started. It is not any more when it has been sent, and in two cases without it: if the
sound ends while there is no connection, and if a source without sound takes over. -/
def owed (before : Bool) : PlayerEvent → Bool
  | .source hasAudio _ _ => hasAudio
  | .audio _ => true
  | .silence => false
  | .skipped => false
  | _ => before

/-- Whether there is more sound. -/
def audioOpen (before : Bool) : PlayerEvent → Bool
  | .source hasAudio _ _ => hasAudio
  | .audioEnded => false
  | _ => before

/-- Whether there is more video. -/
def videoOpen (before : Bool) : PlayerEvent → Bool
  | .source _ hasVideo _ => hasVideo
  | .videoEnded => false
  | _ => before

end PlayerEvent

namespace Protocol

variable {s s' : Protocol}

end Protocol

namespace VideoTiming

variable (v : VideoTiming) (nextVideo now : ℚ) {frameTime : ℚ}

end VideoTiming

/-! ## The parts of a pass -/

namespace MediaPlayer

variable {s : Protocol} {p : MediaPlayer}

/-- Settings of a source without video. -/
def noVideo : VideoTiming := ⟨false, none, 4, 2 / 100⟩

/-- A pass over a source of sound. -/
def soundTurn (source : Option PlayerSource) (now : ℚ) (data : Bytes) : Turn where
  ended := false
  source := source
  sourceAt := 0
  resumed := true
  resumedAt := 0
  connected := true
  reconnected := true
  endedMeanwhile := false
  reconnectedAt := 0
  now := now
  data := data
  connectedAtEnd := true
  catchup := noVideo
  video := fun _ => ⟨now, .none, false, false, false, none, 0, noVideo, noVideo⟩
  finished := false
  connectedAfter := true

example : events 0
    [soundTurn (some ⟨true, false, 1⟩) 0 [1], soundTurn none (1 / 100) [2],
      soundTurn none (2 / 100) [3], soundTurn none 1 []] =
    [.source true false 0, .speak 1, .audio 0, .audio (2 / 100), .audioEnded, .silence,
      .left true] := by
  decide +kernel

end MediaPlayer

end NativeVoice.Send
