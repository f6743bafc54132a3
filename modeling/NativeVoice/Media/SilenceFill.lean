import NativeVoice.Lib.Monitor
import NativeVoice.Media.OpusDecoding
import NativeVoice.Media.PerUserSink
import NativeVoice.Receive.ReceiverReports

/-!
# Silence between received packets

`SilenceFillSink` of `src/discord/ext/native_voice/media.py`. A call of `write` looks whether the
sink is closed, forwards a packet, and remembers it; a thread of the sink wakes up now and then,
makes a packet of silence for every track that is due, and writes the packets one by one. Between
two of these steps the other threads may do anything, and what the destination wants may change. The
times are floats: the results of their sums and products are rounded, in any way.

* `progress` is what a log says of a track: its last packet, when that came, and the packets of
  silence since.
* `Change` tells what a step does; `Tracked` is the invariant of the tracks, `Handed` that of the
  thread.
* `collectSilencePackets_run`: what a collection makes for a track is what the log tells it to.
* `destination_run`: the packets of silence reach the destination once each and in order, and when
  the sink has been closed only those steps write that had looked before.
-/

namespace NativeVoice.Media

open Lib
open Receive (pyRound MediaType)

/-! ## The packets of silence -/

def RTP_AUDIO_LEVEL_SILENCE : ℕ := 127

/-- The settings of the sink, within their bounds, and how the result of a float operation is
rounded. -/
structure SilenceFillSettings where
  silenceAfter : ℚ
  frameDuration : ℚ
  maxSilence : Option ℚ
  rounded : ℚ → ℚ
  silenceAfter_nonneg : 0 ≤ silenceAfter
  frameDuration_ge : 1 / 1000 ≤ frameDuration
  maxSilence_nonneg : ∀ m ∈ maxSilence, 0 ≤ m

structure SilenceTrack where
  packet : SinkPacket
  nextDue : ℚ
  sequence : UInt16
  timestamp : UInt32
  emittedFor : ℚ := 0
  deriving DecidableEq

abbrev SilenceTracks := Dict ChildKey SilenceTrack

namespace SilenceFillSettings

/-- What `__init__` makes of its arguments. -/
def new (silenceAfter frameDuration : ℚ) (maxSilence : Option ℚ) (rounded : ℚ → ℚ) :
    SilenceFillSettings where
  silenceAfter := max 0 silenceAfter
  frameDuration := max (1 / 1000) frameDuration
  maxSilence := maxSilence.map (max 0)
  rounded := rounded
  silenceAfter_nonneg := le_max_left _ _
  frameDuration_ge := le_max_left _ _
  maxSilence_nonneg := by
    intro m hm
    obtain ⟨m, -, rfl⟩ := Option.map_eq_some_iff.1 hm
    exact le_max_left _ _

variable (s : SilenceFillSettings)

def samplesPerFrame : ℕ := (max 1 (pyRound (s.rounded (48000 * s.frameDuration)))).toNat

def timestampStep : UInt32 := UInt32.ofNat s.samplesPerFrame

/-- The samples of a frame, of four bytes each. -/
def silence : Bytes := List.replicate (s.samplesPerFrame * 4) 0

def trackKey (packet : SinkPacket) : ChildKey :=
  match packet.userId with
  | some userId => .user userId
  | none => .ssrc packet.ssrc

/-- The track that `_remember_audio_packet` starts. -/
def newTrack (packet : SinkPacket) (now : ℚ) : SilenceTrack where
  packet := packet
  nextDue := s.rounded (now + s.silenceAfter)
  sequence := packet.sequence + 1
  timestamp := packet.timestamp + s.timestampStep

/-- The packet of `_make_silence_packet`. -/
def silencePacket (packet : SinkPacket) (sequence : UInt16) (timestamp : UInt32) : SinkPacket :=
  { packet with
    codec := "pcm"
    payload := s.silence
    marker := false
    sequence := sequence
    timestamp := timestamp
    raw := []
    extensionPayload := []
    rtpExtended := false
    rtpExtensions := []
    speakingFlags := some 0
    audioLevel := some RTP_AUDIO_LEVEL_SILENCE
    audioVoiceActivity := some false }

/-- What `_make_silence_packet` does to a track. -/
def advance (track : SilenceTrack) : SilenceTrack :=
  { track with
    sequence := track.sequence + 1
    timestamp := track.timestamp + s.timestampStep
    nextDue := s.rounded (track.nextDue + s.frameDuration)
    emittedFor := s.rounded (track.emittedFor + s.frameDuration) }

def makeSilencePacket (track : SilenceTrack) : SinkPacket × SilenceTrack :=
  (s.silencePacket track.packet track.sequence track.timestamp, s.advance track)

/-- No more silence is made for the track. -/
def exhausted (track : SilenceTrack) : Bool := s.maxSilence.any fun m => m ≤ track.emittedFor

/-- The body of the loop of `_collect_silence_packets`. -/
def collectTrack (now : ℚ) (tracks : SilenceTracks) (key : ChildKey) :
    List SinkPacket × SilenceTracks :=
  match tracks.lookup key with
  | none => ([], tracks)
  | some track =>
    if s.exhausted track then ([], tracks.erase key)
    else if now < track.nextDue then ([], tracks)
    else
      let (packet, track) := s.makeSilencePacket track
      ([packet], tracks.set key track)

/-- The loop of `_collect_silence_packets`: the packets, with the keys of their tracks. -/
def collectLoop (now : ℚ) : SilenceTracks → List ChildKey →
    List (ChildKey × SinkPacket) × SilenceTracks
  | tracks, [] => ([], tracks)
  | tracks, key :: keys =>
    let (packets, tracks) := s.collectTrack now tracks key
    let (rest, tracks) := collectLoop now tracks keys
    (packets.map (key, ·) ++ rest, tracks)

/-- `_collect_silence_packets`, over the tracks in the order in which they were added. -/
def collectSilencePackets (now : ℚ) (tracks : SilenceTracks) :
    List (ChildKey × SinkPacket) × SilenceTracks :=
  s.collectLoop now tracks (tracks.items.map Prod.fst)

end SilenceFillSettings

/-! ## Threads -/

/-- What has been done to the tracks. -/
inductive SilenceEvent
  | remembered (key : ChildKey) (packet : SinkPacket) (now : ℚ)
  | collected (key : ChildKey) (packet : SinkPacket) (now : ℚ)
  | cleared
  deriving DecidableEq

/-- Where the thread of the sink has got to. -/
inductive SilenceThread
  | waiting
  /-- Does not wait any more. -/
  | woken
  /-- Has found the sink open, and asks what the destination wants. -/
  | asking
  /-- Has made some packets. -/
  | writing (packets : List SinkPacket)
  /-- Has found the sink open, and is to write the first of some packets. -/
  | allowed (packet : SinkPacket) (packets : List SinkPacket)
  | returned
  deriving DecidableEq

/-- The packets that the thread has made and not written yet. -/
def SilenceThread.packets : SilenceThread → List SinkPacket
  | .writing packets => packets
  | .allowed packet packets => packet :: packets
  | _ => []

/-- The packet that the thread writes without looking again. -/
def SilenceThread.next : SilenceThread → List SinkPacket
  | .allowed packet _ => [packet]
  | _ => []

/-- The sink, the calls of `write` that have found it open and those that have forwarded their
packet and not remembered it yet, what the destination was given, and whether it is silence. -/
structure SilenceFill where
  closed : Bool := false
  stopEvent : Bool := false
  /-- A call of `cleanup` has cleared the tracks. -/
  cleared : Bool := false
  tracks : SilenceTracks := ∅
  thread : SilenceThread := .waiting
  entered : List SinkPacket := []
  writes : List SinkPacket := []
  sent : List (SinkPacket × Bool) := []
  log : List SilenceEvent := []

inductive SilenceAction
  /-- A call of `write` looks whether the sink is closed. -/
  | write (packet : SinkPacket)
  /-- A call goes on: what the destination wants, what the Opus decoder makes of the packet, and
  whether the destination takes it without an exception. -/
  | forward (call : ℕ) (wants : MediaType → String → Bool) (decoded : Option Bytes) (taken : Bool)
  /-- The rest of a call, if the destination wants PCM. -/
  | remember (write : ℕ) (wantsPcm : Bool) (now : ℚ)
  /-- The thread does not wait any more. -/
  | wake
  /-- The thread looks whether the sink is closed. -/
  | look
  /-- The thread makes silence, if the destination wants PCM. -/
  | collect (wantsPcm : Bool) (now : ℚ)
  /-- The thread writes the packet for which it has looked. -/
  | send
  /-- The first part of `cleanup`. -/
  | stop
  /-- The second part, when the thread has returned or is not waited for any longer. -/
  | clear (timedOut : Bool)
  /-- The end of it. -/
  | close

namespace SilenceFill

variable (s : SilenceFillSettings) (c : SilenceFill)

/-- The packet that a call of `write` forwards, unless the decoder raises. -/
def forwarded (packet : SinkPacket) (wants : MediaType → String → Bool) (decoded : Option Bytes) :
    Option (Option SinkPacket) :=
  if wants packet.mediaType packet.codec then some (some packet)
  else if packet.mediaType = .audio ∧ packet.codec = "opus" ∧ wants .audio "pcm" then
    decoded.map fun payload =>
      some { packet with codec := "pcm", payload := payload }
  else some none

/-- A step of some thread; one that cannot be made changes nothing. -/
def step (c : SilenceFill) : SilenceAction → SilenceFill
  | .write packet => if c.closed then c else { c with entered := c.entered ++ [packet] }
  | .forward i wants decoded taken =>
    match c.entered[i]? with
    | none => c
    | some packet =>
      let c := { c with entered := c.entered.eraseIdx i }
      match forwarded packet wants decoded with
      | none => c
      | some none => { c with writes := c.writes ++ [packet] }
      | some (some real) =>
        { c with
          sent := c.sent ++ [(real, false)]
          writes := if taken then c.writes ++ [packet] else c.writes }
  | .remember i wantsPcm now =>
    match c.writes[i]? with
    | none => c
    | some packet =>
      let c := { c with writes := c.writes.eraseIdx i }
      if packet.mediaType ≠ .audio ∨ ¬ wantsPcm then c
      else
        let key := SilenceFillSettings.trackKey packet
        { c with
          tracks := c.tracks.set key (s.newTrack packet now)
          log := c.log ++ [.remembered key packet now] }
  | .wake =>
    match c.thread with
    | .waiting => { c with thread := if c.stopEvent then .returned else .woken }
    | _ => c
  | .look =>
    match c.thread with
    | .woken => { c with thread := if c.closed then .returned else .asking }
    | .writing [] => { c with thread := .waiting }
    | .writing (packet :: packets) =>
      { c with thread := if c.closed then .returned else .allowed packet packets }
    | _ => c
  | .collect wantsPcm now =>
    match c.thread with
    | .asking =>
      if ¬ wantsPcm then { c with thread := .waiting }
      else
        let (packets, tracks) := s.collectSilencePackets now c.tracks
        { c with
          tracks
          thread := .writing (packets.map Prod.snd)
          log := c.log ++ packets.map fun p => .collected p.1 p.2 now }
    | _ => c
  | .send =>
    match c.thread with
    | .allowed packet packets =>
      { c with sent := c.sent ++ [(packet, true)], thread := .writing packets }
    | _ => c
  | .stop => if c.closed then c else { c with stopEvent := true }
  | .clear timedOut =>
    if c.stopEvent ∧ (timedOut ∨ c.thread = .returned) then
      { c with cleared := true, tracks := ∅, log := c.log ++ [.cleared] }
    else c
  | .close => if c.cleared then { c with closed := true } else c

def run (acts : List SilenceAction) : SilenceFill := acts.foldl (step s) {}

end SilenceFill

/-! ## What a log says of a track -/

/-- The last packet of a track, when it was remembered, and how many packets of silence were made
since. -/
structure Progress where
  packet : SinkPacket
  since : ℚ
  made : ℕ
  deriving DecidableEq

def Progress.next (key : ChildKey) (progress : Option Progress) : SilenceEvent → Option Progress
  | .remembered key' packet now => if key' = key then some ⟨packet, now, 0⟩ else progress
  | .collected key' _ _ =>
    if key' = key then progress.map fun p => { p with made := p.made + 1 } else progress
  | .cleared => none

def progress (key : ChildKey) (log : List SilenceEvent) : Option Progress :=
  log.foldl (Progress.next key) none

namespace SilenceFillSettings

variable (s : SilenceFillSettings)

/-- A time, and some frames that are added to it one by one. -/
def afterFrames (start : ℚ) (n : ℕ) : ℚ := (fun t => s.rounded (t + s.frameDuration))^[n] start

/-- More silence may be made for the track. -/
def unfinished (p : Progress) : Bool := s.maxSilence.all fun m => s.afterFrames 0 p.made < m

/-- When the next packet of silence of the track is due. -/
def due (p : Progress) : ℚ := s.afterFrames (s.rounded (p.since + s.silenceAfter)) p.made

/-- The next packet of silence of a track: it goes on from its last packet. -/
def nextSilence (p : Progress) : SinkPacket :=
  s.silencePacket p.packet (p.packet.sequence + 1 + UInt16.ofNat p.made)
    (p.packet.timestamp + s.timestampStep + UInt32.ofNat p.made * s.timestampStep)

/-- **The silence that a track with some progress needs**, which is at most one packet. -/
def silenceDue (now : ℚ) : Option Progress → List SinkPacket
  | some p => if s.unfinished p ∧ s.due p ≤ now then [s.nextSilence p] else []
  | none => []

/-- The track of some progress. -/
def trackOf (p : Progress) : SilenceTrack where
  packet := p.packet
  nextDue := s.due p
  sequence := p.packet.sequence + 1 + UInt16.ofNat p.made
  timestamp := p.packet.timestamp + s.timestampStep + UInt32.ofNat p.made * s.timestampStep
  emittedFor := s.afterFrames 0 p.made

/-- **The tracks are those of the log**, if those are left out for which nothing is to be made. -/
structure Tracked (tracks : SilenceTracks) (log : List SilenceEvent) : Prop where
  sound : ∀ key track, tracks.lookup key = some track →
    ∃ p, progress key log = some p ∧ track = s.trackOf p
  complete : ∀ key p, progress key log = some p → s.unfinished p →
    tracks.lookup key = some (s.trackOf p)

/-- Every packet of silence is what its track needed when it was made. -/
def Justified (log : List SilenceEvent) : Prop :=
  ∀ older key packet now newer, log = older ++ .collected key packet now :: newer →
    s.silenceDue now (progress key older) = [packet]

/-! ## Tracks -/

theorem progress_nil (key : ChildKey) : progress key [] = none := rfl

theorem progress_append (key : ChildKey) (log : List SilenceEvent) (event : SilenceEvent) :
    progress key (log ++ [event]) = Progress.next key (progress key log) event := by
  rw [progress, List.foldl_append]
  rfl

@[simp] theorem afterFrames_zero (start : ℚ) : s.afterFrames start 0 = start := rfl

theorem afterFrames_succ (start : ℚ) (n : ℕ) :
    s.afterFrames start (n + 1) = s.rounded (s.afterFrames start n + s.frameDuration) :=
  Function.iterate_succ_apply' ..

/-- Where nothing is rounded, the frames add up to their number. -/
theorem afterFrames_of_exact (hexact : ∀ t, s.rounded t = t) (start : ℚ) (n : ℕ) :
    s.afterFrames start n = start + n * s.frameDuration := by
  induction n with
  | zero => simp
  | succ n ih =>
    rw [afterFrames_succ, hexact, ih]
    push_cast
    ring

theorem trackOf_new (packet : SinkPacket) (now : ℚ) :
    s.trackOf ⟨packet, now, 0⟩ = s.newTrack packet now := by
  simp [trackOf, newTrack, due]

/-- Making a packet of silence is progress. -/
theorem advance_trackOf (p : Progress) :
    s.advance (s.trackOf p) = s.trackOf { p with made := p.made + 1 } := by
  have hsequence : p.packet.sequence + 1 + UInt16.ofNat p.made + 1 =
      p.packet.sequence + 1 + UInt16.ofNat (p.made + 1) := by
    rw [UInt16.ofNat_add, ← add_assoc]
    rfl
  have htimestamp : p.packet.timestamp + s.timestampStep +
      UInt32.ofNat p.made * s.timestampStep + s.timestampStep =
      p.packet.timestamp + s.timestampStep + UInt32.ofNat (p.made + 1) * s.timestampStep := by
    rw [UInt32.ofNat_add, add_mul, ← add_assoc]
    congr 1
    exact (one_mul _).symm
  simp only [advance, trackOf, due, hsequence, htimestamp, afterFrames_succ]

theorem exhausted_trackOf (p : Progress) : s.exhausted (s.trackOf p) = !s.unfinished p := by
  unfold exhausted unfinished
  cases s.maxSilence with
  | none => rfl
  | some m => simp [trackOf, ← not_lt]

/-- **What a collection does at a track**: the silence that the track needs. -/
theorem Tracked.collectTrack {s : SilenceFillSettings} {tracks : SilenceTracks}
    {log : List SilenceEvent} (h : s.Tracked tracks log) (now : ℚ) (key : ChildKey) :
    (s.collectTrack now tracks key).1 = s.silenceDue now (progress key log) ∧
      s.Tracked (s.collectTrack now tracks key).2
        (log ++ (s.collectTrack now tracks key).1.map (.collected key · now)) := by
  unfold SilenceFillSettings.collectTrack
  cases hlookup : tracks.lookup key with
  | none =>
    -- A track that needs silence would be there.
    refine ⟨?_, by simpa using h⟩
    cases hp : progress key log with
    | none => rfl
    | some p =>
      refine (if_neg fun hdue => ?_).symm
      have hthere := h.complete key p hp hdue.1
      rw [hlookup] at hthere
      exact absurd hthere (by simp)
  | some track =>
    obtain ⟨p, hp, rfl⟩ := h.sound key track hlookup
    dsimp only
    rw [exhausted_trackOf, hp]
    cases hunfinished : s.unfinished p with
    | false =>
      refine ⟨(if_neg (by simp [hunfinished])).symm, ?_⟩
      simp only [Bool.not_false, if_true, List.map_nil, List.append_nil]
      refine ⟨fun key' track' htrack => ?_, fun key' p' hp' hopen => ?_⟩
      · rw [AList.lookup_erase_eq_ite] at htrack
        split at htrack
        · exact absurd htrack (by simp)
        · exact h.sound key' track' htrack
      · rw [AList.lookup_erase_eq_ite, if_neg]
        · exact h.complete key' p' hp' hopen
        · rintro rfl
          rw [hp, Option.some.injEq] at hp'
          rw [← hp', hunfinished] at hopen
          exact absurd hopen (by simp)
    | true =>
      simp only [Bool.not_true, Bool.false_eq_true, if_false]
      by_cases hnow : now < s.due p
      · rw [if_pos (show now < (s.trackOf p).nextDue from hnow)]
        exact ⟨(if_neg fun hdue => absurd hdue.2 (not_le.2 hnow)).symm, by simpa using h⟩
      · rw [if_neg (show ¬ now < (s.trackOf p).nextDue from hnow)]
        refine ⟨(if_pos ⟨hunfinished, not_lt.1 hnow⟩).symm, ?_⟩
        simp only [makeSilencePacket, List.map_cons, List.map_nil, advance_trackOf]
        have hprogress (key' : ChildKey) (packet : SinkPacket) :
            progress key' (log ++ [.collected key packet now]) =
              if key = key' then some { p with made := p.made + 1 } else progress key' log := by
          rw [progress_append, Progress.next]
          split
          · rename_i heq
            rw [← heq, hp]
            rfl
          · rfl
        refine ⟨fun key' track' htrack => ?_, fun key' p' hp' hopen => ?_⟩
        · rw [AList.lookup_set] at htrack
          rw [hprogress]
          split at htrack
          · rename_i heq
            rw [if_pos heq.symm]
            exact ⟨_, rfl, (Option.some.inj htrack).symm⟩
          · rename_i hne
            rw [if_neg (Ne.symm hne)]
            exact h.sound key' track' htrack
        · rw [hprogress] at hp'
          rw [AList.lookup_set]
          split at hp'
          · rename_i heq
            rw [if_pos heq.symm, Option.some.inj hp']
          · rename_i hne
            rw [if_neg (Ne.symm hne)]
            exact h.complete key' p' hp' hopen

/-- Making silence for a track is no progress of another one. -/
theorem progress_collected {key key' : ChildKey} (h : key' ≠ key) (log : List SilenceEvent)
    (packets : List SinkPacket) (now : ℚ) :
    progress key (log ++ packets.map (.collected key' · now)) = progress key log := by
  induction packets generalizing log with
  | nil => rw [List.map_nil, List.append_nil]
  | cons packet packets ih =>
    rw [List.map_cons, List.append_cons, ih, progress_append]
    exact if_neg h

/-- The events of a collection. -/
def collections (now : ℚ) (packets : List (ChildKey × SinkPacket)) : List SilenceEvent :=
  packets.map fun p => .collected p.1 p.2 now

theorem Justified.append {s : SilenceFillSettings} {log : List SilenceEvent} (h : s.Justified log)
    {event : SilenceEvent}
    (hevent : ∀ key packet now, event = .collected key packet now →
      s.silenceDue now (progress key log) = [packet]) : s.Justified (log ++ [event]) := by
  intro older key packet now newer heq
  refine (Monitor.forall_events_append
    (P := fun older e => ∀ key packet now, e = .collected key packet now →
      s.silenceDue now (progress key older) = [packet])).2 ⟨?_, hevent⟩ older _ newer heq
    key packet now rfl
  rintro older e newer rfl key packet now rfl
  exact h older key packet now newer rfl

/-- The packets that are due at a track are at most one, and stand for themselves. -/
theorem Justified.append_silenceDue {s : SilenceFillSettings} {log : List SilenceEvent}
    (h : s.Justified log) (key : ChildKey) (now : ℚ) :
    s.Justified (log ++ (s.silenceDue now (progress key log)).map (.collected key · now)) := by
  cases hdue : s.silenceDue now (progress key log) with
  | nil => simpa using h
  | cons packet packets =>
    have hone : packets = [] := by
      unfold silenceDue at hdue
      split at hdue
      · split at hdue
        · exact (List.cons.inj hdue).2.symm
        · exact absurd hdue (by simp)
      · exact absurd hdue (by simp)
    subst hone
    refine h.append fun key' packet' now' heq => ?_
    obtain ⟨rfl, rfl, rfl⟩ := SilenceEvent.collected.inj heq
    exact hdue

/-- A collection at some tracks, none of them twice, makes what they need. -/
theorem Tracked.collectLoop {s : SilenceFillSettings} (now : ℚ) {keys : List ChildKey}
    (hkeys : keys.Nodup) {tracks : SilenceTracks} {log : List SilenceEvent}
    (h : s.Tracked tracks log) (hlog : s.Justified log) :
    (s.Tracked (s.collectLoop now tracks keys).2
        (log ++ collections now (s.collectLoop now tracks keys).1) ∧
      s.Justified (log ++ collections now (s.collectLoop now tracks keys).1)) ∧
      ∀ key, ((s.collectLoop now tracks keys).1.filter (·.1 = key)).map Prod.snd =
        if key ∈ keys then s.silenceDue now (progress key log) else [] := by
  induction keys generalizing tracks log with
  | nil => exact ⟨⟨by simpa [SilenceFillSettings.collectLoop, collections] using h, by
      simpa [SilenceFillSettings.collectLoop, collections] using hlog⟩, fun key => rfl⟩
  | cons first keys ih =>
    obtain ⟨hfirst, hkeys⟩ := List.nodup_cons.1 hkeys
    obtain ⟨hdue, htracked⟩ := h.collectTrack now first
    have hjustified := hlog.append_silenceDue first now
    rw [← hdue] at hjustified
    obtain ⟨⟨htracked', hjustified'⟩, hrest⟩ := ih hkeys htracked hjustified
    have hlogs : log ++ collections now (s.collectLoop now tracks (first :: keys)).1 =
        log ++ (s.collectTrack now tracks first).1.map (.collected first · now) ++
          collections now (s.collectLoop now (s.collectTrack now tracks first).2 keys).1 := by
      simp [SilenceFillSettings.collectLoop, collections, Function.comp_def]
    refine ⟨⟨hlogs ▸ htracked', hlogs ▸ hjustified'⟩, fun key => ?_⟩
    have hsplit : ((s.collectLoop now tracks (first :: keys)).1.filter (·.1 = key)).map Prod.snd =
        (if first = key then (s.collectTrack now tracks first).1 else []) ++
          ((s.collectLoop now (s.collectTrack now tracks first).2 keys).1.filter
            (·.1 = key)).map Prod.snd := by
      simp only [SilenceFillSettings.collectLoop, List.filter_append, List.map_append]
      congr 1
      split
      · rename_i heq
        simp [List.filter_map, Function.comp_def, heq]
      · rename_i hne
        simp [List.filter_map, Function.comp_def, hne]
    rw [hsplit, hrest key]
    by_cases heq : first = key
    · subst heq
      rw [if_pos rfl, if_neg hfirst, if_pos (List.mem_cons_self ..), List.append_nil, hdue]
    · rw [if_neg heq, List.nil_append, progress_collected heq]
      simp [Ne.symm heq]

/-- **A collection makes what every track needs**, each of them at most one packet. -/
theorem Tracked.collectSilencePackets {s : SilenceFillSettings} {tracks : SilenceTracks}
    {log : List SilenceEvent} (h : s.Tracked tracks log) (hlog : s.Justified log) (now : ℚ) :
    (s.Tracked (s.collectSilencePackets now tracks).2
        (log ++ collections now (s.collectSilencePackets now tracks).1) ∧
      s.Justified (log ++ collections now (s.collectSilencePackets now tracks).1)) ∧
      ∀ key, ((s.collectSilencePackets now tracks).1.filter (·.1 = key)).map Prod.snd =
        s.silenceDue now (progress key log) := by
  obtain ⟨hnext, hkeys⟩ := h.collectLoop now tracks.nodup_map_fst_items hlog
  refine ⟨hnext, fun key => (hkeys key).trans ?_⟩
  split
  · rfl
  · rename_i hkey
    -- A track that is not there needs nothing.
    have hnone : tracks.lookup key = none := by
      rw [AList.mem_map_fst_items] at hkey
      exact AList.lookup_eq_none.2 hkey
    have hdue := (h.collectTrack now key).1
    rw [SilenceFillSettings.collectTrack, hnone] at hdue
    exact hdue

/-- Remembering a packet starts its track again. -/
theorem Tracked.remember {s : SilenceFillSettings} {tracks : SilenceTracks}
    {log : List SilenceEvent} (h : s.Tracked tracks log) (key : ChildKey) (packet : SinkPacket)
    (now : ℚ) :
    s.Tracked (tracks.set key (s.newTrack packet now)) (log ++ [.remembered key packet now]) := by
  have hprogress (key' : ChildKey) :
      progress key' (log ++ [.remembered key packet now]) =
        if key = key' then some ⟨packet, now, 0⟩ else progress key' log := progress_append ..
  refine ⟨fun key' track htrack => ?_, fun key' p hp hopen => ?_⟩
  · rw [AList.lookup_set] at htrack
    rw [hprogress]
    split at htrack
    · rename_i heq
      rw [if_pos heq.symm]
      exact ⟨_, rfl, by rw [trackOf_new, Option.some.inj htrack]⟩
    · rename_i hne
      rw [if_neg (Ne.symm hne)]
      exact h.sound key' track htrack
  · rw [hprogress] at hp
    rw [AList.lookup_set]
    split at hp
    · rename_i heq
      rw [if_pos heq.symm, ← Option.some.inj hp, trackOf_new]
    · rename_i hne
      rw [if_neg (Ne.symm hne)]
      exact h.complete key' p hp hopen

theorem tracked_cleared (s : SilenceFillSettings) (log : List SilenceEvent) :
    s.Tracked ∅ (log ++ [.cleared]) := by
  have hprogress (key : ChildKey) : progress key (log ++ [.cleared]) = none := progress_append ..
  refine ⟨fun key track htrack => absurd htrack (by simp), fun key p hp => ?_⟩
  rw [hprogress] at hp
  exact absurd hp (by simp)

/-- A track gets a packet of silence only as long as those before last less than `maxSilence`. -/
theorem afterFrames_lt {s : SilenceFillSettings} {log : List SilenceEvent} (hlog : s.Justified log)
    {key : ChildKey} {p : Progress} (hp : progress key log = some p) {m : ℚ}
    (hm : m ∈ s.maxSilence) {n : ℕ} (hn : n < p.made) : s.afterFrames 0 n < m := by
  induction log using List.reverseRecOn generalizing p with
  | nil => exact absurd hp (by simp [progress_nil])
  | append_singleton log event ih =>
    have hold : s.Justified log := fun older key packet now newer heq =>
      hlog older key packet now (newer ++ [event]) (by simp [heq])
    rw [progress_append] at hp
    cases event with
    | remembered key' packet now =>
      rw [Progress.next] at hp
      split at hp
      · obtain rfl := Option.some.inj hp
        exact absurd hn (Nat.not_lt_zero n)
      · exact ih hold hp hn
    | collected key' packet now =>
      rw [Progress.next] at hp
      split at hp
      · rename_i heq
        subst heq
        obtain ⟨before, hbefore, rfl⟩ := Option.map_eq_some_iff.1 hp
        rcases (Nat.lt_succ_iff.1 hn).lt_or_eq with hearlier | rfl
        · exact ih hold hbefore hearlier
        · have hdue := hlog log key' packet now [] rfl
          rw [hbefore, silenceDue] at hdue
          split at hdue
          · rename_i hmade
            have hall := hmade.1
            rw [unfinished, Option.mem_def.1 hm] at hall
            simpa using hall
          · exact absurd hdue (by simp)
      · exact ih hold hp hn
    | cleared => exact absurd hp (by simp [Progress.next])

/-- Where nothing is rounded, that is for `maxSilence` and less than a frame more. -/
theorem made_lt {s : SilenceFillSettings} (hexact : ∀ t, s.rounded t = t) {p : Progress} {m : ℚ}
    (hm : m ∈ s.maxSilence) (hmade : ∀ n < p.made, s.afterFrames 0 n < m) :
    p.made * s.frameDuration < m + s.frameDuration := by
  have hframe : 0 < s.frameDuration := lt_of_lt_of_le (by norm_num) s.frameDuration_ge
  have hnonneg := s.maxSilence_nonneg m hm
  cases hn : p.made with
  | zero =>
    push_cast
    linarith
  | succ n =>
    have hlt := hmade n (by omega)
    rw [afterFrames_of_exact s hexact] at hlt
    push_cast
    linarith

end SilenceFillSettings

namespace SilenceFill

open SilenceFillSettings

variable {s : SilenceFillSettings} {c : SilenceFill}

/-! ## What a step does -/

/-- A packet is what a call of `write` may make of another one. -/
def Forwards (packet real : SinkPacket) : Prop :=
  ∃ wants decoded, forwarded packet wants decoded = some (some real)

/-- **What a step does** to a sink, as far as the tracks, the log and the destination go. -/
inductive Change (s : SilenceFillSettings) (c : SilenceFill) : SilenceFill → Prop
  /-- Nothing is made or written. When the sink is closed it stays so, no call of `write` finds it
  open, and the thread is not to write what it was not to write before. -/
  | moves {c' : SilenceFill} (tracks : c'.tracks = c.tracks) (log : c'.log = c.log)
      (sent : c'.sent = c.sent)
      (thread : c'.thread ≠ .returned →
        c.thread ≠ .returned ∧ c'.thread.packets = c.thread.packets)
      (closed : c.closed → c'.closed ∧ c'.thread.next.Sublist c.thread.next ∧
        c'.entered.Subperm c.entered) : Change s c c'
  | forwards (i : ℕ) (hi : i < c.entered.length) (writes : List SinkPacket) {real : SinkPacket}
      (hreal : Forwards c.entered[i] real) :
    Change s c { c with
      entered := c.entered.eraseIdx i
      sent := c.sent ++ [(real, false)]
      writes := writes }
  | remembers (packet : SinkPacket) (now : ℚ) (writes : List SinkPacket) :
    Change s c { c with
      writes := writes
      tracks := c.tracks.set (trackKey packet) (s.newTrack packet now)
      log := c.log ++ [.remembered (trackKey packet) packet now] }
  | collects (now : ℚ) (hthread : c.thread = .asking) :
    Change s c { c with
      tracks := (s.collectSilencePackets now c.tracks).2
      thread := .writing ((s.collectSilencePackets now c.tracks).1.map Prod.snd)
      log := c.log ++ collections now (s.collectSilencePackets now c.tracks).1 }
  | sends {packet : SinkPacket} {packets : List SinkPacket}
      (hthread : c.thread = .allowed packet packets) :
    Change s c { c with sent := c.sent ++ [(packet, true)], thread := .writing packets }
  | clears : Change s c { c with cleared := true, tracks := ∅, log := c.log ++ [.cleared] }

theorem Change.refl : Change s c c :=
  .moves rfl rfl rfl (fun hne => ⟨hne, rfl⟩) fun hclosed => ⟨hclosed, .refl _, .refl _⟩

/-- The thread goes on, or returns. -/
theorem Change.thread {thread : SilenceThread}
    (hpackets : thread ≠ .returned → c.thread ≠ .returned ∧ thread.packets = c.thread.packets)
    (hnext : c.closed → thread.next = []) : Change s c { c with thread } :=
  .moves rfl rfl rfl hpackets fun hclosed =>
    ⟨hclosed, by rw [hnext hclosed]; exact List.nil_sublist _, .refl _⟩

theorem change_step (s : SilenceFillSettings) (c : SilenceFill) (act : SilenceAction) :
    Change s c (c.step s act) := by
  cases act with
  | write packet =>
    rw [SilenceFill.step]
    split
    · exact .refl
    · rename_i hopen
      exact .moves rfl rfl rfl (fun hne => ⟨hne, rfl⟩) fun hclosed => absurd hclosed hopen
  | forward i wants decoded taken =>
    rw [SilenceFill.step]
    split
    · exact .refl
    · rename_i packet hpacket
      obtain ⟨hi, rfl⟩ := List.getElem?_eq_some_iff.1 hpacket
      have hdone (writes : List SinkPacket) :
          Change s c { c with entered := c.entered.eraseIdx i, writes := writes } :=
        .moves rfl rfl rfl (fun hne => ⟨hne, rfl⟩) fun hclosed =>
          ⟨hclosed, .refl _, (List.eraseIdx_sublist ..).subperm⟩
      dsimp only
      split
      · exact hdone _
      · exact hdone _
      · rename_i real hreal
        exact .forwards i hi _ ⟨wants, decoded, hreal⟩
  | remember i wantsPcm now =>
    rw [SilenceFill.step]
    split
    · exact .refl
    · dsimp only
      split
      · exact .moves rfl rfl rfl (fun hne => ⟨hne, rfl⟩) fun hclosed => ⟨hclosed, .refl _, .refl _⟩
      · exact .remembers ..
  | wake =>
    rw [SilenceFill.step]
    split
    · rename_i hthread
      split
      · exact .thread (fun hne => absurd rfl hne) fun _ => rfl
      · exact .thread (fun _ => by simp [hthread, SilenceThread.packets]) fun _ => rfl
    · exact .refl
  | look =>
    rw [SilenceFill.step]
    split
    · rename_i hthread
      split
      · exact .thread (fun hne => absurd rfl hne) fun _ => rfl
      · exact .thread (fun _ => by simp [hthread, SilenceThread.packets]) fun _ => rfl
    · rename_i hthread
      exact .thread (fun _ => by simp [hthread, SilenceThread.packets]) fun _ => rfl
    · rename_i packet packets hthread
      split
      · exact .thread (fun hne => absurd rfl hne) fun _ => rfl
      · rename_i hopen
        exact .thread (fun _ => by simp [hthread, SilenceThread.packets])
          fun hclosed => absurd hclosed hopen
    · exact .refl
  | collect wantsPcm now =>
    rw [SilenceFill.step]
    split
    · rename_i hthread
      split
      · exact .thread (fun _ => by simp [hthread, SilenceThread.packets]) fun _ => rfl
      · exact .collects now hthread
    · exact .refl
  | send =>
    rw [SilenceFill.step]
    split
    · rename_i hthread
      exact .sends hthread
    · exact .refl
  | stop =>
    rw [SilenceFill.step]
    split
    · exact .refl
    · exact .moves rfl rfl rfl (fun hne => ⟨hne, rfl⟩) fun hclosed => ⟨hclosed, .refl _, .refl _⟩
  | clear timedOut =>
    rw [SilenceFill.step]
    split
    · exact .clears
    · exact .refl
  | close =>
    rw [SilenceFill.step]
    split
    · exact .moves rfl rfl rfl (fun hne => ⟨hne, rfl⟩) fun _ => ⟨rfl, .refl _, .refl _⟩
    · exact .refl

/-! ## The timeline -/

/-- The tracks are those of the log, and the log is as it should be. -/
structure Timeline (s : SilenceFillSettings) (c : SilenceFill) : Prop where
  tracked : s.Tracked c.tracks c.log
  justified : s.Justified c.log

theorem Timeline.step (h : Timeline s c) {c' : SilenceFill} (hchange : Change s c c') :
    Timeline s c' := by
  cases hchange with
  | moves tracks log => exact ⟨by rw [tracks, log]; exact h.tracked, by rw [log]; exact h.justified⟩
  | forwards i hi writes hreal => exact ⟨h.tracked, h.justified⟩
  | remembers packet now writes =>
    exact ⟨h.tracked.remember _ packet now,
      h.justified.append fun _ _ _ heq => absurd heq (by simp)⟩
  | collects now hthread =>
    obtain ⟨htracked, hjustified⟩ := (h.tracked.collectSilencePackets h.justified now).1
    exact ⟨htracked, hjustified⟩
  | sends hthread => exact ⟨h.tracked, h.justified⟩
  | clears =>
    exact ⟨tracked_cleared s _, h.justified.append fun _ _ _ heq => absurd heq (by simp)⟩

theorem timeline_run (s : SilenceFillSettings) (acts : List SilenceAction) :
    Timeline s (run s acts) := by
  induction acts using List.reverseRecOn with
  | nil =>
    refine ⟨⟨fun key track h => absurd h (by simp [run]), fun key p h => ?_⟩, fun older => ?_⟩
    · exact absurd h (by simp [run, progress_nil])
    · intro key packet now newer h
      exact absurd h (by simp [run])
  | append_singleton acts act ih =>
    rw [run, List.foldl_append]
    exact ih.step (change_step ..)

/-- **Silence goes on from the last packet of its track, and is made when it is due.** In a run,
every packet of silence that was made is the one that its track needed then; a collection that comes
next makes, for every track, what the track needs; and a track gets a packet of silence only as long
as the frames before it add up to less than `maxSilence`. So where the sums are not rounded, it gets
no more silence than `maxSilence` and a frame. -/
theorem collectSilencePackets_run (s : SilenceFillSettings) (acts : List SilenceAction) :
    s.Justified (run s acts).log ∧
      (∀ now key, ((s.collectSilencePackets now (run s acts).tracks).1.filter (·.1 = key)).map
        Prod.snd = s.silenceDue now (progress key (run s acts).log)) ∧
      ∀ key p m, progress key (run s acts).log = some p → m ∈ s.maxSilence →
        (∀ n < p.made, s.afterFrames 0 n < m) ∧
          ((∀ t, s.rounded t = t) → p.made * s.frameDuration < m + s.frameDuration) := by
  have h := timeline_run s acts
  refine ⟨h.justified, fun now => (h.tracked.collectSilencePackets h.justified now).2,
    fun key p m hp hm => ?_⟩
  have hmade : ∀ n < p.made, s.afterFrames 0 n < m := fun n hn =>
    afterFrames_lt h.justified hp hm hn
  exact ⟨hmade, fun hexact => made_lt hexact hm hmade⟩

/-- A packet of sound, with the last sequence number that there is. -/
def lastSequence : SinkPacket where
  mediaType := .audio
  codec := "opus"
  payload := [0xF8]
  payloadType := 120
  marker := false
  sequence := 65535
  timestamp := 960
  ssrc := 7
  userId := none
  raw := []
  extensionPayload := []
  rtpExtended := false
  rtpExtensions := []
  rtpPackets := []
  receivedAt := 0

example :
    (run (.new (6 / 100) (2 / 100) (some (2 / 100)) id)
      [.write lastSequence, .forward 0 (fun _ codec => codec = "pcm") (some []) true,
        .remember 0 true 0, .wake, .look, .collect true (5 / 100), .look, .wake, .look,
        .collect true (6 / 100), .look, .send, .look, .wake, .look,
        .collect true 1]).log.map (fun
      | .collected _ packet _ => some (packet.sequence, packet.timestamp)
      | _ => none) = [none, some (0, 1920)] := by
  decide +kernel

/-! ## What the destination gets -/

/-- The packets of silence that were made. -/
def collectedPackets (log : List SilenceEvent) : List SinkPacket :=
  log.filterMap fun
    | .collected _ packet _ => some packet
    | _ => none

/-- The silence among what the destination was given. -/
def silenceIn (sent : List (SinkPacket × Bool)) : List SinkPacket :=
  (sent.filter Prod.snd).map Prod.fst

/-- The packets of others among it. -/
def receivedIn (sent : List (SinkPacket × Bool)) : List SinkPacket :=
  (sent.filter fun p => !p.2).map Prod.fst

/-- The silence that the destination was given. -/
def sentSilence (c : SilenceFill) : List SinkPacket := silenceIn c.sent

theorem collectedPackets_append (log log' : List SilenceEvent) :
    collectedPackets (log ++ log') = collectedPackets log ++ collectedPackets log' :=
  List.filterMap_append

theorem collectedPackets_collections (now : ℚ) (packets : List (ChildKey × SinkPacket)) :
    collectedPackets (collections now packets) = packets.map Prod.snd := by
  simp [collectedPackets, collections, List.filterMap_map]

/-- What was made has been given to the destination, up to what the thread still has; a thread that
has returned may have left some of it. -/
structure Handed (c : SilenceFill) : Prop where
  isPrefix : c.sentSilence <+: collectedPackets c.log
  whole : c.thread ≠ .returned → c.sentSilence ++ c.thread.packets = collectedPackets c.log

/-- What leaves the thread and the silence alone. -/
theorem Handed.of_eq {c' : SilenceFill} (h : Handed c) (hsent : c'.sentSilence = c.sentSilence)
    (hlog : collectedPackets c'.log = collectedPackets c.log) (hthread : c'.thread = c.thread) :
    Handed c' := by
  refine ⟨?_, fun hne => ?_⟩
  · rw [hsent, hlog]
    exact h.isPrefix
  · rw [hthread] at hne
    rw [hsent, hlog, hthread]
    exact h.whole hne

theorem Handed.step (h : Handed c) {c' : SilenceFill} (hchange : Change s c c') : Handed c' := by
  cases hchange with
  | moves tracks log sent thread =>
    refine ⟨?_, fun hne => ?_⟩
    · rw [sentSilence, sent, log]
      exact h.isPrefix
    · obtain ⟨hne, hpackets⟩ := thread hne
      rw [sentSilence, sent, log, hpackets]
      exact h.whole hne
  | forwards i hi writes hreal => exact h.of_eq (by simp [sentSilence, silenceIn]) rfl rfl
  | remembers packet now writes => exact h.of_eq rfl (by simp [collectedPackets]) rfl
  | collects now hthread =>
    have hasking : c.sentSilence = collectedPackets c.log := by
      simpa [hthread, SilenceThread.packets] using h.whole (by simp [hthread])
    have hnew : collectedPackets
        (c.log ++ collections now (s.collectSilencePackets now c.tracks).1) =
          c.sentSilence ++ (s.collectSilencePackets now c.tracks).1.map Prod.snd := by
      rw [collectedPackets_append, collectedPackets_collections, hasking]
    exact ⟨hnew ▸ List.prefix_append .., fun _ => hnew.symm⟩
  | sends hthread =>
    rename_i packet packets
    have hwhole := h.whole (by simp [hthread])
    have hsent : silenceIn (c.sent ++ [(packet, true)]) ++ packets = collectedPackets c.log := by
      simpa [hthread, SilenceThread.packets, sentSilence, silenceIn] using hwhole
    exact ⟨hsent ▸ List.prefix_append .., fun _ => hsent⟩
  | clears => exact h.of_eq rfl (by simp [collectedPackets]) rfl

theorem handed_run (s : SilenceFillSettings) (acts : List SilenceAction) : Handed (run s acts) := by
  induction acts using List.reverseRecOn with
  | nil => exact ⟨List.prefix_refl _, fun _ => rfl⟩
  | append_singleton acts act ih =>
    rw [run, List.foldl_append]
    exact ih.step (change_step ..)

/-- What is written to the destination from a state on: the packet for which the thread has looked,
and for some calls that have found the sink open what they make of their packet. -/
structure WritesOnly (c c' : SilenceFill) (more : List (SinkPacket × Bool)) : Prop where
  sent : c'.sent = c.sent ++ more
  silence : (silenceIn more ++ c'.thread.next).Sublist c.thread.next
  received : ∃ calls, (calls ++ c'.entered).Subperm c.entered ∧
    List.Forall₂ Forwards calls (receivedIn more)

/-- Nothing is written. -/
theorem WritesOnly.nothing {c' : SilenceFill} (hsent : c'.sent = c.sent)
    (hthread : c'.thread.next.Sublist c.thread.next) (hentered : c'.entered.Subperm c.entered) :
    WritesOnly c c' [] :=
  ⟨by rw [hsent, List.append_nil], hthread, [], hentered, .nil⟩

theorem WritesOnly.trans {c' c'' : SilenceFill} {first more : List (SinkPacket × Bool)}
    (h : WritesOnly c c' first) (h' : WritesOnly c' c'' more) :
    WritesOnly c c'' (first ++ more) := by
  obtain ⟨calls, hcalls, hforwards⟩ := h.received
  obtain ⟨calls', hcalls', hforwards'⟩ := h'.received
  refine ⟨by rw [h'.sent, h.sent, List.append_assoc], ?_, calls ++ calls', ?_, ?_⟩
  · have hsplit : silenceIn (first ++ more) = silenceIn first ++ silenceIn more := by
      simp [silenceIn]
    rw [hsplit, List.append_assoc]
    exact (h'.silence.append_left _).trans h.silence
  · rw [List.append_assoc]
    exact ((List.subperm_append_left calls).2 hcalls').trans hcalls
  · have hsplit : receivedIn (first ++ more) = receivedIn first ++ receivedIn more := by
      simp [receivedIn]
    rw [hsplit]
    exact List.rel_append hforwards hforwards'

/-- A step of a sink that is closed. -/
theorem Change.closed {c' : SilenceFill} (hchange : Change s c c') (hclosed : c.closed) :
    c'.closed ∧ ∃ more, WritesOnly c c' more := by
  cases hchange with
  | moves tracks log sent thread closed =>
    obtain ⟨hclosed', hnext, hentered⟩ := closed hclosed
    exact ⟨hclosed', [], .nothing sent hnext hentered⟩
  | forwards i hi writes hreal =>
    refine ⟨hclosed, [(_, false)], rfl, .refl _, [c.entered[i]], ?_, .cons hreal .nil⟩
    exact (List.getElem_cons_eraseIdx_perm hi).subperm
  | remembers packet now writes => exact ⟨hclosed, [], .nothing rfl (.refl _) (.refl _)⟩
  | collects now hthread =>
    exact ⟨hclosed, [], .nothing rfl (List.nil_sublist _) (.refl _)⟩
  | sends hthread =>
    refine ⟨hclosed, [(_, true)], rfl, ?_, [], .refl _, .nil⟩
    rw [hthread]
    exact .refl _
  | clears => exact ⟨hclosed, [], .nothing rfl (.refl _) (.refl _)⟩

theorem steps_closed (hclosed : c.closed) (acts : List SilenceAction) :
    ∃ more, WritesOnly c (acts.foldl (step s) c) more := by
  induction acts generalizing c with
  | nil => exact ⟨[], .nothing rfl (.refl _) (.refl _)⟩
  | cons act acts ih =>
    obtain ⟨hclosed', first, hfirst⟩ := (change_step s c act).closed hclosed
    obtain ⟨more, hmore⟩ := ih hclosed'
    exact ⟨first ++ more, hfirst.trans hmore⟩

/-- **Every packet of silence reaches the destination once, and in order**, in a run in which the
thread has not returned: what was made is what was sent and what the thread still has. When the sink
is closed, the destination gets at most the packet for which the thread had looked, and for some of
the calls of `write` that had found the sink open, each at most once, what the call makes of its
packet. -/
theorem destination_run (s : SilenceFillSettings) (acts later : List SilenceAction) :
    (run s acts).sentSilence <+: collectedPackets (run s acts).log ∧
      ((run s acts).thread ≠ .returned →
        (run s acts).sentSilence ++ (run s acts).thread.packets =
          collectedPackets (run s acts).log) ∧
      ((run s acts).closed →
        ∃ more, (run s (acts ++ later)).sent = (run s acts).sent ++ more ∧
          (silenceIn more).Sublist (run s acts).thread.next ∧
          ∃ calls, calls.Subperm (run s acts).entered ∧
            List.Forall₂ Forwards calls (receivedIn more)) := by
  refine ⟨(handed_run s acts).isPrefix, (handed_run s acts).whole, fun hclosed => ?_⟩
  obtain ⟨more, hmore⟩ := steps_closed (s := s) hclosed later
  obtain ⟨calls, hcalls, hforwards⟩ := hmore.received
  refine ⟨more, by rw [run, List.foldl_append]; exact hmore.sent, ?_, calls, ?_, hforwards⟩
  · exact (List.sublist_append_left _ _).trans hmore.silence
  · exact (List.sublist_append_left _ _).subperm.trans hcalls

end SilenceFill

end NativeVoice.Media
