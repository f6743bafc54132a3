import Mathlib.Tactic.Linarith
import Mathlib.Tactic.NormNum
import NativeVoice.Media.Files
import NativeVoice.Media.MixedWaveSink
import NativeVoice.Receive.ReceiverReports

/-!
# The audio of a multiplexed recording

How `FFmpegMuxSink` of `src/discord/ext/native_voice/media.py` places the PCM of its audio packets
in a file: by their RTP timestamps, on a timeline that is set anew when it is too far from the time
of a packet. The times are rational numbers, and so is the threshold.

* `audioOffset` is the byte offset that is sought for a packet.
* `recorded_iff`: a packet is recorded at a whole sample of the file unless the timeline puts it
  before the beginning of the file, and by so little that the timeline is kept.
* `recording_iff` is the same for all packets of a run, and `recorded_of_inOrder` says that packets
  in the order of their timestamps are recorded.
* `not_recording`: a packet that comes late, behind one that has set the timeline anew.
-/

namespace NativeVoice.Media

open Receive (pyRound)

/-- What the sink reads of a packet. `pcm` is the payload of an audio packet of the codec `pcm`, or
what the decoder makes of the payload. -/
structure MuxPacket where
  timestamp : UInt32
  pcm : Bytes
  rtcpTime : Option ℚ
  receivedAt : ℚ

/-- A packet that is written. For a video packet, whether the sink for video wrote it. -/
inductive MuxWrite
  | audio (packet : MuxPacket)
  | video (packet : MuxPacket) (written : Bool)

inductive MuxError
  /-- A seek to before the beginning of the file. -/
  | invalidSeek (start : ℤ)
  | audio (error : AudioError)
  deriving DecidableEq

def SAMPLING_RATE : ℕ := 48000

def AUDIO_TIMELINE_RESET_THRESHOLD : ℚ := 151 / 1000

/-- The sink, as far as it records audio. -/
structure FFmpegMuxSink where
  audioFile : Option Bytes := none
  audioBaseTimestamp : Option UInt32 := none
  audioStartOffsetSamples : Option ℤ := none
  audioPackets : ℕ := 0
  recordingStartReceivedAt : Option ℚ := none
  recordingRtcpTimeOffset : Option ℚ := none

namespace FFmpegMuxSink

def audioTimestampDelta (s : FFmpegMuxSink) (timestamp : UInt32) : Option ℕ × FFmpegMuxSink :=
  match s.audioBaseTimestamp with
  | none => (some 0, { s with audioBaseTimestamp := some timestamp })
  | some base => (rtpTimestampDelta timestamp base, s)

def packetTimeOffset (s : FFmpegMuxSink) (packet : MuxPacket) : ℚ × FFmpegMuxSink :=
  match s.recordingStartReceivedAt with
  | none => (0, { s with recordingStartReceivedAt := some packet.receivedAt })
  | some base =>
    let receivedOffset := max 0 (packet.receivedAt - base)
    match packet.rtcpTime with
    | none => (receivedOffset, s)
    | some rtcpTime => match s.recordingRtcpTimeOffset with
      | some rtcpOffset => (max 0 (rtcpTime + rtcpOffset), s)
      | none =>
        let rtcpOffset := receivedOffset - rtcpTime
        (max 0 (rtcpTime + rtcpOffset), { s with recordingRtcpTimeOffset := some rtcpOffset })

/-- The start of the timeline, for a packet that comes at an offset of time. -/
def startOffsetSamples (start : Option ℤ) (timestampDelta : ℕ) (packetOffset : ℚ) : ℤ :=
  match start with
  | none => pyRound (packetOffset * SAMPLING_RATE)
  | some start =>
    let currentOffset : ℚ := (start + timestampDelta) / SAMPLING_RATE
    if AUDIO_TIMELINE_RESET_THRESHOLD < |packetOffset - currentOffset| then
      pyRound (packetOffset * SAMPLING_RATE) - timestampDelta
    else start

/-- The first part of `_write_audio_packet`: the byte offset that is sought, if the packet
counts. -/
def audioOffset (s : FFmpegMuxSink) (packet : MuxPacket) : Option ℤ × FFmpegMuxSink :=
  let s := { s with audioFile := some (s.audioFile.getD []) }
  if packet.pcm.isEmpty then (none, s)
  else match s.audioTimestampDelta packet.timestamp with
  | (none, s) => (none, s)
  | (some timestampDelta, s) =>
    let (packetOffset, s) := s.packetTimeOffset packet
    let start := startOffsetSamples s.audioStartOffsetSamples timestampDelta packetOffset
    (some ((start + timestampDelta) * CHANNELS * SAMPLE_WIDTH),
      { s with audioStartOffsetSamples := some start })

def writeAudioPacket (s : FFmpegMuxSink) (packet : MuxPacket) :
    Except MuxError Unit × FFmpegMuxSink :=
  match s.audioOffset packet with
  | (none, s) => (.ok (), s)
  | (some start, s) =>
    if start < 0 then (.error (.invalidSeek start), s)
    else
      let file := s.audioFile.getD []
      let existing := (file.drop start.toNat).take packet.pcm.length
      let mixed :=
        if start < file.length then
          pcm16Add (existing ++ List.replicate (packet.pcm.length - existing.length) 0) packet.pcm
        else .ok packet.pcm
      match mixed with
      | .error e => (.error (.audio e), s)
      | .ok pcm =>
        (.ok (), { s with
          audioFile := some (writeAt file start.toNat pcm)
          audioPackets := s.audioPackets + 1 })

/-- `write`, of which a video packet sets the clock of the recording only. -/
def write (s : FFmpegMuxSink) : MuxWrite → Except MuxError Unit × FFmpegMuxSink
  | .audio packet => s.writeAudioPacket packet
  | .video packet written => (.ok (), if written then (s.packetTimeOffset packet).2 else s)

/-- Packets one after the other, also behind one that raises. -/
def run (packets : List MuxWrite) : FFmpegMuxSink :=
  packets.foldl (fun s packet => (s.write packet).2) {}

/-- A packet is placed at a whole sample of the file, and written if it is made of whole samples. -/
structure Recorded (s : FFmpegMuxSink) (packet : MuxPacket) : Prop where
  offset : ∀ start, (s.audioOffset packet).1 = some start → 0 ≤ start ∧ 4 ∣ start
  write : packet.pcm.length % 2 = 0 → (s.writeAudioPacket packet).1 = .ok ()

/-- If the timeline puts the packet before the beginning of the file, then it is set anew, since the
packet comes too late for that. -/
def InFile (s : FFmpegMuxSink) (packet : MuxPacket) : Prop :=
  packet.pcm ≠ [] → ∀ start ∈ s.audioStartOffsetSamples,
    ∀ timestampDelta ∈ (s.audioTimestampDelta packet.timestamp).1, start + timestampDelta < 0 →
      AUDIO_TIMELINE_RESET_THRESHOLD + (start + timestampDelta) / SAMPLING_RATE <
        (s.packetTimeOffset packet).1

/-! ## Offsets -/

theorem pyRound_nonneg {x : ℚ} (hx : 0 ≤ x) : 0 ≤ pyRound x := by
  have hfloor : 0 ≤ ⌊x⌋ := Int.floor_nonneg.2 hx
  unfold pyRound
  dsimp only
  split <;> omega

variable {s : FFmpegMuxSink} {packet : MuxPacket}

theorem packetTimeOffset_nonneg (s : FFmpegMuxSink) (packet : MuxPacket) :
    0 ≤ (s.packetTimeOffset packet).1 := by
  unfold packetTimeOffset
  cases s.recordingStartReceivedAt with
  | none => exact le_rfl
  | some base =>
    cases packet.rtcpTime with
    | none => exact le_max_left _ _
    | some rtcpTime =>
      cases s.recordingRtcpTimeOffset with
      | none => exact le_max_left _ _
      | some rtcpOffset => exact le_max_left _ _

/-- The position of a packet is negative just where the timeline is kept that puts it there. -/
theorem startOffsetSamples_nonneg_iff (start : Option ℤ) (timestampDelta : ℕ) {packetOffset : ℚ}
    (hoffset : 0 ≤ packetOffset) :
    0 ≤ startOffsetSamples start timestampDelta packetOffset + timestampDelta ↔
      ∀ start' ∈ start, start' + timestampDelta < 0 →
        AUDIO_TIMELINE_RESET_THRESHOLD + (start' + timestampDelta) / SAMPLING_RATE <
          packetOffset := by
  have hround : 0 ≤ pyRound (packetOffset * SAMPLING_RATE) :=
    pyRound_nonneg (mul_nonneg hoffset (Nat.cast_nonneg _))
  cases start with
  | none =>
    refine iff_of_true ?_ (by simp)
    dsimp only [startOffsetSamples]
    omega
  | some start =>
    simp only [startOffsetSamples, Option.mem_some_iff, forall_eq']
    split_ifs with hreset
    · refine iff_of_true (by omega) fun hneg => ?_
      have hcurrent : ((start : ℚ) + timestampDelta) / SAMPLING_RATE ≤ 0 :=
        div_nonpos_of_nonpos_of_nonneg (by exact_mod_cast hneg.le) (Nat.cast_nonneg _)
      rw [abs_of_nonneg (by linarith)] at hreset
      linarith
    · constructor
      · intro hnonneg hneg
        omega
      · intro hlate
        by_contra hneg
        have hlate := hlate (by omega)
        exact hreset (lt_of_lt_of_le (by linarith) (le_abs_self _))

/-- The clock does not depend on the file and on the RTP timestamps. -/
theorem packetTimeOffset_congr {s' : FFmpegMuxSink}
    (hstart : s'.recordingStartReceivedAt = s.recordingStartReceivedAt)
    (hrtcp : s'.recordingRtcpTimeOffset = s.recordingRtcpTimeOffset) :
    (s'.packetTimeOffset packet).1 = (s.packetTimeOffset packet).1 := by
  unfold packetTimeOffset
  rw [hstart, hrtcp]
  cases s.recordingStartReceivedAt with
  | none => rfl
  | some base =>
    cases packet.rtcpTime with
    | none => rfl
    | some rtcpTime => cases s.recordingRtcpTimeOffset <;> rfl

theorem audioStartOffsetSamples_packetTimeOffset (s : FFmpegMuxSink) (packet : MuxPacket) :
    (s.packetTimeOffset packet).2.audioStartOffsetSamples = s.audioStartOffsetSamples ∧
      (s.packetTimeOffset packet).2.audioBaseTimestamp = s.audioBaseTimestamp := by
  unfold packetTimeOffset
  cases s.recordingStartReceivedAt with
  | none => exact ⟨rfl, rfl⟩
  | some base =>
    cases packet.rtcpTime with
    | none => exact ⟨rfl, rfl⟩
    | some rtcpTime => cases s.recordingRtcpTimeOffset <;> exact ⟨rfl, rfl⟩

/-- **Where a packet is placed**, and the timeline after that. -/
theorem audioOffset_cases (s : FFmpegMuxSink) (packet : MuxPacket) :
    ((packet.pcm = [] ∨ (s.audioTimestampDelta packet.timestamp).1 = none) ∧
      (s.audioOffset packet).1 = none ∧
      (s.audioOffset packet).2.audioStartOffsetSamples = s.audioStartOffsetSamples ∧
      (s.audioOffset packet).2.audioBaseTimestamp = s.audioBaseTimestamp) ∨
    ∃ timestampDelta start, packet.pcm ≠ [] ∧
      (s.audioTimestampDelta packet.timestamp).1 = some timestampDelta ∧
      startOffsetSamples s.audioStartOffsetSamples timestampDelta (s.packetTimeOffset packet).1 =
        start ∧
      (s.audioOffset packet).1 = some ((start + timestampDelta) * CHANNELS * SAMPLE_WIDTH) ∧
      (s.audioOffset packet).2.audioStartOffsetSamples = some start ∧
      (s.audioOffset packet).2.audioBaseTimestamp =
        some (s.audioBaseTimestamp.getD packet.timestamp) := by
  -- the file and the base timestamp do not matter for the clock
  have hclock (file : Option Bytes) (base : Option UInt32) :
      ({ s with audioFile := file, audioBaseTimestamp := base }.packetTimeOffset packet).1 =
        (s.packetTimeOffset packet).1 := packetTimeOffset_congr rfl rfl
  unfold audioOffset
  cases hpcm : packet.pcm with
  | nil => exact .inl ⟨.inl rfl, rfl, rfl, rfl⟩
  | cons b pcm =>
    simp only [List.isEmpty_cons, Bool.false_eq_true, if_false]
    unfold audioTimestampDelta
    cases hbase : s.audioBaseTimestamp with
    | none =>
      refine .inr ⟨0, _, by simp, rfl, rfl, ?_, ?_, ?_⟩
      · simp only [audioStartOffsetSamples_packetTimeOffset, hclock]
      · simp only [audioStartOffsetSamples_packetTimeOffset, hclock]
      · simp only [audioStartOffsetSamples_packetTimeOffset, Option.getD_none]
    | some base =>
      dsimp only
      cases hdelta : rtpTimestampDelta packet.timestamp base with
      | none => exact .inl ⟨.inr rfl, rfl, rfl, rfl⟩
      | some timestampDelta =>
        refine .inr ⟨timestampDelta, _, by simp, rfl, rfl, ?_, ?_, ?_⟩
        · simp only [audioStartOffsetSamples_packetTimeOffset, hclock]
        · simp only [audioStartOffsetSamples_packetTimeOffset, hclock]
        · simp only [audioStartOffsetSamples_packetTimeOffset, Option.getD_some]

/-! ## Packets that are recorded -/

/-- Whole samples can be mixed with what is in the file. -/
theorem exists_mixed (file : Bytes) (start : ℕ) {pcm : Bytes} (heven : pcm.length % 2 = 0) :
    ∃ mixed, pcm16Add ((file.drop start).take pcm.length ++
      List.replicate (pcm.length - ((file.drop start).take pcm.length).length) 0) pcm =
        .ok mixed := by
  have hlength : ((file.drop start).take pcm.length ++
      List.replicate (pcm.length - ((file.drop start).take pcm.length).length) 0).length =
        pcm.length := by
    rw [List.length_append, List.length_replicate, List.length_take]
    omega
  unfold pcm16Add
  rw [hlength, if_neg (by omega), if_neg (by omega), if_neg (by omega)]
  exact ⟨_, rfl⟩

/-- A write raises nothing but for a seek to before the beginning, or a broken sample. -/
theorem writeAudioPacket_eq_ok
    (hoffset : ∀ start, (s.audioOffset packet).1 = some start → 0 ≤ start)
    (heven : packet.pcm.length % 2 = 0) : (s.writeAudioPacket packet).1 = .ok () := by
  unfold writeAudioPacket
  generalize s.audioOffset packet = placed at hoffset
  obtain ⟨start, s⟩ := placed
  cases start with
  | none => rfl
  | some start =>
    dsimp only
    rw [if_neg (by have := hoffset start rfl; omega)]
    by_cases hinside : start < (s.audioFile.getD []).length
    · obtain ⟨mixed, hmixed⟩ := exists_mixed (s.audioFile.getD []) start.toNat heven
      rw [if_pos hinside, hmixed]
    · rw [if_neg hinside]

/-- **A packet is recorded** unless the timeline puts it before the beginning of the file and is
kept. -/
theorem recorded_iff (s : FFmpegMuxSink) (packet : MuxPacket) :
    Recorded s packet ↔ InFile s packet := by
  have hclock := packetTimeOffset_nonneg s packet
  rcases audioOffset_cases s packet with ⟨hnone, hoffset, -⟩ |
    ⟨timestampDelta, start, hpcm, hdelta, hstart, hoffset, -⟩
  · refine iff_of_true ⟨?_, writeAudioPacket_eq_ok ?_⟩ ?_
    · intro start hsome
      rw [hoffset] at hsome
      cases hsome
    · intro start hsome
      rw [hoffset] at hsome
      cases hsome
    · intro hpcm start _ timestampDelta hdelta
      rw [hnone.resolve_left hpcm] at hdelta
      cases hdelta
  · have hposition := startOffsetSamples_nonneg_iff s.audioStartOffsetSamples
      timestampDelta hclock
    rw [hstart] at hposition
    have hin : InFile s packet ↔ 0 ≤ start + timestampDelta := by
      rw [hposition]
      constructor
      · intro h start' hstart'
        exact h hpcm start' hstart' timestampDelta hdelta
      · intro h _ start' hstart' delta hdelta'
        obtain rfl : timestampDelta = delta := Option.some.inj (hdelta.symm.trans hdelta')
        exact h start' hstart'
    have hbytes : (start + timestampDelta) * CHANNELS * SAMPLE_WIDTH =
        4 * (start + timestampDelta) := by
      simp only [CHANNELS, SAMPLE_WIDTH]
      push_cast
      ring
    rw [hin]
    constructor
    · intro h
      have := (h.offset _ hoffset).1
      omega
    · intro h
      have hall : ∀ start', (s.audioOffset packet).1 = some start' → 0 ≤ start' ∧ 4 ∣ start' := by
        intro start' hsome
        rw [hoffset, hbytes] at hsome
        obtain rfl := Option.some.inj hsome
        exact ⟨by omega, dvd_mul_right 4 _⟩
      exact ⟨hall, writeAudioPacket_eq_ok fun start' hsome => (hall start' hsome).1⟩

/-! ## Runs -/

theorem run_concat (packets : List MuxWrite) (packet : MuxWrite) :
    run (packets ++ [packet]) = ((run packets).write packet).2 := by
  rw [run, List.foldl_append]
  rfl

/-- The timeline after a packet does not depend on whether the write raises. -/
theorem audioStartOffsetSamples_writeAudioPacket (s : FFmpegMuxSink) (packet : MuxPacket) :
    (s.writeAudioPacket packet).2.audioStartOffsetSamples =
        (s.audioOffset packet).2.audioStartOffsetSamples ∧
      (s.writeAudioPacket packet).2.audioBaseTimestamp =
        (s.audioOffset packet).2.audioBaseTimestamp := by
  unfold writeAudioPacket
  generalize s.audioOffset packet = placed
  obtain ⟨start, s⟩ := placed
  cases start with
  | none => exact ⟨rfl, rfl⟩
  | some start =>
    dsimp only
    split
    · exact ⟨rfl, rfl⟩
    · split <;> exact ⟨rfl, rfl⟩

theorem audioStartOffsetSamples_video (s : FFmpegMuxSink) (packet : MuxPacket) (written : Bool) :
    (s.write (.video packet written)).2.audioStartOffsetSamples = s.audioStartOffsetSamples ∧
      (s.write (.video packet written)).2.audioBaseTimestamp = s.audioBaseTimestamp := by
  cases written with
  | false => exact ⟨rfl, rfl⟩
  | true => exact audioStartOffsetSamples_packetTimeOffset s packet

/-- The timeline starts with the first packet that counts. -/
theorem base_of_start {packets : List MuxWrite} (h : (run packets).audioStartOffsetSamples = none) :
    (run packets).audioBaseTimestamp = none := by
  induction packets using List.reverseRecOn with
  | nil => rfl
  | append_singleton packets packet ih =>
    rw [run_concat] at h ⊢
    cases packet with
    | video packet written =>
      obtain ⟨hstart, hbase⟩ := audioStartOffsetSamples_video (run packets) packet written
      rw [hbase]
      rw [hstart] at h
      exact ih h
    | audio packet =>
      obtain ⟨hstart, hbase⟩ := audioStartOffsetSamples_writeAudioPacket (run packets) packet
      rw [write, hstart] at h
      rw [write, hbase]
      rcases audioOffset_cases (run packets) packet with ⟨-, -, hstart', hbase'⟩ |
        ⟨timestampDelta, start, -, -, -, -, hstart', -⟩
      · rw [hbase']
        rw [hstart'] at h
        exact ih h
      · rw [hstart'] at h
        cases h

/-- A packet has set the start of the timeline, such that the packet itself is at its time. -/
def SetBy (packets : List MuxWrite) (start : ℤ) : Prop :=
  ∃ before packet after timestampDelta, packets = before ++ .audio packet :: after ∧
    packet.pcm ≠ [] ∧
    ((run before).audioTimestampDelta packet.timestamp).1 = some timestampDelta ∧
    start = pyRound (((run before).packetTimeOffset packet).1 * SAMPLING_RATE) - timestampDelta

theorem SetBy.concat {packets : List MuxWrite} {start : ℤ} (h : SetBy packets start)
    (packet : MuxWrite) : SetBy (packets ++ [packet]) start := by
  obtain ⟨before, anchor, after, timestampDelta, hsplit, hanchor⟩ := h
  exact ⟨before, anchor, after ++ [packet], timestampDelta, by rw [hsplit]; simp, hanchor⟩

/-- **The timeline was set by some packet** of the run. -/
theorem setBy_run {packets : List MuxWrite} {start : ℤ}
    (h : (run packets).audioStartOffsetSamples = some start) : SetBy packets start := by
  induction packets using List.reverseRecOn generalizing start with
  | nil => cases h
  | append_singleton packets packet ih =>
    rw [run_concat] at h
    cases packet with
    | video packet written =>
      rw [(audioStartOffsetSamples_video (run packets) packet written).1] at h
      exact (ih h).concat _
    | audio packet =>
      rw [write, (audioStartOffsetSamples_writeAudioPacket (run packets) packet).1] at h
      rcases audioOffset_cases (run packets) packet with ⟨-, -, hstart', -⟩ |
        ⟨timestampDelta, start', hpcm, hdelta, hstart, -, hstart', -⟩
      · rw [hstart'] at h
        exact (ih h).concat _
      · rw [hstart'] at h
        obtain rfl := Option.some.inj h
        cases hold : (run packets).audioStartOffsetSamples with
        | none =>
          -- the first packet is its own base
          have hbase := base_of_start hold
          have hzero : timestampDelta = 0 := by
            rw [audioTimestampDelta, hbase] at hdelta
            exact (Option.some.inj hdelta).symm
          refine ⟨packets, packet, [], timestampDelta, rfl, hpcm, hdelta, ?_⟩
          rw [← hstart, hold, hzero]
          simp [startOffsetSamples]
        | some old =>
          rw [hold] at hstart
          unfold startOffsetSamples at hstart
          dsimp only at hstart
          split at hstart
          · exact ⟨packets, packet, [], timestampDelta, rfl, hpcm, hdelta, hstart.symm⟩
          · rw [hstart] at hold
            exact (ih hold).concat _

/-- **All audio packets of a run are recorded** just where none of them is put before the beginning
of the file by a timeline that is kept. -/
theorem recording_iff (packets : List MuxWrite) :
    (∀ before packet after, packets = before ++ .audio packet :: after →
        Recorded (run before) packet) ↔
      ∀ before packet after, packets = before ++ .audio packet :: after →
        InFile (run before) packet := by
  constructor
  · intro h before packet after hsplit
    exact (recorded_iff _ _).1 (h before packet after hsplit)
  · intro h before packet after hsplit
    exact (recorded_iff _ _).2 (h before packet after hsplit)

/-- **Packets in the order of their RTP timestamps** are recorded, wherever the timeline is set
anew. -/
theorem recorded_of_inOrder {packets : List MuxWrite}
    (horder : ∀ before p between q after,
      packets = before ++ .audio p :: (between ++ .audio q :: after) →
        ∀ d ∈ ((run before).audioTimestampDelta p.timestamp).1,
        ∀ d' ∈ ((run (before ++ .audio p :: between)).audioTimestampDelta q.timestamp).1, d ≤ d')
    {before after : List MuxWrite} {packet : MuxPacket}
    (hsplit : packets = before ++ .audio packet :: after) : Recorded (run before) packet := by
  refine (recorded_iff _ _).2 fun _ start hstart timestampDelta hdelta hneg => ?_
  obtain ⟨first, anchor, between, anchorDelta, rfl, -, hanchor, rfl⟩ := setBy_run hstart
  have hle : anchorDelta ≤ timestampDelta := by
    refine horder first anchor between packet after ?_ anchorDelta hanchor timestampDelta hdelta
    rw [hsplit, List.append_assoc, List.cons_append]
  have hround : 0 ≤ pyRound (((run first).packetTimeOffset anchor).1 * SAMPLING_RATE) :=
    pyRound_nonneg (mul_nonneg (packetTimeOffset_nonneg _ _) (Nat.cast_nonneg _))
  omega

/-- A packet of one sample. -/
def sample (timestamp : UInt32) (receivedAt : ℚ) : MuxPacket :=
  { timestamp, pcm := [0, 0, 0, 0], rtcpTime := none, receivedAt }

/-- A second packet whose timestamp is a second ahead, and one that is 40 ms behind that. -/
def lateSample : List MuxWrite :=
  [.audio (sample 0 0), .audio (sample 48000 (1 / 50)), .audio (sample 46080 (3 / 100))]

/-- The second packet sets the timeline to begin a second before the file, and then the third one is
sought before the beginning of the file. -/
theorem not_recording :
    ((run (lateSample.take 2)).writeAudioPacket (sample 46080 (3 / 100))).1 =
      .error (.invalidSeek (-3840)) ∧
    ¬ ∀ before packet after, lateSample = before ++ .audio packet :: after →
      Recorded (run before) packet := by
  have hseek : ((run (lateSample.take 2)).writeAudioPacket (sample 46080 (3 / 100))).1 =
      .error (.invalidSeek (-3840)) := by decide +kernel
  refine ⟨hseek, fun h => ?_⟩
  have hwrite := (h (lateSample.take 2) (sample 46080 (3 / 100)) [] rfl).write rfl
  rw [hseek] at hwrite
  cases hwrite

end FFmpegMuxSink

end NativeVoice.Media
