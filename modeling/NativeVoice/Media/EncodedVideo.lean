import NativeVoice.Lib.LittleEndian
import NativeVoice.Media.ConfigKeyframes
import NativeVoice.Media.Files
import NativeVoice.Media.MixedWaveSink

/-!
# Recordings of encoded video

`EncodedVideoSink` of `src/discord/ext/native_voice/media.py`, which writes the frames of VP8, VP9
and AV1 to an IVF file, each behind its size and its timestamp, and those of H264 and H265 as they
are. The number of the frames is written into the header when the sink is closed.

* `Recording.writeAll`: the file that is written, a record for each frame.
* `ivfTimestamps_eq`: the timestamps are counted from the first one, and are numbers of frames where
  that is further back than half of the range.
* `ivf_timestamps_iff`: they advance as the RTP timestamps do, if and only if the recording does not
  get that long.
-/

namespace NativeVoice.Media

open Lib

/-- The codecs of a recording. -/
inductive SinkCodec
  | h26x (codec : NalCodec)
  | vp8
  | vp9
  | av1
  deriving DecidableEq

/-- `_IVF_FOURCC`: `VP80`, `VP90` and `AV01`. -/
def SinkCodec.ivfFourcc : SinkCodec → Option Bytes
  | h26x _ => none
  | vp8 => some [0x56, 0x50, 0x38, 0x30]
  | vp9 => some [0x56, 0x50, 0x39, 0x30]
  | av1 => some [0x41, 0x56, 0x30, 0x31]

/-- `DKIF`. -/
def DKIF : Bytes := [0x44, 0x4B, 0x49, 0x46]

inductive VideoSinkError
  | valueError (message : String)
  | structError
  deriving DecidableEq

/-- A number in a little-endian `struct.pack`, which raises unless it fits. -/
def structPack (width : ℕ) (n : ℤ) : Except VideoSinkError Bytes :=
  if 0 ≤ n ∧ n.toNat < 256 ^ width then .ok (LittleEndian.encode width n.toNat)
    else .error .structError

def RTP_CLOCK_RATE : ℕ := 90000

/-- What the sink reads of a video packet. -/
structure VideoPacket where
  timestamp : UInt32
  payload : Bytes

structure EncodedVideoSink where
  codec : SinkCodec
  rtpTimestamps : Bool
  file : BinaryFile
  baseTimestamp : Option UInt32 := none
  frames : ℕ := 0
  h26xStarted : Bool
  closed : Bool := false

/-- `struct.pack('<4sHH4sHHIIII', …)`: the header of an IVF file. -/
def ivfHeader (fourcc : Bytes) (width height timebaseDenominator : ℤ) :
    Except VideoSinkError Bytes := do
  let version ← structPack 2 0
  let headerSize ← structPack 2 32
  let width ← structPack 2 width
  let height ← structPack 2 height
  let denominator ← structPack 4 timebaseDenominator
  let numerator ← structPack 4 1
  let frameCount ← structPack 4 0
  let unused ← structPack 4 0
  return DKIF ++ version ++ headerSize ++ fourcc ++ width ++ height ++
    denominator ++ numerator ++ frameCount ++ unused

namespace EncodedVideoSink

/-- The constructor, with a file that is new. -/
def new (codec : SinkCodec) (width height fps : ℤ) (rtpTimestamps : Bool) :
    Except VideoSinkError EncodedVideoSink :=
  match codec.ivfFourcc with
  | none => .ok { codec, rtpTimestamps, file := {}, h26xStarted := false }
  | some fourcc =>
    if width ≤ 0 ∨ height ≤ 0 then
      .error (.valueError "width and height are required for IVF video sinks")
    else do
      let timebaseDenominator := if rtpTimestamps then (RTP_CLOCK_RATE : ℤ) else max 1 fps
      let header ← ivfHeader fourcc width height timebaseDenominator
      return { codec, rtpTimestamps, file := BinaryFile.write {} header, h26xStarted := true }

def ivfTimestamp (s : EncodedVideoSink) (timestamp : UInt32) : ℕ × EncodedVideoSink :=
  if !s.rtpTimestamps then (s.frames, s)
  else match s.baseTimestamp with
  | none => (0, { s with baseTimestamp := some timestamp })
  | some base => match rtpTimestampDelta timestamp base with
    | none => (s.frames, s)
    | some delta => (delta, s)

/-- `struct.pack('<IQ', …)`: the header of a frame. -/
def frameHeader (size timestamp : ℕ) : Except VideoSinkError Bytes := do
  let size ← structPack 4 size
  let timestamp ← structPack 8 timestamp
  return size ++ timestamp

/-- What `write` does for a codec of IVF files. -/
def writeIvf (s : EncodedVideoSink) (packet : VideoPacket) :
    Except VideoSinkError Bool × EncodedVideoSink :=
  let (timestamp, s) := s.ivfTimestamp packet.timestamp
  match frameHeader packet.payload.length timestamp with
  | .error e => (.error e, s)
  | .ok header =>
    (.ok true, { s with
      file := (s.file.write header).write packet.payload, frames := s.frames + 1 })

def write (s : EncodedVideoSink) (packet : VideoPacket) :
    Except VideoSinkError Bool × EncodedVideoSink :=
  if s.closed then (.ok false, s)
  else match s.codec with
  | .h26x codec =>
    let (accepted, started) := shouldWriteH26x codec s.h26xStarted packet.payload
    let s := { s with h26xStarted := started }
    if accepted then
      (.ok true, { s with file := s.file.write packet.payload, frames := s.frames + 1 })
    else (.ok false, s)
  | _ => s.writeIvf packet

/-- `cleanup`, of a file that can be sought in. -/
def cleanup (s : EncodedVideoSink) : Except VideoSinkError Unit × EncodedVideoSink :=
  if s.closed then (.ok (), s)
  else
    let s := { s with closed := true }
    match s.codec with
    | .h26x _ => (.ok (), s)
    | _ => match structPack 4 s.frames with
      | .error e => (.error e, { s with file := s.file.seek 24 })
      | .ok count =>
        (.ok (), { s with file := ((s.file.seek 24).write count).seek s.file.position })

/-- The sink after some packets. -/
def writeAll (s : EncodedVideoSink) (packets : List VideoPacket) : EncodedVideoSink :=
  packets.foldl (fun s packet => (s.write packet).2) s

/-- All of the packets are written. -/
def AllWritten : EncodedVideoSink → List VideoPacket → Prop
  | _, [] => True
  | s, packet :: packets => (s.write packet).1 = .ok true ∧ (s.write packet).2.AllWritten packets

/-- The timestamps of the packets that are written, which is when they are computed. -/
def ivfTimestamps : EncodedVideoSink → List VideoPacket → List ℕ
  | _, [] => []
  | s, packet :: packets =>
    (s.ivfTimestamp packet.timestamp).1 :: (s.write packet).2.ivfTimestamps packets

/-! ## What is written -/

/-- A frame in an IVF file. -/
def ivfRecord (timestamp : ℕ) (payload : Bytes) : Bytes :=
  LittleEndian.encode 4 payload.length ++ LittleEndian.encode 8 timestamp ++ payload

theorem structPack_of_lt {width n : ℕ} (h : n < 256 ^ width) :
    structPack width n = .ok (LittleEndian.encode width n) := by
  rw [structPack, if_pos ⟨Int.natCast_nonneg n, h⟩, Int.toNat_natCast]

theorem structPack_of_le {width n : ℕ} (h : 256 ^ width ≤ n) :
    structPack width n = .error .structError := by
  rw [structPack, if_neg]
  rintro ⟨-, hlt⟩
  exact absurd h (Nat.not_le.2 hlt)

theorem frameHeader_eq_ok {size timestamp : ℕ} {header : Bytes} :
    frameHeader size timestamp = .ok header ↔ size < 2 ^ 32 ∧ timestamp < 2 ^ 64 ∧
      header = LittleEndian.encode 4 size ++ LittleEndian.encode 8 timestamp := by
  unfold frameHeader
  by_cases hsize : size < 2 ^ 32
  · rw [structPack_of_lt (by omega)]
    by_cases htimestamp : timestamp < 2 ^ 64
    · rw [structPack_of_lt (by omega)]
      simp only [hsize, htimestamp, true_and]
      exact ⟨fun h => (Except.ok.inj h).symm, fun h => h ▸ rfl⟩
    · rw [structPack_of_le (by omega)]
      exact iff_of_false (fun h => by cases h) fun h => htimestamp h.2.1
  · rw [structPack_of_le (by omega)]
    exact iff_of_false (fun h => by cases h) fun h => hsize h.1

theorem structPack_eq_error {width : ℕ} {n : ℤ} {e : VideoSinkError}
    (h : structPack width n = .error e) : e = .structError := by
  unfold structPack at h
  split at h
  · cases h
  · exact (Except.error.inj h).symm

theorem frameHeader_eq_error {size timestamp : ℕ} {e : VideoSinkError}
    (h : frameHeader size timestamp = .error e) : e = .structError := by
  unfold frameHeader at h
  cases hsize : structPack 4 (size : ℤ) with
  | error e' =>
    rw [hsize] at h
    exact (Except.error.inj h) ▸ structPack_eq_error hsize
  | ok sizeBytes =>
    rw [hsize] at h
    cases htimestamp : structPack 8 (timestamp : ℤ) with
    | error e' =>
      rw [htimestamp] at h
      exact (Except.error.inj h) ▸ structPack_eq_error htimestamp
    | ok timestampBytes =>
      rw [htimestamp] at h
      cases h

/-- A sink of an IVF file that is open, at the end of it. -/
structure Recording (s : EncodedVideoSink) : Prop where
  codec : s.codec.ivfFourcc ≠ none
  closed : s.closed = false
  position : s.file.position = s.file.contents.length

variable {s : EncodedVideoSink} {packet : VideoPacket} {packets : List VideoPacket}

theorem ivfTimestamp_frame (s : EncodedVideoSink) (timestamp : UInt32) :
    ∃ base, (s.ivfTimestamp timestamp).2 = { s with baseTimestamp := base } := by
  unfold ivfTimestamp
  split
  · exact ⟨s.baseTimestamp, rfl⟩
  · split
    · exact ⟨some timestamp, rfl⟩
    · split <;> exact ⟨s.baseTimestamp, rfl⟩

theorem Recording.write_eq (h : Recording s) (packet : VideoPacket) :
    s.write packet = s.writeIvf packet := by
  have hcodec := h.codec
  unfold EncodedVideoSink.write
  rw [if_neg (by simp [h.closed])]
  cases hc : s.codec with
  | h26x codec =>
    rw [hc] at hcodec
    exact absurd rfl hcodec
  | vp8 => rfl
  | vp9 => rfl
  | av1 => rfl

theorem writeIvf_of_error {e : VideoSinkError}
    (h : frameHeader packet.payload.length (s.ivfTimestamp packet.timestamp).1 = .error e) :
    s.writeIvf packet = (.error e, (s.ivfTimestamp packet.timestamp).2) := by
  simp only [writeIvf, h]

theorem writeIvf_of_ok {header : Bytes}
    (h : frameHeader packet.payload.length (s.ivfTimestamp packet.timestamp).1 = .ok header) :
    s.writeIvf packet = (.ok true, { (s.ivfTimestamp packet.timestamp).2 with
      file := ((s.ivfTimestamp packet.timestamp).2.file.write header).write packet.payload
      frames := (s.ivfTimestamp packet.timestamp).2.frames + 1 }) := by
  simp only [writeIvf, h]

/-- **What a write does** to a recording. -/
theorem Recording.write_cases (h : Recording s) (packet : VideoPacket) :
    (s.write packet).1 = .ok true ∧ packet.payload.length < 2 ^ 32 ∧
        (s.ivfTimestamp packet.timestamp).1 < 2 ^ 64 ∧ Recording (s.write packet).2 ∧
        (s.write packet).2.file.contents = s.file.contents ++
          ivfRecord (s.ivfTimestamp packet.timestamp).1 packet.payload ∧
        (s.write packet).2.frames = s.frames + 1 ∧
        (s.write packet).2.rtpTimestamps = s.rtpTimestamps ∧
        (s.write packet).2.baseTimestamp = (s.ivfTimestamp packet.timestamp).2.baseTimestamp ∨
      (s.write packet).1 = .error .structError ∧
        ¬ (packet.payload.length < 2 ^ 32 ∧ (s.ivfTimestamp packet.timestamp).1 < 2 ^ 64) := by
  obtain ⟨base, hframe⟩ := ivfTimestamp_frame s packet.timestamp
  rw [h.write_eq packet]
  cases hheader : frameHeader packet.payload.length (s.ivfTimestamp packet.timestamp).1 with
  | error e =>
    right
    have hunfit : ¬ (packet.payload.length < 2 ^ 32 ∧
        (s.ivfTimestamp packet.timestamp).1 < 2 ^ 64) := by
      rintro ⟨hsize, htimestamp⟩
      rw [frameHeader_eq_ok.2 ⟨hsize, htimestamp, rfl⟩] at hheader
      cases hheader
    rw [writeIvf_of_error hheader, frameHeader_eq_error hheader]
    exact ⟨rfl, hunfit⟩
  | ok header =>
    left
    obtain ⟨hsize, htimestamp, rfl⟩ := frameHeader_eq_ok.1 hheader
    have hcontents : ((s.file.write (LittleEndian.encode 4 packet.payload.length ++
        LittleEndian.encode 8 (s.ivfTimestamp packet.timestamp).1)).write packet.payload).contents =
          s.file.contents ++ ivfRecord (s.ivfTimestamp packet.timestamp).1 packet.payload := by
      simp only [BinaryFile.write, h.position]
      rw [writeAt_length, ← List.length_append, writeAt_length, ivfRecord, List.append_assoc]
    rw [writeIvf_of_ok hheader, hframe]
    refine ⟨rfl, hsize, htimestamp, ⟨h.codec, h.closed, ?_⟩, hcontents, rfl, rfl, rfl⟩
    dsimp only
    rw [hcontents]
    simp only [BinaryFile.write, ivfRecord, h.position, List.length_append]
    omega

/-- The records of some packets that have these timestamps. -/
def ivfRecords (timestamps : List ℕ) (packets : List VideoPacket) : Bytes :=
  (List.zipWith (fun timestamp packet => ivfRecord timestamp packet.payload)
    timestamps packets).flatten

/-- **The file** after packets that are all written. -/
theorem Recording.writeAll (h : Recording s) (hall : s.AllWritten packets) :
    Recording (s.writeAll packets) ∧
      (s.writeAll packets).file.contents =
        s.file.contents ++ ivfRecords (s.ivfTimestamps packets) packets ∧
      (s.writeAll packets).frames = s.frames + packets.length := by
  induction packets generalizing s with
  | nil => exact ⟨h, (List.append_nil _).symm, rfl⟩
  | cons packet packets ih =>
    obtain ⟨hok, hall⟩ := hall
    rcases h.write_cases packet with ⟨-, -, -, hrec, hcontents, hframes, -, -⟩ | ⟨herror, -⟩
    · obtain ⟨hrec', hcontents', hframes'⟩ := ih hrec hall
      refine ⟨hrec', ?_, ?_⟩
      · calc ((s.write packet).2.writeAll packets).file.contents
            = (s.write packet).2.file.contents ++
                ivfRecords ((s.write packet).2.ivfTimestamps packets) packets := hcontents'
          _ = s.file.contents ++ (ivfRecord (s.ivfTimestamp packet.timestamp).1 packet.payload ++
                ivfRecords ((s.write packet).2.ivfTimestamps packets) packets) := by
              rw [hcontents, List.append_assoc]
          _ = s.file.contents ++
                ivfRecords (s.ivfTimestamps (packet :: packets)) (packet :: packets) := rfl
      · calc ((s.write packet).2.writeAll packets).frames
            = (s.write packet).2.frames + packets.length := hframes'
          _ = s.frames + (packet :: packets).length := by
              rw [hframes, List.length_cons]
              omega
    · rw [herror] at hok
      cases hok

/-! ## Timestamps -/

/-- The timestamps behind the first packet: the distance from it, or the number of the frame. -/
theorem ivfTimestamps_based {base : UInt32} (h : Recording s) (hrtp : s.rtpTimestamps = true)
    (hbase : s.baseTimestamp = some base) (hall : s.AllWritten packets) :
    s.ivfTimestamps packets = packets.mapIdx fun k packet =>
      (rtpTimestampDelta packet.timestamp base).getD (s.frames + k) := by
  induction packets generalizing s with
  | nil => rfl
  | cons packet packets ih =>
    obtain ⟨hok, hall⟩ := hall
    have hstamp : s.ivfTimestamp packet.timestamp =
        ((rtpTimestampDelta packet.timestamp base).getD s.frames, s) := by
      rw [ivfTimestamp, if_neg (by simp [hrtp]), hbase]
      dsimp only
      cases rtpTimestampDelta packet.timestamp base <;> rfl
    rcases h.write_cases packet with ⟨-, -, -, hrec, -, hframes, hrtp', hbase'⟩ | ⟨herror, -⟩
    · rw [hrtp] at hrtp'
      rw [hstamp, hbase] at hbase'
      rw [ivfTimestamps, ih hrec hrtp' hbase' hall, hframes, List.mapIdx_cons, hstamp]
      simp only [Nat.add_zero, Nat.add_assoc, Nat.add_comm 1]
    · rw [herror] at hok
      cases hok

/-- The timestamp of a packet. -/
def timestampAt (packets : List VideoPacket) (k : ℕ) : UInt32 :=
  (packets.map VideoPacket.timestamp).getD k 0

/-- **The timestamps of a recording** that is new: the distance from the first packet, or the number
of the frame. -/
theorem ivfTimestamps_eq (h : Recording s) (hrtp : s.rtpTimestamps = true)
    (hbase : s.baseTimestamp = none) (hframes : s.frames = 0) (hall : s.AllWritten packets) :
    s.ivfTimestamps packets = packets.mapIdx fun k packet =>
      (rtpTimestampDelta packet.timestamp (timestampAt packets 0)).getD k := by
  cases packets with
  | nil => rfl
  | cons packet packets =>
    obtain ⟨hok, hall⟩ := hall
    have hstamp : s.ivfTimestamp packet.timestamp =
        (0, { s with baseTimestamp := some packet.timestamp }) := by
      rw [ivfTimestamp, if_neg (by simp [hrtp]), hbase]
    have hzero : rtpTimestampDelta packet.timestamp packet.timestamp = some 0 := by
      simp [rtpTimestampDelta, RTP_TIMESTAMP_HALF_RANGE]
    rcases h.write_cases packet with ⟨-, -, -, hrec, -, hframes', hrtp', hbase'⟩ | ⟨herror, -⟩
    · rw [hrtp] at hrtp'
      rw [hstamp] at hbase'
      rw [hframes, Nat.zero_add] at hframes'
      have hfirst : timestampAt (packet :: packets) 0 = packet.timestamp := rfl
      rw [ivfTimestamps, ivfTimestamps_based hrec hrtp' hbase' hall, hframes', List.mapIdx_cons,
        hstamp, hfirst, hzero]
      simp only [Option.getD_some, Nat.add_comm 1]
    · rw [herror] at hok
      cases hok

/-- How far the RTP timestamp advances behind a packet. -/
def advance (packets : List VideoPacket) (k : ℕ) : ℕ :=
  (timestampAt packets (k + 1) - timestampAt packets k).toNat

/-- How far it has advanced before a packet, however often it has wrapped. -/
def totalAdvance (packets : List VideoPacket) : ℕ → ℕ
  | 0 => 0
  | k + 1 => totalAdvance packets k + advance packets k

theorem timestampAt_sub (packets : List VideoPacket) (k : ℕ) :
    (timestampAt packets k - timestampAt packets 0).toNat = totalAdvance packets k % 2 ^ 32 := by
  induction k with
  | zero => rw [sub_self]; rfl
  | succ k ih =>
    calc (timestampAt packets (k + 1) - timestampAt packets 0).toNat
        = (timestampAt packets (k + 1) - timestampAt packets k +
            (timestampAt packets k - timestampAt packets 0)).toNat := by
          rw [sub_add_sub_cancel]
      _ = (advance packets k + totalAdvance packets k % 2 ^ 32) % 2 ^ 32 := by
          rw [UInt32.toNat_add, ih]
          rfl
      _ = totalAdvance packets (k + 1) % 2 ^ 32 := by
          rw [Nat.add_mod_mod, Nat.add_comm]
          rfl

/-- The timestamps never go back, and advance by what the RTP timestamps advance by. -/
def AdvanceAsSent (timestamps : List ℕ) (packets : List VideoPacket) : Prop :=
  timestamps.length = packets.length ∧ ∀ k < packets.length - 1,
    timestamps.getD k 0 ≤ timestamps.getD (k + 1) 0 ∧
      timestamps.getD (k + 1) 0 - timestamps.getD k 0 = advance packets k

instance (timestamps : List ℕ) (packets : List VideoPacket) :
    Decidable (AdvanceAsSent timestamps packets) :=
  inferInstanceAs (Decidable (_ ∧ ∀ k < packets.length - 1, _))

/-- Timestamps that start at zero advance as the RTP timestamps do, if and only if each is how far
these have advanced. -/
theorem advanceAsSent_iff {timestamps : List ℕ} (hlen : timestamps.length = packets.length)
    (hzero : timestamps.getD 0 0 = 0) : AdvanceAsSent timestamps packets ↔
      ∀ k < packets.length, timestamps.getD k 0 = totalAdvance packets k := by
  constructor
  · rintro ⟨-, h⟩ k hk
    induction k with
    | zero => exact hzero
    | succ k ih =>
      obtain ⟨hle, hsub⟩ := h k (by omega)
      have hbefore := ih (by omega)
      rw [totalAdvance]
      omega
  · intro h
    refine ⟨hlen, fun k hk => ?_⟩
    have hbefore := h k (by omega)
    have hafter := h (k + 1) (by omega)
    rw [totalAdvance] at hafter
    omega

/-- The recording does not get longer than half of the range of an RTP timestamp, or the number of
the frame happens to be right there. -/
def WithinHalfRange (packets : List VideoPacket) : Prop :=
  ∀ k < packets.length, totalAdvance packets k < 2 ^ 31 ∨
    2 ^ 31 ≤ totalAdvance packets k % 2 ^ 32 ∧ totalAdvance packets k = k

instance (packets : List VideoPacket) : Decidable (WithinHalfRange packets) :=
  inferInstanceAs (Decidable (∀ k < packets.length, _))

theorem getD_delta_eq_iff (packets : List VideoPacket) (k : ℕ) :
    (rtpTimestampDelta (timestampAt packets k) (timestampAt packets 0)).getD k =
        totalAdvance packets k ↔
      totalAdvance packets k < 2 ^ 31 ∨
        2 ^ 31 ≤ totalAdvance packets k % 2 ^ 32 ∧ totalAdvance packets k = k := by
  unfold rtpTimestampDelta
  dsimp only
  rw [timestampAt_sub, RTP_TIMESTAMP_HALF_RANGE]
  split
  · rw [Option.getD_none]
    omega
  · rw [Option.getD_some]
    omega

/-- A new sink of an IVF file is a recording. -/
theorem new_recording {codec : SinkCodec} {width height fps : ℤ} {rtpTimestamps : Bool}
    (hcodec : codec.ivfFourcc ≠ none) (h : new codec width height fps rtpTimestamps = .ok s) :
    ∃ header, s = { codec, rtpTimestamps, file := ⟨header, header.length⟩, h26xStarted := true } ∧
      ivfHeader (codec.ivfFourcc.getD []) width height
        (if rtpTimestamps then (RTP_CLOCK_RATE : ℤ) else max 1 fps) = .ok header := by
  unfold new at h
  cases hfourcc : codec.ivfFourcc with
  | none => exact absurd hfourcc hcodec
  | some fourcc =>
    simp only [hfourcc] at h
    split at h
    · cases h
    · rw [Option.getD_some]
      generalize hheader : ivfHeader fourcc width height
        (if rtpTimestamps then (RTP_CLOCK_RATE : ℤ) else max 1 fps) = result at h ⊢
      cases result with
      | error e => cases h
      | ok header =>
        refine ⟨header, ?_, rfl⟩
        rw [← Except.ok.inj h]
        simp [BinaryFile.write, writeAt]

/-- **The timestamps in an IVF file advance as the RTP timestamps do**, if and only if the recording
stays within half of their range. -/
theorem ivf_timestamps_iff {codec : SinkCodec} {width height fps : ℤ}
    (hcodec : codec.ivfFourcc ≠ none) (hnew : new codec width height fps true = .ok s)
    (hall : s.AllWritten packets) :
    (s.writeAll packets).file.contents =
        s.file.contents ++ ivfRecords (s.ivfTimestamps packets) packets ∧
      (AdvanceAsSent (s.ivfTimestamps packets) packets ↔ WithinHalfRange packets) := by
  obtain ⟨header, rfl, -⟩ := new_recording hcodec hnew
  set s : EncodedVideoSink :=
    { codec, rtpTimestamps := true, file := ⟨header, header.length⟩, h26xStarted := true }
  have hrec : Recording s := ⟨hcodec, rfl, rfl⟩
  refine ⟨(hrec.writeAll hall).2.1, ?_⟩
  rw [ivfTimestamps_eq hrec rfl rfl rfl hall]
  have hat (k : ℕ) (hk : k < packets.length) : (packets.mapIdx fun k packet =>
      (rtpTimestampDelta packet.timestamp (timestampAt packets 0)).getD k).getD k 0 =
        (rtpTimestampDelta (timestampAt packets k) (timestampAt packets 0)).getD k := by
    have htimestamp : timestampAt packets k = packets[k].timestamp := by
      simp [timestampAt, List.getD_eq_getElem?_getD, hk]
    simp [List.getD_eq_getElem?_getD, hk, htimestamp]
  have hzero : (packets.mapIdx fun k packet =>
      (rtpTimestampDelta packet.timestamp (timestampAt packets 0)).getD k).getD 0 0 = 0 := by
    cases packets with
    | nil => rfl
    | cons packet packets =>
      rw [hat 0 (Nat.zero_lt_succ _), (getD_delta_eq_iff _ 0).2 (.inl (by simp [totalAdvance]))]
      rfl
  rw [advanceAsSent_iff (List.length_mapIdx ..) hzero]
  exact forall₂_congr fun k hk => by rw [hat k hk, getD_delta_eq_iff]


/-- A new recording of VP8 in 640×480. -/
def newRecording : EncodedVideoSink where
  codec := .vp8
  rtpTimestamps := true
  file := ⟨DKIF ++ [0, 0, 32, 0, 0x56, 0x50, 0x38, 0x30, 128, 2, 224, 1, 144, 95, 1, 0, 1, 0, 0, 0,
    0, 0, 0, 0, 0, 0, 0, 0], 32⟩
  h26xStarted := true

theorem new_newRecording : new .vp8 640 480 30 true = .ok newRecording := by
  rfl

/-- A frame that comes back within the range, and three that get past half of it. -/
def shortRecording : List VideoPacket := [⟨2 ^ 32 - 3000, [1]⟩, ⟨0, [2, 3]⟩]
def longRecording : List VideoPacket := [⟨0, [1]⟩, ⟨2 ^ 31 - 1, [2]⟩, ⟨2 ^ 31, [3]⟩]

theorem ivf_timestamps_iff_short :
    (newRecording.writeAll shortRecording).file.contents = newRecording.file.contents ++
        ivfRecords (newRecording.ivfTimestamps shortRecording) shortRecording ∧
      (AdvanceAsSent (newRecording.ivfTimestamps shortRecording) shortRecording ↔
        WithinHalfRange shortRecording) :=
  ivf_timestamps_iff (by decide) new_newRecording ⟨rfl, rfl, trivial⟩

/-- The third frame is behind the half, and gets its number as the timestamp. -/
theorem long_timestamps_go_back : ¬ ∀ (codec : SinkCodec) (width height fps : ℤ)
    (s : EncodedVideoSink) (packets : List VideoPacket), codec.ivfFourcc ≠ none →
      new codec width height fps true = .ok s → s.AllWritten packets →
      (∀ k < packets.length - 1, advance packets k < 2 ^ 31) →
        AdvanceAsSent (s.ivfTimestamps packets) packets := by
  intro h
  have hlong := h .vp8 640 480 30 newRecording longRecording (by decide) new_newRecording
    ⟨rfl, rfl, rfl, trivial⟩ (by decide)
  exact absurd hlong (by decide)

end EncodedVideoSink

end NativeVoice.Media
