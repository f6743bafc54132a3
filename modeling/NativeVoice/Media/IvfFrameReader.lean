import NativeVoice.Lib.ShortReads
import NativeVoice.Media.EncodedVideo

/-!
# Reading IVF files

`_IVFFrameReader` of `src/discord/ext/native_voice/media.py`, which reads the frames of an IVF file
from a stream that may give less than it is asked for.

* `readFrame_record`, `readFrame_end`: what a frame is read as, and the end of the file.
* `recording_cleanup`: the number of frames is written into the header.
* `ivf_round_trip`: the frames of a recording are read back, then nothing.
-/

namespace NativeVoice.Media

open Lib
open EncodedVideoSink (ivfRecord ivfRecords)

/-- What the reader raises. -/
structure RuntimeError where
  message : String
  deriving DecidableEq

structure IVFFrameReader where
  stream : ShortReads.Stream UInt8

namespace IVFFrameReader

def new (stream : ShortReads.Stream UInt8) : Except RuntimeError IVFFrameReader :=
  let (header, stream) := stream.readExact 32
  if header.length ≠ 32 ∨ header.take 4 ≠ DKIF then
    .error ⟨"FFmpeg did not produce an IVF stream"⟩
  else .ok { stream }

def readFrame (r : IVFFrameReader) : Except RuntimeError Bytes × IVFFrameReader :=
  let (frameHeader, stream) := r.stream.readExact 12
  if frameHeader.isEmpty then (.ok [], { stream })
  else if frameHeader.length ≠ 12 then (.error ⟨"truncated IVF frame header"⟩, { stream })
  else
    let frameSize := LittleEndian.value (frameHeader.take 4)
    let (frame, stream) := stream.readExact frameSize
    if frame.length ≠ frameSize then (.error ⟨"truncated IVF frame payload"⟩, { stream })
    else (.ok frame, { stream })

/-- Some frames, one after the other. -/
def readFrames : ℕ → IVFFrameReader → List (Except RuntimeError Bytes)
  | 0, _ => []
  | n + 1, r => r.readFrame.1 :: readFrames n r.readFrame.2

variable {r : IVFFrameReader}

/-- **A frame is read** from the front of the stream. -/
theorem readFrame_record {timestamp : ℕ} {payload rest : Bytes} (hsize : payload.length < 2 ^ 32)
    (h : r.stream.left = ivfRecord timestamp payload ++ rest) :
    r.readFrame.1 = .ok payload ∧ r.readFrame.2.stream.left = rest := by
  rw [ivfRecord, List.append_assoc] at h
  obtain ⟨stream, hheader, hleft⟩ := ShortReads.Stream.readExact_append h
  obtain ⟨stream', hframe, hleft'⟩ := ShortReads.Stream.readExact_append hleft
  have hlen : (LittleEndian.encode 4 payload.length ++
      LittleEndian.encode 8 timestamp).length = 12 := by
    rw [List.length_append, LittleEndian.length_encode, LittleEndian.length_encode]
  have hvalue : LittleEndian.value ((LittleEndian.encode 4 payload.length ++
      LittleEndian.encode 8 timestamp).take 4) = payload.length := by
    rw [List.take_left' (LittleEndian.length_encode 4 _), LittleEndian.value_encode (by omega)]
  rw [hlen] at hheader
  have hread : r.readFrame = (.ok payload, { stream := stream' }) := by
    rw [readFrame, hheader]
    dsimp only
    rw [if_neg (by rw [List.isEmpty_iff_length_eq_zero, hlen]; decide),
      if_neg (not_not.2 hlen), hvalue, hframe]
    exact if_neg (not_not.2 rfl)
  rw [hread]
  exact ⟨rfl, hleft'⟩

theorem readFrame_end (h : r.stream.left = []) :
    r.readFrame.1 = .ok [] ∧ r.readFrame.2.stream.left = [] := by
  obtain ⟨stream, hheader, hleft⟩ := ShortReads.Stream.readExact_nil h 12
  have hread : r.readFrame = (.ok [], { stream }) := by
    rw [readFrame, hheader]
    rfl
  rw [hread]
  exact ⟨rfl, hleft⟩

theorem readFrames_end (h : r.stream.left = []) (k : ℕ) :
    readFrames k r = List.replicate k (.ok []) := by
  induction k generalizing r with
  | zero => rfl
  | succ k ih =>
    obtain ⟨hnil, hleft⟩ := readFrame_end h
    rw [readFrames, hnil, ih hleft, List.replicate_succ]

/-- **The frames of a file**, and nothing behind them. -/
theorem readFrames_records {timestamps : List ℕ} {packets : List VideoPacket}
    (hlen : timestamps.length = packets.length)
    (hsizes : ∀ packet ∈ packets, packet.payload.length < 2 ^ 32)
    (h : r.stream.left = ivfRecords timestamps packets) (k : ℕ) :
    readFrames (packets.length + k) r =
      packets.map (fun packet => .ok packet.payload) ++ List.replicate k (.ok []) := by
  induction packets generalizing timestamps r with
  | nil =>
    have hend : r.stream.left = [] := by
      rw [h, ivfRecords, List.zipWith_nil_right, List.flatten_nil]
    rw [List.length_nil, Nat.zero_add, readFrames_end hend, List.map_nil, List.nil_append]
  | cons packet packets ih =>
    obtain ⟨timestamp, timestamps, rfl⟩ := List.exists_cons_of_length_pos
      (by rw [hlen]; exact Nat.zero_lt_succ _ : 0 < timestamps.length)
    rw [ivfRecords, List.zipWith_cons_cons, List.flatten_cons] at h
    obtain ⟨hframe, hleft⟩ := readFrame_record (hsizes packet (by simp)) h
    have hrest := ih (Nat.succ.inj hlen) (fun p hp => hsizes p (List.mem_cons_of_mem _ hp)) hleft
    rw [List.length_cons, Nat.succ_add, readFrames, hframe, hrest, List.map_cons, List.cons_append]

end IVFFrameReader

/-! ## The header -/

variable {codec : SinkCodec} {width height denominator : ℤ} {fourcc header : Bytes}
  {s : EncodedVideoSink} {packets : List VideoPacket}

/-- A number that is packed in front of a rest. -/
theorem structPack_bind {size : ℕ} {n : ℤ} {α : Type} {rest : Bytes → Except VideoSinkError α}
    {result : α} (h : (structPack size n >>= rest) = .ok result) :
    ∃ bytes, bytes.length = size ∧ rest bytes = .ok result := by
  unfold structPack at h
  split at h
  · exact ⟨_, LittleEndian.length_encode .., h⟩
  · cases h

theorem length_ivfFourcc (h : codec.ivfFourcc = some fourcc) : fourcc.length = 4 := by
  cases codec with
  | h26x codec => cases h
  | vp8 => rw [← Option.some.inj h]; rfl
  | vp9 => rw [← Option.some.inj h]; rfl
  | av1 => rw [← Option.some.inj h]; rfl

/-- The parts of a header around the number of the frames. -/
theorem ivfHeader_parts (hfourcc : fourcc.length = 4)
    (h : ivfHeader fourcc width height denominator = .ok header) :
    ∃ front count back, header = DKIF ++ front ++ count ++ back ∧
      (DKIF ++ front).length = 24 ∧ count.length = 4 ∧ back.length = 4 := by
  unfold ivfHeader at h
  obtain ⟨version, hversion, h⟩ := structPack_bind h
  obtain ⟨headerSize, hheaderSize, h⟩ := structPack_bind h
  obtain ⟨widthBytes, hwidth, h⟩ := structPack_bind h
  obtain ⟨heightBytes, hheight, h⟩ := structPack_bind h
  obtain ⟨denominatorBytes, hdenominator, h⟩ := structPack_bind h
  obtain ⟨numerator, hnumerator, h⟩ := structPack_bind h
  obtain ⟨frameCount, hframeCount, h⟩ := structPack_bind h
  obtain ⟨unused, hunused, h⟩ := structPack_bind h
  refine ⟨version ++ headerSize ++ fourcc ++ widthBytes ++ heightBytes ++ denominatorBytes ++
    numerator, frameCount, unused, ?_, ?_, hframeCount, hunused⟩
  · rw [← Except.ok.inj h]
    simp only [List.append_assoc]
  · have hmagic : DKIF.length = 4 := rfl
    simp only [List.length_append]
    omega

/-- **A recording that is closed**: the number of its frames is written over the one in the header,
and everything else stays as it is. -/
theorem recording_cleanup {front count back : Bytes} (h : s.Recording)
    (hcontents : s.file.contents = front ++ count ++ back) (hfront : front.length = 24)
    (hcount : count.length = 4) (hframes : s.frames < 2 ^ 32) :
    s.cleanup = (.ok (), { s with
      closed := true
      file := ⟨front ++ LittleEndian.encode 4 s.frames ++ back, s.file.position⟩ }) := by
  have hcodec := h.codec
  have hpack : structPack 4 s.frames = .ok (LittleEndian.encode 4 s.frames) :=
    EncodedVideoSink.structPack_of_lt (by omega)
  have hpatched : ((s.file.seek 24).write (LittleEndian.encode 4 s.frames)).seek s.file.position =
      ⟨front ++ LittleEndian.encode 4 s.frames ++ back, s.file.position⟩ := by
    simp only [BinaryFile.write, BinaryFile.seek, hcontents]
    rw [← hfront, writeAt_append _ _ _ _ (by rw [LittleEndian.length_encode, hcount])]
  rw [← hpatched]
  unfold EncodedVideoSink.cleanup
  rw [if_neg (by simp [h.closed])]
  cases hc : s.codec with
  | h26x codec =>
    rw [hc] at hcodec
    exact absurd rfl hcodec
  | vp8 => simp only [hpack]
  | vp9 => simp only [hpack]
  | av1 => simp only [hpack]

/-! ## Round trips -/

namespace EncodedVideoSink

theorem ivfTimestamp_lt (s : EncodedVideoSink) (timestamp : UInt32) :
    (s.ivfTimestamp timestamp).1 = s.frames ∨ (s.ivfTimestamp timestamp).1 < 2 ^ 31 := by
  unfold ivfTimestamp
  split
  · exact .inl rfl
  · split
    · exact .inr (by norm_num)
    · rename_i base _
      cases hdelta : rtpTimestampDelta timestamp base with
      | none => exact .inl rfl
      | some delta =>
        unfold rtpTimestampDelta at hdelta
        dsimp only at hdelta
        split at hdelta
        · cases hdelta
        · rename_i hlt
          rw [← Option.some.inj hdelta]
          exact .inr (Nat.not_le.1 hlt)

/-- **Frames that fit are all written**, and each has a timestamp. -/
theorem Recording.allWritten (h : s.Recording)
    (hsizes : ∀ packet ∈ packets, packet.payload.length < 2 ^ 32)
    (hframes : s.frames + packets.length < 2 ^ 64) :
    s.AllWritten packets ∧ (s.ivfTimestamps packets).length = packets.length := by
  induction packets generalizing s with
  | nil => exact ⟨trivial, rfl⟩
  | cons packet packets ih =>
    rw [List.length_cons] at hframes
    have hsize := hsizes packet (by simp)
    have hstamp : (s.ivfTimestamp packet.timestamp).1 < 2 ^ 64 := by
      rcases s.ivfTimestamp_lt packet.timestamp with heq | hlt <;> omega
    rcases h.write_cases packet with ⟨hok, -, -, hrec, -, hframes', -, -⟩ | ⟨-, hunfit⟩
    · obtain ⟨hall, hlen⟩ := ih hrec (fun p hp => hsizes p (List.mem_cons_of_mem _ hp)) (by omega)
      exact ⟨⟨hok, hall⟩, by rw [ivfTimestamps, List.length_cons, hlen, List.length_cons]⟩
    · exact absurd ⟨hsize, hstamp⟩ hunfit

end EncodedVideoSink

/-- **What is recorded in an IVF file is read back**: all frames are written, their number is in the
header of the file that is closed, and a reader gives the payloads in order and then nothing,
however short the reads of its stream are. -/
theorem ivf_round_trip {fps : ℤ} {rtpTimestamps : Bool} (hcodec : codec.ivfFourcc ≠ none)
    (hnew : EncodedVideoSink.new codec width height fps rtpTimestamps = .ok s)
    (packets : List VideoPacket) (hcount : packets.length < 2 ^ 32)
    (hsizes : ∀ packet ∈ packets, packet.payload.length < 2 ^ 32) (choice : ℕ → ℕ) :
    s.AllWritten packets ∧ ∃ closed, (s.writeAll packets).cleanup = (.ok (), closed) ∧
      LittleEndian.value ((closed.file.contents.drop 24).take 4) = packets.length ∧
      ∃ reader, IVFFrameReader.new ⟨closed.file.contents, choice, 0⟩ = .ok reader ∧
        ∀ k, reader.readFrames (packets.length + k) =
          packets.map (fun packet => .ok packet.payload) ++ List.replicate k (.ok []) := by
  obtain ⟨header, hs, hheader⟩ := EncodedVideoSink.new_recording hcodec hnew
  obtain ⟨fourcc, hfourcc⟩ := Option.ne_none_iff_exists'.1 hcodec
  rw [hfourcc, Option.getD_some] at hheader
  obtain ⟨front, count, back, hparts, hfront, hcountLength, hback⟩ :=
    ivfHeader_parts (length_ivfFourcc hfourcc) hheader
  have hrec : s.Recording := by
    rw [hs]
    exact ⟨hcodec, rfl, rfl⟩
  have hcontents : s.file.contents = header := by rw [hs]
  have hzero : s.frames = 0 := by rw [hs]
  obtain ⟨hall, hlen⟩ := hrec.allWritten hsizes (by omega)
  obtain ⟨hrec', hcontents', hframes⟩ := hrec.writeAll hall
  rw [hzero, Nat.zero_add] at hframes
  rw [hcontents, hparts, List.append_assoc _ back] at hcontents'
  have hcleanup := recording_cleanup hrec' hcontents' hfront hcountLength (by omega)
  rw [hframes] at hcleanup
  refine ⟨hall, _, hcleanup, ?_, ?_⟩
  · dsimp only
    rw [List.append_assoc, List.drop_left' hfront, List.take_left' (LittleEndian.length_encode 4 _),
      LittleEndian.value_encode (by omega)]
  · have hsplit : (DKIF ++ front) ++ LittleEndian.encode 4 packets.length ++
        (back ++ ivfRecords (s.ivfTimestamps packets) packets) =
          (DKIF ++ front ++ LittleEndian.encode 4 packets.length ++ back) ++
            ivfRecords (s.ivfTimestamps packets) packets := by
      rw [List.append_assoc _ back]
    have hlength : (DKIF ++ front ++ LittleEndian.encode 4 packets.length ++ back).length = 32 := by
      rw [List.length_append, List.length_append, hfront, LittleEndian.length_encode, hback]
    obtain ⟨stream, hread, hleft⟩ := ShortReads.Stream.readExact_append
      (s := ⟨_, choice, 0⟩) hsplit
    rw [hlength] at hread
    refine ⟨⟨stream⟩, ?_, fun k => IVFFrameReader.readFrames_records hlen hsizes hleft k⟩
    rw [IVFFrameReader.new, hread]
    dsimp only
    rw [if_neg]
    rintro (hne | hne)
    · exact hne hlength
    · exact hne rfl

/-- With reads of up to five bytes. -/
theorem ivf_round_trip_short : EncodedVideoSink.newRecording.AllWritten
      EncodedVideoSink.shortRecording ∧
    ∃ closed, (EncodedVideoSink.newRecording.writeAll EncodedVideoSink.shortRecording).cleanup =
        (.ok (), closed) ∧
      LittleEndian.value ((closed.file.contents.drop 24).take 4) = 2 ∧
      ∃ reader, IVFFrameReader.new ⟨closed.file.contents, fun _ => 5, 0⟩ = .ok reader ∧
        ∀ k, reader.readFrames (2 + k) = [.ok [1], .ok [2, 3]] ++ List.replicate k (.ok []) :=
  ivf_round_trip (by decide) EncodedVideoSink.new_newRecording EncodedVideoSink.shortRecording
    (by decide) (by decide) fun _ => 5

end NativeVoice.Media
