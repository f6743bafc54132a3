import Mathlib.Data.List.Infix
import NativeVoice.Rust

/-!
# Access units of Annex B streams

`_AnnexBFrameReader` of `src/discord/ext/native_voice/media.py`, which cuts a byte stream at its
access unit delimiters. The chunks that `stream.read` gives are a list; the stream ends with the
list, or with an empty chunk.
-/

namespace NativeVoice.Media

/-- The codecs of such streams. -/
inductive NalCodec
  | h264
  | h265
  deriving DecidableEq

/-- The NAL unit type of an access unit delimiter. -/
def NalCodec.audType : NalCodec → UInt8
  | h264 => 9
  | h265 => 35

/-- `bytearray.find(pattern, cursor)`. -/
def find (pattern buffer : Bytes) (cursor : ℕ) : Option ℕ :=
  (List.range' cursor (buffer.length - cursor)).find? fun i => pattern.isPrefixOf (buffer.drop i)

/-- `_nal_type`, of the NAL unit behind the start code that ends at `offset`. -/
def nalType (codec : NalCodec) (buffer : Bytes) (offset : ℕ) : Option UInt8 :=
  match codec, buffer.drop offset with
  | .h264, header :: _ => some (header &&& 0x1F)
  | .h265, header :: _ :: _ => some (header >>> 1 &&& 0x3F)
  | _, _ => none

/-- `_find_start_code`: where it is and how long. -/
def findStartCode (buffer : Bytes) (cursor : ℕ) : Option (ℕ × ℕ) :=
  if cursor ≥ buffer.length then none
  else match find [0, 0, 1] buffer cursor, find [0, 0, 0, 1] buffer cursor with
    | none, none => none
    | none, some four => some (four, 4)
    | some three, none => some (three, 3)
    | some three, some four => if four ≤ three then some (four, 4) else some (three, 3)

structure AnnexBFrameReader where
  codec : NalCodec
  buffer : Bytes := []
  searchPos : ℕ := 0
  audPositions : List ℕ := []
  deriving DecidableEq

theorem le_of_find {pattern buffer : Bytes} {cursor i : ℕ}
    (h : find pattern buffer cursor = some i) : cursor ≤ i ∧ i < buffer.length := by
  have hmem := List.mem_of_find?_eq_some h
  rw [List.mem_range'_1] at hmem
  omega

theorem le_of_findStartCode {buffer : Bytes} {cursor start length : ℕ}
    (h : findStartCode buffer cursor = some (start, length)) :
    cursor ≤ start ∧ start < buffer.length ∧ 3 ≤ length := by
  unfold findStartCode at h
  split at h
  · cases h
  split at h
  · cases h
  · rename_i hfour
    cases h
    have := le_of_find hfour
    omega
  · rename_i hthree _
    cases h
    have := le_of_find hthree
    omega
  · rename_i hthree hfour
    have := le_of_find hthree
    have := le_of_find hfour
    split at h <;> cases h <;> omega

namespace AnnexBFrameReader

/-- `_scan_for_auds`. -/
def scanForAuds (d : AnnexBFrameReader) : AnnexBFrameReader :=
  if d.audPositions.length < 2 then
    match _h : findStartCode d.buffer d.searchPos with
    | none => { d with searchPos := d.buffer.length - 4 }
    | some (start, length) =>
      scanForAuds { d with
        searchPos := start + length
        audPositions :=
          if nalType d.codec d.buffer (start + length) = some d.codec.audType ∧
              d.audPositions.getLast? ≠ some start
          then d.audPositions ++ [start] else d.audPositions }
  else d
termination_by d.buffer.length - d.searchPos
decreasing_by
  have := le_of_findStartCode _h
  omega

/-- `_extract_frame`. -/
def extractFrame (d : AnnexBFrameReader) : Option Bytes × AnnexBFrameReader :=
  let d := d.scanForAuds
  match d.audPositions with
  | [] =>
    if d.buffer.length > 2 * 1024 * 1024 then
      let trim := d.buffer.length - 1024
      (none, { d with buffer := d.buffer.drop trim, searchPos := d.searchPos - trim })
    else (none, d)
  | first :: rest =>
    if first > 0 then
      (none, { d with
        buffer := d.buffer.drop first
        audPositions := (first :: rest).map (· - first)
        searchPos := d.searchPos - first })
    else match rest with
      | [] => (none, d)
      | frameEnd :: _ =>
        (some (d.buffer.take frameEnd), { d with
          buffer := d.buffer.drop frameEnd
          audPositions := rest.map (· - frameEnd)
          searchPos := d.searchPos - frameEnd })

/-- What `read_frame` returns at the end of the stream. -/
def finish (d : AnnexBFrameReader) : Bytes × AnnexBFrameReader :=
  (d.buffer, { d with buffer := [] })

/-- `read_frame`, with the chunks that are still to be read. -/
def readFrame (d : AnnexBFrameReader) (stream : List Bytes) :
    Bytes × AnnexBFrameReader × List Bytes :=
  match d.extractFrame with
  | (frame, d) =>
    if frame.getD [] ≠ [] then (frame.getD [], d, stream)
    else match stream with
      | [] => (d.finish.1, d.finish.2, [])
      | chunk :: stream =>
        if chunk = [] then (d.finish.1, d.finish.2, stream)
        else readFrame { d with buffer := d.buffer ++ chunk } stream

/-- What `n` calls of `read_frame` return. -/
def readFrames : ℕ → AnnexBFrameReader → List Bytes → List Bytes
  | 0, _, _ => []
  | n + 1, d, stream =>
    let (frame, d, stream) := d.readFrame stream
    frame :: readFrames n d stream

end AnnexBFrameReader

end NativeVoice.Media
