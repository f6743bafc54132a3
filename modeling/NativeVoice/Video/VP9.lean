import NativeVoice.Lib.Chunks
import NativeVoice.Video.Stream

/-!
# VP9

The payload format of `src/src/video/vp9.rs`, and what the packetizer reads from the uncompressed
header of a frame.
-/

namespace NativeVoice.Video

open Lib.Chunks

/-! ## Depacketizer -/

/-- The loop over the reference descriptors of a scalability structure, `frames` of them. -/
def skipVp9Pictures (payload : Bytes) : ℕ → ℕ → Fallible PacketError ℕ
  | 0, offset => .ok offset
  | frames + 1, offset => do
    if offset ≥ payload.length then
      throw (.err .invalidPayload)
    let frameDescriptor ← index payload offset
    let references := ((frameDescriptor >>> 2) &&& 0x03).toNat
    let offset := offset + (1 + references)
    if offset > payload.length then
      throw (.err .invalidPayload)
    skipVp9Pictures payload frames offset

def skipVp9ScalabilityStructure (payload : Bytes) (offset : ℕ) : Fallible PacketError ℕ := do
  if offset ≥ payload.length then
    throw (.err .invalidPayload)
  let descriptor ← index payload offset
  let spatialLayers := (descriptor >>> 5).toNat + 1
  let hasResolution := descriptor &&& 0x10 != 0
  let hasGof := descriptor &&& 0x08 != 0
  let mut offset := offset + 1
  if hasResolution then
    let bytes := spatialLayers * 4
    if offset + bytes > payload.length then
      throw (.err .invalidPayload)
    offset := offset + bytes
  if hasGof then
    if offset ≥ payload.length then
      throw (.err .invalidPayload)
    let frames ← index payload offset
    offset ← skipVp9Pictures payload frames.toNat (offset + 1)
  return offset

abbrev VP9Depacketizer := DepacketizerState

namespace VP9Depacketizer

def new : VP9Depacketizer := {}

/-- The loop over the `P_DIFF` bytes of the flexible mode. -/
def skipPdiffs (payload : Bytes) (offset : ℕ) : Fallible PacketError ℕ :=
  if h : offset < payload.length then
    if payload[offset] &&& 0x01 = 0 then .ok (offset + 1) else skipPdiffs payload (offset + 1)
  else .error (.err .invalidPayload)
termination_by payload.length - offset

/-- The length of the payload descriptor and its start-of-frame and end-of-frame bits. -/
def payloadOffset (payload : Bytes) : Fallible PacketError (ℕ × Bool × Bool) := do
  if payload.isEmpty then
    throw (.err .invalidPayload)
  let descriptor ← index payload 0
  let hasPictureId := descriptor &&& 0x80 != 0
  let predicted := descriptor &&& 0x40 != 0
  let hasLayerIndices := descriptor &&& 0x20 != 0
  let flexible := descriptor &&& 0x10 != 0
  let start := descriptor &&& 0x08 != 0
  let ends := descriptor &&& 0x04 != 0
  let hasScalabilityStructure := descriptor &&& 0x02 != 0
  let mut offset := 1
  if hasPictureId then
    if offset ≥ payload.length then
      throw (.err .invalidPayload)
    let pictureId ← index payload offset
    offset := offset + if pictureId &&& 0x80 != 0 then 2 else 1
  if hasLayerIndices then
    offset := offset + 1
    if !flexible then
      offset := offset + 1
  if flexible && predicted then
    offset ← skipPdiffs payload offset
  if hasScalabilityStructure then
    offset ← skipVp9ScalabilityStructure payload offset
  if offset > payload.length then
    throw (.err .invalidPayload)
  return (offset, start, ends)

def pushPacket (d : VP9Depacketizer) (payload : Bytes) (marker : Bool) (sequence : UInt16)
    (timestamp : UInt32) : Fallible PacketError (Option Bytes) × VP9Depacketizer :=
  match payloadOffset payload with
  | .error e => (.error e, d)
  | .ok (offset, start, ends) =>
    let d := d.beginPacket sequence timestamp
    if d.isDiscarding then d.finishIf (marker || ends)
    else if !start && d.frame.isEmpty then d.discardFrame.finishIf (marker || ends)
    else match sliceFrom payload offset with
      | .error e => (.error e, d)
      | .ok data => { d with frame := d.frame ++ data }.finishIf (marker || ends)

end VP9Depacketizer

/-! ## The uncompressed header -/

structure BitReader where
  data : Bytes
  offset : ℕ

namespace BitReader

def readBit (r : BitReader) : Option UInt8 × BitReader :=
  match r.data[r.offset / 8]? with
  | none => (none, r)
  | some byte =>
    let shift := 7 - r.offset % 8
    (some ((byte >>> UInt8.ofNat shift) &&& 1), { r with offset := r.offset + 1 })

/-- The loop of `read_bits`, with the value read so far. -/
def readBitsFrom (r : BitReader) (value : UInt32) : ℕ → Option UInt32 × BitReader
  | 0 => (some value, r)
  | count + 1 =>
    match r.readBit with
    | (none, r) => (none, r)
    | (some bit, r) => r.readBitsFrom ((value <<< 1) ||| bit.toUInt32) count

def readBits (r : BitReader) (count : ℕ) : Option UInt32 × BitReader := r.readBitsFrom 0 count

end BitReader

/-- `reader.read_bit().is_some()`, once for each of `count` reserved bits and stopping at the first
that is missing. -/
def skipBits (reader : BitReader) : ℕ → Bool × BitReader
  | 0 => (true, reader)
  | count + 1 =>
    match reader.readBit with
    | (none, reader) => (false, reader)
    | (some _, reader) => skipBits reader count

def skipVp9ColorConfig (reader : BitReader) (profile : UInt8) : Bool × BitReader :=
  let (bitDepth, reader) := if profile ≥ 2 then skipBits reader 1 else (true, reader)
  if !bitDepth then (false, reader)
  else match reader.readBits 3 with
    | (none, reader) => (false, reader)
    | (some colorSpace, reader) =>
      if colorSpace = 7 then
        if profile = 1 || profile = 3 then skipBits reader 2 else (true, reader)
      else match skipBits reader 1 with
        | (false, reader) => (false, reader)
        | (true, reader) =>
          if profile = 1 || profile = 3 then skipBits reader 3 else (true, reader)

structure VP9FrameInfo where
  predicted : Bool
  resolution : Option (UInt16 × UInt16)
  deriving DecidableEq

/-! ## Packetizer -/

structure VP9Packetizer (ρ : Type) where
  state : PacketizerState ρ
  deriving DecidableEq

namespace VP9Packetizer

/-- `reader.read_bits(16).and_then(|value| u16::try_from(value.checked_add(1)?).ok())`. -/
def readDimension (reader : BitReader) : Option UInt16 × BitReader :=
  match reader.readBits 16 with
  | (none, reader) => (none, reader)
  | (some value, reader) =>
    (if value.toNat + 1 < 2 ^ 16 then some (UInt16.ofNat (value.toNat + 1)) else none, reader)

/-- What `frame_info` does once the profile is known. -/
def frameInfoOfProfile (reader : BitReader) (profile : UInt8) : VP9FrameInfo :=
  let (reserved, reader) := if profile = 3 then skipBits reader 1 else (true, reader)
  if !reserved then { predicted := false, resolution := none }
  else match reader.readBit with
    | (none, _) => { predicted := false, resolution := none }
    | (some showExistingFrame, reader) =>
      if showExistingFrame ≠ 0 then { predicted := true, resolution := none }
      else
        let (frameType, reader) := reader.readBit
        let predicted := frameType = some 1
        if predicted then { predicted := predicted, resolution := none }
        else
          let (_showFrame, reader) := reader.readBit
          let (_errorResilient, reader) := reader.readBit
          let (syncCode, reader) := reader.readBits 24
          if syncCode ≠ some 0x498342 then { predicted := predicted, resolution := none }
          else match skipVp9ColorConfig reader profile with
            | (false, _) => { predicted := predicted, resolution := none }
            | (true, reader) =>
              let (width, reader) := readDimension reader
              let (height, _) := readDimension reader
              { predicted := predicted
                resolution := width.bind fun w => height.map fun h => (w, h) }

def frameInfo (frame : Bytes) : VP9FrameInfo :=
  let reader : BitReader := { data := frame, offset := 0 }
  match reader.readBits 2 with
  | (none, _) => { predicted := false, resolution := none }
  | (some _frameMarker, reader) =>
    match reader.readBit with
    | (none, _) => { predicted := false, resolution := none }
    | (some profileLow, reader) =>
      match reader.readBit with
      | (none, _) => { predicted := false, resolution := none }
      | (some profileHigh, reader) =>
        frameInfoOfProfile reader (profileLow ||| (profileHigh <<< 1))

def makePayload (chunk : Bytes) (first last : Bool) (info : VP9FrameInfo) (includeSs : Bool) :
    Bytes :=
  ((if info.predicted then 0x40 else 0) ||| (if first then 0x08 else 0) |||
    (if last then 0x04 else 0) ||| (if includeSs then 0x02 else 0)) ::
  (match info.resolution.filter fun _ => includeSs with
    | some (width, height) =>
      0x18 :: (u16BeBytes width ++ u16BeBytes height ++ [1, 0x14, 1])
    | none => []) ++
  chunk

variable {τ ρ : Type} (clock : TickClock τ ρ)

def new (ssrc : UInt32) (payloadType : UInt8) (sequence : UInt16) (timestamp : UInt32) :
    VP9Packetizer ρ where
  state := .new clock ssrc payloadType sequence timestamp

def packetizeWithInfo (p : VP9Packetizer ρ) (frame : Bytes) (info : VP9FrameInfo)
    (frameTimeMs : τ) : Fallible PacketError (List MediaPacket) × VP9Packetizer ρ :=
  if frame.isEmpty then (.error (.err .emptyFrame), p)
  else
    let ssLen := if info.resolution.isSome then 8 else 0
    let maxChunk := p.state.mtu - (1 + ssLen)
    if maxChunk = 0 then (.error (.err .payloadTooLarge), p)
    else
      let chunkCount := (frame.length + maxChunk - 1) / maxChunk
      let payloads := (chunksOf maxChunk frame).mapIdx fun index chunk =>
        let first := decide (index = 0)
        let last := decide (index + 1 = chunkCount)
        (makePayload chunk first last info (first && info.resolution.isSome), last)
      let (packets, state) := p.state.packetsForPayloads payloads
      (.ok packets, { state := state.incrementTimestamp clock frameTimeMs })

def packetizeWithMetadataFrame (p : VP9Packetizer ρ) (frame metadataFrame : Bytes)
    (frameTimeMs : τ) : Fallible PacketError (List MediaPacket) × VP9Packetizer ρ :=
  p.packetizeWithInfo clock frame (frameInfo metadataFrame) frameTimeMs

def packetize (p : VP9Packetizer ρ) (frame : Bytes) (frameTimeMs : τ) :
    Fallible PacketError (List MediaPacket) × VP9Packetizer ρ :=
  p.packetizeWithInfo clock frame (frameInfo frame) frameTimeMs

end VP9Packetizer

/-! ## Fragments -/

namespace VP9Depacketizer

/-- What a payload carries behind its descriptor. -/
def format : PayloadFormat where
  opens payload := match payloadOffset payload with
    | .ok (_, start, _) => start
    | .error _ => false
  body payload := match payloadOffset payload with
    | .ok (offset, _, _) => payload.drop offset
    | .error _ => []
  ends payload := match payloadOffset payload with
    | .ok (_, _, ends) => ends
    | .error _ => false

/-- The payloads whose descriptor is read and lies within the payload. -/
def Readable (payload : Bytes) : Prop :=
  ∃ offset start ends, payloadOffset payload = .ok (offset, start, ends) ∧ offset ≤ payload.length

theorem receives : format.Receives pushPacket Readable := by
  refine PayloadFormat.receives_of_accept fun d payload marker sequence timestamp hp => ?_
  obtain ⟨offset, start, ends, hoff, hle⟩ := hp
  simp [pushPacket, DepacketizerState.accept, format, hoff, sliceFrom_of_le hle]

end VP9Depacketizer

namespace VP9Packetizer

open VP9Depacketizer

variable {τ ρ : Type} (clock : TickClock τ ρ)

/-- The descriptor byte of `make_payload`. -/
def descriptorByte (predicted first last includeSs : Bool) : UInt8 :=
  (if predicted then 0x40 else 0) ||| (if first then 0x08 else 0) |||
    (if last then 0x04 else 0) ||| (if includeSs then 0x02 else 0)

/-- The scalability structure of `make_payload`. -/
def scalabilityStructure (width height : UInt16) : Bytes :=
  0x18 :: (u16BeBytes width ++ u16BeBytes height ++ [1, 0x14, 1])

theorem skip_scalabilityStructure (descriptor : UInt8) (width height : UInt16) (chunk : Bytes) :
    skipVp9ScalabilityStructure (descriptor :: (scalabilityStructure width height ++ chunk)) 1 =
      .ok 9 := by
  have hres : ¬ (0x18 : UInt8) &&& 0x10 = 0 := by decide
  have hgof : ¬ (0x18 : UInt8) &&& 0x08 = 0 := by decide
  simp [skipVp9ScalabilityStructure, scalabilityStructure, u16BeBytes, index, skipVp9Pictures, hres,
    hgof]
  repeat rw [if_neg (by omega)]

/-- The offset behind a descriptor without picture id, layer indices and reference indices. -/
theorem payloadOffset_descriptorByte (predicted first last includeSs : Bool) (rest : Bytes) :
    payloadOffset (descriptorByte predicted first last includeSs :: rest) = do
      let offset ← if includeSs then
          skipVp9ScalabilityStructure (descriptorByte predicted first last includeSs :: rest) 1
        else .ok 1
      if offset > rest.length + 1 then
        throw (.err .invalidPayload)
      return (offset, first, last) := by
  have hbits : ∀ predicted first last includeSs,
      let b := descriptorByte predicted first last includeSs
      b &&& 0x80 = 0 ∧ b &&& 0x20 = 0 ∧ b &&& 0x10 = 0 ∧ (b &&& 0x08 != 0) = first ∧
        (b &&& 0x04 != 0) = last ∧ (b &&& 0x02 != 0) = includeSs := by decide
  obtain ⟨h80, h20, h10, h08, h04, h02⟩ := hbits predicted first last includeSs
  generalize descriptorByte predicted first last includeSs = b at *
  cases includeSs <;> simp only [bne_iff_ne, bne_eq_false_iff_eq] at h02 <;>
    simp [payloadOffset, index, h80, h20, h10, h08, h04, h02]

/-- `payload_offset` finds the end of every descriptor that `packetize_with_info` writes. -/
theorem payloadOffset_makePayload (chunk : Bytes) (first last : Bool) (info : VP9FrameInfo) :
    let payload := makePayload chunk first last info (first && info.resolution.isSome)
    ∃ offset, payloadOffset payload = .ok (offset, first, last) ∧ offset ≤ payload.length ∧
      payload.drop offset = chunk := by
  obtain ⟨predicted, resolution⟩ := info
  by_cases h : (first && resolution.isSome) = true
  · obtain ⟨rfl, ⟨w, ht⟩, rfl⟩ : first = true ∧ ∃ wh, resolution = some wh := by
      simpa [Option.isSome_iff_exists] using h
    have hskip := skip_scalabilityStructure (descriptorByte predicted true last true) w ht chunk
    have hpay : makePayload chunk true last ⟨predicted, some (w, ht)⟩ true =
        descriptorByte predicted true last true :: (scalabilityStructure w ht ++ chunk) := rfl
    rw [Option.isSome_some, Bool.and_self, hpay]
    refine ⟨9, ?_, by simp [scalabilityStructure, u16BeBytes], rfl⟩
    rw [payloadOffset_descriptorByte, if_pos rfl, hskip]
    simp [scalabilityStructure, u16BeBytes]
  · have hss : (first && resolution.isSome) = false := by simpa using h
    have hpay : makePayload chunk first last ⟨predicted, resolution⟩ false =
        descriptorByte predicted first last false :: chunk := by
      cases resolution <;> rfl
    refine ⟨1, ?_, by simp [makePayload], by rw [hss, hpay]; rfl⟩
    rw [hss, hpay, payloadOffset_descriptorByte]
    simp

theorem readable_makePayload (chunk : Bytes) (first last : Bool) (info : VP9FrameInfo) :
    Readable (makePayload chunk first last info (first && info.resolution.isSome)) := by
  obtain ⟨offset, hoff, hle, -⟩ := payloadOffset_makePayload chunk first last info
  exact ⟨offset, first, last, hoff, hle⟩

theorem format_makePayload (chunk : Bytes) (first last : Bool) (info : VP9FrameInfo) :
    let payload := makePayload chunk first last info (first && info.resolution.isSome)
    format.opens payload = first ∧ format.body payload = chunk ∧ format.ends payload = last := by
  obtain ⟨offset, hoff, -, hdrop⟩ := payloadOffset_makePayload chunk first last info
  simp only [format, hoff, hdrop, and_self]

@[simp] theorem mtu_packetizeWithInfo (p : VP9Packetizer ρ) (frame : Bytes) (info : VP9FrameInfo)
    (frameTimeMs : τ) :
    (p.packetizeWithInfo clock frame info frameTimeMs).2.state.mtu = p.state.mtu := by
  unfold packetizeWithInfo
  split
  · rfl
  · dsimp only
    generalize p.state.mtu - (1 + if info.resolution.isSome = true then 8 else 0) = n
    split <;> simp

/-- **A frame is cut into fragments**, of which only the first one opens it. -/
theorem packetizeWithInfo_cuts (p : VP9Packetizer ρ) (hmtu : p.state.mtu = DEFAULT_MTU)
    {frame : Bytes} (hframe : frame ≠ []) (info : VP9FrameInfo) (frameTimeMs : τ) :
    ∃ ps, (p.packetizeWithInfo clock frame info frameTimeMs).1 = .ok ps ∧
      format.CutInto Readable frame ps ∧ ∀ q ∈ ps.tail, format.opens q.payload = false := by
  set n := p.state.mtu - (1 + if info.resolution.isSome then 8 else 0) with hn
  have hchunk : 0 < n := by
    rw [hn, hmtu]
    split <;> decide
  set cs := chunksOf n frame with hcs
  have hcount : (frame.length + n - 1) / n = cs.length := (length_chunksOf hchunk frame).symm
  have hfmt (i : ℕ) (c : Bytes) := format_makePayload c (i = 0) (decide (i + 1 = cs.length)) info
  have hcuts := format.cuts_mapIdx (A := Readable) (chunksOf_ne_nil hchunk hframe)
    (fun c hc => (mem_chunksOf hchunk hc).1)
   
    (fun i c => readable_makePayload c _ _ info) (fun i c => (hfmt i c).1)
    (fun i c => (hfmt i c).2.1) (fun i c h => by simpa using (hfmt i c).2.2.symm.trans h)
  rw [flatten_chunksOf hchunk] at hcuts
  have heq : (p.packetizeWithInfo clock frame info frameTimeMs).1 =
      .ok (p.state.packetsForPayloads (cs.mapIdx fun i c =>
        (makePayload c (i = 0) (decide (i + 1 = cs.length)) info
          (decide (i = 0) && info.resolution.isSome), decide (i + 1 = cs.length)))).1 := by
    rw [packetizeWithInfo, if_neg (by simpa using hframe)]
    dsimp only
    rw [← hn, if_neg hchunk.ne', hcount]
  exact ⟨_, heq, hcuts.cutInto p.state, format.opens_tail_mapIdx p.state (fun i c =>
    (hfmt i c).1) fun i => decide (i + 1 = cs.length)⟩

end VP9Packetizer

end NativeVoice.Video
