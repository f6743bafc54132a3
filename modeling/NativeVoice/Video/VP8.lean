import NativeVoice.Lib.Chunks
import NativeVoice.Video.Stream

/-!
# VP8

The payload format of `src/src/video/vp8.rs`.
-/

namespace NativeVoice.Video

open Lib.Chunks

/-! ## Depacketizer -/

abbrev VP8Depacketizer := DepacketizerState

namespace VP8Depacketizer

def new : VP8Depacketizer := {}

/-- The length of the payload descriptor and its start-of-partition bit. -/
def payloadOffset (payload : Bytes) : Fallible PacketError (ℕ × Bool) := do
  if payload.isEmpty then
    throw (.err .invalidPayload)
  let descriptor ← index payload 0
  let extended := descriptor &&& 0x80 != 0
  let start := descriptor &&& 0x10 != 0
  let mut offset := 1
  if extended then
    if offset ≥ payload.length then
      throw (.err .invalidPayload)
    let ext ← index payload offset
    offset := offset + 1
    if ext &&& 0x80 != 0 then
      if offset ≥ payload.length then
        throw (.err .invalidPayload)
      let pictureId ← index payload offset
      offset := offset + if pictureId &&& 0x80 != 0 then 2 else 1
    if ext &&& 0x40 != 0 then
      offset := offset + 1
    if ext &&& 0x30 != 0 then
      offset := offset + 1
  if offset > payload.length then
    throw (.err .invalidPayload)
  return (offset, start)

def pushPacket (d : VP8Depacketizer) (payload : Bytes) (marker : Bool) (sequence : UInt16)
    (timestamp : UInt32) : Fallible PacketError (Option Bytes) × VP8Depacketizer :=
  match payloadOffset payload with
  | .error e => (.error e, d)
  | .ok (offset, start) =>
    let d := d.beginPacket sequence timestamp
    if d.isDiscarding then d.finishIf marker
    else if !start && d.frame.isEmpty then d.discardFrame.finishIf marker
    else match sliceFrom payload offset with
      | .error e => (.error e, d)
      | .ok data => { d with frame := d.frame ++ data }.finishIf marker

end VP8Depacketizer

/-! ## Packetizer -/

structure VP8Packetizer (ρ : Type) where
  state : PacketizerState ρ
  pictureId : UInt16
  deriving DecidableEq

namespace VP8Packetizer

variable {τ ρ : Type} (clock : TickClock τ ρ)

def new (ssrc : UInt32) (payloadType : UInt8) (sequence : UInt16) (timestamp : UInt32) :
    VP8Packetizer ρ where
  state := .new clock ssrc payloadType sequence timestamp
  pictureId := 0

def makePayload (p : VP8Packetizer ρ) (chunk : Bytes) (first : Bool) : Bytes :=
  let pictureId := p.pictureId &&& 0x7FFF
  (0x80 ||| if first then 0x10 else 0) :: 0x80 :: ((pictureId >>> 8).toUInt8 ||| 0x80) ::
    (pictureId &&& 0xFF).toUInt8 :: chunk

def packetize (p : VP8Packetizer ρ) (frame : Bytes) (frameTimeMs : τ) :
    Fallible PacketError (List MediaPacket) × VP8Packetizer ρ :=
  if frame.isEmpty then (.error (.err .emptyFrame), p)
  else
    let maxChunk := p.state.mtu - 4
    if maxChunk = 0 then (.error (.err .payloadTooLarge), p)
    else
      let chunkCount := (frame.length + maxChunk - 1) / maxChunk
      let payloads := (chunksOf maxChunk frame).mapIdx fun index chunk =>
        (p.makePayload chunk (index = 0), decide (index + 1 = chunkCount))
      let (packets, state) := p.state.packetsForPayloads payloads
      (.ok packets, { state := state.incrementTimestamp clock frameTimeMs
                      pictureId := (p.pictureId + 1) &&& 0x7FFF })

end VP8Packetizer

/-! ## Fragments -/

namespace VP8Depacketizer

/-- What a payload carries behind its descriptor. -/
def format : PayloadFormat where
  opens payload := match payloadOffset payload with
    | .ok (_, start) => start
    | .error _ => false
  body payload := match payloadOffset payload with
    | .ok (offset, _) => payload.drop offset
    | .error _ => []
  ends _ := false

/-- The payloads whose descriptor is read and lies within the payload. -/
def Readable (payload : Bytes) : Prop :=
  ∃ offset start, payloadOffset payload = .ok (offset, start) ∧ offset ≤ payload.length

theorem receives : format.Receives pushPacket Readable := by
  refine PayloadFormat.receives_of_accept fun d payload marker sequence timestamp hp => ?_
  obtain ⟨offset, start, hoff, hle⟩ := hp
  simp [pushPacket, DepacketizerState.accept, format, hoff, sliceFrom_of_le hle]

end VP8Depacketizer

namespace VP8Packetizer

open VP8Depacketizer

variable {τ ρ : Type} (clock : TickClock τ ρ)

theorem or_0x80_and_0x80 : ∀ b : UInt8, (b ||| 0x80) &&& 0x80 ≠ 0 := by
  rintro ⟨b⟩
  revert b
  decide

theorem payloadOffset_makePayload (p : VP8Packetizer ρ) (chunk : Bytes) (first : Bool) :
    payloadOffset (p.makePayload chunk first) = .ok (4, first) := by
  have := or_0x80_and_0x80 ((p.pictureId &&& 0x7FFF) >>> 8).toUInt8
  cases first <;> simp [payloadOffset, makePayload, index, this] <;> rfl

theorem readable_makePayload (p : VP8Packetizer ρ) (chunk : Bytes) (first : Bool) :
    Readable (p.makePayload chunk first) :=
  ⟨4, first, p.payloadOffset_makePayload chunk first, by simp [makePayload]⟩

theorem body_makePayload (p : VP8Packetizer ρ) (chunk : Bytes) (first : Bool) :
    format.body (p.makePayload chunk first) = chunk := by
  simp only [format, payloadOffset_makePayload]
  rfl

theorem opens_makePayload (p : VP8Packetizer ρ) (chunk : Bytes) (first : Bool) :
    format.opens (p.makePayload chunk first) = first := by
  simp only [format, payloadOffset_makePayload]

@[simp] theorem mtu_packetize (p : VP8Packetizer ρ) (frame : Bytes) (frameTimeMs : τ) :
    (p.packetize clock frame frameTimeMs).2.state.mtu = p.state.mtu := by
  unfold packetize
  split
  · rfl
  · dsimp only
    split <;> simp

/-- **A frame is cut into fragments**, of which only the first one opens it. -/
theorem packetize_cuts (p : VP8Packetizer ρ) (hmtu : p.state.mtu = DEFAULT_MTU) {frame : Bytes}
    (hframe : frame ≠ []) (frameTimeMs : τ) :
    ∃ ps, (p.packetize clock frame frameTimeMs).1 = .ok ps ∧ format.CutInto Readable frame ps ∧
      ∀ q ∈ ps.tail, format.opens q.payload = false := by
  have hchunk : 0 < p.state.mtu - 4 := by rw [hmtu]; decide
  set cs := chunksOf (p.state.mtu - 4) frame with hcs
  have hcount : (frame.length + (p.state.mtu - 4) - 1) / (p.state.mtu - 4) = cs.length :=
    (length_chunksOf hchunk frame).symm
  have hcuts := format.cuts_mapIdx (A := Readable) (chunksOf_ne_nil hchunk hframe)
    (fun c hc => (mem_chunksOf hchunk hc).1)
    (fun i c => p.readable_makePayload c _) (fun i c => p.opens_makePayload c _)
    (fun i c => p.body_makePayload c _) (by simp [format])
  rw [flatten_chunksOf hchunk] at hcuts
  have heq : (p.packetize clock frame frameTimeMs).1 =
      .ok (p.state.packetsForPayloads (cs.mapIdx fun i c =>
        (p.makePayload c (i = 0), decide (i + 1 = cs.length)))).1 := by
    rw [packetize, if_neg (by simpa using hframe), if_neg hchunk.ne', hcount]
  exact ⟨_, heq, hcuts.cutInto p.state, format.opens_tail_mapIdx p.state (fun i c =>
    p.opens_makePayload c _) fun i => decide (i + 1 = cs.length)⟩

end VP8Packetizer

end NativeVoice.Video
