import NativeVoice.Video.VP8
import NativeVoice.Video.VP9

/-!
# Video frames under packet loss

What arrives of a stream when packets are lost but keep their order. Every packet that is sent is
marked with whether it arrives (`arriving`); the depacketizer is given those that do.

* `vp8_vp9_under_loss`: the VP8 and VP9 depacketizers return exactly the frames all of whose
  packets arrive.
-/

namespace NativeVoice.Video

open Lib.Transducer Lib.Reassembly

/-- A sent stream with its losses: the packets of each frame in turn, each packet marked with
whether it arrives. -/
abbrev Marked := List (List (MediaPacket × Bool))

/-- No two frames have an RTP timestamp in common. -/
def DistinctTimestamps (marked : Marked) : Prop :=
  marked.Pairwise fun m m' => ∀ x ∈ m, ∀ y ∈ m', x.1.timestamp ≠ y.1.timestamp

/-- The answers to what arrives of a frame: the frame at its last packet if all of them arrive,
`Ok(None)` otherwise. -/
def lossAnswers (frame : Bytes) (m : List (MediaPacket × Bool)) :
    List (Fallible PacketError (Option Bytes)) :=
  (answers (arriving m).length (if ∀ x ∈ m, x.2 = true then some frame else none)).map .ok

section

variable {F : PayloadFormat} {A : Bytes → Prop}
  {push : DepacketizerState → Bytes → Bool → UInt16 → UInt32 →
    Fallible PacketError (Option Bytes) × DepacketizerState}
  {π φ : Type} {packetize : π → φ → Fallible PacketError (List MediaPacket) × π} {bytes : φ → Bytes}

/-- The argument for both codecs: the packetizer cuts every non-empty frame into fragments of which
only the first one opens the frame. -/
theorem outputs_lossAnswers (hpush : F.Receives push A) {P : π → Prop}
    (hcut : ∀ p f, P p → bytes f ≠ [] → (∃ ps, (packetize p f).1 = .ok ps ∧
      F.CutInto A (bytes f) ps ∧ ∀ q ∈ ps.tail, F.opens q.payload = false) ∧ P (packetize p f).2)
    {p : π} (hp : P p) {frames : List φ} (hframes : ∀ f ∈ frames, bytes f ≠ []) {marked : Marked}
    (hmarked : marked.map (List.map Prod.fst) = sent packetize p frames)
    (hlen : ∀ m ∈ marked, m.length ≤ 65535) (hts : DistinctTimestamps marked) :
    outputs packetize p frames = (sent packetize p frames).map .ok ∧
      outputs (pushMedia push) {} (marked.flatMap arriving) =
        (List.zipWith (fun f m => lossAnswers (bytes f) m) frames marked).flatten := by
  obtain ⟨hok, hsent⟩ := PayloadFormat.forall₂_sent packetize hcut hp hframes
  refine ⟨hok, ?_⟩
  have hcuts : List.Forall₂ (fun frame m => F.CutInto A frame (m.map Prod.fst) ∧
      ∀ x ∈ m.tail, F.opens x.1.payload = false) (frames.map bytes) marked := by
    rw [← hmarked, List.forall₂_map_right_iff] at hsent
    rw [List.forall₂_map_left_iff]
    refine hsent.imp fun f m hm => ⟨hm.1, fun x hx => hm.2 x.1 ?_⟩
    rw [← List.map_tail]
    exact List.mem_map_of_mem hx
  rw [hpush.outputs_under_loss hcuts (fun m hm => (hlen m hm).trans (by norm_num)) hts,
    List.map_flatten, List.map_zipWith, List.zipWith_map_left]
  rfl

end

variable {τ ρ : Type} (clock : TickClock τ ρ)

/-- One call of a VP9 packetizer: with a metadata frame to take the resolution from, or without. -/
def VP9Packetizer.packetizeFrame (p : VP9Packetizer ρ) (f : Bytes × Option Bytes × τ) :
    Fallible PacketError (List MediaPacket) × VP9Packetizer ρ :=
  match f.2.1 with
  | some metadataFrame => p.packetizeWithMetadataFrame clock f.1 metadataFrame f.2.2
  | none => p.packetize clock f.1 f.2.2

/-- **VP8 and VP9 under loss.** Of non-empty frames of at most 65535 packets with different RTP
timestamps, whatever subset of the packets arrives, exactly the frames all of whose packets arrive
are returned, each unchanged at its last packet; every other call returns `Ok(None)`. -/
theorem vp8_vp9_under_loss (ssrc : UInt32) (payloadType : UInt8) (sequence : UInt16)
    (timestamp : UInt32) :
    (∀ (frames : List (Bytes × τ)) (marked : Marked), (∀ f ∈ frames, f.1 ≠ []) →
      let packetize := fun (p : VP8Packetizer ρ) f => p.packetize clock f.1 f.2
      let p := VP8Packetizer.new clock ssrc payloadType sequence timestamp
      marked.map (List.map Prod.fst) = sent packetize p frames →
      (∀ m ∈ marked, m.length ≤ 65535) → DistinctTimestamps marked →
      outputs packetize p frames = (sent packetize p frames).map .ok ∧
        outputs (pushMedia VP8Depacketizer.pushPacket) .new (marked.flatMap arriving) =
          (List.zipWith (fun f m => lossAnswers f.1 m) frames marked).flatten) ∧
    (∀ (frames : List (Bytes × Option Bytes × τ)) (marked : Marked), (∀ f ∈ frames, f.1 ≠ []) →
      let packetize := VP9Packetizer.packetizeFrame clock
      let p := VP9Packetizer.new clock ssrc payloadType sequence timestamp
      marked.map (List.map Prod.fst) = sent packetize p frames →
      (∀ m ∈ marked, m.length ≤ 65535) → DistinctTimestamps marked →
      outputs packetize p frames = (sent packetize p frames).map .ok ∧
        outputs (pushMedia VP9Depacketizer.pushPacket) .new (marked.flatMap arriving) =
          (List.zipWith (fun f m => lossAnswers f.1 m) frames marked).flatten) := by
  constructor
  · intro frames marked hframes packetize p hmarked hlen hts
    refine outputs_lossAnswers VP8Depacketizer.receives
      (P := fun p => p.state.mtu = DEFAULT_MTU) ?_ rfl hframes hmarked hlen hts
    intro p f hp hf
    exact ⟨p.packetize_cuts clock hp hf f.2, by simpa [packetize] using hp⟩
  · intro frames marked hframes packetize p hmarked hlen hts
    refine outputs_lossAnswers VP9Depacketizer.receives
      (P := fun p => p.state.mtu = DEFAULT_MTU) ?_ rfl hframes hmarked hlen hts
    rintro p ⟨frame, metadata, time⟩ hp hf
    cases metadata with
    | none => exact ⟨p.packetizeWithInfo_cuts clock hp hf _ time,
        by simpa [packetize, VP9Packetizer.packetizeFrame, VP9Packetizer.packetize] using hp⟩
    | some m => exact ⟨p.packetizeWithInfo_cuts clock hp hf _ time,
        by simpa [packetize, VP9Packetizer.packetizeFrame,
          VP9Packetizer.packetizeWithMetadataFrame] using hp⟩

/-- Two frames of one packet each: the first one is lost, the second one arrives. -/
theorem vp8_vp9_under_loss_second_of_two :
    (let p := VP8Packetizer.new TickClock.exact 1 2 3 4
      let frames : List (Bytes × Option ℚ) := [([7], some 20), ([8], some 20)]
      let packetize := fun (p : VP8Packetizer ℚ) f => p.packetize TickClock.exact f.1 f.2
      let marked : Marked := List.zipWith (fun ps b => ps.map fun q => (q, b))
        (sent packetize p frames) [false, true]
      outputs (pushMedia VP8Depacketizer.pushPacket) .new (marked.flatMap arriving) =
        [.ok (some [8])]) ∧
    (let p := VP9Packetizer.new TickClock.exact 1 2 3 4
      let frames : List (Bytes × Option Bytes × Option ℚ) :=
        [([7], none, some 20), ([8], none, some 20)]
      let packetize := VP9Packetizer.packetizeFrame TickClock.exact
      let marked : Marked := List.zipWith (fun ps b => ps.map fun q => (q, b))
        (sent packetize p frames) [false, true]
      outputs (pushMedia VP9Depacketizer.pushPacket) .new (marked.flatMap arriving) =
        [.ok (some [8])]) := by
  constructor
  · exact ((vp8_vp9_under_loss TickClock.exact 1 2 3 4).1 [([7], some 20), ([8], some 20)] _
      (by decide) (by decide +kernel)
      (by decide +kernel) (by unfold DistinctTimestamps; decide +kernel)).2.trans
        (by decide +kernel)
  · exact ((vp8_vp9_under_loss TickClock.exact 1 2 3 4).2
      [([7], none, some 20), ([8], none, some 20)] _ (by decide) (by decide +kernel)
      (by decide +kernel) (by unfold DistinctTimestamps; decide +kernel)).2.trans
        (by decide +kernel)

end NativeVoice.Video
