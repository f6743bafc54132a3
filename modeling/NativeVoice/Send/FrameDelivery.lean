import NativeVoice.Send.Delivery
import NativeVoice.Video.Loss

/-!
# Frames from the pipeline to a depacketizer

Frames of VP8 and VP9 on their whole way: the pipeline prepares their packets, which are sealed and
sent, and a receiver opens what arrives of the datagrams and gives it to its depacketizer.

* `carries_frames`: the pipeline prepares the packets that the packetizer of the stream makes.
* `forall₂_arrivingDatagrams`: what arrives of the datagrams is what arrives of the packets.
* `frames_received`: the frames all of whose datagrams arrive come out, and no others.
-/

namespace NativeVoice.Send

open Lib.Transducer Lib.Reassembly Video Transport

/-! ## Sending frames -/

/-- A call of `send_video_frame` for one stream. -/
structure SentFrame (τ : Type) where
  frame : Bytes
  metadataFrame : Option Bytes
  frameTimeMs : τ
  mediaStreamType : String
  now : ℕ → UInt32

def SentFrame.call {τ : Type} (f : SentFrame τ) (mediaSsrc : UInt32) : Call τ :=
  .sendVideoFrame mediaSsrc f.frame f.metadataFrame f.frameTimeMs f.mediaStreamType f.now

section Sending

variable {τ ρ : Type} (clock : TickClock τ ρ) (b : Build)

/-- The packets of a frame, and the pipeline behind it. -/
def sendFrame (mediaSsrc : UInt32) (s : VideoSendPipelineState ρ) (f : SentFrame τ) :
    List PreparedRTPPacket × VideoSendPipelineState ρ :=
  (preparedBy clock b s (f.call mediaSsrc), s.step clock b (f.call mediaSsrc))

/-- What the packetizer of a stream makes of a frame. -/
def packetizeSent (p : PipelinePacketizer ρ) (f : SentFrame τ) :
    Fallible PacketError (List MediaPacket) × PipelinePacketizer ρ :=
  p.packetize clock b f.frame f.metadataFrame f.frameTimeMs

theorem packetizer_prepareMediaPackets (mediaStreamType : String) (now : ℕ → UInt32)
    (stream : PipelineStream ρ) (transportSequence : UInt16) (packets : List MediaPacket) :
    (prepareMediaPackets mediaStreamType now stream transportSequence packets).2.1.packetizer =
      stream.packetizer := by
  induction packets generalizing now stream transportSequence with
  | nil => rfl
  | cons packet packets ih =>
    unfold prepareMediaPackets
    dsimp only
    split
    · rfl
    · have hrest := ih (fun i => now (i + 1)) (stream.cacheMediaPacket packet.payload packet.marker
        packet.sequence packet.timestamp) (transportSequence + 1)
      have hkept : (stream.cacheMediaPacket packet.payload packet.marker packet.sequence
          packet.timestamp).packetizer = stream.packetizer := by
        rw [stream.cacheMediaPacket_eq]
      rw [hkept] at hrest
      split <;> rename_i heq <;> rw [heq] at hrest <;> exact hrest

/-- A stream goes on with the packetizer behind the frame. -/
theorem packetizer_sendFrame {s : VideoSendPipelineState ρ} {mediaSsrc : UInt32}
    {stream : PipelineStream ρ} (hs : s.streams mediaSsrc = some stream) (f : SentFrame τ) :
    ∃ stream', (sendFrame clock b mediaSsrc s f).2.streams mediaSsrc = some stream' ∧
      stream'.packetizer = (packetizeSent clock b stream.packetizer f).2 := by
  unfold sendFrame SentFrame.call VideoSendPipelineState.step packetizeSent
  dsimp only
  unfold VideoSendPipelineState.prepareVideoFrameInner
  rw [hs]
  dsimp only
  split
  · rename_i heq
    exact ⟨_, Function.update_self .., by rw [heq]⟩
  · rename_i packets packetizer heq
    have hkept := packetizer_prepareMediaPackets f.mediaStreamType f.now { stream with packetizer }
      s.transportSequence packets
    rw [heq]
    split <;> rename_i hprepared <;> rw [hprepared] at hkept
    · exact ⟨_, Function.update_self .., hkept⟩
    · exact ⟨_, Function.update_self .., hkept⟩

/-- **The pipeline prepares the packets that the packetizer makes**, frame by frame. -/
theorem carries_frames {c : Receive.Connection} {t : Tracked ρ} (hrecorded : t.Recorded)
    (hknown : KnowsAll c t.pipeline) {mediaSsrc : UInt32} {stream : PipelineStream ρ}
    (hs : t.pipeline.streams mediaSsrc = some stream) (frames : List (SentFrame τ)) :
    List.Forall₂ (List.Forall₂ fun packet p => Carries c p packet)
      (outputs (sendFrame clock b mediaSsrc) t.pipeline frames)
      (sent (packetizeSent clock b) stream.packetizer frames) := by
  induction frames generalizing t stream with
  | nil => exact .nil
  | cons f frames ih =>
    have hframe := carries_frame clock b hrecorded hknown mediaSsrc f.frame f.metadataFrame
      f.frameTimeMs f.mediaStreamType f.now
    have hmade : Tracked.mediaPackets clock b t.pipeline mediaSsrc f.frame f.metadataFrame
        f.frameTimeMs = (packetizeSent clock b stream.packetizer f).1.toOption.getD [] := by
      rw [Tracked.mediaPackets, hs]
      rfl
    rw [hmade] at hframe
    obtain ⟨stream', hs', hpacketizer⟩ := packetizer_sendFrame clock b hs f
    have hcall : KnowsCall c (f.call mediaSsrc) := trivial
    have hrest := ih (hrecorded.step clock b (f.call mediaSsrc))
      (Session.knowsAll_step clock b hknown hcall) hs'
    rw [hpacketizer] at hrest
    exact .cons hframe hrest

end Sending

/-! ## Losing datagrams -/

theorem forall₂_trans {α β γ : Type} {R : α → β → Prop} {S : β → γ → Prop} {T : α → γ → Prop}
    (h : ∀ a b c, R a b → S b c → T a c) {as : List α} {bs : List β} {cs : List γ}
    (hR : List.Forall₂ R as bs) (hS : List.Forall₂ S bs cs) : List.Forall₂ T as cs := by
  induction hR generalizing cs with
  | nil =>
    cases hS
    exact .nil
  | cons hab _ ih =>
    cases hS with
    | cons hbc hrest => exact .cons (h _ _ _ hab hbc) (ih hrest)

/-- The datagrams of some frames that arrive, marked as the packets are that they were sealed
from. -/
def arrivingDatagrams (datagrams : List (List Bytes)) (marked : Marked) : List Bytes :=
  (List.zipWith (fun ds m => arriving (ds.zip (m.map Prod.snd))) datagrams marked).flatten

theorem forall₂_arriving {α β : Type} {R : α → β → Prop} {as : List α} {m : List (β × Bool)}
    (h : List.Forall₂ R as (m.map Prod.fst)) :
    List.Forall₂ R (arriving (as.zip (m.map Prod.snd))) (arriving m) := by
  induction m generalizing as with
  | nil =>
    cases h
    exact .nil
  | cons x m ih =>
    obtain ⟨y, arrives⟩ := x
    cases h with
    | cons hhead hrest =>
      cases arrives with
      | true => exact .cons hhead (ih hrest)
      | false => exact ih hrest

theorem forall₂_arrivingDatagrams {R : Bytes → MediaPacket → Prop} {datagrams : List (List Bytes)}
    {marked : Marked}
    (h : List.Forall₂ (List.Forall₂ R) datagrams (marked.map (List.map Prod.fst))) :
    List.Forall₂ R (arrivingDatagrams datagrams marked) (marked.flatMap arriving) := by
  induction marked generalizing datagrams with
  | nil =>
    cases h
    exact .nil
  | cons m marked ih =>
    cases h with
    | cons hhead hrest =>
      rw [List.flatMap_cons]
      exact List.rel_append (forall₂_arriving hhead) (ih hrest)

/-! ## Receiving frames -/

/-- A depacketizer called with the fields of a received packet. -/
def pushReceived {δ β : Type} (push : δ → Bytes → Bool → UInt16 → UInt32 → β × δ) (d : δ)
    (q : Receive.ReceivedPacket) : β × δ :=
  push d q.decoded.payload q.decoded.marker q.decoded.sequence q.decoded.timestamp

theorem outputs_pushReceived {δ β : Type} (push : δ → Bytes → Bool → UInt16 → UInt32 → β × δ)
    {packets : List Receive.ReceivedPacket} {ps : List MediaPacket}
    (h : List.Forall₂ Shows packets ps) (d : δ) :
    outputs (pushReceived push) d packets = outputs (pushMedia push) d ps := by
  induction h generalizing d with
  | nil => rfl
  | @cons q p packets ps hshows _ ih =>
    have hpush : pushReceived push d q = pushMedia push d p := by
      rw [pushReceived, pushMedia, hshows.payload, hshows.marker, hshows.sequence, hshows.timestamp]
    rw [outputs_cons, outputs_cons, hpush, ih]

/-- The depacketizer of a codec whose frames are cut into chunks. -/
def chunkDepacketizer {ρ : Type} : PipelinePacketizer ρ →
    Option (DepacketizerState → Bytes → Bool → UInt16 → UInt32 →
      Fallible PacketError (Option Bytes) × DepacketizerState)
  | .vp8 _ => some VP8Depacketizer.pushPacket
  | .vp9 _ => some VP9Depacketizer.pushPacket
  | _ => none

section Receiving

variable {τ ρ : Type} {clock : TickClock τ ρ} {b : Build}

/-- What a depacketizer makes of the packets of frames that arrive. -/
theorem outputs_chunkDepacketizer {p : PipelinePacketizer ρ} (hmtu : p.state.mtu = DEFAULT_MTU)
    {push : DepacketizerState → Bytes → Bool → UInt16 → UInt32 →
      Fallible PacketError (Option Bytes) × DepacketizerState}
    (hpush : chunkDepacketizer p = some push) {frames : List (SentFrame τ)} {marked : Marked}
    (hframes : ∀ f ∈ frames, f.frame ≠ [])
    (hmarked : marked.map (List.map Prod.fst) = sent (packetizeSent clock b) p frames)
    (hlen : ∀ m ∈ marked, m.length ≤ 65535) (hts : DistinctTimestamps marked) :
    outputs (pushMedia push) {} (marked.flatMap arriving) =
      (List.zipWith (fun f m => lossAnswers f.frame m) frames marked).flatten := by
  cases p with
  | av1 p => cases hpush
  | h264 p => cases hpush
  | h265 p => cases hpush
  | vp8 p =>
    obtain rfl := Option.some.inj hpush
    refine (outputs_lossAnswers VP8Depacketizer.receives
      (P := fun p => ∃ q : VP8Packetizer ρ, p = .vp8 q ∧ q.state.mtu = DEFAULT_MTU)
      ?_ ⟨p, rfl, hmtu⟩ hframes hmarked hlen hts).2
    rintro _ f ⟨q, rfl, hq⟩ hf
    exact ⟨q.packetize_cuts clock hq hf f.frameTimeMs,
      (q.packetize clock f.frame f.frameTimeMs).2, rfl, by simpa using hq⟩
  | vp9 p =>
    obtain rfl := Option.some.inj hpush
    refine (outputs_lossAnswers VP9Depacketizer.receives
      (P := fun p => ∃ q : VP9Packetizer ρ, p = .vp9 q ∧ q.state.mtu = DEFAULT_MTU)
      ?_ ⟨p, rfl, hmtu⟩ hframes hmarked hlen hts).2
    rintro _ f ⟨q, rfl, hq⟩ hf
    exact ⟨q.packetizeWithInfo_cuts clock hq hf _ f.frameTimeMs,
      (q.packetizeWithMetadataFrame clock f.frame (f.metadataFrame.getD f.frame) f.frameTimeMs).2,
      rfl, by simpa [VP9Packetizer.packetizeWithMetadataFrame] using hq⟩

variable {c : Receive.Connection} {aead : Aead} {tx rx : TransportCrypto}

variable (clock b) in
/-- **Frames of VP8 and VP9 on their whole way.** Non-empty frames with different timestamps are
sent on a stream of a pipeline in any state that a run reaches, and some of the datagrams arrive.
The receiver opens them all, and its depacketizer returns exactly the frames all of whose datagrams
have arrived, each unchanged at its last packet. -/
theorem frames_received (hrtx : c.rtxEnabled = true) (haead : aead.Lawful)
    (hmode : rx.mode = tx.mode) (hkey : rx.key = tx.key) (transportSequence : UInt16)
    {calls : List (SealedCall τ)} (hcalls : ∀ call ∈ calls, KnowsCall c call.call)
    {mediaSsrc : UInt32} {stream : PipelineStream ρ}
    (hs : (Session.run clock b aead tx transportSequence calls).tracked.pipeline.streams mediaSsrc =
      some stream)
    {push : DepacketizerState → Bytes → Bool → UInt16 → UInt32 →
      Fallible PacketError (Option Bytes) × DepacketizerState}
    (hpush : chunkDepacketizer stream.packetizer = some push) {frames : List (SentFrame τ)}
    (hframes : ∀ f ∈ frames, f.frame ≠ []) {marked : Marked}
    (hmarked : marked.map (List.map Prod.fst) =
      sent (packetizeSent clock b) stream.packetizer frames)
    (hlen : ∀ m ∈ marked, m.length ≤ 65535) (hts : DistinctTimestamps marked)
    {datagrams : List (List Bytes)} (hsealed : List.Forall₂ (List.Forall₂ (SealedFrom aead tx))
      datagrams (outputs (sendFrame clock b mediaSsrc)
        (Session.run clock b aead tx transportSequence calls).tracked.pipeline frames)) :
    (decryptRtpPackets aead rx (arrivingDatagrams datagrams marked)).1 = 0 ∧
      ∃ packets, receiveBatch c aead rx (arrivingDatagrams datagrams marked) = packets.map some ∧
        outputs (pushReceived push) {} packets =
          (List.zipWith (fun f m => lossAnswers f.frame m) frames marked).flatten := by
  have hkeeps := Session.keeps_run clock b aead tx transportSequence hcalls
  generalize Session.run clock b aead tx transportSequence calls = v at hs hsealed hkeeps
  have hframe := carries_frames clock b hkeeps.recorded hkeeps.known hs frames
  -- Each datagram stands for the packet at its place.
  have hcarried : List.Forall₂ (List.Forall₂ fun data p => ∃ packet, Carries c p packet ∧
      SealedFrom aead tx data packet) datagrams (marked.map (List.map Prod.fst)) := by
    rw [hmarked]
    refine forall₂_trans (fun _ _ _ hds hps => ?_) hsealed hframe
    exact forall₂_trans (fun data packet p hdata hp => ⟨packet, hp, hdata⟩) hds hps
  obtain ⟨hopened, packets, hreceived, hshows⟩ := receiveBatch_eq hrtx haead hmode hkey
    (forall₂_arrivingDatagrams hcarried)
  refine ⟨hopened, packets, hreceived, ?_⟩
  rw [outputs_pushReceived push hshows]
  exact outputs_chunkDepacketizer (hkeeps.recorded mediaSsrc stream hs).mtu hpush hframes hmarked
    hlen hts

end Receiving

/-- A cipher that appends a tag seals all packets. -/
theorem forall₂_sealPackets_tagOnly (tx : TransportCrypto) (nonces : ℕ → UInt32)
    (packets : List PreparedRTPPacket) :
    List.Forall₂ (SealedFrom tagOnly tx) (sealPackets tagOnly tx nonces packets) packets := by
  induction packets generalizing nonces with
  | nil => exact .nil
  | cons packet packets ih => exact .cons ⟨nonces 0, rfl⟩ (ih _)

/-- The packetizer of the stream of `frameAndResend` behind its frame. -/
def packetizerBehind : PipelinePacketizer ℚ :=
  (packetizeSent TickClock.exact .release (.new TickClock.exact .vp8 7 101 65534 90000)
    ⟨[1, 2, 3], none, some 33, "video", fun _ => 0⟩).2

def twoFrames : List (SentFrame (Option ℚ)) :=
  [⟨[7], none, some 20, "video", fun _ => 0⟩, ⟨[8], none, some 20, "video", fun _ => 0⟩]

/-- Two frames of one packet each are sent behind a run. The first one is lost, and the second one
arrives. -/
theorem frames_received_second_of_two :
    let s := (Session.run TickClock.exact .release tagOnly sharedCrypto 0
      frameAndResend).tracked.pipeline
    let marked : Marked := List.zipWith (fun ps b => ps.map fun p => (p, b))
      (sent (packetizeSent TickClock.exact .release) packetizerBehind twoFrames) [false, true]
    let datagrams := (outputs (sendFrame TickClock.exact .release 7) s twoFrames).map
      (sealPackets tagOnly sharedCrypto fun _ => 0)
    ∃ packets, receiveBatch oneStream tagOnly sharedCrypto (arrivingDatagrams datagrams marked) =
        packets.map some ∧
      outputs (pushReceived VP8Depacketizer.pushPacket) {} packets = [.ok (some [8])] := by
  intro s marked datagrams
  have hpacketizer : (s.streams 7).map PipelineStream.packetizer = some packetizerBehind := by
    decide +kernel
  obtain ⟨stream, hs, hbehind⟩ := Option.map_eq_some_iff.1 hpacketizer
  have hsealed : List.Forall₂ (List.Forall₂ (SealedFrom tagOnly sharedCrypto)) datagrams
      (outputs (sendFrame TickClock.exact .release 7) s twoFrames) := by
    refine List.forall₂_map_left_iff.2 (List.forall₂_same.2 fun packets _ => ?_)
    exact forall₂_sealPackets_tagOnly sharedCrypto _ packets
  have hpush : chunkDepacketizer stream.packetizer = some VP8Depacketizer.pushPacket := by
    rw [hbehind]
    rfl
  have hmarked : marked.map (List.map Prod.fst) =
      sent (packetizeSent TickClock.exact .release) stream.packetizer twoFrames := by
    rw [hbehind]
    decide +kernel
  obtain ⟨-, packets, hreceived, hframes⟩ := frames_received TickClock.exact .release
    (rfl : oneStream.rtxEnabled = true) tagOnly_lawful (rfl : sharedCrypto.mode = sharedCrypto.mode)
    rfl 0 knows_frameAndResend hs hpush (by decide) hmarked (by decide +kernel)
    (by unfold DistinctTimestamps; decide +kernel) hsealed
  exact ⟨packets, hreceived, hframes.trans (by decide +kernel)⟩

end NativeVoice.Send
