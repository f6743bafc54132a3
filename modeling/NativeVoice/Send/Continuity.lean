import NativeVoice.Send.History

/-!
# Sequence numbers of an SSRC

The media packets of an SSRC on the wire, over any number of stream objects. A packetizer starts
behind a random sequence number when it is made: `retain_streams` and `clear` drop stream objects,
and `configure_stream` replaces the one of another codec or payload type. What is emitted is
recorded with a generation, which the SSRC leaves when its stream object goes or when sending a
frame fails before its last packet.

* `consecutive_of_generation`: within a generation sequence numbers are consecutive.
* `not_consecutive`: from one generation to the next they need not be.
-/

namespace NativeVoice.Send

open Lib Video Transport

/-- A packet on the wire, with the generation of its SSRC. -/
structure Emission where
  generation : ℕ
  packet : MediaPacket

/-- One packet follows another, if they are of one generation. -/
def Emission.Follows (a e : Emission) : Prop :=
  a.generation = e.generation → e.packet.sequence = a.packet.sequence + 1

structure Emitter (ρ : Type) where
  pipeline : VideoSendPipelineState ρ
  generation : UInt32 → ℕ := fun _ => 0
  emitted : UInt32 → List Emission := fun _ => []

namespace Emitter

variable {τ ρ : Type} (clock : TickClock τ ρ) (b : Build)

/-- A frame of which `sent` packets reach the wire, or all. -/
def emit (s : Emitter ρ) (mediaSsrc : UInt32) (packets : List MediaPacket) (sent : Option ℕ) :
    Emitter ρ :=
  let onWire := packets.take (sent.getD packets.length)
  { s with
    generation :=
      if onWire.length = packets.length then s.generation
      else Function.update s.generation mediaSsrc (s.generation mediaSsrc + 1)
    emitted := Function.update s.emitted mediaSsrc
      (s.emitted mediaSsrc ++ onWire.map fun packet => ⟨s.generation mediaSsrc, packet⟩) }

/-- The generations after a call that may drop or replace stream objects of the pipeline `s`. -/
def generationAfter (s : VideoSendPipelineState ρ) (generation : UInt32 → ℕ) :
    Call τ → UInt32 → ℕ
  | .configureStream codec mediaSsrc payloadType rtxPayloadType _ _ _ _ =>
    match VideoSendPipelineState.checkStream codec payloadType rtxPayloadType with
    | .error _ => generation
    | .ok (codec, payloadType, _) =>
      if Tracked.sameStream s mediaSsrc codec payloadType then generation
      else Function.update generation mediaSsrc (generation mediaSsrc + 1)
  | .retainStreams mediaSsrcs => fun mediaSsrc =>
    if mediaSsrc ∈ mediaSsrcs then generation mediaSsrc else generation mediaSsrc + 1
  | .clear _ => fun mediaSsrc => generation mediaSsrc + 1
  | _ => generation

/-- A call, and how many packets of its frame reach the wire if not all. -/
def step (s : Emitter ρ) (x : Call τ × Option ℕ) : Emitter ρ :=
  let after : Emitter ρ := {
    pipeline := s.pipeline.step clock b x.1
    generation := generationAfter s.pipeline s.generation x.1
    emitted := s.emitted }
  match x.1 with
  | .sendVideoFrame mediaSsrc frame metadataFrame frameTimeMs _ _ => after.emit mediaSsrc
      (Tracked.mediaPackets clock b s.pipeline mediaSsrc frame metadataFrame frameTimeMs) x.2
  | _ => after

def run (transportSequence : UInt16) (calls : List (Call τ × Option ℕ)) : Emitter ρ :=
  calls.foldl (step clock b) { pipeline := .new transportSequence }

/-! ## The invariant -/

/-- What is emitted on an SSRC is of no later generation, and its stream object goes on behind the
last packet of its own generation. -/
structure Continuous (s : Emitter ρ) (ssrc : UInt32) : Prop where
  chain : (s.emitted ssrc).IsChain Emission.Follows
  le : ∀ e ∈ s.emitted ssrc, e.generation ≤ s.generation ssrc
  last : ∀ stream, s.pipeline.streams ssrc = some stream → ∀ e ∈ (s.emitted ssrc).getLast?,
    e.generation = s.generation ssrc → stream.packetizer.state.sequence = e.packet.sequence

variable {clock b} {s : Emitter ρ} {ssrc : UInt32}

/-- A stream object that is made anew belongs to a new generation. -/
theorem Continuous.renew (h : s.Continuous ssrc) (pipeline : VideoSendPipelineState ρ)
    {generation : UInt32 → ℕ} (hlt : s.generation ssrc < generation ssrc) :
    ({ pipeline, generation, emitted := s.emitted } : Emitter ρ).Continuous ssrc where
  chain := h.chain
  le e he := (h.le e he).trans hlt.le
  last stream _ e he heq := by
    have hle := h.le e (List.mem_of_mem_getLast? he)
    have heq : e.generation = generation ssrc := heq
    omega

/-- A pipeline that keeps the packetizer of the SSRC. -/
theorem Continuous.keep (h : s.Continuous ssrc) {pipeline : VideoSendPipelineState ρ}
    {generation : UInt32 → ℕ} (hgeneration : generation ssrc = s.generation ssrc)
    (hkeep : ∀ stream, pipeline.streams ssrc = some stream → ∃ stream',
      s.pipeline.streams ssrc = some stream' ∧ stream.packetizer = stream'.packetizer) :
    ({ pipeline, generation, emitted := s.emitted } : Emitter ρ).Continuous ssrc where
  chain := h.chain
  le e he := (h.le e he).trans_eq hgeneration.symm
  last stream hs e he heq := by
    obtain ⟨stream', hs', hpacketizer⟩ := hkeep stream hs
    rw [hpacketizer]
    exact h.last stream' hs' e he (heq.trans hgeneration)

theorem keep_of_sameStreams {s s' : VideoSendPipelineState ρ}
    (h : VideoSendPipelineState.SameStreams s s') (stream : PipelineStream ρ)
    (hs : s'.streams ssrc = some stream) : ∃ stream', s.streams ssrc = some stream' ∧
      stream.packetizer = stream'.packetizer := by
  obtain ⟨rtxSequence, hstreams⟩ := h
  rw [hstreams ssrc, Option.map_eq_some_iff] at hs
  obtain ⟨stream', hs', rfl⟩ := hs
  exact ⟨stream', hs', rfl⟩

/-- Packets of one generation that are consecutive. -/
theorem isChain_follows (generation : ℕ) {packets : List MediaPacket}
    (h : Consecutive (packets.map MediaPacket.sequence)) :
    (packets.map fun packet => (⟨generation, packet⟩ : Emission)).IsChain Emission.Follows := by
  rw [Consecutive, List.isChain_map] at h
  rw [List.isChain_map]
  exact h.imp fun a e hae _ => hae

/-- A frame is emitted whose packets follow the packetizer, which goes on behind them. -/
theorem Continuous.emit (h : s.Continuous ssrc) {stream : PipelineStream ρ}
    (hs : s.pipeline.streams ssrc = some stream) {packets : List MediaPacket}
    (hchain : Consecutive (packets.map MediaPacket.sequence))
    (hhead : ∀ n ∈ (packets.map MediaPacket.sequence).head?,
      n = stream.packetizer.state.sequence + 1) (hne : packets ≠ [])
    {pipeline : VideoSendPipelineState ρ} (hlast : ∀ stream', pipeline.streams ssrc = some stream' →
      ∀ p ∈ packets.getLast?, stream'.packetizer.state.sequence = p.sequence) (sent : Option ℕ) :
    (({ s with pipeline } : Emitter ρ).emit ssrc packets sent).Continuous ssrc := by
  unfold Emitter.emit
  dsimp only
  generalize hn : sent.getD packets.length = n
  have hall : ∀ e ∈ (packets.take n).map fun packet => (⟨s.generation ssrc, packet⟩ : Emission),
      e.generation = s.generation ssrc := by
    intro e he
    obtain ⟨p, -, rfl⟩ := List.mem_map.1 he
    rfl
  have hle : ∀ e ∈ s.emitted ssrc ++
      (packets.take n).map fun packet => (⟨s.generation ssrc, packet⟩ : Emission),
      e.generation ≤ s.generation ssrc := by
    intro e he
    rcases List.mem_append.1 he with he | he
    · exact h.le e he
    · exact (hall e he).le
  refine ⟨?_, fun e he => ?_, fun stream' hs' e he heq => ?_⟩
  · simp only [Function.update_self]
    have hprefix : Consecutive ((packets.take n).map MediaPacket.sequence) :=
      List.IsChain.infix hchain (List.IsInfix.map _ (List.take_prefix n packets).isInfix)
    refine List.isChain_append.2 ⟨h.chain, isChain_follows _ hprefix, fun e he e' he' heq => ?_⟩
    -- the first packet follows the packetizer, which is behind the last one of its generation
    have hfirst : e'.packet.sequence = stream.packetizer.state.sequence + 1 := by
      rw [List.head?_map, Option.mem_def, Option.map_eq_some_iff] at he'
      obtain ⟨p, hp, rfl⟩ := he'
      rw [List.head?_take] at hp
      split at hp
      · cases hp
      · exact hhead _ (by rw [List.head?_map, hp]; rfl)
    rw [hfirst, h.last stream hs e he (heq.trans (hall e' (List.mem_of_mem_head? he')))]
  · simp only [Function.update_self] at he
    refine (hle e he).trans ?_
    split
    · exact le_rfl
    · simp
  · simp only [Function.update_self] at he
    split at heq
    · rename_i hlength
      have hfull : packets.take n = packets := List.take_eq_self_iff _ |>.2 (by
        rw [List.length_take] at hlength
        omega)
      rw [hfull, List.getLast?_append_of_ne_nil _ (by simpa using hne), List.getLast?_map,
        Option.mem_def, Option.map_eq_some_iff] at he
      obtain ⟨p, hp, rfl⟩ := he
      exact hlast stream' hs' p hp
    · have hold := hle e (List.mem_of_mem_getLast? he)
      simp only [Function.update_self] at heq
      omega

theorem Continuous.emit_other (h : s.Continuous ssrc) {mediaSsrc : UInt32} (hne : ssrc ≠ mediaSsrc)
    (packets : List MediaPacket) (sent : Option ℕ) :
    (s.emit mediaSsrc packets sent).Continuous ssrc := by
  have hgeneration : (s.emit mediaSsrc packets sent).generation ssrc = s.generation ssrc := by
    unfold Emitter.emit
    dsimp only
    split
    · rfl
    · exact Function.update_of_ne hne _ _
  have hemitted : (s.emit mediaSsrc packets sent).emitted ssrc = s.emitted ssrc :=
    Function.update_of_ne hne _ _
  exact ⟨by rw [hemitted]; exact h.chain, by rw [hemitted, hgeneration]; exact h.le,
    by rw [hemitted, hgeneration]; exact h.last⟩

theorem emit_nil (s : Emitter ρ) (mediaSsrc : UInt32) (sent : Option ℕ) :
    s.emit mediaSsrc [] sent = s := by
  simp [Emitter.emit]

/-! ## Runs -/

theorem pipeline_step (s : Emitter ρ) (x : Call τ × Option ℕ) :
    (s.step clock b x).pipeline = s.pipeline.step clock b x.1 := by
  obtain ⟨call, sent⟩ := x
  cases call <;> rfl

theorem packetizer_update (stream : PipelineStream ρ) (rtxPayloadType : Option UInt8)
    (rtxSsrc : UInt32) (rid : String) :
    (stream.update rtxPayloadType rtxSsrc rid).packetizer = stream.packetizer := by
  unfold PipelineStream.update
  dsimp only
  split <;> rfl

variable (clock) in
/-- Configuring a stream goes on with the packetizer that is there, or leaves the generation. -/
theorem Continuous.configure (h : s.Continuous ssrc) (codec : VideoCodec) (mediaSsrc : UInt32)
    (payloadType : UInt8) (rtxPayloadType : Option UInt8) (rtxSsrc : UInt32) (rid : String)
    (sequence : UInt16) (timestamp : UInt32) :
    ({ pipeline := s.pipeline.configure clock codec mediaSsrc payloadType rtxPayloadType rtxSsrc
        rid sequence timestamp
       generation := if Tracked.sameStream s.pipeline mediaSsrc codec payloadType then s.generation
        else Function.update s.generation mediaSsrc (s.generation mediaSsrc + 1)
       emitted := s.emitted } : Emitter ρ).Continuous ssrc := by
  -- the other SSRCs keep their stream objects
  have hother : ssrc ≠ mediaSsrc → ∀ stream : PipelineStream ρ,
      (s.pipeline.setStream mediaSsrc stream).streams ssrc = s.pipeline.streams ssrc :=
    fun hne stream => Function.update_of_ne hne _ _
  have hfresh : ∀ stream, ({ pipeline := s.pipeline.setStream mediaSsrc stream
                             generation := Function.update s.generation mediaSsrc
                               (s.generation mediaSsrc + 1)
                             emitted := s.emitted } : Emitter ρ).Continuous ssrc := by
    intro stream
    rcases eq_or_ne ssrc mediaSsrc with rfl | hne
    · exact h.renew _ (by simp)
    · refine h.keep (Function.update_of_ne hne _ _) fun stream' hs => ⟨stream', ?_, rfl⟩
      rwa [hother hne] at hs
  cases hs : s.pipeline.streams mediaSsrc with
  | none =>
    simp only [VideoSendPipelineState.configure, hs]
    rw [if_neg (by simp [Tracked.sameStream, hs])]
    exact hfresh _
  | some stream =>
    by_cases hsame : stream.codec = codec ∧ stream.payloadType = payloadType
    · simp only [VideoSendPipelineState.configure, hs, if_pos hsame]
      rw [if_pos (by simp [Tracked.sameStream, hs, hsame])]
      refine h.keep rfl fun stream' hs' => ?_
      rcases eq_or_ne ssrc mediaSsrc with rfl | hne
      · simp only [VideoSendPipelineState.setStream, Function.update_self,
          Option.some.injEq] at hs'
        exact ⟨stream, hs, hs' ▸ packetizer_update stream rtxPayloadType rtxSsrc rid⟩
      · rw [hother hne] at hs'
        exact ⟨stream', hs', rfl⟩
    · simp only [VideoSendPipelineState.configure, hs, if_neg hsame]
      rw [if_neg (by simpa [Tracked.sameStream, hs] using fun hc => not_and.1 hsame hc)]
      exact hfresh _

/-- A frame is prepared and emitted, or changes nothing. -/
theorem Continuous.sendVideoFrame (h : s.Continuous ssrc)
    (hmtu : ∀ ssrc stream, s.pipeline.streams ssrc = some stream →
      stream.packetizer.state.mtu = DEFAULT_MTU) (mediaSsrc : UInt32) (frame : Bytes)
    (metadataFrame : Option Bytes) (frameTimeMs : τ) (mediaStreamType : String) (now : ℕ → UInt32)
    (sent : Option ℕ) :
    (({ s with pipeline := (s.pipeline.prepareVideoFrameInner clock b mediaSsrc frame
      metadataFrame frameTimeMs mediaStreamType now).2 } : Emitter ρ).emit mediaSsrc
        (Tracked.mediaPackets clock b s.pipeline mediaSsrc frame metadataFrame frameTimeMs)
        sent).Continuous ssrc := by
  cases hs : s.pipeline.streams mediaSsrc with
  | none =>
    have hnone : Tracked.mediaPackets clock b s.pipeline mediaSsrc frame metadataFrame
        frameTimeMs = [] := by
      simp [Tracked.mediaPackets, hs]
    rw [hnone, emit_nil, VideoSendPipelineState.prepareVideoFrameInner, hs]
    exact h
  | some stream =>
    rcases VideoSendPipelineState.prepareVideoFrameInner_cases clock b hs (hmtu _ _ hs) frame
      metadataFrame frameTimeMs mediaStreamType now with
      ⟨e, he, heq⟩ | ⟨payloads, packetizer, hne, -, hpackets, hstate, heq⟩
    · have hnone : Tracked.mediaPackets clock b s.pipeline mediaSsrc frame metadataFrame
          frameTimeMs = [] := by
        simp [Tracked.mediaPackets, hs, he, Except.toOption]
      rw [hnone, emit_nil, heq]
      exact h
    · have hsome : Tracked.mediaPackets clock b s.pipeline mediaSsrc frame metadataFrame
          frameTimeMs =
            (stream.packetizer.state.packetsForPayloads (markLast true payloads)).1 := by
        simp [Tracked.mediaPackets, hs, hpackets, Except.toOption]
      rw [hsome, heq]
      set st := stream.packetizer.state with hst
      have hmarked : markLast true payloads ≠ [] := by
        rw [← List.length_pos_iff, length_markLast]
        exact List.length_pos_iff.2 hne
      rcases eq_or_ne ssrc mediaSsrc with rfl | hother
      · refine h.emit hs (st.consecutive_packetsForPayloads _) (st.head?_packetsForPayloads hmarked)
          ?_ (fun stream' hs' p hp => ?_) sent
        · rw [← List.length_pos_iff, PacketizerState.length_packetsForPayloads]
          exact List.length_pos_iff.2 hmarked
        · simp only [VideoSendPipelineState.setStream, Function.update_self,
            Option.some.injEq] at hs'
          rw [← hs', PipelineStream.cacheMediaPackets_eq, hstate]
          exact st.getLast?_packetsForPayloads _ p hp
      · refine Continuous.emit_other (h.keep rfl fun stream' hs' => ⟨stream', ?_, rfl⟩) hother _ _
        simpa only [VideoSendPipelineState.setStream, Function.update_of_ne hother] using hs'

theorem Continuous.step (h : s.Continuous ssrc)
    (hmtu : ∀ ssrc stream, s.pipeline.streams ssrc = some stream →
      stream.packetizer.state.mtu = DEFAULT_MTU) (x : Call τ × Option ℕ) :
    (s.step clock b x).Continuous ssrc := by
  obtain ⟨call, sent⟩ := x
  cases call with
  | configureStream codec mediaSsrc payloadType rtxPayloadType rtxSsrc rid sequence timestamp =>
    cases hcheck : VideoSendPipelineState.checkStream codec payloadType rtxPayloadType with
    | error e =>
      have hstep : s.step clock b (.configureStream codec mediaSsrc payloadType rtxPayloadType
          rtxSsrc rid sequence timestamp, sent) = s := by
        simp [Emitter.step, generationAfter, VideoSendPipelineState.step,
          VideoSendPipelineState.configureStream, hcheck]
      rwa [hstep]
    | ok checked =>
      have hconfigure := h.configure clock checked.1 mediaSsrc checked.2.1 checked.2.2
        rtxSsrc rid sequence timestamp
      simpa [Emitter.step, generationAfter, VideoSendPipelineState.step,
        VideoSendPipelineState.configureStream, hcheck] using hconfigure
  | retainStreams mediaSsrcs =>
    by_cases hmem : ssrc ∈ mediaSsrcs
    · refine h.keep (if_pos hmem) fun stream hs => ⟨stream, ?_, rfl⟩
      exact (if_pos hmem).symm.trans hs
    · refine h.renew _ ?_
      simp only [generationAfter, if_neg hmem]
      exact Nat.lt_succ_self _
  | clear transportSequence => exact h.renew _ (Nat.lt_succ_self _)
  | sendVideoFrame mediaSsrc frame metadataFrame frameTimeMs mediaStreamType now =>
    exact h.sendVideoFrame hmtu mediaSsrc frame metadataFrame frameTimeMs mediaStreamType now sent
  | sendVideoRtxPacket mediaSsrc sequence mediaStreamType now =>
    exact h.keep rfl (keep_of_sameStreams
      (s.pipeline.sameStreams_prepareVideoRtxPacketInner mediaSsrc sequence mediaStreamType now))
  | sendVideoRtxForNack payload mediaStreamType now =>
    exact h.keep rfl (keep_of_sameStreams
      (s.pipeline.sameStreams_prepareVideoRtxForNackInner payload mediaStreamType now))

/-- The run of the pipeline alone. -/
theorem pipeline_run (transportSequence : UInt16) (calls : List (Call τ × Option ℕ)) :
    (run clock b transportSequence calls).pipeline =
      (Tracked.run clock b transportSequence (calls.map Prod.fst)).pipeline := by
  induction calls using List.reverseRecOn with
  | nil => rfl
  | append_singleton calls x ih =>
    rw [List.map_append, Tracked.run, List.foldl_append, ← Tracked.run, run, List.foldl_append,
      ← run]
    exact (pipeline_step _ x).trans (by rw [ih]; rfl)

theorem continuous_run (transportSequence : UInt16) (calls : List (Call τ × Option ℕ))
    (ssrc : UInt32) : (run clock b transportSequence calls).Continuous ssrc := by
  induction calls using List.reverseRecOn with
  | nil => exact ⟨.nil, by simp [run], by simp [run]⟩
  | append_singleton calls x ih =>
    rw [run, List.foldl_append, ← run]
    refine ih.step (fun ssrc stream hs => ?_) x
    rw [pipeline_run] at hs
    exact (Tracked.recorded_run clock b transportSequence (calls.map Prod.fst) ssrc stream hs).mtu

end Emitter

section

variable {τ ρ : Type} (clock : TickClock τ ρ) (b : Build)

/-- **Sequence continuity**, in every run: two media packets that follow each other on an SSRC have
consecutive sequence numbers, unless the stream object went in between or sending a frame failed. -/
theorem consecutive_of_generation (transportSequence : UInt16)
    (calls : List (Call τ × Option ℕ)) (ssrc : UInt32) :
    ((Emitter.run clock b transportSequence calls).emitted ssrc).IsChain fun a e =>
      a.generation = e.generation → e.packet.sequence = a.packet.sequence + 1 :=
  (Emitter.continuous_run transportSequence calls ssrc).chain

end

/-- A stream is configured and sent on before and behind a `clear`. -/
def twoStreams : List (Call (Option ℚ) × Option ℕ) :=
  [(.configureStream "VP8" 7 101 none 0 "100" 100 0, none),
    (.sendVideoFrame 7 [1] none (some 33) "video" fun _ => 0, none),
    (.clear 0, none),
    (.configureStream "VP8" 7 101 none 0 "100" 500 0, none),
    (.sendVideoFrame 7 [2] none (some 33) "video" fun _ => 0, none)]

/-- **A new stream object starts elsewhere**, though every frame is sent in full. -/
theorem not_consecutive : ¬∀ (calls : List (Call (Option ℚ) × Option ℕ)) (ssrc : UInt32),
    (∀ x ∈ calls, x.2 = none) →
    ((Emitter.run TickClock.exact .release 0 calls).emitted ssrc).IsChain fun a e =>
      e.packet.sequence = a.packet.sequence + 1 := by
  intro h
  have hchain := h twoStreams 7 (by simp [twoStreams])
  have hsequences : (((Emitter.run TickClock.exact .release 0 twoStreams).emitted 7).map
      fun e => e.packet.sequence).IsChain fun a e => e = a + 1 := (List.isChain_map _).2 hchain
  exact absurd hsequences (by decide +kernel)

end NativeVoice.Send
