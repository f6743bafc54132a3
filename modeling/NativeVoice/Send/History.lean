import NativeVoice.Rtp.Sequence
import NativeVoice.Send.Contract

/-!
# Runs of the send pipeline

The calls of a `VideoSendPipeline` in any order. Next to the pipeline, a run keeps the history of
every stream object: the media packets that were prepared on it.

* `Records` is the invariant of a stream and its history, `Tracked.records` says that it holds in
  every run.
* `pipeline_contract`: what `prepare_video_frame_inner` does in every state that a run reaches.
* `rtx_cache_holds_latest`: what the cache holds in every state that a run reaches.
-/

namespace NativeVoice.Send

open Lib Video Transport

/-- The calls of a pipeline, with the random numbers and clock readings that they use. Whether the
packets are then protected and sent does not change the pipeline. -/
inductive Call (τ : Type)
  | configureStream (codec : String) (mediaSsrc : UInt32) (payloadType : UInt16)
    (rtxPayloadType : Option UInt16) (rtxSsrc : UInt32) (rid : String) (sequence : UInt16)
    (timestamp : UInt32)
  | retainStreams (mediaSsrcs : List UInt32)
  | clear (transportSequence : UInt16)
  | sendVideoFrame (mediaSsrc : UInt32) (frame : Bytes) (metadataFrame : Option Bytes)
    (frameTimeMs : τ) (mediaStreamType : String) (now : ℕ → UInt32)
  | sendVideoRtxPacket (mediaSsrc : UInt32) (sequence : UInt16) (mediaStreamType : String)
    (now : UInt32)
  | sendVideoRtxForNack (payload : Bytes) (mediaStreamType : String) (now : ℕ → UInt32)

namespace VideoSendPipelineState

variable {τ ρ : Type} (clock : TickClock τ ρ) (b : Build)

/-- The pipeline after a call. -/
def step (s : VideoSendPipelineState ρ) : Call τ → VideoSendPipelineState ρ
  | .configureStream codec mediaSsrc payloadType rtxPayloadType rtxSsrc rid sequence timestamp =>
    (s.configureStream clock codec mediaSsrc payloadType rtxPayloadType rtxSsrc rid sequence
      timestamp).2
  | .retainStreams mediaSsrcs => s.retainStreams mediaSsrcs
  | .clear transportSequence => s.clear transportSequence
  | .sendVideoFrame mediaSsrc frame metadataFrame frameTimeMs mediaStreamType now =>
    (s.prepareVideoFrameInner clock b mediaSsrc frame metadataFrame frameTimeMs mediaStreamType
      now).2
  | .sendVideoRtxPacket mediaSsrc sequence mediaStreamType now =>
    (s.prepareVideoRtxPacketInner mediaSsrc sequence mediaStreamType now).2
  | .sendVideoRtxForNack payload mediaStreamType now =>
    (s.prepareVideoRtxForNackInner payload mediaStreamType now).2

end VideoSendPipelineState

/-! ## Histories -/

/-- The media packets that were prepared on a stream object, and those of them that were prepared
since RTX last became active on it (none while it is not), oldest first. -/
structure History where
  sent : List MediaPacket := []
  sinceActive : List MediaPacket := []

structure Tracked (ρ : Type) where
  pipeline : VideoSendPipelineState ρ
  history : UInt32 → History

namespace Tracked

variable {τ ρ : Type} (clock : TickClock τ ρ) (b : Build)

def new (transportSequence : UInt16) : Tracked ρ where
  pipeline := .new transportSequence
  history := fun _ => {}

/-- The media packets that the packetizer of a stream makes of a frame. -/
def mediaPackets (s : VideoSendPipelineState ρ) (mediaSsrc : UInt32) (frame : Bytes)
    (metadataFrame : Option Bytes) (frameTimeMs : τ) : List MediaPacket :=
  match s.streams mediaSsrc with
  | none => []
  | some stream =>
    (stream.packetizer.packetize clock b frame metadataFrame frameTimeMs).1.toOption.getD []

def active (s : VideoSendPipelineState ρ) (mediaSsrc : UInt32) : Bool :=
  (s.streams mediaSsrc).any PipelineStream.rtxActive

/-- Whether `configure_stream` goes on with the stream object that is there. -/
def sameStream (s : VideoSendPipelineState ρ) (mediaSsrc : UInt32) (codec : VideoCodec)
    (payloadType : UInt8) : Bool :=
  (s.streams mediaSsrc).any fun stream => stream.codec = codec && stream.payloadType = payloadType

/-- The histories after a call that turned the pipeline `s` into `s'`. -/
def record (s s' : VideoSendPipelineState ρ) (history : UInt32 → History) :
    Call τ → UInt32 → History
  | .configureStream codec mediaSsrc payloadType rtxPayloadType _ _ _ _ =>
    match VideoSendPipelineState.checkStream codec payloadType rtxPayloadType with
    | .error _ => history
    | .ok (codec, payloadType, _) =>
      Function.update history mediaSsrc
        (if sameStream s mediaSsrc codec payloadType then
          { history mediaSsrc with
            sinceActive := if active s' mediaSsrc then (history mediaSsrc).sinceActive else [] }
        else {})
  | .retainStreams mediaSsrcs => fun mediaSsrc =>
    if mediaSsrc ∈ mediaSsrcs then history mediaSsrc else {}
  | .clear _ => fun _ => {}
  | .sendVideoFrame mediaSsrc frame metadataFrame frameTimeMs _ _ =>
    let packets := mediaPackets clock b s mediaSsrc frame metadataFrame frameTimeMs
    Function.update history mediaSsrc
      { sent := (history mediaSsrc).sent ++ packets
        sinceActive := (history mediaSsrc).sinceActive ++
          if active s mediaSsrc then packets else [] }
  | .sendVideoRtxPacket .. => history
  | .sendVideoRtxForNack .. => history

def step (t : Tracked ρ) (call : Call τ) : Tracked ρ where
  pipeline := t.pipeline.step clock b call
  history := record clock b t.pipeline (t.pipeline.step clock b call) t.history call

/-- The pipeline and the histories after a run. -/
def run (transportSequence : UInt16) (calls : List (Call τ)) : Tracked ρ :=
  calls.foldl (step clock b) (new transportSequence)

end Tracked

/-- A media packet as the cache keeps it. -/
def sentPacket (p : MediaPacket) : SentVideoPacket where
  payload := p.payload
  marker := p.marker
  sequence := p.sequence
  timestamp := p.timestamp

/-- The entry of a media packet in the cache. -/
def cacheEntry (p : MediaPacket) : UInt16 × SentVideoPacket := (p.sequence, sentPacket p)

/-! ## The invariant of a stream -/

/-- What a stream object has to do with its history. -/
structure Records {ρ : Type} (mediaSsrc : UInt32) (stream : PipelineStream ρ) (h : History) :
    Prop where
  mtu : stream.packetizer.state.mtu = DEFAULT_MTU
  ssrc : stream.packetizer.state.ssrc = mediaSsrc
  payloadType : stream.packetizer.state.payloadType = stream.payloadType
  payloadType_lt : stream.payloadType < 128
  rtxPayloadType_lt : ∀ pt ∈ stream.rtxPayloadType, pt < 128
  fields : ∀ p ∈ h.sent, p.ssrc = mediaSsrc ∧ p.payloadType = stream.payloadType
  consecutive : Consecutive (h.sent.map MediaPacket.sequence)
  last : ∀ p ∈ h.sent.getLast?, stream.packetizer.state.sequence = p.sequence
  suffix : h.sinceActive <:+ h.sent
  inactive : stream.rtxActive = false → h.sinceActive = []
  cache : FifoCache.Holds RTX_CACHE_MAX_PACKETS (h.sinceActive.map cacheEntry) stream.rtxCache
    stream.rtxOrder

namespace Records

variable {τ ρ : Type} {clock : TickClock τ ρ} {mediaSsrc : UInt32} {stream : PipelineStream ρ}
  {h : History}

/-- A packetizer with the given numbers. -/
theorem state_new (codec : VideoCodec) (ssrc : UInt32) (payloadType : UInt8) (sequence : UInt16)
    (timestamp : UInt32) :
    (PipelinePacketizer.new clock codec ssrc payloadType sequence timestamp).state =
      .new clock ssrc payloadType sequence timestamp := by
  cases codec <;> rfl

variable (clock mediaSsrc) in
theorem new (codec : VideoCodec) {payloadType : UInt8} (hpt : payloadType < 128)
    {rtxPayloadType : Option UInt8} (hrtx : ∀ pt ∈ rtxPayloadType, pt < 128) (rtxSsrc : UInt32)
    (rid : String) (sequence : UInt16) (timestamp : UInt32) :
    Records mediaSsrc (.new clock codec mediaSsrc payloadType rtxPayloadType rtxSsrc rid sequence
      timestamp) {} where
  mtu := by rw [PipelineStream.new, state_new]; rfl
  ssrc := by rw [PipelineStream.new, state_new]; rfl
  payloadType := by rw [PipelineStream.new, state_new]; rfl
  payloadType_lt := hpt
  rtxPayloadType_lt := hrtx
  fields := by simp
  consecutive := .nil
  last := by simp
  suffix := List.suffix_rfl
  inactive _ := rfl
  cache := .nil _

theorem update (hr : Records mediaSsrc stream h) {rtxPayloadType : Option UInt8}
    (hrtx : ∀ pt ∈ rtxPayloadType, pt < 128) (rtxSsrc : UInt32) (rid : String) :
    Records mediaSsrc (stream.update rtxPayloadType rtxSsrc rid)
      { h with sinceActive := if (stream.update rtxPayloadType rtxSsrc rid).rtxActive then
          h.sinceActive else [] } := by
  unfold PipelineStream.update
  dsimp only
  by_cases hactive : rtxPayloadType = none ∨ rtxSsrc = 0
  · rw [if_pos hactive]
    have hoff : (rtxPayloadType.isSome && rtxSsrc != 0) = false := by
      rcases hactive with rfl | rfl <;> simp
    have hempty : (if PipelineStream.rtxActive { stream with
        rtxPayloadType, rtxSsrc, rid, rtxCache := fun _ => none, rtxOrder := [], rtxSequence := 0 }
        then h.sinceActive else []) = [] := if_neg (by simp [PipelineStream.rtxActive, hoff])
    rw [hempty]
    exact { hr with
      rtxPayloadType_lt := hrtx
      suffix := List.nil_suffix
      inactive := fun _ => rfl
      cache := .nil _ }
  · rw [if_neg hactive]
    have hon : (rtxPayloadType.isSome && rtxSsrc != 0) = true := by
      rw [not_or, ← ne_eq, Option.ne_none_iff_isSome] at hactive
      simp [hactive.1, hactive.2]
    rw [if_pos (show PipelineStream.rtxActive { stream with rtxPayloadType, rtxSsrc, rid } = true
      from hon)]
    exact { hr with
      rtxPayloadType_lt := hrtx
      inactive := fun hoff => absurd (hon.symm.trans hoff) (by simp) }

/-- A stream whose RTX is active caches the packets that it sends. -/
theorem holds_cacheMediaPackets (stream : PipelineStream ρ) (log : List MediaPacket)
    {packets : List MediaPacket} (hactive : stream.rtxActive = true)
    (hcache : FifoCache.Holds RTX_CACHE_MAX_PACKETS (log.map cacheEntry) stream.rtxCache
      stream.rtxOrder)
    (hnext : Consecutive ((log ++ packets).map MediaPacket.sequence)) :
    FifoCache.Holds RTX_CACHE_MAX_PACKETS ((log ++ packets).map cacheEntry)
      (stream.cacheMediaPackets packets).rtxCache (stream.cacheMediaPackets packets).rtxOrder := by
  induction packets generalizing stream log with
  | nil => rwa [List.append_nil]
  | cons p packets ih =>
    have hnew : p.sequence ∉ stream.rtxOrder := by
      -- the packets in the cache and the new one are consecutive, and fewer than `2 ^ 16`
      set kept := log.rtake RTX_CACHE_MAX_PACKETS with hkept
      have hlen : kept.length ≤ RTX_CACHE_MAX_PACKETS := by
        rw [hkept, List.rtake, List.length_drop]
        omega
      have horder : stream.rtxOrder = kept.map MediaPacket.sequence := by
        rw [hcache.order_eq, FifoCache.rtake_map, List.map_map]
        rfl
      have hchain : Consecutive ((kept ++ [p]).map MediaPacket.sequence) := by
        refine List.IsChain.infix hnext (List.IsInfix.map _ ?_)
        refine ⟨log.take (log.length - RTX_CACHE_MAX_PACKETS), packets, ?_⟩
        rw [← List.append_assoc, hkept, List.rtake, List.take_append_drop, List.append_assoc]
        rfl
      have hnodup := hchain.nodup (by
        rw [List.length_map, List.length_append]
        simp only [RTX_CACHE_MAX_PACKETS, List.length_singleton] at hlen ⊢
        omega)
      rw [List.map_append, List.nodup_append] at hnodup
      rw [horder]
      exact fun hmem => hnodup.2.2 _ hmem _ (by simp) rfl
    have hstep := hcache.push (Nat.succ_pos _) hnew (sentPacket p)
    have hpush : stream.cacheMediaPacket p.payload p.marker p.sequence p.timestamp =
        { stream with
          rtxCache := (FifoCache.push RTX_CACHE_MAX_PACKETS stream.rtxCache stream.rtxOrder
            p.sequence (sentPacket p)).1
          rtxOrder := (FifoCache.push RTX_CACHE_MAX_PACKETS stream.rtxCache stream.rtxOrder
            p.sequence (sentPacket p)).2 } := by
      rw [PipelineStream.cacheMediaPacket, if_neg (by simp [hactive])]
      rfl
    have hrest := ih (stream.cacheMediaPacket p.payload p.marker p.sequence p.timestamp)
      (log ++ [p]) (by rw [hpush]; exact hactive)
      (by rw [hpush, List.map_append]; exact hstep) (by simpa using hnext)
    rw [List.append_assoc] at hrest
    exact hrest

theorem cacheMediaPackets_of_inactive (stream : PipelineStream ρ)
    (hactive : stream.rtxActive = false)
    (packets : List MediaPacket) : stream.cacheMediaPackets packets = stream := by
  induction packets with
  | nil => rfl
  | cons p packets ih =>
    have hp : stream.cacheMediaPacket p.payload p.marker p.sequence p.timestamp = stream := by
      rw [PipelineStream.cacheMediaPacket, if_pos (by simp [hactive])]
    rw [PipelineStream.cacheMediaPackets, List.foldl_cons, hp]
    exact ih

/-- **A stream after a frame.** -/
theorem send (hr : Records mediaSsrc stream h) {payloads : List Bytes} (hne : payloads ≠ [])
    {packetizer : PipelinePacketizer ρ} {frameTimeMs : τ}
    (hstate : packetizer.state = (stream.packetizer.state.packetsForPayloads
      (markLast true payloads)).2.incrementTimestamp clock frameTimeMs) :
    let packets := (stream.packetizer.state.packetsForPayloads (markLast true payloads)).1
    Records mediaSsrc ({ stream with packetizer }.cacheMediaPackets packets)
      { sent := h.sent ++ packets
        sinceActive := h.sinceActive ++ if stream.rtxActive then packets else [] } := by
  intro packets
  set st := stream.packetizer.state with hst
  have hmarked : markLast true payloads ≠ [] := by
    rw [← List.length_pos_iff, length_markLast]
    exact List.length_pos_iff.2 hne
  have hchain : Consecutive ((h.sent ++ packets).map MediaPacket.sequence) := by
    rw [List.map_append]
    refine hr.consecutive.append (st.consecutive_packetsForPayloads _) fun x hx y hy => ?_
    rw [List.getLast?_map, Option.mem_def, Option.map_eq_some_iff] at hx
    obtain ⟨p, hp, rfl⟩ := hx
    rw [← hr.last p hp]
    exact st.head?_packetsForPayloads hmarked y hy
  have hstream := PipelineStream.cacheMediaPackets_eq { stream with packetizer } packets
  rw [hstream]
  refine
    { mtu := ?_, ssrc := ?_, payloadType := ?_, payloadType_lt := hr.payloadType_lt
      rtxPayloadType_lt := hr.rtxPayloadType_lt, fields := ?_, consecutive := hchain, last := ?_
      suffix := ?_, inactive := ?_, cache := ?_ }
  · rw [hstate, PacketizerState.mtu_incrementTimestamp, PacketizerState.mtu_packetsForPayloads]
    exact hr.mtu
  · rw [hstate, PacketizerState.packetsForPayloads_state]
    exact hr.ssrc
  · rw [hstate, PacketizerState.packetsForPayloads_state]
    exact hr.payloadType
  · intro p hp
    rcases List.mem_append.1 hp with hp | hp
    · exact hr.fields p hp
    · obtain ⟨hssrc, hpt, -⟩ := st.fields_packetsForPayloads _ p hp
      exact ⟨hssrc.trans hr.ssrc, hpt.trans hr.payloadType⟩
  · intro p hp
    have hpackets : packets ≠ [] := by
      rw [← List.length_pos_iff, PacketizerState.length_packetsForPayloads]
      exact List.length_pos_iff.2 hmarked
    rw [List.getLast?_append_of_ne_nil _ hpackets] at hp
    rw [hstate]
    exact st.getLast?_packetsForPayloads _ p hp
  · split
    · exact List.suffix_append_self_iff.2 hr.suffix
    · rename_i hoff
      rw [hr.inactive (by simpa using hoff)]
      exact List.nil_suffix
  · intro hoff
    have hoff' : stream.rtxActive = false := hoff
    rw [if_neg (by simp [hoff']), hr.inactive hoff']
    rfl
  · have hcache : FifoCache.Holds RTX_CACHE_MAX_PACKETS (h.sinceActive.map cacheEntry)
        { stream with packetizer }.rtxCache { stream with packetizer }.rtxOrder := hr.cache
    cases hactive : stream.rtxActive with
    | false =>
      rw [cacheMediaPackets_of_inactive { stream with packetizer } hactive]
      simpa using hcache
    | true =>
      refine holds_cacheMediaPackets { stream with packetizer } _ hactive hcache ?_
      refine List.IsChain.suffix hchain (List.IsSuffix.map _ ?_)
      exact List.suffix_append_self_iff.2 hr.suffix

/-- A stream that sends packets again keeps its records. -/
theorem resend (hr : Records mediaSsrc stream h) (rtxSequence : UInt16) :
    Records mediaSsrc { stream with rtxSequence } h :=
  { hr with }

end Records

/-! ## One call -/

namespace VideoSendPipelineState

variable {τ ρ : Type} (clock : TickClock τ ρ) (b : Build)

/-- A pipeline whose stream is put back is the same one. -/
theorem setStream_self {s : VideoSendPipelineState ρ} {mediaSsrc : UInt32}
    {stream : PipelineStream ρ} (h : s.streams mediaSsrc = some stream) :
    s.setStream mediaSsrc stream = s := by
  rw [setStream, ← h, Function.update_eq_self]

/-- **Preparing a frame** fails without a trace, or prepares the packets of its payloads. -/
theorem prepareVideoFrameInner_cases {s : VideoSendPipelineState ρ} {mediaSsrc : UInt32}
    {stream : PipelineStream ρ} (hs : s.streams mediaSsrc = some stream)
    (hmtu : stream.packetizer.state.mtu = DEFAULT_MTU) (frame : Bytes)
    (metadataFrame : Option Bytes) (frameTimeMs : τ) (mediaStreamType : String)
    (now : ℕ → UInt32) :
    let st := stream.packetizer.state
    (∃ e, (stream.packetizer.packetize clock b frame metadataFrame frameTimeMs).1 = .error e ∧
      s.prepareVideoFrameInner clock b mediaSsrc frame metadataFrame frameTimeMs mediaStreamType
        now = (.error (packetError e), s)) ∨
    ∃ payloads packetizer, payloads ≠ [] ∧
      (∀ x ∈ payloads, x ≠ [] ∧ x.length ≤ DEFAULT_MTU) ∧
      (stream.packetizer.packetize clock b frame metadataFrame frameTimeMs).1 =
        .ok (st.packetsForPayloads (markLast true payloads)).1 ∧
      packetizer.state =
        (st.packetsForPayloads (markLast true payloads)).2.incrementTimestamp clock frameTimeMs ∧
      s.prepareVideoFrameInner clock b mediaSsrc frame metadataFrame frameTimeMs mediaStreamType
        now =
        (.ok {
            packets := (st.packetsForPayloads (markLast true payloads)).1.mapIdx fun i p =>
              preparedMedia (s.transportSequence + 1 + UInt16.ofNat i) stream.rid mediaStreamType
                (now i) p
            transportSequence := s.transportSequence + UInt16.ofNat payloads.length
            rtpTimestamp := st.timestamp
            lastSequence := (st.packetsForPayloads (markLast true payloads)).1.getLast?.map
              MediaPacket.sequence },
          { s.setStream mediaSsrc ({ stream with packetizer }.cacheMediaPackets
              (st.packetsForPayloads (markLast true payloads)).1) with
            transportSequence := s.transportSequence + UInt16.ofNat payloads.length }) := by
  intro st
  rcases PipelinePacketizer.packetizes clock b hmtu frame metadataFrame frameTimeMs with
    ⟨e, he⟩ | ⟨payloads, hne, hlen, hpackets, hstate⟩
  · refine .inl ⟨e, by rw [he], ?_⟩
    rw [prepareVideoFrameInner, hs]
    dsimp only
    rw [he]
    dsimp only
    rw [setStream_self hs]
  · refine .inr ⟨payloads, _, hne, hlen, hpackets, hstate, ?_⟩
    have hsplit : stream.packetizer.packetize clock b frame metadataFrame frameTimeMs =
        (.ok (st.packetsForPayloads (markLast true payloads)).1,
          (stream.packetizer.packetize clock b frame metadataFrame frameTimeMs).2) :=
      Prod.ext hpackets rfl
    have hloop (stream : PipelineStream ρ) := prepareMediaPackets_eq mediaStreamType now stream
      s.transportSequence fun p hp =>
        (st.fields_packetsForPayloads (markLast true payloads) p hp).2.2
    rw [prepareVideoFrameInner, hs]
    dsimp only
    rw [hsplit]
    dsimp only
    rw [hloop]
    dsimp only
    rw [PacketizerState.length_packetsForPayloads, length_markLast]
    rfl

/-- Two pipelines that differ at most in the numbers that count the packets sent. -/
def SameStreams (s s' : VideoSendPipelineState ρ) : Prop :=
  ∃ rtxSequence : UInt32 → UInt16, ∀ ssrc, s'.streams ssrc =
    (s.streams ssrc).map fun stream => { stream with rtxSequence := rtxSequence ssrc }

theorem SameStreams.refl (s : VideoSendPipelineState ρ) : SameStreams s s := by
  refine ⟨fun ssrc => ((s.streams ssrc).map PipelineStream.rtxSequence).getD 0, fun ssrc => ?_⟩
  cases h : s.streams ssrc <;> simp [h]

theorem SameStreams.trans {s s' s'' : VideoSendPipelineState ρ} (h : SameStreams s s')
    (h' : SameStreams s' s'') : SameStreams s s'' := by
  obtain ⟨rtxSequence, h⟩ := h
  obtain ⟨rtxSequence', h'⟩ := h'
  exact ⟨rtxSequence', fun ssrc => by rw [h' ssrc, h ssrc, Option.map_map]; rfl⟩

theorem SameStreams.count {s : VideoSendPipelineState ρ} {mediaSsrc : UInt32}
    {stream : PipelineStream ρ} (hs : s.streams mediaSsrc = some stream)
    (rtxSequence transportSequence : UInt16) :
    SameStreams s
      { s.setStream mediaSsrc { stream with rtxSequence } with transportSequence } := by
  refine ⟨fun ssrc => if ssrc = mediaSsrc then rtxSequence
    else ((s.streams ssrc).map PipelineStream.rtxSequence).getD 0, fun ssrc => ?_⟩
  by_cases h : ssrc = mediaSsrc
  · subst h
    simp [setStream, hs]
  · simp only [setStream, Function.update_of_ne h, if_neg h]
    cases s.streams ssrc <;> rfl

/-- A cached packet as it is prepared to be sent again. -/
def preparedRtx (rtxPayloadType : UInt8) (rtxSequence : UInt16) (rtxSsrc : UInt32)
    (transportSequence : UInt16) (rid mediaStreamType : String) (now : UInt32)
    (packet : SentVideoPacket) : PreparedRTPPacket :=
  extendedPacket rtxPayloadType rtxSequence packet.timestamp rtxSsrc packet.marker
    (videoExtensions transportSequence rid mediaStreamType true now)
    (u16BeBytes packet.sequence ++ packet.payload)

/-- **Preparing a packet to be sent again** counts it and never fails. -/
theorem prepareVideoRtxPacketInner_eq {s : VideoSendPipelineState ρ} {mediaSsrc : UInt32}
    {stream : PipelineStream ρ} (hs : s.streams mediaSsrc = some stream) {rtxPayloadType : UInt8}
    (hpt : stream.rtxPayloadType = some rtxPayloadType) (hssrc : stream.rtxSsrc ≠ 0)
    (sequence : UInt16) (mediaStreamType : String) (now : UInt32) :
    s.prepareVideoRtxPacketInner mediaSsrc sequence mediaStreamType now =
      match stream.rtxCache sequence with
      | none => (.ok s.nothingPrepared, s)
      | some packet =>
        (.ok {
            packet := some (preparedRtx rtxPayloadType (stream.rtxSequence + 1) stream.rtxSsrc
              (s.transportSequence + 1) stream.rid mediaStreamType now packet)
            rtxSsrc := stream.rtxSsrc
            rtxSequence := stream.rtxSequence + 1
            transportSequence := s.transportSequence + 1 },
          { s.setStream mediaSsrc { stream with rtxSequence := stream.rtxSequence + 1 } with
            transportSequence := s.transportSequence + 1 }) := by
  rw [prepareVideoRtxPacketInner, hs]
  dsimp only
  rw [hpt]
  dsimp only
  rw [if_neg hssrc]
  cases stream.rtxCache sequence with
  | none => rfl
  | some packet =>
    dsimp only
    rw [withExtension_newHeader]
    rfl

theorem sameStreams_prepareVideoRtxPacketInner (s : VideoSendPipelineState ρ) (mediaSsrc : UInt32)
    (sequence : UInt16) (mediaStreamType : String) (now : UInt32) :
    SameStreams s (s.prepareVideoRtxPacketInner mediaSsrc sequence mediaStreamType now).2 := by
  cases hs : s.streams mediaSsrc with
  | none =>
    rw [prepareVideoRtxPacketInner, hs]
    exact .refl s
  | some stream =>
    cases hpt : stream.rtxPayloadType with
    | none =>
      rw [prepareVideoRtxPacketInner, hs]
      dsimp only
      rw [hpt]
      exact .refl s
    | some rtxPayloadType =>
      by_cases hssrc : stream.rtxSsrc = 0
      · rw [prepareVideoRtxPacketInner, hs]
        dsimp only
        rw [hpt]
        dsimp only
        rw [if_pos hssrc]
        exact .refl s
      · rw [prepareVideoRtxPacketInner_eq hs hpt hssrc]
        cases stream.rtxCache sequence with
        | none => exact .refl s
        | some packet => exact .count hs _ _

theorem sameStreams_prepareResends (mediaSsrc : UInt32) (mediaStreamType : String)
    (now : ℕ → UInt32) (s : VideoSendPipelineState ρ) (r : Resend) (sequences : List UInt16) :
    SameStreams s (prepareResends mediaSsrc mediaStreamType now s r sequences).2 := by
  induction sequences generalizing s r with
  | nil => exact .refl s
  | cons sequence sequences ih =>
    have hone := s.sameStreams_prepareVideoRtxPacketInner mediaSsrc sequence mediaStreamType
      (now r.resent)
    rw [prepareResends]
    split
    · rename_i heq
      rwa [heq] at hone
    · rename_i heq
      rw [heq] at hone
      exact hone.trans (ih _ _)

theorem sameStreams_prepareVideoRtxForNackInner (s : VideoSendPipelineState ρ) (payload : Bytes)
    (mediaStreamType : String) (now : ℕ → UInt32) :
    SameStreams s (s.prepareVideoRtxForNackInner payload mediaStreamType now).2 := by
  unfold prepareVideoRtxForNackInner
  split
  · rename_i r0 r1 r2 r3 chunks
    split
    · exact .refl s
    · dsimp only
      split
      · exact .refl s
      · have h := sameStreams_prepareResends (u32FromBe r0 r1 r2 r3) mediaStreamType now s {}
          (nackBodySequences chunks)
        split
        · rename_i heq
          rwa [heq] at h
        · rename_i heq
          rwa [heq] at h
  · exact .refl s

end VideoSendPipelineState

/-! ## Runs -/

namespace Tracked

variable {τ ρ : Type} (clock : TickClock τ ρ) (b : Build)

/-- Every stream agrees with its history. -/
def Recorded (t : Tracked ρ) : Prop :=
  ∀ ssrc stream, t.pipeline.streams ssrc = some stream → Records ssrc stream (t.history ssrc)

theorem recorded_of_sameStreams {t : Tracked ρ} (h : t.Recorded) {s' : VideoSendPipelineState ρ}
    (hs : VideoSendPipelineState.SameStreams t.pipeline s') :
    (⟨s', t.history⟩ : Tracked ρ).Recorded := by
  obtain ⟨rtxSequence, hs⟩ := hs
  intro ssrc stream hstream
  dsimp only at hstream
  rw [hs ssrc, Option.map_eq_some_iff] at hstream
  obtain ⟨stream, hstream, rfl⟩ := hstream
  exact (h ssrc stream hstream).resend _

theorem validatePayloadType_lt {payloadType : UInt16} {name : String} {pt : UInt8}
    (h : validatePayloadType payloadType name = .ok pt) : pt < 128 := by
  unfold validatePayloadType at h
  split at h
  · cases h
  · rename_i hle
    obtain rfl := Except.ok.inj h
    rw [UInt8.lt_iff_toNat_lt, UInt16.toNat_toUInt8]
    have : payloadType.toNat ≤ 127 := UInt16.le_iff_toNat_le.1 (UInt16.not_lt.1 hle)
    exact Nat.lt_of_le_of_lt (Nat.mod_le _ _) (Nat.lt_succ_of_le this)

theorem checkStream_lt {codec : String} {payloadType : UInt16} {rtxPayloadType : Option UInt16}
    {c : VideoCodec} {pt : UInt8} {rtx : Option UInt8}
    (h : VideoSendPipelineState.checkStream codec payloadType rtxPayloadType = .ok (c, pt, rtx)) :
    pt < 128 ∧ ∀ rpt ∈ rtx, rpt < 128 := by
  unfold VideoSendPipelineState.checkStream at h
  cases hc : parseVideoCodec codec with
  | error e => simp [hc, bind, Except.bind] at h
  | ok c' =>
    cases hp : validatePayloadType payloadType "payload_type" with
    | error e => simp [hc, hp, bind, Except.bind] at h
    | ok pt' =>
      cases rtxPayloadType with
      | none =>
        simp only [hc, hp, bind, Except.bind, pure, Except.pure, Except.ok.injEq,
          Prod.mk.injEq] at h
        obtain ⟨-, rfl, rfl⟩ := h
        exact ⟨validatePayloadType_lt hp, by simp⟩
      | some rtxPayloadType =>
        cases hr : validatePayloadType rtxPayloadType "rtx_payload_type" with
        | error e => simp [hc, hp, hr, bind, Except.bind] at h
        | ok rpt =>
          simp only [hc, hp, hr, bind, Except.bind, pure, Except.pure, Except.ok.injEq,
            Prod.mk.injEq] at h
          obtain ⟨-, rfl, rfl⟩ := h
          refine ⟨validatePayloadType_lt hp, fun q hq => ?_⟩
          obtain rfl := Option.some.inj hq
          exact validatePayloadType_lt hr

theorem recorded_new (transportSequence : UInt16) : (new transportSequence : Tracked ρ).Recorded :=
  fun ssrc stream h => by simp [new, VideoSendPipelineState.new] at h

/-- Replacing one stream and its history. -/
theorem Recorded.set {t : Tracked ρ} (h : t.Recorded) {mediaSsrc : UInt32}
    {stream : PipelineStream ρ} {history : History} (hr : Records mediaSsrc stream history)
    (transportSequence : UInt16) :
    (⟨{ t.pipeline.setStream mediaSsrc stream with transportSequence },
      Function.update t.history mediaSsrc history⟩ : Tracked ρ).Recorded := by
  intro ssrc stream' hstream
  by_cases hssrc : ssrc = mediaSsrc
  · subst hssrc
    simp only [VideoSendPipelineState.setStream, Function.update_self, Option.some.injEq] at hstream
    subst hstream
    simpa using hr
  · simp only [VideoSendPipelineState.setStream, Function.update_of_ne hssrc] at hstream
    simpa [Function.update_of_ne hssrc] using h ssrc stream' hstream

/-- Configuring a stream with arguments that pass the checks. -/
theorem step_configureStream {t : Tracked ρ} {codec : String} {mediaSsrc : UInt32}
    {payloadType : UInt16} {rtxPayloadType : Option UInt16} {rtxSsrc : UInt32} {rid : String}
    {sequence : UInt16} {timestamp : UInt32} {checked : VideoCodec × UInt8 × Option UInt8}
    (hcheck : VideoSendPipelineState.checkStream codec payloadType rtxPayloadType = .ok checked) :
    t.step clock b (.configureStream codec mediaSsrc payloadType rtxPayloadType rtxSsrc rid sequence
      timestamp) =
      let s' := t.pipeline.configure clock checked.1 mediaSsrc checked.2.1 checked.2.2 rtxSsrc rid
        sequence timestamp
      ⟨s', Function.update t.history mediaSsrc
        (if sameStream t.pipeline mediaSsrc checked.1 checked.2.1 then
          { t.history mediaSsrc with
            sinceActive := if active s' mediaSsrc then (t.history mediaSsrc).sinceActive else [] }
        else {})⟩ := by
  simp [step, record, VideoSendPipelineState.step, VideoSendPipelineState.configureStream, hcheck]

theorem recorded_configureStream {t : Tracked ρ} (h : t.Recorded) (codec : String)
    (mediaSsrc : UInt32) (payloadType : UInt16) (rtxPayloadType : Option UInt16) (rtxSsrc : UInt32)
    (rid : String) (sequence : UInt16) (timestamp : UInt32) :
    (t.step clock b
      (.configureStream codec mediaSsrc payloadType rtxPayloadType rtxSsrc rid sequence
        timestamp)).Recorded := by
  cases hcheck : VideoSendPipelineState.checkStream codec payloadType rtxPayloadType with
  | error e =>
    have hstep : t.step clock b (.configureStream codec mediaSsrc payloadType rtxPayloadType rtxSsrc
        rid sequence timestamp) = t := by
      simp [step, record, VideoSendPipelineState.step, VideoSendPipelineState.configureStream,
        hcheck]
    rwa [hstep]
  | ok checked =>
    rw [step_configureStream clock b hcheck]
    obtain ⟨codec, payloadType, rtxPayloadType⟩ := checked
    obtain ⟨hpt, hrtx⟩ := checkStream_lt hcheck
    dsimp only
    have hfresh := h.set (Records.new clock mediaSsrc codec hpt hrtx
      rtxSsrc rid sequence timestamp) t.pipeline.transportSequence
    cases hs : t.pipeline.streams mediaSsrc with
    | none =>
      simp only [VideoSendPipelineState.configure, hs]
      rw [if_neg (by simp [sameStream, hs])]
      exact hfresh
    | some stream =>
      by_cases hsame : stream.codec = codec ∧ stream.payloadType = payloadType
      · simp only [VideoSendPipelineState.configure, hs, if_pos hsame]
        rw [if_pos (by simp [sameStream, hs, hsame])]
        have hactive : active (t.pipeline.setStream mediaSsrc
            (stream.update rtxPayloadType rtxSsrc rid)) mediaSsrc =
            (stream.update rtxPayloadType rtxSsrc rid).rtxActive := by
          simp [active, VideoSendPipelineState.setStream]
        simp only [hactive]
        exact h.set ((h mediaSsrc stream hs).update hrtx rtxSsrc rid) t.pipeline.transportSequence
      · simp only [VideoSendPipelineState.configure, hs, if_neg hsame]
        rw [if_neg (by simpa [sameStream, hs] using fun hc => not_and.1 hsame hc)]
        exact hfresh

theorem step_sendVideoFrame (t : Tracked ρ) (mediaSsrc : UInt32) (frame : Bytes)
    (metadataFrame : Option Bytes) (frameTimeMs : τ) (mediaStreamType : String)
    (now : ℕ → UInt32) :
    t.step clock b (.sendVideoFrame mediaSsrc frame metadataFrame frameTimeMs mediaStreamType now) =
      ⟨(t.pipeline.prepareVideoFrameInner clock b mediaSsrc frame metadataFrame frameTimeMs
          mediaStreamType now).2,
        Function.update t.history mediaSsrc
          { sent := (t.history mediaSsrc).sent ++
              mediaPackets clock b t.pipeline mediaSsrc frame metadataFrame frameTimeMs
            sinceActive := (t.history mediaSsrc).sinceActive ++ if active t.pipeline mediaSsrc then
              mediaPackets clock b t.pipeline mediaSsrc frame metadataFrame frameTimeMs
            else [] }⟩ :=
  rfl

theorem recorded_sendVideoFrame {t : Tracked ρ} (h : t.Recorded) (mediaSsrc : UInt32)
    (frame : Bytes) (metadataFrame : Option Bytes) (frameTimeMs : τ) (mediaStreamType : String)
    (now : ℕ → UInt32) :
    (t.step clock b (.sendVideoFrame mediaSsrc frame metadataFrame frameTimeMs mediaStreamType
      now)).Recorded := by
  rw [step_sendVideoFrame]
  have hkeep : Function.update t.history mediaSsrc
      { sent := (t.history mediaSsrc).sent ++ []
        sinceActive := (t.history mediaSsrc).sinceActive ++
          if active t.pipeline mediaSsrc then [] else [] } = t.history := by
    simp
  cases hs : t.pipeline.streams mediaSsrc with
  | none =>
    have hnone :
        mediaPackets clock b t.pipeline mediaSsrc frame metadataFrame frameTimeMs = [] := by
      simp [mediaPackets, hs]
    rw [hnone, hkeep, VideoSendPipelineState.prepareVideoFrameInner, hs]
    exact h
  | some stream =>
    have hr := h mediaSsrc stream hs
    rcases VideoSendPipelineState.prepareVideoFrameInner_cases clock b hs hr.mtu frame metadataFrame
      frameTimeMs mediaStreamType now with
      ⟨e, he, heq⟩ | ⟨payloads, packetizer, hne, -, hpackets, hstate, heq⟩
    · have hnone : mediaPackets clock b t.pipeline mediaSsrc frame metadataFrame frameTimeMs =
          [] := by
        simp [mediaPackets, hs, he, Except.toOption]
      rw [hnone, hkeep, heq]
      exact h
    · have hsome : mediaPackets clock b t.pipeline mediaSsrc frame metadataFrame frameTimeMs =
          (stream.packetizer.state.packetsForPayloads (markLast true payloads)).1 := by
        simp [mediaPackets, hs, hpackets, Except.toOption]
      have hactive : active t.pipeline mediaSsrc = stream.rtxActive := by
        simp [active, hs]
      rw [hsome, hactive, heq]
      exact h.set (hr.send hne hstate) _

/-- **Every call keeps the records.** -/
theorem Recorded.step {t : Tracked ρ} (h : t.Recorded) (call : Call τ) :
    (t.step clock b call).Recorded := by
  cases call with
  | configureStream codec mediaSsrc payloadType rtxPayloadType rtxSsrc rid sequence timestamp =>
    exact recorded_configureStream clock b h _ _ _ _ _ _ _ _
  | retainStreams mediaSsrcs =>
    intro ssrc stream hstream
    by_cases hmem : ssrc ∈ mediaSsrcs
    · have hstream' : t.pipeline.streams ssrc = some stream := by
        simpa [Tracked.step, VideoSendPipelineState.step,
          VideoSendPipelineState.retainStreams, hmem]
          using hstream
      simpa [Tracked.step, record, hmem] using h ssrc stream hstream'
    · simp [Tracked.step, VideoSendPipelineState.step, VideoSendPipelineState.retainStreams,
        hmem] at hstream
  | clear transportSequence =>
    intro ssrc stream hstream
    simp [Tracked.step, VideoSendPipelineState.step, VideoSendPipelineState.clear] at hstream
  | sendVideoFrame mediaSsrc frame metadataFrame frameTimeMs mediaStreamType now =>
    exact recorded_sendVideoFrame clock b h _ _ _ _ _ _
  | sendVideoRtxPacket mediaSsrc sequence mediaStreamType now =>
    exact recorded_of_sameStreams h
      (t.pipeline.sameStreams_prepareVideoRtxPacketInner mediaSsrc sequence mediaStreamType now)
  | sendVideoRtxForNack payload mediaStreamType now =>
    exact recorded_of_sameStreams h
      (t.pipeline.sameStreams_prepareVideoRtxForNackInner payload mediaStreamType now)

/-- **In every run the streams agree with their histories.** -/
theorem recorded_run (transportSequence : UInt16) (calls : List (Call τ)) :
    (run clock b transportSequence calls).Recorded := by
  unfold run
  generalize ht : (new transportSequence : Tracked ρ) = t
  have h : t.Recorded := ht ▸ recorded_new transportSequence
  clear ht
  induction calls generalizing t with
  | nil => exact h
  | cons call calls ih => exact ih _ (h.step clock b call)

end Tracked

/-! ## What holds in every run -/

section Contract

variable {τ ρ : Type} (clock : TickClock τ ρ) (b : Build) (transportSequence : UInt16)
  (calls : List (Call τ))

/-- **The contract of packetizers and pipeline**, in every state that a run reaches. A frame that
cannot be prepared changes nothing. Otherwise its packets follow the previous media packet of the
stream and each other, carry the timestamp from before the call, have the marker on the last one
only, and payloads of 1 to 1200 bytes; prepared are these packets with their header extensions. -/
theorem pipeline_contract (mediaSsrc : UInt32) (frame : Bytes) (metadataFrame : Option Bytes)
    (frameTimeMs : τ) (mediaStreamType : String) (now : ℕ → UInt32) :
    let t := Tracked.run clock b transportSequence calls
    let r := t.pipeline.prepareVideoFrameInner clock b mediaSsrc frame metadataFrame frameTimeMs
      mediaStreamType now
    (∀ e, r.1 = .error e → r.2 = t.pipeline) ∧
    ∀ prepared, r.1 = .ok prepared → ∃ stream packets,
      t.pipeline.streams mediaSsrc = some stream ∧
      packets =
        Tracked.mediaPackets clock b t.pipeline mediaSsrc frame metadataFrame frameTimeMs ∧
      prepared = {
        packets := packets.mapIdx fun i p =>
          preparedMedia (t.pipeline.transportSequence + 1 + UInt16.ofNat i) stream.rid
            mediaStreamType (now i) p
        transportSequence := t.pipeline.transportSequence + UInt16.ofNat packets.length
        rtpTimestamp := stream.packetizer.timestamp
        lastSequence := packets.getLast?.map MediaPacket.sequence } ∧
      packets ≠ [] ∧
      Consecutive (packets.map MediaPacket.sequence) ∧
      (∀ previous ∈ (t.history mediaSsrc).sent.getLast?,
        (packets.map MediaPacket.sequence).head? = some (previous.sequence + 1)) ∧
      (∀ p ∈ packets, p.timestamp = stream.packetizer.timestamp) ∧
      MarkedAtEnd packets ∧
      ∀ p ∈ packets, p.payload ≠ [] ∧ p.payload.length ≤ 1200 := by
  intro t r
  cases hs : t.pipeline.streams mediaSsrc with
  | none =>
    have hr : r = (.error (.err (VideoSendPipelineState.unknownStream mediaSsrc)), t.pipeline) := by
      show t.pipeline.prepareVideoFrameInner clock b mediaSsrc frame metadataFrame frameTimeMs
        mediaStreamType now = _
      rw [VideoSendPipelineState.prepareVideoFrameInner, hs]
    rw [hr]
    exact ⟨fun e _ => rfl, fun prepared h => by cases h⟩
  | some stream =>
    have hrecords := Tracked.recorded_run clock b transportSequence calls mediaSsrc stream hs
    rcases VideoSendPipelineState.prepareVideoFrameInner_cases clock b hs hrecords.mtu frame
      metadataFrame frameTimeMs mediaStreamType now with
      ⟨e, -, heq⟩ | ⟨payloads, packetizer, hne, hlen, hpackets, -, heq⟩
    · have hr : r = (.error (packetError e), t.pipeline) := heq
      rw [hr]
      exact ⟨fun e _ => rfl, fun prepared h => by cases h⟩
    · set st := stream.packetizer.state
      set packets := (st.packetsForPayloads (markLast true payloads)).1 with hpacketsDef
      have hlength : packets.length = payloads.length := by
        rw [hpacketsDef, PacketizerState.length_packetsForPayloads, length_markLast]
      refine ⟨fun e h => ?_,
        fun prepared h => ⟨stream, packets, rfl, ?_, ?_, ?_, ?_, ?_, ?_, ?_, ?_⟩⟩
      · rw [show r.1 = _ from congrArg Prod.fst heq] at h
        cases h
      · simp [Tracked.mediaPackets, hs, hpackets, Except.toOption]
      · rw [show r.1 = _ from congrArg Prod.fst heq] at h
        rw [← Except.ok.inj h, hlength]
        rfl
      · rw [← List.length_pos_iff, hlength]
        exact List.length_pos_iff.2 hne
      · exact st.consecutive_packetsForPayloads _
      · intro previous hprevious
        have hmarked : markLast true payloads ≠ [] := by
          rw [← List.length_pos_iff, length_markLast]
          exact List.length_pos_iff.2 hne
        rw [← hrecords.last previous hprevious]
        obtain ⟨x, l, hl⟩ := List.exists_cons_of_ne_nil hmarked
        simp [hpacketsDef, hl, PacketizerState.sequence_packetsForPayloads, List.range_succ_eq_map]
        rfl
      · exact st.timestamp_packetsForPayloads _
      · exact markedAtEnd_packetsForPayloads st hne
      · intro p hp
        have hpayload : p.payload ∈ payloads := by
          rw [← map_fst_markLast true payloads,
            ← st.map_packetsForPayloads (markLast true payloads),
            List.map_map]
          exact List.mem_map_of_mem (f := Prod.fst ∘ fun p => (p.payload, p.marker)) hp
        exact hlen p.payload hpayload

/-- **The RTX cache** holds in every state that a run reaches, for every stream, exactly the last
`min n 16384` of the `n` media packets that were prepared on the stream object since RTX last became
active, as they were sent, and the queue lists their sequence numbers from oldest to newest. -/
theorem rtx_cache_holds_latest (mediaSsrc : UInt32) {stream : PipelineStream ρ}
    (hs : (Tracked.run clock b transportSequence calls).pipeline.streams mediaSsrc = some stream) :
    let log := ((Tracked.run clock b transportSequence calls).history mediaSsrc).sinceActive
    let kept := log.rtake RTX_CACHE_MAX_PACKETS
    kept.length = min log.length 16384 ∧
    stream.rtxOrder = kept.map MediaPacket.sequence ∧
    stream.rtxOrder.Nodup ∧
    (∀ n packet, stream.rtxCache n = some packet ↔
      ∃ p ∈ kept, p.sequence = n ∧ sentPacket p = packet) ∧
    ∀ n, n ∈ stream.rtxOrder ↔ (stream.rtxCache n).isSome := by
  intro log kept
  have hcache : FifoCache.Holds RTX_CACHE_MAX_PACKETS (log.map cacheEntry) stream.rtxCache
      stream.rtxOrder :=
    (Tracked.recorded_run clock b transportSequence calls mediaSsrc stream hs).cache
  refine ⟨?_, ?_, hcache.nodup, fun n packet => ?_, fun n => ?_⟩
  · show (log.rtake RTX_CACHE_MAX_PACKETS).length = min log.length RTX_CACHE_MAX_PACKETS
    rw [List.rtake, List.length_drop]
    omega
  · rw [hcache.order_eq, FifoCache.rtake_map, List.map_map]
    rfl
  · rw [hcache.table_eq_some, FifoCache.rtake_map, List.mem_map]
    simp only [cacheEntry, Prod.mk.injEq]
    rfl
  · rw [hcache.mem_order, Option.isSome_iff_exists]

end Contract

/-- A stream is configured, and a frame is sent on it in one packet of VP8. -/
def oneFrame : List (Call (Option ℚ)) :=
  [.configureStream "VP8" 7 101 (some 102) 8 "100" 65534 90000,
    .sendVideoFrame 7 [1, 2, 3] none (some 33) "video" fun _ => 0]

theorem rtx_cache_holds_latest_one :
    ∃ stream, (Tracked.run TickClock.exact .release 0 oneFrame).pipeline.streams 7 = some stream ∧
      stream.rtxOrder = [65535] ∧ stream.rtxOrder.Nodup := by
  obtain ⟨stream, hs⟩ := Option.isSome_iff_exists.1 (show ((Tracked.run TickClock.exact .release 0
    oneFrame).pipeline.streams 7).isSome = true by decide +kernel)
  obtain ⟨-, horder, hnodup, -⟩ := rtx_cache_holds_latest TickClock.exact .release 0 _ 7 hs
  refine ⟨stream, hs, horder.trans ?_, hnodup⟩
  decide +kernel

end NativeVoice.Send
