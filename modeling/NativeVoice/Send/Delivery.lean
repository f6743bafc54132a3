import NativeVoice.Receive.SocketPackets
import NativeVoice.Send.VideoSending

/-!
# From the pipeline to a receiver

The datagrams that `send_prepared_packets` of `src/src/python/video_send.rs` seals in a run of the
pipeline, and what `_decode_rtp_packets` and `_decode_decoded_media_packet` of
`src/discord/ext/native_voice/client.py` make of them.

* `Carries` is where both sides meet: a prepared packet that stands for a media packet.
* `Session.Keeps` is the invariant of a run: every datagram was sealed from such a packet.
* `Carries.receive`: a receiver gets the media packet from the datagram.
* `received_run`: it never gets anything else, whatever is lost, repeated or overtaken on the way.
* `received_frame`: it gets the packets of a frame as they were made.
-/

namespace NativeVoice.Send

open Lib Video Transport

/-! ## Sealing -/

/-- The datagrams of `send_prepared_packets`, up to a packet that the cipher does not take. `nonces`
are the counts that the crypto has come to, which other threads use as well. -/
def sealPackets (aead : Aead) (tx : TransportCrypto) (nonces : ℕ → UInt32) :
    List PreparedRTPPacket → List Bytes
  | [] => []
  | packet :: packets =>
    match ({ tx with nonce := nonces 0 }.encryptRtp aead packet.header packet.payload).1 with
    | .error _ => []
    | .ok data => data :: sealPackets aead tx (fun i => nonces (i + 1)) packets

/-- A datagram is a packet that was sealed. -/
def SealedFrom (aead : Aead) (tx : TransportCrypto) (data : Bytes) (packet : PreparedRTPPacket) :
    Prop :=
  ∃ nonce, ({ tx with nonce }.encryptRtp aead packet.header packet.payload).1 = .ok data

/-- The datagrams are the packets, in their order, from the first one on. -/
theorem forall₂_sealPackets (aead : Aead) (tx : TransportCrypto) (nonces : ℕ → UInt32)
    (packets : List PreparedRTPPacket) :
    List.Forall₂ (SealedFrom aead tx) (sealPackets aead tx nonces packets)
      (packets.take (sealPackets aead tx nonces packets).length) := by
  induction packets generalizing nonces with
  | nil => exact .nil
  | cons packet packets ih =>
    unfold sealPackets
    split
    · exact .nil
    · rename_i data hsealed
      exact .cons ⟨nonces 0, hsealed⟩ (ih _)

theorem exists_of_mem_sealPackets {aead : Aead} {tx : TransportCrypto} {nonces : ℕ → UInt32}
    {packets : List PreparedRTPPacket} {data : Bytes}
    (h : data ∈ sealPackets aead tx nonces packets) :
    ∃ packet ∈ packets, SealedFrom aead tx data packet := by
  obtain ⟨i, hi, rfl⟩ := List.getElem_of_mem h
  have hsealed := forall₂_sealPackets aead tx nonces packets
  have hi' := hsealed.length_eq ▸ hi
  exact ⟨_, List.mem_of_mem_take (List.getElem_mem hi'), hsealed.get hi hi'⟩

/-! ## Opening -/

/-- The fields that a receiver reads from a datagram. -/
def Opened (aead : Aead) (rx : TransportCrypto) (data : Bytes) (decoded : DecodedRTPPacket) :
    Prop :=
  ∀ index, ∃ rtp decrypted, RtpPacket.parse data = .ok rtp ∧
    decryptRtpPacketInner aead rx index rtp = .ok decrypted ∧ decrypted.index = index ∧
    decrypted.decoded = decoded

/-- **A batch of datagrams that can be opened** is opened without a failure. -/
theorem decryptRtpPackets_eq {aead : Aead} {rx : TransportCrypto} {batch : List Bytes}
    {decoded : List DecodedRTPPacket} (h : List.Forall₂ (Opened aead rx) batch decoded) :
    decryptRtpPackets aead rx batch = (0, decoded.mapIdx fun i d => (i, d)) := by
  have hall (index : ℕ) : (parseRtpPackets index batch).1 = 0 ∧
      (decryptRtpPacketBatch aead rx (parseRtpPackets index batch).2).1 = 0 ∧
      (decryptRtpPacketBatch aead rx (parseRtpPackets index batch).2).2.map
        (fun d => (d.index, d.decoded)) = decoded.mapIdx fun i d => (index + i, d) := by
    induction h generalizing index with
    | nil => exact ⟨rfl, rfl, rfl⟩
    | @cons data d batch decoded hdata _ ih =>
      obtain ⟨rtp, decrypted, hparse, hopen, hindex, hdecoded⟩ := hdata index
      obtain ⟨hparsed, hfailed, hrest⟩ := ih (index + 1)
      rw [parseRtpPackets, hparse]
      dsimp only
      rw [decryptRtpPacketBatch, hopen]
      dsimp only
      refine ⟨hparsed, hfailed, ?_⟩
      rw [List.map_cons, hindex, hdecoded, hrest, List.mapIdx_cons]
      simp only [Nat.add_zero, Nat.add_assoc, Nat.add_comm 1]
  obtain ⟨hparsed, hfailed, hall⟩ := hall 0
  rw [decryptRtpPackets]
  dsimp only
  rw [hparsed, hfailed, hall]
  simp

theorem decodeRtpPackets_eq {aead : Aead} {rx : TransportCrypto} {batch : List Bytes}
    {decoded : List DecodedRTPPacket} (h : List.Forall₂ (Opened aead rx) batch decoded) :
    Receive.decodeRtpPackets aead rx batch = batch.zip decoded := by
  have hlen := h.length_eq
  rw [Receive.decodeRtpPackets, decryptRtpPackets_eq h]
  refine List.ext_getElem (by simp [hlen]) fun i hi hi' => ?_
  simp only [List.length_map, List.length_mapIdx] at hi
  simp [hlen, hi]

/-! ## Media packets on the way -/

/-- A received packet has the fields of a media packet. -/
structure Shows (q : Receive.ReceivedPacket) (p : MediaPacket) : Prop where
  ssrc : q.decoded.ssrc = p.ssrc
  payloadType : q.decoded.payloadType = p.payloadType
  sequence : q.decoded.sequence = p.sequence
  timestamp : q.decoded.timestamp = p.timestamp
  marker : q.decoded.marker = p.marker
  payload : q.decoded.payload = p.payload

/-- A packet that stands for a media packet to a receiver: the media packet itself, or the media
packet sent again on the SSRC of its RTX packets. -/
inductive Carries (c : Receive.Connection) (p : MediaPacket) : PreparedRTPPacket → Prop
  | media {es : List (UInt8 × Bytes)} {codec : Receive.MediaType × String}
      (hshort : (extensionPayload es).length < 2 ^ 18) (hpt : p.payloadType < 128)
      (hplain : c.lookups.rtxPayloadTypes p.payloadType = none)
      (hcodec : c.lookups.payloadTypes p.payloadType = some codec) :
      Carries c p (extendedPacket p.payloadType p.sequence p.timestamp p.ssrc p.marker es p.payload)
  | rtx {es : List (UInt8 × Bytes)} {rtxPayloadType : UInt8} {rtxSsrc : UInt32}
      {mediaType : Receive.MediaType} {codec : String} (rtxSequence : UInt16)
      (hshort : (extensionPayload es).length < 2 ^ 18) (hpt : rtxPayloadType < 128)
      (hcodec : c.lookups.rtxPayloadTypes rtxPayloadType = some (mediaType, codec, p.payloadType))
      (hssrc : Receive.mediaSsrcForRtxSsrc c rtxSsrc = some p.ssrc) :
      Carries c p (extendedPacket rtxPayloadType rtxSequence p.timestamp rtxSsrc p.marker es
        (u16BeBytes p.sequence ++ p.payload))

/-- The fields of an `extendedPacket` as a receiver reads them. -/
def decodedPacket (payloadType : UInt8) (sequence : UInt16) (timestamp ssrc : UInt32)
    (marker : Bool) (es : List (UInt8 × Bytes)) (payload : Bytes) : DecodedRTPPacket where
  payloadType
  marker
  padded := false
  sequence
  timestamp
  ssrc
  extended := true
  extensionPayload := extensionPayload es
  rtpExtensions := parseOneByteExtensions (extensionPayload es)
  payload

theorem opened_extendedPacket {aead : Aead} (haead : aead.Lawful) {tx rx : TransportCrypto}
    (hmode : rx.mode = tx.mode) (hkey : rx.key = tx.key) {payloadType : UInt8}
    (hpt : payloadType < 128) {sequence : UInt16} {timestamp ssrc : UInt32} {marker : Bool}
    {es : List (UInt8 × Bytes)} (hshort : (extensionPayload es).length < 2 ^ 18)
    {payload data : Bytes} (h : SealedFrom aead tx data
      (extendedPacket payloadType sequence timestamp ssrc marker es payload)) :
    Opened aead rx data (decodedPacket payloadType sequence timestamp ssrc marker es payload) := by
  obtain ⟨nonce, h⟩ := h
  have hmode' : rx.mode = { tx with nonce }.mode := hmode
  have hkey' : rx.key = { tx with nonce }.key := hkey
  exact fun index => receive_encryptRtp haead hmode' hkey' hpt sequence timestamp ssrc marker
    (length_extensionPayload es) hshort payload index h

/-- A packet of a payload type that is not one of RTX is received as it is. -/
theorem receivePacket_plain {c : Receive.Connection} {decoded : DecodedRTPPacket}
    {codec : Receive.MediaType × String}
    (hplain : c.lookups.rtxPayloadTypes decoded.payloadType = none)
    (hcodec : c.lookups.payloadTypes decoded.payloadType = some codec) (raw : Bytes) :
    ∃ q, Receive.receivePacket c decoded raw = some q ∧ q.decoded = decoded := by
  rw [Receive.receivePacket, hplain, ite_self]
  dsimp only
  rw [hcodec]
  exact ⟨_, rfl, rfl⟩

/-- **A receiver gets the media packet** that a datagram stands for. -/
theorem Carries.receive {c : Receive.Connection} (hrtx : c.rtxEnabled = true) {aead : Aead}
    (haead : aead.Lawful) {tx rx : TransportCrypto} (hmode : rx.mode = tx.mode)
    (hkey : rx.key = tx.key) {p : MediaPacket} {packet : PreparedRTPPacket} (h : Carries c p packet)
    {data : Bytes} (hdata : SealedFrom aead tx data packet) :
    ∃ decoded q, Opened aead rx data decoded ∧ Receive.receivePacket c decoded data = some q ∧
      Shows q p := by
  cases h with
  | @media es codec hshort hpt hplain hcodec =>
    have hopened := opened_extendedPacket haead hmode hkey hpt hshort hdata
    obtain ⟨q, hq, hdecoded⟩ := receivePacket_plain
      (show c.lookups.rtxPayloadTypes (decodedPacket p.payloadType p.sequence p.timestamp p.ssrc
        p.marker es p.payload).payloadType = none from hplain) hcodec data
    exact ⟨_, q, hopened, hq, by constructor <;> rw [hdecoded] <;> rfl⟩
  | @rtx es rtxPayloadType rtxSsrc mediaType codec rtxSequence hshort hpt hcodec hssrc =>
    have hopened := opened_extendedPacket haead hmode hkey hpt hshort hdata
    obtain ⟨q, hq, hdecoded⟩ := Receive.receivePacket_rtx hrtx
      (show c.lookups.rtxPayloadTypes (decodedPacket rtxPayloadType rtxSequence p.timestamp rtxSsrc
        p.marker es (u16BeBytes p.sequence ++ p.payload)).payloadType = _ from hcodec)
      hssrc rfl data
    exact ⟨_, q, hopened, hq, by constructor <;> rw [hdecoded] <;> rfl⟩

/-! ## Preparing -/

section Preparing

variable {τ ρ : Type} (clock : TickClock τ ρ) (b : Build)

/-- The packets that a call hands to `send_prepared_packets`. -/
def preparedBy (s : VideoSendPipelineState ρ) : Call τ → List PreparedRTPPacket
  | .sendVideoFrame mediaSsrc frame metadataFrame frameTimeMs mediaStreamType now =>
    match (s.prepareVideoFrameInner clock b mediaSsrc frame metadataFrame frameTimeMs
      mediaStreamType now).1 with
    | .error _ => []
    | .ok prepared => prepared.packets
  | .sendVideoRtxPacket mediaSsrc sequence mediaStreamType now =>
    match (s.prepareVideoRtxPacketInner mediaSsrc sequence mediaStreamType now).1 with
    | .error _ => []
    | .ok prepared => prepared.packet.toList
  | .sendVideoRtxForNack payload mediaStreamType now =>
    match (s.prepareVideoRtxForNackInner payload mediaStreamType now).1 with
    | .error _ => []
    | .ok prepared => prepared.packets
  | _ => []

/-- The media packets that a call makes. -/
def madeBy (s : VideoSendPipelineState ρ) : Call τ → List MediaPacket
  | .sendVideoFrame mediaSsrc frame metadataFrame frameTimeMs _ _ =>
    Tracked.mediaPackets clock b s mediaSsrc frame metadataFrame frameTimeMs
  | _ => []

/-- What the connection tells a receiver of a stream. -/
structure Knows (c : Receive.Connection) (mediaSsrc : UInt32) (payloadType : UInt8)
    (rtxPayloadType : Option UInt8) (rtxSsrc : UInt32) : Prop where
  plain : c.lookups.rtxPayloadTypes payloadType = none
  codec : ∃ codec, c.lookups.payloadTypes payloadType = some codec
  rtx : ∀ pt ∈ rtxPayloadType, ∃ mediaType codec,
    c.lookups.rtxPayloadTypes pt = some (mediaType, codec, payloadType)
  rtxSsrc : rtxSsrc ≠ 0 → Receive.mediaSsrcForRtxSsrc c rtxSsrc = some mediaSsrc

def KnowsAll (c : Receive.Connection) (s : VideoSendPipelineState ρ) : Prop :=
  ∀ ssrc setup, s.setup ssrc = some setup →
    Knows c ssrc setup.payloadType setup.rtxPayloadType setup.rtxSsrc

variable {c : Receive.Connection} {s : VideoSendPipelineState ρ} {history : UInt32 → History}

theorem KnowsAll.stream (h : KnowsAll c s) {ssrc : UInt32} {stream : PipelineStream ρ}
    (hs : s.streams ssrc = some stream) :
    Knows c ssrc stream.payloadType stream.rtxPayloadType stream.rtxSsrc := by
  refine h ssrc stream.setup ?_
  rw [VideoSendPipelineState.setup, hs]
  rfl

theorem length_videoExtensions (transportSequence : UInt16) (rid mediaStreamType : String)
    (repaired : Bool) (now : UInt32) :
    (extensionPayload (videoExtensions transportSequence rid mediaStreamType repaired now)).length <
      2 ^ 18 := by
  have hle := length_extensionPayload_le
    (isElement_videoExtensions transportSequence rid mediaStreamType repaired now)
  have hnine : (videoExtensions transportSequence rid mediaStreamType repaired now).length = 9 :=
    rfl
  rw [hnine] at hle
  omega

/-- **A frame is prepared as the packets that are made of it**, one for each. -/
theorem carries_frame (hrecorded : (⟨s, history⟩ : Tracked ρ).Recorded) (hknown : KnowsAll c s)
    (mediaSsrc : UInt32) (frame : Bytes) (metadataFrame : Option Bytes) (frameTimeMs : τ)
    (mediaStreamType : String) (now : ℕ → UInt32) :
    List.Forall₂ (fun packet p => Carries c p packet)
      (preparedBy clock b s (.sendVideoFrame mediaSsrc frame metadataFrame frameTimeMs
        mediaStreamType now))
      (Tracked.mediaPackets clock b s mediaSsrc frame metadataFrame frameTimeMs) := by
  unfold preparedBy Tracked.mediaPackets
  dsimp only
  cases hs : s.streams mediaSsrc with
  | none =>
    rw [VideoSendPipelineState.prepareVideoFrameInner, hs]
    exact .nil
  | some stream =>
    have hr := hrecorded mediaSsrc stream hs
    have hstream := hknown.stream hs
    rcases VideoSendPipelineState.prepareVideoFrameInner_cases clock b hs hr.mtu frame metadataFrame
      frameTimeMs mediaStreamType now with
      ⟨e, he, heq⟩ | ⟨payloads, packetizer, -, -, hpackets, -, heq⟩
    · rw [heq]
      dsimp only
      rw [he]
      exact .nil
    · rw [heq]
      dsimp only
      rw [hpackets]
      refine List.forall₂_iff_get.2 ⟨List.length_mapIdx, fun i hi hi' => ?_⟩
      simp only [List.get_eq_getElem, List.getElem_mapIdx, Except.toOption, Option.getD_some]
      have hfields := stream.packetizer.state.fields_packetsForPayloads _ _ (List.getElem_mem hi')
      obtain ⟨codec, hcodec⟩ := hstream.codec
      have hpt := hfields.2.1.trans hr.payloadType
      exact .media (length_videoExtensions ..) (hpt ▸ hr.payloadType_lt) (hpt ▸ hstream.plain)
        (hpt ▸ hcodec)

/-- **A packet is sent again** as one that was sent before. -/
theorem carries_resend (hrecorded : (⟨s, history⟩ : Tracked ρ).Recorded) (hknown : KnowsAll c s)
    {mediaSsrc : UInt32} {sequence : UInt16} {mediaStreamType : String} {now : UInt32}
    {prepared : PreparedRTXSend}
    (h : (s.prepareVideoRtxPacketInner mediaSsrc sequence mediaStreamType now).1 = .ok prepared) :
    ∀ packet ∈ prepared.packet, ∃ p ∈ (history mediaSsrc).sent, Carries c p packet := by
  intro packet hpacket
  cases hs : s.streams mediaSsrc with
  | none =>
    rw [VideoSendPipelineState.prepareVideoRtxPacketInner, hs] at h
    cases h
  | some stream =>
    have hr := hrecorded mediaSsrc stream hs
    have hstream := hknown.stream hs
    cases hpt : stream.rtxPayloadType with
    | none =>
      rw [VideoSendPipelineState.prepareVideoRtxPacketInner, hs] at h
      dsimp only at h
      rw [hpt] at h
      obtain rfl := Except.ok.inj h
      cases hpacket
    | some rtxPayloadType =>
      by_cases hssrc : stream.rtxSsrc = 0
      · rw [VideoSendPipelineState.prepareVideoRtxPacketInner, hs] at h
        dsimp only at h
        rw [hpt] at h
        dsimp only at h
        rw [if_pos hssrc] at h
        obtain rfl := Except.ok.inj h
        cases hpacket
      · rw [VideoSendPipelineState.prepareVideoRtxPacketInner_eq hs hpt hssrc] at h
        cases hcached : stream.rtxCache sequence with
        | none =>
          rw [hcached] at h
          obtain rfl := Except.ok.inj h
          cases hpacket
        | some cached =>
          rw [hcached] at h
          obtain rfl := Except.ok.inj h
          obtain rfl := Option.some.inj hpacket
          -- What the cache holds is a packet of the history.
          have hmem := List.mem_of_mem_drop ((hr.cache.table_eq_some _ _).1 hcached)
          obtain ⟨p, hp, hentry⟩ := List.mem_map.1 hmem
          obtain ⟨-, rfl⟩ := Prod.mk.inj hentry
          have hsent := hr.suffix.subset hp
          obtain ⟨hpssrc, hppt⟩ := hr.fields p hsent
          obtain ⟨mediaType, codec, hcodec⟩ := hstream.rtx rtxPayloadType hpt
          rw [← hppt] at hcodec
          exact ⟨p, hsent, .rtx _ (length_videoExtensions ..) (hr.rtxPayloadType_lt _ hpt) hcodec
            (by rw [hstream.rtxSsrc hssrc, hpssrc])⟩

theorem KnowsAll.of_setup {s' : VideoSendPipelineState ρ} (h : KnowsAll c s)
    (hs : s'.setup = s.setup) : KnowsAll c s' := by
  unfold KnowsAll
  rw [hs]
  exact h

/-- Packets are sent again one after the other. -/
theorem carries_resends (hrecorded : (⟨s, history⟩ : Tracked ρ).Recorded) (hknown : KnowsAll c s)
    {mediaSsrc : UInt32} {mediaStreamType : String} {now : ℕ → UInt32}
    {r r' : VideoSendPipelineState.Resend} {s' : VideoSendPipelineState ρ} {sequences : List UInt16}
    (h : s.prepareResends mediaSsrc mediaStreamType now r sequences = (.ok r', s'))
    (hr : ∀ packet ∈ r.packets, ∃ p ∈ (history mediaSsrc).sent, Carries c p packet) :
    ∀ packet ∈ r'.packets, ∃ p ∈ (history mediaSsrc).sent, Carries c p packet := by
  induction sequences generalizing s r with
  | nil =>
    obtain ⟨h, -⟩ := Prod.mk.inj h
    obtain rfl := Except.ok.inj h
    exact hr
  | cons sequence sequences ih =>
    rw [VideoSendPipelineState.prepareResends] at h
    have hsame := s.sameStreams_prepareVideoRtxPacketInner mediaSsrc sequence mediaStreamType
      (now r.resent)
    split at h
    · cases h
    · rename_i prepared next heq
      rw [heq] at hsame
      refine ih (Tracked.recorded_of_sameStreams hrecorded hsame)
        (hknown.of_setup (VideoSendPipelineState.SameStreams.setup hsame)) h ?_
      have hone := carries_resend hrecorded hknown (congrArg Prod.fst heq)
      intro packet hpacket
      unfold VideoSendPipelineState.Resend.add at hpacket
      split at hpacket
      · exact hr packet hpacket
      · rename_i added hadded
        rcases List.mem_append.1 hpacket with hpacket | hpacket
        · exact hr packet hpacket
        · obtain rfl := List.mem_singleton.1 hpacket
          exact hone packet hadded

/-- **Every packet that is prepared stands for a media packet**, one that is made now or was made
before. -/
theorem exists_carries (hrecorded : (⟨s, history⟩ : Tracked ρ).Recorded) (hknown : KnowsAll c s)
    (call : Call τ) : ∀ packet ∈ preparedBy clock b s call,
      ∃ p, (p ∈ madeBy clock b s call ∨ ∃ ssrc, p ∈ (history ssrc).sent) ∧ Carries c p packet := by
  intro packet hpacket
  cases call with
  | configureStream | retainStreams | clear => cases hpacket
  | sendVideoFrame mediaSsrc frame metadataFrame frameTimeMs mediaStreamType now =>
    have hframe := carries_frame clock b hrecorded hknown mediaSsrc frame metadataFrame frameTimeMs
      mediaStreamType now
    obtain ⟨i, hi, rfl⟩ := List.getElem_of_mem hpacket
    have hi' := hframe.length_eq ▸ hi
    exact ⟨_, .inl (List.getElem_mem hi'), hframe.get hi hi'⟩
  | sendVideoRtxPacket mediaSsrc sequence mediaStreamType now =>
    unfold preparedBy at hpacket
    dsimp only at hpacket
    split at hpacket
    · cases hpacket
    · rename_i prepared hprepared
      obtain ⟨p, hp, hcarries⟩ := carries_resend hrecorded hknown hprepared packet
        (Option.mem_toList.1 hpacket)
      exact ⟨p, .inr ⟨mediaSsrc, hp⟩, hcarries⟩
  | sendVideoRtxForNack payload mediaStreamType now =>
    unfold preparedBy at hpacket
    dsimp only at hpacket
    split at hpacket
    · cases hpacket
    · rename_i prepared hprepared
      unfold VideoSendPipelineState.prepareVideoRtxForNackInner at hprepared
      split at hprepared
      · rename_i r0 r1 r2 r3 chunks
        split at hprepared
        · obtain rfl := Except.ok.inj hprepared
          cases hpacket
        · dsimp only at hprepared
          split at hprepared
          · obtain rfl := Except.ok.inj hprepared
            cases hpacket
          · split at hprepared
            · cases hprepared
            · rename_i resent s' heq
              obtain rfl := Except.ok.inj hprepared
              obtain ⟨p, hp, hcarries⟩ := carries_resends hrecorded hknown heq
                (fun packet h => absurd h List.not_mem_nil) packet hpacket
              exact ⟨p, .inr ⟨_, hp⟩, hcarries⟩
      · obtain rfl := Except.ok.inj hprepared
        cases hpacket

end Preparing

/-! ## Runs -/

/-- The receiver is told of a stream with the tables that it decodes with. -/
def KnowsCall {τ : Type} (c : Receive.Connection) : Call τ → Prop
  | .configureStream codec mediaSsrc payloadType rtxPayloadType rtxSsrc _ _ _ =>
    ∀ checked, VideoSendPipelineState.checkStream codec payloadType rtxPayloadType = .ok checked →
      Knows c mediaSsrc checked.2.1 checked.2.2 rtxSsrc
  | _ => True

/-- A call, the counts that the crypto has come to as its packets are sealed, and how many of them
the socket takes. -/
structure SealedCall (τ : Type) where
  call : Call τ
  nonces : ℕ → UInt32
  taken : ℕ

/-- The pipeline, with all media packets that were made and all datagrams that were sent. -/
structure Session (ρ : Type) where
  tracked : Tracked ρ
  made : List MediaPacket := []
  wire : List Bytes := []

namespace Session

variable {τ ρ : Type} (clock : TickClock τ ρ) (b : Build) (aead : Aead) (tx : TransportCrypto)

def step (v : Session ρ) (call : SealedCall τ) : Session ρ where
  tracked := v.tracked.step clock b call.call
  made := v.made ++ madeBy clock b v.tracked.pipeline call.call
  wire := v.wire ++ (sealPackets aead tx call.nonces
    (preparedBy clock b v.tracked.pipeline call.call)).take call.taken

def run (transportSequence : UInt16) (calls : List (SealedCall τ)) : Session ρ :=
  calls.foldl (step clock b aead tx) { tracked := .new transportSequence }

/-- What holds in every run whose streams a receiver knows. -/
structure Keeps (c : Receive.Connection) (v : Session ρ) : Prop where
  recorded : v.tracked.Recorded
  known : KnowsAll c v.tracked.pipeline
  made : ∀ ssrc, ∀ p ∈ (v.tracked.history ssrc).sent, p ∈ v.made
  wire : ∀ data ∈ v.wire, ∃ p ∈ v.made, ∃ packet, Carries c p packet ∧
    SealedFrom aead tx data packet

theorem knowsAll_step {c : Receive.Connection} {s : VideoSendPipelineState ρ} (h : KnowsAll c s)
    {call : Call τ} (hcall : KnowsCall c call) : KnowsAll c (s.step clock b call) := by
  cases call with
  | configureStream codec mediaSsrc payloadType rtxPayloadType rtxSsrc rid sequence timestamp =>
    unfold VideoSendPipelineState.step
    dsimp only
    cases hcheck : VideoSendPipelineState.checkStream codec payloadType rtxPayloadType with
    | error e =>
      rw [VideoSendPipelineState.configureStream, hcheck]
      exact h
    | ok checked =>
      obtain ⟨s', heq, hsetup⟩ := setup_configureStream clock (s := s) hcheck mediaSsrc rtxSsrc rid
        sequence timestamp
      rw [heq]
      intro ssrc setup hssrc
      rw [hsetup] at hssrc
      split at hssrc
      · rename_i hmedia
        obtain rfl := Option.some.inj hssrc
        exact hmedia ▸ hcall checked hcheck
      · exact h ssrc setup hssrc
  | retainStreams mediaSsrcs =>
    intro ssrc setup hssrc
    refine h ssrc setup ?_
    unfold VideoSendPipelineState.setup at hssrc ⊢
    unfold VideoSendPipelineState.step VideoSendPipelineState.retainStreams at hssrc
    dsimp only at hssrc
    split at hssrc
    · exact hssrc
    · cases hssrc
  | clear transportSequence =>
    intro ssrc setup hssrc
    cases hssrc
  | sendVideoFrame mediaSsrc frame metadataFrame frameTimeMs mediaStreamType now =>
    exact h.of_setup (setup_prepareVideoFrameInner ..)
  | sendVideoRtxPacket mediaSsrc sequence mediaStreamType now =>
    exact h.of_setup (VideoSendPipelineState.SameStreams.setup
      (s.sameStreams_prepareVideoRtxPacketInner ..))
  | sendVideoRtxForNack payload mediaStreamType now =>
    exact h.of_setup (VideoSendPipelineState.SameStreams.setup
      (s.sameStreams_prepareVideoRtxForNackInner ..))

/-- A history only gets the packets that a call makes. -/
theorem sent_step {t : Tracked ρ} {call : Call τ} {ssrc : UInt32} {p : MediaPacket}
    (h : p ∈ ((t.step clock b call).history ssrc).sent) :
    p ∈ (t.history ssrc).sent ∨ p ∈ madeBy clock b t.pipeline call := by
  cases call with
  | configureStream codec mediaSsrc payloadType rtxPayloadType rtxSsrc rid sequence timestamp =>
    refine .inl ?_
    cases hcheck : VideoSendPipelineState.checkStream codec payloadType rtxPayloadType with
    | error e =>
      have hsame : t.step clock b (.configureStream codec mediaSsrc payloadType rtxPayloadType
          rtxSsrc rid sequence timestamp) = t := by
        simp [Tracked.step, Tracked.record, VideoSendPipelineState.step,
          VideoSendPipelineState.configureStream, hcheck]
      rwa [hsame] at h
    | ok checked =>
      rw [Tracked.step_configureStream clock b hcheck] at h
      dsimp only at h
      by_cases hssrc : ssrc = mediaSsrc
      · subst hssrc
        rw [Function.update_self] at h
        split at h
        · exact h
        · cases h
      · rwa [Function.update_of_ne hssrc] at h
  | retainStreams mediaSsrcs =>
    unfold Tracked.step Tracked.record at h
    dsimp only at h
    split at h
    · exact .inl h
    · cases h
  | clear transportSequence => cases h
  | sendVideoFrame mediaSsrc frame metadataFrame frameTimeMs mediaStreamType now =>
    rw [Tracked.step_sendVideoFrame] at h
    dsimp only at h
    by_cases hssrc : ssrc = mediaSsrc
    · subst hssrc
      rw [Function.update_self] at h
      exact List.mem_append.1 h
    · rw [Function.update_of_ne hssrc] at h
      exact .inl h
  | sendVideoRtxPacket | sendVideoRtxForNack => exact .inl h

variable {clock b aead tx}

/-- **Every call keeps it.** -/
theorem Keeps.step {c : Receive.Connection} {v : Session ρ} (h : Keeps aead tx c v)
    {call : SealedCall τ} (hcall : KnowsCall c call.call) :
    Keeps aead tx c (v.step clock b aead tx call) where
  recorded := h.recorded.step clock b call.call
  known := knowsAll_step clock b h.known hcall
  made ssrc p hp := by
    rcases sent_step clock b hp with hp | hp
    · exact List.mem_append_left _ (h.made ssrc p hp)
    · exact List.mem_append_right _ hp
  wire data hdata := by
    rcases List.mem_append.1 hdata with hdata | hdata
    · obtain ⟨p, hp, hcarried⟩ := h.wire data hdata
      exact ⟨p, List.mem_append_left _ hp, hcarried⟩
    · obtain ⟨packet, hpacket, hsealed⟩ := exists_of_mem_sealPackets (List.mem_of_mem_take hdata)
      obtain ⟨p, hp, hcarries⟩ := exists_carries clock b h.recorded h.known call.call packet
        hpacket
      refine ⟨p, ?_, packet, hcarries, hsealed⟩
      rcases hp with hp | ⟨ssrc, hp⟩
      · exact List.mem_append_right _ hp
      · exact List.mem_append_left _ (h.made ssrc p hp)

variable (clock b aead tx) in
theorem keeps_run {c : Receive.Connection} (transportSequence : UInt16)
    {calls : List (SealedCall τ)} (hcalls : ∀ call ∈ calls, KnowsCall c call.call) :
    Keeps aead tx c (run clock b aead tx transportSequence calls) := by
  unfold run
  generalize hv : ({ tracked := .new transportSequence } : Session ρ) = v
  have h : Keeps aead tx c v := by
    subst hv
    exact {
      recorded := Tracked.recorded_new transportSequence
      known := fun ssrc setup hsetup => by cases hsetup
      made := fun ssrc p hp => by cases hp
      wire := fun data hdata => by cases hdata }
  clear hv
  induction calls generalizing v with
  | nil => exact h
  | cons call calls ih =>
    exact ih (fun call hcall => hcalls call (List.mem_cons_of_mem _ hcall)) _
      (h.step (hcalls call List.mem_cons_self))

end Session

/-! ## Receiving -/

/-- What a receiver makes of a batch of datagrams, with `none` for those that it ignores. -/
def receiveBatch (c : Receive.Connection) (aead : Aead) (rx : TransportCrypto)
    (batch : List Bytes) : List (Option Receive.ReceivedPacket) :=
  (Receive.decodeRtpPackets aead rx batch).map fun p => Receive.receivePacket c p.2 p.1

section Receiving

variable {c : Receive.Connection} {aead : Aead} {tx rx : TransportCrypto}

/-- **A batch is received as the media packets that its datagrams stand for.** -/
theorem receiveBatch_eq (hrtx : c.rtxEnabled = true) (haead : aead.Lawful)
    (hmode : rx.mode = tx.mode) (hkey : rx.key = tx.key) {batch : List Bytes}
    {ps : List MediaPacket} (h : List.Forall₂ (fun data p => ∃ packet, Carries c p packet ∧
      SealedFrom aead tx data packet) batch ps) :
    (decryptRtpPackets aead rx batch).1 = 0 ∧
      ∃ packets, receiveBatch c aead rx batch = packets.map some ∧
        List.Forall₂ Shows packets ps := by
  obtain ⟨decoded, hopened, packets, hreceived, hshows⟩ : ∃ decoded,
      List.Forall₂ (Opened aead rx) batch decoded ∧ ∃ packets,
        (batch.zip decoded).map (fun p => Receive.receivePacket c p.2 p.1) = packets.map some ∧
        List.Forall₂ Shows packets ps := by
    induction h with
    | nil => exact ⟨[], .nil, [], rfl, .nil⟩
    | @cons data p batch ps hdata _ ih =>
      obtain ⟨packet, hcarries, hsealed⟩ := hdata
      obtain ⟨d, q, hopened, hq, hshows⟩ := hcarries.receive hrtx haead hmode hkey hsealed
      obtain ⟨decoded, hrest, packets, hreceived, hrestShows⟩ := ih
      refine ⟨d :: decoded, .cons hopened hrest, q :: packets, ?_, .cons hshows hrestShows⟩
      rw [List.zip_cons_cons, List.map_cons, List.map_cons, hq, hreceived]
  rw [decryptRtpPackets_eq hopened, receiveBatch, decodeRtpPackets_eq hopened]
  exact ⟨rfl, packets, hreceived, hshows⟩

variable {τ ρ : Type} (clock : TickClock τ ρ) (b : Build) (transportSequence : UInt16)

/-- **Whatever the network loses, repeats or overtakes**, and whatever is sent again, a receiver
that was told of the streams can open every datagram of a run, and gets nothing but media packets
that were made in it. -/
theorem received_run (hrtx : c.rtxEnabled = true) (haead : aead.Lawful) (hmode : rx.mode = tx.mode)
    (hkey : rx.key = tx.key) {calls : List (SealedCall τ)}
    (hcalls : ∀ call ∈ calls, KnowsCall c call.call) {batch : List Bytes}
    (hbatch : ∀ data ∈ batch, data ∈ (Session.run clock b aead tx transportSequence calls).wire) :
    (decryptRtpPackets aead rx batch).1 = 0 ∧
      ∃ packets : List Receive.ReceivedPacket, receiveBatch c aead rx batch = packets.map some ∧
        packets.length = batch.length ∧ ∀ q ∈ packets,
          ∃ p ∈ (Session.run clock b aead tx transportSequence calls).made, Shows q p := by
  have hkeeps := Session.keeps_run clock b aead tx transportSequence hcalls
  generalize Session.run clock b aead tx transportSequence calls = v at hbatch hkeeps ⊢
  obtain ⟨ps, hmade, hcarried⟩ : ∃ ps : List MediaPacket, (∀ p ∈ ps, p ∈ v.made) ∧
      List.Forall₂ (fun data p => ∃ packet, Carries c p packet ∧ SealedFrom aead tx data packet)
        batch ps := by
    induction batch with
    | nil => exact ⟨[], by simp, .nil⟩
    | cons data batch ih =>
      obtain ⟨ps, hmade, hrest⟩ := ih fun data hdata => hbatch data (List.mem_cons_of_mem _ hdata)
      obtain ⟨p, hp, hcarried⟩ := hkeeps.wire data (hbatch data List.mem_cons_self)
      exact ⟨p :: ps, by simpa using ⟨hp, hmade⟩, .cons hcarried hrest⟩
  obtain ⟨hopened, packets, hreceived, hshows⟩ := receiveBatch_eq hrtx haead hmode hkey hcarried
  refine ⟨hopened, packets, hreceived, hshows.length_eq.trans hcarried.length_eq.symm, ?_⟩
  intro q hq
  obtain ⟨i, hi, rfl⟩ := List.getElem_of_mem hq
  have hi' := hshows.length_eq ▸ hi
  exact ⟨_, hmade _ (List.getElem_mem hi'), hshows.get hi hi'⟩

/-- What a receiver is told of the stream of `oneFrame`. -/
def oneStream : Receive.Connection where
  rtxEnabled := true
  lookups := {
    payloadTypes := fun pt => if pt = 101 then some (.video, "VP8") else none
    rtxPayloadTypes := fun pt => if pt = 102 then some (.video, "VP8", 101) else none }
  rtxSsrcMediaSsrcs := fun _ => none
  ssrcUserIds := fun _ => none

def sharedCrypto : TransportCrypto := ⟨.aeadAes256GcmRtpSize, List.replicate 32 1, 8⟩

/-- A frame is sent, and its packet once more. -/
def frameAndResend : List (SealedCall (Option ℚ)) :=
  (oneFrame ++ [Call.sendVideoRtxPacket 7 65535 "video" 0]).map fun call => ⟨call, fun _ => 0, 9⟩

theorem knows_frameAndResend : ∀ call ∈ frameAndResend, KnowsCall oneStream call.call := by
  simp only [frameAndResend, oneFrame, List.cons_append, List.nil_append, List.map_cons,
    List.map_nil, List.forall_mem_cons, List.not_mem_nil, IsEmpty.forall_iff, implies_true,
    and_true]
  refine ⟨fun checked hchecked => ?_, trivial, trivial⟩
  have hcheck : VideoSendPipelineState.checkStream "VP8" 101 (some 102) =
      .ok (.vp8, 101, some 102) := by decide +kernel
  obtain rfl := Except.ok.inj (hcheck.symm.trans hchecked)
  exact {
    plain := rfl
    codec := ⟨_, rfl⟩
    rtx := fun pt hpt => by
      obtain rfl := Option.some.inj hpt
      exact ⟨_, _, rfl⟩
    rtxSsrc := fun _ => rfl }

/-- The packet of a frame and its repetition, in the other order. -/
theorem received_run_twice :
    let v := Session.run TickClock.exact .release tagOnly sharedCrypto 0 frameAndResend
    ∃ packets : List Receive.ReceivedPacket,
      receiveBatch oneStream tagOnly sharedCrypto v.wire.reverse = packets.map some ∧
        packets.length = 2 ∧ ∀ q ∈ packets, ∃ p ∈ v.made, Shows q p := by
  intro v
  obtain ⟨-, packets, hreceived, hlen, hshows⟩ := received_run TickClock.exact .release 0
    (rfl : oneStream.rtxEnabled = true) tagOnly_lawful (rfl : sharedCrypto.mode = sharedCrypto.mode)
    rfl knows_frameAndResend fun data (hdata : data ∈ v.wire.reverse) => List.mem_reverse.1 hdata
  exact ⟨packets, hreceived, hlen.trans (by decide +kernel), hshows⟩

/-- **A frame that is sent at the end of a run** is received as the packets that were made of it, in
their order, as far as they were sealed. -/
theorem received_frame (hrtx : c.rtxEnabled = true) (haead : aead.Lawful)
    (hmode : rx.mode = tx.mode) (hkey : rx.key = tx.key) {calls : List (SealedCall τ)}
    (hcalls : ∀ call ∈ calls, KnowsCall c call.call) (mediaSsrc : UInt32) (frame : Bytes)
    (metadataFrame : Option Bytes) (frameTimeMs : τ) (mediaStreamType : String) (now : ℕ → UInt32)
    (nonces : ℕ → UInt32) :
    let s := (Session.run clock b aead tx transportSequence calls).tracked.pipeline
    let datagrams := sealPackets aead tx nonces (preparedBy clock b s
      (.sendVideoFrame mediaSsrc frame metadataFrame frameTimeMs mediaStreamType now))
    ∃ packets, receiveBatch c aead rx datagrams = packets.map some ∧ List.Forall₂ Shows packets
      ((Tracked.mediaPackets clock b s mediaSsrc frame metadataFrame frameTimeMs).take
        datagrams.length) := by
  have hkeeps := Session.keeps_run clock b aead tx transportSequence hcalls
  generalize Session.run clock b aead tx transportSequence calls = v at hkeeps ⊢
  intro s datagrams
  have hframe := carries_frame clock b hkeeps.recorded hkeeps.known mediaSsrc frame
    metadataFrame frameTimeMs mediaStreamType now
  have hsealed := forall₂_sealPackets aead tx nonces (preparedBy clock b s
    (.sendVideoFrame mediaSsrc frame metadataFrame frameTimeMs mediaStreamType now))
  refine (receiveBatch_eq hrtx haead hmode hkey ?_).2
  have htaken := List.forall₂_take datagrams.length hframe
  refine List.forall₂_iff_get.2
    ⟨hsealed.length_eq.trans htaken.length_eq, fun i hi hi' => ⟨_, ?_, hsealed.get hi ?_⟩⟩
  · exact htaken.get _ hi'
  · exact hsealed.length_eq ▸ hi

/-- The same frame once more. -/
theorem received_frame_again :
    let v := Session.run TickClock.exact .release tagOnly sharedCrypto 0 frameAndResend
    let datagrams := sealPackets tagOnly sharedCrypto (fun _ => 0) (preparedBy TickClock.exact
      .release v.tracked.pipeline (.sendVideoFrame 7 [1, 2, 3] none (some 33) "video" fun _ => 0))
    ∃ packets, receiveBatch oneStream tagOnly sharedCrypto datagrams = packets.map some ∧
      datagrams.length = 1 ∧ List.Forall₂ Shows packets ((Tracked.mediaPackets TickClock.exact
        .release v.tracked.pipeline 7 [1, 2, 3] none (some 33)).take datagrams.length) := by
  intro v datagrams
  obtain ⟨packets, hreceived, hshows⟩ := received_frame TickClock.exact .release 0
    (rfl : oneStream.rtxEnabled = true) tagOnly_lawful (rfl : sharedCrypto.mode = sharedCrypto.mode)
    rfl knows_frameAndResend 7 [1, 2, 3] none (some 33) "video" (fun _ => 0) fun _ => 0
  exact ⟨packets, hreceived, by decide +kernel, hshows⟩

end Receiving

end NativeVoice.Send
