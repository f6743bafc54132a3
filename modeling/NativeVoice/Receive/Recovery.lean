import NativeVoice.Receive.Packet
import NativeVoice.Send.Nack

/-!
# Packets that are sent again

The way of a packet from the cache of the sender, sent again on its RTX payload type and SSRC, to
the receiver.

* `rtx_recovers_media_packet`: the receiver gets the packet that was sent first.
-/

namespace NativeVoice.Receive

open Lib Video Transport Send VideoSendPipelineState

/-- **RTX gives back the lost packet.** In every state that a run of the send pipeline reaches, with
RTX active on a stream: whatever packet the cache holds under `n` is a media packet `p` that the
stream sent under `n`, and the packet prepared for it, protected and sent, is decoded by the
receiver into one with the payload type, sequence number, timestamp, marker, SSRC and payload of
`p`. The receiver maps the RTX payload type and SSRC of the stream back to those of its media. -/
theorem rtx_recovers_media_packet {τ ρ : Type} (clock : TickClock τ ρ) (b : Build)
    (transportSequence : UInt16) (calls : List (Call τ)) {mediaSsrc : UInt32}
    {stream : PipelineStream ρ}
    (hs : (Tracked.run clock b transportSequence calls).pipeline.streams mediaSsrc = some stream)
    {rtxPayloadType : UInt8} (hpt : stream.rtxPayloadType = some rtxPayloadType)
    (hssrc : stream.rtxSsrc ≠ 0) {n : UInt16} {packet : SentVideoPacket}
    (hcached : stream.rtxCache n = some packet) (mediaStreamType : String) (now : UInt32)
    {aead : Aead} (haead : aead.Lawful) {tx rx : TransportCrypto} (hmode : rx.mode = tx.mode)
    (hkey : rx.key = tx.key) {c : Connection} (hrtx : c.rtxEnabled = true) {codec : String}
    (hlookup : c.lookups.rtxPayloadTypes rtxPayloadType = some (.video, codec, stream.payloadType))
    (hmap : mediaSsrcForRtxSsrc c stream.rtxSsrc = some mediaSsrc) (index : ℕ) :
    let t := Tracked.run clock b transportSequence calls
    ∃ p ∈ (t.history mediaSsrc).sinceActive.rtake RTX_CACHE_MAX_PACKETS, p.sequence = n ∧
    ∃ send prepared, (t.pipeline.prepareVideoRtxPacketInner mediaSsrc n mediaStreamType now).1 =
        .ok send ∧
      send.packet = some prepared ∧
      ∀ raw, (tx.encryptRtp aead prepared.header prepared.payload).1 = .ok raw →
        ∃ rtp decrypted received, RtpPacket.parse raw = .ok rtp ∧
          decryptRtpPacketInner aead rx index rtp = .ok decrypted ∧
          receivePacket c decrypted.decoded raw = some received ∧
          received.decoded.payloadType = p.payloadType ∧
          received.decoded.sequence = p.sequence ∧
          received.decoded.timestamp = p.timestamp ∧
          received.decoded.marker = p.marker ∧
          received.decoded.ssrc = p.ssrc ∧
          received.decoded.payload = p.payload := by
  intro t
  have hrecords := Tracked.recorded_run clock b transportSequence calls mediaSsrc stream hs
  -- the cached packet is one that was sent
  have hmem := (hrecords.cache.table_eq_some n packet).1 hcached
  rw [FifoCache.rtake_map, List.mem_map] at hmem
  obtain ⟨p, hp, heq⟩ := hmem
  obtain ⟨rfl, rfl⟩ := Prod.mk.inj heq
  have hlog : p ∈ (t.history mediaSsrc).sinceActive := List.mem_of_mem_drop hp
  obtain ⟨hpssrc, hppt⟩ := hrecords.fields p (hrecords.suffix.subset hlog)
  have hprepare := prepareVideoRtxPacketInner_eq hs hpt hssrc p.sequence mediaStreamType now
  rw [hcached] at hprepare
  refine ⟨p, hp, rfl, _, _, congrArg Prod.fst hprepare, rfl, fun raw hraw => ?_⟩
  have helements := isElement_videoExtensions (t.pipeline.transportSequence + 1) stream.rid
    mediaStreamType true now
  have hwords := length_extensionPayload (videoExtensions (t.pipeline.transportSequence + 1)
    stream.rid mediaStreamType true now)
  have hshort := length_extensionPayload_le helements
  obtain ⟨rtp, decrypted, hparse, hdecrypt, -, hdecoded⟩ := receive_encryptRtp haead hmode hkey
    (hrecords.rtxPayloadType_lt _ hpt) (stream.rtxSequence + 1) p.timestamp stream.rtxSsrc p.marker
    hwords (Nat.lt_of_le_of_lt hshort (by simp [videoExtensions]))
    (u16BeBytes p.sequence ++ p.payload) index hraw
  obtain ⟨received, hreceived, hfields⟩ := receivePacket_rtx hrtx
    (show c.lookups.rtxPayloadTypes decrypted.decoded.payloadType = _ by
      rw [hdecoded]
      exact hlookup)
    (show mediaSsrcForRtxSsrc c decrypted.decoded.ssrc = some mediaSsrc by
      rw [hdecoded]
      exact hmap)
    (show decrypted.decoded.payload = u16BeBytes p.sequence ++ p.payload by rw [hdecoded]) raw
  refine ⟨rtp, decrypted, received, hparse, hdecrypt, hreceived, ?_⟩
  rw [hfields, hdecoded, hpssrc, hppt]
  exact ⟨rfl, rfl, rfl, rfl, rfl, rfl⟩

/-- A receiver of VP8 with RTX. -/
def vp8Receiver : Connection where
  rtxEnabled := true
  lookups := {
    payloadTypes := fun pt => if pt = 101 then some (.video, "VP8") else none
    rtxPayloadTypes := fun pt => if pt = 102 then some (.video, "VP8", 101) else none }
  rtxSsrcMediaSsrcs := fun _ => none
  ssrcUserIds := fun _ => none

/-- The packet 65535 of a stream on SSRC 7, sent again on SSRC 8. -/
theorem rtx_recovers_media_packet_one : ∃ send prepared raw received,
    ((Tracked.run TickClock.exact .release 0 oneFrame).pipeline.prepareVideoRtxPacketInner 7 65535
      "video" 0).1 = .ok send ∧
    send.packet = some prepared ∧
    ((⟨.aeadAes256GcmRtpSize, List.replicate 32 1, 8⟩ : TransportCrypto).encryptRtp tagOnly
      prepared.header prepared.payload).1 = .ok raw ∧
    received.decoded.sequence = 65535 ∧
    ∃ decoded, receivePacket vp8Receiver decoded raw = some received := by
  obtain ⟨stream, hs⟩ := Option.isSome_iff_exists.1 (show ((Tracked.run TickClock.exact .release 0
    oneFrame).pipeline.streams 7).isSome = true by decide +kernel)
  have hfields : ((Tracked.run TickClock.exact .release 0 oneFrame).pipeline.streams 7).map
      (fun stream => (stream.rtxPayloadType, stream.rtxSsrc, stream.payloadType,
        stream.rtxCache 65535)) = some (some 102, 8, 101,
          some ⟨[0x90, 0x80, 0x80, 0, 1, 2, 3], true, 65535, 90000⟩) := by
    decide +kernel
  rw [hs, Option.map_some, Option.some.injEq, Prod.mk.injEq, Prod.mk.injEq,
    Prod.mk.injEq] at hfields
  obtain ⟨hpt, hssrc, hmedia, hcached⟩ := hfields
  obtain ⟨p, -, hn, send, prepared, hsend, hprepared, hreceive⟩ := rtx_recovers_media_packet
    TickClock.exact .release 0 oneFrame hs hpt (by rw [hssrc]; decide) hcached "video" 0
    tagOnly_lawful
    (show (⟨.aeadAes256GcmRtpSize, List.replicate 32 1, 0⟩ : TransportCrypto).mode =
      (⟨.aeadAes256GcmRtpSize, List.replicate 32 1, 8⟩ : TransportCrypto).mode from rfl) rfl
    (show vp8Receiver.rtxEnabled = true from rfl)
    (by rw [hmedia]; rfl) (by rw [hssrc]; rfl) 0
  obtain ⟨rtp, decrypted, received, -, -, hreceived, -, hsequence, -⟩ := hreceive _ rfl
  exact ⟨send, prepared, _, received, hsend, hprepared, rfl, hsequence.trans hn, _, hreceived⟩

end NativeVoice.Receive
