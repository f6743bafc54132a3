import NativeVoice.Transport.Extensions

/-!
# Receiving RTP packets

`decrypt_rtp_packets` of `src/src/python/transport.rs`, which parses and opens a batch of packets,
and the way of one packet from the sender to the receiver.

* `rtp_transport_round_trip`: what the receiver reads is what the sender built.
-/

namespace NativeVoice.Transport

inductive SendError
  | crypto (error : CryptoError)
  | io (message : String)
  | poisoned
  | value (message : String)
  deriving DecidableEq

def stripRtpPaddingNative (payload : Bytes) (padded : Bool) : Except SendError Bytes :=
  if ¬ padded then .ok payload
  else match payload.getLast? with
    | none => .error (.value "RTP padding is missing a padding length")
    | some last =>
      let paddingLen := last.toNat
      if paddingLen = 0 ∨ paddingLen > payload.length then
        .error (.value "RTP padding length exceeds decrypted payload length")
      else .ok (payload.take (payload.length - paddingLen))

structure DecryptedRTPPacket where
  index : ℕ
  packet : RtpPacket
  extensionPayload : Bytes
  mediaPayload : Bytes
  deriving DecidableEq

variable (aead : Aead)

def decryptRtpPacketInner (crypto : TransportCrypto) (index : ℕ) (packet : RtpPacket) :
    Except SendError DecryptedRTPPacket :=
  match crypto.decryptRtp aead packet with
  | .error e => .error (.crypto e)
  | .ok payload =>
    match stripRtpPaddingNative payload packet.padded with
    | .error e => .error e
    | .ok payload =>
      if packet.extensionPayloadLen > payload.length then
        .error (.value "RTP extension length exceeds decrypted payload length")
      else .ok {
        index := index
        packet := packet
        extensionPayload := payload.take packet.extensionPayloadLen
        mediaPayload := payload.drop packet.extensionPayloadLen }

/-- The fields of a packet that the Python side gets, behind the index in the batch. -/
structure DecodedRTPPacket where
  payloadType : UInt8
  marker : Bool
  padded : Bool
  sequence : UInt16
  timestamp : UInt32
  ssrc : UInt32
  extended : Bool
  extensionPayload : Bytes
  rtpExtensions : List (UInt8 × Bytes)
  payload : Bytes
  deriving DecidableEq

def DecryptedRTPPacket.decoded (d : DecryptedRTPPacket) : DecodedRTPPacket where
  payloadType := d.packet.payloadType
  marker := d.packet.marker
  padded := d.packet.padded
  sequence := d.packet.sequence
  timestamp := d.packet.timestamp
  ssrc := d.packet.ssrc
  extended := d.packet.extended
  extensionPayload := d.extensionPayload
  rtpExtensions := parseRtpExtensions d.packet.extensionProfile d.extensionPayload
  payload := d.mediaPayload

/-- The packets of a batch that are parsed, with their places in it, and the number of the
others. -/
def parseRtpPackets : ℕ → List Bytes → ℕ × List (ℕ × RtpPacket)
  | _, [] => (0, [])
  | index, data :: batch =>
    let (failed, parsed) := parseRtpPackets (index + 1) batch
    match RtpPacket.parse data with
    | .ok packet => (failed, (index, packet) :: parsed)
    | .error _ => (failed + 1, parsed)

def decryptRtpPacketBatch (crypto : TransportCrypto) :
    List (ℕ × RtpPacket) → ℕ × List DecryptedRTPPacket
  | [] => (0, [])
  | (index, packet) :: packets =>
    let (failed, decoded) := decryptRtpPacketBatch crypto packets
    match decryptRtpPacketInner aead crypto index packet with
    | .ok packet => (failed, packet :: decoded)
    | .error _ => (failed + 1, decoded)

/-- `decrypt_rtp_packets`: how many packets failed, and the others with their places in the
batch. -/
def decryptRtpPackets (crypto : TransportCrypto) (packets : List Bytes) :
    ℕ × List (ℕ × DecodedRTPPacket) :=
  let (parseFailed, parsed) := parseRtpPackets 0 packets
  let (decryptFailed, decoded) := decryptRtpPacketBatch aead crypto parsed
  (parseFailed + decryptFailed, decoded.map fun d => (d.index, d.decoded))

/-! ## One packet -/

theorem headerWithOneByteExtensions_newHeader (payloadType : UInt8) (sequence : UInt16)
    (timestamp ssrc : UInt32) (marker : Bool) (extension : Bytes) :
    headerWithOneByteExtensions (newHeader payloadType sequence timestamp ssrc marker false)
      extension = .ok (RtpPacket.extendedHeader payloadType sequence timestamp ssrc marker
        (UInt16.ofNat (extension.length / 4))) := rfl

variable {aead}

theorem decryptRtpPacketInner_eq {crypto : TransportCrypto} {rtp : RtpPacket}
    {extension media : Bytes} (index : ℕ)
    (hopen : crypto.decryptRtp aead rtp = .ok (extension ++ media))
    (hpadded : rtp.padded = false) (hlen : rtp.extensionPayloadLen = extension.length) :
    decryptRtpPacketInner aead crypto index rtp = .ok ⟨index, rtp, extension, media⟩ := by
  rw [decryptRtpPacketInner, hopen]
  simp [stripRtpPaddingNative, hpadded, hlen]

/-- **A protected packet is opened** with the fields it was built from, for an extension of whole
words. -/
theorem receive_encryptRtp (haead : aead.Lawful) {tx rx : TransportCrypto}
    (hmode : rx.mode = tx.mode) (hkey : rx.key = tx.key) {payloadType : UInt8}
    (hpt : payloadType < 128) (sequence : UInt16) (timestamp ssrc : UInt32) (marker : Bool)
    {extension : Bytes} (hwords : extension.length / 4 * 4 = extension.length)
    (hshort : extension.length < 2 ^ 18) (media : Bytes) (index : ℕ) {packet : Bytes}
    (h : (tx.encryptRtp aead (RtpPacket.extendedHeader payloadType sequence timestamp ssrc marker
      (UInt16.ofNat (extension.length / 4))) (extension ++ media)).1 = .ok packet) :
    ∃ rtp decrypted, RtpPacket.parse packet = .ok rtp ∧
      decryptRtpPacketInner aead rx index rtp = .ok decrypted ∧
      decrypted.index = index ∧
      decrypted.decoded = {
        payloadType := payloadType
        marker := marker
        padded := false
        sequence := sequence
        timestamp := timestamp
        ssrc := ssrc
        extended := true
        extensionPayload := extension
        rtpExtensions := parseOneByteExtensions extension
        payload := media } := by
  obtain ⟨ciphertext, hseal, rfl⟩ := TransportCrypto.encryptRtp_eq_ok.1 h
  have hlen := haead.length_encrypt _ _ _ _ _ _ hseal
  have hopen := TransportCrypto.decryptPacket_encrypt haead hmode hkey hseal
  have hcount : (UInt16.ofNat (extension.length / 4)).toNat * 4 = extension.length := by
    rw [UInt16.toNat_ofNat_of_lt' (by simp only [UInt16.size]; omega), hwords]
  have hparse := RtpPacket.parse_extendedHeader hpt sequence timestamp ssrc marker
    (UInt16.ofNat (extension.length / 4)) ciphertext (u32LeBytes tx.nonce)
    (by rw [hcount, hlen, List.length_append]; omega) rfl
  exact ⟨_, _, hparse, decryptRtpPacketInner_eq index hopen rfl hcount, rfl, rfl⟩

/-! ## The way of a video packet -/

/-- **The RTP media transport round trip**: a packet is built, protected and sent, and the receiver
reads the fields, the extension elements and the media payload that it was built from. Protecting it
fails only if the cipher does. -/
theorem rtp_transport_round_trip (haead : aead.Lawful) {tx rx : TransportCrypto}
    (hmode : rx.mode = tx.mode) (hkey : rx.key = tx.key) {payloadType : UInt8}
    (hpt : payloadType < 128) (marker : Bool) (sequence : UInt16) (timestamp ssrc : UInt32)
    (rid mediaStreamType : String) (repaired : Bool) (transportSequence : UInt16) (now : UInt32)
    (media : Bytes) (index : ℕ) :
    ∃ extension header,
      buildVideoExtensionPayload transportSequence rid mediaStreamType repaired now =
        .ok extension ∧
      headerWithOneByteExtensions (newHeader payloadType sequence timestamp ssrc marker false)
        extension = .ok header ∧
      ((tx.encryptRtp aead header (extension ++ media)).1 = .error .encryptFailed ↔
        aead.encrypt tx.mode tx.key (makeNonce tx.mode tx.nonce) header (extension ++ media) =
          none) ∧
      ∀ packet, (tx.encryptRtp aead header (extension ++ media)).1 = .ok packet →
        ∃ rtp decrypted, RtpPacket.parse packet = .ok rtp ∧
          decryptRtpPacketInner aead rx index rtp = .ok decrypted ∧
          decrypted.decoded = {
            payloadType := payloadType
            marker := marker
            padded := false
            sequence := sequence
            timestamp := timestamp
            ssrc := ssrc
            extended := true
            extensionPayload := extension
            rtpExtensions :=
              videoExtensions transportSequence rid mediaStreamType repaired now
            payload := media } := by
  have helements := isElement_videoExtensions transportSequence rid mediaStreamType repaired now
  have hwords := length_extensionPayload
    (videoExtensions transportSequence rid mediaStreamType repaired now)
  have hshort := length_extensionPayload_le helements
  refine ⟨_, _, buildVideoExtensionPayload_eq .., headerWithOneByteExtensions_newHeader .., ?_, ?_⟩
  · unfold TransportCrypto.encryptRtp
    cases h : aead.encrypt tx.mode tx.key (makeNonce tx.mode tx.nonce) _ _ <;> simp [h]
  · intro packet hpacket
    obtain ⟨rtp, decrypted, hparse, hdecrypt, -, hdecoded⟩ :=
      receive_encryptRtp haead hmode hkey hpt
      sequence timestamp ssrc marker hwords
      (Nat.lt_of_le_of_lt hshort (by simp [videoExtensions])) media index hpacket
    refine ⟨rtp, decrypted, hparse, hdecrypt, ?_⟩
    rw [hdecoded, extensionPayload, parseOneByteExtensions_encode helements]

/-- A cipher that only appends a tag of 16 bytes. -/
def tagOnly : Aead where
  encrypt _ _ _ _ msg := some (msg ++ List.replicate 16 0)
  decrypt _ _ _ _ msg := if 16 ≤ msg.length then some (msg.take (msg.length - 16)) else none

theorem tagOnly_lawful : tagOnly.Lawful where
  decrypt_encrypt _ _ _ _ msg ciphertext h := by
    obtain rfl := Option.some.inj h
    simp [tagOnly]
  length_encrypt _ _ _ _ msg ciphertext h := by
    obtain rfl := Option.some.inj h
    simp

/-- A marked packet without a RID of its own, repaired, in AES mode. -/
theorem rtp_transport_round_trip_marked :
    ∃ extension header packet rtp decrypted,
      buildVideoExtensionPayload 9 "" "screen" true 5 = .ok extension ∧
      headerWithOneByteExtensions (newHeader 101 0xFFFF 3 4 true false) extension = .ok header ∧
      ((⟨.aeadAes256GcmRtpSize, List.replicate 32 1, 8⟩ : TransportCrypto).encryptRtp tagOnly header
        (extension ++ [1, 2, 3])).1 = .ok packet ∧
      RtpPacket.parse packet = .ok rtp ∧
      decryptRtpPacketInner tagOnly ⟨.aeadAes256GcmRtpSize, List.replicate 32 1, 0⟩ 0 rtp =
        .ok decrypted ∧
      decrypted.mediaPayload = [1, 2, 3] := by
  obtain ⟨extension, header, hextension, hheader, -, hreceive⟩ :=
    rtp_transport_round_trip tagOnly_lawful
      (show (⟨.aeadAes256GcmRtpSize, List.replicate 32 1, 0⟩ : TransportCrypto).mode =
        (⟨.aeadAes256GcmRtpSize, List.replicate 32 1, 8⟩ : TransportCrypto).mode from rfl) rfl
      (show (101 : UInt8) < 128 by decide) true 0xFFFF 3 4 "" "screen" true 9 5 [1, 2, 3] 0
  obtain ⟨rtp, decrypted, hparse, hdecrypt, hdecoded⟩ := hreceive _ rfl
  exact ⟨extension, header, _, rtp, decrypted, hextension, hheader, rfl, hparse, hdecrypt,
    congrArg DecodedRTPPacket.payload hdecoded⟩

end NativeVoice.Transport
