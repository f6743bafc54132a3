import NativeVoice.Transport.RoundTrip

/-!
# Receiving RTCP packets

`decrypt_rtcp_packets` of `src/src/python/transport.rs`: a compound RTCP packet, of which the header
of the first packet is clear and the rest is sealed, is opened and taken apart.

* `rtcp_round_trip`: a compound packet is taken apart into the packets it was made of.
-/

namespace NativeVoice.Transport

/-- The fields of a packet that the Python side gets. -/
structure RtcpPacket where
  packetType : UInt8
  count : UInt8
  senderSsrc : UInt32
  payload : Bytes
  deriving DecidableEq

/-- `is_rtcp_packet` of `src/src/transport/udp.rs`. -/
def isRtcpPacket : Bytes → Bool
  | b0 :: b1 :: rest => 8 ≤ rest.length + 2 && b0 &&& 0xC0 == 0x80 && b1 + 62 < 30
  | _ => false

/-- The length of a packet in bytes, which its header gives in words, less one. -/
def packetLength (b2 b3 : UInt8) : ℕ := ((u16FromBe b2 b3).toNat + 1) * 4

/-- The loop over the packets behind the first one. -/
def parseCompounds (headerLen : ℕ) (compound : Bytes) : List RtcpPacket :=
  if compound.length < headerLen then []
  else if ¬isRtcpPacket compound then []
  else match compound with
    | b0 :: b1 :: b2 :: b3 :: b4 :: b5 :: b6 :: b7 :: rest =>
      let compound := b0 :: b1 :: b2 :: b3 :: b4 :: b5 :: b6 :: b7 :: rest
      if packetLength b2 b3 < headerLen ∨ packetLength b2 b3 > compound.length then []
      else
        { packetType := b1
          count := b0 &&& 0x1F
          senderSsrc := u32FromBe b4 b5 b6 b7
          payload := (compound.drop headerLen).take (packetLength b2 b3 - headerLen) } ::
        parseCompounds headerLen (compound.drop (packetLength b2 b3))
    | _ => []
termination_by compound.length
decreasing_by
  simp only [List.length_drop, List.length_cons, packetLength]
  omega

/-- A packet that the loop recognises. -/
theorem parseCompounds_eq {headerLen : ℕ} {compound : Bytes} {b0 b1 b2 b3 b4 b5 b6 b7 : UInt8}
    {rest : Bytes} (h : compound = b0 :: b1 :: b2 :: b3 :: b4 :: b5 :: b6 :: b7 :: rest)
    (hlen : headerLen ≤ compound.length) (hrtcp : isRtcpPacket compound = true)
    (hle : headerLen ≤ packetLength b2 b3) (hge : packetLength b2 b3 ≤ compound.length) :
    parseCompounds headerLen compound =
      { packetType := b1
        count := b0 &&& 0x1F
        senderSsrc := u32FromBe b4 b5 b6 b7
        payload := (compound.drop headerLen).take (packetLength b2 b3 - headerLen) } ::
      parseCompounds headerLen (compound.drop (packetLength b2 b3)) := by
  subst h
  rw [parseCompounds, if_neg (by omega), if_neg (by rw [hrtcp]; simp)]
  dsimp only
  rw [if_neg (by omega)]

/-- `parse_decrypted_rtcp_packets`. -/
def parseDecryptedRtcpPackets (packet payload : Bytes) (headerLen : ℕ) :
    Except SendError (List RtcpPacket) :=
  if packet.length < headerLen ∨ headerLen < 8 then
    .error (.value "RTCP packet is too short for the requested header length")
  else match packet with
    | b0 :: b1 :: b2 :: b3 :: b4 :: b5 :: b6 :: b7 :: _ =>
      let firstPacketLength := packetLength b2 b3
      if firstPacketLength < headerLen then
        .error (.value "RTCP packet length is shorter than the protected header")
      else
        let firstPayloadLength := firstPacketLength - headerLen
        if firstPayloadLength > payload.length then
          .error (.value "RTCP payload is shorter than the compound packet length")
        else .ok (
          { packetType := b1
            count := b0 &&& 0x1F
            senderSsrc := u32FromBe b4 b5 b6 b7
            payload := payload.take firstPayloadLength } ::
          parseCompounds headerLen (payload.drop firstPayloadLength))
    | _ => .error (.value "RTCP packet is too short for the requested header length")

variable (aead : Aead)

def decryptRtcpPayload (crypto : TransportCrypto) (packet : Bytes) (headerLen : ℕ) :
    Except SendError Bytes :=
  if headerLen = 0 ∨ packet.length < headerLen + 4 then
    .error (.value "RTCP packet is too short for the requested header length")
  else
    let nonceOffset := packet.length - 4
    match crypto.decryptPacket aead (packet.take headerLen)
        ((packet.take nonceOffset).drop headerLen) (packet.drop nonceOffset) with
    | .error e => .error (.crypto e)
    | .ok payload => .ok payload

def decryptRtcpPackets (crypto : TransportCrypto) (packet : Bytes) (headerLen : ℕ) :
    Except SendError (List RtcpPacket) :=
  match decryptRtcpPayload aead crypto packet headerLen with
  | .error e => .error e
  | .ok payload => parseDecryptedRtcpPackets packet payload headerLen

/-! ## Compound packets -/

namespace RtcpPacket

/-- An RTCP packet that can be sent: its type is one of RTCP, and its fields fit the header. -/
structure Valid (p : RtcpPacket) : Prop where
  le_packetType : 194 ≤ p.packetType
  packetType_le : p.packetType ≤ 223
  count : p.count < 32
  words : p.payload.length % 4 = 0
  short : (8 + p.payload.length) / 4 - 1 < 2 ^ 16

def header (p : RtcpPacket) : Bytes :=
  [0x80 ||| p.count, p.packetType] ++
    u16BeBytes (UInt16.ofNat ((8 + p.payload.length) / 4 - 1)) ++ u32BeBytes p.senderSsrc

def serialize (p : RtcpPacket) : Bytes := p.header ++ p.payload

variable {p : RtcpPacket}

@[simp] theorem length_header (p : RtcpPacket) : p.header.length = 8 := rfl

theorem Valid.packetLength (h : p.Valid) :
    packetLength (UInt16.ofNat ((8 + p.payload.length) / 4 - 1) >>> 8).toUInt8
      (UInt16.ofNat ((8 + p.payload.length) / 4 - 1)).toUInt8 = 8 + p.payload.length := by
  have hwords := h.words
  rw [Transport.packetLength, u16FromBe_u16BeBytes, UInt16.toNat_ofNat_of_lt' h.short]
  omega

theorem count_bits : ∀ count : UInt8, count < 32 →
    (0x80 ||| count) &&& 0xC0 = 0x80 ∧ (0x80 ||| count) &&& 0x1F = count := by
  rintro ⟨count⟩
  revert count
  decide

theorem packetType_bits : ∀ packetType : UInt8, 194 ≤ packetType → packetType ≤ 223 →
    packetType + 62 < 30 := by
  rintro ⟨packetType⟩
  revert packetType
  decide

theorem Valid.isRtcpPacket (h : p.Valid) (rest : Bytes) :
    isRtcpPacket (p.serialize ++ rest) = true := by
  have hcount := (count_bits p.count h.count).1
  have htype := packetType_bits p.packetType h.le_packetType h.packetType_le
  simp [Transport.isRtcpPacket, serialize, header, u16BeBytes, u32BeBytes, hcount, htype]

/-- The loop reads a packet and goes on behind it. -/
theorem Valid.parseCompounds (h : p.Valid) (rest : Bytes) :
    parseCompounds 8 (p.serialize ++ rest) = p :: parseCompounds 8 rest := by
  have hlength : (p.serialize ++ rest).length = 8 + p.payload.length + rest.length := by
    simp [serialize, Nat.add_assoc]
  have hdrop : (p.serialize ++ rest).drop (8 + p.payload.length) = rest :=
    List.drop_left' (by simp [serialize])
  have hpayload : ((p.serialize ++ rest).drop 8).take (8 + p.payload.length - 8) = p.payload := by
    rw [serialize, List.append_assoc, List.drop_left' (length_header p)]
    exact List.take_left' (by omega)
  have hcount := (count_bits p.count h.count).2
  have hfields : p.serialize ++ rest = (0x80 ||| p.count) :: p.packetType ::
      (UInt16.ofNat ((8 + p.payload.length) / 4 - 1) >>> 8).toUInt8 ::
      (UInt16.ofNat ((8 + p.payload.length) / 4 - 1)).toUInt8 ::
      (p.senderSsrc >>> 24).toUInt8 :: (p.senderSsrc >>> 16).toUInt8 ::
      (p.senderSsrc >>> 8).toUInt8 :: p.senderSsrc.toUInt8 :: (p.payload ++ rest) := rfl
  rw [parseCompounds_eq hfields (by omega) (h.isRtcpPacket rest) (by rw [h.packetLength]; omega)
    (by rw [h.packetLength]; omega), h.packetLength, hdrop, hpayload, hcount,
    u32FromBe_u32BeBytes]

theorem parseCompounds_flatten {packets : List RtcpPacket} (h : ∀ p ∈ packets, p.Valid) :
    Transport.parseCompounds 8 (packets.map serialize).flatten = packets := by
  induction packets with
  | nil => simp [Transport.parseCompounds]
  | cons p packets ih =>
    rw [List.forall_mem_cons] at h
    rw [List.map_cons, List.flatten_cons, h.1.parseCompounds, ih h.2]

end RtcpPacket

/-! ## The round trip -/

open RtcpPacket

/-- The first packet is read from the clear header and the payload, the others from what is behind
it. -/
theorem parseDecryptedRtcpPackets_eq {p : RtcpPacket} {packets : List RtcpPacket} (hp : p.Valid)
    (hpackets : ∀ q ∈ packets, q.Valid) (sealed : Bytes) :
    parseDecryptedRtcpPackets (p.header ++ sealed)
      (p.payload ++ (packets.map serialize).flatten) 8 =
      .ok (p :: packets) := by
  have hcount := (count_bits p.count hp.count).2
  have hfields : p.header ++ sealed = (0x80 ||| p.count) :: p.packetType ::
      (UInt16.ofNat ((8 + p.payload.length) / 4 - 1) >>> 8).toUInt8 ::
      (UInt16.ofNat ((8 + p.payload.length) / 4 - 1)).toUInt8 ::
      (p.senderSsrc >>> 24).toUInt8 :: (p.senderSsrc >>> 16).toUInt8 ::
      (p.senderSsrc >>> 8).toUInt8 :: p.senderSsrc.toUInt8 :: sealed := rfl
  have hsub : 8 + p.payload.length - 8 = p.payload.length := by omega
  rw [hfields, parseDecryptedRtcpPackets, if_neg (by simp)]
  dsimp only
  rw [hp.packetLength, hsub, if_neg (by omega), if_neg (by simp), List.take_left, List.drop_left,
    parseCompounds_flatten hpackets, hcount, u32FromBe_u32BeBytes]

variable {aead} in
/-- What is sealed is opened, behind a clear header of 8 bytes. -/
theorem decryptRtcpPayload_eq (haead : aead.Lawful) {tx rx : TransportCrypto}
    (hmode : rx.mode = tx.mode) (hkey : rx.key = tx.key) {header payload ciphertext : Bytes}
    (hheader : header.length = 8)
    (hseal : aead.encrypt tx.mode tx.key (makeNonce tx.mode tx.nonce) header payload =
      some ciphertext) :
    decryptRtcpPayload aead rx (header ++ ciphertext ++ u32LeBytes tx.nonce) 8 = .ok payload := by
  have hlength : (header ++ ciphertext ++ u32LeBytes tx.nonce).length =
      (header ++ ciphertext).length + 4 := List.length_append
  have hle : 8 ≤ (header ++ ciphertext).length := by
    rw [List.length_append]
    omega
  rw [decryptRtcpPayload, if_neg (by omega)]
  dsimp only
  rw [hlength, Nat.add_sub_cancel, List.take_left, List.drop_left, List.append_assoc,
    List.take_left' hheader, List.drop_left' hheader,
    TransportCrypto.decryptPacket_encrypt haead hmode hkey hseal]

variable {aead}

/-- **The RTCP round trip**: a compound of RTCP packets, sealed but for the first 8 bytes, is opened
and taken apart into the packets it was made of. -/
theorem rtcp_round_trip (haead : aead.Lawful) {tx rx : TransportCrypto} (hmode : rx.mode = tx.mode)
    (hkey : rx.key = tx.key) {packets : List RtcpPacket} (hne : packets ≠ [])
    (hvalid : ∀ p ∈ packets, p.Valid) {packet : Bytes}
    (hsent : (tx.encryptRtp aead ((packets.map serialize).flatten.take 8)
      ((packets.map serialize).flatten.drop 8)).1 = .ok packet) :
    decryptRtcpPackets aead rx packet 8 = .ok packets := by
  obtain ⟨p, packets, rfl⟩ := List.exists_cons_of_ne_nil hne
  rw [List.forall_mem_cons] at hvalid
  have hsplit : ((p :: packets).map serialize).flatten =
      p.header ++ (p.payload ++ (packets.map serialize).flatten) := by
    simp [serialize]
  rw [hsplit, List.take_left' (length_header p), List.drop_left' (length_header p)] at hsent
  obtain ⟨ciphertext, hseal, rfl⟩ := TransportCrypto.encryptRtp_eq_ok.1 hsent
  rw [decryptRtcpPackets, decryptRtcpPayload_eq haead hmode hkey (length_header p) hseal]
  dsimp only
  rw [List.append_assoc, parseDecryptedRtcpPackets_eq hvalid.1 hvalid.2]

/-- A receiver report without blocks and a picture loss indication. -/
def reportAndLoss : List RtcpPacket :=
  [{ packetType := 201, count := 0, senderSsrc := 7, payload := [] },
    { packetType := 206, count := 1, senderSsrc := 7, payload := [0, 0, 0, 9] }]

theorem valid_reportAndLoss : ∀ p ∈ reportAndLoss, p.Valid := by
  simp only [reportAndLoss, List.forall_mem_cons, List.not_mem_nil, false_imp_iff, implies_true,
    and_true]
  exact ⟨⟨by decide, by decide, by decide, rfl, by decide⟩,
    by decide, by decide, by decide, rfl, by decide⟩

theorem rtcp_round_trip_reportAndLoss : ∃ packet,
    ((⟨.aeadAes256GcmRtpSize, List.replicate 32 1, 8⟩ : TransportCrypto).encryptRtp tagOnly
      ((reportAndLoss.map serialize).flatten.take 8)
      ((reportAndLoss.map serialize).flatten.drop 8)).1 = .ok packet ∧
    decryptRtcpPackets tagOnly ⟨.aeadAes256GcmRtpSize, List.replicate 32 1, 0⟩ packet 8 =
      .ok reportAndLoss :=
  ⟨_, rfl, rtcp_round_trip tagOnly_lawful
    (show (⟨.aeadAes256GcmRtpSize, List.replicate 32 1, 0⟩ : TransportCrypto).mode =
      (⟨.aeadAes256GcmRtpSize, List.replicate 32 1, 8⟩ : TransportCrypto).mode from rfl) rfl
    (by decide) valid_reportAndLoss rfl⟩

end NativeVoice.Transport
