import NativeVoice.Transport.Ping
import NativeVoice.Transport.Rtcp

/-!
# What arrives on the socket

The tests of `src/src/transport/udp.rs` by which the reader of a transport tells RTP packets, RTCP
packets and the packets of pings and of IP discovery apart, and IP discovery itself.

* `classifyUdpPacket_of_version`: a packet of version 2 is RTP or RTCP, by its second byte, and it
  is never a control packet.
* `classifyUdpPacket_encryptRtp`, `classifyUdpPacket_encryptRtcp`: what the other side protects
  arrives as what it is.
* `discoverIpSocket_eq_ok_iff`: discovery gives the address of the first response to its request.
-/

namespace NativeVoice.Transport

open Lib

/-! ## The tests -/

def IP_DISCOVERY_PACKET_SIZE : ℕ := 74
def IP_DISCOVERY_PAYLOAD_LEN : UInt16 := 70
def IP_DISCOVERY_SEND : UInt16 := 1
def IP_DISCOVERY_RESPONSE : UInt16 := 2

def isRtpPacket : Bytes → Bool
  | b0 :: b1 :: rest => 8 ≤ rest.length + 2 && b0 &&& 0xC0 == 0x80 && b1 + 32 < 0xE2
  | _ => false

def isNativeEchoPacket : Bytes → Bool
  | b0 :: b1 :: b2 :: b3 :: rest =>
    if rest.length + 4 < IP_DISCOVERY_PACKET_SIZE || b0 > 1 then false
    else if rest.length ≠ (u16FromBe b2 b3).toNat then false
    else
      let packetType := u16FromBe b0 b1
      IP_DISCOVERY_SEND ≤ packetType && packetType ≤ IP_DISCOVERY_RESPONSE
  | _ => false

def isNativeControlPacket (data : Bytes) : Bool :=
  (nativePingResponseSequence data).isSome || isNativeEchoPacket data

inductive UDPPacketKind
  | rtp
  | rtcp
  deriving DecidableEq

def classifyUdpPacket (data : Bytes) : Option UDPPacketKind :=
  if isRtcpPacket data then some .rtcp
  else if isRtpPacket data then some .rtp
  else none

/-- The first byte of a packet of RTP version 2. -/
def IsVersion2 (b0 : UInt8) : Prop := b0 &&& 0xC0 = 0x80

instance (b0 : UInt8) : Decidable (IsVersion2 b0) := inferInstanceAs (Decidable (_ = _))

theorem IsVersion2.test {b0 : UInt8} (h : IsVersion2 b0) : (b0 &&& 0xC0 == 0x80) = true :=
  beq_iff_eq.2 h

/-- The second byte of an RTCP packet. -/
def IsRtcpType (b1 : UInt8) : Prop := 194 ≤ b1 ∧ b1 ≤ 223

instance (b1 : UInt8) : Decidable (IsRtcpType b1) := inferInstanceAs (Decidable (_ ∧ _))

theorem rtcp_test_iff (b1 : UInt8) : b1 + 62 < 30 ↔ IsRtcpType b1 := by
  unfold IsRtcpType
  rw [UInt8.lt_iff_toNat_lt, UInt8.le_iff_toNat_le, UInt8.le_iff_toNat_le, UInt8.toNat_add]
  have := b1.toNat_lt
  change (b1.toNat + 62) % 256 < 30 ↔ 194 ≤ b1.toNat ∧ b1.toNat ≤ 223
  omega

theorem rtp_test_iff (b1 : UInt8) : b1 + 32 < 0xE2 ↔ ¬ IsRtcpType b1 := by
  unfold IsRtcpType
  rw [UInt8.lt_iff_toNat_lt, UInt8.le_iff_toNat_le, UInt8.le_iff_toNat_le, UInt8.toNat_add]
  have := b1.toNat_lt
  change (b1.toNat + 32) % 256 < 226 ↔ ¬ (194 ≤ b1.toNat ∧ b1.toNat ≤ 223)
  omega

theorem not_isVersion2_of_le_one {b0 : UInt8} (h : b0 ≤ 1) : ¬ IsVersion2 b0 := by
  have hle := UInt8.le_iff_toNat_le.1 h
  change b0.toNat ≤ 1 at hle
  rcases Nat.le_one_iff_eq_zero_or_eq_one.1 hle with h0 | h1
  · rw [show b0 = 0 from UInt8.toNat_inj.1 h0]
    decide
  · rw [show b0 = 1 from UInt8.toNat_inj.1 h1]
    decide

variable {b0 b1 b2 b3 : UInt8} {rest : Bytes}

/-- `to_be_bytes` undoes `from_be_bytes`. -/
theorem u16BeBytes_u16FromBe : u16BeBytes (u16FromBe b0 b1) = [b0, b1] := by
  simp only [u16BeBytes, List.cons.injEq, and_true]
  refine ⟨?_, ?_⟩ <;>
  · apply UInt8.toBitVec_inj.1
    apply BitVec.eq_of_getLsbD_eq
    intro i hi
    simp only [u16FromBe, UInt16.toBitVec_or, UInt16.toBitVec_shiftLeft, UInt8.toBitVec_toUInt16,
      UInt16.toBitVec_toUInt8, UInt16.toBitVec_shiftRight]
    simp <;> grind

theorem u32BeBytes_u32FromBe : u32BeBytes (u32FromBe b0 b1 b2 b3) = [b0, b1, b2, b3] := by
  simp only [u32BeBytes, List.cons.injEq, and_true]
  refine ⟨?_, ?_, ?_, ?_⟩ <;>
  · apply UInt8.toBitVec_inj.1
    apply BitVec.eq_of_getLsbD_eq
    intro i hi
    simp only [u32FromBe, UInt32.toBitVec_or, UInt32.toBitVec_shiftLeft, UInt8.toBitVec_toUInt32,
      UInt32.toBitVec_toUInt8, UInt32.toBitVec_shiftRight]
    simp <;> grind

theorem b0_of_nativePingResponseSequence
    (h : (nativePingResponseSequence (b0 :: b1 :: rest)).isSome) : b0 = 0x13 := by
  match rest with
  | m2 :: m3 :: s0 :: s1 :: s2 :: s3 :: rest =>
    rw [nativePingResponseSequence] at h
    split at h
    · exact absurd h (by simp)
    · rename_i hmagic
      have hbytes := congrArg u32BeBytes (not_not.1 hmagic)
      rw [u32BeBytes_u32FromBe] at hbytes
      exact (List.cons.inj hbytes).1
  | [] | [_] | [_, _] | [_, _, _] | [_, _, _, _] | [_, _, _, _, _] =>
    exact absurd h (by simp [nativePingResponseSequence])

theorem le_one_of_isNativeEchoPacket (h : isNativeEchoPacket (b0 :: b1 :: rest) = true) :
    b0 ≤ 1 := by
  match rest with
  | b2 :: b3 :: rest =>
    rw [isNativeEchoPacket] at h
    split at h
    · exact absurd h (by simp)
    · rename_i htest
      simp only [Bool.or_eq_true, decide_eq_true_eq, not_or] at htest
      exact UInt8.not_lt.1 htest.2
  | [] | [_] => exact absurd h (by simp [isNativeEchoPacket])

/-- **Packets of version 2 are told apart by their second byte**, and no control packet is one. -/
theorem classifyUdpPacket_of_version (hb0 : IsVersion2 b0) (hlen : 6 ≤ rest.length) :
    isNativeControlPacket (b0 :: b1 :: rest) = false ∧
      classifyUdpPacket (b0 :: b1 :: rest) = some (if IsRtcpType b1 then .rtcp else .rtp) := by
  constructor
  · rw [isNativeControlPacket, Bool.or_eq_false_iff]
    constructor
    · refine Bool.eq_false_iff.2 fun hping => ?_
      rw [b0_of_nativePingResponseSequence hping] at hb0
      exact absurd hb0 (by decide)
    · exact Bool.eq_false_iff.2 fun hecho =>
        not_isVersion2_of_le_one (le_one_of_isNativeEchoPacket hecho) hb0
  · have hrtcp : isRtcpPacket (b0 :: b1 :: rest) = decide (IsRtcpType b1) := by
      simp [isRtcpPacket, hb0.test, hlen, rtcp_test_iff]
    have hrtp : isRtpPacket (b0 :: b1 :: rest) = decide (¬ IsRtcpType b1) := by
      simp [isRtpPacket, hb0.test, hlen, rtp_test_iff]
    rw [classifyUdpPacket, hrtcp, hrtp]
    by_cases h : IsRtcpType b1 <;> simp [h]

/-! ## What the other side sends -/

section Sealed

variable {aead : Aead} {c : TransportCrypto} {header payload packet : Bytes}

/-- A sealed packet starts with its header, which decides what it is. -/
theorem classifyUdpPacket_encryptRtp_of_version (haead : aead.Lawful) (hb0 : IsVersion2 b0)
    (h : (c.encryptRtp aead (b0 :: b1 :: rest) payload).1 = .ok packet) :
    isNativeControlPacket packet = false ∧
      classifyUdpPacket packet = some (if IsRtcpType b1 then .rtcp else .rtp) := by
  obtain ⟨ciphertext, hsealed, rfl⟩ := TransportCrypto.encryptRtp_eq_ok.1 h
  have hlen := haead.length_encrypt _ _ _ _ _ _ hsealed
  exact classifyUdpPacket_of_version hb0 (by simp; omega)

/-- The second byte of an RTP packet, whose payload types leave out those that RTCP uses. -/
theorem not_isRtcpType_payloadType {payloadType : UInt8} {marker : Bool} (hlt : payloadType < 128)
    (hpt : marker = true → payloadType < 66 ∨ 95 < payloadType) :
    ¬ IsRtcpType (payloadType ||| if marker then 0x80 else 0) := by
  have hnat := UInt8.lt_iff_toNat_lt.1 hlt
  change payloadType.toNat < 128 at hnat
  unfold IsRtcpType
  rw [UInt8.le_iff_toNat_le, UInt8.le_iff_toNat_le]
  change ¬ (194 ≤ UInt8.toNat _ ∧ UInt8.toNat _ ≤ 223)
  cases marker with
  | false =>
    rw [if_neg (by simp), UInt8.or_zero]
    omega
  | true =>
    have hor : (payloadType ||| 0x80).toNat = payloadType.toNat + 128 := by
      rw [UInt8.toNat_or, Nat.or_comm]
      exact (Nat.two_pow_add_eq_or_of_lt (i := 7) hnat 1).symm.trans (Nat.add_comm ..)
    have houtside := hpt rfl
    rw [UInt8.lt_iff_toNat_lt, UInt8.lt_iff_toNat_lt] at houtside
    change payloadType.toNat < 66 ∨ 95 < payloadType.toNat at houtside
    rw [if_pos rfl, hor]
    omega

/-- **RTP packets arrive as RTP**, if their payload type leaves out those that RTCP uses. -/
theorem classifyUdpPacket_encryptRtp (haead : aead.Lawful) (hb0 : IsVersion2 b0)
    {payloadType : UInt8} {marker : Bool} (hlt : payloadType < 128)
    (hpt : marker = true → payloadType < 66 ∨ 95 < payloadType)
    (h : (c.encryptRtp aead (b0 :: (payloadType ||| if marker then 0x80 else 0) :: rest)
      payload).1 = .ok packet) :
    isNativeControlPacket packet = false ∧ classifyUdpPacket packet = some .rtp := by
  have := classifyUdpPacket_encryptRtp_of_version haead hb0 h
  rwa [if_neg (not_isRtcpType_payloadType hlt hpt)] at this

/-- **RTCP packets arrive as RTCP.** -/
theorem classifyUdpPacket_encryptRtcp (haead : aead.Lawful) {p : RtcpPacket} (hp : p.Valid)
    (h : (c.encryptRtp aead p.header payload).1 = .ok packet) :
    isNativeControlPacket packet = false ∧ classifyUdpPacket packet = some .rtcp := by
  have := classifyUdpPacket_encryptRtp_of_version haead (RtcpPacket.count_bits _ hp.count).1 h
  rwa [if_pos ⟨hp.le_packetType, hp.packetType_le⟩] at this

end Sealed

/-! ## IP discovery -/

def ipDiscoveryRequest (ssrc : UInt32) : Bytes :=
  u16BeBytes IP_DISCOVERY_SEND ++ u16BeBytes IP_DISCOVERY_PAYLOAD_LEN ++ u32BeBytes ssrc ++
    List.replicate 66 0

/-- The errors that discovery ends with. -/
inductive DiscoveryError
  | timedOut
  | invalidData
  | socket (message : String)
  deriving DecidableEq

/-- The message of an error. -/
def DiscoveryError.toString : DiscoveryError → String
  | timedOut => "Timed out waiting for UDP IP discovery response"
  | invalidData => "UDP IP discovery returned non-ASCII IP"
  | socket message => message

/-- `std::str::from_utf8`. -/
def strFromUtf8 (bytes : Bytes) : Option String := String.fromUTF8? ⟨bytes.toArray⟩

def parseIpDiscoveryResponse (packet : Bytes) (ssrc : UInt32) :
    Except DiscoveryError (Option (String × UInt16)) :=
  if packet.length ≠ IP_DISCOVERY_PACKET_SIZE then .ok none
  else match packet with
    | b0 :: b1 :: b2 :: b3 :: b4 :: b5 :: b6 :: b7 :: rest =>
      if u16FromBe b0 b1 ≠ IP_DISCOVERY_RESPONSE ∨ u16FromBe b2 b3 ≠ IP_DISCOVERY_PAYLOAD_LEN ∨
          u32FromBe b4 b5 b6 b7 ≠ ssrc then .ok none
      else
        let ipBytes := rest.take 64
        match strFromUtf8 (ipBytes.takeWhile (· ≠ 0)), rest.drop 64 with
        | some ip, [p0, p1] => .ok (some (ip, u16FromBe p0 p1))
        | _, _ => .error .invalidData
    | _ => .ok none

/-- What the socket answers a `recv`. -/
inductive Recv
  | packet (data : Bytes)
  | retry
  | error (message : String)

/-- The loop of `discover_ip_socket` behind its request, over the answers of the socket and the
times that have elapsed behind each. A loop whose answers are at an end still waits. -/
def awaitDiscovery (ssrc : UInt32) (timeout : ℕ) :
    List (Recv × ℕ) → Option (Except DiscoveryError (String × UInt16))
  | [] => none
  | (answer, elapsed) :: answers =>
    let continued :=
      if elapsed ≥ timeout then some (.error .timedOut) else awaitDiscovery ssrc timeout answers
    match answer with
    | .packet data =>
      match parseIpDiscoveryResponse data ssrc with
      | .error e => some (.error e)
      | .ok (some result) => some (.ok result)
      | .ok none => continued
    | .retry => continued
    | .error message => some (.error (.socket message))

/-- `discover_ip_socket`, where `send` is what the socket answers to `ipDiscoveryRequest`. -/
def discoverIpSocket (ssrc : UInt32) (timeout : ℕ) (send : Bytes → Except String Unit)
    (answers : List (Recv × ℕ)) : Option (Except DiscoveryError (String × UInt16)) :=
  match send (ipDiscoveryRequest ssrc) with
  | .error message => some (.error (.socket message))
  | .ok () => awaitDiscovery ssrc timeout answers

/-- The layout of the packets of discovery: in a response, a text is in the field of 64 bytes. -/
def discoveryPacket (packetType payloadLen : UInt16) (ssrc : UInt32) (field : Bytes)
    (port : UInt16) : Bytes :=
  u16BeBytes packetType ++ u16BeBytes payloadLen ++ u32BeBytes ssrc ++ field ++ u16BeBytes port

def ipDiscoveryResponse (ssrc : UInt32) (field : Bytes) (port : UInt16) : Bytes :=
  discoveryPacket IP_DISCOVERY_RESPONSE IP_DISCOVERY_PAYLOAD_LEN ssrc field port

/-- A field that starts with a text, which the first zero ends. -/
structure IsField (field : Bytes) (ip : String) : Prop where
  length : field.length = 64
  text : field.takeWhile (· ≠ 0) = strBytes ip

/-- The first bytes of a response to the request for an SSRC. -/
def responseHeader (ssrc : UInt32) : Bytes :=
  u16BeBytes IP_DISCOVERY_RESPONSE ++ u16BeBytes IP_DISCOVERY_PAYLOAD_LEN ++ u32BeBytes ssrc

/-- A packet of another size than a response, or with another header. -/
def Foreign (ssrc : UInt32) (packet : Bytes) : Prop :=
  packet.length ≠ IP_DISCOVERY_PACKET_SIZE ∨ packet.take 8 ≠ responseHeader ssrc

/-- An answer of the socket that the loop goes on behind. -/
def Ignored (ssrc : UInt32) (timeout : ℕ) (answer : Recv × ℕ) : Prop :=
  answer.2 < timeout ∧
    (answer.1 = .retry ∨ ∃ data, answer.1 = .packet data ∧ Foreign ssrc data)

variable {ssrc : UInt32} {ip : String} {port : UInt16} {packet field : Bytes}

theorem strFromUtf8_eq_some_iff {bytes : Bytes} :
    strFromUtf8 bytes = some ip ↔ bytes = strBytes ip := by
  rw [strFromUtf8, String.fromUTF8?, strBytes]
  constructor
  · intro h
    split at h
    · obtain rfl := Option.some.inj h
      rfl
    · exact absurd h (by simp)
  · rintro rfl
    rw [dif_pos (by simpa using ip.isValidUTF8)]
    rfl

/-- A packet of the size of discovery has its layout. -/
theorem exists_discoveryPacket (h : packet.length = IP_DISCOVERY_PACKET_SIZE) :
    ∃ packetType payloadLen ssrc field port, field.length = 64 ∧
      packet = discoveryPacket packetType payloadLen ssrc field port := by
  change packet.length = 74 at h
  match packet, h with
  | b0 :: b1 :: b2 :: b3 :: b4 :: b5 :: b6 :: b7 :: rest, h =>
    have hrest : rest.length = 66 := by
      simp only [List.length_cons] at h
      omega
    have hfield : (rest.take 64).length = 64 := by
      rw [List.length_take, hrest]
      rfl
    obtain ⟨p0, p1, hport⟩ := List.length_eq_two.1
      (show (rest.drop 64).length = 2 by rw [List.length_drop, hrest])
    refine ⟨u16FromBe b0 b1, u16FromBe b2 b3, u32FromBe b4 b5 b6 b7, rest.take 64,
      u16FromBe p0 p1, hfield, ?_⟩
    rw [discoveryPacket, u16BeBytes_u16FromBe, u16BeBytes_u16FromBe, u32BeBytes_u32FromBe,
      u16BeBytes_u16FromBe, ← hport, List.append_assoc, List.take_append_drop]
    rfl

theorem parseIpDiscoveryResponse_discoveryPacket {packetType payloadLen : UInt16}
    {packetSsrc : UInt32} (hfield : field.length = 64) :
    parseIpDiscoveryResponse (discoveryPacket packetType payloadLen packetSsrc field port) ssrc =
      if packetType ≠ IP_DISCOVERY_RESPONSE ∨ payloadLen ≠ IP_DISCOVERY_PAYLOAD_LEN ∨
          packetSsrc ≠ ssrc then .ok none
      else match strFromUtf8 (field.takeWhile (· ≠ 0)) with
        | some ip => .ok (some (ip, port))
        | none => .error .invalidData := by
  have hlen : (discoveryPacket packetType payloadLen packetSsrc field port).length =
      IP_DISCOVERY_PACKET_SIZE := by
    simp [discoveryPacket, u16BeBytes, u32BeBytes, hfield, IP_DISCOVERY_PACKET_SIZE]
  have hlayout : discoveryPacket packetType payloadLen packetSsrc field port =
      (packetType >>> 8).toUInt8 :: packetType.toUInt8 :: (payloadLen >>> 8).toUInt8 ::
        payloadLen.toUInt8 :: (packetSsrc >>> 24).toUInt8 :: (packetSsrc >>> 16).toUInt8 ::
        (packetSsrc >>> 8).toUInt8 :: packetSsrc.toUInt8 :: (field ++ u16BeBytes port) := by
    simp [discoveryPacket, u16BeBytes, u32BeBytes]
  unfold parseIpDiscoveryResponse
  rw [if_neg (not_not.2 hlen), hlayout]
  dsimp only
  rw [u16FromBe_u16BeBytes, u16FromBe_u16BeBytes, u32FromBe_u32BeBytes, ← hfield, List.take_left,
    List.drop_left, u16BeBytes]
  cases strFromUtf8 (field.takeWhile (· ≠ 0)) with
  | none => rfl
  | some ip =>
    dsimp only
    rw [u16FromBe_u16BeBytes]

/-- **What is accepted is a response**, and its address is the one that is returned. -/
theorem parseIpDiscoveryResponse_eq_some_iff :
    parseIpDiscoveryResponse packet ssrc = .ok (some (ip, port)) ↔
      ∃ field, IsField field ip ∧ packet = ipDiscoveryResponse ssrc field port := by
  constructor
  · intro h
    by_cases hlen : packet.length = IP_DISCOVERY_PACKET_SIZE
    · obtain ⟨packetType, payloadLen, packetSsrc, field, packetPort, hfield, rfl⟩ :=
        exists_discoveryPacket hlen
      rw [parseIpDiscoveryResponse_discoveryPacket hfield] at h
      split at h
      · exact absurd h (by simp)
      · rename_i hheader
        obtain ⟨htype, hpayload, hssrc⟩ := by simpa only [not_or, not_not] using hheader
        split at h
        · rename_i text htext
          obtain ⟨rfl, rfl⟩ := Prod.mk.inj (Option.some.inj (Except.ok.inj h))
          rw [htype, hpayload, hssrc]
          exact ⟨field, ⟨hfield, strFromUtf8_eq_some_iff.1 htext⟩, rfl⟩
        · exact absurd h (by simp)
    · unfold parseIpDiscoveryResponse at h
      rw [if_pos hlen] at h
      exact absurd h (by simp)
  · rintro ⟨field, hfield, rfl⟩
    rw [ipDiscoveryResponse, parseIpDiscoveryResponse_discoveryPacket hfield.length,
      if_neg (by simp), strFromUtf8_eq_some_iff.2 hfield.text]

/-- A packet has the header of a response, if its type, its payload length and its SSRC are
those. -/
theorem take_discoveryPacket_eq_iff {packetType payloadLen : UInt16} {packetSsrc : UInt32} :
    (discoveryPacket packetType payloadLen packetSsrc field port).take 8 = responseHeader ssrc ↔
      packetType = IP_DISCOVERY_RESPONSE ∧ payloadLen = IP_DISCOVERY_PAYLOAD_LEN ∧
        packetSsrc = ssrc := by
  have htake : (discoveryPacket packetType payloadLen packetSsrc field port).take 8 =
      u16BeBytes packetType ++ u16BeBytes payloadLen ++ u32BeBytes packetSsrc := by
    simp [discoveryPacket, u16BeBytes, u32BeBytes]
  rw [htake, responseHeader]
  constructor
  · intro h
    obtain ⟨hfront, hssrc⟩ := List.append_inj h rfl
    obtain ⟨htype, hpayload⟩ := List.append_inj hfront rfl
    exact ⟨u16BeBytes_injective htype, u16BeBytes_injective hpayload, u32BeBytes_injective hssrc⟩
  · rintro ⟨rfl, rfl, rfl⟩
    rfl

/-- **What is passed over is foreign.** -/
theorem parseIpDiscoveryResponse_eq_none_iff :
    parseIpDiscoveryResponse packet ssrc = .ok none ↔ Foreign ssrc packet := by
  by_cases hlen : packet.length = IP_DISCOVERY_PACKET_SIZE
  · obtain ⟨packetType, payloadLen, packetSsrc, field, packetPort, hfield, rfl⟩ :=
      exists_discoveryPacket hlen
    have hforeign :
        Foreign ssrc (discoveryPacket packetType payloadLen packetSsrc field packetPort) ↔
        packetType ≠ IP_DISCOVERY_RESPONSE ∨ payloadLen ≠ IP_DISCOVERY_PAYLOAD_LEN ∨
          packetSsrc ≠ ssrc := by
      rw [Foreign, or_iff_right (not_not.2 hlen), ne_eq, take_discoveryPacket_eq_iff, not_and_or,
        not_and_or]
    rw [parseIpDiscoveryResponse_discoveryPacket hfield, hforeign]
    split
    · rename_i hheader
      exact iff_of_true rfl hheader
    · rename_i hheader
      refine iff_of_false (fun h => ?_) hheader
      split at h
      · exact absurd (Except.ok.inj h) (by simp)
      · cases h
  · unfold parseIpDiscoveryResponse
    rw [if_pos hlen]
    exact iff_of_true rfl (.inl hlen)

/-- The loop goes on behind what it ignores. -/
theorem awaitDiscovery_append {timeout : ℕ} {pre post : List (Recv × ℕ)}
    (h : ∀ a ∈ pre, Ignored ssrc timeout a) :
    awaitDiscovery ssrc timeout (pre ++ post) = awaitDiscovery ssrc timeout post := by
  induction pre with
  | nil => rfl
  | cons a pre ih =>
    obtain ⟨hearly, hanswer⟩ := h a List.mem_cons_self
    have hrest := ih fun b hb => h b (List.mem_cons_of_mem a hb)
    obtain ⟨answer, elapsed⟩ := a
    rcases hanswer with rfl | ⟨data, rfl, hdata⟩
    · rw [List.cons_append, awaitDiscovery, if_neg (Nat.not_le.2 hearly), hrest]
    · rw [List.cons_append, awaitDiscovery, parseIpDiscoveryResponse_eq_none_iff.2 hdata]
      dsimp only
      rw [if_neg (Nat.not_le.2 hearly), hrest]

/-- The loop ends with an address at the first answer that it does not ignore. -/
theorem awaitDiscovery_eq_ok_iff {timeout : ℕ} {answers : List (Recv × ℕ)} :
    awaitDiscovery ssrc timeout answers = some (.ok (ip, port)) ↔
      ∃ pre field elapsed post, answers =
          pre ++ (.packet (ipDiscoveryResponse ssrc field port), elapsed) :: post ∧
        IsField field ip ∧ ∀ a ∈ pre, Ignored ssrc timeout a := by
  constructor
  · intro h
    induction answers with
    | nil => exact absurd h (by simp [awaitDiscovery])
    | cons a answers ih =>
      have hskip (hignored : Ignored ssrc timeout a)
          (h : awaitDiscovery ssrc timeout answers = some (.ok (ip, port))) :
          ∃ pre field elapsed post, a :: answers =
              pre ++ (.packet (ipDiscoveryResponse ssrc field port), elapsed) :: post ∧
            IsField field ip ∧ ∀ a ∈ pre, Ignored ssrc timeout a := by
        obtain ⟨pre, field, elapsed, post, rfl, hfield, hpre⟩ := ih h
        refine ⟨a :: pre, field, elapsed, post, rfl, hfield, fun b hb => ?_⟩
        rcases List.mem_cons.1 hb with rfl | hb
        · exact hignored
        · exact hpre b hb
      obtain ⟨answer, elapsed⟩ := a
      cases answer with
      | packet data =>
        rw [awaitDiscovery] at h
        split at h
        · exact absurd h (by simp)
        · rename_i result hresult
          obtain rfl := Except.ok.inj (Option.some.inj h)
          obtain ⟨field, hfield, rfl⟩ := parseIpDiscoveryResponse_eq_some_iff.1 hresult
          exact ⟨[], field, elapsed, answers, rfl, hfield, by simp⟩
        · rename_i hnone
          split at h
          · exact absurd h (by simp)
          · rename_i hearly
            exact hskip ⟨Nat.not_le.1 hearly,
              .inr ⟨data, rfl, parseIpDiscoveryResponse_eq_none_iff.1 hnone⟩⟩ h
      | retry =>
        rw [awaitDiscovery] at h
        split at h
        · exact absurd h (by simp)
        · rename_i hearly
          exact hskip ⟨Nat.not_le.1 hearly, .inl rfl⟩ h
      | error message => exact absurd h (by simp [awaitDiscovery])
  · rintro ⟨pre, field, elapsed, post, rfl, hfield, hpre⟩
    rw [awaitDiscovery_append hpre, awaitDiscovery,
      parseIpDiscoveryResponse_eq_some_iff.2 ⟨field, hfield, rfl⟩]

/-- **IP discovery gives the address of the first response to its request**, whatever else arrives,
and it gives no other address. -/
theorem discoverIpSocket_eq_ok_iff (ssrc : UInt32) (timeout : ℕ) (send : Bytes → Except String Unit)
    (answers : List (Recv × ℕ)) (ip : String) (port : UInt16) :
    discoverIpSocket ssrc timeout send answers = some (.ok (ip, port)) ↔
      send (ipDiscoveryRequest ssrc) = .ok () ∧
      ∃ pre field elapsed post, answers =
          pre ++ (.packet (ipDiscoveryResponse ssrc field port), elapsed) :: post ∧
        IsField field ip ∧ ∀ a ∈ pre, Ignored ssrc timeout a := by
  rw [discoverIpSocket]
  cases hsend : send (ipDiscoveryRequest ssrc) with
  | error message => simp
  | ok => simp [awaitDiscovery_eq_ok_iff]

end NativeVoice.Transport
