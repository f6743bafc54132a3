import NativeVoice.Video.AV1.Obu
import NativeVoice.Video.Common

/-!
# The AV1 packetizer

`AV1Packetizer` of `src/src/video/av1.rs`: `packetize_internal` plans which pieces of which OBUs go
into which packet, `packetize_obus` plans a second time with a smaller limit to make the packets
even, and `write_packet_payload` writes a packet of a plan.
-/

namespace NativeVoice.Video

def AGGREGATION_HEADER_SIZE : ℕ := 1
def MAX_NUM_OBUS_TO_OMIT_SIZE : ℕ := 3
def BYTES_OVERHEAD_EVEN_DISTRIBUTION : ℕ := 1
def MIN_BYTES_SAVED_PER_PACKET_WITH_EVEN_DISTRIBUTION : ℕ := 10

structure AV1PayloadSizeLimits where
  maxPayloadLen : ℕ
  firstPacketReductionLen : ℕ
  lastPacketReductionLen : ℕ
  singlePacketReductionLen : ℕ
  deriving DecidableEq

structure AV1Packet where
  firstObu : ℕ
  firstObuOffset : ℕ
  numObuElements : ℕ
  lastObuSize : ℕ
  packetSize : ℕ
  deriving DecidableEq

def AV1Packet.new (firstObu : ℕ) : AV1Packet where
  firstObu := firstObu
  firstObuOffset := 0
  numObuElements := 0
  lastObuSize := 0
  packetSize := 0

def additionalBytesForPreviousObuElement (packet : AV1Packet) : ℕ :=
  if packet.packetSize = 0 ∨ packet.numObuElements > MAX_NUM_OBUS_TO_OMIT_SIZE then 0
  else leb128Size packet.lastObuSize

/-- The loop of `max_fragment_size`; a packet is too short for a tenth round. -/
def maxFragmentSizeFrom (b : Build) (remainingBytes bytes : ℕ) : Fallible PacketError ℕ :=
  if remainingBytes < 1 <<< (7 * bytes) + bytes then b.subUsize remainingBytes bytes
  else maxFragmentSizeFrom b remainingBytes (bytes + 1)
termination_by remainingBytes - bytes
decreasing_by
  have := Nat.two_pow_pos (7 * bytes)
  simp only [Nat.shiftLeft_eq, Nat.one_mul] at *
  omega

def maxFragmentSize (b : Build) (remainingBytes : ℕ) : Fallible PacketError ℕ :=
  if remainingBytes ≤ 1 then .ok 0 else maxFragmentSizeFrom b remainingBytes 1

namespace AV1Packetizer

/-- The variables of the loop of `packetize_internal`: the packets so far, of which there is always
a last one, and the bytes that remain in that one. -/
structure Packing where
  packets : List AV1Packet
  packet : AV1Packet
  packetRemainingBytes : ℕ
  deriving DecidableEq

/-- A packet with a single piece of an OBU. -/
def piecePacket (obuIndex offset size : ℕ) : AV1Packet :=
  { AV1Packet.new obuIndex with
    numObuElements := 1, firstObuOffset := offset, lastObuSize := size, packetSize := size }

/-- The packets between the first and the last piece of an OBU, and the offset behind them. The
length of a packet is not 0, which `packetize_internal` checks before. -/
def middlePackets (maxPayloadLen obuIndex obuSize obuOffset : ℕ) : List AV1Packet × ℕ :=
  if 0 < maxPayloadLen ∧ obuOffset + maxPayloadLen < obuSize then
    let r := middlePackets maxPayloadLen obuIndex obuSize (obuOffset + maxPayloadLen)
    (piecePacket obuIndex obuOffset maxPayloadLen :: r.1, r.2)
  else ([], obuOffset)
termination_by obuSize - obuOffset

/-- The size of the second last piece of the last OBU. -/
def semiLastFragmentSize (b : Build) (limits : AV1PayloadSizeLimits) (lastFragmentSize : ℕ) :
    Fallible PacketError ℕ :=
  if (lastFragmentSize + limits.lastPacketReductionLen) / 2 ≥ lastFragmentSize then
    b.subUsize lastFragmentSize 1
  else .ok ((lastFragmentSize + limits.lastPacketReductionLen) / 2)

/-- The second last packet of the last OBU, if the last piece has to leave room, with the offset and
the size of the last piece. -/
def semiLastPacket (b : Build) (limits : AV1PayloadSizeLimits) (isLastObu : Bool)
    (obuIndex obuOffset lastFragmentSize : ℕ) :
    Fallible PacketError (List AV1Packet × ℕ × ℕ) :=
  if isLastObu ∧ lastFragmentSize > limits.maxPayloadLen - limits.lastPacketReductionLen then
    if lastFragmentSize < 2 then .error (.err .payloadTooLarge)
    else do
      let semiLastFragmentSize ← semiLastFragmentSize b limits lastFragmentSize
      let lastFragmentSize ← b.subUsize lastFragmentSize semiLastFragmentSize
      return ([piecePacket obuIndex obuOffset semiLastFragmentSize],
        obuOffset + semiLastFragmentSize, lastFragmentSize)
  else .ok ([], obuOffset, lastFragmentSize)

/-- The size of the first piece of an OBU, for which `packetRemainingBytes` are left. -/
def firstFragmentSize (b : Build) (obuSize : ℕ) (mustWriteObuElementSize : Bool)
    (packetRemainingBytes : ℕ) : Fallible PacketError ℕ := do
  let maxFirstFragmentSize ← (if mustWriteObuElementSize then maxFragmentSize b packetRemainingBytes
    else .ok packetRemainingBytes)
  let obuSizeButOne ← b.subUsize obuSize 1
  return min obuSizeButOne maxFirstFragmentSize

/-- The current packet with the first piece of an OBU, or as it was before if there is no room. -/
def withFirstFragment (b : Build) (packet : AV1Packet) (mustWriteObuElementSize : Bool)
    (previousObuExtraSize firstFragmentSize : ℕ) : Fallible PacketError AV1Packet :=
  if firstFragmentSize = 0 then do
    let numObuElements ← b.subUsize packet.numObuElements 1
    let packetSize ← b.subUsize packet.packetSize previousObuExtraSize
    return { packet with numObuElements, packetSize }
  else .ok { packet with
    packetSize := packet.packetSize + firstFragmentSize +
      if mustWriteObuElementSize then leb128Size firstFragmentSize else 0
    lastObuSize := firstFragmentSize }

/-- The rest of a round for an OBU that does not fit: its first piece goes into the current packet,
the others into packets of their own. -/
def fragmentObu (b : Build) (limits : AV1PayloadSizeLimits) (obuIndex obuSize : ℕ)
    (isLastObu mustWriteObuElementSize : Bool) (previousObuExtraSize : ℕ) (s : Packing) :
    Fallible PacketError Packing := do
  let firstFragmentSize ← firstFragmentSize b obuSize mustWriteObuElementSize s.packetRemainingBytes
  let packet ← withFirstFragment b s.packet mustWriteObuElementSize previousObuExtraSize
    firstFragmentSize
  let (middle, obuOffset) := middlePackets limits.maxPayloadLen obuIndex obuSize firstFragmentSize
  let lastFragmentSize ← b.subUsize obuSize obuOffset
  let (semiLast, obuOffset, lastFragmentSize) ←
    semiLastPacket b limits isLastObu obuIndex obuOffset lastFragmentSize
  let packetRemainingBytes ← b.subUsize limits.maxPayloadLen lastFragmentSize
  return { packets := s.packets ++ [packet] ++ middle ++ semiLast
           packet := piecePacket obuIndex obuOffset lastFragmentSize
           packetRemainingBytes }

/-- The beginning of a round: a new packet, if the current one has no room for another element, and
the bytes that the length of the previous element takes now. -/
def openPacket (limits : AV1PayloadSizeLimits) (obuIndex : ℕ) (s : Packing) : Packing × ℕ :=
  let previousObuExtraSize := additionalBytesForPreviousObuElement s.packet
  let minRequiredSize := if s.packet.numObuElements ≥ MAX_NUM_OBUS_TO_OMIT_SIZE then 2 else 1
  if s.packetRemainingBytes < previousObuExtraSize + minRequiredSize then
    ({ packets := s.packets ++ [s.packet]
       packet := .new obuIndex
       packetRemainingBytes := limits.maxPayloadLen }, 0)
  else (s, previousObuExtraSize)

/-- The bytes that the next OBU may take. -/
def availableBytes (limits : AV1PayloadSizeLimits) (isLastObu : Bool) (s : Packing) : ℕ :=
  if isLastObu then
    if s.packets.isEmpty then
      s.packetRemainingBytes + limits.firstPacketReductionLen - limits.singlePacketReductionLen
    else s.packetRemainingBytes - limits.lastPacketReductionLen
  else s.packetRemainingBytes

/-- One round of the loop of `packetize_internal`, for one OBU. -/
def packObu (b : Build) (limits : AV1PayloadSizeLimits) (obuIndex : ℕ) (isLastObu : Bool)
    (obu : AV1Obu) (s : Packing) : Fallible PacketError Packing := do
  let (s, previousObuExtraSize) := openPacket limits obuIndex s
  let packetRemainingBytes ← b.subUsize s.packetRemainingBytes previousObuExtraSize
  let s := { s with
    packet := { s.packet with
      packetSize := s.packet.packetSize + previousObuExtraSize
      numObuElements := s.packet.numObuElements + 1 }
    packetRemainingBytes }
  let mustWriteObuElementSize := s.packet.numObuElements > MAX_NUM_OBUS_TO_OMIT_SIZE
  let requiredBytes := obu.size + if mustWriteObuElementSize then leb128Size obu.size else 0
  if requiredBytes ≤ availableBytes limits isLastObu s then
    let packetRemainingBytes ← b.subUsize s.packetRemainingBytes requiredBytes
    return { s with
      packet := { s.packet with
        lastObuSize := obu.size, packetSize := s.packet.packetSize + requiredBytes }
      packetRemainingBytes }
  else
    fragmentObu b limits obuIndex obu.size isLastObu mustWriteObuElementSize previousObuExtraSize s

/-- The rounds for the OBUs from `obuIndex` on. -/
def packObus (b : Build) (limits : AV1PayloadSizeLimits) (obuIndex : ℕ) :
    List AV1Obu → Packing → Fallible PacketError Packing
  | [], s => .ok s
  | obu :: obus, s => do
    let s ← packObu b limits obuIndex obus.isEmpty obu s
    packObus b limits (obuIndex + 1) obus s

def packetizeInternal (b : Build) (obus : List AV1Obu) (limits : AV1PayloadSizeLimits) :
    Fallible PacketError (List AV1Packet) :=
  if obus.isEmpty then .ok []
  else if limits.maxPayloadLen - limits.lastPacketReductionLen < 3 ∨
      limits.maxPayloadLen - limits.firstPacketReductionLen < 3 then
    .error (.err .payloadTooLarge)
  else do
    let maxPayloadLen ← b.subUsize limits.maxPayloadLen AGGREGATION_HEADER_SIZE
    let limits := { limits with maxPayloadLen }
    let s ← packObus b limits 0 obus
      { packets := []
        packet := .new 0
        packetRemainingBytes := limits.maxPayloadLen - limits.firstPacketReductionLen }
    return s.packets ++ [s.packet]

def payloadLimits (mtu : ℕ) : Fallible PacketError AV1PayloadSizeLimits :=
  if mtu - AGGREGATION_HEADER_SIZE < 3 then .error (.err .payloadTooLarge)
  else .ok { maxPayloadLen := mtu
             firstPacketReductionLen := 0
             lastPacketReductionLen := 0
             singlePacketReductionLen := 0 }

/-- The bytes that the packet at `packetIndex` may take, of `packetCount` packets. -/
def packetCapacity (b : Build) (limits : AV1PayloadSizeLimits) (packetCount packetIndex : ℕ) :
    Fallible PacketError ℕ := do
  let availableBytes ← b.subUsize limits.maxPayloadLen AGGREGATION_HEADER_SIZE
  if packetIndex = 0 then return availableBytes - limits.firstPacketReductionLen
  else do
    let lastIndex ← b.subUsize packetCount 1
    return if packetIndex = lastIndex then availableBytes - limits.lastPacketReductionLen
      else availableBytes

/-- The bytes that the packets of a plan leave unused; `packetIndex` is the index of the first one
and `packetCount` their number. -/
def unusedPacketCapacity (b : Build) (limits : AV1PayloadSizeLimits) (packetCount : ℕ) :
    ℕ → List AV1Packet → Fallible PacketError ℕ
  | _, [] => .ok 0
  | packetIndex, packet :: packets => do
    let availableBytes ← packetCapacity b limits packetCount packetIndex
    let unused ← (if availableBytes ≥ packet.packetSize then
      b.subUsize availableBytes packet.packetSize else .ok 0)
    let rest ← unusedPacketCapacity b limits packetCount (packetIndex + 1) packets
    return unused + rest

/-- The second plan of `packetize_obus`, with a smaller limit. It is taken if it has as many packets
as the first one. -/
def evenPackets (b : Build) (obus : List AV1Obu) (limits : AV1PayloadSizeLimits)
    (packets : List AV1Packet) (sizeReduction : ℕ) : Fallible PacketError (List AV1Packet) := do
  let reduction ← b.subUsize sizeReduction BYTES_OVERHEAD_EVEN_DISTRIBUTION
  let maxPayloadLen ← b.subUsize limits.maxPayloadLen reduction
  let reducedLimits := { limits with maxPayloadLen }
  if reducedLimits.maxPayloadLen - reducedLimits.lastPacketReductionLen ≥ 3 ∧
      reducedLimits.maxPayloadLen - reducedLimits.firstPacketReductionLen ≥ 3 then do
    let evenPackets ← packetizeInternal b obus reducedLimits
    if evenPackets.length = packets.length then return evenPackets else return packets
  else return packets

def packetizeObus (b : Build) (mtu : ℕ) (obus : List AV1Obu) :
    Fallible PacketError (List AV1Packet) := do
  let limits ← payloadLimits mtu
  let packets ← packetizeInternal b obus limits
  if packets.length ≤ 1 then return packets
  else do
    let unused ← unusedPacketCapacity b limits packets.length 0 packets
    let sizeReduction := unused / packets.length
    if unused > packets.length * MIN_BYTES_SAVED_PER_PACKET_WITH_EVEN_DISTRIBUTION ∧
        limits.maxPayloadLen > sizeReduction ∧
        sizeReduction > BYTES_OVERHEAD_EVEN_DISTRIBUTION then
      evenPackets b obus limits packets sizeReduction
    else return packets

def aggregationHeader (b : Build) (obus : List AV1Obu) (packet : AV1Packet) (packetIndex : ℕ) :
    Fallible PacketError UInt8 := do
  let lastObuIndex ← b.subUsize (packet.firstObu + packet.numObuElements) 1
  let lastObuOffset := if packet.numObuElements = 1 then packet.firstObuOffset else 0
  let lastObu ← index obus lastObuIndex
  let firstObu ← index obus 0
  let z : UInt8 := if packet.firstObuOffset > 0 then 0x80 else 0
  let y : UInt8 := if lastObuOffset + packet.lastObuSize < lastObu.size then 0x40 else 0
  let w : UInt8 := if packet.numObuElements ≤ MAX_NUM_OBUS_TO_OMIT_SIZE then
    UInt8.ofNat packet.numObuElements <<< (4 : UInt8) else 0
  let n : UInt8 :=
    if packetIndex = 0 ∧ firstObu.obuType = OBU_TYPE_SEQUENCE_HEADER then 0x08 else 0
  return z ||| y ||| w ||| n

/-- The elements of a packet but for the last one, from the OBU at `obuIndex` on. -/
def writeWholeElements (b : Build) (obus : List AV1Obu) :
    (count obuIndex obuOffset : ℕ) → Fallible PacketError Bytes
  | 0, _, _ => .ok []
  | count + 1, obuIndex, obuOffset => do
    let obu ← index obus obuIndex
    let fragmentSize ← b.subUsize obu.size obuOffset
    let fragment ← obu.writeRtpFragment obuOffset fragmentSize
    let rest ← writeWholeElements b obus count (obuIndex + 1) 0
    return writeLeb128 fragmentSize ++ fragment ++ rest

def writePacketPayload (b : Build) (obus : List AV1Obu) (packet : AV1Packet) (packetIndex : ℕ) :
    Fallible PacketError Bytes :=
  if packet.numObuElements = 0 then .error (.err .invalidPayload)
  else do
    let header ← aggregationHeader b obus packet packetIndex
    let whole ← writeWholeElements b obus (packet.numObuElements - 1) packet.firstObu
      packet.firstObuOffset
    let lastObu ← index obus (packet.firstObu + packet.numObuElements - 1)
    let obuOffset := if packet.numObuElements = 1 then packet.firstObuOffset else 0
    let fragmentSize := packet.lastObuSize
    let fragment ← lastObu.writeRtpFragment obuOffset fragmentSize
    let payload := header :: (whole ++
      (if packet.numObuElements > MAX_NUM_OBUS_TO_OMIT_SIZE then
        writeLeb128 fragmentSize else []) ++
      fragment)
    if payload.length ≠ AGGREGATION_HEADER_SIZE + packet.packetSize then
      .error (.err .invalidPayload)
    else return payload

end AV1Packetizer

abbrev AV1Packetizer (ρ : Type) := PacketizerState ρ

namespace AV1Packetizer

variable {τ ρ : Type} (clock : TickClock τ ρ)

def new (ssrc : UInt32) (payloadType : UInt8) (sequence : UInt16) (timestamp : UInt32) :
    AV1Packetizer ρ := PacketizerState.new clock ssrc payloadType sequence timestamp

/-- The loop of `packetize` over the packets of a plan, from the one at `index` on. -/
def packetizePlan (b : Build) (obus : List AV1Obu) (packetCount : ℕ) :
    PacketizerState ρ → ℕ → List AV1Packet →
      Fallible PacketError (List MediaPacket) × PacketizerState ρ
  | st, _, [] => (.ok [], st)
  | st, index, packet :: plan =>
    match writePacketPayload b obus packet index with
    | .error e => (.error e, st)
    | .ok payload =>
      let (mediaPacket, st) := st.packetForPayload payload (index + 1 = packetCount)
      match packetizePlan b obus packetCount st (index + 1) plan with
      | (.error e, st) => (.error e, st)
      | (.ok mediaPackets, st) => (.ok (mediaPacket :: mediaPackets), st)

def packetize (b : Build) (p : AV1Packetizer ρ) (frame : Bytes) (frameTimeMs : τ) :
    Fallible PacketError (List MediaPacket) × AV1Packetizer ρ :=
  if frame.isEmpty then (.error (.err .emptyFrame), p)
  else match parseAv1Obus b frame with
    | .error e => (.error e, p)
    | .ok obus =>
      if obus.isEmpty then (.error (.err .emptyFrame), p)
      else match packetizeObus b p.mtu obus with
        | .error e => (.error e, p)
        | .ok plan =>
          match packetizePlan b obus plan.length p 0 plan with
          | (.error e, p) => (.error e, p)
          | (.ok packets, p) => (.ok packets, p.incrementTimestamp clock frameTimeMs)

end AV1Packetizer

end NativeVoice.Video
