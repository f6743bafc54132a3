import NativeVoice.Receive.VideoFrames
import NativeVoice.Transport.RoundTrip

/-!
# Batches of received packets

`_handle_socket_packets` of `src/discord/ext/native_voice/client.py`: a batch of packets is
decrypted, then each of them is decoded in a loop, the video packets in a loop within it. A
depacketizer that rejects a packet raises, which ends both loops and loses what they have gathered.

* `isolatedSocketPackets` goes on with the next packet instead.
* `handleSocketPackets_isolates_iff`: when the two deliver the same.
-/

namespace NativeVoice.Receive

open Video Transport Lib Batch

/-- What `listen` and the voice connection give a batch: the keys, what is known of the streams and
the time. -/
structure BatchContext where
  crypto : TransportCrypto
  connection : Connection
  receivedAt : ℚ

def isUnencryptedOpusSilencePayload (opusSilence payload : Bytes) : Bool :=
  if payload = opusSilence then true
  else if ¬ opusSilence <+: payload then false
  else
    let padding := payload.drop opusSilence.length
    !padding.isEmpty && padding.length ≤ 255 && padding.all fun byte => byte.toNat = padding.length

/-- The raw packets of a batch that can be decrypted, with what they are decrypted to. -/
def decodeRtpPackets (aead : Aead) (crypto : TransportCrypto) (batch : List Bytes) :
    List (Bytes × DecodedRTPPacket) :=
  (decryptRtpPackets aead crypto batch).2.map fun (index, decoded) => (batch.getD index [], decoded)

def ReceivedPacket.video (p : ReceivedPacket) (receivedAt : ℚ) : ReceivedVideoPacket where
  decoded := p.decoded
  codec := p.codec
  ssrc := p.ssrc
  userId := p.userId
  raw := p.raw
  rtpPacket := p.rtpPacket
  receivedAt := receivedAt

namespace Receiver

variable {σ : Type} (r : Receiver σ)

/-- The payload of an audio packet behind DAVE, unless it is dropped. -/
def decryptAudio (p : ReceivedPacket) (s : σ) : Option Bytes × σ :=
  let payload := p.decoded.payload
  if isUnencryptedOpusSilencePayload r.opusSilence payload then (some payload, s)
  else
    let (daveSession, s) := r.env.daveSession s
    if !daveSession then (some payload, s)
    else
      let looksLikeDave := looksLikeDaveProtocolFrame payload
      match p.userId with
      | none => (if looksLikeDave then none else some payload, s)
      | some userId =>
        let (canDecrypt, s) := r.env.canDecryptDave userId s
        if canDecrypt then
          let (payload, s) := r.env.decrypt userId .audio payload s
          (payload.toOption, s)
        else (if looksLikeDave then none else some payload, s)

/-- The media packet of an audio packet. Its payload type is the one that the packet came with, of
an RTX packet also. -/
def decodeAudioPacket (receivedAt : ℚ) (st : ReceiveState σ) (p : ReceivedPacket) :
    Option MediaPacket × ReceiveState σ :=
  let (payload, environment) := r.decryptAudio p st.environment
  (payload.map fun payload =>
    { mediaType := .audio
      codec := p.codec
      payload
      payloadType := p.rtpPacket.rtxPayloadType.getD p.decoded.payloadType
      marker := p.decoded.marker
      sequence := p.decoded.sequence
      timestamp := p.decoded.timestamp
      ssrc := p.ssrc
      userId := p.userId
      raw := p.raw
      extensionPayload := p.decoded.extensionPayload
      rtpExtended := p.decoded.extended
      rtpExtensions := p.decoded.rtpExtensions
      rtpPackets := [p.rtpPacket]
      receivedAt }, { st with environment })

def decodeDecodedMediaPacket (context : BatchContext) (st : ReceiveState σ)
    (packet : Bytes × DecodedRTPPacket) : Except ReceiveError (List MediaPacket) × ReceiveState σ :=
  match receivePacket context.connection packet.2 packet.1 with
  | none => (.ok [], st)
  | some p =>
    match p.mediaType with
    | .video =>
      r.decodeVideoPackets context.connection.rtxEnabled st (p.video context.receivedAt)
    | .audio =>
      let (packet, st) := r.decodeAudioPacket context.receivedAt st p
      (.ok packet.toList, st)

def decodeMediaPackets (context : BatchContext) (st : ReceiveState σ)
    (packets : List (Bytes × DecodedRTPPacket)) :
    Except ReceiveError (List MediaPacket) × ReceiveState σ :=
  let (pending, st) := retryPendingDaveVideoFrames r.env st
  let (decoded, st) := collect (r.decodeDecodedMediaPacket context) st packets
  (decoded.map (pending ++ ·), st)

/-- The packets that `_handle_socket_packets` gives to the callback. -/
def handleSocketPackets (aead : Aead) (context : BatchContext) (st : ReceiveState σ)
    (batch : List Bytes) : List MediaPacket × ReceiveState σ :=
  let (packets, st) := r.decodeMediaPackets context st
    (decodeRtpPackets aead context.crypto batch)
  (packets.toOption.getD [], st)

/-! ## A receiver that isolates rejected packets -/

/-- What becomes of each packet that is released with a video packet, rejected or not. -/
def videoAttempts (rtxEnabled : Bool) (st : ReceiveState σ) (p : ReceivedVideoPacket) :
    List (Except ReceiveError (List MediaPacket)) × ReceiveState σ :=
  let (ready, st) := r.readyVideoPackets rtxEnabled st p
  attemptsAll (fun st p => ([(r.decodeReadyPacket st p).1], (r.decodeReadyPacket st p).2)) st ready

/-- What becomes of each packet that is released with a packet of a batch. -/
def packetAttempts (context : BatchContext) (st : ReceiveState σ)
    (packet : Bytes × DecodedRTPPacket) :
    List (Except ReceiveError (List MediaPacket)) × ReceiveState σ :=
  match receivePacket context.connection packet.2 packet.1 with
  | none => ([], st)
  | some p =>
    match p.mediaType with
    | .video => r.videoAttempts context.connection.rtxEnabled st (p.video context.receivedAt)
    | .audio =>
      let (packet, st) := r.decodeAudioPacket context.receivedAt st p
      ([.ok packet.toList], st)

/-- What becomes of the packets of a batch, behind the retried frames. -/
def batchAttempts (aead : Aead) (context : BatchContext) (st : ReceiveState σ)
    (batch : List Bytes) : List (Except ReceiveError (List MediaPacket)) × ReceiveState σ :=
  attemptsAll (r.packetAttempts context) (retryPendingDaveVideoFrames r.env st).2
    (decodeRtpPackets aead context.crypto batch)

/-- A packet of a batch is rejected by its depacketizer, or there is none for its codec. -/
def Rejects (aead : Aead) (context : BatchContext) (st : ReceiveState σ) (batch : List Bytes) :
    Prop :=
  Fails (r.batchAttempts aead context st batch).1

/-- `_handle_socket_packets`, if a rejected packet only lost itself: the retried frames and all that
the other packets complete. -/
def isolatedSocketPackets (aead : Aead) (context : BatchContext) (st : ReceiveState σ)
    (batch : List Bytes) : List MediaPacket × ReceiveState σ :=
  ((retryPendingDaveVideoFrames r.env st).1 ++
    delivered (r.batchAttempts aead context st batch).1, (r.batchAttempts aead context st batch).2)

theorem aborts_decodeVideoPackets (rtxEnabled : Bool) :
    Aborts (r.decodeVideoPackets rtxEnabled) (r.videoAttempts rtxEnabled) where
  ok _ _ h := (Aborts.single r.decodeReadyPacket).collect.ok _ _ h
  error _ _ h := (Aborts.single r.decodeReadyPacket).collect.error _ _ h

theorem aborts_decodeDecodedMediaPacket (context : BatchContext) :
    Aborts (r.decodeDecodedMediaPacket context) (r.packetAttempts context) where
  ok st packet h := by
    unfold packetAttempts decodeDecodedMediaPacket at *
    cases hreceived : receivePacket context.connection packet.2 packet.1 with
    | none => rfl
    | some p =>
      simp only [hreceived] at h ⊢
      cases hmedia : p.mediaType with
      | video =>
        simp only [hmedia] at h ⊢
        exact (r.aborts_decodeVideoPackets _).ok _ _ h
      | audio => simp [delivered, Except.toOption]
  error st packet h := by
    unfold packetAttempts decodeDecodedMediaPacket at *
    cases hreceived : receivePacket context.connection packet.2 packet.1 with
    | none =>
      simp only [hreceived] at h
      exact absurd h not_fails_nil
    | some p =>
      simp only [hreceived] at h ⊢
      cases hmedia : p.mediaType with
      | video =>
        simp only [hmedia] at h ⊢
        exact (r.aborts_decodeVideoPackets _).error _ _ h
      | audio =>
        simp only [hmedia] at h
        obtain ⟨e, he⟩ := h
        simp at he

/-- **When a batch loses nothing but its rejected packets.** Of every batch in every state, the
receiver gives to the callback what it would if rejected packets were isolated if and only if none
of its packets is rejected or there is nothing else to give; if none is rejected, it also ends in
the same state. -/
theorem handleSocketPackets_isolates_iff (aead : Aead) (context : BatchContext)
    (st : ReceiveState σ) (batch : List Bytes) :
    ((r.handleSocketPackets aead context st batch).1 =
        (r.isolatedSocketPackets aead context st batch).1 ↔
      ¬ r.Rejects aead context st batch ∨
        (r.isolatedSocketPackets aead context st batch).1 = []) ∧
    (¬ r.Rejects aead context st batch →
      r.handleSocketPackets aead context st batch =
        r.isolatedSocketPackets aead context st batch) := by
  have haborts := (r.aborts_decodeDecodedMediaPacket context).collect
  refine ⟨haborts.getD_eq_iff _ _ _, fun h => ?_⟩
  exact Prod.ext ((haborts.getD_eq_iff _ _ _).2 (.inl h)) (Prod.ext_iff.1 (haborts.ok _ _ h)).2

end Receiver

/-! ## A rejected packet -/

/-- A connection without a DAVE session, whose clock stands still. -/
def quietEnvironment : Environment Unit where
  perfCounter := fun s => (0, s)
  daveSession := fun s => (false, s)
  canEncrypt := fun s => (false, s)
  ready := fun s => (false, s)
  canPassthrough := fun _ s => (false, s)
  decrypt := fun _ _ _ s => (.error "", s)

def quietReceiver : Receiver Unit where
  build := .release
  env := quietEnvironment
  opusSilence := [0xF8, 0xFF, 0xFE]
  videoReceiveReorderMaxPackets := 2048
  videoReceiveReorderMaxDelay := 1 / 10

/-- Opus under payload type 120, VP8 under 101, without RTX. -/
def opusAndVp8 : BatchContext where
  crypto := ⟨.aeadAes256GcmRtpSize, List.replicate 32 1, 0⟩
  connection := {
    rtxEnabled := false
    lookups := {
      payloadTypes := fun pt => if pt = 120 then some (.audio, "opus")
        else if pt = 101 then some (.video, "VP8") else none
      rtxPayloadTypes := fun _ => none }
    rtxSsrcMediaSsrcs := fun _ => none
    ssrcUserIds := fun _ => none }
  receivedAt := 0

/-- An unencrypted RTP packet of `opusAndVp8`, sealed with `tagOnly`. -/
def sealedPacket (payloadType sequence timestamp ssrc : UInt8) (payload : Bytes) : Bytes :=
  [0x80, payloadType, 0, sequence, 0, 0, 0, timestamp, 0, 0, 0, ssrc] ++ payload ++
    List.replicate 16 0 ++ [0, 0, 0, 0]

/-- An audio packet, and a VP8 payload whose descriptor is cut off. -/
def rejectingBatch : List Bytes :=
  [sealedPacket 120 1 5 9 [1, 2, 3], sealedPacket 101 1 7 8 [0x80]]

/-- The audio packet is lost with the video packet that is rejected. -/
theorem rejected_packet_loses_batch :
    (quietReceiver.handleSocketPackets tagOnly opusAndVp8 { environment := () }
      rejectingBatch).1 = [] ∧
    ((quietReceiver.isolatedSocketPackets tagOnly opusAndVp8 { environment := () }
      rejectingBatch).1.map MediaPacket.payload) = [[1, 2, 3]] := by
  decide +kernel

end NativeVoice.Receive
