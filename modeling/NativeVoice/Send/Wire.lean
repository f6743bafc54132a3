import NativeVoice.Send.Nack

/-!
# Numbers on the wire

Every video packet carries its SSRC in the header and a transport-wide sequence number in the header
extension. What the three preparing functions of the pipeline do to these:

* `Numbered n packets n'`: the packets carry the numbers behind `n`, up to `n'`.
* `prepareVideoFrameInner_numbered`, `prepareVideoRtxPacketInner_numbered` and
  `prepareVideoRtxForNackInner_numbered`: a call that fails uses no number, and any other call
  returns packets that carry the numbers it used.
-/

namespace NativeVoice.Send

open Lib Video Transport

/-! ## Reading packets -/

namespace PreparedRTPPacket

/-- The SSRC in the header of a packet. -/
def ssrc (p : PreparedRTPPacket) : Option UInt32 :=
  match p.header.drop 8 with
  | r0 :: r1 :: r2 :: r3 :: _ => some (u32FromBe r0 r1 r2 r3)
  | _ => none

/-- The transport-wide sequence number in the header extension of a packet. -/
def transportSequence (p : PreparedRTPPacket) : Option UInt16 :=
  match p.header.drop 12 with
  | [p0, p1, w0, w1] =>
    let elements := parseRtpExtensions (u16FromBe p0 p1)
      (p.payload.take ((u16FromBe w0 w1).toNat * 4))
    match elements.lookup RTP_EXT_TRANSPORT_SEQUENCE_NUMBER with
    | some [n0, n1] => some (u16FromBe n0 n1)
    | _ => none
  | _ => none

end PreparedRTPPacket

section Extended

variable (payloadType : UInt8) (sequence : UInt16) (timestamp ssrc : UInt32) (marker : Bool)
  (payload : Bytes)

@[simp] theorem ssrc_extendedPacket (es : List (UInt8 × Bytes)) :
    (extendedPacket payloadType sequence timestamp ssrc marker es payload).ssrc = some ssrc := by
  have hdrop :
      (extendedPacket payloadType sequence timestamp ssrc marker es payload).header.drop 8 =
      u32BeBytes ssrc ++ ([0xBE, 0xDE] ++
        u16BeBytes (UInt16.ofNat ((extensionPayload es).length / 4))) := rfl
  rw [PreparedRTPPacket.ssrc, hdrop]
  exact congrArg some (u32FromBe_u32BeBytes ssrc)

/-- **The number that the extension is built with is read back.** -/
@[simp] theorem transportSequence_extendedPacket (n : UInt16) (rid mediaStreamType : String)
    (repaired : Bool) (now : UInt32) :
    (extendedPacket payloadType sequence timestamp ssrc marker
      (videoExtensions n rid mediaStreamType repaired now) payload).transportSequence = some n := by
  set es := videoExtensions n rid mediaStreamType repaired now with hes
  have helements := isElement_videoExtensions n rid mediaStreamType repaired now
  have hwords : (UInt16.ofNat ((extensionPayload es).length / 4)).toNat * 4 =
      (extensionPayload es).length := by
    have hlen : (extensionPayload es).length ≤ 17 * 9 + 3 := length_extensionPayload_le helements
    rw [UInt16.toNat_ofNat_of_lt' (by simp only [UInt16.size]; omega), length_extensionPayload]
  have hparse : parseOneByteExtensions (extensionPayload es) = es :=
    parseOneByteExtensions_encode helements _
  have hdrop : (extendedPacket payloadType sequence timestamp ssrc marker es payload).header.drop
      12 = [0xBE, 0xDE] ++ u16BeBytes (UInt16.ofNat ((extensionPayload es).length / 4)) := rfl
  have hpayload : (extendedPacket payloadType sequence timestamp ssrc marker es payload).payload =
      extensionPayload es ++ payload := rfl
  have hprofile : u16FromBe 0xBE 0xDE = 0xBEDE := by decide
  have hlookup : es.lookup RTP_EXT_TRANSPORT_SEQUENCE_NUMBER = some (u16BeBytes n) := rfl
  rw [PreparedRTPPacket.transportSequence, hdrop, hpayload]
  simp only [u16BeBytes, List.cons_append, List.nil_append, u16FromBe_u16BeBytes, hwords,
    List.take_left, hprofile, parseRtpExtensions, if_true, hparse, hlookup]

end Extended

/-! ## Numbering -/

/-- The packets carry the transport-wide sequence numbers behind `n`, one each, up to `n'`. -/
inductive Numbered : UInt16 → List PreparedRTPPacket → UInt16 → Prop
  | nil (n : UInt16) : Numbered n [] n
  | cons {n n' : UInt16} {p : PreparedRTPPacket} {packets : List PreparedRTPPacket} :
    p.transportSequence = some (n + 1) → Numbered (n + 1) packets n' → Numbered n (p :: packets) n'

namespace Numbered

variable {n n' n'' : UInt16} {packets packets' : List PreparedRTPPacket}

theorem append (h : Numbered n packets n') (h' : Numbered n' packets' n'') :
    Numbered n (packets ++ packets') n'' := by
  induction h with
  | nil n => exact h'
  | cons hp _ ih => exact .cons hp (ih h')

/-- The numbers one by one. -/
theorem sequences (h : Numbered n packets n') :
    packets.map PreparedRTPPacket.transportSequence =
      (List.range packets.length).map fun i => some (n + 1 + UInt16.ofNat i) := by
  induction h with
  | nil n => rfl
  | cons hp _ ih =>
    rw [List.map_cons, hp, ih, List.length_cons, List.range_succ_eq_map, List.map_cons,
      List.map_map]
    simp only [Function.comp_def, add_one_add_ofNat, Nat.succ_eq_add_one]
    rfl

/-- The last packet carries the last number. -/
theorem last (h : Numbered n packets n') {p : PreparedRTPPacket} (hp : packets.getLast? = some p) :
    p.transportSequence = some n' := by
  induction h with
  | nil n => cases hp
  | cons hq hrest ih =>
    cases hrest with
    | nil =>
      obtain rfl := Option.some.inj hp
      exact hq
    | cons hq' hrest' => exact ih hp

/-- A number is used for every packet. -/
theorem next (h : Numbered n packets n') : n' = n + UInt16.ofNat packets.length := by
  induction h with
  | nil n => exact (UInt16.add_zero n).symm
  | cons _ _ ih => rw [ih, add_one_add_ofNat, List.length_cons]

/-- Packets made from a list, with the number of their place each. -/
theorem mapIdx {α : Type} (f : ℕ → α → PreparedRTPPacket) (xs : List α)
    (h : ∀ i x, (f i x).transportSequence = some (n + 1 + UInt16.ofNat i)) :
    Numbered n (xs.mapIdx f) (n + UInt16.ofNat xs.length) := by
  induction xs generalizing n f with
  | nil => simpa using Numbered.nil n
  | cons x xs ih =>
    rw [List.mapIdx_cons, List.length_cons, ← add_one_add_ofNat]
    refine .cons ?_ (ih (fun i => f (i + 1)) fun i y => ?_)
    · simpa using h 0 x
    · rw [h (i + 1) y, ← add_one_add_ofNat (n + 1)]

end Numbered

/-! ## Preparing -/

namespace VideoSendPipelineState

variable {τ ρ : Type} {s : VideoSendPipelineState ρ}

/-- **Preparing a frame** uses the numbers that its packets carry, or none. -/
theorem prepareVideoFrameInner_numbered (clock : TickClock τ ρ) (b : Build) {mediaSsrc : UInt32}
    (hs : ∀ stream, s.streams mediaSsrc = some stream →
      stream.packetizer.state.mtu = DEFAULT_MTU ∧ stream.packetizer.state.ssrc = mediaSsrc)
    (frame : Bytes) (metadataFrame : Option Bytes) (frameTimeMs : τ) (mediaStreamType : String)
    (now : ℕ → UInt32) :
    (∃ e, s.prepareVideoFrameInner clock b mediaSsrc frame metadataFrame frameTimeMs
      mediaStreamType now = (.error e, s)) ∨
    ∃ prepared s', s.prepareVideoFrameInner clock b mediaSsrc frame metadataFrame frameTimeMs
        mediaStreamType now = (.ok prepared, s') ∧
      Numbered s.transportSequence prepared.packets s'.transportSequence ∧
      prepared.transportSequence = s'.transportSequence ∧
      prepared.packets ≠ [] ∧
      prepared.lastSequence.isSome ∧
      ∀ p ∈ prepared.packets, p.ssrc = some mediaSsrc := by
  cases hstream : s.streams mediaSsrc with
  | none =>
    exact .inl ⟨.err (unknownStream mediaSsrc), by rw [prepareVideoFrameInner, hstream]⟩
  | some stream =>
    obtain ⟨hmtu, hssrc⟩ := hs stream hstream
    rcases prepareVideoFrameInner_cases clock b hstream hmtu frame metadataFrame frameTimeMs
      mediaStreamType now with ⟨e, -, heq⟩ | ⟨payloads, packetizer, hne, -, -, -, heq⟩
    · exact .inl ⟨_, heq⟩
    · set packets := (stream.packetizer.state.packetsForPayloads (markLast true payloads)).1
        with hpackets
      have hlength : packets.length = payloads.length := by
        rw [hpackets, PacketizerState.length_packetsForPayloads, length_markLast]
      have hpos : packets ≠ [] := by
        rw [← List.length_pos_iff, hlength]
        exact List.length_pos_iff.2 hne
      refine .inr ⟨_, _, heq, ?_, rfl, ?_, ?_, ?_⟩
      · dsimp only
        rw [← hlength]
        exact .mapIdx _ _ fun i p => transportSequence_extendedPacket ..
      · simpa using hpos
      · simpa [List.getLast?_isSome] using hpos
      · intro p hp
        obtain ⟨i, hi, rfl⟩ := List.mem_mapIdx.1 hp
        have hfields := stream.packetizer.state.fields_packetsForPayloads _ _ (List.getElem_mem hi)
        rw [preparedMedia, ssrc_extendedPacket, hfields.1, hssrc]

/-- What is prepared for one packet of a stream. -/
theorem prepareVideoRtxPacketInner_cases {mediaSsrc : UInt32} {stream : PipelineStream ρ}
    (hs : s.streams mediaSsrc = some stream) (sequence : UInt16) (mediaStreamType : String)
    (now : UInt32) :
    s.prepareVideoRtxPacketInner mediaSsrc sequence mediaStreamType now =
      (.ok s.nothingPrepared, s) ∨
    ∃ packet, packet.ssrc = some stream.rtxSsrc ∧
      packet.transportSequence = some (s.transportSequence + 1) ∧
      s.prepareVideoRtxPacketInner mediaSsrc sequence mediaStreamType now =
        (.ok {
            packet := some packet
            rtxSsrc := stream.rtxSsrc
            rtxSequence := stream.rtxSequence + 1
            transportSequence := s.transportSequence + 1 },
          { s.setStream mediaSsrc { stream with rtxSequence := stream.rtxSequence + 1 } with
            transportSequence := s.transportSequence + 1 }) := by
  cases hpt : stream.rtxPayloadType with
  | none =>
    refine .inl ?_
    rw [prepareVideoRtxPacketInner, hs]
    dsimp only
    rw [hpt]
  | some rtxPayloadType =>
    by_cases hssrc : stream.rtxSsrc = 0
    · refine .inl ?_
      rw [prepareVideoRtxPacketInner, hs]
      dsimp only
      rw [hpt]
      dsimp only
      rw [if_pos hssrc]
    · rw [prepareVideoRtxPacketInner_eq hs hpt hssrc]
      cases stream.rtxCache sequence with
      | none => exact .inl rfl
      | some packet =>
        refine .inr ⟨preparedRtx rtxPayloadType (stream.rtxSequence + 1) stream.rtxSsrc
          (s.transportSequence + 1) stream.rid mediaStreamType now packet,
          ssrc_extendedPacket .., transportSequence_extendedPacket .., ?_⟩
        dsimp only
        rw [hpt]

/-- **Preparing one packet** uses the number that it carries, or none. -/
theorem prepareVideoRtxPacketInner_numbered (s : VideoSendPipelineState ρ) (mediaSsrc : UInt32)
    (sequence : UInt16) (mediaStreamType : String) (now : UInt32) :
    (∃ e, s.prepareVideoRtxPacketInner mediaSsrc sequence mediaStreamType now = (.error e, s)) ∨
    ∃ prepared s', s.prepareVideoRtxPacketInner mediaSsrc sequence mediaStreamType now =
        (.ok prepared, s') ∧
      Numbered s.transportSequence prepared.packet.toList s'.transportSequence ∧
      prepared.transportSequence = s'.transportSequence ∧
      ∀ p ∈ prepared.packet, p.ssrc = some prepared.rtxSsrc := by
  cases hs : s.streams mediaSsrc with
  | none => exact .inl ⟨unknownStream mediaSsrc, by rw [prepareVideoRtxPacketInner, hs]⟩
  | some stream =>
    refine .inr ?_
    rcases prepareVideoRtxPacketInner_cases hs sequence mediaStreamType now with
      heq | ⟨packet, hssrc, hsequence, heq⟩
    · exact ⟨_, _, heq, .nil _, rfl, fun p hp => by cases hp⟩
    · refine ⟨_, _, heq, .cons hsequence (.nil _), rfl, fun p hp => ?_⟩
      obtain rfl := Option.some.inj hp
      exact hssrc

/-- What has been put together so far for a stream whose RTX packets are sent on `rtxSsrc`. -/
structure Resend.Accounts (r : Resend) (rtxSsrc : UInt32) : Prop where
  resent : r.resent = r.packets.length
  ssrc : ∀ p ∈ r.packets, p.ssrc = some rtxSsrc
  rtxSsrc : r.packets ≠ [] → r.rtxSsrc = rtxSsrc

theorem Resend.Accounts.add {r : Resend} {rtxSsrc : UInt32} (h : r.Accounts rtxSsrc)
    {packet : PreparedRTPPacket} (hp : packet.ssrc = some rtxSsrc)
    (rtxSequence transportSequence : UInt16) :
    (r.add ⟨some packet, rtxSsrc, rtxSequence, transportSequence⟩).Accounts rtxSsrc where
  resent := by simp [Resend.add, h.resent]
  ssrc p hmem := by
    rcases List.mem_append.1 hmem with hmem | hmem
    · exact h.ssrc p hmem
    · obtain rfl := List.mem_singleton.1 hmem
      exact hp
  rtxSsrc _ := rfl

/-- **Preparing packets one after the other** uses the numbers that they carry. -/
theorem prepareResends_numbered {mediaSsrc : UInt32} {stream : PipelineStream ρ}
    (hs : s.streams mediaSsrc = some stream) (mediaStreamType : String) (now : ℕ → UInt32)
    {r : Resend} (hr : r.Accounts stream.rtxSsrc) (sequences : List UInt16) :
    ∃ r' s' packets, prepareResends mediaSsrc mediaStreamType now s r sequences = (.ok r', s') ∧
      r'.packets = r.packets ++ packets ∧ r'.Accounts stream.rtxSsrc ∧
      Numbered s.transportSequence packets s'.transportSequence := by
  induction sequences generalizing s stream r with
  | nil => exact ⟨r, s, [], rfl, (List.append_nil _).symm, hr, .nil _⟩
  | cons sequence sequences ih =>
    rw [prepareResends]
    rcases prepareVideoRtxPacketInner_cases hs sequence mediaStreamType (now r.resent) with
      heq | ⟨packet, hssrc, hsequence, heq⟩
    · rw [heq]
      exact ih hs hr
    · rw [heq]
      have hnext :
          ({ s.setStream mediaSsrc { stream with rtxSequence := stream.rtxSequence + 1 } with
          transportSequence := s.transportSequence + 1 } : VideoSendPipelineState ρ).streams
          mediaSsrc = some { stream with rtxSequence := stream.rtxSequence + 1 } :=
        Function.update_self ..
      obtain ⟨r', s', packets, hrun, hpackets, hr', hnumbered⟩ := ih hnext
        (hr.add hssrc (stream.rtxSequence + 1) (s.transportSequence + 1))
      refine ⟨r', s', packet :: packets, hrun, ?_, hr', .cons hsequence hnumbered⟩
      rw [hpackets, Resend.add, List.append_assoc, List.singleton_append]

/-- **Answering a negative acknowledgement** uses the numbers that the packets carry, or none. -/
theorem prepareVideoRtxForNackInner_numbered (s : VideoSendPipelineState ρ) (payload : Bytes)
    (mediaStreamType : String) (now : ℕ → UInt32) :
    ∃ prepared s', s.prepareVideoRtxForNackInner payload mediaStreamType now = (.ok prepared, s') ∧
      Numbered s.transportSequence prepared.packets s'.transportSequence ∧
      prepared.summary.transportSequence = s'.transportSequence ∧
      prepared.summary.resent = prepared.packets.length ∧
      ∀ p ∈ prepared.packets, p.ssrc = some prepared.summary.rtxSsrc := by
  have hnothing (mediaSsrc : UInt32) : ∃ prepared s',
      ((.ok ⟨[], ⟨0, mediaSsrc, 0, 0, s.transportSequence⟩⟩, s) :
        Except SendError PreparedNackResend × VideoSendPipelineState ρ) = (.ok prepared, s') ∧
      Numbered s.transportSequence prepared.packets s'.transportSequence ∧
      prepared.summary.transportSequence = s'.transportSequence ∧
      prepared.summary.resent = prepared.packets.length ∧
      ∀ p ∈ prepared.packets, p.ssrc = some prepared.summary.rtxSsrc :=
    ⟨_, _, rfl, .nil _, rfl, rfl, fun p hp => by cases hp⟩
  unfold prepareVideoRtxForNackInner
  split
  · rename_i r0 r1 r2 r3 chunks
    split
    · exact hnothing 0
    · dsimp only
      cases hs : s.streams (u32FromBe r0 r1 r2 r3) with
      | none => exact hnothing _
      | some stream =>
        have hempty : ({} : Resend).Accounts stream.rtxSsrc :=
          ⟨rfl, fun p hp => (by cases hp), fun h => absurd rfl h⟩
        obtain ⟨r, s', packets, hrun, hpackets, hr, hnumbered⟩ := prepareResends_numbered hs
          mediaStreamType now hempty (nackBodySequences chunks)
        rw [hrun]
        obtain rfl : r.packets = packets := hpackets
        refine ⟨_, _, rfl, hnumbered, rfl, hr.resent, fun p hp => ?_⟩
        rw [hr.ssrc p hp]
        exact congrArg some (hr.rtxSsrc (List.ne_nil_of_mem hp)).symm
  · exact hnothing 0

end VideoSendPipelineState

end NativeVoice.Send
