import NativeVoice.Video.H264
import NativeVoice.Video.H265
import NativeVoice.Video.Loss

/-!
# Streams of H.264 and H.265 frames

What a packetizer and a depacketizer make of a stream of Annex B frames, with and without loss.

* `h264_h265_round_trip`: without loss, every frame of NAL units with valid headers is returned at
  its marker packet.
* `mem_outputs_iff_assembles`: of the packets of one frame that arrive, the depacketizer returns a
  frame exactly if they look like all packets of a frame.
* `h264_h265_never_incomplete_iff`: only whole frames are returned exactly if nothing but whole
  frames of valid NAL units looks like that.
-/

namespace NativeVoice.Video

open Lib Lib.StartCode Lib.Transducer Lib.Reassembly

/-- The NAL units of a frame. -/
def nalusOf (frame : Bytes) : List Bytes := (splitAnnexB frame).toOption.getD []

/-- A frame with all its NAL units behind four-byte start codes. -/
def normalized (frame : Bytes) : Bytes := annexB (nalusOf frame)

theorem splitAnnexB_normalized {frame : Bytes} {nalus : List Bytes}
    (h : splitAnnexB frame = .ok nalus) : splitAnnexB (normalized frame) = splitAnnexB frame := by
  obtain ⟨hne, hclean⟩ := clean_of_splitAnnexB h
  have hn : nalusOf frame = nalus := by rw [nalusOf, h]; rfl
  rw [normalized, hn, splitAnnexB_annexB hne hclean, h]

/-! ## Frames in packets -/

namespace NalCodec

variable {τ ρ : Type} (C : NalCodec) (clock : TickClock τ ρ)

/-- A packetizer sends NAL units in the payloads of the codec. -/
def Sends (packetizeNalu : PacketizerState ρ → Bytes → Bool →
    Fallible PacketError (List MediaPacket) × PacketizerState ρ) : Prop :=
  ∀ (st : PacketizerState ρ) nalu last, st.mtu = DEFAULT_MTU → nalu ≠ [] →
    packetizeNalu st nalu last = (.ok (st.packetsForPayloads (markLast last (C.payloads nalu))).1,
      (st.packetsForPayloads (markLast last (C.payloads nalu))).2)

variable {C} {packetizeNalu : PacketizerState ρ → Bytes → Bool →
    Fallible PacketError (List MediaPacket) × PacketizerState ρ} (hsends : C.Sends packetizeNalu)

include hsends

theorem packetizeFrame_eq {st : PacketizerState ρ} (hmtu : st.mtu = DEFAULT_MTU) {frame : Bytes}
    {nalus : List Bytes} (h : splitAnnexB frame = .ok nalus) (frameTimeMs : τ) :
    packetizeFrame clock packetizeNalu st frame frameTimeMs =
      (.ok (st.packetsForPayloads (markLast true (nalus.flatMap C.payloads))).1,
        (st.packetsForPayloads
          (markLast true (nalus.flatMap C.payloads))).2.incrementTimestamp clock
          frameTimeMs) := by
  rw [packetizeFrame, h]
  dsimp only
  rw [packetizeNalus_eq (fun st nalu last hst hn =>
    ⟨C.payloads_ne_nil nalu hn, hsends st nalu last hst hn⟩) hmtu
    fun n hn => ((clean_of_splitAnnexB h).2 n hn).1]

/-- **One codec without loss.** Frames of intact NAL units are returned at their marker packets. -/
theorem outputs_round_trip {p : PacketizerState ρ} (hp : p.mtu = DEFAULT_MTU)
    {frames : List (Bytes × τ)}
    (hframes : ∀ f ∈ frames, ∃ nalus, splitAnnexB f.1 = .ok nalus ∧ ∀ n ∈ nalus, C.Intact n) :
    let packetize := fun p (f : Bytes × τ) => packetizeFrame clock packetizeNalu p f.1 f.2
    outputs packetize p frames = (sent packetize p frames).map .ok ∧
      (∀ ps ∈ sent packetize p frames, ps.countP MediaPacket.marker = 1) ∧
      outputs (pushMedia C.reader.push) {} (sent packetize p frames).flatten =
        (List.zipWith (fun f ps => markerAnswers (normalized f.1) ps) frames
          (sent packetize p frames)).flatten := by
  intro packetize
  obtain ⟨houtputs, hsent⟩ :=
    PayloadFormat.forall₂_sent packetize (P := fun p => p.mtu = DEFAULT_MTU)
    (Q := fun f ps => C.reader.format.CutInto C.reader.Accepted (normalized f.1) ps ∧
      MarkedAtEnd ps) (by
    intro p f hp hf
    obtain ⟨nalus, hsplit, hintact⟩ := hf
    have hne := (clean_of_splitAnnexB hsplit).1
    have heq := packetizeFrame_eq clock hsends hp hsplit f.2
    have hcuts := Restores.cuts hne fun n hn => C.restores n (hintact n hn)
    have hnormalized : normalized f.1 = annexB nalus := by rw [normalized, nalusOf, hsplit]; rfl
    have hpayloads : nalus.flatMap C.payloads ≠ [] := by
      obtain ⟨n, nalus, rfl⟩ := List.exists_cons_of_ne_nil hne
      simp [C.payloads_ne_nil n (((clean_of_splitAnnexB hsplit).2 n (by simp)).1)]
    refine ⟨⟨_, congrArg Prod.fst heq, hnormalized ▸ hcuts.cutInto p,
      markedAtEnd_packetsForPayloads p hpayloads⟩, ?_⟩
    show (packetizeFrame clock packetizeNalu p f.1 f.2).2.mtu = DEFAULT_MTU
    rw [heq]
    simpa using hp) hp hframes
  refine ⟨houtputs, fun ps hps => ?_, ?_⟩
  · obtain ⟨f, _, hmarked⟩ := PayloadFormat.exists_of_forall₂_right hsent ps hps
    exact hmarked.countP
  · have hcut : List.Forall₂ (C.reader.format.CutInto C.reader.Accepted)
        (frames.map fun f => normalized f.1) (sent packetize p frames) := by
      rw [List.forall₂_map_left_iff]
      exact hsent.imp fun _ _ h => h.1
    rw [C.reader.receives.outputs_lossless hcut, List.map_flatten]
    clear hcut houtputs hframes
    congr 1
    generalize sent packetize p frames = packets at hsent
    induction hsent with
    | nil => rfl
    | cons h _ ih => simp only [List.map_cons, List.zipWith_cons_cons, h.2.answers, ih]

end NalCodec

/-- The NAL unit has a type of its own and its forbidden bit is clear. -/
def H264Packetizer.ValidNalu (nalu : Bytes) : Prop :=
  ∃ h ∈ nalu.head?, 1 ≤ h &&& 0x1F ∧ h &&& 0x1F ≤ 23 ∧ h &&& 0x80 = 0

/-- The NAL unit has a whole header with a type of its own. -/
def H265Packetizer.ValidNalu (nalu : Bytes) : Prop :=
  2 ≤ nalu.length ∧ ∃ h ∈ nalu.head?, h265NalType h ≤ 47

theorem H264Packetizer.ValidNalu.intact {nalu : Bytes} (h : ValidNalu nalu) : Intact nalu := by
  obtain ⟨b, hb, hlo, hhi, hf⟩ := h
  refine ⟨b, hb, hlo, hhi, .inr ?_⟩
  have : ∀ b : UInt8, b &&& 0x80 = 0 → b &&& 0x7F = b := by
    rintro ⟨b⟩
    revert b
    decide
  exact this b hf

theorem H264Packetizer.sends {ρ : Type} : codec.Sends (packetizeNalu (ρ := ρ)) :=
  fun st nalu last hmtu hn => packetizeNalu_eq st nalu last hmtu hn

theorem H265Packetizer.sends {ρ : Type} : codec.Sends (packetizeNalu (ρ := ρ)) :=
  fun st nalu last hmtu _ => packetizeNalu_eq st nalu last hmtu

section RoundTrip

variable {τ ρ : Type} (clock : TickClock τ ρ)

/-- **H.264 and H.265 without loss.** The packets of frames that split into NAL units with valid
headers, of one packetizer in turn, make one depacketizer return one frame for each of them, at its
marker packet: the NAL units behind four-byte start codes, which are split as the frame is. -/
theorem h264_h265_round_trip (ssrc : UInt32) (payloadType : UInt8) (sequence : UInt16)
    (timestamp : UInt32) :
    (∀ frames : List (Bytes × τ), (∀ f ∈ frames, ∃ nalus, splitAnnexB f.1 = .ok nalus ∧
        ∀ n ∈ nalus, H264Packetizer.ValidNalu n) →
      let packetize := fun (p : H264Packetizer ρ) f => p.packetize clock f.1 f.2
      let packets := sent packetize (.new clock ssrc payloadType sequence timestamp) frames
      outputs packetize (.new clock ssrc payloadType sequence timestamp) frames =
          packets.map .ok ∧
        (∀ ps ∈ packets, ps.countP MediaPacket.marker = 1) ∧
        outputs (pushMedia H264Depacketizer.pushPacket) .new packets.flatten =
          (List.zipWith (fun f ps => markerAnswers (normalized f.1) ps) frames packets).flatten ∧
        ∀ f ∈ frames, splitAnnexB (normalized f.1) = splitAnnexB f.1) ∧
    (∀ frames : List (Bytes × τ), (∀ f ∈ frames, ∃ nalus, splitAnnexB f.1 = .ok nalus ∧
        ∀ n ∈ nalus, H265Packetizer.ValidNalu n) →
      let packetize := fun (p : H265Packetizer ρ) f => p.packetize clock f.1 f.2
      let packets := sent packetize (.new clock ssrc payloadType sequence timestamp) frames
      outputs packetize (.new clock ssrc payloadType sequence timestamp) frames =
          packets.map .ok ∧
        (∀ ps ∈ packets, ps.countP MediaPacket.marker = 1) ∧
        outputs (pushMedia H265Depacketizer.pushPacket) .new packets.flatten =
          (List.zipWith (fun f ps => markerAnswers (normalized f.1) ps) frames packets).flatten ∧
        ∀ f ∈ frames, splitAnnexB (normalized f.1) = splitAnnexB f.1) := by
  constructor
  · intro frames hframes packetize packets
    obtain ⟨h₁, h₂, h₃⟩ := NalCodec.outputs_round_trip clock H264Packetizer.sends
      (p := H264Packetizer.new clock ssrc payloadType sequence timestamp) rfl (fun f hf =>
        (hframes f hf).imp fun _ hn => ⟨hn.1, fun n hmem => (hn.2 n hmem).intact⟩)
    refine ⟨h₁, h₂, ?_, fun f hf => ?_⟩
    · rw [H264Depacketizer.pushPacket_eq]
      exact h₃
    · obtain ⟨nalus, hsplit, _⟩ := hframes f hf
      exact splitAnnexB_normalized hsplit
  · intro frames hframes packetize packets
    obtain ⟨h₁, h₂, h₃⟩ := NalCodec.outputs_round_trip clock H265Packetizer.sends
      (p := H265Packetizer.new clock ssrc payloadType sequence timestamp) rfl hframes
    refine ⟨h₁, h₂, ?_, fun f hf => ?_⟩
    · rw [H265Depacketizer.pushPacket_eq]
      exact h₃
    · obtain ⟨nalus, hsplit, _⟩ := hframes f hf
      exact splitAnnexB_normalized hsplit

/-- A frame of two NAL units behind start codes of both lengths, the second of which ends in a zero
byte, and the same for H.265. -/
theorem h264_h265_round_trip_two_nalus :
    (let frames : List (Bytes × Option ℚ) :=
        [([0, 0, 1, 0x67, 7, 0, 0, 0, 1, 0x68, 0], some 20)]
      let packetize := fun (p : H264Packetizer ℚ) f => p.packetize TickClock.exact f.1 f.2
      let p := H264Packetizer.new TickClock.exact 1 2 3 4
      outputs (pushMedia H264Depacketizer.pushPacket) .new (sent packetize p frames).flatten =
        [.ok none, .ok (some [0, 0, 0, 1, 0x67, 7, 0, 0, 0, 1, 0x68, 0])]) ∧
    (let frames : List (Bytes × Option ℚ) :=
        [([0, 0, 1, 0x40, 7, 0, 0, 0, 1, 0x42, 0], some 20)]
      let packetize := fun (p : H265Packetizer ℚ) f => p.packetize TickClock.exact f.1 f.2
      let p := H265Packetizer.new TickClock.exact 1 2 3 4
      outputs (pushMedia H265Depacketizer.pushPacket) .new (sent packetize p frames).flatten =
        [.ok none, .ok (some [0, 0, 0, 1, 0x40, 7, 0, 0, 0, 1, 0x42, 0])]) := by
  constructor
  · refine ((h264_h265_round_trip TickClock.exact 1 2 3 4).1
      [([0, 0, 1, 0x67, 7, 0, 0, 0, 1, 0x68, 0], some 20)] ?_).2.2.1.trans (by decide +kernel)
    simp only [List.mem_singleton, forall_eq]
    refine ⟨[[0x67, 7], [0x68, 0]], by decide +kernel, ?_⟩
    simp only [List.mem_cons, List.not_mem_nil, or_false, forall_eq_or_imp, forall_eq]
    exact ⟨⟨_, rfl, by decide⟩, ⟨_, rfl, by decide⟩⟩
  · refine ((h264_h265_round_trip TickClock.exact 1 2 3 4).2
      [([0, 0, 1, 0x40, 7, 0, 0, 0, 1, 0x42, 0], some 20)] ?_).2.2.1.trans (by decide +kernel)
    simp only [List.mem_singleton, forall_eq]
    refine ⟨[[0x40, 7], [0x42, 0]], by decide +kernel, ?_⟩
    simp only [List.mem_cons, List.not_mem_nil, or_false, forall_eq_or_imp, forall_eq]
    exact ⟨⟨by decide, _, rfl, by decide⟩, ⟨by decide, _, rfl, by decide⟩⟩

end RoundTrip

/-! ## Frames under loss -/

namespace PayloadReader

variable (R : PayloadReader)

/-- The packets that the depacketizer looks at. -/
def admitted (ps : List MediaPacket) : List MediaPacket :=
  ps.filter fun p => decide (R.minLength ≤ p.payload.length)

/-- The first packet that has an effect on an empty frame opens one. -/
def OpensFrame (ps : List MediaPacket) : Prop :=
  ∃ r ∈ ((R.admitted ps).map fun p => R.read p.payload).find?
    (fun r => !(r.opens && r.body.isEmpty)), r.opens

/-- The last packet is accepted and has the marker. -/
def EndsFrame (ps : List MediaPacket) : Prop :=
  ∃ p ∈ ps.getLast?, p.marker ∧ R.Accepted p.payload

/-- The packets look like all packets of a frame. -/
structure Assembles (ps : List MediaPacket) : Prop where
  numbers : (R.admitted ps).IsChain fun p q => q.sequence = p.sequence + 1
  opens : R.OpensFrame ps
  ends : R.EndsFrame ps

/-- What they are put together to. -/
def assembled (ps : List MediaPacket) : Bytes :=
  (R.admitted ps).flatMap fun p => (R.read p.payload).body

/-- `Assembles` behind a packet with number `n` at which the frame was `b`. -/
structure Resumes (n : UInt16) (b : Bytes) (ps : List MediaPacket) : Prop where
  numbers : (n :: (R.admitted ps).map MediaPacket.sequence).IsChain fun i j => j = i + 1
  opens : b ≠ [] ∨ R.OpensFrame ps
  ends : R.EndsFrame ps

/-- Packets of one frame in their order: only the last one may have the marker. -/
structure OfFrame (t : UInt32) (ps : List MediaPacket) : Prop where
  timestamp : ∀ p ∈ ps, p.timestamp = t
  marker : ∀ p ∈ ps.dropLast, p.marker = false

variable {R}

theorem OfFrame.tail {t : UInt32} {p : MediaPacket} {ps : List MediaPacket}
    (h : OfFrame t (p :: ps)) : OfFrame t ps where
  timestamp q hq := h.timestamp q (by simp [hq])
  marker q hq := h.marker q (by
    cases ps with
    | nil => simp at hq
    | cons r ps => simp [hq])

theorem OfFrame.marker_head {t : UInt32} {p q : MediaPacket} {ps : List MediaPacket}
    (h : OfFrame t (p :: q :: ps)) : p.marker = false := h.marker p (by simp)

theorem admitted_cons_of_short {p : MediaPacket} {ps : List MediaPacket}
    (h : p.payload.length < R.minLength) : R.admitted (p :: ps) = R.admitted ps := by
  simp [admitted, h]

theorem admitted_cons {p : MediaPacket} {ps : List MediaPacket}
    (h : ¬ p.payload.length < R.minLength) : R.admitted (p :: ps) = p :: R.admitted ps := by
  simp only [admitted]
  rw [List.filter_cons_of_pos (by simpa using h)]

theorem assembled_cons_of_short {p : MediaPacket} {ps : List MediaPacket}
    (h : p.payload.length < R.minLength) : R.assembled (p :: ps) = R.assembled ps := by
  rw [assembled, admitted_cons_of_short h, assembled]

theorem assembled_cons {p : MediaPacket} {ps : List MediaPacket}
    (h : ¬ p.payload.length < R.minLength) :
    R.assembled (p :: ps) = (R.read p.payload).body ++ R.assembled ps := by
  rw [assembled, admitted_cons h, List.flatMap_cons, assembled]

theorem endsFrame_cons_cons {p q : MediaPacket} {ps : List MediaPacket} :
    R.EndsFrame (p :: q :: ps) ↔ R.EndsFrame (q :: ps) := by
  simp [EndsFrame]

theorem opensFrame_cons {p : MediaPacket} {ps : List MediaPacket}
    (h : ¬ p.payload.length < R.minLength) : R.OpensFrame (p :: ps) ↔
      (R.read p.payload).opens ∧ ((R.read p.payload).body ≠ [] ∨ R.OpensFrame ps) := by
  unfold OpensFrame
  rw [admitted_cons h, List.map_cons, List.find?_cons]
  cases ho : (R.read p.payload).opens <;> cases hb : (R.read p.payload).body <;> simp [ho]

theorem push_of_short {d : DepacketizerState} {p : MediaPacket}
    (h : p.payload.length < R.minLength) :
    pushMedia R.push d p = (.error (.err .invalidPayload), d) := push_short h

theorem push_of_admitted {d : DepacketizerState} {p : MediaPacket}
    (h : ¬ p.payload.length < R.minLength) : pushMedia R.push d p =
      (d.beginPacket p.sequence p.timestamp).absorb (R.read p.payload) p.marker := push_admitted h

theorem finishIf_of_no_marker {d : DepacketizerState} {marker : Bool} (h : marker = false) :
    d.finishIf marker = (.ok none, d) := by
  rw [h]
  rfl

theorem beginPacket_dropping (t : UInt32) (m n : UInt16) :
    (⟨some t, some m, true, []⟩ : DepacketizerState).beginPacket n t =
      ⟨some t, some n, true, []⟩ := by
  by_cases h : m + 1 = n <;> simp [DepacketizerState.beginPacket, DepacketizerState.discardFrame, h]

theorem beginPacket_inside (t : UInt32) (m n : UInt16) (b : Bytes) :
    (⟨some t, some m, false, b⟩ : DepacketizerState).beginPacket n t =
      if n = m + 1 then ⟨some t, some n, false, b⟩ else ⟨some t, some n, true, []⟩ := by
  by_cases h : n = m + 1
  · simp [DepacketizerState.beginPacket, h]
  · simp [DepacketizerState.beginPacket, DepacketizerState.discardFrame, h, Ne.symm h]

/-- Nothing is returned of a frame that was given up. -/
theorem not_mem_outputs_dropping {t : UInt32} {ps : List MediaPacket} (h : OfFrame t ps)
    (m : UInt16) (f : Bytes) :
    .ok (some f) ∉ outputs (pushMedia R.push) ⟨some t, some m, true, []⟩ ps := by
  induction ps generalizing m with
  | nil => simp
  | cons p ps ih =>
    have ht : p.timestamp = t := h.timestamp p (by simp)
    rw [outputs_cons]
    by_cases hlen : p.payload.length < R.minLength
    · rw [push_of_short hlen]
      simpa using ih h.tail m
    · rw [push_of_admitted hlen, ht, beginPacket_dropping,
        DepacketizerState.absorb_of_discarding rfl]
      cases ps with
      | nil => cases p.marker <;> simp [DepacketizerState.finishIf, DepacketizerState.finishFrame]
      | cons q ps =>
        rw [finishIf_of_no_marker h.marker_head]
        simpa using ih h.tail p.sequence

theorem not_resumes_nil (n : UInt16) (b : Bytes) : ¬ Resumes R n b [] := fun h => by
  simpa [EndsFrame] using h.ends

theorem endsFrame_cons_of_short {p : MediaPacket} {ps : List MediaPacket}
    (h : p.payload.length < R.minLength) : R.EndsFrame (p :: ps) ↔ R.EndsFrame ps := by
  cases ps with
  | nil => simp [EndsFrame, Accepted, h.not_ge]
  | cons q ps => exact endsFrame_cons_cons

theorem opensFrame_cons_of_short {p : MediaPacket} {ps : List MediaPacket}
    (h : p.payload.length < R.minLength) : R.OpensFrame (p :: ps) ↔ R.OpensFrame ps := by
  rw [OpensFrame, admitted_cons_of_short h, OpensFrame]

theorem resumes_cons_of_short {p : MediaPacket} {ps : List MediaPacket} {n : UInt16} {b : Bytes}
    (h : p.payload.length < R.minLength) : Resumes R n b (p :: ps) ↔ Resumes R n b ps := by
  have hadm := @admitted_cons_of_short R p ps h
  constructor <;> rintro ⟨h₁, h₂, h₃⟩
  · exact ⟨hadm ▸ h₁, h₂.imp_right (opensFrame_cons_of_short h).1, (endsFrame_cons_of_short h).1 h₃⟩
  · exact ⟨hadm.symm ▸ h₁, h₂.imp_right (opensFrame_cons_of_short h).2,
      (endsFrame_cons_of_short h).2 h₃⟩

/-- What is left to resume behind an admitted packet. -/
theorem resumes_cons {p : MediaPacket} {ps : List MediaPacket} {n : UInt16} {b : Bytes}
    (h : ¬ p.payload.length < R.minLength) : Resumes R n b (p :: ps) ↔
      p.sequence = n + 1 ∧ (b ≠ [] ∨ (R.read p.payload).opens) ∧
        (p.sequence :: (R.admitted ps).map MediaPacket.sequence).IsChain (fun i j => j = i + 1) ∧
        (b ++ (R.read p.payload).body ≠ [] ∨ R.OpensFrame ps) ∧ R.EndsFrame (p :: ps) := by
  constructor
  · rintro ⟨h₁, h₂, h₃⟩
    rw [admitted_cons h, List.map_cons, List.isChain_cons_cons] at h₁
    rw [opensFrame_cons h] at h₂
    refine ⟨h₁.1, h₂.imp_right And.left, h₁.2, ?_, h₃⟩
    rcases h₂ with hb | ⟨_, hb | ho⟩
    · exact .inl (by simp [hb])
    · exact .inl (by simp [hb])
    · exact .inr ho
  · rintro ⟨hn, hb, hchain, ho, hends⟩
    refine ⟨?_, ?_, hends⟩
    · rw [admitted_cons h, List.map_cons, List.isChain_cons_cons]
      exact ⟨hn, hchain⟩
    · rw [opensFrame_cons h]
      by_cases hnil : b = []
      · refine .inr ⟨hb.resolve_left (not_not.2 hnil), ho.imp_left fun h => ?_⟩
        simpa [hnil] using h
      · exact .inl hnil

/-- **Inside a frame** of which `b` has been put together. -/
theorem mem_outputs_inside {t : UInt32} {ps : List MediaPacket} (h : OfFrame t ps) (n : UInt16)
    (b f : Bytes) : .ok (some f) ∈ outputs (pushMedia R.push) ⟨some t, some n, false, b⟩ ps ↔
      Resumes R n b ps ∧ f = b ++ R.assembled ps := by
  induction ps generalizing n b with
  | nil => simp [not_resumes_nil]
  | cons p ps ih =>
    have ht : p.timestamp = t := h.timestamp p (by simp)
    rw [outputs_cons]
    by_cases hlen : p.payload.length < R.minLength
    · rw [push_of_short hlen, resumes_cons_of_short hlen, assembled_cons_of_short hlen]
      simpa using ih h.tail n b
    rw [push_of_admitted hlen, ht, beginPacket_inside, resumes_cons hlen, assembled_cons hlen]
    -- a missing number or a fragment without its beginning: the frame is given up
    have hdropped : .ok (some f) ∉ ((⟨some t, some p.sequence, true, []⟩ :
        DepacketizerState).finishIf p.marker).1 :: outputs (pushMedia R.push)
          ((⟨some t, some p.sequence, true, []⟩ : DepacketizerState).finishIf p.marker).2 ps := by
      cases ps with
      | nil => cases p.marker <;> simp [DepacketizerState.finishIf, DepacketizerState.finishFrame]
      | cons q ps =>
        rw [finishIf_of_no_marker h.marker_head]
        simpa using not_mem_outputs_dropping h.tail p.sequence f
    by_cases hn : p.sequence = n + 1
    swap
    · rw [if_neg hn, DepacketizerState.absorb_of_discarding rfl]
      simpa only [hn, false_and, iff_false] using hdropped
    rw [if_pos hn]
    by_cases hb : b ≠ [] ∨ (R.read p.payload).opens
    swap
    · obtain ⟨hnil, hopens⟩ := not_or.1 hb
      rw [DepacketizerState.absorb_of_headless rfl (by simpa using hopens) (not_not.1 hnil)]
      simp only [hb, false_and, and_false, iff_false]
      exact hdropped
    rw [DepacketizerState.absorb_of_append rfl hb]
    simp only [hn, hb, true_and]
    cases ps with
    | nil =>
      have hends : R.EndsFrame [p] ↔ p.marker ∧ (R.read p.payload).rejected = none := by
        simp [EndsFrame, Accepted, not_lt.1 hlen]
      have hopens : ¬ R.OpensFrame [] := by simp [OpensFrame, admitted]
      cases hr : (R.read p.payload).rejected with
      | some e => simp [hends, hr]
      | none =>
        cases hm : p.marker with
        | false => simp [hends, hm, DepacketizerState.finishIf]
        | true =>
          by_cases hnil : b ++ (R.read p.payload).body = []
          · simp [DepacketizerState.finishIf, DepacketizerState.finishFrame, hopens, hnil]
          · have hbody : b ++ ((R.read p.payload).body ++ R.assembled []) =
                b ++ (R.read p.payload).body := by simp [assembled, admitted]
            rw [hbody]
            generalize b ++ (R.read p.payload).body = c at hnil ⊢
            simp [DepacketizerState.finishIf, DepacketizerState.finishFrame, hends, hr, hm, hnil,
              admitted]
    | cons q ps =>
      have hrest := ih h.tail p.sequence (b ++ (R.read p.payload).body)
      have hresumes : Resumes R p.sequence (b ++ (R.read p.payload).body) (q :: ps) ↔
          (p.sequence :: (R.admitted (q :: ps)).map MediaPacket.sequence).IsChain
              (fun i j => j = i + 1) ∧
            (b ++ (R.read p.payload).body ≠ [] ∨ R.OpensFrame (q :: ps)) ∧
            R.EndsFrame (p :: q :: ps) := by
        rw [endsFrame_cons_cons]
        exact ⟨fun h => ⟨h.numbers, h.opens, h.ends⟩, fun h => ⟨h.1, h.2.1, h.2.2⟩⟩
      rw [← hn, ← hresumes, ← List.append_assoc, ← hrest]
      cases (R.read p.payload).rejected with
      | some e => simp
      | none => simp [finishIf_of_no_marker h.marker_head]

/-- **One frame.** From a state that holds another timestamp, a frame is returned exactly if the
packets look like all packets of one, and it is what they are put together to. -/
theorem mem_outputs_iff_assembles {t : UInt32} {d : DepacketizerState} (hd : d.timestamp ≠ some t)
    {ps : List MediaPacket} (h : OfFrame t ps) (f : Bytes) :
    .ok (some f) ∈ outputs (pushMedia R.push) d ps ↔ R.Assembles ps ∧ f = R.assembled ps := by
  induction ps with
  | nil =>
    have : ¬ R.Assembles [] := fun h => by simpa [EndsFrame] using h.ends
    simp [this]
  | cons p ps ih =>
    have ht : p.timestamp = t := h.timestamp p (by simp)
    by_cases hlen : p.payload.length < R.minLength
    · have hassembles : R.Assembles (p :: ps) ↔ R.Assembles ps := by
        constructor <;> rintro ⟨h₁, h₂, h₃⟩
        · exact ⟨admitted_cons_of_short hlen ▸ h₁, (opensFrame_cons_of_short hlen).1 h₂,
            (endsFrame_cons_of_short hlen).1 h₃⟩
        · exact ⟨(admitted_cons_of_short hlen).symm ▸ h₁, (opensFrame_cons_of_short hlen).2 h₂,
            (endsFrame_cons_of_short hlen).2 h₃⟩
      rw [outputs_cons, push_of_short hlen, hassembles, assembled_cons_of_short hlen]
      simpa using ih h.tail
    · -- the state is reset, as if the packet followed another one of an empty frame
      have hpush : pushMedia R.push d p =
          pushMedia R.push ⟨some t, some (p.sequence - 1), false, []⟩ p := by
        have hseq : p.sequence - 1 + 1 = p.sequence := by simp
        rw [push_of_admitted hlen, push_of_admitted hlen, ht, beginPacket_inside, if_pos hseq.symm,
          DepacketizerState.beginPacket, if_pos hd]
        rfl
      have hassembles : R.Assembles (p :: ps) ↔ Resumes R (p.sequence - 1) [] (p :: ps) := by
        have hnumbers : ((p.sequence - 1) ::
              (R.admitted (p :: ps)).map MediaPacket.sequence).IsChain (fun i j => j = i + 1) ↔
            (R.admitted (p :: ps)).IsChain fun p q => q.sequence = p.sequence + 1 := by
          rw [admitted_cons hlen, List.map_cons, List.isChain_cons_cons, ← List.map_cons,
            List.isChain_map]
          simp
        constructor <;> rintro ⟨h₁, h₂, h₃⟩
        · exact ⟨hnumbers.2 h₁, .inr h₂, h₃⟩
        · exact ⟨hnumbers.1 h₁, h₂.resolve_left (by simp), h₃⟩
      rw [outputs_cons, hpush, ← outputs_cons, mem_outputs_inside h, hassembles, List.nil_append]

/-! ### Many frames -/

theorem timestamp_finishIf (d : DepacketizerState) (marker : Bool) :
    (d.finishIf marker).2.timestamp = none ∨ (d.finishIf marker).2.timestamp = d.timestamp := by
  cases marker
  · exact .inr rfl
  · exact .inl rfl

theorem timestamp_push (d : DepacketizerState) (p : MediaPacket) :
    (pushMedia R.push d p).2.timestamp = d.timestamp ∨
      (pushMedia R.push d p).2.timestamp = none ∨
      (pushMedia R.push d p).2.timestamp = some p.timestamp := by
  by_cases hlen : p.payload.length < R.minLength
  · rw [push_of_short hlen]
    exact .inl rfl
  · refine .inr ?_
    have hbegin : (d.beginPacket p.sequence p.timestamp).timestamp = some p.timestamp := by
      by_cases ht : d.timestamp = some p.timestamp
      · cases hl : d.lastSequence with
        | none => simp [DepacketizerState.beginPacket, ht, hl]
        | some n =>
          by_cases hn : n + 1 = p.sequence <;>
            simp [DepacketizerState.beginPacket, DepacketizerState.discardFrame, ht, hl, hn]
      · simp [DepacketizerState.beginPacket, DepacketizerState.reset, ht]
    rw [push_of_admitted hlen, ← hbegin]
    generalize d.beginPacket p.sequence p.timestamp = d
    unfold DepacketizerState.absorb
    split
    · exact timestamp_finishIf d _
    · split
      · exact timestamp_finishIf d.discardFrame _
      · dsimp only
        split
        · exact .inr rfl
        · exact timestamp_finishIf { d with frame := d.frame ++ (R.read p.payload).body } _

theorem timestamp_final {t : UInt32} (d : DepacketizerState) {ps : List MediaPacket}
    (h : ∀ p ∈ ps, p.timestamp = t) :
    (final (pushMedia R.push) d ps).timestamp = d.timestamp ∨
      (final (pushMedia R.push) d ps).timestamp = none ∨
      (final (pushMedia R.push) d ps).timestamp = some t := by
  induction ps generalizing d with
  | nil => exact .inl rfl
  | cons p ps ih =>
    have ht := h p (by simp)
    rw [final_cons]
    rcases ih (pushMedia R.push d p).2 fun q hq => h q (by simp [hq]) with h' | h'
    · rw [h', ← ht]
      exact timestamp_push d p
    · exact .inr h'

end PayloadReader

/-- The frames that are returned in a run, with the timestamps of the packets at which they are. -/
def returned (push : DepacketizerState → Bytes → Bool → UInt16 → UInt32 →
      Fallible PacketError (Option Bytes) × DepacketizerState) (d : DepacketizerState)
    (ps : List MediaPacket) : List (UInt32 × Bytes) :=
  (ps.zip (outputs (pushMedia push) d ps)).filterMap fun x =>
    match x.2 with
    | .ok (some f) => some (x.1.timestamp, f)
    | _ => none

theorem returned_append (push : DepacketizerState → Bytes → Bool → UInt16 → UInt32 →
      Fallible PacketError (Option Bytes) × DepacketizerState) (d : DepacketizerState)
    (ps qs : List MediaPacket) : returned push d (ps ++ qs) =
      returned push d ps ++ returned push (final (pushMedia push) d ps) qs := by
  rw [returned, outputs_append, List.zip_append (by simp), List.filterMap_append]
  rfl

theorem mem_returned {push : DepacketizerState → Bytes → Bool → UInt16 → UInt32 →
      Fallible PacketError (Option Bytes) × DepacketizerState}
      {d : DepacketizerState} {t t' : UInt32}
    {ps : List MediaPacket} (h : ∀ p ∈ ps, p.timestamp = t) {f : Bytes} :
    (t', f) ∈ returned push d ps ↔ t' = t ∧ .ok (some f) ∈ outputs (pushMedia push) d ps := by
  unfold returned
  induction ps generalizing d with
  | nil => simp
  | cons p ps ih =>
    have ht := h p (by simp)
    have ih := ih (d := (pushMedia push d p).2) fun q hq => h q (by simp [hq])
    rw [outputs_cons, List.zip_cons_cons, List.filterMap_cons]
    rcases (pushMedia push d p).1 with e | _ | g
    · simpa using ih
    · simpa using ih
    · simp only [List.mem_cons, ih, Prod.mk.injEq, ht, Except.ok.injEq, Option.some.injEq]
      tauto

namespace PayloadReader

variable {R : PayloadReader}

/-- **Many frames**, of which the packets in `ds` arrive: they are returned each by itself. -/
theorem mem_returned_flatten {d : DepacketizerState} {ds : List (List MediaPacket)}
    (hframes : ∀ m ∈ ds, ∃ t, OfFrame t m)
    (hdistinct : ds.Pairwise fun m m' => ∀ p ∈ m, ∀ q ∈ m', p.timestamp ≠ q.timestamp)
    (hd : ∀ m ∈ ds, ∀ p ∈ m, d.timestamp ≠ some p.timestamp) {t : UInt32} {f : Bytes} :
    (t, f) ∈ returned R.push d ds.flatten ↔
      ∃ m ∈ ds, (∃ p ∈ m, p.timestamp = t) ∧ R.Assembles m ∧ f = R.assembled m := by
  induction ds generalizing d with
  | nil => simp [returned]
  | cons m ds ih =>
    obtain ⟨t', ht'⟩ := hframes m (by simp)
    rw [List.pairwise_cons] at hdistinct
    have hrest : ∀ m' ∈ ds, ∀ p ∈ m', (final (pushMedia R.push) d m).timestamp ≠
        some p.timestamp := by
      intro m' hm' p hp
      cases m with
      | nil => exact hd m' (by simp [hm']) p hp
      | cons q m =>
        have hq : q.timestamp = t' := ht'.timestamp q (by simp)
        rcases timestamp_final d ht'.timestamp with h | h | h
        · rw [h]
          exact hd m' (by simp [hm']) p hp
        · simp [h]
        · rw [h, ← hq]
          simpa using hdistinct.1 m' hm' q (by simp) p hp
    have hm : (t, f) ∈ returned R.push d m ↔
        (∃ p ∈ m, p.timestamp = t) ∧ R.Assembles m ∧ f = R.assembled m := by
      cases m with
      | nil =>
        simp [returned]
      | cons q m =>
        have hq : q.timestamp = t' := ht'.timestamp q (by simp)
        have hstamp : (∃ p ∈ q :: m, p.timestamp = t) ↔ t = t' := by
          constructor
          · rintro ⟨p, hp, rfl⟩
            exact ht'.timestamp p hp
          · rintro rfl
            exact ⟨q, by simp, hq⟩
        rw [mem_returned ht'.timestamp, hstamp,
          mem_outputs_iff_assembles (hq ▸ hd (q :: m) (by simp) q (by simp)) ht']
    rw [List.flatten_cons, returned_append, List.mem_append, hm,
      ih (fun m' hm' => hframes m' (by simp [hm'])) hdistinct.2 hrest]
    simp

end PayloadReader

/-- Every frame that is returned for the timestamp of a sent one is that frame, and all packets of
it have arrived. -/
def NeverIncomplete {τ : Type} (push : DepacketizerState → Bytes → Bool → UInt16 → UInt32 →
      Fallible PacketError (Option Bytes) × DepacketizerState) (frames : List (Bytes × τ))
    (marked : Marked) : Prop :=
  ∀ x ∈ frames.zip marked, ∀ y ∈ x.2, ∀ f,
    (y.1.timestamp, f) ∈ returned push {} (marked.flatMap arriving) →
      (∀ z ∈ x.2, z.2 = true) ∧ f = normalized x.1.1

/-- The packets that arrive of a frame look like all packets of one only if they are, and the NAL
units of the frame come through. -/
def OnlyWholeAssemble {τ : Type} (C : NalCodec) (frames : List (Bytes × τ)) (marked : Marked) :
    Prop :=
  ∀ x ∈ frames.zip marked, C.reader.Assembles (arriving x.2) →
    (∀ z ∈ x.2, z.2 = true) ∧ ∀ n ∈ nalusOf x.1.1, C.Intact n

/-! ### Frames of a packetizer -/

namespace NalCodec

variable {τ ρ : Type} {C : NalCodec} (clock : TickClock τ ρ)

/-- The packets of a frame; there are none if it is not split into NAL units. -/
def PacketsOf (C : NalCodec) (frame : Bytes) (ps : List MediaPacket) : Prop :=
  ∃ (ρ : Type) (st : PacketizerState ρ),
    ps = (st.packetsForPayloads (markLast true ((nalusOf frame).flatMap C.payloads))).1

theorem nalusOf_clean (frame : Bytes) : ∀ n ∈ nalusOf frame, n ≠ [] ∧ Clean n := by
  unfold nalusOf
  cases h : splitAnnexB frame with
  | error e => simp [Except.toOption]
  | ok nalus => exact (clean_of_splitAnnexB h).2

theorem forall₂_packetsOf {packetizeNalu : PacketizerState ρ → Bytes → Bool →
      Fallible PacketError (List MediaPacket) × PacketizerState ρ}
    (hsends : C.Sends packetizeNalu) {p : PacketizerState ρ} (hp : p.mtu = DEFAULT_MTU)
    (frames : List (Bytes × τ)) : List.Forall₂ (fun f ps => C.PacketsOf f.1 ps) frames
      (sent (fun p (f : Bytes × τ) => packetizeFrame clock packetizeNalu p f.1 f.2) p frames) := by
  unfold sent
  rw [List.forall₂_map_right_iff]
  refine forall₂_outputs (A := fun _ => True) (P := fun p => p.mtu = DEFAULT_MTU) ?_ hp (by simp)
  intro p f hp _
  cases hsplit : splitAnnexB f.1 with
  | error e =>
    have heq : packetizeFrame clock packetizeNalu p f.1 f.2 = (.error e, p) := by
      rw [packetizeFrame, hsplit]
    rw [heq]
    refine ⟨⟨ρ, p, ?_⟩, hp⟩
    rw [nalusOf, hsplit]
    rfl
  | ok nalus =>
    rw [packetizeFrame_eq clock hsends hp hsplit]
    refine ⟨⟨ρ, p, ?_⟩, by simpa using hp⟩
    rw [nalusOf, hsplit]
    rfl

variable {frame : Bytes} {ps : List MediaPacket}

theorem PacketsOf.ofFrame (h : C.PacketsOf frame ps) {qs : List MediaPacket}
    (hqs : qs.Sublist ps) : ∃ t, PayloadReader.OfFrame t qs := by
  obtain ⟨ρ, st, rfl⟩ := h
  refine ⟨st.timestamp, fun p hp => st.timestamp_packetsForPayloads _ p (hqs.subset hp), ?_⟩
  intro p hp
  generalize (nalusOf frame).flatMap C.payloads = payloads at hqs
  cases payloads with
  | nil =>
    rw [List.sublist_nil.1 hqs] at hp
    simp at hp
  | cons payload payloads =>
    obtain ⟨init, last, hps, _, hinit⟩ :=
      markedAtEnd_packetsForPayloads st (List.cons_ne_nil payload payloads)
    rw [hps] at hqs
    have := (dropLast_sublist_dropLast hqs).subset hp
    rw [List.dropLast_concat] at this
    exact hinit p this

theorem PacketsOf.assembled (h : C.PacketsOf frame ps) : C.reader.assembled ps =
    (nalusOf frame).flatMap fun n => C.reader.contribution (C.payloads n) := by
  obtain ⟨ρ, st, rfl⟩ := h
  have hpayloads := congrArg (List.map Prod.fst) (st.map_packetsForPayloads
    (markLast true ((nalusOf frame).flatMap C.payloads)))
  rw [map_fst_markLast, List.map_map] at hpayloads
  generalize (st.packetsForPayloads _).1 = ps at hpayloads
  have hcontribution : C.reader.assembled ps = C.reader.contribution (ps.map (·.payload)) := by
    simp [PayloadReader.assembled, PayloadReader.admitted, PayloadReader.contribution,
      List.filter_map, List.flatMap_map, Function.comp_def]
  have happend : ∀ l : List Bytes, C.reader.contribution (l.flatMap C.payloads) =
      l.flatMap fun n => C.reader.contribution (C.payloads n) := by
    intro l
    induction l with
    | nil => rfl
    | cons n l ih =>
      rw [List.flatMap_cons, List.flatMap_cons, ← ih]
      simp [PayloadReader.contribution]
  rw [hcontribution, ← happend, ← hpayloads]
  rfl

/-- **What a whole frame is put together to**: the frame, exactly if all its NAL units are
intact. -/
theorem PacketsOf.assembled_eq_normalized_iff (h : C.PacketsOf frame ps) :
    C.reader.assembled ps = normalized frame ↔ ∀ n ∈ nalusOf frame, C.Intact n := by
  rw [h.assembled]
  have hclean := nalusOf_clean frame
  constructor
  · intro heq n hn
    by_contra hi
    refine not_spoiled_of_flatMap_eq (fun n hn => (hclean n hn).2) (fun n hn => ?_) heq n hn
      (C.spoils n (hclean n hn).1 hi)
    by_cases hi : C.Intact n
    · exact .inl (C.restores n hi).contribution
    · exact .inr (C.spoils n (hclean n hn).1 hi)
  · intro hi
    rw [normalized, annexB, List.flatMap_def, List.flatMap_def]
    congr 1
    exact List.map_congr_left fun n hn => (C.restores n (hi n hn)).contribution

/-- **One codec under loss.** The frames that are returned are whole ones exactly if no others look
like whole ones, for frames of any NAL units. -/
theorem never_incomplete_iff {packetizeNalu : PacketizerState ρ → Bytes → Bool →
      Fallible PacketError (List MediaPacket) × PacketizerState ρ}
    (hsends : C.Sends packetizeNalu) {p : PacketizerState ρ} (hp : p.mtu = DEFAULT_MTU)
    {frames : List (Bytes × τ)} {marked : Marked}
    (hmarked : marked.map (List.map Prod.fst) =
      sent (fun p (f : Bytes × τ) => packetizeFrame clock packetizeNalu p f.1 f.2) p frames)
    (hts : DistinctTimestamps marked) :
    NeverIncomplete C.reader.push frames marked ↔ OnlyWholeAssemble C frames marked := by
  have hpackets := forall₂_packetsOf clock hsends hp frames
  rw [← hmarked, List.forall₂_map_right_iff] at hpackets
  have hzip : ∀ x ∈ frames.zip marked, C.PacketsOf x.1.1 (x.2.map Prod.fst) :=
    fun x hx => List.forall₂_iff_zip.1 hpackets |>.2 hx
  have hflat : marked.flatMap arriving = (marked.map arriving).flatten := List.flatMap_def
  have hreturned {t : UInt32} {f : Bytes} :
      (t, f) ∈ returned C.reader.push {} (marked.flatMap arriving) ↔
        ∃ m ∈ marked, (∃ p ∈ arriving m, p.timestamp = t) ∧ C.reader.Assembles (arriving m) ∧
          f = C.reader.assembled (arriving m) := by
    rw [hflat, PayloadReader.mem_returned_flatten]
    · simp
    · simp only [List.forall_mem_map]
      intro m hm
      obtain ⟨f, hf⟩ := PayloadFormat.exists_of_forall₂_right hpackets m hm
      exact hf.ofFrame (arriving_sublist m)
    · rw [List.pairwise_map]
      refine hts.imp fun {m m'} hd p hp q hq => ?_
      obtain ⟨x, hx, rfl⟩ := List.mem_map.1 ((arriving_sublist m).subset hp)
      obtain ⟨y, hy, rfl⟩ := List.mem_map.1 ((arriving_sublist m').subset hq)
      exact hd x hx y hy
    · simp
  have hsame : ∀ x ∈ frames.zip marked, ∀ y ∈ x.2, ∀ m ∈ marked, ∀ z ∈ m,
      z.1.timestamp = y.1.timestamp → m = x.2 := by
    intro x hx y hy m hm z hz hstamp
    by_contra hne
    have : Std.Symm fun m m' : List (MediaPacket × Bool) =>
        ∀ x ∈ m, ∀ y ∈ m', x.1.timestamp ≠ y.1.timestamp :=
      ⟨fun m m' h x hx y hy => (h y hy x hx).symm⟩
    exact List.Pairwise.forall hts hm (List.of_mem_zip hx).2 hne z hz y hy hstamp
  constructor
  · intro hwhole x hx hassembles
    obtain ⟨p, hp, _⟩ := hassembles.ends
    have hp := List.mem_of_getLast? hp
    obtain ⟨y, hy, rfl⟩ := List.mem_map.1 ((arriving_sublist x.2).subset hp)
    obtain ⟨hall, heq⟩ := hwhole x hx y hy _
      (hreturned.2 ⟨x.2, (List.of_mem_zip hx).2, ⟨y.1, hp, rfl⟩, hassembles, rfl⟩)
    rw [arriving_eq_of_forall hall] at heq
    exact ⟨hall, (hzip x hx).assembled_eq_normalized_iff.1 heq⟩
  · intro hcond x hx y hy f hf
    obtain ⟨m, hm, ⟨p, hp, hstamp⟩, hassembles, rfl⟩ := hreturned.1 hf
    obtain ⟨z, hz, rfl⟩ := List.mem_map.1 ((arriving_sublist m).subset hp)
    obtain rfl := hsame x hx y hy m hm z hz hstamp
    obtain ⟨hall, hintact⟩ := hcond x hx hassembles
    refine ⟨hall, ?_⟩
    rw [arriving_eq_of_forall hall]
    exact (hzip x hx).assembled_eq_normalized_iff.2 hintact

end NalCodec

section NeverIncomplete

variable {τ ρ : Type} (clock : TickClock τ ρ)

/-- **H.264 and H.265 under loss.** Nothing but whole frames is returned exactly if what arrives of
a frame has consecutive numbers from an opening packet to the marker only where all of it arrives
and its NAL units come through. -/
theorem h264_h265_never_incomplete_iff (ssrc : UInt32) (payloadType : UInt8) (sequence : UInt16)
    (timestamp : UInt32) (frames : List (Bytes × τ)) (marked : Marked)
    (hts : DistinctTimestamps marked) :
    (marked.map (List.map Prod.fst) = sent (fun (p : H264Packetizer ρ) f =>
        p.packetize clock f.1 f.2) (.new clock ssrc payloadType sequence timestamp) frames →
      (NeverIncomplete H264Depacketizer.pushPacket frames marked ↔
        OnlyWholeAssemble H264Packetizer.codec frames marked)) ∧
    (marked.map (List.map Prod.fst) = sent (fun (p : H265Packetizer ρ) f =>
        p.packetize clock f.1 f.2) (.new clock ssrc payloadType sequence timestamp) frames →
      (NeverIncomplete H265Depacketizer.pushPacket frames marked ↔
        OnlyWholeAssemble H265Packetizer.codec frames marked)) := by
  constructor
  · intro hmarked
    rw [H264Depacketizer.pushPacket_eq]
    exact NalCodec.never_incomplete_iff clock H264Packetizer.sends rfl hmarked hts
  · intro hmarked
    rw [H265Depacketizer.pushPacket_eq]
    exact NalCodec.never_incomplete_iff clock H265Packetizer.sends rfl hmarked hts

/-- One frame of which only the packet at position `i` arrives. -/
def onlyArrives {π : Type} (packetize : π → Bytes × Option ℚ →
    Fallible PacketError (List MediaPacket) × π) (p : π) (frame : Bytes) (i : ℕ) : Marked :=
  (sent packetize p [(frame, some 20)]).map fun ps => ps.mapIdx fun j q => (q, decide (i = j))

/-- A frame of two NAL units, the second of which is lost: nothing is returned of it. -/
theorem h264_h265_never_incomplete_iff_second_lost :
    (let frame : Bytes := [0, 0, 0, 1, 0x67, 7, 0, 0, 0, 1, 0x65, 8]
      let packetize := fun (p : H264Packetizer ℚ) (f : Bytes × Option ℚ) =>
        p.packetize TickClock.exact f.1 f.2
      let p := H264Packetizer.new TickClock.exact 1 2 3 4
      NeverIncomplete H264Depacketizer.pushPacket [(frame, (some 20 : Option ℚ))]
        (onlyArrives packetize p frame 0)) ∧
    (let frame : Bytes := [0, 0, 0, 1, 0x40, 7, 0, 0, 0, 1, 0x26, 8]
      let packetize := fun (p : H265Packetizer ℚ) (f : Bytes × Option ℚ) =>
        p.packetize TickClock.exact f.1 f.2
      let p := H265Packetizer.new TickClock.exact 1 2 3 4
      NeverIncomplete H265Depacketizer.pushPacket [(frame, (some 20 : Option ℚ))]
        (onlyArrives packetize p frame 0)) := by
  constructor
  · intro frame packetize p
    refine ((h264_h265_never_incomplete_iff TickClock.exact 1 2 3 4 [(frame, some 20)]
      (onlyArrives packetize p frame 0)
      (by unfold DistinctTimestamps; decide +kernel)).1 (by decide +kernel)).2 ?_
    have hunmarked : ∀ x ∈ [(frame, (some 20 : Option ℚ))].zip (onlyArrives packetize p frame 0),
        ∀ q ∈ (arriving x.2).getLast?, q.marker = false := by decide +kernel
    intro x hx h
    obtain ⟨q, hq, hm, _⟩ := h.ends
    exact absurd hm (by simp [hunmarked x hx q hq])
  · intro frame packetize p
    refine ((h264_h265_never_incomplete_iff TickClock.exact 1 2 3 4 [(frame, some 20)]
      (onlyArrives packetize p frame 0)
      (by unfold DistinctTimestamps; decide +kernel)).2 (by decide +kernel)).2 ?_
    have hunmarked : ∀ x ∈ [(frame, (some 20 : Option ℚ))].zip (onlyArrives packetize p frame 0),
        ∀ q ∈ (arriving x.2).getLast?, q.marker = false := by decide +kernel
    intro x hx h
    obtain ⟨q, hq, hm, _⟩ := h.ends
    exact absurd hm (by simp [hunmarked x hx q hq])

/-- **An incomplete frame.** The first of two packets is lost, and the second one alone is returned
as the frame. -/
theorem h264_h265_first_lost :
    (let frame : Bytes := [0, 0, 0, 1, 0x67, 7, 0, 0, 0, 1, 0x65, 8]
      let packetize := fun (p : H264Packetizer ℚ) (f : Bytes × Option ℚ) =>
        p.packetize TickClock.exact f.1 f.2
      let p := H264Packetizer.new TickClock.exact 1 2 3 4
      let marked := onlyArrives packetize p frame 1
      marked.map (List.map Prod.fst) = sent packetize p [(frame, some 20)] ∧
        outputs (pushMedia H264Depacketizer.pushPacket) .new (marked.flatMap arriving) =
          [.ok (some [0, 0, 0, 1, 0x65, 8])] ∧
        ¬ NeverIncomplete H264Depacketizer.pushPacket [(frame, (some 20 : Option ℚ))] marked) ∧
    (let frame : Bytes := [0, 0, 0, 1, 0x40, 7, 0, 0, 0, 1, 0x26, 8]
      let packetize := fun (p : H265Packetizer ℚ) (f : Bytes × Option ℚ) =>
        p.packetize TickClock.exact f.1 f.2
      let p := H265Packetizer.new TickClock.exact 1 2 3 4
      let marked := onlyArrives packetize p frame 1
      marked.map (List.map Prod.fst) = sent packetize p [(frame, some 20)] ∧
        outputs (pushMedia H265Depacketizer.pushPacket) .new (marked.flatMap arriving) =
          [.ok (some [0, 0, 0, 1, 0x26, 8])] ∧
        ¬ NeverIncomplete H265Depacketizer.pushPacket [(frame, (some 20 : Option ℚ))] marked) := by
  constructor
  · intro frame packetize p marked
    refine ⟨by decide +kernel, by decide +kernel, fun h => ?_⟩
    have := (h ((frame, some 20), marked.flatten) (by decide +kernel) (marked.flatten.get ⟨0, by
      decide +kernel⟩) (List.get_mem _ _) [0, 0, 0, 1, 0x65, 8] (by decide +kernel)).1
    revert this
    decide +kernel
  · intro frame packetize p marked
    refine ⟨by decide +kernel, by decide +kernel, fun h => ?_⟩
    have := (h ((frame, some 20), marked.flatten) (by decide +kernel) (marked.flatten.get ⟨0, by
      decide +kernel⟩) (List.get_mem _ _) [0, 0, 0, 1, 0x26, 8] (by decide +kernel)).1
    revert this
    decide +kernel

end NeverIncomplete

end NativeVoice.Video
