import NativeVoice.Video.H264
import NativeVoice.Video.H265

/-!
# Fragmentation of NAL units

A NAL unit that does not fit into a packet is sent in fragmentation units, and the depacketizer puts
its header together again. The question here is whether the frame shows that it was taken apart:
`Transparent` says that, in whatever state the depacketizer is, the packets of the fragments and one
packet with the whole unit give the same answers and leave the same frame behind.

* `run_fragments`: payloads that are appended one after the other do what one payload with all their
  bytes does.
* `h264_h265_transparent_iff`: H265 is transparent; H264 is for the units with the forbidden bit
  clear, which is the only bit of a header that a fragment does not carry.
-/

namespace NativeVoice.Video

open Lib Lib.Transducer

/-! ## Appending to a frame -/

namespace DepacketizerState

/-- The bytes are appended, unless the frame is given up. -/
def extend (d : DepacketizerState) (body : Bytes) : DepacketizerState :=
  if d.discarding then d else { d with frame := d.frame ++ body }

/-- What the frame that is put together consists of. The last sequence number is left out. -/
def content (d : DepacketizerState) : Option UInt32 × Bool × Bytes :=
  (d.timestamp, d.discarding, d.frame)

theorem extend_append (d : DepacketizerState) (a b : Bytes) :
    d.extend (a ++ b) = (d.extend a).extend b := by
  obtain ⟨timestamp, lastSequence, discarding, frame⟩ := d
  cases discarding <;> simp [extend]

theorem content_extend {d e : DepacketizerState} (h : d.content = e.content) (body : Bytes) :
    (d.extend body).content = (e.extend body).content := by
  obtain ⟨timestamp, lastSequence, discarding, frame⟩ := d
  simp only [content, Prod.mk.injEq] at h
  obtain ⟨rfl, rfl, rfl⟩ := h
  unfold extend
  dsimp only
  split <;> rfl

theorem finishIf_congr {d e : DepacketizerState} (h : d.content = e.content) (marker : Bool) :
    (d.finishIf marker).1 = (e.finishIf marker).1 ∧
      (d.finishIf marker).2.content = (e.finishIf marker).2.content := by
  have hframe : d.frame = e.frame := congrArg (fun c => c.2.2) h
  cases marker with
  | false => exact ⟨rfl, h⟩
  | true => simp [finishIf, finishFrame, hframe]

theorem absorb_eq_extend {d : DepacketizerState} {r : Reading} (hr : r.rejected = none)
    (h : d.discarding = true ∨ d.frame ≠ [] ∨ r.opens) (marker : Bool) :
    d.absorb r marker = (d.extend r.body).finishIf marker := by
  cases hd : d.discarding with
  | true => rw [absorb_of_discarding hd, extend, if_pos hd]
  | false =>
    rw [absorb_of_append hd (h.resolve_left (by simp [hd])), hr, extend, if_neg (by simp [hd])]

/-- A frame that goes on: the packet before this one was of the same frame, and has arrived. -/
structure Continues (d : DepacketizerState) (sequence : UInt16) (timestamp : UInt32) : Prop where
  timestamp : d.timestamp = some timestamp
  lastSequence : d.lastSequence = some sequence
  headed : d.discarding = true ∨ d.frame ≠ []

theorem Continues.beginPacket {d : DepacketizerState} {sequence : UInt16} {timestamp : UInt32}
    (h : d.Continues sequence timestamp) : d.beginPacket (sequence + 1) timestamp =
      { d with lastSequence := some (sequence + 1) } := by
  simp [DepacketizerState.beginPacket, h.timestamp, h.lastSequence]

theorem Continues.extend {d : DepacketizerState} {sequence : UInt16} {timestamp : UInt32}
    (h : d.Continues sequence timestamp) (body : Bytes) :
    ({ d with lastSequence := some (sequence + 1) }.extend body).Continues (sequence + 1)
      timestamp := by
  unfold DepacketizerState.extend
  split
  case isTrue hd => exact ⟨h.timestamp, rfl, .inl hd⟩
  case isFalse hd => exact ⟨h.timestamp, rfl, .inr (by simp [h.headed.resolve_left hd])⟩

theorem beginPacket_place (d : DepacketizerState) (sequence : UInt16) (timestamp : UInt32) :
    (d.beginPacket sequence timestamp).timestamp = some timestamp ∧
      (d.beginPacket sequence timestamp).lastSequence = some sequence := by
  refine ⟨?_, rfl⟩
  unfold beginPacket
  by_cases ht : d.timestamp = some timestamp
  · rw [if_neg (not_not.mpr ht)]
    split
    · split <;> exact ht
    · exact ht
  · rw [if_pos ht]
    rfl

end DepacketizerState

namespace PayloadReader

variable {ρ : Type} {R : PayloadReader}

open DepacketizerState

/-- A payload that belongs to a frame that goes on. -/
theorem push_of_continues {d : DepacketizerState} {sequence : UInt16} {timestamp : UInt32}
    (hd : d.Continues sequence timestamp) {payload : Bytes} (hacc : R.Accepted payload)
    (marker : Bool) : R.push d payload marker (sequence + 1) timestamp =
      ({ d with lastSequence := some (sequence + 1) }.extend
        (R.read payload).body).finishIf marker := by
  rw [push_admitted (Nat.not_lt.mpr hacc.1), hd.beginPacket]
  exact absorb_eq_extend (d := { d with lastSequence := some (sequence + 1) }) hacc.2
    (hd.headed.imp id .inl) marker

/-- The payloads of a frame that goes on do what one payload with all their bytes does. -/
theorem run_of_continues (st : PacketizerState ρ) (last : Bool) {payload : Bytes}
    {payloads : List Bytes} (hacc : ∀ x ∈ payload :: payloads, R.Accepted x)
    {d : DepacketizerState} (hd : d.Continues st.sequence st.timestamp) :
    let ps := (st.packetsForPayloads (markLast last (payload :: payloads))).1
    let r := (d.extend ((payload :: payloads).flatMap fun x => (R.read x).body)).finishIf last
    outputs (pushMedia R.push) d ps = List.replicate payloads.length (.ok none) ++ [r.1] ∧
      (final (pushMedia R.push) d ps).content = r.2.content := by
  dsimp only
  induction payloads generalizing st payload d with
  | nil =>
    rw [markLast, outputs_packetsForPayloads_cons, final_packetsForPayloads_cons,
      push_of_continues hd (hacc _ (by simp)), List.flatMap_singleton]
    obtain ⟨h₁, h₂⟩ := finishIf_congr (content_extend
      (d := { d with lastSequence := some (st.sequence + 1) }) (e := d) rfl
      (R.read payload).body) last
    exact ⟨congrArg (fun x => [x]) h₁, h₂⟩
  | cons next payloads ih =>
    rw [markLast, outputs_packetsForPayloads_cons, final_packetsForPayloads_cons,
      push_of_continues hd (hacc _ (by simp)), List.flatMap_cons, extend_append]
    obtain ⟨houtputs, hfinal⟩ := ih { st with sequence := st.sequence + 1 }
      (fun x hx => hacc x (List.mem_cons_of_mem _ hx)) (hd.extend (R.read payload).body)
    obtain ⟨h₁, h₂⟩ := finishIf_congr (content_extend (content_extend
      (d := { d with lastSequence := some (st.sequence + 1) }) (e := d) rfl
      (R.read payload).body) ((next :: payloads).flatMap fun x => (R.read x).body)) last
    refine ⟨?_, hfinal.trans h₂⟩
    rw [List.length_cons, List.replicate_succ, List.cons_append, ← h₁, ← houtputs]
    rfl

/-- **Fragments**: payloads of which the first one opens a frame do, in whatever state they find the
depacketizer, what one payload with all their bytes does. -/
theorem run_fragments (st : PacketizerState ρ) (last : Bool) {payload : Bytes}
    {payloads : List Bytes} (hacc : ∀ x ∈ payload :: payloads, R.Accepted x)
    (hopens : (R.read payload).opens) (hbody : (R.read payload).body ≠ [])
    (d : DepacketizerState) :
    let ps := (st.packetsForPayloads (markLast last (payload :: payloads))).1
    let r := ((d.beginPacket (st.sequence + 1) st.timestamp).extend
      ((payload :: payloads).flatMap fun x => (R.read x).body)).finishIf last
    outputs (pushMedia R.push) d ps = List.replicate payloads.length (.ok none) ++ [r.1] ∧
      (final (pushMedia R.push) d ps).content = r.2.content := by
  dsimp only
  obtain ⟨htime, hseq⟩ := d.beginPacket_place (st.sequence + 1) st.timestamp
  have hpush (marker : Bool) : R.push d payload marker (st.sequence + 1) st.timestamp = _ :=
    push_admitted (Nat.not_lt.mpr (hacc payload (by simp)).1)
  simp only [absorb_eq_extend (hacc payload (by simp)).2 (.inr (.inr hopens))] at hpush
  cases payloads with
  | nil =>
    rw [markLast, outputs_packetsForPayloads_cons, final_packetsForPayloads_cons, hpush,
      List.flatMap_singleton]
    exact ⟨rfl, rfl⟩
  | cons next payloads =>
    rw [markLast, outputs_packetsForPayloads_cons, final_packetsForPayloads_cons, hpush,
      List.flatMap_cons, extend_append]
    have hcont : ((d.beginPacket (st.sequence + 1) st.timestamp).extend
        (R.read payload).body).Continues (st.sequence + 1) st.timestamp := by
      unfold extend
      split
      case isTrue hd => exact ⟨htime, hseq, .inl hd⟩
      case isFalse hd => exact ⟨htime, hseq, .inr (by simp [hbody])⟩
    obtain ⟨houtputs, hfinal⟩ := run_of_continues
      { st with sequence := st.sequence + 1 } last
      (fun x hx => hacc x (List.mem_cons_of_mem _ hx)) hcont
    refine ⟨?_, hfinal⟩
    rw [List.length_cons, List.replicate_succ, List.cons_append, ← houtputs]
    rfl

end PayloadReader

/-! ## Transparency -/

/-- However the depacketizer stands, the packets answer `None` up to the last one, which answers as
the one packet does, and leave the same behind. -/
def DeliveredAlike (push : DepacketizerState → Bytes → Bool → UInt16 → UInt32 →
      Fallible PacketError (Option Bytes) × DepacketizerState)
    (ps : List MediaPacket) (single : MediaPacket) : Prop :=
  ∀ d : DepacketizerState,
    outputs (pushMedia push) d ps =
        List.replicate (ps.length - 1) (.ok none) ++ outputs (pushMedia push) d [single] ∧
      (final (pushMedia push) d ps).content = (final (pushMedia push) d [single]).content

/-- The packets that the packetizer makes of a NAL unit are delivered like one packet with the whole
unit in it. -/
def Transparent {ρ : Type} (packetizeNalu : PacketizerState ρ → Bytes → Bool →
      Fallible PacketError (List MediaPacket) × PacketizerState ρ)
    (push : DepacketizerState → Bytes → Bool → UInt16 → UInt32 →
      Fallible PacketError (Option Bytes) × DepacketizerState)
    (st : PacketizerState ρ) (nalu : Bytes) (last : Bool) : Prop :=
  ∃ ps, (packetizeNalu st nalu last).1 = .ok ps ∧
    DeliveredAlike push ps (st.packetForPayload nalu last).1

theorem deliveredAlike_iff {ρ : Type} {R : PayloadReader} (st : PacketizerState ρ) (last : Bool)
    {payload : Bytes} {payloads : List Bytes} (hacc : ∀ x ∈ payload :: payloads, R.Accepted x)
    (hopens : (R.read payload).opens) (hbody : (R.read payload).body ≠ []) (nalu : Bytes)
    (hnalu : R.Accepted nalu) (hnalu_opens : (R.read nalu).opens) :
    DeliveredAlike R.push (st.packetsForPayloads (markLast last (payload :: payloads))).1
        (st.packetForPayload nalu last).1 ↔
      (payload :: payloads).flatMap (fun x => (R.read x).body) = (R.read nalu).body := by
  have hrun (d : DepacketizerState) := R.run_fragments st last hacc hopens hbody d
  have hsingle (d : DepacketizerState) : pushMedia R.push d (st.packetForPayload nalu last).1 =
      ((d.beginPacket (st.sequence + 1) st.timestamp).extend (R.read nalu).body).finishIf last := by
    rw [← DepacketizerState.absorb_eq_extend hnalu.2 (.inr (.inr hnalu_opens))]
    exact PayloadReader.push_admitted (Nat.not_lt.mpr hnalu.1)
  have hlength : (st.packetsForPayloads (markLast last (payload :: payloads))).1.length - 1 =
      payloads.length := by simp
  unfold DeliveredAlike
  simp only [hlength, outputs_cons, outputs_nil, final_cons, final_nil, hsingle, hrun]
  constructor
  · intro h
    -- A depacketizer that has seen nothing yet returns the bytes, or keeps them.
    have hfresh (body : Bytes) : (({} : DepacketizerState).beginPacket (st.sequence + 1)
        st.timestamp).extend body =
          ⟨some st.timestamp, some (st.sequence + 1), false, body⟩ := rfl
    obtain ⟨houtputs, hcontent⟩ := h {}
    rw [hfresh, hfresh] at houtputs hcontent
    have hne : (payload :: payloads).flatMap (fun x => (R.read x).body) ≠ [] := by simp [hbody]
    generalize (payload :: payloads).flatMap (fun x => (R.read x).body) = body at *
    cases last with
    | false => exact congrArg (fun c => c.2.2) hcontent
    | true =>
      have hanswer := List.append_cancel_left houtputs
      simp only [DepacketizerState.finishIf, DepacketizerState.finishFrame, if_true,
        List.isEmpty_iff, if_neg hne, List.cons.injEq, Except.ok.injEq, and_true] at hanswer
      split at hanswer
      · cases hanswer
      · exact Option.some.inj hanswer
  · intro h d
    rw [h]
    exact ⟨rfl, rfl⟩

theorem transparent_iff {ρ : Type} {packetizeNalu : PacketizerState ρ → Bytes → Bool →
      Fallible PacketError (List MediaPacket) × PacketizerState ρ}
    {push : DepacketizerState → Bytes → Bool → UInt16 → UInt32 →
      Fallible PacketError (Option Bytes) × DepacketizerState}
    {st st' : PacketizerState ρ} {nalu : Bytes} {last : Bool} {ps : List MediaPacket}
    (h : packetizeNalu st nalu last = (.ok ps, st')) :
    Transparent packetizeNalu push st nalu last ↔
      DeliveredAlike push ps (st.packetForPayload nalu last).1 := by
  simp [Transparent, h]

/-- The header bits that a fragment carries are all but the forbidden bit. -/
theorem low_bits_eq_iff : ∀ header : UInt8, header &&& 0x7F = header ↔ header &&& 0x80 = 0 := by
  rintro ⟨header⟩
  revert header
  decide

section Codecs

variable {ρ : Type} (st : PacketizerState ρ) (hmtu : st.mtu = DEFAULT_MTU) {nalu : Bytes}
  (hlen : st.mtu < nalu.length) (last : Bool)

include hmtu hlen

theorem h264_transparent_iff {header : UInt8} (hheader : header ∈ nalu.head?)
    (ht : 1 ≤ header &&& 0x1F ∧ header &&& 0x1F ≤ 23) :
    Transparent H264Packetizer.packetizeNalu H264Depacketizer.pushPacket st nalu last ↔
      header &&& 0x80 = 0 := by
  obtain ⟨data, rfl⟩ := List.head?_eq_some_iff.mp hheader
  rw [hmtu] at hlen
  have hsingle := H264Packetizer.reading_single ht data
  obtain ⟨payload, payloads, hpayloads, hopens, hbody⟩ :=
    H264Packetizer.head_fragments (Nat.not_le.mpr hlen) ht
  have hacc := fun x hx => H264Packetizer.accepted_fragments (Nat.not_le.mpr hlen) ht (x := x) hx
  have hbodies := H264Packetizer.bodies_fragments (Nat.not_le.mpr hlen) ht
  rw [hpayloads] at hacc hbodies
  have hread : H264Depacketizer.reader.read (header :: data) =
      ⟨true, ANNEX_B_START_CODE ++ header :: data, none⟩ := hsingle
  have hiff := deliveredAlike_iff st last hacc hopens hbody (R := H264Depacketizer.reader)
    (header :: data) ⟨by simp [H264Depacketizer.reader], by rw [hread]⟩ (by rw [hread])
  have hps := H264Packetizer.packetizeNalu_eq st (header :: data) last hmtu (by simp)
  rw [hpayloads] at hps
  rw [transparent_iff hps, H264Depacketizer.pushPacket_eq, hiff, hread]
  have hbodies' : (payload :: payloads).flatMap
      (fun x => (H264Depacketizer.reader.read x).body) =
        ANNEX_B_START_CODE ++ (header &&& 0x7F) :: data := hbodies
  rw [hbodies', List.append_cancel_left_eq, List.cons.injEq, and_iff_left rfl, low_bits_eq_iff]

theorem h265_transparent {header : UInt8} (hheader : header ∈ nalu.head?)
    (ht : h265NalType header ≤ 47) :
    Transparent H265Packetizer.packetizeNalu H265Depacketizer.pushPacket st nalu last := by
  rw [hmtu] at hlen
  obtain ⟨h₀, h', data, rfl, hdata⟩ := H265Packetizer.exists_header_data (Nat.not_le.mpr hlen)
  obtain rfl : h₀ = header := by simpa using hheader
  have ht' : ¬ h265NalType h₀ > 47 := by simpa using ht
  obtain ⟨payload, payloads, hpayloads, hopens, hbody⟩ :=
    H265Packetizer.head_fragments (Nat.not_le.mpr hlen) hdata ht'
  have hacc := fun x hx => H265Packetizer.accepted_fragments (Nat.not_le.mpr hlen) ht' (x := x) hx
  have hbodies := H265Packetizer.bodies_fragments (Nat.not_le.mpr hlen) hdata ht'
  rw [hpayloads] at hacc hbodies
  have hread : H265Depacketizer.reader.read (h₀ :: h' :: data) =
      ⟨true, ANNEX_B_START_CODE ++ h₀ :: h' :: data, none⟩ :=
    H265Packetizer.reading_single ht h' data
  have hiff := deliveredAlike_iff st last hacc hopens hbody (R := H265Depacketizer.reader)
    (h₀ :: h' :: data) ⟨by simp [H265Depacketizer.reader], by rw [hread]⟩ (by rw [hread])
  have hps := H265Packetizer.packetizeNalu_eq st (h₀ :: h' :: data) last hmtu
  rw [hpayloads] at hps
  rw [transparent_iff hps, H265Depacketizer.pushPacket_eq, hiff, hread]
  exact hbodies

/-- **Fragmentation is transparent** for every NAL unit that is too long for a packet and has a
header that is read in a single one, but for the units of H264 with the forbidden bit set. -/
theorem h264_h265_transparent_iff {header : UInt8} (hheader : header ∈ nalu.head?) :
    (1 ≤ header &&& 0x1F ∧ header &&& 0x1F ≤ 23 →
      (Transparent H264Packetizer.packetizeNalu H264Depacketizer.pushPacket st nalu last ↔
        header &&& 0x80 = 0)) ∧
    (h265NalType header ≤ 47 →
      Transparent H265Packetizer.packetizeNalu H265Depacketizer.pushPacket st nalu last) :=
  ⟨h264_transparent_iff st hmtu hlen last hheader, h265_transparent st hmtu hlen last hheader⟩

end Codecs

/-- A packetizer and a NAL unit of 1301 bytes with the given header. -/
def longNalu (header : UInt8) : PacketizerState ℚ × Bytes :=
  (.new TickClock.exact 1 2 0 0, header :: List.replicate 1300 7)

theorem length_longNalu (header : UInt8) : DEFAULT_MTU < (longNalu header).2.length := by
  rw [longNalu, List.length_cons, List.length_replicate]
  decide

theorem h264_h265_transparent_iff_slice :
    (Transparent H264Packetizer.packetizeNalu H264Depacketizer.pushPacket (longNalu 0x65).1
        (longNalu 0x65).2 true ↔ (0x65 : UInt8) &&& 0x80 = 0) ∧
      Transparent H265Packetizer.packetizeNalu H265Depacketizer.pushPacket (longNalu 0x27).1
        (longNalu 0x27).2 true :=
  ⟨(h264_h265_transparent_iff (longNalu 0x65).1 rfl (length_longNalu _) true rfl).1 (by decide),
    (h264_h265_transparent_iff (longNalu 0x27).1 rfl (length_longNalu _) true rfl).2 (by decide)⟩

/-- Of a slice with the forbidden bit set the fragments lose that bit. -/
theorem h264_h265_not_transparent : ¬ ∀ (nalu : Bytes) (header : UInt8), header ∈ nalu.head? →
    DEFAULT_MTU < nalu.length → ∀ last : Bool,
      (1 ≤ header &&& 0x1F ∧ header &&& 0x1F ≤ 23 →
        Transparent H264Packetizer.packetizeNalu H264Depacketizer.pushPacket (longNalu 0).1 nalu
          last) ∧
      (h265NalType header ≤ 47 →
        Transparent H265Packetizer.packetizeNalu H265Depacketizer.pushPacket (longNalu 0).1 nalu
          last) := by
  intro hall
  have hlen := length_longNalu 0xE5
  have h := (hall (longNalu 0xE5).2 0xE5 rfl hlen true).1 (by decide)
  have hbit := (h264_transparent_iff (longNalu 0).1 rfl hlen true rfl (by decide)).mp h
  exact absurd hbit (by decide)

end NativeVoice.Video
