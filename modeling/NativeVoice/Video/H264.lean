import NativeVoice.Lib.Chunks
import NativeVoice.Video.H26x

/-!
# H.264

The payload format of `src/src/video/h264.rs`: single NAL units, STAP-A aggregations, of which the
packetizer makes none, and FU-A fragments.
-/

namespace NativeVoice.Video

open Lib.Chunks Lib.StartCode

/-! ## Depacketizer -/

abbrev H264Depacketizer := DepacketizerState

namespace H264Depacketizer

def new : H264Depacketizer := {}

def pushStapA (d : H264Depacketizer) (payload : Bytes) :
    Fallible PacketError Unit × H264Depacketizer := d.pushUnits payload 1

def pushFuA (d : H264Depacketizer) (payload : Bytes) :
    Fallible PacketError Unit × H264Depacketizer :=
  match payload with
  | fuIndicator :: fuHeader :: data =>
    let start := fuHeader &&& 0x80 != 0
    let nalType := fuHeader &&& 0x1F
    if nalType = 0 ∨ nalType > 23 then (.error (.err .invalidPayload), d)
    else if start then
      (.ok (), { d with
        frame := d.frame ++ ANNEX_B_START_CODE ++ [fuIndicator &&& 0xE0 ||| nalType] ++ data })
    else if d.frame.isEmpty then (.ok (), d.discardFrame)
    else (.ok (), { d with frame := d.frame ++ data })
  | _ => (.error (.err .invalidPayload), d)

def pushPacket (d : H264Depacketizer) (payload : Bytes) (marker : Bool) (sequence : UInt16)
    (timestamp : UInt32) : Fallible PacketError (Option Bytes) × H264Depacketizer :=
  match payload with
  | [] => (.error (.err .invalidPayload), d)
  | header :: _ =>
    let d := d.beginPacket sequence timestamp
    if d.isDiscarding then d.finishIf marker
    else
      let nalType := header &&& 0x1F
      let r : Fallible PacketError Unit × H264Depacketizer :=
        if 1 ≤ nalType ∧ nalType ≤ 23 then (.ok (), d.pushNalu payload)
        else if nalType = 24 then pushStapA d payload
        else if nalType = 28 then pushFuA d payload
        else (.error (.err .unsupportedCodec), d)
      match r with
      | (.error e, d) => (.error e, d)
      | (.ok _, d) => d.finishIf marker

/-- How `push_packet` reads a payload. -/
def reading (payload : Bytes) : Reading :=
  match payload with
  | [] => ⟨true, [], some .invalidPayload⟩
  | header :: rest =>
    let nalType := header &&& 0x1F
    if 1 ≤ nalType ∧ nalType ≤ 23 then ⟨true, ANNEX_B_START_CODE ++ payload, none⟩
    else if nalType = 24 then
      ⟨true, annexB (readUnits rest).1, if (readUnits rest).2 then none else some .invalidPayload⟩
    else if nalType = 28 then match rest with
      | [] => ⟨true, [], some .invalidPayload⟩
      | fuHeader :: data =>
        let nalType := fuHeader &&& 0x1F
        if nalType = 0 ∨ nalType > 23 then ⟨true, [], some .invalidPayload⟩
        else if fuHeader &&& 0x80 != 0 then
          ⟨true, ANNEX_B_START_CODE ++ (header &&& 0xE0 ||| nalType) :: data, none⟩
        else ⟨false, data, none⟩
    else ⟨true, [], some .unsupportedCodec⟩

def reader : PayloadReader where
  minLength := 1
  read := reading

/-- **`push_packet` does with a payload what `reading` says.** -/
theorem pushPacket_eq : pushPacket = reader.push := by
  funext d payload marker sequence timestamp
  cases payload with
  | nil => rfl
  | cons header rest =>
    unfold pushPacket PayloadReader.push
    rw [if_neg (by simp [reader])]
    dsimp only
    generalize d.beginPacket sequence timestamp = d
    unfold DepacketizerState.absorb
    by_cases hd : d.isDiscarding = true
    · rw [if_pos hd, if_pos hd]
    rw [if_neg hd, if_neg hd]
    simp only [reader, reading]
    by_cases hsingle : 1 ≤ header &&& 0x1F ∧ header &&& 0x1F ≤ 23
    · simp [hsingle, DepacketizerState.pushNalu]
    rw [if_neg hsingle, if_neg hsingle]
    by_cases hstap : header &&& 0x1F = 24
    · simp only [hstap, if_true]
      rw [pushStapA, DepacketizerState.pushUnits_eq _ _ _ (by simp)]
      simp only [List.drop_one, List.tail_cons, Bool.not_true, Bool.false_and]
      cases (readUnits rest).2 <;> rfl
    rw [if_neg hstap, if_neg hstap]
    by_cases hfu : header &&& 0x1F = 28
    · simp only [hfu, if_true]
      cases rest with
      | nil => simp [pushFuA]
      | cons fuHeader data =>
        simp only [pushFuA]
        by_cases hbad : fuHeader &&& 0x1F = 0 ∨ fuHeader &&& 0x1F > 23
        · simp [hbad]
        · cases hs : fuHeader &&& 0x80 != 0 with
          | true => simp [hbad]
          | false => cases he : d.frame.isEmpty <;> simp [hbad]
    · simp [hfu]

end H264Depacketizer

/-! ## Packetizer -/

abbrev H264Packetizer (ρ : Type) := PacketizerState ρ

namespace H264Packetizer

variable {τ ρ : Type} (clock : TickClock τ ρ)

def new (ssrc : UInt32) (payloadType : UInt8) (sequence : UInt16) (timestamp : UInt32) :
    H264Packetizer ρ := PacketizerState.new clock ssrc payloadType sequence timestamp

/-- The packets of one NAL unit, of which the last one gets the marker if `isLastNalu`. -/
def packetizeNalu (st : PacketizerState ρ) (nalu : Bytes) (isLastNalu : Bool) :
    Fallible PacketError (List MediaPacket) × PacketizerState ρ :=
  if nalu.length ≤ st.mtu then
    let (packet, st) := st.packetForPayload nalu isLastNalu
    (.ok [packet], st)
  else match nalu with
    | [] => (.error (.err .emptyFrame), st)
    | naluHeader :: naluData =>
      let nalType := naluHeader &&& 0x1F
      let nri := naluHeader &&& 0x60
      let maxChunk := st.mtu - 2
      if maxChunk = 0 then (.error (.err .payloadTooLarge), st)
      else
        let chunkCount := (naluData.length + maxChunk - 1) / maxChunk
        let payloads := (chunksOf maxChunk naluData).mapIdx fun index chunk =>
          let first := index = 0
          let last := index + 1 = chunkCount
          ((0x1C ||| nri) ::
            ((if first then 0x80 else 0) ||| (if last then 0x40 else 0) ||| nalType) :: chunk,
            isLastNalu && decide last)
        let (packets, st) := st.packetsForPayloads payloads
        (.ok packets, st)

def packetize (p : H264Packetizer ρ) (frame : Bytes) (frameTimeMs : τ) :
    Fallible PacketError (List MediaPacket) × H264Packetizer ρ :=
  packetizeFrame clock packetizeNalu p frame frameTimeMs

/-! ## NAL units -/

open H264Depacketizer

/-- One of the payloads in which a NAL unit with this header is sent in fragments. -/
def fuPayload (naluHeader : UInt8) (count index : ℕ) (chunk : Bytes) : Bytes :=
  (0x1C ||| naluHeader &&& 0x60) ::
    ((if index = 0 then 0x80 else 0) ||| (if index + 1 = count then 0x40 else 0) |||
      naluHeader &&& 0x1F) :: chunk

def naluPayloads (nalu : Bytes) : List Bytes :=
  if nalu.length ≤ DEFAULT_MTU then [nalu]
  else match nalu with
    | [] => []
    | naluHeader :: naluData =>
      let chunks := chunksOf (DEFAULT_MTU - 2) naluData
      chunks.mapIdx (fuPayload naluHeader chunks.length)

theorem length_header_data {naluHeader : UInt8} {naluData : Bytes}
    (h : ¬ (naluHeader :: naluData).length ≤ DEFAULT_MTU) : naluData ≠ [] := by
  rintro rfl
  exact h (by simp [DEFAULT_MTU])

theorem naluPayloads_ne_nil {nalu : Bytes} (h : nalu ≠ []) : naluPayloads nalu ≠ [] := by
  unfold naluPayloads
  split
  · simp
  · rename_i hlen
    obtain ⟨naluHeader, naluData, rfl⟩ := List.exists_cons_of_ne_nil h
    have := chunksOf_ne_nil (n := DEFAULT_MTU - 2) (by decide) (length_header_data hlen)
    simpa using this

theorem packetizeNalu_eq (st : PacketizerState ρ) (nalu : Bytes) (last : Bool)
    (hmtu : st.mtu = DEFAULT_MTU) (h : nalu ≠ []) : packetizeNalu st nalu last =
      (.ok (st.packetsForPayloads (markLast last (naluPayloads nalu))).1,
        (st.packetsForPayloads (markLast last (naluPayloads nalu))).2) := by
  unfold packetizeNalu naluPayloads
  rw [hmtu]
  split
  · rfl
  · obtain ⟨naluHeader, naluData, rfl⟩ := List.exists_cons_of_ne_nil h
    have hchunks := length_chunksOf (n := DEFAULT_MTU - 2) (by decide) naluData
    dsimp only
    rw [if_neg (by decide), ← hchunks, markLast_eq_mapIdx, List.mapIdx_mapIdx]
    simp [fuPayload, Function.comp_def]

/-! ### Header bits -/

theorem fuIndicator_type : ∀ h : UInt8, (0x1C ||| h &&& 0x60) &&& 0x1F = 28 := by
  rintro ⟨h⟩
  revert h
  decide

theorem fuIndicator_header : ∀ h : UInt8,
    (0x1C ||| h &&& 0x60) &&& 0xE0 ||| h &&& 0x1F = h &&& 0x7F := by
  rintro ⟨h⟩
  revert h
  decide

theorem fuHeader_type : ∀ (h : UInt8) (first last : Bool),
    ((if first then 0x80 else 0) ||| (if last then 0x40 else 0) ||| h &&& 0x1F) &&& 0x1F =
      h &&& 0x1F := by
  rintro ⟨h⟩
  revert h
  decide

theorem fuHeader_start : ∀ (h : UInt8) (first last : Bool),
    (((if first then 0x80 else 0) ||| (if last then 0x40 else 0) ||| h &&& 0x1F) &&& 0x80 != 0) =
      first := by
  rintro ⟨h⟩
  revert h
  decide

theorem reading_fu {fuIndicator : UInt8} (h : fuIndicator &&& 0x1F = 28) (fuHeader : UInt8)
    (data : Bytes) : reading (fuIndicator :: fuHeader :: data) =
      if fuHeader &&& 0x1F = 0 ∨ fuHeader &&& 0x1F > 23 then ⟨true, [], some .invalidPayload⟩
      else if fuHeader &&& 0x80 != 0 then
        ⟨true, ANNEX_B_START_CODE ++ (fuIndicator &&& 0xE0 ||| fuHeader &&& 0x1F) :: data, none⟩
      else ⟨false, data, none⟩ := by
  simp [reading, h]

theorem reading_fuPayload (h : UInt8) (count index : ℕ) (chunk : Bytes) :
    reading (fuPayload h count index chunk) =
      if h &&& 0x1F = 0 ∨ h &&& 0x1F > 23 then ⟨true, [], some .invalidPayload⟩
      else if index = 0 then ⟨true, ANNEX_B_START_CODE ++ [h &&& 0x7F] ++ chunk, none⟩
      else ⟨false, chunk, none⟩ := by
  have htype := fuHeader_type h (index = 0) (index + 1 = count)
  have hstart := fuHeader_start h (index = 0) (index + 1 = count)
  simp only [decide_eq_true_eq] at htype hstart
  rw [fuPayload, reading_fu (fuIndicator_type h), htype, hstart, fuIndicator_header]
  simp

/-- The NAL units that come through: those with a type of their own, unless the forbidden bit is set
and fragments lose it. -/
def Intact (nalu : Bytes) : Prop :=
  ∃ h ∈ nalu.head?, 1 ≤ h &&& 0x1F ∧ h &&& 0x1F ≤ 23 ∧
    (nalu.length ≤ DEFAULT_MTU ∨ h &&& 0x7F = h)

theorem type_cases : ∀ h : UInt8,
    ¬ (h &&& 0x1F = 0 ∨ h &&& 0x1F > 23) ↔ 1 ≤ h &&& 0x1F ∧ h &&& 0x1F ≤ 23 := by
  rintro ⟨h⟩
  revert h
  decide

theorem reading_single {h : UInt8} (ht : 1 ≤ h &&& 0x1F ∧ h &&& 0x1F ≤ 23) (data : Bytes) :
    reading (h :: data) = ⟨true, ANNEX_B_START_CODE ++ h :: data, none⟩ := by
  simp [reading, ht]

section Fragments

variable {naluHeader : UInt8} {naluData : Bytes}
  (hlen : ¬ (naluHeader :: naluData).length ≤ DEFAULT_MTU)

include hlen

theorem naluPayloads_fragments : naluPayloads (naluHeader :: naluData) =
    (chunksOf (DEFAULT_MTU - 2) naluData).mapIdx
      (fuPayload naluHeader (chunksOf (DEFAULT_MTU - 2) naluData).length) := by
  rw [naluPayloads, if_neg hlen]

theorem bodies_fragments (ht : 1 ≤ naluHeader &&& 0x1F ∧ naluHeader &&& 0x1F ≤ 23) :
    (naluPayloads (naluHeader :: naluData)).flatMap (fun x => (reading x).body) =
      ANNEX_B_START_CODE ++ (naluHeader &&& 0x7F) :: naluData := by
  have hne := chunksOf_ne_nil (n := DEFAULT_MTU - 2) (by decide) (length_header_data hlen)
  rw [naluPayloads_fragments hlen, flatMap_fragments hne
    (ANNEX_B_START_CODE ++ [naluHeader &&& 0x7F]), flatten_chunksOf (by decide)]
  · simp
  · intro i c
    rw [reading_fuPayload, if_neg ((type_cases naluHeader).2 ht)]
    split <;> rfl

theorem mem_naluPayloads_fragments {x : Bytes} (hx : x ∈ naluPayloads (naluHeader :: naluData)) :
    ∃ i c, c ≠ [] ∧ x = fuPayload naluHeader (chunksOf (DEFAULT_MTU - 2) naluData).length i c := by
  rw [naluPayloads_fragments hlen] at hx
  obtain ⟨i, hi, rfl⟩ := List.mem_mapIdx.1 hx
  exact ⟨i, _, (mem_chunksOf (n := DEFAULT_MTU - 2) (by decide) (List.getElem_mem hi)).1, rfl⟩

theorem accepted_fragments (ht : 1 ≤ naluHeader &&& 0x1F ∧ naluHeader &&& 0x1F ≤ 23) {x : Bytes}
    (hx : x ∈ naluPayloads (naluHeader :: naluData)) : reader.Accepted x := by
  obtain ⟨i, c, _, rfl⟩ := mem_naluPayloads_fragments hlen hx
  refine ⟨by simp [reader, fuPayload], ?_⟩
  simp only [reader, reading_fuPayload, if_neg ((type_cases naluHeader).2 ht)]
  split <;> rfl

theorem head_fragments (ht : 1 ≤ naluHeader &&& 0x1F ∧ naluHeader &&& 0x1F ≤ 23) :
    ∃ x xs, naluPayloads (naluHeader :: naluData) = x :: xs ∧ (reader.read x).opens ∧
      (reader.read x).body ≠ [] := by
  obtain ⟨c, cs, hcs⟩ := List.exists_cons_of_ne_nil
    (chunksOf_ne_nil (n := DEFAULT_MTU - 2) (by decide) (length_header_data hlen))
  refine ⟨_, _, by rw [naluPayloads_fragments hlen, hcs, List.mapIdx_cons], ?_⟩
  simp [reader, reading_fuPayload, (type_cases naluHeader).2 ht, ANNEX_B_START_CODE]

end Fragments

theorem restores {nalu : Bytes} (h : Intact nalu) : Restores reader (naluPayloads nalu) nalu := by
  obtain ⟨naluHeader, hhead, hlo, hhi, hbit⟩ := h
  obtain ⟨naluData, rfl⟩ := List.head?_eq_some_iff.1 hhead
  by_cases hlen : (naluHeader :: naluData).length ≤ DEFAULT_MTU
  · have hp : naluPayloads (naluHeader :: naluData) = [naluHeader :: naluData] := by
      rw [naluPayloads, if_pos hlen]
    have hr := reading_single ⟨hlo, hhi⟩ naluData
    constructor <;> simp [hp, reader, PayloadReader.Accepted, hr, ANNEX_B_START_CODE]
  · have hheader : naluHeader &&& 0x7F = naluHeader := hbit.resolve_left hlen
    refine ⟨fun x hx => accepted_fragments hlen ⟨hlo, hhi⟩ hx, fun x hx ho => ?_, ?_, ?_⟩
    · obtain ⟨i, c, hc, rfl⟩ := mem_naluPayloads_fragments hlen hx
      simp only [reader, reading_fuPayload, if_neg ((type_cases naluHeader).2 ⟨hlo, hhi⟩)]
      split
      · simp [ANNEX_B_START_CODE]
      · exact hc
    · obtain ⟨x, xs, hxs, hopens, -⟩ := head_fragments hlen ⟨hlo, hhi⟩
      exact ⟨x, by rw [hxs, List.head?_cons]; rfl, hopens⟩
    · simpa [reader, hheader] using bodies_fragments hlen ⟨hlo, hhi⟩

/-- A NAL unit that is sent as it is, but not read as a single one. -/
theorem short_single {naluHeader : UInt8} {naluData : Bytes}
    (ht : ¬ (1 ≤ naluHeader &&& 0x1F ∧ naluHeader &&& 0x1F ≤ 23)) :
    (reading (naluHeader :: naluData)).body.length <
      4 * codes (reading (naluHeader :: naluData)).body + (naluHeader :: naluData).length := by
  have hunits := length_annexB_readUnits naluData
  by_cases hstap : naluHeader &&& 0x1F = 24
  · have : (reading (naluHeader :: naluData)).body = annexB (readUnits naluData).1 := by
      simp [reading, hstap]
    rw [this, List.length_cons]
    omega
  by_cases hfu : naluHeader &&& 0x1F = 28
  · cases naluData with
    | nil => simp [reading, hfu]
    | cons fuHeader data =>
      rw [reading_fu hfu]
      split
      · simp
      · split
        · have := codes_startCode_append
            ((naluHeader &&& 0xE0 ||| fuHeader &&& 0x1F) :: data)
          rw [length_startCode_append]
          simp only [ANNEX_B_START_CODE, Lib.StartCode.startCode, List.length_cons] at this ⊢
          omega
        · simp only [List.length_cons]
          omega
  · simp [reading, ht, hstap, hfu]

theorem spoils {nalu : Bytes} (hne : nalu ≠ []) (h : ¬ Intact nalu) :
    Spoiled nalu (reader.contribution (naluPayloads nalu)) := by
  obtain ⟨naluHeader, naluData, rfl⟩ := List.exists_cons_of_ne_nil hne
  by_cases hlen : (naluHeader :: naluData).length ≤ DEFAULT_MTU
  · have hc : reader.contribution (naluPayloads (naluHeader :: naluData)) =
        (reading (naluHeader :: naluData)).body := by
      rw [naluPayloads, if_pos hlen]
      simp [PayloadReader.contribution, reader]
    rw [hc]
    exact .short (short_single fun ht => h ⟨naluHeader, rfl, ht.1, ht.2, .inl hlen⟩)
  · have hc : reader.contribution (naluPayloads (naluHeader :: naluData)) =
        (naluPayloads (naluHeader :: naluData)).flatMap fun x => (reading x).body := by
      rw [PayloadReader.contribution, List.filter_eq_self.2]
      · rfl
      · intro x hx
        obtain ⟨i, c, _, rfl⟩ := mem_naluPayloads_fragments hlen hx
        simp [reader, fuPayload]
    rw [hc]
    by_cases ht : 1 ≤ naluHeader &&& 0x1F ∧ naluHeader &&& 0x1F ≤ 23
    · refine .altered ((naluHeader &&& 0x7F) :: naluData) (bodies_fragments hlen ht) (by simp) ?_
      intro hsame
      exact h ⟨naluHeader, rfl, ht.1, ht.2, .inr (List.cons.inj hsame).1⟩
    · have hnil : (naluPayloads (naluHeader :: naluData)).flatMap (fun x => (reading x).body) =
          [] := by
        rw [List.flatMap_eq_nil_iff]
        intro x hx
        obtain ⟨i, c, _, rfl⟩ := mem_naluPayloads_fragments hlen hx
        rw [reading_fuPayload, if_pos (not_not.1 fun hn => ht ((type_cases naluHeader).1 hn))]
      exact .short (by simp [hnil])

/-- H.264 at the packet size that is always used. -/
def codec : NalCodec where
  reader := reader
  payloads := naluPayloads
  Intact := Intact
  restores _ := restores
  spoils _ := spoils
  payloads_ne_nil _ := naluPayloads_ne_nil

end H264Packetizer

end NativeVoice.Video
