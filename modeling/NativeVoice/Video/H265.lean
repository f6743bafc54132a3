import NativeVoice.Lib.Chunks
import NativeVoice.Video.H26x

/-!
# H.265

The payload format of `src/src/video/h265.rs`: single NAL units, aggregation packets, of which the
packetizer makes none, and fragmentation units.
-/

namespace NativeVoice.Video

open Lib.Chunks Lib.StartCode

/-- `h265_nal_type`, of the first byte of a payload. -/
def h265NalType (header : UInt8) : UInt8 := header >>> 1 &&& 0x3F

/-! ## Depacketizer -/

abbrev H265Depacketizer := DepacketizerState

namespace H265Depacketizer

def new : H265Depacketizer := {}

def pushAggregationPacket (d : H265Depacketizer) (payload : Bytes) :
    Fallible PacketError Unit × H265Depacketizer :=
  if payload.length < 4 then (.error (.err .invalidPayload), d) else d.pushUnits payload 2

def pushFragmentationUnit (d : H265Depacketizer) (payload : Bytes) :
    Fallible PacketError Unit × H265Depacketizer :=
  match payload with
  | fuIndicator0 :: fuIndicator1 :: fuHeader :: data =>
    let start := fuHeader &&& 0x80 != 0
    let nalType := fuHeader &&& 0x3F
    if nalType > 47 then (.error (.err .invalidPayload), d)
    else if start then
      (.ok (), { d with
        frame := d.frame ++ ANNEX_B_START_CODE ++
          [fuIndicator0 &&& 0x81 ||| nalType <<< (1 : UInt8)] ++ [fuIndicator1] ++ data })
    else if d.frame.isEmpty then (.ok (), d.discardFrame)
    else (.ok (), { d with frame := d.frame ++ data })
  | _ => (.error (.err .invalidPayload), d)

def pushPacket (d : H265Depacketizer) (payload : Bytes) (marker : Bool) (sequence : UInt16)
    (timestamp : UInt32) : Fallible PacketError (Option Bytes) × H265Depacketizer :=
  match payload with
  | header :: _ :: _ =>
    let d := d.beginPacket sequence timestamp
    if d.isDiscarding then d.finishIf marker
    else
      let nalType := h265NalType header
      let r : Fallible PacketError Unit × H265Depacketizer :=
        if nalType ≤ 47 then (.ok (), d.pushNalu payload)
        else if nalType = 48 then pushAggregationPacket d payload
        else if nalType = 49 then pushFragmentationUnit d payload
        else (.error (.err .unsupportedCodec), d)
      match r with
      | (.error e, d) => (.error e, d)
      | (.ok _, d) => d.finishIf marker
  | _ => (.error (.err .invalidPayload), d)

/-- How `push_packet` reads a payload. -/
def reading (payload : Bytes) : Reading :=
  match payload with
  | header :: header' :: rest =>
    let nalType := h265NalType header
    if nalType ≤ 47 then ⟨true, ANNEX_B_START_CODE ++ payload, none⟩
    else if nalType = 48 then
      if rest.length < 2 then ⟨true, [], some .invalidPayload⟩
      else ⟨true, annexB (readUnits rest).1,
        if (readUnits rest).2 then none else some .invalidPayload⟩
    else if nalType = 49 then match rest with
      | [] => ⟨true, [], some .invalidPayload⟩
      | fuHeader :: data =>
        let nalType := fuHeader &&& 0x3F
        if nalType > 47 then ⟨true, [], some .invalidPayload⟩
        else if fuHeader &&& 0x80 != 0 then
          ⟨true, ANNEX_B_START_CODE ++
            (header &&& 0x81 ||| nalType <<< (1 : UInt8)) :: header' :: data, none⟩
        else ⟨false, data, none⟩
    else ⟨true, [], some .unsupportedCodec⟩
  | _ => ⟨true, [], some .invalidPayload⟩

def reader : PayloadReader where
  minLength := 2
  read := reading

/-- **`push_packet` does with a payload what `reading` says.** -/
theorem pushPacket_eq : pushPacket = reader.push := by
  funext d payload marker sequence timestamp
  match payload with
  | [] => rfl
  | [_] => rfl
  | header :: header' :: rest =>
    unfold pushPacket PayloadReader.push
    rw [if_neg (by simp [reader])]
    dsimp only
    generalize d.beginPacket sequence timestamp = d
    unfold DepacketizerState.absorb
    by_cases hd : d.isDiscarding = true
    · rw [if_pos hd, if_pos hd]
    rw [if_neg hd, if_neg hd]
    simp only [reader, reading]
    by_cases hsingle : h265NalType header ≤ 47
    · simp [hsingle, DepacketizerState.pushNalu]
    rw [if_neg hsingle, if_neg hsingle]
    by_cases hap : h265NalType header = 48
    · simp only [hap, if_true, pushAggregationPacket, List.length_cons]
      by_cases hlen : rest.length < 2
      · rw [if_pos hlen, if_pos (by omega)]
        simp
      · rw [if_neg hlen, if_neg (by omega), DepacketizerState.pushUnits_eq _ _ _ (by simp)]
        simp only [List.drop_succ_cons, List.drop_zero, Bool.not_true, Bool.false_and]
        cases (readUnits rest).2 <;> rfl
    rw [if_neg hap, if_neg hap]
    by_cases hfu : h265NalType header = 49
    · simp only [hfu, if_true]
      cases rest with
      | nil => simp [pushFragmentationUnit]
      | cons fuHeader data =>
        simp only [pushFragmentationUnit]
        by_cases hbad : fuHeader &&& 0x3F > 47
        · simp [hbad]
        · cases hs : fuHeader &&& 0x80 != 0 with
          | true => simp [hbad]
          | false => cases he : d.frame.isEmpty <;> simp [hbad]
    · simp [hfu]

end H265Depacketizer

/-! ## Packetizer -/

abbrev H265Packetizer (ρ : Type) := PacketizerState ρ

namespace H265Packetizer

variable {τ ρ : Type} (clock : TickClock τ ρ)

def new (ssrc : UInt32) (payloadType : UInt8) (sequence : UInt16) (timestamp : UInt32) :
    H265Packetizer ρ := PacketizerState.new clock ssrc payloadType sequence timestamp

/-- The packets of one NAL unit, of which the last one gets the marker if `isLastNalu`. -/
def packetizeNalu (st : PacketizerState ρ) (nalu : Bytes) (isLastNalu : Bool) :
    Fallible PacketError (List MediaPacket) × PacketizerState ρ :=
  if nalu.length ≤ st.mtu then
    let (packet, st) := st.packetForPayload nalu isLastNalu
    (.ok [packet], st)
  else match nalu with
    | naluHeader0 :: naluHeader1 :: naluData =>
      let nalType := h265NalType naluHeader0
      let maxChunk := st.mtu - 3
      if maxChunk = 0 then (.error (.err .payloadTooLarge), st)
      else
        let chunkCount := (naluData.length + maxChunk - 1) / maxChunk
        let payloads := (chunksOf maxChunk naluData).mapIdx fun index chunk =>
          let first := index = 0
          let last := index + 1 = chunkCount
          ((naluHeader0 &&& 0x81 ||| (49 : UInt8) <<< (1 : UInt8)) :: naluHeader1 ::
            ((if first then 0x80 else 0) ||| (if last then 0x40 else 0) ||| nalType) :: chunk,
            isLastNalu && decide last)
        let (packets, st) := st.packetsForPayloads payloads
        (.ok packets, st)
    | _ => (.error (.err .invalidPayload), st)

def packetize (p : H265Packetizer ρ) (frame : Bytes) (frameTimeMs : τ) :
    Fallible PacketError (List MediaPacket) × H265Packetizer ρ :=
  packetizeFrame clock packetizeNalu p frame frameTimeMs

/-! ## NAL units -/

open H265Depacketizer

/-- One of the payloads in which a NAL unit with this header is sent in fragments. -/
def fuPayload (naluHeader0 naluHeader1 : UInt8) (count index : ℕ) (chunk : Bytes) : Bytes :=
  (naluHeader0 &&& 0x81 ||| (49 : UInt8) <<< (1 : UInt8)) :: naluHeader1 ::
    ((if index = 0 then 0x80 else 0) ||| (if index + 1 = count then 0x40 else 0) |||
      h265NalType naluHeader0) :: chunk

def naluPayloads (nalu : Bytes) : List Bytes :=
  if nalu.length ≤ DEFAULT_MTU then [nalu]
  else match nalu with
    | naluHeader0 :: naluHeader1 :: naluData =>
      let chunks := chunksOf (DEFAULT_MTU - 3) naluData
      chunks.mapIdx (fuPayload naluHeader0 naluHeader1 chunks.length)
    | _ => []

theorem exists_header_data {nalu : Bytes} (h : ¬ nalu.length ≤ DEFAULT_MTU) :
    ∃ naluHeader0 naluHeader1 naluData, nalu = naluHeader0 :: naluHeader1 :: naluData ∧
      naluData ≠ [] := by
  match nalu, h with
  | [], h => exact absurd (by simp) h
  | [_], h => exact absurd (by simp [DEFAULT_MTU]) h
  | [_, _], h => exact absurd (by simp [DEFAULT_MTU]) h
  | a :: b :: c :: l, _ => exact ⟨a, b, c :: l, rfl, by simp⟩

theorem naluPayloads_ne_nil (nalu : Bytes) : naluPayloads nalu ≠ [] := by
  unfold naluPayloads
  split
  · simp
  · rename_i hlen
    obtain ⟨naluHeader0, naluHeader1, naluData, rfl, hdata⟩ := exists_header_data hlen
    have := chunksOf_ne_nil (n := DEFAULT_MTU - 3) (by decide) hdata
    simpa using this

theorem packetizeNalu_eq (st : PacketizerState ρ) (nalu : Bytes) (last : Bool)
    (hmtu : st.mtu = DEFAULT_MTU) : packetizeNalu st nalu last =
      (.ok (st.packetsForPayloads (markLast last (naluPayloads nalu))).1,
        (st.packetsForPayloads (markLast last (naluPayloads nalu))).2) := by
  unfold packetizeNalu naluPayloads
  rw [hmtu]
  split
  · rfl
  · rename_i hlen
    obtain ⟨naluHeader0, naluHeader1, naluData, rfl, _⟩ := exists_header_data hlen
    have hchunks := length_chunksOf (n := DEFAULT_MTU - 3) (by decide) naluData
    dsimp only
    rw [if_neg (by decide), ← hchunks, markLast_eq_mapIdx, List.mapIdx_mapIdx]
    simp [fuPayload, Function.comp_def]

/-! ### Header bits -/

theorem fuIndicator_type : ∀ h : UInt8,
    h265NalType (h &&& 0x81 ||| (49 : UInt8) <<< (1 : UInt8)) = 49 := by
  rintro ⟨h⟩
  revert h
  decide

theorem fuIndicator_header : ∀ h : UInt8, (h &&& 0x81 ||| (49 : UInt8) <<< (1 : UInt8)) &&& 0x81 |||
    h265NalType h <<< (1 : UInt8) = h := by
  rintro ⟨h⟩
  revert h
  decide

theorem fuHeader_type : ∀ (h : UInt8) (first last : Bool),
    ((if first then 0x80 else 0) ||| (if last then 0x40 else 0) ||| h265NalType h) &&& 0x3F =
      h265NalType h := by
  rintro ⟨h⟩
  revert h
  decide

theorem fuHeader_start : ∀ (h : UInt8) (first last : Bool),
    (((if first then 0x80 else 0) ||| (if last then 0x40 else 0) ||| h265NalType h) &&& 0x80 != 0) =
      first := by
  rintro ⟨h⟩
  revert h
  decide

theorem reading_fu {fuIndicator0 : UInt8} (h : h265NalType fuIndicator0 = 49)
    (fuIndicator1 fuHeader : UInt8) (data : Bytes) :
    reading (fuIndicator0 :: fuIndicator1 :: fuHeader :: data) =
      if fuHeader &&& 0x3F > 47 then ⟨true, [], some .invalidPayload⟩
      else if fuHeader &&& 0x80 != 0 then
        ⟨true, ANNEX_B_START_CODE ++
          (fuIndicator0 &&& 0x81 ||| (fuHeader &&& 0x3F) <<< (1 : UInt8)) :: fuIndicator1 :: data,
          none⟩
      else ⟨false, data, none⟩ := by
  simp [reading, h]

theorem reading_fuPayload (h h' : UInt8) (count index : ℕ) (chunk : Bytes) :
    reading (fuPayload h h' count index chunk) =
      if h265NalType h > 47 then ⟨true, [], some .invalidPayload⟩
      else if index = 0 then ⟨true, ANNEX_B_START_CODE ++ [h, h'] ++ chunk, none⟩
      else ⟨false, chunk, none⟩ := by
  have htype := fuHeader_type h (index = 0) (index + 1 = count)
  have hstart := fuHeader_start h (index = 0) (index + 1 = count)
  simp only [decide_eq_true_eq] at htype hstart
  rw [fuPayload, reading_fu (fuIndicator_type h), htype, hstart, fuIndicator_header]
  simp

/-- The NAL units that come through: those with a type of their own. -/
def Intact (nalu : Bytes) : Prop :=
  2 ≤ nalu.length ∧ ∃ h ∈ nalu.head?, h265NalType h ≤ 47

theorem reading_single {h : UInt8} (ht : h265NalType h ≤ 47) (h' : UInt8) (data : Bytes) :
    reading (h :: h' :: data) = ⟨true, ANNEX_B_START_CODE ++ h :: h' :: data, none⟩ := by
  simp [reading, ht]

section Fragments

variable {h h' : UInt8} {naluData : Bytes} (hlen : ¬ (h :: h' :: naluData).length ≤ DEFAULT_MTU)
  (hdata : naluData ≠ [])

include hlen

theorem naluPayloads_fragments : naluPayloads (h :: h' :: naluData) =
    (chunksOf (DEFAULT_MTU - 3) naluData).mapIdx
      (fuPayload h h' (chunksOf (DEFAULT_MTU - 3) naluData).length) := by
  rw [naluPayloads, if_neg hlen]

theorem mem_naluPayloads_fragments {x : Bytes} (hx : x ∈ naluPayloads (h :: h' :: naluData)) :
    ∃ i c, c ≠ [] ∧ x = fuPayload h h' (chunksOf (DEFAULT_MTU - 3) naluData).length i c := by
  rw [naluPayloads_fragments hlen] at hx
  obtain ⟨i, hi, rfl⟩ := List.mem_mapIdx.1 hx
  exact ⟨i, _, (mem_chunksOf (n := DEFAULT_MTU - 3) (by decide) (List.getElem_mem hi)).1, rfl⟩

theorem accepted_fragments (ht : ¬ h265NalType h > 47) {x : Bytes}
    (hx : x ∈ naluPayloads (h :: h' :: naluData)) : reader.Accepted x := by
  obtain ⟨i, c, _, rfl⟩ := mem_naluPayloads_fragments hlen hx
  refine ⟨by simp [reader, fuPayload], ?_⟩
  simp only [reader, reading_fuPayload, if_neg ht]
  split <;> rfl

include hdata

theorem head_fragments (ht : ¬ h265NalType h > 47) :
    ∃ x xs, naluPayloads (h :: h' :: naluData) = x :: xs ∧ (reader.read x).opens ∧
      (reader.read x).body ≠ [] := by
  obtain ⟨c, cs, hcs⟩ := List.exists_cons_of_ne_nil
    (chunksOf_ne_nil (n := DEFAULT_MTU - 3) (by decide) hdata)
  refine ⟨_, _, by rw [naluPayloads_fragments hlen, hcs, List.mapIdx_cons], ?_⟩
  simp only [reader, reading_fuPayload, if_neg ht]
  exact ⟨rfl, by simp [ANNEX_B_START_CODE]⟩

theorem bodies_fragments (ht : ¬ h265NalType h > 47) :
    (naluPayloads (h :: h' :: naluData)).flatMap (fun x => (reading x).body) =
      ANNEX_B_START_CODE ++ h :: h' :: naluData := by
  have hne := chunksOf_ne_nil (n := DEFAULT_MTU - 3) (by decide) hdata
  rw [naluPayloads_fragments hlen, flatMap_fragments hne
    (ANNEX_B_START_CODE ++ [h, h']), flatten_chunksOf (by decide)]
  · simp
  · intro i c
    rw [reading_fuPayload, if_neg ht]
    split <;> rfl

end Fragments

theorem restores {nalu : Bytes} (hi : Intact nalu) : Restores reader (naluPayloads nalu) nalu := by
  obtain ⟨htwo, h, hhead, htype⟩ := hi
  by_cases hlen : nalu.length ≤ DEFAULT_MTU
  · match nalu, htwo, hhead with
    | h₀ :: h' :: naluData, _, hhead =>
      obtain rfl : h₀ = h := by simpa using hhead
      have hp : naluPayloads (h₀ :: h' :: naluData) = [h₀ :: h' :: naluData] := by
        rw [naluPayloads, if_pos hlen]
      have hr := reading_single htype h' naluData
      constructor <;> simp [hp, reader, PayloadReader.Accepted, hr, ANNEX_B_START_CODE]
  · obtain ⟨h₀, h', naluData, rfl, hdata⟩ := exists_header_data hlen
    obtain rfl : h₀ = h := by simpa using hhead
    have htype : ¬ h265NalType h₀ > 47 := by simpa using htype
    refine ⟨fun x hx => accepted_fragments hlen htype hx, fun x hx ho => ?_, ?_, ?_⟩
    · obtain ⟨i, c, hc, rfl⟩ := mem_naluPayloads_fragments hlen hx
      simp only [reader, reading_fuPayload, if_neg htype]
      split
      · simp [ANNEX_B_START_CODE]
      · exact hc
    · obtain ⟨x, xs, hxs, hopens, -⟩ := head_fragments hlen hdata htype
      exact ⟨x, by rw [hxs, List.head?_cons]; rfl, hopens⟩
    · exact bodies_fragments hlen hdata htype

/-- A NAL unit that is sent as it is, but not read as a single one. -/
theorem short_single {h : UInt8} (ht : ¬ h265NalType h ≤ 47) (h' : UInt8) (naluData : Bytes) :
    (reading (h :: h' :: naluData)).body.length <
      4 * codes (reading (h :: h' :: naluData)).body + (h :: h' :: naluData).length := by
  have hunits := length_annexB_readUnits naluData
  by_cases hap : h265NalType h = 48
  · by_cases hshort : naluData.length < 2
    · simp [reading, hap, hshort]
    · have : (reading (h :: h' :: naluData)).body = annexB (readUnits naluData).1 := by
        simp [reading, hap, hshort]
      rw [this, List.length_cons, List.length_cons]
      omega
  by_cases hfu : h265NalType h = 49
  · cases naluData with
    | nil => simp [reading, hfu]
    | cons fuHeader data =>
      rw [reading_fu hfu]
      split
      · simp
      · split
        · have := codes_startCode_append
            ((h &&& 0x81 ||| (fuHeader &&& 0x3F) <<< (1 : UInt8)) :: h' :: data)
          rw [length_startCode_append]
          simp only [ANNEX_B_START_CODE, Lib.StartCode.startCode, List.length_cons] at this ⊢
          omega
        · simp only [List.length_cons]
          omega
  · simp [reading, ht, hap, hfu]

theorem spoils {nalu : Bytes} (hne : nalu ≠ []) (hi : ¬ Intact nalu) :
    Spoiled nalu (reader.contribution (naluPayloads nalu)) := by
  by_cases hlen : nalu.length ≤ DEFAULT_MTU
  · have hp : naluPayloads nalu = [nalu] := by
      unfold naluPayloads
      exact if_pos hlen
    match nalu, hne with
    | [h], _ =>
      have hc : reader.contribution (naluPayloads [h]) = [] := by
        simp [hp, PayloadReader.contribution, reader]
      exact .short (by simp [hc])
    | h :: h' :: naluData, _ =>
      have hc : reader.contribution (naluPayloads (h :: h' :: naluData)) =
          (reading (h :: h' :: naluData)).body := by
        simp [hp, PayloadReader.contribution, reader]
      rw [hc]
      exact .short (short_single (fun ht => hi ⟨by simp, h, rfl, ht⟩) h' naluData)
  · obtain ⟨h, h', naluData, rfl, hdata⟩ := exists_header_data hlen
    have ht : h265NalType h > 47 := by
      by_contra ht
      exact hi ⟨by simp, h, rfl, by simpa using ht⟩
    have hc : reader.contribution (naluPayloads (h :: h' :: naluData)) = [] := by
      rw [PayloadReader.contribution, List.flatMap_eq_nil_iff]
      intro x hx
      obtain ⟨i, c, _, rfl⟩ := mem_naluPayloads_fragments hlen (List.mem_filter.1 hx).1
      simp only [reader, reading_fuPayload, if_pos ht]
    exact .short (by simp [hc])

/-- H.265 at the packet size that is always used. -/
def codec : NalCodec where
  reader := reader
  payloads := naluPayloads
  Intact := Intact
  restores _ := restores
  spoils _ := spoils
  payloads_ne_nil n _ := naluPayloads_ne_nil n

end H265Packetizer

end NativeVoice.Video
